import Fogged.Native.IpAddr

/-!
# SOCKS5 requests (`orcax/client/src/main.rs`)

The part that `handle_socks5`, `quic_socks5` and `cdn_socks5` have in common: after
the negotiation each reads once from the client, into a buffer of 263 zero bytes, and
takes the target from that buffer.
-/

namespace Fogged.Native.Socks5

open Fogged.Native.Handshake

/-- How a request is refused. -/
inductive RequestError where
  | badSocks5
  | utf8
  | unsupported
  deriving DecidableEq

/-- `let mut r = [0u8; 263]`. -/
def bufferSize : Nat := 263

/-- A byte as `{}` formats it. -/
def decimal (b : UInt8) : Text :=
  (Nat.toDigits 10 b.toNat).map fun c => UInt8.ofNat c.toNat

/-- The target in what the read has returned. -/
def parseRequest (bytes : List UInt8) : Except RequestError (Text × UInt16) :=
  let r := bytes ++ List.replicate (bufferSize - bytes.length) 0
  let get (i : Nat) : UInt8 := r.getD i 0
  if bytes.length < 7 ∨ get 1 ≠ 1 then .error .badSocks5
  else
    match get 3 with
    | 1 =>
      let dot := ascii "."
      .ok (decimal (get 4) ++ dot ++ decimal (get 5) ++ dot ++ decimal (get 6) ++ dot ++
        decimal (get 7), UInt16.ofNat (Bytes.ofBE [get 8, get 9]))
    | 3 =>
      let l := (get 4).toNat
      let host := (r.drop 5).take l
      if Bytes.validUtf8 host then
        .ok (host, UInt16.ofNat (Bytes.ofBE [get (5 + l), get (6 + l)]))
      else .error .utf8
    | _ => .error .unsupported

example : parseRequest ([5, 1, 0, 3, 11] ++ ascii "example.org" ++ [1, 187]) =
    .ok (ascii "example.org", 443) := by decide +kernel

example : parseRequest [5, 1, 0, 1, 127, 0, 0, 1, 0, 80] = .ok (ascii "127.0.0.1", 80) := by
  decide +kernel

end Fogged.Native.Socks5
