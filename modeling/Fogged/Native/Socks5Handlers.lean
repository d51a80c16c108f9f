import Fogged.ForStd.Checked
import Fogged.ForStd.Indexed
import Fogged.ForStd.Socket
import Fogged.ForStd.Buffer
import Fogged.Native.Socks5
import Fogged.Native.Whitelist

/-!
# The SOCKS5 side of the client (`orcax/client/src/main.rs`, `tunnel.rs`)

A local application connects to a port of the client and speaks SOCKS5. The client reads
each of its messages with one call of `read`, into a buffer of zero bytes, and then looks
at the buffer: at what was read, and at the zeros behind it. Every access to a buffer is
checked.

First the negotiation with a token, `socks5_auth`, then the five handlers from the return
of their one read for the request on.
-/

namespace Fogged.Native.Socks5

open Fogged.Native.Handshake
open Buffer (filled)
open Socket (Io)

/-! ## Negotiation -/

/-- Generate the token; `bytes` are random. -/
def generateSocksToken (bytes : List.Vector UInt8 16) : Text := Hex.encode bytes.toList

/-- Why `socks5_auth` gives up; its two reads have a time-out of five seconds. -/
inductive AuthError where
  | timeout
  | authTimeout
  | badAuth
  | rejected
  | noMethod
  | io
  deriving DecidableEq

/-- What is written is a few bytes. -/
def write (bytes : List UInt8) : Io AuthError Unit := Socket.writeAll bytes (Socket.unaided .io)

/-- Username and password: `[ver:1][ulen:1][user:N][plen:1][pass:N]`. -/
def checkPassword (token : Text) (message : List UInt8) : Io AuthError Unit := do
  let auth := filled 515 0 message
  let version ← Indexed.get auth 0
  if message.length < 3 ∨ version ≠ 1 then throw .badAuth
  else do
    let ulen ← Indexed.get auth 1
    let plen ← Indexed.get auth (2 + ulen.toNat)
    let pass ← Buffer.slice auth (3 + ulen.toNat) (3 + ulen.toNat + plen.toNat)
    -- `from_utf8(..).unwrap_or("")`
    let pass := if Bytes.validUtf8 pass then pass else []
    if pass = token then write [1, 0]
    else do
      write [1, 1]
      throw .rejected

/-- Require username and password if the token is set. -/
def socks5Auth (token : Text) : Io AuthError Unit := do
  let greeting ← Socket.read 258 (Socket.timed .timeout .io)
  let b := filled 258 0 greeting
  if token = [] then write [5, 0]
  else do
    let nmethods := (b[1]?.getD 0).toNat
    let methods ← Buffer.slice b 2 (2 + min nmethods 256)
    if 0x02 ∈ methods then do
      write [5, 2]
      let message ← Socket.read 515 (Socket.timed .authTimeout .io)
      checkPassword token message
    else if 0x00 ∈ methods then write [5, 0]
    else do
      write [5, 0xFF]
      throw .noMethod

/-! ## Requests -/

/-- How a handler refuses a request: with a text, or with that of `FromUtf8Error`. -/
inductive Refusal where
  | text (message : String)
  | utf8
  deriving DecidableEq

/-- In what the handlers differ: whether the version is checked, and their errors. -/
structure Checks where
  version : Bool
  bad : String
  unsupported : UInt8 → String

/-- The target in what the read has returned. -/
def target (checks : Checks) (bytes : List UInt8) : ExceptT Refusal Outcome (Text × UInt16) := do
  let r := filled bufferSize 0 bytes
  let version ← Indexed.get r 0
  let command ← Indexed.get r 1
  Checked.ensure (7 ≤ bytes.length ∧ (checks.version → version = 5) ∧ command = 1)
    (.text checks.bad)
  let atyp ← Indexed.get r 3
  match atyp with
  | 1 => do
    let a ← Indexed.get r 4
    let b ← Indexed.get r 5
    let c ← Indexed.get r 6
    let d ← Indexed.get r 7
    let port ← Indexed.u16 r 8
    let dot := ascii "."
    pure (decimal a ++ dot ++ decimal b ++ dot ++ decimal c ++ dot ++ decimal d, UInt16.ofNat port)
  | 3 => do
    let l ← Indexed.get r 4
    let host ← Buffer.slice r 5 (5 + l.toNat)
    Checked.ensure (Bytes.validUtf8 host) .utf8
    let port ← Indexed.u16 r (5 + l.toNat)
    pure (host, UInt16.ofNat port)
  | atyp => throw (.text (checks.unsupported atyp))

/-- Where a connection goes. -/
inductive Act where
  /-- `bypass_direct`: to the host itself. -/
  | bypassDirect
  /-- A stream through the tunnel, with the host and the port as its target. -/
  | stream
  /-- The request as it was read goes to the upstream proxy. -/
  | replay (request : List UInt8)
  deriving DecidableEq

/-- What a handler goes on with. -/
structure Served where
  host : Text
  port : UInt16
  act : Act
  deriving DecidableEq

/-- A handler: the target, and what becomes of it. -/
def serve (checks : Checks) (act : Text → Act) (bytes : List UInt8) :
    ExceptT Refusal Outcome Served := do
  let (host, port) ← target checks bytes
  pure { host, port, act := act host }

/-- Whitelisted destinations bypass the tunnel. -/
def route (wl : Option Whitelist) (otherwise : Act) (host : Text) : Act :=
  if Whitelist.bypasses wl host then .bypassDirect else otherwise

/-- TCP mode. -/
def handleSocks5 (wl : Option Whitelist) : List UInt8 → ExceptT Refusal Outcome Served :=
  serve ⟨false, "bad socks5", fun _ => "unsupported"⟩ (route wl .stream)

/-- QUIC mode. -/
def quicSocks5 (wl : Option Whitelist) : List UInt8 → ExceptT Refusal Outcome Served :=
  serve ⟨false, "bad", fun _ => "unsupported"⟩ (route wl .stream)

/-- CDN mode. -/
def cdnSocks5 (wl : Option Whitelist) : List UInt8 → ExceptT Refusal Outcome Served :=
  serve ⟨false, "bad socks5", fun _ => "unsupported"⟩ (route wl .stream)

/-- The front end of another proxy. -/
def shimHandle (wl : Option Whitelist) (bytes : List UInt8) : ExceptT Refusal Outcome Served :=
  serve ⟨true, "bad socks5 req", fun _ => "shim: unsupported addr type"⟩
    (route wl (.replay bytes)) bytes

end Fogged.Native.Socks5

namespace Fogged.Native.Tunnel

open Fogged.Native.Socks5

/-- The library tunnel, which has no whitelist. -/
def handleSocks5 : List UInt8 → ExceptT Refusal Outcome Served :=
  serve ⟨true, "bad SOCKS5 request", fun atyp =>
    if atyp = 4 then "IPv6 SOCKS not implemented yet" else "unknown SOCKS addr type"⟩
    fun _ => .stream

end Fogged.Native.Tunnel
