import Fogged.Native.Handshake

/-!
# How orcax-connect authenticates (`orcax/client/src/main.rs`)

Three transports, two implementations. TCP and QUIC mode read the user id with
`parseUuid` and call the shared `clientEncryptUuid`; CDN mode parses the id and
builds the same message inline. What is modelled here is the message each of them
writes, from the command line on.
-/

namespace Fogged.Native.ClientAuth

open Fogged.Native.Handshake

/-- The value that follows a flag on the command line. -/
def arg (args : List Text) (flag : Text) : Option Text :=
  match args with
  | [] => none
  | a :: rest => if a = flag then rest.head? else arg rest flag

/-- The public key of the current production server, `DEFAULT_PUB`. -/
def defaultPub : Text := ascii "OqtCAsfuBF4DAHLjAyOsHwKNj-jqJQdnsYrElI7la2w"

/-- Base64, with nothing for malformed text. -/
def bd (lib : Crypto) (s : Text) : List UInt8 := (lib.base64Decode s).getD []

/-- The server's public key: the given one, or the default if none is given or it is
    malformed. -/
def spk (lib : Crypto) (pubkeyArg : Option Text) : Outcome Key :=
  let b := bd lib (pubkeyArg.getD defaultPub)
  if h : b.length = 32 then .ret ⟨b, h⟩
  else
    let fb := bd lib defaultPub
    -- `copy_from_slice` panics if the lengths differ
    if h : fb.length = 32 then .ret ⟨fb, h⟩ else .panic

/-- `char::is_ascii_hexdigit`. -/
def isAsciiHexdigit (b : UInt8) : Bool := (Hex.digit? b).isSome

/-- The user id of TCP and QUIC mode: the hexadecimal digits of the text, two at a
    time. Slicing panics if there are fewer than 32. -/
def parseUuid (s : Text) : Outcome (List.Vector UInt8 16) :=
  let hex := s.filter isAsciiHexdigit
  List.Vector.mOfFn fun i =>
    if i.val * 2 + 2 ≤ hex.length then
      .ret ((Hex.fromStrRadix ((hex.drop (i.val * 2)).take 2)).getD 0)
    else .panic

/-- The user id TCP and QUIC mode fall back to. -/
def defaultUuid : Text := ascii "0804b576-4dfb-424a-80e7-e812e5c13cae"

/-- The message of TCP and QUIC mode. -/
def authMessage (lib : Crypto) (args : List Text) (clientSecret : Key) (now : UInt64) :
    Outcome (List UInt8) := do
  let pk ← spk lib (arg args (ascii "--pubkey"))
  let uuid ← parseUuid ((arg args (ascii "--uuid")).getD defaultUuid)
  let (eph, enc) ← clientEncryptUuid lib pk uuid clientSecret now
  .ret (eph.toList ++ enc)

/-- What `connect_and_auth` writes to the TLS stream. -/
def connectAndAuth := authMessage

/-- What `quic_connect_and_auth` writes to its authentication stream. -/
def quicConnectAndAuth := authMessage

/-- The errors that CDN mode reports before it writes anything. -/
inductive CdnError where
  | badUuid
  | badServerPubkey
  deriving DecidableEq

/-- The reported text. -/
def CdnError.text : CdnError → String
  | .badUuid => "bad UUID"
  | .badServerPubkey => "bad server pubkey for CDN auth"

/-- `std::str::from_utf8(c).is_ok()` for a piece of at most two bytes: ASCII, or one
    character of two bytes. -/
def validUtf8 (piece : List UInt8) : Bool :=
  match piece with
  | [a, b] => (a < 0x80 && b < 0x80) || (0xC2 ≤ a && a ≤ 0xDF && 0x80 ≤ b && b ≤ 0xBF)
  | piece => piece.all (· < 0x80)

/-- The user id of CDN mode: the text without dashes, two bytes at a time; pieces
    that are no number are dropped. -/
def cdnUuidBytes (uuid : Text) : List UInt8 :=
  (Hex.pairs (uuid.filter (· ≠ 0x2D))).filterMap fun c =>
    Hex.fromStrRadix (if validUtf8 c then c else ascii "00")

/-- The message that `run_ws_cdn_mode` sends first. -/
def wsCdnModeAuthMsg (lib : Crypto) (args : List Text) (ephSecret : Key) (now : UInt64) :
    Outcome (Except CdnError (List UInt8)) :=
  let uuidBytes := cdnUuidBytes ((arg args (ascii "--uuid")).getD [])
  if huuid : uuidBytes.length = 16 then
    let ephPub := lib.publicKey ephSecret
    let serverPubBytes := bd lib ((arg args (ascii "--pubkey")).getD [])
    if hpub : serverPubBytes.length = 32 then
      let shared := lib.diffieHellman ephSecret ⟨serverPubBytes, hpub⟩
      match lib.hkdfExpand (ascii "orcax-v2") shared.toList (ascii "ORCAX-AUTH-V2") 44 with
      | none => .panic
      | some okm =>
        let key : Key := okm.take 32
        let nonce : Nonce := okm.drop 32
        let payload : List.Vector UInt8 24 :=
          ⟨uuidBytes ++ Bytes.toBE 8 now.toNat, by simp [huuid]⟩
        match lib.encrypt key nonce [] payload with
        | none => .panic
        | some (payload, tag) => .ret (.ok (ephPub.toList ++ (payload.toList ++ tag.toList)))
    else .ret (.error .badServerPubkey)
  else .ret (.error .badUuid)

end Fogged.Native.ClientAuth
