import Fogged.ForStd.Checked
import Fogged.Native.Handshake

/-!
# Parsing a TLS ClientHello (`orcax/transport/src/client_hello.rs`)

The fields of a ClientHello that Reality needs. The source keeps an index into the
message; here the unread suffix stands for it, and what the index has left of a
block is counted down beside it. Comparisons of lengths are `ensure`, accesses are
`slice`.
-/

namespace Fogged.Native.ClientHello

open Fogged.Native.Handshake
open Checked

/-- Parsed TLS ClientHello — the fields Reality needs. -/
structure ClientHelloInfo where
  /-- The full handshake message. -/
  raw : List UInt8
  random : List.Vector UInt8 32
  sessionId : List UInt8
  /-- Where the session id stands in `raw`. -/
  sessionIdOffset : Nat
  sni : Option Text
  x25519Key : Option Key
  cipherSuites : List UInt16
  deriving DecidableEq

/-- Why a message is not accepted. -/
inductive HelloError where
  | tooShort
  | notClientHello (type : UInt8)
  | truncated (available needed : Nat)
  | missingVersion
  | missingRandom
  | missingSessionIdLength
  | truncatedSessionId
  | missingCipherSuitesLength
  | invalidCipherSuites
  | missingCompressionMethods
  deriving DecidableEq

/-- The parser's effects: an error, or a failed run-time check. -/
abbrev Parse := ExceptT HelloError Outcome

/-- `u16::from_be_bytes([rest[0], rest[1]])`. -/
def u16 (rest : List UInt8) : Parse (Nat × List UInt8) := do
  let (bytes, rest) ← slice 2 rest
  pure (Bytes.ofBE bytes, rest)

/-! ## Extensions -/

/-- Extract the host name from the data of an SNI extension. -/
def parseSni (data : List UInt8) : Parse (Option Text) :=
  if data.length < 5 then pure none
  else do
    -- list length and name type
    let (_, rest) ← u16 data
    let (nameType, rest) ← slice 1 rest
    if nameType ≠ [0] then pure none
    else do
      let (nameLen, rest) ← u16 rest
      if data.length < 5 + nameLen then pure none
      else do
        let (name, _) ← slice nameLen rest
        pure (if Bytes.validUtf8 name then some name else none)

/-- The loop of `parse_key_share`: `left` bytes of `rest` belong to the list. -/
def keyShareLoop (fuel left : Nat) (rest : List UInt8) : Parse (Option Key) :=
  match fuel with
  | 0 => ExceptT.lift .diverge
  | fuel + 1 =>
    if 4 ≤ left then do
      let (group, rest) ← u16 rest
      let (keyLen, rest) ← u16 rest
      if rest.length < keyLen then pure none
      else do
        let (key, rest) ← slice keyLen rest
        if h : group = 0x001D ∧ key.length = 32 then pure (some ⟨key, h.2⟩)
        else keyShareLoop fuel (left - (4 + keyLen)) rest
    else pure none

/-- Extract the x25519 public key from the data of a key share extension. -/
def parseKeyShare (data : List UInt8) : Parse (Option Key) :=
  if data.length < 2 then pure none
  else do
    let (listLen, rest) ← u16 data
    keyShareLoop (data.length + 1) (min listLen rest.length) rest

/-- The loop over the extensions: `left` bytes are left of their block, which may
    reach beyond the message. -/
def extensionLoop (fuel left : Nat) (rest : List UInt8) (sni : Option Text)
    (x25519Key : Option Key) : Parse (Option Text × Option Key) :=
  match fuel with
  | 0 => ExceptT.lift .diverge
  | fuel + 1 =>
    if 4 ≤ left ∧ 4 ≤ rest.length then do
      let (extType, rest) ← u16 rest
      let (extDataLen, rest) ← u16 rest
      if rest.length < extDataLen then pure (sni, x25519Key)
      else do
        let (extData, rest) ← slice extDataLen rest
        let left := left - (4 + extDataLen)
        match extType with
        | 0x0000 => do
          let sni ← parseSni extData
          extensionLoop fuel left rest sni x25519Key
        | 0x0033 => do
          let x25519Key ← parseKeyShare extData
          extensionLoop fuel left rest sni x25519Key
        | _ => extensionLoop fuel left rest sni x25519Key
    else pure (sni, x25519Key)

/-! ## The message -/

/-- Two bytes a cipher suite. -/
def cipherSuites : List UInt8 → List UInt16
  | a :: b :: rest => UInt16.ofNat (Bytes.ofBE [a, b]) :: cipherSuites rest
  | _ => []

/-- What follows the session id: cipher suites, compression methods, extensions. -/
def parseAfterSessionId (rest : List UInt8) :
    Parse (List UInt16 × Option Text × Option Key) := do
  ensure (2 ≤ rest.length) .missingCipherSuitesLength
  let (csLen, rest) ← u16 rest
  ensure (csLen ≤ rest.length ∧ csLen % 2 = 0) .invalidCipherSuites
  let (suites, rest) ← slice csLen rest
  ensure (1 ≤ rest.length) .missingCompressionMethods
  let (compLen, rest) ← slice 1 rest
  -- the index moves on without a comparison, possibly beyond the end
  let rest := rest.drop (Bytes.ofBE compLen)
  let found ←
    if 2 < rest.length then do
      let (extLen, rest) ← u16 rest
      extensionLoop (rest.length + 1) extLen rest none none
    else pure (none, none)
  pure (cipherSuites suites, found)

/-- Offset of the session id: handshake header, version, random, length byte. -/
def sessionIdOffset : Nat := 4 + 2 + 32 + 1

/-- `copy_from_slice` into an array of 32 bytes. -/
def toArray32 (bytes : List UInt8) : Parse (List.Vector UInt8 32) :=
  if h : bytes.length = 32 then pure ⟨bytes, h⟩ else ExceptT.lift .panic

/-- Parse a TLS ClientHello from the handshake payload. -/
def parseClientHello (data : List UInt8) : Parse ClientHelloInfo := do
  ensure (4 ≤ data.length) .tooShort
  let (hsType, rest) ← slice 1 data
  ensure (hsType = [0x01]) (.notClientHello (hsType.getD 0 0))
  let (hsLen, rest) ← slice 3 rest
  let hsLen := Bytes.ofBE hsLen
  ensure (4 + hsLen ≤ data.length) (.truncated data.length (4 + hsLen))
  let (raw, _) ← slice (4 + hsLen) data
  let (body, _) ← slice hsLen rest
  ensure (2 ≤ body.length) .missingVersion
  let (_, rest) ← slice 2 body
  ensure (32 ≤ rest.length) .missingRandom
  let (random, rest) ← slice 32 rest
  let random ← toArray32 random
  ensure (1 ≤ rest.length) .missingSessionIdLength
  let (sessionIdLen, rest) ← slice 1 rest
  ensure (Bytes.ofBE sessionIdLen ≤ rest.length) .truncatedSessionId
  let (sessionId, rest) ← slice (Bytes.ofBE sessionIdLen) rest
  let (cipherSuites, sni, x25519Key) ← parseAfterSessionId rest
  pure { raw, random, sessionId, sessionIdOffset, sni, x25519Key, cipherSuites }

end Fogged.Native.ClientHello
