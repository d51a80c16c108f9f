import Fogged.ForStd.Buffer
import Fogged.ForStd.Indexed
import Fogged.Native.Address
import Fogged.Native.ClientHello

/-!
# Two parsers, index by index

`parse_client_hello` (`orcax/transport/src/client_hello.rs`) and `TargetAddr::parse`
(`orcax/protocol/src/address.rs`) once more, with the indices that the source keeps: every
access is checked against the slice and every sum against the 64 bits of a `usize`. A sum
that the source writes twice, in a comparison and in an assignment, is computed once.
-/

namespace Fogged.Native.ByIndex

open Fogged.Native.Handshake Fogged.Native.ClientHello
open Indexed Buffer

/-! ## Extensions -/

/-- Extract the host name from the data of an SNI extension. -/
def parseSni (data : List UInt8) : Outcome (Option Text) :=
  if data.length < 5 then .ret none
  else do
    let _listLen ← Indexed.u16 data 0
    let nameType ← get data 2
    if nameType ≠ 0 then .ret none
    else do
      let nameLen ← Indexed.u16 data 3
      let stop ← add 5 nameLen
      if data.length < stop then .ret none
      else do
        let name ← slice data 5 stop
        .ret (if Bytes.validUtf8 name then some name else none)

/-- The loop of `parse_key_share`, up to `stop`. -/
def keyShareLoop (data : List UInt8) (stop : Nat) : (fuel pos : Nat) → Outcome (Option Key)
  | 0, _ => .diverge
  | fuel + 1, pos => do
    let entry ← add pos 4
    if entry ≤ stop then do
      let group ← Indexed.u16 data pos
      let lenPos ← add pos 2
      let keyLen ← Indexed.u16 data lenPos
      let next ← add entry keyLen
      if next > data.length then .ret none
      else if group = 0x001D ∧ keyLen = 32 then do
        let keyEnd ← add entry 32
        let bytes ← slice data entry keyEnd
        let key ← toArray 32 bytes
        .ret (some key)
      else keyShareLoop data stop fuel next
    else .ret none

/-- Extract the x25519 public key from the data of a key share extension. -/
def parseKeyShare (data : List UInt8) : Outcome (Option Key) :=
  if data.length < 2 then .ret none
  else do
    let listLen ← Indexed.u16 data 0
    let stop ← add 2 listLen
    keyShareLoop data (min stop data.length) (data.length + 1) 2

/-- The loop over the extensions, up to `extEnd`. -/
def extensionLoop (body : List UInt8) (extEnd : Nat) :
    (fuel pos : Nat) → Option Text → Option Key → Outcome (Option Text × Option Key)
  | 0, _, _, _ => .diverge
  | fuel + 1, pos, sni, x25519Key => do
    let entry ← add pos 4
    if entry ≤ extEnd ∧ entry ≤ body.length then do
      let extType ← Indexed.u16 body pos
      let lenPos ← add pos 2
      let extDataLen ← Indexed.u16 body lenPos
      let next ← add entry extDataLen
      if next > body.length then .ret (sni, x25519Key)
      else do
        let extData ← slice body entry next
        match extType with
        | 0x0000 => do
          let sni ← parseSni extData
          extensionLoop body extEnd fuel next sni x25519Key
        | 0x0033 => do
          let x25519Key ← parseKeyShare extData
          extensionLoop body extEnd fuel next sni x25519Key
        | _ => extensionLoop body extEnd fuel next sni x25519Key
    else .ret (sni, x25519Key)

/-! ## The message -/

/-- `count` cipher suites, from the one at `pos + i` on. -/
def readSuites (body : List UInt8) (pos : Nat) : (count i : Nat) → Outcome (List UInt16)
  | 0, _ => .ret []
  | count + 1, i => do
    let suitePos ← add pos i
    let suite ← Indexed.u16 body suitePos
    let suites ← readSuites body pos count (i + 2)
    .ret (UInt16.ofNat suite :: suites)

/-- What follows the session id, which ends at `pos`. -/
def parseAfterSessionId (body : List UInt8) (pos : Nat) :
    Parse (List UInt16 × Option Text × Option Key) := do
  let suitesPos ← add pos 2
  Checked.ensure (suitesPos ≤ body.length) .missingCipherSuitesLength
  let csLen ← Indexed.u16 body pos
  let pos ← add suitesPos csLen
  Checked.ensure (pos ≤ body.length ∧ csLen % 2 = 0) .invalidCipherSuites
  let cipherSuites ← readSuites body suitesPos (csLen / 2) 0
  let next ← add pos 1
  Checked.ensure (next ≤ body.length) .missingCompressionMethods
  let compLen ← get body pos
  let skip ← add 1 compLen.toNat
  let pos ← add pos skip
  let extPos ← add pos 2
  let found ←
    if body.length > extPos then do
      let extLen ← Indexed.u16 body pos
      let extEnd ← add extPos extLen
      extensionLoop body extEnd (body.length + 1) extPos none none
    else pure (none, none)
  pure (cipherSuites, found)

/-- Parse a TLS ClientHello from the handshake payload. -/
def parseClientHello (data : List UInt8) : Parse ClientHelloInfo := do
  Checked.ensure (4 ≤ data.length) .tooShort
  let hsType ← get data 0
  Checked.ensure (hsType = 0x01) (.notClientHello hsType)
  let l0 ← get data 1
  let l1 ← get data 2
  let l2 ← get data 3
  let hsLen := l0.toNat <<< 16 ||| l1.toNat <<< 8 ||| l2.toNat
  let stop ← add 4 hsLen
  Checked.ensure (stop ≤ data.length) (.truncated data.length stop)
  let raw ← slice data 0 stop
  let body ← slice data 4 stop
  Checked.ensure (2 ≤ body.length) .missingVersion
  Checked.ensure (2 + 32 ≤ body.length) .missingRandom
  let random ← slice body 2 (2 + 32)
  let random ← toArray 32 random
  Checked.ensure (2 + 32 + 1 ≤ body.length) .missingSessionIdLength
  let sessionIdLen ← get body (2 + 32)
  let pos ← add (2 + 32 + 1) sessionIdLen.toNat
  Checked.ensure (pos ≤ body.length) .truncatedSessionId
  let sessionId ← slice body (2 + 32 + 1) pos
  let (cipherSuites, sni, x25519Key) ← parseAfterSessionId body pos
  pure { raw, random, sessionId, sessionIdOffset, sni, x25519Key, cipherSuites }

/-! ## Target addresses -/

/-- The host behind the type byte, and the length of the whole address. -/
def parseHost (data : List UInt8) (addrType : UInt8) :
    ExceptT AddressError Outcome (Address × Nat) :=
  match addrType with
  | 1 => do
    Checked.ensure (7 ≤ data.length) .truncatedIpv4
    let a ← get data 3
    let b ← get data 4
    let c ← get data 5
    let d ← get data 6
    pure (.ipv4 ⟨[a, b, c, d], rfl⟩, 7)
  | 2 => do
    Checked.ensure (4 ≤ data.length) .truncatedDomainLength
    let domainLen ← get data 3
    let stop ← add 4 domainLen.toNat
    Checked.ensure (stop ≤ data.length) .truncatedDomainName
    let bytes ← slice data 4 stop
    match String.fromUTF8? ⟨bytes.toArray⟩ with
    | none => throw .invalidUtf8
    | some domain => pure (.domain domain, stop)
  | 3 => do
    Checked.ensure (19 ≤ data.length) .truncatedIpv6
    let bytes ← slice data 3 19
    let octets ← toArray 16 bytes
    pure (.ipv6 octets, 19)
  | _ => throw (.unknownType addrType)

/-- Parse a target, and say how many bytes it took. -/
def TargetAddr.parse (data : List UInt8) : ExceptT AddressError Outcome (TargetAddr × Nat) := do
  Checked.ensure (4 ≤ data.length) (.tooShort data.length)
  let port ← Indexed.u16 data 0
  let addrType ← get data 2
  let (addr, consumed) ← parseHost data addrType
  pure ({ addr, port := UInt16.ofNat port }, consumed)

end Fogged.Native.ByIndex
