import Mathlib.Data.Vector.Defs
import Fogged.ForStd.Bytes

/-!
# Target addresses (`orcax/protocol/src/address.rs`)

Where a stream leads to. The multiplexer stores addresses and hands them on; it
never looks into them. On the wire an address is

  `[port: 2] [type: 1] [address: N]`

with the port in big-endian order. A domain is written with its length in one byte.
-/

namespace Fogged.Native

/-- The host of a target. -/
inductive Address where
  | ipv4 (octets : List.Vector UInt8 4)
  | domain (name : String)
  | ipv6 (octets : List.Vector UInt8 16)
  deriving DecidableEq

/-- A target: host and port. -/
structure TargetAddr where
  addr : Address
  port : UInt16
  deriving DecidableEq

/-- Why `TargetAddr.parse` gives up. -/
inductive AddressError where
  | tooShort (length : Nat)
  | truncatedIpv4
  /-- Never seen: shorter data is `tooShort`. -/
  | truncatedDomainLength
  | truncatedDomainName
  | invalidUtf8
  | truncatedIpv6
  | unknownType (addrType : UInt8)
  deriving DecidableEq

/-- The first `n` bytes, if there are that many. -/
def readOctets (n : Nat) (bytes : List UInt8) : Option (List.Vector UInt8 n) :=
  if h : n ≤ bytes.length then some ⟨bytes.take n, by simp [h]⟩ else none

/-- The host after the type byte, and the length of the address with everything in
    front of it. -/
def parseHost (addrType : UInt8) (rest : List UInt8) : Except AddressError (Address × Nat) :=
  match addrType with
  | 1 =>
    match readOctets 4 rest with
    | none => .error .truncatedIpv4
    | some octets => .ok (.ipv4 octets, 7)
  | 2 =>
    match rest with
    | [] => .error .truncatedDomainLength
    | domainLen :: rest =>
      match Bytes.readExact domainLen.toNat rest with
      | none => .error .truncatedDomainName
      | some (bytes, _) =>
        match String.fromUTF8? ⟨bytes.toArray⟩ with
        | none => .error .invalidUtf8
        | some domain => .ok (.domain domain, 4 + domainLen.toNat)
  | 3 =>
    match readOctets 16 rest with
    | none => .error .truncatedIpv6
    | some octets => .ok (.ipv6 octets, 19)
  | _ => .error (.unknownType addrType)

/-- Parse a target, and say how many bytes it took. -/
def TargetAddr.parse (data : List UInt8) : Except AddressError (TargetAddr × Nat) :=
  if data.length < 4 then .error (.tooShort data.length)
  else
    match data with
    | p0 :: p1 :: addrType :: rest => do
      let (addr, consumed) ← parseHost addrType rest
      .ok ({ addr, port := UInt16.ofNat (Bytes.ofBE [p0, p1]) }, consumed)
    | _ => .error (.tooShort data.length)

end Fogged.Native
