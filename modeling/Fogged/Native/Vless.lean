import Fogged.ForStd.AsyncRead
import Fogged.Native.Address
import Fogged.Native.Handshake

/-!
# The VLESS request header (`orcax/protocol/src/vless.rs`)

A request starts with

  `[version: 1] [uuid: 16] [addons_len: 1] [addons: N] [command: 1] [address] [payload]`

Everything up to the command is read exactly. The address is taken from whatever one
more `read` returns, at most 16384 bytes; what it returns beyond the address is the first
payload. The reader is a `Source`, which decides how much each `read` returns.
-/

namespace Fogged.Native.Vless

open Fogged.Native.Handshake
open AsyncRead

/-- Maximum size of the addons, `MAX_ADDONS_LEN`. -/
def maxAddonsLen : Nat := 256

/-- VLESS commands. -/
inductive Command where
  | tcp
  | udp
  | mux
  deriving DecidableEq

/-- Why a request is turned down. -/
inductive VlessError where
  | shortHeader
  | unsupportedVersion (version : UInt8)
  /-- Never seen: the length is one byte. -/
  | addonsTooLarge (length : Nat)
  | shortAddons
  | missingCommand
  | unsupportedCommand (b : UInt8)
  | truncatedAddress
  | address (e : AddressError)
  deriving DecidableEq

def Command.fromByte (b : UInt8) : Except VlessError Command :=
  match b with
  | 1 => .ok .tcp
  | 2 => .ok .udp
  | 3 => .ok .mux
  | _ => .error (.unsupportedCommand b)

/-- The discriminant. -/
def Command.toByte : Command → UInt8
  | .tcp => 1
  | .udp => 2
  | .mux => 3

/-- A parsed request. -/
structure VlessRequest where
  /-- The user id, in 8-4-4-4-12 format. -/
  uuid : Text
  uuidBytes : List.Vector UInt8 16
  command : Command
  /-- For TCP and UDP. -/
  target : Option TargetAddr
  addons : List UInt8
  /-- What came with the address. -/
  initialPayload : List UInt8
  deriving DecidableEq

/-- What precedes the address. -/
structure Preamble where
  uuidBytes : List.Vector UInt8 16
  addons : List UInt8
  command : Command
  deriving DecidableEq

/-- The addons, which are not read if there are none. -/
def readAddons (addonsLen : Nat) (s : Source) : Option (List UInt8 × Source) :=
  if 0 < addonsLen then (s.readExact addonsLen).map fun r => (r.1.toList, r.2) else some ([], s)

/-- `parse_request` up to the command. -/
def parsePreamble (s : Source) : Except VlessError (Preamble × Source) :=
  match s.readExact 18 with
  | none => .error .shortHeader
  | some (hdr, s) =>
    if hdr.get 0 ≠ 0 then .error (.unsupportedVersion (hdr.get 0))
    else
      let uuidBytes : List.Vector UInt8 16 := (hdr.drop 1).take 16
      let addonsLen := (hdr.get 17).toNat
      if addonsLen > maxAddonsLen then .error (.addonsTooLarge addonsLen)
      else
        match readAddons addonsLen s with
        | none => .error .shortAddons
        | some (addons, s) =>
          match s.readExact 1 with
          | none => .error .missingCommand
          | some (cmdBuf, s) => do
            let command ← Command.fromByte (cmdBuf.get 0)
            .ok ({ uuidBytes, addons, command }, s)

/-- The size of the buffer for address and payload. -/
def restSize : Nat := 16384

/-- Parse a request from the front of the stream. -/
def parseRequest (s : Source) : Except VlessError (VlessRequest × Source) := do
  let ({ uuidBytes, addons, command }, s) ← parsePreamble s
  let uuid := formatUuid uuidBytes.toList
  let (rest, s) := s.read restSize
  if rest.length < 3 ∧ command ≠ .mux then
    throw .truncatedAddress
  if command = .mux then
    -- streams are opened later
    return ({ uuid, uuidBytes, command, target := none, addons, initialPayload := rest }, s)
  else
    match TargetAddr.parse rest with
    | .error e => throw (.address e)
    | .ok (addr, consumed) =>
      return ({ uuid, uuidBytes, command, target := some addr, addons,
                initialPayload := rest.drop consumed }, s)

end Fogged.Native.Vless
