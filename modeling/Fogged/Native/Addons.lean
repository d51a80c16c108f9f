import Fogged.ForStd.Buffer
import Fogged.ForStd.Indexed
import Fogged.Native.Handshake

/-!
# The addons of a VLESS request (`orcax/protocol/src/addons.rs`)

The addons are a protobuf message of which only the field `Flow` is used: it says whether
the stream is in Vision mode. The parser goes through the fields, skips those it does not
know and stops at the first thing it cannot parse. It takes the first byte of a tag for
the tag.
-/

namespace Fogged.Native

open Fogged.Native.Handshake
open Indexed Buffer

/-- Parsed addons. -/
structure Addons where
  /-- The `Flow` field. -/
  flow : Text := []
  deriving DecidableEq

namespace Addons

/-- The client asks for Vision. -/
def isVision (a : Addons) : Bool :=
  a.flow = ascii "xtls-rprx-vision" ∨ a.flow = ascii "xtls-rprx-vision-udp443"

/-- `x << shift`. -/
def shiftLeft (x : UInt64) (shift : Nat) : Outcome UInt64 :=
  if shift < 64 then .ret (x <<< UInt64.ofNat shift) else .panic

/-- The loop of `read_varint`, on the bytes from index `i` on. -/
def readVarintLoop (val : UInt64) (shift i : Nat) : List UInt8 → Outcome (Option (UInt64 × Nat))
  | [] => .ret none
  | b :: bytes => do
    let bits ← shiftLeft (b &&& 0x7F).toUInt64 shift
    let val := val ||| bits
    if b &&& 0x80 = 0 then
      let consumed ← add i 1
      .ret (some (val, consumed))
    else
      -- a `u32`
      let shift ← if shift + 7 < 2 ^ 32 then Outcome.ret (shift + 7) else .panic
      readVarintLoop val shift (i + 1) bytes

/-- A varint from the front of the data, and its length. -/
def readVarint (data : List UInt8) : Outcome (Option (UInt64 × Nat)) :=
  readVarintLoop 0 0 0 (data.take 10)

/-- The range of a length-delimited payload whose length is at `i`, if it is all there. -/
def lengthDelimited (data : List UInt8) (i : Nat) : Outcome (Option (Nat × Nat)) := do
  let rest ← slice data i data.length
  match ← readVarint rest with
  | none => .ret none
  | some (len, consumed) =>
    let i ← add i consumed
    let stop := saturatingAdd i len.toNat
    .ret (if stop > data.length then none else some (i, stop))

/-- One round of the loop, at the tag at `i`: where the next field starts and what is known
    by then, or nothing if the loop is left. -/
def parseField (data : List UInt8) (i : Nat) (out : Addons) : Outcome (Option (Nat × Addons)) := do
  let tag ← get data i
  let i ← add i 1
  let field := tag >>> 3
  let wire := tag &&& 0x07
  if (field = 1 ∨ field = 2) ∧ wire = 2 then
    -- `Flow` or `Seed`
    match ← lengthDelimited data i with
    | none => .ret none
    | some (i, stop) =>
      if field = 1 then
        let s ← slice data i stop
        .ret (some (stop, if Bytes.validUtf8 s then { out with flow := s } else out))
      else .ret (some (stop, out))
  else if wire = 0 then
    let rest ← slice data i data.length
    match ← readVarint rest with
    | none => .ret none
    | some (_, consumed) =>
      let i ← add i consumed
      .ret (some (i, out))
  else if wire = 2 then
    match ← lengthDelimited data i with
    | none => .ret none
    | some (_, stop) => .ret (some (stop, out))
  else .ret none

/-- The loop over the fields. -/
def parseLoop (data : List UInt8) : (fuel i : Nat) → Addons → Outcome Addons
  | 0, i, out => if i < data.length then .diverge else .ret out
  | fuel + 1, i, out =>
    if i < data.length then do
      match ← parseField data i out with
      | none => .ret out
      | some (i, out) => parseLoop data fuel i out
    else .ret out

/-- Parse the addons; every round takes a byte at least. -/
def parse (data : List UInt8) : Outcome Addons := parseLoop data data.length 0 {}

end Addons

end Fogged.Native
