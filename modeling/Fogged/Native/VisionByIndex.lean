import Fogged.ForStd.Buffer
import Fogged.ForStd.Indexed
import Fogged.ForStd.Loop
import Fogged.Native.Vision

/-!
# The Vision reader, index by index (`orcax/transport/src/vision.rs`)

`UnpadState::feed` once more, with the index into the chunk that the source keeps: every
access is checked against the chunk, every sum and difference of `usize` and every
difference of `i32` against its range. The loop is one that may get nowhere. A sum that the
source writes twice is computed once.
-/

namespace Fogged.Native.Vision.ByIndex

open Indexed Buffer

/-- `a - b` on `i32`. -/
def subI32 (a b : Int) : Outcome Int :=
  if -2 ^ 31 ≤ a - b ∧ a - b < 2 ^ 31 then .ret (a - b) else .panic

/-- Where `feed` is: the reader, the index of the next byte, and what has been appended to
    `out`. -/
structure Cursor where
  state : UnpadState
  i : Nat
  out : List UInt8

/-- On with the loop, or back to the caller. -/
abbrev Flow := Loop.Flow Cursor (Report UnpadState UInt8 UnpadError)

/-- The UUID prefix: accumulate 16 bytes, then validate. -/
def readPrefix (s : UnpadState) (wire : List UInt8) : Outcome Flow :=
  if s.uuidDone then .ret (.next ⟨s, 0, []⟩)
  else do
    let need ← sub 16 s.uuidBuf.length
    let take := min need wire.length
    let taken ← slice wire 0 take
    let s := { s with uuidBuf := s.uuidBuf ++ taken }
    let i ← add 0 take
    if s.uuidBuf.length < 16 then .ret (.exit ⟨.ok (), s, []⟩)
    else if s.uuidBuf ≠ s.userUuid.toList then .ret (.exit ⟨.error .uuidMismatch, s, []⟩)
    else .ret (.next ⟨{ s with uuidDone := true, remainingCommand := 5 }, i, []⟩)

/-! ## The arms of the loop -/

/-- One header byte. -/
def readHeader (wire : List UInt8) (c : Cursor) : Outcome Cursor := do
  let b ← get wire c.i
  let i ← add c.i 1
  let s := c.state
  let s ← match s.remainingCommand with
    | 5 => .ret { s with currentCommand := b }
    | 4 => .ret { s with remainingContent := (b.toNat <<< 8 : Nat) }
    | 3 => .ret { s with remainingContent := Int.lor s.remainingContent b.toNat }
    | 2 => .ret { s with remainingPadding := (b.toNat <<< 8 : Nat) }
    | 1 => .ret { s with remainingPadding := Int.lor s.remainingPadding b.toNat }
    | _ => .panic -- `unreachable!()`
  let remainingCommand ← subI32 s.remainingCommand 1
  .ret { c with state := { s with remainingCommand }, i }

/-- As much of the content as has arrived. -/
def readContent (wire : List UInt8) (c : Cursor) : Outcome Cursor := do
  let available ← sub wire.length c.i
  let take := min (asUsize c.state.remainingContent) available
  let i ← add c.i take
  let taken ← slice wire c.i i
  let remainingContent ← subI32 c.state.remainingContent (asI32 take)
  .ret ⟨{ c.state with remainingContent }, i, c.out ++ taken⟩

/-- As much of the padding as has arrived; it is discarded. -/
def skipPadding (wire : List UInt8) (c : Cursor) : Outcome Cursor := do
  let available ← sub wire.length c.i
  let take := min (asUsize c.state.remainingPadding) available
  let i ← add c.i take
  let remainingPadding ← subI32 c.state.remainingPadding (asI32 take)
  .ret ⟨{ c.state with remainingPadding }, i, c.out⟩

/-- The `if … else if … else if` chain of the loop body. -/
def readBytes (wire : List UInt8) (c : Cursor) : Outcome Cursor :=
  if c.state.remainingCommand > 0 then readHeader wire c
  else if c.state.remainingContent > 0 then readContent wire c
  else if c.state.remainingPadding > 0 then skipPadding wire c
  else .ret c

/-- Return with `s`; anything left in this chunk is raw payload. -/
def finish (wire : List UInt8) (c : Cursor) (s : UnpadState) : Outcome Flow := do
  let raw ← if c.i < wire.length then slice wire c.i wire.length else .ret []
  .ret (.exit ⟨.ok (), s, c.out ++ raw⟩)

/-- The check at the end of the loop body. -/
def checkFrame (wire : List UInt8) (c : Cursor) : Outcome Flow :=
  if c.state.frameComplete then
    match Command.fromByte c.state.currentCommand with
    | some .paddingContinue => .ret (.next { c with state := c.state.nextFrame })
    | some .paddingEnd => finish wire c { c.state with done := true }
    | some .paddingDirect => finish wire c { c.state with done := true, direct := true }
    | none => .ret (.exit ⟨.error (.badCommand c.state.currentCommand), c.state, c.out⟩)
  else .ret (.next c)

/-! ## The loop -/

/-- The body of the loop. -/
def iteration (wire : List UInt8) (c : Cursor) : Outcome Flow :=
  if c.state.done then do
    let raw ← slice wire c.i wire.length
    .ret (.exit ⟨.ok (), c.state, c.out ++ raw⟩)
  else do
    let c ← readBytes wire c
    checkFrame wire c

/-- `while i < wire.len()`. -/
def turn (wire : List UInt8) (c : Cursor) : Outcome Flow :=
  if c.i < wire.length then iteration wire c else .ret (.exit ⟨.ok (), c.state, c.out⟩)

/-- Feed wire bytes in. -/
def feed (s : UnpadState) (wire : List UInt8) : Outcome (Report UnpadState UInt8 UnpadError) := do
  match ← readPrefix s wire with
  | .next c => Loop.run (turn wire) (wire.length + 1) c
  | .exit r => .ret r

end Fogged.Native.Vision.ByIndex
