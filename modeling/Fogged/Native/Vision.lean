import Mathlib.Data.Int.Bitwise
import Mathlib.Data.Vector.Defs
import Fogged.ForStd.Transducer

/-!
# XTLS Vision padding (`orcax/transport/src/vision.rs`)

Vision disguises the first frames of a session as padded segments. Each frame is
a command byte, a two-byte content length, a two-byte padding length, the content
and the padding; the first frame of a direction is preceded by the user's 16-byte
UUID. `PaddingEnd` and `PaddingDirect` end the framing, after which bytes pass
through unchanged.

The reader is `UnpadState` with `feed`, the writer is `encodeFrame` with the
one-shot wrapper `PadState`. An `i32` is an `Int`; the casts that can change a
value (`as i32`, `as u32`, `as u8`) and the `i32` arithmetic of the encoder are
written out with their wrap-around. `usize` has 64 bits.
-/

namespace Fogged.Native.Vision

/-- A 16-byte VLESS user id, `[u8; 16]`. -/
abbrev Uuid := List.Vector UInt8 16

/-- Vision command byte values. -/
inductive Command where
  /-- More padded frames will follow. -/
  | paddingContinue
  /-- Last padded frame; the bytes after it are raw. -/
  | paddingEnd
  /-- As `paddingEnd`, and the peer drops the outer TLS layer. -/
  | paddingDirect
  deriving DecidableEq, Repr

/-- `command as u8`. -/
def Command.toByte : Command → UInt8
  | .paddingContinue => 0x00
  | .paddingEnd => 0x01
  | .paddingDirect => 0x02

def Command.fromByte (b : UInt8) : Option Command :=
  match b with
  | 0x00 => some .paddingContinue
  | 0x01 => some .paddingEnd
  | 0x02 => some .paddingDirect
  | _ => none

/-- Max frame size, xray's `buf.Size`. -/
def frameMax : Int := 2048

/-- 16 UUID bytes and 5 header bytes. -/
def headerOverhead : Int := 21

/-- Parameters of the padding-length generator. -/
structure PaddingSeed where
  longThreshold : UInt32
  longRandMod : UInt32
  longBase : UInt32
  shortRandMod : UInt32
  deriving DecidableEq, Repr

/-- xray's hardcoded `Testseed = {900, 500, 900, 256}`. -/
def PaddingSeed.default : PaddingSeed := ⟨900, 500, 900, 256⟩

inductive UnpadError where
  /-- The first frame's UUID is not the authenticated user's. -/
  | uuidMismatch
  /-- Unknown Vision command byte. -/
  | badCommand (b : UInt8)
  deriving DecidableEq, Repr

/-! ## Reader -/

/-- Per-connection state of the reader. -/
structure UnpadState where
  userUuid : Uuid
  /-- `-1` initially; otherwise the number of header bytes left to read. -/
  remainingCommand : Int
  remainingContent : Int
  remainingPadding : Int
  /-- The most recent command byte. -/
  currentCommand : UInt8
  /-- Set once `PaddingEnd` or `PaddingDirect` was seen. -/
  done : Bool
  /-- Set when the terminating command was `PaddingDirect`. -/
  direct : Bool
  /-- The UUID prefix bytes read so far. -/
  uuidBuf : List UInt8
  /-- False until the UUID prefix has been validated. -/
  uuidDone : Bool
  deriving DecidableEq

namespace UnpadState

def new (userUuid : Uuid) : UnpadState where
  userUuid := userUuid
  remainingCommand := -1
  remainingContent := -1
  remainingPadding := -1
  currentCommand := 0
  done := false
  direct := false
  uuidBuf := []
  uuidDone := false

def isDone (s : UnpadState) : Bool := s.done

def isDirect (s : UnpadState) : Bool := s.direct

/-- The header arm of the loop: store one header byte where
    `remaining_command` says it belongs, and count it. -/
def readHeaderByte (s : UnpadState) (b : UInt8) : Outcome UnpadState := do
  let s ← match s.remainingCommand with
    | 5 => .ret { s with currentCommand := b }
    | 4 => .ret { s with remainingContent := (b.toNat <<< 8 : Nat) }
    | 3 => .ret { s with remainingContent := Int.lor s.remainingContent b.toNat }
    | 2 => .ret { s with remainingPadding := (b.toNat <<< 8 : Nat) }
    | 1 => .ret { s with remainingPadding := Int.lor s.remainingPadding b.toNat }
    | _ => .panic -- `unreachable!()`
  .ret { s with remainingCommand := s.remainingCommand - 1 }

/-- The `if … else if … else if` chain of the loop body on the unread, non-empty
    `rest = wire[i..]`: the new state, what is unread now, and what was appended
    to `out`. -/
def consume (s : UnpadState) (b : UInt8) (bs : List UInt8) :
    Outcome (UnpadState × List UInt8 × List UInt8) :=
  let rest := b :: bs
  if s.remainingCommand > 0 then do
    let s ← s.readHeaderByte b
    .ret (s, bs, [])
  else if s.remainingContent > 0 then
    let take := min s.remainingContent.toNat rest.length
    .ret ({ s with remainingContent := s.remainingContent - take }, rest.drop take, rest.take take)
  else if s.remainingPadding > 0 then
    let take := min s.remainingPadding.toNat rest.length
    .ret ({ s with remainingPadding := s.remainingPadding - take }, rest.drop take, [])
  else
    .ret (s, rest, [])

/-- Header, content and padding of the current frame have all been read. -/
def frameComplete (s : UnpadState) : Bool :=
  s.remainingCommand == 0 && s.remainingContent == 0 && s.remainingPadding == 0

/-- Reset the counters for the next frame. -/
def nextFrame (s : UnpadState) : UnpadState :=
  { s with remainingCommand := 5, remainingContent := -1, remainingPadding := -1 }

/-- How an iteration of the loop ends. -/
inductive Flow where
  /-- Go round again from `s`. -/
  | again (s : UnpadState)
  /-- Return `verdict`, leaving `s`, after appending `raw` to `out`. -/
  | exit (verdict : Except UnpadError Unit) (s : UnpadState) (raw : List UInt8)

/-- The check at the end of the loop body. When the frame is complete its command
    byte decides what is next; after a terminating command `rest`, what is left of
    the chunk, is raw payload. -/
def checkFrame (s : UnpadState) (rest : List UInt8) : Flow :=
  if s.frameComplete then
    match Command.fromByte s.currentCommand with
    | some .paddingContinue => .again s.nextFrame
    | some .paddingEnd => .exit (.ok ()) { s with done := true } rest
    | some .paddingDirect => .exit (.ok ()) { s with done := true, direct := true } rest
    | none => .exit (.error (.badCommand s.currentCommand)) s []
  else
    .again s

/-- The `while i < wire.len()` loop on the unread bytes `wire[i..]`. The first
    argument bounds the number of iterations. -/
def feedLoop : Nat → UnpadState → List UInt8 → Outcome (Report UnpadState UInt8 UnpadError)
  | _, s, [] => .ret ⟨.ok (), s, []⟩
  | 0, _, _ :: _ => .diverge
  | fuel + 1, s, b :: bs =>
    if s.done then
      .ret ⟨.ok (), s, b :: bs⟩
    else do
      let (s, rest, out) ← s.consume b bs
      match s.checkFrame rest with
      | .again s => do
        let r ← feedLoop fuel s rest
        .ret { r with out := out ++ r.out }
      | .exit verdict s raw => .ret ⟨verdict, s, out ++ raw⟩

/-- Feed wire bytes in. The report's `out` is what the call appends to the
    caller's `out`. Each iteration of the loop reads at least one byte or returns,
    unless it is stuck for ever, so the unread length bounds their number. -/
def feed (s : UnpadState) (wire : List UInt8) : Outcome (Report UnpadState UInt8 UnpadError) :=
  if s.uuidDone then
    feedLoop wire.length s wire
  else if s.uuidBuf.length > 16 then
    .panic -- `16 - self.uuid_buf.len()` underflows
  else
    let need := 16 - s.uuidBuf.length
    let take := min need wire.length
    let s := { s with uuidBuf := s.uuidBuf ++ wire.take take }
    if s.uuidBuf.length < 16 then
      .ret ⟨.ok (), s, []⟩
    else if s.uuidBuf ≠ s.userUuid.toList then
      .ret ⟨.error .uuidMismatch, s, []⟩
    else
      feedLoop (wire.drop take).length { s with uuidDone := true, remainingCommand := 5 }
        (wire.drop take)

end UnpadState

/-! ## Writer -/

/-- What the random generator yields during one `encode_frame` call: the value of
    its one `next_u32` and the bytes `fill_bytes` writes. -/
structure Rng where
  nextU32 : UInt32
  fillBytes : Nat → UInt8

/-- `x as i32`. -/
def asI32 (x : Int) : Int := x.bmod (2 ^ 32)

/-- `x as u32`. -/
def asU32 (x : Int) : Nat := (x % 2 ^ 32).toNat

/-- `x as usize`. -/
def asUsize (x : Int) : Nat := (x % 2 ^ 64).toNat

/-- `x % m` on `u32`; a zero modulus panics. -/
def remU32 (x m : UInt32) : Outcome UInt32 :=
  if m = 0 then .panic else .ret (x % m)

/-- The padding length `encode_frame` picks, before the cap: long for short
    contents when asked for, else short. -/
def drawPadding (rng : Rng) (contentLen : Int) (longPadding : Bool) (seed : PaddingSeed) :
    Outcome Int :=
  if asU32 contentLen < seed.longThreshold.toNat ∧ longPadding = true then do
    let r ← remU32 rng.nextU32 seed.longRandMod
    .ret (asI32 (asI32 (asI32 r.toNat + asI32 seed.longBase.toNat) - contentLen))
  else do
    let r ← remU32 rng.nextU32 seed.shortRandMod
    .ret (asI32 r.toNat)

/-- Clamp at zero below and at the frame cap above. -/
def capPadding (contentLen paddingLen : Int) : Int :=
  let paddingLen := if paddingLen < 0 then 0 else paddingLen
  let cap := asI32 (frameMax - headerOverhead - contentLen)
  if paddingLen > cap then max cap 0 else paddingLen

/-- Encode one Vision padded frame. -/
def encodeFrame (rng : Rng) (payload : List UInt8) (command : Command)
    (includeUuidPrefix : Bool) (uuid : Uuid) (longPadding : Bool) (seed : PaddingSeed) :
    Outcome (List UInt8) := do
  let contentLen := asI32 payload.length
  let drawn ← drawPadding rng contentLen longPadding seed
  let paddingLen := capPadding contentLen drawn
  let capacity := ((if includeUuidPrefix then 16 else 0) + 5 + asUsize contentLen
    + asUsize paddingLen) % 2 ^ 64
  if capacity ≥ 2 ^ 63 then
    .panic -- `Vec::with_capacity`: capacity overflow
  else
    .ret ((if includeUuidPrefix then uuid.toList else [])
      ++ [command.toByte,
          UInt8.ofInt (contentLen >>> (8 : Nat)), UInt8.ofInt contentLen,
          UInt8.ofInt (paddingLen >>> (8 : Nat)), UInt8.ofInt paddingLen]
      ++ payload
      ++ (List.range (asUsize paddingLen)).map rng.fillBytes)

/-- Per-connection state of the downlink writer. -/
structure PadState where
  userUuid : Uuid
  done : Bool
  seed : PaddingSeed
  deriving DecidableEq

namespace PadState

def new (userUuid : Uuid) : PadState := ⟨userUuid, false, .default⟩

def isDone (p : PadState) : Bool := p.done

/-- The common body of `wrap` and `into_direct`: the first call emits a frame
    with the UUID prefix and `command`, every later one passes its payload
    through. -/
def oneShot (command : Command) (p : PadState) (rng : Rng) (payload : List UInt8) :
    Outcome (List UInt8 × PadState) :=
  if p.done then
    .ret (payload, p)
  else do
    let bytes ← encodeFrame rng payload command true p.userUuid true p.seed
    .ret (bytes, { p with done := true })

/-- Wrap a payload for the client, ending the padding. -/
def wrap : PadState → Rng → List UInt8 → Outcome (List UInt8 × PadState) :=
  oneShot .paddingEnd

/-- Wrap a payload as the Direct cutover signal. -/
def intoDirect : PadState → Rng → List UInt8 → Outcome (List UInt8 × PadState) :=
  oneShot .paddingDirect

end PadState

end Fogged.Native.Vision
