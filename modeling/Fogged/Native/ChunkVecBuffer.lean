import Fogged.ForStd.Outcome
import Mathlib.Data.List.Basic

/-!
# Byte buffer made of chunks (`orcax/rustls-fork/rustls/src/vecbuf.rs`)

The TLS library keeps plaintext and records that wait to be read or written as a queue of
byte vectors, so that appending copies nothing. Reading takes from the front, over the
boundaries of the chunks; writing hands up to 64 chunks to one call of the writer, which may
take fewer bytes than it is offered.

An empty chunk is never stored, which a chunk carries as a proof. `read_buf` is compiled only
with a nightly compiler and is left out.
-/

namespace Fogged.Native.Tls

/-- A stored byte vector. -/
structure Chunk where
  bytes : List UInt8
  nonempty : bytes ≠ []
  deriving DecidableEq

structure ChunkVecBuffer where
  chunks : List Chunk
  limit : Option Nat
  deriving DecidableEq

namespace ChunkVecBuffer

def new (limit : Option Nat) : ChunkVecBuffer where
  chunks := []
  limit := limit

/-- `set_limit`. -/
def setLimit (b : ChunkVecBuffer) (newLimit : Option Nat) : ChunkVecBuffer :=
  { b with limit := newLimit }

/-- `is_empty`. -/
def isEmpty (b : ChunkVecBuffer) : Bool := b.chunks.isEmpty

def len (b : ChunkVecBuffer) : Nat := b.chunks.foldl (fun len ch => len + ch.bytes.length) 0

/-- `is_full`. -/
def isFull (b : ChunkVecBuffer) : Bool :=
  match b.limit with
  | some limit => limit < b.len
  | none => false

/-- `apply_limit`: how many of `len` bytes should be appended. -/
def applyLimit (b : ChunkVecBuffer) (len : Nat) : Nat :=
  match b.limit with
  | some limit => min len (limit - b.len)
  | none => len

/-- `append`; the number of bytes is that of `bytes`. -/
def append (b : ChunkVecBuffer) (bytes : List UInt8) : ChunkVecBuffer :=
  if h : bytes ≠ [] then { b with chunks := b.chunks ++ [⟨bytes, h⟩] } else b

/-- `append_limited_copy`. -/
def appendLimitedCopy (b : ChunkVecBuffer) (bytes : List UInt8) : Nat × ChunkVecBuffer :=
  let take := b.applyLimit bytes.length
  (take, b.append (bytes.take take))

/-- `pop`: one chunk. -/
def pop (b : ChunkVecBuffer) : Option (List UInt8 × ChunkVecBuffer) :=
  match b.chunks with
  | [] => none
  | chunk :: rest => some (chunk.bytes, { b with chunks := rest })

/-- The loop of `consume`. -/
def consumeChunks : Nat → List Chunk → List Chunk
  | _, [] => []
  | used, buf :: rest =>
    if h : used < buf.bytes.length then
      ⟨buf.bytes.drop used, by simp [List.drop_eq_nil_iff]; omega⟩ :: rest
    else consumeChunks (used - buf.bytes.length) rest

def consume (b : ChunkVecBuffer) (used : Nat) : ChunkVecBuffer :=
  { b with chunks := consumeChunks used b.chunks }

/-- The loop of `read`, with room for `room` bytes. -/
def readChunks : Nat → Nat → List Chunk → Outcome (List UInt8 × List Chunk)
  | 0, _, _ => .diverge
  | fuel + 1, room, chunks =>
    match chunks with
    | [] => .ret ([], [])
    | chunk :: rest =>
      if room = 0 then .ret ([], chunk :: rest)
      else do
        let used := min chunk.bytes.length room
        let (out, chunks) ← readChunks fuel (room - used) (consumeChunks used (chunk :: rest))
        return (chunk.bytes.take used ++ out, chunks)

/-- `read`, into a buffer of `room` bytes. -/
def read (b : ChunkVecBuffer) (room : Nat) : Outcome (List UInt8 × ChunkVecBuffer) := do
  let (out, chunks) ← readChunks (b.chunks.length + 1) room b.chunks
  return (out, { b with chunks })

/-- The bytes that `write_to` offers to one call of `write_vectored`. -/
def offered (b : ChunkVecBuffer) : List UInt8 := ((b.chunks.take 64).map (·.bytes)).flatten

/-- `write_to`, with what the writer returns: so many bytes, or an error (`none`). The inner
    result is what the writer has taken; the outer one is `none` if no writer can have
    returned that. -/
def writeTo (b : ChunkVecBuffer) (result : Option Nat) :
    Option (Option (List UInt8) × ChunkVecBuffer) :=
  if b.isEmpty then some (some [], b)
  else
    match result with
    | none => some (none, b)
    | some used =>
      if used ≤ b.offered.length then some (some (b.offered.take used), b.consume used) else none

/-! ## Calls -/

inductive Event where
  | setLimit (newLimit : Option Nat)
  | append (bytes : List UInt8)
  | appendLimitedCopy (bytes : List UInt8)
  | pop
  | read (room : Nat)
  | writeTo (result : Option Nat)
  deriving DecidableEq

inductive Effect where
  /-- So many bytes were accepted, from the front of what was to be appended. -/
  | accepted (bytes : List UInt8)
  /-- Bytes were handed out. -/
  | handedOut (bytes : List UInt8)
  /-- The writer has returned an error. -/
  | writeFailed
  /-- The loop of `read` does not end. -/
  | hung
  deriving DecidableEq

/-- One call. -/
def step (b : ChunkVecBuffer) : Event → Option (ChunkVecBuffer × List Effect)
  | .setLimit newLimit => some (b.setLimit newLimit, [])
  | .append bytes => some (b.append bytes, [.accepted bytes])
  | .appendLimitedCopy bytes =>
    let (take, b) := b.appendLimitedCopy bytes
    some (b, [.accepted (bytes.take take)])
  | .pop =>
    match b.pop with
    | some (bytes, b) => some (b, [.handedOut bytes])
    | none => some (b, [])
  | .read room =>
    match b.read room with
    | .ret (bytes, b) => some (b, [.handedOut bytes])
    | .panic | .diverge => some (b, [.hung])
  | .writeTo result =>
    match b.writeTo result with
    | some (some bytes, b) => some (b, [.handedOut bytes])
    | some (none, b) => some (b, [.writeFailed])
    | none => none

end ChunkVecBuffer

end Fogged.Native.Tls
