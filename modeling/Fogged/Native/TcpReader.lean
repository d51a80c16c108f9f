import Mathlib.Data.Finmap
import Fogged.Native.Orca

/-!
# The TCP-mode reader of orcax-connect (`orcax/client/src/main.rs`, `main`)

In TCP mode one task reads frames from the TLS connection and distributes them to
the streams. It shares the stream table, a mutex-protected map from stream ids to
channel senders, with the tasks that open and close streams; each stream's task
receives from its channel; a writer task drains the queue of outgoing frames.

The model is one step function. The reader runs from one `.await` to the next:
between two frames, waiting for the table, waiting in `tx.send` with the table
still locked, or waiting for room in the write queue. The other tasks appear as
the events by which they touch what is shared. `step` takes the source of messages
as a parameter; the program's is `readMessage` on the bytes of the connection.
-/

namespace Fogged.Native.TcpReader

open Fogged.Native.Orca

/-! ## Channels -/

/-- A bounded `tokio::sync::mpsc` channel; `closed` when its receiver is gone. -/
structure Channel where
  capacity : Nat
  queue : List (List UInt8)
  closed : Bool
  deriving DecidableEq

namespace Channel

/-- `mpsc::channel(capacity)`. -/
def new (capacity : Nat) : Channel := { capacity, queue := [], closed := false }

/-- Poll `tx.send(v)`: an error if the receiver is gone, and pending (`none`) while
    the queue is full. -/
def send (ch : Channel) (v : List UInt8) : Option (Channel × Bool) :=
  if ch.closed then some (ch, false)
  else if ch.queue.length < ch.capacity then some ({ ch with queue := ch.queue ++ [v] }, true)
  else none

/-- Poll `rx.recv()`. -/
def recv (ch : Channel) : Option (List UInt8 × Channel) :=
  match ch.queue with
  | [] => none
  | v :: queue => some (v, { ch with queue })

/-- Drop the receiver, and with it what is queued. -/
def close (ch : Channel) : Channel := { ch with queue := [], closed := true }

end Channel

/-- A channel's identity; the table holds senders of it. -/
abbrev ChanId := Nat

/-- What the tasks share. -/
structure Shared where
  /-- `streams`, the table behind the mutex. -/
  streams : Finmap fun _ : UInt32 => ChanId
  /-- The channels; those from `nextChan` on do not exist yet. -/
  channels : ChanId → Channel
  nextChan : ChanId
  /-- The queue of outgoing frames, `write_tx`. -/
  writer : Channel
  /-- The download counter. -/
  bd : UInt64

/-- At the start: an empty table, a write queue for 256 frames, a counter at zero. -/
def Shared.new : Shared where
  streams := ∅
  channels _ := Channel.new 64
  nextChan := 0
  writer := Channel.new 256
  bd := 0

/-! ## Reading a frame -/

/-- A frame as it stands on the wire. -/
structure RawFrame where
  type : UInt8
  flags : UInt8
  streamId : UInt32
  payload : List UInt8
  deriving DecidableEq

/-- The two exact reads at the head of the loop. -/
def readFrame (wire : List UInt8) : Option (RawFrame × List UInt8) :=
  match wire with
  | type :: flags :: i0 :: i1 :: i2 :: i3 :: l0 :: l1 :: wire =>
    let streamId := UInt32.ofNat (Bytes.ofBE [i0, i1, i2, i3])
    let length := Bytes.ofBE [l0, l1]
    match Bytes.readExact length wire with
    | none => none
    | some (payload, wire) => some ({ type, flags, streamId, payload }, wire)
  | _ => none

/-- The padding removal of the data arm. -/
def stripData (flags : UInt8) (payload : List UInt8) : List UInt8 :=
  if flags &&& 0x04 ≠ 0 ∧ payload ≠ [] then
    let padLen := (payload.getLastD 0).toNat
    if padLen > 0 ∧ padLen < payload.length then payload.take (payload.length - padLen)
    else payload
  else payload

/-- What the loop makes of a frame. -/
inductive Message where
  | data (streamId : UInt32) (bytes : List UInt8)
  | ready (streamId : UInt32) (bytes : List UInt8)
  | close (streamId : UInt32)
  | ping
  | other
  deriving DecidableEq

/-- The arms of `match frame_type`. -/
def RawFrame.message (f : RawFrame) : Message :=
  match f.type with
  | 0x00 => .data f.streamId (stripData f.flags f.payload)
  | 0x01 => .ready f.streamId f.payload
  | 0x02 => .close f.streamId
  | 0x03 => .ping
  | _ => .other

/-- The next message of the connection; `none` when a read fails. -/
def readMessage (wire : List UInt8) : Option (Message × List UInt8) :=
  (readFrame wire).map fun r => (r.1.message, r.2)

/-! ## The reader task and its surroundings -/

/-- Which arm a routed payload comes from. -/
inductive Origin where
  | data
  | ready
  deriving DecidableEq

/-- Where the reader task is. -/
inductive Reader where
  /-- At the head of the loop. -/
  | reading
  /-- Waiting for the table, to look up a stream. -/
  | routing (origin : Origin) (streamId : UInt32) (bytes : List UInt8)
  /-- In `tx.send`, with the table locked. -/
  | sending (chan : ChanId) (bytes : List UInt8)
  /-- Waiting for the table, to remove a stream. -/
  | closing (streamId : UInt32)
  /-- In `write_tx.send`. -/
  | answering (bytes : List UInt8)
  /-- Out of the loop. -/
  | stopped
  deriving DecidableEq

/-- The table is locked while the reader waits in `tx.send`; every other use of it
    releases it at once. -/
def Reader.locked : Reader → Bool
  | .sending _ _ => true
  | _ => false

/-- The part of an arm before its first `.await`. -/
def handle (rng : Rng) (shared : Shared) : Message → Reader × Shared
  | .data streamId bytes =>
    (.routing .data streamId bytes, { shared with bd := shared.bd + UInt64.ofNat bytes.length })
  | .ready streamId bytes => (.routing .ready streamId bytes, shared)
  | .close streamId => (.closing streamId, shared)
  | .ping =>
    match Frame.pong.withPadding rng 4 64 with
    | .ret pong => (.answering pong.encode, shared)
    | _ => (.stopped, shared)
  | .other => (.reading, shared)

/-- The tasks, with the source the reader reads from. -/
structure State (σ : Type) where
  source : σ
  reader : Reader
  shared : Shared

/-- The reader before its first frame. -/
def State.new {σ : Type} (source : σ) : State σ := { source, reader := .reading, shared := .new }

/-- What happens at the shared channels. -/
inductive Effect where
  /-- The reader looked up a stream and found `dest`. -/
  | routed (origin : Origin) (streamId : UInt32) (bytes : List UInt8) (dest : Option ChanId)
  /-- `tx.send` returned `Ok`. -/
  | sent (chan : ChanId) (bytes : List UInt8)
  /-- `tx.send` returned an error. -/
  | refused (chan : ChanId) (bytes : List UInt8)
  /-- A stream's task received. -/
  | received (chan : ChanId) (bytes : List UInt8)
  deriving DecidableEq

/-- Who does the next step. -/
inductive Event where
  /-- The reader, with the random numbers of a pong it may have to pad. -/
  | reader (rng : Rng)
  /-- `MuxPool::open_stream` puts a new channel of capacity 64 into the table. -/
  | register (streamId : UInt32)
  /-- `MuxPool::close_stream` removes a stream from the table. -/
  | unregister (streamId : UInt32)
  /-- A stream's task receives. -/
  | receive (chan : ChanId)
  /-- A stream's task ends and drops its receiver. -/
  | dropReceiver (chan : ChanId)
  /-- Another task queues a frame. -/
  | enqueue (bytes : List UInt8)
  /-- The writer task takes a frame. -/
  | writerTake
  /-- The writer task ends. -/
  | writerStop

def Shared.setChannel (shared : Shared) (chan : ChanId) (ch : Channel) : Shared :=
  { shared with channels := Function.update shared.channels chan ch }

variable {σ : Type}

/-- The reader from one `.await` to the next; `none` while it has to wait. -/
def stepReader (next : σ → Option (Message × σ)) (rng : Rng) (s : State σ) :
    Option (State σ × List Effect) :=
  match s.reader with
  | .reading =>
    match next s.source with
    | none => some ({ s with reader := .stopped }, [])
    | some (message, source) =>
      let (reader, shared) := handle rng s.shared message
      some ({ source, reader, shared }, [])
  | .routing origin streamId bytes =>
    match s.shared.streams.lookup streamId with
    | some chan =>
      some ({ s with reader := .sending chan bytes }, [.routed origin streamId bytes (some chan)])
    | none => some ({ s with reader := .reading }, [.routed origin streamId bytes none])
  | .sending chan bytes =>
    match (s.shared.channels chan).send bytes with
    | none => none
    | some (ch, true) =>
      some ({ s with reader := .reading, shared := s.shared.setChannel chan ch },
        [.sent chan bytes])
    -- the error is ignored: `let _ = tx.send(..).await`
    | some (_, false) => some ({ s with reader := .reading }, [.refused chan bytes])
  | .closing streamId =>
    let shared := { s.shared with streams := s.shared.streams.erase streamId }
    some ({ s with reader := .reading, shared }, [])
  | .answering bytes =>
    match s.shared.writer.send bytes with
    | none => none
    | some (writer, _) =>
      some ({ s with reader := .reading, shared := { s.shared with writer } }, [])
  | .stopped => none

/-- The tasks around the reader. `locked` says whether the reader holds the table. -/
def stepOther (locked : Bool) (shared : Shared) : Event → Option (Shared × List Effect)
  | .reader _ => none
  | .register streamId =>
    if locked then none
    else
      let shared := shared.setChannel shared.nextChan (.new 64)
      some ({ shared with
        streams := shared.streams.insert streamId shared.nextChan,
        nextChan := shared.nextChan + 1 }, [])
  | .unregister streamId =>
    if locked then none
    else some ({ shared with streams := shared.streams.erase streamId }, [])
  | .receive chan =>
    (shared.channels chan).recv.map fun r =>
      (shared.setChannel chan r.2, [.received chan r.1])
  | .dropReceiver chan => some (shared.setChannel chan (shared.channels chan).close, [])
  | .enqueue bytes => (shared.writer.send bytes).map fun r => ({ shared with writer := r.1 }, [])
  | .writerTake => shared.writer.recv.map fun r => ({ shared with writer := r.2 }, [])
  | .writerStop => some ({ shared with writer := shared.writer.close }, [])

/-- One step of the whole. -/
def step (next : σ → Option (Message × σ)) (s : State σ) (e : Event) :
    Option (State σ × List Effect) :=
  match e with
  | .reader rng => stepReader next rng s
  | e => (stepOther s.reader.locked s.shared e).map fun r => ({ s with shared := r.1 }, r.2)

end Fogged.Native.TcpReader
