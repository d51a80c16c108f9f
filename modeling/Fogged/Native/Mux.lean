import Mathlib.Data.Finmap
import Fogged.Native.Address

/-!
# The stream multiplexer (`orcax/protocol/src/mux.rs`)

One TLS connection carries many streams. A `Multiplexer` is one end's table of
them, with a counter for the ids of the streams it opens itself: odd ids belong to
the client and even ids to the server. The table is a finite map; counters wrap as
in a release build, where `+=` on an unsigned integer does.
-/

namespace Fogged.Native.Mux

/-- Default window size per stream (256KB). -/
def defaultWindowSize : UInt32 := 262144

/-- Maximum concurrent streams per connection. -/
def maxStreams : UInt32 := 256

inductive StreamState where
  | opened
  | halfClosedLocal
  | halfClosedRemote
  | closed
  deriving DecidableEq

/-- A single multiplexed stream. -/
structure MuxStream where
  id : UInt32
  state : StreamState
  target : Option TargetAddr
  windowSize : UInt32
  bytesSent : UInt64
  bytesReceived : UInt64
  isUdp : Bool
  deriving DecidableEq

/-- A stream as both ways of opening one make it. -/
def MuxStream.new (id : UInt32) (target : Option TargetAddr) (isUdp : Bool) : MuxStream where
  id := id
  state := .opened
  target := target
  windowSize := defaultWindowSize
  bytesSent := 0
  bytesReceived := 0
  isUdp := isUdp

/-- Why a stream is not opened. -/
inductive MuxError where
  /-- `open_stream` at the limit. -/
  | maxStreamsReached (limit : UInt32)
  /-- `register_remote_stream` at the limit. -/
  | maxRemoteStreamsReached
  | alreadyExists (id : UInt32)
  deriving DecidableEq

/-- One end's streams. -/
structure Multiplexer where
  streams : Finmap fun _ : UInt32 => MuxStream
  /-- Odd for a client, even for a server. -/
  nextStreamId : UInt32
  maxStreams : UInt32

namespace Multiplexer

/-- A server-side multiplexer: even ids. -/
def newServer : Multiplexer := { streams := ∅, nextStreamId := 2, maxStreams := Mux.maxStreams }

/-- A client-side multiplexer: odd ids. -/
def newClient : Multiplexer := { streams := ∅, nextStreamId := 1, maxStreams := Mux.maxStreams }

/-- The number of streams. -/
def streamCount (m : Multiplexer) : Nat := m.streams.keys.card

/-- Open a new stream and return its id. -/
def openStream (m : Multiplexer) (target : Option TargetAddr) (isUdp : Bool) :
    Except MuxError UInt32 × Multiplexer :=
  if m.streamCount ≥ m.maxStreams.toNat then
    (.error (.maxStreamsReached m.maxStreams), m)
  else
    let id := m.nextStreamId
    -- skip by 2 (odd/even separation)
    (.ok id, { m with
      nextStreamId := m.nextStreamId + 2,
      streams := m.streams.insert id (.new id target isUdp) })

/-- Register a stream that the peer has opened. -/
def registerRemoteStream (m : Multiplexer) (id : UInt32) (target : Option TargetAddr)
    (isUdp : Bool) : Except MuxError Unit × Multiplexer :=
  if m.streamCount ≥ m.maxStreams.toNat then
    (.error .maxRemoteStreamsReached, m)
  else if id ∈ m.streams then
    (.error (.alreadyExists id), m)
  else
    (.ok (), { m with streams := m.streams.insert id (.new id target isUdp) })

/-- Change the stream with the given id, if there is one (`get_mut`). -/
def modify (m : Multiplexer) (id : UInt32) (f : MuxStream → MuxStream) : Multiplexer :=
  match m.streams.lookup id with
  | none => m
  | some stream => { m with streams := m.streams.insert id (f stream) }

/-- Close a stream. -/
def closeStream (m : Multiplexer) (id : UInt32) : Multiplexer :=
  let m := m.modify id fun stream => { stream with state := .closed }
  { m with streams := m.streams.erase id }

/-- Record bytes sent on a stream. -/
def recordSent (m : Multiplexer) (id : UInt32) (bytes : UInt64) : Multiplexer :=
  m.modify id fun stream => { stream with bytesSent := stream.bytesSent + bytes }

/-- Record bytes received on a stream. -/
def recordReceived (m : Multiplexer) (id : UInt32) (bytes : UInt64) : Multiplexer :=
  m.modify id fun stream => { stream with bytesReceived := stream.bytesReceived + bytes }

/-- One turn of the loop of `total_bytes`. -/
def addBytes (total : UInt64 × UInt64) (stream : MuxStream) : UInt64 × UInt64 :=
  (total.1 + stream.bytesSent, total.2 + stream.bytesReceived)

/-- The table yields the streams in an order of its own. -/
theorem addBytes_comm (total : UInt64 × UInt64) (a b : MuxStream) :
    addBytes (addBytes total a) b = addBytes (addBytes total b) a := by
  simp only [addBytes, UInt64.add_assoc, UInt64.add_comm a.bytesSent,
    UInt64.add_comm a.bytesReceived]

/-- Total bytes across all streams. -/
def totalBytes (m : Multiplexer) : UInt64 × UInt64 :=
  m.streams.foldl (fun total _ stream => addBytes total stream)
    (fun total _ a _ b => addBytes_comm total a b) (0, 0)

end Multiplexer

end Fogged.Native.Mux
