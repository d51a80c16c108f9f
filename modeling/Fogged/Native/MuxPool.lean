import Mathlib.Logic.Function.Basic
import Fogged.Native.Socks5
import Fogged.Native.TcpReader
import Fogged.Native.Whitelist

/-!
# The stream pool of TCP mode (`orcax/client/src/main.rs`, `MuxPool`, `handle_socks5`)

Every SOCKS5 client is served by a handler. It opens a stream on the multiplexed TLS
connection, waits for the server's StreamReady on the stream's channel, and then
relays over a TCP connection of its own; the channel stays open until the handler
returns. `TcpReader` is the rest: the reader task, the table of streams and the queue
of outgoing frames. What a handler does there is one of the events of that machine.

There is one TLS connection, because `main` stops after the first server that accepts
it, so the pool's round robin always picks the same link. `MuxPool::close_stream` is
not modelled: nothing calls it.
-/

namespace Fogged.Native.MuxPool

open Fogged.Native Fogged.Native.Handshake Fogged.Native.Orca
open Fogged.Native.TcpReader (ChanId)

/-- Which client a handler serves. -/
abbrev HandlerId := Nat

/-- Where `handle_socks5` is after `open_stream`. -/
inductive Phase where
  /-- In `stream.rx.recv()`, for ten seconds at most. -/
  | waiting
  /-- Connecting the data connection. -/
  | connecting
  /-- Writing the session token and the stream id to it. -/
  | keying
  /-- Writing the SOCKS5 reply to the client. -/
  | replying
  /-- In `copy_bidirectional`. -/
  | relaying
  deriving DecidableEq

inductive Handler where
  | negotiating
  /-- In `bypass_direct`. -/
  | bypassing
  /-- In `open_stream`, waiting for the table. -/
  | registering (sid : UInt32) (target : TargetAddr)
  /-- In `open_stream`, waiting for room in the queue of outgoing frames. -/
  | opening (sid : UInt32) (chan : ChanId) (frame : Frame)
  /-- `open_stream` has returned. -/
  | opened (sid : UInt32) (chan : ChanId) (phase : Phase)
  | returned (ok : Bool)
  deriving DecidableEq

structure State where
  /-- The reader, the table, the channels and the outgoing frames. -/
  tcp : TcpReader.State (List UInt8)
  nextId : UInt32
  handlers : HandlerId → Handler

/-- At the start; `wire` is what the server will send. -/
def State.new (wire : List UInt8) : State where
  tcp := .new wire
  nextId := 1
  handlers _ := .negotiating

inductive Event where
  /-- The reader task, with the random numbers of a pong. -/
  | reader (rng : Rng)
  /-- The writer task takes a frame. -/
  | writerTake
  /-- The writer task ends. -/
  | writerStop
  /-- The one read for the client's request returns. -/
  | request (h : HandlerId) (bytes : List UInt8)
  /-- A handler without a stream returns. -/
  | leave (h : HandlerId)
  /-- `open_stream` gets the table, with the random numbers of its frame. -/
  | register (h : HandlerId) (rng : Rng)
  /-- `open_stream` has handed its frame to the writer, or has been refused. -/
  | sendOpen (h : HandlerId)
  /-- The channel yields a message, or has lost its sender. -/
  | recv (h : HandlerId)
  /-- What the handler waits for succeeds. -/
  | advance (h : HandlerId)
  /-- It fails, or takes too long. -/
  | fail (h : HandlerId)

/-- What is seen of the handlers: the frames they hand to the writer. -/
inductive Effect where
  | handed (h : HandlerId) (frame : Frame)
  deriving DecidableEq

def State.setHandler (s : State) (h : HandlerId) (handler : Handler) : State :=
  { s with handlers := Function.update s.handlers h handler }

/-- A step of the machine below. -/
def State.stepTcp (s : State) (e : TcpReader.Event) : Option State :=
  (TcpReader.step TcpReader.readMessage s.tcp e).map fun r => { s with tcp := r.1 }

/-- A handler with a channel returns and drops its receiver. -/
def State.finish (s : State) (h : HandlerId) (chan : ChanId) (ok : Bool) : Option State :=
  (s.setHandler h (.returned ok)).stepTcp (.dropReceiver chan)

/-- The target as `handle_socks5` builds it. The host has passed `String::from_utf8`,
    and an IPv4 address has four octets, so the defaults are not used. -/
def targetAddr (host : Text) (port : UInt16) : TargetAddr :=
  let domain := .domain ((String.fromUTF8? ⟨host.toArray⟩).getD "")
  let addr :=
    match IpAddr.parseIpv4 host with
    | some octets => if h : octets.length = 4 then .ipv4 ⟨octets, h⟩ else domain
    | none => domain
  { addr, port }

def stepRequest (wl : Option Whitelist) (s : State) (h : HandlerId) (bytes : List UInt8) :
    Option State :=
  match s.handlers h with
  | .negotiating =>
    if Socks5.bufferSize < bytes.length then none
    else
      match Socks5.parseRequest bytes with
      | .error _ => some (s.setHandler h (.returned false))
      | .ok (host, port) =>
        if Whitelist.bypasses wl host then some (s.setHandler h .bypassing)
        else
          some { s.setHandler h (.registering s.nextId (targetAddr host port)) with
            nextId := s.nextId + 2 }
  | _ => none

/-- `open_stream` puts a new channel into the table and builds its frame. -/
def stepRegister (s : State) (h : HandlerId) (rng : Rng) : Option State :=
  match s.handlers h with
  | .registering sid target =>
    (s.stepTcp (.register sid)).bind fun t =>
      let chan := s.tcp.shared.nextChan
      match (Frame.streamOpen sid target).withPadding rng 4 128 with
      | .ret frame => some (t.setHandler h (.opening sid chan frame))
      | _ => t.finish h chan false
  | _ => none

/-- `open_stream` hands its frame to the writer. On an error the channel is dropped,
    and the table keeps its entry. -/
def stepSendOpen (s : State) (h : HandlerId) : Option (State × List Effect) :=
  match s.handlers h with
  | .opening sid chan frame =>
    match s.tcp.shared.writer.send frame.encode with
    | none => none
    | some (_, true) =>
      (s.stepTcp (.enqueue frame.encode)).map fun t =>
        (t.setHandler h (.opened sid chan .waiting), [.handed h frame])
    | some (_, false) => (s.finish h chan false).map (·, [])
  | _ => none

/-- `stream.rx.recv()`: whatever arrives first counts as StreamReady. Without a
    sender in the table it returns `None`. -/
def stepRecv (s : State) (h : HandlerId) : Option State :=
  match s.handlers h with
  | .opened sid chan .waiting =>
    match (s.tcp.shared.channels chan).recv with
    | some _ => (s.stepTcp (.receive chan)).map fun t => t.setHandler h (.opened sid chan .connecting)
    | none =>
      if s.tcp.shared.streams.lookup sid = some chan then none else s.finish h chan false
  | _ => none

/-- The data connection; an error of `copy_bidirectional` is ignored. -/
def stepAdvance (s : State) (h : HandlerId) : Option State :=
  match s.handlers h with
  | .opened sid chan .connecting => some (s.setHandler h (.opened sid chan .keying))
  | .opened sid chan .keying => some (s.setHandler h (.opened sid chan .replying))
  | .opened sid chan .replying => some (s.setHandler h (.opened sid chan .relaying))
  | .opened _ chan .relaying => s.finish h chan true
  | _ => none

def stepFail (s : State) (h : HandlerId) : Option State :=
  match s.handlers h with
  | .opened _ _ .relaying => none
  | .opened _ chan _ => s.finish h chan false
  | _ => none

/-- One step of the whole. -/
def step (wl : Option Whitelist) (s : State) : Event → Option (State × List Effect)
  | .reader rng => (s.stepTcp (.reader rng)).map (·, [])
  | .writerTake => (s.stepTcp .writerTake).map (·, [])
  | .writerStop => (s.stepTcp .writerStop).map (·, [])
  | .request h bytes => (stepRequest wl s h bytes).map (·, [])
  | .leave h =>
    match s.handlers h with
    | .negotiating | .bypassing => some (s.setHandler h (.returned false), [])
    | _ => none
  | .register h rng => (stepRegister s h rng).map (·, [])
  | .sendOpen h => stepSendOpen s h
  | .recv h => (stepRecv s h).map (·, [])
  | .advance h => (stepAdvance s h).map (·, [])
  | .fail h => (stepFail s h).map (·, [])

end Fogged.Native.MuxPool
