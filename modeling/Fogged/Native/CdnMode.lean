import Mathlib.Logic.Function.Basic
import Fogged.Native.Socks5
import Fogged.Native.TcpReader
import Fogged.Native.Whitelist

/-!
# CDN mode of orcax-connect (`orcax/client/src/main.rs`, `run_ws_cdn_mode`, `cdn_socks5`)

All streams share one WebSocket, and every frame is one binary message. A reader task
distributes what the server sends through a table from stream ids to channels. Each
client is served by a handler, which registers a stream, opens it, and then spawns two
tasks: one sends what the client writes, the other writes what the channel delivers.
When one of the two has ended the handler closes the stream and removes it from the
table. The other task goes on by itself.

The model is one step function: every task runs from one `.await` to the next. The
sink is used under a mutex, so that messages are sent one at a time; the table is
locked only while the reader waits in `tx.send`. What the peers do and whether a
write succeeds is in the events.
-/

namespace Fogged.Native.CdnMode

open Fogged.Native Fogged.Native.Handshake Fogged.Native.TcpReader

/-! ## Messages -/

/-- The eight bytes in front of a payload; a length beyond 16 bits is cut off. -/
def header (type : UInt8) (sid : UInt32) (length : Nat) : List UInt8 :=
  [type, 0x00] ++ Bytes.toBE 4 sid.toNat ++ Bytes.toBE 2 length

/-- The address payload of a StreamOpen. -/
def address (host : Text) (port : UInt16) : List UInt8 :=
  [1] ++ Bytes.toBE 2 port.toNat ++
    match IpAddr.parseIpv4 host with
    | some octets => [1] ++ octets
    | none => [2, UInt8.ofNat host.length] ++ host

def openFrame (sid : UInt32) (host : Text) (port : UInt16) : List UInt8 :=
  header 0x01 sid (address host port).length ++ address host port

def dataFrame (sid : UInt32) (bytes : List UInt8) : List UInt8 :=
  header 0x00 sid bytes.length ++ bytes

def closeFrame (sid : UInt32) : List UInt8 := header 0x02 sid 0

/-- What the reader makes of a binary message. Its length field is not looked at. -/
inductive Incoming where
  | data (sid : UInt32) (payload : List UInt8)
  | close (sid : UInt32)
  | other
  deriving DecidableEq

/-- The body of the reader's loop up to its first `.await`. -/
def incoming : List UInt8 → Incoming
  | type :: _ :: i0 :: i1 :: i2 :: i3 :: _ :: _ :: payload =>
    let sid := UInt32.ofNat (Bytes.ofBE [i0, i1, i2, i3])
    match type with
    | 0x00 => .data sid payload
    | 0x02 => .close sid
    | _ => .other
  | _ => .other

/-! ## Tasks -/

/-- Which client a handler serves. -/
abbrev HandlerId := Nat

/-- Where `cdn_socks5` is, from the moment it has a stream id. -/
inductive Main where
  /-- Waiting for the table, to register the stream. -/
  | registering (frame : List UInt8)
  /-- Sending StreamOpen. -/
  | opening (frame : List UInt8)
  /-- Writing the SOCKS5 reply to the client. -/
  | replying
  /-- In `select!`. -/
  | relaying
  /-- Sending StreamClose. -/
  | closing
  /-- Waiting for the table, to remove the stream. -/
  | removing
  | returned (ok : Bool)
  deriving DecidableEq

/-- The upstream task. -/
inductive Up where
  /-- Not spawned yet. -/
  | idle
  /-- Reading from the client. -/
  | reading
  /-- Sending what it has read. -/
  | sending (bytes : List UInt8)
  | ended
  deriving DecidableEq

/-- The downstream task. -/
inductive Dn where
  /-- Not spawned yet. -/
  | idle
  /-- In `rx.recv()`. -/
  | receiving
  /-- Writing to the client. -/
  | writing (bytes : List UInt8)
  | ended
  deriving DecidableEq

/-- A stream: the handler that owns it, its two tasks and its channel. -/
structure Stream where
  sid : UInt32
  main : Main
  up : Up
  dn : Dn
  chan : Channel
  deriving DecidableEq

/-- A handler; up to the request, in a bypass and after an early error it has no
    stream. -/
inductive Handler where
  | negotiating
  /-- In `bypass_direct`. -/
  | bypassing
  | stream (st : Stream)
  | returned
  deriving DecidableEq

/-- The reader task. -/
inductive Reader where
  /-- In `ws_read.next()`. -/
  | reading
  /-- Waiting for the table, to look up a stream. -/
  | routing (sid : UInt32) (payload : List UInt8)
  /-- In `tx.send`, with the table locked. -/
  | sending (h : HandlerId) (payload : List UInt8)
  /-- Waiting for the table, to remove a stream. -/
  | closing (sid : UInt32)
  | stopped
  deriving DecidableEq

def Reader.locked : Reader → Bool
  | .sending _ _ => true
  | _ => false

structure State where
  nextId : UInt32
  /-- The table; a stream's sender is known by the handler that has the receiver. -/
  streams : Finmap fun _ : UInt32 => HandlerId
  handlers : HandlerId → Handler
  reader : Reader

def State.new : State where
  nextId := 1
  streams := ∅
  handlers _ := .negotiating
  reader := .reading

/-- What can be seen from outside. -/
inductive Effect where
  /-- A message is sent on the WebSocket. -/
  | sent (message : List UInt8)
  /-- A binary message arrives. -/
  | received (message : List UInt8)
  /-- Bytes are written to a client. -/
  | wrote (h : HandlerId) (bytes : List UInt8)
  deriving DecidableEq

/-! ## Steps -/

/-- What a handler with a stream and its two tasks do without the table. -/
inductive Act where
  | sendOpen (ok : Bool)
  | reply (ok : Bool)
  /-- `cr.read`; nothing at the end of the client's side or on an error. -/
  | read (bytes : List UInt8)
  | sendData (ok : Bool)
  | recv
  | write (ok : Bool)
  /-- One of the two tasks has ended. -/
  | select
  | sendClose (ok : Bool)
  deriving DecidableEq

/-- Such a step of handler `h`; `held` says whether the table still has the sender of
    its channel. -/
def Stream.act (h : HandlerId) (held : Bool) (st : Stream) : Act → Option (Stream × List Effect)
  | .sendOpen ok =>
    match st.main with
    | .opening frame =>
      if ok then some ({ st with main := .replying }, [.sent frame])
      -- the receiver is dropped, the sender stays in the table
      else some ({ st with main := .returned false, chan := st.chan.close }, [])
    | _ => none
  | .reply ok =>
    match st.main with
    | .replying =>
      if ok then some ({ st with main := .relaying, up := .reading, dn := .receiving }, [])
      else some ({ st with main := .returned false, chan := st.chan.close }, [])
    | _ => none
  | .read bytes =>
    match st.up with
    | .reading =>
      if bytes = [] then some ({ st with up := .ended }, [])
      else if bytes.length ≤ 65536 then some ({ st with up := .sending bytes }, [])
      else none
    | _ => none
  | .sendData ok =>
    match st.up with
    | .sending bytes =>
      if ok then some ({ st with up := .reading }, [.sent (dataFrame st.sid bytes)])
      else some ({ st with up := .ended }, [])
    | _ => none
  | .recv =>
    match st.dn with
    | .receiving =>
      match st.chan.recv with
      | some (bytes, chan) => some ({ st with dn := .writing bytes, chan }, [])
      | none => if held then none else some ({ st with dn := .ended, chan := st.chan.close }, [])
    | _ => none
  | .write ok =>
    match st.dn with
    | .writing bytes =>
      if ok then some ({ st with dn := .receiving }, [.wrote h bytes])
      else some ({ st with dn := .ended, chan := st.chan.close }, [])
    | _ => none
  | .select =>
    match st.main with
    | .relaying =>
      if st.up = .ended ∨ st.dn = .ended then some ({ st with main := .closing }, []) else none
    | _ => none
  | .sendClose ok =>
    match st.main with
    | .closing =>
      -- an error is ignored: `let _ = ws_write.lock().await.send(..).await`
      some ({ st with main := .removing }, if ok then [.sent (closeFrame st.sid)] else [])
    | _ => none

/-- Who does the next step. -/
inductive Event where
  /-- The one read for the client's request returns. -/
  | request (h : HandlerId) (bytes : List UInt8)
  /-- A handler without a stream returns. -/
  | leave (h : HandlerId)
  | register (h : HandlerId)
  | act (h : HandlerId) (a : Act)
  | remove (h : HandlerId)
  /-- The reader gets a binary message. -/
  | incoming (message : List UInt8)
  /-- The WebSocket ends. -/
  | stop
  /-- The reader goes on with its message. -/
  | dispatch
  deriving DecidableEq

def State.setHandler (s : State) (h : HandlerId) (handler : Handler) : State :=
  { s with handlers := Function.update s.handlers h handler }

/-- Whether the table has `h`'s sender under `sid`. -/
def State.holds (s : State) (sid : UInt32) (h : HandlerId) : Bool :=
  s.streams.lookup sid = some h

/-- A new stream, once its target is known. -/
def Stream.new (sid : UInt32) (host : Text) (port : UInt16) : Stream where
  sid := sid
  main := .registering (openFrame sid host port)
  up := .idle
  dn := .idle
  chan := .new 64

/-- The request decides between an error, a bypass and a stream. -/
def stepRequest (wl : Option Whitelist) (s : State) (h : HandlerId) (bytes : List UInt8) :
    Option State :=
  match s.handlers h with
  | .negotiating =>
    if Socks5.bufferSize < bytes.length then none
    else
      match Socks5.parseRequest bytes with
      | .error _ => some (s.setHandler h .returned)
      | .ok (host, port) =>
        if Whitelist.bypasses wl host then some (s.setHandler h .bypassing)
        else
          some { s.setHandler h (.stream (.new s.nextId host port)) with nextId := s.nextId + 2 }
  | _ => none

/-- The reader with a message in hand. -/
def stepReader (s : State) : Option State :=
  match s.reader with
  | .routing sid payload =>
    match s.streams.lookup sid with
    | some h => some { s with reader := .sending h payload }
    | none => some { s with reader := .reading }
  | .sending h payload =>
    match s.handlers h with
    | .stream st =>
      -- an error is ignored: `let _ = tx.send(..).await`
      (st.chan.send payload).map fun r =>
        { s.setHandler h (.stream { st with chan := r.1 }) with reader := .reading }
    | _ => none
  | .closing sid => some { s with streams := s.streams.erase sid, reader := .reading }
  | .reading | .stopped => none

/-- One step of the whole. -/
def step (wl : Option Whitelist) (s : State) : Event → Option (State × List Effect)
  | .request h bytes => (stepRequest wl s h bytes).map (·, [])
  | .leave h =>
    match s.handlers h with
    | .negotiating | .bypassing => some (s.setHandler h .returned, [])
    | _ => none
  | .register h =>
    match s.handlers h with
    | .stream st =>
      match st.main with
      | .registering frame =>
        if s.reader.locked then none
        else
          some ({ s.setHandler h (.stream { st with main := .opening frame }) with
            streams := s.streams.insert st.sid h }, [])
      | _ => none
    | _ => none
  | .act h a =>
    match s.handlers h with
    | .stream st =>
      (st.act h (s.holds st.sid h) a).map fun r => (s.setHandler h (.stream r.1), r.2)
    | _ => none
  | .remove h =>
    match s.handlers h with
    | .stream st =>
      match st.main with
      | .removing =>
        if s.reader.locked then none
        else
          some ({ s.setHandler h (.stream { st with main := .returned true }) with
            streams := s.streams.erase st.sid }, [])
      | _ => none
    | _ => none
  | .incoming message =>
    match s.reader with
    | .reading =>
      match incoming message with
      | .data sid payload => some ({ s with reader := .routing sid payload }, [.received message])
      | .close sid => some ({ s with reader := .closing sid }, [.received message])
      | .other => some (s, [.received message])
    | _ => none
  | .stop =>
    match s.reader with
    | .reading => some ({ s with reader := .stopped }, [])
    | _ => none
  | .dispatch => (stepReader s).map (·, [])

end Fogged.Native.CdnMode
