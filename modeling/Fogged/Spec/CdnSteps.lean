import Fogged.ForStd.Machine
import Fogged.Native.CdnMode

/-!
# What a step of CDN mode does

`Step` lists the steps with what each needs and what it changes, and `Acts` those of
the tasks of one stream; every invariant of the CDN-mode machine is proved by going
through these lists and not through the step function. A stream id is given out again
after 2^31 streams: `Distinct`, that no two handlers have the same one, holds as long as
the next id is always an unused one.
-/

namespace Fogged.Spec.Cdn

open Fogged.Native Fogged.Native.CdnMode

/-! ## The streams of a state -/

def stream? : Handler → Option Stream
  | .stream st => some st
  | .negotiating | .bypassing | .returned => none

/-- The stream id a handler has taken. -/
def sid? (handler : Handler) : Option UInt32 := (stream? handler).map Stream.sid

/-- The stream of a handler that has one. -/
theorem stream?_stream {s : State} {h : HandlerId} {st : Stream} (hs : s.handlers h = .stream st) :
    stream? (s.handlers h) = some st := by
  rw [hs]
  rfl

/-- A handler that has a stream. -/
theorem handlers_of_stream? {handler : Handler} {st : Stream} (hst : stream? handler = some st) :
    handler = .stream st := by
  cases handler with
  | stream st' => exact congrArg Handler.stream (Option.some.inj hst)
  | _ => cases hst

/-- The streams after a change of one handler. -/
theorem stream?_setHandler {s : State} {h h' : HandlerId} {handler : Handler} {st : Stream}
    (hst : stream? ((s.setHandler h handler).handlers h') = some st) :
    h' = h ∧ stream? handler = some st ∨ h' ≠ h ∧ stream? (s.handlers h') = some st := by
  by_cases hh : h' = h
  · subst hh
    simp only [State.setHandler, Function.update_self] at hst
    exact .inl ⟨rfl, hst⟩
  · simp only [State.setHandler, Function.update_of_ne hh] at hst
    exact .inr ⟨hh, hst⟩

/-! ## The tasks of a stream -/

/-- What the three tasks of a stream can do; `held` says whether the table still has the
    sender of the stream's channel. -/
inductive Acts (h : HandlerId) (held : Bool) (st : Stream) :
    Act → Stream → List Effect → Prop where
  | opened {frame : List UInt8} (hmain : st.main = .opening frame) :
      Acts h held st (.sendOpen true) { st with main := .replying } [.sent frame]
  | refused {frame : List UInt8} (hmain : st.main = .opening frame) :
      Acts h held st (.sendOpen false)
        { st with main := .returned false, chan := st.chan.close } []
  | spawned (hmain : st.main = .replying) :
      Acts h held st (.reply true)
        { st with main := .relaying, up := .reading, dn := .receiving } []
  | unanswered (hmain : st.main = .replying) :
      Acts h held st (.reply false) { st with main := .returned false, chan := st.chan.close } []
  /-- The client has closed its sending side. -/
  | eof (hup : st.up = .reading) : Acts h held st (.read []) { st with up := .ended } []
  | read {bytes : List UInt8} (hup : st.up = .reading) (hne : bytes ≠ [])
      (hlen : bytes.length ≤ 65536) :
      Acts h held st (.read bytes) { st with up := .sending bytes } []
  | uploaded {bytes : List UInt8} (hup : st.up = .sending bytes) :
      Acts h held st (.sendData true) { st with up := .reading } [.sent (dataFrame st.sid bytes)]
  | unsent {bytes : List UInt8} (hup : st.up = .sending bytes) :
      Acts h held st (.sendData false) { st with up := .ended } []
  | received {bytes : List UInt8} {chan : TcpReader.Channel} (hdn : st.dn = .receiving)
      (hrecv : st.chan.recv = some (bytes, chan)) :
      Acts h held st .recv { st with dn := .writing bytes, chan } []
  /-- The queue is empty and nobody can send any more. -/
  | drained (hdn : st.dn = .receiving) (hrecv : st.chan.recv = none) (hheld : held = false) :
      Acts h held st .recv { st with dn := .ended, chan := st.chan.close } []
  | wrote {bytes : List UInt8} (hdn : st.dn = .writing bytes) :
      Acts h held st (.write true) { st with dn := .receiving } [.wrote h bytes]
  | unwritten {bytes : List UInt8} (hdn : st.dn = .writing bytes) :
      Acts h held st (.write false) { st with dn := .ended, chan := st.chan.close } []
  | selected (hmain : st.main = .relaying) (hended : st.up = .ended ∨ st.dn = .ended) :
      Acts h held st .select { st with main := .closing } []
  | closed (hmain : st.main = .closing) :
      Acts h held st (.sendClose true) { st with main := .removing } [.sent (closeFrame st.sid)]
  | unclosed (hmain : st.main = .closing) :
      Acts h held st (.sendClose false) { st with main := .removing } []

/-- The list is complete. -/
theorem act_cases {h : HandlerId} {held : Bool} {st st' : Stream} {a : Act} {o : List Effect}
    (hact : st.act h held a = some (st', o)) : Acts h held st a st' o := by
  -- the first `split` is on the phase the act needs; in any other one it is not enabled
  cases a with
  | sendOpen ok =>
    rw [Stream.act] at hact
    split at hact
    · cases ok <;> cases hact
      · exact .refused ‹_›
      · exact .opened ‹_›
    · cases hact
  | reply ok =>
    rw [Stream.act] at hact
    split at hact
    · cases ok <;> cases hact
      · exact .unanswered ‹_›
      · exact .spawned ‹_›
    · cases hact
  -- no bytes is the end of the input
  | read bytes =>
    rw [Stream.act] at hact
    split at hact
    · split at hact
      · subst bytes
        cases hact
        exact .eof ‹_›
      · split at hact
        · cases hact
          exact .read ‹_› ‹_› ‹_›
        · cases hact
    · cases hact
  | sendData ok =>
    rw [Stream.act] at hact
    split at hact
    · cases ok <;> cases hact
      · exact .unsent ‹_›
      · exact .uploaded ‹_›
    · cases hact
  -- an empty queue ends the stream only once nobody holds the sender
  | recv =>
    rw [Stream.act] at hact
    split at hact
    · split at hact
      · cases hact
        exact .received ‹_› ‹_›
      · split at hact
        · cases hact
        · cases hact
          exact .drained ‹_› ‹_› (by simpa using ‹¬ held = true›)
    · cases hact
  | write ok =>
    rw [Stream.act] at hact
    split at hact
    · cases ok <;> cases hact
      · exact .unwritten ‹_›
      · exact .wrote ‹_›
    · cases hact
  | select =>
    rw [Stream.act] at hact
    split at hact
    · split at hact
      · cases hact
        exact .selected ‹_› ‹_›
      · cases hact
    · cases hact
  | sendClose ok =>
    rw [Stream.act] at hact
    split at hact
    · cases ok <;> cases hact
      · exact .unclosed ‹_›
      · exact .closed ‹_›
    · cases hact

/-! ## The steps -/

inductive Step (s : State) : Event → State → List Effect → Prop where
  /-- A handler without a stream goes on without one. -/
  | aside {e : Event} {h : HandlerId} {handler : Handler} (hs : stream? (s.handlers h) = none)
      (ht : stream? handler = none) : Step s e (s.setHandler h handler) []
  | opens {h : HandlerId} {bytes : List UInt8} {host : Handshake.Text} {port : UInt16}
      (hs : s.handlers h = .negotiating) :
      Step s (.request h bytes)
        { s.setHandler h (.stream (.new s.nextId host port)) with nextId := s.nextId + 2 } []
  | register {h : HandlerId} {st : Stream} {frame : List UInt8} (hs : s.handlers h = .stream st)
      (hmain : st.main = .registering frame) (hlock : s.reader.locked = false) :
      Step s (.register h)
        { s.setHandler h (.stream { st with main := .opening frame }) with
          streams := s.streams.insert st.sid h } []
  | act {h : HandlerId} {a : Act} {st st' : Stream} {o : List Effect}
      (hs : s.handlers h = .stream st) (hact : st.act h (s.holds st.sid h) a = some (st', o)) :
      Step s (.act h a) (s.setHandler h (.stream st')) o
  | remove {h : HandlerId} {st : Stream} (hs : s.handlers h = .stream st)
      (hmain : st.main = .removing) (hlock : s.reader.locked = false) :
      Step s (.remove h)
        { s.setHandler h (.stream { st with main := .returned true }) with
          streams := s.streams.erase st.sid } []
  | data {message : List UInt8} {sid : UInt32} {payload : List UInt8} (hs : s.reader = .reading)
      (hmessage : incoming message = .data sid payload) :
      Step s (.incoming message) { s with reader := .routing sid payload } [.received message]
  | close {message : List UInt8} {sid : UInt32} (hs : s.reader = .reading)
      (hmessage : incoming message = .close sid) :
      Step s (.incoming message) { s with reader := .closing sid } [.received message]
  | other {message : List UInt8} (hs : s.reader = .reading)
      (hmessage : incoming message = .other) : Step s (.incoming message) s [.received message]
  | stop (hs : s.reader = .reading) : Step s .stop { s with reader := .stopped } []
  | found {sid : UInt32} {payload : List UInt8} {h : HandlerId}
      (hs : s.reader = .routing sid payload) (hlookup : s.streams.lookup sid = some h) :
      Step s .dispatch { s with reader := .sending h payload } []
  | missed {sid : UInt32} {payload : List UInt8} (hs : s.reader = .routing sid payload)
      (hlookup : s.streams.lookup sid = none) : Step s .dispatch { s with reader := .reading } []
  | delivered {h : HandlerId} {payload : List UInt8} {st : Stream} {chan : TcpReader.Channel}
      {ok : Bool} (hreader : s.reader = .sending h payload) (hs : s.handlers h = .stream st)
      (hsend : st.chan.send payload = some (chan, ok)) :
      Step s .dispatch
        { s.setHandler h (.stream { st with chan }) with reader := .reading } []
  | closed {sid : UInt32} (hs : s.reader = .closing sid) :
      Step s .dispatch { s with streams := s.streams.erase sid, reader := .reading } []

/-- A request: it is refused, goes past the tunnel, or gets the next stream id. -/
theorem step_request {wl : Option Whitelist} {s t : State} {h : HandlerId} {bytes : List UInt8}
    (hstep : stepRequest wl s h bytes = some t) : Step s (.request h bytes) t [] := by
  rw [stepRequest] at hstep
  split at hstep
  · rename_i hneg
    -- the handler has no stream so far
    have hnone : stream? (s.handlers h) = none := by rw [hneg]; rfl
    split at hstep
    · cases hstep
    · split at hstep
      · cases hstep
        exact .aside hnone rfl
      · split at hstep
        · cases hstep
          exact .aside hnone rfl
        · cases hstep
          exact .opens hneg
  · cases hstep

/-- The reader looks a stream up, sends to its channel, or takes it out of the table. -/
theorem step_reader {s t : State} (hstep : stepReader s = some t) : Step s .dispatch t [] := by
  rw [stepReader] at hstep
  split at hstep
  · rename_i hreader
    split at hstep
    · cases hstep
      exact .found hreader ‹_›
    · cases hstep
      exact .missed hreader ‹_›
  · rename_i hreader
    split at hstep
    · -- whether the receiver is still there makes no difference
      obtain ⟨⟨chan, ok⟩, hsend, heq⟩ := Option.map_eq_some_iff.1 hstep
      cases heq
      exact .delivered hreader ‹_› hsend
    · cases hstep
  · cases hstep
    exact .closed ‹_›
  · cases hstep
  · cases hstep

/-- The list is complete. -/
theorem step_cases {wl : Option Whitelist} {s t : State} {e : Event} {o : List Effect}
    (hstep : step wl s e = some (t, o)) : Step s e t o := by
  cases e with
  | request h bytes =>
    obtain ⟨ht, rfl⟩ := Machine.map_quiet_eq_some hstep
    exact step_request ht
  | leave h =>
    rw [step] at hstep
    -- only a handler without a stream may leave
    split at hstep
    · rename_i hs
      cases hstep
      exact .aside (by rw [hs]; rfl) rfl
    · rename_i hs
      cases hstep
      exact .aside (by rw [hs]; rfl) rfl
    · cases hstep
  | register h =>
    rw [step] at hstep
    split at hstep
    · split at hstep
      · split at hstep
        · cases hstep
        · cases hstep
          -- the table is free, since the reader does not hold its lock
          exact .register ‹_› ‹_› (by simpa using ‹¬ s.reader.locked = true›)
      · cases hstep
    · cases hstep
  | act h a =>
    rw [step] at hstep
    split at hstep
    · obtain ⟨⟨st', o'⟩, hact, heq⟩ := Option.map_eq_some_iff.1 hstep
      cases heq
      exact .act ‹_› hact
    · cases hstep
  -- like `register`, it needs the lock
  | remove h =>
    rw [step] at hstep
    split at hstep
    · split at hstep
      · split at hstep
        · cases hstep
        · cases hstep
          exact .remove ‹_› ‹_› (by simpa using ‹¬ s.reader.locked = true›)
      · cases hstep
    · cases hstep
  | incoming message =>
    rw [step] at hstep
    split at hstep
    · split at hstep
      · cases hstep
        exact .data ‹_› ‹_›
      · cases hstep
        exact .close ‹_› ‹_›
      · cases hstep
        exact .other ‹_› ‹_›
    · cases hstep
  | stop =>
    rw [step] at hstep
    split at hstep
    · cases hstep
      exact .stop ‹_›
    · cases hstep
  | dispatch =>
    obtain ⟨ht, rfl⟩ := Machine.map_quiet_eq_some hstep
    exact step_reader ht

/-! ## Stream ids -/

/-- A stream keeps its id. -/
theorem act_sid {h : HandlerId} {held : Bool} {st st' : Stream} {a : Act} {o : List Effect}
    (hact : st.act h held a = some (st', o)) : st'.sid = st.sid := by
  cases act_cases hact <;> rfl

/-- A change that leaves the stream id. -/
theorem sid?_setHandler {s : State} {h h' : HandlerId} {handler : Handler}
    (heq : sid? handler = sid? (s.handlers h)) :
    sid? ((s.setHandler h handler).handlers h') = sid? (s.handlers h') := by
  by_cases hh : h' = h
  · subst hh
    simp only [State.setHandler, Function.update_self]
    rw [heq]
  · simp only [State.setHandler, Function.update_of_ne hh]

/-- The stream id of a handler that has one. -/
theorem sid?_stream {s : State} {h : HandlerId} {st : Stream} (hs : s.handlers h = .stream st) :
    sid? (s.handlers h) = some st.sid := by
  rw [hs]
  rfl

/-- Ids are only taken by a request, and then the next one. -/
theorem Step.sid {s t : State} {e : Event} {o : List Effect} (hstep : Step s e t o)
    (h : HandlerId) : sid? (t.handlers h) = sid? (s.handlers h) ∨
      ∃ bytes, e = .request h bytes ∧ s.handlers h = .negotiating ∧
        sid? (t.handlers h) = some s.nextId := by
  cases hstep with
  | @aside _ g handler hs ht =>
    refine .inl (sid?_setHandler ?_)
    rw [sid?, sid?, hs, ht]
  | @opens g bytes host port hs =>
    -- the one that made the request gets the next id
    by_cases hg : h = g
    · subst hg
      refine .inr ⟨bytes, rfl, hs, ?_⟩
      exact congrArg sid? (Function.update_self h (.stream (.new s.nextId host port)) s.handlers)
    · exact .inl (congrArg sid? (Function.update_of_ne hg _ s.handlers))
  | register hs _ _ => exact .inl (sid?_setHandler (sid?_stream hs).symm)
  | act hs hact =>
    refine .inl (sid?_setHandler ?_)
    rw [sid?_stream hs]
    exact congrArg some (act_sid hact)
  | remove hs _ _ => exact .inl (sid?_setHandler (sid?_stream hs).symm)
  | delivered _ hs _ => exact .inl (sid?_setHandler (sid?_stream hs).symm)
  | _ => exact .inl rfl

/-- No two handlers have the same stream id. -/
def Distinct (s : State) : Prop :=
  ∀ h h' sid, sid? (s.handlers h) = some sid → sid? (s.handlers h') = some sid → h = h'

/-- Two handlers' streams have different ids. -/
theorem Distinct.sid_ne {s : State} (hs : Distinct s) {h h' : HandlerId} {st st' : Stream}
    (hst : stream? (s.handlers h) = some st) (hst' : stream? (s.handlers h') = some st')
    (hne : h ≠ h') : st.sid ≠ st'.sid := by
  intro heq
  refine hne (hs h h' st.sid ?_ ?_)
  · rw [sid?, hst]
    rfl
  · rw [sid?, hst', heq]
    rfl

/-- The next stream id is not in use. -/
def Unused (s : State) : Prop := ∀ h, sid? (s.handlers h) ≠ some s.nextId

/-- At the start no id is in use. -/
theorem unused_new : Unused State.new := by
  intro h hsid
  cases hsid

/-- Nor by two handlers. -/
theorem distinct_new : Distinct State.new := by
  intro h h' sid hsid
  cases hsid

/-- **One step.** Only a request takes an id, and then an unused one. -/
theorem distinct_step {s t : State} {e : Event} {o : List Effect} (hs : Distinct s)
    (hunused : ∀ h bytes, e = .request h bytes → Unused s) (hstep : Step s e t o) :
    Distinct t := by
  -- a handler that has just taken an id shares it with nobody else
  have hnew (h h' : HandlerId) (bytes : List UInt8) (sid : UInt32) (he : e = .request h bytes)
      (hsid : some s.nextId = some sid) (hsid' : sid? (s.handlers h') = some sid) : False :=
    hunused h bytes he h' (hsid'.trans hsid.symm)
  intro h h' sid hsid hsid'
  obtain heq | ⟨bytes, he, -, hnext⟩ := hstep.sid h
  · obtain heq' | ⟨bytes, he, -, hnext⟩ := hstep.sid h'
    · exact hs h h' sid (heq ▸ hsid) (heq' ▸ hsid')
    · exact (hnew h' h bytes sid he (hnext.symm.trans hsid') (heq ▸ hsid)).elim
  · obtain heq' | ⟨bytes', he', -, -⟩ := hstep.sid h'
    · exact (hnew h h' bytes sid he (hnext.symm.trans hsid) (heq' ▸ hsid')).elim
    · rw [he] at he'
      injection he'

end Fogged.Spec.Cdn
