import Fogged.ForStd.Machine
import Fogged.Native.MuxPool
import Fogged.Spec.OrcaFrame
import Fogged.Spec.TcpReaderCorrect

/-!
# What TCP-mode handlers leave behind

A handler registers its stream, and no code path of `handle_socks5` removes it again:
only the server's StreamClose does.

`Step` lists what a step can do. The machine below takes at most one of its own steps
in each, so that what `TcpReaderCorrect` proves about its channels holds here.

## Key results

- `returns_clean_iff`: which handlers leave no trace when they return
- `relay_leaks`: an ordinary connection leaves its entry
-/

namespace Fogged.Spec.MuxPool

open Fogged.Native Fogged.Native.MuxPool Fogged.Native.Orca
open Fogged.Native.TcpReader (Channel ChanId readMessage)
open Fogged.Spec.Orca (lowRng)
open Fogged.Spec.TcpReader (Bounded Delivery)
open Machine

/-! ## The steps -/

/-- A step of the machine below. -/
def Below (s : State) (e : TcpReader.Event) (tcp : TcpReader.State (List UInt8)) : Prop :=
  ∃ o, TcpReader.step readMessage s.tcp e = some (tcp, o)

/-- The stream and the channel a handler has. -/
def stream? : Handler → Option (UInt32 × ChanId)
  | .opening sid chan _ | .opened sid chan _ => some (sid, chan)
  | .negotiating | .bypassing | .registering _ _ | .returned _ => none

/-- A handler that has not called `open_stream`. -/
def early : Handler → Bool
  | .negotiating | .bypassing => true
  | _ => false

inductive Step (s : State) : Event → State → List Effect → Prop where
  /-- The reader or the writer. -/
  | below {e : Event} {e' : TcpReader.Event} {tcp : TcpReader.State (List UInt8)}
      (he : (∃ rng, e = .reader rng ∧ e' = .reader rng) ∨ e' = .writerTake ∨ e' = .writerStop)
      (htcp : Below s e' tcp) : Step s e { s with tcp } []
  /-- Before `open_stream`; a stream id may be taken. -/
  | aside {e : Event} {h : HandlerId} {handler : Handler} {nextId : UInt32}
      (hs : early (s.handlers h) = true) (ht : stream? handler = none)
      (hid : (∃ target, handler = .registering s.nextId target ∧ nextId = s.nextId + 2) ∨
        (∀ sid target, handler ≠ .registering sid target) ∧ nextId = s.nextId) :
      Step s e { s.setHandler h handler with nextId } []
  | register {e : Event} {h : HandlerId} {sid : UInt32} {target : TargetAddr} {frame : Frame}
      {tcp : TcpReader.State (List UInt8)} (hs : s.handlers h = .registering sid target)
      (htcp : Below s (.register sid) tcp) (hframe : frame.frameType = .streamOpen)
      (hsid : frame.streamId = sid) :
      Step s e ({ s with tcp }.setHandler h (.opening sid s.tcp.shared.nextChan frame)) []
  | hands {e : Event} {h : HandlerId} {sid : UInt32} {chan : ChanId} {frame : Frame}
      {tcp : TcpReader.State (List UInt8)} (hs : s.handlers h = .opening sid chan frame)
      (htcp : Below s (.enqueue frame.encode) tcp) :
      Step s e ({ s with tcp }.setHandler h (.opened sid chan .waiting)) [.handed h frame]
  | ready {e : Event} {h : HandlerId} {sid : UInt32} {chan : ChanId}
      {tcp : TcpReader.State (List UInt8)} (hs : s.handlers h = .opened sid chan .waiting)
      (htcp : Below s (.receive chan) tcp) :
      Step s e ({ s with tcp }.setHandler h (.opened sid chan .connecting)) []
  | advance {e : Event} {h : HandlerId} {sid : UInt32} {chan : ChanId} {phase phase' : Phase}
      (hs : s.handlers h = .opened sid chan phase) (hphase : phase ≠ .waiting) :
      Step s e (s.setHandler h (.opened sid chan phase')) []
  /-- A handler with a channel returns. -/
  | finish {e : Event} {h : HandlerId} {sid : UInt32} {chan : ChanId} {ok : Bool}
      {tcp : TcpReader.State (List UInt8)} (hs : stream? (s.handlers h) = some (sid, chan))
      (htcp : Below s (.dropReceiver chan) tcp) :
      Step s e ({ s with tcp }.setHandler h (.returned ok)) []

/-- A step of a handler that is one of the machine below. -/
theorem stepTcp_eq_some {s t : State} {e : TcpReader.Event} (hstep : s.stepTcp e = some t) :
    ∃ tcp, Below s e tcp ∧ t = { s with tcp } := by
  obtain ⟨⟨tcp, o⟩, htcp, heq⟩ := Option.map_eq_some_iff.1 hstep
  exact ⟨tcp, ⟨o, htcp⟩, heq.symm⟩

/-- A handler returns, and drops its end of the channel. -/
theorem step_finish {s t : State} {e : Event} {h : HandlerId} {sid : UInt32} {chan : ChanId}
    {ok : Bool} (hs : stream? (s.handlers h) = some (sid, chan))
    (hstep : s.finish h chan ok = some t) : Step s e t [] := by
  obtain ⟨tcp, htcp, rfl⟩ := stepTcp_eq_some hstep
  exact .finish hs htcp

/-- Padding leaves a frame's type and stream id alone. -/
theorem withPadding_eq_ret {f g : Frame} {rng : Rng} {min max : Nat}
    (hpad : f.withPadding rng min max = .ret g) :
    g.frameType = f.frameType ∧ g.streamId = f.streamId := by
  rw [Frame.withPadding, Rng.sample] at hpad
  split at hpad
  · cases hpad
    exact ⟨rfl, rfl⟩
  · cases hpad

/-- `open_stream` registers the stream, and makes the StreamOpen. -/
theorem step_register {s t : State} {e : Event} {h : HandlerId} {rng : Rng}
    (hstep : stepRegister s h rng = some t) : Step s e t [] := by
  rw [stepRegister] at hstep
  split at hstep
  · rename_i sid target hs
    obtain ⟨u, hu, hstep⟩ := Option.bind_eq_some_iff.1 hstep
    obtain ⟨tcp, htcp, rfl⟩ := stepTcp_eq_some hu
    -- the range 4..=128 is not empty, so the padding is drawn
    obtain ⟨frame, hpad⟩ : ∃ frame, (Frame.streamOpen sid target).withPadding rng 4 128 =
        .ret frame := ⟨_, rfl⟩
    simp only [hpad] at hstep
    cases hstep
    obtain ⟨hframe, hsid⟩ := withPadding_eq_ret hpad
    exact .register hs htcp hframe hsid
  · cases hstep

/-- The request is read: it is refused, goes past the tunnel, or a stream will be opened for
    its target. -/
theorem step_request {wl : Option Whitelist} {s t : State} {e : Event} {h : HandlerId}
    {bytes : List UInt8} (hstep : stepRequest wl s h bytes = some t) : Step s e t [] := by
  rw [stepRequest] at hstep
  split at hstep
  · rename_i hs
    -- nothing has been registered so far
    have hearly : early (s.handlers h) = true := by
      rw [hs]
      rfl
    split at hstep
    · cases hstep
    · split at hstep
      · cases hstep
        exact .aside hearly rfl (.inr ⟨fun _ _ => Handler.noConfusion, rfl⟩)
      · -- the whitelist decides
        rename_i host port _
        split at hstep
        · cases hstep
          exact .aside hearly rfl (.inr ⟨fun _ _ => Handler.noConfusion, rfl⟩)
        · cases hstep
          exact .aside hearly rfl (.inl ⟨targetAddr host port, rfl, rfl⟩)
  · cases hstep

/-- The StreamOpen is handed to the writer, or the writer is gone and the handler returns. -/
theorem step_sendOpen {s t : State} {e : Event} {h : HandlerId} {o : List Effect}
    (hstep : stepSendOpen s h = some (t, o)) : Step s e t o := by
  rw [stepSendOpen] at hstep
  split at hstep
  · rename_i sid chan frame hs
    split at hstep
    · cases hstep
    · -- the channel has room
      obtain ⟨u, hu, heq⟩ := Option.map_eq_some_iff.1 hstep
      cases heq
      obtain ⟨tcp, htcp, rfl⟩ := stepTcp_eq_some hu
      exact .hands hs htcp
    · -- the writer has ended
      obtain ⟨u, hu, heq⟩ := Option.map_eq_some_iff.1 hstep
      cases heq
      exact step_finish (by rw [hs]; rfl) hu
  · cases hstep

/-- The handler waits for its first message. -/
theorem step_recv {s t : State} {e : Event} {h : HandlerId} (hstep : stepRecv s h = some t) :
    Step s e t [] := by
  rw [stepRecv] at hstep
  split at hstep
  · rename_i sid chan hs
    split at hstep
    · -- a message is there; whatever it is, the handler takes it for a StreamReady
      obtain ⟨u, hu, heq⟩ := Option.map_eq_some_iff.1 hstep
      cases heq
      obtain ⟨tcp, htcp, rfl⟩ := stepTcp_eq_some hu
      exact .ready hs htcp
    · -- the queue is empty: the sender is still there, or all is over
      split at hstep
      · cases hstep
      · exact step_finish (by rw [hs]; rfl) hstep
  · cases hstep

/-- The handler goes on through its phases; after the relay it returns. -/
theorem step_advance {s t : State} {e : Event} {h : HandlerId} (hstep : stepAdvance s h = some t) :
    Step s e t [] := by
  rw [stepAdvance] at hstep
  split at hstep
  · cases hstep
    exact .advance ‹_› (by decide)
  · cases hstep
    exact .advance ‹_› (by decide)
  · cases hstep
    exact .advance ‹_› (by decide)
  · -- the relay has ended
    rename_i hs
    exact step_finish (by rw [hs]; rfl) hstep
  · cases hstep

/-- Whatever the handler does may fail. -/
theorem step_fail {s t : State} {e : Event} {h : HandlerId} (hstep : stepFail s h = some t) :
    Step s e t [] := by
  rw [stepFail] at hstep
  split at hstep
  · cases hstep
  · rename_i hs
    exact step_finish (by rw [hs]; rfl) hstep
  · cases hstep

/-- The list is complete. -/
theorem step_cases {wl : Option Whitelist} {s t : State} {e : Event} {o : List Effect}
    (hstep : step wl s e = some (t, o)) : Step s e t o := by
  -- the first three events are those of the TCP client below the handlers
  cases e with
  | reader rng =>
    obtain ⟨hu, rfl⟩ := map_quiet_eq_some hstep
    obtain ⟨tcp, htcp, rfl⟩ := stepTcp_eq_some hu
    exact .below (.inl ⟨rng, rfl, rfl⟩) htcp
  | writerTake =>
    obtain ⟨hu, rfl⟩ := map_quiet_eq_some hstep
    obtain ⟨tcp, htcp, rfl⟩ := stepTcp_eq_some hu
    exact .below (.inr (.inl rfl)) htcp
  | writerStop =>
    rw [step] at hstep
    obtain ⟨hu, rfl⟩ := map_quiet_eq_some hstep
    obtain ⟨tcp, htcp, rfl⟩ := stepTcp_eq_some hu
    exact .below (.inr (.inr rfl)) htcp
  -- a handler leaves while it negotiates or bypasses the tunnel
  | leave h =>
    rw [step] at hstep
    split at hstep
    · rename_i hs
      cases hstep
      exact .aside (by rw [hs]; rfl) rfl (.inr ⟨fun _ _ => Handler.noConfusion, rfl⟩)
    · rename_i hs
      cases hstep
      exact .aside (by rw [hs]; rfl) rfl (.inr ⟨fun _ _ => Handler.noConfusion, rfl⟩)
    · cases hstep
  | sendOpen h => exact step_sendOpen hstep
  | request h bytes =>
    obtain ⟨hu, rfl⟩ := map_quiet_eq_some hstep
    exact step_request hu
  | register h rng =>
    obtain ⟨hu, rfl⟩ := map_quiet_eq_some hstep
    exact step_register hu
  | recv h =>
    obtain ⟨hu, rfl⟩ := map_quiet_eq_some hstep
    exact step_recv hu
  | advance h =>
    obtain ⟨hu, rfl⟩ := map_quiet_eq_some hstep
    exact step_advance hu
  | fail h =>
    obtain ⟨hu, rfl⟩ := map_quiet_eq_some hstep
    exact step_fail hu

/-! ## What has been handed to the writer -/

/-- The frame is the StreamOpen of `sid`. -/
def Opens (sid : UInt32) (frame : Frame) : Prop :=
  frame.frameType = .streamOpen ∧ frame.streamId = sid

/-- Where the history of a handler's frames stands. -/
def History (h : HandlerId) (out : List Effect) : Handler → Prop
  | .opening sid _ frame => Opens sid frame ∧ ∀ frame, .handed h frame ∉ out
  | .opened sid _ _ => ∃ frame, .handed h frame ∈ out ∧ Opens sid frame
  | .returned _ => True
  | .negotiating | .bypassing | .registering _ _ => ∀ frame, .handed h frame ∉ out

/-- A handler that has not called `open_stream` has handed out nothing. -/
theorem History.of_early {h : HandlerId} {out : List Effect} {handler : Handler}
    (hh : History h out handler) (hearly : early handler = true) (frame : Frame) :
    .handed h frame ∉ out := by
  cases handler with
  | negotiating | bypassing => exact hh frame
  | _ => cases hearly

/-- A handler without a stream that has handed out nothing. -/
theorem history_of_stream?_none {h : HandlerId} {out : List Effect} {handler : Handler}
    (hstream : stream? handler = none) (hunsent : ∀ frame, .handed h frame ∉ out) :
    History h out handler := by
  cases handler with
  | negotiating | bypassing | registering sid target => exact hunsent
  | returned ok => trivial
  | _ => cases hstream

/-- Handlers hand out nothing but their own StreamOpen, once. -/
structure Handed (s : State) (out : List Effect) : Prop where
  only : ∀ h frame, .handed h frame ∈ out → frame.frameType = .streamOpen
  history : ∀ h, History h out (s.handlers h)

theorem Handed.of_handler {s : State} {out : List Effect} (hs : Handed s out) {h : HandlerId}
    {handler : Handler} (hh : s.handlers h = handler) : History h out handler := hh ▸ hs.history h

/-- At the start nothing has been handed out. -/
theorem handed_new (wire : List UInt8) : Handed (State.new wire) [] where
  only h frame hmem := by cases hmem
  history h := fun frame hmem => by cases hmem

/-- A step in which one handler goes on and nothing is handed out. -/
theorem Handed.quiet {s t : State} {out : List Effect} (hs : Handed s out) {h : HandlerId}
    {handler : Handler} (ht : t.handlers = (s.setHandler h handler).handlers)
    (hself : History h out handler) : Handed t (out ++ []) := by
  rw [List.append_nil]
  refine ⟨hs.only, fun g => ?_⟩
  rw [ht]
  by_cases hg : g = h
  · subst hg
    simp only [State.setHandler, Function.update_self]
    exact hself
  · simp only [State.setHandler, Function.update_of_ne hg]
    exact hs.history g

/-- What is handed out by one handler does not matter to another. -/
theorem History.of_ne {g h : HandlerId} {out : List Effect} {frame : Frame} {handler : Handler}
    (hne : g ≠ h) (hg : History g out handler) :
    History g (out ++ [.handed h frame]) handler := by
  have hmem (frame' : Frame) :
      .handed g frame' ∈ out ++ [.handed h frame] ↔ .handed g frame' ∈ out := by
    simp [hne]
  cases handler <;> simp only [History, hmem] at hg ⊢ <;> exact hg

/-- A frame is handed out. -/
theorem Handed.hands {s t : State} {out : List Effect} (hs : Handed s out) {h : HandlerId}
    {sid : UInt32} {chan : ChanId} {frame : Frame}
    (hopening : s.handlers h = .opening sid chan frame)
    (ht : t.handlers = (s.setHandler h (.opened sid chan .waiting)).handlers) :
    Handed t (out ++ [.handed h frame]) := by
  have hhistory := hs.of_handler hopening
  -- the frame is the StreamOpen that the handler has made
  constructor
  · intro g frame' hmem
    obtain hmem | hmem := List.mem_append.1 hmem
    · exact hs.only g frame' hmem
    · cases List.mem_singleton.1 hmem
      exact hhistory.1.1
  · intro g
    rw [ht]
    by_cases hg : g = h
    · subst hg
      simp only [State.setHandler, Function.update_self]
      exact ⟨frame, List.mem_append_right _ (List.mem_singleton_self _), hhistory.1⟩
    · simp only [State.setHandler, Function.update_of_ne hg]
      exact (hs.history g).of_ne hg

/-- **One step.** A StreamOpen is the only frame that is ever handed out. -/
theorem handed_step {s t : State} {e : Event} {out o : List Effect} (hs : Handed s out)
    (hstep : Step s e t o) : Handed t (out ++ o) := by
  cases hstep with
  | below _ _ =>
    rw [List.append_nil]
    exact ⟨hs.only, hs.history⟩
  -- before `open_stream` nothing has been handed out
  | aside hearly hstream _ =>
    exact hs.quiet rfl (history_of_stream?_none hstream ((hs.history _).of_early hearly))
  | register hregistering _ hframe hsid =>
    exact hs.quiet rfl ⟨⟨hframe, hsid⟩, hs.of_handler hregistering⟩
  | hands hopening _ => exact hs.hands hopening rfl
  -- from here on nothing more is handed out
  | ready hopened _ =>
    have hhistory := hs.of_handler hopened
    exact hs.quiet rfl hhistory
  | advance hopened _ =>
    have hhistory := hs.of_handler hopened
    exact hs.quiet rfl hhistory
  | finish _ _ => exact hs.quiet rfl trivial

/-! ## Returning -/

/-- The stream id a handler has taken. -/
def sid? : Handler → Option UInt32
  | .registering sid _ | .opening sid _ _ | .opened sid _ _ => some sid
  | .negotiating | .bypassing | .returned _ => none

/-- Nothing is left of stream `sid` of handler `h`: the table has no entry, and if its
    StreamOpen was handed to the writer, so was a StreamClose. -/
def Clean (s : State) (out : List Effect) (h : HandlerId) (sid : UInt32) : Prop :=
  s.tcp.shared.streams.lookup sid = none ∧
    ((∃ frame, .handed h frame ∈ out ∧ Opens sid frame) →
      ∃ g frame, .handed g frame ∈ out ∧ frame.frameType = .streamClose ∧ frame.streamId = sid)

/-- A handler that has returned has no stream. -/
theorem sid?_of_returned {s : State} {h : HandlerId} {ok : Bool}
    (hs : s.handlers h = .returned ok) :
    sid? (s.handlers h) = none := by
  rw [hs]
  rfl

/-- A handler that is in a phase after a step has made it, or was in it before. -/
theorem setHandler_eq {s : State} {g h : HandlerId} {handler handler' : Handler}
    (hset : (s.setHandler g handler).handlers h = handler') :
    h = g ∧ handler = handler' ∨ s.handlers h = handler' := by
  by_cases hh : h = g
  · subst hh
    simp only [State.setHandler, Function.update_self] at hset
    exact .inl ⟨rfl, hset⟩
  · simp only [State.setHandler, Function.update_of_ne hh] at hset
    exact .inr hset

/-- A handler that is live has not returned, so it is another one. -/
theorem returned_of_setHandler {s : State} {g h : HandlerId} {handler : Handler} {ok : Bool}
    (hset : (s.setHandler g handler).handlers h = .returned ok)
    (hlive : handler ≠ .returned ok) :
    s.handlers h = .returned ok := by
  obtain ⟨-, heq⟩ | hs := setHandler_eq hset
  · exact absurd heq hlive
  · exact hs

/-- Dropping a receiver does not touch the table. -/
theorem streams_dropReceiver {s : State} {chan : ChanId} {tcp : TcpReader.State (List UInt8)}
    (htcp : Below s (.dropReceiver chan) tcp) :
    tcp.shared = s.tcp.shared.setChannel chan (s.tcp.shared.channels chan).close := by
  obtain ⟨o, htcp⟩ := htcp
  simp only [TcpReader.step, TcpReader.stepOther, Option.map_some, Option.some.injEq,
    Prod.mk.injEq] at htcp
  rw [← htcp.1]

/-- A handler with a stream id returns in one way only. -/
theorem Step.returns {s t : State} {e : Event} {o : List Effect} {h : HandlerId} {sid : UInt32}
    {ok : Bool} (hstep : Step s e t o) (hsid : sid? (s.handlers h) = some sid)
    (hreturned : t.handlers h = .returned ok) :
    o = [] ∧ t.tcp.shared.streams = s.tcp.shared.streams ∧
      ∃ chan, stream? (s.handlers h) = some (sid, chan) := by
  have hnot (hs : s.handlers h = .returned ok) : False := by
    rw [sid?_of_returned hs] at hsid
    cases hsid
  cases hstep with
  | below _ _ => exact (hnot hreturned).elim
  | aside hearly _ _ =>
    obtain ⟨rfl, -⟩ | hs := setHandler_eq hreturned
    · cases hh : s.handlers h <;> rw [hh] at hearly hsid <;> cases hearly <;> cases hsid
    · exact (hnot hs).elim
  -- a handler that is set to anything else has not returned by this step
  | register _ _ _ _ => exact (hnot (returned_of_setHandler hreturned nofun)).elim
  | hands _ _ => exact (hnot (returned_of_setHandler hreturned nofun)).elim
  | ready _ _ => exact (hnot (returned_of_setHandler hreturned nofun)).elim
  | advance _ _ => exact (hnot (returned_of_setHandler hreturned nofun)).elim
  | @finish g sid' chan _ tcp hstream htcp =>
    obtain ⟨rfl, -⟩ | hs := setHandler_eq hreturned
    · refine ⟨rfl, ?_, chan, ?_⟩
      · show tcp.shared.streams = s.tcp.shared.streams
        rw [streams_dropReceiver htcp]
        rfl
      · -- a handler's stream is the one of its id
        cases hh : s.handlers h <;> rw [hh] at hstream hsid <;> cases hstream <;> cases hsid <;> rfl
    · exact (hnot hs).elim

/-- **Who leaves no trace.** A handler that returns leaves nothing behind if and only
    if it has not taken a stream id, or its StreamOpen could not be handed to the
    writer and the server's StreamClose had removed its entry before. -/
theorem returns_clean_iff (wl : Option Whitelist) (wire : List UInt8) (es : List Event)
    (s t : State) (e : Event) (out o : List Effect) (h : HandlerId) (ok : Bool)
    (hrun : run (step wl) (State.new wire) es = some (s, out))
    (hstep : step wl s e = some (t, o)) (hreturned : t.handlers h = .returned ok) :
    (∀ sid, sid? (s.handlers h) = some sid → Clean t (out ++ o) h sid) ↔
      ∀ sid, sid? (s.handlers h) = some sid →
        (∃ chan frame, s.handlers h = .opening sid chan frame) ∧
          s.tcp.shared.streams.lookup sid = none := by
  have hs : Handed s ([] ++ out) :=
    run_history (fun s past e t o hs _ hstep => handed_step hs (step_cases hstep))
      (handed_new wire) (fun _ _ => trivial) hrun
  rw [List.nil_append] at hs
  refine forall_congr' fun sid => forall_congr' fun hsid => ?_
  obtain ⟨rfl, hstreams, chan, hstream⟩ := (step_cases hstep).returns hsid hreturned
  rw [List.append_nil, Clean, hstreams]
  cases hh : s.handlers h with
  | opening sid' chan' frame =>
    -- nothing has been handed to the writer, so the entry is all there is
    rw [hh] at hsid
    cases hsid
    have hunsent := (hs.of_handler hh).2
    constructor
    · exact fun hclean => ⟨⟨chan', frame, rfl⟩, hclean.1⟩
    · exact fun hgone => ⟨hgone.2, fun hsent => absurd hsent.choose_spec.1 (hunsent _)⟩
  | opened sid' chan' phase =>
    -- its StreamOpen has been handed over, and nobody hands over a StreamClose
    rw [hh] at hsid
    cases hsid
    constructor
    · intro hclean
      obtain ⟨g, frame, hmem, hclose, -⟩ := hclean.2 (hs.of_handler hh)
      rw [hs.only g frame hmem] at hclose
      cases hclose
    · intro hopening
      obtain ⟨⟨_, _, heq⟩, -⟩ := hopening
      cases heq
  | _ =>
    rw [hh] at hstream
    cases hstream

/-- The first client asks for 127.0.0.1:80 and its handler registers stream 1. -/
def register : List Event := [.request 0 [5, 1, 0, 1, 127, 0, 0, 1, 0, 80], .register 0 lowRng]

/-- Only a handler that has made its StreamOpen hands it out. -/
theorem opening_of_sendOpen {s : State} {h : HandlerId} {r : State × List Effect}
    (hstep : stepSendOpen s h = some r) :
    ∃ sid chan frame, s.handlers h = .opening sid chan frame := by
  rw [stepSendOpen] at hstep
  split at hstep
  · exact ⟨_, _, _, ‹_›⟩
  · cases hstep

/-- The server closes stream 1, and the connection breaks before the StreamOpen is out. -/
def refuse : List Event := register ++ ([.reader lowRng, .reader lowRng, .writerStop] : List Event)

/-- A handler that was refused after the server's StreamClose leaves nothing behind. -/
theorem refused_clean :
    ∃ s t out o, run (step none) (State.new [2, 0, 0, 0, 0, 1, 0, 0]) refuse = some (s, out) ∧
      step none s (.sendOpen 0) = some (t, o) ∧ t.handlers 0 = .returned false ∧
      sid? (s.handlers 0) = some 1 ∧
      ∀ sid, sid? (s.handlers 0) = some sid → Clean t (out ++ o) 0 sid := by
  -- the table has lost the entry before the handler is refused
  have hfacts : (run (step none) (State.new [2, 0, 0, 0, 0, 1, 0, 0]) refuse).map (fun r =>
        (sid? (r.1.handlers 0), r.1.tcp.shared.streams.lookup 1,
          (step none r.1 (.sendOpen 0)).map fun r => r.1.handlers 0)) =
      some (some 1, none, some (.returned false)) := by
    decide +kernel
  obtain ⟨⟨s, out⟩, hrun, hfacts⟩ := Option.map_eq_some_iff.1 hfacts
  obtain ⟨hsid, hfacts⟩ := Prod.mk.inj hfacts
  obtain ⟨hlookup, hreturns⟩ := Prod.mk.inj hfacts
  obtain ⟨⟨t, o⟩, hstep, hreturned⟩ := Option.map_eq_some_iff.1 hreturns
  obtain ⟨sid, chan, frame, hopening⟩ := opening_of_sendOpen hstep
  refine ⟨s, t, out, o, hrun, hstep, hreturned, hsid, ?_⟩
  apply (returns_clean_iff none _ _ s t _ out o 0 false hrun hstep hreturned).2
  intro sid' hsid'
  cases hsid.symm.trans hsid'
  rw [hopening] at hsid
  cases hsid
  exact ⟨⟨chan, frame, hopening⟩, hlookup⟩

/-- The handler hands out its StreamOpen and gets the first StreamReady. -/
def ready : List Event :=
  register ++ ([.sendOpen 0, .reader lowRng, .reader lowRng, .reader lowRng, .recv 0] : List Event)

/-- **An ordinary connection leaks.** The relay ends, and the table keeps the entry. -/
theorem relay_leaks :
    ∃ s t out o, run (step none) (State.new [1, 0, 0, 0, 0, 1, 0, 0])
        (ready ++ List.replicate 3 (.advance 0)) = some (s, out) ∧
      step none s (.advance 0) = some (t, o) ∧ t.handlers 0 = .returned true ∧
      sid? (s.handlers 0) = some 1 ∧ ¬ Clean t (out ++ o) 0 1 := by
  -- the entry is still there after the last step of the handler
  have hfacts : (run (step none) (State.new [1, 0, 0, 0, 0, 1, 0, 0])
      (ready ++ List.replicate 3 (.advance 0))).map (fun r => (sid? (r.1.handlers 0),
          (step none r.1 (.advance 0)).map fun r =>
            (r.1.handlers 0, r.1.tcp.shared.streams.lookup 1))) =
      some (some 1, some (.returned true, some 0)) := by
    decide +kernel
  obtain ⟨⟨s, out⟩, hrun, hfacts⟩ := Option.map_eq_some_iff.1 hfacts
  obtain ⟨hsid, hreturns⟩ := Prod.mk.inj hfacts
  obtain ⟨⟨t, o⟩, hstep, hafter⟩ := Option.map_eq_some_iff.1 hreturns
  obtain ⟨hreturned, hlookup⟩ := Prod.mk.inj hafter
  refine ⟨s, t, out, o, hrun, hstep, hreturned, hsid, fun hclean => ?_⟩
  rw [hclean.1] at hlookup
  cases hlookup

end Fogged.Spec.MuxPool
