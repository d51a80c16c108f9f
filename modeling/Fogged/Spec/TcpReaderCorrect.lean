import Fogged.Spec.WireFrame

/-!
# The TCP-mode reader recovers what was framed

Two invariants relate a run to its effects. `Routing` is about the frames: which
of them have been read, what was looked up for them, what was counted and what was
sent. `Delivery` is about the channels: what was sent to a channel is what its
task received and what is still queued. Both are proved on frames and hold of the
program by lockstep.

## Key results

- `routing_step`, `delivery_step`: what one step preserves
- `reader_completes`: the reader gets to the end of the input
- `reader_recovers_frames`: every run of the reader over every sequence of frames
-/

namespace Fogged.Spec.TcpReader

open Fogged.Native.Orca
open Fogged.Native.TcpReader
open Fogged.Spec.Orca
open Machine

/-! ## Routing: frames, look-ups and sends -/

/-- The data payload a look-up was made for. -/
def dataRoute : Effect → Option (UInt32 × List UInt8)
  | .routed .data streamId bytes _ => some (streamId, bytes)
  | _ => none

/-- What a successful look-up decides to send, and where. -/
def route : Effect → Option (ChanId × List UInt8)
  | .routed _ _ bytes (some chan) => some (chan, bytes)
  | _ => none

/-- A completed `tx.send`, whatever it returned. -/
def attempt : Effect → Option (ChanId × List UInt8)
  | .sent chan bytes => some (chan, bytes)
  | .refused chan bytes => some (chan, bytes)
  | _ => none

/-- A data payload that the reader holds and has not looked up yet. -/
def pendingData : Reader → List (UInt32 × List UInt8)
  | .routing .data streamId bytes => [(streamId, bytes)]
  | _ => []

/-- A send that the reader is waiting for. -/
def pendingSend : Reader → List (ChanId × List UInt8)
  | .sending chan bytes => [(chan, bytes)]
  | _ => []

/-- The data bytes of some frames, without padding. -/
def downloaded (fs : List WireFrame) : Nat :=
  ((fs.filterMap WireFrame.data?).map fun d => d.2.length).sum

/-- How far a run has come: the frames read so far are a prefix of the sequence,
    their data payloads have been looked up in order, every byte of them is counted,
    and the sends are the look-ups that found a channel, in order. -/
structure Routing (frames : List WireFrame) (s : State (List WireFrame)) (past : List Effect) :
    Prop where
  progress : ∃ handled, frames = handled ++ s.source ∧
    past.filterMap dataRoute ++ pendingData s.reader = handled.filterMap WireFrame.data? ∧
    s.shared.bd = UInt64.ofNat (downloaded handled)
  sends : past.filterMap attempt ++ pendingSend s.reader = past.filterMap route
  stopped : s.reader = .stopped → s.source = []

/-- At the start nothing has been read. -/
theorem routing_new (frames : List WireFrame) : Routing frames (State.new frames) [] where
  progress := ⟨[], rfl, rfl, rfl⟩
  sends := rfl
  stopped h := by cases h

/-- A frame's data is the data of its message. -/
theorem data?_eq (f : WireFrame) :
    f.data? = match f.message with
      | .data streamId bytes => some (streamId, bytes)
      | _ => none := by
  -- for a known frame it depends on the frame type only
  have hknown : ∀ (f : Frame) (carried : List UInt8),
      (if f.frameType = .data then some (f.streamId, f.payload) else none) =
        match frameMessage f carried with
        | .data streamId bytes => some (streamId, bytes)
        | _ => none := by
    intro f carried
    unfold frameMessage
    cases f.frameType <;> rfl
  cases f with
  | plain f clear fits => exact hknown f f.payload
  | padded f rng min max four_le min_le max_le fits own => exact hknown f _
  | unknown type flags streamId payload hunknown fits => rfl

/-- A pong can always be padded. -/
theorem handle_ping (rng : Rng) (shared : Shared) :
    handle rng shared .ping =
      (.answering (paddedBy Frame.pong rng (rng.genRange 4 64)).encode, shared) := by
  rw [handle, withPadding_eq Frame.pong rng (by decide) (by decide)]

/-- One more frame counts its data. -/
theorem downloaded_concat (fs : List WireFrame) (f : WireFrame) :
    downloaded (fs ++ [f]) = downloaded fs + (f.data?.elim 0 fun d => d.2.length) := by
  simp only [downloaded, List.filterMap_append, List.map_append, List.sum_append]
  cases h : f.data? <;> simp [h]

/-- What an arm does before its first `.await`: it holds the frame's data, has
    counted it, and sends nothing yet. -/
theorem handle_spec (rng : Rng) (shared : Shared) (f : WireFrame) :
    pendingData (handle rng shared f.message).1 = f.data?.toList ∧
      (handle rng shared f.message).2.bd =
        shared.bd + UInt64.ofNat (f.data?.elim 0 fun d => d.2.length) ∧
      pendingSend (handle rng shared f.message).1 = [] ∧
      (handle rng shared f.message).1 ≠ .stopped := by
  rw [data?_eq]
  cases f.message with
  | data streamId bytes => exact ⟨rfl, rfl, rfl, by simp [handle]⟩
  | ping =>
    rw [handle_ping]
    exact ⟨rfl, (UInt64.add_zero shared.bd).symm, rfl, by simp⟩
  | _ => exact ⟨rfl, (UInt64.add_zero shared.bd).symm, rfl, by simp [handle]⟩

/-- Reading a frame. -/
theorem routing_read {frames fs : List WireFrame} {f : WireFrame} {shared : Shared}
    {past : List Effect} (h : Routing frames ⟨f :: fs, .reading, shared⟩ past) (rng : Rng) :
    Routing frames ⟨fs, (handle rng shared f.message).1, (handle rng shared f.message).2⟩ past := by
  obtain ⟨⟨handled, hsplit, hdata, hbd⟩, hsends, -⟩ := h
  obtain ⟨hpending, hcount, hsend, hrunning⟩ := handle_spec rng shared f
  refine ⟨⟨handled ++ [f], ?_, ?_, ?_⟩, ?_, fun h => absurd h hrunning⟩
  · -- the frame goes from the input to those handled
    rw [hsplit, List.append_assoc]
    rfl
  · show past.filterMap dataRoute ++ pendingData (handle rng shared f.message).1 = _
    have hnone : pendingData .reading = [] := rfl
    rw [hnone, List.append_nil] at hdata
    rw [hpending, hdata, List.filterMap_append]
    cases hf : f.data? <;> simp [hf]
  · show (handle rng shared f.message).2.bd = _
    -- the counter wraps, and so does the sum
    rw [hcount, downloaded_concat, UInt64.ofNat_add, ← hbd]
  · show past.filterMap attempt ++ pendingSend (handle rng shared f.message).1 = _
    rw [hsend]
    exact hsends

/-- The reader's own steps. -/
theorem routing_stepReader {frames : List WireFrame} {s s' : State (List WireFrame)}
    {past o : List Effect} {rng : Rng} (h : Routing frames s past)
    (hstep : stepReader nextFrame rng s = some (s', o)) : Routing frames s' (past ++ o) := by
  obtain ⟨source, reader, shared⟩ := s
  simp only [stepReader] at hstep
  cases reader with
  | reading =>
    cases source with
    | nil =>
      cases hstep
      rw [List.append_nil]
      exact ⟨h.progress, h.sends, fun _ => rfl⟩
    | cons f fs =>
      cases hstep
      rw [List.append_nil]
      exact routing_read h rng
  | routing origin streamId bytes =>
    obtain ⟨⟨handled, hsplit, hdata, hbd⟩, hsends, -⟩ := h
    -- the look-up moves the payload from the reader's hands into the history
    have hdata' : ∀ dest, (past ++ [Effect.routed origin streamId bytes dest]).filterMap dataRoute =
        handled.filterMap WireFrame.data? := by
      intro dest
      rw [← hdata, List.filterMap_append]
      cases origin <;> rfl
    simp only [pendingSend, List.append_nil] at hsends
    simp only at hstep
    split at hstep
    · cases hstep
      refine ⟨⟨handled, hsplit, ?_, hbd⟩, ?_, by simp⟩
      · simpa [pendingData] using hdata' _
      · simp [hsends, attempt, route, pendingSend, List.filterMap_cons]
    · cases hstep
      refine ⟨⟨handled, hsplit, ?_, hbd⟩, ?_, by simp⟩
      · simpa [pendingData] using hdata' _
      · simp [hsends, attempt, route, pendingSend, List.filterMap_cons]
  | sending chan bytes =>
    obtain ⟨⟨handled, hsplit, hdata, hbd⟩, hsends, -⟩ := h
    -- sent or refused, the attempt was the one the reader was waiting for
    simp only at hstep
    split at hstep
    · cases hstep
    · cases hstep
      refine ⟨⟨handled, hsplit, ?_, hbd⟩, ?_, by simp⟩
      · simpa [pendingData, dataRoute, List.filterMap_cons] using hdata
      · simpa [pendingSend, attempt, route, List.filterMap_cons] using hsends
    · cases hstep
      refine ⟨⟨handled, hsplit, ?_, hbd⟩, ?_, by simp⟩
      · simpa [pendingData, dataRoute, List.filterMap_cons] using hdata
      · simpa [pendingSend, attempt, route, List.filterMap_cons] using hsends
  | closing streamId =>
    cases hstep
    rw [List.append_nil]
    exact ⟨h.progress, h.sends, by simp⟩
  | answering bytes =>
    simp only at hstep
    split at hstep
    · cases hstep
    · cases hstep
      rw [List.append_nil]
      exact ⟨h.progress, h.sends, by simp⟩
  | stopped => cases hstep

/-- The other tasks do not count, look up or send; all they show is what they receive. -/
theorem stepOther_effects {locked : Bool} {shared shared' : Shared} {e : Event} {o : List Effect}
    (h : stepOther locked shared e = some (shared', o)) :
    shared'.bd = shared.bd ∧ ∀ x ∈ o, ∃ chan bytes, x = .received chan bytes ∧
      (shared.channels chan).queue.head? = some bytes := by
  cases e with
  | reader rng => cases h
  | register streamId =>
    simp only [stepOther] at h
    split at h
    · cases h
    · cases h
      exact ⟨rfl, by simp⟩
  | unregister streamId =>
    simp only [stepOther] at h
    split at h
    · cases h
    · cases h
      exact ⟨rfl, by simp⟩
  | receive chan =>
    obtain ⟨⟨bytes, ch⟩, hrecv, heq⟩ := Option.map_eq_some_iff.1 h
    cases heq
    refine ⟨rfl, ?_⟩
    intro x hx
    refine ⟨chan, bytes, List.mem_singleton.1 hx, ?_⟩
    -- what is received is the head of the queue
    unfold Channel.recv at hrecv
    split at hrecv <;> cases hrecv
    rename_i hqueue
    rw [hqueue]
    rfl
  | dropReceiver chan =>
    cases h
    exact ⟨rfl, by simp⟩
  | writerStop =>
    cases h
    exact ⟨rfl, by simp⟩
  -- the tasks around the writer's channel
  | _ =>
    obtain ⟨r, -, heq⟩ := Option.map_eq_some_iff.1 h
    cases heq
    exact ⟨rfl, by simp⟩

/-- **Every step keeps the routing right.** -/
theorem routing_step (frames : List WireFrame) (s : State (List WireFrame)) (past : List Effect)
    (e : Event) (s' : State (List WireFrame)) (o : List Effect) (h : Routing frames s past)
    (hstep : step nextFrame s e = some (s', o)) : Routing frames s' (past ++ o) := by
  obtain ⟨rng, rfl, hreader⟩ | ⟨shared', hother, rfl⟩ := step_cases hstep
  · exact routing_stepReader h hreader
  · obtain ⟨hbd, hreceived⟩ := stepOther_effects hother
    -- nothing that the routing is about shows in these effects
    have hskip : ∀ {β : Type} (g : Effect → Option β), (∀ c b, g (.received c b) = none) →
        (past ++ o).filterMap g = past.filterMap g := by
      intro β g hg
      apply filterMap_append_of_none
      intro x hx
      obtain ⟨c, b, rfl, -⟩ := hreceived x hx
      exact hg c b
    obtain ⟨⟨handled, hsplit, hdata, hcount⟩, hsends, hstopped⟩ := h
    refine ⟨⟨handled, hsplit, ?_, hbd.trans hcount⟩, ?_, hstopped⟩
    · rw [hskip dataRoute (fun _ _ => rfl)]
      exact hdata
    · rw [hskip attempt (fun _ _ => rfl), hskip route (fun _ _ => rfl)]
      exact hsends

/-! ## Delivery: what arrives in the channels -/

/-- What was sent to `chan`. -/
def sentTo (chan : ChanId) : Effect → Option (List UInt8)
  | .sent c bytes => if c = chan then some bytes else none
  | _ => none

/-- What the task of `chan` received. -/
def receivedFrom (chan : ChanId) : Effect → Option (List UInt8)
  | .received c bytes => if c = chan then some bytes else none
  | _ => none

/-- A channel that never holds more than its capacity. -/
def Bounded (capacity : Nat) (ch : Channel) : Prop :=
  ch.capacity = capacity ∧ ch.queue.length ≤ capacity

/-- A message is sent only if there is room. -/
theorem bounded_send {n : Nat} {ch ch' : Channel} {v : List UInt8} {ok : Bool} (h : Bounded n ch)
    (hsend : ch.send v = some (ch', ok)) : Bounded n ch' := by
  unfold Channel.send at hsend
  split at hsend
  · cases hsend
    exact h
  · split at hsend
    · cases hsend
      have hcap := h.1
      refine ⟨hcap, ?_⟩
      simp only [List.length_append, List.length_singleton]
      omega
    · cases hsend

/-- A receipt takes the first message. -/
theorem bounded_recv {n : Nat} {ch ch' : Channel} {v : List UInt8} (h : Bounded n ch)
    (hrecv : ch.recv = some (v, ch')) : Bounded n ch' ∧ ch'.closed = ch.closed ∧
      ch.queue = v :: ch'.queue := by
  unfold Channel.recv at hrecv
  split at hrecv
  · cases hrecv
  · rename_i hq
    cases hrecv
    have hle := h.2
    rw [hq, List.length_cons] at hle
    exact ⟨⟨h.1, Nat.le_of_succ_le hle⟩, rfl, hq⟩

/-- Closing does not change the queue. -/
theorem bounded_close {n : Nat} {ch : Channel} (h : Bounded n ch) : Bounded n ch.close :=
  ⟨h.1, Nat.zero_le n⟩

/-- What the channels hold: the table and the reader know only channels that
    exist, nothing has happened at the others, and an open channel holds what was
    sent to it and has not been received, in order. -/
structure Delivery {σ : Type} (s : State σ) (past : List Effect) : Prop where
  table : ∀ streamId c, s.shared.streams.lookup streamId = some c → c < s.shared.nextChan
  sending : ∀ c bytes, s.reader = .sending c bytes → c < s.shared.nextChan
  unborn : ∀ c, s.shared.nextChan ≤ c → (s.shared.channels c).queue = [] ∧
    past.filterMap (sentTo c) = [] ∧ past.filterMap (receivedFrom c) = []
  fifo : ∀ c, (s.shared.channels c).closed = false →
    past.filterMap (receivedFrom c) ++ (s.shared.channels c).queue = past.filterMap (sentTo c)
  bounded : (∀ c, Bounded 64 (s.shared.channels c)) ∧ Bounded 256 s.shared.writer

/-- At the start there are no channels. -/
theorem delivery_new {σ : Type} (source : σ) : Delivery (State.new source) [] where
  table streamId c h := by simp [State.new, Shared.new] at h
  sending c bytes h := by cases h
  unborn c h := ⟨rfl, rfl, rfl⟩
  fifo c h := rfl
  bounded := ⟨fun _ => ⟨rfl, Nat.zero_le _⟩, ⟨rfl, Nat.zero_le _⟩⟩

/-- An effect that is neither a send nor a receipt. -/
def Quiet (x : Effect) : Prop := ∀ c, sentTo c x = none ∧ receivedFrom c x = none

/-- A look-up is no send. -/
theorem quiet_routed (origin : Origin) (streamId : UInt32) (bytes : List UInt8)
    (dest : Option ChanId) : ∀ x ∈ [Effect.routed origin streamId bytes dest], Quiet x := by
  intro x hx c
  rw [List.mem_singleton.1 hx]
  exact ⟨rfl, rfl⟩

/-- Nor is a send that is refused. -/
theorem quiet_refused (chan : ChanId) (bytes : List UInt8) :
    ∀ x ∈ [Effect.refused chan bytes], Quiet x := by
  intro x hx c
  rw [List.mem_singleton.1 hx]
  exact ⟨rfl, rfl⟩

/-- A step that leaves the channels alone. -/
theorem delivery_of_quiet {σ : Type} {s s' : State σ} {past o : List Effect} (h : Delivery s past)
    (hchannels : s'.shared.channels = s.shared.channels)
    (hnext : s'.shared.nextChan = s.shared.nextChan)
    (htable : ∀ streamId c, s'.shared.streams.lookup streamId = some c →
      s.shared.streams.lookup streamId = some c)
    (hsending : ∀ c bytes, s'.reader = .sending c bytes → c < s.shared.nextChan)
    (hwriter : Bounded 256 s'.shared.writer) (hquiet : ∀ x ∈ o, Quiet x) :
    Delivery s' (past ++ o) := by
  have hsent : ∀ c, (past ++ o).filterMap (sentTo c) = past.filterMap (sentTo c) :=
    fun c => filterMap_append_of_none past (fun x hx => (hquiet x hx c).1)
  have hreceived : ∀ c, (past ++ o).filterMap (receivedFrom c) = past.filterMap (receivedFrom c) :=
    fun c => filterMap_append_of_none past (fun x hx => (hquiet x hx c).2)
  -- each field says the same about the new state
  constructor
  · intro streamId c hlookup
    rw [hnext]
    exact h.table streamId c (htable streamId c hlookup)
  · intro c bytes hreader
    rw [hnext]
    exact hsending c bytes hreader
  · intro c hc
    rw [hchannels, hsent, hreceived]
    exact h.unborn c (hnext ▸ hc)
  · intro c hopen
    rw [hchannels] at hopen ⊢
    rw [hsent, hreceived]
    exact h.fifo c hopen
  · rw [hchannels]
    exact ⟨h.bounded.1, hwriter⟩

/-- A step at one channel, with effects at that channel only. -/
theorem delivery_setChannel {σ : Type} {s s' : State σ} {past o : List Effect} {c : ChanId}
    {ch : Channel} (h : Delivery s past) (hshared : s'.shared = s.shared.setChannel c ch)
    (hreader : ∀ c' bytes, s'.reader = .sending c' bytes → s.reader = .sending c' bytes)
    (hbounded : Bounded 64 ch)
    (hquiet : ∀ x ∈ o, ∀ c', c' ≠ c → sentTo c' x = none ∧ receivedFrom c' x = none)
    (hunborn : s.shared.nextChan ≤ c → ch.queue = [] ∧ (past ++ o).filterMap (sentTo c) = [] ∧
      (past ++ o).filterMap (receivedFrom c) = [])
    (hfifo : ch.closed = false → (past ++ o).filterMap (receivedFrom c) ++ ch.queue =
      (past ++ o).filterMap (sentTo c)) :
    Delivery s' (past ++ o) := by
  -- at the other channels nothing has changed
  have hsent : ∀ c', c' ≠ c → (past ++ o).filterMap (sentTo c') = past.filterMap (sentTo c') :=
    fun c' hne => filterMap_append_of_none past (fun x hx => (hquiet x hx c' hne).1)
  have hreceived : ∀ c', c' ≠ c →
      (past ++ o).filterMap (receivedFrom c') = past.filterMap (receivedFrom c') :=
    fun c' hne => filterMap_append_of_none past (fun x hx => (hquiet x hx c' hne).2)
  have hsame : s'.shared.channels c = ch := by
    rw [hshared]
    exact Function.update_self c ch s.shared.channels
  have hother : ∀ c', c' ≠ c → s'.shared.channels c' = s.shared.channels c' := by
    intro c' hne
    rw [hshared]
    exact Function.update_of_ne hne ch s.shared.channels
  have hnext : s'.shared.nextChan = s.shared.nextChan := by rw [hshared]; rfl
  refine ⟨?_, ?_, ?_, ?_, ?_, ?_⟩
  · rw [hshared]
    exact h.table
  · intro c' bytes hsending
    rw [hnext]
    exact h.sending c' bytes (hreader c' bytes hsending)
  · -- a channel that is not born yet
    intro c' hc'
    rw [hnext] at hc'
    by_cases hne : c' = c
    · subst hne
      rw [hsame]
      exact hunborn hc'
    · rw [hother c' hne, hsent c' hne, hreceived c' hne]
      exact h.unborn c' hc'
  · -- an open channel: sent is received and queued
    intro c' hopen
    by_cases hne : c' = c
    · subst hne
      rw [hsame] at hopen ⊢
      exact hfifo hopen
    · rw [hother c' hne] at hopen ⊢
      rw [hsent c' hne, hreceived c' hne]
      exact h.fifo c' hopen
  · intro c'
    by_cases hne : c' = c
    · rw [hne, hsame]
      exact hbounded
    · rw [hother c' hne]
      exact h.bounded.1 c'
  · rw [hshared]
    exact h.bounded.2

/-- A completed send. -/
theorem delivery_sent {σ : Type} {source : σ} {shared : Shared} {past : List Effect} {c : ChanId}
    {bytes : List UInt8} {ch : Channel} (h : Delivery ⟨source, .sending c bytes, shared⟩ past)
    (hsend : (shared.channels c).send bytes = some (ch, true)) :
    Delivery ⟨source, .reading, shared.setChannel c ch⟩ (past ++ [.sent c bytes]) := by
  have hborn : c < shared.nextChan := h.sending c bytes rfl
  have hch : ch.closed = (shared.channels c).closed ∧
      ch.queue = (shared.channels c).queue ++ [bytes] := by
    unfold Channel.send at hsend
    split at hsend
    · cases hsend
    · split at hsend <;> cases hsend
      exact ⟨rfl, rfl⟩
  have hbounded := bounded_send (h.bounded.1 c) hsend
  refine delivery_setChannel h rfl ?_ hbounded ?_ ?_ ?_
  · intro c' bytes' hsending
    cases hsending
  · intro x hx c' hne
    rw [List.mem_singleton.1 hx]
    exact ⟨if_neg hne.symm, rfl⟩
  · -- the channel has been born, so this part is void
    intro hc
    exact absurd hc (Nat.not_le.2 hborn)
  · intro hopen
    have hfifo := h.fifo c (hch.1 ▸ hopen)
    simp [hch.2, ← hfifo, sentTo, receivedFrom, List.filterMap_cons]

/-- A receipt. -/
theorem delivery_received {σ : Type} {s : State σ} {past : List Effect} {c : ChanId}
    {bytes : List UInt8} {ch : Channel} (h : Delivery s past)
    (hrecv : (s.shared.channels c).recv = some (bytes, ch)) :
    Delivery { s with shared := s.shared.setChannel c ch } (past ++ [.received c bytes]) := by
  obtain ⟨hbounded, hclosed, hqueue⟩ := bounded_recv (h.bounded.1 c) hrecv
  refine delivery_setChannel h rfl ?_ hbounded ?_ ?_ ?_
  · intro c' bytes' hsending
    exact hsending
  · intro x hx c' hne
    rw [List.mem_singleton.1 hx]
    exact ⟨rfl, if_neg hne.symm⟩
  · intro hc
    -- a channel that does not exist yet has nothing to receive
    rw [(h.unborn c hc).1] at hqueue
    cases hqueue
  · intro hopen
    have hfifo := h.fifo c (hclosed ▸ hopen)
    rw [hqueue] at hfifo
    simpa [sentTo, receivedFrom, List.filterMap_cons] using hfifo

/-- A new stream. -/
theorem delivery_register {σ : Type} {s : State σ} {past : List Effect} (h : Delivery s past)
    (streamId : UInt32) :
    Delivery { s with shared := { s.shared.setChannel s.shared.nextChan (.new 64) with
      streams := s.shared.streams.insert streamId s.shared.nextChan
      nextChan := s.shared.nextChan + 1 } } past := by
  -- the new channel is the first one that has not been born
  have hother : ∀ c', c' ≠ s.shared.nextChan →
      Function.update s.shared.channels s.shared.nextChan (.new 64) c' = s.shared.channels c' :=
    fun c' hne => Function.update_of_ne hne _ _
  refine ⟨?_, ?_, ?_, ?_, ?_, h.bounded.2⟩
  · intro id c hlookup
    show c < s.shared.nextChan + 1
    by_cases hid : id = streamId
    · subst hid
      rw [Finmap.lookup_insert] at hlookup
      cases hlookup
      exact Nat.lt_succ_self _
    · rw [Finmap.lookup_insert_of_ne _ hid] at hlookup
      exact Nat.lt_succ_of_lt (h.table id c hlookup)
  · intro c bytes hsending
    exact Nat.lt_succ_of_lt (h.sending c bytes hsending)
  · intro c hc
    have hgt : s.shared.nextChan < c := hc
    show (Function.update s.shared.channels s.shared.nextChan (.new 64) c).queue = [] ∧ _
    rw [hother c (Nat.ne_of_gt hgt)]
    exact h.unborn c (Nat.le_of_lt hgt)
  · intro c hopen
    show _ ++ (Function.update s.shared.channels s.shared.nextChan (.new 64) c).queue = _
    by_cases hc : c = s.shared.nextChan
    · subst hc
      -- nothing was sent to it or received from it before
      obtain ⟨-, hsent, hreceived⟩ := h.unborn s.shared.nextChan (Nat.le_refl _)
      rw [Function.update_self, hsent, hreceived]
      rfl
    · rw [hother c hc]
      simp only [Shared.setChannel, hother c hc] at hopen
      exact h.fifo c hopen
  · intro c
    show Bounded 64 (Function.update s.shared.channels s.shared.nextChan (.new 64) c)
    by_cases hc : c = s.shared.nextChan
    · subst hc
      rw [Function.update_self]
      exact ⟨rfl, Nat.zero_le _⟩
    · rw [hother c hc]
      exact h.bounded.1 c

/-- The part of an arm before its first `.await` leaves table and channels alone. -/
theorem handle_shared (rng : Rng) (shared : Shared) (message : Message) :
    (handle rng shared message).2.channels = shared.channels ∧
      (handle rng shared message).2.nextChan = shared.nextChan ∧
      (handle rng shared message).2.streams = shared.streams ∧
      (handle rng shared message).2.writer = shared.writer ∧
      ∀ c bytes, (handle rng shared message).1 ≠ .sending c bytes := by
  cases message with
  | ping =>
    rw [handle_ping]
    exact ⟨rfl, rfl, rfl, rfl, by simp⟩
  | _ => exact ⟨rfl, rfl, rfl, rfl, by simp [handle]⟩

/-- What is found after a removal was there before. -/
theorem lookup_of_erase {streams : Finmap fun _ : UInt32 => ChanId} {removed streamId : UInt32}
    {c : ChanId} (h : (streams.erase removed).lookup streamId = some c) :
    streams.lookup streamId = some c := by
  by_cases hid : streamId = removed
  · subst hid
    rw [Finmap.lookup_erase] at h
    cases h
  · rw [Finmap.lookup_erase_ne hid] at h
    exact h

/-- The reader's own steps. -/
theorem delivery_stepReader {σ : Type} {next : σ → Option (Message × σ)} {s s' : State σ}
    {past o : List Effect} {rng : Rng} (h : Delivery s past)
    (hstep : stepReader next rng s = some (s', o)) : Delivery s' (past ++ o) := by
  obtain ⟨source, reader, shared⟩ := s
  simp only [stepReader] at hstep
  cases reader with
  | reading =>
    simp only at hstep
    split at hstep
    · cases hstep
      exact delivery_of_quiet h rfl rfl (fun _ _ h => h) (by simp) h.bounded.2 (by simp)
    · rename_i message source' _
      cases hstep
      -- a message is decoded, and no channel is touched yet
      obtain ⟨hchannels, hnext, hstreams, hwriter, hsending⟩ := handle_shared rng shared message
      refine delivery_of_quiet h hchannels hnext ?_ ?_ ?_ (by simp)
      · intro streamId c hlookup
        rw [← hstreams]
        exact hlookup
      · intro c bytes hreader
        exact absurd hreader (hsending c bytes)
      · rw [hwriter]
        exact h.bounded.2
  | routing origin streamId bytes =>
    simp only at hstep
    split at hstep
    · rename_i chan hlookup
      cases hstep
      -- the reader now waits for a channel that it has from the table
      have hborn : ∀ c bytes', Reader.sending chan bytes = .sending c bytes' →
          c < shared.nextChan := by
        rintro c bytes' ⟨⟩
        exact h.table streamId chan hlookup
      exact delivery_of_quiet h rfl rfl (fun _ _ h => h) hborn h.bounded.2 (quiet_routed _ _ _ _)
    · cases hstep
      exact delivery_of_quiet h rfl rfl (fun _ _ h => h) (by simp) h.bounded.2
        (quiet_routed _ _ _ _)
  | sending chan bytes =>
    simp only at hstep
    split at hstep
    · cases hstep
    · rename_i ch hsend
      cases hstep
      exact delivery_sent h hsend
    · cases hstep
      exact delivery_of_quiet h rfl rfl (fun _ _ h => h) (by simp) h.bounded.2 (quiet_refused _ _)
  -- the stream leaves the table
  | closing streamId =>
    cases hstep
    exact delivery_of_quiet h rfl rfl (fun _ _ => lookup_of_erase) (by simp) h.bounded.2 (by simp)
  | answering bytes =>
    simp only at hstep
    split at hstep
    · cases hstep
    · rename_i writer ok hsend
      cases hstep
      exact delivery_of_quiet h rfl rfl (fun _ _ h => h) (by simp)
        (bounded_send h.bounded.2 hsend) (by simp)
  | stopped => cases hstep

/-- **Every step keeps the channels right.** -/
theorem delivery_step {σ : Type} {next : σ → Option (Message × σ)} (s : State σ)
    (past : List Effect) (e : Event) (s' : State σ) (o : List Effect) (h : Delivery s past)
    (hstep : step next s e = some (s', o)) : Delivery s' (past ++ o) := by
  obtain ⟨rng, rfl, hreader⟩ | ⟨shared', hother, rfl⟩ := step_cases hstep
  · exact delivery_stepReader h hreader
  · -- of the other tasks, `register`, `receive` and `dropReceiver` touch a channel of a stream
    cases e with
    | reader rng => cases hother
    | register streamId =>
      simp only [stepOther] at hother
      split at hother
      · cases hother
      · cases hother
        rw [List.append_nil]
        exact delivery_register h streamId
    | unregister streamId =>
      simp only [stepOther] at hother
      split at hother
      · cases hother
      · cases hother
        exact delivery_of_quiet h rfl rfl (fun _ _ => lookup_of_erase) h.sending h.bounded.2
          (by simp)
    | receive chan =>
      obtain ⟨⟨bytes, ch⟩, hrecv, heq⟩ := Option.map_eq_some_iff.1 hother
      cases heq
      exact delivery_received h hrecv
    -- a closed channel promises nothing
    | dropReceiver chan =>
      cases hother
      refine delivery_setChannel h rfl (fun _ _ h => h) (bounded_close (h.bounded.1 chan)) (by simp)
        ?_ (by simp [Channel.close])
      intro hc
      rw [List.append_nil]
      exact ⟨rfl, (h.unborn chan hc).2⟩
    | enqueue bytes =>
      obtain ⟨⟨writer, ok⟩, hsend, heq⟩ := Option.map_eq_some_iff.1 hother
      cases heq
      exact delivery_of_quiet h rfl rfl (fun _ _ h => h) h.sending
        (bounded_send h.bounded.2 hsend) (by simp)
    | writerTake =>
      obtain ⟨⟨bytes, writer⟩, hrecv, heq⟩ := Option.map_eq_some_iff.1 hother
      cases heq
      exact delivery_of_quiet h rfl rfl (fun _ _ h => h) h.sending
        (bounded_recv h.bounded.2 hrecv).1 (by simp)
    | writerStop =>
      cases hother
      exact delivery_of_quiet h rfl rfl (fun _ _ h => h) h.sending
        (bounded_close h.bounded.2) (by simp)

/-! ## Effects at the moment they happen -/

/-- What an effect says about the state in which it happens: a look-up reads the
    table, a send succeeds exactly when the receiver is there, and a receipt takes
    the first message of the queue. -/
def Explained {σ : Type} (s : State σ) : Effect → Prop
  | .routed _ streamId _ dest => dest = s.shared.streams.lookup streamId
  | .sent c _ => (s.shared.channels c).closed = false
  | .refused c _ => (s.shared.channels c).closed = true
  | .received c bytes => (s.shared.channels c).queue.head? = some bytes

/-- A send returns an error exactly if the receiver is gone. -/
theorem send_closed {ch ch' : Channel} {v : List UInt8} {ok : Bool}
    (h : ch.send v = some (ch', ok)) : ch.closed = !ok := by
  unfold Channel.send at h
  split at h
  · rename_i hclosed
    cases h
    exact hclosed
  · rename_i hopen
    split at h <;> cases h
    exact Bool.eq_false_iff.2 hopen

/-- What every step shows is true in the state before it. -/
theorem step_explained {σ : Type} {next : σ → Option (Message × σ)} {s s' : State σ} {e : Event}
    {o : List Effect} (h : step next s e = some (s', o)) : ∀ x ∈ o, Explained s x := by
  intro x hx
  obtain ⟨rng, rfl, hreader⟩ | ⟨shared', hother, rfl⟩ := step_cases h
  · unfold stepReader at hreader
    split at hreader
    · split at hreader <;> cases hreader <;> cases hx
    · split at hreader <;> rename_i hlookup <;> cases hreader <;> rw [List.mem_singleton.1 hx]
      · exact hlookup.symm
      · exact hlookup.symm
    · split at hreader
      · cases hreader
      · rename_i hsend
        cases hreader
        rw [List.mem_singleton.1 hx]
        exact send_closed hsend
      · rename_i hsend
        cases hreader
        rw [List.mem_singleton.1 hx]
        exact send_closed hsend
    · cases hreader
      cases hx
    · split at hreader <;> cases hreader
      cases hx
    · cases hreader
  · -- the other tasks only receive
    obtain ⟨c, bytes, rfl, hhead⟩ := (stepOther_effects hother).2 x hx
    exact hhead

/-! ## The reader gets through -/

/-- How much is left of the frame in hand. -/
def rank : Reader → Nat
  | .stopped => 0
  | .reading => 1
  | .routing _ _ _ => 3
  | _ => 2

/-- A frame takes three steps at most. -/
theorem rank_le (r : Reader) : rank r ≤ 3 := by
  cases r <;> simp [rank]

/-- How many steps of its own the reader may still make. -/
def work (s : State (List WireFrame)) : Nat := 3 * s.source.length + rank s.reader

/-- **Progress.** Each step of the reader leaves it less to do. -/
theorem stepReader_work {s s' : State (List WireFrame)} {o : List Effect} {rng : Rng}
    (h : stepReader nextFrame rng s = some (s', o)) : work s' < work s := by
  obtain ⟨source, reader, shared⟩ := s
  simp only [stepReader] at h
  cases reader with
  | reading =>
    cases source with
    | nil =>
      cases h
      exact Nat.zero_lt_one
    | cons f fs =>
      -- a frame less, at most three steps more
      cases h
      have hle := rank_le (handle rng shared f.message).1
      show 3 * fs.length + rank (handle rng shared f.message).1 < 3 * (fs.length + 1) + 1
      omega
  | routing origin streamId bytes =>
    simp only at h
    split at h <;> cases h <;> simp [work, rank]
  | sending chan bytes =>
    simp only at h
    split at h <;> cases h <;> simp [work, rank]
  | closing streamId =>
    cases h
    simp [work, rank]
  | answering bytes =>
    simp only at h
    split at h <;> cases h
    simp [work, rank]
  | stopped => cases h

/-- A sender that has to wait can go on after one receipt. -/
theorem send_of_full {n : Nat} {ch : Channel} {v : List UInt8} (hn : 0 < n) (h : Bounded n ch)
    (hwait : ch.send v = none) :
    ∃ first ch' ch'', ch.recv = some (first, ch') ∧ ch'.send v = some (ch'', true) := by
  obtain ⟨hcap, hlen⟩ := h
  obtain ⟨capacity, queue, closed⟩ := ch
  simp only at hcap hlen
  subst hcap
  simp only [Channel.send] at hwait
  split at hwait
  · cases hwait
  · rename_i hopen
    split at hwait
    · cases hwait
    · rename_i hfull
      cases queue with
      -- a channel without capacity would wait for ever
      | nil => exact absurd hn hfull
      | cons first queue =>
        have hroom : queue.length < capacity := hlen
        have hsend : Channel.send ⟨capacity, queue, closed⟩ v =
            some (⟨capacity, queue ++ [v], closed⟩, true) := by
          simp only [Channel.send, hopen, hroom, if_true, Bool.false_eq_true, if_false]
        exact ⟨first, ⟨capacity, queue, closed⟩, _, rfl, hsend⟩

/-- What it takes for the reader to go on: its own steps, receipts, and a writer
    that writes. No stream has to be closed. -/
def Prompt (e : Event) : Prop :=
  (∃ rng, e = .reader rng) ∨ (∃ chan, e = .receive chan) ∨ e = .writerTake

/-- The reader goes on after one step of another task. -/
theorem advance_after {s s₁ s₂ : State (List WireFrame)} {e : Event} {o₁ o₂ : List Effect}
    (he : Prompt e) (hfirst : step nextFrame s e = some (s₁, o₁))
    (hsecond : step nextFrame s₁ (.reader lowRng) = some (s₂, o₂)) (hwork : work s₂ < work s) :
    ∃ events s' out, (∀ e ∈ events, Prompt e) ∧
      run (step nextFrame) s events = some (s', out) ∧ work s' < work s := by
  refine ⟨[e, .reader lowRng], s₂, o₁ ++ o₂, ?_,
    run_append (run_singleton hfirst) (run_singleton hsecond), hwork⟩
  intro x hx
  simp only [List.mem_cons, List.not_mem_nil, or_false] at hx
  obtain rfl | rfl := hx
  · exact he
  · exact .inl ⟨lowRng, rfl⟩

/-- **The reader never gets stuck** as long as the receivers receive. -/
theorem reader_advances {s : State (List WireFrame)} {past : List Effect} (h : Delivery s past)
    (hrunning : s.reader ≠ .stopped) :
    ∃ events s' out, (∀ e ∈ events, Prompt e) ∧
      run (step nextFrame) s events = some (s', out) ∧ work s' < work s := by
  cases hstep : stepReader nextFrame lowRng s with
  | some r =>
    obtain ⟨s', o⟩ := r
    refine ⟨[.reader lowRng], s', o, ?_, run_singleton hstep, stepReader_work hstep⟩
    intro e he
    exact .inl ⟨lowRng, List.mem_singleton.1 he⟩
  | none =>
    obtain ⟨source, reader, shared⟩ := s
    simp only [stepReader] at hstep
    cases reader with
    | reading =>
      simp only at hstep
      split at hstep <;> cases hstep
    | routing origin streamId bytes =>
      simp only at hstep
      split at hstep <;> cases hstep
    | sending chan bytes =>
      -- the channel is full: its task receives, then the send completes
      simp only at hstep
      split at hstep
      · rename_i hwait
        obtain ⟨first, ch, ch', hrecv, hsend⟩ :=
          send_of_full (by decide) (h.bounded.1 chan) hwait
        have hfirst : step nextFrame ⟨source, .sending chan bytes, shared⟩ (.receive chan) =
            some (⟨source, .sending chan bytes, shared.setChannel chan ch⟩,
              [.received chan first]) := by
          simp [step, stepOther, hrecv]
        have hsecond : step nextFrame ⟨source, .sending chan bytes, shared.setChannel chan ch⟩
            (.reader lowRng) = some (⟨source, .reading, (shared.setChannel chan ch).setChannel chan
              ch'⟩, [.sent chan bytes]) := by
          simp [step, stepReader, Shared.setChannel, hsend]
        exact advance_after (.inr (.inl ⟨chan, rfl⟩)) hfirst hsecond (by simp [work, rank])
      · cases hstep
      · cases hstep
    | closing streamId => cases hstep
    | answering bytes =>
      -- the writer's channel is full: it writes one message, then there is room
      simp only at hstep
      split at hstep
      · rename_i hwait
        obtain ⟨first, ch, ch', hrecv, hsend⟩ := send_of_full (by decide) h.bounded.2 hwait
        have hfirst : step nextFrame ⟨source, .answering bytes, shared⟩ .writerTake =
            some (⟨source, .answering bytes, { shared with writer := ch }⟩, []) := by
          simp [step, stepOther, hrecv]
        have hsecond : step nextFrame ⟨source, .answering bytes, { shared with writer := ch }⟩
            (.reader lowRng) = some (⟨source, .reading, { shared with writer := ch' }⟩, []) := by
          simp [step, stepReader, hsend]
        exact advance_after (.inr (.inr rfl)) hfirst hsecond (by simp [work, rank])
      · cases hstep
    | stopped => exact absurd rfl hrunning

/-- Every run can be continued to the end of the input. -/
theorem reader_completes (n : Nat) {s : State (List WireFrame)} {past : List Effect}
    (h : Delivery s past) (hn : work s ≤ n) :
    ∃ events s' out, (∀ e ∈ events, Prompt e) ∧
      run (step nextFrame) s events = some (s', out) ∧ s'.reader = .stopped := by
  induction n generalizing s past with
  | zero =>
    refine ⟨[], s, [], by simp, rfl, ?_⟩
    simp only [work] at hn
    cases hr : s.reader <;> rw [hr] at hn <;> simp [rank] at hn ⊢
  | succ n ih =>
    by_cases hstopped : s.reader = .stopped
    · exact ⟨[], s, [], by simp, rfl, hstopped⟩
    · obtain ⟨es, s₁, o, hes, hrun, hwork⟩ := reader_advances h hstopped
      -- the events in between keep the channels right
      have h₁ : Delivery s₁ (past ++ o) :=
        run_history (fun s p e t o hs _ => delivery_step s p e t o hs) h
          (fun _ _ => trivial) hrun
      obtain ⟨fs, s₂, o₂, hfs, hrun₂, hend⟩ := ih h₁ (by omega)
      refine ⟨es ++ fs, s₂, o ++ o₂, ?_, run_append hrun hrun₂, hend⟩
      intro e he
      exact (List.mem_append.1 he).elim (hes e) (hfs e)

/-! ## Whole runs of the program -/

/-- **The reader recovers what was framed.** Over the encoding of any sequence of
    unpadded, padded and unknown frames, and in any interleaving with the tasks that
    open streams, close them, receive and write:

    - the unread bytes are always the encoding of the frames not yet handled;
    - the data look-ups made are those of the handled data frames, in order, with
      their own payloads, and the counter holds the sum of their lengths;
    - the sends are the look-ups that found a channel, in order, and an open channel
      has received or holds exactly what was sent to it;
    - each look-up is answered by the table as it is at that moment, and a send fails
      only when the receiver is gone;
    - the run can be continued to the end of the input by receiving alone. -/
theorem reader_recovers_frames (frames : List WireFrame) :
    ∃ wire, WireFrame.encodeAll frames = .ret wire ∧
      ∀ (events : List Event) (s : State (List UInt8)) (out : List Effect),
        run (step readMessage) (State.new wire) events = some (s, out) →
        (∃ handled todo, frames = handled ++ todo ∧ WireFrame.encodeAll todo = .ret s.source ∧
          out.filterMap dataRoute ++ pendingData s.reader = handled.filterMap WireFrame.data? ∧
          s.shared.bd.toNat = downloaded handled % 2 ^ 64 ∧
          (s.reader = .stopped → todo = [])) ∧
        out.filterMap attempt ++ pendingSend s.reader = out.filterMap route ∧
        (∀ c, (s.shared.channels c).closed = false →
          out.filterMap (receivedFrom c) ++ (s.shared.channels c).queue =
            out.filterMap (sentTo c)) ∧
        (∀ e s' o, step readMessage s e = some (s', o) → ∀ x ∈ o, Explained s x) ∧
        ∃ events' s' out', (∀ e ∈ events', Prompt e) ∧
          run (step readMessage) s events' = some (s', out') ∧ s'.reader = .stopped := by
  obtain ⟨wire, hwire⟩ := encodeAll_ret frames
  refine ⟨wire, hwire, ?_⟩
  intro events s out hrun
  -- the same run on frames
  have hstart : Same Carries (State.new wire) (State.new frames) := ⟨hwire, rfl, rfl⟩
  obtain ⟨t, hrun', hsame⟩ := run_simulation (step_simulates readMessage_agree) hstart hrun
  have hrouting : Routing frames t ([] ++ out) :=
    run_history (fun s p e t o hs _ => routing_step frames s p e t o hs) (routing_new frames)
      (fun _ _ => trivial) hrun'
  have hdelivery : Delivery t ([] ++ out) :=
    run_history (fun s p e t o hs _ => delivery_step s p e t o hs) (delivery_new frames)
      (fun _ _ => trivial) hrun'
  rw [List.nil_append] at hrouting hdelivery
  -- and back: a run on frames to the end of the input is one on bytes
  obtain ⟨es, t', out', hprompt, hfinish, hstopped⟩ := reader_completes (work t) hdelivery le_rfl
  obtain ⟨s', hrun'', hsame'⟩ := run_simulation (step_simulates (agree_symm readMessage_agree))
    (⟨hsame.source, hsame.reader.symm, hsame.shared.symm⟩ :
      Same (fun b a => Carries a b) t s) hfinish
  obtain ⟨⟨handled, hsplit, hdata, hbd⟩, hsends, hend⟩ := hrouting
  rw [hsame.reader, hsame.shared]
  refine ⟨⟨handled, t.source, hsplit, hsame.source, hdata, ?_, hend⟩, hsends, hdelivery.fifo, ?_,
    es, s', out', hprompt, hrun'', hsame'.reader ▸ hstopped⟩
  · rw [hbd]
    exact UInt64.toNat_ofNat'
  · intro e s' o hstep
    exact step_explained hstep

-- one byte of data with four bytes of padding, for a registered stream
example :
    (run (step readMessage)
      (State.new [0x00, 0x04, 0, 0, 0, 1, 0, 5, 0x61, 0xAA, 0xAA, 0xAA, 0x04])
      [.register 1, .reader lowRng, .reader lowRng, .reader lowRng]).map Prod.snd =
    some [.routed .data 1 [0x61] (some 0), .sent 0 [0x61]] := by
  decide

end Fogged.Spec.TcpReader
