import Fogged.Spec.MuxPoolCorrect

/-!
# Whom a TCP-mode handler blocks

A handler that has got its StreamReady keeps its channel open without ever receiving
again, so that the reader, which sends with the table locked, can get stuck in that
channel. It takes 66 frames of one stream to get there: one that the handler has taken, 64
that fill the channel, and the one with which the reader waits.

`load` counts what the server sends for a stream up to the next StreamClose of it. What of
it is still to come, what is queued, and what the reader or the handler has taken together
never grow while the stream is in the table.

## Key results

- `spent_reader`: what one step of the reader does to the count
- `paced_step`: what one step of the whole preserves
- `reader_never_stalls`: a server that sends at most 65 frames for a stream
- `reader_stalls`: a server that sends 66
-/

namespace Fogged.Spec.MuxPool

open Fogged.Native Fogged.Native.MuxPool Fogged.Native.Orca
open Fogged.Native.TcpReader (Channel ChanId Message Reader readMessage readFrame)
open Fogged.Spec.Orca (lowRng)
open Fogged.Spec.TcpReader (Bounded Delivery)
open Machine

/-- The handler keeps the channel open and does not receive from it any more. -/
def Keeps (s : State) (h : HandlerId) (chan : ChanId) : Prop :=
  ∃ sid phase, s.handlers h = .opened sid chan phase ∧ phase ≠ .waiting

/-- The reader has locked the table and waits for a handler that does not receive. -/
def Stalled (s : State) : Prop :=
  ∃ h chan bytes, s.tcp.reader = .sending chan bytes ∧
    (s.tcp.shared.channels chan).send bytes = none ∧ Keeps s h chan

/-! ## What the server sends -/

/-- A message takes some bytes off the wire. -/
theorem length_of_readMessage {wire rest : List UInt8} {m : Message}
    (h : readMessage wire = some (m, rest)) : rest.length < wire.length := by
  obtain ⟨⟨f, rest'⟩, hframe, heq⟩ := Option.map_eq_some_iff.1 h
  cases heq
  unfold readFrame at hframe
  split at hframe
  · simp only at hframe
    split at hframe
    · cases hframe
    · -- the header has been read, and the payload after it
      rename_i payload wire' hread
      cases hframe
      have hsplit := (Bytes.readExact_eq_some hread).2
      rw [hsplit]
      simp only [List.length_cons, List.length_append]
      omega
  · cases hframe

/-- The messages on the wire, up to the first that cannot be read. -/
def messages (wire : List UInt8) : List Message :=
  match _h : readMessage wire with
  | some (m, rest) => m :: messages rest
  | none => []
termination_by wire.length
decreasing_by exact length_of_readMessage _h

/-- The first message, and those behind it. -/
theorem messages_of_some {wire rest : List UInt8} {m : Message}
    (h : readMessage wire = some (m, rest)) : messages wire = m :: messages rest := by
  rw [messages]
  split
  · rename_i h'
    cases h.symm.trans h'
    rfl
  · rename_i h'
    cases h.symm.trans h'

/-- The wire ends in the middle of a message. -/
theorem messages_of_none {wire : List UInt8} (h : readMessage wire = none) :
    messages wire = [] := by
  rw [messages]
  split
  · rename_i h'
    cases h.symm.trans h'
  · rfl

/-- How many messages there are for a stream before it is closed. -/
def load (sid : UInt32) : List Message → Nat
  | [] => 0
  | .data id _ :: ms | .ready id _ :: ms => (if id = sid then 1 else 0) + load sid ms
  | .close id :: ms => if id = sid then 0 else load sid ms
  | .ping :: ms | .other :: ms => load sid ms

/-- The server sends at most 65 Data and StreamReady frames for a stream of the client before a
    StreamClose of it. The client's streams have odd ids. -/
def Moderate (wire : List UInt8) : Prop :=
  ∀ sid : UInt32, sid.toNat % 2 = 1 → ∀ ms, ms <:+ messages wire → load sid ms ≤ 65

/-- The message that the reader has in its hands and has not looked up yet. -/
def pending : Reader → List Message
  | .routing .data sid bytes => [.data sid bytes]
  | .routing .ready sid bytes => [.ready sid bytes]
  | .closing sid => [.close sid]
  | .reading | .sending _ _ | .answering _ | .stopped => []

/-- What is still to come. -/
def toCome (s : TcpReader.State (List UInt8)) : List Message :=
  pending s.reader ++ messages s.source

/-- One, if the reader waits to send to `chan`. -/
def onItsWay (chan : ChanId) : Reader → Nat
  | .sending c _ => if c = chan then 1 else 0
  | _ => 0

/-- What is queued for a stream, on its way, or still to come. -/
def spent (s : TcpReader.State (List UInt8)) (sid : UInt32) (chan : ChanId) : Nat :=
  (s.shared.channels chan).queue.length + onItsWay chan s.reader + load sid (toCome s)

/-! ## One step of the machine below -/

/-- A step after which no stream has more. -/
structure Eases (s s' : TcpReader.State (List UInt8)) : Prop where
  suffix : toCome s' <:+ toCome s
  next : s'.shared.nextChan = s.shared.nextChan
  table : ∀ sid chan, s'.shared.streams.lookup sid = some chan →
    s.shared.streams.lookup sid = some chan
  sending : ∀ chan bytes, s'.reader = .sending chan bytes →
    (∃ sid, s'.shared.streams.lookup sid = some chan) ∨
      s.reader = .sending chan bytes ∧ s'.shared.streams = s.shared.streams
  spent : ∀ sid chan, s'.shared.streams.lookup sid = some chan →
    spent s' sid chan ≤ spent s sid chan

/-- Reading a message does not change what a stream has. -/
theorem load_handle (rng : Rng) (shared : TcpReader.Shared) (m : Message) (ms : List Message)
    (sid : UInt32) :
    load sid (pending (TcpReader.handle rng shared m).1 ++ ms) = load sid (m :: ms) ∧
      pending (TcpReader.handle rng shared m).1 ++ ms <:+ m :: ms := by
  cases m with
  | ping =>
    rw [Spec.TcpReader.handle_ping]
    exact ⟨rfl, List.suffix_cons _ _⟩
  | other => exact ⟨rfl, List.suffix_cons _ _⟩
  | _ => exact ⟨rfl, List.suffix_refl _⟩

/-- The table has each channel once. -/
def Single (s : TcpReader.State (List UInt8)) : Prop :=
  ∀ sid sid' chan, s.shared.streams.lookup sid = some chan →
    s.shared.streams.lookup sid' = some chan → sid = sid'

/-- A message that is being looked up counts for its stream. -/
theorem load_routing (origin : TcpReader.Origin) (id sid : UInt32) (bytes : List UInt8)
    (ms : List Message) :
    load sid (pending (.routing origin id bytes) ++ ms) =
        (if id = sid then 1 else 0) + load sid ms ∧
      ms <:+ pending (.routing origin id bytes) ++ ms := by
  cases origin <;> exact ⟨rfl, List.suffix_append _ _⟩

/-- A step after which the reader waits for no channel. -/
theorem eases_of_idle {s s' : TcpReader.State (List UInt8)} (hsuffix : toCome s' <:+ toCome s)
    (hnext : s'.shared.nextChan = s.shared.nextChan)
    (htable : ∀ sid chan, s'.shared.streams.lookup sid = some chan →
      s.shared.streams.lookup sid = some chan)
    (hidle : ∀ chan bytes, s'.reader ≠ .sending chan bytes)
    (hspent : ∀ sid chan, s'.shared.streams.lookup sid = some chan →
      spent s' sid chan ≤ spent s sid chan) : Eases s s' :=
  ⟨hsuffix, hnext, htable, fun chan bytes h => absurd h (hidle chan bytes), hspent⟩

/-- A reader that does not wait has nothing on its way. -/
theorem onItsWay_of_idle {reader : Reader} (h : ∀ chan bytes, reader ≠ .sending chan bytes)
    (chan : ChanId) : onItsWay chan reader = 0 := by
  cases reader with
  | sending c bytes => exact absurd rfl (h c bytes)
  | _ => rfl

section Reader

variable {source rest : List UInt8} {shared : TcpReader.Shared}

/-- The reader goes on without a message. -/
theorem eases_quiet {reader reader' : Reader} {shared' : TcpReader.Shared}
    (hpending : pending reader = []) (hpending' : pending reader' = [])
    (hidle : ∀ chan bytes, reader' ≠ .sending chan bytes)
    (hstreams : shared'.streams = shared.streams) (hnext : shared'.nextChan = shared.nextChan)
    (hchannels : shared'.channels = shared.channels) :
    Eases ⟨source, reader, shared⟩ ⟨source, reader', shared'⟩ := by
  have hcome : toCome ⟨source, reader', shared'⟩ = toCome ⟨source, reader, shared⟩ := by
    simp only [toCome, hpending, hpending']
  refine eases_of_idle ?_ hnext (fun _ _ h => hstreams ▸ h) hidle fun sid chan _ => ?_
  · rw [hcome]
  · simp only [spent, hcome, hchannels, onItsWay_of_idle hidle]
    omega

/-- A message is read. -/
theorem eases_read {m : Message} (rng : Rng) (hread : readMessage source = some (m, rest)) :
    Eases ⟨source, .reading, shared⟩
      ⟨rest, (TcpReader.handle rng shared m).1, (TcpReader.handle rng shared m).2⟩ := by
  obtain ⟨hchannels, hnext, hstreams, -, hidle⟩ := Spec.TcpReader.handle_shared rng shared m
  have hcome : toCome ⟨source, .reading, shared⟩ = m :: messages rest := messages_of_some hread
  refine eases_of_idle ?_ hnext (fun sid chan h => hstreams ▸ h) hidle fun sid chan _ => ?_
  · rw [hcome]
    exact (load_handle rng shared m (messages rest) 0).2
  · rw [spent, spent, hcome, ← (load_handle rng shared m (messages rest) sid).1]
    simp only [hchannels, onItsWay_of_idle hidle]
    exact Nat.le_refl _

/-- A message finds its channel, which is only this stream's, and is on its way now. -/
theorem eases_route {origin : TcpReader.Origin} {id : UInt32} {bytes : List UInt8} {c : ChanId}
    (hsingle : Single ⟨source, .routing origin id bytes, shared⟩)
    (hlookup : shared.streams.lookup id = some c) :
    Eases ⟨source, .routing origin id bytes, shared⟩ ⟨source, .sending c bytes, shared⟩ := by
  refine ⟨(load_routing origin id 0 bytes _).2, rfl, fun _ _ h => h, ?_, fun sid chan h => ?_⟩
  · intro chan bytes' h
    cases h
    exact .inl ⟨id, hlookup⟩
  · have hload : load sid (toCome ⟨source, .routing origin id bytes, shared⟩) =
        (if id = sid then 1 else 0) + load sid (messages source) :=
      (load_routing origin id sid bytes (messages source)).1
    -- the channel belongs to this stream alone, so no other count grows
    have hway : onItsWay chan (.sending c bytes) ≤ if id = sid then 1 else 0 := by
      by_cases hc : c = chan
      · subst hc
        rw [hsingle id sid c hlookup h, if_pos rfl, onItsWay, if_pos rfl]
      · rw [onItsWay, if_neg hc]
        exact Nat.zero_le _
    have hbefore : onItsWay chan (.routing origin id bytes) = 0 := rfl
    have hcome : toCome ⟨source, .sending c bytes, shared⟩ = messages source := rfl
    simp only [spent, hload, hbefore, hcome]
    omega

/-- A message whose stream is not in the table is dropped. -/
theorem eases_drop {origin : TcpReader.Origin} {id : UInt32} {bytes : List UInt8} :
    Eases ⟨source, .routing origin id bytes, shared⟩ ⟨source, .reading, shared⟩ := by
  refine eases_of_idle (load_routing origin id 0 bytes _).2 rfl (fun _ _ h => h)
    (fun _ _ => Reader.noConfusion) fun sid chan _ => ?_
  have hload : load sid (toCome ⟨source, .routing origin id bytes, shared⟩) =
      (if id = sid then 1 else 0) + load sid (messages source) :=
    (load_routing origin id sid bytes (messages source)).1
  have hcome : toCome ⟨source, .reading, shared⟩ = messages source := rfl
  simp only [spent, hload, hcome]
  exact Nat.add_le_add_left (Nat.le_add_left _ _) _

/-- One channel of the table is replaced. -/
theorem channels_setChannel (c : ChanId) (ch : Channel) :
    (shared.setChannel c ch).channels = Function.update shared.channels c ch := rfl

/-- A message is queued in its channel. -/
theorem eases_send {c : ChanId} {bytes : List UInt8} {ch : Channel}
    (hsend : (shared.channels c).send bytes = some (ch, true)) :
    Eases ⟨source, .sending c bytes, shared⟩ ⟨source, .reading, shared.setChannel c ch⟩ := by
  refine eases_of_idle (List.suffix_refl _) rfl (fun _ _ h => h) (fun _ _ => Reader.noConfusion)
    fun sid chan _ => ?_
  -- the message is on its way before and queued after that
  have hlength : ch.queue.length = (shared.channels c).queue.length + 1 := by
    rw [Channel.send] at hsend
    split at hsend
    · cases hsend
    · split at hsend <;> cases hsend
      rw [List.length_append, List.length_singleton]
  have hqueue : ((shared.setChannel c ch).channels chan).queue.length ≤
      (shared.channels chan).queue.length + onItsWay chan (.sending c bytes) := by
    by_cases hc : c = chan
    · subst hc
      rw [onItsWay, if_pos rfl, ← hlength, channels_setChannel, Function.update_self]
    · rw [channels_setChannel, Function.update_of_ne (Ne.symm hc)]
      exact Nat.le_add_right _ _
  exact Nat.add_le_add_right hqueue _

/-- A stream is closed and leaves the table. -/
theorem eases_close {id : UInt32} :
    Eases ⟨source, .closing id, shared⟩
      ⟨source, .reading, { shared with streams := shared.streams.erase id }⟩ := by
  refine eases_of_idle (List.suffix_append _ _) rfl
    (fun _ _ h => Spec.TcpReader.lookup_of_erase h) (fun _ _ => Reader.noConfusion)
    fun sid chan h => ?_
  have hne : id ≠ sid := by
    rintro rfl
    have hnone : (shared.streams.erase id).lookup id = none := Finmap.lookup_erase id shared.streams
    cases hnone.symm.trans h
  have hload : load sid (toCome ⟨source, .closing id, shared⟩) = load sid (messages source) :=
    if_neg hne
  simp only [spent, hload]
  exact Nat.le_refl _

end Reader

/-- **One step of the reader.** A message changes hands: it is read, looked up, sent. -/
theorem spent_reader {s s' : TcpReader.State (List UInt8)} {rng : Rng}
    {o : List TcpReader.Effect} (hsingle : Single s)
    (hstep : TcpReader.stepReader readMessage rng s = some (s', o)) : Eases s s' := by
  obtain ⟨source, reader, shared⟩ := s
  unfold TcpReader.stepReader at hstep
  cases reader with
  | reading =>
    simp only at hstep
    split at hstep
    · -- the connection has ended
      cases hstep
      exact eases_quiet rfl rfl (fun _ _ => Reader.noConfusion) rfl rfl rfl
    · rename_i m rest hread
      cases hstep
      exact eases_read rng hread
  | routing origin id bytes =>
    simp only at hstep
    split at hstep
    · rename_i c hlookup
      cases hstep
      exact eases_route hsingle hlookup
    · cases hstep
      exact eases_drop
  | sending c bytes =>
    simp only at hstep
    split at hstep
    · cases hstep
    · rename_i ch hsend
      cases hstep
      exact eases_send hsend
    · -- the receiver is gone
      cases hstep
      exact eases_quiet rfl rfl (fun _ _ => Reader.noConfusion) rfl rfl rfl
  | closing id =>
    cases hstep
    exact eases_close
  | answering bytes =>
    simp only at hstep
    split at hstep
    · cases hstep
    · cases hstep
      exact eases_quiet rfl rfl (fun _ _ => Reader.noConfusion) rfl rfl rfl
  | stopped => cases hstep

/-- A step of the tasks around the reader that puts nothing into the table. -/
theorem eases_other {s : TcpReader.State (List UInt8)} {shared : TcpReader.Shared}
    (hstreams : shared.streams = s.shared.streams) (hnext : shared.nextChan = s.shared.nextChan)
    (hqueues : ∀ chan, (shared.channels chan).queue.length ≤
      (s.shared.channels chan).queue.length) : Eases s { s with shared } := by
  refine ⟨List.suffix_refl _, hnext, fun _ _ h => hstreams ▸ h, fun _ _ h => .inr ⟨h, hstreams⟩,
    fun sid chan _ => ?_⟩
  exact Nat.add_le_add_right (Nat.add_le_add_right (hqueues chan) _) _

/-- A channel that is not longer makes none longer. -/
theorem length_setChannel {shared : TcpReader.Shared} {chan : ChanId} {ch : Channel}
    (hle : ch.queue.length ≤ (shared.channels chan).queue.length) (c : ChanId) :
    ((shared.setChannel chan ch).channels c).queue.length ≤
      (shared.channels c).queue.length := by
  rw [channels_setChannel]
  by_cases hc : c = chan
  · subst hc
    rw [Function.update_self]
    exact hle
  · rw [Function.update_of_ne hc]

/-- The writer, and a handler that hands it a frame, leave the channels alone. -/
theorem eases_writer {s : State} {e : TcpReader.Event} {tcp : TcpReader.State (List UInt8)}
    (he : e = .writerTake ∨ e = .writerStop ∨ ∃ bytes, e = .enqueue bytes) (htcp : Below s e tcp) :
    Eases s.tcp tcp := by
  obtain ⟨o, htcp⟩ := htcp
  obtain ⟨rng, rfl, -⟩ | ⟨shared, hother, rfl⟩ := Spec.TcpReader.step_cases htcp
  · obtain he | he | ⟨bytes, he⟩ := he <;> cases he
  · -- the writer's queue is not a stream's channel
    obtain rfl | rfl | ⟨bytes, rfl⟩ := he
    · obtain ⟨r, -, heq⟩ := Option.map_eq_some_iff.1 hother
      cases heq
      exact eases_other rfl rfl fun _ => Nat.le_refl _
    · cases hother
      exact eases_other rfl rfl fun _ => Nat.le_refl _
    · obtain ⟨r, -, heq⟩ := Option.map_eq_some_iff.1 hother
      cases heq
      exact eases_other rfl rfl fun _ => Nat.le_refl _

/-- A receiver that is dropped takes its queue with it. -/
theorem eases_dropReceiver {s : State} {chan : ChanId} {tcp : TcpReader.State (List UInt8)}
    (htcp : Below s (.dropReceiver chan) tcp) : Eases s.tcp tcp := by
  obtain ⟨o, htcp⟩ := htcp
  obtain ⟨rng, he, -⟩ | ⟨shared, hother, rfl⟩ := Spec.TcpReader.step_cases htcp
  · cases he
  · cases hother
    exact eases_other rfl rfl (length_setChannel (Nat.zero_le _))

/-- What a handler receives is no longer queued. -/
theorem eases_receive {s : State} {chan : ChanId} {tcp : TcpReader.State (List UInt8)}
    (htcp : Below s (.receive chan) tcp) :
    Eases s.tcp tcp ∧ ∀ sid, spent tcp sid chan + 1 = spent s.tcp sid chan := by
  obtain ⟨o, htcp⟩ := htcp
  obtain ⟨rng, he, -⟩ | ⟨shared, hother, rfl⟩ := Spec.TcpReader.step_cases htcp
  · cases he
  · obtain ⟨⟨bytes, ch⟩, hrecv, heq⟩ := Option.map_eq_some_iff.1 hother
    cases heq
    -- the first of the queue is taken
    have hqueue : (s.tcp.shared.channels chan).queue.length = ch.queue.length + 1 := by
      rw [Channel.recv] at hrecv
      split at hrecv <;> cases hrecv
      rename_i hqueue
      rw [hqueue, List.length_cons]
    refine ⟨eases_other rfl rfl (length_setChannel (hqueue ▸ Nat.le_succ _)), fun sid => ?_⟩
    have hchan : ((s.tcp.shared.setChannel chan ch).channels chan).queue.length =
        ch.queue.length := by
      rw [channels_setChannel, Function.update_self]
    simp only [spent, hchan, hqueue, toCome]
    omega

/-! ## Every run -/

/-- How many frames a handler that keeps the channel has taken from it. -/
def Taken (s : State) (chan : ChanId) (k : Nat) : Prop := k = 0 ∨ k = 1 ∧ ∃ h, Keeps s h chan

/-- The invariant: ids are odd, channels are new and in the table once, and no stream of the
    table gets more than 65 frames, with what its handler has taken. -/
structure Paced (wire : List UInt8) (s : State) : Prop where
  delivery : ∃ past, Delivery s.tcp past
  suffix : toCome s.tcp <:+ messages wire
  nextOdd : s.nextId.toNat % 2 = 1
  odd : ∀ h sid target, s.handlers h = .registering sid target → sid.toNat % 2 = 1
  chans : ∀ h sid chan, stream? (s.handlers h) = some (sid, chan) → chan < s.tcp.shared.nextChan
  single : Single s.tcp
  sending : ∀ chan bytes, s.tcp.reader = .sending chan bytes →
    ∃ sid, s.tcp.shared.streams.lookup sid = some chan
  budget : ∀ sid chan k, s.tcp.shared.streams.lookup sid = some chan → Taken s chan k →
    k + spent s.tcp sid chan ≤ 65

/-- At the start there are no streams. -/
theorem paced_new (wire : List UInt8) : Paced wire (State.new wire) where
  delivery := ⟨[], Spec.TcpReader.delivery_new wire⟩
  suffix := List.suffix_refl _
  nextOdd := rfl
  odd h sid target hh := by cases hh
  chans h sid chan hh := by cases hh
  single sid sid' chan h := by simp [State.new, TcpReader.State.new, TcpReader.Shared.new] at h
  sending chan bytes h := by cases h
  budget sid chan k h := by simp [State.new, TcpReader.State.new, TcpReader.Shared.new] at h

/-- The reader waits only where there is room. -/
theorem Paced.not_stalled {wire : List UInt8} {s : State} (hs : Paced wire s) : ¬ Stalled s := by
  rintro ⟨h, chan, bytes, hreader, hfull, hkeeps⟩
  obtain ⟨past, hdelivery⟩ := hs.delivery
  obtain ⟨sid, hlookup⟩ := hs.sending chan bytes hreader
  have hbudget := hs.budget sid chan 1 hlookup (.inr ⟨rfl, h, hkeeps⟩)
  have hway : onItsWay chan s.tcp.reader = 1 := by rw [hreader, onItsWay, if_pos rfl]
  rw [spent, hway] at hbudget
  rw [Channel.send, (hdelivery.bounded.1 chan).1] at hfull
  split at hfull
  · cases hfull
  · rw [if_pos (by omega)] at hfull
    cases hfull

/-- What `TcpReaderCorrect` proves about the channels holds after each step. -/
theorem delivery_below {wire : List UInt8} {s : State} {e : TcpReader.Event}
    {tcp : TcpReader.State (List UInt8)} (hs : Paced wire s) (htcp : Below s e tcp) :
    ∃ past, Delivery tcp past := by
  obtain ⟨past, hdelivery⟩ := hs.delivery
  obtain ⟨o, htcp⟩ := htcp
  exact ⟨past ++ o, Spec.TcpReader.delivery_step s.tcp past e tcp o hdelivery htcp⟩

/-- A step that eases the streams. -/
theorem Paced.eases {wire : List UInt8} {s t : State} (hs : Paced wire s)
    (hdelivery : ∃ past, Delivery t.tcp past) (heases : Eases s.tcp t.tcp)
    (hnext : t.nextId.toNat % 2 = 1)
    (hodd : ∀ h sid target, t.handlers h = .registering sid target → sid.toNat % 2 = 1)
    (hchans : ∀ h sid chan, stream? (t.handlers h) = some (sid, chan) →
      chan < s.tcp.shared.nextChan)
    (hbudget : ∀ sid chan k, t.tcp.shared.streams.lookup sid = some chan → Taken t chan k →
      k + spent t.tcp sid chan ≤ 65) : Paced wire t where
  delivery := hdelivery
  suffix := heases.suffix.trans hs.suffix
  nextOdd := hnext
  odd := hodd
  chans h sid chan hh := by
    rw [heases.next]
    exact hchans h sid chan hh
  -- no entry is new
  single sid sid' chan h h' := hs.single sid sid' chan (heases.table sid chan h)
    (heases.table sid' chan h')
  sending chan bytes hreader := by
    obtain hfound | ⟨hbefore, hstreams⟩ := heases.sending chan bytes hreader
    · exact hfound
    · rw [hstreams]
      exact hs.sending chan bytes hbefore
  budget := hbudget

/-- A step that leaves the machine below alone. -/
theorem Eases.refl (s : TcpReader.State (List UInt8)) : Eases s s :=
  ⟨List.suffix_refl _, rfl, fun _ _ h => h, fun _ _ h => .inr ⟨h, rfl⟩, fun _ _ _ => Nat.le_refl _⟩

/-- Whoever keeps a channel after a change of one handler is that handler, or did so before. -/
theorem keeps_setHandler {s : State} {g h : HandlerId} {handler : Handler} {chan : ChanId}
    (hkeeps : Keeps (s.setHandler h handler) g chan) :
    (∃ sid phase, handler = .opened sid chan phase ∧ phase ≠ .waiting) ∨ Keeps s g chan := by
  obtain ⟨sid, phase, hopened, hphase⟩ := hkeeps
  obtain ⟨-, heq⟩ | hs := setHandler_eq hopened
  · exact .inl ⟨sid, phase, heq, hphase⟩
  · exact .inr ⟨sid, phase, hs, hphase⟩

/-- A step of one handler that eases the streams. If the handler stops receiving, it has
    stopped before, or has just received. -/
theorem Paced.handler {wire : List UInt8} {s : State} (hs : Paced wire s)
    {tcp : TcpReader.State (List UInt8)} {h : HandlerId} {handler : Handler} {nextId : UInt32}
    (hdelivery : ∃ past, Delivery tcp past) (heases : Eases s.tcp tcp)
    (hnext : nextId.toNat % 2 = 1)
    (hodd : ∀ sid target, handler = .registering sid target → sid.toNat % 2 = 1)
    (hchans : ∀ sid chan, stream? handler = some (sid, chan) → chan < s.tcp.shared.nextChan)
    (hkeeps : ∀ sid chan phase, handler = .opened sid chan phase → phase ≠ .waiting →
      (∃ g, Keeps s g chan) ∨ ∀ sid', spent tcp sid' chan + 1 ≤ spent s.tcp sid' chan) :
    Paced wire { ({ s with tcp }.setHandler h handler) with nextId } := by
  refine hs.eases hdelivery heases hnext ?_ ?_ ?_
  · intro g sid target hg
    obtain ⟨-, heq⟩ | hbefore := setHandler_eq hg
    · exact hodd sid target heq
    · exact hs.odd g sid target hbefore
  · intro g sid chan hg
    by_cases hgh : g = h
    · subst hgh
      have hself : (({ s with tcp } : State).setHandler g handler).handlers g = handler :=
        Function.update_self _ _ _
      exact hchans sid chan (hself ▸ hg)
    · have hother : (({ s with tcp } : State).setHandler h handler).handlers g = s.handlers g :=
        Function.update_of_ne hgh _ _
      exact hs.chans g sid chan (hother ▸ hg)
  · intro sid chan k hlookup htaken
    have hbefore := heases.table sid chan hlookup
    have hspent := heases.spent sid chan hlookup
    -- a channel nobody has taken from, and one that a handler keeps
    have hzero := hs.budget sid chan 0 hbefore (.inl rfl)
    obtain rfl | ⟨rfl, g, hkept⟩ := htaken
    · exact (Nat.add_le_add_left hspent 0).trans hzero
    · have hold (g : HandlerId) (hg : Keeps s g chan) : 1 + spent tcp sid chan ≤ 65 :=
        (Nat.add_le_add_left hspent 1).trans (hs.budget sid chan 1 hbefore (.inr ⟨rfl, g, hg⟩))
      obtain ⟨_, phase, heq, hphase⟩ | hg := keeps_setHandler (s := { s with tcp }) hkept
      · obtain ⟨g, hg⟩ | hreceived := hkeeps _ chan phase heq hphase
        · exact hold g hg
        · -- what it has taken was queued before
          have := hreceived sid
          show 1 + spent tcp sid chan ≤ 65
          omega
      · exact hold g hg

/-- The machine below after a stream has been registered. -/
def registered (s : TcpReader.State (List UInt8)) (sid : UInt32) : TcpReader.State (List UInt8) :=
  { s with
    shared :=
      { s.shared.setChannel s.shared.nextChan (.new 64) with
        streams := s.shared.streams.insert sid s.shared.nextChan
        nextChan := s.shared.nextChan + 1 } }

/-- A stream is registered while the reader does not hold the lock. -/
theorem below_register {s : State} {sid : UInt32} {tcp : TcpReader.State (List UInt8)}
    (htcp : Below s (.register sid) tcp) :
    s.tcp.reader.locked = false ∧ tcp = registered s.tcp sid := by
  obtain ⟨o, htcp⟩ := htcp
  obtain ⟨_, he, -⟩ | ⟨shared, hother, rfl⟩ := Spec.TcpReader.step_cases htcp
  · cases he
  · simp only [TcpReader.stepOther] at hother
    split at hother
    · cases hother
    · rename_i hlocked
      cases hother
      exact ⟨Bool.eq_false_iff.2 hlocked, rfl⟩

section Registered

variable {s : TcpReader.State (List UInt8)} {sid sid' : UInt32} {chan : ChanId}

/-- The table has the new entry, and the old ones. -/
theorem lookup_registered (h : (registered s sid).shared.streams.lookup sid' = some chan) :
    sid' = sid ∧ chan = s.shared.nextChan ∨ s.shared.streams.lookup sid' = some chan := by
  have hlookup : (s.shared.streams.insert sid s.shared.nextChan).lookup sid' = some chan := h
  by_cases hsid : sid' = sid
  · subst hsid
    rw [Finmap.lookup_insert] at hlookup
    exact .inl ⟨rfl, (Option.some.inj hlookup).symm⟩
  · rw [Finmap.lookup_insert_of_ne _ hsid] at hlookup
    exact .inr hlookup

/-- The new channel is empty. -/
theorem spent_registered (hidle : ∀ chan bytes, s.reader ≠ .sending chan bytes) :
    spent (registered s sid) sid s.shared.nextChan = load sid (toCome s) := by
  have hqueue : ((registered s sid).shared.channels s.shared.nextChan).queue.length = 0 := by
    show (Function.update s.shared.channels s.shared.nextChan (Channel.new 64)
      s.shared.nextChan).queue.length = 0
    rw [Function.update_self]
    rfl
  have hway : onItsWay s.shared.nextChan (registered s sid).reader = 0 := onItsWay_of_idle hidle _
  have hcome : toCome (registered s sid) = toCome s := rfl
  rw [spent, hqueue, hway, hcome, Nat.zero_add]

/-- The others are as they were. -/
theorem spent_registered_of_ne (hne : chan ≠ s.shared.nextChan) :
    spent (registered s sid) sid' chan = spent s sid' chan := by
  have hchan : (registered s sid).shared.channels chan = s.shared.channels chan :=
    Function.update_of_ne hne _ _
  have hcome : toCome (registered s sid) = toCome s := rfl
  have hreader : (registered s sid).reader = s.reader := rfl
  rw [spent, spent, hchan, hcome, hreader]

/-- The channel of a new stream is new. -/
theorem single_registered (hsingle : Single s)
    (htable : ∀ sid chan, s.shared.streams.lookup sid = some chan → chan < s.shared.nextChan) :
    Single (registered s sid) := by
  intro sid₁ sid₂ chan h₁ h₂
  rcases lookup_registered h₁ with ⟨hsid₁, hchan⟩ | hold₁
  · rcases lookup_registered h₂ with ⟨hsid₂, -⟩ | hold₂
    · rw [hsid₁, hsid₂]
    · exact absurd (htable sid₂ chan hold₂) (hchan ▸ Nat.lt_irrefl _)
  · rcases lookup_registered h₂ with ⟨-, hchan⟩ | hold₂
    · exact absurd (htable sid₁ chan hold₁) (hchan ▸ Nat.lt_irrefl _)
    · exact hsingle sid₁ sid₂ chan hold₁ hold₂

end Registered

/-- A stream is registered: what is still to come for it is all that there is. -/
theorem Paced.register {wire : List UInt8} (hwire : Moderate wire) {s : State} (hs : Paced wire s)
    {tcp : TcpReader.State (List UInt8)} {h : HandlerId} {sid : UInt32} {target : TargetAddr}
    {frame : Frame} (hregistering : s.handlers h = .registering sid target)
    (htcp : Below s (.register sid) tcp) :
    Paced wire ({ s with tcp }.setHandler h (.opening sid s.tcp.shared.nextChan frame)) := by
  have hdelivery := delivery_below hs htcp
  obtain ⟨past, hbefore⟩ := hs.delivery
  obtain ⟨hlocked, rfl⟩ := below_register htcp
  -- the lock of the table is free, so the reader is not sending
  have hidle (chan : ChanId) (bytes : List UInt8) : s.tcp.reader ≠ .sending chan bytes := by
    intro hreader
    rw [hreader] at hlocked
    cases hlocked
  constructor
  case delivery => exact hdelivery
  case suffix => exact hs.suffix
  case nextOdd => exact hs.nextOdd
  case odd =>
    intro g sid' target' hg
    obtain ⟨-, heq⟩ | hg := setHandler_eq hg
    · cases heq
    · exact hs.odd g sid' target' hg
  case chans =>
    intro g sid' chan hg
    show chan < s.tcp.shared.nextChan + 1
    by_cases hgh : g = h
    · subst hgh
      simp only [State.setHandler, Function.update_self] at hg
      cases hg
      exact Nat.lt_succ_self _
    · simp only [State.setHandler, Function.update_of_ne hgh] at hg
      exact Nat.lt_succ_of_lt (hs.chans g sid' chan hg)
  case single => exact single_registered hs.single hbefore.table
  case sending => exact fun chan bytes hreader => absurd hreader (hidle chan bytes)
  -- a new channel has its whole budget; an old one loses nothing
  case budget =>
    intro sid' chan k hlookup htaken
    show k + spent (registered s.tcp sid) sid' chan ≤ 65
    have htaken' : Taken s chan k := by
      obtain hk | ⟨hk, g, hkept⟩ := htaken
      · exact .inl hk
      · obtain ⟨_, _, heq, -⟩ | hg := keeps_setHandler hkept
        · cases heq
        · exact .inr ⟨hk, g, hg⟩
    rcases lookup_registered hlookup with ⟨rfl, rfl⟩ | hold
    · have hload := hwire sid' (hs.odd h sid' target hregistering) _ hs.suffix
      obtain rfl | ⟨-, g, _, _, hopened, -⟩ := htaken'
      · rw [spent_registered hidle, Nat.zero_add]
        exact hload
      · -- nobody keeps a channel that is new
        exact absurd (hs.chans g _ _ (by rw [hopened]; rfl)) (Nat.lt_irrefl _)
    · rw [spent_registered_of_ne (Nat.ne_of_lt (hbefore.table sid' chan hold))]
      exact hs.budget sid' chan k hold htaken'

/-- The client's ids stay odd, also when they wrap. -/
theorem add_two_odd {n : UInt32} (h : n.toNat % 2 = 1) : (n + 2).toNat % 2 = 1 := by
  rw [UInt32.toNat_add]
  simp only [UInt32.reduceToNat]
  omega

/-- **One step** of the whole. -/
theorem paced_step {wire : List UInt8} (hwire : Moderate wire) {s t : State} {e : Event}
    {o : List Effect} (hs : Paced wire s) (hstep : Step s e t o) : Paced wire t := by
  cases hstep with
  | @below e' tcp he htcp =>
    have heases : Eases s.tcp tcp := by
      obtain ⟨rng, -, rfl⟩ | he := he
      · obtain ⟨o, htcp⟩ := htcp
        exact spent_reader hs.single htcp
      · exact eases_writer (he.imp_right .inl) htcp
    refine hs.eases (delivery_below hs htcp) heases hs.nextOdd hs.odd hs.chans
      fun sid chan k hlookup htaken => ?_
    exact (Nat.add_le_add_left (heases.spent sid chan hlookup) k).trans
      (hs.budget sid chan k (heases.table sid chan hlookup) htaken)
  -- a handler without a stream: at most it takes the next id
  | @aside h handler nextId _ hstream hid =>
    have hnew : nextId.toNat % 2 = 1 ∧
        ∀ sid target, handler = .registering sid target → sid.toNat % 2 = 1 := by
      rcases hid with ⟨target, rfl, rfl⟩ | ⟨hother, rfl⟩
      · refine ⟨add_two_odd hs.nextOdd, fun sid target heq => ?_⟩
        cases heq
        exact hs.nextOdd
      · exact ⟨hs.nextOdd, fun sid target heq => absurd heq (hother sid target)⟩
    refine hs.handler hs.delivery (Eases.refl s.tcp) hnew.1 hnew.2 (fun sid chan heq => ?_)
      fun sid chan phase heq _ => ?_
    · cases hstream.symm.trans heq
    · rw [heq] at hstream
      cases hstream
  | register hregistering htcp _ _ => exact hs.register hwire hregistering htcp
  | hands hopening htcp =>
    -- this handler still waits for its StreamReady
    refine hs.handler (delivery_below hs htcp) (eases_writer (.inr (.inr ⟨_, rfl⟩)) htcp) hs.nextOdd
      (fun _ _ heq => by cases heq) (fun sid chan heq => ?_) fun sid chan phase heq hphase => ?_
    · cases heq
      exact hs.chans _ _ _ (by rw [hopening]; rfl)
    · cases heq
      exact absurd rfl hphase
  | ready hopened htcp =>
    -- this one stops receiving, with what it has just taken
    obtain ⟨heases, hspent⟩ := eases_receive htcp
    refine hs.handler (delivery_below hs htcp) heases hs.nextOdd
      (fun _ _ heq => by cases heq) (fun sid chan heq => ?_) fun sid chan phase heq _ => ?_
    · cases heq
      exact hs.chans _ _ _ (by rw [hopened]; rfl)
    · cases heq
      exact .inr fun sid' => Nat.le_of_eq (hspent sid')
  | @advance h sid chan phase phase' hopened hphase =>
    refine hs.handler hs.delivery (Eases.refl s.tcp) hs.nextOdd
      (fun _ _ heq => by cases heq) (fun sid chan heq => ?_) fun sid chan phase heq _ => ?_
    · cases heq
      exact hs.chans _ _ _ (by rw [hopened]; rfl)
    · cases heq
      exact .inl ⟨h, sid, _, hopened, hphase⟩
  -- the receiver is dropped, so nothing is kept
  | finish _ htcp =>
    exact hs.handler (delivery_below hs htcp) (eases_dropReceiver htcp) hs.nextOdd
      (fun _ _ heq => by cases heq) (fun _ _ heq => by cases heq) fun _ _ _ heq => by cases heq

/-- **No stall.** If the server sends at most 65 Data and StreamReady frames for a stream
    before it closes it, the reader never waits, with the table locked, for a handler that does
    not receive any more. -/
theorem reader_never_stalls (wl : Option Whitelist) (wire : List UInt8) (es : List Event)
    (s : State) (out : List Effect) (hwire : Moderate wire)
    (hrun : run (step wl) (State.new wire) es = some (s, out)) : ¬ Stalled s :=
  (run_invariant_of_allowed
    (fun _ _ _ _ hs (_ : True) hstep => paced_step hwire hs (step_cases hstep)) (paced_new wire)
    (allowed_of_forall (fun _ _ _ => trivial) _) hrun).not_stalled

/-- No more messages count than there are. -/
theorem load_le_length (sid : UInt32) (ms : List Message) : load sid ms ≤ ms.length := by
  fun_induction load sid ms with
  | case1 => exact Nat.le_refl _
  | case2 id bytes ms ih | case3 id bytes ms ih =>
    rw [List.length_cons]
    split <;> omega
  | case4 => exact Nat.zero_le _
  | case5 id ms h ih | case6 ms ih | case7 ms ih => exact Nat.le_succ_of_le ih

/-- StreamReady arrives twice; the second one stays in the queue. -/
theorem reader_never_stalls_twice :
    ∃ s out, run (step none) (State.new [1, 0, 0, 0, 0, 1, 0, 0, 1, 0, 0, 0, 0, 1, 0, 0])
        (ready ++ List.replicate 2 (.reader lowRng)) = some (s, out) ∧
      s.tcp.reader = .sending 0 [] ∧ s.handlers 0 = .opened 1 0 .connecting ∧ ¬ Stalled s := by
  have hfacts : (run (step none) (State.new [1, 0, 0, 0, 0, 1, 0, 0, 1, 0, 0, 0, 0, 1, 0, 0])
      (ready ++ List.replicate 2 (.reader lowRng))).map
        (fun r => (r.1.tcp.reader, r.1.handlers 0)) =
      some (.sending 0 [], .opened 1 0 .connecting) := by
    decide +kernel
  -- two messages on the wire, far below the bound
  have hmessages : messages [1, 0, 0, 0, 0, 1, 0, 0, 1, 0, 0, 0, 0, 1, 0, 0] =
      [.ready 1 [], .ready 1 []] := by
    have hfirst : readMessage [1, 0, 0, 0, 0, 1, 0, 0, 1, 0, 0, 0, 0, 1, 0, 0] =
        some (.ready 1 [], [1, 0, 0, 0, 0, 1, 0, 0]) := by decide
    have hsecond : readMessage [1, 0, 0, 0, 0, 1, 0, 0] = some (.ready 1 [], []) := by decide
    rw [messages_of_some hfirst, messages_of_some hsecond, messages_of_none rfl]
  have hwire : Moderate [1, 0, 0, 0, 0, 1, 0, 0, 1, 0, 0, 0, 0, 1, 0, 0] := by
    intro sid _ ms hms
    rw [hmessages] at hms
    exact ((load_le_length sid ms).trans hms.length_le).trans (by decide)
  obtain ⟨⟨s, out⟩, hrun, hfacts⟩ := Option.map_eq_some_iff.1 hfacts
  obtain ⟨hreader, hhandler⟩ := Prod.mk.inj hfacts
  exact ⟨s, out, hrun, hreader, hhandler, reader_never_stalls none _ _ s out hwire hrun⟩

/-- **One stream stops them all.** The handler takes the first of 66 StreamReady frames
    and turns to its data connection; 64 fill the queue, and the reader waits with the
    last one. -/
theorem reader_stalls :
    ∃ s out, run (step none) (State.new (List.replicate 66 [1, 0, 0, 0, 0, 1, 0, 0]).flatten)
        (ready ++ List.replicate (64 * 3 + 2) (.reader lowRng)) = some (s, out) ∧ Stalled s := by
  have hfacts : (run (step none)
      (State.new (List.replicate 66 [1, 0, 0, 0, 0, 1, 0, 0]).flatten)
      (ready ++ List.replicate (64 * 3 + 2) (.reader lowRng))).map (fun r =>
          (r.1.tcp.reader, (r.1.tcp.shared.channels 0).send [], r.1.handlers 0)) =
      some (.sending 0 [], none, .opened 1 0 .connecting) := by
    decide +kernel
  obtain ⟨⟨s, out⟩, hrun, hfacts⟩ := Option.map_eq_some_iff.1 hfacts
  obtain ⟨hreader, hfacts⟩ := Prod.mk.inj hfacts
  obtain ⟨hfull, hhandler⟩ := Prod.mk.inj hfacts
  exact ⟨s, out, hrun, 0, 0, [], hreader, hfull, 1, .connecting, hhandler, by decide⟩

end Fogged.Spec.MuxPool
