import Fogged.Spec.CdnStream

/-!
# The CDN downlink

All streams together: a step of one stream is not noticed by the others, because no
two of them have the same id. The handler takes its stream out of the table when
either direction has ended; the invariant needs that the server has closed the stream
by then.

## Key results

- `downlink_step`: what one step preserves
- `Downlink.drains`: what the server has sent can always be written
- `downlink_delivers`: every run in which the server closes before the handler removes
- `downlink_drops_after_half_close`: a client that half-closes loses what comes later
-/

namespace Fogged.Spec.Cdn

open Fogged.Native Fogged.Native.CdnMode
open Machine

/-! ## All streams -/

/-- The table leads to the handler that has taken the id. -/
structure Table (s : State) : Prop where
  distinct : Distinct s
  entry : ∀ sid h, s.streams.lookup sid = some h → sid? (s.handlers h) = some sid
  target : ∀ h payload, s.reader = .sending h payload → sid? (s.handlers h) ≠ none

/-- An id, once taken, is kept. -/
theorem Step.sid_mono {s t : State} {e : Event} {o : List Effect} (hstep : Step s e t o)
    {h : HandlerId} {sid : UInt32} (hsid : sid? (s.handlers h) = some sid) :
    sid? (t.handlers h) = some sid := by
  obtain heq | ⟨_, _, hneg, _⟩ := hstep.sid h
  · rw [heq, hsid]
  · rw [hneg] at hsid
    cases hsid

/-- An entry that is left after a removal was there, with another id. -/
theorem lookup_erase {streams : Finmap fun _ : UInt32 => HandlerId} {sid sid' : UInt32}
    {h : HandlerId} (hlookup : (streams.erase sid').lookup sid = some h) :
    sid ≠ sid' ∧ streams.lookup sid = some h := by
  by_cases heq : sid = sid'
  · subst heq
    rw [Finmap.lookup_erase] at hlookup
    cases hlookup
  · rw [Finmap.lookup_erase_ne heq] at hlookup
    exact ⟨heq, hlookup⟩

/-- **One step.** Ids stay distinct, and an entry leads to its handler. -/
theorem table_step {s t : State} {e : Event} {o : List Effect} (hs : Table s)
    (hunused : ∀ h bytes, e = .request h bytes → Unused s) (hstep : Step s e t o) : Table t := by
  refine ⟨distinct_step hs.distinct hunused hstep, fun sid h hlookup => ?_, fun h payload hr => ?_⟩
  · have hmono (hsid : sid? (s.handlers h) = some sid) : sid? (t.handlers h) = some sid :=
      hstep.sid_mono hsid
    cases hstep with
    -- only `register` puts an entry in, and it is for the handler's own id
    | @register g st frame hst hmain hlock =>
      by_cases heq : sid = st.sid
      · subst heq
        rw [show (s.streams.insert st.sid g).lookup st.sid = some g from
          Finmap.lookup_insert _] at hlookup
        cases hlookup
        exact hmono (sid?_stream hst)
      · rw [show (s.streams.insert st.sid g).lookup sid = s.streams.lookup sid from
          Finmap.lookup_insert_of_ne _ heq] at hlookup
        exact hmono (hs.entry sid h hlookup)
    | remove _ _ _ => exact hmono (hs.entry sid h (lookup_erase hlookup).2)
    | closed _ => exact hmono (hs.entry sid h (lookup_erase hlookup).2)
    | _ => exact hmono (hs.entry sid h hlookup)
  · have hkeep (hsid : sid? (s.handlers h) ≠ none) : sid? (t.handlers h) ≠ none := by
      obtain ⟨sid, hsid⟩ := Option.ne_none_iff_exists'.1 hsid
      rw [hstep.sid_mono hsid]
      simp
    cases hstep with
    -- the reader takes its target from the table
    | found _ hlookup =>
      cases hr
      exact hkeep (by rw [hs.entry _ _ hlookup]; simp)
    | aside _ _ => exact hkeep (hs.target h payload hr)
    | opens _ => exact hkeep (hs.target h payload hr)
    | register _ _ _ => exact hkeep (hs.target h payload hr)
    | act _ _ => exact hkeep (hs.target h payload hr)
    | remove _ _ _ => exact hkeep (hs.target h payload hr)
    | other _ _ => exact hkeep (hs.target h payload hr)
    | _ => cases hr

/-- The condition on a step: the next stream id is an unused one, writes to a client
    succeed, the server speaks of a stream only after its StreamOpen, and a handler
    removes its stream only when the server's StreamClose has removed it. -/
def ClosedByServer (s : State) : Event → Prop
  | .request _ _ => Unused s
  | .act _ a => Succeeds a
  | .remove h => ∀ st, s.handlers h = .stream st → s.holds st.sid h = false
  | .incoming message =>
    match incoming message with
    | .data sid _ | .close sid =>
      ∃ h st, s.handlers h = .stream st ∧ st.sid = sid ∧ opened st.main = true
    | .other => True
  | _ => True

/-- The stream the reader has a message for. -/
def Reader.about : Reader → Option UInt32
  | .routing sid _ | .closing sid => some sid
  | .reading | .sending _ _ | .stopped => none

/-- Nothing of any stream gets lost. -/
structure Downlink (s : State) (out : List Effect) : Prop where
  table : Table s
  carried : ∀ h st, stream? (s.handlers h) = some st → Carried (view s out h st)
  asked : ∀ sid, Reader.about s.reader = some sid → ∃ h, sid? (s.handlers h) = some sid
  unused : ∀ sid, (∀ h, sid? (s.handlers h) ≠ some sid) → track sid out = .new
  blank : ∀ h, sid? (s.handlers h) = none → written h out = []

/-- At the start there are no streams. -/
theorem downlink_new : Downlink State.new [] where
  table := {
    distinct := distinct_new
    entry := fun sid h hlookup => by cases hlookup
    target := fun h payload hr => by cases hr }
  carried h st hst := by cases hst
  asked sid h := by cases h
  unused sid _ := rfl
  blank h _ := rfl

/-! ## Steps -/

/-- A step that does not concern a stream. -/
theorem view_congr {s t : State} {past o : List Effect} {h : HandlerId} {st : Stream}
    (hheld : t.streams.lookup st.sid = s.streams.lookup st.sid)
    (hnear : near t.reader h st.sid = near s.reader h st.sid)
    (htrack : o.foldl (follow st.sid) (track st.sid past) = track st.sid past)
    (hwritten : written h o = []) : view t (past ++ o) h st = view s past h st := by
  rw [view, State.holds, hheld, hnear, track_append, htrack, written_append, hwritten,
    List.append_nil]
  rfl

/-- What one stream does is not noticed by the others. -/
theorem follow_of_effects {h : HandlerId} {sid sid' : UInt32} {o : List Effect} {k : Track}
    (ho : ∀ e ∈ o, (∃ message, e = .sent message ∧ messageId message = sid) ∨
      ∃ bytes, e = .wrote h bytes) (hne : sid' ≠ sid) : o.foldl (follow sid') k = k := by
  induction o with
  | nil => rfl
  | cons e o ih =>
    have he : follow sid' k e = k := by
      obtain ⟨message, rfl, hid⟩ | ⟨bytes, rfl⟩ := ho e List.mem_cons_self
      · rw [follow, if_neg fun h => hne (h.1.symm.trans hid)]
      · rfl
    rw [List.foldl_cons, he]
    exact ih fun e he => ho e (List.mem_cons_of_mem _ he)

/-- Nor does it write to their clients. -/
theorem written_of_effects {h h' : HandlerId} {sid : UInt32} {o : List Effect}
    (ho : ∀ e ∈ o, (∃ message, e = .sent message ∧ messageId message = sid) ∨
      ∃ bytes, e = .wrote h bytes) (hne : h' ≠ h) : written h' o = [] := by
  rw [written, List.filterMap_eq_nil_iff.2]
  · rfl
  · intro e he
    obtain ⟨message, rfl, -⟩ | ⟨bytes, rfl⟩ := ho e he
    · rfl
    · rw [wroteTo, if_neg hne.symm]

/-- What the server sends before StreamOpen does not count. -/
theorem follow_received_new (sid : UInt32) (message : List UInt8) :
    follow sid .new (.received message) = .new := by
  rw [follow]
  split
  · rw [if_neg fun h => by cases h.2]
  · rw [if_neg fun h => by cases h.2]
  · rfl

/-- The parts of `Downlink` that do not depend on how a single stream goes on. -/
theorem Downlink.next {s t : State} {e : Event} {past o : List Effect} (hs : Downlink s past)
    (hstep : Step s e t o) (htable : Table t)
    (hcarried : ∀ h st, stream? (t.handlers h) = some st → Carried (view t (past ++ o) h st))
    (hasked : ∀ sid, Reader.about t.reader = some sid →
      Reader.about s.reader = some sid ∨ ∃ h, sid? (t.handlers h) = some sid)
    (htrack : ∀ sid, (∀ h, sid? (t.handlers h) ≠ some sid) → o.foldl (follow sid) .new = .new)
    (hwritten : ∀ h, sid? (t.handlers h) = none → written h o = []) : Downlink t (past ++ o) where
  table := htable
  carried := hcarried
  asked sid habout := by
    obtain habout | hused := hasked sid habout
    · obtain ⟨h, hsid⟩ := hs.asked sid habout
      exact ⟨h, hstep.sid_mono hsid⟩
    · exact hused
  unused sid hunused := by
    -- an id that is unused now was unused before
    have hbefore : track sid past = .new :=
      hs.unused sid fun h hsid => hunused h (hstep.sid_mono hsid)
    rw [track_append, hbefore, htrack sid hunused]
  blank h hnone := by
    have hbefore : sid? (s.handlers h) = none := by
      cases hsid : sid? (s.handlers h) with
      | none => rfl
      | some sid =>
        rw [hstep.sid_mono hsid] at hnone
        cases hnone
    rw [written_append, hs.blank h hbefore, hwritten h hnone]
    rfl

/-- A step that does not concern a stream keeps what is carried for it. -/
theorem Downlink.frame {s t : State} {past o : List Effect} (hs : Downlink s past)
    {h : HandlerId} {st : Stream} (hst : stream? (s.handlers h) = some st)
    (hheld : t.streams.lookup st.sid = s.streams.lookup st.sid)
    (hnear : near t.reader h st.sid = near s.reader h st.sid)
    (htrack : o.foldl (follow st.sid) (track st.sid past) = track st.sid past)
    (hwritten : written h o = []) : Carried (view t (past ++ o) h st) := by
  rw [view_congr hheld hnear htrack hwritten]
  exact hs.carried h st hst

/-- A change of one stream, with what it does to the table: the other streams do not
    notice it. -/
theorem Downlink.update {s t : State} {past o : List Effect} (hs : Downlink s past)
    {g : HandlerId} {st st' : Stream} (hst : s.handlers g = .stream st)
    (ht : t.handlers = (s.setHandler g (.stream st')).handlers)
    (hreader : ∀ h sid, h ≠ g → sid ≠ st.sid → near t.reader h sid = near s.reader h sid)
    (hstreams : ∀ sid, sid ≠ st.sid → t.streams.lookup sid = s.streams.lookup sid)
    (ho : ∀ e ∈ o, (∃ message, e = .sent message ∧ messageId message = st.sid) ∨
      ∃ bytes, e = .wrote g bytes)
    (hself : Carried (view t (past ++ o) g st')) (h : HandlerId) (st'' : Stream)
    (hst'' : stream? (t.handlers h) = some st'') : Carried (view t (past ++ o) h st'') := by
  rw [ht] at hst''
  obtain ⟨rfl, heq⟩ | ⟨hne, heq⟩ := stream?_setHandler hst''
  · cases heq
    exact hself
  · have hsid : st''.sid ≠ st.sid := hs.table.distinct.sid_ne heq (stream?_stream hst) hne
    exact hs.frame heq (hstreams _ hsid) (hreader h _ hne hsid) (follow_of_effects ho hsid)
      (written_of_effects ho hne)

/-- A task of a stream goes on. -/
theorem Downlink.act {s : State} {past o : List Effect} (hs : Downlink s past) {g : HandlerId}
    {a : Act} {st st' : Stream} (hst : s.handlers g = .stream st)
    (hact : st.act g (s.holds st.sid g) a = some (st', o)) (ha : Succeeds a)
    (htable : Table (s.setHandler g (.stream st'))) :
    Downlink (s.setHandler g (.stream st')) (past ++ o) := by
  have hv := hs.carried g st (stream?_stream hst)
  have ho := act_effects (fun frame hmain => (hv.frame frame (.inr hmain)).1) hact
  have hsid := act_sid hact
  have hused : sid? ((s.setHandler g (.stream st')).handlers g) = some st.sid := by
    simp only [State.setHandler, Function.update_self]
    rw [← hsid]
    rfl
  refine hs.next (.act hst hact) htable (hs.update hst rfl (fun _ _ _ _ => rfl)
    (fun _ _ => rfl) ho ?_) (fun _ h => .inl h) ?_ ?_
  · -- the stream's own view follows its act
    have hview : view (s.setHandler g (.stream st')) (past ++ o) g st' =
        { view s past g st with
          st := st'
          track := o.foldl (follow st.sid) (track st.sid past)
          written := written g past ++ written g o } := by
      simp only [view, hsid, track_append, written_append]
      rfl
    rw [hview]
    exact carried_act hv ha hact
  · -- an id nobody has is not the stream's
    intro sid hunused
    refine follow_of_effects ho ?_
    rintro rfl
    exact hunused g hused
  · intro h hnone
    refine written_of_effects ho ?_
    rintro rfl
    rw [hused] at hnone
    cases hnone

/-- A new stream: nobody has its id, so the table, the reader and the history know
    nothing of it. -/
theorem Downlink.opens {s t : State} {past : List Effect} (hs : Downlink s past)
    (hunused : Unused s) {g : HandlerId} {host : Handshake.Text} {port : UInt16}
    (hneg : s.handlers g = .negotiating)
    (ht : t.handlers = (s.setHandler g (.stream (.new s.nextId host port))).handlers)
    (hreader : t.reader = s.reader) (hstreams : t.streams = s.streams) (h : HandlerId)
    (st : Stream) (hst : stream? (t.handlers h) = some st) :
    Carried (view t (past ++ []) h st) := by
  have hnone : sid? (s.handlers g) = none := by
    rw [hneg]
    rfl
  rw [ht] at hst
  obtain ⟨rfl, heq⟩ | ⟨hne, heq⟩ := stream?_setHandler hst
  · cases heq
    -- the table has no entry for an id that nobody has
    have hheld : t.holds s.nextId h = false := by
      rw [State.holds, hstreams, decide_eq_false_iff_not]
      intro hlookup
      exact hunused h (hs.table.entry _ _ hlookup)
    have habout : Reader.about s.reader ≠ some s.nextId := by
      intro habout
      obtain ⟨h', hsid⟩ := hs.asked _ habout
      exact hunused h' hsid
    -- the reader is away: whatever it is about has an owner already
    have hnear : near t.reader h s.nextId = .away := by
      rw [hreader]
      cases hr : s.reader with
      | routing sid payload => exact if_neg fun heq => habout (by rw [hr, ← heq]; rfl)
      | sending g' payload =>
        exact if_neg fun heq => hs.table.target g' payload hr (by rw [heq]; exact hnone)
      | closing sid => exact if_neg fun heq => habout (by rw [hr, ← heq]; rfl)
      | reading => rfl
      | stopped => rfl
    have hview : view t (past ++ []) h (.new s.nextId host port) =
        ⟨.new s.nextId host port, false, .away, .new, []⟩ := by
      rw [view, List.append_nil, hs.blank h hnone]
      simp only [Stream.new, hheld, hnear, hs.unused _ hunused]
    rw [hview]
    exact carried_new s.nextId host port
  · exact hs.frame heq (by rw [hstreams]) (by rw [hreader]) rfl rfl

/-- The reader gets a message about stream `sid`, which is the one the condition
    names. -/
theorem Downlink.message {s : State} {past : List Effect} (hs : Downlink s past)
    {message : List UInt8} {sid : UInt32} {reader : Reader} (hreader : s.reader = .reading)
    (hopened : ∃ h st, s.handlers h = .stream st ∧ st.sid = sid ∧ opened st.main = true)
    (hself : ∀ h (v : View), Carried v → v.near = .away → opened v.st.main = true → v.st.sid = sid →
      Carried { v with
        near := near reader h v.st.sid
        track := follow v.st.sid v.track (.received message) })
    (hother : ∀ h sid', sid' ≠ sid →
      near reader h sid' = .away ∧ ∀ k, follow sid' k (.received message) = k)
    (h : HandlerId) (st : Stream) (hst : stream? (s.handlers h) = some st) :
    Carried (view { s with reader } (past ++ [.received message]) h st) := by
  have haway : near s.reader h st.sid = .away := by
    rw [hreader]
    rfl
  by_cases heq : st.sid = sid
  · obtain ⟨g, st', hst', hsid, hopened⟩ := hopened
    -- two handlers never share an id
    obtain rfl : h = g := by
      by_contra hne
      exact hs.table.distinct.sid_ne hst (stream?_stream hst') hne (heq.trans hsid.symm)
    rw [stream?_stream hst'] at hst
    cases hst
    have hview : view { s with reader } (past ++ [.received message]) h st =
        { view s past h st with
          near := near reader h st.sid
          track := follow st.sid (track st.sid past) (.received message) } := by
      simp [view, track_append, written, wroteTo, State.holds]
    rw [hview]
    exact hself h _ (hs.carried h st (stream?_stream hst')) haway hopened heq
  · obtain ⟨hnear, hfollow⟩ := hother h st.sid heq
    exact hs.frame hst rfl (hnear.trans haway.symm) (hfollow _) rfl

/-- A message about a stream that is open. -/
theorem Downlink.incoming {s : State} {past : List Effect} (hs : Downlink s past)
    {message : List UInt8} {sid : UInt32} {reader : Reader}
    (hstep : Step s (.incoming message) { s with reader } [.received message])
    (htable : Table { s with reader }) (hreader : s.reader = .reading)
    (habout : Reader.about reader = some sid)
    (hopened : ∃ h st, s.handlers h = .stream st ∧ st.sid = sid ∧ opened st.main = true)
    (hself : ∀ h (v : View), Carried v → v.near = .away → opened v.st.main = true → v.st.sid = sid →
      Carried { v with
        near := near reader h v.st.sid
        track := follow v.st.sid v.track (.received message) })
    (hother : ∀ h sid', sid' ≠ sid →
      near reader h sid' = .away ∧ ∀ k, follow sid' k (.received message) = k) :
    Downlink { s with reader } (past ++ [.received message]) := by
  refine hs.next hstep htable (hs.message hreader hopened hself hother) (fun sid' hsid' => ?_)
    (fun sid _ => follow_received_new sid message) fun _ _ => rfl
  obtain ⟨h, st, hst, rfl, -⟩ := hopened
  cases habout.symm.trans hsid'
  exact .inr ⟨h, sid?_stream hst⟩

/-- The reader has looked up a stream. -/
theorem Downlink.found {s : State} {past : List Effect} (hs : Downlink s past) {sid : UInt32}
    {payload : List UInt8} {g : HandlerId} (hreader : s.reader = .routing sid payload)
    (hlookup : s.streams.lookup sid = some g) (h : HandlerId) (st : Stream)
    (hst : stream? (s.handlers h) = some st) :
    Carried (view { s with reader := .sending g payload } (past ++ []) h st) := by
  have hsid : sid? (s.handlers h) = some st.sid := by
    rw [sid?, hst]
    rfl
  by_cases heq : h = g
  · subst heq
    -- the entry that was found is the one of the handler's own stream
    obtain rfl : sid = st.sid := Option.some.inj ((hs.table.entry _ _ hlookup).symm.trans hsid)
    have hfound := (hs.carried h st hst).found payload
      (by simp [view, near, hreader]) (by simp [view, State.holds, hlookup])
    rw [List.append_nil]
    simpa [view, near, State.holds] using hfound
  · have hne : sid ≠ st.sid := by
      rintro rfl
      exact heq (hs.table.distinct h g _ hsid (hs.table.entry _ _ hlookup))
    refine hs.frame hst rfl ?_ rfl rfl
    simp [near, hreader, hne, Ne.symm heq]

/-- There was no such stream. -/
theorem Downlink.missed {s : State} {past : List Effect} (hs : Downlink s past) {sid : UInt32}
    {payload : List UInt8} (hreader : s.reader = .routing sid payload)
    (hlookup : s.streams.lookup sid = none) (h : HandlerId) (st : Stream)
    (hst : stream? (s.handlers h) = some st) :
    Carried (view { s with reader := .reading } (past ++ []) h st) := by
  by_cases heq : sid = st.sid
  · subst heq
    have hmissed := (hs.carried h st hst).missed payload
      (by simp [view, near, hreader]) (by simp [view, State.holds, hlookup])
    rw [List.append_nil]
    simpa [view, near, State.holds] using hmissed
  · refine hs.frame hst rfl ?_ rfl rfl
    simp [near, hreader, heq]

/-- A stream is removed for the server. -/
theorem Downlink.closed {s : State} {past : List Effect} (hs : Downlink s past) {sid : UInt32}
    (hreader : s.reader = .closing sid) (h : HandlerId) (st : Stream)
    (hst : stream? (s.handlers h) = some st) :
    Carried (view { s with streams := s.streams.erase sid, reader := .reading } (past ++ []) h st) := by
  by_cases heq : sid = st.sid
  · subst heq
    have hdrop := (hs.carried h st hst).drop (by simp [view, near, hreader])
    rw [List.append_nil]
    simpa [view, near, State.holds] using hdrop
  · refine hs.frame hst (Finmap.lookup_erase_ne (Ne.symm heq)) ?_ rfl rfl
    simp [near, hreader, heq]

/-- What one allowed step preserves. -/
theorem downlink_step {s t : State} {e : Event} {past o : List Effect} (hs : Downlink s past)
    (hallowed : ClosedByServer s e) (hstep : Step s e t o) : Downlink t (past ++ o) := by
  have htable : Table t := by
    refine table_step hs.table (fun h bytes he => ?_) hstep
    subst he
    exact hallowed
  -- most steps have no effect, and the reader is about no other stream than before
  have hnext (ho : o = [])
      (hcarried : ∀ h st, stream? (t.handlers h) = some st → Carried (view t (past ++ o) h st))
      (hasked : ∀ sid, Reader.about t.reader = some sid → Reader.about s.reader = some sid) :
      Downlink t (past ++ o) :=
    hs.next hstep htable hcarried (fun sid h => .inl (hasked sid h)) (fun _ _ => by rw [ho]; rfl)
      (fun _ _ => by rw [ho]; rfl)
  cases hstep with
  | @aside _ g handler hnone hnone' =>
    refine hnext rfl (fun h st hst => ?_) fun _ h => h
    obtain ⟨-, hst⟩ | ⟨-, hst⟩ := stream?_setHandler hst
    · rw [hnone'] at hst
      cases hst
    · exact hs.frame hst rfl rfl rfl rfl
  | opens hneg => exact hnext rfl (hs.opens hallowed hneg rfl rfl rfl) fun _ h => h
  -- the table now has the stream's sender
  | @register g st frame hst hmain hlock =>
    refine hnext rfl (hs.update hst rfl (fun _ _ _ _ => rfl)
      (fun sid hne => Finmap.lookup_insert_of_ne _ hne) (by simp) ?_) fun _ h => h
    have hregister := (hs.carried g st (stream?_stream hst)).register hmain
    rw [List.append_nil]
    simpa [view, State.setHandler, State.holds] using hregister
  | act hst hact => exact hs.act hst hact hallowed htable
  | @remove g st hst hmain hlock =>
    refine hnext rfl (hs.update hst rfl (fun _ _ _ _ => rfl)
      (fun sid hne => Finmap.lookup_erase_ne hne) (by simp) ?_) fun _ h => h
    -- the condition: the server has closed the stream, so the reader has removed its entry
    have hgone : s.streams.lookup st.sid ≠ some g := of_decide_eq_false (hallowed st hst)
    have hremove := (hs.carried g st (stream?_stream hst)).phase (.returned true) st.up
      (by rw [show (view s past g st).st.main = _ from hmain]; rfl)
      (by rw [show (view s past g st).st.main = _ from hmain]; rfl) (by simp)
    rw [List.append_nil]
    simpa [view, State.setHandler, State.holds, hgone] using hremove
  | @data message sid payload hreader hmessage =>
    have hopened : ∃ h st, s.handlers h = .stream st ∧ st.sid = sid ∧ opened st.main = true := by
      simpa [ClosedByServer, hmessage] using hallowed
    refine hs.incoming (.data hreader hmessage) htable hreader rfl hopened ?_ fun h sid' hne => ?_
    · rintro h v hv haway hmain rfl
      simpa [near] using hv.data haway hmain hmessage
    · simp [near, follow, hmessage, Ne.symm hne]
  | @close message sid hreader hmessage =>
    have hopened : ∃ h st, s.handlers h = .stream st ∧ st.sid = sid ∧ opened st.main = true := by
      simpa [ClosedByServer, hmessage] using hallowed
    refine hs.incoming (.close hreader hmessage) htable hreader rfl hopened ?_ fun h sid' hne => ?_
    · rintro h v hv haway hmain rfl
      simpa [near] using hv.close haway hmain hmessage
    · simp [near, follow, hmessage, Ne.symm hne]
  | @other message hreader hmessage =>
    -- neither data nor a close frame: the message is about no stream
    refine hs.next (.other hreader hmessage) htable (fun h st hst => ?_) (fun _ h => .inl h)
      (fun sid _ => follow_received_new sid message) fun _ _ => rfl
    exact hs.frame hst rfl rfl (by simp [follow, hmessage]) rfl
  | stop hreader =>
    refine hnext rfl (fun h st hst => hs.frame hst rfl ?_ rfl rfl) fun _ h => by cases h
    rw [hreader]
    rfl
  | found hreader hlookup =>
    exact hnext rfl (hs.found hreader hlookup) fun _ h => by cases h
  | missed hreader hlookup =>
    exact hnext rfl (hs.missed hreader hlookup) fun _ h => by cases h
  | @delivered g payload st chan ok hreader hst hsend =>
    refine hnext rfl (hs.update hst rfl (fun h sid hne _ => ?_) (fun _ _ => rfl) (by simp) ?_)
      fun _ h => by cases h
    · simp [near, hreader, Ne.symm hne]
    · -- the payload moves from the reader into the channel
      have hdeliver := (hs.carried g st (stream?_stream hst)).deliver
        (by simp [view, near, hreader]) hsend
      rw [List.append_nil]
      exact hdeliver
  | closed hreader => exact hnext rfl (hs.closed hreader) fun _ h => by cases h

/-! ## Progress -/

/-- Steps until the tasks are spawned, -/
def mainWork : Main → Nat
  | .replying => 1
  | _ => 0

/-- until the downstream task has written what it has in hand, -/
def dnWork : Dn → Nat
  | .writing _ => 1
  | .idle | .receiving | .ended => 0

/-- and until a payload that the reader has is written. -/
def nearWork : Near → Nat
  | .routing _ => 4
  | .sending _ => 3
  | .away | .closing => 0

/-- How many steps are at most left until nothing of a stream is pending. -/
def work (v : View) : Nat :=
  mainWork v.st.main + dnWork v.st.dn + 2 * v.st.chan.queue.length + nearWork v.near

/-- A step that handler `h` and the reader can do by themselves: it needs no message
    and fulfils the condition, and there is less to do afterwards. -/
structure Advances (wl : Option Whitelist) (s : State) (out : List Effect) (h : HandlerId)
    (st : Stream) (e : Event) (t : State) (o : List Effect) (st' : Stream) : Prop where
  step : step wl s e = some (t, o)
  own : e = .dispatch ∨ ∃ a, e = .act h a
  allowed : ClosedByServer s e
  unheard : ∀ message, .received message ∉ o
  stream : t.handlers h = .stream st'
  sid : st'.sid = st.sid
  opened : opened st'.main = true
  less : work (view t (out ++ o) h st') < work (view s out h st)

/-- The reader has looked at this stream's message. -/
theorem near_eq_routing {reader : Reader} {h : HandlerId} {sid : UInt32} {payload : List UInt8}
    (hnear : near reader h sid = .routing payload) : reader = .routing sid payload := by
  cases reader <;> simp only [near] at hnear <;> (try split at hnear) <;> cases hnear
  rename_i heq
  rw [heq]

/-- The reader waits for this stream's channel. -/
theorem near_eq_sending {reader : Reader} {h : HandlerId} {sid : UInt32} {payload : List UInt8}
    (hnear : near reader h sid = .sending payload) : reader = .sending h payload := by
  cases reader <;> simp only [near] at hnear <;> (try split at hnear) <;> cases hnear
  rename_i heq
  rw [heq]

/-- A step of one of the stream's tasks. -/
theorem step_act {wl : Option Whitelist} {s : State} {h : HandlerId} {st st' : Stream} {a : Act}
    {o : List Effect} (hst : s.handlers h = .stream st)
    (hact : st.act h (s.holds st.sid h) a = some (st', o)) :
    step wl s (.act h a) = some (s.setHandler h (.stream st'), o) := by
  rw [step, hst]
  simp only
  rw [hact]
  rfl

/-- An action of the handler is such a step, if it leaves less to do. -/
theorem advances_act {wl : Option Whitelist} {s : State} {out : List Effect} {h : HandlerId}
    {st : Stream} (a : Act) (st' : Stream) (o : List Effect) (hst : s.handlers h = .stream st)
    (hact : st.act h (s.holds st.sid h) a = some (st', o)) (ha : Succeeds a)
    (ho : ∀ message, .received message ∉ o) (hopened : opened st'.main = true)
    (hless : work (view (s.setHandler h (.stream st')) (out ++ o) h st') <
      work (view s out h st)) :
    ∃ e t o st', Advances wl s out h st e t o st' :=
  ⟨.act h a, s.setHandler h (.stream st'), o, st', {
    step := step_act hst hact
    own := .inr ⟨a, rfl⟩
    allowed := ha
    unheard := ho
    stream := Function.update_self h _ s.handlers
    sid := act_sid hact
    opened := hopened
    less := hless }⟩

/-- What the reader holds for this stream it can pass on: the entry of the table is still there
    when it looks, and the empty channel has room. -/
theorem Downlink.advances_reader (wl : Option Whitelist) {s : State} {out : List Effect}
    (hs : Downlink s out) {h : HandlerId} {st : Stream} (hst : s.handlers h = .stream st)
    (hopened : opened st.main = true) (hqueue : st.chan.queue = [])
    (hreader : inReader (view s out h st) ≠ []) :
    ∃ t st', Advances wl s out h st .dispatch t [] st' := by
  have hv := hs.carried h st (stream?_stream hst)
  have hquiet (message : List UInt8) : Effect.received message ∉ ([] : List Effect) := by simp
  cases hnear : (view s out h st).near with
  | away => simp [inReader, hnear] at hreader
  | closing => simp [inReader, hnear] at hreader
  | routing payload =>
    have hheld : (view s out h st).held = true := by
      by_contra hheld
      simp [inReader, hnear, hheld] at hreader
    have hrouting := near_eq_routing hnear
    have hlookup : s.streams.lookup st.sid = some h := of_decide_eq_true hheld
    refine ⟨{ s with reader := .sending h payload }, st, ?_⟩
    exact {
      step := by simp [step, stepReader, hrouting, hlookup]
      own := .inl rfl
      allowed := trivial
      unheard := hquiet
      stream := hst
      sid := rfl
      opened := hopened
      less := by simp [work, nearWork, view, near, hrouting] }
  | sending payload =>
    have hsending := near_eq_sending hnear
    have hclosed : st.chan.closed = false := (hv.live (hv.sending payload hnear)).2
    have hcapacity : st.chan.capacity = 64 := hv.capacity
    refine ⟨{ s.setHandler h (.stream { st with chan := { st.chan with queue := [payload] } }) with
      reader := .reading }, { st with chan := { st.chan with queue := [payload] } }, ?_⟩
    exact {
      step := by
        simp [step, stepReader, hsending, hst, TcpReader.Channel.send, hclosed, hqueue, hcapacity]
      own := .inl rfl
      allowed := trivial
      unheard := hquiet
      stream := Function.update_self h _ s.handlers
      sid := rfl
      opened := hopened
      less := by simp [work, nearWork, view, near, hsending, hqueue, State.setHandler] }

/-- As long as something is pending there is such a step. -/
theorem Downlink.advances (wl : Option Whitelist) {s : State} {out : List Effect}
    (hs : Downlink s out) {h : HandlerId} {st : Stream} (hst : s.handlers h = .stream st)
    (hopened : opened st.main = true) (hpending : pending (view s out h st) ≠ []) :
    ∃ e t o st', Advances wl s out h st e t o st' := by
  have hv := hs.carried h st (stream?_stream hst)
  have hquiet (message : List UInt8) : Effect.received message ∉ ([] : List Effect) := by simp
  cases hdn : st.dn with
  | idle =>
    -- the tasks are spawned after the reply
    have hmain : st.main = .replying := replying_of_opened hopened (hv.idle.2 hdn)
    refine advances_act (.reply true)
      { st with main := .relaying, up := .reading, dn := .receiving } [] hst ?_ rfl hquiet rfl ?_
    · simp [Stream.act, hmain]
    · simp [work, mainWork, dnWork, view, hmain, hdn, State.setHandler]
  | writing bytes =>
    refine advances_act (.write true) { st with dn := .receiving } [.wrote h bytes] hst ?_ rfl
      (by simp) hopened ?_
    · simp [Stream.act, hdn]
    · simp [work, dnWork, view, hdn, State.setHandler]
  | receiving =>
    cases hqueue : st.chan.queue with
    | cons bytes queue =>
      refine advances_act .recv { st with dn := .writing bytes, chan := { st.chan with queue } } []
        hst ?_ trivial hquiet hopened ?_
      · simp [Stream.act, hdn, TcpReader.Channel.recv, hqueue]
      · simp only [work, dnWork, view, hdn, hqueue, State.setHandler, List.length_cons]
        omega
    | nil =>
      -- what is pending is in the reader's hands
      have hreader : inReader (view s out h st) ≠ [] := by
        simpa [pending, view, hdn, hqueue, inHand] using hpending
      obtain ⟨t, st', hadvances⟩ := hs.advances_reader wl hst hopened hqueue hreader
      exact ⟨.dispatch, t, [], st', hadvances⟩
  | ended => exact absurd (hv.pending_of_ended hdn) hpending

/-- Without messages from the server nothing more is owed to the client. -/
theorem served_of_unheard {sid : UInt32} {o : List Effect} (k : Track)
    (ho : ∀ message, .received message ∉ o) : (o.foldl (follow sid) k).served = k.served := by
  induction o generalizing k with
  | nil => rfl
  | cons e o ih =>
    have hserved : (follow sid k e).served = k.served := by
      cases e with
      | sent message =>
        rw [follow]
        split <;> rfl
      | received message => exact absurd List.mem_cons_self (ho message)
      | wrote h bytes => rfl
    rw [List.foldl_cons, ih _ fun message he => ho message (List.mem_cons_of_mem _ he), hserved]

/-- The handler and the reader alone bring a stream to a state in which all that the
    server has sent for it is written to the client. -/
def Drains (wl : Option Whitelist) (s : State) (out : List Effect) (h : HandlerId)
    (sid : UInt32) : Prop :=
  ∃ es t o, (∀ e ∈ es, e = .dispatch ∨ ∃ a, e = .act h a) ∧
    run (step wl) s es = some (t, o) ∧ written h (out ++ o) = (track sid out).served

/-- By induction on the work that is left. -/
theorem Downlink.drains {wl : Option Whitelist} {s : State} {out : List Effect}
    (hs : Downlink s out) {h : HandlerId} {st : Stream} (hst : s.handlers h = .stream st)
    (hopened : opened st.main = true) : Drains wl s out h st.sid := by
  induction hwork : work (view s out h st) using Nat.strong_induction_on
    generalizing s out st with
  | _ n ih =>
    -- nothing is pending, or there is a step of the stream's own that does some of the work
    by_cases hpending : pending (view s out h st) = []
    · refine ⟨[], s, [], by simp, rfl, ?_⟩
      have hserved := (hs.carried h st (stream?_stream hst)).conserved
      rw [hpending, List.append_nil] at hserved
      rw [List.append_nil]
      exact hserved.symm
    · obtain ⟨e, t, o, st', hadv⟩ := hs.advances wl hst hopened hpending
      have ht := downlink_step hs hadv.allowed (step_cases hadv.step)
      obtain ⟨es, u, o', hes, hrun, hwritten⟩ :=
        ih _ (hwork ▸ hadv.less) ht hadv.stream hadv.opened rfl
      refine ⟨e :: es, u, o ++ o', List.forall_mem_cons.2 ⟨hadv.own, hes⟩,
        run_cons_eq_some.2 ⟨t, o, o', hadv.step, hrun, rfl⟩, ?_⟩
      rw [← List.append_assoc, hwritten, track_append, hadv.sid,
        served_of_unheard _ hadv.unheard]

/-! ## Runs -/

/-- The downlink of a stream: what the server has sent between StreamOpen and
    StreamClose is what the client has got and what is on its way, in this order; all
    of it has been written when the downstream task has ended; and until then the
    client's side can always write what is still missing. -/
structure Delivered (wl : Option Whitelist) (s : State) (out : List Effect) (h : HandlerId)
    (st : Stream) : Prop where
  conserved : (track st.sid out).served = written h out ++ pending (view s out h st)
  complete : st.dn = .ended → written h out = (track st.sid out).served
  drains : (track st.sid out).life ≠ .before → Drains wl s out h st.sid

/-- Conservation, completeness and progress, from the invariant. -/
theorem Downlink.delivered {wl : Option Whitelist} {s : State} {out : List Effect}
    (hs : Downlink s out) {h : HandlerId} {st : Stream} (hst : s.handlers h = .stream st) :
    Delivered wl s out h st := by
  have hv := hs.carried h st (stream?_stream hst)
  refine ⟨hv.conserved, fun hdn => ?_, fun hlife => ?_⟩
  · have hserved := hv.conserved
    rw [hv.pending_of_ended hdn, List.append_nil] at hserved
    exact hserved.symm
  · refine hs.drains hst (Bool.eq_true_of_not_eq_false fun hopened => ?_)
    exact hlife (hv.started.2 hopened)

/-- **The downlink loses nothing** in every run in which no stream id is given out
    twice, the writes to the clients succeed, the server speaks of a stream only after
    its StreamOpen, and a handler removes its stream only when the server has closed
    it. -/
theorem downlink_delivers (wl : Option Whitelist) (es : List Event) (s : State)
    (out : List Effect) (hes : Allowed (step wl) ClosedByServer State.new es)
    (hrun : run (step wl) State.new es = some (s, out)) (h : HandlerId) (st : Stream)
    (hst : s.handlers h = .stream st) : Delivered wl s out h st := by
  have hs : Downlink s ([] ++ out) :=
    run_history_of_allowed (fun s past e t o hs hallowed hstep =>
      downlink_step hs hallowed (step_cases hstep)) [] downlink_new hes hrun
  exact Downlink.delivered hs hst

/-- A Data frame of the server. -/
def reply : List UInt8 := dataFrame 1 (Handshake.ascii "hello")

/-- A step on which the condition is fulfilled in every state. -/
def unconditional : Event → Bool
  | .register _ | .dispatch => true
  | .act _ (.reply ok) | .act _ (.write ok) => ok
  | .act _ _ => true
  | _ => false

/-- Most events fulfil the condition in every state. -/
theorem closedByServer_of_unconditional {e : Event} (he : unconditional e = true) (s : State) :
    ClosedByServer s e := by
  cases e with
  | act h a => cases a <;> trivial
  | register h | dispatch => trivial
  | _ => cases he

/-- A message of the server about an open stream, and what the client does with it. -/
theorem allowed_message {wl : Option Whitelist} {s : State} {h : HandlerId} {sid : UInt32}
    {message : List UInt8} {es : List Event}
    (hst : (stream? (s.handlers h)).map (fun st => (st.sid, opened st.main)) = some (sid, true))
    (hmessage : incoming message = .close sid ∨ ∃ payload, incoming message = .data sid payload)
    (hes : es.all unconditional = true) :
    Allowed (step wl) ClosedByServer s (.incoming message :: es) := by
  have hrest (e : Event) (he : e ∈ es) : ∀ s, ClosedByServer s e :=
    closedByServer_of_unconditional (List.all_eq_true.1 hes e he)
  refine ⟨?_, fun t o _ => allowed_of_forall hrest t⟩
  obtain ⟨st, hst, heq⟩ := Option.map_eq_some_iff.1 hst
  obtain ⟨hsid, hopened⟩ := Prod.mk.inj heq
  have hspoken : ∃ h st, s.handlers h = .stream st ∧ st.sid = sid ∧ opened st.main = true :=
    ⟨h, st, handlers_of_stream? hst, hsid, hopened⟩
  obtain hmessage | ⟨payload, hmessage⟩ := hmessage <;>
    simpa only [ClosedByServer, hmessage] using hspoken

/-- The server answers and closes the stream, and the handler follows. -/
theorem downlink_delivers_answer :
    ∃ s out st, run (step none) State.new (connect 0 ++
        ([.incoming reply, .dispatch, .dispatch, .act 0 .recv, .act 0 (.write true)] :
          List Event) ++
        ([.incoming (closeFrame 1), .dispatch, .act 0 .recv, .act 0 .select,
          .act 0 (.sendClose true)] : List Event) ++ ([.remove 0] : List Event)) = some (s, out) ∧
      s.handlers 0 = .stream st ∧ written 0 out = Handshake.ascii "hello" ∧
      Delivered none s out 0 st := by
  let answer : List Event := [.incoming reply, .dispatch, .dispatch, .act 0 .recv,
    .act 0 (.write true)]
  let close : List Event := [.incoming (closeFrame 1), .dispatch, .act 0 .recv, .act 0 .select,
    .act 0 (.sendClose true)]
  -- the states in which the condition says something
  have hconnect : (run (step none) State.new (connect 0)).map (fun r =>
      (stream? (r.1.handlers 0)).map fun st => (st.sid, opened st.main)) = some (some (1, true)) := by
    decide +kernel
  have hanswer : (run (step none) State.new (connect 0 ++ answer)).map (fun r =>
      (stream? (r.1.handlers 0)).map fun st => (st.sid, opened st.main)) = some (some (1, true)) := by
    decide +kernel
  have hclose : (run (step none) State.new (connect 0 ++ answer ++ close)).map (fun r =>
      ((stream? (r.1.handlers 0)).map Stream.sid, r.1.holds 1 0)) = some (some 1, false) := by
    decide +kernel
  let remove : List Event := [.remove 0]
  have hremove : (run (step none) State.new (connect 0 ++ answer ++ close ++ remove)).map
      (fun r => ((stream? (r.1.handlers 0)).isSome, written 0 r.2)) =
      some (true, Handshake.ascii "hello") := by
    decide +kernel
  -- the four runs, one after the other
  obtain ⟨⟨s₁, o₁⟩, hrun₁, hst₁⟩ := Option.map_eq_some_iff.1 hconnect
  obtain ⟨⟨s₂, o₂⟩, hrun₂, hst₂⟩ := Option.map_eq_some_iff.1 hanswer
  obtain ⟨⟨s₃, o₃⟩, hrun₃, hst₃⟩ := Option.map_eq_some_iff.1 hclose
  obtain ⟨⟨s₄, o₄⟩, hrun₄, hst₄⟩ := Option.map_eq_some_iff.1 hremove
  obtain ⟨hsid₃, hholds₃⟩ := Prod.mk.inj hst₃
  obtain ⟨hsome₄, hwritten₄⟩ := Prod.mk.inj hst₄
  obtain ⟨st, hst⟩ := Option.isSome_iff_exists.1 hsome₄
  have h₁ : Allowed (step none) ClosedByServer State.new (connect 0) :=
    ⟨unused_new, fun t o _ => allowed_of_forall (fun e he =>
      closedByServer_of_unconditional (List.all_eq_true.1 (by decide) e he)) t⟩
  have h₂ : Allowed (step none) ClosedByServer s₁ answer := by
    have hreply : incoming reply = .data 1 (Handshake.ascii "hello") := by decide +kernel
    exact allowed_message hst₁ (.inr ⟨_, hreply⟩) (by decide)
  have h₃ : Allowed (step none) ClosedByServer s₂ close := by
    have hclose : incoming (closeFrame 1) = .close 1 := by decide +kernel
    exact allowed_message hst₂ (.inl hclose) (by decide)
  -- the handler is removed after the server has closed
  have h₄ : Allowed (step none) ClosedByServer s₃ remove := by
    refine ⟨fun st hst => ?_, fun t o _ => trivial⟩
    rw [stream?_stream hst] at hsid₃
    rw [show st.sid = 1 from Option.some.inj hsid₃]
    exact hholds₃
  have hallowed := allowed_append (allowed_append (allowed_append h₁ hrun₁ h₂) hrun₂ h₃) hrun₃ h₄
  have hstream := handlers_of_stream? hst
  exact ⟨s₄, o₄, st, hrun₄, hstream, hwritten₄,
    downlink_delivers none _ s₄ o₄ hallowed hrun₄ 0 st hstream⟩

/-- **A half-close loses data**: the client ends its side, the handler closes and
    removes the stream, and what the server sends then is dropped. -/
theorem downlink_drops_after_half_close :
    ∃ s out st, run (step none) State.new (connect 0 ++ ([.act 0 (.read []), .act 0 .select,
        .act 0 (.sendClose true), .remove 0, .incoming reply, .dispatch, .act 0 .recv] :
          List Event)) = some (s, out) ∧ s.handlers 0 = .stream st ∧ ¬ Delivered none s out 0 st := by
  let es : List Event := connect 0 ++ ([.act 0 (.read []), .act 0 .select,
    .act 0 (.sendClose true), .remove 0, .incoming reply, .dispatch, .act 0 .recv] : List Event)
  -- the task has ended with nothing written, and the server has sent `hello`
  have hdone : (run (step none) State.new es).map (fun r =>
      ((stream? (r.1.handlers 0)).map fun st => (st.sid, st.dn), written 0 r.2,
        (track 1 r.2).served)) =
      some (some (1, .ended), [], Handshake.ascii "hello") := by
    decide +kernel
  obtain ⟨⟨s, out⟩, hrun, hfacts⟩ := Option.map_eq_some_iff.1 hdone
  obtain ⟨hstream, hfacts⟩ := Prod.mk.inj hfacts
  obtain ⟨hwritten, hserved⟩ := Prod.mk.inj hfacts
  obtain ⟨st, hst, hsid⟩ := Option.map_eq_some_iff.1 hstream
  obtain ⟨hsid, hdn⟩ := Prod.mk.inj hsid
  refine ⟨s, out, st, hrun, handlers_of_stream? hst, fun hdelivered => ?_⟩
  have hcomplete := hdelivered.complete hdn
  rw [hsid] at hcomplete
  exact absurd ((hwritten.symm.trans hcomplete).trans hserved) (by decide)

end Fogged.Spec.Cdn
