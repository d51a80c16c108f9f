import Fogged.Spec.CdnSteps

/-!
# CDN mode on the wire

The messages with one stream id have to be a StreamOpen, then Data frames, then at
most one StreamClose. `Follows` says what may have been sent when a stream is in a
given phase. The upstream task is not stopped when the handler leaves its `select!`,
so the order is kept only if that task has ended when StreamClose is sent.

## Key results

- `act_effects`, `follows_act`: what one step of a stream's tasks sends
- `wire_ordered`: every run in which StreamClose is sent after the upstream task ended
- `data_after_close`: a server that closes first gets Data after StreamClose
-/

namespace Fogged.Spec.Cdn

open Fogged.Native Fogged.Native.CdnMode
open Machine

/-! ## What is sent -/

/-- The stream id of a message. -/
def messageId (message : List UInt8) : UInt32 :=
  UInt32.ofNat (Bytes.ofBE ((message.drop 2).take 4))

/-- The id in the header of a message. -/
theorem messageId_header (type : UInt8) (sid : UInt32) (length : Nat) (payload : List UInt8) :
    messageId (header type sid length ++ payload) = sid := by
  have hdrop : (header type sid length ++ payload).drop 2 =
      Bytes.toBE 4 sid.toNat ++ (Bytes.toBE 2 length ++ payload) := by
    simp [header]
  have hfits : sid.toNat < 256 ^ 4 := sid.toNat_lt
  rw [messageId, hdrop, List.take_left' (Bytes.length_toBE 4 _), Bytes.ofBE_toBE hfits,
    UInt32.ofNat_toNat]

/-- The id of a StreamClose. -/
theorem messageId_closeFrame (sid : UInt32) : messageId (closeFrame sid) = sid := by
  rw [closeFrame, ← List.append_nil (header 2 sid 0)]
  exact messageId_header 2 sid 0 []

/-- The type of a message with the given stream id. -/
def sentType (sid : UInt32) : Effect → Option UInt8
  | .sent message => if messageId message = sid then message.head? else none
  | .received _ | .wrote _ _ => none

/-- The types of the messages sent with a stream id. -/
def types (sid : UInt32) (out : List Effect) : List UInt8 := out.filterMap (sentType sid)

/-- What has been sent, step by step. -/
theorem types_append (sid : UInt32) (past o : List Effect) :
    types sid (past ++ o) = types sid past ++ types sid o := List.filterMap_append

/-- A sent message counts for its own id. -/
theorem types_sent {message : List UInt8} {sid : UInt32} (hid : messageId message = sid) :
    types sid [.sent message] = message.head?.toList := by
  rw [types, List.filterMap_cons, sentType, if_pos hid]
  cases message.head? <;> rfl

/-- One StreamOpen, then Data. -/
def Opened (ts : List UInt8) : Prop := ∃ n, ts = 1 :: List.replicate n 0

/-- One StreamOpen, then Data, then at most one StreamClose; or nothing at all. -/
def Ordered (ts : List UInt8) : Prop :=
  ts = [] ∨ Opened ts ∨ ∃ n, ts = 1 :: List.replicate n 0 ++ [2]

/-- Data may follow. -/
theorem Opened.data {ts : List UInt8} (hts : Opened ts) : Opened (ts ++ [0]) := by
  obtain ⟨n, rfl⟩ := hts
  exact ⟨n + 1, by rw [List.cons_append, ← List.replicate_succ']⟩

/-- StreamClose may follow, and is the last. -/
theorem Opened.close {ts : List UInt8} (hts : Opened ts) : Ordered (ts ++ [2]) := by
  obtain ⟨n, rfl⟩ := hts
  exact .inr (.inr ⟨n, rfl⟩)

/-! ## One stream -/

/-- What may have been sent for a stream, by where its handler is. -/
def Follows (st : Stream) (ts : List UInt8) : Prop :=
  match st.main with
  | .registering frame | .opening frame =>
    messageId frame = st.sid ∧ frame.head? = some 1 ∧ st.up = .idle ∧ ts = []
  | .replying => st.up = .idle ∧ Opened ts
  | .relaying | .closing => Opened ts
  | .removing | .returned _ => Ordered ts ∧ (st.up = .idle ∨ st.up = .ended)

/-- Nothing has been sent for a new stream. -/
theorem follows_new (sid : UInt32) (host : Handshake.Text) (port : UInt16) :
    Follows (.new sid host port) [] :=
  ⟨messageId_header 1 sid _ _, rfl, rfl, rfl⟩

/-- In every phase the order has been kept. -/
theorem Follows.ordered {st : Stream} {ts : List UInt8} (hf : Follows st ts) : Ordered ts := by
  rw [Follows] at hf
  split at hf
  · exact .inl hf.2.2.2
  · exact .inl hf.2.2.2
  · exact .inr (.inl hf.2)
  · exact .inr (.inl hf)
  · exact .inr (.inl hf)
  · exact hf.1
  · exact hf.1

/-- The StreamOpen that is about to be sent has the id of its stream. -/
theorem Follows.frame {st : Stream} {ts frame : List UInt8} (hf : Follows st ts)
    (hmain : st.main = .opening frame) : messageId frame = st.sid := by
  rw [Follows, hmain] at hf
  exact hf.1

/-- The upstream task runs only between the reply and StreamClose. -/
theorem Follows.running {st : Stream} {ts : List UInt8} (hf : Follows st ts)
    (hidle : st.up ≠ .idle) (hended : st.up ≠ .ended) :
    Opened ts ∧ (st.main = .relaying ∨ st.main = .closing) := by
  rw [Follows] at hf
  split at hf
  · exact absurd hf.2.2.1 hidle
  · exact absurd hf.2.2.1 hidle
  · exact absurd hf.1 hidle
  · exact ⟨hf, .inl ‹_›⟩
  · exact ⟨hf, .inr ‹_›⟩
  · exact (hf.2.elim hidle hended).elim
  · exact (hf.2.elim hidle hended).elim

/-- There, whatever that task does next. -/
theorem follows_of_opened {st : Stream} {ts : List UInt8} (hts : Opened ts)
    (hmain : st.main = .relaying ∨ st.main = .closing) : Follows st ts := by
  rw [Follows]
  obtain hmain | hmain := hmain <;> rw [hmain] <;> exact hts

/-- What a stream's tasks do can be seen under the stream's id, or by its client. -/
theorem act_effects {h : HandlerId} {held : Bool} {st st' : Stream} {a : Act} {o : List Effect}
    (hframe : ∀ frame, st.main = .opening frame → messageId frame = st.sid)
    (hact : st.act h held a = some (st', o)) (e : Effect) (he : e ∈ o) :
    (∃ message, e = .sent message ∧ messageId message = st.sid) ∨ ∃ bytes, e = .wrote h bytes := by
  cases act_cases hact with
  | opened hmain => exact .inl ⟨_, List.mem_singleton.1 he, hframe _ hmain⟩
  | uploaded _ => exact .inl ⟨_, List.mem_singleton.1 he, messageId_header 0 st.sid _ _⟩
  | wrote _ => exact .inr ⟨_, List.mem_singleton.1 he⟩
  | closed _ => exact .inl ⟨_, List.mem_singleton.1 he, messageId_closeFrame st.sid⟩
  | _ => cases he

/-- Under another id nothing is sent. -/
theorem types_of_effects {h : HandlerId} {sid sid' : UInt32} {o : List Effect}
    (ho : ∀ e ∈ o, (∃ message, e = .sent message ∧ messageId message = sid) ∨
      ∃ bytes, e = .wrote h bytes) (hne : sid' ≠ sid) : types sid' o = [] := by
  refine List.filterMap_eq_nil_iff.2 fun e he => ?_
  obtain ⟨message, rfl, hid⟩ | ⟨bytes, rfl⟩ := ho e he
  · rw [sentType, if_neg (hid ▸ hne.symm)]
  · rfl

/-- One step of a stream's tasks, when StreamClose comes after the upstream task. -/
theorem follows_act {h : HandlerId} {held : Bool} {st st' : Stream} {a : Act} {o : List Effect}
    {ts : List UInt8} (hf : Follows st ts) (hclose : ∀ ok, a = .sendClose ok → st.up = .ended)
    (hact : st.act h held a = some (st', o)) : Follows st' (ts ++ types st.sid o) := by
  have hquiet (st' : Stream) (hf' : Follows st' ts) : Follows st' (ts ++ types st.sid []) := by
    rw [show types st.sid [] = [] from rfl, List.append_nil]
    exact hf'
  have hsent (st' : Stream) (message : List UInt8) (type : UInt8)
      (hid : messageId message = st.sid) (htype : message.head? = some type)
      (hf' : Follows st' (ts ++ [type])) : Follows st' (ts ++ types st.sid [.sent message]) := by
    rw [types_sent hid, htype]
    exact hf'
  cases act_cases hact with
  | @opened frame hmain =>
    simp only [Follows, hmain] at hf
    obtain ⟨hid, htype, hidle, rfl⟩ := hf
    exact hsent _ frame 1 hid htype ⟨hidle, 0, rfl⟩
  | refused hmain =>
    simp only [Follows, hmain] at hf
    obtain ⟨-, -, hidle, rfl⟩ := hf
    exact hquiet _ ⟨.inl rfl, .inl hidle⟩
  | spawned hmain =>
    simp only [Follows, hmain] at hf
    exact hquiet _ hf.2
  | unanswered hmain =>
    simp only [Follows, hmain] at hf
    exact hquiet _ ⟨.inr (.inl hf.2), .inl hf.1⟩
  -- as long as the upstream task runs, StreamOpen and Data frames are all there is
  | eof hup =>
    obtain ⟨hts, hmain⟩ := hf.running (by simp [hup]) (by simp [hup])
    exact hquiet _ (follows_of_opened hts hmain)
  | read hup _ _ =>
    obtain ⟨hts, hmain⟩ := hf.running (by simp [hup]) (by simp [hup])
    exact hquiet _ (follows_of_opened hts hmain)
  | @uploaded bytes hup =>
    obtain ⟨hts, hmain⟩ := hf.running (by simp [hup]) (by simp [hup])
    exact hsent _ _ 0 (messageId_header 0 st.sid _ bytes) rfl (follows_of_opened hts.data hmain)
  | unsent hup =>
    obtain ⟨hts, hmain⟩ := hf.running (by simp [hup]) (by simp [hup])
    exact hquiet _ (follows_of_opened hts hmain)
  -- the downstream task sends nothing
  | received _ _ => exact hquiet _ hf
  | drained _ _ _ => exact hquiet _ hf
  | wrote _ => exact hquiet _ hf
  | unwritten _ => exact hquiet _ hf
  | selected hmain _ =>
    simp only [Follows, hmain] at hf
    exact hquiet _ hf
  | closed hmain =>
    have hended : st.up = .ended := hclose true rfl
    simp only [Follows, hmain] at hf
    exact hsent _ _ 2 (messageId_closeFrame st.sid) rfl ⟨hf.close, .inr hended⟩
  | unclosed hmain =>
    have hended : st.up = .ended := hclose false rfl
    simp only [Follows, hmain] at hf
    exact hquiet _ ⟨.inr (.inl hf), .inr hended⟩

/-! ## All streams -/

/-- The order is kept on every stream id. -/
structure Wire (s : State) (out : List Effect) : Prop where
  distinct : Distinct s
  follows : ∀ h st, stream? (s.handlers h) = some st → Follows st (types st.sid out)
  unused : ∀ sid, (∀ h, sid? (s.handlers h) ≠ some sid) → types sid out = []

theorem wire_new : Wire State.new [] where
  distinct := distinct_new
  follows h st hst := by cases hst
  unused sid _ := rfl

/-- A step that sends nothing and changes no stream. -/
theorem Wire.frame {s t : State} {past o : List Effect} (hs : Wire s past) (hdistinct : Distinct t)
    (hstreams : ∀ h, stream? (t.handlers h) = stream? (s.handlers h))
    (ho : ∀ sid, types sid o = []) : Wire t (past ++ o) := by
  have hsid (h : HandlerId) : sid? (t.handlers h) = sid? (s.handlers h) := by
    rw [sid?, sid?, hstreams]
  have htypes (sid : UInt32) : types sid (past ++ o) = types sid past := by
    rw [types_append, ho, List.append_nil]
  refine ⟨hdistinct, ?_, ?_⟩
  · intro h st hst
    rw [htypes]
    exact hs.follows h st (hstreams h ▸ hst)
  · intro sid hunused
    rw [htypes]
    exact hs.unused sid fun h => hsid h ▸ hunused h

/-- A step of one stream, which sends under its own id only. -/
theorem Wire.update {s t : State} {past o : List Effect} (hs : Wire s past) (hdistinct : Distinct t)
    {h : HandlerId} {st st' : Stream} (hst : s.handlers h = .stream st)
    (ht : t.handlers = (s.setHandler h (.stream st')).handlers) (hsid : st'.sid = st.sid)
    (hself : Follows st' (types st.sid past ++ types st.sid o))
    (hothers : ∀ sid, sid ≠ st.sid → types sid o = []) : Wire t (past ++ o) := by
  have hsids (h' : HandlerId) : sid? (t.handlers h') = sid? (s.handlers h') := by
    rw [ht]
    exact sid?_setHandler ((congrArg some hsid).trans (sid?_stream hst).symm)
  refine ⟨hdistinct, ?_, ?_⟩
  · intro h' st'' hst''
    rw [ht] at hst''
    obtain ⟨rfl, heq⟩ | ⟨hne, heq⟩ := stream?_setHandler hst''
    · cases heq
      rw [types_append, hsid]
      exact hself
    · -- another handler's stream has another id
      have hother : st''.sid ≠ st.sid := hs.distinct.sid_ne heq (stream?_stream hst) hne
      rw [types_append, hothers _ hother, List.append_nil]
      exact hs.follows h' st'' heq
  · intro sid hunused
    have hne : sid ≠ st.sid := by
      rintro rfl
      exact hunused h (hsids h ▸ sid?_stream hst)
    rw [types_append, hothers sid hne, List.append_nil]
    exact hs.unused sid fun h' => hsids h' ▸ hunused h'

/-- A new stream under an unused id. -/
theorem Wire.opens {s t : State} {past : List Effect} (hs : Wire s past) (hdistinct : Distinct t)
    (hunused : Unused s) {h : HandlerId} {host : Handshake.Text} {port : UInt16}
    (hnone : stream? (s.handlers h) = none)
    (ht : t.handlers = (s.setHandler h (.stream (.new s.nextId host port))).handlers) :
    Wire t (past ++ []) := by
  rw [List.append_nil]
  refine ⟨hdistinct, ?_, ?_⟩
  · intro h' st hst
    rw [ht] at hst
    obtain ⟨rfl, heq⟩ | ⟨-, heq⟩ := stream?_setHandler hst
    · cases heq
      -- no message under an unused id has been sent
      rw [show types (Stream.new s.nextId host port).sid past = [] from
        hs.unused s.nextId hunused]
      exact follows_new s.nextId host port
    · exact hs.follows h' st heq
  · intro sid hsids
    refine hs.unused sid fun h' hsid => hsids h' ?_
    have hne : h' ≠ h := by
      rintro rfl
      rw [sid?, hnone] at hsid
      cases hsid
    rw [ht, State.setHandler]
    exact (congrArg sid? (Function.update_of_ne hne _ s.handlers)).trans hsid

/-- The condition on a step: the next stream id is an unused one, and StreamClose is
    sent when the upstream task has ended. -/
def ClosesLast (s : State) : Event → Prop
  | .request _ _ => Unused s
  | .act h (.sendClose _) => ∀ st, s.handlers h = .stream st → st.up = .ended
  | _ => True

/-- **One step.** What is sent has the id of the handler that sends it, so that only one
    stream's order is concerned. -/
theorem wire_step {s t : State} {e : Event} {past o : List Effect} (hs : Wire s past)
    (hallowed : ClosesLast s e) (hstep : Step s e t o) : Wire t (past ++ o) := by
  have hquiet (sid : UInt32) : types sid [] = [] := rfl
  have hdistinct : Distinct t := by
    refine distinct_step hs.distinct (fun h bytes he => ?_) hstep
    subst he
    exact hallowed
  cases hstep with
  | @aside _ h handler hnone hnone' =>
    refine hs.frame hdistinct (fun h' => ?_) hquiet
    by_cases hh : h' = h
    · subst hh
      simp only [State.setHandler, Function.update_self]
      rw [hnone, hnone']
    · simp only [State.setHandler, Function.update_of_ne hh]
  | opens hneg =>
    refine hs.opens hdistinct hallowed ?_ rfl
    rw [hneg]
    rfl
  | register hst hmain _ =>
    have hf := hs.follows _ _ (stream?_stream hst)
    refine hs.update hdistinct hst rfl rfl ?_ fun _ _ => rfl
    simp only [Follows, hmain] at hf
    rw [hquiet, List.append_nil]
    exact hf
  | @act h a st _ _ hst hact =>
    -- the condition is about the close frame: it may only follow the end of the upload
    have hclose (ok : Bool) (ha : a = .sendClose ok) : st.up = .ended := by
      subst ha
      exact hallowed st hst
    have hf := hs.follows _ _ (stream?_stream hst)
    exact hs.update hdistinct hst rfl (act_sid hact) (follows_act hf hclose hact)
      fun sid => types_of_effects (act_effects (fun _ => hf.frame) hact)
  | remove hst hmain _ =>
    have hf := hs.follows _ _ (stream?_stream hst)
    refine hs.update hdistinct hst rfl rfl ?_ fun _ _ => rfl
    simp only [Follows, hmain] at hf
    rw [hquiet, List.append_nil]
    exact hf
  | delivered _ hst _ =>
    have hf := hs.follows _ _ (stream?_stream hst)
    refine hs.update hdistinct hst rfl rfl ?_ fun _ _ => rfl
    rw [hquiet, List.append_nil]
    exact hf
  -- the other steps leave every stream as it is and send nothing
  | _ => exact hs.frame hdistinct (fun _ => rfl) fun _ => rfl

/-! ## Runs -/

/-- **The wire is ordered** in every run in which no stream id is given out twice and
    a StreamClose is sent only when the upstream task of its stream has ended. -/
theorem wire_ordered (wl : Option Whitelist) (es : List Event) (s : State) (out : List Effect)
    (hes : Allowed (step wl) ClosesLast State.new es)
    (hrun : run (step wl) State.new es = some (s, out)) (sid : UInt32) :
    Ordered (types sid out) := by
  have hs : Wire s ([] ++ out) :=
    run_history_of_allowed (fun s past e t o hs hallowed hstep =>
      wire_step hs hallowed (step_cases hstep)) [] wire_new hes hrun
  rw [List.nil_append] at hs
  by_cases hused : ∃ h, sid? (s.handlers h) = some sid
  · obtain ⟨h, hh⟩ := hused
    obtain ⟨st, hst, rfl⟩ := Option.map_eq_some_iff.1 hh
    exact (hs.follows h st hst).ordered
  · rw [hs.unused sid (not_exists.1 hused)]
    exact .inl rfl

/-- A client asks for `example.org:443` and gets its stream. -/
def connect (h : HandlerId) : List Event :=
  [.request h ([5, 1, 0, 3, 11] ++ Handshake.ascii "example.org" ++ [1, 187]), .register h,
    .act h (.sendOpen true), .act h (.reply true)]

/-- The client sends and ends its side, and the handler closes the stream. -/
theorem wire_ordered_upload :
    ∃ s out, run (step none) State.new (connect 0 ++
        ([.act 0 (.read [7]), .act 0 (.sendData true), .act 0 (.read []), .act 0 .select] :
          List Event) ++ ([.act 0 (.sendClose true), .remove 0] : List Event)) =
      some (s, out) ∧ types 1 out = [1, 0, 2] ∧ Ordered (types 1 out) := by
  let upload : List Event := connect 0 ++
    ([.act 0 (.read [7]), .act 0 (.sendData true), .act 0 (.read []), .act 0 .select] : List Event)
  let close : List Event := [.act 0 (.sendClose true), .remove 0]
  have hended : (run (step none) State.new upload).map
      (fun r => (stream? (r.1.handlers 0)).map Stream.up) = some (some .ended) := by
    decide +kernel
  have htypes : (run (step none) State.new (upload ++ close)).map (fun r => types 1 r.2) =
      some [1, 0, 2] := by
    decide +kernel
  obtain ⟨⟨s, out⟩, hupload, hup⟩ := Option.map_eq_some_iff.1 hended
  obtain ⟨⟨t, out'⟩, hrun, htypes⟩ := Option.map_eq_some_iff.1 htypes
  -- the upload has no close frame; then it has ended, and closing is allowed
  have hbefore : Allowed (step none) ClosesLast State.new upload := by
    refine ⟨unused_new, fun t o _ => allowed_of_forall (fun e he s => ?_) t⟩
    simp only [List.append_eq, List.cons_append, List.nil_append, List.mem_cons, List.not_mem_nil,
      or_false] at he
    obtain rfl | rfl | rfl | rfl | rfl | rfl | rfl := he <;> trivial
  have hafter : Allowed (step none) ClosesLast s close := by
    refine ⟨fun st hst => ?_, fun t o _ => allowed_of_forall (fun e he s => ?_) t⟩
    · rw [stream?_stream hst] at hup
      exact Option.some.inj hup
    · rw [List.mem_singleton.1 he]
      trivial
  exact ⟨t, out', hrun, htypes, wire_ordered none _ t out' (allowed_append hbefore hupload hafter)
    hrun 1⟩

/-- **Data after StreamClose**: the server closes the stream, the handler answers with
    its own StreamClose, and the upstream task goes on. -/
theorem data_after_close :
    ∃ s out, run (step none) State.new (connect 0 ++ ([.incoming (closeFrame 1), .dispatch,
        .act 0 .recv, .act 0 .select, .act 0 (.sendClose true), .act 0 (.read [7]),
        .act 0 (.sendData true)] : List Event)) = some (s, out) ∧ ¬ Ordered (types 1 out) := by
  let es : List Event := connect 0 ++ ([.incoming (closeFrame 1), .dispatch, .act 0 .recv,
    .act 0 .select, .act 0 (.sendClose true), .act 0 (.read [7]), .act 0 (.sendData true)] :
      List Event)
  have htypes : (run (step none) State.new es).map (fun r => types 1 r.2) = some [1, 2, 0] := by
    decide +kernel
  obtain ⟨⟨s, out⟩, hrun, htypes⟩ := Option.map_eq_some_iff.1 htypes
  refine ⟨s, out, hrun, ?_⟩
  rw [show types 1 out = [1, 2, 0] from htypes]
  intro hordered
  -- a close frame in the middle fits none of the three forms
  obtain hnil | ⟨n, hn⟩ | ⟨n, hn⟩ := hordered
  · cases hnil
  · have hmem : (2 : UInt8) ∈ List.replicate n 0 := by
      rw [← (List.cons.inj hn).2]
      exact List.mem_cons_self
    exact absurd (List.eq_of_mem_replicate hmem) (by decide)
  · have hlast := congrArg List.getLast? hn
    rw [List.getLast?_concat] at hlast
    exact absurd hlast (by decide)

end Fogged.Spec.Cdn
