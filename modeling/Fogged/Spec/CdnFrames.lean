import Mathlib.Data.List.Forall2
import Fogged.Spec.CdnWire
import Fogged.Spec.OrcaFrame

/-!
# CDN messages and `Frame.decode`

CDN mode writes and reads frames by hand. What its upstream task writes is what
`Frame.encode` would have written, with the same 16 bits of length, while its buffer holds
one byte more than these can count. What its reader takes from a message is everything
behind the header, while `Frame.decode` takes the padding off.

## Key results

- `uplink_frames_iff`: every run, and the messages a handler's upstream task sends in it
- `full_buffer_lost`: a read that fills the buffer
- `reader_agrees_iff`: the frames on which the reader and `Frame.decode` agree
- `reader_keeps_padding`: a padded frame
-/

namespace Fogged.Spec.Cdn

open Fogged.Native Fogged.Native.CdnMode
open Fogged.Spec.Orca
open Machine

/-! ## The uplink: one message -/

/-- Writing a number truncates it. -/
theorem toBE_two (n : Nat) : Bytes.toBE 2 (UInt16.ofNat n).toNat = Bytes.toBE 2 n := by
  have hhigh : UInt8.ofNat (n % 2 ^ 16 / 256) = UInt8.ofNat (n / 256) := by
    apply UInt8.toNat_inj.mp
    simp only [UInt8.toNat_ofNat']
    omega
  have hlow : UInt8.ofNat (n % 2 ^ 16) = UInt8.ofNat n := by
    apply UInt8.toNat_inj.mp
    simp only [UInt8.toNat_ofNat']
    omega
  simp only [Bytes.toBE, UInt16.toNat_ofNat', hhigh, hlow]

/-- The upstream task writes the header that `Frame.encode` writes. -/
theorem dataFrame_eq (sid : UInt32) (chunk : List UInt8) :
    dataFrame sid chunk = (Orca.Frame.data sid chunk).encode := by
  simp only [dataFrame, header, Orca.Frame.encode, Orca.Frame.data, toBE_two]
  simp [Orca.FrameType.toByte]

/-- The message is decoded as the Data frame of the chunk, and nothing is left. -/
def Carries (sid : UInt32) (chunk message : List UInt8) : Prop :=
  Orca.Frame.decode message = .ok (Orca.Frame.data sid chunk, [])

/-- A chunk arrives if its length fits 16 bits. -/
theorem carries_dataFrame_iff (sid : UInt32) (chunk : List UInt8) :
    Carries sid chunk (dataFrame sid chunk) ↔ chunk.length ≤ Orca.maxFrameSize := by
  rw [Carries, dataFrame_eq, ← List.append_nil (Orca.Frame.encode _)]
  constructor
  · exact length_le_of_decode
  · intro hlen
    have hclear : (Orca.Frame.data sid chunk).flags &&& Orca.padded = 0 := by
      show (0 : UInt8) &&& Orca.padded = 0
      decide
    rw [decode_encode_append _ hlen, stripPadding_of_clear hclear]

/-! ## The uplink: runs -/

/-- What the upstream task of a handler does. -/
inductive Upload where
  | read (chunk : List UInt8)
  | sent (message : List UInt8)
  deriving DecidableEq

def sentMessage : Effect → Option Upload
  | .sent message => some (.sent message)
  | .received _ | .wrote _ _ => none

/-- The steps of the upstream task of `h`. -/
def upload (h : HandlerId) (_ : State) (e : Event) (o : List Effect) : List Upload :=
  match e with
  | .act g (.read bytes) => if g = h ∧ bytes ≠ [] then [.read bytes] else []
  | .act g (.sendData _) => if g = h then o.filterMap sentMessage else []
  | _ => []

def chunks (log : List Upload) : List (List UInt8) :=
  log.filterMap fun
    | .read chunk => some chunk
    | .sent _ => none

def messages (log : List Upload) : List (List UInt8) :=
  log.filterMap fun
    | .read _ => none
    | .sent message => some message

/-- The chunks that were read and the messages that were sent, up to what the task has in
    hand. -/
def Uploaded (sid : UInt32) (up : Up) (log : List Upload) : Prop :=
  ∃ sent, messages log = sent.map (dataFrame sid) ∧
    match up with
    | .idle | .reading => chunks log = sent
    | .sending chunk => chunks log = sent ++ [chunk]
    | .ended => chunks log = sent ∨ ∃ chunk, chunks log = sent ++ [chunk]

/-- The handler has not spawned its tasks yet. -/
def early : Main → Bool
  | .registering _ | .opening _ | .replying => true
  | .relaying | .closing | .removing | .returned _ => false

/-- The upstream task of a handler. -/
def task? (handler : Handler) : Option (UInt32 × Bool × Up) :=
  (stream? handler).map fun st => (st.sid, early st.main, st.up)

/-- What is known of the handler's log. -/
def Logged (h : HandlerId) (s : State) (log : List Upload) : Prop :=
  match task? (s.handlers h) with
  | none => log = []
  | some (sid, isEarly, up) => (isEarly = true → up = .idle) ∧ Uploaded sid up log

/-- At the start no handler has read anything. -/
theorem logged_new (h : HandlerId) : Logged h State.new [] := rfl

/-- A change that does not concern the upstream task. -/
theorem task?_setHandler {s : State} {g : HandlerId} {handler : Handler}
    (heq : task? handler = task? (s.handlers g)) (h : HandlerId) :
    task? ((s.setHandler g handler).handlers h) = task? (s.handlers h) := by
  by_cases hh : h = g
  · subst hh
    simp only [State.setHandler, Function.update_self]
    rw [heq]
  · simp only [State.setHandler, Function.update_of_ne hh]

/-- Only the stream's own tasks touch the upstream task, once it is there. -/
theorem Step.task {s t : State} {e : Event} {o : List Effect} (hstep : Step s e t o)
    (hact : ∀ g a, e ≠ .act g a) (h : HandlerId) :
    task? (t.handlers h) = task? (s.handlers h) ∨
      task? (s.handlers h) = none ∧ ∃ sid, task? (t.handlers h) = some (sid, true, .idle) := by
  -- what the step leaves of a stream: id, whether the task is there, and its phase
  have hkept {g : HandlerId} {st st' : Stream} (hs : s.handlers g = .stream st)
      (heq : (st'.sid, early st'.main, st'.up) = (st.sid, early st.main, st.up)) :
      task? ((s.setHandler g (.stream st')).handlers h) = task? (s.handlers h) := by
    refine task?_setHandler ?_ h
    rw [hs]
    exact congrArg some heq
  cases hstep with
  | @aside _ g handler hs ht =>
    refine .inl (task?_setHandler ?_ h)
    rw [task?, task?, hs, ht]
  | @opens g bytes host port hs =>
    by_cases hg : h = g
    · subst hg
      refine .inr ⟨by rw [hs]; rfl, s.nextId, ?_⟩
      exact congrArg task? (Function.update_self h _ s.handlers)
    · exact .inl (congrArg task? (Function.update_of_ne hg _ s.handlers))
  | register hs hmain _ => exact .inl (hkept hs (by rw [hmain]; rfl))
  | act _ _ => exact absurd rfl (hact _ _)
  | remove hs hmain _ => exact .inl (hkept hs (by rw [hmain]; rfl))
  | delivered _ hs _ => exact .inl (hkept hs rfl)
  | _ => exact .inl rfl

/-- A chunk is read. -/
theorem Uploaded.read {sid : UInt32} {log : List Upload} {chunk : List UInt8}
    (h : Uploaded sid .reading log) : Uploaded sid (.sending chunk) (log ++ [.read chunk]) := by
  obtain ⟨sent, hmessages, hchunks⟩ := h
  refine ⟨sent, ?_, ?_⟩
  · simpa [messages] using hmessages
  · simpa [chunks] using hchunks

/-- The chunk in hand is sent. -/
theorem Uploaded.sent {sid : UInt32} {log : List Upload} {chunk : List UInt8}
    (h : Uploaded sid (.sending chunk) log) :
    Uploaded sid .reading (log ++ [.sent (dataFrame sid chunk)]) := by
  obtain ⟨sent, hmessages, hchunks⟩ := h
  refine ⟨sent ++ [chunk], ?_, ?_⟩
  · simpa [messages] using hmessages
  · simpa [chunks] using hchunks

/-- The task ends, with or without a chunk in hand. -/
theorem Uploaded.ended {sid : UInt32} {up : Up} {log : List Upload} (h : Uploaded sid up log) :
    Uploaded sid .ended log := by
  obtain ⟨sent, hmessages, hchunks⟩ := h
  refine ⟨sent, hmessages, ?_⟩
  cases up with
  | sending chunk => exact .inr ⟨chunk, hchunks⟩
  | ended => exact hchunks
  | idle | reading => exact .inl hchunks

/-- One step of the tasks of the handler's own stream. -/
theorem uploaded_act {s : State} {h : HandlerId} {held : Bool} {st st' : Stream} {a : Act}
    {o : List Effect} {past : List Upload} (hearly : early st.main = true → st.up = .idle)
    (hpast : Uploaded st.sid st.up past) (hact : st.act h held a = some (st', o)) :
    (early st'.main = true → st'.up = .idle) ∧
      Uploaded st'.sid st'.up (past ++ upload h s (.act h a) o) := by
  have hquiet {up : Up} (hup : Uploaded st.sid up past) : Uploaded st.sid up (past ++ []) := by
    rwa [List.append_nil]
  -- while the upstream task runs, the handler is past its start
  have hlate (hup : st.up ≠ .idle) (up : Up) : early st.main = true → up = .idle :=
    fun h => absurd (hearly h) hup
  cases act_cases hact with
  | opened hmain => exact ⟨fun _ => hearly (by rw [hmain]; rfl), hquiet hpast⟩
  | spawned hmain =>
    have hidle : st.up = .idle := hearly (by rw [hmain]; rfl)
    rw [hidle] at hpast
    exact ⟨nofun, hquiet hpast⟩
  -- the four acts of the upstream task; the others leave it alone
  | eof hup =>
    refine ⟨hlate (by simp [hup]) _, ?_⟩
    rw [upload, if_neg (by simp)]
    exact hquiet hpast.ended
  | read hup hne _ =>
    refine ⟨hlate (by simp [hup]) _, ?_⟩
    rw [hup] at hpast
    rw [upload, if_pos ⟨rfl, hne⟩]
    exact hpast.read
  | uploaded hup =>
    refine ⟨hlate (by simp [hup]) _, ?_⟩
    rw [hup] at hpast
    rw [upload, if_pos rfl]
    exact hpast.sent
  | unsent hup =>
    refine ⟨hlate (by simp [hup]) _, ?_⟩
    rw [upload, if_pos rfl]
    exact hquiet hpast.ended
  | received _ _ => exact ⟨hearly, hquiet hpast⟩
  | drained _ _ _ => exact ⟨hearly, hquiet hpast⟩
  | wrote _ => exact ⟨hearly, hquiet hpast⟩
  | unwritten _ => exact ⟨hearly, hquiet hpast⟩
  | _ => exact ⟨nofun, hquiet hpast⟩

/-- An action of a handler's tasks. -/
theorem step_act_eq_some {wl : Option Whitelist} {s t : State} {g : HandlerId} {a : Act}
    {o : List Effect} (hstep : step wl s (.act g a) = some (t, o)) :
    ∃ st st', s.handlers g = .stream st ∧ st.act g (s.holds st.sid g) a = some (st', o) ∧
      t = s.setHandler g (.stream st') := by
  rw [step] at hstep
  split at hstep
  · rename_i st hst
    obtain ⟨⟨st', o'⟩, hact, heq⟩ := Option.map_eq_some_iff.1 hstep
    cases heq
    exact ⟨st, st', hst, hact, rfl⟩
  · cases hstep

/-- **One step** of the whole. -/
theorem logged_step {wl : Option Whitelist} {h : HandlerId} {s t : State} {e : Event}
    {past log : List Upload} (hs : Logged h s past)
    (hobserved : observed (step wl) (upload h) s e = some (t, log)) :
    Logged h t (past ++ log) := by
  obtain ⟨o, hstep, rfl⟩ := observed_eq_some.1 hobserved
  have hquiet (htask : task? (t.handlers h) = task? (s.handlers h)) : Logged h t (past ++ []) := by
    rwa [List.append_nil, Logged, htask]
  -- the streams' own tasks, and all other steps
  by_cases hact : ∃ g a, e = .act g a
  · obtain ⟨g, a, rfl⟩ := hact
    obtain ⟨st, st', hst, hact, rfl⟩ := step_act_eq_some hstep
    by_cases hg : g = h
    · subst hg
      have htask : task? (s.handlers g) = some (st.sid, early st.main, st.up) := by
        rw [hst]
        rfl
      have htask' : task? ((s.setHandler g (.stream st')).handlers g) =
          some (st'.sid, early st'.main, st'.up) := by
        simp only [State.setHandler, Function.update_self]
        rfl
      rw [Logged, htask] at hs
      rw [Logged, htask']
      exact uploaded_act hs.1 hs.2 hact
    · -- another stream's task
      have hnone : upload h s (.act g a) o = [] := by
        cases a <;> simp [upload, hg]
      rw [hnone]
      exact hquiet (congrArg task? (Function.update_of_ne (Ne.symm hg) _ s.handlers))
  · have hnone : upload h s e o = [] := by
      cases e with
      | act g a => exact absurd ⟨g, a, rfl⟩ hact
      | _ => rfl
    rw [hnone]
    -- the task of `h` stays as it was, or is created idle
    obtain htask | ⟨hbefore, sid, hnew⟩ :=
      (step_cases hstep).task (fun g a he => hact ⟨g, a, he⟩) h
    · exact hquiet htask
    · rw [Logged, hbefore] at hs
      subst hs
      rw [Logged, hnew]
      exact ⟨fun _ => rfl, [], rfl, rfl⟩

/-- The task reads a chunk and sends it. -/
theorem upload_chunk (wl : Option Whitelist) {s : State} {h : HandlerId} {st : Stream}
    (hst : s.handlers h = .stream st) (hup : st.up = .reading) {chunk : List UInt8}
    (hne : chunk ≠ []) (hlen : chunk.length ≤ 65536) :
    ∃ t, run (observed (step wl) (upload h)) s [.act h (.read chunk), .act h (.sendData true)] =
      some (t, [.read chunk, .sent (dataFrame st.sid chunk)]) := by
  let s' := s.setHandler h (.stream { st with up := .sending chunk })
  -- the buffer of the task takes 65536 bytes
  have hread : observed (step wl) (upload h) s (.act h (.read chunk)) =
      some (s', [.read chunk]) := by
    refine observed_eq_some.2 ⟨[], ?_, ?_⟩
    · simp only [step, hst, Stream.act, hup, if_neg hne, if_pos hlen]
      rfl
    · simp [upload, hne]
  have hsend : observed (step wl) (upload h) s' (.act h (.sendData true)) =
      some (s'.setHandler h (.stream { st with up := .reading }),
        [.sent (dataFrame st.sid chunk)]) := by
    refine observed_eq_some.2 ⟨[.sent (dataFrame st.sid chunk)], ?_, ?_⟩
    · simp only [step, s', State.setHandler, Function.update_self, Stream.act]
      rfl
    · simp [upload, sentMessage]
  exact ⟨_, run_append (run_singleton hread) (run_singleton hsend)⟩

/-- The first client of all, connected, reads a chunk and sends it. -/
theorem upload_first {chunk : List UInt8} (hne : chunk ≠ []) (hlen : chunk.length ≤ 65536) :
    ∃ t, run (observed (step none) (upload 0)) State.new
        (connect 0 ++ ([.act 0 (.read chunk), .act 0 (.sendData true)] : List Event)) =
      some (t, [.read chunk, .sent (dataFrame 1 chunk)]) := by
  have hconnect : (run (observed (step none) (upload 0)) State.new (connect 0)).map
      (fun r => (stream? (r.1.handlers 0), r.2)) =
        some (some ⟨1, .relaying, .reading, .receiving, .new 64⟩, []) := by decide +kernel
  obtain ⟨⟨s, log⟩, hrun, heq⟩ := Option.map_eq_some_iff.1 hconnect
  obtain ⟨hst, rfl⟩ := Prod.mk.inj heq
  obtain ⟨t, ht⟩ := upload_chunk none (handlers_of_stream? hst) rfl hne hlen
  exact ⟨t, run_append hrun ht⟩

/-- **The uplink** in every run: the chunks that a handler's upstream task has read, but for
    one at most, were sent, and their messages are the Data frames of these chunks exactly if
    no chunk is longer than a frame. -/
theorem uplink_frames_iff (wl : Option Whitelist) (h : HandlerId) (es : List Event) (t : State)
    (out : List Effect) (hrun : run (step wl) State.new es = some (t, out)) (sid : UInt32)
    (hsid : sid? (t.handlers h) = some sid) :
    ∃ log sent, run (observed (step wl) (upload h)) State.new es = some (t, log) ∧
      (chunks log = sent ∨ ∃ chunk, chunks log = sent ++ [chunk]) ∧
      (List.Forall₂ (Carries sid) sent (messages log) ↔
        ∀ chunk ∈ sent, chunk.length ≤ Orca.maxFrameSize) := by
  obtain ⟨log, hlog⟩ := exists_run_observed (upload h) hrun
  have hlogged : Logged h t ([] ++ log) :=
    run_history (fun s past e t o hs (_ : True) hstep => logged_step hs hstep) (logged_new h)
      (fun _ _ => trivial) hlog
  obtain ⟨st, hst, rfl⟩ := Option.map_eq_some_iff.1 hsid
  rw [Logged, task?, hst] at hlogged
  obtain ⟨sent, hmessages, hchunks⟩ := hlogged.2.ended
  rw [List.nil_append] at hmessages hchunks
  refine ⟨log, sent, hlog, hchunks, ?_⟩
  rw [hmessages, List.forall₂_map_right_iff, List.forall₂_same]
  simp only [carries_dataFrame_iff]

/-- One chunk, and its message. -/
theorem uplink_frames_one :
    ∃ t out log sent, run (step none) State.new (connect 0 ++
        ([.act 0 (.read [7]), .act 0 (.sendData true)] : List Event)) = some (t, out) ∧
      sid? (t.handlers 0) = some 1 ∧ (chunks log = sent ∨ ∃ chunk, chunks log = sent ++ [chunk]) ∧
      (List.Forall₂ (Carries 1) sent (messages log) ↔
        ∀ chunk ∈ sent, chunk.length ≤ Orca.maxFrameSize) := by
  have hsid : (run (step none) State.new (connect 0 ++
      ([.act 0 (.read [7]), .act 0 (.sendData true)] : List Event))).map
        (fun r => sid? (r.1.handlers 0)) = some (some 1) := by decide +kernel
  obtain ⟨⟨t, out⟩, hrun, hsid⟩ := Option.map_eq_some_iff.1 hsid
  obtain ⟨log, sent, -, hchunks, hcarries⟩ := uplink_frames_iff none 0 _ t out hrun 1 hsid
  exact ⟨t, out, log, sent, hrun, hsid, hchunks, hcarries⟩

/-- **A full buffer is lost**: the client has 65536 bytes ready, the message says zero, and
    they are left behind the frame. -/
theorem full_buffer_lost :
    ∃ chunk t log, chunk.length = 65536 ∧ run (observed (step none) (upload 0)) State.new
        (connect 0 ++ ([.act 0 (.read chunk), .act 0 (.sendData true)] : List Event)) =
          some (t, log) ∧
      chunks log = [chunk] ∧ messages log = [dataFrame 1 chunk] ∧
      Orca.Frame.decode (dataFrame 1 chunk) = .ok (Orca.Frame.data 1 [], chunk) := by
  let chunk : List UInt8 := List.replicate 65536 7
  have hlen : chunk.length = 65536 := List.length_replicate
  have hne : chunk ≠ [] := by
    intro hnil
    rw [hnil] at hlen
    cases hlen
  obtain ⟨t, ht⟩ := upload_first hne hlen.le
  -- the length field wraps to 0, so the decoder finds no payload
  have hdecode := decode_encode_full (Orca.Frame.data 1 chunk) hlen []
  rw [List.append_nil, ← dataFrame_eq] at hdecode
  refine ⟨chunk, t, _, hlen, ht, rfl, rfl, ?_⟩
  rw [hdecode]
  simp [Orca.Frame.data]

/-! ## The downlink -/

/-- What the reader makes of a frame. -/
theorem incoming_encode (f : Orca.Frame) :
    incoming f.encode =
      match f.frameType with
      | .data => .data f.streamId f.payload
      | .streamClose => .close f.streamId
      | _ => .other := by
  obtain ⟨i0, i1, i2, i3, hid⟩ : ∃ i0 i1 i2 i3,
      Bytes.toBE 4 f.streamId.toNat = [i0, i1, i2, i3] := ⟨_, _, _, _, rfl⟩
  obtain ⟨l0, l1, hl⟩ : ∃ l0 l1,
      Bytes.toBE 2 (UInt16.ofNat f.payload.length).toNat = [l0, l1] := ⟨_, _, rfl⟩
  have hsid : UInt32.ofNat (Bytes.ofBE [i0, i1, i2, i3]) = f.streamId := by
    rw [← hid]
    exact ofNat_ofBE_toBE f.streamId
  simp only [Orca.Frame.encode, hid, hl, List.cons_append, List.nil_append, incoming, hsid]
  cases f.frameType <;> rfl

/-- What the reader puts into a channel, with the handler that has its receiver. -/
def handed (s : State) (e : Event) (_ : List Effect) : List (HandlerId × List UInt8) :=
  match s.reader, e with
  | .sending h payload, .dispatch => [(h, payload)]
  | _, _ => []

/-- The reader on its way with a payload, if it has one, and what it has handed over since. -/
def Underway (carried : Option (List UInt8)) (s : State) (log : List (HandlerId × List UInt8)) :
    Prop :=
  match s.reader with
  | .routing _ payload | .sending _ payload => carried = some payload ∧ log = []
  | .reading | .closing _ | .stopped =>
    log = [] ∨ ∃ h payload, carried = some payload ∧ log = [(h, payload)]

/-- At any time, at most the payload it carries. -/
theorem Underway.log {carried : Option (List UInt8)} {s : State}
    {log : List (HandlerId × List UInt8)} (hs : Underway carried s log) :
    log = [] ∨ ∃ h payload, carried = some payload ∧ log = [(h, payload)] := by
  rw [Underway] at hs
  split at hs
  · exact .inl hs.2
  · exact .inl hs.2
  · exact hs
  · exact hs
  · exact hs

/-- Between two messages only `dispatch` moves the reader. -/
theorem Step.reader {s t : State} {e : Event} {o : List Effect} (hstep : Step s e t o)
    (hincoming : ∀ message, e ≠ .incoming message) (hdispatch : e ≠ .dispatch) :
    t.reader = s.reader ∨ s.reader = .reading ∧ t.reader = .stopped := by
  cases hstep with
  | data _ _ | close _ _ | other _ _ => exact absurd rfl (hincoming _)
  | found _ _ | missed _ _ | delivered _ _ _ | closed _ => exact absurd rfl hdispatch
  | stop hs => exact .inr ⟨hs, rfl⟩
  | _ => exact .inl rfl

/-- The reader goes on with what it carries. -/
theorem underway_dispatch {carried : Option (List UInt8)} {s t : State}
    {past : List (HandlerId × List UInt8)} (hs : Underway carried s past)
    (hstep : stepReader s = some t) : Underway carried t (past ++ handed s .dispatch []) := by
  rw [stepReader] at hstep
  split at hstep
  · -- looking up the stream
    rename_i sid payload hreader
    simp only [Underway, hreader] at hs
    simp only [handed, hreader, List.append_nil]
    split at hstep
    · cases hstep
      exact hs
    · cases hstep
      exact .inl hs.2
  · -- in `tx.send`
    rename_i h payload hreader
    simp only [Underway, hreader] at hs
    obtain ⟨hcarried, rfl⟩ := hs
    simp only [handed, hreader, List.nil_append]
    split at hstep
    · obtain ⟨r, -, rfl⟩ := Option.map_eq_some_iff.1 hstep
      exact .inr ⟨h, payload, hcarried, rfl⟩
    · cases hstep
  · rename_i sid hreader
    simp only [Underway, hreader] at hs
    simp only [handed, hreader, List.append_nil]
    cases hstep
    exact hs
  · cases hstep
  · cases hstep

/-- **One step** between two messages. -/
theorem underway_step {wl : Option Whitelist} {carried : Option (List UInt8)} {s t : State}
    {e : Event} {past log : List (HandlerId × List UInt8)} (hs : Underway carried s past)
    (hincoming : ∀ message, e ≠ .incoming message)
    (hobserved : observed (step wl) handed s e = some (t, log)) :
    Underway carried t (past ++ log) := by
  obtain ⟨o, hstep, rfl⟩ := observed_eq_some.1 hobserved
  by_cases hdispatch : e = .dispatch
  · subst hdispatch
    obtain ⟨ht, rfl⟩ := map_quiet_eq_some hstep
    exact underway_dispatch hs ht
  · -- only `dispatch` hands anything over
    have hnone : handed s e o = [] := by
      cases e with
      | dispatch => exact absurd rfl hdispatch
      | _ => cases hr : s.reader <;> simp [handed, hr]
    rw [hnone, List.append_nil]
    -- the reader stays where it is, or the connection ends while it waits
    rcases (step_cases hstep).reader hincoming hdispatch with hreader | ⟨hreading, hstopped⟩
    · rwa [Underway, hreader]
    · simp only [Underway, hreading] at hs
      simp only [Underway, hstopped]
      exact hs

/-- What the reader carries after a frame. -/
def carried (f : Orca.Frame) : Option (List UInt8) :=
  match f.frameType with
  | .data => some f.payload
  | _ => none

/-- The frame itself. -/
theorem underway_incoming {wl : Option Whitelist} {f : Orca.Frame} {s t : State}
    {log : List (HandlerId × List UInt8)} (hreader : s.reader = .reading)
    (hobserved : observed (step wl) handed s (.incoming f.encode) = some (t, log)) :
    Underway (carried f) t log := by
  obtain ⟨o, hstep, rfl⟩ := observed_eq_some.1 hobserved
  have hnone : handed s (.incoming f.encode) o = [] := by simp [handed, hreader]
  simp only [step, hreader, incoming_encode] at hstep
  rw [hnone]
  cases hf : f.frameType with
  | data =>
    rw [hf] at hstep
    cases hstep
    exact ⟨by rw [carried, hf], rfl⟩
  -- a StreamClose takes the stream out of the table
  | streamClose =>
    rw [hf] at hstep
    cases hstep
    exact .inl rfl
  -- other frames are ignored
  | _ =>
    rw [hf] at hstep
    cases hstep
    simp [Underway, hreader]

/-- The reader and `Frame.decode` agree on a frame: between its message and the next one the
    reader hands over the payload that is decoded, if the frame is a Data frame, and else
    nothing; and it does so if the stream is in the table and its channel has room. -/
structure ReaderAgrees (f : Orca.Frame) : Prop where
  handed : ∀ wl s es t log g, s.reader = .reading → (∀ e ∈ es, ∀ message, e ≠ .incoming message) →
    run (observed (step wl) handed) s (.incoming f.encode :: es) = some (t, log) →
    Orca.Frame.decode f.encode = .ok (g, []) →
      log = [] ∨ f.frameType = .data ∧ ∃ h, log = [(h, g.payload)]
  delivered : ∀ wl s h st g, s.reader = .reading → f.frameType = .data →
    s.streams.lookup f.streamId = some h → s.handlers h = .stream st → st.chan.closed = false →
    st.chan.queue.length < st.chan.capacity → Orca.Frame.decode f.encode = .ok (g, []) →
      ∃ t, run (step wl) s [.incoming f.encode, .dispatch, .dispatch] =
          some (t, [.received f.encode]) ∧
        t.handlers h =
          .stream { st with chan := { st.chan with queue := st.chan.queue ++ [g.payload] } }

/-- The reader takes the payload of a Data frame, padding included. -/
theorem step_incoming_data (wl : Option Whitelist) {f : Orca.Frame} (hdata : f.frameType = .data)
    {s : State} (hreader : s.reader = .reading) :
    step wl s (.incoming f.encode) =
      some ({ s with reader := .routing f.streamId f.payload }, [.received f.encode]) := by
  simp only [step, hreader, incoming_encode, hdata]

/-- A Data frame on its way into a channel. -/
theorem run_data (wl : Option Whitelist) {f : Orca.Frame} (hdata : f.frameType = .data) {s : State}
    {h : HandlerId} {st : Stream} (hreader : s.reader = .reading)
    (hlookup : s.streams.lookup f.streamId = some h) (hst : s.handlers h = .stream st)
    (hopen : st.chan.closed = false) (hroom : st.chan.queue.length < st.chan.capacity) :
    ∃ t, run (step wl) s [.incoming f.encode, .dispatch, .dispatch] =
        some (t, [.received f.encode]) ∧
      t.handlers h =
        .stream { st with chan := { st.chan with queue := st.chan.queue ++ [f.payload] } } := by
  let chan : TcpReader.Channel := { st.chan with queue := st.chan.queue ++ [f.payload] }
  -- the reader looks the stream up, then sends
  let s₁ : State := { s with reader := .routing f.streamId f.payload }
  let s₂ : State := { s with reader := .sending h f.payload }
  let s₃ : State := { s.setHandler h (.stream { st with chan }) with reader := .reading }
  have hsend : st.chan.send f.payload = some (chan, true) := by
    simp [TcpReader.Channel.send, hopen, hroom, chan]
  have hroute : step wl s₁ .dispatch = some (s₂, []) := by
    simp only [step, stepReader, s₁, hlookup]
    rfl
  have hdeliver : step wl s₂ .dispatch = some (s₃, []) := by
    simp only [step, stepReader, s₂, hst, hsend]
    rfl
  have hrun := run_append (run_singleton (step_incoming_data wl hdata hreader))
    (run_append (run_singleton hroute) (run_singleton hdeliver))
  exact ⟨s₃, hrun, Function.update_self h _ s.handlers⟩

/-- **The reader and `Frame.decode` agree** on a frame exactly if it is no Data frame, or its
    PADDED flag is clear, or its payload is empty or ends with a byte that is at least its
    length. -/
theorem reader_agrees_iff (f : Orca.Frame) (hlen : f.payload.length ≤ Orca.maxFrameSize) :
    ReaderAgrees f ↔
      f.frameType ≠ .data ∨ f.flags &&& Orca.padded = 0 ∨
        ∀ last, f.payload.getLast? = some last → f.payload.length ≤ last.toNat := by
  rw [← stripPadding_eq_self_iff, ← imp_iff_not_or]
  have hdecode := decode_encode_append f hlen []
  rw [List.append_nil] at hdecode
  constructor
  · -- a stream in the table of an otherwise empty state gets both payloads
    intro hagrees hdata
    let st : Stream := ⟨f.streamId, .relaying, .reading, .receiving, .new 64⟩
    let s : State := { State.new with
      streams := (∅ : Finmap fun _ : UInt32 => HandlerId).insert f.streamId 0
      handlers := fun _ => .stream st }
    have hroom : st.chan.queue.length < st.chan.capacity := by simp [st, TcpReader.Channel.new]
    obtain ⟨t, hrun, ht⟩ := hagrees.delivered none s 0 st _ rfl hdata (Finmap.lookup_insert _) rfl
      rfl hroom hdecode
    obtain ⟨t', hrun', ht'⟩ := run_data none hdata (s := s) rfl (Finmap.lookup_insert _) rfl rfl
      hroom
    rw [hrun] at hrun'
    cases hrun'
    rw [ht] at ht'
    simpa [st, TcpReader.Channel.new] using ht'
  · intro hstrip
    refine ⟨fun wl s es t log g hreader hes hrun hg => ?_,
      fun wl s h st g hreader hdata hlookup hst hopen hroom hg => ?_⟩
    · rw [hdecode] at hg
      cases hg
      obtain ⟨s', o, os, hfirst, hrest, rfl⟩ := run_cons_eq_some.1 hrun
      have hunderway := run_history (fun s past e t o hs he hstep => underway_step hs he hstep)
        (underway_incoming hreader hfirst) hes hrest
      rcases hunderway.log with hnil | ⟨h, payload, hcarried, hlog⟩
      · exact .inl hnil
      · -- only a Data frame is carried
        rw [carried] at hcarried
        split at hcarried
        · rename_i hdata
          cases hcarried
          exact .inr ⟨hdata, h, by rw [hlog, hstrip hdata]⟩
        · cases hcarried
    · rw [hdecode] at hg
      cases hg
      rw [hstrip hdata]
      exact run_data wl hdata hreader hlookup hst hopen hroom

/-- A Data frame without padding. -/
theorem reader_agrees_plain : ReaderAgrees (Orca.Frame.data 1 [7, 8]) :=
  (reader_agrees_iff (Orca.Frame.data 1 [7, 8]) (by decide)).2 (.inr (.inl (by decide)))

/-- **The reader keeps the padding.** One byte with four bytes of padding: all five are handed
    over, while none is left after decoding. -/
theorem reader_keeps_padding :
    (Orca.Frame.data 1 [0x61]).withPadding lowRng 4 4 =
        .ret ⟨.data, Orca.padded, 1, [0x61, 0xAA, 0xAA, 0xAA, 0x04]⟩ ∧
      (run (observed (step none) handed) State.new (connect 0 ++
          ([.incoming (Orca.Frame.encode ⟨.data, Orca.padded, 1, [0x61, 0xAA, 0xAA, 0xAA, 0x04]⟩),
            .dispatch, .dispatch] : List Event))).map Prod.snd =
        some [(0, [0x61, 0xAA, 0xAA, 0xAA, 0x04])] ∧
      Orca.Frame.decode
          (Orca.Frame.encode ⟨.data, Orca.padded, 1, [0x61, 0xAA, 0xAA, 0xAA, 0x04]⟩) =
        .ok (⟨.data, Orca.padded, 1, []⟩, []) := by
  refine ⟨?_, ?_, ?_⟩ <;> decide +kernel

end Fogged.Spec.Cdn
