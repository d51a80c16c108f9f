import Fogged.ForStd.Machine
import Fogged.Spec.DeframerSteps

/-!
# Taking over the socket from the deframer

Along every sequence of `read` and `pop`, what has come from the socket is what `pop` has
taken followed by what is unread. `take_pending` returns the buffer from its start, though,
and resets nothing but `used`. So it returns what is unread only while no handshake message
is being joined, and leaves a deframer that is as good as new only if there is no error
either. With a message half joined, the bytes returned begin with its decrypted payload, and
the next `pop` looks for a record behind the end of the buffer.

## Key results

- `step_twins`: a call does the same over buffers that differ where nothing has been read
- `takePending_hands_over`: when nothing is lost or invented, and when a fresh deframer is left
-/

namespace Fogged.Spec.Deframer

open Fogged.Native.Deframer
open Buffer (window)
open Machine (run)

variable {σ : Type}

/-! ## What can be observed -/

/-- The bytes that have come from the socket. -/
def wire (out : List Effect) : List UInt8 :=
  out.flatMap fun
    | .received bytes => bytes
    | _ => []

/-- The bytes of the records that `pop` has taken. -/
def consumed (out : List Effect) : List UInt8 :=
  out.flatMap fun
    | .took record => record
    | _ => []

/-- Every call has returned. -/
def Returned (out : List Effect) : Prop := ∀ x ∈ out, x ≠ .panicked ∧ x ≠ .hung

/-- All the effects of a run. -/
def effects (rl : RecordLayer σ) (s : State σ) (es : List Event) : Option (List Effect) :=
  (run (step rl) s es).map Prod.snd

/-- On all later calls of `read` and `pop` a deframer does what a new one does, and each of
    them returns. -/
def BehavesFresh (rl : RecordLayer σ) (s : State σ) : Prop :=
  ∀ fs : List Event, (∀ e ∈ fs, e ≠ .takePending) →
    effects rl s fs = effects rl (State.new s.layer) fs ∧
      ∀ out, effects rl s fs = some out → Returned out

theorem wire_append (o p : List Effect) : wire (o ++ p) = wire o ++ wire p :=
  List.flatMap_append

theorem consumed_append (o p : List Effect) : consumed (o ++ p) = consumed o ++ consumed p :=
  List.flatMap_append

/-- `pop` reads nothing from the socket. -/
theorem wire_popped (taken : List (List UInt8)) (result : Except Error (Option Deframed)) :
    wire (taken.map Effect.took ++ [.popped result]) = [] := by
  simp [wire]

/-- What `pop` takes are its records. -/
theorem consumed_popped (taken : List (List UInt8)) (result : Except Error (Option Deframed)) :
    consumed (taken.map Effect.took ++ [.popped result]) = taken.flatten := by
  simp [consumed, List.flatMap_map]

/-- A `pop` that has a result has returned. -/
theorem returned_popped (taken : List (List UInt8)) (result : Except Error (Option Deframed)) :
    Returned (taken.map Effect.took ++ [.popped result]) := by
  intro x hx
  simp only [List.mem_append, List.mem_map, List.mem_singleton] at hx
  obtain ⟨_, _, rfl⟩ | rfl := hx <;> exact ⟨nofun, nofun⟩

/-! ## Reading -/

section Read

variable {d : MessageDeframer} {buf' : List UInt8}

/-- An empty buffer is made ready without a look at it. -/
def Alike (d : MessageDeframer) (buf' : List UInt8) : Prop :=
  Agree d.used d.buf buf' ∨ d.used = 0

/-- Two buffers that agree up to `n` still do when they are resized. -/
theorem Agree.resize {n k : Nat} {buf : List UInt8} (h : Agree n buf buf') (hn : n ≤ buf.length)
    (hk : n ≤ k) : Agree n (Buffer.resize buf k 0) (Buffer.resize buf' k 0) := by
  have hlength := h.length
  constructor
  · rw [Buffer.length_resize, Buffer.length_resize]
  · rw [Buffer.window_resize hk hn, Buffer.window_resize hk (by omega), h.front]

/-- A resize that keeps what is used. -/
theorem resized_wf (hd : Wf d) {k : Nat} (hk : d.used ≤ k) :
    Wf { d with buf := Buffer.resize d.buf k 0 } ∧
      unread { d with buf := Buffer.resize d.buf k 0 } = unread d := by
  refine ⟨⟨?_, hd.joining⟩, Buffer.window_resize hk hd.used_le⟩
  show d.used ≤ (Buffer.resize d.buf k 0).length
  rw [Buffer.length_resize]
  exact hk

/-- An empty buffer gets the same size, whatever it was. -/
theorem prepareRead_empty (hzero : d.used = 0) :
    d.prepareRead = some { d with buf := Buffer.resize d.buf readSize 0 } := by
  rw [MessageDeframer.prepareRead, hzero]
  cases d.joiningHs <;> simp [maxHandshakeSize, maxWireSize, maxPayload, readSize]

/-- `prepare_read` does the same over both buffers; it returns an error for both, or makes room
    behind what is unread. -/
theorem prepareRead_spec (hd : Wf d) (halike : Alike d buf') :
    d.prepareRead = none ∧ (onBuffer d buf').prepareRead = none ∨
      ∃ e buf'', d.prepareRead = some e ∧ (onBuffer d buf').prepareRead = some (onBuffer e buf'') ∧
        Agree e.used e.buf buf'' ∧ Wf e ∧ unread e = unread d := by
  rcases halike with hagree | hzero
  · rw [MessageDeframer.prepareRead, MessageDeframer.prepareRead, onBuffer_joiningHs,
      onBuffer_used, onBuffer_buf, hagree.length]
    generalize (if d.joiningHs.isSome then maxHandshakeSize else maxWireSize) = allowMax
    dsimp only
    -- the sizes are the same, so the two calls refuse, grow or shrink together
    by_cases hfull : allowMax ≤ d.used
    · rw [if_pos hfull, if_pos hfull]
      exact .inl ⟨rfl, rfl⟩
    · rw [if_neg hfull, if_neg hfull]
      have hneed : d.used ≤ min allowMax (d.used + readSize) := by omega
      have hresized := hagree.resize hd.used_le hneed
      obtain ⟨hwf, hunread⟩ := resized_wf hd hneed
      refine .inr ?_
      split
      · exact ⟨_, _, rfl, rfl, hresized, hwf, hunread⟩
      · split
        · exact ⟨_, _, rfl, rfl, hresized, hwf, hunread⟩
        · exact ⟨d, buf', rfl, rfl, hagree, hd, rfl⟩
  · -- nothing in use: the sizes may differ before the call, but not after it
    obtain ⟨hwf, hunread⟩ := resized_wf hd (k := readSize) (by omega)
    refine .inr ⟨_, _, prepareRead_empty hzero, prepareRead_empty (d := onBuffer d buf') hzero,
      ⟨?_, ?_⟩, hwf, hunread⟩
    · dsimp only
      rw [Buffer.length_resize, Buffer.length_resize]
    · dsimp only
      rw [hzero, Buffer.window_self, Buffer.window_self]

/-- A reader has written to the free part of the buffer, and returned that `n` bytes count. -/
theorem received_spec (hd : Wf d) (hagree : Agree d.used d.buf buf') {written : List UInt8} {n : Nat}
    (hwritten : d.used + written.length ≤ d.buf.length) (hn : n ≤ written.length) :
    let e := { d with buf := Buffer.overwrite d.buf d.used written, used := d.used + n }
    Agree e.used e.buf (Buffer.overwrite buf' d.used written) ∧ Wf e ∧
      unread e = unread d ++ written.take n := by
  have hlength := hagree.length
  have hused := hd.used_le
  refine ⟨⟨?_, ?_⟩, ⟨?_, fun hs hjoining => ?_⟩, ?_⟩
  · -- both buffers keep their length
    rw [Buffer.length_overwrite hwritten, Buffer.length_overwrite (by omega), hlength]
  · -- up to the end of what counts they have the same bytes: old ones, then written ones
    rw [Buffer.window_overwrite_append (Nat.zero_le _) (by omega) hn,
      Buffer.window_overwrite_append (Nat.zero_le _) hused hn, hagree.front]
  · show d.used + n ≤ (Buffer.overwrite d.buf d.used written).length
    rw [Buffer.length_overwrite hwritten]
    omega
  · -- a message that is being joined stays where it is
    have h := hd.joining hs hjoining
    exact { h with le_used := Nat.le_add_right_of_le h.le_used }
  · exact Buffer.window_overwrite_append hd.processed_le hused hn

end Read

/-! ## Calls over two buffers -/

/-- Two deframers that cannot be told apart by `read` and `pop`. -/
def Twins (s s' : State σ) : Prop :=
  s.alive = true ∧ Wf s.deframer ∧
    ∃ buf', Alike s.deframer buf' ∧ s' = { s with deframer := onBuffer s.deframer buf' }

/-- A deframer is its own twin. -/
theorem Twins.refl {s : State σ} (halive : s.alive = true) (hwf : Wf s.deframer) : Twins s s :=
  ⟨halive, hwf, s.deframer.buf, .inl (Agree.refl _ _), rfl⟩

/-- Both still answer calls. -/
theorem Twins.both_alive {s s' : State σ} (h : Twins s s') : s.alive = true ∧ s'.alive = true := by
  obtain ⟨halive, _, _, _, rfl⟩ := h
  exact ⟨halive, halive⟩

/-- A call from `s` and the same call from its twin. -/
def Matched (s : State σ) (x x' : Option (State σ × List Effect)) : Prop :=
  x = none ∧ x' = none ∨
    ∃ t t' o, x = some (t, o) ∧ x' = some (t', o) ∧ Twins t t' ∧ Returned o ∧
      unread s.deframer ++ wire o = consumed o ++ unread t.deframer

/-- `read` cannot tell twins apart. -/
theorem read_matched {s s' : State σ} (h : Twins s s') (data : List UInt8) (result : Option Nat) :
    Matched s (s.read data result) (s'.read data result) := by
  obtain ⟨halive, hwf, buf', halike, rfl⟩ := h
  rw [State.read, State.read]
  rcases prepareRead_spec hwf halike with
    ⟨hnone, hnone'⟩ | ⟨e, buf'', hsome, hsome', hagree, hwf', hunread⟩
  · rw [hnone, hnone']
    exact .inr ⟨s, _, _, rfl, rfl, ⟨halive, hwf, buf', halike, rfl⟩, by simp [Returned],
      by simp [wire, consumed]⟩
  · rw [hsome, hsome']
    have hused := hwf'.used_le
    have hlength := hagree.length
    have hroom : (onBuffer e buf'').room = e.room := by
      rw [MessageDeframer.room, MessageDeframer.room, onBuffer_buf, onBuffer_used, hlength]
    have hwritten : e.used + (data.take e.room).length ≤ e.buf.length := by
      rw [List.length_take, MessageDeframer.room]
      omega
    dsimp only
    rw [hroom, onBuffer_buf, onBuffer_used, Buffer.write_of_le hwritten, Buffer.write_of_le (by omega)]
    cases result with
    | none =>
      -- the reader failed, though it may have written
      obtain ⟨hagree', hwf'', hrest⟩ := received_spec hwf' hagree hwritten (Nat.zero_le _)
      refine .inr ⟨_, _, _, rfl, rfl, ⟨halive, hwf'', _, .inl hagree', rfl⟩, by simp [Returned], ?_⟩
      rw [List.take_zero, List.append_nil, hunread] at hrest
      exact (List.append_nil _).trans hrest.symm
    | some n =>
      dsimp only
      split
      · rename_i hn
        obtain ⟨hagree', hwf'', hrest⟩ := received_spec hwf' hagree hwritten hn
        refine .inr ⟨_, _, _, rfl, rfl, ⟨halive, hwf'', _, .inl hagree', rfl⟩, by simp [Returned], ?_⟩
        show unread s.deframer ++ wire [.received _] = [] ++ unread _
        rw [hrest, hunread, List.nil_append, wire, List.flatMap_singleton]
      · -- no reader returns more than it was given room for
        exact .inl ⟨rfl, rfl⟩

section Step

variable {rl : RecordLayer σ}

/-- With nothing unread, `pop` returns the stored error or asks for more, whatever the buffer
    holds. -/
theorem pop_empty {negotiated : Option ProtocolVersion} {d : MessageDeframer} (layer : σ)
    (hzero : d.used = 0) :
    pop rl negotiated d layer =
      .ret ⟨d.lastError.elim (.ok none) .error, d, layer, []⟩ := by
  rw [pop, if_pos hzero]
  cases d.lastError <;> rfl

/-- Nor can `pop`. -/
theorem pop_matched (hrl : Fits rl) (negotiated : Option ProtocolVersion) {s s' : State σ}
    (h : Twins s s') : Matched s (step rl s (.pop negotiated)) (step rl s' (.pop negotiated)) := by
  obtain ⟨halive, halive'⟩ := h.both_alive
  rw [step, step, if_pos halive, if_pos halive']
  obtain ⟨-, hwf, buf', halike, rfl⟩ := h
  rcases halike with hagree | hzero
  · -- the buffers agree where `pop` looks
    obtain ⟨t, buf'', heq, heq', hagree', hwf', hunread, -⟩ :=
      pop_spec negotiated hrl hwf hagree s.layer
    rw [heq, heq']
    refine .inr ⟨_, _, _, rfl, rfl, ⟨halive, hwf', _, .inl hagree', rfl⟩, returned_popped _ _, ?_⟩
    rw [wire_popped, consumed_popped, List.append_nil, hunread]
  · -- nothing is used, so the buffers may differ anywhere
    rw [pop_empty s.layer hzero, pop_empty s.layer (d := onBuffer s.deframer buf') hzero]
    refine .inr ⟨_, _, _, rfl, rfl, ⟨halive, hwf, buf', .inr hzero, rfl⟩, returned_popped _ _, ?_⟩
    rw [wire_popped, consumed_popped, List.append_nil]
    rfl

/-- **Step.** A call of `read` or `pop` returns, does the same for twins, and accounts for
    every byte. -/
theorem step_twins (hrl : Fits rl) {s s' : State σ} (h : Twins s s') {e : Event}
    (he : e ≠ .takePending) : Matched s (step rl s e) (step rl s' e) := by
  cases e with
  | takePending => exact absurd rfl he
  | pop negotiated => exact pop_matched hrl negotiated h
  | read data result =>
    rw [step, step, if_pos h.both_alive.1, if_pos h.both_alive.2]
    exact read_matched h data result

/-! ## Runs -/

/-- A deframer, and all that has been observed of it. -/
structure Accounts (s : State σ) (past : List Effect) : Prop where
  alive : s.alive = true
  wf : Wf s.deframer
  returned : Returned past
  wire_eq : wire past = consumed past ++ unread s.deframer

/-- **One step.** What comes in goes behind the unread bytes; what is taken comes from their
    front. -/
theorem accounts_step (hrl : Fits rl) {s t : State σ} {past o : List Effect} {e : Event}
    (h : Accounts s past) (he : e ≠ .takePending) (hstep : step rl s e = some (t, o)) :
    Accounts t (past ++ o) := by
  rcases step_twins hrl (Twins.refl h.alive h.wf) he with
    ⟨hnone, -⟩ | ⟨t', _, o', hsome, -, htwins, hreturned, hunread⟩
  · rw [hnone] at hstep
    cases hstep
  · rw [hsome] at hstep
    cases hstep
    refine ⟨htwins.1, htwins.2.1, List.forall_mem_append.2 ⟨h.returned, hreturned⟩, ?_⟩
    rw [wire_append, consumed_append, h.wire_eq, List.append_assoc, hunread, List.append_assoc]

/-- Nothing has come in, and nothing has been taken. -/
theorem accounts_new (layer : σ) : Accounts (State.new layer) [] where
  alive := rfl
  wf := ⟨Nat.le_refl _, nofun⟩
  returned := nofun
  wire_eq := rfl

/-- **Run.** What has come from the socket is what has been taken, followed by what is unread. -/
theorem accounts_run (hrl : Fits rl) {layer : σ} {es : List Event} (hes : ∀ e ∈ es, e ≠ .takePending)
    {s : State σ} {out : List Effect} (hrun : run (step rl) (State.new layer) es = some (s, out)) :
    Accounts s out :=
  Machine.run_history (fun _ _ _ _ _ => accounts_step hrl) (accounts_new layer) hes hrun

/-- Twins cannot be told apart. -/
theorem effects_twins (hrl : Fits rl) {s s' : State σ} (h : Twins s s') {fs : List Event}
    (hfs : ∀ e ∈ fs, e ≠ .takePending) : effects rl s fs = effects rl s' fs := by
  refine Machine.run_effects_eq (R := Twins) (fun s s' e h he => ?_) h hfs
  rcases step_twins hrl h he with hnone | ⟨t, t', o, hsome, hsome', htwins, -⟩
  · exact .inl hnone
  · exact .inr ⟨t, t', o, hsome, hsome', htwins⟩

/-! ## `take_pending` -/

/-- `take_pending` resets nothing else. -/
def emptied (s : State σ) : State σ := { s with deframer := { s.deframer with used := 0 } }

/-- `take_pending` returns the used part of the buffer, also what lies before the unread bytes. -/
theorem takePending_eq {s : State σ} (halive : s.alive = true) (hwf : Wf s.deframer) :
    step rl s .takePending =
      some (emptied s, [.pending (window s.deframer.buf 0 s.deframer.used)]) := by
  obtain ⟨⟨lastError, buf, joiningHs, used⟩, layer, alive⟩ := s
  rw [step, if_pos halive, MessageDeframer.takePending]
  split
  · rename_i hzero
    dsimp only at hzero
    rw [hzero, Buffer.window_self]
    subst hzero
    rfl
  · rw [Buffer.slice_of_le (Nat.zero_le _) hwf.used_le]
    rfl

/-- The buffer holds what is unread and nothing else, unless a message is being joined. -/
theorem unread_eq_front_iff {d : MessageDeframer} (hd : Wf d) :
    unread d = window d.buf 0 d.used ↔ d.joiningHs = none := by
  cases hjoining : d.joiningHs with
  | none =>
    rw [unread, processed, hjoining]
    exact iff_of_true rfl rfl
  | some hs =>
    refine iff_of_false (fun heq => ?_) (Option.some_ne_none hs)
    obtain ⟨-, -, -, hheader, hle⟩ := hd.joining hs hjoining
    have hlength := congrArg List.length heq
    rw [hd.length_unread, Buffer.length_window _ hd.used_le, processed, hjoining] at hlength
    dsimp only at hlength
    omega

/-- Without a message half joined and without an error, the emptied deframer is a twin of a new
    one. -/
theorem behavesFresh_emptied (hrl : Fits rl) {s : State σ} (halive : s.alive = true)
    (hjoining : s.deframer.joiningHs = none) (herror : s.deframer.lastError = none) :
    BehavesFresh rl (emptied s) := by
  -- emptied, it differs from a new one in the contents of the buffer only
  have hnew : State.new s.layer = { emptied s with deframer := onBuffer (emptied s).deframer [] } := by
    simp [State.new, emptied, onBuffer, MessageDeframer.new, halive, hjoining, herror]
  have htwins : Twins (emptied s) (State.new s.layer) := by
    refine ⟨halive, ⟨Nat.zero_le _, fun hs h => ?_⟩, [], .inr rfl, hnew⟩
    rw [show (emptied s).deframer.joiningHs = none from hjoining] at h
    cases h
  intro fs hfs
  have heq := effects_twins hrl htwins hfs
  refine ⟨heq, fun out hout => ?_⟩
  rw [heq] at hout
  obtain ⟨⟨t, out⟩, hrun, rfl⟩ := Option.map_eq_some_iff.1 hout
  exact (accounts_run hrl hfs hrun).returned

/-! ### What gives a deframer away -/

/-- A deframer that was empty, with one byte read. -/
def probed (d : MessageDeframer) (b : UInt8) : MessageDeframer :=
  { d with buf := Buffer.overwrite (Buffer.resize d.buf readSize 0) 0 [b], used := 1 }

/-- One byte read into an empty buffer. -/
theorem read_empty {s : State σ} (halive : s.alive = true) (hzero : s.deframer.used = 0) (b : UInt8) :
    step rl s (.read [b] (some 1)) =
      some ({ s with deframer := probed s.deframer b }, [.received [b]]) := by
  have hlength := Buffer.length_resize s.deframer.buf readSize 0
  have hroom : [b].take (readSize - 0) = [b] := rfl
  rw [step, if_pos halive, State.read, prepareRead_empty hzero]
  dsimp only [MessageDeframer.room]
  rw [hzero, hlength, hroom, Buffer.write_of_le (by rw [hlength]; simp [readSize])]
  rfl

/-- A joined message is returned; `finish` never asks for more. -/
theorem finish_ne_none {d e : MessageDeframer} {len : Nat} {r : Except Error (Option Deframed)}
    (h : finish d len = .ret (r, e)) : r ≠ .ok none := by
  rintro rfl
  rw [finish] at h
  split at h
  · cases h
  · obtain ⟨payload, -, h⟩ := Outcome.bind_eq_ret h
    dsimp only at h
    split at h
    · obtain ⟨rest, -, h⟩ := Outcome.bind_eq_ret h
      split at h <;> cases h
    · obtain ⟨d', -, h⟩ := Outcome.bind_eq_ret h
      cases h

/-- Where the records are looked for behind the end of the buffer, `pop` does not find that
    there is nothing to do. -/
theorem pop_joining {negotiated : Option ProtocolVersion} {d : MessageDeframer} {layer : σ}
    {hs : HandshakePayloadMeta} (herror : d.lastError = none) (hused : d.used = 1)
    (hjoining : d.joiningHs = some hs) (hquic : hs.quic = false) (hheader : 5 ≤ hs.message.stop)
    {t : Turn σ (Except Error (Option Deframed))} (h : pop rl negotiated d layer = .ret t) :
    t.result ≠ .ok none := by
  -- either a message is complete already, or a record is read from `hs.message.stop` on
  have hpanic : popRecord rl negotiated d layer hs.message.stop = .panic := by
    rw [popRecord, Buffer.slice, if_neg (by omega)]
    rfl
  rw [pop, herror] at h
  dsimp only at h
  rw [hused, if_neg (by decide), popLoop] at h
  obtain ⟨body, hbody, h⟩ := Outcome.bind_eq_ret h
  rw [popBody, hjoining] at hbody
  dsimp only at hbody
  rw [hquic, hpanic] at hbody
  cases hlen : hs.expectedLen with
  | none =>
    rw [hlen] at hbody
    cases hbody
  | some len =>
    rw [hlen] at hbody
    dsimp only at hbody
    split at hbody
    · cases hbody
      obtain ⟨⟨r, e⟩, hfinish, h⟩ := Outcome.bind_eq_ret h
      cases h
      exact finish_ne_none hfinish
    · cases hbody

/-- What is seen of a call of `pop`. -/
def report : Outcome (Turn σ (Except Error (Option Deframed))) → List Effect
  | .ret t => t.taken.map Effect.took ++ [.popped t.result]
  | .panic => [.panicked]
  | .diverge => [.hung]

/-- The result of a `pop` can be read off its effects. -/
theorem ret_of_report {x : Outcome (Turn σ (Except Error (Option Deframed)))}
    {r : Except Error (Option Deframed)} (h : report x = [.popped r]) :
    ∃ t, x = .ret t ∧ t.result = r := by
  cases x with
  | ret t =>
    have hlast := congrArg List.getLast? h
    rw [report, List.getLast?_concat] at hlast
    cases hlast
    exact ⟨t, rfl, rfl⟩
  | panic => cases h
  | diverge => cases h

/-- The effects of a run, call by call. -/
theorem effects_cons {s t : State σ} {e : Event} {o : List Effect} (h : step rl s e = some (t, o))
    (es : List Event) : effects rl s (e :: es) = (effects rl t es).map (o ++ ·) := by
  rw [effects, effects, run, h, Option.map_map, Option.map_map]
  rfl

/-- A run of one `pop`. -/
theorem effects_pop {s : State σ} (halive : s.alive = true) (negotiated : Option ProtocolVersion) :
    effects rl s [.pop negotiated] = some (report (pop rl negotiated s.deframer s.layer)) := by
  rw [effects, run, step, if_pos halive]
  cases pop rl negotiated s.deframer s.layer <;> simp [run, State.after, report]

/-- A byte is read and `pop` called: what this shows gives away a deframer that is not as good
    as new. -/
theorem effects_probed {s : State σ} (halive : s.alive = true) (hzero : s.deframer.used = 0) (b : UInt8)
    (negotiated : Option ProtocolVersion) :
    effects rl s [.read [b] (some 1), .pop negotiated] =
      some (.received [b] :: report (pop rl negotiated (probed s.deframer b) s.layer)) := by
  rw [effects_cons (read_empty halive hzero b),
    effects_pop (s := { s with deframer := probed s.deframer b }) halive]
  rfl

/-- A new deframer waits for the rest of the record. -/
theorem pop_probed_new (layer : σ) :
    report (pop rl none (probed .new 0x16) layer) = [.popped (.ok none)] := by
  have hslice : Buffer.slice (probed .new 0x16).buf 0 1 = .ret [0x16] := by
    rw [Buffer.slice_of_le (by decide) (by simp [probed, Buffer.overwrite])]
    rfl
  have hrecord : popRecord rl none (probed .new 0x16) layer 0 =
      .ret ⟨.done (.ok none), probed .new 0x16, layer, []⟩ := by
    rw [popRecord, show (probed .new 0x16).used = 1 from rfl, hslice]
    rfl
  have hbody : popBody rl none (probed .new 0x16) layer = _ := hrecord
  have hpop : pop rl none (probed .new 0x16) layer = popLoop rl none 2 (probed .new 0x16) layer := rfl
  rw [hpop, popLoop, hbody]
  rfl

/-- An error that is kept, or ranges that are, are found out. -/
theorem none_of_behavesFresh {s : State σ} (halive : s.alive = true) (hwf : Wf s.deframer)
    (h : BehavesFresh rl (emptied s)) :
    s.deframer.joiningHs = none ∧ s.deframer.lastError = none := by
  have hemptied : (emptied s).alive = true := halive
  -- a kept error comes out of the first `pop`
  have herror : s.deframer.lastError = none := by
    have heq := (h [.pop none] (by simp)).1
    rw [effects_pop hemptied, effects_pop rfl, pop_empty _ rfl, pop_empty _ rfl] at heq
    cases hlast : s.deframer.lastError with
    | none => rfl
    | some e =>
      rw [show (emptied s).deframer.lastError = some e from hlast] at heq
      cases heq
  refine ⟨?_, herror⟩
  cases hjoining : s.deframer.joiningHs with
  | none => rfl
  | some hs =>
    -- one byte of a record is not enough for a new deframer, but this one goes on from `hs`
    have heq := (h [.read [0x16] (some 1), .pop none] (by simp)).1
    rw [effects_probed hemptied rfl, effects_probed rfl rfl] at heq
    have hreport := (List.cons.inj (Option.some.inj heq)).2.trans (pop_probed_new _)
    obtain ⟨t, ht, hresult⟩ := ret_of_report hreport
    obtain ⟨hquic, -, -, hheader, -⟩ := hwf.joining hs hjoining
    exact absurd hresult
      (pop_joining (d := probed (emptied s).deframer 0x16) herror rfl hjoining hquic hheader ht)

/-! ## Main result -/

/-- **Taking over.** After any calls of `read` and `pop`, `take_pending` returns. What it
    returns is what has come from the socket and belongs to no record that `pop` has taken,
    exactly if no handshake message is being joined; the deframer it leaves does what a new
    one does, exactly if no error is kept either. -/
theorem takePending_hands_over (hrl : Fits rl) {layer : σ} {es : List Event}
    (hes : ∀ e ∈ es, e ≠ .takePending) {s : State σ} {out : List Effect}
    (hrun : run (step rl) (State.new layer) es = some (s, out)) :
    ∃ t data, step rl s .takePending = some (t, [.pending data]) ∧
      (wire out = consumed out ++ data ↔ s.deframer.joiningHs = none) ∧
      (BehavesFresh rl t ↔ s.deframer.joiningHs = none ∧ s.deframer.lastError = none) := by
  obtain ⟨halive, hwf, -, hwire⟩ := accounts_run hrl hes hrun
  refine ⟨_, _, takePending_eq halive hwf, ?_, ?_⟩
  · rw [hwire, List.append_cancel_left_eq]
    exact unread_eq_front_iff hwf
  · exact ⟨none_of_behavesFresh halive hwf, fun h => behavesFresh_emptied hrl halive h.1 h.2⟩

end Step

/-- Records that are not encrypted. -/
def plainLayer : RecordLayer Unit where
  hasDecrypted _ := false
  decryptIncoming layer m := (.ok (some m.intoPlainMessage), layer)

/-- An unencrypted record is no longer than its payload. -/
theorem plainLayer_fits : Fits plainLayer := by
  rintro layer m msg ⟨⟩ -
  exact Nat.le_add_right _ _

/-- A record of one byte, and the first byte of what follows. -/
def leftover : List Event := [.read [0x17, 3, 3, 0, 1, 0x41, 0x42] (some 7), .pop none]

theorem takePending_hands_over_leftover :
    ∃ s out t data, run (step plainLayer) (State.new ()) leftover = some (s, out) ∧
      step plainLayer s .takePending = some (t, [.pending data]) ∧
      wire out = consumed out ++ data ∧ BehavesFresh plainLayer t := by
  have hend : (run (step plainLayer) (State.new ()) leftover).map
      (fun r => (r.1.deframer.joiningHs, r.1.deframer.lastError)) = some (none, none) := by
    decide +kernel
  obtain ⟨⟨s, out⟩, hrun, hs⟩ := Option.map_eq_some_iff.1 hend
  obtain ⟨hjoining, herror⟩ := Prod.mk.inj hs
  obtain ⟨t, data, hstep, hdata, hfresh⟩ :=
    takePending_hands_over plainLayer_fits (by decide) hrun
  exact ⟨s, out, t, data, hrun, hstep, hdata.2 hjoining, hfresh.2 ⟨hjoining, herror⟩⟩

/-- The first record of a handshake message, of which nine more bytes are to come. -/
def half : List UInt8 := [0x16, 3, 3, 0, 4, 1, 0, 0, 9]

/-- Every record decrypts to a handshake message of seven bytes. -/
def growingLayer : RecordLayer Unit where
  hasDecrypted _ := false
  decryptIncoming layer m := (.ok (some ⟨.handshake, m.version, [1, 0, 0, 3, 7, 7, 7]⟩), layer)

/-- A message half joined: `pop` has taken all that was read, but `take_pending` returns nine
    bytes, and the next `pop` panics. An error: it is still there. A payload that is longer
    than its record: it runs over what is unread, `0x42`. -/
theorem takePending_invents_bytes :
    effects plainLayer (State.new ()) [.read half (some 9), .pop none, .takePending,
        .read [0x16] (some 1), .pop none] =
      some [.received half, .took half, .popped (.ok none), .pending [1, 0, 0, 9, 4, 1, 0, 0, 9],
        .received [0x16], .panicked] ∧
    effects plainLayer (State.new ()) [.read [0] (some 1), .pop none, .takePending, .pop none] =
      some [.received [0], .popped (.error .invalidContentType), .pending [0],
        .popped (.error .invalidContentType)] ∧
    effects growingLayer (State.new ()) [.read [0x16, 3, 3, 0, 1, 0, 0x42] (some 7), .pop none,
        .takePending] =
      some [.received [0x16, 3, 3, 0, 1, 0, 0x42], .took [0x16, 3, 3, 0, 1, 0],
        .popped (.ok (some ⟨true, true, .handshake, .tlsv1_2, [1, 0, 0, 3, 7, 7, 7]⟩)),
        .pending [7]] := by
  refine ⟨?_, ?_, ?_⟩ <;> decide +kernel

end Fogged.Spec.Deframer
