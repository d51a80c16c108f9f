import Fogged.Spec.VisionMachine

/-!
# Vision un-padding: chunking and failure

Consequences of `feed` being the byte machine run over its chunk. How the
transport cuts the stream makes no difference, and the reader fails closed: an
error is final, and nothing is emitted before the user's UUID has been seen.

## Key results

- `feed_append`: chunk boundaries are invisible, in every reachable state
- `feedCalls_fail_closed`: runs that go on after an error
-/

namespace Fogged.Spec.Vision

open Fogged.Native.Vision
open Fogged.Native.Vision.UnpadState
open Transducer

/-! ## Reachable states -/

/-- The states of a reader for `uuid` after any calls of `feed`. -/
inductive Reachable (uuid : Uuid) : UnpadState → Prop where
  | new : Reachable uuid (UnpadState.new uuid)
  | feed {s : UnpadState} {wire : List UInt8} {r : Report UnpadState UInt8 UnpadError} :
      Reachable uuid s → feed s wire = .ret r → Reachable uuid r.state

/-- What a call of `feed` reports, in a state with the invariant. -/
def report (s : UnpadState) (w : List UInt8) : Report UnpadState UInt8 UnpadError :=
  if Rejected s then ⟨.error .uuidMismatch, s, []⟩ else run byteStep s w

/-- With the invariant, `feed` returns. -/
theorem feed_eq_report {s : UnpadState} (h : Inv s) (w : List UInt8) :
    feed s w = .ret (report s w) := by
  unfold report
  split
  · rename_i hr
    exact feed_of_rejected h hr w
  · rename_i hr
    exact feed_eq_run h hr w

/-- And keeps it. -/
theorem report_inv {s : UnpadState} (h : Inv s) (w : List UInt8) : Inv (report s w).state := by
  unfold report
  split
  · exact h
  · exact run_invariant byteStep_inv s w h

/-- So every reachable state has it. -/
theorem reachable_inv {uuid : Uuid} {s : UnpadState} (h : Reachable uuid s) : Inv s := by
  induction h with
  | new => exact new_inv uuid
  | feed _ hfeed ih =>
    rw [feed_eq_report ih] at hfeed
    cases hfeed
    exact report_inv ih _

/-- What follows a frame does not concern the prefix. -/
theorem settle_uuid (s : UnpadState) (out : List UInt8) :
    (settle s out).state.userUuid = s.userUuid ∧ (settle s out).state.uuidBuf = s.uuidBuf ∧
      (settle s out).state.uuidDone = s.uuidDone := by
  unfold settle
  split
  · split <;> exact ⟨rfl, rfl, rfl⟩
  · exact ⟨rfl, rfl, rfl⟩

/-! ## Errors are final -/

/-- An error at the end of a frame leaves the frame complete, with the command that is not
    known. -/
theorem settle_error {s : UnpadState} (h : Framing s) (out : List UInt8) (e : UnpadError)
    (he : (settle s out).verdict = .error e) : Failed e (settle s out).state := by
  unfold settle at he ⊢
  split at he
  · rename_i hcomp
    split at he
    · -- the three commands of the format
      cases he
    · cases he
    · cases he
    · rename_i hcmd
      simp only [Except.error.injEq] at he
      subst he
      simp only [hcomp, if_true]
      exact ⟨h.uuidDone, h.done, hcomp, rfl, hcmd⟩
  · cases he

/-- An error in the prefix leaves the prefix that does not match. -/
theorem uuidByte_error {s : UnpadState} (h : Inv s) (hu : s.uuidDone = false) (b : UInt8)
    (e : UnpadError) (he : (uuidByte s b).verdict = .error e) :
    Failed e (uuidByte s b).state := by
  obtain ⟨hlen, heq⟩ | ⟨-, heq⟩ | ⟨-, -, heq⟩ | ⟨hlen, -, heq⟩ := uuidByte_cases h b <;>
    rw [heq] at he ⊢ <;> cases he
  · exact ⟨hu, hlen⟩
  · exact ⟨hu, by simpa using hlen⟩

/-- A step that fails leaves the state that error leaves. -/
theorem byteStep_error (s : UnpadState) (b : UInt8) (e : UnpadError) (h : Inv s)
    (he : (byteStep s b).verdict = .error e) : Failed e (byteStep s b).state := by
  obtain ⟨hu, heq⟩ | ⟨-, -, heq⟩ | ⟨-, s', out, hf, -, heq⟩ := byteStep_cases h b
  · rw [heq] at he ⊢
    exact uuidByte_error h hu b e he
  · rw [heq] at he
    cases he
  · rw [heq] at he ⊢
    exact settle_error hf out e he

/-- A call that returns an error leaves the state that error leaves. -/
theorem report_error {s : UnpadState} (h : Inv s) (w : List UInt8) (e : UnpadError)
    (he : (report s w).verdict = .error e) : Failed e (report s w).state := by
  unfold report at he ⊢
  split
  · rename_i hr
    rw [if_pos hr] at he
    cases he
    exact hr
  · rename_i hr
    rw [if_neg hr] at he
    exact run_error byteStep_inv (fun s b e hs => byteStep_error s b e hs) s w h e he

/-- After an error a call changes nothing, emits nothing and, unless its chunk is
    empty, returns the same error. -/
theorem report_of_failed {s : UnpadState} {e : UnpadError} (h : Failed e s) (w : List UInt8) :
    (report s w).state = s ∧ (report s w).out = [] ∧
      (w ≠ [] → (report s w).verdict = .error e) := by
  have hrun : w ≠ [] → run byteStep s w = ⟨.error e, s, []⟩ :=
    run_of_stuck (byteStep_of_failed h) w
  unfold report
  split
  · -- a rejected stream: the call fails before it looks at its chunk
    rename_i hr
    refine ⟨rfl, rfl, fun _ => ?_⟩
    cases e with
    | uuidMismatch => rfl
    | badCommand c => exact absurd h.1 (by simp [hr.1])
  · by_cases hw : w = []
    · subst hw
      exact ⟨rfl, rfl, fun h => absurd rfl h⟩
    · rw [hrun hw]
      exact ⟨rfl, rfl, fun _ => rfl⟩

/-- In a failed state neither end flag is set. -/
theorem failed_flags {s : UnpadState} {e : UnpadError} (h : Inv s) (hf : Failed e s) :
    s.isDone = false ∧ s.isDirect = false := by
  cases e with
  | uuidMismatch => exact h.flags_clear hf.1
  | badCommand c =>
    have := h.framing hf.1 hf.2.1
    exact ⟨this.done, this.direct⟩

/-! ## Chunk boundaries -/

/-- The states from which a call of `feed` runs the machine, also on an empty chunk. -/
def Live (s : UnpadState) : Prop := Inv s ∧ ¬ Rejected s

/-- A step that succeeds does not reject the stream. -/
theorem byteStep_live (s : UnpadState) (b : UInt8) (h : Live s)
    (hok : (byteStep s b).verdict = .ok ()) : Live (byteStep s b).state := by
  refine ⟨byteStep_inv s b h.1, fun hrej => ?_⟩
  obtain ⟨hu, heq⟩ | ⟨-, -, heq⟩ | ⟨-, s', out, hf, -, heq⟩ := byteStep_cases h.1 b
  · -- a prefix byte that succeeds leaves a short or a validated prefix
    rw [heq] at hok hrej
    obtain ⟨-, hb⟩ | ⟨hlt, hb⟩ | ⟨-, -, hb⟩ | ⟨-, -, hb⟩ := uuidByte_cases h.1 b <;>
      rw [hb] at hok hrej
    · cases hok
    · have hlen := hrej.2
      rw [List.length_append, List.length_singleton] at hlen
      omega
    · cases hrej.1
    · cases hok
  · rw [heq] at hrej
    exact h.2 hrej
  · have hu := hrej.1
    rw [heq, (settle_uuid s' out).2.2, hf.uuidDone] at hu
    cases hu

theorem new_live (uuid : Uuid) : Live (UnpadState.new uuid) :=
  ⟨new_inv uuid, by simp [Rejected, UnpadState.new]⟩

/-- A live state runs the machine. -/
theorem feed_eq_run_of_live (s : UnpadState) (w : List UInt8) (h : Live s) :
    feed s w = .ret (run byteStep s w) :=
  feed_eq_run h.1 h.2 w

/-- A live state stays so, unless an error ends it. -/
theorem run_live (s : UnpadState) (w : List UInt8) (h : Live s)
    (hok : (run byteStep s w).verdict = .ok ()) : Live (run byteStep s w).state :=
  run_ok byteStep_live s w h hok

/-- From a live state the chunks of a stream give the report of the whole. -/
theorem feedChunks_of_live {s : UnpadState} (h : Live s) (chunks : List (List UInt8)) :
    feedChunks feed s chunks = .ret (run byteStep s chunks.flatten) :=
  feedChunks_eq_run feed_eq_run_of_live run_live s chunks h

/-- Feeding a concatenation is feeding its parts in turn. -/
theorem report_append {s : UnpadState} (h : Inv s) (a b : List UInt8) :
    report s (a ++ b) = (report s a).andThen fun t => report t b := by
  by_cases hr : Rejected s
  · simp only [report, if_pos hr, Report.andThen_error]
  · have hsplit : report s (a ++ b) = (run byteStep s a).andThen fun t => run byteStep t b := by
      rw [report, if_neg hr, run_append]
    rw [hsplit, report, if_neg hr]
    -- if the first part succeeds, the second call starts from a live state again
    cases hv : (run byteStep s a).verdict with
    | error e => simp only [Report.andThen, hv]
    | ok u =>
      have hlive := run_live s a ⟨h, hr⟩ hv
      simp only [Report.andThen, hv, report, if_neg hlive.2]

/-- Any non-empty list of chunks gives the report of the whole, also from a
    rejected state. -/
theorem feedChunks_of_inv {s : UnpadState} (h : Inv s) (chunks : List (List UInt8))
    (hne : chunks ≠ []) : feedChunks feed s chunks = feed s chunks.flatten := by
  by_cases hr : Rejected s
  · cases chunks with
    | nil => exact absurd rfl hne
    | cons c cs =>
      rw [feedChunks, feed_of_rejected h hr, feed_of_rejected h hr]
      rfl
  · rw [feedChunks_of_live ⟨h, hr⟩, feed_eq_run h hr]

/-- **Chunk boundaries are invisible.** In every reachable state, feeding `a ++ b`
    is feeding `a` and then, if that succeeded, `b`: the same verdict, state and
    output. Hence every partition of a stream gives the report of the whole. -/
theorem feed_append (uuid : Uuid) (s : UnpadState) (hs : Reachable uuid s) :
    (∀ a b : List UInt8, ∃ ra, feed s a = .ret ra ∧
      (ra.verdict = .ok () → ∃ rb, feed ra.state b = .ret rb ∧
        feed s (a ++ b) = .ret ⟨rb.verdict, rb.state, ra.out ++ rb.out⟩) ∧
      (∀ e, ra.verdict = .error e → feed s (a ++ b) = .ret ra)) ∧
    (∀ chunks : List (List UInt8), chunks ≠ [] →
      feedChunks feed s chunks = feed s chunks.flatten) ∧
    (∀ chunks : List (List UInt8),
      feedChunks feed (UnpadState.new uuid) chunks =
        feed (UnpadState.new uuid) chunks.flatten) := by
  have h := reachable_inv hs
  refine ⟨?_, feedChunks_of_inv h, ?_⟩
  · intro a b
    refine ⟨report s a, feed_eq_report h a, ?_, ?_⟩
    · -- `feed` checks for a rejected prefix first, and that does not change in between
      intro hok
      refine ⟨report (report s a).state b, feed_eq_report (report_inv h a) b, ?_⟩
      rw [feed_eq_report h, report_append h]
      simp only [Report.andThen, hok]
    · intro e he
      rw [feed_eq_report h, report_append h]
      simp only [Report.andThen, he]
  · intro chunks
    rw [feedChunks_of_live (new_live uuid), feed_eq_run_of_live _ _ (new_live uuid)]

/-- The user id of the source's own tests. -/
def testUuid : Uuid := ⟨[1, 2, 3, 4, 5, 6, 7, 8, 9, 10, 11, 12, 13, 14, 15, 16], rfl⟩

/-- The prefix, the header of a frame with three bytes of content, and the first of these. -/
def frameBegun : List UInt8 := testUuid.toList ++ [0, 0, 3, 0, 2, 0x0A]

/-- A cut inside the UUID prefix, and one inside a frame that an earlier call has begun. -/
theorem feed_append_in_frame :
    feedChunks feed (UnpadState.new testUuid) [[1, 2], [3]] =
        feed (UnpadState.new testUuid) [1, 2, 3] ∧
      ∃ r, feed (UnpadState.new testUuid) frameBegun = .ret r ∧ r.out = [0x0A] ∧
        r.state.remainingContent = 2 ∧
        feedChunks feed r.state [[0x0B], [0x0C, 0]] = feed r.state [0x0B, 0x0C, 0] := by
  have hnew : Reachable testUuid (UnpadState.new testUuid) := .new
  refine ⟨(feed_append testUuid _ hnew).2.1 [[1, 2], [3]] (by decide), ?_⟩
  refine ⟨_, feed_eq_report (reachable_inv hnew) frameBegun, by decide +kernel, by decide +kernel, ?_⟩
  exact (feed_append testUuid _ (hnew.feed (feed_eq_report (reachable_inv hnew) frameBegun))).2.1
    [[0x0B], [0x0C, 0]] (by decide)

/-! ## Calls after an error -/

/-- After an error, every later call leaves the state alone, emits nothing and
    repeats the error unless its chunk is empty. -/
theorem calls_of_failed {s : UnpadState} {e : UnpadError} (h : Failed e s)
    (chunks : List (List UInt8)) (j : Nat) (r : Report UnpadState UInt8 UnpadError)
    (hr : (calls report s chunks)[j]? = some r) :
    r.state = s ∧ r.out = [] ∧ (∀ c, chunks[j]? = some c → c ≠ [] → r.verdict = .error e) := by
  induction chunks generalizing j with
  | nil => simp [calls] at hr
  | cons c cs ih =>
    obtain ⟨hstate, hout, hverdict⟩ := report_of_failed h c
    -- the first call leaves the state as it was, so the others start from it too
    cases j with
    | zero =>
      simp only [calls, List.getElem?_cons_zero, Option.some.injEq] at hr
      subst hr
      refine ⟨hstate, hout, ?_⟩
      intro c' hc' hne
      simp only [List.getElem?_cons_zero, Option.some.injEq] at hc'
      subst hc'
      exact hverdict hne
    | succ j =>
      simp only [calls, List.getElem?_cons_succ, hstate] at hr ⊢
      exact ih j hr

/-- An error is final, over any sequence of calls. -/
theorem calls_sticky {s : UnpadState} (h : Inv s) (chunks : List (List UInt8)) (i j : Nat)
    (hij : i ≤ j) (ri rj : Report UnpadState UInt8 UnpadError) (e : UnpadError)
    (hi : (calls report s chunks)[i]? = some ri) (he : ri.verdict = .error e)
    (hj : (calls report s chunks)[j]? = some rj) :
    rj.state.isDone = false ∧ rj.state.isDirect = false ∧
      (i < j → rj.out = [] ∧ (∀ c, chunks[j]? = some c → c ≠ [] → rj.verdict = .error e)) := by
  induction chunks generalizing s i j with
  | nil => simp [calls] at hi
  | cons c cs ih =>
    have hinv := report_inv h c
    cases i with
    | zero =>
      simp only [calls, List.getElem?_cons_zero, Option.some.injEq] at hi
      subst hi
      -- this call fails, so the later ones find a failed state
      have hfail := report_error h c e he
      have hflags := failed_flags hinv hfail
      cases j with
      | zero =>
        simp only [calls, List.getElem?_cons_zero, Option.some.injEq] at hj
        subst hj
        exact ⟨hflags.1, hflags.2, fun hlt => absurd hlt (lt_irrefl 0)⟩
      | succ j =>
        simp only [calls, List.getElem?_cons_succ] at hj ⊢
        obtain ⟨hstate, hout, hverdict⟩ := calls_of_failed hfail cs j rj hj
        rw [hstate]
        exact ⟨hflags.1, hflags.2, fun _ => ⟨hout, hverdict⟩⟩
    | succ i =>
      -- neither call is the first: both belong to the run of the other chunks
      cases j with
      | zero => omega
      | succ j =>
        simp only [calls, List.getElem?_cons_succ, Nat.add_lt_add_iff_right] at hi hj ⊢
        exact ih hinv i j (by omega) hi hj

/-! ## Nothing is emitted before the UUID has been seen -/

/-- A step extends the prefix buffer up to 16 bytes and keeps the user. -/
theorem byteStep_uuidBuf {s : UnpadState} (h : Inv s) (b : UInt8) :
    (byteStep s b).state.uuidBuf = (s.uuidBuf ++ [b]).take 16 ∧
      (byteStep s b).state.userUuid = s.userUuid := by
  -- a full buffer stays as it is
  have hfull : ∀ l : List UInt8, l.length = 16 → (l ++ [b]).take 16 = l := by
    intro l hl
    rw [List.take_append_of_le_length (by omega), List.take_of_length_le (by omega)]
  obtain ⟨hu, heq⟩ | ⟨hu, -, heq⟩ | ⟨hu, s', out, hf, huser, heq⟩ := byteStep_cases h b
  · rw [heq]
    obtain ⟨hlen, hb⟩ | ⟨hlt, hb⟩ | ⟨hlen, -, hb⟩ | ⟨hlen, -, hb⟩ := uuidByte_cases h b <;>
      rw [hb]
    · exact ⟨(hfull _ hlen).symm, rfl⟩
    all_goals
      refine ⟨?_, rfl⟩
      rw [List.take_of_length_le]
      simp only [List.length_append, List.length_singleton]
      omega
  · rw [heq, hfull _ (by simp [h.uuidBuf_eq hu])]
    exact ⟨rfl, rfl⟩
  · obtain ⟨huser', hbuf', -⟩ := settle_uuid s' out
    rw [heq, hbuf', huser', hf.uuidBuf_eq, huser, h.uuidBuf_eq hu, hfull _ (by simp)]
    exact ⟨rfl, rfl⟩

/-- A failed reader has a full prefix buffer. -/
theorem failed_uuidBuf {s : UnpadState} {e : UnpadError} (h : Inv s) (hf : Failed e s) :
    s.uuidBuf.length = 16 := by
  cases e with
  | uuidMismatch => exact hf.2
  | badCommand c => simp [h.uuidBuf_eq hf.1]

/-- The buffer of the prefix keeps 16 bytes. -/
theorem take_take_append (n : Nat) (a b : List UInt8) :
    (a.take n ++ b).take n = (a ++ b).take n := by
  simp only [List.take_append, List.take_take, Nat.min_self, List.length_take]
  by_cases h : n ≤ a.length
  · simp [h]
  · rw [Nat.min_eq_right (by omega)]

/-- The prefix buffer holds the first 16 bytes of the stream. -/
theorem run_uuidBuf {s : UnpadState} (h : Inv s) (w : List UInt8) :
    (run byteStep s w).state.uuidBuf = (s.uuidBuf ++ w).take 16 ∧
      (run byteStep s w).state.userUuid = s.userUuid := by
  induction w generalizing s with
  | nil => simp [List.take_of_length_le h.uuidBuf_le]
  | cons b bs ih =>
    obtain ⟨hbuf, huser⟩ := byteStep_uuidBuf h b
    have hinv := byteStep_inv s b h
    rw [run_cons]
    cases hv : (byteStep s b).verdict with
    | error e =>
      -- the run stops here, with a buffer that more bytes would not change
      have hlen := failed_uuidBuf hinv (byteStep_error s b e h hv)
      simp only [Report.andThen, hv]
      refine ⟨?_, huser⟩
      rw [show s.uuidBuf ++ b :: bs = (s.uuidBuf ++ [b]) ++ bs by simp, ← take_take_append, ← hbuf,
        List.take_append_of_le_length (by omega), List.take_of_length_le (by omega)]
    | ok u =>
      obtain ⟨hbuf', huser'⟩ := ih hinv
      simp only [Report.andThen, hv]
      refine ⟨?_, huser'.trans huser⟩
      rw [hbuf', hbuf, take_take_append]
      simp

/-- A validated reader stays validated. -/
theorem byteStep_uuidDone (s : UnpadState) (b : UInt8) (h : Inv s ∧ s.uuidDone = true) :
    Inv (byteStep s b).state ∧ (byteStep s b).state.uuidDone = true := by
  refine ⟨byteStep_inv s b h.1, ?_⟩
  obtain ⟨hu, -⟩ | ⟨hu, -, heq⟩ | ⟨-, s', out, hf, -, heq⟩ := byteStep_cases h.1 b
  · rw [h.2] at hu
    cases hu
  · rw [heq]
    exact hu
  · rw [heq, (settle_uuid s' out).2.2, hf.uuidDone]

/-- A byte of the prefix is not passed on. -/
theorem byteStep_out {s : UnpadState} (h : Inv s) (b : UInt8)
    (hu : (byteStep s b).state.uuidDone = false) : (byteStep s b).out = [] := by
  cases hs : s.uuidDone with
  | true =>
    rw [(byteStep_uuidDone s b ⟨h, hs⟩).2] at hu
    cases hu
  | false =>
    rw [byteStep, if_pos hs]
    obtain ⟨-, hb⟩ | ⟨-, hb⟩ | ⟨-, -, hb⟩ | ⟨-, -, hb⟩ := uuidByte_cases h b <;> rw [hb]

/-- Before validation nothing is emitted. -/
theorem run_out {s : UnpadState} (h : Inv s) (w : List UInt8)
    (hu : (run byteStep s w).state.uuidDone = false) : (run byteStep s w).out = [] := by
  induction w generalizing s with
  | nil => rfl
  | cons b bs ih =>
    have hinv := byteStep_inv s b h
    rw [run_cons] at hu ⊢
    cases hv : (byteStep s b).verdict with
    | error e =>
      simp only [Report.andThen, hv] at hu ⊢
      exact byteStep_out h b hu
    | ok u =>
      simp only [Report.andThen, hv] at hu ⊢
      -- had the first step validated the prefix, the whole run would have
      have hfirst : (byteStep s b).state.uuidDone = false := by
        cases hs : (byteStep s b).state.uuidDone with
        | false => rfl
        | true =>
          have hrun := run_invariant byteStep_uuidDone _ bs ⟨hinv, hs⟩
          rw [hrun.2] at hu
          cases hu
      rw [byteStep_out h b hfirst, ih hinv hu, List.nil_append]

/-- A call emits something only if the stream so far starts with the user's UUID. -/
theorem report_out {s : UnpadState} (h : Inv s) (c : List UInt8) (hout : (report s c).out ≠ []) :
    (s.uuidBuf ++ c).take 16 = s.userUuid.toList := by
  unfold report at hout
  split at hout
  · exact absurd rfl hout
  · have hinv := run_invariant byteStep_inv s c h
    obtain ⟨hbuf, huser⟩ := run_uuidBuf h c
    cases hu : (run byteStep s c).state.uuidDone with
    | false => exact absurd (run_out h c hu) hout
    | true => rw [← hbuf, hinv.uuidBuf_eq hu, huser]

/-- The buffer of the prefix holds the first 16 bytes. -/
theorem report_uuidBuf {s : UnpadState} (h : Inv s) (c : List UInt8) :
    (report s c).state.uuidBuf = (s.uuidBuf ++ c).take 16 ∧
      (report s c).state.userUuid = s.userUuid := by
  unfold report
  split
  · rename_i hr
    refine ⟨?_, rfl⟩
    rw [List.take_append_of_le_length (by rw [hr.2]), List.take_of_length_le h.uuidBuf_le]
  · exact run_uuidBuf h c

/-- Some call of a sequence emits something only if the stream starts with the
    user's UUID. -/
theorem calls_out {s : UnpadState} (h : Inv s) (chunks : List (List UInt8))
    (r : Report UnpadState UInt8 UnpadError) (hr : r ∈ calls report s chunks) (hout : r.out ≠ []) :
    (s.uuidBuf ++ chunks.flatten).take 16 = s.userUuid.toList := by
  induction chunks generalizing s with
  | nil => simp [calls] at hr
  | cons c cs ih =>
    rw [List.flatten_cons, ← List.append_assoc, ← take_take_append]
    simp only [calls, List.mem_cons] at hr
    -- the first call sees its own chunk, the later ones start from what it collected
    cases hr with
    | inl heq =>
      subst heq
      rw [report_out h c hout, List.take_append_of_le_length (by simp),
        List.take_of_length_le (by simp)]
    | inr hmem =>
      obtain ⟨hbuf, huser⟩ := report_uuidBuf h c
      rw [← hbuf, ← huser]
      exact ih (report_inv h c) hmem

/-- **The reader fails closed**, over every run of calls, also of calls made after
    an error. Unless the stream starts with the user's UUID no call emits anything;
    and once a call has failed, no later call emits anything, each later call with
    a non-empty chunk fails in the same way, and the end flags stay clear. -/
theorem feedCalls_fail_closed (uuid : Uuid) (chunks : List (List UInt8)) :
    ∃ reports, feedCalls feed (UnpadState.new uuid) chunks = .ret reports ∧
      reports.length = chunks.length ∧
      (chunks.flatten.take 16 ≠ uuid.toList → ∀ r ∈ reports, r.out = []) ∧
      (∀ (i j : Nat) (ri rj : Report UnpadState UInt8 UnpadError) (e : UnpadError), i ≤ j →
        reports[i]? = some ri → ri.verdict = .error e → reports[j]? = some rj →
        rj.state.isDone = false ∧ rj.state.isDirect = false ∧
        (i < j → rj.out = [] ∧
          (∀ c, chunks[j]? = some c → c ≠ [] → rj.verdict = .error e))) := by
  have h := new_inv uuid
  refine ⟨calls report (UnpadState.new uuid) chunks, ?_, length_calls _ _ _, ?_, ?_⟩
  · exact feedCalls_eq_calls (fun s c hs => feed_eq_report hs c) (fun s c hs => report_inv hs c)
      _ chunks h
  · intro hne r hr
    by_contra hout
    exact hne (calls_out h chunks r hr hout)
  · intro i j ri rj e hij hi he hj
    exact calls_sticky h chunks i j hij ri rj e hi he hj

end Fogged.Spec.Vision
