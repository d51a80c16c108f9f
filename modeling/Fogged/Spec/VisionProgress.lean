import Fogged.Native.VisionByIndex
import Fogged.Spec.VisionRoundtrip

/-!
# The Vision reader makes progress

The reader by index does what the reader on lists does: no access is out of range, no
difference overflows, and the loop ends. Its counters are what makes it so. They are in
range as soon as the UUID prefix has been read, so that every iteration finds a byte to
read, with one exception: after an unknown command a complete frame is left standing, and
there the next iteration returns the error again.

## Key results

- `iteration_returns`: an iteration comes closer to the end of the chunk, or returns
- `byIndex_feed_eq`: the reader by index refines the reader on lists
- `feed_progresses`: every call, after any calls
-/

namespace Fogged.Spec.Vision

open Fogged.Native.Vision
open Fogged.Native.Vision.UnpadState
open Fogged.Native.Vision.ByIndex (Cursor)
open Indexed Buffer
open Transducer (run run_cons run_append run_invariant)

/-! ## The arms of the loop -/

/-- A subtraction in range. -/
theorem subI32_of_range {a b : Int} (h0 : -2 ^ 31 ≤ a - b) (h1 : a - b < 2 ^ 31) :
    ByIndex.subI32 a b = .ret (a - b) :=
  if_pos ⟨h0, h1⟩

/-- A counter that is in range survives the cast to `usize`. -/
theorem asUsize_of_range {x : Int} (h0 : 0 ≤ x) (h1 : x ≤ 65535) : asUsize x = x.toNat := by
  obtain ⟨n, rfl⟩ := Int.eq_ofNat_of_zero_le h0
  rw [asUsize_natCast (by omega), Int.toNat_natCast]

section Arms

variable {wire : List UInt8} {c : Cursor} (hwire : wire.length < 2 ^ 63) (hf : Framing c.state)

include hwire

/-- What the content and the padding arm compute: how much to take, and what is then left of
    the counter. -/
theorem take_of_counter {x : Int} (h0 : 0 ≤ x) (h1 : x ≤ 65535) (hi : c.i < wire.length) :
    sub wire.length c.i = .ret (wire.length - c.i) ∧
      ∃ n, n = min (asUsize x) (wire.length - c.i) ∧ n = min x.toNat (wire.drop c.i).length ∧
        add c.i n = .ret (c.i + n) ∧ ByIndex.subI32 x (asI32 n) = .ret (x - n) := by
  refine ⟨sub_of_le hi.le, _, rfl, ?_, add_of_lt (by omega), ?_⟩
  · rw [asUsize_of_range h0 h1, List.length_drop]
  · rw [asUsize_of_range h0 h1, asI32_of_range (by omega) (by omega),
      subI32_of_range (by omega) (by omega)]

include hf

/-- The header arm stores the byte and never reaches its `unreachable!()`. -/
theorem readHeader_eq {b : UInt8} {bs : List UInt8} (hpos : c.state.remainingCommand > 0)
    (hdrop : wire.drop c.i = b :: bs) :
    ByIndex.readHeader wire c = .ret ⟨headerByte c.state b, c.i + 1, c.out⟩ := by
  have hlen := congrArg List.length hdrop
  rw [List.length_drop, List.length_cons] at hlen
  have hcount (k : Int) (h0 : 0 < k) (h5 : k ≤ 5) : ByIndex.subI32 k 1 = .ret (k - 1) :=
    subI32_of_range (by omega) (by omega)
  rw [ByIndex.readHeader, get_of_drop hdrop, Outcome.ret_bind, add_of_lt (by omega),
    Outcome.ret_bind]
  -- the two models store the byte in the same way; this one also checks the count
  have hstore := readHeaderByte_eq hf hpos b
  obtain hrc | hrc | hrc | hrc | hrc := hf.command_cases hpos <;>
    simp only [readHeaderByte, hrc, Outcome.ret_bind, Outcome.ret.injEq] at hstore <;>
    simp only [hrc, Outcome.ret_bind] <;>
    rw [hcount _ (by decide) (by decide), Outcome.ret_bind, ← hstore]

/-- One pass through the reading arms by index is one on lists. -/
theorem readBytes_eq {b : UInt8} {bs : List UInt8} (hdrop : wire.drop c.i = b :: bs) :
    ∃ n s out, n ≤ (b :: bs).length ∧ c.state.consume b bs = .ret (s, (b :: bs).drop n, out) ∧
      ByIndex.readBytes wire c = .ret ⟨s, c.i + n, c.out ++ out⟩ := by
  have hlen := congrArg List.length hdrop
  rw [List.length_drop, List.length_cons] at hlen
  have h0 := hf.command_range
  by_cases hrc : c.state.remainingCommand > 0
  · -- a header byte
    refine ⟨1, headerByte c.state b, [], by simp, ?_, ?_⟩
    · simp [consume, hrc, readHeaderByte_eq hf hrc]
    · rw [ByIndex.readBytes, if_pos hrc, readHeader_eq hwire hf hrc hdrop, List.append_nil]
  by_cases hc : c.state.remainingContent > 0
  · -- the content: `n` is what this model computes with casts, and what `consume` takes
    obtain ⟨hc0, hc1⟩ := hf.content_range (by omega)
    obtain ⟨hsub, n, hmin, hn, hadd, hcount⟩ :=
      take_of_counter hwire hc0 hc1 (show c.i < wire.length by omega)
    rw [hdrop] at hn
    refine ⟨n, { c.state with remainingContent := c.state.remainingContent - n },
      (b :: bs).take n, by omega, by simp [consume, hrc, hc, hn], ?_⟩
    rw [ByIndex.readBytes, if_neg hrc, if_pos hc, ByIndex.readContent, hsub, Outcome.ret_bind]
    dsimp only
    rw [← hmin, hadd, Outcome.ret_bind,
      slice_add (by simp only [List.length_cons] at hn; omega), Outcome.ret_bind, hcount,
      Outcome.ret_bind, hdrop]
  by_cases hp : c.state.remainingPadding > 0
  · -- the padding, in the same way
    obtain ⟨hp0, hp1⟩ := hf.padding_range (by omega)
    obtain ⟨hsub, n, hmin, hn, hadd, hcount⟩ :=
      take_of_counter hwire hp0 hp1 (show c.i < wire.length by omega)
    rw [hdrop] at hn
    refine ⟨n, { c.state with remainingPadding := c.state.remainingPadding - n }, [], by omega,
      by simp [consume, hrc, hc, hp, hn], ?_⟩
    rw [ByIndex.readBytes, if_neg hrc, if_neg hc, if_pos hp, ByIndex.skipPadding, hsub,
      Outcome.ret_bind]
    dsimp only
    rw [← hmin, hadd, Outcome.ret_bind, hcount, Outcome.ret_bind, List.append_nil]
  · -- nothing to read: a complete frame was left standing
    refine ⟨0, c.state, [], by simp, by simp [consume, hrc, hc, hp], ?_⟩
    rw [ByIndex.readBytes, if_neg hrc, if_neg hc, if_neg hp, List.append_nil]
    rfl

end Arms

/-! ## One iteration -/

/-- The rest of the chunk is passed on as it is. -/
theorem finish_eq {wire : List UInt8} {c : Cursor} (hi : c.i ≤ wire.length) (s : UnpadState) :
    ByIndex.finish wire c s = .ret (.exit ⟨.ok (), s, c.out ++ wire.drop c.i⟩) := by
  unfold ByIndex.finish
  split
  · rw [slice_length hi, Outcome.ret_bind]
  · -- at the end of the chunk the source skips the copy
    rw [Outcome.ret_bind, List.drop_of_length_le (by omega)]

/-- The check at the end of an iteration settles the frame. -/
theorem checkFrame_returns {wire : List UInt8} {c : Cursor} (hf : Framing c.state)
    (hi : c.i ≤ wire.length) :
    (ByIndex.checkFrame wire c).Returns (Loop.Ensures
      (fun d => d.i = c.i ∧ settle c.state c.out = ⟨.ok (), d.state, d.out⟩)
      (· = (settle c.state c.out).andThen fun t => run byteStep t (wire.drop c.i))) := by
  cases hcomp : c.state.frameComplete with
  | false =>
    rw [ByIndex.checkFrame, hcomp, settle_of_not_complete hcomp]
    exact .ret ⟨rfl, rfl⟩
  | true =>
    simp only [ByIndex.checkFrame, settle, hcomp, if_true]
    cases hcmd : Command.fromByte c.state.currentCommand with
    | none => exact .ret rfl
    | some command =>
      -- only `PaddingContinue` goes round again; the other two copy the rest and return
      cases command with
      | paddingContinue => exact .ret ⟨rfl, rfl⟩
      | paddingEnd =>
        dsimp only
        rw [finish_eq hi, Report.andThen_ok, run_done (by exact hf.uuidDone) rfl]
        exact .ret rfl
      | paddingDirect =>
        dsimp only
        rw [finish_eq hi, Report.andThen_ok, run_done (by exact hf.uuidDone) rfl]
        exact .ret rfl

/-- The invariant of the loop of a call that reports `r`: the machine has run over the bytes
    in front of `i` and has emitted `out`. -/
structure At (wire : List UInt8) (r : Report UnpadState UInt8 UnpadError) (c : Cursor) : Prop where
  inv : Inv c.state
  uuidDone : c.state.uuidDone = true
  i_le : c.i ≤ wire.length
  report_eq : r = (⟨.ok (), c.state, c.out⟩ : Report UnpadState UInt8 UnpadError).andThen
    fun t => run byteStep t (wire.drop c.i)

/-- What was emitted before goes in front. -/
theorem andThen_settle (s t : UnpadState) (o out : List UInt8)
    (k : UnpadState → Report UnpadState UInt8 UnpadError) :
    (⟨.ok (), s, o⟩ : Report UnpadState UInt8 UnpadError).andThen
        (fun _ => (settle t out).andThen k) = (settle t (o ++ out)).andThen k := by
  rw [← Report.andThen_assoc, Report.andThen_ok, settle_append]

/-- **An iteration comes closer to the end of the chunk, or returns** what the machine
    reports. -/
theorem iteration_returns {wire : List UInt8} (hwire : wire.length < 2 ^ 63)
    {r : Report UnpadState UInt8 UnpadError} {c : Cursor} (h : At wire r c)
    (hi : c.i < wire.length) :
    (ByIndex.iteration wire c).Returns
      (Loop.Ensures (fun d => At wire r d ∧ c.i < d.i) (· = r)) := by
  cases hd : c.state.done with
  | true =>
    -- behind the last frame everything is copied
    rw [ByIndex.iteration, hd, if_pos rfl, slice_length hi.le, Outcome.ret_bind]
    refine .ret (?_ : _ = r)
    rw [h.report_eq, Report.andThen_ok, run_done h.uuidDone hd]
  | false =>
    have hf := h.inv.framing h.uuidDone hd
    obtain ⟨b, hdrop⟩ : ∃ b, wire.drop c.i = b :: wire.drop (c.i + 1) :=
      ⟨wire[c.i], List.drop_eq_getElem_cons hi⟩
    have hlen := congrArg List.length hdrop
    obtain ⟨n, s, out, hn, hconsume, hread⟩ := readBytes_eq hwire hf hdrop
    have hrest : wire.drop (c.i + n) = (b :: wire.drop (c.i + 1)).drop n := by
      rw [← hdrop, List.drop_drop]
    have hle : c.i + n ≤ wire.length := by
      rw [← hlen, List.length_drop] at hn
      omega
    rw [ByIndex.iteration, hd, if_neg (by simp), hread, Outcome.ret_bind]
    obtain ⟨s', rest, out', hconsume', hf', hshort, hrun⟩ | ⟨hconsume', hcomp, hcmd⟩ :=
      consume_spec h.inv hf b (wire.drop (c.i + 1))
    · -- a byte at least has been read
      rw [hconsume] at hconsume'
      cases hconsume'
      have hpos : 0 < n := by
        rw [List.length_drop, List.length_cons] at hshort
        omega
      have hreport : r = (settle s (c.out ++ out)).andThen fun t =>
          run byteStep t (wire.drop (c.i + n)) := by
        rw [h.report_eq, hrest, ← andThen_settle c.state, ← hrun, ← hdrop]
        rfl
      have hcheck := checkFrame_returns (c := ⟨s, c.i + n, c.out ++ out⟩) hf' hle
      refine hcheck.mono fun flow hflow => ?_
      cases flow with
      | exit r' => exact hflow.trans hreport.symm
      | next d =>
        obtain ⟨hdi, hsettle⟩ := hflow
        have hinv := settle_inv hf' (c.out ++ out)
        have huuid := (settle_uuid s (c.out ++ out)).2.2
        rw [hsettle] at hinv huuid
        refine ⟨⟨hinv, huuid.trans hf'.uuidDone, hdi ▸ hle, ?_⟩, ?_⟩
        · rw [hreport, hsettle, hdi]
        · rw [hdi]
          dsimp only
          omega
    · -- the frame before had an unknown command: the iteration fails again
      rw [hconsume, Outcome.ret.injEq, Prod.mk.injEq, Prod.mk.injEq] at hconsume'
      obtain ⟨rfl, -, rfl⟩ := hconsume'
      have hfailed : Failed (.badCommand c.state.currentCommand) c.state :=
        ⟨h.uuidDone, hd, hcomp, rfl, hcmd⟩
      simp only [ByIndex.checkFrame, hcomp, if_true, hcmd]
      refine .ret (?_ : _ = r)
      rw [h.report_eq, hdrop, Report.andThen_ok, run_cons, byteStep_of_failed hfailed,
        Report.andThen_error]

/-! ## One call -/

/-- The UUID prefix: the loop starts where the machine is behind it, or the call returns. -/
theorem readPrefix_returns {wire : List UInt8} (hwire : wire.length < 2 ^ 63) {s : UnpadState}
    (h : Inv s) :
    (ByIndex.readPrefix s wire).Returns
      (Loop.Ensures (At wire (report s wire)) (· = report s wire)) := by
  have hfeed := feed_eq_report h wire
  have hle := h.uuidBuf_le
  unfold feed at hfeed
  unfold ByIndex.readPrefix
  cases hu : s.uuidDone with
  | true =>
    rw [hu, if_pos rfl, feedLoop_eq_run _ s wire h hu le_rfl] at hfeed
    refine .ret ⟨h, hu, Nat.zero_le _, ?_⟩
    rw [← Outcome.ret.inj hfeed, List.drop_zero, Report.andThen_ok]
    rfl
  | false =>
    have htake : min (16 - s.uuidBuf.length) wire.length ≤ wire.length := Nat.min_le_right _ _
    rw [hu, if_neg (by simp), if_neg (by omega)] at hfeed
    rw [if_neg (by simp), sub_of_le hle, Outcome.ret_bind]
    dsimp only at hfeed ⊢
    -- what is taken is bounded by the chunk; the rest is the same in both models
    generalize min (16 - s.uuidBuf.length) wire.length = take at htake hfeed ⊢
    rw [slice_of_le (Nat.zero_le _) htake, Outcome.ret_bind, add_of_lt (by omega),
      Outcome.ret_bind, Nat.zero_add, window, List.drop_zero]
    split at hfeed
    · rename_i hshort
      rw [if_pos hshort]
      exact .ret (Outcome.ret.inj hfeed)
    · rename_i hfull
      rw [if_neg hfull]
      split at hfeed
      · rename_i hne
        rw [if_pos hne]
        exact .ret (Outcome.ret.inj hfeed)
      · rename_i heq
        -- the loop on lists returns what the machine reports, from where the prefix ends
        have hinv := inv_of_validated h (s.uuidBuf ++ wire.take take) (not_not.1 heq)
        rw [if_neg heq]
        rw [feedLoop_eq_run _ _ _ hinv rfl le_rfl] at hfeed
        refine .ret ⟨hinv, rfl, htake, ?_⟩
        rw [← Outcome.ret.inj hfeed, Report.andThen_ok]
        rfl

/-- The loop ends after the chunk, at the latest. -/
theorem turn_returns {wire : List UInt8} (hwire : wire.length < 2 ^ 63)
    {r : Report UnpadState UInt8 UnpadError} (c : Cursor) (h : At wire r c) :
    (ByIndex.turn wire c).Returns
      (Loop.Ensures (fun d => At wire r d ∧ wire.length - d.i < wire.length - c.i) (· = r)) := by
  unfold ByIndex.turn
  split
  · rename_i hi
    refine (iteration_returns hwire h hi).mono fun flow hflow => ?_
    cases flow with
    | exit r' => exact hflow
    | next d => exact ⟨hflow.1, by have := hflow.2; omega⟩
  · -- nothing is left, so neither is anything to run
    refine .ret (?_ : _ = r)
    rw [h.report_eq, List.drop_of_length_le (by omega)]
    exact (Report.andThen_pure _).symm

/-- **The reader by index refines the reader on lists.** -/
theorem byIndex_feed_eq {wire : List UInt8} (hwire : wire.length < 2 ^ 63) {s : UnpadState}
    (h : Inv s) : ByIndex.feed s wire = feed s wire := by
  have hreturns : (ByIndex.feed s wire).Returns fun r => r = report s wire := by
    refine (readPrefix_returns hwire h).bind fun flow hflow => ?_
    cases flow with
    | exit r => exact .ret hflow
    | next c =>
      exact Loop.run_returns (At wire (report s wire)) (fun d => wire.length - d.i)
        (turn_returns hwire) hflow (Nat.lt_succ_of_le (Nat.sub_le _ _))
  obtain ⟨r, hret, rfl⟩ := hreturns
  rw [hret, feed_eq_report h]

/-! ## Every call -/

/-- The states of a reader for `uuid` after any calls of `feed` by index, also after errors. -/
inductive ReachableByIndex (uuid : Uuid) : UnpadState → Prop where
  | new : ReachableByIndex uuid (UnpadState.new uuid)
  | feed {s : UnpadState} {wire : Slice} {r : Report UnpadState UInt8 UnpadError} :
      ReachableByIndex uuid s → ByIndex.feed s wire.1 = .ret r → ReachableByIndex uuid r.state

/-- They are states of the reader on lists. -/
theorem ReachableByIndex.reachable {uuid : Uuid} {s : UnpadState} (h : ReachableByIndex uuid s) :
    Reachable uuid s := by
  induction h with
  | new => exact .new
  | @feed s wire r _ hfeed ih =>
    rw [byIndex_feed_eq wire.2 (reachable_inv ih)] at hfeed
    exact .feed ih hfeed

/-- Until the prefix is validated, no header byte is counted. -/
def Unset (s : UnpadState) : Prop := s.uuidDone = false → s.remainingCommand = -1

/-- **One byte.** As long as the prefix is not complete, the counter of header bytes is not
    set. -/
theorem byteStep_unset (s : UnpadState) (b : UInt8) (h : Inv s ∧ Unset s) :
    Inv (byteStep s b).state ∧ Unset (byteStep s b).state := by
  obtain ⟨hinv, hunset⟩ := h
  refine ⟨byteStep_inv s b hinv, fun hu' => ?_⟩
  obtain ⟨hu, heq⟩ | ⟨hu, -, heq⟩ | ⟨-, s', out, hf, -, heq⟩ := byteStep_cases hinv b
  · rw [heq] at hu' ⊢
    obtain ⟨-, hb⟩ | ⟨-, hb⟩ | ⟨-, -, hb⟩ | ⟨-, -, hb⟩ := uuidByte_cases hinv b <;>
      rw [hb] at hu' ⊢
    · exact hunset hu
    · exact hunset hu
    · cases hu'
    · exact hunset hu
  · rw [heq] at hu'
    exact absurd hu' (by simp [hu])
  · -- behind the prefix
    rw [heq, (settle_uuid s' out).2.2, hf.uuidDone] at hu'
    cases hu'

/-- So it is in every reachable state. -/
theorem Reachable.unset {uuid : Uuid} {s : UnpadState} (h : Reachable uuid s) : Unset s := by
  induction h with
  | new => exact fun _ => rfl
  | @feed s wire r hs hfeed ih =>
    rw [feed_eq_report (reachable_inv hs)] at hfeed
    cases hfeed
    unfold report
    split
    · exact ih
    · exact (run_invariant byteStep_unset s wire ⟨reachable_inv hs, ih⟩).2

/-- The counters are in range. -/
structure InRange (s : UnpadState) : Prop where
  uuidBuf : s.uuidBuf.length ≤ 16
  command : s.uuidDone = true → 0 ≤ s.remainingCommand ∧ s.remainingCommand ≤ 5
  content : s.remainingCommand = 0 → 0 ≤ s.remainingContent ∧ s.remainingContent ≤ 65535
  padding : s.remainingCommand = 0 → 0 ≤ s.remainingPadding ∧ s.remainingPadding ≤ 65535

/-- No counter is near the bounds of its type. -/
theorem Inv.inRange {s : UnpadState} (h : Inv s) (hunset : Unset s) : InRange s := by
  -- with no header byte left the prefix has been read
  have hdone (hzero : s.remainingCommand = 0) : s.uuidDone = true := by
    by_contra hu
    have hminus := hunset (by simpa using hu)
    omega
  refine ⟨h.uuidBuf_le, fun hu => (h.counters hu).command_range, fun hzero => ?_,
    fun hzero => ?_⟩
  · exact (h.counters (hdone hzero)).content_range (by omega)
  · exact (h.counters (hdone hzero)).padding_range (by omega)

/-- **The reader makes progress**: after any calls of `feed`, also after errors, the counters
    are in range. They are so again whenever an iteration of the loop of the next call starts,
    whatever its chunk; the iteration returns, and if it does not leave the loop, it has read
    a byte at least. So the call returns, and nothing in it panics. -/
theorem feed_progresses (uuid : Uuid) (s : UnpadState) (hs : ReachableByIndex uuid s) :
    InRange s ∧ ∀ wire : Slice,
      (∀ start c, ByIndex.readPrefix s wire.1 = .ret (.next start) →
        Loop.Visits (ByIndex.turn wire.1) start c →
          InRange c.state ∧ (c.i < wire.1.length → (ByIndex.iteration wire.1 c).Returns
            (Loop.Ensures (fun d => c.i < d.i ∧ d.i ≤ wire.1.length) fun _ => True))) ∧
      (ByIndex.feed s wire.1).Returns fun _ => True := by
  have hinv := reachable_inv hs.reachable
  refine ⟨hinv.inRange hs.reachable.unset, fun wire => ⟨?_, ?_⟩⟩
  · intro start c hbegin hvisits
    -- the invariant holds where the loop starts, and at every later iteration
    have hstart : At wire.1 (report s wire.1) start := by
      obtain ⟨flow, hflow, hat⟩ := readPrefix_returns wire.2 hinv
      rw [hbegin] at hflow
      cases hflow
      exact hat
    have hat : At wire.1 (report s wire.1) c := by
      refine hvisits.invariant hstart fun t u ht hnext => ?_
      obtain ⟨flow, hflow, hkeeps⟩ := turn_returns wire.2 t ht
      rw [hnext] at hflow
      cases hflow
      exact hkeeps.1
    refine ⟨hat.inv.inRange fun hu => absurd hat.uuidDone (by simp [hu]), fun hi => ?_⟩
    refine (iteration_returns wire.2 hat hi).mono fun flow hflow => ?_
    cases flow with
    | exit r => trivial
    | next d => exact ⟨hflow.2, hflow.1.i_le⟩
  · rw [byIndex_feed_eq wire.2 hinv, feed_eq_report hinv]
    exact .ret trivial

/-- After the prefix and an empty frame with an unknown command. -/
def afterBadCommand : UnpadState :=
  { UnpadState.new testUuid with
    remainingCommand := 0
    remainingContent := 0
    remainingPadding := 0
    currentCommand := 9
    uuidBuf := testUuid.toList
    uuidDone := true }

/-- The call after the error: its loop starts in range, its first iteration leaves the loop,
    and it returns. -/
theorem feed_progresses_after_error :
    ReachableByIndex testUuid afterBadCommand ∧ InRange afterBadCommand ∧
      (ByIndex.iteration [1, 2, 3] ⟨afterBadCommand, 0, []⟩).Returns
        (Loop.Ensures (fun d => 0 < d.i ∧ d.i ≤ 3) fun _ => True) ∧
      (ByIndex.feed afterBadCommand [1, 2, 3]).Returns fun _ => True := by
  let wire : Slice := ⟨testUuid.toList ++ [9, 0, 0, 0, 0], by decide⟩
  have hfeed : ByIndex.feed (UnpadState.new testUuid) wire.1 =
      .ret ⟨.error (.badCommand 9), afterBadCommand, []⟩ := by decide +kernel
  have hs : ReachableByIndex testUuid afterBadCommand := .feed .new hfeed
  obtain ⟨hrange, hcall⟩ := feed_progresses testUuid afterBadCommand hs
  obtain ⟨hloop, hreturns⟩ := hcall ⟨[1, 2, 3], by decide⟩
  exact ⟨hs, hrange, (hloop _ _ rfl .start).2 (by decide), hreturns⟩

end Fogged.Spec.Vision
