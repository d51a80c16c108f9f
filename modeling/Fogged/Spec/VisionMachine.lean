import Fogged.Native.Vision

/-!
# Vision un-padding as a byte machine

`UnpadState::feed` is handed whatever the transport delivered and reads headers a
byte at a time but contents, paddings and the UUID prefix in slices. This file
gives the machine it implements, one byte per step (`byteStep`), the invariant of
its states (`Inv`), and the proof that `feed` on any chunk is the machine run over
that chunk (`feed_eq_run`).

## Key results

- `byteStep_inv`: every step keeps the invariant
- `feedLoop_eq_run`: the loop always returns, with the machine's report
- `feed_eq_run` / `feed_of_rejected`: what a call of `feed` does
-/

namespace Fogged.Spec.Vision

open Fogged.Native.Vision
open Fogged.Native.Vision.UnpadState
open Transducer (run run_cons run_append)

/-! ## The byte machine -/

/-- Store one header byte: the two lengths are big-endian. -/
def headerByte (s : UnpadState) (b : UInt8) : UnpadState :=
  match s.remainingCommand with
  | 5 => { s with remainingCommand := 4, currentCommand := b }
  | 4 => { s with remainingCommand := 3, remainingContent := 256 * b.toNat }
  | 3 => { s with remainingCommand := 2, remainingContent := s.remainingContent + b.toNat }
  | 2 => { s with remainingCommand := 1, remainingPadding := 256 * b.toNat }
  | _ => { s with remainingCommand := 0, remainingPadding := s.remainingPadding + b.toNat }

/-- At the end of a frame its command decides how to go on. -/
def settle (s : UnpadState) (out : List UInt8) : Report UnpadState UInt8 UnpadError :=
  if s.frameComplete then
    match Command.fromByte s.currentCommand with
    | some .paddingContinue => ⟨.ok (), s.nextFrame, out⟩
    | some .paddingEnd => ⟨.ok (), { s with done := true }, out⟩
    | some .paddingDirect => ⟨.ok (), { s with done := true, direct := true }, out⟩
    | none => ⟨.error (.badCommand s.currentCommand), s, out⟩
  else
    ⟨.ok (), s, out⟩

/-- One byte of the UUID prefix, compared with the user's when it is complete. -/
def uuidByte (s : UnpadState) (b : UInt8) : Report UnpadState UInt8 UnpadError :=
  if s.uuidBuf.length ≥ 16 then
    ⟨.error .uuidMismatch, s, []⟩
  else if s.uuidBuf.length + 1 < 16 then
    ⟨.ok (), { s with uuidBuf := s.uuidBuf ++ [b] }, []⟩
  else if s.uuidBuf ++ [b] = s.userUuid.toList then
    ⟨.ok (), { s with uuidBuf := s.uuidBuf ++ [b], uuidDone := true, remainingCommand := 5 }, []⟩
  else
    ⟨.error .uuidMismatch, { s with uuidBuf := s.uuidBuf ++ [b] }, []⟩

/-- One byte of the wire. -/
def byteStep (s : UnpadState) (b : UInt8) : Report UnpadState UInt8 UnpadError :=
  if s.uuidDone = false then uuidByte s b
  else if s.done then ⟨.ok (), s, [b]⟩
  else if s.remainingCommand > 0 then settle (headerByte s b) []
  else if s.remainingContent > 0 then
    settle { s with remainingContent := s.remainingContent - 1 } [b]
  else if s.remainingPadding > 0 then
    settle { s with remainingPadding := s.remainingPadding - 1 } []
  else settle s []

/-! ## The invariant -/

/-- The counters are in range as soon as the header bytes that set them have been
    read; between the two bytes of a length its low byte is still clear. -/
structure Counters (s : UnpadState) : Prop where
  command_range : 0 ≤ s.remainingCommand ∧ s.remainingCommand ≤ 5
  content_range : s.remainingCommand ≤ 3 → 0 ≤ s.remainingContent ∧ s.remainingContent ≤ 65535
  content_hi : s.remainingCommand = 3 → s.remainingContent % 256 = 0
  padding_range : s.remainingCommand ≤ 1 → 0 ≤ s.remainingPadding ∧ s.remainingPadding ≤ 65535
  padding_hi : s.remainingCommand = 1 → s.remainingPadding % 256 = 0

/-- What holds of every state the reader can be in. A completed frame is only ever
    left standing when its command was unknown. -/
structure Inv (s : UnpadState) : Prop where
  uuidBuf_le : s.uuidBuf.length ≤ 16
  uuidBuf_eq : s.uuidDone = true → s.uuidBuf = s.userUuid.toList
  uuidBuf_ne : s.uuidDone = false → s.uuidBuf.length = 16 → s.uuidBuf ≠ s.userUuid.toList
  not_done : s.uuidDone = false → s.done = false
  direct_done : s.direct = true → s.done = true
  counters : s.uuidDone = true → Counters s
  settled : s.uuidDone = true → s.done = false → s.frameComplete = true →
    Command.fromByte s.currentCommand = none

/-- The reader is inside a frame, or just past its last byte. -/
structure Framing (s : UnpadState) : Prop extends Counters s where
  uuidDone : s.uuidDone = true
  done : s.done = false
  direct : s.direct = false
  uuidBuf_eq : s.uuidBuf = s.userUuid.toList

/-- A frame is complete when nothing of it is left. -/
theorem frameComplete_iff (s : UnpadState) :
    s.frameComplete = true ↔
      s.remainingCommand = 0 ∧ s.remainingContent = 0 ∧ s.remainingPadding = 0 := by
  simp [frameComplete, and_assoc]

theorem new_inv (uuid : Uuid) : Inv (UnpadState.new uuid) := by
  constructor <;> simp [UnpadState.new]

/-- The direct flag comes with the end. -/
theorem Inv.direct_of_not_done {s : UnpadState} (h : Inv s) (hd : s.done = false) :
    s.direct = false := by
  cases hdir : s.direct with
  | false => rfl
  | true => exact absurd (h.direct_done hdir) (by simp [hd])

/-- A validated reader that is not done is inside a frame. -/
theorem Inv.framing {s : UnpadState} (h : Inv s) (hu : s.uuidDone = true)
    (hd : s.done = false) : Framing s where
  toCounters := h.counters hu
  uuidDone := hu
  done := hd
  direct := h.direct_of_not_done hd
  uuidBuf_eq := h.uuidBuf_eq hu

/-- Inside a frame the invariant holds, if a complete one is left standing only by an unknown
    command. -/
theorem Framing.inv {s : UnpadState} (h : Framing s)
    (hsettled : s.frameComplete = true → Command.fromByte s.currentCommand = none) : Inv s where
  uuidBuf_le := by simp [h.uuidBuf_eq]
  uuidBuf_eq _ := h.uuidBuf_eq
  uuidBuf_ne hu := absurd hu (by simp [h.uuidDone])
  not_done _ := h.done
  direct_done hd := absurd hd (by simp [h.direct])
  counters _ := h.toCounters
  settled _ _ := hsettled

/-- The counters stay at zero behind the last frame, but the reader is done. -/
theorem Framing.inv_done {s : UnpadState} (h : Framing s) (direct : Bool) :
    Inv { s with done := true, direct } where
  uuidBuf_le := by simp [h.uuidBuf_eq]
  uuidBuf_eq _ := h.uuidBuf_eq
  uuidBuf_ne hu := absurd hu (by simp [h.uuidDone])
  not_done hu := absurd hu (by simp [h.uuidDone])
  direct_done _ := rfl
  counters _ := { h.toCounters with }
  settled _ hd := by cases hd

/-- The next frame starts with unset counters. -/
theorem Framing.nextFrame {s : UnpadState} (h : Framing s) : Framing s.nextFrame where
  command_range := by simp [UnpadState.nextFrame]
  content_range := by simp [UnpadState.nextFrame]
  content_hi := by simp [UnpadState.nextFrame]
  padding_range := by simp [UnpadState.nextFrame]
  padding_hi := by simp [UnpadState.nextFrame]
  uuidDone := h.uuidDone
  done := h.done
  direct := h.direct
  uuidBuf_eq := h.uuidBuf_eq

/-- Deciding what follows a frame re-establishes the invariant. -/
theorem settle_inv {s : UnpadState} (h : Framing s) (out : List UInt8) :
    Inv (settle s out).state := by
  unfold settle
  split
  · split
    · exact h.nextFrame.inv (by simp [nextFrame, frameComplete])
    · exact h.inv_done s.direct
    · exact h.inv_done true
    · -- an unknown command is the one way to leave a complete frame standing
      rename_i hcmd
      exact h.inv fun _ => hcmd
  · rename_i hnot
    exact h.inv fun hcomp => absurd hcomp hnot

/-- There are five header positions. -/
theorem Framing.command_cases {s : UnpadState} (h : Framing s) (hpos : s.remainingCommand > 0) :
    s.remainingCommand = 5 ∨ s.remainingCommand = 4 ∨ s.remainingCommand = 3 ∨
      s.remainingCommand = 2 ∨ s.remainingCommand = 1 := by
  have := h.command_range
  omega

/-- Storing a header byte keeps the counters in range. -/
theorem headerByte_framing {s : UnpadState} (h : Framing s) (b : UInt8)
    (hpos : s.remainingCommand > 0) : Framing (headerByte s b) := by
  have hb : b.toNat < 256 := b.toNat_lt
  have hcr := h.content_range
  have hpr := h.padding_range
  have hch := h.content_hi
  have hph := h.padding_hi
  -- each position sets one half of a length; the other half is zero or in range already
  obtain hrc | hrc | hrc | hrc | hrc := h.command_cases hpos <;>
    simp [hrc] at hcr hpr hch hph <;>
    simp only [headerByte, hrc] <;>
    refine ⟨⟨?_, ?_, ?_, ?_, ?_⟩, h.uuidDone, h.done, h.direct, h.uuidBuf_eq⟩ <;>
    simp only <;> omega

/-- The UUID prefix is complete and wrong: every further call fails. -/
def Rejected (s : UnpadState) : Prop :=
  s.uuidDone = false ∧ s.uuidBuf.length = 16

instance (s : UnpadState) : Decidable (Rejected s) :=
  inferInstanceAs (Decidable (_ ∧ _))

/-- Before validation neither end flag is set. -/
theorem Inv.flags_clear {s : UnpadState} (h : Inv s) (hu : s.uuidDone = false) :
    s.done = false ∧ s.direct = false :=
  ⟨h.not_done hu, h.direct_of_not_done (h.not_done hu)⟩

/-- Collecting prefix bytes keeps the invariant. -/
theorem inv_of_uuidBuf {s : UnpadState} (h : Inv s) (hu : s.uuidDone = false) (buf : List UInt8)
    (hle : buf.length ≤ 16) (hne : buf.length = 16 → buf ≠ s.userUuid.toList) :
    Inv { s with uuidBuf := buf } where
  uuidBuf_le := hle
  uuidBuf_eq h' := by simp [hu] at h'
  uuidBuf_ne _ := hne
  not_done := h.not_done
  direct_done := h.direct_done
  counters h' := by simp [hu] at h'
  settled h' := by simp [hu] at h'

/-- Validating the prefix puts the reader at the start of its first frame. -/
theorem inv_of_validated {s : UnpadState} (h : Inv s)
    (buf : List UInt8) (hbuf : buf = s.userUuid.toList) :
    Inv { s with uuidBuf := buf, uuidDone := true, remainingCommand := 5 } where
  uuidBuf_le := by simp [hbuf]
  uuidBuf_eq _ := hbuf
  uuidBuf_ne := by simp
  not_done := by simp
  direct_done := h.direct_done
  counters _ := by constructor <;> simp
  settled _ _ hc := by simp [frameComplete] at hc

/-- Everything a prefix byte can do. -/
theorem uuidByte_cases {s : UnpadState} (h : Inv s) (b : UInt8) :
    (s.uuidBuf.length = 16 ∧ uuidByte s b = ⟨.error .uuidMismatch, s, []⟩) ∨
    (s.uuidBuf.length + 1 < 16 ∧
      uuidByte s b = ⟨.ok (), { s with uuidBuf := s.uuidBuf ++ [b] }, []⟩) ∨
    (s.uuidBuf.length + 1 = 16 ∧ s.uuidBuf ++ [b] = s.userUuid.toList ∧
      uuidByte s b =
        ⟨.ok (), { s with uuidBuf := s.uuidBuf ++ [b], uuidDone := true, remainingCommand := 5 },
          []⟩) ∨
    (s.uuidBuf.length + 1 = 16 ∧ s.uuidBuf ++ [b] ≠ s.userUuid.toList ∧
      uuidByte s b = ⟨.error .uuidMismatch, { s with uuidBuf := s.uuidBuf ++ [b] }, []⟩) := by
  have hle := h.uuidBuf_le
  -- a prefix that did not match stays
  by_cases hfull : s.uuidBuf.length ≥ 16
  · exact .inl ⟨by omega, by simp [uuidByte, hfull]⟩
  by_cases hshort : s.uuidBuf.length + 1 < 16
  · exact .inr (.inl ⟨hshort, by simp [uuidByte, hfull, hshort]⟩)
  by_cases heq : s.uuidBuf ++ [b] = s.userUuid.toList
  · exact .inr (.inr (.inl ⟨by omega, heq, by simp [uuidByte, hfull, hshort, heq]⟩))
  · exact .inr (.inr (.inr ⟨by omega, heq, by simp [uuidByte, hfull, hshort, heq]⟩))

/-- A prefix byte keeps the invariant. -/
theorem uuidByte_inv {s : UnpadState} (h : Inv s) (hu : s.uuidDone = false) (b : UInt8) :
    Inv (uuidByte s b).state := by
  obtain ⟨-, heq⟩ | ⟨hlt, heq⟩ | ⟨-, huuid, heq⟩ | ⟨hlen, hne, heq⟩ := uuidByte_cases h b <;>
    rw [heq]
  · exact h
  · exact inv_of_uuidBuf h hu _ (by simp; omega) (by simp; omega)
  · exact inv_of_validated h _ huuid
  · exact inv_of_uuidBuf h hu _ (by simp; omega) fun _ => hne

/-- Reading part of the content keeps the reader inside its frame. -/
theorem Framing.content {s : UnpadState} (h : Framing s) (hrc : ¬ s.remainingCommand > 0)
    (n : Nat) (hn : (n : Int) ≤ s.remainingContent) :
    Framing { s with remainingContent := s.remainingContent - n } := by
  have h0 := h.command_range
  have hc := h.content_range (by omega)
  refine { h with content_range := fun _ => ?_, content_hi := fun h3 => ?_ }
  · simp only; omega
  · simp only at h3; omega

/-- Discarding part of the padding keeps the reader inside its frame. -/
theorem Framing.padding {s : UnpadState} (h : Framing s) (hrc : ¬ s.remainingCommand > 0)
    (n : Nat) (hn : (n : Int) ≤ s.remainingPadding) :
    Framing { s with remainingPadding := s.remainingPadding - n } := by
  have h0 := h.command_range
  have hp := h.padding_range (by omega)
  refine { h with padding_range := fun _ => ?_, padding_hi := fun h1 => ?_ }
  · simp only; omega
  · simp only at h1; omega

/-- Everything a step can do: collect a prefix byte, pass a raw byte through, or
    read a byte of a frame and settle it. -/
theorem byteStep_cases {s : UnpadState} (h : Inv s) (b : UInt8) :
    (s.uuidDone = false ∧ byteStep s b = uuidByte s b) ∨
    (s.uuidDone = true ∧ s.done = true ∧ byteStep s b = ⟨.ok (), s, [b]⟩) ∨
    (s.uuidDone = true ∧ ∃ s' out, Framing s' ∧ s'.userUuid = s.userUuid ∧
      byteStep s b = settle s' out) := by
  cases hu : s.uuidDone with
  | false => exact .inl ⟨rfl, by simp [byteStep, hu]⟩
  | true =>
    cases hd : s.done with
    | true => exact .inr (.inl ⟨rfl, rfl, by simp [byteStep, hu, hd]⟩)
    | false =>
      have hf := h.framing hu hd
      refine .inr (.inr ⟨rfl, ?_⟩)
      -- the counters decide, in the order of the source
      by_cases hrc : s.remainingCommand > 0
      · refine ⟨headerByte s b, [], headerByte_framing hf b hrc, ?_, ?_⟩
        · unfold headerByte; split <;> rfl
        · simp [byteStep, hu, hd, hrc]
      by_cases hc : s.remainingContent > 0
      · exact ⟨_, [b], hf.content hrc 1 (by omega), rfl, by simp [byteStep, hu, hd, hrc, hc]⟩
      by_cases hp : s.remainingPadding > 0
      · exact ⟨_, [], hf.padding hrc 1 (by omega), rfl, by simp [byteStep, hu, hd, hrc, hc, hp]⟩
      · exact ⟨s, [], hf, rfl, by simp [byteStep, hu, hd, hrc, hc, hp]⟩

/-- Every step keeps the invariant. -/
theorem byteStep_inv (s : UnpadState) (b : UInt8) (h : Inv s) : Inv (byteStep s b).state := by
  obtain ⟨hu, heq⟩ | ⟨-, -, heq⟩ | ⟨-, s', out, hf, -, heq⟩ := byteStep_cases h b
  · rw [heq]
    exact uuidByte_inv h hu b
  · rw [heq]
    exact h
  · rw [heq]
    exact settle_inv hf out

/-! ## The machine on contents, paddings and raw bytes -/

/-- `settle` only adds to what was already emitted. -/
theorem settle_append (s : UnpadState) (o out : List UInt8) :
    settle s (o ++ out) = { settle s out with out := o ++ (settle s out).out } := by
  unfold settle
  split
  · split <;> rfl
  · rfl

/-- Inside a frame there is nothing to decide. -/
theorem settle_of_not_complete {s : UnpadState} (h : s.frameComplete = false)
    (out : List UInt8) : settle s out = ⟨.ok (), s, out⟩ := by
  simp [settle, h]

/-- After the end of the framing bytes pass through. -/
theorem run_done {s : UnpadState} (hu : s.uuidDone = true) (hd : s.done = true)
    (w : List UInt8) : run byteStep s w = ⟨.ok (), s, w⟩ := by
  induction w with
  | nil => rfl
  | cons b bs ih =>
    rw [run_cons, show byteStep s b = ⟨.ok (), s, [b]⟩ by simp [byteStep, hu, hd]]
    simp [ih]

/-- A byte of the content is passed on. -/
theorem byteStep_content {s : UnpadState} (h : Framing s) (hrc : ¬ s.remainingCommand > 0)
    (hpos : s.remainingContent > 0) (b : UInt8) :
    byteStep s b = settle { s with remainingContent := s.remainingContent - 1 } [b] := by
  simp [byteStep, h.uuidDone, h.done, hrc, hpos]

/-- A byte of the padding is dropped. -/
theorem byteStep_padding {s : UnpadState} (h : Framing s) (hrc : ¬ s.remainingCommand > 0)
    (hc : ¬ s.remainingContent > 0) (hpos : s.remainingPadding > 0) (b : UInt8) :
    byteStep s b = settle { s with remainingPadding := s.remainingPadding - 1 } [] := by
  simp [byteStep, h.uuidDone, h.done, hrc, hc, hpos]

/-- Bytes that count down to the end of a frame, `t k` being the state with `k` of them
    read: the frame is settled behind the last one at the earliest. -/
theorem run_counted (emit : UInt8 → List UInt8) (t : Nat → UnpadState) (w : List UInt8)
    (hne : w ≠ [])
    (hstep : ∀ k b, k < w.length → byteStep (t k) b = settle (t (k + 1)) (emit b))
    (hopen : ∀ k, 0 < k → k < w.length → (t k).frameComplete = false) :
    run byteStep (t 0) w = settle (t w.length) (w.flatMap emit) := by
  induction w generalizing t with
  | nil => exact absurd rfl hne
  | cons b bs ih =>
    rw [run_cons, hstep 0 b (Nat.succ_pos _), List.flatMap_cons]
    cases bs with
    | nil => exact (Report.andThen_pure _).trans (by simp)
    | cons b' bs =>
      -- the frame does not end with `b`, so nothing is settled there
      have hlast := hopen 1 Nat.one_pos (by simp)
      have hrest := ih (fun k => t (k + 1)) (by simp)
        (fun k b hk => hstep (k + 1) b (Nat.succ_lt_succ hk))
        fun k _ hk => hopen (k + 1) (Nat.succ_pos k) (Nat.succ_lt_succ hk)
      rw [settle_of_not_complete hlast, Report.andThen_ok, hrest, settle_append]
      rfl

/-- A piece of the content is copied, and the frame settled if that was its end. -/
theorem run_content {s : UnpadState} (h : Framing s) (hrc : ¬ s.remainingCommand > 0)
    (c : List UInt8) (hne : c ≠ []) (hlen : (c.length : Int) ≤ s.remainingContent) :
    run byteStep s c = settle { s with remainingContent := s.remainingContent - c.length } c := by
  have hrun := run_counted (fun b => [b])
    (fun k => { s with remainingContent := s.remainingContent - k }) c hne ?_ ?_
  · simpa using hrun
  · intro k b hk
    rw [byteStep_content (h.content hrc k (by omega)) hrc (by simp only; omega)]
    simp only [Nat.cast_add, Nat.cast_one, Int.sub_sub]
  · intro k _ hk
    simp only [frameComplete, Bool.and_eq_false_iff, beq_eq_false_iff_ne]
    omega

/-- A piece of the padding is dropped, and the frame settled if that was its end. -/
theorem run_padding {s : UnpadState} (h : Framing s) (hrc : ¬ s.remainingCommand > 0)
    (hc : ¬ s.remainingContent > 0) (p : List UInt8) (hne : p ≠ [])
    (hlen : (p.length : Int) ≤ s.remainingPadding) :
    run byteStep s p = settle { s with remainingPadding := s.remainingPadding - p.length } [] := by
  have hnone : p.flatMap (fun _ => ([] : List UInt8)) = [] :=
    List.flatMap_eq_nil_iff.2 fun _ _ => rfl
  have hrun := run_counted (fun _ => [])
    (fun k => { s with remainingPadding := s.remainingPadding - k }) p hne ?_ ?_
  · simpa [hnone] using hrun
  · intro k b hk
    rw [byteStep_padding (h.padding hrc k (by omega)) hrc hc (by simp only; omega)]
    simp only [Nat.cast_add, Nat.cast_one, Int.sub_sub]
  · intro k _ hk
    simp only [frameComplete, Bool.and_eq_false_iff, beq_eq_false_iff_ne]
    omega

/-- Prefix bytes are collected while there are fewer than 16. -/
theorem run_uuid {s : UnpadState} (hu : s.uuidDone = false) (w : List UInt8)
    (hlen : s.uuidBuf.length + w.length < 16) :
    run byteStep s w = ⟨.ok (), { s with uuidBuf := s.uuidBuf ++ w }, []⟩ := by
  induction w generalizing s with
  | nil => simp
  | cons b bs ih =>
    simp only [List.length_cons] at hlen
    have hstep : byteStep s b = ⟨.ok (), { s with uuidBuf := s.uuidBuf ++ [b] }, []⟩ := by
      have hfull : ¬ 16 ≤ s.uuidBuf.length := by omega
      have hshort : s.uuidBuf.length + 1 < 16 := by omega
      simp [byteStep, hu, uuidByte, hfull, hshort]
    have hnext := ih (s := { s with uuidBuf := s.uuidBuf ++ [b] }) hu (by simp; omega)
    rw [run_cons, hstep, Report.andThen_ok, hnext]
    simp

/-- The sixteenth prefix byte decides: the first frame starts, or the stream is
    rejected. -/
theorem run_uuid_full {s : UnpadState} (hu : s.uuidDone = false) (w : List UInt8) (hne : w ≠ [])
    (hlen : s.uuidBuf.length + w.length = 16) :
    run byteStep s w =
      if s.uuidBuf ++ w = s.userUuid.toList then
        ⟨.ok (), { s with uuidBuf := s.uuidBuf ++ w, uuidDone := true, remainingCommand := 5 }, []⟩
      else ⟨.error .uuidMismatch, { s with uuidBuf := s.uuidBuf ++ w }, []⟩ := by
  obtain ⟨c, x, rfl⟩ : ∃ c x, w = c ++ [x] :=
    ⟨_, _, (List.dropLast_append_getLast hne).symm⟩
  simp only [List.length_append, List.length_singleton] at hlen
  -- all bytes but the last are collected, then the last one is compared
  have hfull : ¬ s.uuidBuf.length + c.length ≥ 16 := by omega
  have hlast : ¬ s.uuidBuf.length + c.length + 1 < 16 := by omega
  rw [run_append, run_uuid hu c (by omega), Report.andThen_ok, Transducer.run_singleton]
  simp only [byteStep, hu, if_true, uuidByte, List.length_append, List.append_assoc, hfull, hlast,
    if_false]
  split <;> rfl

/-! ## Failed states -/

/-- The state an error `e` leaves behind. -/
def Failed (e : UnpadError) (s : UnpadState) : Prop :=
  match e with
  | .uuidMismatch => Rejected s
  | .badCommand c => s.uuidDone = true ∧ s.done = false ∧ s.frameComplete = true ∧
      s.currentCommand = c ∧ Command.fromByte c = none

/-- In a failed state every byte fails in the same way and changes nothing. -/
theorem byteStep_of_failed {s : UnpadState} {e : UnpadError} (h : Failed e s) (b : UInt8) :
    byteStep s b = ⟨.error e, s, []⟩ := by
  cases e with
  | uuidMismatch =>
    obtain ⟨hu, hlen⟩ := h
    simp [byteStep, uuidByte, hu, hlen]
  | badCommand c =>
    obtain ⟨hu, hd, hcomp, hcur, hcmd⟩ := h
    obtain ⟨h1, h2, h3⟩ := (frameComplete_iff s).1 hcomp
    simp [byteStep, hu, hd, h1, h2, h3, settle, hcomp, hcur, hcmd]

/-! ## The loop runs the machine -/

/-- Or-ing a byte into a length whose low byte is clear adds it. -/
theorem lor_byte {x : Int} (h0 : 0 ≤ x) (hx : x % 256 = 0) (b : UInt8) :
    Int.lor x b.toNat = x + b.toNat := by
  obtain ⟨n, rfl⟩ := Int.eq_ofNat_of_zero_le h0
  obtain ⟨k, rfl⟩ : ∃ k, n = k <<< 8 := ⟨n / 256, by rw [Nat.shiftLeft_eq]; omega⟩
  have hb : b.toNat < 2 ^ 8 := b.toNat_lt
  have := Nat.shiftLeft_add_eq_or_of_lt hb k
  show ((k <<< 8 ||| b.toNat : Nat) : Int) = _
  rw [← this]
  push_cast
  rfl

/-- The header arm of the loop stores the byte and never reaches its `unreachable!()`. -/
theorem readHeaderByte_eq {s : UnpadState} (h : Framing s) (hpos : s.remainingCommand > 0)
    (b : UInt8) : s.readHeaderByte b = .ret (headerByte s b) := by
  have hshift : ((b.toNat <<< 8 : Nat) : Int) = 256 * b.toNat := by
    rw [Nat.shiftLeft_eq]; omega
  have hcr := h.content_range
  have hpr := h.padding_range
  have hch := h.content_hi
  have hph := h.padding_hi
  obtain hrc | hrc | hrc | hrc | hrc := h.command_cases hpos <;>
    simp only [readHeaderByte, headerByte, hrc, Outcome.ret_bind]
  -- the high bytes are shifted in, the low bytes or-ed to them
  · rfl
  · rw [hshift]; rfl
  · rw [lor_byte (hcr (by omega)).1 (hch hrc)]; rfl
  · rw [hshift]; rfl
  · rw [lor_byte (hpr (by omega)).1 (hph hrc)]; rfl

/-- One pass through the reading arms of the loop is the machine run over what it
    read; after an unknown command nothing is read any more. -/
theorem consume_spec {s : UnpadState} (h : Inv s) (hf : Framing s) (b : UInt8)
    (bs : List UInt8) :
    (∃ s' rest out, s.consume b bs = .ret (s', rest, out) ∧ Framing s' ∧
      rest.length ≤ bs.length ∧
      run byteStep s (b :: bs) = (settle s' out).andThen fun t => run byteStep t rest) ∨
    (s.consume b bs = .ret (s, b :: bs, []) ∧ s.frameComplete = true ∧
      Command.fromByte s.currentCommand = none) := by
  have h0 := hf.command_range
  -- the arms of the loop in the order of the source: header, content, padding
  by_cases hrc : s.remainingCommand > 0
  · left
    refine ⟨headerByte s b, bs, [], ?_, headerByte_framing hf b hrc, le_rfl, ?_⟩
    · simp [consume, hrc, readHeaderByte_eq hf hrc]
    · simp [run_cons, byteStep, hf.uuidDone, hf.done, hrc]
  have hcr := hf.content_range (by omega)
  have hpr := hf.padding_range (by omega)
  by_cases hc : s.remainingContent > 0
  · left
    -- as much of the content as has arrived
    obtain ⟨n, hn⟩ : ∃ n, n = min s.remainingContent.toNat (b :: bs).length := ⟨_, rfl⟩
    have hlen : ((b :: bs).take n).length = n := by simp [hn]
    have hpos : 0 < n := by simp only [List.length_cons] at hn; omega
    have hle : (n : Int) ≤ s.remainingContent := by omega
    refine ⟨{ s with remainingContent := s.remainingContent - n }, (b :: bs).drop n,
      (b :: bs).take n, by simp [consume, hrc, hc, hn], hf.content hrc n hle, ?_, ?_⟩
    · simp only [List.length_drop, List.length_cons]; omega
    · have hrun := run_content hf hrc ((b :: bs).take n) (by simp; omega) (by omega)
      rw [hlen] at hrun
      rw [← hrun, ← run_append, List.take_append_drop]
  by_cases hp : s.remainingPadding > 0
  · left
    obtain ⟨n, hn⟩ : ∃ n, n = min s.remainingPadding.toNat (b :: bs).length := ⟨_, rfl⟩
    have hlen : ((b :: bs).take n).length = n := by simp [hn]
    have hpos : 0 < n := by simp only [List.length_cons] at hn; omega
    have hle : (n : Int) ≤ s.remainingPadding := by omega
    refine ⟨{ s with remainingPadding := s.remainingPadding - n }, (b :: bs).drop n, [],
      by simp [consume, hrc, hc, hp, hn], hf.padding hrc n hle, ?_, ?_⟩
    · simp only [List.length_drop, List.length_cons]; omega
    · have hrun := run_padding hf hrc hc ((b :: bs).take n) (by simp; omega) (by omega)
      rw [hlen] at hrun
      rw [← hrun, ← run_append, List.take_append_drop]
  · right
    -- a complete frame that was not settled: the invariant says why
    have hcomp : s.frameComplete = true := (frameComplete_iff s).2 (by omega)
    exact ⟨by simp [consume, hrc, hc, hp], hcomp, h.settled hf.uuidDone hf.done hcomp⟩

/-- The check at the end of an iteration, followed by the rest of the loop, settles
    the frame and runs the machine over the unread bytes. -/
theorem checkFrame_spec (fuel : Nat) {s : UnpadState} (h : Framing s) (rest out : List UInt8)
    (ih : ∀ s' : UnpadState, Inv s' → s'.uuidDone = true →
      feedLoop fuel s' rest = .ret (run byteStep s' rest)) :
    (match s.checkFrame rest with
      | .again s => do
        let r ← feedLoop fuel s rest
        .ret { r with out := out ++ r.out }
      | .exit verdict s raw => .ret ⟨verdict, s, out ++ raw⟩) =
    Outcome.ret ((settle s out).andThen fun s' => run byteStep s' rest) := by
  have hinv := settle_inv h out
  cases hcomp : s.frameComplete with
  | false =>
    simp only [settle_of_not_complete hcomp] at hinv ⊢
    simp only [checkFrame, hcomp, Bool.false_eq_true, if_false, ih s hinv h.uuidDone]
    rfl
  | true =>
    simp only [settle, checkFrame, hcomp, if_true] at hinv ⊢
    cases hcmd : Command.fromByte s.currentCommand with
    | none => simp
    | some c =>
      simp only [hcmd] at hinv
      -- `PaddingContinue` stays in the loop, the other two hand the rest through
      cases c with
      | paddingContinue =>
        simp only [ih _ hinv h.uuidDone]
        rfl
      | paddingEnd =>
        dsimp only
        rw [Report.andThen_ok, run_done (by exact h.uuidDone) rfl]
      | paddingDirect =>
        dsimp only
        rw [Report.andThen_ok, run_done (by exact h.uuidDone) rfl]

/-- The loop always returns, and its report is the machine's. -/
theorem feedLoop_eq_run (fuel : Nat) (s : UnpadState) (w : List UInt8) (h : Inv s)
    (hu : s.uuidDone = true) (hfuel : w.length ≤ fuel) :
    feedLoop fuel s w = .ret (run byteStep s w) := by
  -- induction on the fuel: every iteration reads at least one byte or returns
  induction fuel generalizing s w with
  | zero =>
    have hw : w = [] := List.eq_nil_of_length_eq_zero (by omega)
    subst hw
    rfl
  | succ fuel ih =>
    cases w with
    | nil => rfl
    | cons b bs =>
      simp only [List.length_cons] at hfuel
      cases hd : s.done with
      | true => simp only [feedLoop, hd, if_true, run_done hu hd]
      | false =>
        have hf := h.framing hu hd
        simp only [feedLoop, hd, Bool.false_eq_true, if_false]
        obtain ⟨s', rest, out, hcons, hf', hrest, hrun⟩ | ⟨hcons, hcomp, hcmd⟩ :=
          consume_spec h hf b bs
        · rw [hcons, hrun]
          exact checkFrame_spec fuel hf' rest out fun t ht hut => ih t rest ht hut (by omega)
        · -- the frame before had an unknown command: fail again
          have hfailed : Failed (.badCommand s.currentCommand) s := ⟨hu, hd, hcomp, rfl, hcmd⟩
          simp [hcons, checkFrame, hcomp, hcmd, run_cons, byteStep_of_failed hfailed]

/-! ## `feed` runs the machine -/

/-- With a complete but wrong prefix `feed` fails on anything, also on nothing. -/
theorem feed_of_rejected {s : UnpadState} (h : Inv s) (hr : Rejected s) (w : List UInt8) :
    feed s w = .ret ⟨.error .uuidMismatch, s, []⟩ := by
  obtain ⟨hu, hlen⟩ := hr
  have hne := h.uuidBuf_ne hu hlen
  have hs : { s with uuidDone := false } = s := by rw [← hu]
  simp [feed, hu, hlen, hne, hs]

/-- A call of `feed` returns, and its report is the machine's over the chunk. -/
theorem feed_eq_run {s : UnpadState} (h : Inv s) (hr : ¬ Rejected s) (w : List UInt8) :
    feed s w = .ret (run byteStep s w) := by
  cases hu : s.uuidDone with
  | true => simp [feed, hu, feedLoop_eq_run _ s w h hu le_rfl]
  | false =>
    have hlt : s.uuidBuf.length < 16 := by
      have := h.uuidBuf_le
      simp only [Rejected, hu, true_and] at hr
      omega
    have hnot : ¬ s.uuidBuf.length > 16 := by omega
    by_cases hshort : s.uuidBuf.length + w.length < 16
    · -- the prefix does not end in this chunk
      have htake : min (16 - s.uuidBuf.length) w.length = w.length := by omega
      simp only [feed, hu, hnot, htake, List.take_length, List.length_append, hshort,
        run_uuid hu w hshort]
      simp
    · -- it does: the run splits behind its sixteenth byte
      have htake : min (16 - s.uuidBuf.length) w.length = 16 - s.uuidBuf.length := by omega
      obtain ⟨c, hc⟩ : ∃ c, c = w.take (16 - s.uuidBuf.length) := ⟨_, rfl⟩
      have hclen : s.uuidBuf.length + c.length = 16 := by simp [hc]; omega
      have hcne : c ≠ [] := by rintro rfl; simp at hclen; omega
      have hsplit : run byteStep s w = (run byteStep s c).andThen fun t =>
          run byteStep t (w.drop (16 - s.uuidBuf.length)) := by
        rw [hc, ← run_append, List.take_append_drop]
      rw [hsplit, run_uuid_full hu c hcne hclen]
      have hclen' : ¬ s.uuidBuf.length + c.length < 16 := by omega
      simp only [feed, hu, hnot, htake, ← hc, List.length_append, hclen', Bool.false_eq_true,
        if_false]
      by_cases heq : s.uuidBuf ++ c = s.userUuid.toList
      · have hinv := inv_of_validated h (s.uuidBuf ++ c) heq
        simp only [heq, ne_eq, not_true_eq_false, if_false, if_true] at hinv ⊢
        rw [feedLoop_eq_run _ _ _ hinv rfl le_rfl]
        simp
      · simp [heq]

end Fogged.Spec.Vision
