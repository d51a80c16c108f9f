import Fogged.ForStd.Bytes
import Fogged.Spec.VisionRoundtrip

/-!
# Vision: what the length of a frame tells

With long padding the encoder fills a short payload up to a length that it draws, so an
observer of the frame learns the draw and not the payload's length. That rests on neither
clamp of the padding length being reached; where one is, for the longer payloads, the
padding still fits the frame and is written as it is.

## Key results

- `encodeFrame_length`: the length of a frame, from the payload's length and the draw
- `long_padding_hides_length`: two payloads, one sequence of draws
-/

namespace Fogged.Spec.Vision

open Fogged.Native.Vision

/-- The bytes in front of the payload. -/
def overhead (withUuid : Bool) : Nat := (if withUuid then 16 else 0) + 5

/-- The padding length as the reader of a frame finds it: the last two bytes in front
    of the payload. -/
def writtenPadding (withUuid : Bool) (frame : List UInt8) : Nat :=
  Bytes.ofBE ((frame.drop (overhead withUuid - 2)).take 2)

/-- `frame` carries `payload`, and then as many bytes of padding as are written. -/
def Carries (withUuid : Bool) (payload frame : List UInt8) : Prop :=
  ∃ front padding, frame = front ++ payload ++ padding ∧ front.length = overhead withUuid ∧
    padding.length = writtenPadding withUuid frame

/-- The length of the padding stands at the end of the header. -/
theorem writtenPadding_append {withUuid : Bool} {front : List UInt8} {n : Nat} (hn : n < 2 ^ 16)
    (hfront : front.length = overhead withUuid - 2) (rest : List UInt8) :
    writtenPadding withUuid (front ++ (Bytes.toBE 2 n ++ rest)) = n := by
  rw [writtenPadding, ← hfront, List.drop_left,
    List.take_append_of_le_length (by rw [Bytes.length_toBE]),
    List.take_of_length_le (by rw [Bytes.length_toBE]), Bytes.ofBE_toBE hn]

/-- **The length of a frame**, and what is written in it. -/
theorem encodeFrame_length (rng : Rng) {payload : List UInt8} (hlen : payload.length < 2 ^ 31)
    (c : Command) (withUuid : Bool) (uuid : Uuid) (long : Bool) :
    ∃ frame, encodeFrame rng payload c withUuid uuid long .default = .ret frame ∧
      Carries withUuid payload frame ∧
      writtenPadding withUuid frame = paddingLength rng.nextU32 payload.length long ∧
      frame.length = overhead withUuid + payload.length + writtenPadding withUuid frame := by
  obtain ⟨padding, hpadding, henc⟩ := encodeFrame_default rng payload hlen c withUuid uuid long
  refine ⟨_, henc, ?_⟩
  -- the frame up to the padding length
  obtain ⟨front, hfront, hframe⟩ : ∃ front : List UInt8, front.length = overhead withUuid - 2 ∧
      (if withUuid then uuid.toList else []) ++
        (header c.toByte payload.length padding.length ++ payload ++ padding) =
      front ++ (Bytes.toBE 2 padding.length ++ (payload ++ padding)) := by
    refine ⟨(if withUuid then uuid.toList else []) ++ c.toByte :: Bytes.toBE 2 payload.length,
      ?_, ?_⟩
    · cases withUuid <;> simp [overhead]
    · rw [List.append_assoc, List.append_assoc]
      rfl
  have hlt : padding.length < 2 ^ 16 := by
    rw [hpadding, paddingLength]
    omega
  have hwritten := writtenPadding_append hlt hfront (payload ++ padding)
  have hover : 2 ≤ overhead withUuid := by cases withUuid <;> decide
  rw [hframe]
  refine ⟨⟨front ++ Bytes.toBE 2 padding.length, padding, ?_, ?_, hwritten.symm⟩,
    hwritten.trans hpadding, ?_⟩
  · simp only [List.append_assoc]
  · rw [List.length_append, hfront, Bytes.length_toBE]
    omega
  · rw [hwritten, List.length_append, List.length_append, List.length_append, hfront,
      Bytes.length_toBE]
    omega

/-- **Long padding hides the payload's length.** Two payloads of less than 900 bytes and the
    same draws give frames of the same length, with 900 to 1399 bytes behind the header. For
    every payload and either choice of padding, the padding length that is written is at most
    2027 and the number of padding bytes, there is no padding behind 2027 bytes or more, and
    up to there the frame has no more than 2048 bytes. -/
theorem long_padding_hides_length (rng : Rng) (c : Command) (withUuid : Bool) (uuid : Uuid) :
    (∀ p q : List UInt8, p.length < 900 → q.length < 900 →
      ∃ fp fq, encodeFrame rng p c withUuid uuid true .default = .ret fp ∧
        encodeFrame rng q c withUuid uuid true .default = .ret fq ∧
        fp.length = fq.length ∧
        900 ≤ p.length + writtenPadding withUuid fp ∧
        p.length + writtenPadding withUuid fp < 1400) ∧
    (∀ (payload : List UInt8) (long : Bool), payload.length ≤ 65535 →
      ∃ frame, encodeFrame rng payload c withUuid uuid long .default = .ret frame ∧
        Carries withUuid payload frame ∧
        writtenPadding withUuid frame ≤ 2027 ∧
        (2027 ≤ payload.length → writtenPadding withUuid frame = 0) ∧
        (payload.length ≤ 2027 → (frame.length : Int) ≤ frameMax)) := by
  constructor
  · intro p q hp hq
    obtain ⟨fp, hfp, -, hwp, hlp⟩ :=
      encodeFrame_length rng (show p.length < 2 ^ 31 by omega) c withUuid uuid true
    obtain ⟨fq, hfq, -, hwq, hlq⟩ :=
      encodeFrame_length rng (show q.length < 2 ^ 31 by omega) c withUuid uuid true
    -- the sum of content and padding is the draw alone: the cap is out of reach
    have hsum (n : Nat) (hn : n < 900) :
        n + paddingLength rng.nextU32 n true = rng.nextU32.toNat % 500 + 900 := by
      rw [paddingLength, if_pos ⟨hn, rfl⟩]
      omega
    have hsp := hsum p.length hp
    have hsq := hsum q.length hq
    rw [← hwp] at hsp
    rw [← hwq] at hsq
    exact ⟨fp, fq, hfp, hfq, by omega, by omega, by omega⟩
  · intro payload long hlen
    obtain ⟨frame, henc, hcarries, hwritten, hlength⟩ :=
      encodeFrame_length rng (show payload.length < 2 ^ 31 by omega) c withUuid uuid long
    have hover : overhead withUuid ≤ 21 := by cases withUuid <;> decide
    rw [paddingLength] at hwritten
    refine ⟨frame, henc, hcarries, by omega, fun _ => by omega, fun _ => ?_⟩
    rw [frameMax]
    omega

/-- One byte and five, with the same draws. -/
theorem long_padding_hides_length_short :
    ∃ fp fq, encodeFrame ⟨1234, fun _ => 0⟩ [0x61] .paddingEnd true testUuid true .default =
        .ret fp ∧
      encodeFrame ⟨1234, fun _ => 0⟩ [1, 2, 3, 4, 5] .paddingEnd true testUuid true .default =
        .ret fq ∧
      fp.length = fq.length := by
  obtain ⟨fp, fq, hfp, hfq, hlen, -⟩ :=
    (long_padding_hides_length ⟨1234, fun _ => 0⟩ .paddingEnd true testUuid).1
      [0x61] [1, 2, 3, 4, 5] (by decide) (by decide)
  exact ⟨fp, fq, hfp, hfq, hlen⟩

end Fogged.Spec.Vision
