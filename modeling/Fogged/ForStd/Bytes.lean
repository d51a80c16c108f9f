import Mathlib.Algebra.GroupWithZero.Nat
import Mathlib.Data.List.Induction

/-!
# Byte strings: big-endian numbers, exact reads and UTF-8

The things every length-prefixed format is made of. Numbers are written with
a fixed width, most significant byte first, so that writing truncates and reading
never fails; an exact read takes a given number of bytes from the front of the
input or nothing at all; text is bytes that are well-formed UTF-8.
-/

namespace Bytes

/-! ## Big-endian numbers -/

/-- The low `k` bytes of `n`, most significant first (`to_be_bytes`). -/
def toBE : Nat → Nat → List UInt8
  | 0, _ => []
  | k + 1, n => toBE k (n / 256) ++ [UInt8.ofNat n]

/-- The number that bytes spell, most significant first (`from_be_bytes`). -/
def ofBE (bytes : List UInt8) : Nat :=
  bytes.foldl (fun acc b => 256 * acc + b.toNat) 0

/-- The width is fixed. -/
@[simp] theorem length_toBE (k n : Nat) : (toBE k n).length = k := by
  induction k generalizing n with
  | zero => rfl
  | succ k ih => simp [toBE, ih]

/-- One more byte. -/
theorem ofBE_concat (bytes : List UInt8) (b : UInt8) :
    ofBE (bytes ++ [b]) = 256 * ofBE bytes + b.toNat := by
  simp [ofBE]

theorem ofBE_singleton (b : UInt8) : ofBE [b] = b.toNat := by simp [ofBE]

/-- A number is bounded by its width. -/
theorem ofBE_lt (bytes : List UInt8) : ofBE bytes < 256 ^ bytes.length := by
  induction bytes using List.reverseRecOn with
  | nil => decide
  | append_singleton bytes b ih =>
    have hb : b.toNat < 256 := b.toNat_lt
    rw [ofBE_concat, List.length_append, List.length_singleton, Nat.pow_succ]
    omega

/-- A number of two bytes. -/
theorem ofBE_two_lt (a b : UInt8) : ofBE [a, b] < 2 ^ 16 := by
  simpa using ofBE_lt [a, b]

/-- Reading undoes writing, for numbers that fit the width. -/
theorem ofBE_toBE {k n : Nat} (h : n < 256 ^ k) : ofBE (toBE k n) = n := by
  induction k generalizing n with
  | zero =>
    rw [Nat.pow_zero] at h
    have hn : n = 0 := by omega
    rw [hn]
    rfl
  | succ k ih =>
    rw [Nat.pow_succ] at h
    rw [toBE, ofBE_concat, ih (by omega), UInt8.toNat_ofNat']
    omega

/-- The two bytes of a `u16`. -/
theorem exists_toBE_two {n : Nat} (h : n < 2 ^ 16) : ∃ a b, toBE 2 n = [a, b] ∧ ofBE [a, b] = n :=
  ⟨_, _, rfl, ofBE_toBE (k := 2) h⟩

/-- Writing undoes reading, at the width that was read. -/
theorem toBE_ofBE (bytes : List UInt8) : toBE bytes.length (ofBE bytes) = bytes := by
  induction bytes using List.reverseRecOn with
  | nil => rfl
  | append_singleton bytes b ih =>
    have hb : b.toNat < 256 := b.toNat_lt
    have hhi : (256 * ofBE bytes + b.toNat) / 256 = ofBE bytes := by omega
    have hlo : UInt8.ofNat (256 * ofBE bytes + b.toNat) = b := by
      apply UInt8.toNat_inj.mp
      rw [UInt8.toNat_ofNat']
      omega
    rw [List.length_append, List.length_singleton, ofBE_concat, toBE, hhi, ih, hlo]

/-- Two bytes survive being read as a `u16`. -/
theorem toBE_toNat_ofBE {bytes : List UInt8} (h : bytes.length = 2) :
    toBE 2 (UInt16.ofNat (ofBE bytes)).toNat = bytes := by
  have hlt : ofBE bytes < 2 ^ 16 := by simpa [h] using ofBE_lt bytes
  rw [UInt16.toNat_ofNat_of_lt' hlt, ← h, toBE_ofBE]

/-! ## Exact reads -/

/-- The first `n` bytes and what follows them, if there are that many
    (`read_exact` on a reader that ends after `input`). -/
def readExact (n : Nat) (input : List UInt8) : Option (List UInt8 × List UInt8) :=
  if n ≤ input.length then some (input.take n, input.drop n) else none

/-- An exact read splits off what it asks for. -/
theorem readExact_append (taken rest : List UInt8) :
    readExact taken.length (taken ++ rest) = some (taken, rest) := by
  rw [readExact, if_pos (by simp), List.take_left, List.drop_left]

/-- An exact read splits its input and loses nothing. -/
theorem readExact_eq_some {n : Nat} {input taken rest : List UInt8}
    (h : readExact n input = some (taken, rest)) : taken.length = n ∧ input = taken ++ rest := by
  unfold readExact at h
  split at h
  · rename_i hle
    cases h
    exact ⟨by rw [List.length_take]; omega, (List.take_append_drop n input).symm⟩
  · cases h

/-- What is there already, and an exact read of the rest. -/
theorem readExact_append_of_le {n : Nat} {front : List UInt8} (h : front.length ≤ n)
    (rest : List UInt8) :
    readExact n (front ++ rest) =
      (readExact (n - front.length) rest).map fun r => (front ++ r.1, r.2) := by
  rw [readExact, readExact, List.length_append]
  by_cases hle : n ≤ front.length + rest.length
  · rw [if_pos hle, if_pos (by omega), List.take_append, List.drop_append,
      List.take_of_length_le h, List.drop_eq_nil_of_le h]
    rfl
  · rw [if_neg hle, if_neg (by omega)]
    rfl

/-! ## UTF-8 -/

/-- `b` is in the range `lo..=hi`. -/
def between (lo hi b : UInt8) : Bool := lo ≤ b && b ≤ hi

/-- `b` may follow a leading byte. -/
def continuation (b : UInt8) : Bool := between 0x80 0xBF b

/-- `str::from_utf8(bytes).is_ok()`: sequences of one to four bytes, without overlong
    forms, surrogates and numbers beyond U+10FFFF. -/
def validUtf8 : List UInt8 → Bool
  | [] => true
  | a :: rest =>
    if a < 0x80 then validUtf8 rest
    else match rest with
      | [] => false
      | b :: rest =>
        if between 0xC2 0xDF a then continuation b && validUtf8 rest
        else match rest with
          | [] => false
          | c :: rest =>
            if a = 0xE0 ∧ between 0xA0 0xBF b ∨ between 0xE1 0xEC a ∧ continuation b ∨
                a = 0xED ∧ between 0x80 0x9F b ∨ between 0xEE 0xEF a ∧ continuation b then
              continuation c && validUtf8 rest
            else match rest with
              | [] => false
              | d :: rest =>
                if a = 0xF0 ∧ between 0x90 0xBF b ∨ between 0xF1 0xF3 a ∧ continuation b ∨
                    a = 0xF4 ∧ between 0x80 0x8F b then
                  continuation c && continuation d && validUtf8 rest
                else false

/-- A range below 0xFF. -/
theorem ne_of_between {lo hi b : UInt8} (h : between lo hi b = true) (hhi : hi < 0xFF) :
    b ≠ 0xFF := by
  rintro rfl
  simp only [between, Bool.and_eq_true, decide_eq_true_eq] at h
  exact UInt8.not_lt.2 h.2 hhi

/-- No byte of a valid text is 0xFF. -/
theorem ne_of_mem_validUtf8 {bytes : List UInt8} (h : validUtf8 bytes = true) :
    ∀ b ∈ bytes, b ≠ 0xFF := by
  have hbetween (lo hi b : UInt8) (hhi : hi < 0xFF) (hb : between lo hi b = true) : b ≠ 0xFF :=
    ne_of_between hb hhi
  fun_induction validUtf8 bytes with
  | case1 => simp
  | case2 a rest ha ih =>
    have hne : a ≠ 0xFF := by
      rintro rfl
      exact absurd ha (by decide)
    exact List.forall_mem_cons.2 ⟨hne, ih h⟩
  -- two bytes: a leading byte and a continuation
  | case4 a _ b rest ha ih =>
    rw [Bool.and_eq_true] at h
    simp only [List.forall_mem_cons]
    exact ⟨hbetween _ _ a (by decide) ha, hbetween _ _ b (by decide) h.1, ih h.2⟩
  -- three: the second byte is restricted after four of the leading bytes
  | case6 a _ b _ c rest hab ih =>
    rw [Bool.and_eq_true] at h
    simp only [List.forall_mem_cons]
    refine ⟨?_, ?_, hbetween _ _ c (by decide) h.1, ih h.2⟩
    · rcases hab with ⟨rfl, -⟩ | ⟨ha, -⟩ | ⟨rfl, -⟩ | ⟨ha, -⟩
      · decide
      · exact hbetween _ _ a (by decide) ha
      · decide
      · exact hbetween _ _ a (by decide) ha
    · rcases hab with ⟨-, hb⟩ | ⟨-, hb⟩ | ⟨-, hb⟩ | ⟨-, hb⟩ <;> exact hbetween _ _ b (by decide) hb
  | case8 a _ b _ c _ d rest hab ih =>
    rw [Bool.and_eq_true, Bool.and_eq_true] at h
    simp only [List.forall_mem_cons]
    refine ⟨?_, ?_, hbetween _ _ c (by decide) h.1.1, hbetween _ _ d (by decide) h.1.2, ih h.2⟩
    · rcases hab with ⟨rfl, -⟩ | ⟨ha, -⟩ | ⟨rfl, -⟩
      · decide
      · exact hbetween _ _ a (by decide) ha
      · decide
    · rcases hab with ⟨-, hb⟩ | ⟨-, hb⟩ | ⟨-, hb⟩ <;> exact hbetween _ _ b (by decide) hb
  | _ => cases h

/-- Letters are text. -/
theorem validUtf8_replicate (n : Nat) : validUtf8 (List.replicate n 0x61) = true := by
  induction n with
  | zero => rfl
  | succ n ih =>
    rw [List.replicate_succ, validUtf8.eq_def]
    exact (if_pos (by decide)).trans ih

end Bytes
