import Fogged.ForStd.Hex

/-!
# Numbers in text

A string is its UTF-8 bytes. `digits` writes a number in decimal, `value` reads digits of
any radix up to 16, in either case.
-/

namespace Decimal

/-- A number in decimal. -/
def digits (n : Nat) : List UInt8 := (Nat.toDigits 10 n).map fun c => UInt8.ofNat c.toNat

/-- One digit more. -/
def push (radix acc : Nat) (b : UInt8) : Option Nat :=
  (Hex.digit? b).bind fun d => if d < radix then some (acc * radix + d) else none

/-- The value of a text of digits. -/
def value (radix : Nat) (text : List UInt8) : Option Nat :=
  if text = [] then none else text.foldlM (push radix) 0

/-- The byte of a digit. -/
theorem digitChar_toNat {d : Nat} (h : d < 10) : (Nat.digitChar d).toNat = 0x30 + d := by
  revert d
  decide

/-- The last digit comes off the end. -/
theorem digits_eq (n : Nat) :
    digits n = (if n < 10 then [] else digits (n / 10)) ++ [UInt8.ofNat (0x30 + n % 10)] := by
  rw [digits, Nat.toDigits_eq_if (by decide)]
  have hmod : n % 10 < 10 := Nat.mod_lt n (by decide)
  split
  · rename_i hlt
    simp [digitChar_toNat hlt, Nat.mod_eq_of_lt hlt]
  · simp [digits, digitChar_toNat hmod]

theorem digits_ne_nil (n : Nat) : digits n ≠ [] := by
  simp [digits, Nat.toDigits_ne_nil]

/-- A digit is read. -/
theorem push_digit {acc d : Nat} (h : d < 10) :
    push 10 acc (UInt8.ofNat (0x30 + d)) = some (acc * 10 + d) := by
  have hdigit : ∀ d < 10, Hex.digit? (UInt8.ofNat (0x30 + d)) = some d := by decide
  rw [push, hdigit d h, Option.bind_some, if_pos h]

/-- A number that is written is read back. -/
theorem foldlM_digits (n : Nat) : (digits n).foldlM (push 10) 0 = some n := by
  induction n using Nat.strongRecOn with
  | _ n ih =>
    have hmod : n % 10 < 10 := Nat.mod_lt n (by decide)
    rw [digits_eq, List.foldlM_append]
    split
    · -- a single digit, or the digits of `n / 10` and one more
      rename_i hlt
      simp only [List.foldlM_nil, List.foldlM_cons, Option.pure_def, Option.bind_eq_bind,
        Option.bind_some, push_digit hmod, Option.some.injEq]
      omega
    · rw [ih (n / 10) (by omega)]
      simp only [List.foldlM_nil, List.foldlM_cons, Option.pure_def, Option.bind_eq_bind,
        Option.bind_some, push_digit hmod, Option.some.injEq]
      omega

/-- What has been written can be read. -/
theorem value_digits (n : Nat) : value 10 (digits n) = some n := by
  rw [value, if_neg (digits_ne_nil n), foldlM_digits]

/-- Only digits are written. -/
theorem isDigit_of_mem {n : Nat} {b : UInt8} (h : b ∈ digits n) : 0x30 ≤ b ∧ b ≤ 0x39 := by
  induction n using Nat.strongRecOn with
  | _ n ih =>
    have hlast : ∀ d < 10, 0x30 ≤ UInt8.ofNat (0x30 + d) ∧ UInt8.ofNat (0x30 + d) ≤ 0x39 := by
      decide
    rw [digits_eq, List.mem_append, List.mem_singleton] at h
    obtain h | rfl := h
    · split at h
      · cases h
      · exact ih (n / 10) (by omega) h
    · exact hlast _ (Nat.mod_lt n (by decide))

end Decimal
