import Mathlib.Algebra.BigOperators.Ring.Finset
import Mathlib.Data.List.GetD
import Mathlib.Data.List.TakeDrop
import Mathlib.Data.Nat.Bitwise
import Mathlib.Tactic.Ring

/-!
# Protobuf's wire format

A varint is a sequence of bytes with seven bits of a number in each, the low bits first;
all but the last have the high bit set. A number has many varints, and one that is as
short as possible. A varint has ten bytes at most and is read modulo `2 ^ 64`.

A message is a sequence of fields. A field is a tag, which is a number and a wire type in
one varint, and a payload that depends on the wire type: a varint, or a length and that
many bytes. The other wire types are not used here.
-/

namespace Protobuf

/-! ## Varints -/

/-- The number that a varint spells. -/
def value : List UInt8 → Nat
  | [] => 0
  | b :: bytes => b.toNat % 128 + 128 * value bytes

/-- The last byte, and no other, is without the high bit. -/
def Terminated : List UInt8 → Prop
  | [] => False
  | [b] => b.toNat < 128
  | b :: bytes => 128 ≤ b.toNat ∧ Terminated bytes

instance decidableTerminated : (bytes : List UInt8) → Decidable (Terminated bytes)
  | [] => inferInstanceAs (Decidable False)
  | [b] => inferInstanceAs (Decidable (b.toNat < 128))
  | b :: c :: bytes =>
    have := decidableTerminated (c :: bytes)
    inferInstanceAs (Decidable (128 ≤ b.toNat ∧ Terminated (c :: bytes)))

/-- A varint. -/
structure Varint where
  bytes : List UInt8
  terminated : Terminated bytes
  length_le : bytes.length ≤ 10

/-- What a varint is read as. -/
def Varint.toNat (v : Varint) : Nat := value v.bytes % 2 ^ 64

/-- The shortest varint of a number. -/
def minimal (n : Nat) : List UInt8 :=
  if n < 128 then [UInt8.ofNat n] else UInt8.ofNat (128 + n % 128) :: minimal (n / 128)

/-- A varint has a byte. -/
theorem Terminated.length_pos {bytes : List UInt8} (h : Terminated bytes) : 0 < bytes.length := by
  cases bytes with
  | nil => exact h.elim
  | cons b bytes => exact Nat.succ_pos _

/-- A byte without the high bit is the last. -/
theorem Terminated.eq_nil {b : UInt8} {bytes : List UInt8} (h : Terminated (b :: bytes))
    (hb : b.toNat < 128) : bytes = [] := by
  cases bytes with
  | nil => rfl
  | cons c bytes =>
    have hhigh : 128 ≤ b.toNat := h.1
    omega

/-- After a byte with the high bit there are others. -/
theorem Terminated.tail {b : UInt8} {bytes : List UInt8} (h : Terminated (b :: bytes))
    (hb : 128 ≤ b.toNat) : Terminated bytes := by
  cases bytes with
  | nil =>
    have hlow : b.toNat < 128 := h
    omega
  | cons c bytes => exact h.2

/-- A byte with the high bit may come before. -/
theorem Terminated.cons {b : UInt8} {bytes : List UInt8} (hb : 128 ≤ b.toNat)
    (h : Terminated bytes) : Terminated (b :: bytes) := by
  cases bytes with
  | nil => exact h.elim
  | cons c bytes => exact ⟨hb, h⟩

/-- The last byte of a varint is the first without the high bit, whatever follows. -/
theorem Terminated.findIdx?_append {bytes : List UInt8} (h : Terminated bytes)
    (rest : List UInt8) :
    (bytes ++ rest).findIdx? (·.toNat < 128) = some (bytes.length - 1) := by
  induction bytes with
  | nil => exact h.elim
  | cons b bytes ih =>
    rw [List.cons_append, List.findIdx?_cons]
    -- a byte below 128 is the last one
    by_cases hb : b.toNat < 128
    · rw [if_pos (decide_eq_true hb), h.eq_nil hb]
      rfl
    · have htail := h.tail (by omega)
      have hlen := htail.length_pos
      rw [if_neg (by simpa using hb), ih htail, Option.map_some, List.length_cons]
      congr 1
      omega

/-- The number of a varint as a sum. -/
theorem value_eq_sum (bytes : List UInt8) :
    value bytes = ∑ i ∈ Finset.range bytes.length, (bytes.getD i 0).toNat % 128 * 128 ^ i := by
  induction bytes with
  | nil => rfl
  | cons b bytes ih =>
    rw [value, ih, List.length_cons, Finset.sum_range_succ', Finset.mul_sum, Nat.add_comm]
    congr 1
    · apply Finset.sum_congr rfl
      intro i _
      rw [List.getD_cons_succ, Nat.pow_succ]
      ring
    · rw [List.getD_cons_zero, Nat.pow_zero, Nat.mul_one]

/-- Seven bits of each of the first `n` bytes, as one number. -/
theorem value_take {data : List UInt8} {n : Nat} (h : n ≤ data.length) :
    value (data.take n) =
      ∑ j ∈ Finset.range n, (data.getD j 0).toNat % 128 * 128 ^ j := by
  rw [value_eq_sum, List.length_take_of_le h]
  apply Finset.sum_congr rfl
  intro j hj
  rw [List.getD_eq_getElem?_getD, List.getElem?_take_of_lt (Finset.mem_range.1 hj),
    ← List.getD_eq_getElem?_getD]

/-- The minimal encoding is a varint. -/
theorem terminated_minimal (n : Nat) : Terminated (minimal n) := by
  induction n using Nat.strong_induction_on with
  | _ n ih =>
    rw [minimal]
    split
    · show (UInt8.ofNat n).toNat < 128
      rw [UInt8.toNat_ofNat']
      omega
    · refine Terminated.cons ?_ (ih (n / 128) (by omega))
      rw [UInt8.toNat_ofNat']
      omega

/-- And stands for its number. -/
theorem value_minimal (n : Nat) : value (minimal n) = n := by
  induction n using Nat.strong_induction_on with
  | _ n ih =>
    rw [minimal]
    split
    · rw [value, value, UInt8.toNat_ofNat']
      omega
    · rw [value, ih (n / 128) (by omega), UInt8.toNat_ofNat']
      omega

/-- Seven bits go into a byte. -/
theorem length_minimal_le {n : Nat} (k : Nat) (h : n < 128 ^ (k + 1)) :
    (minimal n).length ≤ k + 1 := by
  induction k generalizing n with
  | zero =>
    rw [minimal, if_pos (by omega)]
    rfl
  | succ k ih =>
    rw [minimal]
    split
    · simp
    · -- seven bits go with each byte
      have hdiv : n / 128 < 128 ^ (k + 1) := by
        rw [Nat.pow_succ] at h
        exact Nat.div_lt_of_lt_mul (by omega)
      exact Nat.succ_le_succ (ih hdiv)

/-- No varint of a number is shorter. -/
theorem length_minimal_le_length {bytes : List UInt8} (h : Terminated bytes) :
    (minimal (value bytes)).length ≤ bytes.length := by
  induction bytes with
  | nil => exact h.elim
  | cons b bytes ih =>
    rw [minimal]
    split
    · simp
    · rename_i hlong
      -- a number that needs another byte has one
      have hb : 128 ≤ b.toNat := by
        by_contra hlow
        obtain rfl := h.eq_nil (by omega)
        simp only [value] at hlong
        omega
      have hdiv : value (b :: bytes) / 128 = value bytes := by
        rw [value]
        omega
      rw [hdiv]
      exact Nat.succ_le_succ (ih (h.tail hb))

/-- The bytes of a varint below each other's bits: or-ing in the next byte adds it. -/
theorem or_shiftLeft {val shift : Nat} (x : Nat) (h : val < 2 ^ shift) (hshift : shift < 64) :
    val ||| x <<< shift % 2 ^ 64 = (val + 2 ^ shift * x) % 2 ^ 64 := by
  have hsplit : (2 : Nat) ^ 64 = 2 ^ shift * 2 ^ (64 - shift) := by
    rw [← Nat.pow_add]
    congr 1
    omega
  have hx : x <<< shift % 2 ^ 64 = 2 ^ shift * (x % 2 ^ (64 - shift)) := by
    rw [Nat.shiftLeft_eq, Nat.mul_comm x, hsplit, Nat.mul_mod_mul_left]
  have hlow : (val + 2 ^ shift * x) % 2 ^ 64 = val + 2 ^ shift * (x % 2 ^ (64 - shift)) := by
    rw [hsplit, Nat.mod_mul, Nat.add_mul_mod_self_left, Nat.mod_eq_of_lt h,
      Nat.add_mul_div_left _ _ (Nat.two_pow_pos shift), Nat.div_eq_of_lt h, Nat.zero_add]
  rw [hx, hlow, Nat.or_comm, ← Nat.two_pow_add_eq_or_of_lt h, Nat.add_comm]

/-! ## Fields -/

/-- What follows a tag, by its wire type. -/
inductive Payload where
  /-- Wire type 0. -/
  | varint (v : Varint)
  /-- Wire type 2, with the length in front. -/
  | bytes (length : Varint) (contents : List UInt8) (length_eq : length.toNat = contents.length)

def Payload.wireType : Payload → Nat
  | .varint _ => 0
  | .bytes _ _ _ => 2

def Payload.encode : Payload → List UInt8
  | .varint v => v.bytes
  | .bytes length contents _ => length.bytes ++ contents

/-- A field of a message. -/
structure Field where
  number : Nat
  number_pos : 0 < number
  number_lt : number < 2 ^ 29
  payload : Payload

/-- The tag as a number. -/
def Field.tag (f : Field) : Nat := 8 * f.number + f.payload.wireType

def Field.encode (f : Field) : List UInt8 := minimal f.tag ++ f.payload.encode

/-- A message: its fields one after the other. -/
def encode (fields : List Field) : List UInt8 := fields.flatMap Field.encode

end Protobuf
