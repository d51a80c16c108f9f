import Mathlib.Data.List.GetD
import Mathlib.Data.Vector.Defs
import Fogged.ForStd.Buffer
import Fogged.ForStd.Bytes

/-!
# Byte slices by index

Code that reads a slice by index is stopped by an index out of range, and by an index
computation that overflows. A `usize` has 64 bits; no slice is longer than `isize::MAX`
bytes, so that a position inside one can be moved on a little without an overflow.

The lemmas for a check that passes come in two forms: from a bound on the index, and from
what is unread at the index, `data.drop i`.
-/

namespace Indexed

/-- A byte slice, no longer than `isize::MAX`. -/
abbrev Slice := { data : List UInt8 // data.length < 2 ^ 63 }

/-- `a + b`. -/
def add (a b : Nat) : Outcome Nat := if a + b < 2 ^ 64 then .ret (a + b) else .panic

/-- `a - b`. -/
def sub (a b : Nat) : Outcome Nat := if b ≤ a then .ret (a - b) else .panic

/-- `a.saturating_add(b)`. -/
def saturatingAdd (a b : Nat) : Nat := min (a + b) (2 ^ 64 - 1)

/-- `data[i]`. -/
def get (data : List UInt8) (i : Nat) : Outcome UInt8 :=
  match data[i]? with
  | some b => .ret b
  | none => .panic

/-- `u16::from_be_bytes([data[i], data[i + 1]])`, as a number. -/
def u16 (data : List UInt8) (i : Nat) : Outcome Nat := do
  let a ← get data i
  let j ← add i 1
  let b ← get data j
  .ret (Bytes.ofBE [a, b])

/-- `copy_from_slice` into an array of `n` bytes. -/
def toArray (n : Nat) (bytes : List UInt8) : Outcome (List.Vector UInt8 n) :=
  if h : bytes.length = n then .ret ⟨bytes, h⟩ else .panic

theorem add_of_lt {a b : Nat} (h : a + b < 2 ^ 64) : add a b = .ret (a + b) := if_pos h

theorem sub_of_le {a b : Nat} (h : b ≤ a) : sub a b = .ret (a - b) := if_pos h

/-- An index in range. -/
theorem get_of_lt {data : List UInt8} {i : Nat} (h : i < data.length) :
    get data i = .ret data[i] := by
  rw [get, List.getElem?_eq_getElem h]

/-- An index at which something is unread. -/
theorem get_of_drop {data rest : List UInt8} {i : Nat} {b : UInt8} (h : data.drop i = b :: rest) :
    get data i = .ret b := by
  have hb : (data.drop i)[0]? = some b := by rw [h]; rfl
  rw [List.getElem?_drop, Nat.add_zero] at hb
  rw [get, hb]

/-- Two bytes in range have names. -/
theorem exists_drop_two {data : List UInt8} {i : Nat} (h : i + 1 < data.length) :
    ∃ a b, data.drop i = a :: b :: data.drop (i + 2) :=
  ⟨data[i], data[i + 1], by
    rw [List.drop_eq_getElem_cons (by omega), List.drop_eq_getElem_cons (by omega)]⟩

/-- A byte in range has a name. -/
theorem exists_drop_one {data : List UInt8} {i : Nat} (h : i < data.length) :
    ∃ b, data.drop i = b :: data.drop (i + 1) :=
  ⟨data[i], List.drop_eq_getElem_cons h⟩

/-- Four bytes in range have names. -/
theorem exists_drop_four {data : List UInt8} {i : Nat} (h : i + 4 ≤ data.length) :
    ∃ a b c d, data.drop i = a :: b :: c :: d :: data.drop (i + 4) := by
  obtain ⟨a, b, hab⟩ := exists_drop_two (show i + 1 < data.length by omega)
  obtain ⟨c, d, hcd⟩ := exists_drop_two (show i + 2 + 1 < data.length by omega)
  exact ⟨a, b, c, d, by rw [hab, hcd]⟩

/-- A slice of the right length. -/
theorem toArray_of_length {n : Nat} {bytes : List UInt8} (h : bytes.length = n) :
    toArray n bytes = .ret ⟨bytes, h⟩ := dif_pos h

/-- Two indices in range. -/
theorem u16_of_lt {data : List UInt8} {i : Nat} (h : i + 1 < data.length) (hi : i + 1 < 2 ^ 64) :
    u16 data i = .ret (Bytes.ofBE [data[i], data[i + 1]]) := by
  rw [u16, get_of_lt (by omega), add_of_lt hi]
  simp only [Outcome.ret_bind, get_of_lt h]

/-- Two bytes are unread. -/
theorem u16_of_drop {data rest : List UInt8} {i : Nat} {a b : UInt8} (hi : i + 1 < 2 ^ 64)
    (h : data.drop i = a :: b :: rest) : u16 data i = .ret (Bytes.ofBE [a, b]) := by
  have hb : data.drop (i + 1) = b :: rest := by rw [← List.drop_drop, h]; rfl
  rw [u16, get_of_drop h, add_of_lt hi]
  simp only [Outcome.ret_bind, get_of_drop hb]

/-! ## Buffers of zero bytes -/

/-- Data that has been read into a buffer is followed by zeros. -/
theorem get_filled {n i : Nat} {data : List UInt8} (hlen : data.length ≤ n) (hi : i < n) :
    get (Buffer.filled n 0 data) i = .ret (data.getD i 0) := by
  have hlt : i < (Buffer.filled n 0 data).length := by
    rw [Buffer.length_filled hlen]
    exact hi
  rw [get_of_lt hlt, ← Buffer.filled_getD (n := n), List.getD_eq_getElem _ _ hlt]

/-- Two bytes of a buffer of zeros into which something was read. -/
theorem u16_filled {n i : Nat} {data : List UInt8} (hlen : data.length ≤ n) (hi : i + 1 < n)
    (hn : n < 2 ^ 64) :
    u16 (Buffer.filled n 0 data) i = .ret (Bytes.ofBE [data.getD i 0, data.getD (i + 1) 0]) := by
  rw [u16, get_filled hlen (by omega), add_of_lt (by omega)]
  simp only [Outcome.ret_bind, get_filled hlen hi]

end Indexed
