import Mathlib.Data.Vector.Defs
import Fogged.ForStd.Bytes

/-!
# Byte streams that arrive in pieces

A transport cuts a byte stream where it likes. `Source` is what is still to come, in the
pieces in which it will arrive; `read` returns as much of the next piece as the buffer
holds, and nothing only at the end. Every sequence of short reads is that of some source.

`readExact` reads until the buffer is full. `readExact_eq` says that it cannot tell the
cuts: it is an exact read of the bytes.
-/

namespace AsyncRead

/-- The rest of a byte stream, in pieces. -/
structure Source where
  pieces : List (List UInt8)
  ne_nil : ∀ piece ∈ pieces, piece ≠ []

namespace Source

def bytes (s : Source) : List UInt8 := s.pieces.flatten

/-- `stream.read(&mut buf)` with a buffer of `n` bytes. -/
def read (n : Nat) : Source → List UInt8 × Source
  | ⟨[], h⟩ => ([], ⟨[], h⟩)
  | ⟨piece :: pieces, h⟩ =>
    if hlt : n < piece.length then
      (piece.take n, ⟨piece.drop n :: pieces, List.forall_mem_cons.2
        ⟨by simpa using hlt, (List.forall_mem_cons.1 h).2⟩⟩)
    else (piece, ⟨pieces, (List.forall_mem_cons.1 h).2⟩)

/-- The loop of `read_exact`, which ends early if a read returns nothing; every other read
    returns a byte at least, so `left` reads are enough. -/
def fill : (fuel left : Nat) → Source → Option (List UInt8 × Source)
  | _, 0, s => some ([], s)
  | 0, _ + 1, _ => none
  | fuel + 1, left + 1, s =>
    let (bytes, s) := s.read (left + 1)
    if bytes = [] then none
    else (fill fuel (left + 1 - bytes.length) s).map fun r => (bytes ++ r.1, r.2)

/-- `stream.read_exact(&mut buf)` with a buffer of `n` bytes. -/
def readExact (n : Nat) (s : Source) : Option (List.Vector UInt8 n × Source) :=
  (fill n n s).bind fun r => if h : r.1.length = n then some (⟨r.1, h⟩, r.2) else none

/-! ## One read -/

/-- A read takes from the front. -/
theorem read_append (n : Nat) (s : Source) : (s.read n).1 ++ (s.read n).2.bytes = s.bytes := by
  obtain ⟨pieces, h⟩ := s
  cases pieces with
  | nil => rfl
  | cons piece pieces =>
    rw [read]
    split
    · simp [bytes, ← List.append_assoc]
    · simp [bytes]

/-- And not more than it asks for. -/
theorem length_read_le (n : Nat) (s : Source) : (s.read n).1.length ≤ n := by
  obtain ⟨pieces, h⟩ := s
  cases pieces with
  | nil => exact Nat.zero_le n
  | cons piece pieces =>
    rw [read]
    split
    · rw [List.length_take]
      omega
    · dsimp only
      omega

/-- A read returns nothing only at the end. -/
theorem read_ne_nil {n : Nat} (hn : 0 < n) {s : Source} (hs : s.bytes ≠ []) :
    (s.read n).1 ≠ [] := by
  obtain ⟨pieces, h⟩ := s
  cases pieces with
  | nil => exact absurd rfl hs
  | cons piece pieces =>
    have hpiece := (List.forall_mem_cons.1 h).1
    rw [read]
    split
    · simp only [ne_eq, List.take_eq_nil_iff, not_or]
      exact ⟨by omega, hpiece⟩
    · exact hpiece

/-! ## Exact reads -/

/-- The loop cannot tell the cuts. -/
theorem fill_eq {fuel left : Nat} (hfuel : left ≤ fuel) (s : Source) :
    (fill fuel left s).map (fun r => (r.1, r.2.bytes)) = Bytes.readExact left s.bytes := by
  induction fuel generalizing left s with
  | zero =>
    obtain rfl : left = 0 := by omega
    simp [fill, Bytes.readExact]
  | succ fuel ih =>
    cases left with
    | zero => simp [fill, Bytes.readExact]
    | succ left =>
      have happend := s.read_append (left + 1)
      have hle := s.length_read_le (left + 1)
      have hnil := read_ne_nil (Nat.succ_pos left) (s := s)
      rw [fill]
      generalize s.read (left + 1) = r at happend hle hnil
      obtain ⟨front, s'⟩ := r
      dsimp only at happend hle hnil ⊢
      by_cases hfront : front = []
      · -- the end of the stream
        have hbytes : s.bytes = [] := by
          by_contra hne
          exact hnil hne hfront
        rw [if_pos hfront, hbytes]
        rfl
      · -- at least one byte came, so the fuel is enough for the rest
        have hpos : 0 < front.length := List.length_pos_iff.2 hfront
        have hleft : left + 1 - front.length ≤ fuel := by omega
        have hrest := congrArg (Option.map fun r => (front ++ r.1, r.2)) (ih hleft s')
        rw [← Bytes.readExact_append_of_le hle, happend, Option.map_map] at hrest
        rw [if_neg hfront, ← hrest, Option.map_map]
        rfl

/-- **An exact read** is an exact read of the bytes, however they are cut. -/
theorem readExact_eq (n : Nat) (s : Source) :
    (s.readExact n).map (fun r => (r.1.toList, r.2.bytes)) = Bytes.readExact n s.bytes := by
  have hfill := fill_eq (Nat.le_refl n) s
  rw [readExact, ← hfill]
  cases heq : fill n n s with
  | none => rfl
  | some r =>
    rw [heq] at hfill
    have hlen : r.1.length = n := (Bytes.readExact_eq_some hfill.symm).1
    rw [Option.bind_some, dif_pos hlen]
    rfl

/-- An exact read takes what it asks for. -/
theorem readExact_eq_some {n : Nat} {s s' : Source} {v : List.Vector UInt8 n}
    (h : s.readExact n = some (v, s')) : s.bytes = v.toList ++ s'.bytes := by
  have heq := readExact_eq n s
  rw [h] at heq
  exact (Bytes.readExact_eq_some heq.symm).2

/-- Two sources of the same bytes are read alike. -/
theorem readExact_congr (n : Nat) {s₁ s₂ : Source} (h : s₁.bytes = s₂.bytes) :
    s₁.readExact n = none ∧ s₂.readExact n = none ∨
      ∃ v s₁' s₂', s₁.readExact n = some (v, s₁') ∧ s₂.readExact n = some (v, s₂') ∧
        s₁'.bytes = s₂'.bytes := by
  -- how the bytes are cut does not matter
  have heq : (s₁.readExact n).map (fun r => (r.1.toList, r.2.bytes)) =
      (s₂.readExact n).map (fun r => (r.1.toList, r.2.bytes)) := by
    rw [readExact_eq, readExact_eq, h]
  cases h₁ : s₁.readExact n with
  | none =>
    rw [h₁] at heq
    exact .inl ⟨rfl, Option.map_eq_none_iff.1 heq.symm⟩
  | some r =>
    rw [h₁] at heq
    obtain ⟨r', h₂, hr⟩ := Option.map_eq_some_iff.1 heq.symm
    obtain ⟨hv, hbytes⟩ := Prod.mk.inj hr
    refine .inr ⟨r.1, r.2, r'.2, rfl, ?_, hbytes.symm⟩
    rw [h₂, show r.1 = r'.1 from Subtype.ext hv.symm]

end Source

end AsyncRead
