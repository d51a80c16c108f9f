import Mathlib.Data.List.Basic

/-!
# Ring buffers

A ring buffer is its items, first to last, and the capacity that has been allocated for
them. `Allocator` says how much is allocated: at least what was asked for, and more than
before when there is no room left.
-/

/-- How much is allocated for a ring buffer. -/
structure Allocator where
  withCapacity : Nat → Nat
  le_withCapacity : ∀ n, n ≤ withCapacity n
  /-- The next capacity, when one is used up. -/
  grow : Nat → Nat
  lt_grow : ∀ n, n < grow n

structure VecDeque (α : Type) where
  items : List α
  capacity : Nat
  length_le : items.length ≤ capacity
  deriving DecidableEq

namespace VecDeque

variable {α : Type}

def withCapacity (alloc : Allocator) (n : Nat) : VecDeque α where
  items := []
  capacity := alloc.withCapacity n
  length_le := Nat.zero_le _

/-- No more goes in without another allocation. -/
def isFull (b : VecDeque α) : Bool := b.capacity == b.items.length

theorem isFull_iff {b : VecDeque α} : b.isFull = true ↔ b.items.length = b.capacity := by
  rw [isFull, beq_iff_eq]
  exact eq_comm

/-- There is room for one more. -/
theorem length_lt_of_not_isFull {b : VecDeque α} (h : ¬ b.isFull = true) :
    b.items.length < b.capacity := by
  rw [isFull_iff] at h
  have hle := b.length_le
  omega

def pushBack (alloc : Allocator) (b : VecDeque α) (a : α) : VecDeque α :=
  if h : b.isFull then
    { items := b.items ++ [a]
      capacity := alloc.grow b.capacity
      length_le := by
        have hlt := alloc.lt_grow b.capacity
        rw [isFull_iff] at h
        rw [List.length_append, List.length_singleton]
        omega }
  else
    { items := b.items ++ [a]
      capacity := b.capacity
      length_le := by
        have hlt := length_lt_of_not_isFull h
        rw [List.length_append, List.length_singleton]
        exact hlt }

@[simp] theorem items_pushBack (alloc : Allocator) (b : VecDeque α) (a : α) :
    (b.pushBack alloc a).items = b.items ++ [a] := by
  unfold pushBack
  split <;> rfl

/-- Where there is room, nothing is allocated. -/
theorem capacity_pushBack {alloc : Allocator} {b : VecDeque α} {a : α}
    (h : b.items.length < b.capacity) : (b.pushBack alloc a).capacity = b.capacity := by
  rw [pushBack, dif_neg]
  rw [isFull_iff]
  omega

/-- The first item is dropped, if there is one. -/
def dropFront (b : VecDeque α) : VecDeque α where
  items := b.items.tail
  capacity := b.capacity
  length_le := by
    have hle := b.length_le
    rw [List.length_tail]
    omega

/-- The last item is dropped, if there is one. -/
def dropBack (b : VecDeque α) : VecDeque α where
  items := b.items.dropLast
  capacity := b.capacity
  length_le := by
    have hle := b.length_le
    rw [List.length_dropLast]
    omega

/-- `push_back` on a buffer that makes room first, so that it never grows. -/
def pushBackLimited (alloc : Allocator) (b : VecDeque α) (a : α) : VecDeque α :=
  if b.isFull then b.dropFront.pushBack alloc a else b.pushBack alloc a

/-- Something has gone in at the end, and at most the first item out. -/
theorem items_pushBackLimited (alloc : Allocator) (b : VecDeque α) (a : α) :
    (b.pushBackLimited alloc a).items <:+ b.items ++ [a] := by
  unfold pushBackLimited
  split
  · rw [items_pushBack]
    show b.items.tail ++ [a] <:+ _
    obtain ⟨front, hfront⟩ := List.tail_suffix b.items
    exact ⟨front, by rw [← List.append_assoc, hfront]⟩
  · exact ⟨[], by rw [List.nil_append, items_pushBack]⟩

/-- A queue with room for something never grows. -/
theorem capacity_pushBackLimited {alloc : Allocator} {b : VecDeque α} {a : α}
    (h : 0 < b.capacity) : (b.pushBackLimited alloc a).capacity = b.capacity := by
  unfold pushBackLimited
  split
  · rename_i hfull
    rw [isFull_iff] at hfull
    apply capacity_pushBack
    show b.items.tail.length < b.capacity
    rw [List.length_tail]
    omega
  · rename_i hfull
    exact capacity_pushBack (length_lt_of_not_isFull hfull)

end VecDeque
