import Mathlib.Algebra.BigOperators.Group.Finset.Basic
import Mathlib.Data.Finmap

/-!
# Finite maps: folds as sums

A loop over the values of a finite map that adds something up, in an arithmetic of its
own, computes a sum over the keys. `φ` takes a total to the loop's representation of it.
-/

namespace Finmap

variable {α : Type} [DecidableEq α] {β δ M : Type} [AddCommMonoid M]

/-- The sum over the entries is one over the keys. -/
theorem sum_entries (m : Finmap fun _ : α => β) (f : β → M) :
    (m.entries.map fun e => f e.2).sum = ∑ k ∈ m.keys, (m.lookup k).elim 0 f := by
  have hkeys : ∑ k ∈ m.keys, (m.lookup k).elim 0 f =
      (m.entries.map fun e => (m.lookup e.1).elim 0 f).sum := by
    show ((m.entries.map Sigma.fst).map fun k => (m.lookup k).elim 0 f).sum = _
    rw [Multiset.map_map]
    rfl
  rw [hkeys]
  congr 1
  apply Multiset.map_congr rfl
  intro e he
  rw [lookup_eq_some_iff.2 he]
  rfl

/-- A loop that adds up what `f` takes from the values. -/
theorem foldl_eq_sum (m : Finmap fun _ : α => β) {g : δ → β → δ}
    (hg : ∀ d b b', g (g d b) b' = g (g d b') b) (φ : M → δ) (f : β → M)
    (h : ∀ total b, g (φ total) b = φ (total + f b)) :
    m.foldl (fun d _ b => g d b) (fun d _ b _ b' => hg d b b') (φ 0) =
      φ (∑ k ∈ m.keys, (m.lookup k).elim 0 f) := by
  have hrc : RightCommutative fun d (e : Sigma fun _ : α => β) => g d e.2 :=
    ⟨fun d e e' => hg d e.2 e'.2⟩
  have hfold (s : Multiset (Sigma fun _ : α => β)) (total : M) :
      s.foldl (fun d e => g d e.2) (φ total) = φ (total + (s.map fun e => f e.2).sum) := by
    induction s using Multiset.induction_on generalizing total with
    | empty => simp
    | cons e s ih =>
      rw [Multiset.foldl_cons, h, ih, Multiset.map_cons, Multiset.sum_cons, add_assoc]
  rw [← sum_entries, ← zero_add (Multiset.sum _)]
  exact hfold m.entries 0

end Finmap
