import Mathlib.Algebra.Order.Group.Multiset
import Fogged.ForStd.Machine

/-!
# Ledgers

Resources that are acquired and released, in any order. If every step of a machine keeps a
ledger of what it acquires and releases in agreement with what its state holds, then after
any run what has been acquired is what has been released and what is held: nothing leaks, and
nothing is released twice. A mark among the effects, such as a restart, closes the ledger and
opens a new one.
-/

namespace Ledger

variable {σ ε ο α : Type}

/-- From `held` to `held'`, `acquired` has come and `released` has gone. -/
def Balances (held acquired released held' : Multiset α) : Prop :=
  held + acquired = released + held'

/-- Nothing happens. -/
theorem Balances.refl (held : Multiset α) : Balances held 0 0 held := by
  rw [Balances, add_zero, zero_add]

/-- Two steps in a row. -/
theorem Balances.trans {a b c acquired acquired' released released' : Multiset α}
    (h : Balances a acquired released b) (h' : Balances b acquired' released' c) :
    Balances a (acquired + acquired') (released + released') c := by
  unfold Balances at *
  rw [← add_assoc, h, add_assoc, h', ← add_assoc]

/-- What the effects say in all. -/
def total (of : ο → Multiset α) (out : List ο) : Multiset α := (out.map of).sum

@[simp] theorem total_nil (of : ο → Multiset α) : total of [] = 0 := rfl

@[simp] theorem total_cons (of : ο → Multiset α) (o : ο) (out : List ο) :
    total of (o :: out) = of o + total of out := by
  rw [total, List.map_cons, List.sum_cons]
  rfl

@[simp] theorem total_append (of : ο → Multiset α) (out out' : List ο) :
    total of (out ++ out') = total of out + total of out' := by
  rw [total, List.map_append, List.sum_append]
  rfl

/-- Effects that do not count. -/
theorem total_eq_zero {of : ο → Multiset α} {out : List ο} (h : ∀ o ∈ out, of o = 0) :
    total of out = 0 := by
  induction out with
  | nil => rfl
  | cons o out ih =>
    rw [total_cons, h o List.mem_cons_self, zero_add]
    exact ih fun o ho => h o (List.mem_cons_of_mem _ ho)

variable {step : σ → ε → Option (σ × List ο)}

/-- **Ledgers in a machine.** If every step balances, or is the mark after which nothing is
    held, then what has happened since the last mark balances. -/
theorem run_balances [DecidableEq ο] {mark : ο} {I : σ → Prop} (held : σ → Multiset α)
    (acquired released : ο → Multiset α)
    (hstep : ∀ s e t o, I s → step s e = some (t, o) → I t ∧ (o = [mark] ∧ held t = 0 ∨
      mark ∉ o ∧ Balances (held s) (total acquired o) (total released o) (held t)))
    {s t : σ} {es : List ε} {out : List ο} (hs : I s) (hzero : held s = 0)
    (hrun : Machine.run step s es = some (t, out)) :
    I t ∧ Balances 0 (total acquired (Machine.since mark out))
      (total released (Machine.since mark out)) (held t) := by
  -- the balance since the last mark is what is carried along the run
  have hnext : ∀ u recent e v o,
      (I u ∧ Balances 0 (total acquired recent) (total released recent) (held u)) → True →
      step u e = some (v, o) →
      o = [mark] ∧ (I v ∧ Balances 0 (total acquired []) (total released []) (held v)) ∨
        mark ∉ o ∧ I v ∧ Balances 0 (total acquired (recent ++ o)) (total released (recent ++ o))
          (held v) := by
    rintro u recent e v o ⟨hu, hrecent⟩ - hv
    obtain ⟨hI, ⟨ho, hnone⟩ | ⟨ho, hbalances⟩⟩ := hstep u e v o hu hv
    · refine .inl ⟨ho, hI, ?_⟩
      rw [hnone]
      exact .refl 0
    · rw [total_append, total_append]
      exact .inr ⟨ho, hI, hrecent.trans hbalances⟩
  have hinit : I s ∧ Balances 0 (total acquired []) (total released []) (held s) := by
    rw [hzero]
    exact ⟨hs, .refl 0⟩
  exact Machine.run_since hnext hinit (Machine.allowed_of_forall (fun _ _ _ => trivial) _) hrun

end Ledger
