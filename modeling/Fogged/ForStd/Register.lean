import Fogged.ForStd.Machine

/-!
# Registers of a machine

A register is a part of the state of a machine that changes only by writes which can be
observed. What it holds is then what the last write has put there, however many other events
and effects lie in between.
-/

namespace Machine

variable {σ ε ο β : Type}

/-- What the last write among the effects has written; `writes` tells the writes from the
    other effects. -/
def lastWrite (writes : ο → Option β) (effects : List ο) : Option β :=
  effects.reverse.findSome? writes

variable {writes : ο → Option β}

@[simp] theorem lastWrite_singleton (x : ο) : lastWrite writes [x] = writes x := by
  cases h : writes x <;> simp [lastWrite, h]

/-- The later writes count. -/
theorem lastWrite_append (effects effects' : List ο) :
    lastWrite writes (effects ++ effects') =
      (lastWrite writes effects').or (lastWrite writes effects) := by
  rw [lastWrite, List.reverse_append, List.findSome?_append]
  rfl

/-- After the last write there is none. -/
theorem lastWrite_eq_some_iff {effects : List ο} {b : β} :
    lastWrite writes effects = some b ↔ ∃ before x after,
      effects = before ++ x :: after ∧ writes x = some b ∧ ∀ y ∈ after, writes y = none := by
  rw [lastWrite, List.findSome?_eq_some_iff]
  constructor
  · rintro ⟨after, x, before, heffects, hx, hafter⟩
    refine ⟨before.reverse, x, after.reverse, ?_, hx, fun y hy => hafter y (List.mem_reverse.1 hy)⟩
    rw [← List.reverse_reverse effects, heffects]
    simp
  · rintro ⟨before, x, after, rfl, hx, hafter⟩
    refine ⟨after.reverse, x, before.reverse, by simp, hx, fun y hy => ?_⟩
    exact hafter y (List.mem_reverse.1 hy)

/-- **Registers along runs.** -/
theorem run_register {step : σ → ε → Option (σ × List ο)} (register : σ → β)
    (hstep : ∀ s e t o, step s e = some (t, o) →
      register t = (lastWrite writes o).getD (register s))
    {s t : σ} {es : List ε} {out : List ο} (hrun : run step s es = some (t, out)) :
    register t = (lastWrite writes out).getD (register s) := by
  induction es generalizing s out with
  | nil =>
    cases hrun
    rfl
  | cons e es ih =>
    obtain ⟨u, o, os, he, hrest, rfl⟩ := run_cons_eq_some.1 hrun
    rw [ih hrest, hstep s e u o he, lastWrite_append]
    cases lastWrite writes os <;> rfl

end Machine
