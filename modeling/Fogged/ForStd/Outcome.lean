/-!
# Outcomes of run-time checked code

A function of the modelled program can return a value, be stopped by a run-time
check (an index out of range, a failed assertion, an allocation that is too
large), or never return. `Outcome` keeps the three apart, so that "the call
returns" is something a theorem has to prove.

A loop whose body may fail to make progress is modelled by recursion on a step
budget; running out of it is `diverge`. `Returns` is total correctness: the call
comes back, with a value as required.
-/

universe u

/-- How a call ends. -/
inductive Outcome (α : Type u) where
  /-- The call returned `a`. -/
  | ret (a : α)
  /-- A run-time check stopped the program. -/
  | panic
  /-- A loop used up its step budget without reaching its end. -/
  | diverge
  deriving DecidableEq, Repr

namespace Outcome

/-- Sequencing: anything but a returned value ends the computation. -/
protected def bind {α β : Type u} (x : Outcome α) (f : α → Outcome β) : Outcome β :=
  match x with
  | .ret a => f a
  | .panic => .panic
  | .diverge => .diverge

instance : Monad Outcome where
  pure := .ret
  bind := Outcome.bind

@[simp] theorem ret_bind {α β : Type u} (a : α) (f : α → Outcome β) :
    (Outcome.ret a >>= f) = f a := rfl

/-- A sequence that returns has returned from both parts. -/
theorem bind_eq_ret {α β : Type u} {x : Outcome α} {f : α → Outcome β} {b : β}
    (h : (x >>= f) = .ret b) : ∃ a, x = .ret a ∧ f a = .ret b := by
  cases x with
  | ret a => exact ⟨a, rfl, h⟩
  | panic => cases h
  | diverge => cases h

/-- A sequence hangs only if one of its parts does. -/
theorem bind_ne_diverge {α β : Type u} {x : Outcome α} {f : α → Outcome β} (hx : x ≠ .diverge)
    (hf : ∀ a, f a ≠ .diverge) : (x >>= f) ≠ .diverge := by
  cases x with
  | ret a => exact hf a
  | panic => exact fun h => by cases h
  | diverge => exact absurd rfl hx

instance : LawfulMonad Outcome :=
  LawfulMonad.mk' _
    (fun x => by cases x <;> rfl)
    (fun _ _ => rfl)
    (fun x _ _ => by cases x <;> rfl)

/-! ## Calls that return -/

/-- The call returns, with a value that satisfies `P`. -/
def Returns {α : Type u} (x : Outcome α) (P : α → Prop) : Prop := ∃ a, x = .ret a ∧ P a

namespace Returns

variable {α β : Type u} {P : α → Prop} {Q : β → Prop}

theorem ret {a : α} (h : P a) : Returns (.ret a) P := ⟨a, rfl, h⟩

/-- One call after the other. -/
theorem bind {x : Outcome α} {f : α → Outcome β} (hx : Returns x P)
    (hf : ∀ a, P a → Returns (f a) Q) : Returns (x >>= f) Q := by
  obtain ⟨a, rfl, ha⟩ := hx
  exact hf a ha

/-- A weaker requirement. -/
theorem mono {x : Outcome α} {P' : α → Prop} (hx : Returns x P) (h : ∀ a, P a → P' a) :
    Returns x P' := by
  obtain ⟨a, hret, ha⟩ := hx
  exact ⟨a, hret, h a ha⟩

end Returns

/-! ## Calls that may wait -/

/-- The call returns, with a value that satisfies `P`, or it never does, which can only be if
    `W`. -/
def ReturnsUnless {α : Type u} (W : Prop) (x : Outcome α) (P : α → Prop) : Prop :=
  x = .diverge ∧ W ∨ x.Returns P

namespace ReturnsUnless

variable {α β : Type u} {W : Prop} {P : α → Prop} {Q : β → Prop}

theorem ret {a : α} (h : P a) : ReturnsUnless W (.ret a) P := .inr (.ret h)

/-- One call after the other, for the same reason to wait. -/
theorem bind {x : Outcome α} {f : α → Outcome β} (hx : ReturnsUnless W x P)
    (hf : ∀ a, P a → ReturnsUnless W (f a) Q) : ReturnsUnless W (x >>= f) Q := by
  rcases hx with ⟨rfl, hW⟩ | ⟨a, rfl, ha⟩
  · exact .inl ⟨rfl, hW⟩
  · exact hf a ha

/-- Weaker requirements, for the value and for waiting. -/
theorem mono {x : Outcome α} {W' : Prop} {P' : α → Prop} (hx : ReturnsUnless W x P)
    (hW : W → W') (h : ∀ a, P a → P' a) : ReturnsUnless W' x P' :=
  hx.imp (And.imp_right hW) fun hret => hret.mono h

/-- A call that has nothing to wait for. -/
theorem returns {x : Outcome α} (hx : ReturnsUnless False x P) : x.Returns P :=
  hx.resolve_left fun h => h.2

end ReturnsUnless

end Outcome
