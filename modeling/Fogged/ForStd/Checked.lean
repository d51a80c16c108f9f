import Fogged.ForStd.Bytes
import Fogged.ForStd.Outcome

/-!
# Code that checks, and code that should have

A parser of untrusted input compares lengths and returns an error where they do
not suffice; behind the comparisons it indexes, and an index out of range stops
the program. `ExceptT ε Outcome` keeps the two apart: `ensure` is a comparison
with its error, `slice` an access to the front of the input that panics if the
input is too short.

`run_bind_eq_ok` takes a successful run apart, step by step; `ensure_of` and
`slice_append` are for running one.
-/

namespace Checked

variable {ε α β : Type}

/-- `if !c { return Err(e) }`. -/
def ensure (c : Prop) [Decidable c] (e : ε) : ExceptT ε Outcome Unit :=
  if c then pure () else throw e

/-- `&input[..n]` and `&input[n..]`, with a run-time check of the bound. -/
def slice (n : Nat) (input : List UInt8) : ExceptT ε Outcome (List UInt8 × List UInt8) :=
  ExceptT.lift <|
    match Bytes.readExact n input with
    | some r => .ret r
    | none => .panic

/-- A check that passes. -/
theorem ensure_of {c : Prop} [Decidable c] (e : ε) (h : c) : ensure c e = pure () :=
  if_pos h

/-- An access that splits the input where it is asked to. -/
theorem slice_append {n : Nat} {input taken rest : List UInt8} (hlen : taken.length = n)
    (h : input = taken ++ rest) : (slice n input : ExceptT ε Outcome _) = pure (taken, rest) := by
  subst hlen h
  rw [slice, Bytes.readExact_append]
  rfl

/-- An access to an input that is long enough. -/
theorem slice_of_le {n : Nat} {input : List UInt8} (h : n ≤ input.length) :
    (slice n input : ExceptT ε Outcome _) = pure (input.take n, input.drop n) :=
  slice_append (by rw [List.length_take]; omega) (List.take_append_drop n input).symm

/-- A single byte. -/
theorem slice_one (b : UInt8) (rest : List UInt8) :
    (slice 1 (b :: rest) : ExceptT ε Outcome _) = pure ([b], rest) :=
  slice_append rfl rfl

/-- A call that returns, among calls that may fail. -/
theorem liftM_ret (a : α) : (liftM (Outcome.ret a) : ExceptT ε Outcome α) = pure a := rfl

/-- A comparison, and what comes after it. -/
theorem run_ensure_bind {c : Prop} [Decidable c] {e : ε} {f : Unit → ExceptT ε Outcome α} :
    (ensure c e >>= f).run = if c then (f ()).run else .ret (.error e) := by
  by_cases hc : c
  · rw [ensure_of e hc, if_pos hc, pure_bind]
  · rw [ensure, if_neg hc, if_neg hc]
    rfl

/-- A successful run is a successful run of both parts. -/
theorem run_bind_eq_ok {x : ExceptT ε Outcome α} {f : α → ExceptT ε Outcome β} {b : β} :
    (x >>= f).run = .ret (.ok b) ↔
      ∃ a, x.run = .ret (.ok a) ∧ (f a).run = .ret (.ok b) := by
  rw [ExceptT.run_bind]
  -- only a returned value gets past the first part
  have hstop (y : Outcome (Except ε α)) (hy : ∀ a, y ≠ .ret (.ok a)) :
      ¬ ∃ a, y = .ret (.ok a) ∧ (f a).run = .ret (.ok b) := by
    rintro ⟨a, ha, -⟩
    exact hy a ha
  cases x.run with
  | ret r =>
    cases r with
    | error e => exact iff_of_false (by intro h; cases h) (hstop _ (by intro a h; cases h))
    | ok a =>
      constructor
      · intro h
        exact ⟨a, rfl, h⟩
      · rintro ⟨a', h, hf⟩
        cases h
        exact hf
  | panic => exact iff_of_false (by intro h; cases h) (hstop _ (by intro a h; cases h))
  | diverge => exact iff_of_false (by intro h; cases h) (hstop _ (by intro a h; cases h))

/-- Code that does nothing. -/
theorem run_pure_eq_ok {a b : α} :
    (pure a : ExceptT ε Outcome α).run = .ret (.ok b) ↔ a = b := by
  constructor
  · intro h
    cases h
    rfl
  · rintro rfl
    rfl

/-- A comparison succeeds exactly if what it asks for holds. -/
theorem run_ensure_eq_ok {c : Prop} [Decidable c] {e : ε} {u : Unit} :
    (ensure c e).run = .ret (.ok u) ↔ c := by
  unfold ensure
  split
  · exact iff_of_true rfl ‹c›
  · refine iff_of_false ?_ ‹¬ c›
    intro h
    cases h

/-- An access succeeds exactly on an input that is long enough. -/
theorem run_slice_eq_ok {n : Nat} {input taken rest : List UInt8} :
    (slice n input : ExceptT ε Outcome _).run = .ret (.ok (taken, rest)) ↔
      taken.length = n ∧ input = taken ++ rest := by
  unfold slice
  constructor
  · intro h
    -- a bound that fails stops the program
    cases hread : Bytes.readExact n input with
    | none =>
      rw [hread] at h
      cases h
    | some r =>
      rw [hread] at h
      cases h
      exact Bytes.readExact_eq_some hread
  · rintro ⟨hlen, h⟩
    exact congrArg ExceptT.run (slice_append hlen h)

/-! ## Two runs that agree -/

/-- Both return, and the same. -/
def Agree (x y : ExceptT ε Outcome α) : Prop := ∃ r, x.run = .ret r ∧ y.run = .ret r

namespace Agree

theorem pure (a : α) : Agree (pure a : ExceptT ε Outcome α) (Pure.pure a) := ⟨.ok a, rfl, rfl⟩

/-- Two runs that agree, one part after the other. -/
theorem bind {x y : ExceptT ε Outcome α} {f g : α → ExceptT ε Outcome β} (h : Agree x y)
    (hfg : ∀ a, Agree (f a) (g a)) : Agree (x >>= f) (y >>= g) := by
  obtain ⟨r, hx, hy⟩ := h
  simp only [Agree, ExceptT.run_bind, hx, hy]
  cases r with
  | error e => exact ⟨.error e, rfl, rfl⟩
  | ok a => exact hfg a

/-- The same comparison, in other words. -/
theorem ensure {c c' : Prop} [Decidable c] [Decidable c'] {e : ε}
    {f g : Unit → ExceptT ε Outcome α} (h : c ↔ c') (hfg : c → Agree (f ()) (g ())) :
    Agree (Checked.ensure c e >>= f) (Checked.ensure c' e >>= g) := by
  rw [Agree, run_ensure_bind, run_ensure_bind]
  by_cases hc : c
  · rw [if_pos hc, if_pos (h.1 hc)]
    exact hfg hc
  · rw [if_neg hc, if_neg (mt h.2 hc)]
    exact ⟨.error e, rfl, rfl⟩

end Agree

end Checked
