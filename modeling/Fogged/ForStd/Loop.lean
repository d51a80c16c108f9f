import Fogged.ForStd.Outcome

/-!
# Loops that may get nowhere

The body of a loop takes a state to the next one or leaves the loop. Nothing in its type
says that it comes closer to an end, so a loop runs on a step budget, and running out of it
is `diverge`.

Two rules are enough for a loop with an invariant. `Visits.invariant` is about the states in
which an iteration starts, however many there are; `run_returns` is about the end of the
loop, and asks for a measure that every iteration makes smaller.
-/

namespace Loop

/-- How an iteration ends. -/
inductive Flow (σ ρ : Type) where
  /-- Go round again from `s`. -/
  | next (s : σ)
  /-- Leave the loop with `r`. -/
  | exit (r : ρ)

variable {σ ρ : Type}

/-- An iteration that goes on leaves a state with `I`, one that leaves the loop a result
    with `P`. -/
def Ensures (I : σ → Prop) (P : ρ → Prop) : Flow σ ρ → Prop
  | .next s => I s
  | .exit r => P r

/-- Run the loop; the first argument bounds the number of iterations. -/
def run (body : σ → Outcome (Flow σ ρ)) : Nat → σ → Outcome ρ
  | 0, _ => .diverge
  | fuel + 1, s => do
    match ← body s with
    | .next t => run body fuel t
    | .exit r => .ret r

variable {body : σ → Outcome (Flow σ ρ)}

/-- The states in which an iteration of the loop from `s` starts. -/
inductive Visits (body : σ → Outcome (Flow σ ρ)) (s : σ) : σ → Prop
  | start : Visits body s s
  | next {t u : σ} : Visits body s t → body t = .ret (.next u) → Visits body s u

/-- What holds at the start and is kept by an iteration holds whenever one starts. -/
theorem Visits.invariant {I : σ → Prop} {s t : σ} (h : Visits body s t) (hs : I s)
    (hbody : ∀ t u, I t → body t = .ret (.next u) → I u) : I t := by
  induction h with
  | start => exact hs
  | next _ hnext ih => exact hbody _ _ ih hnext

/-- A loop whose iterations return, keep the invariant and make the measure smaller returns,
    with what the last iteration ensures. -/
theorem run_returns (I : σ → Prop) (measure : σ → Nat) {P : ρ → Prop}
    (hbody : ∀ s, I s → (body s).Returns (Ensures (fun t => I t ∧ measure t < measure s) P))
    {s : σ} (hs : I s) {fuel : Nat} (hfuel : measure s < fuel) :
    (run body fuel s).Returns P := by
  induction fuel generalizing s with
  | zero => omega
  | succ fuel ih =>
    refine (hbody s hs).bind fun flow hflow => ?_
    cases flow with
    | next t => exact ih hflow.1 (by have := hflow.2; omega)
    | exit r => exact .ret hflow

end Loop
