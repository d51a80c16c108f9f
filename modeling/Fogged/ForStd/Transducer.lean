import Mathlib.Data.List.Basic
import Fogged.ForStd.Outcome

/-!
# Resumable transducers

A decoder that is handed its input in pieces keeps a state between the calls and
reports, for each call, a verdict, the state it is left in and what it emitted.
This file has the symbol-at-a-time machine (`Transducer.run`) such a decoder is
meant to be, and the two ways a caller drives the decoder itself: stopping at the
first error (`feedChunks`) or calling on regardless (`feedCalls`).

## Key results

- `run_append`: running over a concatenation is running over its parts in turn
- `run_invariant`: what every step preserves, every run preserves
- `feedChunks_eq_run`: a decoder that agrees with the machine on each chunk
  agrees with it on the whole stream, however the stream is cut
-/

universe u

/-- What one call reports: its verdict, the state it leaves and what it emitted. -/
structure Report (σ γ ε : Type u) where
  verdict : Except ε Unit
  state : σ
  out : List γ
  deriving DecidableEq

namespace Report

variable {σ γ ε : Type u}

/-- Go on from a call that succeeded; a failed call ends the run. -/
def andThen (r : Report σ γ ε) (k : σ → Report σ γ ε) : Report σ γ ε :=
  match r.verdict with
  | .error _ => r
  | .ok () => ⟨(k r.state).verdict, (k r.state).state, r.out ++ (k r.state).out⟩

@[simp] theorem andThen_ok (s : σ) (out : List γ) (k : σ → Report σ γ ε) :
    andThen ⟨.ok (), s, out⟩ k = ⟨(k s).verdict, (k s).state, out ++ (k s).out⟩ := rfl

@[simp] theorem andThen_error (e : ε) (s : σ) (out : List γ) (k : σ → Report σ γ ε) :
    andThen ⟨.error e, s, out⟩ k = ⟨.error e, s, out⟩ := rfl

/-- Going on with nothing changes nothing. -/
@[simp] theorem andThen_pure (r : Report σ γ ε) :
    (r.andThen fun s => ⟨.ok (), s, []⟩) = r := by
  obtain ⟨_ | ⟨⟩, s, out⟩ := r
  · rfl
  · simp [andThen]

/-- Three calls in a row. -/
theorem andThen_assoc (r : Report σ γ ε) (k l : σ → Report σ γ ε) :
    (r.andThen k).andThen l = r.andThen fun s => (k s).andThen l := by
  obtain ⟨v, s, out⟩ := r
  cases v with
  | error e => rfl
  | ok u =>
    cases hk : (k s).verdict with
    | error e => simp [andThen, hk]
    | ok u => simp [andThen, hk, List.append_assoc]

end Report

namespace Transducer

variable {σ β γ ε : Type u}

/-- Run a machine over its input one symbol at a time, up to the first error. -/
def run (step : σ → β → Report σ γ ε) : σ → List β → Report σ γ ε
  | s, [] => ⟨.ok (), s, []⟩
  | s, b :: bs => (step s b).andThen fun s' => run step s' bs

variable {step : σ → β → Report σ γ ε}

@[simp] theorem run_nil (s : σ) : run step s [] = ⟨.ok (), s, []⟩ := rfl

/-- The first symbol, then the others. -/
theorem run_cons (s : σ) (b : β) (bs : List β) :
    run step s (b :: bs) = (step s b).andThen fun s' => run step s' bs := rfl

@[simp] theorem run_singleton (s : σ) (b : β) : run step s [b] = step s b :=
  Report.andThen_pure _

/-- Running over a concatenation is running over its parts in turn. -/
theorem run_append (s : σ) (a b : List β) :
    run step s (a ++ b) = (run step s a).andThen fun s' => run step s' b := by
  induction a generalizing s with
  | nil => simp [Report.andThen_ok]
  | cons x xs ih =>
    simp only [List.cons_append, run_cons, Report.andThen_assoc]
    congr 1
    funext s'
    exact ih s'

/-- What every step preserves, every run preserves. -/
theorem run_invariant {P : σ → Prop} (hstep : ∀ s b, P s → P (step s b).state)
    (s : σ) (w : List β) (hs : P s) : P (run step s w).state := by
  induction w generalizing s with
  | nil => exact hs
  | cons b bs ih =>
    have h := hstep s b hs
    rw [run_cons]
    cases hv : (step s b).verdict with
    | error e => simpa [Report.andThen, hv] using h
    | ok u => simpa [Report.andThen, hv] using ih _ h

/-- What every step that succeeds preserves, every run that succeeds preserves. -/
theorem run_ok {P : σ → Prop}
    (hstep : ∀ s b, P s → (step s b).verdict = .ok () → P (step s b).state)
    (s : σ) (w : List β) (hs : P s) (hok : (run step s w).verdict = .ok ()) :
    P (run step s w).state := by
  induction w generalizing s with
  | nil => exact hs
  | cons b bs ih =>
    rw [run_cons] at hok ⊢
    cases hv : (step s b).verdict with
    | error e =>
      simp only [Report.andThen, hv] at hok
      cases hok
    | ok u =>
      simp only [Report.andThen, hv] at hok ⊢
      exact ih _ (hstep s b hs hv) hok

/-- What the failing step establishes, a failing run establishes. -/
theorem run_error {P : σ → Prop} {Q : ε → σ → Prop} (hstep : ∀ s b, P s → P (step s b).state)
    (herr : ∀ s b e, P s → (step s b).verdict = .error e → Q e (step s b).state)
    (s : σ) (w : List β) (hs : P s) (e : ε) (he : (run step s w).verdict = .error e) :
    Q e (run step s w).state := by
  induction w generalizing s with
  | nil => simp at he
  | cons b bs ih =>
    rw [run_cons] at he ⊢
    cases hv : (step s b).verdict with
    -- the run stops at its first error
    | error e' =>
      simp only [Report.andThen, hv, Except.error.injEq] at he ⊢
      subst he
      exact herr s b _ hs hv
    | ok u =>
      simp only [Report.andThen, hv] at he ⊢
      exact ih _ (hstep s b hs) he

/-- A state in which every step fails without effect stays as it is. -/
theorem run_of_stuck {s : σ} {e : ε} (h : ∀ b, step s b = ⟨.error e, s, []⟩) (w : List β)
    (hw : w ≠ []) : run step s w = ⟨.error e, s, []⟩ := by
  cases w with
  | nil => exact absurd rfl hw
  | cons b bs => rw [run_cons, h, Report.andThen_error]

/-! ## Driving a decoder chunk by chunk -/

variable (feed : σ → List β → Outcome (Report σ γ ε))

/-- Hand the chunks over one after the other, stopping at the first error. -/
def feedChunks : σ → List (List β) → Outcome (Report σ γ ε)
  | s, [] => .ret ⟨.ok (), s, []⟩
  | s, c :: cs => do
    let r ← feed s c
    match r.verdict with
    | .error _ => .ret r
    | .ok () => do
      let r' ← feedChunks r.state cs
      .ret { r' with out := r.out ++ r'.out }

/-- Hand over every chunk, also after an error, and keep the report of each call. -/
def feedCalls : σ → List (List β) → Outcome (List (Report σ γ ε))
  | _, [] => .ret []
  | s, c :: cs => do
    let r ← feed s c
    let rs ← feedCalls r.state cs
    .ret (r :: rs)

/-- The reports of a sequence of calls that always return. -/
def calls (report : σ → List β → Report σ γ ε) : σ → List (List β) → List (Report σ γ ε)
  | _, [] => []
  | s, c :: cs => report s c :: calls report (report s c).state cs

variable {feed}

/-- A decoder that always returns is known by its reports. -/
theorem feedCalls_eq_calls {P : σ → Prop} {report : σ → List β → Report σ γ ε}
    (hfeed : ∀ s c, P s → feed s c = .ret (report s c))
    (hP : ∀ s c, P s → P (report s c).state) (s : σ) (cs : List (List β)) (hs : P s) :
    feedCalls feed s cs = .ret (calls report s cs) := by
  induction cs generalizing s with
  | nil => rfl
  | cons c cs ih =>
    rw [feedCalls, hfeed s c hs, Outcome.ret_bind, ih _ (hP s c hs), Outcome.ret_bind, calls]

/-- Each chunk has its report. -/
theorem length_calls (report : σ → List β → Report σ γ ε) (s : σ) (cs : List (List β)) :
    (calls report s cs).length = cs.length := by
  induction cs generalizing s with
  | nil => rfl
  | cons c cs ih => simp [calls, ih]

/-- A decoder that agrees with a machine on every chunk, as long as no call has
    failed, agrees with it on the whole stream, however the stream is cut. -/
theorem feedChunks_eq_run {P : σ → Prop}
    (hfeed : ∀ s c, P s → feed s c = .ret (run step s c))
    (hP : ∀ s c, P s → (run step s c).verdict = .ok () → P (run step s c).state)
    (s : σ) (cs : List (List β)) (hs : P s) :
    feedChunks feed s cs = .ret (run step s cs.flatten) := by
  induction cs generalizing s with
  | nil => rfl
  | cons c cs ih =>
    rw [feedChunks, hfeed s c hs, List.flatten_cons, run_append, Outcome.ret_bind]
    cases hv : (run step s c).verdict with
    | error e => simp [Report.andThen, hv]
    | ok u =>
      have ih' := ih _ (hP s c hs hv)
      simp [Report.andThen, hv, ih']

end Transducer
