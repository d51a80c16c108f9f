import Mathlib.Data.List.Basic
import Mathlib.Data.List.DropRight

/-!
# Machines with events

A system of tasks that share state is modelled by one step function: in a state,
an event is either not possible or leads to a new state and has effects that can
be observed from outside. A run is a sequence of events, in whatever order the
scheduler and the peers choose, together with all its effects.

A few rules are enough for what is proved about runs. `run_history_of_allowed` carries
a relation between the state and everything observed so far along a run whose steps
are all allowed, in the states in which they are taken; `run_history` is the case in
which that depends on the event alone. `run_simulation` moves a run from one machine
to another, `run_map` into one that contains it, and `run_effects_eq` compares two. That no
effect comes out of the blue is `Justified`.
-/

namespace Machine

variable {σ τ ε ο : Type}

/-- The events one after the other, with their effects; `none` if one of them was
    not possible when its turn came. -/
def run (step : σ → ε → Option (σ × List ο)) : σ → List ε → Option (σ × List ο)
  | s, [] => some (s, [])
  | s, e :: es =>
    match step s e with
    | none => none
    | some (s, out) => (run step s es).map fun r => (r.1, out ++ r.2)

variable {step : σ → ε → Option (σ × List ο)}

/-- A run that starts with `e` is a step and a shorter run. -/
theorem run_cons_eq_some {s s' : σ} {e : ε} {es : List ε} {out : List ο} :
    run step s (e :: es) = some (s', out) ↔
      ∃ t o os, step s e = some (t, o) ∧ run step t es = some (s', os) ∧ out = o ++ os := by
  rw [run]
  cases hstep : step s e with
  | none => simp
  | some r =>
    obtain ⟨t, o⟩ := r
    constructor
    · intro h
      -- the step is possible, so the rest decides
      obtain ⟨⟨t', os⟩, hrun, heq⟩ := Option.map_eq_some_iff.1 h
      cases heq
      exact ⟨t, o, os, rfl, hrun, rfl⟩
    · rintro ⟨t', o', os, heq, hrun, rfl⟩
      cases heq
      simp [hrun]

/-- A run over a concatenation is two runs. -/
theorem run_append_eq_some {s u : σ} {es fs : List ε} {out : List ο} :
    run step s (es ++ fs) = some (u, out) ↔
      ∃ t o p, run step s es = some (t, o) ∧ run step t fs = some (u, p) ∧ out = o ++ p := by
  induction es generalizing s out with
  | nil =>
    constructor
    · exact fun h => ⟨s, [], out, rfl, h, rfl⟩
    · rintro ⟨t, o, p, ⟨⟩, hrun, rfl⟩
      exact hrun
  | cons e es ih =>
    rw [List.cons_append, run_cons_eq_some]
    constructor
    · rintro ⟨t, o, os, hstep, hrun, rfl⟩
      -- the first step goes to the first run
      obtain ⟨t', o', p, hes, hfs, rfl⟩ := ih.1 hrun
      exact ⟨t', o ++ o', p, run_cons_eq_some.2 ⟨t, o, o', hstep, hes, rfl⟩, hfs,
        (List.append_assoc o o' p).symm⟩
    · rintro ⟨t', oo, p, hes, hfs, rfl⟩
      obtain ⟨t, o, os, hstep, hrun, rfl⟩ := run_cons_eq_some.1 hes
      exact ⟨t, o, os ++ p, hstep, ih.2 ⟨t', os, p, hrun, hfs, rfl⟩, List.append_assoc o os p⟩

/-- Runs compose. -/
theorem run_append {s t u : σ} {es fs : List ε} {o p : List ο}
    (h₁ : run step s es = some (t, o)) (h₂ : run step t fs = some (u, p)) :
    run step s (es ++ fs) = some (u, o ++ p) :=
  run_append_eq_some.2 ⟨t, o, p, h₁, h₂, rfl⟩

/-- A run of one step. -/
theorem run_singleton {s t : σ} {e : ε} {o : List ο} (h : step s e = some (t, o)) :
    run step s [e] = some (t, o) :=
  run_cons_eq_some.2 ⟨t, o, [], h, rfl, (List.append_nil o).symm⟩

/-- A step without effects. -/
theorem map_quiet_eq_some {x : Option σ} {t : σ} {o : List ο}
    (h : x.map (fun t => (t, ([] : List ο))) = some (t, o)) : x = some t ∧ o = [] := by
  obtain ⟨u, hu, heq⟩ := Option.map_eq_some_iff.1 h
  cases heq
  exact ⟨hu, rfl⟩

/-- Effects in which an observer sees nothing do not change what it has seen. -/
theorem filterMap_append_of_none {β : Type} {g : ο → Option β} (past : List ο) {o : List ο}
    (h : ∀ x ∈ o, g x = none) : (past ++ o).filterMap g = past.filterMap g := by
  rw [List.filterMap_append, List.filterMap_eq_nil_iff.2 h, List.append_nil]

/-- Every event of a run is allowed in the state in which its turn comes. -/
def Allowed (step : σ → ε → Option (σ × List ο)) (allowed : σ → ε → Prop) : σ → List ε → Prop
  | _, [] => True
  | s, e :: es => allowed s e ∧ ∀ t o, step s e = some (t, o) → Allowed step allowed t es

/-- **Invariants with history.** What holds of a state and the effects so far, and
    is preserved by every allowed step, holds along every run of allowed steps. -/
theorem run_history_of_allowed {I : σ → List ο → Prop} {allowed : σ → ε → Prop}
    (hstep : ∀ s past e t o, I s past → allowed s e → step s e = some (t, o) → I t (past ++ o))
    {s t : σ} (past : List ο) {out : List ο} {es : List ε} (hs : I s past)
    (hes : Allowed step allowed s es) (hrun : run step s es = some (t, out)) : I t (past ++ out) := by
  induction es generalizing s past out with
  | nil =>
    cases hrun
    rw [List.append_nil]
    exact hs
  | cons e es ih =>
    obtain ⟨s', o, os, he, hrest, rfl⟩ := run_cons_eq_some.1 hrun
    have hnext := hstep s past e s' o hs hes.1 he
    rw [← List.append_assoc]
    exact ih (past ++ o) hnext (hes.2 s' o he) hrest

/-- An invariant of the state alone. -/
theorem run_invariant_of_allowed {I : σ → Prop} {allowed : σ → ε → Prop}
    (hstep : ∀ s e t o, I s → allowed s e → step s e = some (t, o) → I t)
    {s t : σ} {out : List ο} {es : List ε} (hs : I s) (hes : Allowed step allowed s es)
    (hrun : run step s es = some (t, out)) : I t :=
  run_history_of_allowed (I := fun s _ => I s) (fun s _ e t o => hstep s e t o) [] hs hes hrun

/-- Events that are allowed in every state. -/
theorem allowed_of_forall {allowed : σ → ε → Prop} {es : List ε}
    (h : ∀ e ∈ es, ∀ s, allowed s e) (s : σ) : Allowed step allowed s es := by
  induction es generalizing s with
  | nil => trivial
  | cons e es ih =>
    exact ⟨h e List.mem_cons_self s,
      fun t _ _ => ih (fun x hx => h x (List.mem_cons_of_mem _ hx)) t⟩

/-- Two conditions on the same run. -/
theorem allowed_and {allowed allowed' : σ → ε → Prop} {s : σ} {es : List ε}
    (h : Allowed step allowed s es) (h' : Allowed step allowed' s es) :
    Allowed step (fun s e => allowed s e ∧ allowed' s e) s es := by
  induction es generalizing s with
  | nil => trivial
  | cons e es ih =>
    exact ⟨⟨h.1, h'.1⟩, fun t o he => ih (h.2 t o he) (h'.2 t o he)⟩

/-- One run after the other. -/
theorem allowed_append {allowed : σ → ε → Prop} {s t : σ} {es fs : List ε} {o : List ο}
    (hes : Allowed step allowed s es) (hrun : run step s es = some (t, o))
    (hfs : Allowed step allowed t fs) : Allowed step allowed s (es ++ fs) := by
  induction es generalizing s o with
  | nil =>
    cases hrun
    exact hfs
  | cons e es ih =>
    obtain ⟨s', o', os, he, hrest, -⟩ := run_cons_eq_some.1 hrun
    refine ⟨hes.1, fun u p hu => ?_⟩
    rw [he] at hu
    cases hu
    exact ih (hes.2 s' o' he) hrest

/-- A run that is allowed as a whole is allowed in its parts. -/
theorem allowed_of_append {allowed : σ → ε → Prop} {s t : σ} {es fs : List ε} {o : List ο}
    (h : Allowed step allowed s (es ++ fs)) (hrun : run step s es = some (t, o)) :
    Allowed step allowed s es ∧ Allowed step allowed t fs := by
  induction es generalizing s o with
  | nil =>
    cases hrun
    exact ⟨trivial, h⟩
  | cons e es ih =>
    obtain ⟨s', o', os, he, hrest, -⟩ := run_cons_eq_some.1 hrun
    have hnext := ih (h.2 s' o' he) hrest
    refine ⟨⟨h.1, fun u p hu => ?_⟩, hnext.2⟩
    rw [he] at hu
    cases hu
    exact hnext.1

/-- What holds after a step, if it is possible, can be decided. -/
instance decidableStep (P : σ → List ο → Prop) [∀ t o, Decidable (P t o)] :
    (x : Option (σ × List ο)) → Decidable (∀ t o, x = some (t, o) → P t o)
  | none => .isTrue fun _ _ h => absurd h.symm (Option.some_ne_none _)
  | some (t, o) => decidable_of_iff (P t o)
      ⟨fun h t' o' heq => by cases heq; exact h, fun h => h t o rfl⟩

/-- Whether a run is allowed is decided event by event. -/
instance decidableAllowed {allowed : σ → ε → Prop} [∀ s e, Decidable (allowed s e)] :
    (s : σ) → (es : List ε) → Decidable (Allowed step allowed s es)
  | _, [] => .isTrue trivial
  | s, e :: es =>
    have (t : σ) : Decidable (Allowed step allowed t es) := decidableAllowed t es
    inferInstanceAs (Decidable (allowed s e ∧ ∀ t o, step s e = some (t, o) → _))

/-- Invariants with history, for events that are allowed in every state. -/
theorem run_history {I : σ → List ο → Prop} {allowed : ε → Prop}
    (hstep : ∀ s past e t o, I s past → allowed e → step s e = some (t, o) → I t (past ++ o))
    {s t : σ} {past out : List ο} {es : List ε} (hs : I s past) (hes : ∀ e ∈ es, allowed e)
    (hrun : run step s es = some (t, out)) : I t (past ++ out) :=
  run_history_of_allowed hstep past hs (allowed_of_forall (fun e he _ => hes e he) s) hrun

/-- Each effect of `out`, which comes after `past`, is preceded by what `J` asks for. -/
def Justified (J : List ο → ο → Prop) : List ο → List ο → Prop
  | _, [] => True
  | past, o :: out => J past o ∧ Justified J (past ++ [o]) out

/-- Effects in two parts, the second with the first in its past. -/
theorem justified_append {J : List ο → ο → Prop} {past o p : List ο} :
    Justified J past (o ++ p) ↔ Justified J past o ∧ Justified J (past ++ o) p := by
  induction o generalizing past with
  | nil => simp [Justified]
  | cons x o ih => simp [Justified, ih, and_assoc]

/-- What has been observed since the last mark. -/
def since [DecidableEq ο] (mark : ο) (out : List ο) : List ο := out.rtakeWhile (· ≠ mark)

section Since

variable [DecidableEq ο] {mark : ο}

@[simp] theorem since_nil : since mark [] = [] := List.rtakeWhile_nil _

@[simp] theorem since_mark (past : List ο) : since mark (past ++ [mark]) = [] :=
  List.rtakeWhile_concat_neg _ _ _ (by simp)

/-- Without a mark, what is observed since the last one grows. -/
theorem since_append (past : List ο) {o : List ο} (h : mark ∉ o) :
    since mark (past ++ o) = since mark past ++ o := by
  induction o using List.reverseRecOn with
  | nil => simp
  | append_singleton o x ih =>
    rw [List.mem_append, not_or, List.mem_singleton] at h
    have hx : x ≠ mark := fun heq => h.2 heq.symm
    rw [← List.append_assoc, since, List.rtakeWhile_concat_pos _ _ _ (by simpa using hx), ← since,
      ih h.1, List.append_assoc]

/-- **Invariants since a mark.** Every step either is the mark and starts anew, or has no mark
    among its effects and goes on from what has been observed since the last one. -/
theorem run_since {I : σ → List ο → Prop} {allowed : σ → ε → Prop}
    (hstep : ∀ s recent e t o, I s recent → allowed s e → step s e = some (t, o) →
      o = [mark] ∧ I t [] ∨ mark ∉ o ∧ I t (recent ++ o))
    {s t : σ} {out : List ο} {es : List ε} (hs : I s []) (hes : Allowed step allowed s es)
    (hrun : run step s es = some (t, out)) : I t (since mark out) := by
  have hinv := run_history_of_allowed (I := fun s past => I s (since mark past))
    (fun u past e v o hu he hv => ?_) [] (by rwa [since_nil]) hes hrun
  · rwa [List.nil_append] at hinv
  · rcases hstep u _ e v o hu he hv with ⟨rfl, hnew⟩ | ⟨ho, hnext⟩
    · rwa [since_mark]
    · rwa [since_append past ho]

end Since

/-- Two machines that take the same events, in related states and with the same effects,
    cannot be told apart. -/
theorem run_effects_eq {step' : τ → ε → Option (τ × List ο)} {R : σ → τ → Prop} {allowed : ε → Prop}
    (hstep : ∀ s t e, R s t → allowed e → step s e = none ∧ step' t e = none ∨
      ∃ s' t' o, step s e = some (s', o) ∧ step' t e = some (t', o) ∧ R s' t')
    {s : σ} {t : τ} {es : List ε} (hR : R s t) (hes : ∀ e ∈ es, allowed e) :
    (run step s es).map Prod.snd = (run step' t es).map Prod.snd := by
  induction es generalizing s t with
  | nil => rfl
  | cons e es ih =>
    obtain ⟨he, hrest⟩ := List.forall_mem_cons.1 hes
    rw [run, run]
    -- both runs stop here, or both go on with the same effects
    rcases hstep s t e hR he with ⟨hnone, hnone'⟩ | ⟨s', t', o, hsome, hsome', hR'⟩
    · rw [hnone, hnone']
      rfl
    · have heq := congrArg (Option.map (o ++ ·)) (ih hR' hrest)
      rw [Option.map_map, Option.map_map] at heq
      rw [hsome, hsome', Option.map_map, Option.map_map]
      exact heq

/-- The machine, watched by an observer who knows who does each step. -/
def observed {κ : Type} (step : σ → ε → Option (σ × List ο)) (see : σ → ε → List ο → List κ) (s : σ)
    (e : ε) : Option (σ × List κ) :=
  (step s e).map fun r => (r.1, see s e r.2)

/-- A step that is watched. -/
theorem observed_eq_some {κ : Type} {see : σ → ε → List ο → List κ} {s t : σ} {e : ε}
    {log : List κ} :
    observed step see s e = some (t, log) ↔ ∃ o, step s e = some (t, o) ∧ log = see s e o := by
  rw [observed, Option.map_eq_some_iff]
  constructor
  · rintro ⟨⟨t', o⟩, hstep, heq⟩
    cases heq
    exact ⟨o, hstep, rfl⟩
  · rintro ⟨o, hstep, rfl⟩
    exact ⟨(t, o), hstep, rfl⟩

/-- Watching a run does not change it. -/
theorem exists_run_observed {κ : Type} (see : σ → ε → List ο → List κ) {s t : σ} {es : List ε}
    {out : List ο} (hrun : run step s es = some (t, out)) :
    ∃ log, run (observed step see) s es = some (t, log) := by
  induction es generalizing s out with
  | nil =>
    cases hrun
    exact ⟨[], rfl⟩
  | cons e es ih =>
    obtain ⟨s', o, os, he, hrest, -⟩ := run_cons_eq_some.1 hrun
    obtain ⟨log, hlog⟩ := ih hrest
    exact ⟨_, run_cons_eq_some.2 ⟨s', _, log, observed_eq_some.2 ⟨o, he, rfl⟩, hlog, rfl⟩⟩

/-- A machine with one effect a step, watched by an observer who notes both. -/
theorem run_observed_zip (h : ∀ s e t o, step s e = some (t, o) → ∃ x, o = [x]) {s t : σ}
    {es : List ε} {out : List ο} (hrun : run step s es = some (t, out)) :
    run (observed step fun _ e o => o.map (e, ·)) s es = some (t, es.zip out) := by
  induction es generalizing s out with
  | nil =>
    cases hrun
    rfl
  | cons e es ih =>
    obtain ⟨s', o, os, he, hrest, rfl⟩ := run_cons_eq_some.1 hrun
    obtain ⟨x, rfl⟩ := h s e s' o he
    exact run_cons_eq_some.2 ⟨s', _, _, observed_eq_some.2 ⟨[x], he, rfl⟩, ih hrest, rfl⟩

/-- **Simulation.** If every step of the first machine is matched by a step of the
    second with the same event and effects, then so is every run. -/
theorem run_simulation {step' : τ → ε → Option (τ × List ο)} {R : σ → τ → Prop}
    (hstep : ∀ s t e s' o, R s t → step s e = some (s', o) →
      ∃ t', step' t e = some (t', o) ∧ R s' t')
    {s s' : σ} {t : τ} {es : List ε} {out : List ο} (hR : R s t)
    (hrun : run step s es = some (s', out)) :
    ∃ t', run step' t es = some (t', out) ∧ R s' t' := by
  induction es generalizing s t out with
  | nil =>
    cases hrun
    exact ⟨t, rfl, hR⟩
  | cons e es ih =>
    obtain ⟨s₁, o, os, he, hrest, rfl⟩ := run_cons_eq_some.1 hrun
    obtain ⟨t₁, ht₁, hR₁⟩ := hstep s t e s₁ o hR he
    obtain ⟨t', ht', hR'⟩ := ih hR₁ hrest
    exact ⟨t', run_cons_eq_some.2 ⟨t₁, o, os, ht₁, ht', rfl⟩, hR'⟩

/-- **Embedding.** A machine that is a part of another runs there as it does by itself. -/
theorem run_map {ε' : Type} {step' : τ → ε' → Option (τ × List ο)} (f : σ → τ) (g : ε → ε')
    (hstep : ∀ s e t o, step s e = some (t, o) → step' (f s) (g e) = some (f t, o))
    {s t : σ} {es : List ε} {out : List ο} (hrun : run step s es = some (t, out)) :
    run step' (f s) (es.map g) = some (f t, out) := by
  induction es generalizing s out with
  | nil =>
    cases hrun
    rfl
  | cons e es ih =>
    obtain ⟨u, o, os, he, hrest, rfl⟩ := run_cons_eq_some.1 hrun
    exact run_cons_eq_some.2 ⟨f u, o, os, hstep s e u o he, ih hrest, rfl⟩

end Machine
