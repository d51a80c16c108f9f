import Fogged.ForStd.Machine

/-!
# What an observer cannot see

If some events change nothing that an observer can see, now or later, then a run and the
same run without these events look the same to the observer.
-/

namespace Machine

variable {σ ε ο κ : Type} {step : σ → ε → Option (σ × List ο)}

/-- **Erasure.** `R` relates a run of allowed events to one without the events that are not
    kept; `see` is what can be seen of an effect. -/
theorem run_erase {R : σ → σ → Prop} {allowed : ε → Prop} {keep : ε → Bool} {see : ο → List κ}
    (hkeep : ∀ s t e s' o, R s t → allowed e → keep e = true → step s e = some (s', o) →
      ∃ t' o', step t e = some (t', o') ∧ o'.flatMap see = o.flatMap see ∧ R s' t')
    (herase : ∀ s t e s' o, R s t → allowed e → keep e = false → step s e = some (s', o) →
      o.flatMap see = [] ∧ R s' t)
    {s t s' : σ} {es : List ε} {out : List ο} (hR : R s t) (hes : ∀ e ∈ es, allowed e)
    (hrun : run step s es = some (s', out)) :
    ∃ t' out', run step t (es.filter keep) = some (t', out') ∧
      out'.flatMap see = out.flatMap see ∧ R s' t' := by
  induction es generalizing s t out with
  | nil =>
    cases hrun
    exact ⟨t, [], rfl, rfl, hR⟩
  | cons e es ih =>
    obtain ⟨s₁, o, os, he, hrest, rfl⟩ := run_cons_eq_some.1 hrun
    have hallowed := hes e List.mem_cons_self
    have htail : ∀ e ∈ es, allowed e := fun e he => hes e (List.mem_cons_of_mem _ he)
    cases hk : keep e with
    -- the event is in both runs
    | true =>
      obtain ⟨t₁, o₁, ht₁, hsee, hR₁⟩ := hkeep s t e s₁ o hR hallowed hk he
      obtain ⟨t', out', ht', hsee', hR'⟩ := ih hR₁ htail hrest
      refine ⟨t', o₁ ++ out', ?_, ?_, hR'⟩
      · rw [List.filter_cons_of_pos hk]
        exact run_cons_eq_some.2 ⟨t₁, o₁, out', ht₁, ht', rfl⟩
      · rw [List.flatMap_append, List.flatMap_append, hsee, hsee']
    -- the other run stays where it is
    | false =>
      obtain ⟨hsee, hR₁⟩ := herase s t e s₁ o hR hallowed hk he
      obtain ⟨t', out', ht', hsee', hR'⟩ := ih hR₁ htail hrest
      refine ⟨t', out', ?_, ?_, hR'⟩
      · rw [List.filter_cons_of_neg (by rw [hk]; exact Bool.false_ne_true)]
        exact ht'
      · rw [List.flatMap_append, hsee, List.nil_append, hsee']

/-- Two runs with the same events, but for those that cannot be seen. -/
theorem run_see_eq {R : σ → σ → Prop} {allowed : ε → Prop} {keep : ε → Bool} {see : ο → List κ}
    (hkeep : ∀ s t e s' o, R s t → allowed e → keep e = true → step s e = some (s', o) →
      ∃ t' o', step t e = some (t', o') ∧ o'.flatMap see = o.flatMap see ∧ R s' t')
    (herase : ∀ s t e s' o, R s t → allowed e → keep e = false → step s e = some (s', o) →
      o.flatMap see = [] ∧ R s' t)
    {s t t' : σ} {es es' : List ε} {out out' : List ο} (hR : R s s)
    (hes : ∀ e ∈ es, allowed e) (hes' : ∀ e ∈ es', allowed e)
    (hfilter : es.filter keep = es'.filter keep) (hrun : run step s es = some (t, out))
    (hrun' : run step s es' = some (t', out')) : out.flatMap see = out'.flatMap see := by
  obtain ⟨u, p, hp, hsee, -⟩ := run_erase hkeep herase hR hes hrun
  obtain ⟨u', p', hp', hsee', -⟩ := run_erase hkeep herase hR hes' hrun'
  rw [hfilter] at hp
  cases hp.symm.trans hp'
  rw [← hsee, hsee']

end Machine
