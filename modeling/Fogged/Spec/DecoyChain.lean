import Fogged.ForStd.Machine
import Fogged.Native.DecoyTraffic

/-!
# How many decoy chains there are

A chain is a timer that is set, or a fetch that will set one when it is done. A fetch
that is in flight when the service is stopped belongs to no chain, unless the service
is started again before it is done: then it goes on as if nothing had happened, beside
the chain of the new start.

## Key results

- `oneChain_step_iff`: which steps keep the number of chains at one
- `one_chain`: the runs in which there is never more than one
- `restart_doubles_chain`: a stop and a start during a fetch
-/

namespace Fogged.Spec.DecoyTraffic

open Fogged.Native.DecoyTraffic
open Machine

/-- While the service runs there is at most one chain, and a timer that is set is the
    one that `stop` would cancel. -/
def OneChain (s : State) : Prop :=
  (s.running = true → s.pending.length + s.inFlight ≤ 1) ∧ ∀ timer ∈ s.pending, s.timer = some timer

/-- The invariant: of a stopped service at most a fetch is left. -/
structure Chained (s : State) : Prop where
  bound : s.pending.length + s.inFlight ≤ 1
  held : ∀ timer ∈ s.pending, s.timer = some timer
  stopped : s.running = false → s.pending = []

/-- At the start there is no chain. -/
theorem chained_new : Chained State.new where
  bound := by decide
  held timer hmem := by cases hmem
  stopped _ := rfl

/-- The invariant allows one chain. -/
theorem Chained.oneChain {s : State} (hs : Chained s) : OneChain s := ⟨fun _ => hs.bound, hs.held⟩

/-- The condition on a step: a stopped service is not started while a fetch of an earlier
    run is in flight. -/
def StartsIdle (s : State) : Event → Prop
  | .start _ => s.running = true ∨ s.inFlight = 0
  | _ => True

instance (s : State) : (e : Event) → Decidable (StartsIdle s e)
  | .start _ => inferInstanceAs (Decidable (_ ∨ _))
  | .stop | .fire _ | .complete => .isTrue trivial

/-- A timer for an empty chain. -/
theorem chained_scheduleNext {s : State} (hrunning : s.running = true) (hpending : s.pending = [])
    (hinFlight : s.inFlight = 0) : Chained (scheduleNext s) := by
  simp only [scheduleNext, hrunning, if_true, hpending, List.nil_append]
  constructor
  · simp [hinFlight]
  · simp
  · simp

/-- `stop` cancels the timer, if it is the one it knows. -/
theorem chained_stop {s : State} (hs : Chained s) : Chained (stop s) := by
  have hempty : (stop s).pending = [] := by
    unfold stop
    cases hpending : s.pending with
    | nil => split <;> simp
    | cons timer rest =>
      -- the only timer there is, and `_timer` holds it
      have hbound := hs.bound
      simp only [hpending, List.length_cons] at hbound
      have hrest : rest = [] := List.length_eq_zero_iff.1 (by omega)
      have hheld := hs.held timer (by simp [hpending])
      simp [hheld, hrest]
  have hinFlight : (stop s).inFlight = s.inFlight := by
    unfold stop
    split <;> rfl
  constructor
  · have hbound := hs.bound
    simp only [hempty, hinFlight, List.length_nil]
    omega
  · simp [hempty]
  · exact fun _ => hempty

/-- A timer becomes a fetch. -/
theorem chained_fire {s : State} {timer : TimerId} (hs : Chained s) (hmem : timer ∈ s.pending) :
    Chained (fire s timer).1 := by
  have hbound := hs.bound
  have hlength := List.length_erase_of_mem hmem
  have hpos := List.length_pos_of_mem hmem
  have hempty : s.pending.erase timer = [] := List.length_eq_zero_iff.1 (by omega)
  simp only [fire]
  split
  · constructor <;> simp [hempty]
    omega
  · constructor <;> simp [hempty]
    omega

/-- A fetch becomes a timer, if the service runs. -/
theorem chained_complete {s : State} (hs : Chained s) (hpos : 0 < s.inFlight) :
    Chained (scheduleNext { s with inFlight := s.inFlight - 1 }) := by
  have hbound := hs.bound
  have hempty : s.pending = [] := List.length_eq_zero_iff.1 (by omega)
  by_cases hrunning : s.running = true
  · exact chained_scheduleNext hrunning hempty (show s.inFlight - 1 = 0 by omega)
  · simp only [scheduleNext, hrunning]
    constructor <;> simp [hempty]
    omega

/-- **One step.** A start begins a chain only when none is left. -/
theorem chained_step {s t : State} {e : Event} {o : List Effect} (hs : Chained s)
    (hidle : StartsIdle s e) (hstep : step s e = some (t, o)) : Chained t := by
  cases e with
  | start port =>
    cases hstep
    unfold start
    split
    · exact hs
    · rename_i hrunning
      have hstopped : s.running = false := by simpa using hrunning
      -- the condition: no request of an earlier chain is under way
      have hinFlight : s.inFlight = 0 := hidle.resolve_left hrunning
      exact chained_scheduleNext rfl (hs.stopped hstopped) hinFlight
  | stop =>
    cases hstep
    exact chained_stop hs
  -- a timer fires only while it is pending
  | fire timer =>
    rw [step] at hstep
    split at hstep
    · rename_i hmem
      have ht : (fire s timer).1 = t := congrArg Prod.fst (Option.some.inj hstep)
      exact ht ▸ chained_fire hs hmem
    · cases hstep
  | complete =>
    rw [step] at hstep
    split at hstep
    · rename_i hpos
      cases hstep
      exact chained_complete hs hpos
    · cases hstep

/-- A start during a fetch of an earlier run makes a second chain at once. -/
theorem two_chains_start {s : State} {port : Nat} (hrunning : s.running = false)
    (hinFlight : 0 < s.inFlight) : ¬ OneChain (start s port) := by
  intro hone
  have hbound := hone.1 (by simp [start, scheduleNext, hrunning])
  simp [start, scheduleNext, hrunning] at hbound
  omega

/-- **One step.** The condition is exact. -/
theorem oneChain_step_iff {s t : State} {e : Event} {o : List Effect} (hs : Chained s)
    (hstep : step s e = some (t, o)) : OneChain t ↔ StartsIdle s e := by
  constructor
  · intro hone
    cases e with
    | start port =>
      cases hstep
      by_contra hnot
      simp only [StartsIdle, not_or, Bool.not_eq_true] at hnot
      exact two_chains_start hnot.1 (Nat.pos_of_ne_zero hnot.2) hone
    | _ => trivial
  · exact fun hidle => (chained_step hs hidle hstep).oneChain

/-- **One chain.** In a run in which a stopped service is never started during a fetch of
    an earlier run, there is at most one chain while it is running, and the timer that is
    set is the one that `stop` cancels. -/
theorem one_chain (es : List Event) (s : State) (out : List Effect)
    (hidle : Allowed step StartsIdle State.new es) (hrun : run step State.new es = some (s, out)) :
    OneChain s :=
  (run_invariant_of_allowed (fun _ _ _ _ hs hidle hstep => chained_step hs hidle hstep) chained_new
    hidle hrun).oneChain

/-- The service is stopped during a fetch, and started again when the fetch is done. -/
theorem one_chain_restart :
    ∃ s out, run step State.new [.start 1080, .fire 0, .stop, .complete, .start 1080] =
        some (s, out) ∧ s.running = true ∧ s.pending = [1] ∧ OneChain s :=
  ⟨_, _, rfl, rfl, rfl, one_chain [.start 1080, .fire 0, .stop, .complete, .start 1080] _ _
    (by decide) rfl⟩

/-- **A quick reconnect doubles the chain.** The service is stopped and started again
    during a fetch; when the fetch is done there are two timers, and `stop` knows only the
    last one. -/
theorem restart_doubles_chain :
    ∃ s out, run step State.new [.start 1080, .fire 0, .stop, .start 1080, .complete] =
        some (s, out) ∧ s.running = true ∧ s.pending = [1, 2] ∧ s.timer = some 2 ∧ ¬ OneChain s := by
  refine ⟨_, _, rfl, rfl, rfl, rfl, fun hone => ?_⟩
  exact absurd (hone.1 rfl) (by decide)

end Fogged.Spec.DecoyTraffic
