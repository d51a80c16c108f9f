import Fogged.ForStd.Machine
import Fogged.Native.SecureStorage

/-!
# What the stored secrets say after keychain failures

A store should give back what was written last. Two stores behind one interface do so
as long as the one that is asked first never has an outdated value, and that depends
on which operations of the keychain fail: a write or a deletion that fails over a
value leaves that value in front of the newer state, and a read that fails over a
value goes past it.

## Key results

- `read_your_writes`: runs in which the keychain fails only where it has nothing
- `deleted_value_returns`: a deletion that fails over a value
-/

namespace Fogged.Spec.SecureStorage

open Fogged.Native.SecureStorage Fogged.Native.Handshake
open Machine

/-- What one call makes of the value of a key. -/
def next (key : Text) (value : Option Text) : Effect → Option Text
  | .wrote k v => if k = key then some v else value
  | .deleted k => if k = key then none else value
  | .returned _ _ => value

/-- The value that was written last, if it has not been deleted since. -/
def lastValue (key : Text) (calls : List Effect) : Option Text := calls.foldl (next key) none

/-- One more effect. -/
theorem lastValue_append_singleton (key : Text) (past : List Effect) (e : Effect) :
    lastValue key (past ++ [e]) = next key (lastValue key past) e := by
  simp [lastValue]

/-- The value a key has in the two stores together. -/
def stored (s : State) (key : Text) : Option Text :=
  (s.keychain key).or (s.prefs (prefKey key))

/-- The condition on a step: a keychain operation fails only on a key for which the
    keychain has no value. -/
def FailsOnNothing (s : State) : Event → Prop
  | .read key ok | .write key _ ok | .delete key ok => ok = false → s.keychain key = none

/-- Keys keep apart in the preferences. -/
theorem prefKey_injective {k key : Text} (h : prefKey k = prefKey key) : k = key :=
  List.append_cancel_left h

/-! ## The calls -/

/-- A read that may go wrong only where there is nothing to read. -/
theorem secRead_eq_stored {s : State} {key : Text} {ok : Bool}
    (h : ok = false → s.keychain key = none) : secRead s key ok = stored s key := by
  cases ok with
  | true => cases hk : s.keychain key <;> simp [secRead, stored, hk]
  | false => simp [secRead, stored, h rfl]

/-- A write is seen by the next read, if a keychain that fails has nothing under the key. -/
theorem stored_secWrite {s : State} {k key value : Text} {ok : Bool}
    (h : ok = false → s.keychain k = none) :
    stored (secWrite s k value ok) key = if k = key then some value else stored s key := by
  by_cases hk : k = key
  · subst hk
    cases ok with
    | true => simp [secWrite, stored]
    | false => simp [secWrite, stored, h rfl]
  · have hpref : prefKey key ≠ prefKey k := fun heq => hk (prefKey_injective heq).symm
    cases ok with
    | true => simp [secWrite, stored, hk, Function.update_of_ne (Ne.symm hk)]
    | false => simp [secWrite, stored, hk, Function.update_of_ne hpref]

/-- So is a deletion. -/
theorem stored_secDelete {s : State} {k key : Text} {ok : Bool}
    (h : ok = false → s.keychain k = none) :
    stored (secDelete s k ok) key = if k = key then none else stored s key := by
  by_cases hk : k = key
  · subst hk
    cases ok with
    | true => simp [secDelete, stored]
    | false => simp [secDelete, stored, h rfl]
  · have hpref : prefKey key ≠ prefKey k := fun heq => hk (prefKey_injective heq).symm
    cases ok with
    | true =>
      simp [secDelete, stored, hk, Function.update_of_ne (Ne.symm hk), Function.update_of_ne hpref]
    | false => simp [secDelete, stored, hk, Function.update_of_ne hpref]

/-! ## Runs -/

/-- **One step.** The stores say what the calls so far say. -/
theorem stored_step {s t : State} {past o : List Effect} {e : Event}
    (hs : ∀ key, stored s key = lastValue key past) (hfails : FailsOnNothing s e)
    (hstep : step s e = some (t, o)) (key : Text) : stored t key = lastValue key (past ++ o) := by
  cases e with
  | read k ok =>
    cases hstep
    rw [lastValue_append_singleton, next, hs key]
  | write k value ok =>
    cases hstep
    rw [lastValue_append_singleton, next, stored_secWrite hfails, hs key]
  | delete k ok =>
    cases hstep
    rw [lastValue_append_singleton, next, stored_secDelete hfails, hs key]

/-- **Read your writes.** If the keychain fails only on keys for which it has no value,
    a read returns what was written last, and nothing after a deletion. -/
theorem read_your_writes (es : List Event) (s : State) (out : List Effect) (key : Text) (ok : Bool)
    (hfails : Allowed step FailsOnNothing State.new es)
    (hread : FailsOnNothing s (.read key ok))
    (hrun : run step State.new es = some (s, out)) : secRead s key ok = lastValue key out := by
  have hstored : ∀ k, stored s k = lastValue k ([] ++ out) :=
    run_history_of_allowed (I := fun s past => ∀ k, stored s k = lastValue k past)
      (fun _ _ _ _ _ hs hfails hstep => stored_step hs hfails hstep) [] (fun _ => rfl) hfails hrun
  rw [secRead_eq_stored hread]
  exact hstored key

/-- The keychain fails at first; the value it gets later is the one that is read. -/
theorem read_your_writes_recovered :
    ∃ s out, run step State.new [.write [1] [10] false, .read [1] false, .write [1] [11] true] =
        some (s, out) ∧ secRead s [1] true = some [11] ∧
      secRead s [1] true = lastValue [1] out := by
  refine ⟨_, _, rfl, rfl, read_your_writes
    [.write [1] [10] false, .read [1] false, .write [1] [11] true] _ _ [1] true ?_ ?_ rfl⟩
  · refine ⟨fun _ => rfl, fun t o ht => ?_⟩
    cases ht
    refine ⟨fun _ => rfl, fun t o ht => ?_⟩
    cases ht
    exact ⟨nofun, fun _ _ _ => trivial⟩
  · exact nofun

/-- **A deleted value comes back.** The keychain has a value and fails to delete it. -/
theorem deleted_value_returns :
    ∃ s out, run step State.new [.write [1] [10] true, .delete [1] false] = some (s, out) ∧
      lastValue [1] out = none ∧ secRead s [1] true = some [10] :=
  ⟨_, _, rfl, rfl, rfl⟩

end Fogged.Spec.SecureStorage
