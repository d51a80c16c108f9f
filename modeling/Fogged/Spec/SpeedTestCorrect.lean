import Fogged.ForStd.Machine
import Fogged.Native.SpeedTest

/-!
# The user's settings after a speed test

A test puts domain bypass back to what it was when the test had fetched the
subscription. That is the user's choice only if no other test had turned it off by
then, and if the user does not use the switch during the test. The protocol and the
server are not put back at all: they are those of the last server that was measured.

## Key results

- `settings_kept`: the runs after which the settings are the user's
- `test_changes_settings`: one undisturbed test, and a second tap
-/

namespace Fogged.Spec.SpeedTest

open Fogged.Native.App Fogged.Native.Handshake Fogged.Native.SpeedTest
open Fogged.Native.HomeScreen (Config)
open Fogged.Native.Subscription (assignServers)
open Machine

variable {s t : State} {e : Event} {o past : List Effect}

/-- What the user has chosen last, `first` being the value at the start. -/
def lastChosen (first : Bool) (past : List Effect) : Bool :=
  past.foldl (fun _ effect => match effect with | .chose value => value) first

/-! ## The conditions -/

/-- A test is started only when none is running, none is ended by an exception, and other
    code leaves the settings alone. -/
def OneAtATime (s : State) : Event → Prop
  | .tap => s.tests = [] ∨ s.config.fullTesting = true
  | .disconnected _ ok => ok = true
  | .reload config => config.protocol = s.config.protocol ∧ config.server = s.config.server ∧
      config.domainBypass = s.config.domainBypass
  | _ => True

/-- The user does not use the switch while a test has it turned off. -/
def SwitchFree (s : State) : Event → Prop
  | .setDomainBypass _ => ∀ test ∈ s.tests, test = .fetching
  | _ => True

/-- The fetch leaves the chosen server as it is, and the last server that a test measures,
    at the end of the list or before a stop, is the user's own. -/
def EndsOn (own : Combo) (s : State) : Event → Prop
  | .fetched _ servers => ∀ list ∈ servers, (assignServers s.config list).server = s.config.server
  | .paused k => ∀ saved combos i, s.tests[k]? = some (.pausing saved combos i) →
      s.cancel = true ∨ combos.length ≤ i + 1 → combos[i]? = some own
  | _ => True

instance (s : State) : (e : Event) → Decidable (OneAtATime s e)
  | .tap => inferInstanceAs (Decidable (_ ∨ _))
  | .disconnected _ _ => inferInstanceAs (Decidable (_ = true))
  | .reload _ => inferInstanceAs (Decidable (_ ∧ _ ∧ _))
  | .fetched _ _ | .tested _ | .paused _ | .stop | .setDomainBypass _ => .isTrue trivial

instance (s : State) : (e : Event) → Decidable (SwitchFree s e)
  | .setDomainBypass _ => inferInstanceAs (Decidable (∀ test ∈ s.tests, test = .fetching))
  | .tap | .fetched _ _ | .disconnected _ _ | .tested _ | .paused _ | .stop | .reload _ =>
    .isTrue trivial

/-- What holds of a test in its pause can be decided. -/
instance decidablePausing (P : Bool → List Combo → Nat → Prop)
    [∀ saved combos i, Decidable (P saved combos i)] :
    (test : Option Test) → Decidable (∀ saved combos i, test = some (.pausing saved combos i) →
      P saved combos i)
  | some (.pausing saved combos i) => decidable_of_iff (P saved combos i)
      ⟨fun h _ _ _ heq => by cases heq; exact h, fun h => h saved combos i rfl⟩
  | none | some .fetching | some (.starting _ _) | some (.testing _ _ _)
  | some (.disconnecting _ _ _) => .isTrue (by simp)

instance (own : Combo) (s : State) : (e : Event) → Decidable (EndsOn own s e)
  | .fetched _ servers => inferInstanceAs (Decidable (∀ list ∈ servers, _ = _))
  | .paused k => inferInstanceAs (Decidable (∀ _ combos i, s.tests[k]? = _ → _ → combos[i]? = _))
  | .tap | .disconnected _ _ | .tested _ | .stop | .setDomainBypass _ | .reload _ =>
    .isTrue trivial

/-! ## One test at a time -/

/-- A test in its loop is at a server, and has a row for each. -/
def InRange (s : State) : Test → Prop
  | .fetching => True
  | .starting _ combos => combos ≠ []
  | .testing _ combos i | .disconnecting _ combos i | .pausing _ combos i =>
    i < combos.length ∧ s.rows = combos.length

structure OneTest (s : State) : Prop where
  length : s.tests.length ≤ 1
  inRange : ∀ test ∈ s.tests, InRange s test

/-- The test that is resumed is the only one. -/
theorem OneTest.eq_singleton (hs : OneTest s) {k : Nat} {test : Test}
    (htest : s.tests[k]? = some test) : k = 0 ∧ s.tests = [test] := by
  have hlength := hs.length
  obtain ⟨hk, heq⟩ := List.getElem?_eq_some_iff.1 htest
  obtain rfl : k = 0 := by omega
  obtain ⟨x, hx⟩ := List.length_eq_one_iff.1 (show s.tests.length = 1 by omega)
  simp only [hx, List.getElem_cons_zero] at heq
  exact ⟨rfl, by rw [hx, heq]⟩

/-- What a step can be when there is at most one test. -/
inductive Move (s : State) : Event → State → List Effect → Prop where
  | ignored : Move s .tap s []
  | fetches (htests : s.tests = []) : Move s .tap (s.wait .fetching) []
  | proceeds (htests : s.tests = []) : Move s .tap (proceed s) []
  | fetched {servers : Option (List VpnServer)} (htests : s.tests = [.fetching]) (config : Config)
      (hconfig : config = servers.elim s.config (assignServers s.config)) :
      Move s (.fetched 0 servers) (proceed { s with config, tests := [] }) []
  | begins {saved : Bool} {combos : List Combo} (htests : s.tests = [.starting saved combos]) :
      Move s (.disconnected 0 true) (begin { s with tests := [] } saved combos) []
  | tested {saved : Bool} {combos : List Combo} {i : Nat}
      (htests : s.tests = [.testing saved combos i]) :
      Move s (.tested 0) { s with tests := [.disconnecting saved combos i] } []
  | disconnected {saved : Bool} {combos : List Combo} {i : Nat}
      (htests : s.tests = [.disconnecting saved combos i]) :
      Move s (.disconnected 0 true) { s with tests := [.pausing saved combos i] } []
  | paused {saved : Bool} {combos : List Combo} {i : Nat}
      (htests : s.tests = [.pausing saved combos i]) :
      Move s (.paused 0) (loop { s with tests := [] } saved combos (i + 1)) []
  | stopped : Move s .stop { s with cancel := true } []
  | chose (value : Bool) : Move s (.setDomainBypass value)
      { s with config := { s.config with domainBypass := value } } [.chose value]
  | reloads (config : Config) (hprotocol : config.protocol = s.config.protocol)
      (hserver : config.server = s.config.server)
      (hbypass : config.domainBypass = s.config.domainBypass) :
      Move s (.reload config)
        { s with config := { config with fullTesting := s.config.fullTesting } } []

/-- With one test at a time, every step is a `Move`. -/
theorem move_of_step (hs : OneTest s) (hone : OneAtATime s e) (hstep : step s e = some (t, o)) :
    Move s e t o := by
  cases e with
  | tap =>
    cases hstep
    unfold runFullSpeedTest
    split
    · exact .ignored
    · -- `_fullTesting` is set late, so it is the condition that rules out a second test
      rename_i hfull
      have htests := hone.resolve_right hfull
      split
      · exact .fetches htests
      · exact .proceeds htests
  | fetched k servers =>
    simp only [step] at hstep
    split at hstep
    · rename_i htest
      obtain ⟨rfl, htests⟩ := hs.eq_singleton htest
      cases hstep
      simp only [htests, List.eraseIdx_cons_zero]
      exact .fetched htests _ (by cases servers <;> rfl)
    · cases hstep
  -- the call before the first server, or the one after a server
  | disconnected k ok =>
    obtain rfl : ok = true := hone
    rw [step] at hstep
    split at hstep
    · rename_i saved combos htest
      obtain ⟨rfl, htests⟩ := hs.eq_singleton htest
      cases hstep
      simp only [htests, List.eraseIdx_cons_zero]
      exact .begins htests
    · rename_i saved combos i htest
      obtain ⟨rfl, htests⟩ := hs.eq_singleton htest
      cases hstep
      simp only [htests, List.eraseIdx_cons_zero]
      exact .disconnected htests
    · cases hstep
  | tested k =>
    rw [step] at hstep
    split at hstep
    · rename_i saved combos i htest
      obtain ⟨rfl, htests⟩ := hs.eq_singleton htest
      -- the row is there, so that writing to it does not end the test
      obtain ⟨hi, hrows⟩ := hs.inRange (.testing saved combos i) (by simp [htests])
      have hlt : i < s.rows := hrows ▸ hi
      simp only [hlt, htests, if_true, List.eraseIdx_cons_zero] at hstep
      cases hstep
      exact .tested htests
    · cases hstep
  | paused k =>
    rw [step] at hstep
    split at hstep
    · rename_i saved combos i htest
      obtain ⟨rfl, htests⟩ := hs.eq_singleton htest
      cases hstep
      simp only [htests, List.eraseIdx_cons_zero]
      exact .paused htests
    · cases hstep
  | stop =>
    rw [step] at hstep
    split at hstep
    · cases hstep
      exact .stopped
    · cases hstep
  | setDomainBypass value =>
    cases hstep
    exact .chose value
  | reload config =>
    cases hstep
    exact .reloads config hone.1 hone.2.1 hone.2.2

/-- Where the loop goes: to its end, or to the next server. -/
theorem loop_cases (saved : Bool) {combos : List Combo} (i : Nat) (hrows : s.rows = combos.length) :
    loop s saved combos i = restore s saved ∧ (s.cancel = true ∨ combos.length ≤ i) ∨
    ∃ combo, combos[i]? = some combo ∧ loop s saved combos i =
      { s with config := { s.config with protocol := combo.protocol, server := combo.server } }.wait
        (.testing saved combos i) := by
  unfold loop
  split
  · rename_i hend
    exact .inl ⟨rfl, .inr (List.getElem?_eq_none_iff.1 hend)⟩
  · rename_i combo hcombo
    have hi := (List.getElem?_eq_some_iff.1 hcombo).1
    split
    · -- stopped; there is a row for each server that is left
      rename_i hcancel
      rw [if_pos hrows.ge]
      exact .inl ⟨rfl, .inl hcancel⟩
    · rw [if_pos (hrows ▸ hi)]
      exact .inr ⟨combo, hcombo, rfl⟩

/-- Whether there is anything to test. -/
theorem proceed_cases (s : State) :
    proceed s = s ∨ combos s.config ≠ [] ∧ proceed s =
      { s with config := { s.config with domainBypass := false } }.wait
        (.starting s.config.domainBypass (combos s.config)) := by
  unfold proceed
  split
  · exact .inl rfl
  · split
    · exact .inl rfl
    · rename_i hne
      exact .inr ⟨hne, rfl⟩

theorem oneTest_nil (htests : s.tests = []) : OneTest s := by
  constructor <;> simp [htests]

/-- A single test that is in its range. -/
theorem oneTest_singleton {test : Test} (htests : s.tests = [test]) (hrange : InRange s test) :
    OneTest s := by
  constructor
  · simp [htests]
  · simpa [htests] using hrange

theorem OneTest.inRange_of_eq (hs : OneTest s) {test : Test} (htests : s.tests = [test]) :
    InRange s test :=
  hs.inRange test (by simp [htests])

theorem wait_tests_of_nil (htests : s.tests = []) (test : Test) : (s.wait test).tests = [test] := by
  simp [State.wait, htests]

/-- After the fetch a test starts, or it ends since there is nothing to measure. -/
theorem oneTest_proceed (htests : s.tests = []) : OneTest (proceed s) := by
  rcases proceed_cases s with heq | ⟨hne, heq⟩
  · rw [heq]
    exact oneTest_nil htests
  · rw [heq]
    exact oneTest_singleton (wait_tests_of_nil htests _) hne

/-- The head of the loop goes to the next server or ends the test. -/
theorem oneTest_loop {saved : Bool} {combos : List Combo} {i : Nat} (htests : s.tests = [])
    (hrows : s.rows = combos.length) : OneTest (loop s saved combos i) := by
  rcases loop_cases saved i hrows with ⟨heq, -⟩ | ⟨combo, hcombo, heq⟩
  · rw [heq]
    exact oneTest_nil htests
  · rw [heq]
    exact oneTest_singleton (wait_tests_of_nil htests _) ⟨(List.getElem?_eq_some_iff.1 hcombo).1, hrows⟩

/-- **One step.** There is still one test at most, and it is in its range. -/
theorem Move.oneTest (hs : OneTest s) (hmove : Move s e t o) : OneTest t := by
  cases hmove with
  | ignored => exact hs
  | fetches htests => exact oneTest_singleton (wait_tests_of_nil htests _) trivial
  | proceeds htests => exact oneTest_proceed htests
  | fetched htests config hconfig => exact oneTest_proceed rfl
  -- the rows are made anew for the servers of this test
  | begins htests => exact oneTest_loop rfl rfl
  | tested htests =>
    have hrange := hs.inRange_of_eq htests
    exact oneTest_singleton rfl hrange
  | disconnected htests =>
    have hrange := hs.inRange_of_eq htests
    exact oneTest_singleton rfl hrange
  | paused htests =>
    have hrange := hs.inRange_of_eq htests
    exact oneTest_loop rfl hrange.2
  -- the rest concerns the flags and the settings only
  | stopped => exact ⟨hs.length, hs.inRange⟩
  | chose value => exact ⟨hs.length, hs.inRange⟩
  | reloads config => exact ⟨hs.length, hs.inRange⟩

/-! ## Domain bypass -/

/-- What a test will put back. -/
def saved : Test → Option Bool
  | .fetching => none
  | .starting value _ | .testing value _ _ | .disconnecting value _ _ | .pausing value _ _ =>
    some value

/-- Domain bypass as it will be when no test is running. -/
def afterwards (s : State) : Bool := (s.tests.head?.bind saved).getD s.config.domainBypass

/-- Without a test, domain bypass is as it is. -/
theorem afterwards_nil (htests : s.tests = []) : afterwards s = s.config.domainBypass := by
  simp [afterwards, htests]

/-- A test past its fetch puts back what it has saved. -/
theorem afterwards_singleton {test : Test} (htests : s.tests = [test]) :
    afterwards s = (saved test).getD s.config.domainBypass := by
  simp [afterwards, htests]

/-- A test that begins to wait as the only one. -/
theorem afterwards_wait (htests : s.tests = []) (test : Test) :
    afterwards (s.wait test) = (saved test).getD s.config.domainBypass :=
  afterwards_singleton (wait_tests_of_nil htests test)

/-- A test saves the value it finds. -/
theorem afterwards_proceed (htests : s.tests = []) :
    afterwards (proceed s) = s.config.domainBypass := by
  rcases proceed_cases s with heq | ⟨-, heq⟩
  · rw [heq, afterwards_nil htests]
  · rw [heq, afterwards_wait]
    · rfl
    · exact htests

/-- At the head of the loop the saved value is put back or kept for later. -/
theorem afterwards_loop {saved : Bool} {combos : List Combo} {i : Nat} (htests : s.tests = [])
    (hrows : s.rows = combos.length) : afterwards (loop s saved combos i) = saved := by
  rcases loop_cases saved i hrows with ⟨heq, -⟩ | ⟨combo, -, heq⟩
  · rw [heq]
    exact afterwards_nil htests
  · rw [heq, afterwards_wait]
    · rfl
    · exact htests

/-- A fetched list changes no switch. -/
theorem assignServers_domainBypass (config : Config) (servers : List VpnServer) :
    (assignServers config servers).domainBypass = config.domainBypass := by
  cases servers <;> rfl

/-- **One step.** What domain bypass will be after the test is what the user has chosen last. -/
theorem Move.afterwards (hs : OneTest s) (hfree : SwitchFree s e) (hmove : Move s e t o) :
    afterwards t = lastChosen (afterwards s) o := by
  cases hmove with
  | ignored => rfl
  | fetches htests =>
    rw [afterwards_wait htests, afterwards_nil htests]
    rfl
  | proceeds htests =>
    rw [afterwards_proceed htests, afterwards_nil htests]
    rfl
  | @fetched servers htests config hconfig =>
    rw [afterwards_proceed rfl, afterwards_singleton htests, hconfig]
    cases servers with
    | none => rfl
    | some servers => exact assignServers_domainBypass s.config servers
  | begins htests =>
    rw [begin, afterwards_loop rfl rfl, afterwards_singleton htests]
    rfl
  | tested htests =>
    rw [afterwards_singleton rfl, afterwards_singleton htests]
    rfl
  | disconnected htests =>
    rw [afterwards_singleton rfl, afterwards_singleton htests]
    rfl
  | @paused value combos i htests =>
    have hrange := hs.inRange_of_eq htests
    -- the loop ends or goes on; either way the saved value is restored at its end
    have hloop : SpeedTest.afterwards (loop { s with tests := [] } value combos (i + 1)) = value :=
      afterwards_loop rfl hrange.2
    rw [hloop, afterwards_singleton htests]
    rfl
  | stopped => rfl
  | chose value =>
    -- a test that is running has not saved anything yet
    cases htests : s.tests with
    | nil => exact afterwards_nil rfl
    | cons test rest =>
      obtain rfl := hfree test (by simp [htests])
      simp [SpeedTest.afterwards, htests, saved, lastChosen]
  | reloads config hprotocol hserver hbypass =>
    simp only [SpeedTest.afterwards, hbypass]
    rfl

/-! ## The protocol and the server -/

/-- The protocol and the server are the user's own, or those of the server that is being
    measured. -/
def Accounted (own : Combo) (s : State) : Test → Prop
  | .fetching | .starting _ _ => own = ⟨s.config.protocol, s.config.server⟩
  | .testing _ combos i | .disconnecting _ combos i | .pausing _ combos i =>
    combos[i]? = some ⟨s.config.protocol, s.config.server⟩

structure Selected (own : Combo) (s : State) : Prop where
  idle : s.tests = [] → own = ⟨s.config.protocol, s.config.server⟩
  accounted : ∀ test ∈ s.tests, Accounted own s test

variable {own : Combo}

theorem selected_nil (htests : s.tests = []) (hown : own = ⟨s.config.protocol, s.config.server⟩) :
    Selected own s :=
  ⟨fun _ => hown, by simp [htests]⟩

/-- A single test that accounts for the protocol and the server. -/
theorem selected_singleton {test : Test} (htests : s.tests = [test])
    (haccounted : Accounted own s test) : Selected own s :=
  ⟨by simp [htests], by simpa [htests] using haccounted⟩

theorem Selected.accounted_of_eq (hs : Selected own s) {test : Test} (htests : s.tests = [test]) :
    Accounted own s test :=
  hs.accounted test (by simp [htests])

/-- The fetch is over, and nothing has been measured yet. -/
theorem selected_proceed (htests : s.tests = [])
    (hown : own = ⟨s.config.protocol, s.config.server⟩) : Selected own (proceed s) := by
  rcases proceed_cases s with heq | ⟨-, heq⟩
  · rw [heq]
    exact selected_nil htests hown
  · rw [heq]
    exact selected_singleton (wait_tests_of_nil htests _) hown

/-- The loop ends at the user's own server, or goes on to the next. -/
theorem selected_loop {saved : Bool} {combos : List Combo} {i : Nat} (htests : s.tests = [])
    (hrows : s.rows = combos.length)
    (hend : s.cancel = true ∨ combos.length ≤ i → own = ⟨s.config.protocol, s.config.server⟩) :
    Selected own (loop s saved combos i) := by
  rcases loop_cases saved i hrows with ⟨heq, h⟩ | ⟨combo, hcombo, heq⟩
  · rw [heq]
    exact selected_nil htests (hend h)
  · rw [heq]
    exact selected_singleton (wait_tests_of_nil htests _) hcombo

/-- A fetched list may change the server, but not the protocol. -/
theorem assignServers_protocol (config : Config) (servers : List VpnServer) :
    (assignServers config servers).protocol = config.protocol := by
  cases servers <;> rfl

/-- **One step.** The protocol and the server are the user's or those of the server that is
    being measured, and the user's again if that is where the test ends. -/
theorem Move.selected (hone : OneTest s) (hs : Selected own s) (hends : EndsOn own s e)
    (hmove : Move s e t o) : Selected own t := by
  cases hmove with
  | ignored => exact hs
  | fetches htests => exact selected_singleton (wait_tests_of_nil htests _) (hs.idle htests)
  | proceeds htests => exact selected_proceed htests (hs.idle htests)
  | @fetched servers htests config hconfig =>
    have hown : own = ⟨s.config.protocol, s.config.server⟩ := hs.accounted_of_eq htests
    refine selected_proceed rfl ?_
    subst hconfig
    cases servers with
    | none => exact hown
    | some list =>
      -- the new list does not change what the user has selected
      rw [hown]
      simp only [Option.elim_some, assignServers_protocol, hends list rfl]
  | @begins saved combos htests =>
    have hown : own = ⟨s.config.protocol, s.config.server⟩ := hs.accounted_of_eq htests
    exact selected_loop rfl rfl fun _ => hown
  | tested htests =>
    have haccounted := hs.accounted_of_eq htests
    exact selected_singleton rfl haccounted
  | disconnected htests =>
    have haccounted := hs.accounted_of_eq htests
    exact selected_singleton rfl haccounted
  | @paused saved combos i htests =>
    have hrange := hone.inRange_of_eq htests
    have haccounted : combos[i]? = some ⟨s.config.protocol, s.config.server⟩ :=
      hs.accounted_of_eq htests
    -- if this was the last server, it is the user's own that is left selected
    refine selected_loop rfl hrange.2 fun hend => ?_
    have hown := hends saved combos i (by simp [htests]) hend
    rw [haccounted] at hown
    exact (Option.some.inj hown).symm
  | stopped => exact ⟨hs.idle, hs.accounted⟩
  | chose value => exact ⟨hs.idle, hs.accounted⟩
  | reloads config hprotocol hserver hbypass =>
    constructor
    · intro htests
      simp only [hprotocol, hserver]
      exact hs.idle htests
    · intro test hmem
      have haccounted := hs.accounted test hmem
      cases test <;> simpa only [Accounted, hprotocol, hserver] using haccounted

/-! ## Runs -/

/-- **The settings are kept.** Let a test be started only when none is running, and none be
    ended by an exception. When no test is running any more, domain bypass is what the user
    has chosen last, if the switch was not used during a test; and the protocol and the
    server are what they were, if the fetches left them alone and the last server measured
    was the user's own each time. -/
theorem settings_kept (config : Config) (rows : Nat) (es : List Event) (t : State)
    (out : List Effect) (hone : Allowed step OneAtATime (State.idle config rows) es)
    (hrun : run step (State.idle config rows) es = some (t, out)) (hidle : t.tests = []) :
    (Allowed step SwitchFree (State.idle config rows) es →
      t.config.domainBypass = lastChosen config.domainBypass out) ∧
    (Allowed step (EndsOn ⟨config.protocol, config.server⟩) (State.idle config rows) es →
      t.config.protocol = config.protocol ∧ t.config.server = config.server) := by
  have hnew : OneTest (State.idle config rows) := oneTest_nil rfl
  constructor
  · intro hfree
    -- what it will be after the tests is what was chosen last, also while one is running
    have hlast : OneTest t ∧ afterwards t = lastChosen config.domainBypass ([] ++ out) :=
      run_history_of_allowed
        (I := fun s past => OneTest s ∧ afterwards s = lastChosen config.domainBypass past)
        (fun s past e t o hs hallowed hstep => by
          have hmove := move_of_step hs.1 hallowed.1 hstep
          refine ⟨hmove.oneTest hs.1, ?_⟩
          rw [hmove.afterwards hs.1 hallowed.2, hs.2]
          simp [lastChosen])
        [] ⟨hnew, rfl⟩ (allowed_and hone hfree) hrun
    rw [← afterwards_nil hidle]
    exact hlast.2
  · intro hends
    -- a test ends on the combination there was before it, by the condition
    have hlast : OneTest t ∧ Selected ⟨config.protocol, config.server⟩ t :=
      run_invariant_of_allowed
        (I := fun s => OneTest s ∧ Selected ⟨config.protocol, config.server⟩ s)
        (fun s e t o hs hallowed hstep => by
          have hmove := move_of_step hs.1 hallowed.1 hstep
          exact ⟨hmove.oneTest hs.1, hmove.selected hs.1 hs.2 hallowed.2⟩)
        ⟨hnew, selected_nil rfl rfl⟩ (allowed_and hone hends) hrun
    have hown := hlast.2.idle hidle
    simp only [Combo.mk.injEq] at hown
    exact ⟨hown.1.symm, hown.2.symm⟩

def vlessServer : VpnServer where
  protocol := .vless
  name := [1]
  addr := []
  params := []

def hysteriaServer : VpnServer where
  protocol := .hysteria2
  name := [2]
  addr := []
  params := []

/-- The user has chosen `server`, and domain bypass. -/
def chosen (servers : List VpnServer) (protocol : Protocol) (server : VpnServer) : Config :=
  { Config.initial with
    servers, protocol, server := server.name, loggedIn := true, domainBypass := true }

/-- One server is measured. -/
def measured : List Event := [.tested 0, .disconnected 0 true, .paused 0]

/-- The user's server is the last of two, and the switch is used before the test. -/
theorem settings_kept_own_last :
    ∃ t out, run step (State.idle (chosen [vlessServer, hysteriaServer] .hysteria2 hysteriaServer) 0)
        ([.setDomainBypass false, .setDomainBypass true, .tap,
          .fetched 0 (some [vlessServer, hysteriaServer]), .disconnected 0 true] ++ measured ++
            measured) = some (t, out) ∧ t.tests = [] ∧
      t.config.domainBypass = lastChosen true out ∧ t.config.protocol = .hysteria2 ∧
      t.config.server = [2] := by
  refine ⟨_, _, rfl, rfl, ?_⟩
  have hkept := settings_kept (chosen [vlessServer, hysteriaServer] .hysteria2 hysteriaServer) 0
    ([.setDomainBypass false, .setDomainBypass true, .tap,
      .fetched 0 (some [vlessServer, hysteriaServer]), .disconnected 0 true] ++ measured ++ measured)
    _ _ (by decide +kernel) rfl rfl
  exact ⟨hkept.1 (by decide +kernel), hkept.2 (by decide +kernel)⟩

/-- **A test changes the settings.** One test that nothing disturbs leaves the last server
    as the chosen one. Two taps before the test has begun leave domain bypass off, and so
    does a test during which the user turns it on. -/
theorem test_changes_settings :
    (∃ t out, run step (State.idle (chosen [vlessServer, hysteriaServer] .vlessReality vlessServer) 0)
        ([.tap, .fetched 0 none, .disconnected 0 true] ++ measured ++ measured) = some (t, out) ∧
      t.tests = [] ∧ t.config.protocol = .hysteria2 ∧ t.config.server = [2]) ∧
    (∃ t out, run step (State.idle (chosen [vlessServer] .vlessReality vlessServer) 0)
        [.tap, .tap, .fetched 0 none, .fetched 0 none, .disconnected 0 true, .disconnected 0 true,
          .tested 0, .tested 0, .disconnected 0 true, .disconnected 0 true, .paused 0, .paused 0] =
          some (t, out) ∧
      t.tests = [] ∧ lastChosen true out = true ∧ t.config.domainBypass = false) ∧
    (∃ t out, run step (State.idle (chosen [vlessServer] .vlessReality vlessServer) 0)
        ([.setDomainBypass false, .tap, .fetched 0 none, .disconnected 0 true,
          .setDomainBypass true] ++ measured) = some (t, out) ∧
      t.tests = [] ∧ lastChosen true out = true ∧ t.config.domainBypass = false) :=
  ⟨⟨_, _, rfl, rfl, rfl, rfl⟩, ⟨_, _, rfl, rfl, rfl, rfl⟩, ⟨_, _, rfl, rfl, rfl, rfl⟩⟩

end Fogged.Spec.SpeedTest
