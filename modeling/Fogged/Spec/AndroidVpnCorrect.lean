import Mathlib.Tactic.Abel
import Fogged.ForStd.Erasure
import Fogged.ForStd.Ledger
import Fogged.Native.AndroidVpn

/-!
# The VPN on Android

The activity and the service, over any calls, intents, decisions of the system and restarts of
the device. Whatever goes wrong in a start, the service keeps all of its interface and processes
or none, and has released everything else. Every call of the channel is answered at most once.
What the Dart side is told does not depend on what becomes of the service.

## Key results

- `resources_of_run`: nothing that the service opens or starts is left behind
- `answers_of_run`: which calls are answered
- `answers_eq_of_channel`: the answers are the same, whatever the service does
- `running_of_last_sent`: when the service does what was asked for last
- `effects_of_pubkey`: the public key of a server reaches no process
-/

namespace Fogged.Spec.AndroidVpn

open Fogged.Native.AndroidVpn

/-- What has happened since the device was started. -/
def sinceReboot (out : List Effect) : List Effect := Machine.since .rebooted out

/-! ## Resources -/

section Resources

inductive Resource where
  | tun (fd : Nat)
  | process (pid : Nat)
  deriving DecidableEq

def acquired : Effect → Multiset Resource
  | .established fd _ => {.tun fd}
  | .started pid _ => {.process pid}
  | _ => 0

def released : Effect → Multiset Resource
  | .closed fd => {.tun fd}
  | .destroyed pid => {.process pid}
  | _ => 0

/-- What a field refers to. -/
def heldBy (resource : Nat → Resource) : Option Nat → Multiset Resource
  | some n => {resource n}
  | none => 0

@[simp] theorem heldBy_some (resource : Nat → Resource) (n : Nat) :
    heldBy resource (some n) = {resource n} := rfl

@[simp] theorem heldBy_none (resource : Nat → Resource) : heldBy resource none = 0 := rfl

/-- What the fields of the service refer to. -/
def held (s : Service) : Multiset Resource :=
  heldBy .process s.tun2socksProcess + heldBy .process s.orcaxProcess +
    heldBy .process s.vkTurnProcess + heldBy .tun s.tunFd

/-- The service runs, with everything that it needs, or holds nothing. -/
structure Settled (s : Service) : Prop where
  running : s.isRunning = true →
    s.tunFd.isSome = true ∧ s.orcaxProcess.isSome = true ∧ s.tun2socksProcess.isSome = true
  stopped : s.isRunning = false → s.tunFd = none ∧ s.orcaxProcess = none ∧
    s.tun2socksProcess = none ∧ s.vkTurnProcess = none

/-- A service that is stopped holds nothing. -/
theorem Settled.held_eq_zero {s : Service} (h : Settled s) (hstopped : s.isRunning = false) :
    held s = 0 := by
  obtain ⟨htun, horcax, htun2socks, hvk⟩ := h.stopped hstopped
  rw [held, htun, horcax, htun2socks, hvk]
  rfl

/-- An effect of the service, not of the activity or the device. -/
def OfService : Effect → Prop
  | .answered _ _ | .requested _ | .sent _ | .rebooted => False
  | _ => True

/-- A callback of the service, or a part of one, from `s`: the ledger is right. -/
structure Balanced (s : Service) (r : Service × List Effect) : Prop where
  ledger : Ledger.Balances (held s) (Ledger.total acquired r.2) (Ledger.total released r.2) (held r.1)
  inner : ∀ effect ∈ r.2, OfService effect

/-- Two parts of a callback, one after the other. -/
theorem balanced_andThen {s : Service} {r : Service × List Effect}
    {rest : Service → Service × List Effect} (h : Balanced s r) (hrest : Balanced r.1 (rest r.1)) :
    Balanced s (Service.andThen r rest) := by
  refine ⟨?_, fun effect heffect => ?_⟩
  · rw [Service.andThen, Ledger.total_append, Ledger.total_append]
    exact h.ledger.trans hrest.ledger
  · rcases List.mem_append.1 heffect with heffect | heffect
    · exact h.inner effect heffect
    · exact hrest.inner effect heffect

/-- The fields stay as they are, and nothing is opened, started, closed or destroyed. -/
theorem balanced_of_quiet {s t : Service} {o : List Effect} (hheld : held t = held s)
    (ho : ∀ effect ∈ o, acquired effect = 0 ∧ released effect = 0 ∧ OfService effect) :
    Balanced s (t, o) := by
  refine ⟨?_, fun effect h => (ho effect h).2.2⟩
  rw [Ledger.total_eq_zero fun effect h => (ho effect h).1,
    Ledger.total_eq_zero fun effect h => (ho effect h).2.1, hheld]
  exact Ledger.Balances.refl _

/-- A callback that ends with the service running or stopped. -/
structure Ends (s : Service) (r : Service × List Effect) : Prop where
  balanced : Balanced s r
  settled : Settled r.1

/-- The last part of a callback decides how it ends. -/
theorem ends_andThen {s : Service} {r : Service × List Effect}
    {rest : Service → Service × List Effect} (h : Balanced s r) (hrest : Ends r.1 (rest r.1)) :
    Ends s (Service.andThen r rest) :=
  ⟨balanced_andThen h hrest.balanced, hrest.settled⟩

/-- The effects of closing what one field refers to. -/
theorem total_toList (of : Effect → Multiset Resource) (effect : Nat → Effect)
    (resource : Nat → Resource) (hof : ∀ n, of (effect n) = {resource n}) (field : Option Nat) :
    Ledger.total of (field.map effect).toList = heldBy resource field := by
  cases field with
  | none => rfl
  | some n =>
    show Ledger.total of [effect n] = {resource n}
    rw [Ledger.total_cons, Ledger.total_nil, add_zero, hof]

/-- Effects that do not count, from one field. -/
theorem total_toList_zero (of : Effect → Multiset Resource) (effect : Nat → Effect)
    (hof : ∀ n, of (effect n) = 0) (field : Option Nat) :
    Ledger.total of (field.map effect).toList = 0 := by
  cases field with
  | none => rfl
  | some n =>
    show Ledger.total of [effect n] = 0
    rw [Ledger.total_cons, Ledger.total_nil, add_zero, hof]

/-- `stopVpn` releases everything, from any state. -/
theorem ends_stopVpn (s : Service) : Ends s s.stopVpn := by
  -- one field after the other: its process is destroyed, or the interface closed
  have hacquired : Ledger.total acquired s.stopVpn.2 = 0 := by
    simp only [Service.stopVpn, Ledger.total_append]
    rw [total_toList_zero _ _ fun _ => rfl, total_toList_zero _ _ fun _ => rfl,
      total_toList_zero _ _ fun _ => rfl, total_toList_zero _ _ fun _ => rfl]
    rfl
  have hreleased : Ledger.total released s.stopVpn.2 = held s := by
    simp only [Service.stopVpn, Ledger.total_append]
    rw [total_toList _ _ .process fun _ => rfl, total_toList _ _ .process fun _ => rfl,
      total_toList _ _ .process fun _ => rfl, total_toList _ _ .tun fun _ => rfl]
    exact add_zero _
  refine ⟨⟨?_, ?_⟩, by simp [Service.stopVpn], fun _ => ⟨rfl, rfl, rfl, rfl⟩⟩
  · rw [hacquired, hreleased]
    exact rfl
  · intro effect heffect
    simp only [Service.stopVpn, List.mem_append, Option.mem_toList, Option.map_eq_some_iff,
      List.mem_cons, List.not_mem_nil, or_false] at heffect
    -- the four fields, and the two effects at the end
    rcases heffect with (((⟨_, _, rfl⟩ | ⟨_, _, rfl⟩) | ⟨_, _, rfl⟩) | ⟨_, _, rfl⟩) | rfl | rfl <;>
      trivial

/-- The last process of a start: with it the service runs, without it everything is released. -/
theorem ends_startTun2socks {s : Service} (env : Env) (fd : Nat) (htun : s.tunFd.isSome = true)
    (horcax : s.orcaxProcess.isSome = true) (hfree : s.tun2socksProcess = none) :
    Ends s (s.startTun2socks env fd) := by
  unfold Service.startTun2socks
  split
  · refine ⟨⟨?_, by simp [OfService]⟩, fun _ => ⟨htun, horcax, rfl⟩, by simp⟩
    simp only [Ledger.Balances, held, hfree, heldBy_some, heldBy_none, acquired, released,
      Ledger.total_cons, Ledger.total_nil]
    abel
  · exact ends_stopVpn s

/-- The configuration file and the proxy; a start that fails from here on ends in `stopVpn`. -/
theorem ends_startProxy {s : Service} (prefs : Prefs) (env : Env) (fd : Nat)
    (htun : s.tunFd.isSome = true) (horcax : s.orcaxProcess = none)
    (hfree : s.tun2socksProcess = none) : Ends s (s.startProxy prefs env fd) := by
  unfold Service.startProxy
  split
  · exact ends_stopVpn s
  · refine ends_andThen ?_ ?_
    · -- writing the file opens nothing
      cases Service.configFile prefs env <;>
        exact balanced_of_quiet rfl (by simp [acquired, released, OfService])
    · dsimp only
      split
      · -- the new process is in the field that was free, so the ledger still balances
        refine ends_andThen ⟨?_, by simp [OfService]⟩ (ends_startTun2socks env fd htun rfl hfree)
        simp only [Ledger.Balances, held, horcax, heldBy_some, heldBy_none, acquired, released,
          Ledger.total_cons, Ledger.total_nil]
        abel
      · exact ends_stopVpn s

/-- The tunnel through a call comes before the proxy, if it is switched on. -/
theorem ends_startChain {s : Service} (prefs : Prefs) (env : Env) (fd : Nat)
    (htun : s.tunFd.isSome = true) (horcax : s.orcaxProcess = none)
    (hfree : s.tun2socksProcess = none) (hvk : s.vkTurnProcess = none) :
    Ends s (s.startChain prefs env fd) := by
  unfold Service.startChain
  split
  · split
    · refine ends_andThen ⟨?_, by simp [OfService]⟩ ?_
      · simp only [Ledger.Balances, held, hvk, heldBy_some, heldBy_none, acquired, released,
          Ledger.total_cons, Ledger.total_nil]
        abel
      · -- the process is started, but the tunnel may not become ready
        dsimp only
        split
        · exact ends_startProxy prefs env fd htun horcax hfree
        · exact ends_stopVpn _
    · exact ends_stopVpn s
  · exact ends_startProxy prefs env fd htun horcax hfree

/-- A start from a service that is running or stopped ends so, whatever fails. -/
theorem ends_startVpn {s : Service} (prefs : Prefs) (env : Env) (hs : Settled s) :
    Ends s (s.startVpn prefs env) := by
  unfold Service.startVpn
  split
  · exact ⟨balanced_of_quiet rfl (by simp), hs⟩
  · rename_i hrunning
    obtain ⟨htun, horcax, htun2socks, hvk⟩ := hs.stopped (Bool.eq_false_iff.2 hrunning)
    refine ends_andThen (balanced_of_quiet rfl (by simp [acquired, released, OfService])) ?_
    dsimp only
    split
    · -- the notification stays until the service is destroyed
      exact ⟨balanced_of_quiet rfl (by simp [acquired, released, OfService]), hs.running,
        hs.stopped⟩
    · split
      · -- the tunnel is held from here on
        refine ends_andThen ⟨?_, by simp [OfService]⟩ ?_
        · simp only [Ledger.Balances, held, htun, heldBy_some, heldBy_none, acquired, released,
            Ledger.total_cons, Ledger.total_nil]
          abel
        · dsimp only
          split
          · exact ends_startChain prefs env _ rfl horcax htun2socks hvk
          · exact ends_stopVpn _
      · refine ⟨balanced_of_quiet ?_ (by simp [acquired, released, OfService]),
          fun hrun => absurd hrun hrunning, fun _ => ⟨rfl, horcax, htun2socks, hvk⟩⟩
        rw [held, held, htun]

/-- An intent of either kind. -/
theorem ends_onStartCommand {s : Service} (prefs : Prefs) (env : Env) (hs : Settled s)
    (action : Action) : Ends s (s.onStartCommand prefs env action) := by
  cases action with
  | start => exact ends_startVpn prefs env hs
  | stop => exact ends_stopVpn s

/-- Callbacks of the service. -/
def ofService : Event → Bool
  | .deliver _ | .destroy | .revoke => true
  | _ => false

/-- What happens on a device that is up: callbacks of the activity and of the receiver. -/
def ofActivity : Event → Bool
  | .deliver _ | .destroy | .revoke | .reboot => false
  | _ => true

/-- Two states that differ in the service and its intents at most. -/
structure SameActivity (s t : State) : Prop where
  prefs : s.prefs = t.prefs
  pendingResult : s.pendingResult = t.pendingResult
  dialogs : s.dialogs = t.dialogs
  nextCall : s.nextCall = t.nextCall

/-- A step that leaves the activity as it is may do nothing at all. -/
theorem SameActivity.refl (s : State) : SameActivity s s := ⟨rfl, rfl, rfl, rfl⟩

/-- One callback of the service after another. -/
theorem SameActivity.trans {s t u : State} (h : SameActivity s t) (h' : SameActivity t u) :
    SameActivity s u :=
  ⟨h.prefs.trans h'.prefs, h.pendingResult.trans h'.pendingResult, h.dialogs.trans h'.dialogs,
    h.nextCall.trans h'.nextCall⟩

variable {s t : State} {e : Event} {o : List Effect}

/-- A callback of the service leaves the activity as it is. -/
theorem service_step (hs : Settled s.service) (he : ofService e = true)
    (hstep : s.step e = some (t, o)) : Ends s.service (t.service, o) ∧ SameActivity t s := by
  cases e with
  | deliver env =>
    rw [State.step] at hstep
    split at hstep
    · cases hstep
    · cases hstep
      -- the first intent that is under way
      exact ⟨ends_onStartCommand s.prefs env hs _, ⟨rfl, rfl, rfl, rfl⟩⟩
  | destroy =>
    cases hstep
    exact ⟨ends_stopVpn s.service, ⟨rfl, rfl, rfl, rfl⟩⟩
  | revoke =>
    cases hstep
    exact ⟨ends_stopVpn s.service, ⟨rfl, rfl, rfl, rfl⟩⟩
  | startVpn _ _ | stopVpn | isVpnRunning | requestNotificationPermission | activityResult _
  | reboot | bootReceived _ _ => cases he

/-- A callback of the activity leaves the service as it is. -/
theorem activity_step (he : ofActivity e = true) (hstep : s.step e = some (t, o)) :
    t.service = s.service ∧
      ∀ effect ∈ o, acquired effect = 0 ∧ released effect = 0 ∧ effect ≠ .rebooted := by
  cases e with
  | startVpn args prepared =>
    cases prepared <;> cases hstep <;> exact ⟨rfl, by simp [acquired, released]⟩
  | stopVpn | isVpnRunning | requestNotificationPermission =>
    cases hstep
    exact ⟨rfl, by simp [acquired, released]⟩
  | activityResult ok =>
    rw [State.step, State.onActivityResult] at hstep
    split at hstep
    · cases hstep
    · -- the dialog is closed, whoever has asked for it
      cases ok <;> cases hstep <;> cases s.pendingResult <;>
        exact ⟨rfl, by simp [acquired, released]⟩
  | bootReceived autoStart startable =>
    rw [State.step, State.onReceive] at hstep
    split at hstep <;> cases hstep <;> exact ⟨rfl, by simp [acquired, released]⟩
  | reboot | deliver _ | destroy | revoke => cases he

theorem settled_new : Settled State.new.service :=
  ⟨by simp [State.new, Service.new], fun _ => ⟨rfl, rfl, rfl, rfl⟩⟩

/-- A restart of the device leaves no service behind. -/
theorem settled_reboot (s : State) : Settled s.reboot.service :=
  ⟨by simp [State.reboot, Service.reboot, Service.new], fun _ => ⟨rfl, rfl, rfl, rfl⟩⟩

/-- What happens is a restart, a callback of the service or one of the activity. -/
theorem event_cases (e : Event) : e = .reboot ∨ ofService e = true ∨ ofActivity e = true := by
  cases e <;> simp [ofService, ofActivity]

/-- Only a restart is one. -/
theorem not_rebooted (hs : Settled s.service) (hup : e ≠ .reboot)
    (hstep : s.step e = some (t, o)) : .rebooted ∉ o := by
  intro hmem
  rcases event_cases e with rfl | he | he
  · exact hup rfl
  · exact (service_step hs he hstep).1.balanced.inner _ hmem
  · exact ((activity_step he hstep).2 _ hmem).2.2 rfl

/-- **Step.** A restart leaves nothing; whatever else happens, the ledger is right. -/
theorem settled_step (hs : Settled s.service) (hstep : s.step e = some (t, o)) :
    Settled t.service ∧ (o = [.rebooted] ∧ held t.service = 0 ∨
      .rebooted ∉ o ∧ Ledger.Balances (held s.service) (Ledger.total acquired o)
        (Ledger.total released o) (held t.service)) := by
  rcases event_cases e with rfl | he | he
  · cases hstep
    exact ⟨settled_reboot s, .inl ⟨rfl, rfl⟩⟩
  · have hends := (service_step hs he hstep).1
    exact ⟨hends.settled, .inr ⟨fun hmem => hends.balanced.inner _ hmem, hends.balanced.ledger⟩⟩
  · obtain ⟨hservice, ho⟩ := activity_step he hstep
    rw [hservice, Ledger.total_eq_zero fun effect h => (ho effect h).1,
      Ledger.total_eq_zero fun effect h => (ho effect h).2.1]
    exact ⟨hs, .inr ⟨fun hmem => (ho _ hmem).2.2 rfl, Ledger.Balances.refl _⟩⟩

/-- A system in which everything works. -/
def goodEnv : Env where
  packageName := "com.fogged.orcax"
  nativeDir := "/lib"
  filesDir := "/files"
  installed _ := false
  established := true
  exist _ := true
  starts _ := true
  writes := true
  vkReady := true

/-- tun2socks cannot be started. -/
def noTun2socks : Env := { goodEnv with starts := fun binary => binary ≠ .tun2socks }

def someArguments : Arguments := { server := some "a:443", uuid := some "u" }

end Resources

/-! ## Answers -/

section Answers

variable {s t : State} {e : Event} {o past : List Effect}

/-- The call that has its result. -/
def answeredCall : Effect → List Nat
  | .answered call _ => [call]
  | _ => []

/-- The call that has asked for the permission. -/
def requestedCall : Effect → List Nat
  | .requested call => [call]
  | _ => []

/-- Nobody asks for the permission while another call waits for it. -/
def Orderly (s : State) : Event → Prop
  | .startVpn _ false => s.pendingResult = none
  | _ => True

/-- No call is answered twice, and a call that is not answered has asked for the permission. -/
structure Answered (s : State) (past : List Effect) : Prop where
  nodup : (past.flatMap answeredCall).Nodup
  lt : ∀ call ∈ past.flatMap answeredCall, call < s.nextCall
  pending : ∀ call, s.pendingResult = some call →
    call < s.nextCall ∧ call ∉ past.flatMap answeredCall
  every : ∀ call, call < s.nextCall →
    call ∈ past.flatMap answeredCall ∨ call ∈ past.flatMap requestedCall

/-- Of the calls that have asked for the permission since the device was started, all are
    answered but for the one that waits. -/
def Complete (s : State) (recent : List Effect) : Prop :=
  ∀ call ∈ recent.flatMap requestedCall,
    call ∈ recent.flatMap answeredCall ∨ s.pendingResult = some call

/-- What a step does about the calls. -/
inductive Calls (s t : State) : List Nat → List Nat → Prop where
  | none (hnext : t.nextCall = s.nextCall) (hpending : t.pendingResult = s.pendingResult) :
    Calls s t [] []
  /-- A call is answered at once. -/
  | answered (hnext : t.nextCall = s.nextCall + 1) (hpending : t.pendingResult = s.pendingResult) :
    Calls s t [s.nextCall] []
  | requested (hnext : t.nextCall = s.nextCall + 1) (hpending : t.pendingResult = some s.nextCall) :
    Calls s t [] [s.nextCall]
  /-- The call that waits is answered, if there is one. -/
  | resolved (hnext : t.nextCall = s.nextCall) (hpending : t.pendingResult = Option.none) :
    Calls s t s.pendingResult.toList []

/-- What the service does is not about a call. -/
theorem quiet_of_service {effect : Effect} (h : OfService effect) :
    answeredCall effect = [] ∧ requestedCall effect = [] := by
  cases effect with
  | answered _ _ | requested _ | sent _ | rebooted => exact h.elim
  | _ => exact ⟨rfl, rfl⟩

/-- Of `step` on a device that is up, with what an orderly step cannot do. -/
theorem calls_step (hs : Settled s.service) (hup : e ≠ .reboot) (hstep : s.step e = some (t, o)) :
    Calls s t (o.flatMap answeredCall) (o.flatMap requestedCall) ∧
      (o.flatMap requestedCall ≠ [] → Orderly s e → s.pendingResult = none) := by
  cases e with
  | startVpn args prepared =>
    cases prepared with
    | true =>
      cases hstep
      exact ⟨.answered rfl rfl, by simp [requestedCall]⟩
    | false =>
      -- without the permission the call waits, and takes the place of one that waited before
      cases hstep
      exact ⟨.requested rfl rfl, fun _ h => h⟩
  | stopVpn | isVpnRunning | requestNotificationPermission =>
    cases hstep
    exact ⟨.answered rfl rfl, by simp [requestedCall]⟩
  | activityResult ok =>
    rw [State.step, State.onActivityResult] at hstep
    split at hstep
    · cases hstep
    · -- the call in `pendingResult` is answered, if there is one
      have hanswers : ∀ pending : Option Nat,
          (pending.map (Effect.answered · ok)).toList.flatMap answeredCall = pending.toList ∧
            (pending.map (Effect.answered · ok)).toList.flatMap requestedCall = [] := by
        intro pending
        cases pending <;> exact ⟨rfl, rfl⟩
      obtain ⟨hanswered, hrequested⟩ := hanswers s.pendingResult
      cases ok with
      | true =>
        cases hstep
        rw [List.flatMap_cons, List.flatMap_cons, hanswered, hrequested]
        exact ⟨.resolved rfl rfl, fun h => absurd rfl h⟩
      | false =>
        cases hstep
        rw [hanswered, hrequested]
        exact ⟨.resolved rfl rfl, fun h => absurd rfl h⟩
  | bootReceived autoStart startable =>
    rw [State.step, State.onReceive] at hstep
    split at hstep <;> cases hstep <;> exact ⟨.none rfl rfl, by simp [requestedCall]⟩
  | reboot => exact absurd rfl hup
  | deliver _ | destroy | revoke =>
    -- the service answers no call and asks for nothing
    obtain ⟨hends, hsame⟩ := service_step hs rfl hstep
    have hinner := fun effect h => quiet_of_service (hends.balanced.inner effect h)
    rw [List.flatMap_eq_nil_iff.2 fun effect h => (hinner effect h).1,
      List.flatMap_eq_nil_iff.2 fun effect h => (hinner effect h).2]
    exact ⟨.none hsame.nextCall hsame.pendingResult, by simp⟩

/-- The account of the calls goes on with each of the four cases. -/
theorem answered_of_calls (h : Answered s past)
    (hcalls : Calls s t (o.flatMap answeredCall) (o.flatMap requestedCall)) :
    Answered t (past ++ o) := by
  -- a new call has the next number, which no answer has had
  have hfresh : s.nextCall ∉ past.flatMap answeredCall := fun hmem =>
    Nat.lt_irrefl _ (h.lt _ hmem)
  have hsplit : ∀ call, call < s.nextCall + 1 → call ≠ s.nextCall → call < s.nextCall :=
    fun call hlt hne => Nat.lt_of_le_of_ne (Nat.le_of_lt_succ hlt) hne
  suffices hmain : ∀ answered requested, Calls s t answered requested →
      (past.flatMap answeredCall ++ answered).Nodup ∧
      (∀ call ∈ past.flatMap answeredCall ++ answered, call < t.nextCall) ∧
      (∀ call, t.pendingResult = some call →
        call < t.nextCall ∧ call ∉ past.flatMap answeredCall ++ answered) ∧
      ∀ call, call < t.nextCall → call ∈ past.flatMap answeredCall ++ answered ∨
        call ∈ past.flatMap requestedCall ++ requested by
    obtain ⟨hnodup, hlt, hpending, hevery⟩ := hmain _ _ hcalls
    rw [← List.flatMap_append] at hnodup hlt hpending hevery
    rw [← List.flatMap_append] at hevery
    exact ⟨hnodup, hlt, hpending, hevery⟩
  rintro answered requested (⟨hn, hp⟩ | ⟨hn, hp⟩ | ⟨hn, hp⟩ | ⟨hn, hp⟩) <;> rw [hn, hp]
  · -- nothing about the calls
    simp only [List.append_nil]
    exact ⟨h.nodup, h.lt, h.pending, h.every⟩
  · -- a new call that has its answer
    refine ⟨?_, fun call hmem => ?_, fun call hcall => ?_, fun call hlt => ?_⟩
    · exact List.nodup_append.2 ⟨h.nodup, List.nodup_singleton _, fun a ha b hb heq =>
        hfresh (List.mem_singleton.1 hb ▸ heq ▸ ha)⟩
    · rcases List.mem_append.1 hmem with hmem | hmem
      · exact Nat.lt_succ_of_lt (h.lt call hmem)
      · rw [List.mem_singleton.1 hmem]
        exact Nat.lt_succ_self _
    · obtain ⟨hlt, hnot⟩ := h.pending call hcall
      refine ⟨Nat.lt_succ_of_lt hlt, fun hmem => ?_⟩
      rcases List.mem_append.1 hmem with hmem | hmem
      · exact hnot hmem
      · exact Nat.ne_of_lt hlt (List.mem_singleton.1 hmem)
    · by_cases heq : call = s.nextCall
      · exact .inl (List.mem_append_right _ (List.mem_singleton.2 heq))
      · rcases h.every call (hsplit call hlt heq) with hmem | hmem
        · exact .inl (List.mem_append_left _ hmem)
        · exact .inr (List.mem_append_left _ hmem)
  · -- a new call that has asked for the permission, and now waits
    simp only [List.append_nil]
    refine ⟨h.nodup, fun call hmem => Nat.lt_succ_of_lt (h.lt call hmem), fun call hcall => ?_,
      fun call hlt => ?_⟩
    · cases hcall
      exact ⟨Nat.lt_succ_self _, hfresh⟩
    · by_cases heq : call = s.nextCall
      · exact .inr (List.mem_append_right _ (List.mem_singleton.2 heq))
      · rcases h.every call (hsplit call hlt heq) with hmem | hmem
        · exact .inl hmem
        · exact .inr (List.mem_append_left _ hmem)
  · -- the call that waits has its answer: it has had none before
    have hwaits : ∀ call ∈ s.pendingResult.toList,
        call < s.nextCall ∧ call ∉ past.flatMap answeredCall :=
      fun call hmem => h.pending call (Option.mem_toList.1 hmem)
    refine ⟨?_, fun call hmem => ?_, by simp, fun call hlt => ?_⟩
    · refine List.nodup_append.2 ⟨h.nodup, ?_, fun a ha b hb heq => ?_⟩
      · cases s.pendingResult <;> simp
      · exact (hwaits b hb).2 (heq ▸ ha)
    · rcases List.mem_append.1 hmem with hmem | hmem
      · exact h.lt call hmem
      · exact (hwaits call hmem).1
    · rcases h.every call hlt with hmem | hmem
      · exact .inl (List.mem_append_left _ hmem)
      · exact .inr (List.mem_append_left _ hmem)

/-- A restart forgets the call that waits. -/
theorem Answered.reboot (h : Answered s past) : Answered s.reboot (past ++ [.rebooted]) := by
  have hquiet : ∀ of : Effect → List Nat, of .rebooted = [] →
      (past ++ [Effect.rebooted]).flatMap of = past.flatMap of := by
    intro of hof
    rw [List.flatMap_append, List.flatMap_singleton, hof, List.append_nil]
  have hanswered := hquiet answeredCall rfl
  have hrequested := hquiet requestedCall rfl
  refine ⟨hanswered ▸ h.nodup, hanswered ▸ h.lt, ?_, ?_⟩
  · intro call hcall
    cases hcall
  · rw [hanswered, hrequested]
    exact h.every

/-- **Step.** -/
theorem answered_step (hs : Settled s.service) (h : Answered s past)
    (hstep : s.step e = some (t, o)) : Answered t (past ++ o) := by
  by_cases hup : e = .reboot
  · rw [hup] at hstep
    cases hstep
    exact h.reboot
  · exact answered_of_calls h (calls_step hs hup hstep).1

/-- An orderly step leaves no request without an answer, but for the one that waits. -/
theorem complete_of_calls (h : Complete s past)
    (hcalls : Calls s t (o.flatMap answeredCall) (o.flatMap requestedCall))
    (horderly : o.flatMap requestedCall ≠ [] → s.pendingResult = none) :
    Complete t (past ++ o) := by
  intro call hmem
  rw [List.flatMap_append, List.mem_append] at hmem ⊢
  generalize o.flatMap answeredCall = answered at hcalls ⊢
  generalize o.flatMap requestedCall = requested at hcalls horderly hmem
  cases hcalls with
  | none hn hp | answered hn hp =>
    rw [hp]
    exact (h call (hmem.resolve_right List.not_mem_nil)).imp .inl id
  | requested hn hp =>
    rcases hmem with hmem | hmem
    · -- the one that was waiting before would be lost
      rcases h call hmem with hanswered | hwaits
      · exact .inl (.inl hanswered)
      · rw [horderly (by simp)] at hwaits
        cases hwaits
    · rw [hp, List.mem_singleton.1 hmem]
      exact .inr rfl
  | resolved hn hp =>
    rcases h call (hmem.resolve_right List.not_mem_nil) with hanswered | hwaits
    · exact .inl (.inl hanswered)
    · exact .inl (.inr (by rw [hwaits]; exact List.mem_singleton_self _))

/-- **One step** of an orderly run. No call that waits is overwritten. -/
theorem complete_step (hs : Settled s.service) (h : Complete s past) (he : Orderly s e)
    (hstep : s.step e = some (t, o)) :
    o = [.rebooted] ∧ Complete t [] ∨ .rebooted ∉ o ∧ Complete t (past ++ o) := by
  by_cases hup : e = .reboot
  · rw [hup] at hstep
    cases hstep
    exact .inl ⟨rfl, by simp [Complete]⟩
  · obtain ⟨hcalls, horderly⟩ := calls_step hs hup hstep
    refine .inr ⟨?_, complete_of_calls h hcalls fun hrequested => horderly hrequested he⟩
    exact not_rebooted hs hup hstep

theorem answered_new : Answered State.new [] :=
  ⟨List.nodup_nil, by simp, by simp [State.new], by simp [State.new]⟩

/-- **Answers.** No call of the channel is answered twice. A call that has no answer has asked
    for the permission. If nobody asks while another call waits for it, then of those that have
    asked since the device was started it is the one that waits; otherwise it may be one that
    never gets its answer. -/
theorem answers_of_run {es : List Event} {out : List Effect}
    (hrun : Machine.run State.step State.new es = some (s, out)) :
    (out.flatMap answeredCall).Nodup ∧
      (∀ call, call < s.nextCall →
        call ∈ out.flatMap answeredCall ∨ call ∈ out.flatMap requestedCall) ∧
      (Machine.Allowed State.step Orderly State.new es →
        ∀ call ∈ (sinceReboot out).flatMap requestedCall,
          call ∈ (sinceReboot out).flatMap answeredCall ∨ s.pendingResult = some call) := by
  have hanswered := Machine.run_history
    (I := fun u past => Settled u.service ∧ Answered u past)
    (fun u past e v o hu (_ : True) hv =>
      ⟨(settled_step hu.1 hv).1, answered_step hu.1 hu.2 hv⟩)
    ⟨settled_new, answered_new⟩ (fun _ _ => trivial) hrun
  refine ⟨hanswered.2.nodup, hanswered.2.every, fun hes => ?_⟩
  -- the account of the calls that wait begins anew with every restart
  have hcomplete : _ ∧ Complete s (Machine.since .rebooted out) := Machine.run_since
    (I := fun u recent => Settled u.service ∧ Complete u recent)
    (fun u recent e v o hu he hv => ?_) ⟨settled_new, by simp [Complete]⟩ hes hrun
  · exact hcomplete.2
  · have hsettled := (settled_step hu.1 hv).1
    exact (complete_step hu.1 hu.2 he hv).imp (fun h => ⟨h.1, hsettled, h.2⟩)
      fun h => ⟨h.1, hsettled, h.2⟩

/-- A second request while the first one waits: the first call has no answer when both have
    been decided. -/
theorem answers_of_two_requests :
    ∃ s out, Machine.run State.step State.new
        [.startVpn someArguments false, .startVpn someArguments false, .activityResult true,
          .activityResult true] = some (s, out) ∧ s.nextCall = 2 ∧ s.pendingResult = none ∧
      0 ∉ out.flatMap answeredCall ∧ 0 ∈ out.flatMap requestedCall := by
  have hcheck : (Machine.run State.step State.new
      [.startVpn someArguments false, .startVpn someArguments false, .activityResult true,
        .activityResult true]).map (fun r => (r.1.nextCall, r.1.pendingResult,
          r.2.flatMap answeredCall)) = some (2, none, [1]) := by decide
  obtain ⟨⟨s, out⟩, hrun, hout⟩ := Option.map_eq_some_iff.1 hcheck
  obtain ⟨hnext, hout⟩ := Prod.mk.inj hout
  obtain ⟨hpending, hanswered⟩ := Prod.mk.inj hout
  dsimp only at hnext hpending hanswered
  have hnot : 0 ∉ out.flatMap answeredCall := by
    rw [hanswered]
    decide
  -- the first call is one of the two kinds, and it is not answered
  rcases (answers_of_run hrun).2.1 0 (by rw [hnext]; decide) with hmem | hmem
  · exact absurd hmem hnot
  · exact ⟨s, out, hrun, hnext, hpending, hnot, hmem⟩

end Answers

/-! ## What the Dart side can tell -/

section Channel

variable {s t u : State} {e : Event} {o : List Effect}

/-- The answer to a call. -/
def answer : Effect → List (Nat × Bool)
  | .answered call answer => [(call, answer)]
  | _ => []

/-- What the Dart side and the user do, and restarts. -/
def ofChannel : Event → Bool
  | .startVpn _ _ | .stopVpn | .isVpnRunning | .requestNotificationPermission
  | .activityResult _ | .reboot => true
  | _ => false

/-- The activity does the same in front of any service, unless it is asked about it. -/
theorem channel_step_of_same (hsame : SameActivity s u) (hu : Settled u.service)
    (he : ofChannel e = true) (hask : e ≠ .isVpnRunning) (hstep : s.step e = some (t, o)) :
    ∃ v, u.step e = some (v, o) ∧ SameActivity t v ∧ Settled v.service := by
  -- the two activities agree in all that these callbacks read
  obtain ⟨hprefs, hpending, hdialogs, hnext⟩ := hsame
  cases e with
  | startVpn args prepared =>
    cases prepared with
    | true =>
      cases hstep
      exact ⟨(u.startVpn args true).1, by rw [hnext]; rfl,
        ⟨rfl, hpending, hdialogs, congrArg (· + 1) hnext⟩, hu⟩
    | false =>
      cases hstep
      exact ⟨(u.startVpn args false).1, by rw [hnext]; rfl,
        ⟨rfl, congrArg some hnext, congrArg (· + 1) hdialogs, congrArg (· + 1) hnext⟩, hu⟩
  | stopVpn =>
    cases hstep
    exact ⟨u.called.send .stop, by rw [hnext]; rfl,
      ⟨hprefs, hpending, hdialogs, congrArg (· + 1) hnext⟩, hu⟩
  | requestNotificationPermission =>
    cases hstep
    exact ⟨u.called, by rw [hnext]; rfl,
      ⟨hprefs, hpending, hdialogs, congrArg (· + 1) hnext⟩, hu⟩
  | isVpnRunning => exact absurd rfl hask
  | activityResult ok =>
    -- either there is a dialog in both or in neither
    rw [State.step, State.onActivityResult, hdialogs, hpending] at hstep
    rw [State.step, State.onActivityResult]
    split at hstep
    · cases hstep
    · rename_i hne
      rw [if_neg hne]
      cases ok with
      | true =>
        cases hstep
        exact ⟨_, rfl, ⟨hprefs, rfl, rfl, hnext⟩, hu⟩
      | false =>
        cases hstep
        exact ⟨_, rfl, ⟨hprefs, rfl, rfl, hnext⟩, hu⟩
  | reboot =>
    cases hstep
    exact ⟨u.reboot, rfl, ⟨hprefs, rfl, rfl, hnext⟩, settled_reboot u⟩
  | bootReceived _ _ | deliver _ | destroy | revoke => cases he

/-- Everything else leaves the activity as it is, and gives no answer. -/
theorem same_of_step (hs : Settled s.service) (he : ofChannel e = false)
    (hstep : s.step e = some (t, o)) : o.flatMap answer = [] ∧ SameActivity t s := by
  cases e with
  | bootReceived autoStart startable =>
    rw [State.step, State.onReceive] at hstep
    split at hstep <;> cases hstep <;> exact ⟨rfl, ⟨rfl, rfl, rfl, rfl⟩⟩
  | deliver _ | destroy | revoke =>
    obtain ⟨hends, hsame⟩ := service_step hs rfl hstep
    -- none of the effects of a callback of the service is an answer
    refine ⟨List.flatMap_eq_nil_iff.2 fun effect heffect => ?_, hsame⟩
    have hof := hends.balanced.inner effect heffect
    cases effect with
    | answered _ _ | requested _ | sent _ | rebooted => exact hof.elim
    | _ => rfl
  | startVpn _ _ | stopVpn | isVpnRunning | requestNotificationPermission | activityResult _
  | reboot => cases he

/-- **The answers say nothing about the service.** Two runs in which the Dart side makes the
    same calls, the user decides the same and the device restarts in between at the same points
    have the same answers, whatever happens to the service and the receiver, as long as nobody
    asks whether it is running. -/
theorem answers_eq_of_channel {s' : State} {es es' : List Event} {out out' : List Effect}
    (hes : ∀ e ∈ es, e ≠ .isVpnRunning) (hes' : ∀ e ∈ es', e ≠ .isVpnRunning)
    (hsame : es.filter ofChannel = es'.filter ofChannel)
    (hrun : Machine.run State.step State.new es = some (s, out))
    (hrun' : Machine.run State.step State.new es' = some (s', out')) :
    out.flatMap answer = out'.flatMap answer := by
  refine Machine.run_see_eq
    (R := fun u v => Settled u.service ∧ Settled v.service ∧ SameActivity u v) ?_ ?_
    ⟨settled_new, settled_new, .refl _⟩ hes hes' hsame hrun hrun'
  · rintro u v e u' o ⟨hu, hv, huv⟩ hask he hstep
    obtain ⟨v', hstep', hsame', hv'⟩ := channel_step_of_same huv hv he hask hstep
    exact ⟨v', o, hstep', rfl, (settled_step hu hstep).1, hv', hsame'⟩
  · rintro u v e u' o ⟨hu, hv, huv⟩ - he hstep
    obtain ⟨hquiet, hsame'⟩ := same_of_step hu he hstep
    exact ⟨hquiet, (settled_step hu hstep).1, hv, hsame'.trans huv⟩

/-- The service comes up in one run and not in the other. -/
theorem answers_eq_of_failure :
    ∃ s out s' out', Machine.run State.step State.new
        [.startVpn someArguments true, .deliver goodEnv] = some (s, out) ∧
      Machine.run State.step State.new
        [.startVpn someArguments true, .deliver noTun2socks] = some (s', out') ∧
      s.service.isRunning = true ∧ s'.service.isRunning = false ∧
      out.flatMap answer = [(0, true)] ∧ out'.flatMap answer = [(0, true)] := by
  -- one start that succeeds and one whose binary is missing
  have hgood : (Machine.run State.step State.new
      [.startVpn someArguments true, .deliver goodEnv]).map
        (fun r => (r.1.service.isRunning, r.2.flatMap answer)) = some (true, [(0, true)]) := by
    decide
  have hbad : (Machine.run State.step State.new
      [.startVpn someArguments true, .deliver noTun2socks]).map
        (fun r => r.1.service.isRunning) = some false := by decide
  obtain ⟨⟨s, out⟩, hrun, hout⟩ := Option.map_eq_some_iff.1 hgood
  obtain ⟨⟨s', out'⟩, hrun', hstopped⟩ := Option.map_eq_some_iff.1 hbad
  obtain ⟨hrunning, hanswer⟩ := Prod.mk.inj hout
  have heq := answers_eq_of_channel (by simp) (by simp) (by rfl) hrun hrun'
  exact ⟨s, out, s', out', hrun, hrun', hrunning, hstopped, hanswer, heq.symm.trans hanswer⟩

end Channel

/-! ## What was asked for last -/

section Last

variable {s t : State} {e : Event} {o past : List Effect}

/-- A start with these preferences comes up. -/
def succeeds (prefs : Prefs) (env : Env) : Bool :=
  !Service.incomplete prefs && env.established && Service.binariesExist prefs env &&
    (!prefs.vkTurn || env.starts .vkTurn && env.vkReady) &&
    ((Service.configFile prefs env).isNone || env.writes) &&
    env.starts (Service.requiredBin prefs) && env.starts .tun2socks

/-- A start past the checks succeeds if its file can be written and both processes start. -/
theorem isRunning_startProxy (prefs : Prefs) (env : Env) (fd : Nat) (s : Service) :
    (s.startProxy prefs env fd).1.isRunning =
      (((Service.configFile prefs env).isNone || env.writes) &&
        env.starts (Service.requiredBin prefs) && env.starts .tun2socks) := by
  unfold Service.startProxy Service.startTun2socks
  cases Service.configFile prefs env <;> cases env.writes <;>
    cases env.starts (Service.requiredBin prefs) <;> cases env.starts .tun2socks <;> rfl

/-- When a service that is stopped is running after `startVpn`. -/
theorem isRunning_startVpn (prefs : Prefs) (env : Env) (s : Service) :
    (s.startVpn prefs env).1.isRunning = (s.isRunning || succeeds prefs env) := by
  unfold Service.startVpn succeeds
  cases hrunning : s.isRunning with
  -- the second start does nothing
  | true => exact hrunning
  | false =>
    cases Service.incomplete prefs with
    | true => rfl
    | false =>
      cases env.established with
      -- each check that fails ends in `stopVpn`
      | false => rfl
      | true =>
        cases Service.binariesExist prefs env with
        | false => rfl
        | true =>
          have hproxy := isRunning_startProxy prefs env
          show (Service.startChain prefs env s.nextFd _).1.isRunning = _
          unfold Service.startChain
          cases prefs.vkTurn with
          | false => exact hproxy _ _
          | true =>
            cases env.starts .vkTurn with
            | false => rfl
            | true =>
              cases env.vkReady with
              | false => rfl
              | true => exact hproxy _ _

def sentAction : Effect → List Action
  | .sent action => [action]
  | _ => []

/-- Every start comes up, the permission is not revoked, and the service is not destroyed late,
    when it is already running again. -/
def Smooth (s : State) : Event → Prop
  | .deliver env => succeeds s.prefs env = true
  | .destroy | .revoke => s.service.isRunning = false
  | _ => True

instance (s : State) : (e : Event) → Decidable (Smooth s e)
  | .deliver _ | .destroy | .revoke => inferInstanceAs (Decidable (_ = _))
  | .startVpn _ _ | .stopVpn | .isVpnRunning | .requestNotificationPermission | .activityResult _
  | .reboot | .bootReceived _ _ => .isTrue trivial

/-- The service is running after these intents. -/
def runsAfter (actions : List Action) : Bool := actions.getLast? = some .start

/-- The intents that are under way were sent last; if there are none, the service has done
    what it was told. -/
structure Follows (s : State) (past : List Effect) : Prop where
  intents : s.intents <:+ past.flatMap sentAction
  running : s.intents = [] → s.service.isRunning = runsAfter (past.flatMap sentAction)

/-- A step that sends no intent and does not start or stop the service. -/
theorem follows_of_eq (h : Follows s past) (hintents : t.intents = s.intents)
    (hrunning : t.service.isRunning = s.service.isRunning) (ho : o.flatMap sentAction = []) :
    Follows t (past ++ o) := by
  have hsent : (past ++ o).flatMap sentAction = past.flatMap sentAction := by
    rw [List.flatMap_append, ho, List.append_nil]
  refine ⟨?_, fun hnil => ?_⟩
  · rw [hintents, hsent]
    exact h.intents
  · rw [hrunning, hsent]
    exact h.running (hintents ▸ hnil)

/-- An intent is sent. It is under way, so nothing is said about the service yet. -/
theorem follows_of_send (h : Follows s past) {action : Action}
    (hintents : t.intents = s.intents ++ [action]) (ho : o.flatMap sentAction = [action]) :
    Follows t (past ++ o) := by
  refine ⟨?_, fun hnil => ?_⟩
  · rw [hintents, List.flatMap_append, ho]
    obtain ⟨front, hfront⟩ := h.intents
    exact ⟨front, by rw [← List.append_assoc, hfront]⟩
  · rw [hintents] at hnil
    simp at hnil

/-- The service sends nothing. -/
theorem sentAction_nil (hs : Settled s.service) (he : ofService e = true)
    (hstep : s.step e = some (t, o)) : o.flatMap sentAction = [] := by
  refine List.flatMap_eq_nil_iff.2 fun effect heffect => ?_
  have hof := (service_step hs he hstep).1.balanced.inner effect heffect
  cases effect with
  | answered _ _ | requested _ | sent _ | rebooted => exact hof.elim
  | _ => rfl

/-- **Step.** -/
theorem follows_step (hs : Settled s.service) (h : Follows s past) (he : Smooth s e)
    (hup : e ≠ .reboot) (hstep : s.step e = some (t, o)) : Follows t (past ++ o) := by
  cases e with
  | reboot => exact absurd rfl hup
  | startVpn args prepared =>
    cases prepared with
    | true =>
      cases hstep
      exact follows_of_send h rfl rfl
    | false =>
      cases hstep
      exact follows_of_eq h rfl rfl rfl
  | stopVpn =>
    cases hstep
    exact follows_of_send h rfl rfl
  | isVpnRunning | requestNotificationPermission =>
    cases hstep
    exact follows_of_eq h rfl rfl rfl
  | activityResult ok =>
    rw [State.step, State.onActivityResult] at hstep
    -- what Flutter is answered is no intent
    have hanswers : (s.pendingResult.map (Effect.answered · ok)).toList.flatMap sentAction = [] := by
      cases s.pendingResult <;> rfl
    split at hstep
    · cases hstep
    · cases ok with
      | true =>
        cases hstep
        exact follows_of_send h rfl (by rw [List.flatMap_cons, hanswers]; rfl)
      | false =>
        cases hstep
        exact follows_of_eq h rfl rfl hanswers
  | bootReceived autoStart startable =>
    rw [State.step, State.onReceive] at hstep
    split at hstep
    · cases hstep
      exact follows_of_send h rfl rfl
    · cases hstep
      exact follows_of_eq h rfl rfl rfl
  -- the intent leaves the front of the queue
  | deliver env =>
    have hquiet := sentAction_nil hs rfl hstep
    rw [State.step] at hstep
    split at hstep
    · cases hstep
    · rename_i action intents hintents
      cases hstep
      obtain ⟨front, hfront⟩ := h.intents
      rw [hintents] at hfront
      refine ⟨?_, fun hnil => ?_⟩
      · rw [List.flatMap_append, hquiet, List.append_nil, ← hfront]
        exact ⟨front ++ [action], by rw [List.append_assoc]; rfl⟩
      · -- the last intent has been delivered
        obtain rfl : intents = [] := hnil
        rw [List.flatMap_append, hquiet, List.append_nil, ← hfront, runsAfter,
          List.getLast?_append, List.getLast?_singleton]
        cases action with
        | start =>
          show (s.service.startVpn s.prefs env).1.isRunning = true
          -- the environment lets every start succeed
          rw [isRunning_startVpn, show succeeds s.prefs env = true from he, Bool.or_true]
        | stop => rfl
  | destroy =>
    have hquiet := sentAction_nil hs rfl hstep
    cases hstep
    exact follows_of_eq h rfl (Eq.symm he) hquiet
  | revoke =>
    have hquiet := sentAction_nil hs rfl hstep
    cases hstep
    exact follows_of_eq h rfl (Eq.symm he) hquiet

/-- At the start no intent has been sent, and the service is stopped. -/
theorem follows_new : Follows State.new [] := ⟨List.suffix_refl _, fun _ => rfl⟩

end Last

/-! ## The public key -/

section Pubkey

variable {s t s' : State} {e : Event} {o : List Effect}

/-- The event without the public key of the server. -/
def withoutPubkey : Event → Event
  | .startVpn args prepared => .startVpn { args with pubkey := none } prepared
  | e => e

/-- Two states that differ in the public key at most. -/
def SameButKey (s t : State) : Prop :=
  ∃ pubkey, t = { s with prefs := { s.prefs with pubkey } }

/-- **One step.** The key is stored and passed to no process. -/
theorem sameButKey_step (h : SameButKey s t) (hstep : s.step e = some (s', o)) :
    ∃ t', t.step (withoutPubkey e) = some (t', o) ∧ SameButKey s' t' := by
  obtain ⟨pubkey, rfl⟩ := h
  cases e with
  -- the only event that has a key: it is written to the preferences
  | startVpn args prepared => cases prepared <;> cases hstep <;> exact ⟨_, rfl, _, rfl⟩
  | stopVpn | isVpnRunning | requestNotificationPermission | destroy | revoke | reboot =>
    cases hstep
    exact ⟨_, rfl, _, rfl⟩
  | activityResult ok =>
    rw [State.step, State.onActivityResult] at hstep
    show ∃ t', State.onActivityResult _ ok = _ ∧ _
    rw [State.onActivityResult]
    split at hstep
    · cases hstep
    · rename_i hne
      rw [if_neg hne]
      cases ok <;> cases hstep <;> exact ⟨_, rfl, _, rfl⟩
  | bootReceived autoStart startable =>
    rw [State.step, State.onReceive] at hstep
    show ∃ t', some (State.onReceive _ autoStart startable) = _ ∧ _
    rw [State.onReceive]
    split at hstep
    · rename_i hstart
      cases hstep
      rw [if_pos hstart]
      exact ⟨_, rfl, _, rfl⟩
    · rename_i hstart
      cases hstep
      rw [if_neg hstart]
      exact ⟨_, rfl, _, rfl⟩
  -- the service reads the preferences, but for the key
  | deliver env =>
    rw [State.step] at hstep
    show ∃ t', State.step _ (.deliver env) = _ ∧ _
    rw [State.step]
    dsimp only
    split at hstep
    · cases hstep
    · rename_i action intents hintents
      cases action <;> cases hstep <;> exact ⟨_, rfl, _, rfl⟩

/-- **Whole runs**, step by step. -/
theorem run_withoutPubkey {es : List Event} {out : List Effect} (h : SameButKey s t)
    (hrun : Machine.run State.step s es = some (s', out)) :
    ∃ t', Machine.run State.step t (es.map withoutPubkey) = some (t', out) := by
  induction es generalizing s t out with
  | nil =>
    cases hrun
    exact ⟨t, rfl⟩
  | cons e es ih =>
    obtain ⟨s₁, o, os, he, hrest, rfl⟩ := Machine.run_cons_eq_some.1 hrun
    obtain ⟨t₁, ht₁, h₁⟩ := sameButKey_step h he
    obtain ⟨t', ht'⟩ := ih h₁ hrest
    exact ⟨t', Machine.run_cons_eq_some.2 ⟨t₁, o, os, ht₁, ht', rfl⟩⟩

/-- **The public key reaches nobody.** Two runs that differ in the public keys of the servers
    have the same effects: the same answers, and the same processes with the same arguments. -/
theorem effects_of_pubkey {es es' : List Event} {out out' : List Effect}
    (hsame : es.map withoutPubkey = es'.map withoutPubkey)
    (hrun : Machine.run State.step State.new es = some (s, out))
    (hrun' : Machine.run State.step State.new es' = some (s', out')) : out = out' := by
  have hnew : SameButKey State.new State.new := ⟨State.new.prefs.pubkey, rfl⟩
  obtain ⟨t, ht⟩ := run_withoutPubkey hnew hrun
  obtain ⟨t', ht'⟩ := run_withoutPubkey hnew hrun'
  rw [hsame] at ht
  cases ht.symm.trans ht'
  rfl

/-- orcax-connect is started with the same arguments for two servers that differ in their
    keys. -/
theorem effects_of_two_keys :
    ∃ s out s' out', Machine.run State.step State.new
        [.startVpn { someArguments with pubkey := some "k" } true, .deliver goodEnv] =
          some (s, out) ∧
      Machine.run State.step State.new
        [.startVpn { someArguments with pubkey := some "l" } true, .deliver goodEnv] =
          some (s', out') ∧ s.service.isRunning = true ∧ out = out' := by
  have hcheck : ∀ key : String, ∃ s out, Machine.run State.step State.new
      [.startVpn { someArguments with pubkey := some key } true, .deliver goodEnv] =
        some (s, out) ∧ s.service.isRunning = true := fun key => ⟨_, _, rfl, rfl⟩
  obtain ⟨s, out, hrun, hrunning⟩ := hcheck "k"
  obtain ⟨s', out', hrun', -⟩ := hcheck "l"
  exact ⟨s, out, s', out', hrun, hrun', hrunning, effects_of_pubkey (by rfl) hrun hrun'⟩

end Pubkey

end Fogged.Spec.AndroidVpn
