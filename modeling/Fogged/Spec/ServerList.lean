import Fogged.ForStd.Machine
import Fogged.Native.Subscription

/-!
# The server list under overlapping fetches

A call of `_fetchSubscription` looks at the server list before it asks DNS or the
preferences, and assigns its result after that. A list that another call has filled in
between is lost if the result is empty. Nor does a call look at the region again: what
it has got for one region it assigns, and stores, while another one is selected.

`Turn` says what one turn of the event loop can do to the list, the stored copies and
the calls that are under way; everything about runs follows from it.

## Key results

- `server_list_kept`: the runs in which a list that is not empty stays so
- `refresh_empties_list`: a list lost to a call that was looking for one
- `regions_kept`: the runs in which lists stay with their region
- `late_response_crosses_regions`: the answer for the old region comes last
-/

namespace Fogged.Spec.Subscription

open Fogged.Native.App Fogged.Native.Handshake Fogged.Native.Subscription
open Machine

variable {decode : Text → Option (List VpnServer)} {s t : State} {o : List Effect} {e : Event}

/-! ## One turn -/

/-- The call has found no list anywhere and waits for DNS or for the preferences. -/
def fallsBack : Task → Bool
  | .discovering _ | .loadingCached _ => true
  | _ => false

/-- The mode a call has asked for. -/
def requested : Task → Option Mode
  | .requesting mode | .discovering mode | .loadingCached mode | .retrying mode => some mode
  | .cycling | .caching _ => none

/-- What a call can come to wait for without having got a list. -/
def Follows (s : State) (task : Task) : Prop :=
  (fallsBack task = true → s.config.servers = []) ∧ (∀ servers, task ≠ .caching servers) ∧
    ∀ mode, requested task = some mode → mode = s.mode ∨ ∃ old ∈ s.tasks, requested old = some mode

/-- What one turn can do, region changes and logouts apart. -/
inductive Turn (s t : State) (o : List Effect) : Prop where
  | waits (hkept : t.mode = s.mode) (hservers : t.config.servers = s.config.servers)
      (hcached : t.cached = s.cached)
      (htasks : ∀ task ∈ t.tasks, task ∈ s.tasks ∨ Follows s task)
      (hout : ∀ effect ∈ o, ∃ mode, effect = .obtained mode [])
  /-- A call has got a list and assigns it. -/
  | fetches (task : Task) (mode : Mode) (servers : List VpnServer) (hmem : task ∈ s.tasks)
      (hmode : requested task = some mode) (hne : servers ≠ []) (hkept : t.mode = s.mode)
      (hservers : t.config.servers = servers) (hcached : t.cached = s.cached)
      (htasks : ∀ task ∈ t.tasks, task ∈ s.tasks ∨ task = .caching servers)
      (hout : o = [.obtained mode servers])
  /-- A call assigns what the preferences have, or nothing. -/
  | concludes (task : Task) (servers : List VpnServer) (hmem : task ∈ s.tasks)
      (hfalls : fallsBack task = true) (hfrom : servers ≠ [] → s.cached s.mode = some servers)
      (hkept : t.mode = s.mode) (hservers : t.config.servers = servers) (hcached : t.cached = s.cached)
      (htasks : ∀ task ∈ t.tasks, task ∈ s.tasks ∨ servers ≠ [] ∧ task = .caching servers)
      (hout : ∀ effect ∈ o, ∃ mode, effect = .obtained mode [])
  | stores (servers : List VpnServer) (hmem : .caching servers ∈ s.tasks)
      (hkept : t.mode = s.mode) (hservers : t.config.servers = s.config.servers)
      (hcached : t.cached = Function.update s.cached s.mode (some servers))
      (htasks : ∀ task ∈ t.tasks, task ∈ s.tasks) (hout : o = [.stored s.mode servers])

@[simp] theorem wait_config (s : State) (task : Task) : (s.wait task).config = s.config := rfl

@[simp] theorem mem_wait_tasks {s : State} {task old : Task} :
    old ∈ (s.wait task).tasks ↔ old ∈ s.tasks ∨ old = task := by
  simp [State.wait]

@[simp] theorem assign_servers (s : State) (servers : List VpnServer) :
    (s.assign servers).config.servers = servers := by
  cases servers <;> rfl

@[simp] theorem assign_mode (s : State) (servers : List VpnServer) :
    (s.assign servers).mode = s.mode := rfl

@[simp] theorem assign_cached (s : State) (servers : List VpnServer) :
    (s.assign servers).cached = s.cached := rfl

@[simp] theorem assign_tasks (s : State) (servers : List VpnServer) :
    (s.assign servers).tasks = s.tasks := rfl

/-- `r` is `s` without the call that is being resumed. -/
structure Resumed (s r : State) : Prop where
  config : r.config = s.config
  mode : r.mode = s.mode
  cached : r.cached = s.cached
  tasks : ∀ task ∈ r.tasks, task ∈ s.tasks

/-- Taking a call off the list of those that wait changes nothing else. -/
theorem resumed_eraseIdx (s : State) (i : Nat) :
    Resumed s { s with tasks := s.tasks.eraseIdx i } where
  config := rfl
  mode := rfl
  cached := rfl
  tasks _ hmem := List.mem_of_mem_eraseIdx hmem

section Turns

variable {r : State} {task : Task} {mode : Mode} {servers : List VpnServer}

/-- The call is over. -/
theorem turn_return (hr : Resumed s r) (hout : ∀ effect ∈ o, ∃ mode, effect = .obtained mode []) :
    Turn s r o :=
  .waits hr.mode (by rw [hr.config]) hr.cached (fun old hold => .inl (hr.tasks old hold)) hout

/-- A call that comes to wait for something else, having shown no list. -/
theorem turn_wait (hr : Resumed s r) (hfollows : Follows s task)
    (hout : ∀ effect ∈ o, ∃ mode, effect = .obtained mode []) : Turn s (r.wait task) o := by
  refine .waits hr.mode (by rw [wait_config, hr.config]) hr.cached (fun old hold => ?_) hout
  rcases mem_wait_tasks.1 hold with hold | rfl
  · exact .inl (hr.tasks old hold)
  · exact .inr hfollows

/-- The end of a call leaves a write to the preferences behind, if it has got a list. -/
theorem mem_conclude_tasks (hr : Resumed s r) {old : Task} (hold : old ∈ (conclude r servers).tasks) :
    old ∈ s.tasks ∨ servers ≠ [] ∧ old = .caching servers := by
  unfold conclude at hold
  rw [assign_tasks] at hold
  split at hold
  · rename_i hne
    rcases mem_wait_tasks.1 hold with hold | rfl
    · exact .inl (hr.tasks old hold)
    · exact .inr ⟨hne, rfl⟩
  · exact .inl (hr.tasks old hold)

/-- The end of a call assigns its result, even if that is empty. -/
theorem conclude_servers : (conclude r servers).config.servers = servers := assign_servers _ _

/-- The region stays as it was; it is not compared with the one the call was for. -/
theorem conclude_mode (hr : Resumed s r) : (conclude r servers).mode = s.mode := by
  unfold conclude
  rw [assign_mode, ← hr.mode]
  split <;> rfl

/-- The stored copies change only when the write has been made. -/
theorem conclude_cached (hr : Resumed s r) : (conclude r servers).cached = s.cached := by
  unfold conclude
  rw [assign_cached, ← hr.cached]
  split <;> rfl

/-- The call has got a list. -/
theorem turn_conclude (hr : Resumed s r) (hmem : task ∈ s.tasks) (hmode : requested task = some mode)
    (hne : servers ≠ []) : Turn s (conclude r servers) [.obtained mode servers] :=
  .fetches task mode servers hmem hmode hne (conclude_mode hr) conclude_servers (conclude_cached hr)
    (fun _ hold => (mem_conclude_tasks hr hold).imp_right And.right) rfl

/-- The call ends with what the preferences have, or with nothing. -/
theorem turn_conclude_fallsBack (hr : Resumed s r) (hmem : task ∈ s.tasks)
    (hfalls : fallsBack task = true) (hfrom : servers ≠ [] → s.cached s.mode = some servers)
    (hout : ∀ effect ∈ o, ∃ mode, effect = .obtained mode []) : Turn s (conclude r servers) o :=
  .concludes task servers hmem hfalls hfrom (conclude_mode hr) conclude_servers (conclude_cached hr)
    (fun _ hold => mem_conclude_tasks hr hold) hout

/-- The call goes on to the same mode. -/
theorem follows_of_requested {old : Task} (hmem : old ∈ s.tasks) (hmode : requested old = some mode)
    (hempty : s.config.servers = []) (hcaching : ∀ servers, task ≠ .caching servers)
    (htask : requested task = some mode) : Follows s task := by
  refine ⟨fun _ => hempty, hcaching, fun m hm => .inr ⟨old, hmem, ?_⟩⟩
  rw [← hm, htask, hmode]

/-- The answer of a server has been decoded: with a list the call ends, without one it looks at
    the list there is, and may ask DNS. -/
theorem turn_evaluated (hr : Resumed s r) (hmem : .requesting mode ∈ s.tasks)
    (hout : o = [.obtained mode servers] ∨ servers = [] ∧ o = []) :
    Turn s (evaluated r mode servers) o := by
  have hquiet (hnil : servers = []) : ∀ effect ∈ o, ∃ mode, effect = .obtained mode [] := by
    rcases hout with rfl | ⟨-, rfl⟩ <;> simp [hnil]
  unfold evaluated
  split
  · -- the list there is is kept
    rename_i h
    exact turn_return hr (hquiet h.1)
  · rename_i hfirst
    split
    · -- DNS is asked only because there was no list at that moment
      rename_i hnil
      have hempty : s.config.servers = [] := by
        rw [← hr.config]
        by_contra hne
        exact hfirst ⟨hnil, hne⟩
      exact turn_wait hr (follows_of_requested hmem rfl hempty nofun rfl) (hquiet hnil)
    · rename_i hne
      obtain rfl := hout.resolve_right fun h => hne h.1
      exact turn_conclude hr hmem rfl hne

/-- A call may always try the next address. -/
theorem follows_cycling : Follows s .cycling := ⟨nofun, nofun, nofun⟩

/-- The first answer has come, with a list, without one or with another status. -/
theorem turn_responded (decode : Text → Option (List VpnServer)) (hr : Resumed s r)
    (hmem : .requesting mode ∈ s.tasks) (response : Option Response) :
    Turn s (responded decode r mode response).1 (responded decode r mode response).2 := by
  cases response with
  | none => exact turn_wait hr follows_cycling nofun
  | some response =>
    unfold responded
    dsimp only
    split
    · split
      · -- the decoding has thrown
        exact turn_wait hr follows_cycling nofun
      · exact turn_evaluated hr hmem (.inl rfl)
    · split
      · -- the device limit
        exact turn_return hr nofun
      · exact turn_evaluated hr hmem (.inr ⟨rfl, rfl⟩)

/-- The answer of the second address has come. Here the call gives up if there is a list. -/
theorem turn_retried (decode : Text → Option (List VpnServer)) (hr : Resumed s r)
    (hmem : .retrying mode ∈ s.tasks) (response : Option Response) :
    Turn s (retried decode r mode response).1 (retried decode r mode response).2 := by
  cases response with
  | none => exact turn_return hr nofun
  | some response =>
    unfold retried
    dsimp only
    split
    · split
      · exact turn_return hr nofun
      · rename_i servers _
        by_cases hne : servers = []
        · simp only [hne, ne_eq, not_true_eq_false, if_false]
          exact turn_return hr (by simp)
        · -- the list is assigned and not cached
          simp only [ne_eq, hne, not_false_eq_true, if_true]
          refine .fetches _ mode servers hmem rfl hne ?_ (assign_servers _ _) ?_ ?_ rfl
          · rw [assign_mode, hr.mode]
          · rw [assign_cached, hr.cached]
          · intro old hold
            rw [assign_tasks] at hold
            exact .inl (hr.tasks old hold)
    · exact turn_return hr nofun

/-- DNS has answered; without a list there, the preferences are asked. -/
theorem turn_discovered (hr : Resumed s r) (hmem : .discovering mode ∈ s.tasks) :
    Turn s (discovered r mode servers) [.obtained mode servers] := by
  unfold discovered
  split
  · rename_i h
    have hempty : s.config.servers = [] := hr.config ▸ h.2
    exact turn_wait hr (follows_of_requested hmem rfl hempty nofun rfl) (by simp [h.1])
  · by_cases hne : servers = []
    · -- another call has filled the list by now, and this one empties it
      exact turn_conclude_fallsBack hr hmem rfl (absurd hne) (by simp [hne])
    · exact turn_conclude hr hmem rfl hne

/-- The stored copy of the region the call was for is assigned, or no list at all. -/
theorem turn_loadCachedServers (hr : Resumed s r) (hmem : .loadingCached mode ∈ s.tasks) (ok : Bool) :
    Turn s (conclude r (loadCachedServers r ok)) [] := by
  refine turn_conclude_fallsBack hr hmem rfl (fun hne => ?_) nofun
  unfold loadCachedServers at hne ⊢
  rw [hr.cached, hr.mode] at hne ⊢
  cases ok with
  | false => simp at hne
  | true =>
    cases hcached : s.cached s.mode with
    | none => simp [hcached] at hne
    | some servers => simp

/-- The list is stored for the region that is selected now. -/
theorem turn_cacheServers (hr : Resumed s r) (hmem : .caching servers ∈ s.tasks) (ok : Bool) :
    Turn s (cacheServers r servers ok).1 (cacheServers r servers ok).2 := by
  cases ok with
  | false => exact turn_return hr nofun
  | true =>
    refine .stores servers hmem hr.mode (congrArg _ hr.config) ?_ hr.tasks ?_
    · simp [cacheServers, hr.cached, hr.mode]
    · simp [cacheServers, hr.mode]

end Turns

/-- Every step is a turn, a change of the region or a logout. -/
theorem step_cases (hstep : step decode s e = some (t, o)) :
    Turn s t o ∨ (∃ mode, e = .setMode mode ∧ t = { s with mode } ∧ o = []) ∨
      e = .logout ∧ t = { s with config := { s.config with servers := [], loggedIn := false } } ∧
        o = [] := by
  have hself : Resumed s s := ⟨rfl, rfl, rfl, fun _ => id⟩
  cases e with
  | call =>
    rw [step] at hstep
    obtain ⟨rfl, rfl⟩ := Prod.mk.inj (Option.some.inj hstep)
    refine .inl ?_
    split
    · -- a new call asks for the region that is selected
      refine turn_wait hself ⟨nofun, nofun, ?_⟩ nofun
      rintro _ ⟨⟩
      exact .inl rfl
    · exact turn_return hself nofun
  | respond i response =>
    rw [step] at hstep
    split at hstep
    · rename_i mode htask
      have hturn := turn_responded decode (resumed_eraseIdx s i)
        (List.mem_of_getElem? htask) response
      rw [Option.some.inj hstep] at hturn
      exact .inl hturn
    · rename_i mode htask
      have hturn := turn_retried decode (resumed_eraseIdx s i)
        (List.mem_of_getElem? htask) response
      rw [Option.some.inj hstep] at hturn
      exact .inl hturn
    · cases hstep
  | discovered i servers =>
    rw [step] at hstep
    split at hstep
    · rename_i mode htask
      cases hstep
      exact .inl (turn_discovered (resumed_eraseIdx s i) (List.mem_of_getElem? htask))
    · cases hstep
  | preferences i ok =>
    rw [step] at hstep
    split at hstep
    · rename_i mode htask
      cases hstep
      exact .inl (turn_loadCachedServers (resumed_eraseIdx s i) (List.mem_of_getElem? htask) ok)
    · rename_i servers htask
      have hturn := turn_cacheServers (resumed_eraseIdx s i) (List.mem_of_getElem? htask) ok
      rw [Option.some.inj hstep] at hturn
      exact .inl hturn
    · cases hstep
  | cycled i ok =>
    rw [step] at hstep
    split at hstep
    · obtain ⟨rfl, rfl⟩ := Prod.mk.inj (Option.some.inj hstep)
      refine .inl ?_
      split
      · -- and so does a second attempt, which may differ from what the first one asked for
        refine turn_wait (resumed_eraseIdx s i) ⟨nofun, nofun, ?_⟩ nofun
        rintro _ ⟨⟩
        exact .inl rfl
      · exact turn_return (resumed_eraseIdx s i) nofun
    · cases hstep
  | setMode mode =>
    cases hstep
    exact .inr (.inl ⟨mode, rfl, rfl, rfl⟩)
  | login =>
    cases hstep
    exact .inl (.waits rfl rfl rfl (fun _ => .inl) nofun)
  -- the list is dropped, and what is cached stays
  | logout =>
    cases hstep
    exact .inr (.inr ⟨rfl, rfl, rfl⟩)

/-! ## A list is not lost -/

/-- While there is a list, no call is looking for one. -/
def NoneFallsBack (s : State) : Prop :=
  s.config.servers ≠ [] → ∀ task ∈ s.tasks, fallsBack task = false

/-- The condition on a step: the list becomes non-empty only when no other call is waiting
    for DNS or for the stored copy. -/
def FillsAlone (decode : Text → Option (List VpnServer)) (s : State) (e : Event) : Prop :=
  ∀ t o, step decode s e = some (t, o) → s.config.servers = [] → NoneFallsBack t

instance (s : State) : Decidable (NoneFallsBack s) :=
  inferInstanceAs (Decidable (_ ≠ [] → ∀ task ∈ s.tasks, fallsBack task = false))

instance (decode : Text → Option (List VpnServer)) (s : State) (e : Event) :
    Decidable (FillsAlone decode s e) :=
  inferInstanceAs (Decidable (∀ t o, _ = some (t, o) → _ → NoneFallsBack t))

/-- A turn that starts with a list ends with one. -/
theorem Turn.keeps_list (hturn : Turn s t o) (hs : NoneFallsBack s) (hne : s.config.servers ≠ []) :
    t.config.servers ≠ [] ∧ NoneFallsBack t := by
  cases hturn with
  | waits hkept hservers hcached htasks hout =>
    refine ⟨hservers ▸ hne, fun _ task hmem => ?_⟩
    rcases htasks task hmem with hold | hfollows
    · exact hs hne task hold
    · rw [← Bool.not_eq_true]
      exact fun hfalls => hne (hfollows.1 hfalls)
  | fetches task mode servers hmem hmode hlist hkept hservers hcached htasks hout =>
    refine ⟨hservers ▸ hlist, fun _ task hmem => ?_⟩
    rcases htasks task hmem with hold | rfl
    · exact hs hne task hold
    · rfl
  | concludes task servers hmem hfalls =>
    -- there is no such call
    rw [hs hne task hmem] at hfalls
    cases hfalls
  | stores servers hmem hkept hservers hcached htasks hout =>
    exact ⟨hservers ▸ hne, fun _ task hmem => hs hne task (htasks task hmem)⟩

/-- **One step.** Only a logout takes a list away. -/
theorem keeps_list_step (hs : NoneFallsBack s) (hne : s.config.servers ≠ [])
    (hstep : step decode s e = some (t, o)) (hlogout : e ≠ .logout) : t.config.servers ≠ [] := by
  rcases step_cases hstep with hturn | ⟨mode, -, rfl, -⟩ | ⟨rfl, -⟩
  · exact (hturn.keeps_list hs hne).1
  · exact hne
  · exact absurd rfl hlogout

/-- The invariant is exact: any call that is looking for a list can take away the one there
    is. -/
theorem keeps_list_iff (hne : s.config.servers ≠ []) :
    (∀ e t o, e ≠ .logout → step decode s e = some (t, o) → t.config.servers ≠ []) ↔
      NoneFallsBack s := by
  constructor
  · intro hkeeps _ task hmem
    obtain ⟨i, hi⟩ := List.getElem?_of_mem hmem
    -- the call gets nothing, and assigns it
    cases task with
    | discovering mode =>
      refine absurd ?_ (hkeeps (.discovered i []) _ _ nofun (by simp only [step, hi]; rfl))
      simp [discovered, hne, conclude_servers]
    | loadingCached mode =>
      refine absurd ?_ (hkeeps (.preferences i false) _ _ nofun (by simp only [step, hi]; rfl))
      exact conclude_servers
    | _ => rfl
  · exact fun hs e t o hlogout hstep => keeps_list_step hs hne hstep hlogout

/-- **One step.** A list that is not empty stays so, since no call that could empty it is
    waiting. -/
theorem noneFallsBack_step (hs : NoneFallsBack s) (hfills : FillsAlone decode s e)
    (hstep : step decode s e = some (t, o)) : NoneFallsBack t := by
  by_cases hempty : s.config.servers = []
  · exact hfills t o hstep hempty
  · rcases step_cases hstep with hturn | ⟨mode, -, rfl, -⟩ | ⟨-, rfl, -⟩
    · exact (hturn.keeps_list hs hempty).2
    · exact hs
    · exact fun hne => absurd rfl hne

/-- At the start there is no list. -/
theorem noneFallsBack_new (mode : Mode) : NoneFallsBack (State.new mode) := fun hne => absurd rfl hne

/-- **The list is kept.** If the list becomes non-empty only when no other call is waiting
    for DNS or for the stored copy, then once it is not empty it stays so until a logout. -/
theorem server_list_kept (decode : Text → Option (List VpnServer)) (mode : Mode)
    (es fs : List Event) (s t : State) (out out' : List Effect)
    (hfills : Allowed (step decode) (FillsAlone decode) (State.new mode) es)
    (hrun : run (step decode) (State.new mode) es = some (s, out))
    (hne : s.config.servers ≠ [])
    (hfills' : Allowed (step decode) (FillsAlone decode) s fs)
    (hrun' : run (step decode) s fs = some (t, out')) (hlogout : ∀ e ∈ fs, e ≠ .logout) :
    t.config.servers ≠ [] := by
  have hs : NoneFallsBack s :=
    run_invariant_of_allowed (fun _ _ _ _ hs hfills hstep => noneFallsBack_step hs hfills hstep)
      (noneFallsBack_new mode) hfills hrun
  have hallowed := allowed_and hfills' (allowed_of_forall (fun e he _ => hlogout e he) s)
  have hkept : NoneFallsBack t ∧ t.config.servers ≠ [] :=
    run_invariant_of_allowed (I := fun s => NoneFallsBack s ∧ s.config.servers ≠ [])
      (fun _ _ _ _ hs hallowed hstep => ⟨noneFallsBack_step hs.1 hallowed.1 hstep,
        keeps_list_step hs.1 hs.2 hstep hallowed.2⟩) ⟨hs, hne⟩ hallowed hrun'
  exact hkept.2

/-! ### Two calls -/

def namedServer (b : UInt8) : VpnServer where
  protocol := .vless
  name := [b]
  addr := []
  params := []

/-- A subscription in which every byte names a server. -/
def byteServers (body : Text) : Option (List VpnServer) := some (body.map namedServer)

/-- A refresh that fails leaves the list as it is. -/
theorem server_list_kept_refresh :
    ∃ s t out out', run (step byteServers) (State.new [0])
        [.call, .respond 0 (some ⟨200, [1, 2]⟩)] = some (s, out) ∧ s.config.servers.length = 2 ∧
      run (step byteServers) s [.call, .preferences 0 true, .respond 0 (some ⟨500, []⟩)] =
        some (t, out') ∧ t.config.servers ≠ [] := by
  refine ⟨_, _, _, _, rfl, rfl, rfl, server_list_kept byteServers [0]
    [.call, .respond 0 (some ⟨200, [1, 2]⟩)]
    [.call, .preferences 0 true, .respond 0 (some ⟨500, []⟩)] _ _ _ _
    ?_ rfl nofun ?_ rfl ?_⟩
  · decide
  · decide
  · decide

/-- **A refresh empties the list.** The first call gets no list and asks DNS; the second
    one gets a list; then DNS has nothing for the first. -/
theorem refresh_empties_list :
    ∃ s t out out', run (step byteServers) (State.new [0])
        [.call, .call, .respond 0 (some ⟨500, []⟩), .respond 0 (some ⟨200, [1, 2]⟩)] =
          some (s, out) ∧ s.config.servers.length = 2 ∧
      run (step byteServers) s [.discovered 0 []] = some (t, out') ∧ t.config.servers = [] :=
  ⟨_, _, _, _, rfl, rfl, rfl, rfl⟩

/-! ## Lists stay with their region -/

/-- The condition on a step: the region is changed only when no call is under way. -/
def SwitchesIdle (s : State) : Event → Prop
  | .setMode _ => s.tasks = []
  | _ => True

instance (s : State) : (e : Event) → Decidable (SwitchesIdle s e)
  | .setMode _ => inferInstanceAs (Decidable (_ = []))
  | .call | .respond _ _ | .discovered _ _ | .preferences _ _ | .cycled _ _ | .login | .logout =>
    .isTrue trivial

/-- Every call has asked for the region that is selected. -/
def OneMode (s : State) : Prop :=
  ∀ task ∈ s.tasks, ∀ mode, requested task = some mode → mode = s.mode

/-- Every list that is or will be stored was obtained for the region it is stored for. -/
structure Regional (s : State) (past : List Effect) : Prop where
  caching : ∀ servers, .caching servers ∈ s.tasks → .obtained s.mode servers ∈ past
  cached : ∀ mode servers, s.cached mode = some servers → .obtained mode servers ∈ past
  stored : ∀ mode servers, .stored mode servers ∈ past → .obtained mode servers ∈ past

/-- Only the user changes the region. -/
theorem Turn.mode_eq (hturn : Turn s t o) : t.mode = s.mode := by
  cases hturn <;> assumption

/-- **One step.** The calls stay with the region that is selected. -/
theorem oneMode_step (hs : OneMode s) (hidle : SwitchesIdle s e)
    (hstep : step decode s e = some (t, o)) : OneMode t := by
  rcases step_cases hstep with hturn | ⟨mode, rfl, rfl, -⟩ | ⟨-, rfl, -⟩
  · intro task hmem mode hmode
    rw [hturn.mode_eq]
    cases hturn with
    | waits hkept hservers hcached htasks hout =>
      rcases htasks task hmem with hold | hfollows
      · exact hs task hold mode hmode
      · -- a call that goes on keeps its mode; one that starts takes the current one
        rcases hfollows.2.2 mode hmode with h | ⟨old, hold, hmode⟩
        · exact h
        · exact hs old hold mode hmode
    | fetches _ _ servers _ _ _ hkept hservers hcached htasks hout =>
      rcases htasks task hmem with hold | rfl
      · exact hs task hold mode hmode
      · cases hmode
    | concludes _ servers _ _ _ hkept hservers hcached htasks hout =>
      rcases htasks task hmem with hold | ⟨-, rfl⟩
      · exact hs task hold mode hmode
      · cases hmode
    | stores servers _ hkept hservers hcached htasks hout => exact hs task (htasks task hmem) mode hmode
  · intro task hmem
    -- the mode changes only while no call is under way
    rw [show s.tasks = [] from hidle] at hmem
    cases hmem
  · exact hs

/-- What a step has to add to what is known. -/
theorem Regional.append {past : List Effect} (hs : Regional s past) (hkept : t.mode = s.mode)
    (hcaching : ∀ servers, .caching servers ∈ t.tasks →
      .caching servers ∈ s.tasks ∨ .obtained s.mode servers ∈ past ++ o)
    (hcached : ∀ mode servers, t.cached mode = some servers →
      s.cached mode = some servers ∨ .obtained mode servers ∈ past)
    (hstored : ∀ mode servers, .stored mode servers ∈ o → .obtained mode servers ∈ past) :
    Regional t (past ++ o) where
  caching servers hmem := by
    rw [hkept]
    rcases hcaching servers hmem with hold | hnew
    · exact List.mem_append_left _ (hs.caching servers hold)
    · exact hnew
  cached mode servers hmem := by
    rcases hcached mode servers hmem with hold | hnew
    · exact List.mem_append_left _ (hs.cached mode servers hold)
    · exact List.mem_append_left _ hnew
  stored mode servers hmem := by
    rcases List.mem_append.1 hmem with hold | hnew
    · exact List.mem_append_left _ (hs.stored mode servers hold)
    · exact List.mem_append_left _ (hstored mode servers hnew)

/-- A list that is stored has been obtained for the region it is stored for. -/
theorem Regional.turn {past : List Effect} (hs : Regional s past) (hmode : OneMode s)
    (hturn : Turn s t o) : Regional t (past ++ o) := by
  cases hturn with
  | waits hkept hservers hcached htasks hout =>
    refine hs.append hkept (fun servers hmem => ?_) (fun _ _ h => .inl (hcached ▸ h)) ?_
    · exact .inl ((htasks _ hmem).resolve_right fun hfollows => hfollows.2.1 servers rfl)
    · intro mode servers hnew
      obtain ⟨_, heq⟩ := hout _ hnew
      cases heq
  | fetches task mode list hmem hrequested hne hkept hservers hcached htasks hout =>
    -- what was asked for is what is selected, so the list will be stored for that
    refine hs.append hkept (fun servers hcaching => ?_) (fun _ _ h => .inl (hcached ▸ h)) ?_
    · refine (htasks _ hcaching).imp_right fun heq => ?_
      cases heq
      rw [← hmode task hmem mode hrequested, hout]
      exact List.mem_append_right _ List.mem_cons_self
    · simp [hout]
  | concludes task list hmem hfalls hfrom hkept hservers hcached htasks hout =>
    -- a stored copy is stored again, for the region it was stored for
    refine hs.append hkept (fun servers hcaching => ?_) (fun _ _ h => .inl (hcached ▸ h)) ?_
    · refine (htasks _ hcaching).imp_right fun heq => ?_
      obtain ⟨hne, heq⟩ := heq
      cases heq
      exact List.mem_append_left _ (hs.cached _ _ (hfrom hne))
    · intro mode servers hnew
      obtain ⟨_, heq⟩ := hout _ hnew
      cases heq
  | stores list hmem hkept hservers hcached htasks hout =>
    refine hs.append hkept (fun servers hcaching => .inl (htasks _ hcaching)) ?_ ?_
    · intro mode servers hstored
      rw [hcached, Function.update_apply] at hstored
      split at hstored
      · rename_i hm
        cases hstored
        exact .inr (hm ▸ hs.caching list hmem)
      · exact .inl hstored
    · intro mode servers hnew
      simp only [hout, List.mem_singleton, Effect.stored.injEq] at hnew
      rw [hnew.1, hnew.2]
      exact hs.caching list hmem

/-- **One step.** A logout drops the list and leaves the stored copies. -/
theorem regional_step {past : List Effect} (hs : Regional s past) (hmode : OneMode s)
    (hidle : SwitchesIdle s e) (hstep : step decode s e = some (t, o)) :
    Regional t (past ++ o) := by
  rcases step_cases hstep with hturn | ⟨mode, rfl, rfl, rfl⟩ | ⟨-, rfl, rfl⟩
  · exact hs.turn hmode hturn
  · rw [List.append_nil]
    refine ⟨fun servers hmem => ?_, hs.cached, hs.stored⟩
    rw [show s.tasks = [] from hidle] at hmem
    cases hmem
  · rw [List.append_nil]
    exact ⟨hs.caching, hs.cached, hs.stored⟩

/-- Once a call for the region has got a list, the list there is was obtained for it. -/
def Latest (mode : Mode) (s : State) (past : List Effect) : Prop :=
  (∃ servers ≠ [], .obtained mode servers ∈ past) →
    s.config.servers ≠ [] ∧ .obtained mode s.config.servers ∈ past

/-- A turn that obtains nothing for the region and leaves the list alone. -/
theorem latest_of_quiet {mode : Mode} {past : List Effect} (hs : Latest mode s past)
    (hservers : t.config.servers = s.config.servers)
    (hquiet : ∀ servers ≠ [], .obtained mode servers ∈ o → False) : Latest mode t (past ++ o) := by
  rintro ⟨servers, hne, hmem⟩
  rw [hservers]
  rcases List.mem_append.1 hmem with hold | hnew
  · exact (hs ⟨servers, hne, hold⟩).imp_right (List.mem_append_left _)
  · exact (hquiet servers hne hnew).elim

/-- Once a list has been obtained, only another one takes its place: no call is left that could
    assign an empty one. -/
theorem Latest.turn {past : List Effect} (hs : Latest s.mode s past) (hmode : OneMode s)
    (hnone : NoneFallsBack s) (hturn : Turn s t o) : Latest s.mode t (past ++ o) := by
  -- only a list that is not empty counts as obtained
  have hempty {mode : Mode} (hout : ∀ effect ∈ o, ∃ mode, effect = .obtained mode [])
      (servers : List VpnServer) (hne : servers ≠ []) (hmem : .obtained mode servers ∈ o) :
      False := by
    obtain ⟨_, heq⟩ := hout _ hmem
    cases heq
    exact hne rfl
  cases hturn with
  | waits hkept hservers hcached htasks hout => exact latest_of_quiet hs hservers (hempty hout)
  | fetches task mode list hmem hrequested hne hkept hservers hcached htasks hout =>
    intro _
    rw [hservers, ← hmode task hmem mode hrequested, hout]
    exact ⟨hne, List.mem_append_right _ List.mem_cons_self⟩
  | concludes task list hmem hfalls hfrom hkept hservers hcached htasks hout =>
    -- nothing has been obtained yet, or there would be a list and no such call
    rintro ⟨servers, hne, hobtained⟩
    rcases List.mem_append.1 hobtained with hold | hnew
    · have hlist := (hs ⟨servers, hne, hold⟩).1
      rw [hnone hlist task hmem] at hfalls
      cases hfalls
    · exact (hempty hout servers hne hnew).elim
  | stores list hmem hkept hservers hcached htasks hout =>
    refine latest_of_quiet hs hservers fun servers hne hnew => ?_
    simp [hout] at hnew

/-- From the change to `mode` on. -/
structure Settled (mode : Mode) (s : State) (past : List Effect) : Prop where
  oneMode : OneMode s
  noneFallsBack : NoneFallsBack s
  mode_eq : s.mode = mode
  latest : Latest mode s past

/-- **One step** after the change to a region, until the next one. -/
theorem settled_step {mode : Mode} {past : List Effect} (hs : Settled mode s past)
    (hidle : SwitchesIdle s e) (hfills : FillsAlone decode s e)
    (hsame : (∀ m, e ≠ .setMode m) ∧ e ≠ .logout)
    (hstep : step decode s e = some (t, o)) : Settled mode t (past ++ o) := by
  rcases step_cases hstep with hturn | ⟨m, rfl, -⟩ | ⟨rfl, -⟩
  · refine ⟨oneMode_step hs.oneMode hidle hstep,
      noneFallsBack_step hs.noneFallsBack hfills hstep, hturn.mode_eq.trans hs.mode_eq, ?_⟩
    have hlatest : Latest s.mode s past := hs.mode_eq ▸ hs.latest
    exact hs.mode_eq ▸ hlatest.turn hs.oneMode hs.noneFallsBack hturn
  · exact absurd rfl (hsame.1 m)
  · exact absurd rfl hsame.2

/-- At the start no call is under way. -/
theorem oneMode_new (mode : Mode) : OneMode (State.new mode) := nofun

/-- At the start nothing is stored. -/
theorem regional_new (mode : Mode) : Regional (State.new mode) [] := ⟨nofun, nofun, nofun⟩

/-- **Lists stay with their region.** Let the region be changed only when no call is under
    way. Then a list is stored only for a region that it was obtained for. If moreover the
    list becomes non-empty only when no other call is waiting for DNS or the stored copy,
    then after the last change, once a call has got a list for that region, the list there
    is was obtained for it since the change. -/
theorem regions_kept (decode : Text → Option (List VpnServer)) (first : Mode) (es : List Event)
    (t : State) (out : List Effect)
    (hidle : Allowed (step decode) SwitchesIdle (State.new first) es)
    (hrun : run (step decode) (State.new first) es = some (t, out)) :
    (∀ mode servers, .stored mode servers ∈ out → .obtained mode servers ∈ out) ∧
    (Allowed (step decode) (FillsAlone decode) (State.new first) es →
      ∀ es₁ mode es₂ s out₁ out₂, es = es₁ ++ .setMode mode :: es₂ →
        run (step decode) (State.new first) es₁ = some (s, out₁) →
        run (step decode) s (.setMode mode :: es₂) = some (t, out₂) →
        (∀ e ∈ es₂, (∀ m, e ≠ .setMode m) ∧ e ≠ .logout) →
        (∃ servers ≠ [], .obtained mode servers ∈ out₂) →
        t.mode = mode ∧ t.config.servers ≠ [] ∧ .obtained mode t.config.servers ∈ out₂) := by
  constructor
  · have hregional : OneMode t ∧ Regional t ([] ++ out) :=
      run_history_of_allowed (I := fun s past => OneMode s ∧ Regional s past)
        (fun _ _ _ _ _ hs hidle hstep => ⟨oneMode_step hs.1 hidle hstep,
          regional_step hs.2 hs.1 hidle hstep⟩)
        [] ⟨oneMode_new first, regional_new first⟩ hidle hrun
    exact hregional.2.stored
  · rintro hfills es₁ mode es₂ s out₁ out₂ rfl hrun₁ hrun₂ hsame hobtained
    obtain ⟨hcareful₁, hcareful₂⟩ := allowed_of_append (allowed_and hidle hfills) hrun₁
    have hs : OneMode s ∧ NoneFallsBack s :=
      run_invariant_of_allowed (I := fun s => OneMode s ∧ NoneFallsBack s)
        (fun _ _ _ _ hs hcareful hstep => ⟨oneMode_step hs.1 hcareful.1 hstep,
          noneFallsBack_step hs.2 hcareful.2 hstep⟩)
        ⟨oneMode_new first, noneFallsBack_new first⟩ hcareful₁ hrun₁
    -- the change itself
    obtain ⟨s', o, os, hchange, hrest, rfl⟩ := run_cons_eq_some.1 hrun₂
    have hone := oneMode_step hs.1 hcareful₂.1.1 hchange
    cases hchange
    have hsettled : Settled mode { s with mode } [] :=
      ⟨hone, hs.2, rfl, fun ⟨_, _, hmem⟩ => by cases hmem⟩
    -- and what follows it
    have hallowed := allowed_and (hcareful₂.2 _ _ rfl)
      (allowed_of_forall (fun e he _ => hsame e he) _)
    have ht : Settled mode t ([] ++ os) :=
      run_history_of_allowed (I := Settled mode)
        (fun _ _ _ _ _ hs hallowed hstep => settled_step hs hallowed.1.1 hallowed.1.2 hallowed.2 hstep)
        [] hsettled hallowed hrest
    exact ⟨ht.mode_eq, ht.latest hobtained⟩

/-- A list is fetched and cached. -/
def fetchAll (body : Text) : List Event :=
  [.call, .respond 0 (some ⟨200, body⟩), .preferences 0 true]

/-- What that shows. -/
def fetched (mode : Mode) (servers : List VpnServer) : List Effect :=
  [.obtained mode servers, .stored mode servers]

/-- The user waits for one region before choosing the other. -/
theorem regions_kept_one_by_one :
    ∃ t, run (step byteServers) (State.new [0]) (fetchAll [1] ++ .setMode [1] :: fetchAll [2]) =
        some (t, fetched [0] [namedServer 1] ++ fetched [1] [namedServer 2]) ∧
      t.mode = [1] ∧ t.config.servers ≠ [] ∧
      .obtained [1] t.config.servers ∈ fetched [1] [namedServer 2] := by
  have hkept := regions_kept byteServers [0] (fetchAll [1] ++ .setMode [1] :: fetchAll [2])
    _ (fetched [0] [namedServer 1] ++ fetched [1] [namedServer 2]) (by decide) rfl
  exact ⟨_, rfl, hkept.2 (by decide) (fetchAll [1]) [1] (fetchAll [2]) _
    (fetched [0] [namedServer 1]) (fetched [1] [namedServer 2]) rfl rfl rfl (by simp [fetchAll])
    ⟨[namedServer 2], nofun, by decide⟩⟩

/-- **A late response crosses regions.** The region is changed during a fetch, and its
    response comes after that of the new region. Nothing is under way any more, the new
    region's fetch has got a list, and the list of the old region is the one in use and
    the one that is stored for the new region. -/
theorem late_response_crosses_regions :
    ∃ t out, run (step byteServers) (State.new [0])
        ([.call] ++ .setMode [1] :: [.call, .respond 1 (some ⟨200, [2]⟩),
          .respond 0 (some ⟨200, [1]⟩), .preferences 0 true, .preferences 0 true]) =
          some (t, out) ∧
      out = [.obtained [1] [namedServer 2], .obtained [0] [namedServer 1],
        .stored [1] [namedServer 2], .stored [1] [namedServer 1]] ∧
      t.tasks = [] ∧ t.mode = [1] ∧ t.config.servers = [namedServer 1] :=
  ⟨_, _, rfl, rfl, rfl, rfl, rfl⟩

end Fogged.Spec.Subscription
