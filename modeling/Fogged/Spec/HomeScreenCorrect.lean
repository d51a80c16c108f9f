import Fogged.ForStd.Machine
import Fogged.Spec.HomeSteps

/-!
# The child processes of the desktop app

Two promises of the connection code. Every child process is known by its field, so that
`_disconnect` reaches it; and what `_disconnect` has ended stays ended. Both break when
continuations overlap: a start assigns its fields without asking whether they refer to a
process that is alive, and the delayed callbacks of a start ask only whether `_connected`
is false, which is what `_disconnect` makes it.

## Key results

- `no_orphans`: runs in which `_startProxy` is called with no start under way and
  neither a proxy nor a shim alive
- `crash_orphans_shim`: the reconnect after a crash starts a second shim
- `stays_disconnected`: a `_disconnect` that begins when nothing is under way
- `fallback_reconnects`: the timer of two seconds outlives the `_disconnect`
-/

namespace Fogged.Spec.HomeScreen

open Fogged.Native.App Fogged.Native.HomeScreen
open Machine

/-- A step with this event has the effect `x`. -/
def Emits (s : State) (e : Event) (x : Effect) : Prop := ∃ t o, step s e = some (t, o) ∧ x ∈ o

/-- All the effects of a step. -/
def effectsOf (s : State) (e : Event) : List Effect := (step s e).elim [] Prod.snd

/-- The list of the effects decides whether a step has one. -/
theorem mem_effectsOf {s : State} {e : Event} {x : Effect} : x ∈ effectsOf s e ↔ Emits s e x := by
  unfold effectsOf Emits
  cases step s e <;> simp [Prod.ext_iff]

instance (s : State) (e : Event) (x : Effect) : Decidable (Emits s e x) :=
  decidable_of_iff _ mem_effectsOf

/-- Only the call itself is seen of `_startProxy`, up to its first `await`. -/
theorem startProxy_effects (s : State) : (startProxy s).2 = [.startCalled] := by
  rw [startProxy]
  split <;> rfl

/-- A start that goes on starts processes and does nothing else that is seen. -/
theorem start_effects (s : State) (reply : Reply) {task : Task} (hstart : isStart task = true) :
    ∀ x ∈ (resume s reply task).2, ∃ kind pid, x = .started kind pid := by
  intro x hx
  cases task with
  | probing endpoint caller =>
    -- a probe finds another server or gives up
    rw [resume] at hx
    split at hx <;> cases hx
  | fetching caller =>
    cases caller with
    | startProxy => cases hx
    | _ => cases hstart
  | starting pc launch =>
    -- each part of a start ends with the next process or before an `await`
    rw [resume] at hx
    cases pc <;> cases reply <;> simp only [resumeStart] at hx <;>
      (try split at hx) <;> simp at hx <;> exact ⟨_, _, hx⟩
  | _ => cases hstart

/-! ## References -/

/-- No process of this kind is alive. -/
def Vacant (s : State) (kind : Kind) : Prop := ∀ pid, ¬ Runs s kind pid

instance (s : State) (kind : Kind) : Decidable (Vacant s kind) :=
  inferInstanceAs (Decidable (∀ pid, Runs s kind pid → False))

/-- Every process that is alive is the one its field refers to. -/
def Owned (s : State) : Prop := ∀ kind pid, Runs s kind pid → s.refs kind = some pid

/-- No process appears, so a kind without one stays so. -/
theorem Frame.vacant {s t : State} (hst : Frame s t) {kind : Kind} (hs : Vacant s kind) :
    Vacant t kind := fun pid ht => hs pid (hst.runs kind pid ht).1

/-- What is left keeps its reference. -/
theorem Frame.owned {s t : State} (hst : Frame s t) (hs : Owned s) : Owned t := by
  intro kind pid ht
  obtain ⟨hruns, hkept⟩ := hst.runs kind pid ht
  exact hkept (hs kind pid hruns)

/-- A field that is empty has lost no process. -/
theorem Owned.vacant {s : State} (hs : Owned s) {kind : Kind} (href : s.refs kind = none) :
    Vacant s kind := by
  intro pid hruns
  have hsome := hs kind pid hruns
  rw [href] at hsome
  cases hsome

/-- `_disconnect` clears the four fields. -/
theorem refs_disconnect (s : State) (after : AfterDisconnect) (kind : Kind) :
    (disconnect s after).1.refs kind = none := by
  let t := { s with connected := false, connecting := false, calls := s.calls + 1 }
  show (((t.stop .proxy).stop .shim).stop .vkTurn).refs kind = none
  cases kind with
  | vkTurn => exact refs_stop_self _ .vkTurn
  | shim =>
    rw [refs_stop_of_ne _ (by decide)]
    exact refs_stop_self _ .shim
  | proxy =>
    rw [refs_stop_of_ne _ (by decide), refs_stop_of_ne _ (by decide)]
    exact refs_stop_self _ .proxy

theorem connected_stop (s : State) (kind : Kind) : (s.stop kind).connected = s.connected := by
  rw [State.stop]
  split <;> rfl

/-- `_disconnect` clears `_connected` at once, before anything is awaited. -/
theorem connected_disconnect (s : State) (after : AfterDisconnect) :
    (disconnect s after).1.connected = false := by
  simp [disconnect, State.wait, connected_stop]

/-- What is promised of the child processes in a state. -/
structure NoOrphans (s : State) : Prop where
  owned : Owned s
  /-- There is at most one of each kind. -/
  single : ∀ kind pid pid', Runs s kind pid → Runs s kind pid' → pid = pid'
  /-- The next `_disconnect` kills them all. -/
  killed : ∀ after kind, Vacant (disconnect s after).1 kind

/-- With every process known by its field, `_disconnect` kills them all. -/
theorem Owned.noOrphans {s : State} (hs : Owned s) : NoOrphans s where
  owned := hs
  single kind pid pid' h h' := Option.some.inj ((hs kind pid h).symm.trans (hs kind pid' h'))
  killed after kind :=
    ((quiet_disconnect s after).toFrame.owned hs).vacant (refs_disconnect s after kind)

/-! ## Starts -/

/-- What runs after a spawn is the new process, or ran before. -/
theorem runs_spawn {s : State} {kind kind' : Kind} {proto : Scheme} {pid : Pid}
    (h : Runs (s.spawn kind proto) kind' pid) :
    Runs s kind' pid ∨ kind' = kind ∧ pid = s.processes.length := by
  obtain ⟨p, hp, hkind, hlive⟩ := h
  simp only [State.spawn, State.setRef] at hp
  by_cases hpid : pid < s.processes.length
  · rw [List.getElem?_append_left hpid] at hp
    exact .inl ⟨p, hp, hkind, hlive⟩
  · rw [List.getElem?_append_right (Nat.le_of_not_lt hpid)] at hp
    rw [List.getElem?_singleton] at hp
    split at hp <;> cases hp
    rename_i hzero
    have hle : pid ≤ s.processes.length := Nat.sub_eq_zero_iff_le.1 hzero
    exact .inr ⟨hkind.symm, Nat.le_antisymm hle (Nat.le_of_not_lt hpid)⟩

/-- A process takes a field whose process is not alive. -/
theorem owned_spawn {s : State} {kind : Kind} (proto : Scheme) (hs : Owned s)
    (hvacant : Vacant s kind) : Owned (s.spawn kind proto) := by
  intro kind' pid hruns
  simp only [State.spawn]
  obtain hbefore | ⟨rfl, rfl⟩ := runs_spawn hruns
  · have hkind : kind' ≠ kind := by
      rintro rfl
      exact hvacant pid hbefore
    rw [refs_setRef_of_ne _ _ hkind]
    exact hs kind' pid hbefore
  · rw [refs_setRef_self]

/-- A spawn fills no other kind. -/
theorem vacant_spawn {s : State} {kind kind' : Kind} (proto : Scheme) (hkind : kind' ≠ kind)
    (hs : Vacant s kind') : Vacant (s.spawn kind proto) kind' := by
  intro pid hruns
  obtain hbefore | ⟨heq, -⟩ := runs_spawn hruns
  · exact hs pid hbefore
  · exact hkind heq

/-- The fields that a start will assign without clearing them first. -/
def needs : Task → List Kind
  | .starting .startProxy _ => [.proxy]
  | .starting .pause _ | .starting .startVkTurn _ => [.vkTurn, .shim, .proxy]
  | _ => [.shim, .proxy]

/-- The invariant: one start at most, and what it needs is vacant. -/
structure Tidy (s : State) : Prop where
  owned : Owned s
  starts : starts s = [] ∨ ∃ task, starts s = [task] ∧ ∀ kind ∈ needs task, Vacant s kind

/-- At the start of the app there are no processes and no starts. -/
theorem tidy_new : Tidy State.new where
  owned kind pid hruns := by
    obtain ⟨p, hp, -⟩ := hruns
    cases hp
  starts := .inl rfl

/-- A step within the frame keeps the app tidy. -/
theorem Tidy.frame {s t : State} (hs : Tidy s) (hst : Frame s t) : Tidy t where
  owned := hst.owned hs.owned
  starts := by
    have hsub := hst.starts
    obtain hnone | ⟨task, hone, hvacant⟩ := hs.starts
    · rw [hnone] at hsub
      exact .inl (List.sublist_nil.1 hsub)
    · rw [hone] at hsub
      obtain hnil | hsame := List.sublist_singleton.1 hsub
      · exact .inl hnil
      · exact .inr ⟨task, hsame, fun kind hkind => hst.vacant (hvacant kind hkind)⟩

/-- No start is under way, and there is room for one. -/
structure Idle (s : State) : Prop where
  owned : Owned s
  starts : starts s = []
  shim : Vacant s .shim
  proxy : Vacant s .proxy

/-- An idle app has room for a start. -/
theorem Idle.needs {s : State} (hs : Idle s) : ∀ kind ∈ [Kind.shim, .proxy], Vacant s kind := by
  intro kind hkind
  simp only [List.mem_cons, List.not_mem_nil, or_false] at hkind
  obtain rfl | rfl := hkind
  · exact hs.shim
  · exact hs.proxy

/-- A step within the frame keeps the app idle. -/
theorem Idle.frame {s t : State} (hs : Idle s) (hst : Frame s t) : Idle t where
  owned := hst.owned hs.owned
  starts := by
    have hsub := hst.starts
    rw [hs.starts] at hsub
    exact List.sublist_nil.1 hsub
  shim := hst.vacant hs.shim
  proxy := hst.vacant hs.proxy

theorem Idle.tidy {s : State} (hs : Idle s) : Tidy s := ⟨hs.owned, .inl hs.starts⟩

/-- The start comes to an `await`. -/
theorem tidy_wait {s : State} (howned : Owned s) (hstarts : starts s = []) {task : Task}
    (htask : isStart task = true) (hneeds : ∀ kind ∈ needs task, Vacant s kind) :
    Tidy (s.wait task) where
  owned := howned
  starts := by
    refine .inr ⟨task, ?_, hneeds⟩
    rw [Spec.HomeScreen.starts] at hstarts ⊢
    simp [State.wait, hstarts, htask]

/-- An idle app begins a start. -/
theorem Idle.wait {s : State} (hs : Idle s) {task : Task} (htask : isStart task = true)
    (hneeds : Spec.HomeScreen.needs task = [.shim, .proxy]) : Tidy (s.wait task) :=
  tidy_wait hs.owned hs.starts htask (hneeds ▸ hs.needs)

theorem frame_giveUp (s : State) : Frame s s.giveUp :=
  frame_flags s s.connected false s.config s.calls

/-- A server has been found; the start goes on with its processes, or it gives up. -/
theorem Idle.launch {s : State} (hs : Idle s) (srv : VpnServer) : Tidy (launch s srv) := by
  rw [Native.HomeScreen.launch]
  split
  · split
    · exact hs.tidy.frame (frame_giveUp s)
    · exact hs.wait rfl rfl
  · exact hs.wait rfl rfl

/-- `_startProxy` in an idle app: it probes, fetches a list or launches at once. -/
theorem Idle.startProxy {s : State} (hs : Idle s) : Tidy (startProxy s).1 := by
  rw [Native.HomeScreen.startProxy]
  split
  · exact hs.wait rfl rfl
  · exact hs.launch _

/-- After the fetch of a list the start tries again. -/
theorem Idle.retryStart {s : State} (hs : Idle s) : Tidy (retryStart s) := by
  rw [Native.HomeScreen.retryStart]
  split
  · exact hs.tidy.frame (frame_giveUp s)
  · exact hs.launch _

/-- The start has all it needs for the proxy itself. -/
theorem Idle.waitProxy {s : State} (hs : Idle s) (launch : Launch) :
    Tidy (s.wait (.starting .startProxy launch)) := by
  refine tidy_wait hs.owned hs.starts rfl fun kind hkind => ?_
  cases List.mem_singleton.1 hkind
  exact hs.proxy

/-- The start is about to start vk-turn-client. -/
theorem Idle.waitVkTurn {s : State} (hs : Idle s) (hvkTurn : Vacant s .vkTurn) {pc : StartPc}
    (hpc : pc = .pause ∨ pc = .startVkTurn) (launch : Launch) :
    Tidy (s.wait (.starting pc launch)) := by
  have hall : ∀ kind ∈ [Kind.vkTurn, .shim, .proxy], Vacant s kind :=
    List.forall_mem_cons.2 ⟨hvkTurn, hs.needs⟩
  obtain rfl | rfl := hpc
  · exact tidy_wait hs.owned hs.starts rfl hall
  · exact tidy_wait hs.owned hs.starts rfl hall

/-- The tunnel through a call has a field of its own. -/
theorem Idle.spawnVkTurn {s : State} (hs : Idle s) (proto : Scheme)
    (hvkTurn : Vacant s .vkTurn) : Idle (s.spawn .vkTurn proto) where
  owned := owned_spawn proto hs.owned hvkTurn
  starts := hs.starts
  shim := vacant_spawn proto (by decide) hs.shim
  proxy := vacant_spawn proto (by decide) hs.proxy

/-- `_startProxy` goes on while neither a shim nor a proxy is alive. -/
theorem Idle.resumeStart {s : State} (hs : Idle s) (reply : Reply) (launch : Launch) {pc : StartPc}
    (hpc : pc ≠ .startProxy)
    (hvkTurn : pc = .pause ∨ pc = .startVkTurn → Vacant s .vkTurn) :
    Tidy (resumeStart s reply launch pc).1 := by
  have hgiveUp : Tidy s.giveUp := hs.tidy.frame (frame_giveUp s)
  have hstop := hs.frame (quiet_stop s .vkTurn).toFrame
  cases pc with
  | findVkTurn =>
    cases reply with
    | ok =>
      rw [Native.HomeScreen.resumeStart]
      -- a previous vk-turn-client is killed first, the one kind where the source looks
      split
      · exact hstop.waitVkTurn (hstop.owned.vacant (refs_stop_self s .vkTurn)) (.inl rfl) launch
      · rename_i hnone
        exact hs.waitVkTurn (hs.owned.vacant hnone) (.inr rfl) launch
    | no | throws => exact hgiveUp
  | pause => exact hs.waitVkTurn (hvkTurn (.inl rfl)) (.inr rfl) launch
  | startVkTurn =>
    cases reply with
    | ok => exact (hs.spawnVkTurn _ (hvkTurn (.inr rfl))).wait rfl rfl
    | no | throws => exact hgiveUp
  | awaitVkTurn =>
    cases reply with
    | ok => exact hs.wait rfl rfl
    | no | throws =>
      -- it did not come up: it is killed, and the start ends
      exact hstop.tidy.frame (frame_giveUp _)
  | findBinary =>
    cases reply with
    | ok =>
      rw [Native.HomeScreen.resumeStart]
      split
      · exact hs.waitProxy launch
      · exact hs.wait rfl rfl
      · exact hs.wait rfl rfl
    | no | throws => exact hgiveUp
  | writeConfig =>
    cases reply with
    | ok =>
      rw [Native.HomeScreen.resumeStart]
      split
      · exact hs.wait rfl rfl
      · exact hs.waitProxy launch
    | no | throws => exact hgiveUp
  | findShim =>
    cases reply with
    | ok => exact hs.wait rfl rfl
    -- without a shim the proxy is started all the same
    | no => exact hs.waitProxy launch
    | throws => exact hgiveUp
  | startShim =>
    cases reply with
    | ok =>
      refine tidy_wait (owned_spawn _ hs.owned hs.shim) hs.starts rfl fun kind hkind => ?_
      cases List.mem_singleton.1 hkind
      exact vacant_spawn _ (by decide) hs.proxy
    | no | throws => exact hgiveUp
  | startProxy => exact absurd rfl hpc

/-- The last step of a start. -/
theorem tidy_proxy {s : State} (howned : Owned s) (hstarts : starts s = [])
    (hproxy : Vacant s .proxy) (reply : Reply) (launch : Launch) :
    Tidy (resumeStart s reply launch .startProxy).1 := by
  cases reply with
  | ok =>
    have hspawn : Tidy (s.spawn .proxy launch.srv.protocol) :=
      ⟨owned_spawn _ howned hproxy, .inl hstarts⟩
    rw [resumeStart]
    split
    · exact hspawn
    · exact hspawn.frame (frame_wait _ rfl)
    · exact hspawn.frame (frame_wait _ rfl)
  | no | throws => exact (Tidy.mk howned (.inl hstarts)).frame (frame_giveUp s)

/-- The start that runs is the only one. -/
theorem Tidy.erase {s : State} (hs : Tidy s) {i : Nat} {task : Task}
    (htask : s.tasks[i]? = some task) (hstart : isStart task = true) :
    Spec.HomeScreen.starts { s with tasks := s.tasks.eraseIdx i } = [] ∧
      ∀ kind ∈ needs task, Vacant s kind := by
  obtain ⟨hi, rfl⟩ := List.getElem?_eq_some_iff.1 htask
  have hperm := (List.getElem_cons_eraseIdx_perm hi).filter isStart
  rw [List.filter_cons_of_pos hstart] at hperm
  obtain hnone | ⟨task, hone, hvacant⟩ := hs.starts
  · rw [show s.tasks.filter isStart = [] from hnone] at hperm
    exact absurd hperm.length_eq (by simp)
  · rw [show s.tasks.filter isStart = [task] from hone] at hperm
    obtain ⟨heq, hrest⟩ := List.cons.inj (List.perm_singleton.1 hperm)
    exact ⟨hrest, heq ▸ hvacant⟩

/-- **One step of a start.** What it spawns goes into a field that was vacant, and it needs
    less than before. -/
theorem Tidy.start {s : State} (hs : Tidy s) {i : Nat} {task : Task} (reply : Reply)
    (htask : s.tasks[i]? = some task) (hstart : isStart task = true) :
    Tidy (resume { s with tasks := s.tasks.eraseIdx i } reply task).1 := by
  obtain ⟨hstarts, hneeds⟩ := hs.erase htask hstart
  have howned := (quiet_erase s i).toFrame.owned hs.owned
  -- at every `await` but the last, neither a shim nor a proxy is alive
  have hidle (hshim : .shim ∈ needs task) (hproxy : .proxy ∈ needs task) :
      Idle { s with tasks := s.tasks.eraseIdx i } :=
    ⟨howned, hstarts, hneeds _ hshim, hneeds _ hproxy⟩
  cases task with
  | probing endpoint caller =>
    cases caller with
    | startProxy =>
      have hidle := hidle (by simp [needs]) (by simp [needs])
      have hload := hidle.frame (frame_wait _ (show isStart .loadingAuth = false from rfl))
      rw [resume]
      split
      · exact hidle.wait rfl rfl
      · rw [probed]
        split
        · exact hload.wait rfl rfl
        · exact hload.retryStart
    | _ => cases hstart
  | fetching caller =>
    cases caller with
    | startProxy => exact (hidle (by simp [needs]) (by simp [needs])).retryStart
    | _ => cases hstart
  | starting pc launch =>
    by_cases hpc : pc = .startProxy
    · -- the last `await`: the shim may be alive, and no proxy is
      subst hpc
      exact tidy_proxy howned hstarts (hneeds .proxy (by simp [needs])) reply launch
    · refine (hidle ?_ ?_).resumeStart reply launch hpc fun hvkTurn => hneeds .vkTurn ?_
      · cases pc <;> simp_all [needs]
      · cases pc <;> simp_all [needs]
      · obtain rfl | rfl := hvkTurn <;> simp [needs]
  | _ => cases hstart

/-! ## No orphans -/

/-- `_startProxy` is called only when no start is under way and neither a shim nor a
    proxy is alive. -/
def StartsFresh (s : State) (e : Event) : Prop :=
  Emits s e .startCalled →
    (∀ task ∈ s.tasks, isStart task = false) ∧ Vacant s .shim ∧ Vacant s .proxy

instance (s : State) (e : Event) : Decidable (StartsFresh s e) :=
  inferInstanceAs (Decidable (_ → _ ∧ _ ∧ _))

/-- **One step.** A call of `_startProxy` comes when the app is idle; a start that is under way
    goes on; the rest stays within the frame. -/
theorem tidy_step {s t : State} {e : Event} {o : List Effect} (hs : Tidy s)
    (hfresh : StartsFresh s e) (hstep : step s e = some (t, o)) : Tidy t := by
  cases step_cases hstep with
  | quiet hquiet _ => exact hs.frame hquiet.toFrame
  | disconnect hquiet => exact hs.frame (hquiet.trans (quiet_disconnect _ _)).toFrame
  | connect _ hframe _ => exact hs.frame hframe
  | @call u o hquiet _ =>
    have hcalled : Effect.startCalled ∈ o ++ (startProxy u).2 := by
      simp [startProxy_effects]
    obtain ⟨hnone, hshim, hproxy⟩ := hfresh ⟨_, _, hstep, hcalled⟩
    have hstarts : starts s = [] := List.filter_eq_nil_iff.2 (by simpa using hnone)
    exact ((Idle.mk hs.owned hstarts hshim hproxy).frame hquiet.toFrame).startProxy
  | start htask hstart => exact hs.start _ htask hstart

/-- **No orphans.** In a run in which `_startProxy` is called only when no start is under
    way and neither a shim nor a proxy is alive, every child process is the one its field
    refers to. -/
theorem no_orphans (es : List Event) (s : State) (out : List Effect)
    (hfresh : Allowed step StartsFresh State.new es)
    (hrun : run step State.new es = some (s, out)) : NoOrphans s :=
  (run_invariant_of_allowed (fun _ _ _ _ hs hfresh hstep => tidy_step hs hfresh hstep) tidy_new
    hfresh hrun).owned.noOrphans

/-- The app starts and gets a list with one server; the user connects to it. -/
def connect (domainBypass : Bool) : List Event :=
  [.resume 0 .ok,
    .configure { Config.initial with
      servers := [⟨.vless, [1], [], []⟩], loggedIn := true, domainBypass },
    .resume 0 .no, .toggle]

/-- The start goes through, with a shim; the proxy reports itself on stderr. -/
def connected : List Event :=
  connect true ++ List.replicate 5 (.resume 0 .ok) ++
    ([.ready 1 true, .switch 1, .resume 1 .ok, .resume 0 .ok] : List Event)

/-- `_disconnect` from its sweep on, and the `exitCode` handler of the proxy. -/
def disconnected : List Event :=
  [.resume 0 .ok, .switch 0, .resume 0 .ok, .resume 0 .ok, .exitCode 1, .switch 0, .resume 0 .ok]

/-- The user connects, disconnects and connects again. -/
def again : List Event :=
  connected ++ .toggle :: disconnected ++ .toggle :: List.replicate 5 (.resume 0 .ok)

/-- The second start finds the processes of the first one dead. -/
theorem no_orphans_again :
    ∃ s out, run step State.new again = some (s, out) ∧ s.refs .proxy = some 3 ∧ NoOrphans s := by
  have hfacts : (run step State.new again).map (fun r => r.1.refs .proxy) = some (some 3) := by
    decide +kernel
  obtain ⟨⟨s, out⟩, hrun, href⟩ := Option.map_eq_some_iff.1 hfacts
  exact ⟨s, out, hrun, href, no_orphans _ s out (by decide +kernel) hrun⟩

/-- The proxy dies while the app is connected, and the app reconnects. -/
def crash : List Event :=
  connected ++ ([.exit 1, .exitCode 1, .switch 0] : List Event) ++ List.replicate 6 (.resume 0 .ok)

/-- **A crash leaves an orphan.** The reconnect starts a second shim over the first one. -/
theorem crash_orphans_shim :
    ∃ s out, run step State.new crash = some (s, out) ∧ ¬ NoOrphans s := by
  have hfacts : (run step State.new crash).map (fun r => (r.1.processes[0]?, r.1.refs .shim)) =
      some (some ⟨.shim, .vless, true, false⟩, some 2) := by
    decide +kernel
  obtain ⟨⟨s, out⟩, hrun, hfacts⟩ := Option.map_eq_some_iff.1 hfacts
  obtain ⟨hshim, href⟩ := Prod.mk.inj hfacts
  refine ⟨s, out, hrun, fun hs => ?_⟩
  have hfirst := hs.owned .shim 0 ⟨_, hshim, rfl, rfl⟩
  rw [href] at hfirst
  cases hfirst

/-! ## After a disconnect -/

/-- Nothing is under way that could connect, and `_proxyProcess` refers to every proxy
    that is alive. -/
def Settled (s : State) : Prop :=
  (∀ task ∈ s.tasks, harmless task = true) ∧ ∀ pid, Runs s .proxy pid → s.refs .proxy = some pid

instance (s : State) : Decidable (Settled s) := inferInstanceAs (Decidable (_ ∧ _))

/-- `_disconnect` begins in settled states only, and no listener gets a line of a proxy
    that is dead. -/
def Calm (s : State) (e : Event) : Prop :=
  (∀ call, Emits s e (.disconnecting call) → Settled s) ∧
    ∀ pid stderr, e = .ready pid stderr → Runs s .proxy pid

instance : (x : Effect) → Decidable (∃ call, x = .disconnecting call)
  | .disconnecting call => .isTrue ⟨call, rfl⟩
  | .startCalled | .started _ _ | .switched _ | .disconnected _ => .isFalse (by simp)

instance decidableReady (P : Pid → Prop) [DecidablePred P] :
    (e : Event) → Decidable (∀ pid stderr, e = .ready pid stderr → P pid)
  | .ready pid stderr => decidable_of_iff (P pid)
      ⟨fun h _ _ heq => by cases heq; exact h, fun h => h pid stderr rfl⟩
  | .resume _ _ | .switch _ | .sweep _ _ | .exit _ | .exitCode _ | .error _ | .toggle
  | .selectRegion | .selectProtocol _ | .selectServer _ | .setDomainBypass _ | .setSplitDomains _
  | .refresh | .pickLang | .logout | .configure _ => .isTrue (by simp)

instance (s : State) (e : Event) : Decidable (Calm s e) :=
  decidable_of_iff (((∃ x ∈ effectsOf s e, ∃ call, x = .disconnecting call) → Settled s) ∧
      ∀ pid stderr, e = .ready pid stderr → Runs s .proxy pid)
    (and_congr_left' ⟨fun h call hemits => h ⟨_, mem_effectsOf.2 hemits, call, rfl⟩, by
      rintro h ⟨x, hx, call, rfl⟩
      exact h call (mem_effectsOf.1 hx)⟩)

/-- From state `t` on: once call `call` of `_disconnect` has run to completion, and as
    long as `_startProxy` is not called, the app is not connected, the system proxy is not
    switched on, and no proxy runs or is started. -/
def StaysDisconnected (allowed : State → Event → Prop) (t : State) (call : Nat) : Prop :=
  ∀ es es' u v out out', Allowed step allowed t es → run step t es = some (u, out) →
    .disconnected call ∈ out → Allowed step allowed u es' → run step u es' = some (v, out') →
    .startCalled ∉ out ++ out' →
      v.connected = false ∧ Vacant v .proxy ∧ .switched true ∉ out' ∧
        ∀ pid, .started .proxy pid ∉ out'

/-- The invariant. -/
structure Down (s : State) : Prop where
  connected : s.connected = false
  tasks : ∀ task ∈ s.tasks, harmless task = true
  proxy : Vacant s .proxy

/-- A quiet step leaves the app down. -/
theorem Down.quiet {s t : State} (hs : Down s) (hst : Quiet s t) : Down t where
  connected := by
    cases ht : t.connected with
    | false => rfl
    | true => exact absurd (hst.connected ht) (by simp [hs.connected])
  tasks := hst.harmless hs.tasks
  proxy := hst.toFrame.vacant hs.proxy

/-- A `_disconnect` that begins in a settled state. -/
theorem Settled.down {s t : State} (hs : Settled s) (hst : Quiet s t) (after : AfterDisconnect) :
    Down (disconnect t after).1 := by
  have hquiet := hst.trans (quiet_disconnect t after)
  refine ⟨connected_disconnect t after, hquiet.harmless hs.1, fun pid hruns => ?_⟩
  -- a proxy that survives is still referred to, and `_disconnect` has cleared the reference
  obtain ⟨hbefore, hkept⟩ := hquiet.runs .proxy pid hruns
  have href := hkept (hs.2 pid hbefore)
  rw [refs_disconnect] at href
  cases href

/-- A `_disconnect` that begins in a calm run leaves the app down. -/
theorem down_of_disconnecting {s t : State} {e : Event} {o : List Effect} {call : Nat}
    (hcalm : Calm s e) (hstep : step s e = some (t, o)) (hbegins : .disconnecting call ∈ o) :
    Down t := by
  have hsettled := hcalm.1 call ⟨t, o, hstep, hbegins⟩
  cases step_cases hstep with
  | disconnect hquiet => exact hsettled.down hquiet _
  -- the other kinds of steps do not begin one
  | quiet _ ho => obtain heq | ⟨_, heq⟩ := ho _ hbegins <;> cases heq
  | @call u o _ ho =>
    rw [startProxy_effects] at hbegins
    obtain hmem | hmem := List.mem_append.1 hbegins
    · obtain ⟨_, heq⟩ := ho _ hmem
      cases heq
    · cases List.mem_singleton.1 hmem
  | start htask hstart =>
    obtain ⟨_, _, heq⟩ := start_effects _ _ hstart _ hbegins
    cases heq
  | connect _ _ ho => cases ho _ hbegins

/-- **One step.** Without a call of `_startProxy` the app stays down. -/
theorem down_step {s t : State} {e : Event} {o : List Effect} (hs : Down s) (hcalm : Calm s e)
    (hstep : step s e = some (t, o)) (hnone : .startCalled ∉ o) :
    Down t ∧ .switched true ∉ o ∧ ∀ pid, .started .proxy pid ∉ o := by
  cases step_cases hstep with
  | quiet hquiet ho =>
    refine ⟨hs.quiet hquiet, fun hmem => ?_, fun pid hmem => ?_⟩
    · obtain heq | ⟨_, heq⟩ := ho _ hmem <;> cases heq
    · obtain heq | ⟨_, heq⟩ := ho _ hmem <;> cases heq
  | disconnect hquiet =>
    exact ⟨hs.quiet (hquiet.trans (quiet_disconnect _ _)), by simp [disconnect],
      by simp [disconnect]⟩
  | call _ _ => exact absurd (by simp [startProxy_effects]) hnone
  | start htask hstart =>
    -- while the app is down no task goes on with a start
    have hharmless := hs.tasks _ (List.mem_of_getElem? htask)
    simp [harmless, hstart] at hharmless
  | connect hcause _ _ =>
    obtain ⟨task, htask, hconnects⟩ | ⟨pid, stderr, p, he, -, -⟩ := hcause
    · have hharmless := hs.tasks task htask
      simp [harmless, hconnects] at hharmless
    · -- a ready line needs a proxy that runs
      exact absurd (hcalm.2 pid stderr he) (hs.proxy pid)

/-- A run without a call of `_startProxy`. -/
theorem down_run {s t : State} {es : List Event} {out : List Effect} (hs : Down s)
    (hcalm : Allowed step Calm s es) (hrun : run step s es = some (t, out))
    (hnone : .startCalled ∉ out) :
    Down t ∧ .switched true ∉ out ∧ ∀ pid, .started .proxy pid ∉ out := by
  -- the invariant speaks of histories without such a call
  have hhistory := run_history_of_allowed (I := fun s past => .startCalled ∉ past →
    Down s ∧ .switched true ∉ past ∧ ∀ pid, .started .proxy pid ∉ past)
    (fun s past e t o hs hcalm hstep hnone => ?_) [] (fun _ => ⟨hs, by simp, by simp⟩) hcalm hrun
  · exact hhistory hnone
  · rw [List.mem_append, not_or] at hnone
    obtain ⟨hs, hswitched, hstarted⟩ := hs hnone.1
    obtain ⟨ht, hswitched', hstarted'⟩ := down_step hs hcalm hstep hnone.2
    simp only [List.mem_append, not_or]
    exact ⟨ht, ⟨hswitched, hswitched'⟩, fun pid => ⟨hstarted pid, hstarted' pid⟩⟩

/-- **A disconnected app stays disconnected**, if its `_disconnect` began when nothing
    was under way that could connect and `_proxyProcess` referred to every proxy that was
    alive, and if afterwards no listener gets a line of a proxy that is dead. -/
theorem stays_disconnected (s t : State) (e : Event) (o : List Effect) (call : Nat)
    (hcalm : Calm s e) (hstep : step s e = some (t, o)) (hbegins : .disconnecting call ∈ o) :
    StaysDisconnected Calm t call := by
  intro es es' u v out out' hes hrun _ hes' hrun' hnone
  have ht := down_of_disconnecting hcalm hstep hbegins
  obtain ⟨hu, -, -⟩ := down_run ht hes hrun fun hmem => hnone (List.mem_append_left _ hmem)
  obtain ⟨hv, hswitched, hstarted⟩ :=
    down_run hu hes' hrun' fun hmem => hnone (List.mem_append_right _ hmem)
  exact ⟨hv.connected, hv.proxy, hswitched, hstarted⟩

/-- The user disconnects when all timers of the start have run. -/
theorem stays_disconnected_toggle :
    ∃ s t u out o out', run step State.new connected = some (s, out) ∧ s.connected = true ∧
      step s .toggle = some (t, o) ∧ run step t disconnected = some (u, out') ∧
      .disconnected 0 ∈ out' ∧ u.connected = false ∧ Vacant u .proxy := by
  -- the user taps while connected, and the call runs to its end
  have hfacts : (run step State.new connected).any (fun r =>
      r.1.connected && decide (Calm r.1 .toggle) &&
        (step r.1 .toggle).any fun r => decide (r.2 = [.disconnecting 0]) &&
          decide (Allowed step Calm r.1 disconnected) && (run step r.1 disconnected).any fun r =>
            decide (r.2 = [.switched false, .disconnected 0, .switched false])) = true := by
    decide +kernel
  simp only [Option.any_eq_true, Bool.and_eq_true, decide_eq_true_eq] at hfacts
  obtain ⟨⟨s, out⟩, hrun, ⟨hconnected, hcalm⟩, ⟨t, o⟩, hstep, ⟨rfl, hallowed⟩, ⟨u, out'⟩, hrun',
    rfl⟩ := hfacts
  have hdone := stays_disconnected s t .toggle _ 0 hcalm hstep (by simp) disconnected [] u u _ []
    hallowed hrun' (by simp) trivial rfl (by simp)
  exact ⟨s, t, u, out, _, _, hrun, hconnected, hstep, hrun', by simp, hdone.1, hdone.2.1⟩

/-- **The fallback outlives the `_disconnect`.** The user cancels a connect before the
    two seconds are over; then the timer switches the system proxy on and reports a
    connection. -/
theorem fallback_reconnects :
    ∃ s t out o, run step State.new (connect false ++ List.replicate 3 (.resume 0 .ok)) =
        some (s, out) ∧ step s .toggle = some (t, o) ∧
      .disconnecting 0 ∈ o ∧ ¬ StaysDisconnected (fun _ _ => True) t 0 := by
  -- the timer is the first of the tasks after the cancelled connect, `_disconnect` the second
  have hfacts : (run step State.new (connect false ++ List.replicate 3 (.resume 0 .ok))).any
      (fun r => (step r.1 .toggle).any fun r =>
        decide (r.2 = [.disconnecting 0]) &&
          (run step r.1 [.resume 1 .ok, .switch 1, .resume 1 .ok, .resume 1 .ok]).any fun r =>
            decide (r.2 = [.switched false, .disconnected 0]) &&
              (run step r.1 [.resume 0 .ok, .switch 0, .resume 0 .ok]).any fun r =>
                r.1.connected && decide (r.2 = [.switched true])) = true := by
    decide +kernel
  simp only [Option.any_eq_true, Bool.and_eq_true, decide_eq_true_eq] at hfacts
  obtain ⟨⟨s, out⟩, hrun, ⟨t, o⟩, hstep, rfl, ⟨u, out'⟩, hrun', rfl, ⟨v, out''⟩, hrun'', hconnected,
    rfl⟩ := hfacts
  refine ⟨s, t, out, _, hrun, hstep, by simp, fun hstays => ?_⟩
  have hfalse := (hstays _ _ u v _ _ (allowed_of_forall (fun _ _ _ => trivial) t) hrun' (by simp)
    (allowed_of_forall (fun _ _ _ => trivial) u) hrun'' (by simp)).1
  exact absurd (hfalse.symm.trans hconnected) (by simp)

end Fogged.Spec.HomeScreen
