import Mathlib.Tactic
import Fogged.Native.HomeScreen

/-!
# What a turn of the event loop does

Most continuations neither start a process nor connect: they kill processes through
their references, clear what they have killed, and wait for something harmless. `Quiet`
says so. `Step` lists the others: `_disconnect` and `_startProxy` are called, a start
that is under way goes on, or something connects.

## Key results

- `quiet_stop`: killing a process and clearing its field
- `step_cases`: the list is complete
-/

namespace Fogged.Spec.HomeScreen

open Fogged.Native.HomeScreen

/-! ## Processes and tasks -/

/-- Process `pid` is alive and of the given kind. -/
def Runs (s : State) (kind : Kind) (pid : Pid) : Prop :=
  ∃ p, s.processes[pid]? = some p ∧ p.kind = kind ∧ p.live = true

instance (s : State) (kind : Kind) (pid : Pid) : Decidable (Runs s kind pid) :=
  decidable_of_iff (∃ p ∈ s.processes[pid]?, p.kind = kind ∧ p.live = true) (by simp [Runs])

theorem Runs.lt_length {s : State} {kind : Kind} {pid : Pid} (h : Runs s kind pid) :
    pid < s.processes.length := by
  obtain ⟨p, hp, -⟩ := h
  exact (List.getElem?_eq_some_iff.1 hp).1

/-- What holds of all the processes that are alive can be decided. -/
instance decidableRuns (s : State) (kind : Kind) (P : Pid → Prop) [DecidablePred P] :
    Decidable (∀ pid, Runs s kind pid → P pid) :=
  decidable_of_iff (∀ pid < s.processes.length, Runs s kind pid → P pid)
    ⟨fun h pid hruns => h pid hruns.lt_length hruns, fun h pid _ => h pid⟩

/-- A continuation of `_startProxy`. -/
def isStart : Task → Bool
  | .probing _ .startProxy | .fetching .startProxy | .starting _ _ => true
  | _ => false

/-- A continuation that may switch the system proxy on, or set `_connected`. -/
def connects : Task → Bool
  | .lineDelay | .fallback | .routing (some true) _ | .routing _ .onConnected => true
  | _ => false

def harmless (task : Task) : Bool := !isStart task && !connects task

/-- The starts that are under way. -/
def starts (s : State) : List Task := s.tasks.filter isStart

/-! ## Quiet steps -/

/-- No process and no start appears, and a process that is left keeps its reference. -/
structure Frame (s t : State) : Prop where
  runs : ∀ kind pid, Runs t kind pid →
    Runs s kind pid ∧ (s.refs kind = some pid → t.refs kind = some pid)
  starts : (starts t).Sublist (starts s)

/-- Nor does anything appear that connects. -/
structure Quiet (s t : State) : Prop extends Frame s t where
  connected : t.connected = true → s.connected = true
  tasks : ∀ task ∈ t.tasks, task ∈ s.tasks ∨ harmless task = true

/-- Frames compose. -/
theorem Frame.trans {s t u : State} (hst : Frame s t) (htu : Frame t u) : Frame s u where
  runs kind pid hu := by
    obtain ⟨ht, hkept⟩ := htu.runs kind pid hu
    obtain ⟨hs, hkept'⟩ := hst.runs kind pid ht
    exact ⟨hs, fun href => hkept (hkept' href)⟩
  starts := htu.starts.trans hst.starts

/-- Quiet steps compose. -/
theorem Quiet.trans {s t u : State} (hst : Quiet s t) (htu : Quiet t u) : Quiet s u where
  toFrame := hst.toFrame.trans htu.toFrame
  connected hu := hst.connected (htu.connected hu)
  tasks task htask := by
    obtain ht | hharmless := htu.tasks task htask
    · exact hst.tasks task ht
    · exact .inr hharmless

/-- Where all waiting tasks are harmless, they remain so. -/
theorem Quiet.harmless {s t : State} (hst : Quiet s t)
    (hs : ∀ task ∈ s.tasks, harmless task = true) : ∀ task ∈ t.tasks, harmless task = true := by
  intro task htask
  obtain hbefore | hharmless := hst.tasks task htask
  · exact hs task hbefore
  · exact hharmless

/-- Only flags and settings change. -/
theorem frame_flags (s : State) (connected connecting : Bool) (config : Config) (calls : Nat) :
    Frame s { s with connected, connecting, config, calls } :=
  ⟨fun _ _ h => ⟨h, id⟩, .refl _⟩

/-- Flags, configuration and counter, as long as the app does not become connected. -/
theorem quiet_flags (s : State) {connected : Bool} (connecting : Bool) (config : Config)
    (calls : Nat) (hconnected : connected = true → s.connected = true) :
    Quiet s { s with connected, connecting, config, calls } where
  toFrame := frame_flags s connected connecting config calls
  connected := hconnected
  tasks _ := .inl

theorem quiet_down (s : State) (connecting : Bool) (calls : Nat) :
    Quiet s { s with connected := false, connecting, calls } :=
  quiet_flags s connecting s.config calls Bool.noConfusion

theorem Quiet.refl (s : State) : Quiet s s := quiet_flags s s.connecting s.config s.calls id

/-- A continuation is taken out to be run. -/
theorem quiet_erase (s : State) (i : Nat) : Quiet s { s with tasks := s.tasks.eraseIdx i } where
  runs _ _ h := ⟨h, id⟩
  starts := (List.eraseIdx_sublist s.tasks i).filter isStart
  connected := id
  tasks _ htask := .inl ((List.eraseIdx_sublist s.tasks i).subset htask)

/-- A task that is no start is not one of the starts. -/
theorem starts_wait (s : State) {task : Task} (htask : isStart task = false) :
    starts (s.wait task) = starts s := by
  simp [starts, State.wait, htask]

/-- Waiting for anything but a start. -/
theorem frame_wait (s : State) {task : Task} (htask : isStart task = false) :
    Frame s (s.wait task) := by
  refine ⟨fun _ _ h => ⟨h, id⟩, ?_⟩
  rw [starts_wait s htask]

/-- Waiting for something harmless. -/
theorem quiet_wait (s : State) {task : Task} (htask : harmless task = true) :
    Quiet s (s.wait task) where
  toFrame := frame_wait s (by simp_all [harmless])
  connected := id
  tasks task' hmem := by
    obtain hs | hnew := List.mem_append.1 hmem
    · exact .inl hs
    · cases List.mem_singleton.1 hnew
      exact .inr htask

/-- A change of one process that does not bring it to life. -/
theorem runs_modify {s : State} {pid pid' : Pid} {kind : Kind} {f : Proc → Proc}
    (hkind : ∀ p, (f p).kind = p.kind) (hlive : ∀ p, (f p).live = true → p.live = true)
    (h : Runs { s with processes := s.processes.modify pid f } kind pid') : Runs s kind pid' := by
  obtain ⟨p, hp, hk, hl⟩ := h
  simp only [List.getElem?_modify] at hp
  obtain ⟨q, hq, heq⟩ := Option.map_eq_some_iff.1 hp
  split at heq
  · subst heq
    exact ⟨q, hq, (hkind q).symm.trans hk, hlive q hl⟩
  · subst heq
    exact ⟨q, hq, hk, hl⟩

/-- What runs after a kill ran before and is another process. -/
theorem runs_kill {s : State} {pid pid' : Pid} {kind : Kind} (h : Runs (s.kill pid) kind pid') :
    pid ≠ pid' ∧ Runs s kind pid' := by
  refine ⟨?_, runs_modify (f := fun p => { p with live := false }) (fun _ => rfl)
    (fun _ => Bool.noConfusion) h⟩
  rintro rfl
  obtain ⟨p, hp, -, hlive⟩ := h
  simp only [State.kill, List.getElem?_modify] at hp
  obtain ⟨q, -, rfl⟩ := Option.map_eq_some_iff.1 hp
  simp at hlive

/-- A kill keeps every field, also the one that refers to the process. -/
theorem quiet_kill (s : State) (pid : Pid) : Quiet s (s.kill pid) where
  runs _ _ h := ⟨(runs_kill h).2, id⟩
  starts := .refl _
  connected := id
  tasks _ := .inl

/-- The `exitCode` handler of a process runs only once. -/
theorem quiet_unwatch (s : State) (pid : Pid) :
    Quiet s { s with processes := s.processes.modify pid fun p => { p with watched := false } } where
  runs _ _ h := ⟨runs_modify (f := fun p => { p with watched := false }) (fun _ => rfl)
    (fun _ => id) h, id⟩
  starts := .refl _
  connected := id
  tasks _ := .inl

@[simp]
theorem refs_setRef_self (s : State) (kind : Kind) (ref : Option Pid) :
    (s.setRef kind ref).refs kind = ref := by
  simp [State.setRef]

theorem refs_setRef_of_ne (s : State) {kind kind' : Kind} (ref : Option Pid) (h : kind' ≠ kind) :
    (s.setRef kind ref).refs kind' = s.refs kind' := by
  simp [State.setRef, h]

/-- **A process is killed through its reference, and the reference is cleared.** -/
theorem quiet_stop (s : State) (kind : Kind) : Quiet s (s.stop kind) := by
  rw [State.stop]
  split
  · rename_i pid href
    refine ⟨⟨fun kind' pid' h => ?_, .refl _⟩, id, fun _ => .inl⟩
    obtain ⟨hpid, hs⟩ := runs_kill h
    refine ⟨hs, fun href' => ?_⟩
    by_cases hkind : kind' = kind
    · -- the process that the field referred to is dead
      subst hkind
      rw [href'] at href
      exact absurd (Option.some.inj href).symm hpid
    · rw [refs_setRef_of_ne _ _ hkind]
      exact href'
  · rename_i href
    refine ⟨⟨fun kind' pid' h => ⟨h, fun href' => ?_⟩, .refl _⟩, id, fun _ => .inl⟩
    by_cases hkind : kind' = kind
    · subst hkind
      rw [href] at href'
      cases href'
    · rw [refs_setRef_of_ne _ _ hkind]
      exact href'

/-- `stop` clears the field of the process. -/
theorem refs_stop_self (s : State) (kind : Kind) : (s.stop kind).refs kind = none := by
  rw [State.stop]
  split <;> exact refs_setRef_self _ kind none

/-- The other fields keep their processes. -/
theorem refs_stop_of_ne (s : State) {kind kind' : Kind} (h : kind' ≠ kind) :
    (s.stop kind).refs kind' = s.refs kind' := by
  rw [State.stop]
  split <;> exact refs_setRef_of_ne _ none h

/-- Routing is switched off in the background; the app does not connect after that. -/
theorem quiet_disableVpnRouting (s : State) {after : AfterRouting} (h : after ≠ .onConnected) :
    Quiet s (disableVpnRouting s after) := by
  refine quiet_wait s ?_
  cases after with
  | onConnected => exact absurd rfl h
  | _ => rfl

/-- `_disconnect` up to its first `await`. -/
theorem quiet_disconnect (s : State) (after : AfterDisconnect) : Quiet s (disconnect s after).1 :=
  ((((quiet_down s false (s.calls + 1)).trans
    (quiet_stop _ .proxy)).trans (quiet_stop _ .shim)).trans (quiet_stop _ .vkTurn)).trans
    (quiet_wait _ rfl)

/-- The handler of `exitCode` clears the flags and waits. -/
theorem quiet_exitHandler (s : State) : Quiet s (exitHandler s) := by
  rw [exitHandler]
  split
  · exact (quiet_down s true s.calls).trans (quiet_disableVpnRouting _ (by decide))
  · exact ((quiet_stop s .shim).trans (quiet_stop _ .vkTurn)).trans
      (quiet_disableVpnRouting _ (by decide))

/-- `_onConnected` starts no process. -/
theorem frame_onConnected (s : State) : Frame s (onConnected s) :=
  frame_flags s true false s.config s.calls

theorem frame_enableVpnRouting (s : State) (after : AfterRouting) :
    Frame s (enableVpnRouting s after) := frame_wait s rfl

/-! ## The steps -/

/-- The cause of a connection: a continuation, or a line of a proxy. -/
def Connects (s : State) (e : Event) : Prop :=
  (∃ task ∈ s.tasks, connects task = true) ∨
    ∃ pid stderr p, e = .ready pid stderr ∧ s.processes[pid]? = some p ∧ p.kind = .proxy

inductive Step (s : State) (e : Event) : State → List Effect → Prop where
  | quiet {t : State} {o : List Effect} (hquiet : Quiet s t)
      (ho : ∀ x ∈ o, x = .switched false ∨ ∃ call, x = .disconnected call) : Step s e t o
  /-- `_disconnect` is called. -/
  | disconnect {t : State} {after : AfterDisconnect} (hquiet : Quiet s t) :
      Step s e (disconnect t after).1 (disconnect t after).2
  /-- `_startProxy` is called. -/
  | call {t : State} {o : List Effect} (hquiet : Quiet s t)
      (ho : ∀ x ∈ o, ∃ call, x = .disconnected call) :
      Step s e (startProxy t).1 (o ++ (startProxy t).2)
  /-- A start goes on. -/
  | start {i : Nat} {task : Task} {reply : Reply} (htask : s.tasks[i]? = some task)
      (hstart : isStart task = true) :
      Step s e (resume { s with tasks := s.tasks.eraseIdx i } reply task).1
        (resume { s with tasks := s.tasks.eraseIdx i } reply task).2
  | connect {t : State} {o : List Effect} (hcause : Connects s e) (hframe : Frame s t)
      (ho : ∀ x ∈ o, x = .switched true) : Step s e t o

/-- A quiet step that shows nothing. -/
theorem Step.silent {s t : State} {e : Event} (hquiet : Quiet s t) : Step s e t [] :=
  .quiet hquiet fun _ hx => by cases hx

/-- A connection is on its way, and no switch has been flipped yet. -/
theorem Step.connecting {s t : State} {e : Event} (hcause : Connects s e) (hframe : Frame s t) :
    Step s e t [] :=
  .connect hcause hframe fun _ hx => by cases hx

/-- `_startProxy` is called, and nothing else is seen of the step. -/
theorem Step.callOnly {s t : State} {e : Event} (hquiet : Quiet s t) :
    Step s e (startProxy t).1 (startProxy t).2 :=
  .call (o := []) hquiet fun _ hx => by cases hx

/-- For a step that is known by its result. -/
theorem Step.of_some {s t : State} {e : Event} {o : List Effect} {r : State × List Effect}
    (hr : Step s e r.1 r.2) (heq : some r = some (t, o)) : Step s e t o := by
  have hr' : r = (t, o) := Option.some.inj heq
  subst hr'
  exact hr

/-- A reconnect begins with a `_disconnect`, if the app is connected. -/
theorem step_reconnectIfConnected {s t : State} {e : Event} (after : AfterDisconnect)
    (hquiet : Quiet s t) :
    Step s e (reconnectIfConnected t after).1 (reconnectIfConnected t after).2 := by
  rw [reconnectIfConnected]
  split
  · exact .disconnect hquiet
  · exact .silent hquiet

/-- A continuation runs, one case for each. -/
theorem step_resume {s : State} {e : Event} {i : Nat} {task : Task} (reply : Reply)
    (htask : s.tasks[i]? = some task) :
    Step s e (resume { s with tasks := s.tasks.eraseIdx i } reply task).1
      (resume { s with tasks := s.tasks.eraseIdx i } reply task).2 := by
  have herase := quiet_erase s i
  have hmem : task ∈ s.tasks := List.mem_of_getElem? htask
  cases task with
  | probing endpoint caller =>
    cases caller with
    -- the steps of `_startProxy` have their own case
    | startProxy => exact .start htask rfl
    | initState =>
      rw [resume]
      split
      · exact .silent (herase.trans (quiet_wait _ rfl))
      · exact .silent (herase.trans (quiet_wait _ rfl))
    | refresh =>
      rw [resume]
      split
      · exact .silent (herase.trans (quiet_wait _ rfl))
      · rw [probed]
        split
        · exact .silent ((herase.trans (quiet_wait _ rfl)).trans (quiet_wait _ rfl))
        · exact .silent (herase.trans (quiet_wait _ rfl))
  | loadingAuth =>
    rw [resume, loadedAuth]
    split
    · split
      · exact .callOnly (herase.trans (quiet_flags _ true _ _ id))
      · exact .silent herase
    · exact .silent herase
  | fetching caller =>
    cases caller with
    | startProxy => exact .start htask rfl
    | refresh => exact .silent herase
    | region => exact step_reconnectIfConnected .restart (herase.trans (quiet_flags _ _ _ _ id))
  | starting pc launch => exact .start htask rfl
  | lineDelay =>
    -- no guard: it connects whatever has happened in the meantime
    exact .connecting (.inl ⟨_, hmem, rfl⟩) (herase.toFrame.trans (frame_enableVpnRouting _ _))
  | fallback =>
    rw [resume]
    split
    · exact .silent herase
    · exact .connecting (.inl ⟨_, hmem, rfl⟩) (herase.toFrame.trans (frame_enableVpnRouting _ _))
  | routing change after =>
    cases after with
    | onConnected =>
      -- whatever the change of the system proxy was
      have hconnects : connects (.routing change .onConnected) = true := by
        cases change with
        | none => rfl
        | some enable => cases enable <;> rfl
      exact .connecting (.inl ⟨_, hmem, hconnects⟩) (herase.toFrame.trans (frame_onConnected _))
    | nothing => exact .silent herase
    | reconnect | release call after => exact .silent (herase.trans (quiet_wait _ rfl))
    | giveUp => exact .silent (herase.trans (quiet_down _ false _))
  | reconnecting =>
    rw [resume]
    split
    · exact .callOnly herase
    · exact .silent herase
  | sweeping call after =>
    exact .silent (herase.trans (quiet_disableVpnRouting _ (fun h => by cases h)))
  | releasing call after =>
    -- here the call of `_disconnect` is complete, and its caller goes on
    have hflags := herase.trans (quiet_down _ false s.calls)
    cases after with
    | nothing =>
      exact .quiet hflags fun x hx => .inr ⟨call, List.mem_singleton.1 hx⟩
    -- `_reconnectIfConnected` starts the next call at once
    | restart =>
      exact .call (o := [.disconnected call]) (hflags.trans (quiet_flags _ true _ _ id))
        fun x hx => ⟨call, List.mem_singleton.1 hx⟩
    | settings =>
      exact .quiet (hflags.trans (quiet_wait _ rfl)) fun x hx =>
        .inr ⟨call, List.mem_singleton.1 hx⟩
  | settingsPause => exact .callOnly herase
  | saving => exact step_reconnectIfConnected .settings herase

/-- A line of the proxy that says it is ready can connect the app. -/
theorem step_readyLine {s : State} {pid : Pid} {p : Proc} {stderr : Bool}
    (hp : s.processes[pid]? = some p) (hkind : p.kind = .proxy) :
    Step s (.ready pid stderr) (readyLine s p stderr) [] := by
  have hcause : Connects s (.ready pid stderr) := .inr ⟨pid, stderr, p, rfl, hp, hkind⟩
  have hnow : Frame s (onConnected (enableVpnRouting s .nothing)) :=
    (frame_enableVpnRouting s .nothing).trans (frame_onConnected _)
  rw [readyLine]
  split
  · exact .connecting hcause hnow
  · split
    · exact .silent (.refl s)
    · split
      · exact .connecting hcause hnow
      · exact .connecting hcause (frame_wait s rfl)

/-- The list is complete. -/
theorem step_cases {s t : State} {e : Event} {o : List Effect} (hstep : step s e = some (t, o)) :
    Step s e t o := by
  cases e with
  | resume i reply =>
    rw [step] at hstep
    split at hstep
    · rename_i task htask
      exact (step_resume reply htask).of_some hstep
    · cases hstep
  | switch i =>
    rw [step] at hstep
    split at hstep
    · rename_i enable after htask
      cases hstep
      -- switching the system proxy on may connect, switching it off never does
      cases enable with
      | true =>
        exact .connect (.inl ⟨_, List.mem_of_getElem? htask, rfl⟩) (Quiet.refl s).toFrame
          fun x hx => List.mem_singleton.1 hx
      | false => exact .quiet (.refl s) fun x hx => .inl (List.mem_singleton.1 hx)
    · cases hstep
  | sweep i pid =>
    rw [step] at hstep
    split at hstep
    · split at hstep <;> cases hstep
      exact .silent (quiet_kill s pid)
    · cases hstep
  | exit pid =>
    cases hstep
    exact .silent (quiet_kill s pid)
  -- the exit handler connects nothing itself
  | exitCode pid =>
    rw [step] at hstep
    split at hstep
    · split at hstep <;> cases hstep
      exact .silent ((quiet_unwatch s pid).trans (quiet_exitHandler _))
    · cases hstep
  | ready pid stderr =>
    rw [step] at hstep
    split at hstep
    · rename_i p hp
      split at hstep <;> cases hstep
      exact step_readyLine hp ‹_›
    · cases hstep
  -- an error only lowers `_connecting`
  | error pid =>
    rw [step] at hstep
    split at hstep
    · split at hstep <;> cases hstep
      exact .silent (quiet_flags s false s.config s.calls id)
    · cases hstep
  | toggle =>
    rw [step] at hstep
    split at hstep
    · exact (Step.disconnect (.refl s)).of_some hstep
    · exact (Step.callOnly (quiet_flags s true s.config s.calls id)).of_some hstep
  | selectRegion | refresh | pickLang =>
    cases hstep
    exact .silent (quiet_wait s rfl)
  | selectProtocol protocol =>
    exact (step_reconnectIfConnected .restart (quiet_flags s _ _ _ id)).of_some hstep
  -- without a server in the list there is nothing to select
  | selectServer server =>
    rw [step] at hstep
    split at hstep
    · cases hstep
    · exact (step_reconnectIfConnected .restart (quiet_flags s _ _ _ id)).of_some hstep
  | setDomainBypass on =>
    cases hstep
    exact .silent ((quiet_flags s _ _ _ id).trans (quiet_wait _ rfl))
  | setSplitDomains domains =>
    cases hstep
    exact .silent ((quiet_flags s _ _ _ id).trans (quiet_wait _ rfl))
  | logout => exact (Step.disconnect (.refl s)).of_some hstep
  | configure config =>
    cases hstep
    exact .silent (quiet_flags s _ _ _ id)

end Fogged.Spec.HomeScreen
