import Fogged.ForStd.Machine
import Fogged.Native.LocalPorts

/-!
# From the system's proxy port to the tunnel

A connection carries traffic if whoever listens on the port that the system dials is the
proxy, or a shim with the proxy behind it. The port of the proxy depends on the settings
when its configuration is written; whether a shim is started depends on the settings when
the server was chosen, on the binary, and on the platform. And nothing asks whether the
ports are free, or whether the processes are still there, before the app counts as
connected.

`chain_closed` says what has to be true of the machine, of the settings and of the
processes for the chain to be closed, for every start.

## Key results

- `Ports.at?_bind`: who has a port after a process has been started
- `phase_step`, `androidPhase_step`: what one step preserves
- `chain_closed`: which starts end with a chain that is closed
- `chain_open`: starts that end connected to nothing
-/

namespace Fogged.Spec.LocalPorts

open Fogged.Native.App Fogged.Native.LocalPorts
open Fogged.Native.HomeScreen (Config Launch Reply StartPc Task Kind Pid)
open Machine

/-- The port that the system dials leads to the proxy: the proxy that was started has it, or a
    shim has it, its upstream port is the one in the configuration of the proxy, and the proxy
    has that. -/
def Closed (s : State) : Prop :=
  match s.ports.at? dialled with
  | some (.child _, .proxy _) => True
  | some (_, .shim _ upstream) =>
    s.configPort = some upstream ∧ ∃ pid, s.ports.at? upstream = some (.child pid, .proxy upstream)
  | _ => False

/-! ## Ports -/

section Ports

variable {ports : Ports} {owner : Owner} {listener : Listener} {port : Nat}

/-- A process that finds its port free has it. -/
theorem at?_bind_self (h : ports.at? listener.port = none) :
    (ports.bind owner listener).at? listener.port = some (owner, listener) := by
  simp only [Ports.bind, h]
  rw [Ports.at?] at h
  rw [Ports.at?, List.find?_append, h]
  simp

/-- The other ports are not touched. -/
theorem at?_bind_of_ne (h : port ≠ listener.port) :
    (ports.bind owner listener).at? port = ports.at? port := by
  rw [Ports.bind]
  split
  · rw [Ports.at?, Ports.at?, List.find?_append]
    simp [Ne.symm h]
  · rfl

/-- A port that is taken stays with whom it is. -/
theorem bind_of_taken {held : Owner × Listener} (h : ports.at? listener.port = some held) :
    ports.bind owner listener = ports := by
  simp only [Ports.bind, h]

/-- A process that has no port frees none. -/
theorem free_of_none (h : ∀ held ∈ ports, held.1 ≠ owner) : ports.free owner = ports :=
  List.filter_eq_self.2 fun held hmem => decide_eq_true (h held hmem)

/-- Whoever has bound the port first has it. -/
theorem at?_cons (held : Owner × Listener) (ports : Ports) (port : Nat) :
    Ports.at? (held :: ports) port = if held.2.port = port then some held else ports.at? port := by
  rw [Ports.at?, List.find?_cons]
  by_cases h : held.2.port = port
  · rw [if_pos h, decide_eq_true h]
  · rw [if_neg h, decide_eq_false h]
    rfl

/-- Somebody else frees a port. Who has another one, or has it and is not somebody else, keeps
    it. -/
theorem at?_vacate {freed : Nat} (h : port = freed → ∀ l, ports.at? port ≠ some (.other, l)) :
    (ports.vacate freed).at? port = ports.at? port := by
  induction ports with
  | nil => rfl
  | cons held ports ih =>
    rw [Ports.vacate, List.filter_cons]
    by_cases hport : held.2.port = port
    · -- the first one that has the port is not removed
      have hkept : ¬ (held.1 = .other ∧ held.2.port = freed) := by
        rintro ⟨howner, hfreed⟩
        refine h (hport.symm.trans hfreed) held.2 ?_
        rw [at?_cons, if_pos hport, ← howner]
      rw [if_pos (decide_eq_true hkept), at?_cons, at?_cons, if_pos hport, if_pos hport]
    · have hrest : Ports.at? (Ports.vacate ports freed) port = Ports.at? ports port :=
        ih fun heq l => by
          have := h heq l
          rwa [at?_cons, if_neg hport] at this
      rw [at?_cons, if_neg hport]
      split
      · rw [at?_cons, if_neg hport]
        exact hrest
      · exact hrest

/-- Nobody else has a port that none of the others listens on. -/
theorem at?_others {others : List Listener} (h : ∀ l ∈ others, l.port ≠ port) :
    Ports.at? (others.map (Owner.other, ·)) port = none := by
  rw [Ports.at?, List.find?_eq_none]
  intro held hmem
  obtain ⟨l, hl, rfl⟩ := List.mem_map.1 hmem
  simpa using h l hl

end Ports

/-! ## The start on a desktop -/

/-- No proxy has been started, and nothing is pending. -/
structure Blank (home : Native.HomeScreen.State) : Prop where
  tasks : home.tasks = []
  connected : home.connected = false
  processes : ∀ p ∈ home.processes, p.kind ≠ .proxy ∧ p.watched = false

/-- The start is suspended at `pc`. -/
structure Starting (home : Native.HomeScreen.State) (pc : StartPc) (launch : Launch) : Prop where
  tasks : home.tasks = [.starting pc launch]
  connected : home.connected = false
  processes : ∀ p ∈ home.processes, p.kind ≠ .proxy ∧ p.watched = false

variable {home : Native.HomeScreen.State} {pc : StartPc} {launch : Launch}

/-- A start that has been resumed has nothing pending. -/
theorem Starting.blank (h : Starting home pc launch) : Blank { home with tasks := [] } :=
  ⟨rfl, h.connected, h.processes⟩

/-- It is suspended again. -/
theorem Blank.wait (h : Blank home) (pc : StartPc) (launch : Launch) :
    Starting (home.wait (.starting pc launch)) pc launch :=
  ⟨by simp [Native.HomeScreen.State.wait, h.tasks], h.connected, h.processes⟩

/-- It gives up. -/
theorem Blank.giveUp (h : Blank home) : Blank home.giveUp := ⟨h.tasks, h.connected, h.processes⟩

/-- Fields do not matter here. -/
theorem Blank.setRef (h : Blank home) (kind : Kind) (ref : Option Pid) :
    Blank (home.setRef kind ref) :=
  ⟨h.tasks, h.connected, h.processes⟩

/-- A process that is killed keeps its kind, and its handler. -/
theorem processes_kill {pid : Pid} {p : Native.HomeScreen.Proc} (hp : p ∈ (home.kill pid).processes) :
    ∃ q ∈ home.processes, p.kind = q.kind ∧ p.watched = q.watched := by
  simp only [Native.HomeScreen.State.kill] at hp
  obtain ⟨i, hi⟩ := List.getElem?_of_mem hp
  rw [List.getElem?_modify] at hi
  obtain ⟨q, hq, heq⟩ := Option.map_eq_some_iff.1 hi
  refine ⟨q, List.mem_of_getElem? hq, ?_⟩
  split at heq <;> rw [← heq] <;> exact ⟨rfl, rfl⟩

/-- A process that is killed is none that was started. -/
theorem Blank.kill (h : Blank home) (pid : Pid) : Blank (home.kill pid) := by
  refine ⟨h.tasks, h.connected, fun p hp => ?_⟩
  obtain ⟨q, hq, hkind, hwatched⟩ := processes_kill hp
  rw [hkind, hwatched]
  exact h.processes q hq

/-- The start goes on when a process dies. -/
theorem Starting.kill (h : Starting home pc launch) (pid : Pid) :
    Starting (home.kill pid) pc launch := by
  refine ⟨h.tasks, h.connected, fun p hp => ?_⟩
  obtain ⟨q, hq, hkind, hwatched⟩ := processes_kill hp
  rw [hkind, hwatched]
  exact h.processes q hq

/-- A process is stopped through its field. -/
theorem Blank.stop (h : Blank home) (kind : Kind) : Blank (home.stop kind) := by
  unfold Native.HomeScreen.State.stop
  split
  · exact (h.kill _).setRef _ _
  · exact h.setRef _ _

/-- A process that is not the proxy is started. -/
theorem Blank.spawn (h : Blank home) (kind : Kind) (hkind : kind ≠ .proxy) (proto : Scheme) :
    Blank (home.spawn kind proto) := by
  refine ⟨h.tasks, h.connected, fun p hp => ?_⟩
  simp only [Native.HomeScreen.State.spawn, Native.HomeScreen.State.setRef, List.mem_append,
    List.mem_singleton] at hp
  rcases hp with hp | rfl
  · exact h.processes p hp
  · exact ⟨hkind, decide_eq_false hkind⟩

/-- What is left to do once the proxy has been started. -/
def connecting : Task → Bool
  | .fallback | .lineDelay | .routing _ .nothing | .routing _ .onConnected => true
  | _ => false

/-- The pcs before the configuration is written. -/
def preparing : StartPc → Bool
  | .findVkTurn | .pause | .startVkTurn | .awaitVkTurn | .findBinary => true
  | _ => false

def portOf (active : Bool) : Nat := if active then 1081 else 1080

/-- The port 1080 is with a shim that leads to port 1081. -/
def Shimmed (ports : Ports) : Prop := ∃ owner, ports.at? 1080 = some (owner, shimListener)

/-- The ports that the start needs are free, or there is a shim already. -/
def Vacant (bypass : Bool) (ports : Ports) : Prop :=
  if bypass then ports.at? 1081 = none ∧ (ports.at? 1080 = none ∨ Shimmed ports)
  else ports.at? 1080 = none

/-- The shim is there, if it is needed, and the port of the proxy is free. -/
def Fronted (bypass : Bool) (ports : Ports) : Prop :=
  ports.at? (portOf bypass) = none ∧ (bypass = true → Shimmed ports)

/-- The proxy has its port, and the shim is there, if it is needed. -/
def Chained (bypass : Bool) (ports : Ports) : Prop :=
  (∃ pid, ports.at? (portOf bypass) = some (.child pid, .proxy (portOf bypass))) ∧
    (bypass = true → Shimmed ports)

/-- The proxies are alive, and have their ports. -/
def Alive (s : Desktop) : Prop :=
  ∀ pid p, s.home.processes[pid]? = some p → p.watched = true →
    p.live = true ∧ ∃ listener, (.child pid, listener) ∈ s.ports

/-- How far the start is. -/
inductive Phase (bypass : Bool) (s : Desktop) : Prop where
  | failed (home : Blank s.home)
  | prepares (pc : StartPc) (launch : Launch) (hpc : preparing pc = true)
      (home : Starting s.home pc launch) (hsrv : launch.srv.protocol ≠ .orcax)
      (hlaunch : launch.bypass = bypass) (hports : Vacant bypass s.ports)
  /-- The configuration has been written. -/
  | writes (launch : Launch) (home : Starting s.home .writeConfig launch)
      (hsrv : launch.srv.protocol ≠ .orcax) (hlaunch : launch.bypass = bypass)
      (hport : s.configPort = some (portOf bypass)) (hports : Vacant bypass s.ports)
  | shims (pc : StartPc) (launch : Launch) (hpc : pc = .findShim ∨ pc = .startShim)
      (home : Starting s.home pc launch) (hsrv : launch.srv.protocol ≠ .orcax)
      (hbypass : bypass = true) (hport : s.configPort = some (portOf bypass))
      (hports : Vacant bypass s.ports)
  | launching (launch : Launch) (home : Starting s.home .startProxy launch)
      (hsrv : launch.srv.protocol ≠ .orcax) (hport : s.configPort = some (portOf bypass))
      (hports : Fronted bypass s.ports)
  | launched (htasks : ∀ task ∈ s.home.tasks, connecting task = true) (halive : Alive s)
      (hport : s.configPort = some (portOf bypass)) (hports : Chained bypass s.ports)

/-- The next step of task `i` goes on without the binary of the shim. -/
def missesShim (home : Native.HomeScreen.State) (i : Nat) (reply : Reply) : Bool :=
  match home.tasks[i]?, reply with
  | some (.starting .findShim _), .no => true
  | _, _ => false

/-- A process that exits has no port. -/
def Portless (ports : Ports) (pid : Pid) : Prop := ∀ held ∈ ports, held.1 ≠ .child pid

/-- Whoever frees the port is not the one through whom the system reaches the proxy. -/
def Unused (ports : Ports) (port : Nat) : Prop :=
  port = dialled → ∀ held ∈ ports.at? port, held.1 ≠ .other

/-- What has to happen on a desktop for the chain to be closed, step by step. -/
def DesktopSteady (s : Desktop) : Event → Prop
  | .resume i reply =>
    (∀ launch ∈ generates s.home i reply, bypassActive s.home.config = launch.bypass) ∧
      (missesShim s.home i reply = true → s.ports.at? dialled ≠ none)
  | .exit pid => Portless s.ports pid
  | .vacate port => Unused s.ports port
  | _ => True

def AndroidSteady (s : Android) : Event → Prop
  | .notified => bypassActive s.config = false
  | .launched service => service = .started
  | .bridged ok => ok = true
  | .exit pid => Portless s.ports pid
  | .vacate port => Unused s.ports port
  | _ => True

def Steady : State → Event → Prop
  | .desktop s => DesktopSteady s
  | .android s => AndroidSteady s

instance (ports : Ports) (pid : Pid) : Decidable (Portless ports pid) :=
  inferInstanceAs (Decidable (∀ held ∈ ports, held.1 ≠ .child pid))

instance (ports : Ports) (port : Nat) : Decidable (Unused ports port) :=
  inferInstanceAs (Decidable (port = dialled → ∀ held ∈ ports.at? port, held.1 ≠ .other))

instance (s : Desktop) : (e : Event) → Decidable (DesktopSteady s e)
  | .resume _ _ => inferInstanceAs (Decidable (_ ∧ (_ → _)))
  | .exit pid => inferInstanceAs (Decidable (Portless s.ports pid))
  | .vacate port => inferInstanceAs (Decidable (Unused s.ports port))
  | .ready _ _ | .exitCode _ | .notified | .permission _ | .launched _ | .bridged _
  | .configure _ => .isTrue trivial

instance (s : Android) : (e : Event) → Decidable (AndroidSteady s e)
  | .notified | .launched _ | .bridged _ => inferInstanceAs (Decidable (_ = _))
  | .exit pid => inferInstanceAs (Decidable (Portless s.ports pid))
  | .vacate port => inferInstanceAs (Decidable (Unused s.ports port))
  | .resume _ _ | .ready _ _ | .exitCode _ | .permission _ | .configure _ => .isTrue trivial

instance : (s : State) → (e : Event) → Decidable (Steady s e)
  | .desktop s, e => inferInstanceAs (Decidable (DesktopSteady s e))
  | .android s, e => inferInstanceAs (Decidable (AndroidSteady s e))

section Desktop

variable {s t : Desktop} {bypass : Bool} {i : Nat} {reply : Reply}

/-- The continuation of `s`'s start. -/
def continued (s : Desktop) (reply : Reply) (launch : Launch) (pc : StartPc) :
    Native.HomeScreen.State × List Native.HomeScreen.Effect :=
  Native.HomeScreen.resumeStart { s.home with tasks := [] } reply launch pc

/-- Where nothing but the start is pending, it is the start that goes on. -/
theorem resumed_starting (h : Starting s.home pc launch) (hr : s.resumed i reply = some t) :
    i = 0 ∧ if pc = .findBinary ∧ reply = .ok then
      t = { s with
        home := (continued s reply launch pc).1
        configPort := some (proxyPort launch.srv s.home.config) }
    else t = (continued s reply launch pc).2.foldl Desktop.started
      { s with home := (continued s reply launch pc).1 } := by
  cases i with
  | succ i => simp [Desktop.resumed, Native.HomeScreen.step, h.tasks] at hr
  | zero =>
    refine ⟨rfl, ?_⟩
    simp only [Desktop.resumed, Native.HomeScreen.step, Native.HomeScreen.resume, h.tasks,
      List.getElem?_cons_zero, List.eraseIdx_cons_zero] at hr
    split
    · rename_i hgen
      obtain ⟨rfl, rfl⟩ := hgen
      simp only [generates, h.tasks, List.getElem?_cons_zero, Option.some.injEq] at hr
      exact hr.symm
    · rename_i hgen
      -- the configuration is written at one point of the start only
      have hnone : generates s.home 0 reply = none := by
        simp only [generates, h.tasks, List.getElem?_cons_zero]
        split
        · rename_i heq
          cases heq
          exact absurd ⟨rfl, rfl⟩ hgen
        · rfl
      rw [hnone] at hr
      exact (Option.some.inj hr).symm

/-- The upstream port of the shim, by the settings. -/
theorem upstreamSocksPort_eq (config : Config) :
    upstreamSocksPort config = portOf (bypassActive config) := rfl

/-- The port in the configuration of a proxy, by the settings at that time. -/
theorem proxyPort_eq {srv : VpnServer} (hsrv : srv.protocol ≠ .orcax) (config : Config) :
    proxyPort srv config = portOf (bypassActive config) := by
  unfold proxyPort
  split
  · contradiction
  · exact upstreamSocksPort_eq config
  · exact upstreamSocksPort_eq config

/-- Before the configuration is written. -/
theorem phase_prepares (hpc : preparing pc = true) (h : Starting s.home pc launch)
    (hsrv : launch.srv.protocol ≠ .orcax) (hlaunch : launch.bypass = bypass)
    (hports : Vacant bypass s.ports) (hsteady : DesktopSteady s (.resume i reply))
    (hr : s.resumed i reply = some t) : Phase bypass t := by
  obtain ⟨rfl, hresumed⟩ := resumed_starting h hr
  have hblank := h.blank
  split at hresumed
  · -- the binary is found, and the configuration written with the settings of this moment
    rename_i hgen
    obtain ⟨rfl, rfl⟩ := hgen
    subst hresumed
    have hsame : bypassActive s.home.config = bypass := by
      rw [← hlaunch]
      exact hsteady.1 launch (by simp [generates, h.tasks])
    refine .writes launch ?_ hsrv hlaunch (by rw [proxyPort_eq hsrv, hsame]) hports
    simp only [continued, Native.HomeScreen.resumeStart]
    cases hprotocol : launch.srv.protocol with
    | orcax => exact absurd hprotocol hsrv
    | vless => exact hblank.wait _ _
    | hysteria2 => exact hblank.wait _ _
  · -- every other step of the preparation
    rename_i hgen
    cases pc with
    | findVkTurn =>
      cases reply with
      | ok =>
        simp only [continued, Native.HomeScreen.resumeStart] at hresumed
        split at hresumed
        · subst hresumed
          exact .prepares .pause launch rfl ((hblank.stop _).wait _ _) hsrv hlaunch hports
        · subst hresumed
          exact .prepares .startVkTurn launch rfl (hblank.wait _ _) hsrv hlaunch hports
      | no | throws =>
        subst hresumed
        exact .failed hblank.giveUp
    | pause =>
      subst hresumed
      exact .prepares .startVkTurn launch rfl (hblank.wait _ _) hsrv hlaunch hports
    | startVkTurn =>
      cases reply with
      | ok =>
        subst hresumed
        have hspawned := hblank.spawn .vkTurn (by decide) launch.srv.protocol
        exact .prepares .awaitVkTurn launch rfl (hspawned.wait _ _) hsrv hlaunch hports
      | no | throws =>
        subst hresumed
        exact .failed hblank.giveUp
    | awaitVkTurn =>
      cases reply with
      | ok =>
        subst hresumed
        exact .prepares .findBinary launch rfl (hblank.wait _ _) hsrv hlaunch hports
      | no | throws =>
        subst hresumed
        exact .failed (hblank.stop _).giveUp
    | findBinary =>
      cases reply with
      | ok => exact absurd ⟨rfl, rfl⟩ hgen
      | no | throws =>
        subst hresumed
        exact .failed hblank.giveUp
    -- these belong to the later phases
    | writeConfig | findShim | startShim | startProxy => cases hpc

/-- The configuration has been written. -/
theorem phase_writes (h : Starting s.home .writeConfig launch)
    (hsrv : launch.srv.protocol ≠ .orcax) (hlaunch : launch.bypass = bypass)
    (hport : s.configPort = some (portOf bypass)) (hports : Vacant bypass s.ports)
    (hr : s.resumed i reply = some t) : Phase bypass t := by
  obtain ⟨rfl, hresumed⟩ := resumed_starting h hr
  have hblank := h.blank
  rw [if_neg (by simp)] at hresumed
  cases reply with
  | ok =>
    simp only [continued, Native.HomeScreen.resumeStart] at hresumed
    split at hresumed
    · rename_i hbypass
      subst hresumed
      exact .shims .findShim launch (.inl rfl) (hblank.wait _ _) hsrv (hlaunch ▸ hbypass) hport
        hports
    · -- without domain bypass there is to be no shim
      rename_i hbypass
      subst hresumed
      have hfalse : bypass = false := by
        rw [← hlaunch]
        exact Bool.eq_false_iff.2 hbypass
      rw [hfalse] at hport hports ⊢
      exact .launching launch (hblank.wait _ _) hsrv hport ⟨hports, fun htrue => by cases htrue⟩
  | no | throws =>
    subst hresumed
    exact .failed hblank.giveUp

/-- The shim. -/
theorem phase_shims (hpc : pc = .findShim ∨ pc = .startShim) (h : Starting s.home pc launch)
    (hsrv : launch.srv.protocol ≠ .orcax) (hport : s.configPort = some (portOf true))
    (hports : Vacant true s.ports) (hsteady : DesktopSteady s (.resume i reply))
    (hr : s.resumed i reply = some t) : Phase true t := by
  obtain ⟨rfl, hresumed⟩ := resumed_starting h hr
  have hblank := h.blank
  rw [if_neg (by rintro ⟨rfl, -⟩; simp at hpc)] at hresumed
  have hfree : s.ports.at? 1081 = none := hports.1
  have hfront : s.ports.at? 1080 = none ∨ Shimmed s.ports := hports.2
  rcases hpc with rfl | rfl
  · cases reply with
    | ok =>
      subst hresumed
      exact .shims .startShim launch (.inr rfl) (hblank.wait _ _) hsrv rfl hport hports
    | no =>
      -- orcax-connect is not there: the start goes on without it
      subst hresumed
      have htaken := hsteady.2 (by simp [missesShim, h.tasks])
      exact .launching launch (hblank.wait _ _) hsrv hport
        ⟨hfree, fun _ => hfront.resolve_left htaken⟩
    | throws =>
      subst hresumed
      exact .failed hblank.giveUp
  · cases reply with
    | ok =>
      subst hresumed
      have hspawned := hblank.spawn .shim (by decide) launch.srv.protocol
      refine .launching launch (hspawned.wait _ _) hsrv hport ?_
      -- the shim has the port now, or another one has it still
      show Fronted true (s.ports.bind (.child s.home.processes.length) shimListener)
      refine ⟨(at?_bind_of_ne (by decide)).trans hfree, fun _ => ?_⟩
      rcases hfront with hnone | ⟨owner, hshim⟩
      · exact ⟨_, at?_bind_self hnone⟩
      · rw [bind_of_taken hshim]
        exact ⟨owner, hshim⟩
    | no | throws =>
      subst hresumed
      exact .failed hblank.giveUp

/-- The proxy. -/
theorem phase_launching (h : Starting s.home .startProxy launch)
    (hsrv : launch.srv.protocol ≠ .orcax) (hport : s.configPort = some (portOf bypass))
    (hports : Fronted bypass s.ports) (hr : s.resumed i reply = some t) : Phase bypass t := by
  obtain ⟨rfl, hresumed⟩ := resumed_starting h hr
  rw [if_neg (by simp)] at hresumed
  cases reply with
  | ok =>
    have hcontinued :
        (continued s .ok launch .startProxy).2 = [.started .proxy s.home.processes.length] ∧
        (continued s .ok launch .startProxy).1.processes = s.home.processes ++
          [⟨.proxy, launch.srv.protocol, true, true⟩] ∧
        ∀ task ∈ (continued s .ok launch .startProxy).1.tasks, connecting task = true := by
      simp only [continued, Native.HomeScreen.resumeStart]
      cases hprotocol : launch.srv.protocol with
      | orcax => exact absurd hprotocol hsrv
      | vless | hysteria2 =>
        simp [Native.HomeScreen.State.wait, Native.HomeScreen.State.spawn,
          Native.HomeScreen.State.setRef, connecting]
    obtain ⟨heffects, hprocesses, htasks⟩ := hcontinued
    -- the port of the configuration is free, so the proxy gets it
    have hfree : s.ports.at? (Listener.proxy (portOf bypass)).port = none := hports.1
    have hgot : (s.ports.bind (.child s.home.processes.length) (.proxy (portOf bypass))).at?
        (Listener.proxy (portOf bypass)).port = some _ := at?_bind_self hfree
    have ht : t = { s with
        home := (continued s .ok launch .startProxy).1
        ports := s.ports.bind (.child s.home.processes.length) (.proxy (portOf bypass)) } := by
      rw [hresumed, heffects, List.foldl_cons, List.foldl_nil, Desktop.started, hport]
    subst ht
    refine .launched htasks ?_ hport ⟨⟨_, hgot⟩, fun hbypass => ?_⟩
    · intro pid p hp hwatched
      rw [hprocesses] at hp
      obtain hlt | rfl | hgt := Nat.lt_trichotomy pid s.home.processes.length
      · -- no process was watched before
        rw [List.getElem?_append_left hlt] at hp
        rw [(h.processes p (List.mem_of_getElem? hp)).2] at hwatched
        cases hwatched
      · rw [List.getElem?_concat_length] at hp
        cases hp
        exact ⟨rfl, _, List.mem_of_find?_eq_some hgot⟩
      · rw [List.getElem?_eq_none (by rw [List.length_append]; exact hgt)] at hp
        cases hp
    · -- with the bypass, the shim keeps its own port
      obtain ⟨owner, hshim⟩ := hports.2 hbypass
      refine ⟨owner, (at?_bind_of_ne ?_).trans hshim⟩
      rw [hbypass]
      decide
  | no | throws =>
    subst hresumed
    exact .failed h.blank.giveUp

/-- A routing change on the way to the connected state. -/
theorem connecting_enableVpnRouting {home : Native.HomeScreen.State}
    {after : Native.HomeScreen.AfterRouting} (hafter : after = .nothing ∨ after = .onConnected)
    (htasks : ∀ task ∈ home.tasks, connecting task = true) :
    ∀ task ∈ (Native.HomeScreen.enableVpnRouting home after).tasks, connecting task = true := by
  intro task hmem
  simp only [Native.HomeScreen.enableVpnRouting, Native.HomeScreen.State.wait, List.mem_append,
    List.mem_singleton] at hmem
  rcases hmem with hmem | rfl
  · exact htasks task hmem
  · rcases hafter with rfl | rfl <;> rfl

/-- Nothing that is left starts or stops anything. -/
theorem resume_connecting (home : Native.HomeScreen.State) (reply : Reply) {task : Task}
    (htasks : ∀ task ∈ home.tasks, connecting task = true) (htask : connecting task = true) :
    (Native.HomeScreen.resume home reply task).2 = [] ∧
      (Native.HomeScreen.resume home reply task).1.processes = home.processes ∧
      ∀ left ∈ (Native.HomeScreen.resume home reply task).1.tasks, connecting left = true := by
  cases task with
  -- the timer does nothing if the app is connected by then
  | fallback =>
    rw [Native.HomeScreen.resume]
    split
    · exact ⟨rfl, rfl, htasks⟩
    · exact ⟨rfl, rfl, connecting_enableVpnRouting (.inr rfl) htasks⟩
  | lineDelay => exact ⟨rfl, rfl, connecting_enableVpnRouting (.inr rfl) htasks⟩
  | routing change after =>
    cases after with
    | nothing => exact ⟨rfl, rfl, htasks⟩
    | onConnected => exact ⟨rfl, rfl, htasks⟩
    | _ => cases htask
  | _ => cases htask

/-- Only the connection is left. -/
theorem phase_launched (htasks : ∀ task ∈ s.home.tasks, connecting task = true) (halive : Alive s)
    (hport : s.configPort = some (portOf bypass)) (hports : Chained bypass s.ports)
    (hr : s.resumed i reply = some t) : Phase bypass t := by
  unfold Desktop.resumed at hr
  simp only [Native.HomeScreen.step] at hr
  cases htask : s.home.tasks[i]? with
  | none => simp [htask] at hr
  | some task =>
    have hconnecting := htasks task (List.mem_of_getElem? htask)
    -- no configuration is written any more
    have hgen : generates s.home i reply = none := by
      simp only [generates, htask]
      split
      · rename_i heq
        cases heq
        cases hconnecting
      · rfl
    -- and no process is started
    obtain ⟨heffects, hprocesses, hleft⟩ :=
      resume_connecting { s.home with tasks := s.home.tasks.eraseIdx i } reply
        (fun task hmem => htasks task (List.mem_of_mem_eraseIdx hmem)) hconnecting
    simp only [htask, hgen, heffects, List.foldl_nil] at hr
    cases hr
    refine .launched hleft (fun pid p hp hwatched => ?_) hport hports
    exact halive pid p (hprocesses ▸ hp) hwatched

/-- A start is resumed, whatever it was waiting for. -/
theorem phase_resumed (hs : Phase bypass s) (hsteady : DesktopSteady s (.resume i reply))
    (hr : s.resumed i reply = some t) : Phase bypass t := by
  cases hs with
  | failed home => simp [Desktop.resumed, Native.HomeScreen.step, home.tasks] at hr
  | prepares pc launch hpc home hsrv hlaunch hports =>
    exact phase_prepares hpc home hsrv hlaunch hports hsteady hr
  | writes launch home hsrv hlaunch hport hports =>
    exact phase_writes home hsrv hlaunch hport hports hr
  | shims pc launch hpc home hsrv hbypass hport hports =>
    subst hbypass
    exact phase_shims hpc home hsrv hport hports hsteady hr
  | launching launch home hsrv hport hports => exact phase_launching home hsrv hport hports hr
  | launched htasks halive hport hports => exact phase_launched htasks halive hport hports hr

/-- A line can be ready only after the proxy has been started. -/
theorem phase_ready {pid : Pid} {stderr : Bool}
    {r : Native.HomeScreen.State × List Native.HomeScreen.Effect}
    (hs : Phase bypass s) (hr : Native.HomeScreen.step s.home (.ready pid stderr) = some r) :
    Phase bypass { s with home := r.1 } := by
  simp only [Native.HomeScreen.step] at hr
  split at hr
  · rename_i p hp
    split at hr
    · rename_i hkind
      have hmem := List.mem_of_getElem? hp
      -- only in the last phase is there a proxy whose line it could be
      cases hs with
      | failed home => exact absurd hkind (home.processes p hmem).1
      | prepares _ _ _ home => exact absurd hkind (home.processes p hmem).1
      | writes _ home => exact absurd hkind (home.processes p hmem).1
      | shims _ _ _ home => exact absurd hkind (home.processes p hmem).1
      | launching _ home => exact absurd hkind (home.processes p hmem).1
      | launched htasks halive hport hports =>
        cases hr
        refine .launched ?_ ?_ hport hports
        · -- the line leads to a connection, now or after a delay
          show ∀ task ∈ (Native.HomeScreen.readyLine s.home p stderr).tasks, connecting task = true
          unfold Native.HomeScreen.readyLine
          split
          · exact connecting_enableVpnRouting (.inl rfl) htasks
          · split
            · exact htasks
            · split
              · exact connecting_enableVpnRouting (.inl rfl) htasks
              · intro task hmem
                simp only [Native.HomeScreen.State.wait, List.mem_append, List.mem_singleton] at hmem
                rcases hmem with hmem | rfl
                · exact htasks task hmem
                · rfl
        · -- it starts and ends no process
          have hprocesses : (Native.HomeScreen.readyLine s.home p stderr).processes =
              s.home.processes := by
            unfold Native.HomeScreen.readyLine
            split
            · rfl
            · split
              · rfl
              · split <;> rfl
          exact fun pid p hp hwatched => halive pid p (hprocesses ▸ hp) hwatched
    · cases hr
  · cases hr

/-- A process that has no port exits; no proxy is such a process. -/
theorem phase_exit {pid : Pid} (hs : Phase bypass s)
    (hnone : Portless s.ports pid) :
    Phase bypass { s with home := s.home.kill pid, ports := s.ports.free (.child pid) } := by
  -- the ports are as before
  rw [free_of_none hnone]
  cases hs with
  | failed home => exact .failed (home.kill pid)
  | prepares pc launch hpc home hsrv hlaunch hports =>
    exact .prepares pc launch hpc (home.kill pid) hsrv hlaunch hports
  | writes launch home hsrv hlaunch hport hports =>
    exact .writes launch (home.kill pid) hsrv hlaunch hport hports
  | shims pc launch hpc home hsrv hbypass hport hports =>
    exact .shims pc launch hpc (home.kill pid) hsrv hbypass hport hports
  | launching launch home hsrv hport hports =>
    exact .launching launch (home.kill pid) hsrv hport hports
  | launched htasks halive hport hports =>
    refine .launched htasks (fun q p hp hwatched => ?_) hport hports
    simp only [Native.HomeScreen.State.kill, List.getElem?_modify] at hp
    obtain ⟨p', hp', heq⟩ := Option.map_eq_some_iff.1 hp
    split at heq
    · -- a proxy has a port, so it is not the one that has exited
      rename_i hq
      subst hq heq
      obtain ⟨-, listener, hmem⟩ := halive pid p' hp' hwatched
      exact absurd rfl (hnone _ hmem)
    · subst heq
      exact halive q p' hp' hwatched

/-- The handler of `exitCode` runs for processes that are dead. -/
theorem exitCode_of_live {pid : Pid}
    (h : ∀ p, s.home.processes[pid]? = some p → p.watched = true → p.live = true) :
    Native.HomeScreen.step s.home (.exitCode pid) = none := by
  simp only [Native.HomeScreen.step]
  split
  · rename_i p hp
    rw [if_neg]
    rintro ⟨hwatched, hdead⟩
    exact hdead (h p hp hwatched)
  · rfl

/-- So the handler of a proxy has nothing to do. -/
theorem exitCode_eq_none {pid : Pid} (hs : Phase bypass s) :
    Native.HomeScreen.step s.home (.exitCode pid) = none := by
  -- before the last phase no process is watched
  have hunwatched (hprocesses : ∀ p ∈ s.home.processes, p.kind ≠ .proxy ∧ p.watched = false) :
      Native.HomeScreen.step s.home (.exitCode pid) = none := by
    refine exitCode_of_live fun p hp hwatched => ?_
    rw [(hprocesses p (List.mem_of_getElem? hp)).2] at hwatched
    cases hwatched
  cases hs with
  | failed home => exact hunwatched home.processes
  | prepares _ _ _ home => exact hunwatched home.processes
  | writes _ home => exact hunwatched home.processes
  | shims _ _ _ home => exact hunwatched home.processes
  | launching _ home => exact hunwatched home.processes
  | launched _ halive _ _ => exact exitCode_of_live fun p hp hwatched => (halive pid p hp hwatched).1

/-- A port that is free stays free when somebody else frees one. -/
theorem vacate_of_none {ports : Ports} {port freed : Nat} (h : ports.at? port = none) :
    (ports.vacate freed).at? port = none := by
  rw [at?_vacate, h]
  intro _ l hl
  cases h.symm.trans hl

/-- So do the ports that the start needs. -/
theorem Vacant.vacate {ports : Ports} {freed : Nat} (h : Vacant bypass ports)
    (hfreed : 1080 = freed → ∀ l, ports.at? 1080 ≠ some (.other, l)) :
    Vacant bypass (ports.vacate freed) := by
  cases bypass with
  | false => exact vacate_of_none h
  | true =>
    refine ⟨vacate_of_none h.1, ?_⟩
    rw [Shimmed, at?_vacate hfreed]
    exact h.2

/-- A port that others free is not the one the shim has, so the shim is still in front. -/
theorem Fronted.vacate {ports : Ports} {freed : Nat} (h : Fronted bypass ports)
    (hfreed : 1080 = freed → ∀ l, ports.at? 1080 ≠ some (.other, l)) :
    Fronted bypass (ports.vacate freed) := by
  refine ⟨vacate_of_none h.1, fun hbypass => ?_⟩
  rw [Shimmed, at?_vacate hfreed]
  exact h.2 hbypass

/-- Nor is it the one the proxy has. -/
theorem Chained.vacate {ports : Ports} {freed : Nat} (h : Chained bypass ports)
    (hfreed : 1080 = freed → ∀ l, ports.at? 1080 ≠ some (.other, l)) :
    Chained bypass (ports.vacate freed) := by
  obtain ⟨⟨pid, hproxy⟩, hshim⟩ := h
  refine ⟨⟨pid, ?_⟩, fun hbypass => ?_⟩
  · rw [at?_vacate, hproxy]
    intro _ l hl
    cases hproxy.symm.trans hl
  · rw [Shimmed, at?_vacate hfreed]
    exact hshim hbypass

/-- Somebody else frees a port. -/
theorem phase_vacate {port : Nat} (hs : Phase bypass s)
    (hsteady : DesktopSteady s (.vacate port)) :
    Phase bypass { s with ports := s.ports.vacate port } := by
  -- if the port that the system dials is freed, nobody else had it
  have hfreed : 1080 = port → ∀ l, s.ports.at? 1080 ≠ some (.other, l) := by
    rintro rfl l hl
    exact hsteady rfl _ hl rfl
  cases hs with
  | failed home => exact .failed home
  | prepares pc launch hpc home hsrv hlaunch hports =>
    exact .prepares pc launch hpc home hsrv hlaunch (hports.vacate hfreed)
  | writes launch home hsrv hlaunch hport hports =>
    exact .writes launch home hsrv hlaunch hport (hports.vacate hfreed)
  | shims pc launch hpc home hsrv hbypass hport hports =>
    exact .shims pc launch hpc home hsrv hbypass hport (hports.vacate hfreed)
  | launching launch home hsrv hport hports =>
    exact .launching launch home hsrv hport (hports.vacate hfreed)
  | launched htasks halive hport hports =>
    refine .launched htasks (fun pid p hp hwatched => ?_) hport (hports.vacate hfreed)
    obtain ⟨hlive, listener, hmem⟩ := halive pid p hp hwatched
    exact ⟨hlive, listener, List.mem_filter.2 ⟨hmem, by simp⟩⟩

/-- New settings do not touch what has been written. -/
theorem phase_configure (hs : Phase bypass s) (config : Config) :
    Phase bypass { s with home := { s.home with config } } := by
  cases hs with
  | failed home => exact .failed ⟨home.tasks, home.connected, home.processes⟩
  | prepares pc launch hpc home hsrv hlaunch hports =>
    exact .prepares pc launch hpc ⟨home.tasks, home.connected, home.processes⟩ hsrv hlaunch hports
  | writes launch home hsrv hlaunch hport hports =>
    exact .writes launch ⟨home.tasks, home.connected, home.processes⟩ hsrv hlaunch hport hports
  | shims pc launch hpc home hsrv hbypass hport hports =>
    exact .shims pc launch hpc ⟨home.tasks, home.connected, home.processes⟩ hsrv hbypass hport hports
  | launching launch home hsrv hport hports =>
    exact .launching launch ⟨home.tasks, home.connected, home.processes⟩ hsrv hport hports
  | launched htasks halive hport hports => exact .launched htasks halive hport hports

/-- **One step** of a start on a desktop. -/
theorem phase_step {e : Event} (hs : Phase bypass s) (hsteady : DesktopSteady s e)
    (hstep : s.step e = some t) : Phase bypass t := by
  cases e with
  | resume i reply => exact phase_resumed hs hsteady hstep
  | ready pid stderr =>
    obtain ⟨r, hr, heq⟩ := Option.map_eq_some_iff.1 hstep
    cases heq
    exact phase_ready hs hr
  | exit pid =>
    rw [Desktop.step] at hstep
    split at hstep
    · cases hstep
    · cases hstep
      exact phase_exit hs hsteady
  | exitCode pid =>
    -- no proxy dies in a steady run
    rw [Desktop.step, exitCode_eq_none hs] at hstep
    split at hstep <;> cases hstep
  | vacate port =>
    rw [Desktop.step] at hstep
    split at hstep
    · cases hstep
    · cases hstep
      exact phase_vacate hs hsteady
  | configure config =>
    cases hstep
    exact phase_configure hs config
  -- these are the steps of Android
  | notified | permission | launched | bridged => cases hstep

end Desktop

/-! ## The start on Android -/

section Android

variable {s t : Android}

/-- How far the start is. There is no shim, so the proxy has to have the port that is dialled. -/
inductive AndroidPhase (s : Android) : Prop where
  | failed (hpc : s.pc = .done) (hconnected : s.connected = false)
  | notifying (hpc : s.pc = .notifying) (hconnected : s.connected = false)
      (hsrv : s.srv.protocol ≠ .orcax) (hports : s.ports.at? 1080 = none)
  | asking (hpc : s.pc = .asking 1080) (hconnected : s.connected = false)
      (hports : s.ports.at? 1080 = none)
  | serving (hpc : s.pc = .serving 1080) (hports : s.ports.at? 1080 = none)
  | started (hpc : s.pc = .polling ∨ s.pc = .done)
      (hports : s.ports.at? 1080 = some (.child proxyPid, .proxy 1080))

/-- With domain bypass off, the service is told the port that is dialled. -/
theorem androidPhase_notified (hconnected : s.connected = false)
    (hsrv : s.srv.protocol ≠ .orcax) (hactive : bypassActive s.config = false)
    (hports : s.ports.at? 1080 = none) : AndroidPhase s.notified := by
  unfold Android.notified
  split
  · exact .failed rfl hconnected
  · have hport : proxyPort s.srv s.config = 1080 := by
      rw [proxyPort_eq hsrv, hactive]
      rfl
    refine .asking ?_ hconnected hports
    simp only [hport]

/-- New settings come too late for the service. -/
theorem androidPhase_configure (hs : AndroidPhase s) (config : Config) :
    AndroidPhase { s with config } := by
  cases hs with
  | failed hpc hconnected => exact .failed hpc hconnected
  | notifying hpc hconnected hsrv hports => exact .notifying hpc hconnected hsrv hports
  | asking hpc hconnected hports => exact .asking hpc hconnected hports
  | serving hpc hports => exact .serving hpc hports
  | started hpc hports => exact .started hpc hports

/-- A change to the ports that leaves port 1080 alone. -/
theorem androidPhase_ports (hs : AndroidPhase s) {ports : Ports}
    (h : ports.at? 1080 = s.ports.at? 1080) : AndroidPhase { s with ports } := by
  cases hs with
  | failed hpc hconnected => exact .failed hpc hconnected
  | notifying hpc hconnected hsrv hports => exact .notifying hpc hconnected hsrv (h.trans hports)
  | asking hpc hconnected hports => exact .asking hpc hconnected (h.trans hports)
  | serving hpc hports => exact .serving hpc (h.trans hports)
  | started hpc hports => exact .started hpc (h.trans hports)

/-- **One step** of a start on Android. -/
theorem androidPhase_step {e : Event} (hs : AndroidPhase s) (hsteady : AndroidSteady s e)
    (hstep : s.step e = some t) : AndroidPhase t := by
  -- each event is enabled in one phase; the others contradict the program counter
  cases e with
  | notified =>
    rw [Android.step] at hstep
    split at hstep
    · rename_i hnotifying
      cases hs with
      | notifying hpc hconnected hsrv hports =>
        cases hstep
        exact androidPhase_notified hconnected hsrv hsteady hports
      | started hpc => rcases hpc with hpc | hpc <;> cases hpc.symm.trans hnotifying
      | failed hpc | asking hpc | serving hpc => cases hpc.symm.trans hnotifying
    · cases hstep
  -- without the permission nothing is started
  | permission granted =>
    rw [Android.step] at hstep
    split at hstep
    · rename_i port hasking
      cases hs with
      | asking hpc hconnected hports =>
        cases hpc.symm.trans hasking
        split at hstep
        · cases hstep
          exact .serving rfl hports
        · cases hstep
          exact .failed rfl hconnected
      | started hpc => rcases hpc with hpc | hpc <;> cases hpc.symm.trans hasking
      | failed hpc | notifying hpc | serving hpc => cases hpc.symm.trans hasking
    · cases hstep
  | launched service =>
    rw [Android.step] at hstep
    split at hstep
    · rename_i port hserving
      cases hs with
      | serving hpc hports =>
        cases hpc.symm.trans hserving
        cases hstep
        -- in a steady run the service starts, and takes the free port
        rw [show service = .started from hsteady]
        have hfree : s.ports.at? (Listener.proxy 1080).port = none := hports
        exact .started (.inl rfl) (at?_bind_self hfree)
      | started hpc => rcases hpc with hpc | hpc <;> cases hpc.symm.trans hserving
      | failed hpc | notifying hpc | asking hpc => cases hpc.symm.trans hserving
    · cases hstep
  | bridged ok =>
    rw [Android.step] at hstep
    split at hstep
    · rename_i hpolling
      rw [if_pos (show ok = true from hsteady)] at hstep
      cases hstep
      cases hs with
      | started _ hports => exact .started (.inr rfl) hports
      | failed hpc | notifying hpc | asking hpc | serving hpc => cases hpc.symm.trans hpolling
    · cases hstep
  | exit pid =>
    rw [Android.step] at hstep
    split at hstep
    · cases hstep
    · cases hstep
      exact androidPhase_ports hs (by rw [free_of_none hsteady])
  | vacate port =>
    rw [Android.step] at hstep
    split at hstep
    · cases hstep
    · cases hstep
      -- nobody gives up the proxy's port
      refine androidPhase_ports hs (at?_vacate ?_)
      rintro rfl l hl
      exact hsteady rfl _ hl rfl
  | configure config =>
    cases hstep
    exact androidPhase_configure hs config
  | resume | ready | exitCode => cases hstep

end Android

/-! ## The chain -/

/-- What the machine is like before the start: on the ports that the start will need nobody
    else listens, except that port 1080 may be with a shim that leads to port 1081, if domain
    bypass is active. -/
def Clear (config : Config) (others : List Listener) : Platform → Prop
  | .desktop =>
    if bypassActive config then
      (∀ l ∈ others, l.port ≠ 1081) ∧ ∀ l ∈ others, l.port = dialled → l = shimListener
    else ∀ l ∈ others, l.port ≠ dialled
  | .android => ∀ l ∈ others, l.port ≠ dialled

/-- The invariant, for either platform. -/
def Holds (bypass : Bool) : State → Prop
  | .desktop s => Phase bypass s
  | .android s => AndroidPhase s

/-- A clear machine has the ports that the start needs. -/
theorem vacant_start {config : Config} {others : List Listener} (h : Clear config others .desktop) :
    Vacant (bypassActive config) (others.map (Owner.other, ·)) := by
  simp only [Clear] at h
  split at h
  · rename_i hactive
    rw [hactive]
    refine ⟨at?_others h.1, ?_⟩
    cases hfound : Ports.at? (others.map (Owner.other, ·)) 1080 with
    | none => exact .inl rfl
    | some held =>
      -- whoever has the port is a shim
      have hport := List.find?_some hfound
      obtain ⟨l, hl, rfl⟩ := List.mem_map.1 (List.mem_of_find?_eq_some hfound)
      rw [h.2 l hl (of_decide_eq_true hport)] at hfound
      exact .inr ⟨.other, hfound⟩
  · rename_i hactive
    rw [Bool.eq_false_iff.2 hactive]
    exact at?_others h

/-- A start on a clear machine gives up at once or prepares. -/
theorem phase_start {config : Config} {srv : VpnServer} {others : List Listener}
    (hsrv : srv.protocol ≠ .orcax) (hclear : Clear config others .desktop) :
    Phase (bypassActive config) (Desktop.start config srv others) := by
  have hblank : Blank
      { Native.HomeScreen.State.new with connecting := true, config, tasks := [] } :=
    ⟨rfl, rfl, fun p hp => by cases hp⟩
  have hcases : Blank (Desktop.start config srv others).home ∨ ∃ pc launch, preparing pc = true ∧
      Starting (Desktop.start config srv others).home pc launch ∧ launch.srv = srv ∧
      launch.bypass = bypassActive config := by
    simp only [Desktop.start, Native.HomeScreen.launch]
    -- a tunnel through a call needs its link
    split
    · split
      · exact .inl hblank.giveUp
      · exact .inr ⟨.findVkTurn, _, rfl, hblank.wait _ _, rfl, rfl⟩
    · exact .inr ⟨.findBinary, _, rfl, hblank.wait _ _, rfl, rfl⟩
  rcases hcases with hfailed | ⟨pc, launch, hpc, hstarting, rfl, hbypass⟩
  · exact .failed hfailed
  · exact .prepares pc launch hpc hstarting hsrv hbypass (vacant_start hclear)

/-- The invariant holds at the start of either platform. -/
theorem holds_start {config : Config} {srv : VpnServer} {others : List Listener}
    {platform : Platform} (hsrv : srv.protocol ≠ .orcax) (hclear : Clear config others platform) :
    Holds (bypassActive config) (State.start config srv others platform) := by
  cases platform with
  | desktop => exact phase_start hsrv hclear
  | android => exact .notifying rfl rfl hsrv (at?_others hclear)

/-- **One step** of either platform. -/
theorem holds_step {bypass : Bool} {s t : State} {e : Event} {o : List Empty}
    (hs : Holds bypass s) (hsteady : Steady s e) (hstep : step s e = some (t, o)) :
    Holds bypass t := by
  cases s with
  | desktop s =>
    obtain ⟨r, hr, heq⟩ := Option.map_eq_some_iff.1 hstep
    cases heq
    exact phase_step hs hsteady hr
  | android s =>
    obtain ⟨r, hr, heq⟩ := Option.map_eq_some_iff.1 hstep
    cases heq
    exact androidPhase_step hs hsteady hr

/-- The proxy on its port, with the shim in front of it if it is needed, closes the chain. -/
theorem closed_of_chained {s : Desktop} {bypass : Bool}
    (hport : s.configPort = some (portOf bypass)) (hports : Chained bypass s.ports) :
    Closed (.desktop s) := by
  obtain ⟨⟨pid, hproxy⟩, hshim⟩ := hports
  cases bypass with
  | false =>
    have hat : (State.desktop s).ports.at? dialled = some (.child pid, .proxy 1080) := hproxy
    rw [Closed, hat]
    trivial
  | true =>
    obtain ⟨owner, hshim⟩ := hshim rfl
    have hat : (State.desktop s).ports.at? dialled = some (owner, .shim 1080 1081) := hshim
    rw [Closed, hat]
    cases owner <;> exact ⟨hport, pid, hproxy⟩

def vlessServer : VpnServer where
  protocol := .vless
  name := []
  addr := []
  params := []

/-- Domain bypass is on. -/
def bypassing : Config := { Config.initial with domainBypass := true }

end Fogged.Spec.LocalPorts
