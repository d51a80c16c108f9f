import Mathlib.Logic.Function.Basic
import Fogged.Native.LaunchArgs

/-!
# Connecting and disconnecting (`lib/main.dart`, `_HomeScreenState`)

On a desktop the app runs up to three child processes: the proxy, the domain-bypass
shim in front of it and vk-turn-client behind it. `_startProxy` and `_disconnect` are
`async`: at every `await` they give up control, and the rest runs when the awaited
operation is done, after whatever else has run by then.

The model is the event loop. `tasks` are the continuations that are pending, each with
the local variables it has captured. A step resumes one of them up to its next `await`,
or it is something the user, a child process or the operating system does. A child
process is started, and its field assigned, in the step that resumes after
`Process.start`; a killed process counts as dead from then on, but its listeners may
still get lines it had written.

The widget is mounted throughout. What the subscription, the account and the stored
preferences contain is not computed: `configure` sets the fields that they feed, to any
values and at any time, so that the requests in between appear as single `await`s.
Logs, error messages, the arguments of the child processes, the decoy traffic, the
speed tests and the Android branches are left out.
-/

namespace Fogged.Native.HomeScreen

open Fogged.Native.App Fogged.Native.Handshake

/-! ## Servers -/

/-- The server is reached through VK TURN. -/
def isVkTurn (srv : VpnServer) : Bool := srv.param "transport" = some (ascii "vkturn")

/-- The fields that other code writes and the connection code reads. -/
structure Config where
  servers : List VpnServer
  protocol : Protocol
  /-- The name of the chosen server. -/
  server : Text
  /-- `_uuid` is not empty. -/
  loggedIn : Bool
  domainBypass : Bool
  splitDomains : List Text
  vkCallLink : Text
  fullTesting : Bool

/-- As the fields are initialised. -/
def Config.initial : Config where
  servers := []
  protocol := .vlessReality
  server := []
  loggedIn := false
  domainBypass := false
  splitDomains := []
  vkCallLink := []
  fullTesting := false

def Config.filteredServers (config : Config) : List VpnServer :=
  match config.protocol with
  | .vlessReality => config.servers.filter (·.protocol = .vless)
  | .hysteria2 => config.servers.filter (·.protocol = .hysteria2)
  | .orcaxProMax | .orcaxVless | .orcaxHysteria2 => config.servers.filter (·.protocol = .orcax)

/-- The server to connect to: the one with the name `_server`, or the first one. -/
def Config.selected (config : Config) : Option VpnServer :=
  match config.filteredServers with
  | [] => none
  | first :: rest => some (((first :: rest).find? (·.name = config.server)).getD first)

/-- The first server becomes the chosen one, if there is one. -/
def Config.selectFirst (config : Config) : Config :=
  match config.filteredServers with
  | [] => config
  | first :: _ => { config with server := first.name }

/-! ## Processes and pending continuations -/

inductive Kind where
  | proxy
  | shim
  /-- vk-turn-client, `_blackoutProcess`. -/
  | vkTurn
  deriving DecidableEq

abbrev Pid := Nat

structure Proc where
  kind : Kind
  /-- `proto` of the `_startProxy` that started it. -/
  proto : Scheme
  live : Bool
  /-- The `exitCode` handler has not run. Only proxies have one. -/
  watched : Bool
  deriving DecidableEq

/-- The local variables of a `_startProxy`: `srv` and `domainBypassActive`. -/
structure Launch where
  srv : VpnServer
  bypass : Bool
  deriving DecidableEq

/-- What a `_startProxy` that has chosen its server waits for. -/
inductive StartPc where
  /-- `findVkTurnClient()`. -/
  | findVkTurn
  /-- 250 ms after it has killed the last vk-turn-client. -/
  | pause
  | startVkTurn
  /-- `ready.future`. -/
  | awaitVkTurn
  /-- `findBinary('orcax-connect')` or `findSingBox()`. -/
  | findBinary
  | writeConfig
  /-- `findBinary('orcax-connect')`, for the shim. -/
  | findShim
  | startShim
  | startProxy
  deriving DecidableEq

/-- Who has called `_probeApiAndLoad`. -/
inductive ProbeCaller where
  | initState
  | startProxy
  | refresh
  deriving DecidableEq

/-- Who has called `_fetchSubscription`. -/
inductive FetchCaller where
  | startProxy
  | refresh
  /-- The region selector. -/
  | region
  deriving DecidableEq

/-- What is to happen after a `_disconnect`. -/
inductive AfterDisconnect where
  | nothing
  /-- A new start, as the three selectors of the main screen want it. -/
  | restart
  /-- A new start after 300 ms, as the settings want it. -/
  | settings
  deriving DecidableEq

/-- What is to happen after `_enableVpnRouting` or `_disableVpnRouting`. -/
inductive AfterRouting where
  | nothing
  | onConnected
  /-- The `exitCode` handler goes on to reconnect. -/
  | reconnect
  /-- The `exitCode` handler goes on to give up. -/
  | giveUp
  /-- `_disconnect` goes on. -/
  | release (call : Nat) (after : AfterDisconnect)
  deriving DecidableEq

/-- The pending continuations. -/
inductive Task where
  /-- `_probeApiAndLoad` waits for an endpoint. -/
  | probing (endpoint : Nat) (caller : ProbeCaller)
  /-- `_loadAuth` up to the end of `_fetchAccountInfo`. -/
  | loadingAuth
  | fetching (caller : FetchCaller)
  | starting (pc : StartPc) (launch : Launch)
  /-- 500 ms after a line on stdout. -/
  | lineDelay
  /-- The timer of two seconds. -/
  | fallback
  /-- `_setSystemProxy(change)`; `none` where `_enableVpnRouting` returns at once. -/
  | routing (change : Option Bool) (after : AfterRouting)
  /-- The `exitCode` handler waits for two seconds. -/
  | reconnecting
  /-- `_disconnect` looks for processes on the ports 1080 and 1081. -/
  | sweeping (call : Nat) (after : AfterDisconnect)
  /-- `_disconnect` waits for 500 ms. -/
  | releasing (call : Nat) (after : AfterDisconnect)
  /-- The settings wait for 300 ms after their `_disconnect`. -/
  | settingsPause
  /-- The settings store a changed preference. -/
  | saving
  deriving DecidableEq

structure State where
  connected : Bool
  connecting : Bool
  config : Config
  /-- `_proxyProcess`, `_shimProcess` and `_blackoutProcess`. -/
  refs : Kind → Option Pid
  /-- All child processes there have been. -/
  processes : List Proc
  tasks : List Task
  /-- How often `_disconnect` has been called. -/
  calls : Nat

/-- After `initState`, which calls `_probeApiAndLoad`. -/
def State.new : State where
  connected := false
  connecting := false
  config := .initial
  refs _ := none
  processes := []
  tasks := [.probing 0 .initState]
  calls := 0

/-- What can be observed. -/
inductive Effect where
  /-- `_startProxy` is called. -/
  | startCalled
  | started (kind : Kind) (pid : Pid)
  /-- The system's SOCKS proxy is switched on or off. -/
  | switched (enable : Bool)
  /-- A call of `_disconnect` begins. -/
  | disconnecting (call : Nat)
  /-- It has run to completion. -/
  | disconnected (call : Nat)
  deriving DecidableEq

/-- What becomes of an awaited operation. -/
inductive Reply where
  | ok
  /-- It yields `null`, `false` or an error code. -/
  | no
  | throws
  deriving DecidableEq

/-! ## The synchronous parts -/

/-- Come to an `await`. -/
def State.wait (s : State) (task : Task) : State := { s with tasks := s.tasks ++ [task] }

/-- The start ends without a connection. -/
def State.giveUp (s : State) : State := { s with connecting := false }

def State.kill (s : State) (pid : Pid) : State :=
  { s with processes := s.processes.modify pid fun p => { p with live := false } }

def State.setRef (s : State) (kind : Kind) (ref : Option Pid) : State :=
  { s with refs := Function.update s.refs kind ref }

/-- `_proxyProcess?.kill(); _proxyProcess = null;`, and the same for the others. -/
def State.stop (s : State) (kind : Kind) : State :=
  match s.refs kind with
  | some pid => (s.kill pid).setRef kind none
  | none => s.setRef kind none

/-- `Process.start` has returned, and its result is assigned. -/
def State.spawn (s : State) (kind : Kind) (proto : Scheme) : State :=
  let proc := { kind, proto, live := true, watched := kind = .proxy }
  { s with processes := s.processes ++ [proc] }.setRef kind (some s.processes.length)

def onConnected (s : State) : State := { s with connected := true, connecting := false }

def enableVpnRouting (s : State) (after : AfterRouting) : State :=
  s.wait (.routing (if s.config.fullTesting then none else some true) after)

def disableVpnRouting (s : State) (after : AfterRouting) : State :=
  s.wait (.routing (some false) after)

/-! ## `_startProxy` -/

/-- From the choice of a server on. -/
def launch (s : State) (srv : VpnServer) : State :=
  let launch := { srv, bypass := s.config.domainBypass || !s.config.splitDomains.isEmpty }
  if isVkTurn srv then
    if s.config.vkCallLink = [] then s.giveUp else s.wait (.starting .findVkTurn launch)
  else s.wait (.starting .findBinary launch)

/-- `_startProxy` up to its first `await`. -/
def startProxy (s : State) : State × List Effect :=
  match s.config.selected with
  | none => (s.wait (.probing 0 .startProxy), [.startCalled])
  | some srv => (launch s srv, [.startCalled])

/-- `_startProxy` after an empty list has been fetched anew. -/
def retryStart (s : State) : State :=
  match s.config.selected with
  | none => s.giveUp
  | some srv => launch s srv

/-- `_startProxy` from one `await` to the next. -/
def resumeStart (s : State) (reply : Reply) (launch : Launch) : StartPc → State × List Effect
  | .findVkTurn =>
    match reply with
    | .ok =>
      match s.refs .vkTurn with
      | some _ => ((s.stop .vkTurn).wait (.starting .pause launch), [])
      | none => (s.wait (.starting .startVkTurn launch), [])
    | .no | .throws => (s.giveUp, [])
  | .pause => (s.wait (.starting .startVkTurn launch), [])
  | .startVkTurn =>
    match reply with
    | .ok =>
      ((s.spawn .vkTurn launch.srv.protocol).wait (.starting .awaitVkTurn launch),
        [.started .vkTurn s.processes.length])
    | .no | .throws => (s.giveUp, [])
  | .awaitVkTurn =>
    match reply with
    | .ok => (s.wait (.starting .findBinary launch), [])
    | .no | .throws => ((s.stop .vkTurn).giveUp, [])
  | .findBinary =>
    match reply with
    | .ok =>
      match launch.srv.protocol with
      | .orcax => (s.wait (.starting .startProxy launch), [])
      | .vless | .hysteria2 => (s.wait (.starting .writeConfig launch), [])
    | .no | .throws => (s.giveUp, [])
  | .writeConfig =>
    match reply with
    | .ok =>
      if launch.bypass then (s.wait (.starting .findShim launch), [])
      else (s.wait (.starting .startProxy launch), [])
    | .no | .throws => (s.giveUp, [])
  | .findShim =>
    match reply with
    | .ok => (s.wait (.starting .startShim launch), [])
    -- without the binary there is a warning and no shim
    | .no => (s.wait (.starting .startProxy launch), [])
    | .throws => (s.giveUp, [])
  | .startShim =>
    match reply with
    | .ok =>
      ((s.spawn .shim launch.srv.protocol).wait (.starting .startProxy launch),
        [.started .shim s.processes.length])
    | .no | .throws => (s.giveUp, [])
  | .startProxy =>
    match reply with
    | .ok =>
      let t := s.spawn .proxy launch.srv.protocol
      match launch.srv.protocol with
      | .orcax => (t, [.started .proxy s.processes.length])
      | .vless | .hysteria2 => (t.wait .fallback, [.started .proxy s.processes.length])
    | .no | .throws => (s.giveUp, [])

/-! ## `_disconnect` and the callbacks -/

/-- `_disconnect` up to its first `await`. -/
def disconnect (s : State) (after : AfterDisconnect) : State × List Effect :=
  let t := { s with connected := false, connecting := false, calls := s.calls + 1 }
  ((((t.stop .proxy).stop .shim).stop .vkTurn).wait (.sweeping s.calls after),
    [.disconnecting s.calls])

/-- A selector of the main screen or a setting has changed. -/
def reconnectIfConnected (s : State) (after : AfterDisconnect) : State × List Effect :=
  if s.connected then disconnect s after else (s, [])

/-- The rest of `_disconnect`, and what its caller does then. -/
def released (s : State) (call : Nat) (after : AfterDisconnect) : State × List Effect :=
  let t := { s with connected := false, connecting := false }
  match after with
  | .nothing => (t, [.disconnected call])
  | .restart =>
    let r := startProxy { t with connecting := true }
    (r.1, .disconnected call :: r.2)
  | .settings => (t.wait .settingsPause, [.disconnected call])

/-- The `exitCode` handler up to its first `await`. -/
def exitHandler (s : State) : State :=
  if s.connected then
    disableVpnRouting { s with connecting := true, connected := false } .reconnect
  else disableVpnRouting ((s.stop .shim).stop .vkTurn) .giveUp

/-- `_setSystemProxy` has returned. -/
def routed (s : State) : AfterRouting → State
  | .nothing => s
  | .onConnected => onConnected s
  | .reconnect => s.wait .reconnecting
  | .giveUp => { s with connected := false, connecting := false }
  | .release call after => s.wait (.releasing call after)

/-- A line that reads as ready, in the listener of `p`. -/
def readyLine (s : State) (p : Proc) (stderr : Bool) : State :=
  if stderr = false ∧ p.proto = .orcax then
    -- `_handleOrcaxOutput`, on the status `connected`
    onConnected (enableVpnRouting s .nothing)
  else if s.connected then s
  else if stderr then onConnected (enableVpnRouting s .nothing)
  else s.wait .lineDelay

/-- The number of `_apiEndpoints`. -/
def apiEndpoints : Nat := 4

/-- `_probeApiAndLoad` has returned. -/
def probed (s : State) : ProbeCaller → State
  | .initState => s
  | .startProxy => if s.config.loggedIn then s.wait (.fetching .startProxy) else retryStart s
  | .refresh => if s.config.loggedIn then s.wait (.fetching .refresh) else s

/-- The end of `_loadAuth`; `auto` says whether the user was connected at the end of
    the last session or wants to be from the start. -/
def loadedAuth (s : State) (auto : Bool) : State × List Effect :=
  match s.config.selected with
  | some selected =>
    if auto ∧ ¬ isVkTurn selected then startProxy { s with connecting := true } else (s, [])
  | none => (s, [])

/-- A continuation runs to its next `await`; it is no longer in `s.tasks`. -/
def resume (s : State) (reply : Reply) : Task → State × List Effect
  | .probing endpoint caller =>
    if reply ≠ .ok ∧ endpoint + 1 < apiEndpoints then (s.wait (.probing (endpoint + 1) caller), [])
    else (probed (s.wait .loadingAuth) caller, [])
  | .loadingAuth => loadedAuth s (reply = .ok)
  | .fetching .startProxy => (retryStart s, [])
  | .fetching .refresh => (s, [])
  | .fetching .region => reconnectIfConnected { s with config := s.config.selectFirst } .restart
  | .starting pc launch => resumeStart s reply launch pc
  | .lineDelay => (enableVpnRouting s .onConnected, [])
  | .fallback => if s.connected then (s, []) else (enableVpnRouting s .onConnected, [])
  | .routing _ after => (routed s after, [])
  | .reconnecting => if s.connecting then startProxy s else (s, [])
  | .sweeping call after => (disableVpnRouting s (.release call after), [])
  | .releasing call after => released s call after
  | .settingsPause => startProxy s
  | .saving => reconnectIfConnected s .settings

/-! ## The whole -/

inductive Event where
  /-- A pending continuation runs. -/
  | resume (i : Nat) (reply : Reply)
  /-- A command of a pending `_setSystemProxy` takes effect. -/
  | switch (i : Nat)
  /-- A pending `_disconnect` kills a process that listens on one of its ports. -/
  | sweep (i : Nat) (pid : Pid)
  /-- A process exits, or is killed by somebody else. -/
  | exit (pid : Pid)
  /-- Its `exitCode` future completes. -/
  | exitCode (pid : Pid)
  /-- A listener gets a line that reads as ready. -/
  | ready (pid : Pid) (stderr : Bool)
  /-- A listener gets a line with the status `error`. -/
  | error (pid : Pid)
  | toggle
  | selectRegion
  | selectProtocol (protocol : Protocol)
  | selectServer (server : Text)
  | setDomainBypass (on : Bool)
  | setSplitDomains (domains : List Text)
  | refresh
  /-- The language is chosen at the first launch. -/
  | pickLang
  | logout
  /-- The subscription, the account, stored preferences or the speed test. -/
  | configure (config : Config)

/-- One turn of the event loop; `none` if the event is not possible. -/
def step (s : State) : Event → Option (State × List Effect)
  | .resume i reply =>
    match s.tasks[i]? with
    | some task => some (resume { s with tasks := s.tasks.eraseIdx i } reply task)
    | none => none
  | .switch i =>
    match s.tasks[i]? with
    | some (.routing (some enable) _) => some (s, [.switched enable])
    | _ => none
  | .sweep i pid =>
    match s.tasks[i]?, s.processes[pid]? with
    -- vk-turn-client listens on another port
    | some (.sweeping _ _), some p => if p.kind = .vkTurn then none else some (s.kill pid, [])
    | _, _ => none
  | .exit pid => some (s.kill pid, [])
  | .exitCode pid =>
    match s.processes[pid]? with
    | some p =>
      if p.watched ∧ ¬ p.live then
        let processes := s.processes.modify pid fun p => { p with watched := false }
        some (exitHandler { s with processes }, [])
      else none
    | none => none
  | .ready pid stderr =>
    match s.processes[pid]? with
    | some p => if p.kind = .proxy then some (readyLine s p stderr, []) else none
    | none => none
  | .error pid =>
    match s.processes[pid]? with
    | some p =>
      if p.kind = .proxy ∧ p.proto = .orcax then some ({ s with connecting := false }, []) else none
    | none => none
  | .toggle =>
    if s.connected ∨ s.connecting then some (disconnect s .nothing)
    else some (startProxy { s with connecting := true })
  | .selectRegion => some (s.wait (.fetching .region), [])
  | .selectProtocol protocol =>
    let config := { s.config with protocol }.selectFirst
    some (reconnectIfConnected { s with config } .restart)
  | .selectServer server =>
    if s.config.filteredServers = [] then none
    else
      let config := { s.config with server }
      some (reconnectIfConnected { s with config } .restart)
  | .setDomainBypass on =>
    let config := { s.config with domainBypass := on }
    some ({ s with config }.wait .saving, [])
  | .setSplitDomains domains =>
    let config := { s.config with splitDomains := domains }
    some ({ s with config }.wait .saving, [])
  | .refresh => some (s.wait (.probing 0 .refresh), [])
  | .pickLang => some (s.wait .loadingAuth, [])
  | .logout => some (disconnect s .nothing)
  | .configure config => some ({ s with config }, [])

end Fogged.Native.HomeScreen
