import Fogged.Native.HomeScreen

/-!
# The local ports of a connection (`lib/main.dart`, `FoggedVpnService.kt`)

The system sends its traffic to 127.0.0.1:1080: on a desktop by the SOCKS setting of the
operating system, on Android through tun2socks. Behind that port is the proxy itself, or
the domain-bypass shim with the proxy behind it on port 1081. Which port the proxy is to
listen on is written into its configuration; it depends on the settings at that moment.

The model is one start, from the choice of the server until the app counts as connected. On
a desktop it is the start of `HomeScreen`, with the ports that processes listen on beside
it. Others may listen already, such as a shim that an earlier session has left behind. A
process that finds its port taken listens on nothing, and a process may exit at any time,
which frees its port. The settings may be changed whenever the start is suspended.
-/

namespace Fogged.Native.LocalPorts

open Fogged.Native.App Fogged.Native.Handshake
open Fogged.Native.HomeScreen (Config Launch Pid Reply Task isVkTurn)

/-- Domain bypass or split domains. -/
def bypassActive (config : Config) : Bool := config.domainBypass || !config.splitDomains.isEmpty

def upstreamSocksPort (config : Config) : Nat := if bypassActive config then 1081 else 1080

/-- The port in the configuration of the proxy, or in the arguments of orcax-connect. -/
def proxyPort (srv : VpnServer) (config : Config) : Nat :=
  match srv.protocol with
  | .orcax => 1080
  | .vless | .hysteria2 => upstreamSocksPort config

/-! ## Who listens -/

/-- What a process that listens on 127.0.0.1 does with a connection. -/
inductive Listener where
  | proxy (port : Nat)
  | shim (port upstream : Nat)
  deriving DecidableEq

def Listener.port : Listener → Nat
  | .proxy port | .shim port _ => port

/-- `--socks 127.0.0.1:1080 --upstream-socks 127.0.0.1:1081`. -/
def shimListener : Listener := .shim 1080 1081

/-- The port of the SOCKS setting, and of tun2socks. -/
def dialled : Nat := 1080

inductive Owner where
  /-- A process that this start has started. -/
  | child (pid : Pid)
  /-- Any other. -/
  | other
  deriving DecidableEq

/-- The ports that are taken. -/
abbrev Ports := List (Owner × Listener)

namespace Ports

/-- Who has the port. -/
def at? (ports : Ports) (port : Nat) : Option (Owner × Listener) :=
  ports.find? fun held => held.2.port = port

/-- A process binds its port, or fails to. -/
def bind (ports : Ports) (owner : Owner) (listener : Listener) : Ports :=
  match ports.at? listener.port with
  | none => ports ++ [(owner, listener)]
  | some _ => ports

/-- A process is gone. -/
def free (ports : Ports) (owner : Owner) : Ports := ports.filter fun held => held.1 ≠ owner

/-- A process of somebody else is gone. -/
def vacate (ports : Ports) (port : Nat) : Ports :=
  ports.filter fun held => ¬ (held.1 = .other ∧ held.2.port = port)

end Ports

/-! ## Desktop -/

structure Desktop where
  home : HomeScreen.State
  /-- `listen_port`. -/
  configPort : Option Nat
  ports : Ports

/-- `_startProxy` has chosen `srv`; `others` listen already. -/
def Desktop.start (config : Config) (srv : VpnServer) (others : List Listener) : Desktop where
  home := HomeScreen.launch
    { HomeScreen.State.new with connecting := true, config, tasks := [] } srv
  configPort := none
  ports := others.map (Owner.other, ·)

/-- The next step of task `i` writes the configuration. -/
def generates (home : HomeScreen.State) (i : Nat) (reply : Reply) : Option Launch :=
  match home.tasks[i]?, reply with
  | some (.starting .findBinary launch), .ok => some launch
  | _, _ => none

/-- A process that has been started binds its port. -/
def Desktop.started (s : Desktop) : HomeScreen.Effect → Desktop
  | .started .shim pid => { s with ports := s.ports.bind (.child pid) shimListener }
  | .started .proxy pid =>
    match s.configPort with
    | some port => { s with ports := s.ports.bind (.child pid) (.proxy port) }
    | none => s
  | _ => s

/-- The ports beside a step of the start. -/
def Desktop.resumed (s : Desktop) (i : Nat) (reply : Reply) : Option Desktop :=
  match HomeScreen.step s.home (.resume i reply) with
  | none => none
  | some (home, effects) =>
    match generates s.home i reply with
    | some launch => some { s with home, configPort := some (proxyPort launch.srv s.home.config) }
    | none => some (effects.foldl Desktop.started { s with home })

/-- The `exitCode` handler of a proxy that has died before the app was connected kills the
    shim. -/
def Desktop.exited (s : Desktop) (home : HomeScreen.State) : Desktop :=
  match s.home.refs .shim with
  | some shim => { s with home, ports := s.ports.free (.child shim) }
  | none => { s with home }

/-! ## Android -/

inductive AndroidPc where
  /-- `requestNotificationPermission`. -/
  | notifying
  /-- `startVpn`, with the port in its `config`. -/
  | asking (port : Nat)
  /-- The service has been told to start. -/
  | serving (port : Nat)
  /-- It has started the proxy, and waits ten seconds at most for somebody on port 1080. -/
  | polling
  | done
  deriving DecidableEq

structure Android where
  srv : VpnServer
  config : Config
  connected : Bool
  pc : AndroidPc
  configPort : Option Nat
  ports : Ports

def Android.start (config : Config) (srv : VpnServer) (others : List Listener) : Android where
  srv := srv
  config := config
  connected := false
  pc := .notifying
  configPort := none
  ports := others.map (Owner.other, ·)

/-- `_startProxy` from the permission to `startVpn`. -/
def Android.notified (s : Android) : Android :=
  if isVkTurn s.srv ∧ s.config.vkCallLink = [] then { s with pc := .done }
  else
    let port := proxyPort s.srv s.config
    { s with pc := .asking port, configPort := some port }

/-- How far `startVpn` of the service gets. -/
inductive Service where
  /-- It is running already, and returns at once. -/
  | running
  /-- It gives up. -/
  | gaveUp
  | started
  deriving DecidableEq

/-- The one child process that matters. -/
def proxyPid : Pid := 0

def Android.launched (s : Android) (port : Nat) : Service → Android
  | .running | .gaveUp => { s with pc := .done }
  | .started => { s with pc := .polling, ports := s.ports.bind (.child proxyPid) (.proxy port) }

/-! ## The two platforms -/

inductive State where
  | desktop (s : Desktop)
  | android (s : Android)

inductive Platform where
  | desktop
  | android

def State.start (config : Config) (srv : VpnServer) (others : List Listener) : Platform → State
  | .desktop => .desktop (.start config srv others)
  | .android => .android (.start config srv others)

def State.ports : State → Ports
  | .desktop s => s.ports
  | .android s => s.ports

def State.configPort : State → Option Nat
  | .desktop s => s.configPort
  | .android s => s.configPort

/-- The start has ended in the connected state; on Android the service is done, too. -/
def State.connected : State → Bool
  | .desktop s => s.home.connected
  | .android s => s.connected && s.pc = .done

inductive Event where
  /-- Task `i` of the start gets what it has waited for. -/
  | resume (i : Nat) (reply : Reply)
  /-- The listener of a proxy gets a line that reads as ready. -/
  | ready (pid : Pid) (stderr : Bool)
  /-- A child process exits. -/
  | exit (pid : Pid)
  /-- Its `exitCode` future completes. -/
  | exitCode (pid : Pid)
  /-- A process of somebody else frees its port. -/
  | vacate (port : Nat)
  /-- The notification permission is given or not. -/
  | notified
  /-- The VPN permission. -/
  | permission (granted : Bool)
  /-- The service has started the proxy, or not. -/
  | launched (service : Service)
  /-- The service has started tun2socks; if that fails, it stops the proxy. -/
  | bridged (ok : Bool)
  /-- The settings, or other fields, change. -/
  | configure (config : Config)

/-- Once the app is connected, an exit belongs to what follows the start. -/
def Desktop.step (s : Desktop) : Event → Option Desktop
  | .resume i reply => s.resumed i reply
  | .ready pid stderr =>
    (HomeScreen.step s.home (.ready pid stderr)).map fun r => { s with home := r.1 }
  | .exit pid =>
    if s.home.connected then none
    else
      (HomeScreen.step s.home (.exit pid)).map fun r =>
        { s with home := r.1, ports := s.ports.free (.child pid) }
  | .exitCode pid =>
    if s.home.connected then none
    else (HomeScreen.step s.home (.exitCode pid)).map fun r => s.exited r.1
  | .vacate port =>
    if s.home.connected then none else some { s with ports := s.ports.vacate port }
  | .configure config => some { s with home := { s.home with config } }
  | .notified | .permission _ | .launched _ | .bridged _ => none

def Android.step (s : Android) : Event → Option Android
  | .notified => if s.pc = .notifying then some s.notified else none
  | .permission granted =>
    match s.pc with
    | .asking port =>
      if granted then some { s with pc := .serving port, connected := true }
      else some { s with pc := .done }
    | _ => none
  | .launched service =>
    match s.pc with
    | .serving port => some (s.launched port service)
    | _ => none
  | .bridged ok =>
    match s.pc with
    | .polling =>
      if ok then some { s with pc := .done }
      else some { s with pc := .done, ports := s.ports.free (.child proxyPid) }
    | _ => none
  | .exit pid => if s.pc = .done then none else some { s with ports := s.ports.free (.child pid) }
  | .vacate port => if s.pc = .done then none else some { s with ports := s.ports.vacate port }
  | .configure config => some { s with config }
  | .resume _ _ | .ready _ _ | .exitCode _ => none

/-- One step. There is nothing to be seen but the state. -/
def step : State → Event → Option (State × List Empty)
  | .desktop s, e => (s.step e).map fun t => (.desktop t, [])
  | .android s, e => (s.step e).map fun t => (.android t, [])

end Fogged.Native.LocalPorts
