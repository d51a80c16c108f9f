import Mathlib.Data.List.Basic

/-!
# The VPN on Android (`MainActivity.kt`, `FoggedVpnService.kt`, `BootReceiver.kt`)

The Dart side calls the activity over a method channel. The activity stores what it is told in
preferences, asks for the permission if it has to, and sends the service an intent. The
service opens the TUN interface and starts the native processes. Intents are delivered one
after the other; everything here runs on the main thread, so a callback is one step. When the
device restarts, only the preferences are left.

What the operating system decides is part of an event: whether an interface is established,
which binaries exist, which processes can be started, whether a port is bound in time. Logs,
and what ends the process of the app but not the device, are left out. The numbers of calls,
interfaces and processes go on over a restart, so that no two of them are the same in a run.
-/

namespace Fogged.Native.AndroidVpn

/-! ## Preferences -/

/-- `call.argument`, for each argument of `startVpn`. -/
structure Arguments where
  server : Option String := none
  uuid : Option String := none
  protocol : Option String := none
  pubkey : Option String := none
  config : Option String := none
  vkTurn : Option Bool := none
  vkCallLink : Option String := none
  vkPeer : Option String := none
  vkIsVless : Option Bool := none
  whitelistMode : Option Bool := none
  deriving DecidableEq

/-- The preferences "vpn". -/
structure Prefs where
  server : String
  uuid : String
  protocol : String
  pubkey : String
  config : String
  vkTurn : Bool
  vkCallLink : String
  vkPeer : String
  vkIsVless : Bool
  whitelistMode : Bool
  deriving DecidableEq

/-- What `startVpn` stores. -/
def Arguments.prefs (args : Arguments) : Prefs where
  server := args.server.getD ""
  uuid := args.uuid.getD ""
  protocol := args.protocol.getD "quic"
  pubkey := args.pubkey.getD ""
  config := args.config.getD ""
  vkTurn := args.vkTurn.getD false
  vkCallLink := args.vkCallLink.getD ""
  vkPeer := args.vkPeer.getD ""
  vkIsVless := args.vkIsVless.getD false
  whitelistMode := args.whitelistMode.getD false

/-- Preferences that have never been stored read the same as those of a call without
    arguments. -/
def Prefs.unset : Prefs := Arguments.prefs {}

/-! ## The service -/

/-- `RU_BYPASS_PACKAGES`. -/
def ruBypassPackages : List String :=
  ["ru.sberbankmobile", "ru.sberbank.mobile", "com.idamob.tinkoff.android",
    "ru.vtb24.mobilebanking.android", "ru.alfabank.mobile.android", "ru.rosbank.android",
    "ru.raiffeisennews", "ru.gazprombank.mobile.android", "ru.mtsbank.mobile", "ru.psbank.mobile",
    "ru.gosuslugi.app", "ru.rostelecom.esia", "ru.mos.app", "ru.taxcom.mycheck",
    "ru.nalog.phystech", "com.vkontakte.android", "com.vk.im", "ru.ok.android",
    "ru.yandex.searchplugin", "ru.yandex.taxi", "ru.yandex.maps", "ru.yandex.market",
    "ru.yandex.money", "ru.mail.mailapp", "ru.wildberries.wbclient", "com.ozon.mysmart",
    "ru.cdek.sender", "ru.aliexpress.buyer", "ru.mts.mymts", "ru.beeline.services",
    "ru.megafon.mlk", "com.tele2.mytele2", "ru.hh.android", "ru.rabota.app2", "ru.sulpak.cdek",
    "com.avito.android"]

inductive Binary where
  | orcax
  | xray
  | hysteria
  | tun2socks
  | vkTurn
  deriving DecidableEq

def Binary.file : Binary → String
  | .orcax => "liborcax_connect.so"
  | .xray => "libxray.so"
  | .hysteria => "libhysteria.so"
  | .tun2socks => "libtun2socks.so"
  | .vkTurn => "libvk_turn_client.so"

/-- What the operating system decides about a start. -/
structure Env where
  packageName : String
  nativeDir : String
  filesDir : String
  /-- `addDisallowedApplication` does not throw. -/
  installed : String → Bool
  /-- `establish` does not return `null`. -/
  established : Bool
  exist : Binary → Bool
  /-- `ProcessBuilder.start` does not throw. -/
  starts : Binary → Bool
  /-- `writeText` does not throw. -/
  writes : Bool
  /-- Port 9002 is bound within ten seconds. -/
  vkReady : Bool

def Env.path (env : Env) (binary : Binary) : String := env.nativeDir ++ "/" ++ binary.file

inductive Action where
  | start
  | stop
  deriving DecidableEq

inductive Effect where
  /-- A call of the channel has its result. -/
  | answered (call : Nat) (answer : Bool)
  /-- The user is asked for the permission. -/
  | requested (call : Nat)
  | sent (action : Action)
  | startedForeground (text : String)
  | stoppedForeground
  | notified (text : String)
  | stoppedSelf
  /-- The interface, and the applications that do not use it. -/
  | established (fd : Nat) (disallowed : List String)
  | closed (fd : Nat)
  | wrote (path text : String)
  | started (pid : Nat) (command : List String)
  | destroyed (pid : Nat)
  /-- The device has restarted: no interface and no process is left. -/
  | rebooted
  deriving DecidableEq

structure Service where
  isRunning : Bool
  tunFd : Option Nat
  orcaxProcess : Option Nat
  tun2socksProcess : Option Nat
  vkTurnProcess : Option Nat
  /-- The text of the notification, in the foreground. -/
  notification : Option String
  /-- The numbers that the system gives next. -/
  nextFd : Nat
  nextPid : Nat
  deriving DecidableEq

def Service.new : Service where
  isRunning := false
  tunFd := none
  orcaxProcess := none
  tun2socksProcess := none
  vkTurnProcess := none
  notification := none
  nextFd := 0
  nextPid := 0

namespace Service

/-- Nothing of the service is left but the numbers. -/
def reboot (s : Service) : Service := { new with nextFd := s.nextFd, nextPid := s.nextPid }

/-- One part of a callback after the other. -/
def andThen (r : Service × List Effect) (rest : Service → Service × List Effect) :
    Service × List Effect :=
  ((rest r.1).1, r.2 ++ (rest r.1).2)

def stopVpn (s : Service) : Service × List Effect :=
  ({ s with
      isRunning := false
      tun2socksProcess := none
      orcaxProcess := none
      vkTurnProcess := none
      tunFd := none
      notification := none },
    (s.tun2socksProcess.map Effect.destroyed).toList ++
      (s.orcaxProcess.map Effect.destroyed).toList ++
      (s.vkTurnProcess.map Effect.destroyed).toList ++ (s.tunFd.map Effect.closed).toList ++
      [.stoppedForeground, .stoppedSelf])

/-- The applications that `builder` excludes. -/
def disallowed (prefs : Prefs) (env : Env) : List String :=
  ([env.packageName] ++ if prefs.whitelistMode then ruBypassPackages else []).filter env.installed

def requiredBin (prefs : Prefs) : Binary :=
  if prefs.protocol = "xray" then .xray
  else if prefs.protocol = "hysteria" then .hysteria
  else .orcax

def vkCommand (prefs : Prefs) (env : Env) : List String :=
  [env.path .vkTurn, "-listen", "127.0.0.1:9002", "-peer", prefs.vkPeer, "-vk-link",
    prefs.vkCallLink, "-n", "3"] ++ if prefs.vkIsVless then ["-vless"] else []

/-- The file that the configuration is written to. -/
def configFile (prefs : Prefs) (env : Env) : Option String :=
  if prefs.protocol = "xray" then some (env.filesDir ++ "/vless.json")
  else if prefs.protocol = "hysteria" then some (env.filesDir ++ "/hy2.yaml")
  else none

def proxyCommand (prefs : Prefs) (env : Env) : List String :=
  if prefs.protocol = "xray" then
    [env.path .xray, "run", "-config", env.filesDir ++ "/vless.json"]
  else if prefs.protocol = "hysteria" then
    [env.path .hysteria, "client", "-c", env.filesDir ++ "/hy2.yaml"]
  else
    [env.path .orcax, "--server", prefs.server, "--socks", "127.0.0.1:1080", "--uuid", prefs.uuid,
      "--protocol", prefs.protocol]

def tun2socksCommand (env : Env) (fd : Nat) : List String :=
  [env.path .tun2socks, "--device", "fd://" ++ toString fd, "--proxy", "socks5://127.0.0.1:1080",
    "--loglevel", "warn"]

/-- The end of `startVpn`. -/
def startTun2socks (env : Env) (fd : Nat) (s : Service) : Service × List Effect :=
  if env.starts .tun2socks then
    ({ s with
        tun2socksProcess := some s.nextPid
        nextPid := s.nextPid + 1
        isRunning := true
        notification := some "Connected to Fogged VPN" },
      [.started s.nextPid (tun2socksCommand env fd), .notified "Connected to Fogged VPN"])
  else s.stopVpn

/-- The proxy of the protocol; whether its port is bound in time makes no difference. -/
def startProxy (prefs : Prefs) (env : Env) (fd : Nat) (s : Service) : Service × List Effect :=
  match configFile prefs env, env.writes with
  | some _, false => s.stopVpn
  | file, _ =>
    andThen (s, (file.map (Effect.wrote · prefs.config)).toList) fun s =>
      if env.starts (requiredBin prefs) then
        andThen
          ({ s with orcaxProcess := some s.nextPid, nextPid := s.nextPid + 1 },
            [.started s.nextPid (proxyCommand prefs env)])
          (startTun2socks env fd)
      else s.stopVpn

/-- vk-turn-client first, if it is asked for. -/
def startChain (prefs : Prefs) (env : Env) (fd : Nat) (s : Service) : Service × List Effect :=
  if prefs.vkTurn then
    if env.starts .vkTurn then
      andThen
        ({ s with vkTurnProcess := some s.nextPid, nextPid := s.nextPid + 1 },
          [.started s.nextPid (vkCommand prefs env)])
        fun s => if env.vkReady then s.startProxy prefs env fd else s.stopVpn
    else s.stopVpn
  else s.startProxy prefs env fd

/-- The binaries that a start needs are there. -/
def binariesExist (prefs : Prefs) (env : Env) : Bool :=
  env.exist (requiredBin prefs) && env.exist .tun2socks && (!prefs.vkTurn || env.exist .vkTurn)

/-- Something is missing in the preferences. -/
def incomplete (prefs : Prefs) : Bool :=
  prefs.server.isEmpty || prefs.uuid.isEmpty ||
    prefs.vkTurn && (prefs.vkCallLink.isEmpty || prefs.vkPeer.isEmpty)

def startVpn (prefs : Prefs) (env : Env) (s : Service) : Service × List Effect :=
  if s.isRunning then (s, [])
  else
    andThen ({ s with notification := some "Connecting..." }, [.startedForeground "Connecting..."])
      fun s =>
        if incomplete prefs then (s, [.stoppedSelf])
        else if env.established then
          andThen
            ({ s with tunFd := some s.nextFd, nextFd := s.nextFd + 1 },
              [.established s.nextFd (disallowed prefs env)])
            fun t =>
              if binariesExist prefs env then t.startChain prefs env s.nextFd else t.stopVpn
        else ({ s with tunFd := none }, [.stoppedSelf])

/-- `onStartCommand`. -/
def onStartCommand (prefs : Prefs) (env : Env) (s : Service) : Action → Service × List Effect
  | .start => s.startVpn prefs env
  | .stop => s.stopVpn

end Service

/-! ## The activity, and the system around it -/

structure State where
  prefs : Prefs
  /-- The call that waits for the permission. -/
  pendingResult : Option Nat
  /-- Requests for the permission that have no result yet. -/
  dialogs : Nat
  /-- Calls of the channel are numbered. -/
  nextCall : Nat
  /-- Intents on their way to the service. -/
  intents : List Action
  service : Service
  deriving DecidableEq

def State.new : State where
  prefs := .unset
  pendingResult := none
  dialogs := 0
  nextCall := 0
  intents := []
  service := .new

inductive Event where
  /-- `startVpn`; `prepared` if `VpnService.prepare` returns `null`. -/
  | startVpn (args : Arguments) (prepared : Bool)
  | stopVpn
  | isVpnRunning
  | requestNotificationPermission
  /-- `onActivityResult`, with `RESULT_OK` or not. -/
  | activityResult (ok : Bool)
  /-- The device restarts. -/
  | reboot
  /-- `BootReceiver.onReceive`, with `auto_start` or not; `startable` if
      `startForegroundService` does not throw. The receiver is exported, so this can happen at
      any time. -/
  | bootReceived (autoStart startable : Bool)
  /-- The next intent reaches the service. -/
  | deliver (env : Env)
  /-- `onDestroy`. -/
  | destroy
  /-- `onRevoke`. -/
  | revoke

namespace State

def send (s : State) (action : Action) : State := { s with intents := s.intents ++ [action] }

/-- A callback of the service. -/
def callback (s : State) (r : Service × List Effect) : State × List Effect :=
  ({ s with service := r.1 }, r.2)

/-- A call of the channel gets its number. -/
def called (s : State) : State := { s with nextCall := s.nextCall + 1 }

def startVpn (s : State) (args : Arguments) (prepared : Bool) : State × List Effect :=
  let call := s.nextCall
  let s := { s.called with prefs := args.prefs }
  if prepared then (s.send .start, [.sent .start, .answered call true])
  else ({ s with pendingResult := some call, dialogs := s.dialogs + 1 }, [.requested call])

/-- `onActivityResult`; `none` if nobody has asked. -/
def onActivityResult (s : State) (ok : Bool) : Option (State × List Effect) :=
  if s.dialogs = 0 then none
  else
    let answers := (s.pendingResult.map (Effect.answered · ok)).toList
    let s := { s with pendingResult := none, dialogs := s.dialogs - 1 }
    some (if ok then (s.send .start, .sent .start :: answers) else (s, answers))

/-- What a restart of the device leaves: the preferences, which are on the disk. -/
def reboot (s : State) : State :=
  { new with prefs := s.prefs, nextCall := s.nextCall, service := s.service.reboot }

/-- `BootReceiver.onReceive`. -/
def onReceive (s : State) (autoStart startable : Bool) : State × List Effect :=
  if autoStart && !(s.prefs.server.isEmpty || s.prefs.uuid.isEmpty) && startable then
    (s.send .start, [.sent .start])
  else (s, [])

/-- One callback. -/
def step (s : State) : Event → Option (State × List Effect)
  | .startVpn args prepared => some (s.startVpn args prepared)
  | .stopVpn => some (s.called.send .stop, [.sent .stop, .answered s.nextCall true])
  | .isVpnRunning => some (s.called, [.answered s.nextCall s.service.isRunning])
  | .requestNotificationPermission => some (s.called, [.answered s.nextCall true])
  | .activityResult ok => s.onActivityResult ok
  | .reboot => some (s.reboot, [.rebooted])
  | .bootReceived autoStart startable => some (s.onReceive autoStart startable)
  | .deliver env =>
    match s.intents with
    | [] => none
    | action :: intents =>
      some ({ s with intents }.callback (s.service.onStartCommand s.prefs env action))
  | .destroy => some (s.callback s.service.stopVpn)
  | .revoke => some (s.callback s.service.stopVpn)

end State

end Fogged.Native.AndroidVpn
