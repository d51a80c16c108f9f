import Mathlib.Logic.Function.Basic
import Fogged.Native.HomeScreen

/-!
# The server list (`lib/main.dart`, `_fetchSubscription`, `_cacheServers`)

The list of servers comes from the subscription of the selected region, `_mode`; if
that yields nothing and there is no list yet, from a DNS record, and then from the copy
that the last list of the region has left in the preferences. `_fetchSubscription` is
called by the user, by two timers, by the connection code and by the region selector,
and none of them waits for the others.

The model is the event loop, as in `HomeScreen`: a task is a call that is suspended,
and a step resumes it, with what it has waited for, up to its next `await`.
`_cacheServers` is not awaited, so it is a task of its own. The mode of a task is the
one in the URL that it has asked for.

What is in the body of a response is `decode`'s matter: Base64, UTF-8 and the parsing
of the lines, `none` where they throw. The choice of an API endpoint, the dialogs and
the logs are left out.
-/

namespace Fogged.Native.Subscription

open Fogged.Native.App Fogged.Native.Handshake
open Fogged.Native.HomeScreen (Config)

/-- `_mode`; a stored one may be any text. -/
abbrev Mode := Text

structure Response where
  statusCode : Nat
  body : Text
  deriving DecidableEq

inductive Task where
  /-- In `http.get`. -/
  | requesting (mode : Mode)
  /-- In `_dnsDiscoverServers`. -/
  | discovering (mode : Mode)
  /-- In `_loadCachedServers`, waiting for the preferences. -/
  | loadingCached (mode : Mode)
  /-- In `_cycleApiEndpoint`. -/
  | cycling
  /-- In the second `http.get`. -/
  | retrying (mode : Mode)
  /-- In `_cacheServers`, waiting for the preferences. -/
  | caching (servers : List VpnServer)
  deriving DecidableEq

structure State where
  /-- `_servers`, `_server`, `_protocol`, and whether `_uuid` is not empty. -/
  config : Config
  mode : Mode
  /-- The preferences `cached_servers_$mode`. -/
  cached : Mode → Option (List VpnServer)
  tasks : List Task

/-- As installed, after the login. -/
def State.new (mode : Mode) : State where
  config := { Config.initial with loggedIn := true }
  mode := mode
  cached _ := none
  tasks := []

inductive Event where
  /-- `_fetchSubscription` is called. -/
  | call
  /-- Task `i` gets its response; `none` if `http.get` throws. -/
  | respond (i : Nat) (response : Option Response)
  /-- Task `i` gets what was discovered; nothing if all providers fail. -/
  | discovered (i : Nat) (servers : List VpnServer)
  /-- Task `i` gets the preferences, or an error. -/
  | preferences (i : Nat) (ok : Bool)
  /-- Task `i` has another endpoint, or none. -/
  | cycled (i : Nat) (ok : Bool)
  /-- `_mode := mode`, by the region selector or from the stored settings. -/
  | setMode (mode : Mode)
  | login
  | logout
  deriving DecidableEq

inductive Effect where
  /-- A call that has asked for `mode` has got this list. -/
  | obtained (mode : Mode) (servers : List VpnServer)
  /-- A list is stored for `mode`. -/
  | stored (mode : Mode) (servers : List VpnServer)
  deriving DecidableEq

/-- `'Device limit reached'`. -/
def deviceLimit : Text := ascii "Device limit reached"

/-- Come to an `await`. -/
def State.wait (s : State) (task : Task) : State := { s with tasks := s.tasks ++ [task] }

/-- `_servers = servers`, and the first of them is chosen. -/
def assignServers (config : Config) (servers : List VpnServer) : Config :=
  match servers with
  | [] => { config with servers }
  | first :: _ =>
    let server :=
      match { config with servers }.filteredServers with
      | [] => first.name
      | filtered :: _ => filtered.name
    { config with servers, server }

def State.assign (s : State) (servers : List VpnServer) : State :=
  { s with config := assignServers s.config servers }

/-- The end of the first attempt: the list is cached and assigned, whatever it is. -/
def conclude (s : State) (servers : List VpnServer) : State :=
  (if servers ≠ [] then s.wait (.caching servers) else s).assign servers

/-- The first attempt after the response has been evaluated. -/
def evaluated (s : State) (mode : Mode) (servers : List VpnServer) : State :=
  if servers = [] ∧ s.config.servers ≠ [] then s
  else if servers = [] then s.wait (.discovering mode)
  else conclude s servers

/-- The response to the first request. -/
def responded (decode : Text → Option (List VpnServer)) (s : State) (mode : Mode) :
    Option Response → State × List Effect
  | none => (s.wait .cycling, [])
  | some response =>
    if response.statusCode = 200 then
      match decode response.body with
      | none => (s.wait .cycling, [])
      | some servers => (evaluated s mode servers, [.obtained mode servers])
    else if response.statusCode = 403 ∧ deviceLimit.isPrefixOf response.body then (s, [])
    else (evaluated s mode [], [])

/-- The response to the second one; its list is not cached. -/
def retried (decode : Text → Option (List VpnServer)) (s : State) (mode : Mode) :
    Option Response → State × List Effect
  | none => (s, [])
  | some response =>
    if response.statusCode = 200 then
      match decode response.body with
      | none => (s, [])
      | some servers => (if servers ≠ [] then s.assign servers else s, [.obtained mode servers])
    else (s, [])

/-- What has been discovered, or nothing; another call may have filled the list. -/
def discovered (s : State) (mode : Mode) (servers : List VpnServer) : State :=
  if servers = [] ∧ s.config.servers = [] then s.wait (.loadingCached mode)
  else conclude s servers

/-- The copy of the region that is selected now. -/
def loadCachedServers (s : State) (ok : Bool) : List VpnServer :=
  if ok then (s.cached s.mode).getD [] else []

/-- The list is stored for the region that is selected now. -/
def cacheServers (s : State) (servers : List VpnServer) (ok : Bool) : State × List Effect :=
  if ok then
    ({ s with cached := Function.update s.cached s.mode (some servers) }, [.stored s.mode servers])
  else (s, [])

/-- One turn of the event loop; `none` if the event is not possible. -/
def step (decode : Text → Option (List VpnServer)) (s : State) :
    Event → Option (State × List Effect)
  | .call => some (if s.config.loggedIn then s.wait (.requesting s.mode) else s, [])
  | .respond i response =>
    match s.tasks[i]? with
    | some (.requesting mode) =>
      some (responded decode { s with tasks := s.tasks.eraseIdx i } mode response)
    | some (.retrying mode) =>
      some (retried decode { s with tasks := s.tasks.eraseIdx i } mode response)
    | _ => none
  | .discovered i servers =>
    match s.tasks[i]? with
    | some (.discovering mode) =>
      some (discovered { s with tasks := s.tasks.eraseIdx i } mode servers, [.obtained mode servers])
    | _ => none
  | .preferences i ok =>
    match s.tasks[i]? with
    | some (.loadingCached _) =>
      let t := { s with tasks := s.tasks.eraseIdx i }
      some (conclude t (loadCachedServers t ok), [])
    | some (.caching servers) =>
      some (cacheServers { s with tasks := s.tasks.eraseIdx i } servers ok)
    | _ => none
  | .cycled i ok =>
    match s.tasks[i]? with
    | some .cycling =>
      let t := { s with tasks := s.tasks.eraseIdx i }
      some (if ok then t.wait (.retrying t.mode) else t, [])
    | _ => none
  | .setMode mode => some ({ s with mode }, [])
  | .login => some ({ s with config := { s.config with loggedIn := true } }, [])
  | .logout => some ({ s with config := { s.config with servers := [], loggedIn := false } }, [])

end Fogged.Native.Subscription
