import Fogged.Native.Subscription

/-!
# The full speed test (`lib/main.dart`, `_runFullSpeedTest`)

The test connects through every server in turn and measures. It fetches the
subscription first, turns domain bypass off for its duration, and makes each server
and its protocol the chosen ones while it is measured. In between it waits many times,
and the app goes on.

The model is the event loop, as in `HomeScreen`; a running test is suspended at one of
five places. A test that an exception has ended is gone, like one that has run to its
end. Of the rows with the results only their number matters: a test whose rows have
been replaced by the shorter list of another one fails at the first row that is missing.
What a connection does and what it measures is left out, and so are the changes of the
protocol and the server by the user.
-/

namespace Fogged.Native.SpeedTest

open Fogged.Native.App Fogged.Native.Handshake
open Fogged.Native.HomeScreen (Config isVkTurn)
open Fogged.Native.Subscription (assignServers)

structure Combo where
  protocol : Protocol
  server : Text
  deriving DecidableEq

/-- `_protocols`. -/
def protocols : List Protocol := [.vlessReality, .hysteria2, .orcaxProMax]

/-- Every protocol with each of its servers, except those behind VK TURN. -/
def combos (config : Config) : List Combo :=
  protocols.flatMap fun protocol =>
    ({ config with protocol }.filteredServers.filter (!isVkTurn ·)).map fun (srv : VpnServer) =>
      { protocol, server := srv.name }

/-- Where a test waits, with `savedDomainBypass`, `combos` and `i`. -/
inductive Test where
  /-- In `_fetchSubscription`. -/
  | fetching
  /-- In the first `_disconnect`. -/
  | starting (saved : Bool) (combos : List Combo)
  /-- Connecting and measuring, at most 35 s. -/
  | testing (saved : Bool) (combos : List Combo) (i : Nat)
  /-- In the `_disconnect` after that. -/
  | disconnecting (saved : Bool) (combos : List Combo) (i : Nat)
  /-- The 500 ms after that. -/
  | pausing (saved : Bool) (combos : List Combo) (i : Nat)
  deriving DecidableEq

structure State where
  config : Config
  /-- `_fullTestCancel`. -/
  cancel : Bool
  /-- How many `_fullTestResults` there are. -/
  rows : Nat
  tests : List Test

/-- No test is running. -/
def State.idle (config : Config) (rows : Nat) : State where
  config := { config with fullTesting := false }
  cancel := false
  rows := rows
  tests := []

inductive Event where
  /-- The button for the test. -/
  | tap
  /-- Test `k` has fetched the subscription; a list, if it has assigned one. -/
  | fetched (k : Nat) (servers : Option (List VpnServer))
  /-- `_disconnect` of test `k` is done or has thrown. -/
  | disconnected (k : Nat) (ok : Bool)
  /-- Test `k` has measured a server, or failed to. -/
  | tested (k : Nat)
  /-- The pause of test `k` is over. -/
  | paused (k : Nat)
  /-- The Stop button. -/
  | stop
  /-- The user's switch. -/
  | setDomainBypass (value : Bool)
  /-- Other code sets the fields that the account, the stored settings and the
      subscription feed. -/
  | reload (config : Config)

inductive Effect where
  | chose (domainBypass : Bool)
  deriving DecidableEq

/-- Come to an `await`. -/
def State.wait (s : State) (test : Test) : State := { s with tests := s.tests ++ [test] }

/-- The end of the test. -/
def restore (s : State) (saved : Bool) : State :=
  { s with config := { s.config with domainBypass := saved, fullTesting := false } }

/-- The loop, from its head at `i` to the next `await`. -/
def loop (s : State) (saved : Bool) (combos : List Combo) (i : Nat) : State :=
  match combos[i]? with
  | none => restore s saved
  | some combo =>
    if s.cancel then
      -- all the rows that are left are marked
      if combos.length ≤ s.rows then restore s saved else s
    else if i < s.rows then
      { s with config := { s.config with protocol := combo.protocol, server := combo.server } }.wait
        (.testing saved combos i)
    else s

/-- The test from the subscription on. -/
def proceed (s : State) : State :=
  if s.config.servers = [] then s
  else if combos s.config = [] then s
  else
    { s with config := { s.config with domainBypass := false } }.wait
      (.starting s.config.domainBypass (combos s.config))

/-- The test from the first `_disconnect` on. -/
def begin (s : State) (saved : Bool) (combos : List Combo) : State :=
  loop
    { s with
      config := { s.config with fullTesting := true }, cancel := false, rows := combos.length }
    saved combos 0

/-- `_runFullSpeedTest`, up to its first `await`. -/
def runFullSpeedTest (s : State) : State :=
  if s.config.fullTesting then s
  else if s.config.loggedIn then s.wait .fetching
  else proceed s

/-- One turn of the event loop; `none` if the event is not possible. -/
def step (s : State) : Event → Option (State × List Effect)
  | .tap => some (runFullSpeedTest s, [])
  | .fetched k servers =>
    match s.tests[k]? with
    | some .fetching =>
      let config :=
        match servers with
        | none => s.config
        | some servers => assignServers s.config servers
      some (proceed { s with config, tests := s.tests.eraseIdx k }, [])
    | _ => none
  | .disconnected k ok =>
    let t := { s with tests := s.tests.eraseIdx k }
    match s.tests[k]? with
    | some (.starting saved combos) => some (if ok then begin t saved combos else t, [])
    | some (.disconnecting saved combos i) =>
      some (if ok then t.wait (.pausing saved combos i) else t, [])
    | _ => none
  | .tested k =>
    match s.tests[k]? with
    | some (.testing saved combos i) =>
      let t := { s with tests := s.tests.eraseIdx k }
      some (if i < s.rows then t.wait (.disconnecting saved combos i) else t, [])
    | _ => none
  | .paused k =>
    match s.tests[k]? with
    | some (.pausing saved combos i) =>
      some (loop { s with tests := s.tests.eraseIdx k } saved combos (i + 1), [])
    | _ => none
  | .stop => if s.config.fullTesting then some ({ s with cancel := true }, []) else none
  | .setDomainBypass value =>
    some ({ s with config := { s.config with domainBypass := value } }, [.chose value])
  | .reload config =>
    some ({ s with config := { config with fullTesting := s.config.fullTesting } }, [])

end Fogged.Native.SpeedTest
