import Mathlib.Logic.Function.Basic
import Fogged.Native.StatusChannel

/-!
# The health monitor of QUIC mode (`orcax/client/src/main.rs`, `run_quic_mode`)

Every five seconds the monitor looks at the connection in use. When it is lost, the first of
the backup connections that is alive takes its place. If there is none, the monitor tries one
server after the other, over and over, and waits after each failure. The wait doubles with
every round, up to half a minute.

`QuicMode` has the lock that the monitor shares with the handlers, and leaves open how it comes
to a new connection; here it is the other way round.
-/

namespace Fogged.Native.QuicMonitor

open Fogged.Native.StatusChannel (Status)

/-- A QUIC connection. -/
abbrev ConnId := Nat

inductive Phase where
  /-- Between two checks. -/
  | sleeping
  /-- The connection is lost. -/
  | searching
  /-- About to try a server, with the counter `attempt` and the current `delay`. -/
  | trying (attempt delay : Nat)
  /-- Waiting before the next attempt. -/
  | waiting (attempt delay : Nat)
  deriving DecidableEq

structure State where
  /-- The connection in use. -/
  primary : ConnId
  /-- `close_reason().is_some()`. -/
  dead : ConnId → Bool
  /-- `backup_conns`. -/
  backups : List ConnId
  /-- Connections from this one on have not been made yet. -/
  nextConn : ConnId
  phase : Phase

/-- When the servers have been connected to; all connections but the first are backups. -/
def State.new (backups : Nat) : State where
  primary := 0
  dead _ := false
  backups := (List.range backups).map (· + 1)
  nextConn := backups + 1
  phase := .sleeping

inductive Event where
  /-- Five seconds are over. -/
  | check
  /-- The monitor goes through the backups. -/
  | search
  /-- `quic_connect_and_auth` returns. It has no time limit on the answer to the authentication,
      so this need not happen. -/
  | attempt (ok : Bool)
  /-- The wait is over. -/
  | wake
  /-- A connection is closed. -/
  | die (conn : ConnId)
  deriving DecidableEq

inductive Effect where
  | emit (status : Status) (detail : Option String)
  /-- A connection has been closed. -/
  | died (conn : ConnId)
  /-- A backup takes over. -/
  | failover (conn : ConnId)
  /-- Server number `server` has been tried and has accepted, or not. -/
  | tried (server : Nat) (ok : Bool)
  /-- A new connection is put into use. -/
  | reconnected (conn : ConnId)
  /-- The monitor waits for so many seconds. -/
  | slept (seconds : Nat)
  deriving DecidableEq

/-- The address in the status is fixed, whatever `--socks` says. -/
def connected : Effect := .emit .connected (some "127.0.0.1:1080")

def reconnecting : Effect := .emit .reconnecting none

/-- `delay = (delay * 2).min(30)`. -/
def doubled (delay : Nat) : Nat := min (delay * 2) 30

/-- The monitor, with `servers` servers in its list. -/
def step (servers : Nat) (s : State) : Event → Option (State × List Effect)
  | .check =>
    match s.phase with
    | .sleeping =>
      if s.dead s.primary then some ({ s with phase := .searching }, [reconnecting])
      else some (s, [])
    | _ => none
  | .search =>
    match s.phase with
    | .searching =>
      match s.backups.find? (fun conn => !s.dead conn) with
      | some conn =>
        some ({ s with primary := conn, backups := s.backups.erase conn, phase := .sleeping },
          [.failover conn, connected])
      | none => some ({ s with phase := .trying 0 1 }, [])
    | _ => none
  | .attempt ok =>
    match s.phase with
    | .trying attempt delay =>
      let server := attempt % servers
      if ok then
        some ({ s with primary := s.nextConn, nextConn := s.nextConn + 1, phase := .sleeping },
          [.tried server true, .reconnected s.nextConn, connected])
      else
        let delay := if (attempt + 1) % servers = 0 then doubled delay else delay
        some ({ s with phase := .waiting (attempt + 1) delay },
          [.tried server false, .slept delay])
    | _ => none
  | .wake =>
    match s.phase with
    | .waiting attempt delay => some ({ s with phase := .trying attempt delay }, [])
    | _ => none
  | .die conn => some ({ s with dead := Function.update s.dead conn true }, [.died conn])

end Fogged.Native.QuicMonitor
