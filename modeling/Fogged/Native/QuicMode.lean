import Mathlib.Logic.Function.Basic
import Fogged.ForStd.RwLock
import Fogged.Native.Whitelist

/-!
# QUIC mode of orcax-connect (`orcax/client/src/main.rs`, `run_quic_mode`, `quic_socks5`)

One connection is in use at a time, behind a read-write lock. Every accepted SOCKS5
client is served by a handler that takes a read guard and keeps it until it
returns; a health monitor looks at the connection every five seconds and, when it is
dead, replaces it under the write guard, by a backup or by a new one.

The model is one step function: handlers and monitor run from one `.await` to the
next. What peers, timers and the network decide is in the events.
-/

namespace Fogged.Native.QuicMode

open Fogged.Native Fogged.Native.Handshake

/-- The first bytes of a stream: the command and the target. -/
def address (host : Text) (port : UInt16) : List UInt8 :=
  [1] ++ Bytes.toBE 2 port.toNat ++
    match IpAddr.parseIpv4 host with
    | some octets => [1] ++ octets
    | none => [2, UInt8.ofNat host.length] ++ host

/-- A QUIC connection. -/
abbrev ConnId := Nat

/-- A handler: which accepted client it serves. -/
abbrev HandlerId := Nat

/-- Where a handler is. From `negotiating` to `relaying` it is inside `quic_socks5`,
    with the read guard and the connection it guards. -/
inductive Handler where
  /-- Not accepted yet. -/
  | idle
  /-- In `conn.read()`, for the first time. -/
  | waiting
  /-- The connection was dead; half a second to go. -/
  | sleeping
  /-- In `conn.read()` again. -/
  | waitingAgain
  /-- In `socks5_auth`. -/
  | negotiating (conn : ConnId)
  /-- Waiting for the client's request. -/
  | requesting (conn : ConnId)
  /-- In `bypass_direct`. -/
  | bypassing (conn : ConnId)
  /-- In `conn.open_bi()`. -/
  | opening (conn : ConnId)
  /-- Writing the target address to the QUIC stream. -/
  | addressing (conn : ConnId)
  /-- Writing the SOCKS5 reply to the client. -/
  | replying (conn : ConnId)
  /-- Copying between the client and the QUIC stream. -/
  | relaying (conn : ConnId)
  | returned
  deriving DecidableEq

/-- The connection whose read guard a handler holds. -/
def Handler.guard : Handler → Option ConnId
  | .negotiating conn | .requesting conn | .bypassing conn | .opening conn | .addressing conn
  | .replying conn | .relaying conn => some conn
  | .idle | .waiting | .sleeping | .waitingAgain | .returned => none

/-- Where the health monitor is. -/
inductive Monitor where
  /-- Between two checks. -/
  | sleeping
  /-- In `conn_monitor.read()`. -/
  | checking
  /-- The connection is lost; about to look at the backups. -/
  | searching
  /-- No live backup; reconnecting from scratch. -/
  | reconnecting
  /-- In `conn_monitor.write()`, with the connection to put in place. -/
  | installing (conn : ConnId)
  deriving DecidableEq

/-- Who uses the lock. -/
inductive Task where
  | handler (h : HandlerId)
  | monitor
  deriving DecidableEq

structure State where
  /-- The connection behind the lock. -/
  primary : ConnId
  /-- `close_reason().is_some()`. -/
  dead : ConnId → Bool
  /-- `backup_conns`. -/
  backups : List ConnId
  /-- Connections from this one on have not been made yet. -/
  nextConn : ConnId
  lock : RwLock Task
  handlers : HandlerId → Handler
  monitor : Monitor

/-- All servers but the first are backups. -/
def State.new (backups : Nat) : State where
  primary := 0
  dead _ := false
  backups := (List.range backups).map (· + 1)
  nextConn := backups + 1
  lock := .new
  handlers _ := .idle
  monitor := .sleeping

/-- What happens next. -/
inductive Event where
  /-- A client is accepted, and its handler asks for a guard. -/
  | accept (h : HandlerId)
  /-- The lock is granted to the first of its queue, who runs on. -/
  | grant
  /-- The half second is over. -/
  | wake (h : HandlerId)
  /-- `socks5_auth` succeeds. -/
  | authenticated (h : HandlerId)
  /-- The client's request arrives. -/
  | requested (h : HandlerId) (host : Text)
  /-- The QUIC stream is open. -/
  | opened (h : HandlerId)
  /-- The target address is written. -/
  | addressed (h : HandlerId)
  /-- The reply is written. -/
  | replied (h : HandlerId)
  /-- The handler returns, with or without an error. -/
  | leave (h : HandlerId)
  /-- Five seconds are over. -/
  | check
  /-- The monitor goes through the backups. -/
  | search
  /-- A server has accepted the monitor's new connection. -/
  | reconnected
  /-- A connection is closed. -/
  | die (conn : ConnId)
  deriving DecidableEq

/-- The statuses the monitor reports. -/
inductive Effect where
  | reconnecting
  | connected
  deriving DecidableEq

def State.setHandler (s : State) (h : HandlerId) (handler : Handler) : State :=
  { s with handlers := Function.update s.handlers h handler }

/-- A handler that got its guard looks at the connection and drops the guard if the
    connection is dead: at first to sleep, the second time to return. -/
def resumeHandler (s : State) (h : HandlerId) : Option State :=
  match s.handlers h with
  | .waiting =>
    if s.dead s.primary then
      some { s.setHandler h .sleeping with lock := s.lock.release (.handler h) }
    else some (s.setHandler h (.negotiating s.primary))
  | .waitingAgain =>
    if s.dead s.primary then
      some { s.setHandler h .returned with lock := s.lock.release (.handler h) }
    else some (s.setHandler h (.negotiating s.primary))
  | _ => none

/-- The monitor with its read guard, which it drops at once, or with its write guard,
    under which it replaces the connection. -/
def resumeMonitor (s : State) (access : Access) : Option (State × List Effect) :=
  match s.monitor, access with
  | .checking, .read =>
    let s := { s with lock := s.lock.release .monitor }
    if s.dead s.primary then some ({ s with monitor := .searching }, [.reconnecting])
    else some ({ s with monitor := .sleeping }, [])
  | .installing conn, .write =>
    some ({ s with primary := conn, monitor := .sleeping }, [.connected])
  | _, _ => none

/-- The steps of a handler inside `quic_socks5`. `wl` is the whitelist. -/
def stepHandler (wl : Option Whitelist) (s : State) : Event → Option State
  | .authenticated h =>
    match s.handlers h with
    | .negotiating conn => some (s.setHandler h (.requesting conn))
    | _ => none
  | .requested h host =>
    match s.handlers h with
    | .requesting conn =>
      some (s.setHandler h (if Whitelist.bypasses wl host then .bypassing conn else .opening conn))
    | _ => none
  -- a stream of a dead connection is neither opened nor written to
  | .opened h =>
    match s.handlers h with
    | .opening conn => if s.dead conn then none else some (s.setHandler h (.addressing conn))
    | _ => none
  | .addressed h =>
    match s.handlers h with
    | .addressing conn => if s.dead conn then none else some (s.setHandler h (.replying conn))
    | _ => none
  | .replied h =>
    match s.handlers h with
    | .replying conn => some (s.setHandler h (.relaying conn))
    | _ => none
  | .leave h =>
    match (s.handlers h).guard with
    | some _ => some { s.setHandler h .returned with lock := s.lock.release (.handler h) }
    | none => none
  | _ => none

/-- One step of the whole. -/
def step (wl : Option Whitelist) (s : State) (e : Event) : Option (State × List Effect) :=
  match e with
  | .accept h =>
    match s.handlers h with
    | .idle =>
      some ({ s.setHandler h .waiting with lock := s.lock.request (.handler h) .read }, [])
    | _ => none
  | .wake h =>
    match s.handlers h with
    | .sleeping =>
      some ({ s.setHandler h .waitingAgain with lock := s.lock.request (.handler h) .read }, [])
    | _ => none
  | .grant =>
    match s.lock.grant with
    | none => none
    | some (.handler h, .read, lock) => (resumeHandler { s with lock } h).map (·, [])
    -- handlers never ask for the write guard
    | some (.handler _, .write, _) => none
    | some (.monitor, access, lock) => resumeMonitor { s with lock } access
  | .check =>
    match s.monitor with
    | .sleeping =>
      some ({ s with monitor := .checking, lock := s.lock.request .monitor .read }, [])
    | _ => none
  | .search =>
    match s.monitor with
    | .searching =>
      match s.backups.find? (fun conn => !s.dead conn) with
      | some conn =>
        some ({ s with
          backups := s.backups.erase conn
          monitor := .installing conn
          lock := s.lock.request .monitor .write }, [])
      | none => some ({ s with monitor := .reconnecting }, [])
    | _ => none
  | .reconnected =>
    match s.monitor with
    | .reconnecting =>
      some ({ s with
        nextConn := s.nextConn + 1
        monitor := .installing s.nextConn
        lock := s.lock.request .monitor .write }, [])
    | _ => none
  | .die conn => some ({ s with dead := Function.update s.dead conn true }, [])
  | e => (stepHandler wl s e).map (·, [])

end Fogged.Native.QuicMode
