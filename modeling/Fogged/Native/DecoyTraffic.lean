import Mathlib.Data.List.Basic

/-!
# Decoy traffic (`lib/services/decoy_traffic.dart`, `DecoyTrafficService`)

While the tunnel is up the service fetches some page through the local proxy every now
and then. A fetch that is done arms the timer for the next one: timers and fetches form
a chain, which `stop` is meant to break and `start` to begin.

`start`, `stop` and the callback of a timer up to its `await` run without interruption,
and so does what follows the `await`. Timers fire at any time after they have been set,
and a fetch takes any time, so the delays, the pages and their headers are left out.
-/

namespace Fogged.Native.DecoyTraffic

abbrev TimerId := Nat

structure State where
  running : Bool
  socksPort : Nat
  /-- `_timer`: the last timer set, until `stop` drops it. -/
  timer : Option TimerId
  /-- The timers that have been set, and neither fired nor been cancelled. -/
  pending : List TimerId
  /-- The callbacks that wait for `_fireOne`. -/
  inFlight : Nat
  /-- How many timers there have been. -/
  timers : Nat
  deriving DecidableEq

def State.new : State where
  running := false
  socksPort := 1080
  timer := none
  pending := []
  inFlight := 0
  timers := 0

inductive Event where
  | start (socksPort : Nat)
  | stop
  /-- A timer fires. -/
  | fire (timer : TimerId)
  /-- A fetch is done, or has failed. -/
  | complete
  deriving DecidableEq

inductive Effect where
  /-- A page is fetched through this port of the local host. -/
  | fetch (socksPort : Nat)
  deriving DecidableEq

def scheduleNext (s : State) : State :=
  if s.running then
    { s with
      timer := some s.timers
      pending := s.pending ++ [s.timers]
      timers := s.timers + 1 }
  else s

/-- Calling `start` while already running is a no-op. -/
def start (s : State) (socksPort : Nat) : State :=
  if s.running then s else scheduleNext { s with running := true, socksPort }

def stop (s : State) : State :=
  match s.timer with
  | some timer => { s with running := false, timer := none, pending := s.pending.erase timer }
  | none => { s with running := false }

/-- The callback up to its `await`. -/
def fire (s : State) (timer : TimerId) : State × List Effect :=
  let t := { s with pending := s.pending.erase timer }
  if t.running then ({ t with inFlight := t.inFlight + 1 }, [.fetch t.socksPort]) else (t, [])

/-- One turn of the event loop; `none` if the event is not possible. -/
def step (s : State) : Event → Option (State × List Effect)
  | .start socksPort => some (start s socksPort, [])
  | .stop => some (stop s, [])
  | .fire timer => if timer ∈ s.pending then some (fire s timer) else none
  | .complete =>
    if 0 < s.inFlight then some (scheduleNext { s with inFlight := s.inFlight - 1 }, []) else none

end Fogged.Native.DecoyTraffic
