import Fogged.ForStd.Machine
import Fogged.Native.QuicMode

/-!
# Who stands in the way of a failover

The health monitor can replace a dead connection only when no handler holds a read
guard. `Guarded` is what the lock ensures: a guard is one on the current connection,
and who holds one is recorded as a reader. Which handlers hold a guard when the
monitor asks for the write guard is decided when the connection dies: afterwards no
handler gets past the check for a dead connection.

## Key results

- `guarded_step`: what one step preserves
- `failover_unblocked`: runs in which the connection dies under relaying handlers only
- `failover_blocked_by_client`: a client that sends nothing blocks the failover
-/

namespace Fogged.Spec.QuicFailover

open Fogged.Native Fogged.Native.QuicMode
open Machine

/-! ## The invariant -/

/-- The monitor has found the connection dead and not replaced it yet. -/
def Lost : Monitor → Prop
  | .searching | .reconnecting | .installing _ => True
  | .sleeping | .checking => False

/-- Every handler with a guard is relaying over a stream of its connection. -/
def AllRelaying (s : State) : Prop :=
  ∀ h conn, (s.handlers h).guard = some conn → s.handlers h = .relaying conn

/-- What holds in every state. -/
structure Guarded (s : State) : Prop where
  /-- A guard is one on the current connection. -/
  current : ∀ h conn, (s.handlers h).guard = some conn → conn = s.primary
  /-- Who holds a guard is a reader. -/
  reader : ∀ h conn, (s.handlers h).guard = some conn → .handler h ∈ s.lock.readers
  /-- The monitor is only at work on a dead connection. -/
  lost : Lost s.monitor → s.dead s.primary = true
  /-- While the connection is dead, its handlers are relaying. -/
  relaying : s.dead s.primary = true → AllRelaying s

/-- At the start nobody holds the lock. -/
theorem guarded_new (backups : Nat) : Guarded (State.new backups) where
  current h conn hguard := by cases hguard
  reader h conn hguard := by cases hguard
  lost h := by cases h
  relaying h := by cases h

/-! ## Steps -/

/-- A step of handler `h`: the other handlers keep their phases and guards, and `h`
    itself has a guard only if it may. -/
theorem Guarded.handler {s t : State} (hs : Guarded s) (h : HandlerId)
    (hprimary : t.primary = s.primary) (hdead : t.dead = s.dead) (hmonitor : t.monitor = s.monitor)
    (hothers : ∀ h', h' ≠ h → t.handlers h' = s.handlers h')
    (hreaders : ∀ h', h' ≠ h → .handler h' ∈ s.lock.readers → .handler h' ∈ t.lock.readers)
    (hself : ∀ conn, (t.handlers h).guard = some conn → conn = s.primary ∧
      .handler h ∈ t.lock.readers ∧ (s.dead s.primary = true → t.handlers h = .relaying conn)) :
    Guarded t := by
  -- for each part, `h` itself and the others
  constructor
  · intro h' conn hguard
    rw [hprimary]
    by_cases hh : h' = h
    · subst hh
      exact (hself conn hguard).1
    · rw [hothers h' hh] at hguard
      exact hs.current h' conn hguard
  · intro h' conn hguard
    by_cases hh : h' = h
    · subst hh
      exact (hself conn hguard).2.1
    · rw [hothers h' hh] at hguard
      exact hreaders h' hh (hs.reader h' conn hguard)
  · rw [hmonitor, hprimary, hdead]
    exact hs.lost
  · rw [hprimary, hdead]
    intro hd h' conn hguard
    by_cases hh : h' = h
    · subst hh
      exact (hself conn hguard).2.2 hd
    · rw [hothers h' hh] at hguard ⊢
      exact hs.relaying hd h' conn hguard

/-- A step of the monitor that leaves the connection in place. -/
theorem Guarded.monitor {s t : State} (hs : Guarded s) (hprimary : t.primary = s.primary)
    (hdead : t.dead = s.dead) (hhandlers : t.handlers = s.handlers)
    (hreaders : ∀ h, .handler h ∈ s.lock.readers → .handler h ∈ t.lock.readers)
    (hlost : Lost t.monitor → s.dead s.primary = true) : Guarded t := by
  constructor
  · rw [hhandlers, hprimary]
    exact hs.current
  · rw [hhandlers]
    intro h conn hguard
    exact hreaders h (hs.reader h conn hguard)
  · rw [hprimary, hdead]
    exact hlost
  · rw [AllRelaying, hhandlers, hprimary, hdead]
    exact hs.relaying

/-- Without readers, whatever connection is put in place. -/
theorem Guarded.install {s t : State} (hs : Guarded s) (hempty : s.lock.readers = [])
    (hhandlers : t.handlers = s.handlers) (hlost : ¬ Lost t.monitor) : Guarded t := by
  have hnone (h : HandlerId) (conn : ConnId) (hguard : (t.handlers h).guard = some conn) : False := by
    rw [hhandlers] at hguard
    have hreader := hs.reader h conn hguard
    rw [hempty] at hreader
    cases hreader
  exact ⟨fun h conn hguard => (hnone h conn hguard).elim,
    fun h conn hguard => (hnone h conn hguard).elim, fun h => (hlost h).elim,
    fun _ h conn hguard => (hnone h conn hguard).elim⟩

/-- Other readers keep their guards. -/
theorem mem_release {lock : RwLock Task} {task : Task} {h : HandlerId}
    (hne : Task.handler h ≠ task) (hmem : .handler h ∈ lock.readers) :
    .handler h ∈ (lock.release task).readers :=
  (List.mem_erase_of_ne hne).2 hmem

/-- From one phase under the guard to the next, which only happens on a live
    connection. -/
theorem Guarded.advance {s : State} (hs : Guarded s) {h : HandlerId} {conn : ConnId}
    {phase next : Handler} (hphase : s.handlers h = phase) (hguard : phase.guard = some conn)
    (hnot : phase ≠ .relaying conn) (hnext : next.guard = some conn) :
    Guarded (s.setHandler h next) := by
  subst hphase
  refine hs.handler h rfl rfl rfl (fun h' hne => ?_) (fun _ _ hmem => hmem) ?_
  · simp only [State.setHandler, Function.update_of_ne hne]
  intro conn' hguard'
  simp only [State.setHandler, Function.update_self] at hguard'
  rw [hnext] at hguard'
  cases hguard'
  exact ⟨hs.current h conn hguard, hs.reader h conn hguard,
    fun hdead => absurd (hs.relaying hdead h conn hguard) hnot⟩

/-- A handler without a guard, wherever it is in the queue of the lock. -/
theorem Guarded.unguarded {s : State} (hs : Guarded s) {h : HandlerId} {handler : Handler}
    {lock : RwLock Task} (hguard : handler.guard = none)
    (hreaders : ∀ h', h' ≠ h → .handler h' ∈ s.lock.readers → .handler h' ∈ lock.readers) :
    Guarded { s.setHandler h handler with lock } := by
  refine hs.handler h rfl rfl rfl (fun h' hne => ?_) hreaders ?_
  · simp only [State.setHandler, Function.update_of_ne hne]
  · intro conn hconn
    simp only [State.setHandler, Function.update_self] at hconn
    rw [hguard] at hconn
    cases hconn

/-- Inside `quic_socks5` a handler goes from phase to phase under its guard, and
    drops it when it returns. -/
theorem guarded_stepHandler {wl : Option Whitelist} {s t : State} {e : Event} (hs : Guarded s)
    (hstep : stepHandler wl s e = some t) : Guarded t := by
  -- the phase is the one the event needs, by `hstep`
  cases e with
  | authenticated h =>
    cases hphase : s.handlers h <;> simp only [stepHandler, hphase, reduceCtorEq] at hstep
    cases hstep
    exact hs.advance hphase rfl (by simp) rfl
  | requested h host =>
    cases hphase : s.handlers h <;> simp only [stepHandler, hphase, reduceCtorEq] at hstep
    cases hstep
    exact hs.advance hphase rfl (by simp) (by split <;> rfl)
  | opened h =>
    cases hphase : s.handlers h <;> simp only [stepHandler, hphase, reduceCtorEq] at hstep
    split at hstep
    · cases hstep
    · cases hstep
      exact hs.advance hphase rfl (by simp) rfl
  | addressed h =>
    cases hphase : s.handlers h <;> simp only [stepHandler, hphase, reduceCtorEq] at hstep
    split at hstep
    · cases hstep
    · cases hstep
      exact hs.advance hphase rfl (by simp) rfl
  | replied h =>
    cases hphase : s.handlers h <;> simp only [stepHandler, hphase, reduceCtorEq] at hstep
    cases hstep
    exact hs.advance hphase rfl (by simp) rfl
  | leave h =>
    rw [stepHandler] at hstep
    split at hstep
    · cases hstep
      exact hs.unguarded rfl fun h' hne hmem => mem_release (by simpa using hne) hmem
    · cases hstep
  | _ => cases hstep

/-- Someone who gets the lock joins the readers, and the others stay. -/
theorem Guarded.granted {s : State} (hs : Guarded s) {task : Task} {access : Access}
    {lock : RwLock Task} (hgrant : s.lock.grant = some (task, access, lock)) :
    Guarded { s with lock } := by
  obtain ⟨-, ⟨-, hreaders⟩ | ⟨-, hempty, -⟩⟩ := RwLock.grant_eq_some hgrant
  · exact hs.monitor rfl rfl rfl (fun h hmem => hreaders ▸ List.mem_cons_of_mem _ hmem) hs.lost
  · refine hs.monitor rfl rfl rfl (fun h hmem => ?_) hs.lost
    rw [hempty] at hmem
    cases hmem

/-- A handler that has just got its guard keeps it only on a live connection. -/
theorem guarded_resumeHandler {s t : State} {h : HandlerId} (hs : Guarded s)
    (hreader : .handler h ∈ s.lock.readers) (hstep : resumeHandler s h = some t) : Guarded t := by
  have hdrop (handler : Handler) (hguard : handler.guard = none) :
      Guarded { s.setHandler h handler with lock := s.lock.release (.handler h) } :=
    hs.unguarded hguard fun h' hne hmem => mem_release (by simpa using hne) hmem
  -- both phases of waiting take the guard and look at the connection first
  have hkeep (hlive : ¬ s.dead s.primary = true) :
      Guarded (s.setHandler h (.negotiating s.primary)) := by
    refine hs.handler h rfl rfl rfl (fun h' hne => ?_) (fun _ _ hmem => hmem) ?_
    · simp only [State.setHandler, Function.update_of_ne hne]
    intro conn hguard
    simp only [State.setHandler, Function.update_self] at hguard
    cases hguard
    exact ⟨rfl, hreader, fun hdead => absurd hdead hlive⟩
  -- a dead connection: sleep after the first look, return after the second
  rw [resumeHandler] at hstep
  split at hstep
  · split at hstep
    · cases hstep
      exact hdrop .sleeping rfl
    · cases hstep
      exact hkeep ‹_›
  · split at hstep
    · cases hstep
      exact hdrop .returned rfl
    · cases hstep
      exact hkeep ‹_›
  · cases hstep

/-- The monitor looks at the connection, or replaces it when nobody reads. -/
theorem guarded_resumeMonitor {s t : State} {access : Access} {lock : RwLock Task}
    {out : List Effect} (hs : Guarded s) (hgrant : s.lock.grant = some (.monitor, access, lock))
    (hstep : resumeMonitor { s with lock } access = some (t, out)) : Guarded t := by
  have hs' := hs.granted hgrant
  have hstay (h : HandlerId) (hmem : .handler h ∈ lock.readers) :
      .handler h ∈ (lock.release .monitor).readers := mem_release (by simp) hmem
  unfold resumeMonitor at hstep
  split at hstep
  · simp only at hstep
    split at hstep
    · rename_i hdead
      cases hstep
      exact hs'.monitor rfl rfl rfl hstay fun _ => hdead
    · cases hstep
      exact hs'.monitor rfl rfl rfl hstay fun h => by cases h
  · -- the write guard is granted only when nobody reads
    cases hstep
    obtain ⟨-, ⟨hread, -⟩ | ⟨-, -, hempty⟩⟩ := RwLock.grant_eq_some hgrant
    · cases hread
    · exact hs'.install hempty rfl fun h => by cases h
  · cases hstep

/-- The condition on a step: the connection in use dies only while every handler with
    a guard is relaying. -/
def DiesUnderRelays (s : State) : Event → Prop
  | .die conn => conn = s.primary → AllRelaying s
  | _ => True

/-- A connection dies. -/
theorem guarded_die {s : State} {conn : ConnId} (hs : Guarded s)
    (hallowed : DiesUnderRelays s (.die conn)) :
    Guarded { s with dead := Function.update s.dead conn true } := by
  have hmono (hdead : s.dead s.primary = true) :
      Function.update s.dead conn true s.primary = true := by
    rw [Function.update_apply, hdead, ite_self]
  refine ⟨hs.current, hs.reader, fun h => hmono (hs.lost h), fun hdead => ?_⟩
  by_cases hconn : conn = s.primary
  · exact hallowed hconn
  -- the connection in use is as dead or alive as before
  · have hlive : Function.update s.dead conn true s.primary = s.dead s.primary :=
      Function.update_of_ne (Ne.symm hconn) true s.dead
    exact hs.relaying (hlive.symm.trans hdead)

/-- **One step.** A guard is for the connection in use, and the monitor replaces that only when
    there are none. -/
theorem guarded_step {wl : Option Whitelist} {s t : State} {e : Event} {out : List Effect}
    (hs : Guarded s) (hallowed : DiesUnderRelays s e) (hstep : step wl s e = some (t, out)) :
    Guarded t := by
  cases e with
  | accept h =>
    rw [step] at hstep
    split at hstep
    · cases hstep
      exact hs.unguarded rfl fun _ _ hmem => hmem
    · cases hstep
  | wake h =>
    rw [step] at hstep
    split at hstep
    · cases hstep
      exact hs.unguarded rfl fun _ _ hmem => hmem
    · cases hstep
  | grant =>
    rw [step] at hstep
    split at hstep
    · cases hstep
    · -- a handler's turn: it joins the readers
      rename_i h lock hgrant
      obtain ⟨ht, -⟩ := map_quiet_eq_some hstep
      have hreader : .handler h ∈ lock.readers := by
        obtain ⟨-, ⟨-, hreaders⟩ | ⟨hwrite, -⟩⟩ := RwLock.grant_eq_some hgrant
        · rw [hreaders]
          exact List.mem_cons_self
        · cases hwrite
      exact guarded_resumeHandler (hs.granted hgrant) hreader ht
    · cases hstep
    · -- the monitor's turn, to read or to write
      rename_i access lock hgrant
      exact guarded_resumeMonitor hs hgrant hstep
  | check =>
    rw [step] at hstep
    split at hstep
    · cases hstep
      exact hs.monitor rfl rfl rfl (fun _ hmem => hmem) fun h => by cases h
    · cases hstep
  -- the monitor searches only after it has seen the primary dead
  | search =>
    rw [step] at hstep
    split at hstep
    · rename_i hmonitor
      have hdead : s.dead s.primary = true := hs.lost (by rw [hmonitor]; trivial)
      split at hstep
      · cases hstep
        exact hs.monitor rfl rfl rfl (fun _ hmem => hmem) fun _ => hdead
      · cases hstep
        exact hs.monitor rfl rfl rfl (fun _ hmem => hmem) fun _ => hdead
    · cases hstep
  | reconnected =>
    rw [step] at hstep
    split at hstep
    · rename_i hmonitor
      have hdead : s.dead s.primary = true := hs.lost (by rw [hmonitor]; trivial)
      cases hstep
      exact hs.monitor rfl rfl rfl (fun _ hmem => hmem) fun _ => hdead
    · cases hstep
  -- the condition is about the connections that die
  | die conn =>
    cases hstep
    exact guarded_die hs hallowed
  | authenticated h | requested h host | opened h | addressed h | replied h | leave h =>
    obtain ⟨ht, -⟩ := map_quiet_eq_some hstep
    exact guarded_stepHandler hs ht

/-! ## Runs -/

/-- No client stands in the way of a failover: when the monitor waits for the write
    guard, the connection is dead, and whoever holds a guard is relaying over a stream
    of it. -/
def Unblocked (s : State) : Prop :=
  ∀ next, s.monitor = .installing next → s.dead s.primary = true ∧
    ∀ h conn, (s.handlers h).guard = some conn →
      conn = s.primary ∧ s.handlers h = .relaying conn

/-- **Failover is not blocked** in any run in which the connection in use dies only
    while every handler that holds a guard is relaying. -/
theorem failover_unblocked (wl : Option Whitelist) (backups : Nat) (es : List Event) (s : State)
    (out : List Effect) (hes : Allowed (step wl) DiesUnderRelays (State.new backups) es)
    (hrun : run (step wl) (State.new backups) es = some (s, out)) : Unblocked s := by
  have hs : Guarded s :=
    run_invariant_of_allowed (fun s e t o hs hallowed hstep => guarded_step hs hallowed hstep)
      (guarded_new backups) hes hrun
  intro next hmonitor
  have hdead := hs.lost (by rw [hmonitor]; trivial)
  exact ⟨hdead, fun h conn hguard =>
    ⟨hs.current h conn hguard, hs.relaying hdead h conn hguard⟩⟩

/-- The monitor finds the connection dead, has no backup, and reconnects. -/
def failover : List Event := [.check, .grant, .search, .reconnected]

/-- A client's handler, from the accept to the relay. -/
def serve (h : HandlerId) : List Event :=
  [.accept h, .grant, .authenticated h, .requested h (Handshake.ascii "example.org"), .opened h,
    .addressed h, .replied h]

/-- The connection dies under a relay, and the monitor waits for that relay alone. -/
theorem failover_unblocked_relay :
    ∃ s out, run (step none) (State.new 0) (serve 0 ++ ([.die 0] ++ failover)) = some (s, out) ∧
      s.monitor = .installing 1 ∧ s.handlers 0 = .relaying 0 ∧ Unblocked s := by
  -- the condition is about `die` alone
  have halways (es : List Event) (h : ∀ e ∈ es, ∀ conn, e ≠ .die conn) (s : State) :
      Allowed (step none) DiesUnderRelays s es := by
    refine allowed_of_forall (fun e he s => ?_) s
    cases e with
    | die conn => exact absurd rfl (h _ he conn)
    | _ => trivial
  have hrun : ∃ s out, run (step none) (State.new 0) (serve 0) = some (s, out) ∧
      Allowed (step none) DiesUnderRelays s ([.die 0] ++ failover) := by
    refine ⟨_, _, rfl, fun _ h conn hguard => ?_, fun s o _ => halways _ (by simp [failover]) s⟩
    by_cases hh : h = 0
    · subst hh
      cases hguard
      rfl
    · simp [State.setHandler, State.new, hh, Handler.guard] at hguard
  obtain ⟨s, out, hserve, hdie⟩ := hrun
  have hallowed := allowed_append (halways (serve 0) (by simp [serve]) (State.new 0)) hserve hdie
  obtain ⟨t, out', ht, hmonitor, hhandler⟩ : ∃ t out', run (step none) (State.new 0)
      (serve 0 ++ ([.die 0] ++ failover)) = some (t, out') ∧ t.monitor = .installing 1 ∧
        t.handlers 0 = .relaying 0 := ⟨_, _, rfl, rfl, rfl⟩
  exact ⟨t, out', ht, hmonitor, hhandler, failover_unblocked none 0 _ t out' hallowed ht⟩

/-- **A silent client blocks the failover**: it has connected and says nothing, and
    the connection dies. -/
theorem failover_blocked_by_client :
    ∃ s out, run (step none) (State.new 0) ([.accept 0, .grant, .die 0] ++ failover) =
      some (s, out) ∧ ¬ Unblocked s := by
  refine ⟨_, _, rfl, ?_⟩
  intro h
  exact absurd ((h 1 rfl).2 0 0 rfl).2 (by decide)

end Fogged.Spec.QuicFailover
