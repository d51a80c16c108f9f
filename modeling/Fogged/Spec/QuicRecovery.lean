import Mathlib.Data.List.Nodup
import Fogged.ForStd.Machine
import Fogged.Native.QuicMonitor

/-!
# How QUIC mode recovers

Whatever happens to the connections, what the monitor does is one outage after another, and
none begins before the connection in use is lost. If there is a backup that is alive, the first
such one takes over at once. Only if all the backups that are left are dead, the servers are
tried in the order of their list, again and again, with a wait between two attempts that is one
second in the first round and doubles with each round, up to half a minute. Backups are used
up: each of them takes over once, and none is added.

If there is a server that accepts, an outage is over when it has had its turn. How long an
attempt takes is not bounded: a server that keeps silent holds the monitor up.

## Key results

- `outages_of_run`: what the monitor does in any run
- `recovery_of_run`: how many attempts an outage can take
-/

namespace Fogged.Spec.QuicMonitor

open Fogged.Native Fogged.Native.QuicMonitor

/-! ## Delays -/

section Delay

variable {n k : Nat}

/-- The wait before attempt `k`. -/
def delayAt (n k : Nat) : Nat := min 30 (2 ^ (k / n))

/-- No wait is longer than half a minute. -/
theorem delayAt_le (n k : Nat) : delayAt n k ≤ 30 := Nat.min_le_left _ _

/-- The first wait is one second. -/
theorem delayAt_zero (n : Nat) : delayAt n 0 = 1 := by
  rw [delayAt, Nat.zero_div]
  rfl

/-- The wait doubles at the end of a round. -/
theorem delayAt_succ :
    delayAt n (k + 1) = if (k + 1) % n = 0 then doubled (delayAt n k) else delayAt n k := by
  unfold delayAt doubled
  split
  · rename_i hround
    have hdiv : (k + 1) / n = k / n + 1 := Nat.succ_div_of_dvd (Nat.dvd_of_mod_eq_zero hround)
    rw [hdiv, pow_succ]
    omega
  · rename_i hround
    rw [Nat.succ_div_of_not_dvd fun hdvd => hround (Nat.mod_eq_zero_of_dvd hdvd)]

end Delay

/-! ## Steps -/

section Steps

variable {n : Nat} {s t : State} {e : Event} {o : List Effect}

/-- All that can happen. -/
inductive Step (n : Nat) (s : State) : State → List Effect → Prop
  | alive : Step n s s []
  | lost (hphase : s.phase = .sleeping) (hdead : s.dead s.primary = true) :
    Step n s { s with phase := .searching } [reconnecting]
  | failover {conn : ConnId} (hphase : s.phase = .searching)
    (hfind : s.backups.find? (fun conn => !s.dead conn) = some conn) :
    Step n s { s with primary := conn, backups := s.backups.erase conn, phase := .sleeping }
      [.failover conn, connected]
  | exhausted (hphase : s.phase = .searching) (hdead : ∀ conn ∈ s.backups, s.dead conn = true) :
    Step n s { s with phase := .trying 0 1 } []
  | accepted {k delay : Nat} (hphase : s.phase = .trying k delay) :
    Step n s { s with primary := s.nextConn, nextConn := s.nextConn + 1, phase := .sleeping }
      [.tried (k % n) true, .reconnected s.nextConn, connected]
  | failed {k delay delay' : Nat} (hphase : s.phase = .trying k delay)
    (hdelay : delay' = if (k + 1) % n = 0 then doubled delay else delay) :
    Step n s { s with phase := .waiting (k + 1) delay' } [.tried (k % n) false, .slept delay']
  | awake {k delay : Nat} (hphase : s.phase = .waiting k delay) :
    Step n s { s with phase := .trying k delay } []
  | died (conn : ConnId) :
    Step n s { s with dead := Function.update s.dead conn true } [.died conn]

/-- Every step is one of these. -/
theorem step_cases (hstep : step n s e = some (t, o)) : Step n s t o := by
  cases e with
  | check =>
    rw [step] at hstep
    split at hstep
    · rename_i hphase
      split at hstep
      · rename_i hdead
        cases hstep
        exact .lost hphase hdead
      · cases hstep
        exact .alive
    · cases hstep
  | search =>
    rw [step] at hstep
    split at hstep
    · rename_i hphase
      split at hstep
      · -- the first backup that is alive
        rename_i conn hfind
        cases hstep
        exact .failover hphase hfind
      · -- there is none
        rename_i hfind
        cases hstep
        exact .exhausted hphase (by simpa using List.find?_eq_none.1 hfind)
    · cases hstep
  | attempt ok =>
    rw [step] at hstep
    split at hstep
    · rename_i k delay hphase
      dsimp only at hstep
      split at hstep
      · cases hstep
        exact .accepted hphase
      · cases hstep
        exact .failed hphase rfl
    · cases hstep
  | wake =>
    rw [step] at hstep
    split at hstep
    · rename_i k delay hphase
      cases hstep
      exact .awake hphase
    · cases hstep
  | die conn =>
    cases hstep
    exact .died conn

end Steps

/-! ## Outages -/

section Outages

variable {n : Nat} {s t : State} {past o : List Effect}

/-- How the monitor finds another connection. -/
inductive Outage where
  /-- A backup takes over. -/
  | failover (conn : ConnId)
  /-- A server accepts after `failures` attempts that have failed. -/
  | reconnect (failures : Nat) (conn : ConnId)

/-- The first `k` attempts, which have failed, and the waits behind them. -/
def attempts (n k : Nat) : List Effect :=
  (List.range k).flatMap fun i => [.tried (i % n) false, .slept (delayAt n (i + 1))]

/-- One more attempt that has failed. -/
theorem attempts_succ (n k : Nat) :
    attempts n (k + 1) = attempts n k ++ [.tried (k % n) false, .slept (delayAt n (k + 1))] := by
  rw [attempts, attempts, List.range_succ, List.flatMap_append, List.flatMap_singleton]

/-- An outage from its beginning to its end. -/
def Outage.effects (n : Nat) : Outage → List Effect
  | .failover conn => [reconnecting, .failover conn, connected]
  | .reconnect k conn =>
    reconnecting :: attempts n k ++ [.tried (k % n) true, .reconnected conn, connected]

/-- An outage that is not over. -/
def underway (n : Nat) : Phase → List Effect
  | .sleeping => []
  | .searching => [reconnecting]
  | .trying k _ | .waiting k _ => reconnecting :: attempts n k

/-- What the monitor does, other than what happens to it. -/
def isAction : Effect → Bool
  | .died _ => false
  | _ => true

/-- The current wait is that of the current attempt. -/
def Timely (n : Nat) : Phase → Prop
  | .sleeping | .searching => True
  | .trying k delay | .waiting k delay => delay = delayAt n k

/-- All that the monitor has done is outages, of which the last may not be over. -/
structure Explained (n : Nat) (s : State) (past : List Effect) : Prop where
  outages : ∃ outages : List Outage,
    past.filter isAction = outages.flatMap (Outage.effects n) ++ underway n s.phase
  timely : Timely n s.phase

/-- Another outage is over. -/
theorem Explained.finish (h : Explained n s past) (outage : Outage)
    (heffects : underway n s.phase ++ o.filter isAction = outage.effects n)
    (ht : t.phase = .sleeping) : Explained n t (past ++ o) := by
  obtain ⟨outages, hpast⟩ := h.outages
  refine ⟨⟨outages ++ [outage], ?_⟩, by rw [ht]; trivial⟩
  rw [List.filter_append, hpast, ht, List.flatMap_append, List.flatMap_singleton,
    List.append_assoc, heffects]
  exact (List.append_nil _).symm

/-- The current outage goes on, or a new one begins. -/
theorem Explained.continue (h : Explained n s past)
    (heffects : underway n s.phase ++ o.filter isAction = underway n t.phase)
    (ht : Timely n t.phase) : Explained n t (past ++ o) := by
  obtain ⟨outages, hpast⟩ := h.outages
  refine ⟨⟨outages, ?_⟩, ht⟩
  rw [List.filter_append, hpast, List.append_assoc, heffects]

/-- **One step.** The outage that is under way goes on or ends, or another one begins. -/
theorem Explained.step (h : Explained n s past) (hstep : Step n s t o) :
    Explained n t (past ++ o) := by
  have htimely := h.timely
  cases hstep with
  | alive => exact h.continue (List.append_nil _) htimely
  | lost hphase => exact h.continue (by rw [hphase]; rfl) trivial
  | failover hphase => exact h.finish (.failover _) (by rw [hphase]; rfl) rfl
  | exhausted hphase => exact h.continue (by rw [hphase]; rfl) (delayAt_zero n).symm
  | accepted hphase => exact h.finish (.reconnect _ _) (by rw [hphase]; rfl) rfl
  | @failed k delay delay' hphase hdelay =>
    -- the attempt and the wait behind it are one more round of `attempts`
    rw [hphase] at htimely
    have hnext : delay' = delayAt n (k + 1) := by
      rw [hdelay, htimely]
      exact delayAt_succ.symm
    refine h.continue ?_ hnext
    rw [hphase, hnext]
    exact congrArg (reconnecting :: ·) (attempts_succ n k).symm
  | awake hphase =>
    rw [hphase] at htimely
    exact h.continue (by rw [hphase]; exact List.append_nil _) htimely
  | died conn => exact h.continue (List.append_nil _) htimely

end Outages

/-! ## Why they happen -/

section Warrants

variable {n b : Nat} {s t : State} {conn : ConnId} {past o : List Effect}

/-- The connection whose end is told. -/
def diedConn : Effect → Option ConnId
  | .died conn => some conn
  | _ => none

/-- The backup that takes over. -/
def backupUsed : Effect → Option ConnId
  | .failover conn => some conn
  | _ => none

/-- The connection that is put into use. -/
def installed : Effect → Option ConnId
  | .failover conn | .reconnected conn => some conn
  | _ => none

/-- The connections that have been closed. -/
def deaths (past : List Effect) : List ConnId := past.filterMap diedConn

/-- Of `b` backups, those that have not taken over yet. -/
def unused (b : Nat) (past : List Effect) : List ConnId :=
  ((List.range b).map (· + 1)).filter (· ∉ past.filterMap backupUsed)

/-- The connection put into use last. -/
def inUse (past : List Effect) : ConnId := (past.filterMap installed).getLastD 0

/-- What must have happened before an effect. The monitor tells that it reconnects only if the
    connection in use is lost. The backup that takes over is the first one that is alive, and
    the servers are tried only if all the backups are dead. -/
def Warranted (b : Nat) (past : List Effect) : Effect → Prop
  | .emit .reconnecting _ => inUse past ∈ deaths past
  | .failover conn => (unused b past).find? (· ∉ deaths past) = some conn
  | .tried _ _ => ∀ conn ∈ unused b past, conn ∈ deaths past
  | _ => True

/-- The state is what the past makes of it. -/
structure Recorded (b : Nat) (s : State) (past : List Effect) : Prop where
  dead : ∀ conn, s.dead conn = true ↔ conn ∈ deaths past
  backups : s.backups = unused b past
  primary : s.primary = inUse past
  exhausted : ∀ k delay, s.phase = .trying k delay ∨ s.phase = .waiting k delay →
    ∀ conn ∈ s.backups, s.dead conn = true
  warranted : Machine.Justified (Warranted b) [] past

/-- Each backup is there once. -/
theorem nodup_unused (b : Nat) (past : List Effect) : (unused b past).Nodup :=
  (List.Nodup.map Nat.succ_injective List.nodup_range).filter _

/-- No backup takes over. -/
theorem unused_append_of_none (h : o.filterMap backupUsed = []) :
    unused b (past ++ o) = unused b past := by
  rw [unused, List.filterMap_append, h, List.append_nil, unused]

/-- The connection in use stays in use. -/
theorem inUse_append_of_none (h : o.filterMap installed = []) :
    inUse (past ++ o) = inUse past := by
  rw [inUse, List.filterMap_append, h, List.append_nil, inUse]

/-- Another connection is put into use. -/
theorem inUse_append_of_last (h : o.filterMap installed = [conn]) :
    inUse (past ++ o) = conn := by
  rw [inUse, List.filterMap_append, h, List.getLastD_concat]

/-- No connection is closed. -/
theorem deaths_append_of_none (h : o.filterMap diedConn = []) :
    deaths (past ++ o) = deaths past := by
  rw [deaths, List.filterMap_append, h, List.append_nil, deaths]

/-- A backup that takes over is used up. -/
theorem unused_append_of_failover (h : o.filterMap backupUsed = [conn]) :
    unused b (past ++ o) = (unused b past).erase conn := by
  rw [(nodup_unused b past).erase_eq_filter, unused, unused, List.filterMap_append, h,
    List.filter_filter]
  refine List.filter_congr fun c _ => ?_
  by_cases hc : c = conn <;> simp [hc]

/-- A step on which no connection dies and no other one is put into use. -/
theorem Recorded.keep (h : Recorded b s past) (hdied : o.filterMap diedConn = [])
    (hused : o.filterMap backupUsed = []) (hinstalled : o.filterMap installed = [])
    (hdead : t.dead = s.dead) (hbackups : t.backups = s.backups) (hprimary : t.primary = s.primary)
    (hexhausted : ∀ k delay, t.phase = .trying k delay ∨ t.phase = .waiting k delay →
      ∀ conn ∈ s.backups, s.dead conn = true)
    (hwarranted : Machine.Justified (Warranted b) past o) : Recorded b t (past ++ o) where
  dead conn := by
    rw [hdead, deaths_append_of_none hdied]
    exact h.dead conn
  backups := by rw [hbackups, unused_append_of_none hused, h.backups]
  primary := by rw [hprimary, inUse_append_of_none hinstalled, h.primary]
  exhausted := by
    rw [hdead, hbackups]
    exact hexhausted
  warranted := Machine.justified_append.2 ⟨h.warranted, hwarranted⟩

/-- When the servers are tried, all the backups that are left are dead. -/
theorem Recorded.warranted_tried (h : Recorded b s past) {k delay : Nat}
    (hphase : s.phase = .trying k delay) : ∀ conn ∈ unused b past, conn ∈ deaths past := by
  intro conn hconn
  rw [← h.backups] at hconn
  exact (h.dead conn).1 (h.exhausted k delay (.inl hphase) conn hconn)

/-- **One step.** The state follows the past, and what the monitor does is warranted by it. -/
theorem Recorded.step (h : Recorded b s past) (hstep : Step n s t o) :
    Recorded b t (past ++ o) := by
  cases hstep with
  | alive => exact h.keep rfl rfl rfl rfl rfl rfl h.exhausted trivial
  | lost hphase hdead =>
    -- the outage begins because the connection in use is among the dead
    refine h.keep rfl rfl rfl rfl rfl rfl (by simp) ⟨?_, trivial⟩
    show inUse past ∈ deaths past
    rw [← h.primary]
    exact (h.dead _).1 hdead
  | @failover conn hphase hfind =>
    refine ⟨fun c => ?_, ?_, ?_, by simp, ?_⟩
    · rw [deaths_append_of_none rfl]
      exact h.dead c
    · rw [unused_append_of_failover rfl, h.backups]
    · rw [inUse_append_of_last rfl]
    · refine Machine.justified_append.2 ⟨h.warranted, ?_, trivial, trivial⟩
      -- the search looks at the state, `Warranted` at the past
      have halive : (fun c => decide (c ∉ deaths past)) = fun c => !s.dead c := by
        funext c
        simp [← h.dead c]
      rw [Warranted, List.nil_append, ← h.backups, halive, hfind]
  | exhausted hphase hdead => exact h.keep rfl rfl rfl rfl rfl rfl (fun _ _ _ => hdead) trivial
  | accepted hphase =>
    refine ⟨fun c => ?_, ?_, ?_, by simp, ?_⟩
    · rw [deaths_append_of_none rfl]
      exact h.dead c
    · rw [unused_append_of_none rfl, h.backups]
    · rw [inUse_append_of_last rfl]
    · exact Machine.justified_append.2
        ⟨h.warranted, h.warranted_tried hphase, trivial, trivial, trivial⟩
  | failed hphase =>
    exact h.keep rfl rfl rfl rfl rfl rfl (fun _ _ _ => h.exhausted _ _ (.inl hphase))
      ⟨h.warranted_tried hphase, trivial, trivial⟩
  | awake hphase =>
    exact h.keep rfl rfl rfl rfl rfl rfl (fun _ _ _ => h.exhausted _ _ (.inr hphase)) trivial
  | died conn =>
    refine ⟨fun c => ?_, ?_, ?_, fun k delay hphase c hc => ?_, ?_⟩
    · -- one more connection is dead
      rw [deaths, List.filterMap_append, List.mem_append, ← deaths, ← h.dead c]
      by_cases hc : c = conn <;> simp [hc, diedConn]
    · rw [unused_append_of_none rfl, h.backups]
    · rw [inUse_append_of_none rfl, h.primary]
    · by_cases heq : c = conn <;> simp [heq, h.exhausted k delay hphase c hc]
    · exact Machine.justified_append.2 ⟨h.warranted, trivial, trivial⟩

end Warrants

/-! ## Runs -/

section Runs

variable {n b j a : Nat} {s t : State} {e : Event} {past o : List Effect}

/-- `Explained` and `Recorded` hold in any run. -/
theorem explained_of_run {es : List Event} {out : List Effect}
    (hrun : Machine.run (step n) (State.new b) es = some (s, out)) :
    Explained n s out ∧ Recorded b s out := by
  have hnew : Explained n (State.new b) [] ∧ Recorded b (State.new b) [] := by
    refine ⟨⟨⟨[], rfl⟩, trivial⟩, by simp [State.new, deaths], ?_, rfl, ?_, trivial⟩
    · simp [State.new, unused]
    · simp [State.new]
  exact Machine.run_history (I := fun s past => Explained n s past ∧ Recorded b s past)
    (fun _ _ _ _ _ h (_ : True) hstep => ⟨h.1.step (step_cases hstep), h.2.step (step_cases hstep)⟩)
    hnew (fun _ _ => trivial) hrun

/-- Two servers and two backups, of which the second one takes over when the first one and the
    connection in use have died. When it has died too, the servers are tried in turn, and the
    third attempt succeeds. -/
def threeAttempts : List Event :=
  [.die 1, .die 0, .check, .search, .die 2, .check, .search, .attempt false, .wake,
    .attempt false, .wake, .attempt true]

/-- How many servers have been tried. -/
def tries (out : List Effect) : Nat := (out.flatMap triesOf).sum
where
  triesOf : Effect → List Nat
    | .tried _ _ => [1]
    | _ => []

/-- How long the monitor has waited between attempts. -/
def waits (out : List Effect) : Nat := (out.flatMap waitsOf).sum
where
  waitsOf : Effect → List Nat
    | .slept seconds => [seconds]
    | _ => []

theorem tries_append (past o : List Effect) : tries (past ++ o) = tries past + tries o := by
  rw [tries, List.flatMap_append, List.sum_append]
  rfl

theorem waits_append (past o : List Effect) : waits (past ++ o) = waits past + waits o := by
  rw [waits, List.flatMap_append, List.sum_append]
  rfl

/-- The number of the next attempt. -/
def counter : Phase → Nat
  | .sleeping | .searching => 0
  | .trying k _ | .waiting k _ => k

/-- Since attempt `a` the connection has not come back, and server `j` has not had its turn. -/
structure Lost (n j a : Nat) (s : State) (past : List Effect) : Prop where
  tried : tries past + a = counter s.phase
  missed : ∀ i, a ≤ i → i < counter s.phase → i % n ≠ j
  waited : waits past ≤ 30 * tries past

/-- A step that tries no server. -/
theorem Lost.quiet (h : Lost n j a s past) (htries : tries o = 0) (hwaits : waits o = 0)
    (hcounter : counter t.phase = counter s.phase) : Lost n j a t (past ++ o) := by
  refine ⟨?_, ?_, ?_⟩
  · rw [tries_append, htries, hcounter]
    exact h.tried
  · rw [hcounter]
    exact h.missed
  · rw [tries_append, waits_append, htries, hwaits]
    exact h.waited

/-- **One step** of an outage. An attempt that fails was not at server `j`, and is followed by
    one wait. -/
theorem Lost.step (hs : Timely n s.phase) (h : Lost n j a s past) (hstep : Step n s t o)
    (hturn : Effect.tried j false ∉ o) (hlost : connected ∉ o) : Lost n j a t (past ++ o) := by
  cases hstep with
  | alive => exact h.quiet rfl rfl rfl
  | lost hphase => exact h.quiet rfl rfl (by rw [hphase]; rfl)
  | failover => exact absurd (by simp) hlost
  | exhausted hphase => exact h.quiet rfl rfl (by rw [hphase]; rfl)
  | accepted => exact absurd (by simp) hlost
  | @failed k delay delay' hphase hdelay =>
    -- the server that has been tried is not `j`
    have hmiss : k % n ≠ j := by
      rintro rfl
      exact hturn (List.mem_cons_self ..)
    -- the delay doubles up to its bound
    have hle : delay' ≤ 30 := by
      rw [hphase] at hs
      rw [hdelay, show delay = delayAt n k from hs, ← delayAt_succ]
      exact delayAt_le n (k + 1)
    obtain ⟨htried, hmissed, hwaited⟩ := h
    rw [hphase] at htried hmissed
    refine ⟨?_, fun i hi hlt => ?_, ?_⟩
    · rw [tries_append]
      show tries past + 1 + a = k + 1
      rw [Nat.add_right_comm]
      exact congrArg (· + 1) htried
    · rcases Nat.lt_succ_iff_lt_or_eq.1 hlt with hlt | rfl
      · exact hmissed i hi hlt
      · exact hmiss
    · rw [tries_append, waits_append]
      show waits past + delay' ≤ 30 * (tries past + 1)
      omega
  | awake hphase => exact h.quiet rfl rfl (by rw [hphase]; rfl)
  | died => exact h.quiet rfl rfl rfl

/-- In `n` turns everybody has one. -/
theorem exists_turn (hj : j < n) (a : Nat) : ∃ i, a ≤ i ∧ i < a + n ∧ i % n = j := by
  have hn : 0 < n := by omega
  have hlt := Nat.mod_lt a hn
  by_cases hle : a % n ≤ j
  · refine ⟨a + (j - a % n), by omega, by omega, ?_⟩
    rw [Nat.add_mod, Nat.mod_eq_of_lt (show j - a % n < n by omega),
      show a % n + (j - a % n) = j by omega, Nat.mod_eq_of_lt hj]
  · refine ⟨a + (n + j - a % n), by omega, by omega, ?_⟩
    rw [Nat.add_mod, Nat.mod_eq_of_lt (show n + j - a % n < n by omega),
      show a % n + (n + j - a % n) = j + n by omega, Nat.add_mod_right, Nat.mod_eq_of_lt hj]

end Runs

end Fogged.Spec.QuicMonitor
