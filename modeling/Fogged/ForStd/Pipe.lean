import Fogged.ForStd.AsyncRead
import Fogged.ForStd.Machine

/-!
# Copying from one socket to another

One direction of a relayed connection: what arrives is read into a buffer of limited size,
and the buffer is written out, in whatever portions the two sockets allow. At the end of the
input, once the buffer is empty, the output is closed. An error ends the copying at any point.

No step changes `total`, which is what has been written, what is in the buffer and what is
still to come. So what has been written is always the front of it, and all of it once the
output is closed.

`Splice` is two directions side by side, either `joint`, in which case an error of one of
them ends both, or each for itself.
-/

namespace Pipe

open AsyncRead (Source)

inductive Phase where
  | running
  /-- The end of the input has been passed on. -/
  | closed
  | failed
  deriving DecidableEq

/-- One direction, with a buffer of `size` bytes. -/
structure State (size : Nat) where
  input : Source
  buffer : List UInt8
  /-- The end of the input has been read. -/
  eof : Bool
  /-- What has been written. -/
  output : List UInt8
  phase : Phase
  buffer_le : buffer.length ≤ size
  eof_end : eof = true → input.bytes = []
  closed_end : phase = .closed → eof = true ∧ buffer = []

variable {size : Nat}

/-- At the start; `output` has been written before. -/
def State.start (size : Nat) (input : Source) (output : List UInt8) : State size where
  input := input
  buffer := []
  eof := false
  output := output
  phase := .running
  buffer_le := Nat.zero_le size
  eof_end h := by cases h
  closed_end h := by cases h

/-- Everything that has passed or will pass. -/
def State.total (p : State size) : List UInt8 := p.output ++ (p.buffer ++ p.input.bytes)

inductive Act where
  | read
  /-- The socket takes `n` bytes. -/
  | write (n : Nat)
  | close
  | fail
  deriving DecidableEq

/-- How much more the buffer holds. -/
def State.room (p : State size) : Nat := size - p.buffer.length

/-- A read does not take more than there is room for. -/
theorem State.length_append_read_le (p : State size) :
    (p.buffer ++ (p.input.read p.room).1).length ≤ size := by
  have hread := p.input.length_read_le p.room
  have hbuffer := p.buffer_le
  have hroom : p.room = size - p.buffer.length := rfl
  rw [List.length_append]
  omega

/-- A read into a buffer with room returns nothing only at the end. -/
theorem State.bytes_of_read_eq_nil {p : State size} (hroom : 0 < p.room)
    (h : (p.input.read p.room).1 = []) : p.input.bytes = [] := by
  by_contra hne
  exact Source.read_ne_nil hroom hne h

/-- One step; none where the direction has ended or there is nothing to do. -/
def State.step (p : State size) : Act → Option (State size)
  | .read =>
    if hroom : p.phase = .running ∧ p.eof = false ∧ 0 < p.room then
      if hend : (p.input.read p.room).1 = [] then
        some { p with
          eof := true
          eof_end := fun _ => bytes_of_read_eq_nil hroom.2.2 hend
          closed_end := fun h => ⟨rfl, (p.closed_end h).2⟩ }
      else
        some { p with
          input := (p.input.read p.room).2
          buffer := p.buffer ++ (p.input.read p.room).1
          buffer_le := p.length_append_read_le
          eof_end := fun h => Bool.noConfusion (hroom.2.1.symm.trans h)
          closed_end := fun h => Phase.noConfusion (hroom.1.symm.trans h) }
    else none
  | .write n =>
    if hwrite : p.phase = .running ∧ 0 < n ∧ n ≤ p.buffer.length then
      some { p with
        buffer := p.buffer.drop n
        output := p.output ++ p.buffer.take n
        buffer_le := Nat.le_trans (List.drop_sublist n p.buffer).length_le p.buffer_le
        closed_end := fun h => Phase.noConfusion (hwrite.1.symm.trans h) }
    else none
  | .close =>
    if hclose : p.phase = .running ∧ p.eof = true ∧ p.buffer = [] then
      some { p with phase := .closed, closed_end := fun _ => hclose.2 }
    else none
  | .fail =>
    if p.phase = .running then
      some { p with phase := .failed, closed_end := fun h => Phase.noConfusion h }
    else none

/-! ## What is conserved -/

variable {p q : State size}

/-- **Conservation.** A step moves bytes on, and changes none of them. -/
theorem total_step {a : Act} (h : p.step a = some q) : q.total = p.total := by
  cases a with
  | read =>
    rw [State.step] at h
    split at h
    · split at h
      · cases h
        rfl
      · cases h
        -- from the input to the end of the buffer
        have happend := p.input.read_append p.room
        unfold State.total
        dsimp only
        rw [List.append_assoc p.buffer, happend]
    · cases h
  | write n =>
    rw [State.step] at h
    split at h
    · cases h
      unfold State.total
      dsimp only
      -- from the front of the buffer to the output
      rw [List.append_assoc p.output, ← List.append_assoc (p.buffer.take n),
        List.take_append_drop]
    · cases h
  | close =>
    rw [State.step] at h
    split at h
    · cases h
      rfl
    · cases h
  | fail =>
    rw [State.step] at h
    split at h
    · cases h
      rfl
    · cases h

/-- `all` passes: so far its front has, and all of it once the output is closed. -/
def Flows (p : State size) (all : List UInt8) : Prop :=
  p.output <+: all ∧ (p.phase = .closed → p.output = all)

/-- What has been written is the front of all that passes. -/
theorem flows_total (p : State size) : Flows p p.total := by
  refine ⟨List.prefix_append _ _, fun hclosed => ?_⟩
  obtain ⟨heof, hbuffer⟩ := p.closed_end hclosed
  rw [State.total, hbuffer, p.eof_end heof, List.append_nil, List.append_nil]

/-- At the start everything is still to come. -/
theorem total_start (input : Source) (output : List UInt8) :
    (State.start size input output).total = output ++ input.bytes := rfl

/-! ## Completion -/

/-- The direction by itself. -/
def State.stepQuiet (p : State size) (a : Act) : Option (State size × List Unit) :=
  (p.step a).map (·, [])

/-- One more step in front of a run. -/
theorem run_cons_of_step {a : Act} (h : p.step a = some q) {as : List Act} {r : State size}
    (hrun : Machine.run State.stepQuiet q as = some (r, [])) :
    Machine.run State.stepQuiet p (a :: as) = some (r, []) :=
  Machine.run_cons_eq_some.2 ⟨q, [], [], by rw [State.stepQuiet, h]; rfl, hrun, rfl⟩

/-- As long as there has been no error, the direction can be completed. -/
theorem exists_run_closed (hsize : 0 < size) (hp : p.phase = .running) :
    ∃ as q, Machine.run State.stepQuiet p as = some (q, []) ∧ q.phase = .closed := by
  -- the measure falls with every read and write, and once more at the end of the input
  induction hn : 2 * p.input.bytes.length + p.buffer.length + (if p.eof then 0 else 1)
    using Nat.strongRecOn generalizing p with
  | ind n ih =>
    by_cases hbuffer : p.buffer = []
    · -- nothing is buffered: close at the end of the input, else read
      by_cases heof : p.eof = true
      · have hstep : p.step .close =
            some { p with phase := .closed, closed_end := fun _ => ⟨heof, hbuffer⟩ } := by
          rw [State.step, dif_pos ⟨hp, heof, hbuffer⟩]
        exact ⟨[.close], _, run_cons_of_step hstep rfl, rfl⟩
      · have hroom : 0 < p.room := by
          rw [State.room, hbuffer]
          exact hsize
        have hread : p.phase = .running ∧ p.eof = false ∧ 0 < p.room :=
          ⟨hp, Bool.eq_false_iff.2 heof, hroom⟩
        obtain ⟨q, hstep, hphase, hless⟩ : ∃ q, p.step .read = some q ∧ q.phase = .running ∧
            2 * q.input.bytes.length + q.buffer.length + (if q.eof then 0 else 1) < n := by
          rw [State.step, dif_pos hread]
          split
          · refine ⟨_, rfl, hp, ?_⟩
            rw [← hn, if_neg heof]
            simp
          · rename_i hne
            refine ⟨_, rfl, hp, ?_⟩
            -- what is read leaves the input, where a byte counts twice
            have hlen := congrArg List.length (p.input.read_append p.room)
            have hpos := List.length_pos_iff.2 hne
            rw [List.length_append] at hlen
            simp only [List.length_append]
            omega
        obtain ⟨as, r, hrun, hclosed⟩ := ih _ hless hphase rfl
        exact ⟨_, r, run_cons_of_step hstep hrun, hclosed⟩
    · -- write the whole buffer
      have hpos := List.length_pos_iff.2 hbuffer
      have hwrite : p.phase = .running ∧ 0 < p.buffer.length ∧ p.buffer.length ≤ p.buffer.length :=
        ⟨hp, hpos, Nat.le_refl _⟩
      obtain ⟨q, hstep, hphase, hless⟩ : ∃ q, p.step (.write p.buffer.length) = some q ∧
          q.phase = .running ∧
          2 * q.input.bytes.length + q.buffer.length + (if q.eof then 0 else 1) < n := by
        rw [State.step, dif_pos hwrite]
        refine ⟨_, rfl, hp, ?_⟩
        simp only [List.drop_length, List.length_nil]
        omega
      obtain ⟨as, r, hrun, hclosed⟩ := ih _ hless hphase rfl
      exact ⟨_, r, run_cons_of_step hstep hrun, hclosed⟩

/-! ## Two directions -/

structure Splice (size : Nat) where
  up : State size
  down : State size

inductive Side where
  | up
  | down
  deriving DecidableEq

/-- A step of one direction; if the two are `joint`, neither goes on after an error of the
    other. -/
def Splice.step (joint : Bool) (s : Splice size) : Side × Act → Option (Splice size × List Unit)
  | (.up, a) =>
    if joint ∧ s.down.phase = .failed then none
    else (s.up.step a).map fun up => ({ s with up }, [])
  | (.down, a) =>
    if joint ∧ s.up.phase = .failed then none
    else (s.down.step a).map fun down => ({ s with down }, [])

/-- A step of one direction leaves the other alone. -/
theorem Splice.totals_step {joint : Bool} {s t : Splice size} {e : Side × Act} {o : List Unit}
    (h : s.step joint e = some (t, o)) :
    t.up.total = s.up.total ∧ t.down.total = s.down.total := by
  obtain ⟨side, a⟩ := e
  cases side with
  | up =>
    rw [Splice.step] at h
    split at h
    · cases h
    · obtain ⟨up, hup, heq⟩ := Option.map_eq_some_iff.1 h
      cases heq
      -- the other direction does not move
      exact ⟨total_step hup, rfl⟩
  | down =>
    rw [Splice.step] at h
    split at h
    · cases h
    · obtain ⟨down, hdown, heq⟩ := Option.map_eq_some_iff.1 h
      cases heq
      exact ⟨rfl, total_step hdown⟩

/-- **Relaying.** In every run of the two directions, joint or not, each of them passes on
    what there was for it at the start. -/
theorem Splice.flows_of_run {joint : Bool} {s t : Splice size} {es : List (Side × Act)}
    {out : List Unit} (hrun : Machine.run (Splice.step joint) s es = some (t, out)) :
    Flows t.up s.up.total ∧ Flows t.down s.down.total := by
  obtain ⟨hup, hdown⟩ := Machine.run_invariant_of_allowed
    (I := fun u : Splice size => u.up.total = s.up.total ∧ u.down.total = s.down.total)
    (fun u e v o hu (_ : True) hv =>
      ⟨(totals_step hv).1.trans hu.1, (totals_step hv).2.trans hu.2⟩)
    ⟨rfl, rfl⟩ (Machine.allowed_of_forall (fun _ _ _ => trivial) s) hrun
  exact ⟨hup ▸ flows_total t.up, hdown ▸ flows_total t.down⟩

/-- A run of one direction, while the other waits. -/
theorem Splice.run_up {joint : Bool} {s : Splice size} (hs : s.down.phase ≠ .failed)
    {as : List Act} {q : State size} (hrun : Machine.run State.stepQuiet s.up as = some (q, [])) :
    Machine.run (Splice.step joint) s (as.map (.up, ·)) = some ({ s with up := q }, []) := by
  refine Machine.run_map (fun up => { s with up }) (Side.up, ·) (fun p a q o hstep => ?_) hrun
  obtain ⟨hup, rfl⟩ := Machine.map_quiet_eq_some hstep
  rw [Splice.step, if_neg (fun h => hs h.2), hup]
  rfl

/-- The second direction runs by itself, as long as the first has not failed. -/
theorem Splice.run_down {joint : Bool} {s : Splice size} (hs : s.up.phase ≠ .failed)
    {as : List Act} {q : State size}
    (hrun : Machine.run State.stepQuiet s.down as = some (q, [])) :
    Machine.run (Splice.step joint) s (as.map (.down, ·)) = some ({ s with down := q }, []) := by
  refine Machine.run_map (fun down => { s with down }) (Side.down, ·) (fun p a q o hstep => ?_) hrun
  obtain ⟨hdown, rfl⟩ := Machine.map_quiet_eq_some hstep
  rw [Splice.step, if_neg (fun h => hs h.2), hdown]
  rfl

/-- A direction without an error is closed or can be. -/
theorem exists_run_closed_of_ne_failed (hsize : 0 < size) (hp : p.phase ≠ .failed) :
    ∃ as q, Machine.run State.stepQuiet p as = some (q, []) ∧ q.phase = .closed := by
  cases hphase : p.phase with
  | running =>
    exact exists_run_closed hsize hphase
  | closed => exact ⟨[], p, rfl, hphase⟩
  | failed => exact absurd hphase hp

/-- As long as neither direction has failed, both can be completed. -/
theorem Splice.exists_run_closed {joint : Bool} (hsize : 0 < size) {s : Splice size}
    (hup : s.up.phase ≠ .failed) (hdown : s.down.phase ≠ .failed) :
    ∃ es t, Machine.run (Splice.step joint) s es = some (t, []) ∧ t.up.phase = .closed ∧
      t.down.phase = .closed := by
  obtain ⟨as, up, hrun, hclosed⟩ := exists_run_closed_of_ne_failed hsize hup
  obtain ⟨bs, down, hrun', hclosed'⟩ := exists_run_closed_of_ne_failed hsize hdown
  have hopen : ({ s with up } : Splice size).up.phase ≠ .failed := by
    show up.phase ≠ .failed
    rw [hclosed]
    exact fun h => Phase.noConfusion h
  exact ⟨_, _, Machine.run_append (Splice.run_up hdown hrun) (Splice.run_down hopen hrun'),
    hclosed, hclosed'⟩

end Pipe
