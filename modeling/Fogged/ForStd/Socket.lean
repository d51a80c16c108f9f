import Fogged.ForStd.AsyncRead
import Fogged.ForStd.Outcome

/-!
# Code that talks over a socket

Such code reads what a peer sends, in whatever pieces it arrives, and writes to it. Every
operation can fail, and the peer can stay silent: then an operation with a time-out fails, and
one without waits for ever. An error ends the code; a run-time check can stop it at any point.
`Io` is the monad of such code, and `State` holds all that it cannot know: what is still to
come, and what will befall its operations.

`Ends` is correctness up to errors: the code returns, and if it succeeds, then with a value and
in a state as required; it waits for ever only if `W`. With `False` for `W` that is total
correctness. There is one rule for each way to build such code.
-/

namespace Socket

variable {ε α β : Type}

/-- What can befall an operation. -/
inductive Fault where
  /-- The other side does nothing, and leaves the connection open. -/
  | silent
  | failed
  deriving DecidableEq

/-- What becomes of an operation then. -/
inductive Reaction (ε : Type) where
  | succeeds
  | fails (e : ε)
  /-- It never returns. -/
  | waits

/-- An operation with a time-out. -/
def timed (onTimeout onFailed : ε) : Fault → Reaction ε
  | .silent => .fails onTimeout
  | .failed => .fails onFailed

/-- An operation that waits for the other side, however long it takes. -/
def untimed (onFailed : ε) : Fault → Reaction ε
  | .silent => .waits
  | .failed => .fails onFailed

/-- An operation that does not wait for the other side, such as writing a few bytes: the buffer
    of the socket takes them. -/
def unaided (onFailed : ε) : Fault → Reaction ε
  | .silent => .succeeds
  | .failed => .fails onFailed

deriving instance DecidableEq for AsyncRead.Source

/-- A connection. An operation takes the first of `faults`; without one it succeeds. -/
structure State where
  input : AsyncRead.Source
  output : List UInt8
  faults : List (Option Fault)
  deriving DecidableEq

/-- The other side stays silent at some point. -/
def State.Silent (s : State) : Prop := some .silent ∈ s.faults

/-- Whoever is silent later on is silent. -/
theorem State.Silent.of_suffix {s s' : State} (h : s'.Silent) (hfaults : s'.faults <:+ s.faults) :
    s.Silent :=
  hfaults.mem h

/-- Code with errors `ε`. -/
abbrev Io (ε : Type) := ExceptT ε (StateT State Outcome)

/-- What befalls the next operation. -/
def attempt (onFault : Fault → Reaction ε) : Io ε Unit := fun s =>
  match s.faults with
  | [] => .ret (.ok (), s)
  | none :: faults => .ret (.ok (), { s with faults })
  | some fault :: faults =>
    match onFault fault with
    | .succeeds => .ret (.ok (), { s with faults })
    | .fails e => .ret (.error e, { s with faults })
    | .waits => .diverge

/-- `stream.read(&mut buf)` with a buffer of `size` bytes. -/
def read (size : Nat) (onFault : Fault → Reaction ε) : Io ε (List UInt8) := do
  attempt onFault
  fun s => .ret (.ok (s.input.read size).1, { s with input := (s.input.read size).2 })

/-- `stream.write_all(bytes)`. -/
def writeAll (bytes : List UInt8) (onFault : Fault → Reaction ε) : Io ε Unit := do
  attempt onFault
  fun s => .ret (.ok (), { s with output := s.output ++ bytes })

/-- `stream.read_exact(&mut buf)` with a buffer of `n` bytes; the end of the stream is an
    error too. -/
def readExact (n : Nat) (onFault : Fault → Reaction ε) (onEnd : ε) :
    Io ε (List.Vector UInt8 n) := do
  attempt onFault
  fun s =>
    match s.input.readExact n with
    | some r => .ret (.ok r.1, { s with input := r.2 })
    | none => .ret (.error onEnd, s)

/-! ## Rules -/

/-- The code returns, and with `Q` if it succeeds, or it waits for ever, and `W`. -/
def Ends (W : Prop) (x : Io ε α) (s : State) (Q : α → State → Prop) : Prop :=
  (x.run.run s).ReturnsUnless W fun r => ∀ a, r.1 = .ok a → Q a r.2

/-- If the operation waits for ever on one of the faults to come, then `W`. -/
def Bears (W : Prop) (s : State) (onFault : Fault → Reaction ε) : Prop :=
  ∀ fault, some fault ∈ s.faults → onFault fault = .waits → W

section Bears

variable {W : Prop} {s : State}

/-- With a time-out nothing is waited for. -/
theorem bears_timed (onTimeout onFailed : ε) : Bears W s (timed onTimeout onFailed) := by
  intro fault _ hwaits
  cases fault <;> cases hwaits

/-- Nor without anybody to wait for. -/
theorem bears_unaided (onFailed : ε) : Bears W s (unaided onFailed) := by
  intro fault _ hwaits
  cases fault <;> cases hwaits

/-- Without a time-out, a silent peer is waited for. -/
theorem bears_untimed (onFailed : ε) (h : s.Silent → W) : Bears W s (untimed onFailed) := by
  intro fault hmem hwaits
  cases fault with
  | silent => exact h hmem
  | failed => cases hwaits

end Bears

namespace Ends

variable {W : Prop} {s : State} {P : α → State → Prop} {Q : β → State → Prop}

theorem pure {a : α} (h : P a s) : Ends W (Pure.pure a : Io ε α) s P :=
  .ret (by rintro _ ⟨⟩; exact h)

/-- An error ends the code. -/
theorem throw (e : ε) : Ends W (MonadExcept.throw e : Io ε α) s P :=
  .ret (by rintro _ ⟨⟩)

/-- Weaker requirements. -/
theorem mono {x : Io ε α} {P' : α → State → Prop} (hx : Ends W x s P)
    (h : ∀ a s', P a s' → P' a s') : Ends W x s P' :=
  Outcome.ReturnsUnless.mono hx id fun r hr a ha => h a r.2 (hr a ha)

/-- Code that returns where it has nothing to wait for. -/
theorem of_false {x : Io ε α} (hx : Ends False x s P) : Ends W x s P :=
  Outcome.ReturnsUnless.mono hx False.elim fun _ hr => hr

/-- One part after the other. -/
theorem bind {x : Io ε α} {f : α → Io ε β} (hx : Ends W x s P)
    (hf : ∀ a s', P a s' → Ends W (f a) s' Q) : Ends W (x >>= f) s Q := by
  unfold Ends
  rw [ExceptT.run_bind, StateT.run_bind]
  refine Outcome.ReturnsUnless.bind hx fun r hr => ?_
  cases hok : r.1 with
  | error e => exact .ret (by rintro _ ⟨⟩)
  | ok a => exact hf a r.2 (hr a hok)

/-- A call that has nothing to do with the socket. -/
theorem lift {x : Outcome α} {R : α → Prop} (h : x.Returns R) :
    Ends W (liftM x : Io ε α) s fun a s' => R a ∧ s' = s := by
  obtain ⟨a, rfl, ha⟩ := h
  exact pure ⟨ha, rfl⟩

/-- What an operation leaves, if it succeeds: the fault that it was given is gone. -/
theorem attempt {onFault : Fault → Reaction ε} (h : Bears W s onFault) :
    Ends W (Socket.attempt onFault) s fun _ s' => s' = { s with faults := s.faults.tail } := by
  obtain ⟨input, output, faults⟩ := s
  match faults with
  | [] => exact .ret fun _ _ => rfl
  | none :: _ => exact .ret fun _ _ => rfl
  | some fault :: faults =>
    show Outcome.ReturnsUnless W (Socket.attempt onFault ⟨input, output, some fault :: faults⟩) _
    rw [Socket.attempt]
    dsimp only
    cases hfault : onFault fault with
    | succeeds => exact .ret fun _ _ => rfl
    | fails e => exact .ret (by rintro _ ⟨⟩)
    -- the fault that makes the caller wait is one that was announced
    | waits => exact .inl ⟨rfl, h fault List.mem_cons_self hfault⟩

/-- A read returns what has come, and less than the buffer if that is all. -/
theorem read (size : Nat) {onFault : Fault → Reaction ε} (h : Bears W s onFault) :
    Ends W (Socket.read size onFault) s fun bytes s' => bytes = (s.input.read size).1 ∧
      s' = { s with input := (s.input.read size).2, faults := s.faults.tail } := by
  refine bind (attempt h) fun _ s' hs' => .ret ?_
  subst hs'
  rintro _ ⟨⟩
  exact ⟨rfl, rfl⟩

/-- What is written goes to the end of the output. -/
theorem writeAll (bytes : List UInt8) {onFault : Fault → Reaction ε} (h : Bears W s onFault) :
    Ends W (Socket.writeAll bytes onFault) s fun _ s' =>
      s' = { s with output := s.output ++ bytes, faults := s.faults.tail } := by
  refine bind (attempt h) fun _ s' hs' => .ret fun _ _ => ?_
  subst hs'
  rfl

/-- A read that fills its buffer takes the bytes off the front of the input. -/
theorem readExact (n : Nat) {onFault : Fault → Reaction ε} (onEnd : ε) (h : Bears W s onFault) :
    Ends W (Socket.readExact n onFault onEnd) s fun v s' => ∃ input,
      s.input.bytes = v.toList ++ input.bytes ∧
        s' = { s with input, faults := s.faults.tail } := by
  refine bind (attempt h) fun _ s' hs' => ?_
  subst hs'
  unfold Ends
  simp only [ExceptT.run, StateT.run]
  cases hread : s.input.readExact n with
  | none => exact .ret (by rintro _ ⟨⟩)
  | some r =>
    refine .ret ?_
    rintro _ ⟨⟩
    exact ⟨r.2, AsyncRead.Source.readExact_eq_some hread, rfl⟩

end Ends

end Socket
