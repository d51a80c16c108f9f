import Fogged.ForStd.Socket

/-!
# Code between two sockets

A proxy talks to a client, connects to a peer on its behalf, and talks to both. `Serve` is the
monad of such code: `World` holds the two connections and says who would answer at which
address. Dialling is an effect like any other, so that what is proved about a proxy also says
whom it has dialled.

`Ends` is correctness up to errors as for code on one socket, with one rule for each way to
build such code: it waits for ever only if `W`. The code on one of the sockets is that of
`Socket.Io`, and so are the rules for it.
-/

namespace Proxy

variable {ν ε δ α β : Type}

/-- What comes of dialling. -/
inductive Answer (ε : Type) where
  | connected (peer : Socket.State)
  | refused (e : ε)
  /-- Nobody says anything. -/
  | silent

/-- What the proxy acts on. `ν` is where it can connect to. -/
structure World (ν ε : Type) where
  client : Socket.State
  /-- The connection that was dialled last. -/
  peer : Socket.State
  /-- Who answers. -/
  net : ν → Answer ε
  /-- Whom the proxy has tried to reach. -/
  dialled : List ν

/-- Code with errors `ε`. -/
abbrev Serve (ν ε : Type) := ExceptT ε (StateT (World ν ε) Outcome)

/-- Code that talks to the client. -/
def onClient (onError : δ → ε) (x : Socket.Io δ α) : Serve ν ε α := fun w =>
  x.run.run w.client >>= fun r => .ret (r.1.mapError onError, { w with client := r.2 })

/-- Code that talks to the peer. -/
def onPeer (onError : δ → ε) (x : Socket.Io δ α) : Serve ν ε α := fun w =>
  x.run.run w.peer >>= fun r => .ret (r.1.mapError onError, { w with peer := r.2 })

/-- Connect to `n`; `onSilent` is the error after which it gives up, if it does. -/
def dial (onSilent : Option ε) (n : ν) : Serve ν ε Unit := fun w =>
  match w.net n with
  | .connected peer => .ret (.ok (), { w with peer, dialled := w.dialled ++ [n] })
  | .refused e => .ret (.error e, { w with dialled := w.dialled ++ [n] })
  | .silent =>
    match onSilent with
    | some e => .ret (.error e, { w with dialled := w.dialled ++ [n] })
    | none => .diverge

/-- Code that talks to nobody. -/
def checked (onError : δ → ε) (x : ExceptT δ Outcome α) : Serve ν ε α := fun w =>
  x.run >>= fun r => .ret (r.mapError onError, w)

/-- The result of something that happens elsewhere, or never. -/
def given (r : Option (Except ε α)) : Serve ν ε α := fun w =>
  match r with
  | some r => .ret (r, w)
  | none => .diverge

/-! ## Rules -/

/-- The code returns, and with `Q` if it succeeds, or it waits for ever, and `W`. -/
def Ends (W : Prop) (x : Serve ν ε α) (w : World ν ε) (Q : α → World ν ε → Prop) : Prop :=
  (x.run.run w).ReturnsUnless W fun r => ∀ a, r.1 = .ok a → Q a r.2

namespace Ends

variable {W : Prop} {w : World ν ε} {P : α → World ν ε → Prop} {Q : β → World ν ε → Prop}

/-- An error ends the code. -/
theorem throw (e : ε) : Ends W (MonadExcept.throw e : Serve ν ε α) w P :=
  .ret (by rintro _ ⟨⟩)

/-- Weaker requirements. -/
theorem mono {x : Serve ν ε α} {P' : α → World ν ε → Prop} (hx : Ends W x w P)
    (h : ∀ a w', P a w' → P' a w') : Ends W x w P' :=
  Outcome.ReturnsUnless.mono hx id fun r hr a ha => h a r.2 (hr a ha)

/-- One part after the other. -/
theorem bind {x : Serve ν ε α} {f : α → Serve ν ε β} (hx : Ends W x w P)
    (hf : ∀ a w', P a w' → Ends W (f a) w' Q) : Ends W (x >>= f) w Q := by
  unfold Ends
  rw [ExceptT.run_bind, StateT.run_bind]
  refine Outcome.ReturnsUnless.bind hx fun r hr => ?_
  cases hok : r.1 with
  | error e => exact .ret (by rintro _ ⟨⟩)
  | ok a => exact hf a r.2 (hr a hok)

/-- Code that talks to the client leaves everything else. -/
theorem onClient (onError : δ → ε) {x : Socket.Io δ α} {R : α → Socket.State → Prop}
    (hx : Socket.Ends W x w.client R) :
    Ends W (Proxy.onClient onError x) w fun a w' =>
      ∃ client, R a client ∧ w' = { w with client } := by
  refine Outcome.ReturnsUnless.bind hx fun r hr => .ret ?_
  cases hok : r.1 with
  | error e => rintro _ ⟨⟩
  | ok a =>
    rintro _ ⟨⟩
    exact ⟨r.2, hr a hok, rfl⟩

/-- So does code that talks to the peer. -/
theorem onPeer (onError : δ → ε) {x : Socket.Io δ α} {R : α → Socket.State → Prop}
    (hx : Socket.Ends W x w.peer R) :
    Ends W (Proxy.onPeer onError x) w fun a w' => ∃ peer, R a peer ∧ w' = { w with peer } := by
  refine Outcome.ReturnsUnless.bind hx fun r hr => .ret ?_
  cases hok : r.1 with
  | error e => rintro _ ⟨⟩
  | ok a =>
    rintro _ ⟨⟩
    exact ⟨r.2, hr a hok, rfl⟩

/-- Whoever answers is the peer from now on, and has been dialled. -/
theorem dial {onSilent : Option ε} (n : ν) (h : onSilent = none → w.net n = .silent → W) :
    Ends W (Proxy.dial onSilent n) w fun _ w' =>
      ∃ peer, w.net n = .connected peer ∧ w' = { w with peer, dialled := w.dialled ++ [n] } := by
  show Outcome.ReturnsUnless W (Proxy.dial onSilent n w) _
  unfold Proxy.dial
  cases hnet : w.net n with
  | connected peer => exact .ret fun _ _ => ⟨peer, rfl, rfl⟩
  | refused e => exact .ret (by rintro _ ⟨⟩)
  | silent =>
    cases onSilent with
    | none => exact .inl ⟨rfl, h rfl hnet⟩
    | some e => exact .ret (by rintro _ ⟨⟩)

/-- Code that returns: its result, and the world as it was. -/
theorem checked (onError : δ → ε) {x : ExceptT δ Outcome α} {r : Except δ α}
    (hx : x.run = .ret r) :
    Ends W (Proxy.checked onError x) w fun a w' => r = .ok a ∧ w' = w := by
  show Outcome.ReturnsUnless W (Proxy.checked onError x w) _
  rw [Proxy.checked, hx]
  refine .ret ?_
  cases r with
  | error e => rintro _ ⟨⟩
  | ok a =>
    rintro _ ⟨⟩
    exact ⟨rfl, rfl⟩

/-- What happens elsewhere is given, or waited for. -/
theorem given {r : Option (Except ε α)} (h : r = none → W) :
    Ends W (Proxy.given r) w fun a w' => r = some (.ok a) ∧ w' = w := by
  cases r with
  | none => exact .inl ⟨rfl, h rfl⟩
  | some r => exact .ret fun a ha => ⟨congrArg some ha, rfl⟩

end Ends

end Proxy
