import Fogged.ForStd.Machine

/-!
# Queues

A part of a machine's state is a queue of `α` if every step only adds at its end and takes
from its front. What has gone in is then, after any run, what has come out followed by what
is still there: nothing is lost, made up, repeated or moved.
-/

namespace Queue

variable {σ ε ο α : Type}

/-- From `content` to `content'`, `input` is added and `output` is taken. -/
def Moves (content input output content' : List α) : Prop :=
  content ++ input = output ++ content'

/-- Nothing is added and nothing is taken. -/
theorem Moves.refl (content : List α) : Moves content [] [] content := by simp [Moves]

/-- One move after the other. -/
theorem Moves.trans {a b c input input' output output' : List α} (h : Moves a input output b)
    (h' : Moves b input' output' c) : Moves a (input ++ input') (output ++ output') c := by
  unfold Moves at *
  rw [← List.append_assoc, h, List.append_assoc, h', List.append_assoc]

variable {step : σ → ε → Option (σ × List ο)}

/-- **Queues in a machine.** If every step moves the queue, with what its effects say, then
    so does every run of allowed steps. -/
theorem run_moves {I : σ → Prop} {allowed : σ → ε → Prop} {content : σ → List α}
    {input output : ο → List α}
    (hI : ∀ s e t o, I s → allowed s e → step s e = some (t, o) → I t)
    (hstep : ∀ s e t o, I s → allowed s e → step s e = some (t, o) →
      Moves (content s) (o.flatMap input) (o.flatMap output) (content t))
    {s t : σ} {es : List ε} {out : List ο} (hs : I s) (hes : Machine.Allowed step allowed s es)
    (hrun : Machine.run step s es = some (t, out)) :
    Moves (content s) (out.flatMap input) (out.flatMap output) (content t) := by
  have hboth := Machine.run_history_of_allowed
    (I := fun u past => I u ∧
      Moves (content s) (past.flatMap input) (past.flatMap output) (content u))
    (fun u past e v o hu he hv => ⟨hI u e v o hu.1 he hv, by
      rw [List.flatMap_append, List.flatMap_append]
      exact hu.2.trans (hstep u e v o hu.1 he hv)⟩)
    [] ⟨hs, Moves.refl _⟩ hes hrun
  exact hboth.2

end Queue
