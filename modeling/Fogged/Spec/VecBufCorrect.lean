import Fogged.ForStd.Queue
import Fogged.Native.ChunkVecBuffer

/-!
# The chunked buffer is a queue of bytes

However the bytes are cut into chunks, and however many of them a reader or a writer takes
at a time, the buffer hands out what it has accepted, in order.

## Key results

- `handed_out_of_run`: what has been accepted is what has been handed out and what is stored
-/

namespace Fogged.Spec.VecBuf

open Fogged.Native.Tls Fogged.Native.Tls.ChunkVecBuffer

variable {b : ChunkVecBuffer}

/-! ## The bytes of a buffer -/

/-- What the chunks hold. -/
def bytesOf (chunks : List Chunk) : List UInt8 := (chunks.map (·.bytes)).flatten

/-- What is stored. -/
def stored (b : ChunkVecBuffer) : List UInt8 := bytesOf b.chunks

@[simp] theorem bytesOf_nil : bytesOf [] = [] := rfl

@[simp] theorem bytesOf_cons (c : Chunk) (cs : List Chunk) :
    bytesOf (c :: cs) = c.bytes ++ bytesOf cs := rfl

@[simp] theorem bytesOf_append (cs ds : List Chunk) :
    bytesOf (cs ++ ds) = bytesOf cs ++ bytesOf ds := by
  simp [bytesOf]

@[simp] theorem stored_new (limit : Option Nat) : stored (new limit) = [] := rfl

/-- Chunks are not empty. -/
theorem length_pos (c : Chunk) : 0 < c.bytes.length := List.length_pos_iff.2 c.nonempty

/-- No bytes are stored only if no chunks are. -/
theorem bytesOf_eq_nil {cs : List Chunk} : bytesOf cs = [] ↔ cs = [] := by
  cases cs with
  | nil => simp
  | cons c cs =>
    have hc := c.nonempty
    simp [hc]

/-- `is_empty` looks at the chunks, which comes to the same. -/
theorem isEmpty_iff : b.isEmpty = true ↔ stored b = [] := by
  rw [isEmpty, List.isEmpty_iff, stored, bytesOf_eq_nil]

/-- The length is summed up over the chunks. -/
theorem foldl_length (cs : List Chunk) (n : Nat) :
    cs.foldl (fun len ch => len + ch.bytes.length) n = n + (bytesOf cs).length := by
  induction cs generalizing n with
  | nil => rfl
  | cons c cs ih =>
    rw [List.foldl_cons, ih, bytesOf_cons, List.length_append]
    omega

@[simp] theorem len_eq (b : ChunkVecBuffer) : b.len = (stored b).length := by
  rw [len, foldl_length, Nat.zero_add]
  rfl

/-! ## Operations -/

/-- Empty chunks are not appended, but they have no bytes. -/
@[simp] theorem stored_append (b : ChunkVecBuffer) (xs : List UInt8) :
    stored (b.append xs) = stored b ++ xs := by
  unfold append
  split
  · simp [stored]
  · rename_i h
    rw [not_not.1 h, List.append_nil]

@[simp] theorem limit_append (b : ChunkVecBuffer) (xs : List UInt8) :
    (b.append xs).limit = b.limit := by
  unfold append
  split <;> rfl

/-- `pop` takes a whole chunk from the front. -/
theorem stored_pop {xs : List UInt8} {b' : ChunkVecBuffer} (h : b.pop = some (xs, b')) :
    stored b = xs ++ stored b' ∧ xs ≠ [] ∧ b'.limit = b.limit := by
  unfold pop at h
  split at h
  · cases h
  · rename_i chunk rest hchunks
    cases h
    exact ⟨by rw [stored, hchunks]; rfl, chunk.nonempty, rfl⟩

/-- `consume` takes from the front, over the boundaries of the chunks. -/
theorem bytesOf_consumeChunks (used : Nat) (cs : List Chunk) :
    bytesOf (consumeChunks used cs) = (bytesOf cs).drop used := by
  induction cs generalizing used with
  | nil => simp [consumeChunks]
  | cons c cs ih =>
    rw [consumeChunks]
    split
    · rename_i h
      rw [bytesOf_cons, bytesOf_cons, List.drop_append_of_le_length (by omega)]
    · rename_i h
      rw [ih, bytesOf_cons, List.drop_append,
        List.drop_eq_nil_of_le (Nat.le_of_not_lt h), List.nil_append]

@[simp] theorem stored_consume (b : ChunkVecBuffer) (used : Nat) :
    stored (b.consume used) = (stored b).drop used :=
  bytesOf_consumeChunks used b.chunks

/-- A chunk that has been read to its end is gone. -/
theorem consumeChunks_length (c : Chunk) (cs : List Chunk) :
    consumeChunks c.bytes.length (c :: cs) = cs := by
  rw [consumeChunks, dif_neg (Nat.lt_irrefl _), Nat.sub_self]
  cases cs with
  | nil => rfl
  | cons d ds =>
    rw [consumeChunks, dif_pos (length_pos d)]
    simp

/-- **The loop of `read`.** Every iteration takes a chunk or fills the buffer of the caller, so
    the number of chunks bounds it. -/
theorem readChunks_spec {fuel room : Nat} {cs : List Chunk} (hfuel : cs.length < fuel) :
    (readChunks fuel room cs).Returns fun r =>
      r.1 = (bytesOf cs).take room ∧ bytesOf r.2 = (bytesOf cs).drop room := by
  induction fuel generalizing room cs with
  | zero => omega
  | succ fuel ih =>
    cases cs with
    | nil => exact .ret (by simp)
    | cons c cs =>
      rw [readChunks]
      split
      · rename_i hroom
        exact .ret (by simp [hroom])
      · rename_i hroom
        rw [List.length_cons] at hfuel
        dsimp only
        by_cases hle : c.bytes.length ≤ room
        · -- the whole chunk fits, and the loop goes on with the others
          rw [Nat.min_eq_left hle, consumeChunks_length]
          refine (ih (by omega)).bind fun r hr => .ret ⟨?_, ?_⟩
          · rw [hr.1, bytesOf_cons, List.take_length, List.take_append, List.take_of_length_le hle]
          · rw [hr.2, bytesOf_cons, List.drop_append, List.drop_eq_nil_of_le hle, List.nil_append]
        · -- the chunk is cut, and there is no room left
          have hlt : room < c.bytes.length := by omega
          rw [Nat.min_eq_right (by omega), Nat.sub_self, consumeChunks, dif_pos hlt]
          cases fuel with
          | zero => omega
          | succ fuel =>
            rw [readChunks]
            refine .ret ⟨?_, ?_⟩
            · simp [List.take_append_of_le_length (Nat.le_of_lt hlt)]
            · rw [bytesOf_cons, bytesOf_cons, List.drop_append_of_le_length (Nat.le_of_lt hlt)]

/-- `read` returns, with as much as there is room for. -/
theorem read_spec (b : ChunkVecBuffer) (room : Nat) :
    (b.read room).Returns fun r =>
      r.1 = (stored b).take room ∧ stored r.2 = (stored b).drop room ∧ r.2.limit = b.limit := by
  refine (readChunks_spec (Nat.lt_succ_self _)).bind fun r hr => .ret ?_
  exact ⟨hr.1, hr.2, rfl⟩

/-- A writer is offered 64 chunks at most. -/
theorem offered_append (b : ChunkVecBuffer) :
    stored b = b.offered ++ bytesOf (b.chunks.drop 64) := by
  rw [stored, ← List.take_append_drop 64 b.chunks, bytesOf_append, List.take_append_drop]
  rfl

/-- What is offered to the writer is the front of what is stored. -/
theorem take_offered {used : Nat} (h : used ≤ b.offered.length) :
    b.offered.take used = (stored b).take used := by
  rw [offered_append b, List.take_append_of_le_length h]

/-- A call of `write_to`: what the writer has taken comes from the front. -/
theorem writeTo_spec {result : Option Nat} {r : Option (List UInt8)} {b' : ChunkVecBuffer}
    (h : b.writeTo result = some (r, b')) :
    stored b = r.getD [] ++ stored b' ∧ b'.limit = b.limit := by
  unfold writeTo at h
  split at h
  · cases h
    exact ⟨rfl, rfl⟩
  · split at h
    · cases h
      exact ⟨rfl, rfl⟩
    · split at h
      · -- the writer may take less than it is offered, never more
        rename_i hle
        cases h
        exact ⟨by rw [Option.getD_some, take_offered hle, stored_consume, List.take_append_drop], rfl⟩
      · cases h

/-! ## Runs -/

/-- What an effect has put into the buffer. -/
def accepts : Effect → List UInt8
  | .accepted xs => xs
  | _ => []

/-- What an effect has taken out of the buffer. -/
def handsOut : Effect → List UInt8
  | .handedOut xs => xs
  | _ => []

/-- Every call moves the queue, and returns. -/
theorem step_moves {e : Event} {b' : ChunkVecBuffer} {o : List Effect}
    (h : step b e = some (b', o)) :
    Queue.Moves (stored b) (o.flatMap accepts) (o.flatMap handsOut) (stored b') ∧
      .hung ∉ o := by
  cases e with
  | setLimit newLimit =>
    cases h
    exact ⟨Queue.Moves.refl _, by simp⟩
  -- what is accepted goes to the back
  | append xs =>
    cases h
    exact ⟨by simp [Queue.Moves, accepts, handsOut], by simp⟩
  | appendLimitedCopy xs =>
    cases h
    exact ⟨by simp [Queue.Moves, accepts, handsOut], by simp⟩
  -- what is handed out comes from the front
  | pop =>
    rw [step] at h
    split at h
    · rename_i hpop
      cases h
      have hbytes := (stored_pop hpop).1
      exact ⟨by simp [Queue.Moves, accepts, handsOut, hbytes], by simp⟩
    · cases h
      exact ⟨Queue.Moves.refl _, by simp⟩
  | read room =>
    obtain ⟨r, hr, hout, hrest, -⟩ := read_spec b room
    simp only [step, hr] at h
    cases h
    exact ⟨by simp [Queue.Moves, accepts, handsOut, hout, hrest], by simp⟩
  | writeTo result =>
    rw [step] at h
    split at h
    · rename_i hwrite
      cases h
      have hbytes := (writeTo_spec hwrite).1
      exact ⟨by simp [Queue.Moves, accepts, handsOut, hbytes], by simp⟩
    · -- the writer has failed, and nothing is taken
      rename_i hwrite
      cases h
      have hbytes := (writeTo_spec hwrite).1
      exact ⟨by simp [Queue.Moves, accepts, handsOut, hbytes], by simp⟩
    · cases h

/-- An event that respects the limit and leaves it as it is. -/
def Limited : Event → Prop
  | .setLimit _ | .append _ => False
  | _ => True

/-- **One call.** What is stored stays within the limit. -/
theorem length_le_of_limited {e : Event} {b' : ChunkVecBuffer} {o : List Effect} {n : Nat}
    (he : Limited e) (hlimit : b.limit = some n) (hn : (stored b).length ≤ n)
    (h : step b e = some (b', o)) : b'.limit = some n ∧ (stored b').length ≤ n := by
  cases e with
  -- the two events that a limit does not govern
  | setLimit newLimit => cases he
  | append xs => cases he
  | appendLimitedCopy xs =>
    cases h
    refine ⟨by rw [limit_append, hlimit], ?_⟩
    -- only what there is room for is accepted
    simp only [applyLimit, hlimit, stored_append, len_eq, List.length_append,
      List.length_take]
    omega
  | pop =>
    rw [step] at h
    split at h
    · rename_i hpop
      cases h
      obtain ⟨hbytes, -, hlimit'⟩ := stored_pop hpop
      rw [hbytes, List.length_append] at hn
      exact ⟨hlimit'.trans hlimit, by omega⟩
    · cases h
      exact ⟨hlimit, hn⟩
  | read room =>
    obtain ⟨r, hr, -, hrest, hlimit'⟩ := read_spec b room
    simp only [step, hr] at h
    cases h
    rw [hrest, List.length_drop]
    exact ⟨hlimit'.trans hlimit, by omega⟩
  | writeTo result =>
    -- whether the writer failed or not, the buffer only shrinks
    have hfront {r : Option (List UInt8)} (hwrite : b.writeTo result = some (r, b')) :
        b'.limit = some n ∧ (stored b').length ≤ n := by
      obtain ⟨hbytes, hlimit'⟩ := writeTo_spec hwrite
      rw [hbytes, List.length_append] at hn
      exact ⟨hlimit'.trans hlimit, by omega⟩
    rw [step] at h
    split at h
    · rename_i hwrite
      cases h
      exact hfront hwrite
    · rename_i hwrite
      cases h
      exact hfront hwrite
    · cases h

/-- After any calls, what has been accepted is what has been handed out and what is stored,
    in this order; `read` always returns, `is_empty` says that nothing is owed, and a limit
    that is respected and left alone is never passed. -/
theorem handed_out_of_run (limit : Option Nat) {es : List Event} {out : List Effect}
    (hrun : Machine.run step (new limit) es = some (b, out)) :
    out.flatMap accepts = out.flatMap handsOut ++ stored b ∧ .hung ∉ out ∧
      (b.isEmpty = true ↔ out.flatMap accepts = out.flatMap handsOut) ∧
      ∀ n, limit = some n → (∀ e ∈ es, Limited e) → b.len ≤ n := by
  have hqueue := Queue.run_moves (I := fun _ => True) (fun _ _ _ _ _ (_ : True) _ => trivial)
    (fun _ _ _ _ _ _ h => (step_moves h).1) trivial
    (Machine.allowed_of_forall (fun _ _ _ => trivial) _) hrun
  rw [Queue.Moves, stored_new, List.nil_append] at hqueue
  have hhung := Machine.run_history (I := fun _ past => .hung ∉ past)
    (fun _ _ _ _ _ hpast (_ : True) h => by simp [hpast, (step_moves h).2]) List.not_mem_nil
    (fun _ _ => trivial) hrun
  refine ⟨hqueue, hhung, ?_, ?_⟩
  · -- nothing is owed if both lists are the same
    rw [isEmpty_iff, hqueue, List.append_right_eq_self]
  · rintro n rfl hes
    have hle := Machine.run_invariant_of_allowed
      (I := fun b => b.limit = some n ∧ (stored b).length ≤ n)
      (fun b e b' o hb (he : Limited e) h => length_le_of_limited he hb.1 hb.2 h)
      (s := new (some n)) ⟨rfl, Nat.zero_le n⟩
      (Machine.allowed_of_forall (fun e he _ => hes e he) _) hrun
    rw [len_eq]
    exact hle.2

/-- A limit of five bytes, two chunks, a short read, a short write and a failed one. -/
theorem handed_out_of_short_calls :
    ∃ b out, Machine.run step (new (some 5))
        [.appendLimitedCopy [1, 2, 3], .appendLimitedCopy [4, 5, 6], .read 2, .writeTo none,
          .writeTo (some 2)] = some (b, out) ∧
      out.flatMap accepts = [1, 2, 3, 4, 5] ∧ out.flatMap handsOut = [1, 2, 3, 4] ∧
      out.flatMap accepts = out.flatMap handsOut ++ stored b ∧ b.len ≤ 5 := by
  have hrun : Machine.run step (new (some 5))
      [.appendLimitedCopy [1, 2, 3], .appendLimitedCopy [4, 5, 6], .read 2, .writeTo none,
        .writeTo (some 2)] =
      some (⟨[⟨[5], by decide⟩], some 5⟩,
        [.accepted [1, 2, 3], .accepted [4, 5], .handedOut [1, 2], .writeFailed,
          .handedOut [3, 4]]) := by
    decide
  obtain ⟨hqueue, -, -, hlimit⟩ := handed_out_of_run (some 5) hrun
  exact ⟨_, _, hrun, rfl, rfl, hqueue, hlimit 5 rfl (by simp [Limited])⟩

end Fogged.Spec.VecBuf
