/-!
# A fair read-write lock

Requests are granted in the order in which they were made: readers share the lock,
a writer gets it alone, and whoever asks after a waiting writer waits behind it.
A writer changes the protected value at once and holds no guard afterwards, so only
readers are recorded.
-/

/-- What a task asks for. -/
inductive Access where
  | read
  | write
  deriving DecidableEq

/-- The guards and the queue of a lock that tasks of type `τ` share. -/
structure RwLock (τ : Type) where
  readers : List τ
  queue : List (τ × Access)
  deriving DecidableEq

namespace RwLock

variable {τ : Type}

/-- Nobody holds the lock and nobody waits for it. -/
def new : RwLock τ := { readers := [], queue := [] }

/-- Join the queue. -/
def request (lock : RwLock τ) (task : τ) (access : Access) : RwLock τ :=
  { lock with queue := lock.queue ++ [(task, access)] }

/-- The first of the queue gets what it asked for; a writer waits while there are
    readers. -/
def grant (lock : RwLock τ) : Option (τ × Access × RwLock τ) :=
  match lock.queue with
  | [] => none
  | (task, .read) :: queue => some (task, .read, { readers := task :: lock.readers, queue })
  | (task, .write) :: queue =>
    match lock.readers with
    | [] => some (task, .write, { readers := [], queue })
    | _ :: _ => none

/-- Drop a guard. -/
def release [DecidableEq τ] (lock : RwLock τ) (task : τ) : RwLock τ :=
  { lock with readers := lock.readers.erase task }

/-- What a grant does. -/
theorem grant_eq_some {lock lock' : RwLock τ} {task : τ} {access : Access}
    (h : lock.grant = some (task, access, lock')) :
    lock.queue = (task, access) :: lock'.queue ∧
      (access = .read ∧ lock'.readers = task :: lock.readers ∨
        access = .write ∧ lock.readers = [] ∧ lock'.readers = []) := by
  unfold grant at h
  split at h
  · cases h
  · cases h
    exact ⟨‹_›, .inl ⟨rfl, rfl⟩⟩
  · split at h
    · cases h
      exact ⟨‹_›, .inr ⟨rfl, ‹_›, rfl⟩⟩
    · cases h

end RwLock
