import Mathlib.Data.List.DropRight
import Fogged.ForStd.Machine
import Fogged.Native.SessionCache

/-!
# What a client can resume

The sessions in memory, over any calls of any connections that share them. For each server a
ticket is handed out newest first and once. The servers that are known are the last ones that
were added, one fewer than there is room for. So the memory for eight sessions, which is
room for one server, never holds anything.

A ticket that is offered before its lifetime ends is judged by the server by the difference of
the two clocks, whatever it was obfuscated with.

## Key results

- `tickets_of_run`: every ticket is handed out at most once, the newest one first
- `servers_of_run`: which servers are known after any calls
- `nothing_of_run`: memory for up to eight sessions is no memory
- `isFresh_iff_of_retrieve`: what `is_fresh` says about a ticket that a client offers
-/

namespace Fogged.Spec.Sessions

open Fogged.Native.Sessions Fogged.Native.Sessions.ClientSessionMemoryCache

/-! ## Maps of limited size -/

section LimitedCache

variable {K V : Type} [DecidableEq K] {c : LimitedCache K V} {k : K} {v : V}

/-- The keys of the map are those in the queue. -/
theorem get_eq_none_iff : c.get k = none ↔ k ∉ c.oldest.items := by
  rw [LimitedCache.get, Finmap.lookup_eq_none, c.mem_iff]

/-- A new cache is empty. -/
theorem get_new (alloc : Allocator) (n : Nat) :
    (LimitedCache.new alloc n : LimitedCache K V).get k = none :=
  Finmap.lookup_empty k

/-- Replacing the value of a key. -/
theorem get_replaceOccupied (h : k ∈ c.map) (k' : K) :
    (c.replaceOccupied k v h).get k' = if k' = k then some v else c.get k' := by
  show (c.map.insert k v).lookup k' = _
  split
  · rename_i heq
    rw [heq, Finmap.lookup_insert]
  · rename_i hne
    exact Finmap.lookup_insert_of_ne _ hne

/-- Inserting a key that was not there. -/
theorem get_insertVacant (alloc : Allocator) (h : k ∉ c.map) (k' : K) :
    (c.insertVacant alloc k v h).get k' = if k' = k then some v else c.get k' := by
  show (c.map.insert k v).lookup k' = _
  split
  · rename_i heq
    rw [heq, Finmap.lookup_insert]
  · rename_i hne
    exact Finmap.lookup_insert_of_ne _ hne

/-- Eviction removes one key at most. -/
theorem get_removeOldest (k' : K) :
    c.removeOldest.get k' = none ∨ c.removeOldest.get k' = c.get k' := by
  show (c.oldest.items.head?.elim c.map fun k => c.map.erase k).lookup k' = none ∨
    (c.oldest.items.head?.elim c.map fun k => c.map.erase k).lookup k' = _
  cases c.oldest.items.head? with
  | none => exact .inr rfl
  | some k =>
    rw [Option.elim_some]
    by_cases h : k' = k
    · left
      rw [h, Finmap.lookup_erase]
    · right
      exact Finmap.lookup_erase_ne h

/-- A key is forgotten, or has what it would have in any map. -/
theorem get_evict (k' : K) : c.evict.get k' = none ∨ c.evict.get k' = c.get k' := by
  unfold LimitedCache.evict
  split
  · exact get_removeOldest k'
  · exact .inr rfl

/-- Every key is forgotten, or has what it would have in a map without a limit. -/
theorem get_edit (alloc : Allocator) (c : LimitedCache K V) (k : K) (default : V) (edit : V → V)
    (k' : K) :
    (c.getOrInsertDefaultAndEdit alloc default k edit).get k' = none ∨
      (c.getOrInsertDefaultAndEdit alloc default k edit).get k' =
        if k' = k then some (edit ((c.get k).getD default)) else c.get k' := by
  unfold LimitedCache.getOrInsertDefaultAndEdit
  split
  · exact .inr (get_replaceOccupied _ k')
  · rename_i h
    rw [show c.get k = none from Finmap.lookup_eq_none.2 h, Option.getD_none,
      ← get_insertVacant alloc h k']
    exact get_evict k'

/-- An edit in place changes the value of its key, if there is one. -/
theorem get_getMut (edit : V → V) (k' : K) :
    (c.getMut k edit).get k' = if k' = k then (c.get k).map edit else c.get k' := by
  unfold LimitedCache.getMut
  split
  · rename_i h
    obtain ⟨v, hv⟩ := Option.isSome_iff_exists.1 (Finmap.lookup_isSome.2 h)
    rw [show c.get k = some v from hv, hv]
    exact get_replaceOccupied h k'
  · rename_i h
    -- without a value there is nothing to edit
    have hnone : c.get k = none := Finmap.lookup_eq_none.2 h
    split
    · rename_i heq
      rw [heq, hnone]
      rfl
    · rfl

/-- An edit in place does not count as a use: the order stays. -/
theorem oldest_getMut (edit : V → V) : (c.getMut k edit).oldest = c.oldest := by
  unfold LimitedCache.getMut
  split
  · split <;> rfl
  · rfl

end LimitedCache

/-! ## Tickets -/

section Tickets

variable {K : Type} [DecidableEq K] {c c' : ClientSessionMemoryCache K} {alloc : Allocator}
  {name : K} {past o : List (Effect K)}

/-- The tickets that are stored for a server, oldest first. -/
def tickets (c : ClientSessionMemoryCache K) (name : K) : List Tls13ClientSessionValue :=
  ((c.get name).map (·.tls13.items)).getD []

/-- The tickets of a server, when one has come in or one has been taken. -/
def ticketsAfter (name : K) (l : List Tls13ClientSessionValue) :
    Effect K → List Tls13ClientSessionValue
  | .inserted name' v => if name' = name then l ++ [v] else l
  | .took name' (some _) => if name' = name then l.dropLast else l
  | _ => l

/-- The tickets of a server that have not been taken, oldest first, if nothing were
    forgotten. -/
def unused (name : K) (out : List (Effect K)) : List Tls13ClientSessionValue :=
  out.foldl (ticketsAfter name) []

/-- The tickets that are unused after further effects. -/
theorem unused_append (name : K) (out out' : List (Effect K)) :
    unused name (out ++ out') = out'.foldl (ticketsAfter name) (unused name out) :=
  List.foldl_append

/-- The servers that have been added. -/
def addedBy : Effect K → List K
  | .added name => [name]
  | _ => []

/-- Adding a server touches no ticket. -/
theorem foldl_additions (name' : K) (l : List Tls13ClientSessionValue) :
    (additions c name').foldl (ticketsAfter name) l = l := by
  unfold additions
  split <;> rfl

/-- Each ticket that is taken is the newest of those that are unused. -/
def NewestFirst (out : List (Effect K)) : Prop :=
  ∀ out₁ name v out₂, out = out₁ ++ .took name (some v) :: out₂ →
    ∃ rest, unused name out₁ = rest ++ [v]

/-- Tickets are taken newest first in the whole run, if they are in both parts of it. -/
theorem newestFirst_append (h : NewestFirst past)
    (ho : ∀ o₁ name v o₂, o = o₁ ++ .took name (some v) :: o₂ →
      ∃ rest, unused name (past ++ o₁) = rest ++ [v]) : NewestFirst (past ++ o) := by
  intro out₁ name v out₂ hout
  rcases List.append_eq_append_iff.1 hout with ⟨mid, rfl, hmid⟩ | ⟨mid, rfl, hmid⟩
  · exact ho mid name v out₂ hmid
  · cases mid with
    | nil =>
      obtain ⟨rest, hrest⟩ := ho [] name v out₂ hmid.symm
      rw [List.append_nil, List.append_nil] at hrest
      exact ⟨rest, hrest⟩
    | cons e mid =>
      cases hmid
      exact h out₁ name v mid rfl

/-- What is stored has come in and has not been taken. -/
structure Kept (alloc : Allocator) (c : ClientSessionMemoryCache K) (past : List (Effect K)) :
    Prop where
  stored : ∀ name, tickets c name <:+ unused name past
  capacity : ∀ name data, c.get name = some data →
    data.tls13.capacity = alloc.withCapacity maxTls13TicketsPerServer
  newest : NewestFirst past

theorem tickets_of_get {data : ServerData} (h : c.get name = some data) :
    tickets c name = data.tls13.items := by
  rw [tickets, h]
  rfl

theorem tickets_of_none (h : c.get name = none) : tickets c name = [] := by
  rw [tickets, h]
  rfl

/-- An entry is edited, or made: every server has what it had, except that the edited one
    may have got a ticket. -/
theorem kept_edit (h : Kept alloc c past) (edit : ServerData → ServerData)
    (hcapacity : ∀ data : ServerData,
      data.tls13.capacity = alloc.withCapacity maxTls13TicketsPerServer →
        (edit data).tls13.capacity = alloc.withCapacity maxTls13TicketsPerServer)
    (hedit : ∀ data : ServerData, data.tls13.items <:+ unused name past →
      (edit data).tls13.items <:+ unused name (past ++ o))
    (hother : ∀ name', name' ≠ name → unused name' (past ++ o) = unused name' past)
    (hnewest : ∀ name v, Effect.took name (some v) ∉ o) :
    Kept alloc (c.getOrInsertDefaultAndEdit alloc (.default alloc) name edit) (past ++ o) := by
  -- the entry that is edited is the one that was there, or an empty one
  have hdata : ((c.get name).getD (.default alloc)).tls13.items <:+ unused name past ∧
      ((c.get name).getD (.default alloc)).tls13.capacity =
        alloc.withCapacity maxTls13TicketsPerServer := by
    cases hget : c.get name with
    | none => exact ⟨List.nil_suffix, rfl⟩
    | some data => exact ⟨tickets_of_get hget ▸ h.stored name, h.capacity name data hget⟩
  refine ⟨fun name' => ?_, fun name' data hget => ?_, ?_⟩
  · -- the entry may also be the one that the cache drops
    rcases get_edit alloc c name (.default alloc) edit name' with
      hnone | hsome
    · rw [tickets_of_none hnone]
      exact List.nil_suffix
    · split at hsome
      · rename_i heq
        rw [tickets_of_get hsome, heq]
        exact hedit _ hdata.1
      · rename_i hne
        rw [tickets, hsome, hother name' hne]
        exact h.stored name'
  · rcases get_edit alloc c name (.default alloc) edit name' with
      hnone | hsome
    · rw [hget] at hnone
      cases hnone
    · rw [hget] at hsome
      split at hsome
      · cases hsome
        exact hcapacity _ hdata.2
      · exact h.capacity name' data hsome.symm
  · apply newestFirst_append h.newest
    rintro o₁ name v o₂ rfl
    exact absurd (List.mem_append_right _ List.mem_cons_self) (hnewest name v)

/-- A call that touches no ticket. -/
theorem kept_edit_of_tls13 (h : Kept alloc c past) (edit : ServerData → ServerData)
    (hedit : ∀ data : ServerData, (edit data).tls13 = data.tls13) :
    Kept alloc (c.getOrInsertDefaultAndEdit alloc (.default alloc) name edit)
      (past ++ additions c name) := by
  have hunused : ∀ name', unused name' (past ++ additions c name) = unused name' past :=
    fun name' => by rw [unused_append, foldl_additions]
  -- queue, capacity and the other servers are as before
  apply kept_edit h edit
  · intro data hdata
    rw [hedit]
    exact hdata
  · intro data hdata
    rw [hedit, hunused]
    exact hdata
  · intro name' _
    exact hunused name'
  · intro name' v hmem
    unfold additions at hmem
    split at hmem <;> simp at hmem

/-- A call that changes nothing, seen by an effect that counts no ticket. -/
theorem kept_of_quiet (h : Kept alloc c past) {e : Effect K}
    (he : ∀ name l, ticketsAfter name l e = l) (htook : ∀ name v, e ≠ .took name (some v)) :
    Kept alloc c (past ++ [e]) := by
  refine ⟨fun name => ?_, h.capacity, ?_⟩
  · rw [unused_append, List.foldl_cons, List.foldl_nil, he]
    exact h.stored name
  · apply newestFirst_append h.newest
    intro o₁ name v o₂ heq
    have hmem : Effect.took name (some v) ∈ [e] := by
      rw [heq]
      exact List.mem_append_right _ List.mem_cons_self
    exact absurd (List.mem_singleton.1 hmem).symm (htook name v)

/-- An entry that is edited in place keeps its capacity. -/
theorem capacity_getMut (h : Kept alloc c past) {edit : ServerData → ServerData} {name' : K}
    {data : ServerData} (hget : (c.getMut name edit).get name' = some data)
    (hedit : ∀ data, (edit data).tls13.capacity = data.tls13.capacity) :
    data.tls13.capacity = alloc.withCapacity maxTls13TicketsPerServer := by
  rw [get_getMut] at hget
  split at hget
  · obtain ⟨data', hdata', rfl⟩ := Option.map_eq_some_iff.1 hget
    rw [hedit]
    exact h.capacity name data' hdata'
  · exact h.capacity name' data hget

/-- Removing a TLS 1.2 session touches no ticket. -/
theorem kept_removeTls12Session (h : Kept alloc c past) (name : K) :
    Kept alloc (removeTls12Session c name) past := by
  refine ⟨fun name' => ?_, fun _ _ hget => capacity_getMut h hget fun _ => rfl, h.newest⟩
  rw [tickets, removeTls12Session, get_getMut]
  split
  · rename_i heq
    rw [Option.map_map, heq]
    exact h.stored name
  · exact h.stored name'

/-- A ticket comes in: it is the newest of its server, and the oldest one may have to go. -/
theorem kept_insertTls13Ticket (h : Kept alloc c past) (name : K)
    (value : Tls13ClientSessionValue) :
    Kept alloc (insertTls13Ticket alloc c name value)
      (past ++ (additions c name ++ [.inserted name value])) := by
  have hunused : ∀ name', unused name' (past ++ (additions c name ++ [.inserted name value])) =
      if name = name' then unused name' past ++ [value] else unused name' past := by
    intro name'
    rw [unused_append, List.foldl_append, foldl_additions]
    rfl
  apply kept_edit h
  · intro data hdata
    -- the queue has room for one ticket at least, so it does not grow
    rw [← hdata]
    apply VecDeque.capacity_pushBackLimited
    rw [hdata]
    exact Nat.lt_of_lt_of_le (by decide) (alloc.le_withCapacity _)
  · intro data hdata
    -- both lists get the ticket at their end; the queue may lose its first
    rw [hunused, if_pos rfl]
    obtain ⟨front, hfront⟩ := hdata
    refine (VecDeque.items_pushBackLimited alloc data.tls13 value).trans ⟨front, ?_⟩
    rw [← List.append_assoc, hfront]
  · intro name' hne
    rw [hunused, if_neg hne.symm]
  · intro name' v hmem
    unfold additions at hmem
    split at hmem <;> simp at hmem

/-- The ticket that is handed out is the last one. -/
theorem fst_takeTls13Ticket (c : ClientSessionMemoryCache K) (name : K) :
    (takeTls13Ticket c name).1 = (tickets c name).getLast? := by
  unfold takeTls13Ticket tickets
  cases c.get name <;> rfl

/-- It is not kept. -/
theorem tickets_takeTls13Ticket (c : ClientSessionMemoryCache K) (name name' : K) :
    tickets (takeTls13Ticket c name).2 name' =
      if name' = name then (tickets c name).dropLast else tickets c name' := by
  rw [tickets, takeTls13Ticket, get_getMut]
  split
  · rw [tickets]
    cases c.get name <;> rfl
  · rfl

/-- What is left after a ticket has been taken is unused. -/
theorem stored_takeTls13Ticket (h : Kept alloc c past) (name name' : K) :
    tickets (takeTls13Ticket c name).2 name' <:+
      unused name' (past ++ [.took name (takeTls13Ticket c name).1]) := by
  rw [tickets_takeTls13Ticket, unused_append, fst_takeTls13Ticket]
  cases hlast : (tickets c name).getLast? with
  | none =>
    -- nothing is stored for the server
    have hnil := List.getLast?_eq_none_iff.1 hlast
    split
    · rw [hnil]
      exact List.nil_suffix
    · exact h.stored name'
  | some v =>
    obtain ⟨front, hfront⟩ := h.stored name
    obtain ⟨rest, hrest⟩ := List.getLast?_eq_some_iff.1 hlast
    show _ <:+ if name = name' then (unused name' past).dropLast else unused name' past
    split
    · rename_i heq
      subst heq
      rw [if_pos rfl, ← hfront, hrest, List.dropLast_concat, ← List.append_assoc,
        List.dropLast_concat]
      exact List.suffix_append _ _
    · rename_i hne
      rw [if_neg (Ne.symm hne)]
      exact h.stored name'

/-- A ticket is taken: it is the newest one. -/
theorem kept_takeTls13Ticket (h : Kept alloc c past) (name : K) :
    Kept alloc (takeTls13Ticket c name).2 (past ++ [.took name (takeTls13Ticket c name).1]) := by
  refine ⟨stored_takeTls13Ticket h name, fun _ _ hget => capacity_getMut h hget fun _ => rfl, ?_⟩
  apply newestFirst_append h.newest
  intro o₁ name' v o₂ heq
  have hnil : o₁ = [] := by
    cases o₁ with
    | nil => rfl
    | cons e o₁ => simp at heq
  subst hnil
  injection heq with heq
  injection heq with hname hlast
  subst hname
  rw [fst_takeTls13Ticket] at hlast
  -- the last of the queue is the last of all that are unused
  obtain ⟨front, hfront⟩ := h.stored name
  obtain ⟨rest, hrest⟩ := List.getLast?_eq_some_iff.1 hlast
  refine ⟨front ++ rest, ?_⟩
  rw [List.append_nil, ← hfront, hrest, List.append_assoc]

/-- **One step.** What is stored is still a recent part of what is unused. -/
theorem kept_step (h : Kept alloc c past) {e : Event K} (hstep : step alloc c e = some (c', o)) :
    Kept alloc c' (past ++ o) := by
  cases e with
  | setKxHint name group =>
    cases hstep
    exact kept_edit_of_tls13 h _ fun _ => rfl
  -- the calls that only read leave everything as it is
  | kxHint name =>
    cases hstep
    exact kept_of_quiet h (fun _ _ => rfl) (by simp)
  | setTls12Session name value =>
    cases hstep
    exact kept_edit_of_tls13 h _ fun _ => rfl
  | tls12Session name =>
    cases hstep
    exact kept_of_quiet h (fun _ _ => rfl) (by simp)
  | removeTls12Session name =>
    cases hstep
    rw [List.append_nil]
    exact kept_removeTls12Session h name
  -- these two change the tickets
  | insertTls13Ticket name value =>
    cases hstep
    exact kept_insertTls13Ticket h name value
  | takeTls13Ticket name =>
    cases hstep
    exact kept_takeTls13Ticket h name

/-- Nothing is stored, and nothing has come in. -/
theorem kept_new (alloc : Allocator) (size : Nat) :
    Kept alloc (inMemorySessions alloc size : ClientSessionMemoryCache K) [] := by
  refine ⟨fun name => ?_, fun name data hget => ?_, fun out₁ name v out₂ hout => ?_⟩
  · rw [tickets_of_none (c := inMemorySessions alloc size) (get_new alloc _)]
    exact List.nil_suffix
  · cases (get_new alloc _).symm.trans hget
  · simp at hout

/-- **Tickets are used once.** After any calls, what is stored for a server are tickets that
    came in for it and have not been taken, without the oldest ones, and no more than there is
    room for. Whenever one is taken, it is the newest of those. -/
theorem tickets_of_run (alloc : Allocator) (size : Nat) {es : List (Event K)}
    {c : ClientSessionMemoryCache K} {out : List (Effect K)}
    (hrun : Machine.run (step alloc) (inMemorySessions alloc size) es = some (c, out)) :
    (∀ name, tickets c name <:+ unused name out ∧
      (tickets c name).length ≤ alloc.withCapacity maxTls13TicketsPerServer) ∧
      NewestFirst out := by
  have hkept := Machine.run_history (I := Kept alloc)
    (fun _ _ _ _ _ h (_ : True) hstep => kept_step h hstep) (kept_new alloc size)
    (fun _ _ => trivial) hrun
  refine ⟨fun name => ⟨hkept.stored name, ?_⟩, hkept.newest⟩
  cases hget : c.get name with
  | none =>
    rw [tickets_of_none hget]
    exact Nat.zero_le _
  | some data =>
    rw [tickets_of_get hget, ← hkept.capacity name data hget]
    exact data.tls13.length_le

/-- An allocator that allocates what is asked for. -/
def exactAllocator : Allocator where
  withCapacity n := n
  le_withCapacity n := Nat.le_refl n
  grow n := max (2 * n) 4
  lt_grow n := by omega

/-- A ticket that was received at some time. -/
def ticketAt (ticket : UInt8) (time : UInt64) (lifetimeSecs ageAdd : UInt32) :
    Tls13ClientSessionValue :=
  .new 0x1301 [ticket] [] [] time lifetimeSecs ageAdd 0

/-- Two tickets for one server; the second one is taken first. -/
theorem tickets_of_two :
    ∃ c out, Machine.run (step exactAllocator) (inMemorySessions exactAllocator 256)
        [.insertTls13Ticket 1 (ticketAt 1 0 60 0), .insertTls13Ticket 1 (ticketAt 2 0 60 0),
          .takeTls13Ticket 1] = some (c, out) ∧
      .took 1 (some (ticketAt 2 0 60 0)) ∈ out ∧ NewestFirst out ∧
      (tickets c 1).length ≤ 8 := by
  have hcheck : (Machine.run (step exactAllocator) (inMemorySessions exactAllocator 256)
      [.insertTls13Ticket 1 (ticketAt 1 0 60 0), .insertTls13Ticket 1 (ticketAt 2 0 60 0),
        .takeTls13Ticket 1]).map (fun r => decide (.took 1 (some (ticketAt 2 0 60 0)) ∈ r.2)) =
          some true := by decide
  obtain ⟨⟨c, out⟩, hrun, hout⟩ := Option.map_eq_some_iff.1 hcheck
  obtain ⟨htickets, hnewest⟩ := tickets_of_run exactAllocator 256 hrun
  exact ⟨c, out, hrun, of_decide_eq_true hout, hnewest, (htickets 1).2⟩

end Tickets

/-! ## Servers -/

section Servers

variable {K : Type} [DecidableEq K] {c c' : ClientSessionMemoryCache K} {alloc : Allocator}
  {name : K} {past o : List (Effect K)} {m : Nat}

/-- There is room for `m` servers and one more, and the last `m` that were added are known. -/
structure LastAdded (m : Nat) (c : ClientSessionMemoryCache K) (past : List (Effect K)) : Prop where
  capacity : c.oldest.capacity = m + 1
  items : c.oldest.items = (past.flatMap addedBy).rtake m

/-- A new key goes to the end, and the first one goes if there is no room for another. -/
theorem lastAdded_insertVacant (h : LastAdded m c past) {data : ServerData} (hnew : name ∉ c.map) :
    LastAdded m (c.insertVacant alloc name data hnew).evict (past ++ [.added name]) := by
  have hlen : c.oldest.items.length = min m (past.flatMap addedBy).length := by
    rw [h.items, List.rtake, List.length_drop]
    omega
  have hcapacity : (c.oldest.pushBack alloc name).capacity = m + 1 := by
    rw [VecDeque.capacity_pushBack (by rw [h.capacity]; omega), h.capacity]
  have hitems : (c.oldest.pushBack alloc name).items =
      (past.flatMap addedBy ++ [name]).drop ((past.flatMap addedBy).length - m) := by
    rw [VecDeque.items_pushBack, h.items, List.rtake,
      List.drop_append_of_le_length (Nat.sub_le _ _)]
  have hadded : (past ++ [Effect.added name]).flatMap addedBy = past.flatMap addedBy ++ [name] := by
    rw [List.flatMap_append]
    rfl
  -- with the new key there are `m + 1`, which is all there is room for, once `m` have been added
  have hfull : (c.oldest.pushBack alloc name).isFull = true ↔ m ≤ (past.flatMap addedBy).length := by
    rw [VecDeque.isFull_iff, hcapacity, VecDeque.items_pushBack, List.length_append, hlen,
      List.length_singleton]
    omega
  unfold LimitedCache.evict
  split
  · -- the first of the last `m + 1` goes
    rename_i hevict
    have hle := hfull.1 hevict
    refine ⟨hcapacity, ?_⟩
    show (c.oldest.pushBack alloc name).items.tail = _
    rw [hitems, hadded, List.rtake, List.tail_drop, List.length_append, List.length_singleton,
      Nat.sub_add_comm hle]
  · -- all that have been added are still there
    rename_i hroom
    have hlt : ¬ m ≤ (past.flatMap addedBy).length := fun hle => hroom (hfull.2 hle)
    refine ⟨hcapacity, ?_⟩
    show (c.oldest.pushBack alloc name).items = _
    rw [hitems, hadded, List.rtake, List.length_append, List.length_singleton]
    congr 1
    omega

/-- An edit adds its server, if it is not known. -/
theorem lastAdded_edit (h : LastAdded m c past) (default : ServerData)
    (edit : ServerData → ServerData) :
    LastAdded m (c.getOrInsertDefaultAndEdit alloc default name edit)
      (past ++ additions c name) := by
  unfold LimitedCache.getOrInsertDefaultAndEdit
  split
  · rename_i hmem
    rw [additions, if_pos hmem, List.append_nil]
    exact ⟨h.capacity, h.items⟩
  · rename_i hnew
    rw [additions, if_neg hnew]
    exact lastAdded_insertVacant h hnew

/-- A call that adds no server. -/
theorem lastAdded_of_oldest (h : LastAdded m c past) (holdest : c'.oldest = c.oldest)
    (ho : o.flatMap addedBy = []) : LastAdded m c' (past ++ o) := by
  refine ⟨holdest ▸ h.capacity, ?_⟩
  rw [holdest, List.flatMap_append, ho, List.append_nil]
  exact h.items

/-- **One step.** The servers that are known are still the last ones added. -/
theorem lastAdded_step (h : LastAdded m c past) {e : Event K}
    (hstep : step alloc c e = some (c', o)) : LastAdded m c' (past ++ o) := by
  cases e with
  | setKxHint name group =>
    cases hstep
    exact lastAdded_edit h _ _
  | kxHint name =>
    cases hstep
    exact lastAdded_of_oldest h rfl rfl
  | setTls12Session name value =>
    cases hstep
    exact lastAdded_edit h _ _
  | tls12Session name =>
    cases hstep
    exact lastAdded_of_oldest h rfl rfl
  | removeTls12Session name =>
    cases hstep
    exact lastAdded_of_oldest h (oldest_getMut _) rfl
  -- the server is added before its ticket
  | insertTls13Ticket name value =>
    cases hstep
    rw [← List.append_assoc]
    exact lastAdded_of_oldest (lastAdded_edit h _ _) rfl rfl
  | takeTls13Ticket name =>
    cases hstep
    exact lastAdded_of_oldest h (oldest_getMut _) rfl

/-- Room for any session is room for a server. -/
theorem maxServers_pos {size : Nat} (hsize : 0 < size) : 0 < maxServers size := by
  unfold maxServers maxTls13TicketsPerServer
  omega

/-- No server is known, and none has been added. -/
theorem lastAdded_new (alloc : Allocator) {size : Nat} (hsize : 0 < size) :
    LastAdded (alloc.withCapacity (maxServers size) - 1)
      (inMemorySessions alloc size : ClientSessionMemoryCache K) [] := by
  have hle := alloc.le_withCapacity (maxServers size)
  have hpos := maxServers_pos hsize
  refine ⟨?_, ?_⟩
  · show alloc.withCapacity (maxServers size) = _
    omega
  · rw [List.flatMap_nil, List.rtake_nil]
    rfl

/-- **Whole runs**, by `lastAdded_step`. -/
theorem lastAdded_of_run (alloc : Allocator) {size : Nat} (hsize : 0 < size) {es : List (Event K)}
    {out : List (Effect K)}
    (hrun : Machine.run (step alloc) (inMemorySessions alloc size) es = some (c, out)) :
    LastAdded (alloc.withCapacity (maxServers size) - 1) c out :=
  Machine.run_history (fun _ _ _ _ _ h (_ : True) hstep => lastAdded_step h hstep)
    (lastAdded_new alloc hsize) (fun _ _ => trivial) hrun

/-- **Which servers are known.** After any calls these are the last ones that were added, one
    fewer than there is room for, whether or not they have been used since. -/
theorem servers_of_run (alloc : Allocator) {size : Nat} (hsize : 0 < size) {es : List (Event K)}
    {out : List (Effect K)}
    (hrun : Machine.run (step alloc) (inMemorySessions alloc size) es = some (c, out)) (name : K) :
    c.get name ≠ none ↔
      name ∈ (out.flatMap addedBy).rtake (alloc.withCapacity (maxServers size) - 1) := by
  rw [Ne, get_eq_none_iff, (lastAdded_of_run alloc hsize hrun).items, not_not]

/-- Room for three: of three servers the last two are known, though the first was used last. -/
theorem servers_of_three :
    ∃ c out, Machine.run (step exactAllocator) (inMemorySessions exactAllocator 24)
        [.setKxHint 1 29, .setKxHint 2 29, .kxHint 1, .setKxHint 3 29] = some (c, out) ∧
      c.get 1 = none ∧ c.get 2 ≠ none := by
  have hcheck : (Machine.run (step exactAllocator) (inMemorySessions exactAllocator 24)
      [.setKxHint 1 29, .setKxHint 2 29, .kxHint 1, .setKxHint 3 29]).map
        (fun r => r.2.flatMap addedBy) = some [1, 2, 3] := by decide
  obtain ⟨⟨c, out⟩, hrun, hout⟩ := Option.map_eq_some_iff.1 hcheck
  dsimp only at hout
  have hknown := servers_of_run exactAllocator (by decide) hrun
  rw [hout] at hknown
  refine ⟨c, out, hrun, ?_, (hknown 2).2 (by decide)⟩
  by_contra hne
  exact absurd ((hknown 1).1 hne) (by decide)

/-- The call has found nothing. -/
def FoundNothing : Effect K → Prop
  | .hint _ group => group = none
  | .session _ value => value = none
  | .took _ value => value = none
  | .added _ | .inserted _ _ => True

/-- A call finds nothing where nothing is stored. -/
theorem foundNothing_step (h : c.oldest.items = []) {e : Event K}
    (hstep : step alloc c e = some (c', o)) : ∀ effect ∈ o, FoundNothing effect := by
  -- the cache is empty, so every lookup fails
  have hget : ∀ name, c.get name = none := fun name => by
    rw [get_eq_none_iff, h]
    exact List.not_mem_nil
  -- that a server is added is not something that is found
  have hadditions : ∀ name, ∀ effect ∈ additions c name, FoundNothing effect := by
    intro name effect hmem
    unfold additions at hmem
    split at hmem
    · cases hmem
    · rw [List.mem_singleton.1 hmem]
      trivial
  cases e with
  | setKxHint name group =>
    cases hstep
    exact hadditions name
  | kxHint name =>
    cases hstep
    simp [FoundNothing, kxHint, hget]
  | setTls12Session name value =>
    cases hstep
    exact hadditions name
  | tls12Session name =>
    cases hstep
    simp [FoundNothing, tls12Session, hget]
  | removeTls12Session name =>
    cases hstep
    simp
  | insertTls13Ticket name value =>
    cases hstep
    intro effect hmem
    rcases List.mem_append.1 hmem with hmem | hmem
    · exact hadditions name effect hmem
    · rw [List.mem_singleton.1 hmem]
      trivial
  | takeTls13Ticket name =>
    cases hstep
    simp [FoundNothing, takeTls13Ticket, hget]

/-- **Memory for eight sessions holds none.** A store for at most eight sessions has room for
    one server, and an entry goes as soon as it is made: whatever has been stored, no call
    finds a ticket, a session or a group. -/
theorem nothing_of_run (halloc : alloc.withCapacity 1 = 1) {size : Nat} (hsize : 0 < size)
    (hle : size ≤ 8) {es : List (Event K)} {out : List (Effect K)}
    (hrun : Machine.run (step alloc) (inMemorySessions alloc size) es = some (c, out)) :
    ∀ effect ∈ out, FoundNothing effect := by
  have hone : maxServers size = 1 := by
    unfold maxServers maxTls13TicketsPerServer
    omega
  have hnew : LastAdded 0 (inMemorySessions alloc size : ClientSessionMemoryCache K) [] := by
    have hadded := lastAdded_new (K := K) alloc hsize
    rw [hone, halloc] at hadded
    exact hadded
  -- nothing is stored at any time
  have hstep : ∀ (u : ClientSessionMemoryCache K) past e v o,
      (LastAdded 0 u past ∧ ∀ effect ∈ past, FoundNothing effect) → True →
      step alloc u e = some (v, o) →
      LastAdded 0 v (past ++ o) ∧ ∀ effect ∈ past ++ o, FoundNothing effect := by
    rintro u past e v o ⟨hadded, hpast⟩ - hv
    refine ⟨lastAdded_step hadded hv, fun effect hmem => ?_⟩
    rcases List.mem_append.1 hmem with hmem | hmem
    · exact hpast effect hmem
    · have hempty : u.oldest.items = [] := by rw [hadded.items, List.rtake_zero]
      exact foundNothing_step hempty hv effect hmem
  exact (Machine.run_history hstep ⟨hnew, by simp⟩ (fun _ _ => trivial) hrun).2

/-- The store that `connect_and_auth` asks for. -/
theorem nothing_of_eight :
    ∃ (c : ClientSessionMemoryCache Nat) (out : List (Effect Nat)),
      Machine.run (step exactAllocator) (inMemorySessions exactAllocator 8)
        [.insertTls13Ticket 1 (ticketAt 1 0 60 0), .takeTls13Ticket 1] = some (c, out) ∧
      .inserted 1 (ticketAt 1 0 60 0) ∈ out ∧ ∀ effect ∈ out, FoundNothing effect := by
  have hcheck : (Machine.run (step exactAllocator) (inMemorySessions (K := Nat) exactAllocator 8)
      [.insertTls13Ticket 1 (ticketAt 1 0 60 0), .takeTls13Ticket 1]).map
        (fun r => decide (.inserted 1 (ticketAt 1 0 60 0) ∈ r.2)) = some true := by decide
  obtain ⟨⟨c, out⟩, hrun, hout⟩ := Option.map_eq_some_iff.1 hcheck
  exact ⟨c, out, hrun, of_decide_eq_true hout,
    nothing_of_run rfl (by decide) (Nat.le_refl 8) hrun⟩

end Servers

/-! ## The age of a ticket -/

section Age

variable {now serverNow : UInt64} {v : Tls13ClientSessionValue}

/-- A session that is offered has not expired. -/
theorem age_le_of_retrieve {ticket : Option Tls13ClientSessionValue}
    {session : Option Tls12ClientSessionValue} {r : Retrieved ClientSessionValue}
    (hfound : retrieve now ticket session = some r) (hlifetime : r.value.common.lifetimeSecs ≠ 0) :
    r.retrievedAt = now ∧
      now.toNat - r.value.common.epoch.toNat ≤ r.value.common.lifetimeSecs.toNat := by
  obtain ⟨resuming, -, hfresh⟩ := Option.bind_eq_some_iff.1 hfound
  dsimp only at hfresh
  split at hfresh
  · cases hfresh
  · rename_i hexpired
    cases hfresh
    refine ⟨rfl, ?_⟩
    -- not expired: the sum that saturates is not below the time
    simp only [Retrieved.hasExpired, decide_eq_true_eq, not_and, UInt64.not_lt] at hexpired
    have hle := UInt64.le_iff_toNat_le.1 (hexpired hlifetime)
    rw [UInt64.toNat_saturatingAdd, UInt32.toNat_toUInt64] at hle
    show now.toNat - resuming.common.epoch.toNat ≤ resuming.common.lifetimeSecs.toNat
    omega

/-- The age that a client sends of a ticket whose lifetime has not ended, without what it is
    obfuscated with. -/
theorem toNat_obfuscatedTicketAge
    (hage : now.toNat - v.common.epoch.toNat ≤ maxTicketLifetime.toNat) (offset : UInt32)
    (hoffset : offset = v.ageAdd) :
    (Retrieved.obfuscatedTicketAge ⟨v, now⟩ - offset).toNat =
      (now.toNat - v.common.epoch.toNat) * 1000 := by
  have hmax : maxTicketLifetime.toNat = 604800 := by decide
  rw [hmax] at hage
  unfold Retrieved.obfuscatedTicketAge
  dsimp only
  rw [hoffset, UInt32.add_sub_cancel, UInt32.toNat_mul,
    UInt64.toNat_toUInt32, UInt64.toNat_saturatingSub, show (1000 : UInt32).toNat = 1000 from rfl,
    Nat.mod_eq_of_lt (by omega), Nat.mod_eq_of_lt (by omega)]

/-- The distance that `set_freshness` computes. -/
theorem toNat_distance (a b : UInt32) :
    (if a < b then b - a else a - b).toNat = (b.toNat - a.toNat) + (a.toNat - b.toNat) := by
  split
  · rename_i hlt
    have hlt' := UInt32.lt_iff_toNat_lt.1 hlt
    rw [UInt32.toNat_sub_of_le _ _ (UInt32.le_iff_toNat_le.2 (Nat.le_of_lt hlt'))]
    omega
  · rename_i hle
    have hle' := UInt32.le_iff_toNat_le.1 (UInt32.not_lt.1 hle)
    rw [UInt32.toNat_sub_of_le _ _ (UInt32.not_lt.1 hle)]
    omega

/-- **The two ends agree on the age of a ticket.** A ticket that a client finds and offers is
    fresh for the server that made it exactly if by their clocks its ages differ by at most a
    minute, where the server's is cut to 32 bits: a ticket from 136 years ago is as good as new.
    A ticket without a lifetime is left out: it never expires, and its age in milliseconds need
    not fit. -/
theorem isFresh_iff_of_retrieve {ticket : Option Tls13ClientSessionValue}
    {session : Option Tls12ClientSessionValue}
    (hfound : retrieve now ticket session = some ⟨.tls13 v, now⟩)
    (hlifetime : v.common.lifetimeSecs ≠ 0) (s : ServerSessionValue)
    (hoffset : s.ageObfuscationOffset = v.ageAdd) :
    (s.setFreshness (Retrieved.obfuscatedTicketAge ⟨v, now⟩) serverNow).isFresh = true ↔
      now.toNat - v.common.epoch.toNat ≤
          (serverNow.toNat - s.creationTimeSec.toNat) % 2 ^ 32 + 60 ∧
        (serverNow.toNat - s.creationTimeSec.toNat) % 2 ^ 32 ≤
          now.toNat - v.common.epoch.toNat + 60 := by
  have hle : now.toNat - v.common.epoch.toNat ≤ maxTicketLifetime.toNat :=
    Nat.le_trans (age_le_of_retrieve hfound hlifetime).2
      (UInt32.le_iff_toNat_le.1 v.common.lifetime_le)
  have hclient := toNat_obfuscatedTicketAge hle _ hoffset
  have hserver : ((serverNow.saturatingSub s.creationTimeSec).toUInt32.saturatingMul 1000).toNat =
      min ((serverNow.toNat - s.creationTimeSec.toNat) % 2 ^ 32 * 1000) (2 ^ 32 - 1) := by
    rw [UInt32.toNat_saturatingMul, UInt64.toNat_toUInt32, UInt64.toNat_saturatingSub]
    rfl
  have hmax : maxTicketLifetime.toNat = 604800 := by decide
  have hskew : maxFreshnessSkewMs.toNat = 60000 := by decide
  rw [ServerSessionValue.isFresh, ServerSessionValue.setFreshness]
  dsimp only
  rw [Option.getD_some, decide_eq_true_eq, UInt32.le_iff_toNat_le, toNat_distance, hclient, hserver,
    hskew]
  -- an age in milliseconds that the server cannot express is far from any that the client sends
  omega

/-- Received at 1000, made at 5000 by the server's clock, and offered ten seconds later; 2^32
    seconds make no difference. -/
theorem isFresh_of_ten_seconds :
    ((⟨5000, 77, none⟩ : ServerSessionValue).setFreshness
      (Retrieved.obfuscatedTicketAge ⟨ticketAt 1 1000 3600 77, 1010⟩) 5010).isFresh = true ∧
    ((⟨5000, 77, none⟩ : ServerSessionValue).setFreshness
      (Retrieved.obfuscatedTicketAge ⟨ticketAt 1 1000 3600 77, 1010⟩)
        (5010 + 0x100000000)).isFresh = true := by
  have hfound : retrieve 1010 (some (ticketAt 1 1000 3600 77)) none =
      some ⟨.tls13 (ticketAt 1 1000 3600 77), 1010⟩ := by decide
  exact ⟨(isFresh_iff_of_retrieve hfound (by decide) ⟨5000, 77, none⟩ rfl).2 (by decide),
    (isFresh_iff_of_retrieve hfound (by decide) ⟨5000, 77, none⟩ rfl).2 (by decide)⟩

end Age

end Fogged.Spec.Sessions
