import Fogged.Spec.MuxIds

/-!
# Two multiplexers and the messages between them

A client and a server each open streams, tell the other end with a `StreamOpen`
message, and register what they are told. Messages arrive in any order, each once,
and either end closes any id whenever it likes. The joint invariant `Agreement`
relates both tables, both counters and the messages in flight to everything that
has been issued and registered so far.

## Key results

- `agreement_step`: what one event preserves
- `stream_ids_agree`: every reachable state of the pair
-/

namespace Fogged.Spec.Mux

open Fogged.Native Fogged.Native.Mux
open Machine

/-! ## The pair -/

inductive Side where
  | client
  | server
  deriving DecidableEq

def Side.other : Side → Side
  | .client => .server
  | .server => .client

@[simp] theorem Side.other_other (side : Side) : side.other.other = side := by
  cases side <;> rfl

theorem Side.other_ne (side : Side) : side.other ≠ side := by
  cases side <;> decide

/-- The first id of each end. -/
def Side.first : Side → UInt32
  | .client => 1
  | .server => 2

/-- The ends have different parities. -/
theorem Side.first_parity {a b : Side} (h : a.first.toNat % 2 = b.first.toNat % 2) : a = b := by
  cases a <;> cases b <;> first | rfl | exact absurd h (by decide)

/-- Both ends, and the ids of the `StreamOpen` messages on their way to each. -/
structure Pair where
  mux : Side → Multiplexer
  inbox : Side → List UInt32

namespace Pair

def new : Pair where
  mux
    | .client => .newClient
    | .server => .newServer
  inbox _ := []

inductive Event where
  /-- An end opens a stream and tells the other. -/
  | openStream (side : Side) (target : Option TargetAddr) (isUdp : Bool)
  /-- A message arrives at `side`. -/
  | deliver (side : Side) (id : UInt32) (target : Option TargetAddr) (isUdp : Bool)
  /-- An end closes a stream. -/
  | closeStream (side : Side) (id : UInt32)

inductive Effect where
  | issued (side : Side) (id : UInt32)
  | openFailed (side : Side) (e : MuxError)
  | registered (side : Side) (id : UInt32) (r : Except MuxError Unit)
  deriving DecidableEq

def step (p : Pair) : Event → Option (Pair × List Effect)
  | .openStream side target isUdp =>
    match (p.mux side).openStream target isUdp with
    | (.ok id, m) =>
      some ({ mux := Function.update p.mux side m
              inbox := Function.update p.inbox side.other (p.inbox side.other ++ [id]) },
        [.issued side id])
    | (.error e, m) => some ({ p with mux := Function.update p.mux side m }, [.openFailed side e])
  | .deliver side id target isUdp =>
    -- any message in flight may be the next to arrive
    if id ∈ p.inbox side then
      let (r, m) := (p.mux side).registerRemoteStream id target isUdp
      some ({ mux := Function.update p.mux side m
              inbox := Function.update p.inbox side ((p.inbox side).erase id) },
        [.registered side id r])
    else none
  | .closeStream side id =>
    some ({ p with mux := Function.update p.mux side ((p.mux side).closeStream id) }, [])

end Pair

open Pair

/-! ## What has been issued and delivered -/

/-- The id that `side` issued. -/
def issuedBy (side : Side) : Effect → Option UInt32
  | .issued s id => if s = side then some id else none
  | _ => none

/-- The id that a message brought to `side`. -/
def deliveredTo (side : Side) : Effect → Option UInt32
  | .registered s id _ => if s = side then some id else none
  | _ => none

/-- The id that either end issued. -/
def issuedAny : Effect → Option UInt32
  | .issued _ id => some id
  | _ => none

/-- An id is among those that an end has issued. -/
theorem mem_issuedBy {side : Side} {id : UInt32} {past : List Effect} :
    id ∈ past.filterMap (issuedBy side) ↔ .issued side id ∈ past := by
  rw [List.mem_filterMap]
  constructor
  · rintro ⟨x, hx, hid⟩
    cases x with
    | issued s id' =>
      simp only [issuedBy] at hid
      split at hid <;> cases hid
      -- only effects of this end count
      rename_i heq
      rw [← heq]
      exact hx
    | _ => cases hid
  · intro h
    exact ⟨_, h, if_pos rfl⟩

/-- A reply is about an id that was delivered. -/
theorem mem_deliveredTo {side : Side} {id : UInt32} {r : Except MuxError Unit}
    {past : List Effect} (h : .registered side id r ∈ past) :
    id ∈ past.filterMap (deliveredTo side) :=
  List.mem_filterMap.2 ⟨_, h, if_pos rfl⟩

/-- An id that either end has issued. -/
theorem mem_issuedAny {id : UInt32} {past : List Effect} :
    id ∈ past.filterMap issuedAny ↔ ∃ side, Effect.issued side id ∈ past := by
  rw [List.mem_filterMap]
  constructor
  · rintro ⟨x, hx, hid⟩
    cases x with
    | issued s id' =>
      cases hid
      exact ⟨s, hx⟩
    | _ => cases hid
  · rintro ⟨side, h⟩
    exact ⟨_, h, rfl⟩

/-- The joint invariant. -/
structure Agreement (p : Pair) (past : List Effect) : Prop where
  /-- Each end has issued the first ids of its own sequence. -/
  issued : ∀ side, past.filterMap (issuedBy side) =
    firstIds side.first (past.filterMap (issuedBy side)).length
  next : ∀ side, (p.mux side).nextStreamId =
    nthId side.first (past.filterMap (issuedBy side)).length
  /-- What one end issued is in flight to the other or has arrived there, once. -/
  flight : ∀ side, List.Perm (p.inbox side ++ past.filterMap (deliveredTo side))
    (past.filterMap (issuedBy side.other))
  /-- What an end has in its table it has opened or registered. -/
  used : ∀ side, ∀ id ∈ (p.mux side).streams,
    .issued side id ∈ past ∨ .registered side id (.ok ()) ∈ past
  replies : ∀ side id r, .registered side id r ∈ past →
    r = .ok () ∨ r = .error .maxRemoteStreamsReached
  distinct : (past.filterMap issuedAny).Nodup

/-- Neither end has opened more streams than there are ids. -/
def Within (past : List Effect) : Prop :=
  ∀ side, (past.filterMap (issuedBy side)).length ≤ 2 ^ 31

/-- The bound holds for every part of a run. -/
theorem within_of_append {past o : List Effect} (h : Within (past ++ o)) : Within past := by
  intro side
  have hside := h side
  rw [List.filterMap_append, List.length_append] at hside
  omega

/-- An issued id has the parity of the end that issued it. -/
theorem Agreement.parity {p : Pair} {past : List Effect} (h : Agreement p past) {side : Side}
    {id : UInt32} (hid : .issued side id ∈ past) : id.toNat % 2 = side.first.toNat % 2 := by
  have hmem := mem_issuedBy.2 hid
  rw [h.issued side] at hmem
  exact parity_of_mem_firstIds hmem

/-- An id is issued by one end only. -/
theorem Agreement.issued_unique {p : Pair} {past : List Effect} (h : Agreement p past)
    {a b : Side} {id : UInt32} (ha : .issued a id ∈ past) (hb : .issued b id ∈ past) : a = b :=
  Side.first_parity ((h.parity ha).symm.trans (h.parity hb))

/-- What arrived at an end was issued by the other. -/
theorem Agreement.issued_of_registered {p : Pair} {past : List Effect} (h : Agreement p past)
    {side : Side} {id : UInt32} {r : Except MuxError Unit}
    (hid : .registered side id r ∈ past) : .issued side.other id ∈ past := by
  apply mem_issuedBy.1
  apply (h.flight side).mem_iff.1
  exact List.mem_append_right _ (mem_deliveredTo hid)

/-- At the start nothing has been issued. -/
theorem agreement_new : Agreement Pair.new [] where
  issued _ := rfl
  next side := by cases side <;> rfl
  flight _ := List.Perm.refl _
  used side id hid := by cases side <;> exact absurd hid Finmap.notMem_empty
  replies _ _ _ h := by cases h
  distinct := List.nodup_nil

/-! ## One event

An event changes one end, so the other keeps what the invariant says about it. The
next three lemmas say this once for all events. -/

section update

variable {p : Pair} {past o : List Effect} {side : Side} {m : Multiplexer}

/-- The counters, if this end's has not moved. -/
theorem Agreement.next_update (h : Agreement p past)
    (hnext : m.nextStreamId = (p.mux side).nextStreamId) (s : Side) :
    (Function.update p.mux side m s).nextStreamId =
      nthId s.first (past.filterMap (issuedBy s)).length := by
  by_cases hs : s = side
  · subst hs
    rw [Function.update_self, hnext]
    exact h.next s
  · rw [Function.update_of_ne hs]
    exact h.next s

/-- The tables, if what is new in this end's has just been opened or registered. -/
theorem Agreement.used_update (h : Agreement p past)
    (hm : ∀ k ∈ m.streams, k ∈ (p.mux side).streams ∨
      .issued side k ∈ o ∨ .registered side k (.ok ()) ∈ o)
    (s : Side) (k : UInt32) (hk : k ∈ (Function.update p.mux side m s).streams) :
    .issued s k ∈ past ++ o ∨ .registered s k (.ok ()) ∈ past ++ o := by
  have hold : k ∈ (p.mux s).streams →
      .issued s k ∈ past ++ o ∨ .registered s k (.ok ()) ∈ past ++ o :=
    fun hk => (h.used s k hk).imp (List.mem_append_left o) (List.mem_append_left o)
  by_cases hs : s = side
  · subst hs
    rw [Function.update_self] at hk
    obtain hk | hnew := hm k hk
    · exact hold hk
    · exact hnew.imp (List.mem_append_right past) (List.mem_append_right past)
  · rw [Function.update_of_ne hs] at hk
    exact hold hk

/-- The replies, if the new ones are as they should be. -/
theorem Agreement.replies_append (h : Agreement p past)
    (ho : ∀ side id r, .registered side id r ∈ o → r = .ok () ∨ r = .error .maxRemoteStreamsReached)
    (s : Side) (id : UInt32) (r : Except MuxError Unit)
    (hmem : .registered s id r ∈ past ++ o) :
    r = .ok () ∨ r = .error .maxRemoteStreamsReached :=
  (List.mem_append.1 hmem).elim (h.replies s id r) (ho s id r)

end update

/-- An event that adds nothing to a table, issues nothing and delivers nothing. -/
theorem agreement_quiet {p : Pair} {past o : List Effect} {side : Side} {m : Multiplexer}
    (h : Agreement p past) (hnext : m.nextStreamId = (p.mux side).nextStreamId)
    (hused : ∀ id ∈ m.streams, id ∈ (p.mux side).streams)
    (hquiet : ∀ x ∈ o, ∃ s e, x = .openFailed s e) :
    Agreement { p with mux := Function.update p.mux side m } (past ++ o) := by
  -- no history of ids has an entry for a failed open
  have hskip : ∀ (g : Effect → Option UInt32), (∀ s e, g (.openFailed s e) = none) →
      (past ++ o).filterMap g = past.filterMap g := by
    intro g hg
    apply filterMap_append_of_none
    intro x hx
    obtain ⟨s, e, rfl⟩ := hquiet x hx
    exact hg s e
  have hissued : ∀ s, (past ++ o).filterMap (issuedBy s) = past.filterMap (issuedBy s) :=
    fun s => hskip _ (fun _ _ => rfl)
  constructor
  · intro s
    rw [hissued]
    exact h.issued s
  · intro s
    rw [hissued]
    exact h.next_update hnext s
  · intro s
    rw [hissued, hskip (deliveredTo s) (fun _ _ => rfl)]
    exact h.flight s
  · exact h.used_update (fun k hk => .inl (hused k hk))
  · apply h.replies_append
    intro s id r hmem
    obtain ⟨s', e, heq⟩ := hquiet _ hmem
    cases heq
  · rw [hskip issuedAny (fun _ _ => rfl)]
    exact h.distinct

section opened

variable {p : Pair} {past : List Effect} {side : Side} {m : Multiplexer} {id : UInt32}

/-- The end that opens a stream has issued one more id. -/
theorem filterMap_issuedBy_self (past : List Effect) (side : Side) (id : UInt32) :
    (past ++ [Effect.issued side id]).filterMap (issuedBy side) =
      past.filterMap (issuedBy side) ++ [id] := by
  simp [issuedBy]

/-- The other end has not. -/
theorem filterMap_issuedBy_of_ne (past : List Effect) {s : Side} (hs : s ≠ side) (id : UInt32) :
    (past ++ [Effect.issued side id]).filterMap (issuedBy s) = past.filterMap (issuedBy s) := by
  simp [issuedBy, hs.symm]

/-- The new id is the next of its end's sequence. -/
theorem Agreement.issued_opened (h : Agreement p past) (hid : id = (p.mux side).nextStreamId)
    (s : Side) : (past ++ [Effect.issued side id]).filterMap (issuedBy s) =
      firstIds s.first ((past ++ [Effect.issued side id]).filterMap (issuedBy s)).length := by
  by_cases hs : s = side
  · subst hs
    rw [filterMap_issuedBy_self, List.length_append, List.length_singleton, firstIds_succ,
      ← h.issued s, hid, h.next s]
  · rw [filterMap_issuedBy_of_ne past hs]
    exact h.issued s

/-- The counter goes on by two. -/
theorem Agreement.next_opened (h : Agreement p past) (hid : id = (p.mux side).nextStreamId)
    (hnext : m.nextStreamId = id + 2) (s : Side) :
    (Function.update p.mux side m s).nextStreamId =
      nthId s.first ((past ++ [Effect.issued side id]).filterMap (issuedBy s)).length := by
  by_cases hs : s = side
  · subst hs
    rw [Function.update_self, filterMap_issuedBy_self, List.length_append, List.length_singleton,
      hnext, hid, h.next s, nthId_succ]
  · rw [Function.update_of_ne hs, filterMap_issuedBy_of_ne past hs]
    exact h.next s

/-- The message is in flight to the other end. -/
theorem Agreement.flight_opened (h : Agreement p past) (id : UInt32) (s : Side) :
    List.Perm (Function.update p.inbox side.other (p.inbox side.other ++ [id]) s ++
        (past ++ [Effect.issued side id]).filterMap (deliveredTo s))
      ((past ++ [Effect.issued side id]).filterMap (issuedBy s.other)) := by
  have hdelivered : (past ++ [Effect.issued side id]).filterMap (deliveredTo s) =
      past.filterMap (deliveredTo s) := by simp [deliveredTo]
  rw [hdelivered]
  by_cases hs : s = side.other
  · subst hs
    rw [Function.update_self, Side.other_other, filterMap_issuedBy_self]
    have hflight := h.flight side.other
    rw [Side.other_other] at hflight
    -- the new message moves behind the delivered ones
    have hswap : List.Perm ([id] ++ past.filterMap (deliveredTo side.other))
        (past.filterMap (deliveredTo side.other) ++ [id]) := List.perm_append_comm
    have hmove := hswap.append_left (p.inbox side.other)
    rw [← List.append_assoc, ← List.append_assoc] at hmove
    exact hmove.trans (hflight.append_right [id])
  · have hs' : s.other ≠ side := by
      rintro rfl
      exact hs (Side.other_other s).symm
    rw [Function.update_of_ne hs, filterMap_issuedBy_of_ne past hs']
    exact h.flight s

/-- The next id differs from this end's by position and from the other's by parity. -/
theorem Agreement.next_fresh (h : Agreement p past)
    (hcount : (past.filterMap (issuedBy side)).length < 2 ^ 31) (s : Side) :
    .issued s (p.mux side).nextStreamId ∉ past := by
  intro hmem
  by_cases hs : s = side
  · subst hs
    have hlist := mem_issuedBy.2 hmem
    rw [h.next s] at hlist
    apply nthId_not_mem hcount
    rw [← h.issued s]
    exact hlist
  · have hparity := h.parity hmem
    rw [h.next side, nthId_parity] at hparity
    exact hs (Side.first_parity hparity).symm

/-- A fresh id is no duplicate. -/
theorem Agreement.distinct_opened (h : Agreement p past) (hfresh : ∀ s, .issued s id ∉ past) :
    ((past ++ [Effect.issued side id]).filterMap issuedAny).Nodup := by
  have hany : (past ++ [Effect.issued side id]).filterMap issuedAny =
      past.filterMap issuedAny ++ [id] := by simp [issuedAny]
  rw [hany]
  apply List.Nodup.append h.distinct (List.nodup_singleton id)
  intro k hk hk'
  rw [List.mem_singleton.1 hk'] at hk
  obtain ⟨s, hs⟩ := mem_issuedAny.1 hk
  exact hfresh s hs

end opened

/-- A stream is opened and its message sent. -/
theorem agreement_opened {p : Pair} {past : List Effect} {side : Side} {m : Multiplexer}
    {stream : MuxStream} (h : Agreement p past)
    (hcount : (past.filterMap (issuedBy side)).length < 2 ^ 31)
    (hnext : m.nextStreamId = (p.mux side).nextStreamId + 2)
    (hstreams : m.streams = (p.mux side).streams.insert (p.mux side).nextStreamId stream) :
    Agreement
      { mux := Function.update p.mux side m
        inbox := Function.update p.inbox side.other
          (p.inbox side.other ++ [(p.mux side).nextStreamId]) }
      (past ++ [.issued side (p.mux side).nextStreamId]) where
  issued := h.issued_opened rfl
  next := h.next_opened rfl hnext
  flight := h.flight_opened _
  used := by
    apply h.used_update
    intro k hk
    rw [hstreams, Finmap.mem_insert] at hk
    -- an id of the new table was in the old one, or has just been issued
    obtain rfl | hk := hk
    · exact .inr (.inl List.mem_cons_self)
    · exact .inl hk
  replies := by
    apply h.replies_append
    intro s k r hmem
    cases List.mem_singleton.1 hmem
  distinct := h.distinct_opened (h.next_fresh hcount)

/-- A message that arrives names an id that the table does not hold. -/
theorem Agreement.not_mem_of_inbox {p : Pair} {past : List Effect} (h : Agreement p past)
    (hwithin : Within past) {side : Side} {id : UInt32} (hid : id ∈ p.inbox side) :
    id ∉ (p.mux side).streams := by
  have hissued : .issued side.other id ∈ past :=
    mem_issuedBy.1 ((h.flight side).mem_iff.1 (List.mem_append_left _ hid))
  have hnodup : (p.inbox side ++ past.filterMap (deliveredTo side)).Nodup := by
    apply (h.flight side).nodup_iff.2
    rw [h.issued]
    exact nodup_firstIds _ (hwithin side.other)
  intro hmem
  obtain hown | hregistered := h.used side id hmem
  · -- an own id has the wrong parity
    exact Side.other_ne side (h.issued_unique hissued hown)
  · -- a registered one was delivered before
    exact (List.nodup_append.1 hnodup).2.2 id hid id (mem_deliveredTo hregistered) rfl

/-- A message is delivered. -/
theorem agreement_delivered {p : Pair} {past : List Effect} {side : Side} {id : UInt32}
    {m : Multiplexer} {r : Except MuxError Unit} (h : Agreement p past) (hid : id ∈ p.inbox side)
    (hr : r = .ok () ∨ r = .error .maxRemoteStreamsReached)
    (hnext : m.nextStreamId = (p.mux side).nextStreamId)
    (hused : ∀ k ∈ m.streams, k ∈ (p.mux side).streams ∨ k = id ∧ r = .ok ()) :
    Agreement
      { mux := Function.update p.mux side m
        inbox := Function.update p.inbox side ((p.inbox side).erase id) }
      (past ++ [.registered side id r]) := by
  -- a delivery issues no identifier
  have hissued : ∀ s, (past ++ [Effect.registered side id r]).filterMap (issuedBy s) =
      past.filterMap (issuedBy s) := by
    intro s
    simp [issuedBy]
  have hown : (past ++ [Effect.registered side id r]).filterMap (deliveredTo side) =
      past.filterMap (deliveredTo side) ++ [id] := by simp [deliveredTo]
  have hother : ∀ s, s ≠ side → (past ++ [Effect.registered side id r]).filterMap (deliveredTo s) =
      past.filterMap (deliveredTo s) := by
    intro s hs
    simp [deliveredTo, hs.symm]
  constructor
  · intro s
    rw [hissued]
    exact h.issued s
  · intro s
    rw [hissued]
    exact h.next_update hnext s
  · intro s
    rw [hissued]
    by_cases hs : s = side
    · subst hs
      show List.Perm (Function.update p.inbox s _ s ++ _) _
      rw [Function.update_self, hown, ← List.append_assoc]
      -- the message moves from the ones in flight to the delivered ones
      have htake := (List.perm_cons_erase hid).symm.append_right (past.filterMap (deliveredTo s))
      have hswap : List.Perm (((p.inbox s).erase id ++ past.filterMap (deliveredTo s)) ++ [id])
          ([id] ++ ((p.inbox s).erase id ++ past.filterMap (deliveredTo s))) :=
        List.perm_append_comm
      exact (hswap.trans htake).trans (h.flight s)
    · show List.Perm (Function.update p.inbox side _ s ++ _) _
      rw [Function.update_of_ne hs, hother s hs]
      exact h.flight s
  · -- the used identifiers: those from before, and the one delivered
    apply h.used_update
    intro k hk
    obtain hk | ⟨rfl, rfl⟩ := hused k hk
    · exact .inl hk
    · exact .inr (.inr List.mem_cons_self)
  · apply h.replies_append
    intro s k r' hmem
    cases List.mem_singleton.1 hmem
    exact hr
  · have hany : (past ++ [Effect.registered side id r]).filterMap issuedAny =
        past.filterMap issuedAny := by simp [issuedAny]
    rw [hany]
    exact h.distinct

/-- **What one event preserves**, as long as neither end runs out of ids. -/
theorem agreement_step (p : Pair) (past : List Effect) (e : Event) (p' : Pair) (o : List Effect)
    (h : Within past → Agreement p past) (hstep : step p e = some (p', o))
    (hwithin : Within (past ++ o)) : Agreement p' (past ++ o) := by
  have hw : Within past := within_of_append hwithin
  have h := h hw
  cases e with
  | openStream side target isUdp =>
    simp only [step] at hstep
    split at hstep
    · rename_i id m hopen
      cases hstep
      obtain ⟨hr, -⟩ | ⟨hr, hnext, hstreams⟩ := openStream_cases hopen
      · cases hr
      · cases hr
        have hside := hwithin side
        simp only [List.filterMap_append, List.length_append] at hside
        -- the new id counts, so the bound on the whole run covers it
        have hone : ([Effect.issued side (p.mux side).nextStreamId].filterMap
            (issuedBy side)).length = 1 := by simp [issuedBy]
        exact agreement_opened h (by omega) hnext hstreams
    · rename_i err m hopen
      cases hstep
      obtain ⟨-, rfl⟩ | ⟨hr, -⟩ := openStream_cases hopen
      · -- a refused open leaves the table alone
        apply agreement_quiet h rfl (fun _ hk => hk)
        intro x hx
        exact ⟨side, err, List.mem_singleton.1 hx⟩
      · cases hr
  | deliver side id target isUdp =>
    simp only [step] at hstep
    split at hstep
    · rename_i hid
      cases hstep
      -- an id that is under way is not in the table yet, so it cannot be refused as taken
      have hfresh := h.not_mem_of_inbox hw hid
      cases hreg : (p.mux side).registerRemoteStream id target isUdp with
      | mk r m =>
        obtain ⟨rfl, rfl⟩ | ⟨-, hmem, -⟩ | ⟨rfl, -, hnext, hstreams⟩ :=
          registerRemoteStream_cases hreg
        · exact agreement_delivered h hid (.inr rfl) rfl (fun _ => .inl)
        · exact absurd hmem hfresh
        · apply agreement_delivered h hid (.inl rfl) hnext
          intro k hk
          rw [hstreams, Finmap.mem_insert] at hk
          exact hk.symm.imp_right (fun heq => ⟨heq, rfl⟩)
    · cases hstep
  | closeStream side id =>
    cases hstep
    obtain ⟨hnext, hmem⟩ := closeStream_spec (p.mux side) id
    exact agreement_quiet h hnext (fun k hk => ((hmem k).1 hk).2) (by simp)

/-- **Two ends agree on stream ids**, in every reachable state of every interleaving
    of opens, deliveries in any order and closes, as long as each end has opened
    fewer than 2^31 - 1 streams: the client's ids are odd and the server's even, no id
    is issued twice, registration fails only at the limit, and an id in both tables
    was opened by exactly one end and registered by the other. -/
theorem stream_ids_agree (events : List Event) (p : Pair) (out : List Effect)
    (hrun : run step Pair.new events = some (p, out))
    (hopens : ∀ side, (out.filterMap (issuedBy side)).length < 2 ^ 31 - 1) :
    (∀ id, .issued .client id ∈ out → id.toNat % 2 = 1) ∧
    (∀ id, .issued .server id ∈ out → id.toNat % 2 = 0) ∧
    (out.filterMap issuedAny).Nodup ∧
    (∀ side id r, .registered side id r ∈ out →
      r = .ok () ∨ r = .error .maxRemoteStreamsReached) ∧
    (∀ id, id ∈ (p.mux .client).streams → id ∈ (p.mux .server).streams →
      ∃ side, .issued side id ∈ out ∧ .registered side.other id (.ok ()) ∈ out ∧
        .issued side.other id ∉ out ∧ ∀ r, .registered side id r ∉ out) := by
  have hinv : Within ([] ++ out) → Agreement p ([] ++ out) :=
    run_history (fun p past e p' o h _ hstep => agreement_step p past e p' o h hstep)
      (fun _ => agreement_new) (fun _ _ => trivial) hrun
  rw [List.nil_append] at hinv
  have h : Agreement p out := hinv (fun side => by have := hopens side; omega)
  refine ⟨fun id => h.parity, fun id => h.parity, h.distinct, h.replies, ?_⟩
  intro id hclient hserver
  -- whoever issued it, the other end can only have registered it
  have hside : ∀ side, .issued side id ∈ out → id ∈ (p.mux side.other).streams →
      ∃ side, .issued side id ∈ out ∧ .registered side.other id (.ok ()) ∈ out ∧
        .issued side.other id ∉ out ∧ ∀ r, .registered side id r ∉ out := by
    intro side hissued hmem
    have hnot : .issued side.other id ∉ out := by
      intro hboth
      exact Side.other_ne side (h.issued_unique hboth hissued)
    obtain hown | hregistered := h.used side.other id hmem
    · exact absurd hown hnot
    · refine ⟨side, hissued, hregistered, hnot, ?_⟩
      intro r hr
      exact hnot (h.issued_of_registered hr)
  -- the client has it because it issued it, or because the server did
  obtain hissued | hregistered := h.used .client id hclient
  · exact hside .client hissued hserver
  · exact hside .server (h.issued_of_registered hregistered) hclient

/-- Crossing opens: each end's message arrives while its own is still in flight. -/
theorem stream_ids_agree_crossing :
    ∃ p out,
      run step Pair.new
        [.openStream .client none false, .openStream .server none true,
          .deliver .server 1 none false, .deliver .client 2 none true] = some (p, out) ∧
      out = [.issued .client 1, .issued .server 2, .registered .server 1 (.ok ()),
        .registered .client 2 (.ok ())] ∧
      1 ∈ (p.mux .client).streams ∧ 1 ∈ (p.mux .server).streams ∧
      ∃ side, .issued side 1 ∈ out ∧ .registered side.other 1 (.ok ()) ∈ out ∧
        .issued side.other 1 ∉ out ∧ ∀ r, .registered side 1 r ∉ out := by
  refine ⟨_, _, rfl, rfl, by decide, by decide, ?_⟩
  refine (stream_ids_agree [.openStream .client none false, .openStream .server none true,
    .deliver .server 1 none false, .deliver .client 2 none true] _ _ rfl ?_).2.2.2.2 1 (by decide)
    (by decide)
  intro side
  cases side <;> decide

end Fogged.Spec.Mux
