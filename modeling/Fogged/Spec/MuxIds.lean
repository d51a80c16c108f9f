import Fogged.ForStd.Machine
import Fogged.Native.Mux

/-!
# Which stream ids a multiplexer issues

An end issues `first, first + 2, first + 4, …` in `u32` arithmetic. The ids have
the parity of the first and do not repeat within 2^31 of them, so an id is fresh
as long as the peer keeps to its own parity. Nothing in the code makes it do so.

## Key results

- `nthId_inj`, `nthId_parity`: the sequence of ids
- `openStream_fresh`: no live stream is overwritten if the peer keeps to its parity
- `openStream_overwrites`: what happens if it does not
-/

namespace Fogged.Spec.Mux

open Fogged.Native Fogged.Native.Mux
open Machine

/-! ## The sequence of ids -/

/-- The id of the stream opened after `n` others, when the first has id `first`. -/
def nthId (first : UInt32) (n : Nat) : UInt32 := UInt32.ofNat (first.toNat + 2 * n)

/-- The sequence begins with the first id. -/
theorem nthId_zero (first : UInt32) : nthId first 0 = first := UInt32.ofNat_toNat

/-- And goes on by two, modulo `2 ^ 32`. -/
theorem nthId_succ (first : UInt32) (n : Nat) : nthId first n + 2 = nthId first (n + 1) := by
  apply UInt32.toNat_inj.mp
  have htwo : UInt32.toNat 2 = 2 := rfl
  rw [UInt32.toNat_add, nthId, nthId, UInt32.toNat_ofNat', UInt32.toNat_ofNat', htwo]
  omega

/-- All ids of one end have the same parity, across the wrap-around too. -/
theorem nthId_parity (first : UInt32) (n : Nat) :
    (nthId first n).toNat % 2 = first.toNat % 2 := by
  rw [nthId, UInt32.toNat_ofNat']
  omega

/-- The ids repeat only after 2^31 of them. -/
theorem nthId_inj {first : UInt32} {i j : Nat} (hi : i < 2 ^ 31) (hj : j < 2 ^ 31)
    (h : nthId first i = nthId first j) : i = j := by
  have hnat := congrArg UInt32.toNat h
  rw [nthId, nthId, UInt32.toNat_ofNat', UInt32.toNat_ofNat'] at hnat
  omega

/-- The first `n` ids. -/
def firstIds (first : UInt32) (n : Nat) : List UInt32 := (List.range n).map (nthId first)

/-- One more id. -/
theorem firstIds_succ (first : UInt32) (n : Nat) :
    firstIds first (n + 1) = firstIds first n ++ [nthId first n] := by
  simp [firstIds, List.range_succ]

/-- All ids have the parity of the first. -/
theorem parity_of_mem_firstIds {first id : UInt32} {n : Nat} (h : id ∈ firstIds first n) :
    id.toNat % 2 = first.toNat % 2 := by
  obtain ⟨i, -, rfl⟩ := List.mem_map.1 h
  exact nthId_parity first i

/-- The next id is not among the earlier ones. -/
theorem nthId_not_mem {first : UInt32} {n : Nat} (hn : n < 2 ^ 31) :
    nthId first n ∉ firstIds first n := by
  intro h
  obtain ⟨i, hi, heq⟩ := List.mem_map.1 h
  have hlt : i < n := List.mem_range.1 hi
  have hin := nthId_inj (by omega) hn heq
  omega

/-- The first `2 ^ 31` ids are distinct. -/
theorem nodup_firstIds (first : UInt32) {n : Nat} (hn : n ≤ 2 ^ 31) :
    (firstIds first n).Nodup := by
  apply List.Nodup.map_on _ List.nodup_range
  intro i hi j hj h
  have hi' : i < n := List.mem_range.1 hi
  have hj' : j < n := List.mem_range.1 hj
  exact nthId_inj (by omega) (by omega) h

/-! ## What the calls do -/

/-- Opening a stream fails at the limit, or issues the next id. -/
theorem openStream_cases {m m' : Multiplexer} {target : Option TargetAddr} {isUdp : Bool}
    {r : Except MuxError UInt32} (h : m.openStream target isUdp = (r, m')) :
    (r = .error (.maxStreamsReached m.maxStreams) ∧ m' = m) ∨
      (r = .ok m.nextStreamId ∧ m'.nextStreamId = m.nextStreamId + 2 ∧
        m'.streams = m.streams.insert m.nextStreamId (.new m.nextStreamId target isUdp)) := by
  unfold Multiplexer.openStream at h
  split at h
  · cases h
    exact .inl ⟨rfl, rfl⟩
  · cases h
    exact .inr ⟨rfl, rfl, rfl⟩

/-- Registering a stream fails at the limit or on a used id, or adds it. -/
theorem registerRemoteStream_cases {m m' : Multiplexer} {id : UInt32}
    {target : Option TargetAddr} {isUdp : Bool} {r : Except MuxError Unit}
    (h : m.registerRemoteStream id target isUdp = (r, m')) :
    (r = .error .maxRemoteStreamsReached ∧ m' = m) ∨
      (r = .error (.alreadyExists id) ∧ id ∈ m.streams ∧ m' = m) ∨
      (r = .ok () ∧ id ∉ m.streams ∧ m'.nextStreamId = m.nextStreamId ∧
        m'.streams = m.streams.insert id (.new id target isUdp)) := by
  unfold Multiplexer.registerRemoteStream at h
  split at h
  · cases h
    exact .inl ⟨rfl, rfl⟩
  · split at h
    · rename_i hmem
      cases h
      exact .inr (.inl ⟨rfl, hmem, rfl⟩)
    · rename_i hmem
      cases h
      exact .inr (.inr ⟨rfl, hmem, rfl, rfl⟩)

/-- Changing a stream changes neither the counter nor which ids are in use. -/
theorem modify_spec (m : Multiplexer) (id : UInt32) (f : MuxStream → MuxStream) :
    (m.modify id f).nextStreamId = m.nextStreamId ∧
      ∀ k, k ∈ (m.modify id f).streams ↔ k ∈ m.streams := by
  unfold Multiplexer.modify
  split
  · exact ⟨rfl, fun _ => Iff.rfl⟩
  · rename_i stream hlookup
    refine ⟨rfl, ?_⟩
    intro k
    -- the entry that is written was there before
    rw [Finmap.mem_insert]
    constructor
    · rintro (rfl | hk)
      · exact Finmap.mem_of_lookup_eq_some hlookup
      · exact hk
    · exact .inr

/-- Closing a stream takes it out of the table. -/
theorem closeStream_spec (m : Multiplexer) (id : UInt32) :
    (m.closeStream id).nextStreamId = m.nextStreamId ∧
      ∀ k, k ∈ (m.closeStream id).streams ↔ k ≠ id ∧ k ∈ m.streams := by
  obtain ⟨hnext, hmem⟩ := modify_spec m id fun stream => { stream with state := .closed }
  refine ⟨hnext, ?_⟩
  intro k
  rw [Multiplexer.closeStream, Finmap.mem_erase, hmem]

/-! ## Sequences of calls -/

/-- A call on a multiplexer. -/
inductive Call where
  | openStream (target : Option TargetAddr) (isUdp : Bool)
  | registerRemoteStream (id : UInt32) (target : Option TargetAddr) (isUdp : Bool)
  | closeStream (id : UInt32)
  | recordSent (id : UInt32) (bytes : UInt64)
  | recordReceived (id : UInt32) (bytes : UInt64)

/-- What a call returned. -/
inductive Reply where
  | opened (r : Except MuxError UInt32)
  | registered (r : Except MuxError Unit)
  | done
  deriving DecidableEq

/-- Make the call. -/
def call (m : Multiplexer) : Call → Option (Multiplexer × List Reply)
  | .openStream target isUdp =>
    let (r, m) := m.openStream target isUdp
    some (m, [.opened r])
  | .registerRemoteStream id target isUdp =>
    let (r, m) := m.registerRemoteStream id target isUdp
    some (m, [.registered r])
  | .closeStream id => some (m.closeStream id, [.done])
  | .recordSent id bytes => some (m.recordSent id bytes, [.done])
  | .recordReceived id bytes => some (m.recordReceived id bytes, [.done])

/-- The id a call issued. -/
def issuedId : Reply → Option UInt32
  | .opened (.ok id) => some id
  | _ => none

/-- The peer registers only ids of its own parity with an end whose ids start at
    `first`. -/
def KeepsParity (first : UInt32) : Call → Prop
  | .registerRemoteStream id _ _ => id.toNat % 2 ≠ first.toNat % 2
  | _ => True

/-- What holds after some calls: the ids issued are the first of the sequence, the
    counter stands at the next one, and every id in use was issued or has the peer's
    parity. -/
structure Issuing (first : UInt32) (m : Multiplexer) (past : List Reply) : Prop where
  issued : past.filterMap issuedId = firstIds first (past.filterMap issuedId).length
  next : m.nextStreamId = nthId first (past.filterMap issuedId).length
  used : ∀ id ∈ m.streams, id ∈ past.filterMap issuedId ∨ id.toNat % 2 ≠ first.toNat % 2

/-- A call that issues no id and adds none of this end's parity. -/
theorem issuing_of_same {first : UInt32} {m m' : Multiplexer} {past : List Reply} {reply : Reply}
    (h : Issuing first m past) (hreply : issuedId reply = none)
    (hnext : m'.nextStreamId = m.nextStreamId)
    (hused : ∀ id ∈ m'.streams, id ∈ m.streams ∨ id.toNat % 2 ≠ first.toNat % 2) :
    Issuing first m' (past ++ [reply]) := by
  have hsame : (past ++ [reply]).filterMap issuedId = past.filterMap issuedId := by
    simp [hreply]
  constructor
  · rw [hsame]
    exact h.issued
  · rw [hsame, hnext]
    exact h.next
  · intro id hid
    rw [hsame]
    exact (hused id hid).elim (h.used id) .inr

/-- **What one call preserves.** -/
theorem issuing_call (first : UInt32) (m : Multiplexer) (past : List Reply) (c : Call)
    (m' : Multiplexer) (o : List Reply) (h : Issuing first m past) (hc : KeepsParity first c)
    (hcall : call m c = some (m', o)) : Issuing first m' (past ++ o) := by
  cases c with
  | openStream target isUdp =>
    cases hopen : m.openStream target isUdp with
    | mk r m₁ =>
      simp only [call, hopen] at hcall
      cases hcall
      obtain ⟨rfl, rfl⟩ | ⟨rfl, hnext, hstreams⟩ := openStream_cases hopen
      · exact issuing_of_same h rfl rfl (fun _ => .inl)
      · -- the one call that issues an id
        have hissued : (past ++ [Reply.opened (.ok m.nextStreamId)]).filterMap issuedId =
            past.filterMap issuedId ++ [m.nextStreamId] := by
          simp [issuedId]
        constructor
        · rw [hissued, List.length_append, List.length_singleton, firstIds_succ, ← h.issued, h.next]
        · rw [hissued, List.length_append, List.length_singleton, hnext, h.next, nthId_succ]
        · intro id hid
          rw [hissued]
          rw [hstreams, Finmap.mem_insert] at hid
          obtain rfl | hid := hid
          · exact .inl (List.mem_append_right _ List.mem_cons_self)
          · exact (h.used id hid).imp_left (List.mem_append_left _)
  | registerRemoteStream id target isUdp =>
    cases hreg : m.registerRemoteStream id target isUdp with
    | mk r m₁ =>
      simp only [call, hreg] at hcall
      cases hcall
      obtain ⟨rfl, rfl⟩ | ⟨rfl, -, rfl⟩ | ⟨rfl, -, hnext, hstreams⟩ :=
        registerRemoteStream_cases hreg
      · exact issuing_of_same h rfl rfl (fun _ => .inl)
      · exact issuing_of_same h rfl rfl (fun _ => .inl)
      · -- the registered id has the peer's parity
        apply issuing_of_same h rfl hnext
        intro k hk
        rw [hstreams, Finmap.mem_insert] at hk
        obtain rfl | hk := hk
        · exact .inr hc
        · exact .inl hk
  -- the other calls issue nothing and add nothing
  | closeStream id =>
    cases hcall
    obtain ⟨hnext, hmem⟩ := closeStream_spec m id
    exact issuing_of_same h rfl hnext (fun k hk => .inl ((hmem k).1 hk).2)
  | recordSent id bytes =>
    cases hcall
    obtain ⟨hnext, hmem⟩ := modify_spec m id fun stream =>
      { stream with bytesSent := stream.bytesSent + bytes }
    exact issuing_of_same h rfl hnext (fun k hk => .inl ((hmem k).1 hk))
  | recordReceived id bytes =>
    cases hcall
    obtain ⟨hnext, hmem⟩ := modify_spec m id fun stream =>
      { stream with bytesReceived := stream.bytesReceived + bytes }
    exact issuing_of_same h rfl hnext (fun k hk => .inl ((hmem k).1 hk))

/-- At the start no id has been issued. -/
theorem issuing_new (first : UInt32) (limit : UInt32) :
    Issuing first { streams := ∅, nextStreamId := first, maxStreams := limit } [] where
  issued := rfl
  next := (nthId_zero first).symm
  used _ hid := absurd hid Finmap.notMem_empty

/-- **Opened streams are new** in every run in which the peer keeps to its parity
    and this end has opened fewer than 2^31 streams before: the returned id was not in
    use, and every stream that was live stays as it was. -/
theorem openStream_fresh (start : Multiplexer)
    (hstart : start = Multiplexer.newServer ∨ start = Multiplexer.newClient)
    (calls : List Call) (m : Multiplexer) (replies : List Reply)
    (hparity : ∀ c ∈ calls, KeepsParity start.nextStreamId c)
    (hrun : run call start calls = some (m, replies))
    (hcount : (replies.filterMap issuedId).length < 2 ^ 31)
    (target : Option TargetAddr) (isUdp : Bool) (id : UInt32) (m' : Multiplexer)
    (hopen : m.openStream target isUdp = (.ok id, m')) :
    id ∉ m.streams ∧ ∀ k stream, m.streams.lookup k = some stream →
      m'.streams.lookup k = some stream := by
  have hnew : Issuing start.nextStreamId start [] := by
    obtain rfl | rfl := hstart
    · exact issuing_new 2 maxStreams
    · exact issuing_new 1 maxStreams
  have h : Issuing start.nextStreamId m ([] ++ replies) :=
    run_history (issuing_call start.nextStreamId) hnew hparity hrun
  rw [List.nil_append] at h
  obtain ⟨hr, -⟩ | ⟨hr, -, hstreams⟩ := openStream_cases hopen
  · cases hr
  · cases hr
    have hfresh : m.nextStreamId ∉ m.streams := by
      intro hmem
      have hused := h.used _ hmem
      rw [h.next] at hused
      obtain hissued | hpeer := hused
      · -- an id of this end, issued before: the counter has wrapped around
        apply nthId_not_mem hcount
        rw [← h.issued]
        exact hissued
      · -- an id of the peer has the other parity
        exact hpeer (nthId_parity _ _)
    refine ⟨hfresh, ?_⟩
    intro k stream hlookup
    have hne : k ≠ m.nextStreamId := by
      rintro rfl
      exact hfresh (Finmap.mem_of_lookup_eq_some hlookup)
    rw [hstreams, Finmap.lookup_insert_of_ne _ hne]
    exact hlookup

/-- A client with one registered and one own stream opens a third. -/
theorem openStream_fresh_third :
    ∃ m replies m',
      run call Multiplexer.newClient [.registerRemoteStream 2 none false, .openStream none false] =
        some (m, replies) ∧
      m.openStream none true = (.ok 3, m') ∧ 3 ∉ m.streams := by
  refine ⟨_, _, _, rfl, rfl, ?_⟩
  refine (openStream_fresh Multiplexer.newClient (.inr rfl)
    [.registerRemoteStream 2 none false, .openStream none false] _ _ ?_ rfl (by decide) none true
    3 _ rfl).1
  intro c hc
  simp only [List.mem_cons, List.not_mem_nil, or_false] at hc
  obtain rfl | rfl := hc
  · show ¬ (2 : UInt32).toNat % 2 = (1 : UInt32).toNat % 2
    decide
  · trivial

/-- A target of the peer's stream. -/
def peerTarget : TargetAddr := ⟨.ipv4 ⟨[8, 8, 8, 8], rfl⟩, 53⟩

/-- **A peer can have its stream overwritten**: it registers id 2 with a server, and
    the server's first own stream takes the same id and replaces it. -/
theorem openStream_overwrites :
    ∃ m m', Multiplexer.newServer.registerRemoteStream 2 (some peerTarget) true = (.ok (), m) ∧
      m.openStream none false = (.ok 2, m') ∧ 2 ∈ m.streams ∧
      m.streams.lookup 2 = some (.new 2 (some peerTarget) true) ∧
      m'.streams.lookup 2 = some (.new 2 none false) := by
  refine ⟨_, _, rfl, rfl, ?_, rfl, rfl⟩
  decide

end Fogged.Spec.Mux
