import Mathlib.Algebra.BigOperators.Pi
import Mathlib.Algebra.Order.BigOperators.Group.Finset
import Mathlib.Data.List.DropRight
import Fogged.ForStd.Finmap
import Fogged.Spec.MuxIds

/-!
# A multiplexer as a bounded map

To its user a multiplexer is a map from ids to byte counts, with a bound on its size. The
counts of an id are those of its present stream: they start at zero when a call creates the
stream, also where the id was in use before, and what was recorded for an earlier stream of
the same id is gone with it. `bytesSince` says that of the log of all calls; every call keeps
the table in step with the log.

## Key results

- `called_of_call`: what a call can do
- `lookup_called`: what a call does to one id
- `tallied_call`: what one call preserves
- `refines_bounded_map`: every sequence of calls
-/

namespace Fogged.Spec.Mux

open Fogged.Native Fogged.Native.Mux
open Machine

/-! ## The log -/

/-- The call has created the stream `k`. -/
def creates (k : UInt32) : Call × Reply → Bool
  | (.openStream _ _, .opened (.ok id)) => id = k
  | (.registerRemoteStream id _ _, .registered (.ok ())) => id = k
  | _ => false

/-- The bytes that the call records as sent on `k`. -/
def sentOn (k : UInt32) : Call × Reply → Nat
  | (.recordSent id bytes, _) => if id = k then bytes.toNat else 0
  | _ => 0

/-- The bytes that the call records as received on `k`. -/
def receivedOn (k : UInt32) : Call × Reply → Nat
  | (.recordReceived id bytes, _) => if id = k then bytes.toNat else 0
  | _ => 0

/-- The bytes recorded for `k` since the last call that created it. -/
def bytesSince (amount : UInt32 → Call × Reply → Nat) (log : List (Call × Reply)) (k : UInt32) :
    Nat :=
  ((log.rtakeWhile fun e => !creates k e).map (amount k)).sum

/-- A new stream starts at zero. -/
theorem bytesSince_of_creates {amount : UInt32 → Call × Reply → Nat} {log : List (Call × Reply)}
    {e : Call × Reply} {k : UInt32} (h : creates k e = true) :
    bytesSince amount (log ++ [e]) k = 0 := by
  rw [bytesSince, List.rtakeWhile_concat_neg _ _ _ (by simp [h])]
  rfl

/-- Any other call adds what it records. -/
theorem bytesSince_of_not_creates {amount : UInt32 → Call × Reply → Nat}
    {log : List (Call × Reply)} {e : Call × Reply} {k : UInt32} (h : creates k e = false) :
    bytesSince amount (log ++ [e]) k = bytesSince amount log k + amount k e := by
  rw [bytesSince, List.rtakeWhile_concat_pos _ _ _ (by simp [h]), List.map_append, List.sum_append]
  simp [bytesSince]

/-! ## What a call can do -/

/-- The call has returned an error. -/
def Refused : Reply → Prop
  | .opened (.error _) | .registered (.error _) => True
  | _ => False

/-- What a call can do: fail and change nothing, create a stream below the limit, take one
    out, or record bytes. -/
inductive Called (m : Multiplexer) : Call → Reply → Multiplexer → Prop
  | refusesOpen (target : Option TargetAddr) (isUdp : Bool) (e : MuxError) :
    Called m (.openStream target isUdp) (.opened (.error e)) m
  | refusesRegister (id : UInt32) (target : Option TargetAddr) (isUdp : Bool) (e : MuxError) :
    Called m (.registerRemoteStream id target isUdp) (.registered (.error e)) m
  | opens (target : Option TargetAddr) (isUdp : Bool)
    (hroom : m.streamCount < m.maxStreams.toNat) :
    Called m (.openStream target isUdp) (.opened (.ok m.nextStreamId))
      { m with
        nextStreamId := m.nextStreamId + 2
        streams := m.streams.insert m.nextStreamId (.new m.nextStreamId target isUdp) }
  | registers (id : UInt32) (target : Option TargetAddr) (isUdp : Bool)
    (hroom : m.streamCount < m.maxStreams.toNat) :
    Called m (.registerRemoteStream id target isUdp) (.registered (.ok ()))
      { m with streams := m.streams.insert id (.new id target isUdp) }
  | closes (id : UInt32) : Called m (.closeStream id) .done (m.closeStream id)
  | sends (id : UInt32) (bytes : UInt64) :
    Called m (.recordSent id bytes) .done (m.recordSent id bytes)
  | receives (id : UInt32) (bytes : UInt64) :
    Called m (.recordReceived id bytes) .done (m.recordReceived id bytes)

/-- Every call does one of these, and has one reply. -/
theorem called_of_call {m m' : Multiplexer} {c : Call} {o : List Reply}
    (h : call m c = some (m', o)) : ∃ reply, o = [reply] ∧ Called m c reply m' := by
  cases c with
  | openStream target isUdp =>
    simp only [call, Multiplexer.openStream] at h
    split at h
    · cases h
      exact ⟨_, rfl, .refusesOpen ..⟩
    · rename_i hroom
      cases h
      exact ⟨_, rfl, .opens target isUdp (Nat.lt_of_not_le hroom)⟩
  | registerRemoteStream id target isUdp =>
    simp only [call, Multiplexer.registerRemoteStream] at h
    split at h
    · cases h
      exact ⟨_, rfl, .refusesRegister ..⟩
    · -- the limit is checked first, then whether the id is in use
      rename_i hroom
      split at h
      · cases h
        exact ⟨_, rfl, .refusesRegister ..⟩
      · cases h
        exact ⟨_, rfl, .registers id target isUdp (Nat.lt_of_not_le hroom)⟩
  | closeStream id =>
    cases h
    exact ⟨_, rfl, .closes id⟩
  | recordSent id bytes =>
    cases h
    exact ⟨_, rfl, .sends id bytes⟩
  | recordReceived id bytes =>
    cases h
    exact ⟨_, rfl, .receives id bytes⟩

/-- A call that returns an error changes nothing. -/
theorem eq_of_refused {m m' : Multiplexer} {c : Call} {reply : Reply}
    (h : Called m c reply m') (hrefused : Refused reply) : m' = m := by
  cases h with
  | refusesOpen | refusesRegister => rfl
  | opens | registers | closes | sends | receives => cases hrefused

/-! ## One id -/

/-- Recording changes one stream, if it is there. -/
theorem lookup_modify (m : Multiplexer) (id : UInt32) (f : MuxStream → MuxStream) (k : UInt32) :
    (m.modify id f).streams.lookup k =
      if k = id then (m.streams.lookup k).map f else m.streams.lookup k := by
  unfold Multiplexer.modify
  split
  · -- there is no such stream, and nothing is changed
    rename_i hnone
    split
    · rename_i heq
      rw [heq, hnone]
      rfl
    · rfl
  · rename_i stream hsome
    split
    · rename_i heq
      rw [heq, Finmap.lookup_insert, hsome]
      rfl
    · rename_i hne
      exact Finmap.lookup_insert_of_ne _ hne

/-- Closing takes one stream out. -/
theorem lookup_closeStream (m : Multiplexer) (id k : UInt32) :
    (m.closeStream id).streams.lookup k = if k = id then none else m.streams.lookup k := by
  rw [Multiplexer.closeStream]
  split
  · rename_i heq
    rw [heq, Finmap.lookup_erase]
  · rename_i hne
    rw [Finmap.lookup_erase_ne hne, lookup_modify, if_neg hne]

/-- Creating replaces one stream. -/
theorem lookup_insert (m : Multiplexer) (id k : UInt32) (stream : MuxStream) :
    (m.streams.insert id stream).lookup k = if k = id then some stream else m.streams.lookup k := by
  split
  · rename_i heq
    rw [heq, Finmap.lookup_insert]
  · rename_i hne
    exact Finmap.lookup_insert_of_ne _ hne

/-- The stream with more bytes recorded. -/
def recorded (sent received : Nat) (stream : MuxStream) : MuxStream :=
  { stream with
    bytesSent := stream.bytesSent + UInt64.ofNat sent
    bytesReceived := stream.bytesReceived + UInt64.ofNat received }

/-- What `record_sent` does to a stream. -/
theorem recorded_sent (bytes : UInt64) :
    (fun stream : MuxStream => { stream with bytesSent := stream.bytesSent + bytes }) =
      recorded bytes.toNat 0 := by
  funext stream
  simp [recorded]

/-- What `record_received` does to a stream. -/
theorem recorded_received (bytes : UInt64) :
    (fun stream : MuxStream => { stream with bytesReceived := stream.bytesReceived + bytes }) =
      recorded 0 bytes.toNat := by
  funext stream
  simp [recorded]

/-- Recording nothing changes nothing. -/
theorem map_recorded_zero (stream : Option MuxStream) : stream.map (recorded 0 0) = stream := by
  have h : recorded 0 0 = id := by
    funext stream
    simp [recorded]
  rw [h, Option.map_id_fun]
  rfl

/-- Recording bytes on one id, seen from any id. -/
theorem lookup_modify_recorded (m : Multiplexer) (id k : UInt32) {f : MuxStream → MuxStream}
    {sent received : Nat} (hf : f = recorded sent received) :
    (m.modify id f).streams.lookup k = (m.streams.lookup k).map
      (recorded (if id = k then sent else 0) (if id = k then received else 0)) := by
  rw [lookup_modify, hf]
  by_cases heq : k = id
  · rw [if_pos heq, if_pos heq.symm, if_pos heq.symm]
  · rw [if_neg heq, if_neg (Ne.symm heq), if_neg (Ne.symm heq), map_recorded_zero]

/-- **What a call does to one id**: it creates the stream, or takes it out, or records what
    the log says. -/
theorem lookup_called {m m' : Multiplexer} {c : Call} {reply : Reply} (h : Called m c reply m')
    (k : UInt32) :
    (creates k (c, reply) = true ∧
      ∃ target isUdp, m'.streams.lookup k = some (.new k target isUdp)) ∨
    (creates k (c, reply) = false ∧ (m'.streams.lookup k = none ∨ m'.streams.lookup k =
      (m.streams.lookup k).map (recorded (sentOn k (c, reply)) (receivedOn k (c, reply))))) := by
  cases h with
  | refusesOpen | refusesRegister => exact .inr ⟨rfl, .inr (map_recorded_zero _).symm⟩
  | opens target isUdp | registers _ target isUdp =>
    -- the two differ only in where the id comes from
    dsimp only
    rw [lookup_insert]
    split
    · rename_i heq
      exact .inl ⟨decide_eq_true heq.symm, target, isUdp, by rw [heq]⟩
    · rename_i hne
      exact .inr ⟨decide_eq_false (Ne.symm hne), .inr (map_recorded_zero _).symm⟩
  -- the entry is gone, if it was this one
  | closes id =>
    refine .inr ⟨rfl, ?_⟩
    rw [lookup_closeStream]
    split
    · exact .inl rfl
    · exact .inr (map_recorded_zero _).symm
  | sends id bytes =>
    refine .inr ⟨rfl, .inr ?_⟩
    rw [Multiplexer.recordSent, lookup_modify_recorded m id k (recorded_sent bytes)]
    simp only [sentOn, receivedOn, ite_self]
  | receives id bytes =>
    refine .inr ⟨rfl, .inr ?_⟩
    rw [Multiplexer.recordReceived, lookup_modify_recorded m id k (recorded_received bytes)]
    simp only [sentOn, receivedOn, ite_self]

/-! ## The size of the table -/

/-- A smaller table has no more streams. -/
theorem streamCount_le {m m' : Multiplexer} (h : ∀ k ∈ m'.streams, k ∈ m.streams) :
    m'.streamCount ≤ m.streamCount := by
  apply Finset.card_le_card
  intro k hk
  exact Finmap.mem_keys.2 (h k (Finmap.mem_keys.1 hk))

/-- One stream is created at a time. -/
theorem streamCount_insert_le {m m' : Multiplexer} {id : UInt32} {stream : MuxStream}
    (h : m'.streams = m.streams.insert id stream) : m'.streamCount ≤ m.streamCount + 1 := by
  have hsub : m'.streams.keys ⊆ insert id m.streams.keys := by
    intro k hk
    rw [Finmap.mem_keys, h, Finmap.mem_insert] at hk
    rw [Finset.mem_insert, Finmap.mem_keys]
    exact hk
  exact (Finset.card_le_card hsub).trans (Finset.card_insert_le id _)

/-- The table grows only below the limit. -/
theorem streamCount_called {m m' : Multiplexer} {c : Call} {reply : Reply}
    (h : Called m c reply m') (hle : m.streamCount ≤ m.maxStreams.toNat) :
    m'.streamCount ≤ m.maxStreams.toNat := by
  cases h with
  | refusesOpen | refusesRegister => exact hle
  | opens _ _ hroom | registers _ _ _ hroom => exact (streamCount_insert_le rfl).trans hroom
  | closes id => exact (streamCount_le fun k hk => (((closeStream_spec m id).2 k).1 hk).2).trans hle
  | sends id | receives id =>
    exact (streamCount_le fun k hk => ((modify_spec m id _).2 k).1 hk).trans hle

/-- Recording leaves the limit alone. -/
theorem maxStreams_modify (m : Multiplexer) (id : UInt32) (f : MuxStream → MuxStream) :
    (m.modify id f).maxStreams = m.maxStreams := by
  unfold Multiplexer.modify
  split <;> rfl

/-- The limit stays as it is, and the counter moves on with every id that is issued. -/
theorem counters_called {m m' : Multiplexer} {c : Call} {reply : Reply}
    (h : Called m c reply m') :
    m'.maxStreams = m.maxStreams ∧
      m'.nextStreamId = if (issuedId reply).isSome then m.nextStreamId + 2 else m.nextStreamId := by
  cases h with
  | refusesOpen | refusesRegister | opens | registers => exact ⟨rfl, rfl⟩
  | closes id => exact ⟨maxStreams_modify m id _, (closeStream_spec m id).1⟩
  | sends id | receives id => exact ⟨maxStreams_modify m id _, (modify_spec m id _).1⟩

/-! ## Sequences of calls -/

/-- How many streams have been opened. -/
def opens (log : List (Call × Reply)) : Nat := (log.filterMap fun e => issuedId e.2).length

/-- How many streams have been opened after one more call. -/
theorem opens_concat (log : List (Call × Reply)) (e : Call × Reply) :
    opens (log ++ [e]) = opens log + if (issuedId e.2).isSome then 1 else 0 := by
  unfold opens
  cases hid : issuedId e.2 with
  | none => simp [hid]
  | some id => simp [hid]

/-- The table is in step with the log. -/
structure Tallied (first : UInt32) (m : Multiplexer) (log : List (Call × Reply)) : Prop where
  limit : m.maxStreams = maxStreams
  count : m.streamCount ≤ m.maxStreams.toNat
  next : m.nextStreamId = nthId first (opens log)
  id_eq : ∀ k stream, m.streams.lookup k = some stream → stream.id = k
  bytes : ∀ k stream, m.streams.lookup k = some stream →
    stream.bytesSent = UInt64.ofNat (bytesSince sentOn log k) ∧
      stream.bytesReceived = UInt64.ofNat (bytesSince receivedOn log k)

/-- At the start the table and the log are empty. -/
theorem tallied_new (first : UInt32) :
    Tallied first { streams := ∅, nextStreamId := first, maxStreams := maxStreams } [] where
  limit := rfl
  count := Nat.zero_le _
  next := (nthId_zero first).symm
  id_eq k stream h := by simp at h
  bytes k stream h := by simp at h

/-- **What one call preserves.** -/
theorem tallied_call {first : UInt32} {m m' : Multiplexer} {log : List (Call × Reply)} {c : Call}
    {o : List Reply} (h : Tallied first m log) (hcall : call m c = some (m', o)) :
    Tallied first m' (log ++ o.map (c, ·)) := by
  obtain ⟨reply, rfl, hcalled⟩ := called_of_call hcall
  obtain ⟨hmax, hnext⟩ := counters_called hcalled
  show Tallied first m' (log ++ [(c, reply)])
  constructor
  · rw [hmax, h.limit]
  · rw [hmax]
    exact streamCount_called hcalled h.count
  · rw [hnext, h.next, opens_concat, nthId_succ]
    split <;> rfl
  · intro k stream hk
    obtain ⟨-, target, isUdp, hnew⟩ | ⟨-, hnone | hsame⟩ := lookup_called hcalled k
    · cases hnew.symm.trans hk
      rfl
    · cases hnone.symm.trans hk
    · obtain ⟨old, hold, rfl⟩ := Option.map_eq_some_iff.1 (hsame.symm.trans hk)
      exact h.id_eq k old hold
  · intro k stream hk
    obtain ⟨hcreates, target, isUdp, hnew⟩ | ⟨hcreates, hnone | hsame⟩ := lookup_called hcalled k
    · -- a new stream has nothing recorded, whatever the id had before
      cases hnew.symm.trans hk
      rw [bytesSince_of_creates hcreates, bytesSince_of_creates hcreates]
      exact ⟨rfl, rfl⟩
    · cases hnone.symm.trans hk
    · obtain ⟨old, hold, rfl⟩ := Option.map_eq_some_iff.1 (hsame.symm.trans hk)
      obtain ⟨hsent, hreceived⟩ := h.bytes k old hold
      rw [bytesSince_of_not_creates hcreates, bytesSince_of_not_creates hcreates, UInt64.ofNat_add,
        UInt64.ofNat_add, ← hsent, ← hreceived]
      exact ⟨rfl, rfl⟩

/-- After any sequence of calls. -/
theorem tallied_run {start m : Multiplexer} {calls : List Call} {replies : List Reply}
    (hstart : start = .newServer ∨ start = .newClient)
    (hrun : run call start calls = some (m, replies)) :
    Tallied start.nextStreamId m (calls.zip replies) := by
  have hnew : Tallied start.nextStreamId start [] := by
    obtain rfl | rfl := hstart
    · exact tallied_new 2
    · exact tallied_new 1
  have hone (s : Multiplexer) (c : Call) (t : Multiplexer) (o : List Reply)
      (h : call s c = some (t, o)) : ∃ reply, o = [reply] := by
    obtain ⟨reply, ho, -⟩ := called_of_call h
    exact ⟨reply, ho⟩
  have hstep (s : Multiplexer) (past : List (Call × Reply)) (c : Call) (t : Multiplexer)
      (log : List (Call × Reply)) (hs : Tallied start.nextStreamId s past) (_ : True)
      (h : observed call (fun _ c o => o.map (c, ·)) s c = some (t, log)) :
      Tallied start.nextStreamId t (past ++ log) := by
    obtain ⟨o, hcall, rfl⟩ := observed_eq_some.1 h
    exact tallied_call hs hcall
  -- a call has one reply, so the log is the calls beside their replies
  exact run_history hstep hnew (fun _ _ => trivial) (run_observed_zip hone hrun)

/-! ## Totals -/

/-- The loop over the streams adds up, in `u64`. -/
theorem totalBytes_eq (m : Multiplexer) :
    m.totalBytes =
      (UInt64.ofNat (∑ k ∈ m.streams.keys, (m.streams.lookup k).elim 0 (·.bytesSent.toNat)),
        UInt64.ofNat
          (∑ k ∈ m.streams.keys, (m.streams.lookup k).elim 0 (·.bytesReceived.toNat))) := by
  have hsum := m.streams.foldl_eq_sum Multiplexer.addBytes_comm
    (fun total : Nat × Nat => (UInt64.ofNat total.1, UInt64.ofNat total.2))
    (fun stream => (stream.bytesSent.toNat, stream.bytesReceived.toNat))
    (fun total stream => by simp [Multiplexer.addBytes])
  have hfst (x : Option MuxStream) :
      (x.elim (0 : Nat × Nat) fun stream =>
        (stream.bytesSent.toNat, stream.bytesReceived.toNat)) =
      (x.elim 0 (·.bytesSent.toNat), x.elim 0 (·.bytesReceived.toNat)) := by
    cases x <;> rfl
  simp only [hfst, Prod.fst_sum, Prod.snd_sum] at hsum
  exact hsum

/-- A total of recorded bytes that fits is the sum of what the table holds. -/
theorem sum_eq_of_tallied {m : Multiplexer} {count : MuxStream → UInt64} {amount : UInt32 → Nat}
    (h : ∀ k stream, m.streams.lookup k = some stream → count stream = UInt64.ofNat (amount k))
    (hlt : ∑ k ∈ m.streams.keys, amount k < 2 ^ 64) :
    ∑ k ∈ m.streams.keys, (m.streams.lookup k).elim 0 (fun stream => (count stream).toNat) =
      ∑ k ∈ m.streams.keys, amount k := by
  apply Finset.sum_congr rfl
  intro k hk
  obtain ⟨stream, hstream⟩ := Finmap.mem_iff.1 (Finmap.mem_keys.1 hk)
  -- a count is at most the total, so it has not wrapped around
  have hle : amount k < 2 ^ 64 :=
    (Finset.single_le_sum (fun _ _ => Nat.zero_le _) hk).trans_lt hlt
  rw [hstream, Option.elim_some, h k stream hstream, UInt64.toNat_ofNat_of_lt' hle]

/-! ## The bounded map -/

/-- Nothing but the stream `id` is different, and nothing at all if there is none. -/
structure ChangesOnly (id : UInt32) (m m' : Multiplexer) : Prop where
  others : ∀ k ≠ id, m'.streams.lookup k = m.streams.lookup k
  absent : id ∉ m.streams → m' = m
  next : m'.nextStreamId = m.nextStreamId

/-- Recording touches one stream only. -/
theorem changesOnly_modify (m : Multiplexer) (id : UInt32) (f : MuxStream → MuxStream) :
    ChangesOnly id m (m.modify id f) where
  others k hne := by rw [lookup_modify, if_neg hne]
  absent h := by rw [Multiplexer.modify, Finmap.lookup_eq_none.2 h]
  next := (modify_spec m id f).1

/-- **A multiplexer is a bounded map** after any sequence of calls in which fewer than
    2^31 - 1 streams were opened: it has no more than 256 entries, each under its own id; a
    call that fails changes nothing; recording bytes touches the named entry at most; and
    the totals are those of the bytes recorded for each entry since it was created, as long
    as they fit. The id counter has not wrapped around. -/
theorem refines_bounded_map (start : Multiplexer)
    (hstart : start = Multiplexer.newServer ∨ start = Multiplexer.newClient)
    (calls : List Call) (m : Multiplexer) (replies : List Reply)
    (hrun : run call start calls = some (m, replies))
    (hopens : opens (calls.zip replies) < 2 ^ 31 - 1)
    (hsent : ∑ k ∈ m.streams.keys, bytesSince sentOn (calls.zip replies) k < 2 ^ 64)
    (hreceived : ∑ k ∈ m.streams.keys, bytesSince receivedOn (calls.zip replies) k < 2 ^ 64) :
    m.streamCount ≤ maxStreams.toNat ∧
      (∀ k stream, m.streams.lookup k = some stream → stream.id = k) ∧
      (∀ c m' reply, call m c = some (m', [reply]) → Refused reply →
        m'.streams = m.streams ∧ m'.nextStreamId = m.nextStreamId) ∧
      (∀ id bytes, ChangesOnly id m (m.recordSent id bytes) ∧
        ChangesOnly id m (m.recordReceived id bytes)) ∧
      m.nextStreamId.toNat = start.nextStreamId.toNat + 2 * opens (calls.zip replies) ∧
      m.totalBytes.1.toNat = ∑ k ∈ m.streams.keys, bytesSince sentOn (calls.zip replies) k ∧
      m.totalBytes.2.toNat =
        ∑ k ∈ m.streams.keys, bytesSince receivedOn (calls.zip replies) k := by
  have h := tallied_run hstart hrun
  have hcount := h.count
  rw [h.limit] at hcount
  -- the first id is 1 or 2, so 2^31 - 1 of them stay below 2^32
  have hfirst : start.nextStreamId.toNat ≤ 2 := by
    obtain rfl | rfl := hstart <;> decide
  refine ⟨hcount, h.id_eq, ?_, ?_, ?_, ?_, ?_⟩
  · intro c m' reply hcall hrefused
    obtain ⟨_, hreply, hcalled⟩ := called_of_call hcall
    cases hreply
    rw [eq_of_refused hcalled hrefused]
    exact ⟨rfl, rfl⟩
  · exact fun id bytes => ⟨changesOnly_modify m id _, changesOnly_modify m id _⟩
  · rw [h.next, nthId, UInt32.toNat_ofNat_of_lt' (by show _ < 2 ^ 32; omega)]
  · rw [totalBytes_eq, sum_eq_of_tallied (fun k stream hk => (h.bytes k stream hk).1) hsent]
    exact UInt64.toNat_ofNat_of_lt' hsent
  · rw [totalBytes_eq, sum_eq_of_tallied (fun k stream hk => (h.bytes k stream hk).2) hreceived]
    exact UInt64.toNat_ofNat_of_lt' hreceived

/-- A server whose peer uses an id twice: what was recorded for the first stream does not
    count for the second. -/
theorem refines_bounded_map_reused :
    ∃ m replies,
      run call Multiplexer.newServer
        [.registerRemoteStream 1 none false, .recordSent 1 100, .closeStream 1,
          .registerRemoteStream 1 none true, .recordSent 1 7, .openStream none false,
          .recordReceived 2 5, .recordReceived 4 9] = some (m, replies) ∧
      m.totalBytes.1.toNat = 7 ∧ m.totalBytes.2.toNat = 5 := by
  refine ⟨_, _, rfl, ?_⟩
  have h := refines_bounded_map Multiplexer.newServer (.inl rfl)
    [.registerRemoteStream 1 none false, .recordSent 1 100, .closeStream 1,
      .registerRemoteStream 1 none true, .recordSent 1 7, .openStream none false,
      .recordReceived 2 5, .recordReceived 4 9] _ _ rfl (by decide) (by decide) (by decide)
  exact ⟨h.2.2.2.2.2.1.trans (by decide), h.2.2.2.2.2.2.trans (by decide)⟩

end Fogged.Spec.Mux
