import Mathlib.Data.Finmap
import Fogged.ForStd.Saturating
import Fogged.ForStd.VecDeque

/-!
# TLS sessions that can be resumed (`limited_cache.rs`, `client/handy.rs`, `msgs/persist.rs`)

A client keeps what it needs to resume a session, for each server name, in a map of limited
size. The map is stored as a hash map and, next to it, its keys in the order in which they
came. All calls take one lock, so threads can only interleave between calls.

Times are in seconds since the epoch. Secrets, certificates and names are their bytes;
cipher suites and groups are their numbers.
-/

namespace Fogged.Native.Sessions

/-! ## Maps of limited size (`limited_cache.rs`) -/

section LimitedCache

variable {K V : Type} [DecidableEq K]

structure LimitedCache (K V : Type) [DecidableEq K] where
  map : Finmap fun _ : K => V
  /-- The keys, oldest first. -/
  oldest : VecDeque K
  nodup : oldest.items.Nodup
  mem_iff : ∀ k, k ∈ oldest.items ↔ k ∈ map

namespace LimitedCache

def new (alloc : Allocator) (capacityOrderOfMagnitude : Nat) : LimitedCache K V where
  map := ∅
  oldest := .withCapacity alloc capacityOrderOfMagnitude
  nodup := List.nodup_nil
  mem_iff _ := iff_of_false List.not_mem_nil Finmap.notMem_empty

/-- `Entry::Vacant`. -/
def insertVacant (alloc : Allocator) (c : LimitedCache K V) (k : K) (v : V) (h : k ∉ c.map) :
    LimitedCache K V where
  map := c.map.insert k v
  oldest := c.oldest.pushBack alloc k
  nodup := by
    rw [VecDeque.items_pushBack, List.nodup_append]
    refine ⟨c.nodup, List.nodup_singleton k, ?_⟩
    intro a ha b hb heq
    rw [List.mem_singleton.1 hb] at heq
    exact h ((c.mem_iff k).1 (heq ▸ ha))
  mem_iff a := by
    rw [VecDeque.items_pushBack, List.mem_append, List.mem_singleton, Finmap.mem_insert, c.mem_iff]
    exact or_comm

/-- `Entry::Occupied`. -/
def replaceOccupied (c : LimitedCache K V) (k : K) (v : V) (h : k ∈ c.map) : LimitedCache K V where
  map := c.map.insert k v
  oldest := c.oldest
  nodup := c.nodup
  mem_iff a := by
    rw [c.mem_iff, Finmap.mem_insert]
    constructor
    · exact Or.inr
    · rintro (rfl | ha)
      · exact h
      · exact ha

/-- The oldest key is removed. -/
def removeOldest (c : LimitedCache K V) : LimitedCache K V where
  map := c.oldest.items.head?.elim c.map fun k => c.map.erase k
  oldest := c.oldest.dropFront
  nodup := c.nodup.tail
  mem_iff a := by
    have hmem := c.mem_iff a
    have hnodup := c.nodup
    show a ∈ c.oldest.items.tail ↔ _
    cases hitems : c.oldest.items with
    | nil =>
      rw [hitems] at hmem
      exact hmem
    | cons k rest =>
      rw [hitems] at hmem hnodup
      rw [List.head?_cons, Option.elim_some, Finmap.mem_erase, ← hmem, List.tail_cons,
        List.mem_cons]
      constructor
      · intro ha
        refine ⟨?_, .inr ha⟩
        rintro rfl
        exact (List.nodup_cons.1 hnodup).1 ha
      · rintro ⟨hne, rfl | ha⟩
        · exact absurd rfl hne
        · exact ha

/-- The end of `get_or_insert_default_and_edit` and `insert`, behind a new item. -/
def evict (c : LimitedCache K V) : LimitedCache K V :=
  if c.oldest.isFull then c.removeOldest else c

def getOrInsertDefaultAndEdit (alloc : Allocator) (default : V) (c : LimitedCache K V) (k : K)
    (edit : V → V) : LimitedCache K V :=
  if h : k ∈ c.map then c.replaceOccupied k (edit ((c.map.lookup k).getD default)) h
  else (c.insertVacant alloc k (edit default) h).evict

def get (c : LimitedCache K V) (k : K) : Option V := c.map.lookup k

/-- `get_mut`, and a change of what it finds. -/
def getMut (c : LimitedCache K V) (k : K) (edit : V → V) : LimitedCache K V :=
  if h : k ∈ c.map then
    match c.map.lookup k with
    | some v => c.replaceOccupied k (edit v) h
    | none => c
  else c

end LimitedCache

end LimitedCache

/-! ## Sessions (`msgs/persist.rs`) -/

/-- `MAX_TICKET_LIFETIME`. -/
def maxTicketLifetime : UInt32 := 7 * 24 * 60 * 60

/-- `MAX_FRESHNESS_SKEW_MS`. -/
def maxFreshnessSkewMs : UInt32 := 60 * 1000

structure ClientSessionCommon where
  ticket : List UInt8
  secret : List UInt8
  epoch : UInt64
  lifetimeSecs : UInt32
  serverCertChain : List (List UInt8)
  lifetime_le : lifetimeSecs ≤ maxTicketLifetime
  deriving DecidableEq

def ClientSessionCommon.new (ticket secret : List UInt8) (timeNow : UInt64) (lifetimeSecs : UInt32)
    (serverCertChain : List (List UInt8)) : ClientSessionCommon where
  ticket := ticket
  secret := secret
  epoch := timeNow
  lifetimeSecs := if lifetimeSecs ≤ maxTicketLifetime then lifetimeSecs else maxTicketLifetime
  serverCertChain := serverCertChain
  lifetime_le := by
    split
    · assumption
    · exact UInt32.le_refl _

structure Tls13ClientSessionValue where
  suite : UInt16
  ageAdd : UInt32
  maxEarlyDataSize : UInt32
  common : ClientSessionCommon
  quicParams : List UInt8
  deriving DecidableEq

def Tls13ClientSessionValue.new (suite : UInt16) (ticket secret : List UInt8)
    (serverCertChain : List (List UInt8)) (timeNow : UInt64)
    (lifetimeSecs ageAdd maxEarlyDataSize : UInt32) : Tls13ClientSessionValue where
  suite := suite
  ageAdd := ageAdd
  maxEarlyDataSize := maxEarlyDataSize
  common := .new ticket secret timeNow lifetimeSecs serverCertChain
  quicParams := []

structure Tls12ClientSessionValue where
  suite : UInt16
  sessionId : List UInt8
  extendedMs : Bool
  common : ClientSessionCommon
  deriving DecidableEq

inductive ClientSessionValue where
  | tls13 (value : Tls13ClientSessionValue)
  | tls12 (value : Tls12ClientSessionValue)
  deriving DecidableEq

def ClientSessionValue.common : ClientSessionValue → ClientSessionCommon
  | .tls13 value => value.common
  | .tls12 value => value.common

structure Retrieved (α : Type) where
  value : α
  retrievedAt : UInt64
  deriving DecidableEq

/-- A lifetime of zero never ends. -/
def Retrieved.hasExpired (r : Retrieved ClientSessionValue) : Bool :=
  r.value.common.lifetimeSecs ≠ 0 ∧
    r.value.common.epoch.saturatingAdd r.value.common.lifetimeSecs.toUInt64 < r.retrievedAt

/-- `obfuscated_ticket_age`, without overflow checks. -/
def Retrieved.obfuscatedTicketAge (r : Retrieved Tls13ClientSessionValue) : UInt32 :=
  let ageSecs := r.retrievedAt.saturatingSub r.value.common.epoch
  let ageMillis := ageSecs.toUInt32 * 1000
  ageMillis + r.value.ageAdd

/-- What a server reads again from a ticket, of what `set_freshness` needs. -/
structure ServerSessionValue where
  creationTimeSec : UInt64
  ageObfuscationOffset : UInt32
  freshness : Option Bool
  deriving DecidableEq

def ServerSessionValue.setFreshness (s : ServerSessionValue) (obfuscatedClientAgeMs : UInt32)
    (timeNow : UInt64) : ServerSessionValue :=
  let clientAgeMs := obfuscatedClientAgeMs - s.ageObfuscationOffset
  let serverAgeMs := (timeNow.saturatingSub s.creationTimeSec).toUInt32.saturatingMul 1000
  let ageDifference :=
    if clientAgeMs < serverAgeMs then serverAgeMs - clientAgeMs else clientAgeMs - serverAgeMs
  { s with freshness := some (ageDifference ≤ maxFreshnessSkewMs) }

def ServerSessionValue.isFresh (s : ServerSessionValue) : Bool := s.freshness.getD false

/-! ## Sessions in memory (`client/handy.rs`) -/

/-- `MAX_TLS13_TICKETS_PER_SERVER`. -/
def maxTls13TicketsPerServer : Nat := 8

structure ServerData where
  kxHint : Option UInt16
  tls12 : Option Tls12ClientSessionValue
  /-- Oldest first. -/
  tls13 : VecDeque Tls13ClientSessionValue

def ServerData.default (alloc : Allocator) : ServerData where
  kxHint := none
  tls12 := none
  tls13 := .withCapacity alloc maxTls13TicketsPerServer

/-- `ClientSessionMemoryCache`. -/
abbrev ClientSessionMemoryCache (K : Type) [DecidableEq K] : Type := LimitedCache K ServerData

namespace ClientSessionMemoryCache

variable {K : Type} [DecidableEq K]

/-- `size` sessions, as servers with a full set of tickets each. -/
def maxServers (size : Nat) : Nat :=
  min (size + (maxTls13TicketsPerServer - 1)) (2 ^ 64 - 1) / maxTls13TicketsPerServer

def new (alloc : Allocator) (size : Nat) : ClientSessionMemoryCache K :=
  LimitedCache.new alloc (maxServers size)

def setKxHint (alloc : Allocator) (c : ClientSessionMemoryCache K) (serverName : K)
    (group : UInt16) : ClientSessionMemoryCache K :=
  c.getOrInsertDefaultAndEdit alloc (.default alloc) serverName fun data =>
    { data with kxHint := some group }

def kxHint (c : ClientSessionMemoryCache K) (serverName : K) : Option UInt16 :=
  (c.get serverName).bind (·.kxHint)

def setTls12Session (alloc : Allocator) (c : ClientSessionMemoryCache K) (serverName : K)
    (value : Tls12ClientSessionValue) : ClientSessionMemoryCache K :=
  c.getOrInsertDefaultAndEdit alloc (.default alloc) serverName fun data =>
    { data with tls12 := some value }

def tls12Session (c : ClientSessionMemoryCache K) (serverName : K) :
    Option Tls12ClientSessionValue :=
  (c.get serverName).bind (·.tls12)

def removeTls12Session (c : ClientSessionMemoryCache K) (serverName : K) :
    ClientSessionMemoryCache K :=
  c.getMut serverName fun data => { data with tls12 := none }

def insertTls13Ticket (alloc : Allocator) (c : ClientSessionMemoryCache K) (serverName : K)
    (value : Tls13ClientSessionValue) : ClientSessionMemoryCache K :=
  c.getOrInsertDefaultAndEdit alloc (.default alloc) serverName fun data =>
    { data with tls13 := data.tls13.pushBackLimited alloc value }

def takeTls13Ticket (c : ClientSessionMemoryCache K) (serverName : K) :
    Option Tls13ClientSessionValue × ClientSessionMemoryCache K :=
  ((c.get serverName).bind (·.tls13.items.getLast?),
    c.getMut serverName fun data => { data with tls13 := data.tls13.dropBack })

end ClientSessionMemoryCache

/-- `Resumption::in_memory_sessions`. -/
def inMemorySessions {K : Type} [DecidableEq K] (alloc : Allocator) (num : Nat) :
    ClientSessionMemoryCache K :=
  ClientSessionMemoryCache.new alloc num

/-- The rest of `find_session` (`client/hs.rs`), behind its calls of the store. -/
def retrieve (now : UInt64) (ticket : Option Tls13ClientSessionValue)
    (session : Option Tls12ClientSessionValue) : Option (Retrieved ClientSessionValue) :=
  ((ticket.map ClientSessionValue.tls13).or (session.map ClientSessionValue.tls12)).bind
    fun resuming =>
      let retrieved : Retrieved ClientSessionValue := ⟨resuming, now⟩
      if retrieved.hasExpired then none else some retrieved

/-! ## Calls -/

inductive Event (K : Type) where
  | setKxHint (serverName : K) (group : UInt16)
  | kxHint (serverName : K)
  | setTls12Session (serverName : K) (value : Tls12ClientSessionValue)
  | tls12Session (serverName : K)
  | removeTls12Session (serverName : K)
  | insertTls13Ticket (serverName : K) (value : Tls13ClientSessionValue)
  | takeTls13Ticket (serverName : K)
  deriving DecidableEq

inductive Effect (K : Type) where
  /-- There was no entry for a server, and one has been made. -/
  | added (serverName : K)
  | hint (serverName : K) (group : Option UInt16)
  | session (serverName : K) (value : Option Tls12ClientSessionValue)
  | inserted (serverName : K) (value : Tls13ClientSessionValue)
  | took (serverName : K) (value : Option Tls13ClientSessionValue)
  deriving DecidableEq

section Step

variable {K : Type} [DecidableEq K]

def additions (c : ClientSessionMemoryCache K) (serverName : K) : List (Effect K) :=
  if serverName ∈ c.map then [] else [.added serverName]

open ClientSessionMemoryCache in
/-- One call, under the lock. -/
def step (alloc : Allocator) (c : ClientSessionMemoryCache K) :
    Event K → Option (ClientSessionMemoryCache K × List (Effect K))
  | .setKxHint name group => some (setKxHint alloc c name group, additions c name)
  | .kxHint name => some (c, [.hint name (kxHint c name)])
  | .setTls12Session name value => some (setTls12Session alloc c name value, additions c name)
  | .tls12Session name => some (c, [.session name (tls12Session c name)])
  | .removeTls12Session name => some (removeTls12Session c name, [])
  | .insertTls13Ticket name value =>
    some (insertTls13Ticket alloc c name value, additions c name ++ [.inserted name value])
  | .takeTls13Ticket name =>
    some ((takeTls13Ticket c name).2, [.took name (takeTls13Ticket c name).1])

end Step

end Fogged.Native.Sessions
