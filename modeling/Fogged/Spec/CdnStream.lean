import Fogged.Spec.CdnWire

/-!
# The downlink of one CDN stream

What the server sends for a stream, between the client's StreamOpen and the server's
StreamClose, has to reach the client. On its way a payload is in the reader's hands,
in the stream's channel, and in the hands of the downstream task. `View` is all that
concerns one stream, and `Carried` says that nothing gets lost in between and that it
has all been written when that task ends. There is one lemma for each thing that can
happen to a stream.
-/

namespace Fogged.Spec.Cdn

open Fogged.Native Fogged.Native.CdnMode
open Machine

/-! ## What the server has sent -/

/-- A stream from the server's side. -/
inductive Life where
  /-- No StreamOpen yet. -/
  | before
  | opened
  /-- The server has sent StreamClose. -/
  | closed
  deriving DecidableEq

/-- A stream's life, and the payloads that came between StreamOpen and StreamClose. -/
structure Track where
  life : Life
  served : List UInt8
  deriving DecidableEq

def Track.new : Track := { life := .before, served := [] }

/-- How a track goes on. -/
def follow (sid : UInt32) (k : Track) : Effect → Track
  | .sent message =>
    if messageId message = sid ∧ message.head? = some 1 ∧ k.life = .before then
      { k with life := .opened }
    else k
  | .received message =>
    match incoming message with
    | .data id payload =>
      if id = sid ∧ k.life = .opened then { k with served := k.served ++ payload } else k
    | .close id => if id = sid ∧ k.life = .opened then { k with life := .closed } else k
    | .other => k
  | .wrote _ _ => k

def track (sid : UInt32) (out : List Effect) : Track := out.foldl (follow sid) .new

/-- What the server has sent, step by step. -/
theorem track_append (sid : UInt32) (past o : List Effect) :
    track sid (past ++ o) = o.foldl (follow sid) (track sid past) := List.foldl_append

/-- Bytes written to a handler's client. -/
def wroteTo (h : HandlerId) : Effect → Option (List UInt8)
  | .wrote g bytes => if g = h then some bytes else none
  | .sent _ | .received _ => none

def written (h : HandlerId) (out : List Effect) : List UInt8 :=
  (out.filterMap (wroteTo h)).flatten

/-- What the client has got, step by step. -/
theorem written_append (h : HandlerId) (past o : List Effect) :
    written h (past ++ o) = written h past ++ written h o := by
  rw [written, List.filterMap_append, List.flatten_append]
  rfl

/-! ## One stream -/

/-- Where the reader is, seen from one stream. -/
inductive Near where
  | away
  /-- With a payload for the stream, waiting for the table. -/
  | routing (payload : List UInt8)
  /-- In `tx.send`. -/
  | sending (payload : List UInt8)
  /-- With the server's StreamClose. -/
  | closing
  deriving DecidableEq

def near (reader : Reader) (h : HandlerId) (sid : UInt32) : Near :=
  match reader with
  | .routing id payload => if id = sid then .routing payload else .away
  | .sending g payload => if g = h then .sending payload else .away
  | .closing id => if id = sid then .closing else .away
  | .reading | .stopped => .away

/-- All that concerns one stream. -/
structure View where
  st : Stream
  /-- The table has the stream's sender. -/
  held : Bool
  near : Near
  track : Track
  written : List UInt8

def view (s : State) (out : List Effect) (h : HandlerId) (st : Stream) : View where
  st := st
  held := s.holds st.sid h
  near := near s.reader h st.sid
  track := track st.sid out
  written := written h out

/-- StreamOpen has been sent. -/
def opened : Main → Bool
  | .replying | .relaying | .closing | .removing | .returned true => true
  | .registering _ | .opening _ | .returned false => false

/-- The two tasks have been spawned. -/
def spawned : Main → Bool
  | .relaying | .closing | .removing | .returned true => true
  | .registering _ | .opening _ | .replying | .returned false => false

/-- What the downstream task is writing. -/
def inHand : Dn → List UInt8
  | .writing bytes => bytes
  | .idle | .receiving | .ended => []

/-- What the reader has for the stream; a payload for a stream that is not in the
    table any more is none. -/
def inReader (v : View) : List UInt8 :=
  match v.near with
  | .routing payload => if v.held then payload else []
  | .sending payload => payload
  | .away | .closing => []

/-- What is still on its way to the client. -/
def pending (v : View) : List UInt8 := inHand v.st.dn ++ (v.st.chan.queue.flatten ++ inReader v)

/-- Nothing of a stream gets lost. -/
structure Carried (v : View) : Prop where
  conserved : v.track.served = v.written ++ pending v
  started : v.track.life = .before ↔ opened v.st.main = false
  silent : v.track.life = .before → v.track.served = [] ∧ v.near = .away
  frame : ∀ frame, v.st.main = .registering frame ∨ v.st.main = .opening frame →
    messageId frame = v.st.sid ∧ frame.head? = some 1 ∧ v.st.chan.closed = false
  table : ∀ frame, v.st.main = .opening frame → v.held = true
  idle : spawned v.st.main = false ↔ v.st.dn = .idle
  /-- Until the server closes the stream its payloads find the channel. -/
  live : v.track.life = .opened → v.held = true ∧ v.st.chan.closed = false
  gone : v.track.life = .closed → v.near = .closing ∨ v.held = false
  ended : v.st.dn = .ended → v.track.life = .closed ∧ v.held = false ∧ v.st.chan.queue = []
  sending : ∀ payload, v.near = .sending payload → v.track.life = .opened
  closing : v.near = .closing → v.track.life = .closed
  capacity : v.st.chan.capacity = 64

/-- The tasks are spawned after StreamOpen. -/
theorem opened_of_spawned {main : Main} (h : spawned main = true) : opened main = true := by
  cases main with
  | returned ok => cases ok <;> [cases h; rfl]
  | _ => first | rfl | cases h

/-- Between the two, the client is told that it is connected. -/
theorem replying_of_opened {main : Main} (hopened : opened main = true)
    (hspawned : spawned main = false) : main = .replying := by
  cases main with
  | replying => rfl
  | returned ok => cases ok <;> [cases hopened; cases hspawned]
  | relaying | closing | removing => cases hspawned
  | registering frame | opening frame => cases hopened

theorem Carried.spawned_of_dn {v : View} (hv : Carried v) (hdn : v.st.dn ≠ .idle) :
    spawned v.st.main ≠ false := fun h => hdn (hv.idle.1 h)

/-- A stream whose channel still has its sender, while a payload for it is in the
    reader's hands, is one the server has not closed. -/
theorem Carried.life_of_routing {v : View} (hv : Carried v) {payload : List UInt8}
    (hnear : v.near = .routing payload) (hheld : v.held = true) : v.track.life = .opened := by
  cases hlife : v.track.life with
  -- before the stream opens, no frame is on its way to it
  | before =>
    have haway := (hv.silent hlife).2
    rw [hnear] at haway
    cases haway
  | opened => rfl
  | closed =>
    obtain hclosing | hgone := hv.gone hlife
    · rw [hnear] at hclosing
      cases hclosing
    · rw [hheld] at hgone
      cases hgone

/-- Nothing is pending for a new stream. -/
theorem carried_new (sid : UInt32) (host : Handshake.Text) (port : UInt16) :
    Carried ⟨.new sid host port, false, .away, .new, []⟩ where
  conserved := rfl
  started := ⟨fun _ => rfl, fun _ => rfl⟩
  silent _ := ⟨rfl, rfl⟩
  frame frame hframe := by
    -- the StreamOpen is ready to be sent
    obtain hmain | hmain := hframe <;> cases hmain
    exact ⟨messageId_header 1 sid _ _, rfl, rfl⟩
  table frame hmain := by cases hmain
  idle := ⟨fun _ => rfl, fun _ => rfl⟩
  live hlife := by cases hlife
  gone hlife := by cases hlife
  ended hdn := by cases hdn
  sending payload hnear := by cases hnear
  closing hnear := by cases hnear
  capacity := rfl

/-- The handler goes on after StreamOpen, or the upstream task does something. -/
theorem Carried.phase {v : View} (hv : Carried v) (main : Main) (up : Up)
    (hopened : opened main = opened v.st.main) (hspawned : spawned main = spawned v.st.main)
    (hmain : ∀ frame, main = .registering frame ∨ main = .opening frame → main = v.st.main) :
    Carried { v with st := { v.st with main, up } } :=
  -- the log and the channel stay, and only the phase changes
  { hv with
    started := by
      show v.track.life = .before ↔ opened main = false
      rw [hopened]
      exact hv.started
    frame := fun frame hframe => by
      have heq := hmain frame hframe
      exact hv.frame frame (heq ▸ hframe)
    table := fun frame hframe => by
      have heq := hmain frame (.inr hframe)
      exact hv.table frame (heq ▸ hframe)
    idle := hspawned ▸ hv.idle }

/-- StreamOpen is sent. -/
theorem Carried.open {v : View} (hv : Carried v) {frame : List UInt8}
    (hmain : v.st.main = .opening frame) :
    Carried { v with
      st := { v.st with main := .replying }
      track := follow v.st.sid v.track (.sent frame) } := by
  have hbefore : v.track.life = .before := hv.started.2 (by rw [hmain]; rfl)
  obtain ⟨hid, htype, hchan⟩ := hv.frame frame (.inr hmain)
  obtain ⟨hserved, haway⟩ := hv.silent hbefore
  rw [follow, if_pos ⟨hid, htype, hbefore⟩]
  exact { hv with
    started := iff_of_false (show Life.opened ≠ .before by decide) (show true ≠ false by decide)
    silent := fun h => by cases h
    frame := fun frame h => by obtain h | h := h <;> cases h
    table := fun frame h => by cases h
    idle := ⟨fun _ => hv.idle.1 (by rw [hmain]; rfl), fun _ => rfl⟩
    -- the sender has been in the table since before the frame was sent
    live := fun _ => ⟨hv.table frame hmain, hchan⟩
    gone := fun h => by cases h
    ended := fun hdn => by
      rw [hv.idle.1 (by rw [hmain]; rfl)] at hdn
      cases hdn
    sending := fun _ _ => rfl
    closing := fun hnear => by
      rw [haway] at hnear
      cases hnear }

/-- StreamOpen could not be sent. -/
theorem Carried.refuse {v : View} (hv : Carried v) {frame : List UInt8}
    (hmain : v.st.main = .opening frame) :
    Carried { v with st := { v.st with main := .returned false, chan := v.st.chan.close } } := by
  have hbefore : v.track.life = .before := hv.started.2 (by rw [hmain]; rfl)
  have hidle : v.st.dn = .idle := hv.idle.1 (by rw [hmain]; rfl)
  -- the server has not heard of the stream, so there is nothing to lose
  obtain ⟨hserved, haway⟩ := hv.silent hbefore
  have hwritten : v.written = [] := by
    have hnil := hv.conserved
    rw [hserved] at hnil
    exact (List.append_eq_nil_iff.1 hnil.symm).1
  exact { hv with
    conserved := by
      -- served, written, in hand and queued are all empty
      show v.track.served = v.written ++ (inHand v.st.dn ++ ([] ++ inReader _))
      rw [hserved, hwritten, hidle, inReader, haway]
      rfl
    started := ⟨fun _ => rfl, fun _ => hbefore⟩
    frame := fun frame h => by obtain h | h := h <;> cases h
    table := fun frame h => by cases h
    idle := ⟨fun _ => hidle, fun _ => rfl⟩
    live := fun h => by
      rw [hbefore] at h
      cases h
    ended := fun hdn => by
      rw [hidle] at hdn
      cases hdn }

/-- The two tasks are spawned. -/
theorem Carried.spawn {v : View} (hv : Carried v) (hmain : v.st.main = .replying) :
    Carried { v with st := { v.st with main := .relaying, up := .reading, dn := .receiving } } := by
  -- the downstream task starts with an empty hand
  have hidle : v.st.dn = .idle := hv.idle.1 (by rw [hmain]; rfl)
  exact { hv with
    conserved := by
      rw [hv.conserved, pending, hidle]
      rfl
    started := by
      rw [hv.started, hmain]
      rfl
    frame := fun frame h => by obtain h | h := h <;> cases h
    table := fun frame h => by cases h
    idle := iff_of_false (show true ≠ false by decide) (show Dn.receiving ≠ .idle by decide)
    ended := fun h => by cases h }

/-- The downstream task takes a payload from the channel. -/
theorem Carried.take {v : View} (hv : Carried v) {bytes : List UInt8} {chan : TcpReader.Channel}
    (hdn : v.st.dn = .receiving) (hrecv : v.st.chan.recv = some (bytes, chan)) :
    Carried { v with st := { v.st with dn := .writing bytes, chan } } := by
  rw [TcpReader.Channel.recv] at hrecv
  split at hrecv
  · cases hrecv
  · rename_i bytes' queue hqueue
    cases hrecv
    exact { hv with
      conserved := by
        rw [hv.conserved, pending, hdn, hqueue, List.flatten_cons, List.append_assoc]
        rfl
      idle := iff_of_false (hv.spawned_of_dn (by simp [hdn])) (show Dn.writing bytes ≠ .idle by simp)
      ended := fun h => by cases h }

/-- It finds the channel empty and without a sender. -/
theorem Carried.finish {v : View} (hv : Carried v) (hdn : v.st.dn = .receiving)
    (hrecv : v.st.chan.recv = none) (hheld : v.held = false) :
    Carried { v with st := { v.st with dn := .ended, chan := v.st.chan.close } } := by
  -- `recv` has found nothing
  have hqueue : v.st.chan.queue = [] := by
    rw [TcpReader.Channel.recv] at hrecv
    split at hrecv
    · assumption
    · cases hrecv
  have hspawned : spawned v.st.main ≠ false := hv.spawned_of_dn (by simp [hdn])
  -- as long as the server has not closed the stream, the table has the sender
  have hclosed : v.track.life = .closed := by
    cases hlife : v.track.life with
    | before =>
      have hopened := opened_of_spawned (Bool.eq_true_of_not_eq_false hspawned)
      rw [hv.started.1 hlife] at hopened
      cases hopened
    | opened =>
      have hlive := (hv.live hlife).1
      rw [hheld] at hlive
      cases hlive
    | closed => rfl
  exact { hv with
    conserved := by
      rw [hv.conserved, pending, hdn, hqueue]
      rfl
    frame := fun frame h => by
      obtain h | h := h <;> exact absurd (by rw [show v.st.main = _ from h]; rfl) hspawned
    idle := iff_of_false hspawned (show Dn.ended ≠ .idle by decide)
    live := fun h => by
      rw [hclosed] at h
      cases h
    ended := fun _ => ⟨hclosed, hheld, rfl⟩ }

/-- It has written a payload. -/
theorem Carried.wrote {v : View} (hv : Carried v) {bytes : List UInt8}
    (hdn : v.st.dn = .writing bytes) :
    Carried { v with st := { v.st with dn := .receiving }, written := v.written ++ bytes } :=
  { hv with
    conserved := by
      rw [hv.conserved, pending, hdn, List.append_assoc]
      rfl
    idle := iff_of_false (hv.spawned_of_dn (by simp [hdn])) (show Dn.receiving ≠ .idle by decide)
    ended := fun h => by cases h }

/-- The writes to the client that a step makes succeed. -/
def Succeeds : Act → Prop
  | .reply ok | .write ok => ok = true
  | _ => True

/-- Only StreamOpen is of interest for a track. -/
theorem follow_sent {sid : UInt32} {k : Track} {message : List UInt8}
    (htype : message.head? ≠ some 1) : follow sid k (.sent message) = k := by
  rw [follow, if_neg fun h => htype h.2.1]

/-- One step of a stream's tasks. -/
theorem carried_act {h : HandlerId} {v : View} {st' : Stream} {a : Act} {o : List Effect}
    (hv : Carried v) (ha : Succeeds a) (hact : v.st.act h v.held a = some (st', o)) :
    Carried { v with
      st := st'
      track := o.foldl (follow v.st.sid) v.track
      written := v.written ++ written h o } := by
  have hnothing (st' : Stream) (hv' : Carried { v with st := st' }) :
      Carried { v with
        st := st'
        track := [].foldl (follow v.st.sid) v.track
        written := v.written ++ written h [] } := by
    rw [show v.written ++ written h [] = v.written from List.append_nil _]
    exact hv'
  have hsent (st' : Stream) (message : List UInt8) (htype : message.head? ≠ some 1)
      (hv' : Carried { v with st := st' }) :
      Carried { v with
        st := st'
        track := [.sent message].foldl (follow v.st.sid) v.track
        written := v.written ++ written h [.sent message] } := by
    rw [show v.written ++ written h [.sent message] = v.written from List.append_nil _,
      List.foldl_cons, follow_sent htype]
    exact hv'
  cases act_cases hact with
  | @opened frame hmain =>
    -- the one frame that the server has to see before it may send
    rw [show v.written ++ written h [.sent frame] = v.written from List.append_nil _]
    exact hv.open hmain
  | refused hmain => exact hnothing _ (hv.refuse hmain)
  | spawned hmain => exact hnothing _ (hv.spawn hmain)
  | eof _ => exact hnothing _ (hv.phase _ _ rfl rfl fun _ _ => rfl)
  | read _ _ _ => exact hnothing _ (hv.phase _ _ rfl rfl fun _ _ => rfl)
  | uploaded _ =>
    exact hsent _ _ (by simp [dataFrame, header]) (hv.phase _ _ rfl rfl fun _ _ => rfl)
  | unsent _ => exact hnothing _ (hv.phase _ _ rfl rfl fun _ _ => rfl)
  | received hdn hrecv => exact hnothing _ (hv.take hdn hrecv)
  | drained hdn hrecv hheld => exact hnothing _ (hv.finish hdn hrecv hheld)
  | @wrote bytes hdn =>
    rw [show written h [.wrote h bytes] = bytes by simp [written, wroteTo]]
    exact hv.wrote hdn
  -- writes to the client succeed
  | unanswered _ => cases ha
  | unwritten _ => cases ha
  | selected hmain _ =>
    exact hnothing _ (hv.phase _ _ (by rw [hmain]; rfl) (by rw [hmain]; rfl) (by simp))
  | closed hmain =>
    exact hsent _ _ (by simp [closeFrame, header])
      (hv.phase _ _ (by rw [hmain]; rfl) (by rw [hmain]; rfl) (by simp))
  | unclosed hmain =>
    exact hnothing _ (hv.phase _ _ (by rw [hmain]; rfl) (by rw [hmain]; rfl) (by simp))

/-- When the downstream task has ended, the server has closed the stream and
    everything has been written. -/
theorem Carried.pending_of_ended {v : View} (hv : Carried v) (hdn : v.st.dn = .ended) :
    pending v = [] := by
  obtain ⟨hlife, hheld, hqueue⟩ := hv.ended hdn
  have hreader : inReader v = [] := by
    cases hnear : v.near with
    | sending payload =>
      rw [hv.sending payload hnear] at hlife
      cases hlife
    | _ => simp [inReader, hnear, hheld]
  rw [pending, hqueue, hreader, hdn]
  rfl

/-! ## The table and the reader, seen from one stream -/

/-- Once StreamOpen is sent, the server may speak of the stream. -/
theorem Carried.not_before {v : View} (hv : Carried v) (hopened : opened v.st.main = true) :
    v.track.life ≠ .before := by
  intro hlife
  rw [hv.started.1 hlife] at hopened
  cases hopened

/-- The stream is put into the table. -/
theorem Carried.register {v : View} (hv : Carried v) {frame : List UInt8}
    (hmain : v.st.main = .registering frame) :
    Carried { v with st := { v.st with main := .opening frame }, held := true } := by
  have hbefore : v.track.life = .before := hv.started.2 (by rw [hmain]; rfl)
  -- before StreamOpen is sent the server has nothing for the stream
  obtain ⟨hserved, haway⟩ := hv.silent hbefore
  have hidle : v.st.dn = .idle := hv.idle.1 (by rw [hmain]; rfl)
  exact { hv with
    conserved := by
      rw [hv.conserved, pending, pending, inReader, inReader, haway]
    started := ⟨fun _ => rfl, fun _ => hbefore⟩
    frame := fun frame' h => by
      obtain h | h := h <;> cases h
      exact hv.frame frame (.inl hmain)
    table := fun _ _ => rfl
    idle := ⟨fun _ => hidle, fun _ => rfl⟩
    live := fun h => by
      rw [hbefore] at h
      cases h
    gone := fun h => by
      rw [hbefore] at h
      cases h
    ended := fun h => by
      rw [hidle] at h
      cases h }

/-- The reader gets a Data frame of the stream. -/
theorem Carried.data {v : View} (hv : Carried v) {message payload : List UInt8}
    (haway : v.near = .away) (hopened : opened v.st.main = true)
    (hmessage : incoming message = .data v.st.sid payload) :
    Carried { v with
      near := .routing payload
      track := follow v.st.sid v.track (.received message) } := by
  have hbefore := hv.not_before hopened
  have hserved := hv.conserved
  rw [pending, inReader, haway, List.append_nil] at hserved
  -- the payload counts, and finds the channel, exactly while the stream is open
  obtain ⟨k, hk, hlife, hconserved⟩ : ∃ k, follow v.st.sid v.track (.received message) = k ∧
      k.life = v.track.life ∧ k.served = v.track.served ++ if v.held then payload else [] := by
    refine ⟨_, rfl, ?_⟩
    cases hcase : v.track.life with
    | before => exact absurd hcase hbefore
    | opened => simp [follow, hmessage, hcase, (hv.live hcase).1]
    | closed =>
      have hgone : v.held = false := (hv.gone hcase).resolve_left (by simp [haway])
      simp [follow, hmessage, hcase, hgone]
  rw [hk]
  exact { hv with
    conserved := by
      show k.served = v.written ++ (inHand v.st.dn ++ (v.st.chan.queue.flatten ++
        if v.held then payload else []))
      rw [hconserved, hserved]
      simp only [List.append_assoc]
    started := hlife ▸ hv.started
    silent := fun h => absurd (hlife ▸ h) hbefore
    live := fun h => hv.live (hlife ▸ h)
    gone := fun h => .inr ((hv.gone (hlife ▸ h)).resolve_left (by simp [haway]))
    ended := fun h => by
      obtain ⟨hclosed, hrest⟩ := hv.ended h
      exact ⟨hlife.trans hclosed, hrest⟩
    sending := fun payload h => by cases h
    closing := fun h => by cases h }

/-- The reader gets the server's StreamClose. -/
theorem Carried.close {v : View} (hv : Carried v) {message : List UInt8}
    (haway : v.near = .away) (hopened : opened v.st.main = true)
    (hmessage : incoming message = .close v.st.sid) :
    Carried { v with
      near := .closing
      track := follow v.st.sid v.track (.received message) } := by
  have hbefore := hv.not_before hopened
  have hserved := hv.conserved
  rw [pending, inReader, haway] at hserved
  obtain ⟨k, hk, hlife, hconserved⟩ : ∃ k, follow v.st.sid v.track (.received message) = k ∧
      k.life = .closed ∧ k.served = v.track.served := by
    refine ⟨_, rfl, ?_⟩
    cases hcase : v.track.life with
    | before => exact absurd hcase hbefore
    | opened => simp [follow, hmessage, hcase]
    | closed => simp [follow, hmessage, hcase]
  rw [hk]
  exact { hv with
    conserved := hconserved.trans hserved
    started := by
      show k.life = .before ↔ opened v.st.main = false
      rw [hlife, hopened]
      decide
    silent := fun h => by
      rw [hlife] at h
      cases h
    live := fun h => by
      rw [hlife] at h
      cases h
    -- the entry stays until the reader gets the table
    gone := fun _ => .inl rfl
    ended := fun h => ⟨hlife, (hv.ended h).2⟩
    sending := fun payload h => by cases h
    closing := fun _ => hlife }

/-- The reader has found the stream. -/
theorem Carried.found {v : View} (hv : Carried v) (payload : List UInt8)
    (hnear : v.near = .routing payload) (hheld : v.held = true) :
    Carried { v with near := .sending payload } := by
  -- an entry in the table means that the server has not closed the stream
  have hlife := hv.life_of_routing hnear hheld
  exact { hv with
    conserved := by
      rw [hv.conserved, pending, inReader, hnear, hheld]
      rfl
    silent := fun h => by
      rw [hlife] at h
      cases h
    gone := fun h => by
      rw [hlife] at h
      cases h
    sending := fun _ _ => hlife
    closing := fun h => by cases h
    capacity := hv.capacity }

/-- The stream is not in the table. -/
theorem Carried.missed {v : View} (hv : Carried v) (payload : List UInt8)
    (hnear : v.near = .routing payload) (hheld : v.held = false) :
    Carried { v with near := .away } :=
  { hv with
    conserved := by
      rw [hv.conserved, pending, inReader, hnear, hheld]
      rfl
    silent := fun h => ⟨(hv.silent h).1, rfl⟩
    gone := fun _ => .inr hheld
    sending := fun payload h => by cases h
    closing := fun h => by cases h }

/-- The payload is in the channel. -/
theorem Carried.deliver {v : View} (hv : Carried v) {payload : List UInt8}
    {chan : TcpReader.Channel} {ok : Bool} (hnear : v.near = .sending payload)
    (hsend : v.st.chan.send payload = some (chan, ok)) :
    Carried { v with st := { v.st with chan }, near := .away } := by
  have hlife := hv.sending payload hnear
  obtain ⟨hheld, hopen⟩ := hv.live hlife
  -- the receiver is still there: the payload is queued and not dropped
  obtain ⟨hqueue, hclosed, hcapacity⟩ : chan.queue = v.st.chan.queue ++ [payload] ∧
      chan.closed = false ∧ chan.capacity = 64 := by
    rw [TcpReader.Channel.send, hopen, if_neg (by decide)] at hsend
    split at hsend
    · cases hsend
      exact ⟨rfl, rfl, hv.capacity⟩
    · cases hsend
  exact { hv with
    conserved := by
      show v.track.served = v.written ++ (inHand v.st.dn ++ (chan.queue.flatten ++ []))
      rw [hv.conserved, pending, inReader, hnear, hqueue]
      simp
    silent := fun h => ⟨(hv.silent h).1, rfl⟩
    frame := fun frame h => by
      obtain ⟨hid, htype, -⟩ := hv.frame frame h
      exact ⟨hid, htype, hclosed⟩
    live := fun _ => ⟨hheld, hclosed⟩
    gone := fun h => by
      rw [hlife] at h
      cases h
    ended := fun h => by
      rw [(hv.ended h).1] at hlife
      cases hlife
    sending := fun payload h => by cases h
    closing := fun h => by cases h
    capacity := hcapacity }

/-- The stream is taken out of the table for the server's StreamClose. -/
theorem Carried.drop {v : View} (hv : Carried v) (hnear : v.near = .closing) :
    Carried { v with held := false, near := .away } := by
  have hlife := hv.closing hnear
  exact { hv with
    conserved := by
      rw [hv.conserved, pending, inReader, hnear]
      rfl
    silent := fun h => ⟨(hv.silent h).1, rfl⟩
    -- the stream was opened, so it is not being registered
    table := fun frame h => by
      have hbefore := hv.started.2 (by rw [show v.st.main = _ from h]; rfl)
      rw [hlife] at hbefore
      cases hbefore
    live := fun h => by
      rw [hlife] at h
      cases h
    gone := fun _ => .inr rfl
    ended := fun h => ⟨hlife, rfl, (hv.ended h).2.2⟩
    sending := fun payload h => by cases h
    closing := fun h => by cases h }

end Fogged.Spec.Cdn
