import Fogged.ForStd.Machine
import Fogged.Native.Connection
import Fogged.Spec.RecordNonces
import Fogged.Spec.VecBufCorrect

/-!
# Connections that have failed

What a call sends concerns only the sending half of a connection (`receiveHalf`). A
connection that has failed stays so: no further message is handled, and what the application
can still read is what had been received before.

The documentation of `process_new_packets` says that later calls return the same error. That
holds for an error of a message; after an error of the deframer or the record layer they
return `HandshakeNotComplete`.

## Key results

- `silent_after_failure`: what is observed of a connection after its first error
-/

namespace Fogged.Spec.ConnectionRuns

open Fogged.Native.Tls Fogged.Native.Tls.CommonState
open Fogged.Native.Deframer (ContentType ProtocolVersion PlainMessage MessageDeframer)
open Fogged.Spec.VecBuf (stored)

variable {τ κ ν : Type} {aead : Aead κ} {fuel : Nat} {h : Handler τ κ ν}

/-! ## What sending leaves alone -/

/-- What receiving depends on. -/
structure ReceiveHalf (κ : Type) where
  negotiatedVersion : Option ProtocolVersion
  side : Side
  alignedHandshake : Bool
  mayReceiveApplicationData : Bool
  hasReceivedCloseNotify : Bool
  hasSeenEof : Bool
  receivedMiddleboxCcs : Nat
  receivedPlaintext : ChunkVecBuffer
  messageDecrypter : Option (TrafficKey κ)
  readSeq : Nat
  hasDecrypted : Bool
  decryptState : DirectionState
  trialDecryptionLen : Option Nat

def receiveHalf (s : CommonState κ) : ReceiveHalf κ where
  negotiatedVersion := s.negotiatedVersion
  side := s.side
  alignedHandshake := s.alignedHandshake
  mayReceiveApplicationData := s.mayReceiveApplicationData
  hasReceivedCloseNotify := s.hasReceivedCloseNotify
  hasSeenEof := s.hasSeenEof
  receivedMiddleboxCcs := s.receivedMiddleboxCcs
  receivedPlaintext := s.receivedPlaintext
  messageDecrypter := s.recordLayer.messageDecrypter
  readSeq := s.recordLayer.readSeq
  hasDecrypted := s.recordLayer.hasDecrypted
  decryptState := s.recordLayer.decryptState
  trialDecryptionLen := s.recordLayer.trialDecryptionLen

section Frame

variable {s s' : CommonState κ}

/-- Messages are queued unencrypted. -/
theorem receiveHalf_queue (ms : List PlainMessage) (s : CommonState κ) :
    receiveHalf (ms.foldl (fun s m => s.queueTlsMessage (toUnencryptedOpaque m)) s) =
      receiveHalf s := by
  induction ms generalizing s with
  | nil => rfl
  | cons m ms ih => exact ih _

/-- The fragments of a message are sent one after another. -/
theorem receiveHalf_sendFragments {single : CommonState κ → PlainMessage → Outcome (CommonState κ)}
    (hsingle : ∀ s m s', single s m = .ret s' → receiveHalf s' = receiveHalf s)
    {ms : List PlainMessage} (hsend : sendFragments single s ms = .ret s') :
    receiveHalf s' = receiveHalf s := by
  induction ms generalizing s with
  | nil =>
    cases hsend
    rfl
  | cons m ms ih =>
    rw [sendFragments] at hsend
    obtain ⟨t, ht, hrest⟩ := Outcome.bind_eq_ret hsend
    rw [ih hrest, hsingle s m t ht]

/-- A message is sent, encrypted or not. -/
theorem receiveHalf_sendMsgBy {single : CommonState κ → PlainMessage → Outcome (CommonState κ)}
    (hsingle : ∀ s m s', single s m = .ret s' → receiveHalf s' = receiveHalf s)
    {m : PlainMessage} {mustEncrypt : Bool} (hsend : sendMsgBy single s m mustEncrypt = .ret s') :
    receiveHalf s' = receiveHalf s := by
  rw [sendMsgBy] at hsend
  split at hsend
  · exact receiveHalf_sendFragments hsingle hsend
  · cases hsend
    exact receiveHalf_queue _ s

/-- Sealing a record counts it, on the sending side. -/
theorem receiveHalf_encryptOutgoing {m : PlainMessage} {em : Native.Deframer.OpaqueMessage}
    {recordLayer : RecordLayer κ}
    (hencrypt : s.recordLayer.encryptOutgoing aead m = .ret (em, recordLayer)) :
    receiveHalf { s with recordLayer } = receiveHalf s := by
  obtain ⟨-, k, -, -, rfl⟩ := Records.encryptOutgoing_eq_ret hencrypt
  rfl

/-- One fragment, perhaps with a `close_notify` before it. -/
theorem receiveHalf_sendSingleFragment {m : PlainMessage}
    (hsend : sendSingleFragment aead fuel s m = .ret s') : receiveHalf s' = receiveHalf s := by
  -- by the budget: the `close_notify` is sent by the same function
  induction fuel generalizing s m s' with
  | zero => cases hsend
  | succ fuel ih =>
    have hfragment : ∀ t : CommonState κ,
        (if t.recordLayer.encryptExhausted then pure t
          else t.recordLayer.encryptOutgoing aead m >>= fun sealed =>
            pure ({ t with recordLayer := sealed.2 }.queueTlsMessage sealed.1)) = .ret s' →
          receiveHalf s' = receiveHalf t := by
      intro t ht
      split at ht
      · cases ht
        rfl
      · obtain ⟨⟨em, recordLayer⟩, hencrypt, hret⟩ := Outcome.bind_eq_ret ht
        cases hret
        exact receiveHalf_encryptOutgoing hencrypt
    rw [sendSingleFragment] at hsend
    split at hsend
    · obtain ⟨t, ht, hrest⟩ := Outcome.bind_eq_ret hsend
      exact (hfragment t hrest).trans (receiveHalf_sendMsgBy (fun _ _ _ => ih) ht)
    · exact hfragment s hsend

/-- A message is sent. -/
theorem receiveHalf_sendMsg {m : PlainMessage} {mustEncrypt : Bool}
    (hsend : s.sendMsg aead fuel m mustEncrypt = .ret s') : receiveHalf s' = receiveHalf s :=
  receiveHalf_sendMsgBy (fun _ _ _ => receiveHalf_sendSingleFragment) hsend

/-- Application data is sent after the handshake. -/
theorem receiveHalf_sendAppdataEncrypt {payload : List UInt8} {limit : Limit} {n : Nat}
    (hsend : s.sendAppdataEncrypt aead fuel payload limit = .ret (n, s')) :
    receiveHalf s' = receiveHalf s := by
  unfold sendAppdataEncrypt at hsend
  obtain ⟨t, ht, hret⟩ := Outcome.bind_eq_ret hsend
  cases hret
  exact receiveHalf_sendFragments (fun _ _ _ => receiveHalf_sendSingleFragment) ht

/-- The answer to a key update that was queued goes out. -/
theorem receiveHalf_perhapsWriteKeyUpdate (s : CommonState κ) :
    receiveHalf s.perhapsWriteKeyUpdate = receiveHalf s := by
  unfold perhapsWriteKeyUpdate
  split <;> rfl

/-- The application writes. -/
theorem receiveHalf_sendSomePlaintext {data : List UInt8} {n : Nat}
    (hsend : s.sendSomePlaintext aead fuel data = .ret (n, s')) :
    receiveHalf s' = receiveHalf s := by
  rw [sendSomePlaintext] at hsend
  unfold sendPlain at hsend
  rw [← receiveHalf_perhapsWriteKeyUpdate s]
  split at hsend
  · cases hsend
    rfl
  · split at hsend
    · cases hsend
      rfl
    · exact receiveHalf_sendAppdataEncrypt hsend

/-- The alert is sent, and the error returned. -/
theorem failWith_eq_ret {ε α : Type} {desc : UInt8} {e : ε} {r : Except ε α}
    (hfail : s.failWith aead fuel desc e = .ret (r, s')) : r = .error e := by
  obtain ⟨t, -, hret⟩ := Outcome.bind_eq_ret hfail
  cases hret
  rfl

end Frame

/-! ## The error that stays -/

/-- What later calls return, after a call has returned `e`. -/
def latched : ConnectionError → ConnectionError
  | .deframe _ => .handshakeNotComplete
  | e => e

/-- Errors of messages. -/
def OfMessage (e : ConnectionError) : Prop := latched e = e

/-- An alert that ends the connection. -/
theorem processAlert_error {s s' : CommonState κ} {alert : AlertMessagePayload}
    {e : ConnectionError} (hret : s.processAlert aead fuel alert = .ret (.error e, s')) :
    OfMessage e := by
  unfold processAlert at hret
  split at hret
  · cases failWith_eq_ret hret
    rfl
  · split at hret
    · -- a `close_notify` is no error
      cases hret
    · split at hret
      · split at hret
        · cases failWith_eq_ret hret
          rfl
        · cases hret
      · cases hret
        rfl

/-- A message that the state does not take. -/
theorem processMainProtocol_error {s s' : CommonState κ} {msg : MessagePayload ν} {state : τ}
    {e : ConnectionError}
    (hret : s.processMainProtocol aead fuel h msg state = .ret (.error e, s')) : OfMessage e := by
  unfold processMainProtocol at hret
  split at hret
  · -- a renegotiation is refused with a warning, and the connection goes on
    obtain ⟨t, -, hret⟩ := Outcome.bind_eq_ret hret
    cases hret
  · obtain ⟨⟨result, t⟩, -, hret⟩ := Outcome.bind_eq_ret hret
    dsimp only at hret
    split at hret
    · cases hret
    · cases failWith_eq_ret hret
      rfl
    · cases failWith_eq_ret hret
      rfl
    · cases hret
      rfl

/-- A message that fails, whatever its type. -/
theorem processMsg_error {s s' : CommonState κ} {msg : PlainMessage} {state : τ}
    {e : ConnectionError} (hret : s.processMsg aead fuel h msg state = .ret (.error e, s')) :
    OfMessage e := by
  unfold processMsg at hret
  split at hret
  · -- a middlebox ChangeCipherSpec, dropped or refused
    split at hret
    · cases failWith_eq_ret hret
      rfl
    · cases hret
  · split at hret
    · cases failWith_eq_ret hret
      rfl
    · obtain ⟨⟨result, t⟩, halert, hret⟩ := Outcome.bind_eq_ret hret
      cases result with
      | ok _ => cases hret
      | error e' =>
        cases hret
        exact processAlert_error halert
    · exact processMainProtocol_error hret

/-- An error of `deframe`, which leaves the state alone. -/
theorem deframe_eq_ret {s s' : ConnectionCore τ κ}
    {r : Except ConnectionError (Option PlainMessage)} (hret : s.deframe aead fuel = .ret (r, s')) :
    s'.state = s.state ∧ ∀ e, r = .error e → latched e = .handshakeNotComplete := by
  obtain ⟨t, -, hret⟩ := Outcome.bind_eq_ret hret
  unfold ConnectionCore.deframed at hret
  split at hret
  · cases hret
    exact ⟨rfl, nofun⟩
  · cases hret
    exact ⟨rfl, nofun⟩
  · split at hret
    · -- for some errors an alert is sent first
      obtain ⟨u, -, hret⟩ := Outcome.bind_eq_ret hret
      cases hret
      refine ⟨rfl, ?_⟩
      rintro _ ⟨⟩
      rfl
    · cases hret
      refine ⟨rfl, ?_⟩
      rintro _ ⟨⟩
      rfl

/-- A loop that ends with an error leaves the error that stays. -/
theorem processMessages_error {budget : Nat} {s s' : ConnectionCore τ κ} {state : τ}
    {e : ConnectionError} {msgs : List PlainMessage} (hs : s.state = .error .handshakeNotComplete)
    (hret : s.processMessages aead fuel h budget state = .ret (.error e, s', msgs)) :
    s'.state = .error (latched e) := by
  induction budget generalizing s state msgs with
  | zero => cases hret
  | succ budget ih =>
    rw [ConnectionCore.processMessages] at hret
    obtain ⟨⟨r, t⟩, hdeframe, hret⟩ := Outcome.bind_eq_ret hret
    obtain ⟨hkeep, herror⟩ := deframe_eq_ret hdeframe
    dsimp only at hret
    split at hret
    · cases hret
      -- the state was taken out before the loop, and is not put back
      rw [hkeep, hs, herror e rfl]
    · cases hret
    · obtain ⟨⟨r, commonState⟩, hmsg, hret⟩ := Outcome.bind_eq_ret hret
      dsimp only at hret
      split at hret
      · cases hret
        -- here the error is put in its place
        exact congrArg Except.error (processMsg_error hmsg).symm
      · obtain ⟨⟨r, u, msgs'⟩, hrest, hret⟩ := Outcome.bind_eq_ret hret
        cases hret
        exact ih (s := { t with commonState }) (hkeep.trans hs) hrest

/-! ## After a failure -/

section Silent

open Connection

/-- The bytes that the application has read. -/
def readOf : Effect → List UInt8
  | .read _ bytes => bytes
  | _ => []

/-- What has been observed of a connection since it has failed with `e`, and `plaintext` was
    still to be read. -/
structure Silent (e : ConnectionError) (plaintext : List UInt8) (s : Connection τ κ)
    (past : List Effect) : Prop where
  state : s.core.state = .error e
  processed : ∀ r, .processed r ∈ past → r = .error e
  noMessage : ∀ m, .message m ∉ past
  read : past.flatMap readOf ++ stored s.core.commonState.receivedPlaintext = plaintext

variable {e : ConnectionError} {plaintext : List UInt8} {s s' : Connection τ κ}
  {past o : List Effect}

/-- A call that handles no message and reads nothing. -/
theorem Silent.keep (hs : Silent e plaintext s past) (hstate : s'.core.state = s.core.state)
    (hplain : s'.core.commonState.receivedPlaintext = s.core.commonState.receivedPlaintext)
    (hprocessed : ∀ r, .processed r ∈ o → r = .error e) (hmessage : ∀ m, .message m ∉ o)
    (hread : o.flatMap readOf = []) : Silent e plaintext s' (past ++ o) := by
  refine ⟨hstate.trans hs.state, ?_, ?_, ?_⟩
  · intro r hr
    rcases List.mem_append.1 hr with hr | hr
    · exact hs.processed r hr
    · exact hprocessed r hr
  · intro m hm
    rcases List.mem_append.1 hm with hm | hm
    · exact hs.noMessage m hm
    · exact hmessage m hm
  · rw [List.flatMap_append, hread, List.append_nil, hplain, hs.read]

/-- A call of the sending half that returns, or does not. -/
theorem Silent.after {α : Type} (hs : Silent e plaintext s past) {call : Outcome α}
    {k : α → Connection τ κ × List Effect}
    (hk : ∀ a, call = .ret a → (k a).1.core.state = s.core.state ∧
      (k a).1.core.commonState.receivedPlaintext = s.core.commonState.receivedPlaintext ∧
      (∀ r, .processed r ∈ (k a).2 → r = .error e) ∧ (∀ m, .message m ∉ (k a).2) ∧
      (k a).2.flatMap readOf = [])
    (hret : s.after call k = (s', o)) : Silent e plaintext s' (past ++ o) := by
  cases call with
  | ret a =>
    obtain ⟨hstate, hplain, hprocessed, hmessage, hread⟩ := hk a rfl
    rw [Connection.after] at hret
    rw [hret] at hstate hplain hprocessed hmessage hread
    exact hs.keep hstate hplain hprocessed hmessage hread
  -- a call that does not return leaves the connection as it was
  | panic =>
    cases hret
    exact hs.keep rfl rfl (by simp) (by simp) rfl
  | diverge =>
    cases hret
    exact hs.keep rfl rfl (by simp) (by simp) rfl

/-- What comes from the socket is not looked at. -/
theorem silent_readTls (hs : Silent e plaintext s past) {data : List UInt8} {result : Option Nat}
    (hstep : s.readTls data result = some (s', o)) : Silent e plaintext s' (past ++ o) := by
  unfold readTls at hstep
  split at hstep
  · cases hstep
    exact hs.keep rfl rfl (by simp) (by simp) rfl
  · obtain ⟨⟨d, effects⟩, -, heq⟩ := Option.map_eq_some_iff.1 hstep
    cases heq
    exact hs.keep rfl rfl (by simp) (by simp) (by simp [List.flatMap_map, readOf])

/-- What is read is what had been received. -/
theorem silent_read (hs : Silent e plaintext s past) {room : Nat} (hstep : s.read room = (s', o)) :
    Silent e plaintext s' (past ++ o) := by
  obtain ⟨⟨bytes, b⟩, hret, hbytes, hrest, -⟩ :=
    VecBuf.read_spec s.core.commonState.receivedPlaintext room
  dsimp only at hbytes hrest
  have hsplit : bytes ++ stored b = stored s.core.commonState.receivedPlaintext := by
    rw [hbytes, hrest, List.take_append_drop]
  -- whichever way `read` ends, it takes from the front of the plaintext
  have hread : o.flatMap readOf = bytes ∧ s'.core.state = s.core.state ∧
      s'.core.commonState.receivedPlaintext = b ∧ (∀ r, .processed r ∉ o) ∧ ∀ m, .message m ∉ o := by
    unfold Connection.read at hstep
    dsimp only at hstep
    rw [hret] at hstep
    dsimp only [Connection.after] at hstep
    split at hstep
    · rename_i hnil
      rw [hnil.1]
      -- nothing read: an orderly end, a bare end, or nothing there yet
      split at hstep
      · cases hstep
        exact ⟨rfl, rfl, rfl, by simp, by simp⟩
      · split at hstep
        · cases hstep
          exact ⟨rfl, rfl, rfl, by simp, by simp⟩
        · cases hstep
          exact ⟨rfl, rfl, rfl, by simp, by simp⟩
    · cases hstep
      exact ⟨by simp [readOf], rfl, rfl, by simp, by simp⟩
  obtain ⟨hread, hstate, hplain, hprocessed, hmessage⟩ := hread
  -- no message and no record has been processed
  refine ⟨hstate.trans hs.state, ?_, ?_, ?_⟩
  · intro r hr
    rcases List.mem_append.1 hr with hr | hr
    · exact hs.processed r hr
    · exact absurd hr (hprocessed r)
  · intro m hm
    rcases List.mem_append.1 hm with hm | hm
    · exact hs.noMessage m hm
    · exact hmessage m hm
  · rw [List.flatMap_append, hread, hplain, List.append_assoc, hsplit, hs.read]

/-- **Step.** A connection that has failed stays silent. -/
theorem silent_step (hs : Silent e plaintext s past) {ev : Event}
    (hstep : step aead fuel h s ev = some (s', o)) : Silent e plaintext s' (past ++ o) := by
  unfold step at hstep
  split at hstep
  · cases ev with
    | readTls data result => exact silent_readTls hs hstep
    | processNewPackets =>
      rw [call] at hstep
      injection hstep with hstep
      refine hs.after (fun a ha => ?_) hstep
      -- the state is the error, and it is returned at once
      rw [ConnectionCore.processNewPackets, hs.state] at ha
      cases ha
      exact ⟨rfl, rfl, by simp, by simp, rfl⟩
    | read room =>
      rw [call] at hstep
      injection hstep with hstep
      exact silent_read hs hstep
    | write data =>
      rw [call] at hstep
      injection hstep with hstep
      refine hs.after (fun a ha => ?_) hstep
      -- sending is still possible, and leaves the plaintext alone
      have hkeep := receiveHalf_sendSomePlaintext ha
      exact ⟨rfl, congrArg ReceiveHalf.receivedPlaintext hkeep, by simp, by simp, rfl⟩
    | sendCloseNotify =>
      rw [call] at hstep
      injection hstep with hstep
      refine hs.after (fun a ha => ?_) hstep
      have hkeep := receiveHalf_sendMsg ha
      exact ⟨rfl, congrArg ReceiveHalf.receivedPlaintext hkeep, by simp, by simp, rfl⟩
    | setBufferLimit limit =>
      rw [call] at hstep
      cases hstep
      exact hs.keep rfl rfl (by simp) (by simp) rfl
    | writeTls result =>
      rw [call] at hstep
      split at hstep
      · cases hstep
        exact hs.keep rfl rfl (by simp) (by simp) rfl
      · cases hstep
        exact hs.keep rfl rfl (by simp) (by simp) rfl
      · cases hstep
  · cases hstep

/-- After the first error of `process_new_packets`, whatever is called: no message is handled,
    every later call of `process_new_packets` returns the error that stays, and the application
    can read what had been received, and nothing else. -/
theorem silent_after_failure {s s₁ s₂ : Connection τ κ} {state : τ} {o₁ o₂ : List Effect}
    {e : ConnectionError} {es : List Event} (hstate : s.core.state = .ok state)
    (hstep : step aead fuel h s .processNewPackets = some (s₁, o₁))
    (he : .processed (.error e) ∈ o₁) (hrun : Machine.run (step aead fuel h) s₁ es = some (s₂, o₂)) :
    (∀ m, .message m ∉ o₂) ∧ (∀ r, .processed r ∈ o₂ → r = .error (latched e)) ∧
      o₂.flatMap readOf ++ stored s₂.core.commonState.receivedPlaintext =
        stored s₁.core.commonState.receivedPlaintext := by
  -- the first error decides what stays
  have hfailed : s₁.core.state = .error (latched e) := by
    unfold step at hstep
    split at hstep
    · rw [call] at hstep
      injection hstep with hstep
      unfold Connection.after at hstep
      split at hstep
      · rename_i a hret
        obtain ⟨r, core, msgs⟩ := a
        cases hstep
        rw [ConnectionCore.processNewPackets, hstate] at hret
        simp only [List.mem_append, List.mem_map, reduceCtorEq, and_false, exists_false, false_or,
          List.mem_singleton, Effect.processed.injEq] at he
        subst he
        exact processMessages_error rfl hret
      · cases hstep
        simp at he
      · cases hstep
        simp at he
    · cases hstep
  have hsilent : Silent (latched e) (stored s₁.core.commonState.receivedPlaintext) s₁ [] :=
    ⟨hfailed, by simp, by simp, rfl⟩
  -- and every later step keeps it
  have hend := Machine.run_history
    (fun _ _ _ _ _ hs (_ : True) hstep => silent_step hs hstep) hsilent (fun _ _ => trivial) hrun
  exact ⟨hend.noMessage, hend.processed, hend.read⟩

/-- A server after its handshake, with a record of an unknown type in its buffer. -/
def badRecord : Connection (ExpectTraffic Unit Unit) Unit where
  core :=
    { state := .ok ⟨⟨(), ()⟩, []⟩
      commonState := .new .server
      messageDeframer := ⟨none, [0x63, 0x03, 0x03, 0x00, 0x00], none, 5⟩ }
  alive := true

/-- One key for ever. -/
def clearSchedule : KeySchedule Unit Unit where
  deriveNext _ := ()
  trafficKey _ := Records.clearKey

/-- The traffic state of a server that parses no other messages. -/
def clearServer : Handler (ExpectTraffic Unit Unit) Unit Unit :=
  ExpectTraffic.server Records.clearAead clearSchedule 1 fun _ _ _ => .error (.other 0)

/-- The error of the second call is another one. -/
theorem silent_after_bad_record :
    ∃ s₁ s₂ o₁ o₂, step Records.clearAead 1 clearServer badRecord .processNewPackets =
        some (s₁, o₁) ∧ o₁ = [.processed (.error (.deframe .invalidContentType))] ∧
      Machine.run (step Records.clearAead 1 clearServer) s₁ [.processNewPackets] = some (s₂, o₂) ∧
      o₂ ≠ [] ∧ (∀ m, .message m ∉ o₂) ∧
      (∀ r, .processed r ∈ o₂ → r = .error .handshakeNotComplete) := by
  have hcheck : (Machine.run (step Records.clearAead 1 clearServer) badRecord
      [.processNewPackets, .processNewPackets]).map (fun r => r.2) =
        some [.processed (.error (.deframe .invalidContentType)),
          .processed (.error .handshakeNotComplete)] := by decide
  have hfirst : (step Records.clearAead 1 clearServer badRecord .processNewPackets).map
      (fun r => r.2) = some [.processed (.error (.deframe .invalidContentType))] := by decide
  obtain ⟨⟨s₁, o₁⟩, hstep, ho₁⟩ := Option.map_eq_some_iff.1 hfirst
  obtain ⟨⟨s₂, o⟩, hrun, ho⟩ := Option.map_eq_some_iff.1 hcheck
  -- the two calls are taken apart: the first fails, the second is the run after it
  obtain ⟨t, o', o₂, hstep', hrest, heq⟩ := Machine.run_cons_eq_some.1 hrun
  cases hstep.symm.trans hstep'
  dsimp only at ho₁ ho
  obtain ⟨hmessage, hprocessed, -⟩ :=
    silent_after_failure rfl hstep (ho₁ ▸ List.mem_singleton_self _) hrest
  refine ⟨s₁, s₂, o₁, o₂, hstep, ho₁, hrest, ?_, hmessage, hprocessed⟩
  rintro rfl
  rw [ho, ho₁] at heq
  cases heq

end Silent

end Fogged.Spec.ConnectionRuns
