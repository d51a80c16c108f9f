import Fogged.ForStd.Chunks
import Fogged.Native.ChunkVecBuffer
import Fogged.Native.RecordLayer

/-!
# Sending half of a TLS connection (`orcax/rustls-fork/rustls/src/common_state.rs`)

Application data and messages are cut into fragments (`msgs/fragmenter.rs`), sealed by the
record layer and queued in `sendable_tls`, from where `write_tls` hands them to the socket.
What the application writes before the handshake is over waits in `sendable_plaintext`. The
answer to a request for new keys is sealed at once, but waits in `queued_key_update_message`
until the application writes again.

`send_single_fragment` calls `send_close_notify` when the sequence number reaches its soft
limit, and that calls `send_single_fragment`; so it has a step budget. Handshake messages are
their encodings. QUIC, and what only the handshake uses, is left out.
-/

namespace Fogged.Native.Tls

open Fogged.Native.Deframer (ContentType ProtocolVersion OpaqueMessage PlainMessage Error)

/-! ## Fragments (`msgs/fragmenter.rs`) -/

/-- `PACKET_OVERHEAD`. -/
def packetOverhead : Nat := 1 + 2 + 2

structure MessageFragmenter where
  maxFrag : Nat
  /-- `set_max_fragment_size` takes no size below 32, with the header of a record. -/
  ge : 32 - packetOverhead ≤ maxFrag
  le : maxFrag ≤ maxFragmentLen
  deriving DecidableEq

namespace MessageFragmenter

def default : MessageFragmenter where
  maxFrag := maxFragmentLen
  ge := by decide
  le := Nat.le_refl _

/-- `fragment_slice`. -/
def fragmentSlice (f : MessageFragmenter) (typ : ContentType) (version : ProtocolVersion)
    (payload : List UInt8) : List PlainMessage :=
  (payload.chunksOf f.maxFrag).map fun c => { typ, version, payload := c }

/-- `fragment_message`. -/
def fragmentMessage (f : MessageFragmenter) (msg : PlainMessage) : List PlainMessage :=
  f.fragmentSlice msg.typ msg.version msg.payload

end MessageFragmenter

/-! ## Messages (`msgs/message.rs`, `msgs/alert.rs`) -/

/-- `AlertLevel::Warning`. -/
def alertWarning : UInt8 := 1

/-- `AlertLevel::Fatal`. -/
def alertFatal : UInt8 := 2

/-- `AlertDescription::CloseNotify`. -/
def closeNotify : UInt8 := 0x00

/-- `build_alert`. -/
def buildAlert (level desc : UInt8) : PlainMessage where
  typ := .alert
  version := .tlsv1_2
  payload := [level, desc]

/-- `HandshakeType::KeyUpdate`. -/
def keyUpdate : UInt8 := 0x18

/-- `build_key_update_notify`: a `KeyUpdate` that does not ask for one in return. -/
def buildKeyUpdateNotify : PlainMessage where
  typ := .handshake
  version := .tlsv1_3
  payload := [keyUpdate, 0, 0, 1, 0]

/-! ## State -/

inductive Side where
  | client
  | server
  deriving DecidableEq

/-- `DEFAULT_RECEIVED_PLAINTEXT_LIMIT`. -/
def defaultReceivedPlaintextLimit : Nat := 16 * 1024

/-- `DEFAULT_BUFFER_LIMIT`. -/
def defaultBufferLimit : Nat := 64 * 1024

structure CommonState (κ : Type) where
  negotiatedVersion : Option ProtocolVersion
  side : Side
  recordLayer : RecordLayer κ
  alignedHandshake : Bool
  maySendApplicationData : Bool
  mayReceiveApplicationData : Bool
  sentFatalAlert : Bool
  hasReceivedCloseNotify : Bool
  hasSeenEof : Bool
  receivedMiddleboxCcs : Nat
  messageFragmenter : MessageFragmenter
  receivedPlaintext : ChunkVecBuffer
  sendablePlaintext : ChunkVecBuffer
  sendableTls : ChunkVecBuffer
  queuedKeyUpdateMessage : Option (List UInt8)
  deriving DecidableEq

/-- `Limit`: whether the limit of a buffer applies. -/
inductive Limit where
  | yes
  | no
  deriving DecidableEq

namespace CommonState

variable {κ : Type}

def new (side : Side) : CommonState κ where
  negotiatedVersion := none
  side := side
  recordLayer := .new
  alignedHandshake := true
  maySendApplicationData := false
  mayReceiveApplicationData := false
  sentFatalAlert := false
  hasReceivedCloseNotify := false
  hasSeenEof := false
  receivedMiddleboxCcs := 0
  messageFragmenter := .default
  receivedPlaintext := .new (some defaultReceivedPlaintextLimit)
  sendablePlaintext := .new (some defaultBufferLimit)
  sendableTls := .new (some defaultBufferLimit)
  queuedKeyUpdateMessage := none

/-- `is_tls13`. -/
def isTls13 (s : CommonState κ) : Bool := s.negotiatedVersion = some .tlsv1_3

/-- `set_buffer_limit`. -/
def setBufferLimit (s : CommonState κ) (limit : Option Nat) : CommonState κ :=
  { s with
    sendablePlaintext := s.sendablePlaintext.setLimit limit
    sendableTls := s.sendableTls.setLimit limit }

/-- `queue_tls_message`. -/
def queueTlsMessage (s : CommonState κ) (m : OpaqueMessage) : CommonState κ :=
  { s with sendableTls := s.sendableTls.append (encode m) }

/-- `perhaps_write_key_update`. -/
def perhapsWriteKeyUpdate (s : CommonState κ) : CommonState κ :=
  match s.queuedKeyUpdateMessage with
  | some message =>
    { s with sendableTls := s.sendableTls.append message, queuedKeyUpdateMessage := none }
  | none => s

/-! ## Sending -/

/-- One fragment after the other. -/
def sendFragments (single : CommonState κ → PlainMessage → Outcome (CommonState κ)) :
    CommonState κ → List PlainMessage → Outcome (CommonState κ)
  | s, [] => .ret s
  | s, m :: ms => do
    let s ← single s m
    sendFragments single s ms

/-- `send_msg` and `send_msg_encrypt`, over `send_single_fragment`. -/
def sendMsgBy (single : CommonState κ → PlainMessage → Outcome (CommonState κ))
    (s : CommonState κ) (m : PlainMessage) (mustEncrypt : Bool) : Outcome (CommonState κ) :=
  let fragments := s.messageFragmenter.fragmentMessage m
  if mustEncrypt then sendFragments single s fragments
  else .ret (fragments.foldl (fun s m => s.queueTlsMessage (toUnencryptedOpaque m)) s)

variable (aead : Aead κ)

/-- `send_single_fragment`. Where it sends a `close_notify`, that is `send_close_notify`, with
    the calls that it makes. -/
def sendSingleFragment : Nat → CommonState κ → PlainMessage → Outcome (CommonState κ)
  | 0, _, _ => .diverge
  | fuel + 1, s, m => do
    let s ←
      if s.recordLayer.wantsCloseBeforeEncrypt then
        sendMsgBy (sendSingleFragment fuel) s (buildAlert alertWarning closeNotify)
          s.recordLayer.isEncrypting
      else .ret s
    if s.recordLayer.encryptExhausted then return s
    let (em, recordLayer) ← s.recordLayer.encryptOutgoing aead m
    return { s with recordLayer }.queueTlsMessage em

variable (fuel : Nat)

/-- `send_msg`. -/
def sendMsg (s : CommonState κ) (m : PlainMessage) (mustEncrypt : Bool) :
    Outcome (CommonState κ) :=
  sendMsgBy (sendSingleFragment aead fuel) s m mustEncrypt

/-- `send_warning_alert_no_log`. -/
def sendWarningAlertNoLog (s : CommonState κ) (desc : UInt8) : Outcome (CommonState κ) :=
  s.sendMsg aead fuel (buildAlert alertWarning desc) s.recordLayer.isEncrypting

/-- `send_close_notify`. -/
def sendCloseNotify (s : CommonState κ) : Outcome (CommonState κ) :=
  s.sendWarningAlertNoLog aead fuel closeNotify

/-- `send_fatal_alert`; the error that it returns is its argument. -/
def sendFatalAlert (s : CommonState κ) (desc : UInt8) : Outcome (CommonState κ) := do
  let s ← s.sendMsg aead fuel (buildAlert alertFatal desc) s.recordLayer.isEncrypting
  return { s with sentFatalAlert := true }

/-- `send_appdata_encrypt`. -/
def sendAppdataEncrypt (s : CommonState κ) (payload : List UInt8) (limit : Limit) :
    Outcome (Nat × CommonState κ) := do
  let len :=
    match limit with
    | .yes => s.sendableTls.applyLimit payload.length
    | .no => payload.length
  let fragments := s.messageFragmenter.fragmentSlice .applicationData .tlsv1_2 (payload.take len)
  let s ← sendFragments (sendSingleFragment aead fuel) s fragments
  return (len, s)

/-- `send_plain`. -/
def sendPlain (s : CommonState κ) (data : List UInt8) (limit : Limit) :
    Outcome (Nat × CommonState κ) :=
  if !s.maySendApplicationData then
    match limit with
    | .yes =>
      let (len, sendablePlaintext) := s.sendablePlaintext.appendLimitedCopy data
      .ret (len, { s with sendablePlaintext })
    | .no => .ret (data.length, { s with sendablePlaintext := s.sendablePlaintext.append data })
  else if data.isEmpty then .ret (0, s)
  else s.sendAppdataEncrypt aead fuel data limit

/-- `send_some_plaintext`. -/
def sendSomePlaintext (s : CommonState κ) (data : List UInt8) : Outcome (Nat × CommonState κ) :=
  s.perhapsWriteKeyUpdate.sendPlain aead fuel data .yes

/-- `enqueue_key_update_notification`. -/
def enqueueKeyUpdateNotification (s : CommonState κ) : Outcome (CommonState κ) := do
  let (em, recordLayer) ← s.recordLayer.encryptOutgoing aead buildKeyUpdateNotify
  return { s with recordLayer, queuedKeyUpdateMessage := some (encode em) }

end CommonState

/-! ## Key schedule (`tls13/key_schedule.rs`) -/

/-- What the key schedule derives from a traffic secret. -/
structure KeySchedule (S κ : Type) where
  /-- `derive_next`. -/
  deriveNext : S → S
  /-- `derive_traffic_key` and `derive_traffic_iv`. -/
  trafficKey : S → TrafficKey κ

namespace CommonState

variable {S κ : Type}

/-- `update_encrypter_and_notify`, with our current traffic secret. -/
def updateEncrypterAndNotify (aead : Aead κ) (ks : KeySchedule S κ) (s : CommonState κ)
    (secret : S) : Outcome (S × CommonState κ) := do
  let secret := ks.deriveNext secret
  let s ← s.enqueueKeyUpdateNotification aead
  return (secret,
    { s with recordLayer := s.recordLayer.setMessageEncrypter (ks.trafficKey secret) })

end CommonState

/-- What is seen of a call that sends. -/
inductive SendEffect where
  /-- `write` has returned the number of these bytes, from the front of its argument. -/
  | accepted (data : List UInt8)
  /-- Bytes have gone to the socket. -/
  | wrote (bytes : List UInt8)
  /-- The socket has returned an error. -/
  | writeFailed
  | panicked
  /-- The call does not return. -/
  | hung
  deriving DecidableEq

end Fogged.Native.Tls
