import Fogged.Native.CommonState

/-!
# TLS connections (`orcax/rustls-fork/rustls/src/conn.rs`)

`read_tls` fills the deframer's buffer from the socket. `process_new_packets` takes one
message after the other from it, and hands each to the state of the handshake, or, once that
is over, to the traffic state, which queues application data in `received_plaintext`. From
there `Reader::read` takes it.

While messages are processed, the connection's state is taken out, and `HandshakeNotComplete`
stands in its place; an error of a message is put there instead.

A connection is modelled over any set of states (`Handler`), and the traffic states of TLS 1.3
are given (`client/tls13.rs`, `server/tls13.rs`). Of the handshake messages only `KeyUpdate`
is parsed here; the parsers of the others, and what the client stores of a ticket, are
parameters. QUIC is left out.
-/

namespace Fogged.Native.Tls

open Fogged.Native.Deframer (ContentType ProtocolVersion PlainMessage MessageDeframer)

/-! ## Alerts (`enums.rs`) -/

/-- `AlertDescription::UnexpectedMessage`. -/
def unexpectedMessage : UInt8 := 0x0a

/-- `AlertDescription::BadRecordMac`. -/
def badRecordMac : UInt8 := 0x14

/-- `AlertDescription::RecordOverflow`. -/
def recordOverflow : UInt8 := 0x16

/-- `AlertDescription::IllegalParameter`. -/
def illegalParameter : UInt8 := 0x2f

/-- `AlertDescription::DecodeError`. -/
def decodeError : UInt8 := 0x32

/-- `AlertDescription::UserCanceled`. -/
def userCanceled : UInt8 := 0x5a

/-- `AlertDescription::NoRenegotiation`. -/
def noRenegotiation : UInt8 := 0x64

/-! ## Errors (`error.rs`) -/

inductive InvalidMessage where
  | missingData (what : String)
  | trailingData (what : String)
  | messageTooShort
  | invalidCcs
  | invalidContentType
  /-- Other errors of the parsers of handshake messages. -/
  | other (code : Nat)
  deriving DecidableEq

/-- Errors that a state returns. -/
inductive HandleError where
  | inappropriateMessage (expectTypes : List ContentType) (gotType : ContentType)
  | inappropriateHandshakeMessage (expectTypes : List UInt8) (gotType : UInt8)
  /-- `PeerMisbehaved::KeyEpochWithPendingFragment`. -/
  | keyEpochWithPendingFragment
  /-- `InvalidMessage::InvalidKeyUpdate`. -/
  | invalidKeyUpdate
  /-- `PeerMisbehaved::DuplicateNewSessionTicketExtensions`. -/
  | duplicateNewSessionTicketExtensions
  | other (code : Nat)
  deriving DecidableEq

inductive ConnectionError where
  | handshakeNotComplete
  /-- An error of the deframer, or of the record layer. -/
  | deframe (e : Deframer.Error)
  | invalidMessage (e : InvalidMessage)
  /-- `PeerMisbehaved::IllegalMiddleboxChangeCipherSpec`. -/
  | illegalMiddleboxChangeCipherSpec
  | alertReceived (desc : UInt8)
  | handle (e : HandleError)
  deriving DecidableEq

/-! ## Messages (`msgs/message.rs`, `msgs/handshake.rs`, `msgs/alert.rs`, `msgs/ccs.rs`) -/

structure AlertMessagePayload where
  level : UInt8
  description : UInt8
  deriving DecidableEq

/-- `AlertMessagePayload::read`. -/
def AlertMessagePayload.read : List UInt8 → Except InvalidMessage AlertMessagePayload
  | [] => .error (.missingData "AlertLevel")
  | [_] => .error (.missingData "AlertDescription")
  | [level, description] => .ok { level, description }
  | _ => .error (.trailingData "AlertMessagePayload")

/-- `ChangeCipherSpecPayload::read`. -/
def readChangeCipherSpec : List UInt8 → Except InvalidMessage Unit
  | [] => .error (.missingData "u8")
  | typ :: rest =>
    if typ ≠ 1 then .error .invalidCcs
    else if rest ≠ [] then .error (.trailingData "ChangeCipherSpecPayload")
    else .ok ()

/-- `HandshakePayload`, with tickets `ν`. -/
inductive HandshakePayload (ν : Type) where
  | keyUpdate (request : UInt8)
  | newSessionTicketTls13 (ticket : ν)
  | other
  deriving DecidableEq

structure HandshakeMessagePayload (ν : Type) where
  typ : UInt8
  payload : HandshakePayload ν
  deriving DecidableEq

/-- `HandshakeType::HelloRequest`. -/
def helloRequest : UInt8 := 0x00

/-- `HandshakeType::ClientHello`. -/
def clientHello : UInt8 := 0x01

/-- `HandshakeType::NewSessionTicket`. -/
def newSessionTicket : UInt8 := 0x04

/-- A parser of the bodies of the other handshake messages, by type and version. It returns
    the type, a ticket if it was one, and what it has not read. -/
abbrev BodyParser (ν : Type) : Type :=
  UInt8 → ProtocolVersion → List UInt8 → Except InvalidMessage (UInt8 × Option ν × List UInt8)

variable {ν : Type}

/-- The body of a handshake message, and what is left. -/
def readBody (parser : BodyParser ν) (typ : UInt8) (version : ProtocolVersion)
    (sub : List UInt8) : Except InvalidMessage (HandshakeMessagePayload ν × List UInt8) :=
  if typ = keyUpdate then
    match sub with
    | [] => .error (.missingData "KeyUpdateRequest")
    | request :: rest => .ok (⟨typ, .keyUpdate request⟩, rest)
  else
    match parser typ version sub with
    | .error e => .error e
    | .ok (typ, some ticket, rest) => .ok (⟨typ, .newSessionTicketTls13 ticket⟩, rest)
    | .ok (typ, none, rest) => .ok (⟨typ, .other⟩, rest)

/-- `HandshakeMessagePayload::read_version`; bytes behind the message are not looked at. -/
def HandshakeMessagePayload.readVersion (parser : BodyParser ν) (version : ProtocolVersion) :
    List UInt8 → Except InvalidMessage (HandshakeMessagePayload ν)
  | [] => .error (.missingData "HandshakeType")
  | typ :: l₁ :: l₂ :: l₃ :: rest =>
    let len := (l₁.toNat * 256 + l₂.toNat) * 256 + l₃.toNat
    if rest.length < len then .error .messageTooShort
    else
      match readBody parser typ version (rest.take len) with
      | .error e => .error e
      | .ok (parsed, left) =>
        if left ≠ [] then .error (.trailingData "HandshakeMessagePayload") else .ok parsed
  | _ => .error (.missingData "u24")

inductive MessagePayload (ν : Type) where
  | alert (alert : AlertMessagePayload)
  | handshake (parsed : HandshakeMessagePayload ν) (encoded : List UInt8)
  | changeCipherSpec
  | applicationData (payload : List UInt8)
  deriving DecidableEq

/-- `MessagePayload::new`. -/
def MessagePayload.new (parser : BodyParser ν) (msg : PlainMessage) :
    Except InvalidMessage (MessagePayload ν) :=
  match msg.typ with
  | .applicationData => .ok (.applicationData msg.payload)
  | .alert => (AlertMessagePayload.read msg.payload).map .alert
  | .handshake =>
    (HandshakeMessagePayload.readVersion parser msg.version msg.payload).map
      (.handshake · msg.payload)
  | .changeCipherSpec => (readChangeCipherSpec msg.payload).map fun _ => .changeCipherSpec
  | .heartbeat | .unknown _ => .error .invalidContentType

/-- `content_type`. -/
def MessagePayload.contentType : MessagePayload ν → ContentType
  | .alert _ => .alert
  | .handshake _ _ => .handshake
  | .changeCipherSpec => .changeCipherSpec
  | .applicationData _ => .applicationData

/-- `is_handshake_type`. -/
def MessagePayload.isHandshakeType (payload : MessagePayload ν) (typ : UInt8) : Bool :=
  match payload with
  | .handshake parsed _ => parsed.typ = typ
  | _ => false

/-- `is_valid_ccs`. -/
def isValidCcs (msg : PlainMessage) : Bool := msg.typ = .changeCipherSpec && msg.payload = [0x01]

/-! ## Receiving half of the common state (`common_state.rs`) -/

/-- `TLS13_MAX_DROPPED_CCS`. -/
def tls13MaxDroppedCcs : Nat := 2

structure IoState where
  tlsBytesToWrite : Nat
  plaintextBytesToRead : Nat
  peerHasClosed : Bool
  deriving DecidableEq

namespace CommonState

variable {κ ε α : Type} (aead : Aead κ) (fuel : Nat)

/-- `current_io_state`. -/
def currentIoState (s : CommonState κ) : IoState where
  tlsBytesToWrite := s.sendableTls.len
  plaintextBytesToRead := s.receivedPlaintext.len
  peerHasClosed := s.hasReceivedCloseNotify

/-- `take_received_plaintext`. -/
def takeReceivedPlaintext (s : CommonState κ) (bytes : List UInt8) : CommonState κ :=
  { s with receivedPlaintext := s.receivedPlaintext.append bytes }

/-- `Err(send_fatal_alert(..))`. -/
def failWith (s : CommonState κ) (desc : UInt8) (e : ε) :
    Outcome (Except ε α × CommonState κ) := do
  let s ← s.sendFatalAlert aead fuel desc
  return (.error e, s)

/-- `process_alert`. -/
def processAlert (s : CommonState κ) (alert : AlertMessagePayload) :
    Outcome (Except ConnectionError Unit × CommonState κ) :=
  if alert.level ≠ alertWarning ∧ alert.level ≠ alertFatal then
    s.failWith aead fuel illegalParameter (.alertReceived alert.description)
  else if alert.description = closeNotify then
    .ret (.ok (), { s with hasReceivedCloseNotify := true })
  else if alert.level = alertWarning then
    if s.isTls13 ∧ alert.description ≠ userCanceled then
      s.failWith aead fuel decodeError (.alertReceived alert.description)
    else .ret (.ok (), s)
  else .ret (.error (.alertReceived alert.description), s)

/-- `check_aligned_handshake`. -/
def checkAlignedHandshake (s : CommonState κ) :
    Outcome (Except HandleError Unit × CommonState κ) :=
  if !s.alignedHandshake then s.failWith aead fuel unexpectedMessage .keyEpochWithPendingFragment
  else .ret (.ok (), s)

/-- `should_update_key`. -/
def shouldUpdateKey (s : CommonState κ) (request : UInt8) :
    Outcome (Except HandleError Bool × CommonState κ) :=
  if request = 0 then .ret (.ok false, s)
  else if request = 1 then .ret (.ok s.queuedKeyUpdateMessage.isNone, s)
  else s.failWith aead fuel illegalParameter .invalidKeyUpdate

end CommonState

/-! ## Connections -/

/-- The states of a connection, with their messages. -/
structure Handler (τ κ ν : Type) where
  parser : BodyParser ν
  /-- `State::handle`. -/
  handle : CommonState κ → τ → MessagePayload ν →
    Outcome (Except HandleError τ × CommonState κ)

structure ConnectionCore (τ κ : Type) where
  state : Except ConnectionError τ
  commonState : CommonState κ
  messageDeframer : MessageDeframer

/-- The alert that `deframe` sends. -/
def alertFor : Deframer.Error → Option UInt8
  | .invalidEmptyPayload | .messageTooLarge | .invalidContentType | .unknownProtocolVersion
  | .handshakePayloadTooLarge => some decodeError
  | e =>
    if e = peerSentOversizedRecord then some recordOverflow
    else if e = decryptError then some badRecordMac
    else none

section Process

variable {τ κ : Type} (aead : Aead κ) (fuel : Nat) (h : Handler τ κ ν)

/-- The message by which the peer would ask for another handshake. -/
def rejectTy : Side → UInt8
  | .client => helloRequest
  | .server => clientHello

/-- `process_main_protocol`. -/
def CommonState.processMainProtocol (s : CommonState κ) (msg : MessagePayload ν) (state : τ) :
    Outcome (Except ConnectionError τ × CommonState κ) :=
  if s.mayReceiveApplicationData ∧ !s.isTls13 ∧ msg.isHandshakeType (rejectTy s.side) then do
    let s ← s.sendWarningAlertNoLog aead fuel noRenegotiation
    return (.ok state, s)
  else do
    let (result, s) ← h.handle s state msg
    match result with
    | .ok next => return (.ok next, s)
    | .error (.inappropriateMessage expectTypes gotType) =>
      s.failWith aead fuel unexpectedMessage (.handle (.inappropriateMessage expectTypes gotType))
    | .error (.inappropriateHandshakeMessage expectTypes gotType) =>
      s.failWith aead fuel unexpectedMessage
        (.handle (.inappropriateHandshakeMessage expectTypes gotType))
    | .error e => return (.error (.handle e), s)

/-- `process_msg`. -/
def CommonState.processMsg (s : CommonState κ) (msg : PlainMessage) (state : τ) :
    Outcome (Except ConnectionError τ × CommonState κ) :=
  if msg.typ = .changeCipherSpec ∧ !s.mayReceiveApplicationData ∧ s.isTls13 then
    if !isValidCcs msg ∨ tls13MaxDroppedCcs < s.receivedMiddleboxCcs then
      s.failWith aead fuel unexpectedMessage .illegalMiddleboxChangeCipherSpec
    else .ret (.ok state, { s with receivedMiddleboxCcs := s.receivedMiddleboxCcs + 1 })
  else
    match MessagePayload.new h.parser msg with
    | .error e => s.failWith aead fuel decodeError (.invalidMessage e)
    | .ok (.alert alert) => do
      let (result, s) ← s.processAlert aead fuel alert
      return (result.map fun _ => state, s)
    | .ok payload => s.processMainProtocol aead fuel h payload state

namespace ConnectionCore

/-- What `deframe` does with a message, or an error, of the deframer. -/
def deframed (s : ConnectionCore τ κ) :
    Except Deframer.Error (Option Deframer.Deframed) →
      Outcome (Except ConnectionError (Option PlainMessage) × ConnectionCore τ κ)
  | .ok none => .ret (.ok none, s)
  | .ok (some d) =>
    let recordLayer :=
      if d.trialDecryptionFinished then s.commonState.recordLayer.finishTrialDecryption
      else s.commonState.recordLayer
    .ret (.ok (some d.message),
      { s with commonState := { s.commonState with recordLayer, alignedHandshake := d.aligned } })
  | .error e =>
    match alertFor e with
    | some desc => do
      let commonState ← s.commonState.sendFatalAlert aead fuel desc
      return (.error (.deframe e), { s with commonState })
    | none => .ret (.error (.deframe e), s)

def deframe (s : ConnectionCore τ κ) :
    Outcome (Except ConnectionError (Option PlainMessage) × ConnectionCore τ κ) := do
  let t ← Deframer.pop (RecordLayer.forDeframer aead) s.commonState.negotiatedVersion
    s.messageDeframer s.commonState.recordLayer
  { s with
    messageDeframer := t.deframer
    commonState := { s.commonState with recordLayer := t.layer } }.deframed aead fuel t.result

/-- The loop of `process_new_packets`, with the state that has been taken out, and the messages
    that it takes from the deframer. -/
def processMessages : Nat → ConnectionCore τ κ → τ →
    Outcome (Except ConnectionError IoState × ConnectionCore τ κ × List PlainMessage)
  | 0, _, _ => .diverge
  | budget + 1, s, state => do
    let (result, s) ← s.deframe aead fuel
    match result with
    | .error e => return (.error e, s, [])
    | .ok none => return (.ok s.commonState.currentIoState, { s with state := .ok state }, [])
    | .ok (some msg) =>
      let (result, commonState) ← s.commonState.processMsg aead fuel h msg state
      match result with
      | .error e => return (.error e, { s with commonState, state := .error e }, [msg])
      | .ok state =>
        let (result, s, msgs) ← processMessages budget { s with commonState } state
        return (result, s, msg :: msgs)

/-- `process_new_packets`. -/
def processNewPackets (s : ConnectionCore τ κ) :
    Outcome (Except ConnectionError IoState × ConnectionCore τ κ × List PlainMessage) :=
  match s.state with
  | .error e => .ret (.error e, s, [])
  | .ok state =>
    processMessages aead fuel h (s.messageDeframer.used + 1)
      { s with state := .error .handshakeNotComplete } state

end ConnectionCore

end Process

/-! ## The traffic states of TLS 1.3 -/

/-- `KeyScheduleTraffic`, with the secrets that change. -/
structure KeyScheduleTraffic (S : Type) where
  currentClientTrafficSecret : S
  currentServerTrafficSecret : S
  deriving DecidableEq

namespace KeyScheduleTraffic

variable {S : Type}

def current (k : KeyScheduleTraffic S) : Side → S
  | .client => k.currentClientTrafficSecret
  | .server => k.currentServerTrafficSecret

def set (k : KeyScheduleTraffic S) (secret : S) : Side → KeyScheduleTraffic S
  | .client => { k with currentClientTrafficSecret := secret }
  | .server => { k with currentServerTrafficSecret := secret }

end KeyScheduleTraffic

/-- `Side::peer`. -/
def Side.peer : Side → Side
  | .client => .server
  | .server => .client

/-- `ExpectTraffic`; a client's session storage has been given `tickets`. -/
structure ExpectTraffic (S ν : Type) where
  keySchedule : KeyScheduleTraffic S
  tickets : List ν
  deriving DecidableEq

namespace ExpectTraffic

variable {S κ : Type} (aead : Aead κ) (ks : KeySchedule S κ) (fuel : Nat)

/-- `update_decrypter`. -/
def updateDecrypter (t : ExpectTraffic S ν) (s : CommonState κ) :
    ExpectTraffic S ν × CommonState κ :=
  let secret := ks.deriveNext (t.keySchedule.current s.side.peer)
  ({ t with keySchedule := t.keySchedule.set secret s.side.peer },
    { s with recordLayer := s.recordLayer.setMessageDecrypter (ks.trafficKey secret) })

/-- `handle_key_update`. -/
def handleKeyUpdate (t : ExpectTraffic S ν) (s : CommonState κ) (request : UInt8) :
    Outcome (Except HandleError (ExpectTraffic S ν) × CommonState κ) := do
  let (aligned, s) ← s.checkAlignedHandshake aead fuel
  match aligned with
  | .error e => return (.error e, s)
  | .ok _ =>
    let (update, s) ← s.shouldUpdateKey aead fuel request
    match update with
    | .error e => return (.error e, s)
    | .ok update =>
      if update then
        let (secret, s) ← s.updateEncrypterAndNotify aead ks (t.keySchedule.current s.side)
        let (t, s) := { t with keySchedule := t.keySchedule.set secret s.side }.updateDecrypter ks s
        return (.ok t, s)
      else
        let (t, s) := t.updateDecrypter ks s
        return (.ok t, s)

/-- `inappropriate_handshake_message`. -/
def inappropriateHandshakeMessage (payload : MessagePayload ν) (contentTypes : List ContentType)
    (handshakeTypes : List UInt8) : HandleError :=
  match payload with
  | .handshake parsed _ => .inappropriateHandshakeMessage handshakeTypes parsed.typ
  | payload => .inappropriateMessage contentTypes payload.contentType

/-- `handle_new_ticket_tls13`. -/
def handleNewTicketTls13 (hasDuplicateExtension : ν → Bool) (t : ExpectTraffic S ν)
    (s : CommonState κ) (ticket : ν) :
    Outcome (Except HandleError (ExpectTraffic S ν) × CommonState κ) :=
  if hasDuplicateExtension ticket then
    s.failWith aead fuel illegalParameter .duplicateNewSessionTicketExtensions
  else .ret (.ok { t with tickets := t.tickets ++ [ticket] }, s)

/-- The traffic state of a client. -/
def client (parser : BodyParser ν) (hasDuplicateExtension : ν → Bool) :
    Handler (ExpectTraffic S ν) κ ν where
  parser := parser
  handle := fun s t msg =>
    match msg with
    | .applicationData payload => .ret (.ok t, s.takeReceivedPlaintext payload)
    | .handshake ⟨_, .newSessionTicketTls13 ticket⟩ _ =>
      t.handleNewTicketTls13 aead fuel hasDuplicateExtension s ticket
    | .handshake ⟨_, .keyUpdate request⟩ _ => t.handleKeyUpdate aead ks fuel s request
    | payload => .ret (.error (inappropriateHandshakeMessage payload [.applicationData, .handshake]
        [newSessionTicket, keyUpdate]), s)

/-- The traffic state of a server. -/
def server (parser : BodyParser ν) : Handler (ExpectTraffic S ν) κ ν where
  parser := parser
  handle := fun s t msg =>
    match msg with
    | .applicationData payload => .ret (.ok t, s.takeReceivedPlaintext payload)
    | .handshake ⟨_, .keyUpdate request⟩ _ => t.handleKeyUpdate aead ks fuel s request
    | payload => .ret (.error (inappropriateHandshakeMessage payload [.applicationData, .handshake]
        [keyUpdate]), s)

end ExpectTraffic

/-! ## Calls -/

structure Connection (τ κ : Type) where
  core : ConnectionCore τ κ
  /-- No call has panicked or got stuck. -/
  alive : Bool

namespace Connection

inductive Event where
  /-- `read_tls`, from a reader that writes `data`, as far as there is room, and returns so many
      bytes, or an error. -/
  | readTls (data : List UInt8) (result : Option Nat)
  | processNewPackets
  /-- `Reader::read`, into a buffer of so many bytes. -/
  | read (room : Nat)
  /-- `Writer::write`. -/
  | write (data : List UInt8)
  | sendCloseNotify
  | setBufferLimit (limit : Option Nat)
  /-- `write_tls`, with what the socket returns. -/
  | writeTls (result : Option Nat)
  deriving DecidableEq

inductive Effect where
  /-- `read_tls` has returned that there is too much plaintext. -/
  | plaintextFull
  /-- `read_tls` has called the deframer. -/
  | deframer (effect : Deframer.Effect)
  /-- A message has come from the deframer. -/
  | message (msg : PlainMessage)
  /-- `process_new_packets` has returned. -/
  | processed (result : Except ConnectionError IoState)
  /-- `Reader::read`, into a buffer of so many bytes, has returned these. -/
  | read (room : Nat) (bytes : List UInt8)
  /-- `Reader::read` has returned `UnexpectedEof`. -/
  | unexpectedEof
  /-- `Reader::read` has returned `WouldBlock`. -/
  | wouldBlock
  /-- A call of the sending half. -/
  | send (effect : SendEffect)
  | panicked
  /-- The call does not return. -/
  | hung
  deriving DecidableEq

variable {τ κ : Type}

/-- What a call leaves, if it returns. -/
def after {α : Type} (s : Connection τ κ) (call : Outcome α)
    (k : α → Connection τ κ × List Effect) : Connection τ κ × List Effect :=
  match call with
  | .ret a => k a
  | .panic => ({ s with alive := false }, [.panicked])
  | .diverge => ({ s with alive := false }, [.hung])

/-- The connection with another common state. -/
def withCommon (s : Connection τ κ) (commonState : CommonState κ) : Connection τ κ :=
  { s with core := { s.core with commonState } }

/-- `read_tls`; `none` if no reader can have returned `result`. -/
def readTls (s : Connection τ κ) (data : List UInt8) (result : Option Nat) :
    Option (Connection τ κ × List Effect) :=
  if s.core.commonState.receivedPlaintext.isFull then some (s, [.plaintextFull])
  else
    (Deframer.State.read ⟨s.core.messageDeframer, (), s.alive⟩ data result).map fun (d, effects) =>
      let hasSeenEof := s.core.commonState.hasSeenEof || effects = [.received []]
      ({ core :=
          { s.core with
            messageDeframer := d.deframer
            commonState := { s.core.commonState with hasSeenEof } }
         alive := d.alive },
        effects.map .deframer)

/-- `Reader::read`. -/
def read (s : Connection τ κ) (room : Nat) : Connection τ κ × List Effect :=
  let common := s.core.commonState
  -- `peer_cleanly_closed`; `has_pending` is whether anything is in the deframer's buffer
  let peerCleanlyClosed := common.hasReceivedCloseNotify && s.core.messageDeframer.used = 0
  s.after (common.receivedPlaintext.read room) fun (bytes, receivedPlaintext) =>
    let s := s.withCommon { common with receivedPlaintext }
    if bytes = [] ∧ room ≠ 0 then
      if peerCleanlyClosed then (s, [.read room []])
      else if common.hasSeenEof then (s, [.unexpectedEof])
      else (s, [.wouldBlock])
    else (s, [.read room bytes])

variable (aead : Aead κ) (fuel : Nat) (h : Handler τ κ ν)

/-- One call on a connection that is alive. -/
def call (s : Connection τ κ) : Event → Option (Connection τ κ × List Effect)
  | .readTls data result => s.readTls data result
  | .processNewPackets =>
    some (s.after (s.core.processNewPackets aead fuel h) fun (result, core, msgs) =>
      ({ s with core }, msgs.map .message ++ [.processed result]))
  | .read room => some (s.read room)
  | .write data =>
    some (s.after (s.core.commonState.sendSomePlaintext aead fuel data) fun (n, common) =>
      (s.withCommon common, [.send (.accepted (data.take n))]))
  | .sendCloseNotify =>
    some (s.after (s.core.commonState.sendCloseNotify aead fuel) fun common =>
      (s.withCommon common, []))
  | .setBufferLimit limit => some (s.withCommon (s.core.commonState.setBufferLimit limit), [])
  | .writeTls result =>
    match s.core.commonState.sendableTls.writeTo result with
    | some (some bytes, sendableTls) =>
      some (s.withCommon { s.core.commonState with sendableTls }, [.send (.wrote bytes)])
    | some (none, sendableTls) =>
      some (s.withCommon { s.core.commonState with sendableTls }, [.send .writeFailed])
    | none => none

def step (s : Connection τ κ) (e : Event) : Option (Connection τ κ × List Effect) :=
  if s.alive then s.call aead fuel h e else none

end Connection

end Fogged.Native.Tls
