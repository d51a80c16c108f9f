import Fogged.ForStd.Buffer

/-!
# TLS deframer (`orcax/rustls-fork/rustls/src/msgs/deframer.rs`)

The TLS library reads from the socket into a buffer and takes records from its front. A
handshake message that is split over several records is joined in place: the decrypted
payload is written over the records it came from, and `joining_hs` says where it is, and
where the records that have not been looked at begin. The fork adds `take_pending`, by which
the client gets what is left in the buffer when it goes on with the bare socket.

Decryption is a parameter, with a state of its own. The call that QUIC uses is left out, and
with it the only way to set `quic`. `pop` reports, besides what it returns, the records that
it has taken; the loop has a step budget.
-/

namespace Fogged.Native.Deframer

/-! ## Records (`msgs/message.rs`, `enums.rs`) -/

inductive ContentType where
  | changeCipherSpec
  | alert
  | handshake
  | applicationData
  | heartbeat
  | unknown (x : UInt8)
  deriving DecidableEq

def ContentType.ofU8 (x : UInt8) : ContentType :=
  if x = 0x14 then .changeCipherSpec
  else if x = 0x15 then .alert
  else if x = 0x16 then .handshake
  else if x = 0x17 then .applicationData
  else if x = 0x18 then .heartbeat
  else .unknown x

inductive ProtocolVersion where
  | sslv2
  | sslv3
  | tlsv1_0
  | tlsv1_1
  | tlsv1_2
  | tlsv1_3
  | dtlsv1_0
  | dtlsv1_2
  | dtlsv1_3
  | unknown (high low : UInt8)
  deriving DecidableEq

def ProtocolVersion.ofBytes (high low : UInt8) : ProtocolVersion :=
  if high = 0x02 ∧ low = 0x00 then .sslv2
  else if high = 0x03 ∧ low = 0x00 then .sslv3
  else if high = 0x03 ∧ low = 0x01 then .tlsv1_0
  else if high = 0x03 ∧ low = 0x02 then .tlsv1_1
  else if high = 0x03 ∧ low = 0x03 then .tlsv1_2
  else if high = 0x03 ∧ low = 0x04 then .tlsv1_3
  else if high = 0xfe ∧ low = 0xff then .dtlsv1_0
  else if high = 0xfe ∧ low = 0xfd then .dtlsv1_2
  else if high = 0xfe ∧ low = 0xfc then .dtlsv1_3
  else .unknown high low

/-- A record, as it was received. -/
structure OpaqueMessage where
  typ : ContentType
  version : ProtocolVersion
  payload : List UInt8
  deriving DecidableEq

/-- A record, decrypted, or a joined handshake message. -/
structure PlainMessage where
  typ : ContentType
  version : ProtocolVersion
  payload : List UInt8
  deriving DecidableEq

def OpaqueMessage.intoPlainMessage (m : OpaqueMessage) : PlainMessage where
  typ := m.typ
  version := m.version
  payload := m.payload

inductive MessageError where
  | tooShortForHeader
  | tooShortForLength
  | invalidEmptyPayload
  | messageTooLarge
  | invalidContentType
  | unknownProtocolVersion
  deriving DecidableEq

/-- `MAX_PAYLOAD`. -/
def maxPayload : Nat := 16384 + 2048

/-- `MAX_WIRE_SIZE`. -/
def maxWireSize : Nat := maxPayload + 5

/-- Only versions `0x03XX`, and those with a name. -/
def acceptedVersion : ProtocolVersion → Bool
  | .unknown high _ => high = 0x03
  | _ => true

/-- `OpaqueMessage::read`, with the number of bytes read. -/
def OpaqueMessage.read : List UInt8 → Except MessageError (OpaqueMessage × Nat)
  | [] => .error .tooShortForHeader
  | t :: rest =>
    match ContentType.ofU8 t with
    | .unknown _ => .error .invalidContentType
    | typ =>
      match rest with
      | high :: low :: rest =>
        let version := ProtocolVersion.ofBytes high low
        if acceptedVersion version then
          match rest with
          | l₁ :: l₂ :: rest =>
            let len := l₁.toNat * 256 + l₂.toNat
            if typ ≠ .applicationData ∧ len = 0 then .error .invalidEmptyPayload
            else if maxPayload ≤ len then .error .messageTooLarge
            else if rest.length < len then .error .tooShortForLength
            else .ok ({ typ, version, payload := rest.take len }, 5 + len)
          | _ => .error .tooShortForHeader
        else .error .unknownProtocolVersion
      | _ => .error .tooShortForHeader

/-! ## Errors -/

inductive Error where
  | invalidEmptyPayload
  | messageTooLarge
  | invalidContentType
  | unknownProtocolVersion
  | handshakePayloadTooLarge
  | rejectedEarlyDataInterleaved
  | messageInterleaved
  /-- Other errors of the record layer. -/
  | other (code : Nat)
  deriving DecidableEq

/-- What a malformed record becomes; `none` where more bytes may help. -/
def MessageError.kind : MessageError → Option Error
  | .tooShortForHeader | .tooShortForLength => none
  | .invalidEmptyPayload => some .invalidEmptyPayload
  | .messageTooLarge => some .messageTooLarge
  | .invalidContentType => some .invalidContentType
  | .unknownProtocolVersion => some .unknownProtocolVersion

/-- The record layer, with its state `σ`. -/
structure RecordLayer (σ : Type) where
  hasDecrypted : σ → Bool
  decryptIncoming : σ → OpaqueMessage → Except Error (Option PlainMessage) × σ

/-! ## The deframer -/

structure Range where
  start : Nat
  stop : Nat
  deriving DecidableEq

def Range.len (r : Range) : Nat := r.stop - r.start

structure HandshakePayloadMeta where
  /-- The records that have been processed. -/
  message : Range
  /-- Their decrypted payload. -/
  payload : Range
  version : ProtocolVersion
  expectedLen : Option Nat
  quic : Bool
  deriving DecidableEq

structure MessageDeframer where
  lastError : Option Error
  buf : List UInt8
  joiningHs : Option HandshakePayloadMeta
  /-- What size prefix of `buf` is used. -/
  used : Nat
  deriving DecidableEq

def MessageDeframer.new : MessageDeframer where
  lastError := none
  buf := []
  joiningHs := none
  used := 0

/-- `want_close_before_decrypt` is `false` throughout. -/
structure Deframed where
  aligned : Bool
  trialDecryptionFinished : Bool
  message : PlainMessage
  deriving DecidableEq

/-- `HEADER_SIZE` of a handshake message. -/
def headerSize : Nat := 4

/-- `MAX_HANDSHAKE_SIZE`. -/
def maxHandshakeSize : Nat := 0xffff

/-- `READ_SIZE`. -/
def readSize : Nat := 4096

def payloadSize : List UInt8 → Except Error (Option Nat)
  | _ :: l₁ :: l₂ :: l₃ :: _ =>
    let len := (l₁.toNat * 256 + l₂.toNat) * 256 + l₃.toNat
    if maxHandshakeSize < len then .error .handshakePayloadTooLarge
    else .ok (some (headerSize + len))
  | _ => .ok none

/-- `set_err`. -/
def MessageDeframer.setErr (d : MessageDeframer) (e : Error) : MessageDeframer :=
  { d with lastError := some e }

def MessageDeframer.discard (d : MessageDeframer) (taken : Nat) : Outcome MessageDeframer :=
  if taken < d.used then do
    let buf ← Buffer.copyToFront d.buf taken d.used
    return { d with buf, used := d.used - taken }
  else if taken = d.used then .ret { d with used := 0 }
  else .ret d

inductive HandshakePayloadState where
  | blocked
  | complete (len : Nat)
  | more
  deriving DecidableEq

/-- The end of `append_hs`. -/
def payloadState (used : Nat) (hs : HandshakePayloadMeta) : HandshakePayloadState :=
  match hs.expectedLen with
  | some len =>
    if len ≤ hs.payload.len then .complete len
    else if hs.message.stop < used then .more else .blocked
  | none => if hs.message.stop < used then .more else .blocked

/-- `append_hs` while a message is being joined; an error leaves the payload appended. -/
def MessageDeframer.appendTo (d : MessageDeframer) (hs : HandshakePayloadMeta)
    (payload : List UInt8) (stop : Nat) :
    Outcome (Except Error HandshakePayloadState × MessageDeframer) := do
  let buf ← Buffer.write d.buf hs.payload.stop payload
  let joined := { hs with
    message := { hs.message with stop := stop }
    payload := { hs.payload with stop := hs.payload.stop + payload.length } }
  match joined.expectedLen with
  | some _ => return (.ok (payloadState d.used joined), { d with buf, joiningHs := some joined })
  | none =>
    let joinedPayload ← Buffer.slice buf joined.payload.start joined.payload.stop
    match payloadSize joinedPayload with
    | .error e => return (.error e, { d with buf, joiningHs := some joined })
    | .ok expectedLen =>
      let joined := { joined with expectedLen }
      return (.ok (payloadState d.used joined), { d with buf, joiningHs := some joined })

/-- `append_hs` otherwise; an error leaves everything as it was. -/
def MessageDeframer.appendNew (d : MessageDeframer) (version : ProtocolVersion)
    (payload : List UInt8) (stop : Nat) :
    Outcome (Except Error HandshakePayloadState × MessageDeframer) :=
  match payloadSize payload with
  | .error e => .ret (.error e, d)
  | .ok expectedLen => do
    let buf ← Buffer.write d.buf 0 payload
    let joined :=
      { message := ⟨0, stop⟩, payload := ⟨0, payload.length⟩, version, expectedLen, quic := false }
    return (.ok (payloadState d.used joined), { d with buf, joiningHs := some joined })

def MessageDeframer.appendHs (d : MessageDeframer) (version : ProtocolVersion)
    (payload : List UInt8) (stop : Nat) :
    Outcome (Except Error HandshakePayloadState × MessageDeframer) :=
  match d.joiningHs with
  | some hs => d.appendTo hs payload stop
  | none => d.appendNew version payload stop

/-- How an iteration of the loop in `pop` ends. -/
inductive Flow where
  | done (result : Except Error (Option Deframed))
  /-- `break len`. -/
  | complete (len : Nat)
  | next
  deriving DecidableEq

/-- What an iteration, or a call, leaves; `taken` are the records that it has taken. -/
structure Turn (σ : Type) (ρ : Type) where
  result : ρ
  deframer : MessageDeframer
  layer : σ
  taken : List (List UInt8)

section Pop

variable {σ : Type} (rl : RecordLayer σ) (negotiated : Option ProtocolVersion)

/-- `allowed_plaintext`. -/
def allowedPlaintext (layer : σ) (m : OpaqueMessage) : Bool :=
  match m.typ with
  | .changeCipherSpec => true
  | .alert => negotiated = some .tlsv1_3 && !rl.hasDecrypted layer && m.payload.length ≤ 2
  | _ => false

/-- A record that decrypts to `msg`, which ends at `stop`. -/
def decrypted (d : MessageDeframer) (layer : σ) (record : List UInt8) (stop : Nat)
    (msg : PlainMessage) : Outcome (Turn σ Flow) :=
  if d.joiningHs.isSome ∧ msg.typ ≠ .handshake then
    .ret ⟨.done (.error .messageInterleaved), d.setErr .messageInterleaved, layer, []⟩
  else if msg.typ ≠ .handshake then do
    let d ← d.discard stop
    return ⟨.done (.ok (some ⟨true, false, msg⟩)), d, layer, [record]⟩
  else do
    let (state, d') ← d.appendHs msg.version msg.payload stop
    match state with
    | .error e =>
      -- only what is being joined has taken the record
      return ⟨.done (.error e), d', layer, if d.joiningHs.isSome then [record] else []⟩
    | .ok .blocked => return ⟨.done (.ok none), d', layer, [record]⟩
    | .ok (.complete len) => return ⟨.complete len, d', layer, [record]⟩
    | .ok .more => return ⟨.next, d', layer, [record]⟩

/-- The record at `start`. -/
def popRecord (d : MessageDeframer) (layer : σ) (start : Nat) : Outcome (Turn σ Flow) := do
  let input ← Buffer.slice d.buf start d.used
  match OpaqueMessage.read input with
  | .error err =>
    match err.kind with
    | none => return ⟨.done (.ok none), d, layer, []⟩
    | some e => return ⟨.done (.error e), d.setErr e, layer, []⟩
  | .ok (m, n) =>
    let record := input.take n
    if d.joiningHs.isNone ∧ allowedPlaintext rl negotiated layer m then
      let d ← d.discard (start + n)
      return ⟨.done (.ok (some ⟨true, false, m.intoPlainMessage⟩)), d, layer, [record]⟩
    else
      match rl.decryptIncoming layer m with
      | (.error e, layer) => return ⟨.done (.error e), d, layer, []⟩
      | (.ok none, layer) =>
        if d.joiningHs.isSome then
          return ⟨.done (.error .rejectedEarlyDataInterleaved),
            d.setErr .rejectedEarlyDataInterleaved, layer, []⟩
        else
          let d ← d.discard (start + n)
          return ⟨.next, d, layer, [record]⟩
      | (.ok (some msg), layer) => decrypted d layer record (start + n) msg

/-- One iteration of the loop. -/
def popBody (d : MessageDeframer) (layer : σ) : Outcome (Turn σ Flow) :=
  match d.joiningHs with
  | none => popRecord rl negotiated d layer 0
  | some hs =>
    match hs.expectedLen with
    | some len =>
      if len ≤ hs.payload.len then .ret ⟨.complete len, d, layer, []⟩
      else if hs.quic then .ret ⟨.done (.ok none), d, layer, []⟩
      else popRecord rl negotiated d layer hs.message.stop
    | none =>
      if hs.quic then .ret ⟨.done (.ok none), d, layer, []⟩
      else popRecord rl negotiated d layer hs.message.stop

/-- `pop` after its loop. -/
def finish (d : MessageDeframer) (len : Nat) :
    Outcome (Except Error (Option Deframed) × MessageDeframer) :=
  match d.joiningHs with
  | none => .panic
  | some hs => do
    let payload ← Buffer.slice d.buf hs.payload.start (hs.payload.start + len)
    let message := { typ := .handshake, version := hs.version, payload }
    if len < hs.payload.len then
      let hs := { hs with payload := { hs.payload with start := hs.payload.start + len } }
      let rest ← Buffer.slice d.buf hs.payload.start hs.payload.stop
      match payloadSize rest with
      | .error e => return (.error e, { d with joiningHs := some hs })
      | .ok expectedLen =>
        return (.ok (some ⟨false, true, message⟩), { d with joiningHs := some { hs with expectedLen } })
    else
      let d ← { d with joiningHs := none }.discard hs.message.stop
      return (.ok (some ⟨true, true, message⟩), d)

/-- The loop of `pop`, and what follows it. -/
def popLoop : Nat → MessageDeframer → σ → Outcome (Turn σ (Except Error (Option Deframed)))
  | 0, _, _ => .diverge
  | fuel + 1, d, layer => do
    let t ← popBody rl negotiated d layer
    match t.result with
    | .done result => return ⟨result, t.deframer, t.layer, t.taken⟩
    | .complete len =>
      let (result, d) ← finish t.deframer len
      return ⟨result, d, t.layer, t.taken⟩
    | .next =>
      let rest ← popLoop fuel t.deframer t.layer
      return { rest with taken := t.taken ++ rest.taken }

def pop (d : MessageDeframer) (layer : σ) : Outcome (Turn σ (Except Error (Option Deframed))) :=
  match d.lastError with
  | some e => .ret ⟨.error e, d, layer, []⟩
  | none =>
    if d.used = 0 then .ret ⟨.ok none, d, layer, []⟩
    else popLoop rl negotiated (d.used + 1) d layer

end Pop

/-- `prepare_read`; `none` if the buffer is full. -/
def MessageDeframer.prepareRead (d : MessageDeframer) : Option MessageDeframer :=
  let allowMax := if d.joiningHs.isSome then maxHandshakeSize else maxWireSize
  if allowMax ≤ d.used then none
  else
    let needCapacity := min allowMax (d.used + readSize)
    if d.buf.length < needCapacity then
      some { d with buf := Buffer.resize d.buf needCapacity 0 }
    else if d.used = 0 ∨ allowMax < d.buf.length then
      some { d with buf := Buffer.resize d.buf needCapacity 0 }
    else some d

/-- How much a reader can write. -/
def MessageDeframer.room (d : MessageDeframer) : Nat := d.buf.length - d.used

/-- `take_pending`. -/
def MessageDeframer.takePending (d : MessageDeframer) : Outcome (List UInt8 × MessageDeframer) :=
  if d.used = 0 then .ret ([], d)
  else do
    let data ← Buffer.slice d.buf 0 d.used
    return (data, { d with used := 0 })

/-! ## Calls -/

inductive Event where
  /-- `read`, from a reader that writes `data`, as far as there is room, and returns so many
      bytes, or an error. -/
  | read (data : List UInt8) (result : Option Nat)
  | pop (negotiated : Option ProtocolVersion)
  | takePending
  deriving DecidableEq

inductive Effect where
  /-- Bytes have come from the socket. -/
  | received (bytes : List UInt8)
  /-- `read` has returned an error of the reader. -/
  | readFailed
  /-- `read` has returned that the buffer is full. -/
  | bufferFull
  /-- `pop` has taken a record. -/
  | took (record : List UInt8)
  | popped (result : Except Error (Option Deframed))
  /-- `take_pending` has returned. -/
  | pending (data : List UInt8)
  | panicked
  /-- The loop of `pop` does not end. -/
  | hung
  deriving DecidableEq

structure State (σ : Type) where
  deframer : MessageDeframer
  layer : σ
  /-- No call has panicked. -/
  alive : Bool

def State.new {σ : Type} (layer : σ) : State σ where
  deframer := .new
  layer := layer
  alive := true

variable {σ : Type}

/-- What a call leaves, if it returns. -/
def State.after {α : Type} (s : State σ) (call : Outcome α) (k : α → State σ × List Effect) :
    State σ × List Effect :=
  match call with
  | .ret a => k a
  | .panic => ({ s with alive := false }, [.panicked])
  | .diverge => ({ s with alive := false }, [.hung])

/-- `read`; `none` if a reader cannot have returned `result`. -/
def State.read (s : State σ) (data : List UInt8) (result : Option Nat) :
    Option (State σ × List Effect) :=
  match s.deframer.prepareRead with
  | none => some (s, [.bufferFull])
  | some d =>
    let written := data.take d.room
    match result with
    | none =>
      some (s.after (Buffer.write d.buf d.used written) fun buf =>
        ({ s with deframer := { d with buf } }, [.readFailed]))
    | some n =>
      if n ≤ written.length then
        some (s.after (Buffer.write d.buf d.used written) fun buf =>
          ({ s with deframer := { d with buf, used := d.used + n } }, [.received (written.take n)]))
      else none

/-- One call. -/
def step (rl : RecordLayer σ) (s : State σ) : Event → Option (State σ × List Effect)
  | .read data result => if s.alive then s.read data result else none
  | .pop negotiated =>
    if s.alive then
      some (s.after (pop rl negotiated s.deframer s.layer) fun t =>
        ({ s with deframer := t.deframer, layer := t.layer },
          t.taken.map Effect.took ++ [.popped t.result]))
    else none
  | .takePending =>
    if s.alive then
      some (s.after s.deframer.takePending fun (data, d) => ({ s with deframer := d }, [.pending data]))
    else none

end Fogged.Native.Deframer
