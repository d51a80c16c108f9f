import Fogged.ForStd.Bytes
import Fogged.Native.Deframer
import Mathlib.Data.Vector.Basic

/-!
# TLS record layer (`orcax/rustls-fork/rustls/src/record_layer.rs`)

Every record of an encrypted connection is sealed under the current traffic key, with a nonce
that is made from the key's IV and a sequence number; both sides count. Also here are the
record protection of TLS 1.3 (`crypto/ring/tls13.rs`, `crypto/cipher.rs`) and the wire format
of a record (`msgs/message.rs`).

The AEADs of `ring` are a parameter. What a release build does is modelled, so the
`debug_assert!`s are left out, and so is `want_close_before_decrypt`, which is `false` for
the first 2^64 - 2^16 records. The sequence numbers are `u64`; `write_seq` is increased only
after it has been compared with `SEQ_HARD_LIMIT`.
-/

namespace Fogged.Native.Tls

open Fogged.Native.Deframer (ContentType ProtocolVersion OpaqueMessage PlainMessage Error)

/-! ## Records (`msgs/message.rs`) -/

/-- `ContentType::get_u8`. -/
def typeByte : ContentType → UInt8
  | .changeCipherSpec => 0x14
  | .alert => 0x15
  | .handshake => 0x16
  | .applicationData => 0x17
  | .heartbeat => 0x18
  | .unknown x => x

/-- `ProtocolVersion::encode`. -/
def versionBytes : ProtocolVersion → List UInt8
  | .sslv2 => [0x02, 0x00]
  | .sslv3 => [0x03, 0x00]
  | .tlsv1_0 => [0x03, 0x01]
  | .tlsv1_1 => [0x03, 0x02]
  | .tlsv1_2 => [0x03, 0x03]
  | .tlsv1_3 => [0x03, 0x04]
  | .dtlsv1_0 => [0xfe, 0xff]
  | .dtlsv1_2 => [0xfe, 0xfd]
  | .dtlsv1_3 => [0xfe, 0xfc]
  | .unknown high low => [high, low]

/-- `OpaqueMessage::encode`; the length is cut to 16 bits. -/
def encode (m : OpaqueMessage) : List UInt8 :=
  typeByte m.typ :: versionBytes m.version ++ Bytes.toBE 2 m.payload.length ++ m.payload

/-- `to_unencrypted_opaque`. -/
def toUnencryptedOpaque (m : PlainMessage) : OpaqueMessage where
  typ := m.typ
  version := m.version
  payload := m.payload

/-- `MAX_FRAGMENT_LEN`. -/
def maxFragmentLen : Nat := 16384

/-- `Error::DecryptError`. -/
def decryptError : Error := .other 0

/-- `Error::PeerSentOversizedRecord`. -/
def peerSentOversizedRecord : Error := .other 1

/-- `PeerMisbehaved::IllegalTlsInnerPlaintext`. -/
def illegalTlsInnerPlaintext : Error := .other 2

/-- The loop of `unpad_tls13`, which takes bytes from the end. -/
def unpadReversed : List UInt8 → ContentType × List UInt8
  | [] => (.unknown 0, [])
  | b :: rest => if b = 0 then unpadReversed rest else (ContentType.ofU8 b, rest)

/-- `unpad_tls13`: the content type is the last byte that is not zero. -/
def unpadTls13 (v : List UInt8) : ContentType × List UInt8 :=
  let (typ, rest) := unpadReversed v.reverse
  (typ, rest.reverse)

/-- `into_tls13_unpadded_message`. -/
def intoTls13UnpaddedMessage (m : OpaqueMessage) : Except Error PlainMessage :=
  if maxFragmentLen + 1 < m.payload.length then .error peerSentOversizedRecord
  else
    let (typ, payload) := unpadTls13 m.payload
    if typ = .unknown 0 then .error illegalTlsInnerPlaintext
    else if maxFragmentLen < payload.length then .error peerSentOversizedRecord
    else .ok { typ, version := .tlsv1_3, payload }

/-! ## Record protection (`crypto/ring/tls13.rs`) -/

/-- An AEAD of `ring`, with keys `κ`. -/
structure Aead (κ : Type) where
  /-- `seal_in_place_append_tag`. -/
  sealInPlace : (key : κ) → (nonce : List.Vector UInt8 12) → (aad plaintext : List UInt8) →
    Option (List UInt8)
  /-- Encryption fails only beyond the block counter's range. -/
  seal_isSome : ∀ key nonce aad plaintext, plaintext.length / 16 < 2 ^ 32 - 2 →
    (sealInPlace key nonce aad plaintext).isSome
  /-- The tag has 16 bytes. -/
  length_seal : ∀ key nonce aad plaintext ciphertext,
    sealInPlace key nonce aad plaintext = some ciphertext →
      ciphertext.length = plaintext.length + 16
  /-- `open_in_place`. -/
  openInPlace : (key : κ) → (nonce : List.Vector UInt8 12) → (aad ciphertext : List UInt8) →
    Option (List UInt8)
  /-- Decryption with the same key, nonce and associated data undoes encryption. -/
  open_seal : ∀ key nonce aad plaintext ciphertext,
    sealInPlace key nonce aad plaintext = some ciphertext →
      openInPlace key nonce aad ciphertext = some plaintext
  /-- The plaintext is left where the ciphertext was. -/
  length_open : ∀ key nonce aad ciphertext plaintext,
    openInPlace key nonce aad ciphertext = some plaintext → plaintext.length ≤ ciphertext.length

/-- What an encrypter and a decrypter hold. -/
structure TrafficKey (κ : Type) where
  key : κ
  iv : List.Vector UInt8 12
  deriving DecidableEq

/-- `Nonce::new`: the sequence number, as 96 bits, and the IV. -/
def nonceOf (iv : List.Vector UInt8 12) (seq : Nat) : List.Vector UInt8 12 :=
  ⟨List.zipWith (· ^^^ ·) ([0, 0, 0, 0] ++ Bytes.toBE 8 seq) iv.toList, by simp⟩

/-- `make_tls13_aad`. -/
def makeTls13Aad (payloadLen : Nat) : List UInt8 := [0x17, 0x03, 0x03] ++ Bytes.toBE 2 payloadLen

section Protection

variable {κ : Type} (aead : Aead κ)

/-- `Tls13MessageEncrypter::encrypt`. -/
def encrypt (k : TrafficKey κ) (m : PlainMessage) (seq : Nat) : Option OpaqueMessage :=
  let totalLen := m.payload.length + 1 + 16
  let payload := m.payload ++ [typeByte m.typ]
  (aead.sealInPlace k.key (nonceOf k.iv seq) (makeTls13Aad totalLen) payload).map fun payload =>
    { typ := .applicationData, version := .tlsv1_2, payload }

/-- `Tls13MessageDecrypter::decrypt`. -/
def decrypt (k : TrafficKey κ) (m : OpaqueMessage) (seq : Nat) : Except Error PlainMessage :=
  if m.payload.length < 16 then .error decryptError
  else
    match aead.openInPlace k.key (nonceOf k.iv seq) (makeTls13Aad m.payload.length) m.payload with
    | none => .error decryptError
    | some payload => intoTls13UnpaddedMessage { m with payload }

end Protection

/-! ## The record layer -/

/-- `SEQ_SOFT_LIMIT`. -/
def seqSoftLimit : Nat := 0xffffffffffff0000

/-- `SEQ_HARD_LIMIT`. -/
def seqHardLimit : Nat := 0xfffffffffffffffe

inductive DirectionState where
  | invalid
  | prepared
  | active
  deriving DecidableEq

structure RecordLayer (κ : Type) where
  /-- `none` is `<dyn MessageEncrypter>::invalid()`, whose every call fails. -/
  messageEncrypter : Option (TrafficKey κ)
  messageDecrypter : Option (TrafficKey κ)
  writeSeq : Nat
  readSeq : Nat
  hasDecrypted : Bool
  encryptState : DirectionState
  decryptState : DirectionState
  trialDecryptionLen : Option Nat
  deriving DecidableEq

namespace RecordLayer

variable {κ : Type} (aead : Aead κ)

def new : RecordLayer κ where
  messageEncrypter := none
  messageDecrypter := none
  writeSeq := 0
  readSeq := 0
  hasDecrypted := false
  encryptState := .invalid
  decryptState := .invalid
  trialDecryptionLen := none

/-- `wants_close_before_encrypt`. -/
def wantsCloseBeforeEncrypt (rl : RecordLayer κ) : Bool := rl.writeSeq = seqSoftLimit

/-- `encrypt_exhausted`. -/
def encryptExhausted (rl : RecordLayer κ) : Bool := seqHardLimit ≤ rl.writeSeq

/-- `is_encrypting`. -/
def isEncrypting (rl : RecordLayer κ) : Bool := rl.encryptState = .active

/-- `encrypt_outgoing`: it panics if the key is used up, or does not work. -/
def encryptOutgoing (rl : RecordLayer κ) (plain : PlainMessage) :
    Outcome (OpaqueMessage × RecordLayer κ) :=
  if rl.encryptExhausted then .panic
  else
    match rl.messageEncrypter with
    | none => .panic
    | some k =>
      match encrypt aead k plain rl.writeSeq with
      | none => .panic
      | some em => .ret (em, { rl with writeSeq := rl.writeSeq + 1 })

/-- `doing_trial_decryption`: what is left for undecryptable records, if it is enough. -/
def doingTrialDecryption (rl : RecordLayer κ) (requested : Nat) : Option (RecordLayer κ) :=
  match rl.trialDecryptionLen with
  | some value =>
    if requested ≤ value then some { rl with trialDecryptionLen := some (value - requested) }
    else none
  | none => none

/-- `decrypt_incoming`. -/
def decryptIncoming (rl : RecordLayer κ) (encr : OpaqueMessage) :
    Except Error (Option PlainMessage) × RecordLayer κ :=
  if rl.decryptState ≠ .active then (.ok (some encr.intoPlainMessage), rl)
  else
    let plaintext : Except Error PlainMessage :=
      match rl.messageDecrypter with
      | none => .error decryptError
      | some k => decrypt aead k encr rl.readSeq
    match plaintext with
    | .ok plaintext =>
      (.ok (some plaintext), { rl with readSeq := rl.readSeq + 1, hasDecrypted := true })
    | .error err =>
      if err = decryptError then
        match rl.doingTrialDecryption encr.payload.length with
        | some rl => (.ok none, rl)
        | none => (.error err, rl)
      else (.error err, rl)

/-- `prepare_message_encrypter`. -/
def prepareMessageEncrypter (rl : RecordLayer κ) (cipher : TrafficKey κ) : RecordLayer κ :=
  { rl with messageEncrypter := some cipher, writeSeq := 0, encryptState := .prepared }

/-- `prepare_message_decrypter`. -/
def prepareMessageDecrypter (rl : RecordLayer κ) (cipher : TrafficKey κ) : RecordLayer κ :=
  { rl with messageDecrypter := some cipher, readSeq := 0, decryptState := .prepared }

/-- `start_encrypting`. -/
def startEncrypting (rl : RecordLayer κ) : RecordLayer κ := { rl with encryptState := .active }

/-- `start_decrypting`. -/
def startDecrypting (rl : RecordLayer κ) : RecordLayer κ := { rl with decryptState := .active }

/-- `set_message_encrypter`. -/
def setMessageEncrypter (rl : RecordLayer κ) (cipher : TrafficKey κ) : RecordLayer κ :=
  (rl.prepareMessageEncrypter cipher).startEncrypting

/-- `set_message_decrypter`. -/
def setMessageDecrypter (rl : RecordLayer κ) (cipher : TrafficKey κ) : RecordLayer κ :=
  { (rl.prepareMessageDecrypter cipher).startDecrypting with trialDecryptionLen := none }

/-- `set_message_decrypter_with_trial_decryption`. -/
def setMessageDecrypterWithTrialDecryption (rl : RecordLayer κ) (cipher : TrafficKey κ)
    (maxLength : Nat) : RecordLayer κ :=
  { (rl.prepareMessageDecrypter cipher).startDecrypting with trialDecryptionLen := some maxLength }

/-- `finish_trial_decryption`. -/
def finishTrialDecryption (rl : RecordLayer κ) : RecordLayer κ :=
  { rl with trialDecryptionLen := none }

/-- The record layer, as the deframer uses it. -/
def forDeframer : Deframer.RecordLayer (RecordLayer κ) where
  hasDecrypted := hasDecrypted
  decryptIncoming := decryptIncoming aead

/-! ## Calls -/

inductive Event (κ : Type) where
  | encryptOutgoing (plain : PlainMessage)
  | decryptIncoming (encr : OpaqueMessage)
  | prepareMessageEncrypter (cipher : TrafficKey κ)
  | prepareMessageDecrypter (cipher : TrafficKey κ)
  | startEncrypting
  | startDecrypting
  | setMessageEncrypter (cipher : TrafficKey κ)
  | setMessageDecrypter (cipher : TrafficKey κ)
  | setMessageDecrypterWithTrialDecryption (cipher : TrafficKey κ) (maxLength : Nat)
  | finishTrialDecryption
  deriving DecidableEq

inductive Effect (κ : Type) where
  /-- An encrypter has been installed. -/
  | installed (cipher : TrafficKey κ)
  /-- `encrypt_outgoing` has sealed this message and returned this record. -/
  | sealed (plain : PlainMessage) (em : OpaqueMessage)
  /-- `encrypt_outgoing` has panicked. -/
  | panicked
  deriving DecidableEq

/-- One call. -/
def step (rl : RecordLayer κ) : Event κ → Option (RecordLayer κ × List (Effect κ))
  | .encryptOutgoing plain =>
    match rl.encryptOutgoing aead plain with
    | .ret (em, rl') => some (rl', [.sealed plain em])
    | _ => some (rl, [.panicked])
  | .decryptIncoming encr => some ((rl.decryptIncoming aead encr).2, [])
  | .prepareMessageEncrypter cipher => some (rl.prepareMessageEncrypter cipher, [.installed cipher])
  | .prepareMessageDecrypter cipher => some (rl.prepareMessageDecrypter cipher, [])
  | .startEncrypting => some (rl.startEncrypting, [])
  | .startDecrypting => some (rl.startDecrypting, [])
  | .setMessageEncrypter cipher => some (rl.setMessageEncrypter cipher, [.installed cipher])
  | .setMessageDecrypter cipher => some (rl.setMessageDecrypter cipher, [])
  | .setMessageDecrypterWithTrialDecryption cipher maxLength =>
    some (rl.setMessageDecrypterWithTrialDecryption cipher maxLength, [])
  | .finishTrialDecryption => some (rl.finishTrialDecryption, [])

end RecordLayer

end Fogged.Native.Tls
