import Mathlib.Data.Vector.Basic
import Fogged.ForStd.Bytes
import Fogged.ForStd.Hex
import Fogged.ForStd.Outcome

/-!
# The OrcaX handshake (`orcax/transport/src/handshake.rs`)

The client proves who it is with one message of 72 bytes,

  `[ephemeral_pub: 32] [ciphertext: 24] [tag: 16]`,

whose plaintext is the user's id and the time. Both sides derive key and nonce
from an x25519 exchange between the client's ephemeral and the server's static
key. The cryptography comes from other crates and is a parameter, `Crypto`, with
the laws that its documentation promises; so are the random keys and the clocks.
A text is its UTF-8 bytes.
-/

namespace Fogged.Native.Handshake

/-- A `str`, as its UTF-8 bytes. -/
abbrev Text := List UInt8

/-- The bytes of an ASCII literal. -/
def ascii (s : String) : Text := s.toList.map fun c => UInt8.ofNat c.toNat

/-- An x25519 or ChaCha20-Poly1305 key, `[u8; 32]`. -/
abbrev Key := List.Vector UInt8 32

/-- A ChaCha20-Poly1305 nonce. -/
abbrev Nonce := List.Vector UInt8 12

/-- A Poly1305 tag. -/
abbrev Tag := List.Vector UInt8 16

/-- The third-party functions behind the handshake. -/
structure Crypto where
  /-- `x25519_dalek::PublicKey::from(&secret)`. -/
  publicKey : Key → Key
  /-- `secret.diffie_hellman(&public)`. -/
  diffieHellman : Key → Key → Key
  /-- Both parties of an exchange arrive at the same secret. -/
  diffieHellman_comm : ∀ a b, diffieHellman a (publicKey b) = diffieHellman b (publicKey a)
  /-- `Hkdf::<Sha256>::new(Some(salt), ikm).expand(info, ..)` into `n` bytes. -/
  hkdfExpand : (salt ikm info : List UInt8) → (n : Nat) → Option (List.Vector UInt8 n)
  /-- The expansion fails only beyond 255 hash lengths. -/
  hkdfExpand_isSome : ∀ salt ikm info n, n ≤ 255 * 32 → (hkdfExpand salt ikm info n).isSome
  /-- ChaCha20-Poly1305, `encrypt_in_place_detached`: ciphertext and tag. -/
  encrypt : {n : Nat} → (key : Key) → (nonce : Nonce) → (aad : List UInt8) →
    (plaintext : List.Vector UInt8 n) → Option (List.Vector UInt8 n × Tag)
  /-- Encryption fails only beyond the block counter's range. -/
  encrypt_isSome : ∀ {n : Nat} key nonce aad (plaintext : List.Vector UInt8 n),
    n / 64 < 2 ^ 32 - 1 → (encrypt key nonce aad plaintext).isSome
  /-- ChaCha20-Poly1305, `decrypt_in_place_detached`. -/
  decrypt : {n : Nat} → (key : Key) → (nonce : Nonce) → (aad : List UInt8) →
    (ciphertext : List.Vector UInt8 n) → (tag : Tag) → Option (List.Vector UInt8 n)
  /-- Decryption with the same key and nonce undoes encryption. -/
  decrypt_encrypt : ∀ {n : Nat} key nonce aad (plaintext ciphertext : List.Vector UInt8 n) tag,
    encrypt key nonce aad plaintext = some (ciphertext, tag) →
      decrypt key nonce aad ciphertext tag = some plaintext
  /-- `base64::engine::general_purpose::URL_SAFE_NO_PAD.decode`. -/
  base64Decode : Text → Option (List UInt8)

/-- `ChaCha20Poly1305::new_from_slice`, which checks the length of the key. -/
def newFromSlice (key : List UInt8) : Option Key :=
  if h : key.length = 32 then some ⟨key, h⟩ else none

/-- Max time drift allowed (seconds). -/
def maxTimeDrift : UInt64 := 15

/-- Why the server turns a client away. -/
inductive HandshakeError where
  | hkdfExpand
  | cipherInit
  | badSize
  | decryption
  | drift (seconds : UInt64)
  deriving DecidableEq

/-- Server-side configuration: the static private key. -/
structure HandshakeConfig where
  staticKey : Key

/-- Result of a successful server-side handshake. -/
structure HandshakeResult where
  /-- The authenticated user id, in 8-4-4-4-12 format. -/
  uuid : Text
  serverEphemeralPub : Key
  deriving DecidableEq

/-- The user id as text. -/
def formatUuid (uuidBytes : List UInt8) : Text :=
  let uuidHex := Hex.encode uuidBytes
  let slice (lo hi : Nat) := (uuidHex.drop lo).take (hi - lo)
  slice 0 8 ++ [0x2D] ++ slice 8 12 ++ [0x2D] ++ slice 12 16 ++ [0x2D] ++ slice 16 20 ++ [0x2D] ++
    slice 20 32

/-- The server side. `now` is the server's clock and `serverSecret` the ephemeral
    key it draws. -/
def serverHandshake (lib : Crypto) (config : HandshakeConfig) (clientEphemeralPub : Key)
    (encryptedPayload : List UInt8) (now : UInt64) (serverSecret : Key) :
    Except HandshakeError HandshakeResult :=
  -- 1. ECDH: server_static * client_ephemeral
  let sharedSecret := lib.diffieHellman config.staticKey clientEphemeralPub
  -- 2. 32-byte key and 12-byte nonce
  match lib.hkdfExpand (ascii "orcax-v2") sharedSecret.toList (ascii "ORCAX-AUTH-V2") 44 with
  | none => .error .hkdfExpand
  | some keyMaterial =>
    let nonce : Nonce := keyMaterial.drop 32
    match newFromSlice (keyMaterial.toList.take 32) with
    | none => .error .cipherInit
    | some cipher =>
      -- 3. ciphertext(24) + tag(16)
      if h : encryptedPayload.length = 40 then
        let payload : List.Vector UInt8 40 := ⟨encryptedPayload, h⟩
        let ciphertext : List.Vector UInt8 24 := payload.take 24
        let tag : Tag := payload.drop 24
        match lib.decrypt cipher nonce [] ciphertext tag with
        | none => .error .decryption
        | some plaintext =>
          let uuidBytes := plaintext.toList.take 16
          let clientTimestamp := UInt64.ofNat (Bytes.ofBE (plaintext.toList.drop 16))
          -- 4. replay protection
          let drift :=
            if now > clientTimestamp then now - clientTimestamp else clientTimestamp - now
          if drift > maxTimeDrift then .error (.drift drift)
          else
            .ok { uuid := formatUuid uuidBytes, serverEphemeralPub := lib.publicKey serverSecret }
      else .error .badSize

/-- User id and time fill 24 bytes. -/
theorem length_plaintext (uuid : List.Vector UInt8 16) (now : UInt64) :
    (uuid.toList ++ Bytes.toBE 8 now.toNat).length = 24 := by
  simp

/-- The client side: public key and encrypted payload. `clientSecret` is the
    ephemeral key it draws and `now` its clock. -/
def clientEncryptUuid (lib : Crypto) (serverStaticPub : Key) (uuidBytes : List.Vector UInt8 16)
    (clientSecret : Key) (now : UInt64) : Outcome (Key × List UInt8) :=
  let clientPublic := lib.publicKey clientSecret
  let sharedSecret := lib.diffieHellman clientSecret serverStaticPub
  match lib.hkdfExpand (ascii "orcax-v2") sharedSecret.toList (ascii "ORCAX-AUTH-V2") 44 with
  | none => .panic
  | some keyMaterial =>
    let nonce : Nonce := keyMaterial.drop 32
    let plaintext : List.Vector UInt8 24 :=
      ⟨uuidBytes.toList ++ Bytes.toBE 8 now.toNat, length_plaintext uuidBytes now⟩
    match newFromSlice (keyMaterial.toList.take 32) with
    | none => .panic
    | some cipher =>
      match lib.encrypt cipher nonce [] plaintext with
      | none => .panic
      | some (ciphertext, tag) => .ret (clientPublic, ciphertext.toList ++ tag.toList)

end Fogged.Native.Handshake
