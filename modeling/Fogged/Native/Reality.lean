import Fogged.Native.ClientHello

/-!
# Reality authentication (`orcax/transport/src/reality.rs`, `rustls-fork/rustls/src/reality.rs`)

A Reality client hides who it is in the session id of its ClientHello: 16 bytes of
version, time and short id, sealed with AES-256-GCM under a key that both sides
derive from the key share, the whole message with the session id zeroed being the
associated data. The client side is part of the patched TLS library, the server
side of the transport crate; each zeroes the session id in its own way.

The two AES-256-GCM implementations come from other crates and are a parameter,
`AesGcm`; so are the clocks.
-/

namespace Fogged.Native.Reality

open Fogged.Native.Handshake Fogged.Native.ClientHello

/-- AES-256-GCM: `seal_in_place_append_tag` of `ring` on the client and `decrypt` of
    `aes_gcm` on the server. -/
structure AesGcm where
  /-- Ciphertext, then tag. -/
  encrypt : (key : Key) → (nonce : Nonce) → (aad plaintext : List UInt8) → Option (List UInt8)
  /-- Encryption fails only beyond the block counter's range. -/
  encrypt_isSome : ∀ key nonce aad plaintext, plaintext.length / 16 < 2 ^ 32 - 2 →
    (encrypt key nonce aad plaintext).isSome
  /-- The tag has 16 bytes. -/
  length_encrypt : ∀ key nonce aad plaintext sealed,
    encrypt key nonce aad plaintext = some sealed → sealed.length = plaintext.length + 16
  decrypt : (key : Key) → (nonce : Nonce) → (aad sealed : List UInt8) → Option (List UInt8)
  /-- Decryption with the same key, nonce and associated data undoes encryption. -/
  decrypt_encrypt : ∀ key nonce aad plaintext sealed,
    encrypt key nonce aad plaintext = some sealed → decrypt key nonce aad sealed = some plaintext

/-- `bytes[lo..lo + n]` as an array. -/
def window (lo n : Nat) (bytes : List UInt8) (h : lo + n ≤ bytes.length) : List.Vector UInt8 n :=
  ⟨(bytes.drop lo).take n, by rw [List.length_take, List.length_drop]; omega⟩

/-- `for b in &mut bytes[lo..hi] { *b = 0; }`. -/
def zeroRange (lo hi : Nat) (bytes : List UInt8) : List UInt8 :=
  bytes.take lo ++ List.replicate (hi - lo) 0 ++ bytes.drop hi

/-! ## Keys and short ids -/

/-- The salt: the first 20 bytes of the client's random. -/
def salt (random : List.Vector UInt8 32) : List UInt8 := random.toList.take 20

/-- The nonce: the other 12. -/
def nonceOf (random : List.Vector UInt8 32) : Nonce := random.drop 20

/-- Derive the key of both sides from the exchange and the client's random. -/
def deriveAuthKey (lib : Crypto) (privateKey clientPublic : Key)
    (clientRandom : List.Vector UInt8 32) : Outcome Key :=
  let sharedSecret := lib.diffieHellman privateKey clientPublic
  match lib.hkdfExpand (salt clientRandom) sharedSecret.toList (ascii "REALITY") 32 with
  | some authKey => .ret authKey
  | none => .panic

/-- A short id of up to 8 bytes, filled up with zeros. -/
def padShortId (shortId : List UInt8) : List.Vector UInt8 8 :=
  ⟨shortId.take 8 ++ List.replicate (8 - shortId.length) 0, by
    rw [List.length_append, List.length_take, List.length_replicate]; omega⟩

/-! ## Client -/

/-- The client's configuration, as far as the session id depends on it. -/
structure RealityClientConfig where
  shortId : List UInt8

/-- `Error::General` of the TLS library. -/
inductive SealError where
  | key
  | encryption
  deriving DecidableEq

/-- Version 0, the time in seconds and the short id. -/
def authPlaintext (config : RealityClientConfig) (now : UInt64) : List UInt8 :=
  List.replicate 4 0 ++ Bytes.toBE 4 now.toUInt32.toNat ++ (padShortId config.shortId).toList

/-- Encrypt the session id with the derived key. `now` is the client's clock. -/
def encryptSessionIdWithKey (aes : AesGcm) (config : RealityClientConfig) (authKey : Key)
    (clientRandom : List.Vector UInt8 32) (rawHello : List UInt8) (sessionIdOffset : Nat)
    (now : UInt64) : Outcome (Except SealError (List.Vector UInt8 32)) :=
  let aad :=
    if rawHello.length > sessionIdOffset + 32 then
      zeroRange sessionIdOffset (sessionIdOffset + 32) rawHello
    else rawHello
  -- `UnboundKey::new` checks the length of the key
  match newFromSlice authKey.toList with
  | none => .ret (.error .key)
  | some key =>
    match aes.encrypt key (nonceOf clientRandom) aad (authPlaintext config now) with
    | none => .ret (.error .encryption)
    | some sessionId =>
      -- `result.copy_from_slice(&session_id[..32])`
      if h : 0 + 32 ≤ sessionId.length then .ret (.ok (window 0 32 sessionId h)) else .panic

/-! ## Server -/

/-- Reality server configuration, without the fallback destination. -/
structure RealityConfig where
  privateKey : Key
  shortIds : List (List.Vector UInt8 8)
  serverNames : List Text
  /-- Maximum time drift in seconds. -/
  maxTimeDiff : UInt64

/-- Decoded authentication payload. -/
structure RealityAuth where
  version : List.Vector UInt8 4
  timestamp : UInt32
  shortId : List.Vector UInt8 8
  deriving DecidableEq

/-- Why a ClientHello is not authenticated. -/
inductive RealityError where
  | sni (sni : Text)
  | noKeyShare
  | hkdf
  | sessionIdLength (length : Nat)
  | aadTooShort
  | keyInit
  | decryption
  | plaintextTooShort (length : Nat)
  | shortId
  | drift (diff : UInt32) (max : UInt64)
  deriving DecidableEq

/-- The checks on a decrypted payload. `now` is the server's clock. -/
def checkPayload (config : RealityConfig) (plaintext : List UInt8) (now : UInt64) :
    Except RealityError RealityAuth :=
  if h : 16 ≤ plaintext.length then
    let version := window 0 4 plaintext (by omega)
    let timestamp := UInt32.ofNat (Bytes.ofBE (window 4 4 plaintext (by omega)).toList)
    let shortId := window 8 8 plaintext (by omega)
    if shortId ∉ config.shortIds then .error .shortId
    else
      let now := now.toUInt32
      let diff := if now > timestamp then now - timestamp else timestamp - now
      if diff > config.maxTimeDiff.toUInt32 then .error (.drift diff config.maxTimeDiff)
      else .ok { version, timestamp, shortId }
  else .error (.plaintextTooShort plaintext.length)

/-- Verify a Reality ClientHello. -/
def verifyClientHello (lib : Crypto) (aes : AesGcm) (config : RealityConfig)
    (info : ClientHelloInfo) (now : UInt64) : Except RealityError RealityAuth :=
  let sni := info.sni.getD []
  if sni ∉ config.serverNames then .error (.sni sni)
  else
    match info.x25519Key with
    | none => .error .noKeyShare
    | some clientPublic =>
      let sharedSecret := lib.diffieHellman config.privateKey clientPublic
      match lib.hkdfExpand (salt info.random) sharedSecret.toList (ascii "REALITY") 32 with
      | none => .error .hkdf
      | some authKey =>
        if info.sessionId.length ≠ 32 then .error (.sessionIdLength info.sessionId.length)
        else if info.raw.length < info.sessionIdOffset + 32 then .error .aadTooShort
        else
          let aad := zeroRange info.sessionIdOffset (info.sessionIdOffset + 32) info.raw
          match newFromSlice authKey.toList with
          | none => .error .keyInit
          | some key =>
            match aes.decrypt key (nonceOf info.random) aad info.sessionId with
            | none => .error .decryption
            | some plaintext => checkPayload config plaintext now

end Fogged.Native.Reality
