import Mathlib.Data.Bool.AllAny
import Fogged.Native.Tunnel
import Fogged.Spec.UserId

/-!
# Every client authenticates at the server

The server, the shared client helper and the CDN mode of the client derive keys,
lay out bytes and read user ids each in their own code. What they have to agree on
is stated once, as `sealPayload`: the payload that a shared secret makes of a
plaintext. Either client writes its public key and that payload, and the server
accepts it, whatever the keys are, as long as the clocks are 15 seconds apart at
most.

## Key results

- `clientEncryptUuid_eq`, `wsCdnModeAuthMsg_eq`: what the clients write
- `serverHandshake_sealPayload`: what the server makes of it
- `CanonicalUuid.exists_bytes`: both parsers read a canonical user id, and the server's
  text is that id again
- `clients_authenticate`: the whole exchange
- `tunnel_never_authenticates`: the library tunnel has no room for the payload
-/

namespace Fogged.Spec.Handshake

open Fogged.Native.Handshake Fogged.Native.ClientAuth Fogged.Native.Tunnel

/-! ## The sealed payload -/

/-- User id and time. -/
def authPlaintext (uuid : List.Vector UInt8 16) (now : UInt64) : List.Vector UInt8 24 :=
  ⟨uuid.toList ++ Bytes.toBE 8 now.toNat, length_plaintext uuid now⟩

/-- The server's split of the plaintext gives the user id back. -/
theorem take_authPlaintext (uuid : List.Vector UInt8 16) (now : UInt64) :
    (authPlaintext uuid now).toList.take 16 = uuid.toList :=
  List.take_left' uuid.toList_length

/-- And the time: eight bytes hold every clock reading. -/
theorem drop_authPlaintext (uuid : List.Vector UInt8 16) (now : UInt64) :
    UInt64.ofNat (Bytes.ofBE ((authPlaintext uuid now).toList.drop 16)) = now := by
  have hdrop : (authPlaintext uuid now).toList.drop 16 = Bytes.toBE 8 now.toNat :=
    List.drop_left' uuid.toList_length
  have hbound : now.toNat < 256 ^ 8 := now.toNat_lt
  rw [hdrop, Bytes.ofBE_toBE hbound, UInt64.ofNat_toNat]

/-- The payload that a shared secret makes of a plaintext: ciphertext, then tag. -/
def sealPayload (lib : Crypto) (shared : Key) (plaintext : List.Vector UInt8 24) :
    Option (List.Vector UInt8 40) := do
  let material ← lib.hkdfExpand (ascii "orcax-v2") shared.toList (ascii "ORCAX-AUTH-V2") 44
  let (ciphertext, tag) ← lib.encrypt (material.take 32) (material.drop 32) [] plaintext
  some (ciphertext ++ tag)

/-- How a payload comes about. -/
theorem sealPayload_eq_some {lib : Crypto} {shared : Key} {plaintext : List.Vector UInt8 24}
    {payload : List.Vector UInt8 40} (h : sealPayload lib shared plaintext = some payload) :
    ∃ material ciphertext tag,
      lib.hkdfExpand (ascii "orcax-v2") shared.toList (ascii "ORCAX-AUTH-V2") 44 = some material ∧
      lib.encrypt (material.take 32) (material.drop 32) [] plaintext = some (ciphertext, tag) ∧
      payload = ciphertext ++ tag := by
  simp only [sealPayload, Option.bind_eq_bind, Option.bind_eq_some_iff, Option.some.injEq] at h
  obtain ⟨material, hmaterial, ⟨ciphertext, tag⟩, hsealed, hpayload⟩ := h
  exact ⟨material, ciphertext, tag, hmaterial, hsealed, hpayload.symm⟩

/-- 44 bytes of key material and 24 of plaintext are far within the limits of the
    primitives. -/
theorem sealPayload_isSome (lib : Crypto) (shared : Key) (plaintext : List.Vector UInt8 24) :
    ∃ payload, sealPayload lib shared plaintext = some payload := by
  obtain ⟨material, hmaterial⟩ := Option.isSome_iff_exists.1
    (lib.hkdfExpand_isSome (ascii "orcax-v2") shared.toList (ascii "ORCAX-AUTH-V2") 44 (by decide))
  obtain ⟨⟨ciphertext, tag⟩, hsealed⟩ := Option.isSome_iff_exists.1
    (lib.encrypt_isSome (material.take 32) (material.drop 32) [] plaintext (by decide))
  exact ⟨ciphertext ++ tag, by simp [sealPayload, hmaterial, hsealed]⟩

/-- The key is the first 32 bytes of the key material. -/
theorem newFromSlice_take (material : List.Vector UInt8 44) :
    newFromSlice (material.toList.take 32) = some (material.take 32) := by
  rw [newFromSlice, dif_pos (by simp)]
  rfl

/-! ## The clients -/

/-- The shared helper writes the sealed payload. -/
theorem clientEncryptUuid_eq {lib : Crypto} {serverStaticPub clientSecret : Key}
    {uuid : List.Vector UInt8 16} {now : UInt64} {payload : List.Vector UInt8 40}
    (h : sealPayload lib (lib.diffieHellman clientSecret serverStaticPub)
      (authPlaintext uuid now) = some payload) :
    clientEncryptUuid lib serverStaticPub uuid clientSecret now =
      .ret (lib.publicKey clientSecret, payload.toList) := by
  obtain ⟨material, ciphertext, tag, hmaterial, hsealed, rfl⟩ := sealPayload_eq_some h
  rw [authPlaintext] at hsealed
  simp only [clientEncryptUuid, hmaterial, newFromSlice_take, hsealed]
  rfl

/-- CDN mode writes the sealed payload. -/
theorem wsCdnModeAuthMsg_eq {lib : Crypto} {args : List Text} {serverStaticPub ephSecret : Key}
    {uuid : List.Vector UInt8 16} {now : UInt64} {payload : List.Vector UInt8 40}
    (huuid : cdnUuidBytes ((arg args (ascii "--uuid")).getD []) = uuid.toList)
    (hpub : bd lib ((arg args (ascii "--pubkey")).getD []) = serverStaticPub.toList)
    (h : sealPayload lib (lib.diffieHellman ephSecret serverStaticPub)
      (authPlaintext uuid now) = some payload) :
    wsCdnModeAuthMsg lib args ephSecret now =
      .ret (.ok ((lib.publicKey ephSecret).toList ++ payload.toList)) := by
  obtain ⟨material, ciphertext, tag, hmaterial, hsealed, rfl⟩ := sealPayload_eq_some h
  rw [authPlaintext] at hsealed
  simp only [wsCdnModeAuthMsg, huuid, hpub, List.Vector.toList_length, dite_true,
    List.Vector.mk_toList, hmaterial, hsealed]
  rfl

/-! ## The server -/

/-- What the server answers to a user id and a time. -/
def verdict (lib : Crypto) (uuid : List.Vector UInt8 16) (clientNow serverNow : UInt64)
    (serverSecret : Key) : Except HandshakeError HandshakeResult :=
  let drift := if serverNow > clientNow then serverNow - clientNow else clientNow - serverNow
  if drift > maxTimeDrift then .error (.drift drift)
  else .ok { uuid := formatUuid uuid.toList, serverEphemeralPub := lib.publicKey serverSecret }

/-- The server opens what was sealed with the secret it shares. -/
theorem serverHandshake_sealPayload {lib : Crypto} {staticKey clientPub serverSecret : Key}
    {uuid : List.Vector UInt8 16} {clientNow serverNow : UInt64}
    {payload : List.Vector UInt8 40}
    (h : sealPayload lib (lib.diffieHellman staticKey clientPub)
      (authPlaintext uuid clientNow) = some payload) :
    serverHandshake lib { staticKey } clientPub payload.toList serverNow serverSecret =
      verdict lib uuid clientNow serverNow serverSecret := by
  obtain ⟨material, ciphertext, tag, hmaterial, hsealed, rfl⟩ := sealPayload_eq_some h
  have hopen := lib.decrypt_encrypt _ _ _ _ _ _ hsealed
  simp only [serverHandshake, hmaterial, newFromSlice_take, List.Vector.toList_length, dite_true,
    List.Vector.mk_toList]
  have htake : (List.Vector.take 24 (ciphertext ++ tag) : List.Vector UInt8 24) = ciphertext :=
    Subtype.ext (List.take_left' ciphertext.toList_length)
  have hdrop : (List.Vector.drop 24 (ciphertext ++ tag) : Tag) = tag :=
    Subtype.ext (List.drop_left' ciphertext.toList_length)
  rw [htake, hdrop, hopen]
  simp only [take_authPlaintext, drop_authPlaintext, verdict]

/-- The drift is the distance of the clocks, without a wrap-around. -/
theorem drift_toNat (a b : UInt64) :
    (if a > b then a - b else b - a).toNat = ((a.toNat : Int) - b.toNat).natAbs := by
  split
  · rename_i h
    have hlt : b.toNat < a.toNat := UInt64.lt_iff_toNat_lt.1 h
    rw [UInt64.toNat_sub_of_le _ _ (UInt64.le_iff_toNat_le.2 hlt.le)]
    omega
  · rename_i h
    have hle : a.toNat ≤ b.toNat := by
      rw [← UInt64.le_iff_toNat_le]
      exact UInt64.not_lt.1 h
    rw [UInt64.toNat_sub_of_le _ _ (UInt64.le_iff_toNat_le.2 hle)]
    omega

/-- Clocks at most 15 seconds apart: the user is let in. -/
theorem verdict_of_near (lib : Crypto) (uuid : List.Vector UInt8 16) {clientNow serverNow : UInt64}
    (serverSecret : Key) (h : ((serverNow.toNat : Int) - clientNow.toNat).natAbs ≤ 15) :
    verdict lib uuid clientNow serverNow serverSecret =
      .ok { uuid := formatUuid uuid.toList, serverEphemeralPub := lib.publicKey serverSecret } := by
  rw [← drift_toNat] at h
  rw [verdict, if_neg]
  apply UInt64.not_lt.2
  exact UInt64.le_iff_toNat_le.2 h

/-- Clocks further apart: the user is turned away. -/
theorem verdict_of_far (lib : Crypto) (uuid : List.Vector UInt8 16) {clientNow serverNow : UInt64}
    (serverSecret : Key) (h : 15 < ((serverNow.toNat : Int) - clientNow.toNat).natAbs) :
    ∃ drift : UInt64, drift.toNat = ((serverNow.toNat : Int) - clientNow.toNat).natAbs ∧
      verdict lib uuid clientNow serverNow serverSecret = .error (.drift drift) := by
  rw [← drift_toNat] at h
  refine ⟨_, drift_toNat serverNow clientNow, ?_⟩
  rw [verdict, if_pos]
  exact UInt64.lt_iff_toNat_lt.2 h

/-! ## User ids as text -/

/-- A canonical user id: 32 lower-case digits in groups of 8, 4, 4, 4 and 12. -/
structure CanonicalUuid where
  group1 : List.Vector UInt8 8
  group2 : List.Vector UInt8 4
  group3 : List.Vector UInt8 4
  group4 : List.Vector UInt8 4
  group5 : List.Vector UInt8 12
  isLower : ∀ b ∈ group1.toList ++ group2.toList ++ group3.toList ++ group4.toList ++ group5.toList,
    Hex.IsLower b

namespace CanonicalUuid

/-- The digits. -/
def digits (u : CanonicalUuid) : Text :=
  u.group1.toList ++ u.group2.toList ++ u.group3.toList ++ u.group4.toList ++ u.group5.toList

/-- The groups, joined by dashes. -/
def text (u : CanonicalUuid) : Text :=
  u.group1.toList ++ ascii "-" ++ u.group2.toList ++ ascii "-" ++ u.group3.toList ++ ascii "-" ++
    u.group4.toList ++ ascii "-" ++ u.group5.toList

/-- A user id has 32 digits. -/
theorem length_digits (u : CanonicalUuid) : u.digits.length = 2 * 16 := by
  simp [digits]

/-- A filter that drops dashes and keeps digits leaves the digits. -/
theorem filter_text (u : CanonicalUuid) {p : UInt8 → Bool} (hdash : p 0x2D = false)
    (hlower : ∀ b, Hex.IsLower b → p b = true) : u.text.filter p = u.digits := by
  have hkeep : u.digits.filter p = u.digits :=
    List.filter_eq_self.2 fun b hb => hlower b (u.isLower b hb)
  have hdrop : (ascii "-").filter p = [] := by
    show List.filter p [0x2D] = []
    simp [hdash]
  rw [← hkeep]
  simp only [text, digits, List.filter_append, hdrop, List.append_nil]

/-- The server's text of the bytes is the canonical one. -/
theorem formatUuid_eq (u : CanonicalUuid) {bytes : List UInt8} (h : Hex.encode bytes = u.digits) :
    formatUuid bytes = u.text := by
  have hdash : ascii "-" = [0x2D] := rfl
  simp [formatUuid, h, digits, text, hdash, List.drop_append,
    List.drop_of_length_le, List.take_of_length_le]

end CanonicalUuid

/-- The hexadecimal digits of a canonical user id. -/
theorem CanonicalUuid.digits_text (u : CanonicalUuid) : UserId.digits u.text = u.digits := by
  apply u.filter_text rfl
  intro b hb
  obtain ⟨d, hd, -⟩ := Hex.digit_of_isLower hb
  rw [isAsciiHexdigit, hd, Option.isSome_some]

/-- Written with dashes it has nothing but these. -/
theorem CanonicalUuid.digitsAndDashes (u : CanonicalUuid) : UserId.DigitsAndDashes u.text := by
  have hgroup (b : UInt8) (hb : b ∈ u.digits) : isAsciiHexdigit b = true := by
    rw [← u.digits_text] at hb
    exact (List.mem_filter.1 hb).2
  have hdash (b : UInt8) (hb : b ∈ ascii "-") : b = 0x2D := List.mem_singleton.1 hb
  intro b hb
  simp only [text, List.mem_append] at hb
  simp only [digits, List.mem_append] at hgroup
  -- five groups and four dashes
  rcases hb with (((((((hb | hb) | hb) | hb) | hb) | hb) | hb) | hb) | hb
  · exact .inl (hgroup b (by simp [hb]))
  · exact .inr (hdash b hb)
  · exact .inl (hgroup b (by simp [hb]))
  · exact .inr (hdash b hb)
  · exact .inl (hgroup b (by simp [hb]))
  · exact .inr (hdash b hb)
  · exact .inl (hgroup b (by simp [hb]))
  · exact .inr (hdash b hb)
  · exact .inl (hgroup b (by simp [hb]))

/-- Both parsers read the bytes that the server writes as the user id. -/
theorem CanonicalUuid.exists_bytes (u : CanonicalUuid) :
    ∃ uuid : List.Vector UInt8 16, parseUuid u.text = .ret uuid ∧
      cdnUuidBytes u.text = uuid.toList ∧ formatUuid uuid.toList = u.text := by
  obtain ⟨bytes, -, hread, hwrite⟩ :=
    Hex.pairs_fromStrRadix 16 u.digits u.length_digits u.isLower
  -- no piece falls back to the default
  have hbytes : UserId.bytesOf u.digits = bytes := by
    calc UserId.bytesOf u.digits
        = ((Hex.pairs u.digits).map Hex.fromStrRadix).map (·.getD 0) := by
          rw [List.map_map]
          rfl
      _ = bytes := by simp [hread]
  obtain ⟨uuid, hparse, huuid⟩ :=
    UserId.parseUuid_eq_ret (s := u.text) (by rw [u.digits_text, u.length_digits])
  rw [u.digits_text, List.take_of_length_le (by rw [u.length_digits]), hbytes] at huuid
  have hcdn := UserId.cdnUuidBytes_of_digits u.digitsAndDashes
  rw [u.digits_text, hbytes] at hcdn
  refine ⟨uuid, hparse, ?_, ?_⟩
  · rw [hcdn, huuid]
  · rw [huuid]
    exact u.formatUuid_eq hwrite

/-! ## The exchange -/

/-- A 32-byte public key on the command line is the one TCP and QUIC mode use. -/
theorem spk_eq {lib : Crypto} {t : Text} {pub : Key} (h : lib.base64Decode t = some pub.toList) :
    spk lib (some t) = .ret pub := by
  simp [spk, bd, h]

/-- **All clients authenticate**: given the server's public key and a canonical user
    id, TCP, QUIC and CDN mode write the same 72 bytes, and the server accepts them
    as that user exactly while its clock is at most 15 seconds from the client's. -/
theorem clients_authenticate (lib : Crypto) (serverKey clientSecret : Key) (u : CanonicalUuid)
    (args : List Text) (pubkey : Text) (clientNow : UInt64)
    (huuid : arg args (ascii "--uuid") = some u.text)
    (hpubkey : arg args (ascii "--pubkey") = some pubkey)
    (hdecode : lib.base64Decode pubkey = some (lib.publicKey serverKey).toList) :
    ∃ (eph : Key) (enc : List.Vector UInt8 40),
      connectAndAuth lib args clientSecret clientNow = .ret (eph.toList ++ enc.toList) ∧
      quicConnectAndAuth lib args clientSecret clientNow = .ret (eph.toList ++ enc.toList) ∧
      wsCdnModeAuthMsg lib args clientSecret clientNow = .ret (.ok (eph.toList ++ enc.toList)) ∧
      ∀ (serverNow : UInt64) (serverSecret : Key),
        (((serverNow.toNat : Int) - clientNow.toNat).natAbs ≤ 15 →
          serverHandshake lib { staticKey := serverKey } eph enc.toList serverNow serverSecret =
            .ok { uuid := u.text, serverEphemeralPub := lib.publicKey serverSecret }) ∧
        (15 < ((serverNow.toNat : Int) - clientNow.toNat).natAbs →
          ∃ drift : UInt64, drift.toNat = ((serverNow.toNat : Int) - clientNow.toNat).natAbs ∧
            serverHandshake lib { staticKey := serverKey } eph enc.toList serverNow serverSecret =
              .error (.drift drift)) := by
  obtain ⟨uuid, hparse, hcdn, hformat⟩ := u.exists_bytes
  obtain ⟨enc, henc⟩ := sealPayload_isSome lib
    (lib.diffieHellman clientSecret (lib.publicKey serverKey)) (authPlaintext uuid clientNow)
  -- TCP and QUIC mode build the same message
  have hauth : authMessage lib args clientSecret clientNow =
      .ret ((lib.publicKey clientSecret).toList ++ enc.toList) := by
    simp only [authMessage, huuid, hpubkey, Option.getD_some, spk_eq hdecode, hparse,
      clientEncryptUuid_eq henc, Outcome.ret_bind]
  -- and so does CDN mode
  have hws : wsCdnModeAuthMsg lib args clientSecret clientNow =
      .ret (.ok ((lib.publicKey clientSecret).toList ++ enc.toList)) := by
    apply wsCdnModeAuthMsg_eq _ _ henc
    · rw [huuid, Option.getD_some, hcdn]
    · rw [hpubkey, Option.getD_some, bd, hdecode, Option.getD_some]
  refine ⟨lib.publicKey clientSecret, enc, hauth, hauth, hws, ?_⟩
  intro serverNow serverSecret
  -- the server derives its key from the other half of the exchange
  rw [lib.diffieHellman_comm] at henc
  rw [serverHandshake_sealPayload henc, ← hformat]
  exact ⟨verdict_of_near lib uuid serverSecret, verdict_of_far lib uuid serverSecret⟩

/-! ## The library tunnel -/

/-- The tunnel logs in: it writes a message that the server with the static key
    `serverKey` accepts, as public key and payload, with the configured user id. -/
def TunnelAuthenticates (lib : Crypto) (config : TunnelConfig) (clientSecret : Key)
    (clientNow : UInt64) (reply : List UInt8) (serverKey : Key) (serverNow : UInt64)
    (serverSecret : Key) : Prop :=
  ∃ (eph : Key) (enc : List UInt8) (result : Except TunnelError Unit),
    connectOrcax lib config clientSecret clientNow reply = .ret (eph.toList ++ enc, result) ∧
    serverHandshake lib { staticKey := serverKey } eph enc serverNow serverSecret =
      .ok { uuid := formatUuid config.uuid.toList
            serverEphemeralPub := lib.publicKey serverSecret }

/-- The sealed payload has 40 bytes and the tunnel's buffer room for 16. -/
theorem connectOrcax_eq_panic (lib : Crypto) (config : TunnelConfig) (clientSecret : Key)
    (now : UInt64) (reply : List UInt8) :
    connectOrcax lib config clientSecret now reply = .panic := by
  obtain ⟨payload, hpayload⟩ := sealPayload_isSome lib
    (lib.diffieHellman clientSecret config.serverPubkey) (authPlaintext config.uuid now)
  have hkey (buf : List UInt8) (hbuf : buf.length = 48) :
      copyFromSlice buf 0 32 (lib.publicKey clientSecret).toList =
        .ret (buf.take 0 ++ (lib.publicKey clientSecret).toList ++ buf.drop 32) :=
    if_pos ⟨by decide, by omega, by simp⟩
  have hroom (buf : List UInt8) : copyFromSlice buf 32 48 payload.toList = .panic :=
    if_neg (by simp)
  simp only [connectOrcax, clientEncryptUuid_eq hpayload, Outcome.ret_bind,
    hkey _ List.length_replicate, hroom]
  rfl

/-- **The library tunnel never logs in**, whatever its configuration, the keys and
    the clocks are: copying the payload into the message panics. -/
theorem tunnel_never_authenticates (lib : Crypto) (config : TunnelConfig) (clientSecret : Key)
    (clientNow : UInt64) (reply : List UInt8) (serverKey : Key) (serverNow : UInt64)
    (serverSecret : Key) :
    connectOrcax lib config clientSecret clientNow reply = .panic ∧
      ¬ TunnelAuthenticates lib config clientSecret clientNow reply serverKey serverNow
        serverSecret := by
  have hpanic := connectOrcax_eq_panic lib config clientSecret clientNow reply
  refine ⟨hpanic, ?_⟩
  rintro ⟨eph, enc, result, hret, -⟩
  rw [hpanic] at hret
  cases hret

/-! ## A recorded exchange

The hypotheses on the cryptography hold for the bytes of a real login: x25519,
HKDF-SHA256 and ChaCha20-Poly1305 tabulated at the values that come up when a client
with the key `22…22` logs in at a server with the key `11…11`. -/

namespace Recorded

def serverKey : Key := List.Vector.replicate 32 0x11

def clientKey : Key := List.Vector.replicate 32 0x22

/-- The server's ephemeral key. -/
def ephemeralKey : Key := List.Vector.replicate 32 0x33

def serverPub : Key :=
  ⟨[0x7B, 0x4E, 0x90, 0x9B, 0xBE, 0x7F, 0xFE, 0x44, 0xC4, 0x65, 0xA2, 0x20, 0x03, 0x7D, 0x60, 0x8E,
    0xE3, 0x58, 0x97, 0xD3, 0x1E, 0xF9, 0x72, 0xF0, 0x7F, 0x74, 0x89, 0x2C, 0xB0, 0xF7, 0x3F, 0x13],
    rfl⟩

def clientPub : Key :=
  ⟨[0x0F, 0xAA, 0x68, 0x4E, 0xD2, 0x88, 0x67, 0xB9, 0x7F, 0x4A, 0x6A, 0x2D, 0xEE, 0x5D, 0xF8, 0xCE,
    0x97, 0x4E, 0x76, 0xB7, 0x01, 0x8E, 0x3F, 0x22, 0xA1, 0xC4, 0xCF, 0x26, 0x78, 0x57, 0x0F, 0x20],
    rfl⟩

def ephemeralPub : Key :=
  ⟨[0x7B, 0x0D, 0x47, 0xD9, 0x34, 0x27, 0xF8, 0x31, 0x11, 0x60, 0x78, 0x1C, 0x7C, 0x73, 0x3F, 0xD8,
    0x9F, 0x88, 0x97, 0x0A, 0xEF, 0x49, 0x0D, 0x8A, 0xA0, 0xEE, 0x19, 0xA4, 0xCB, 0x8A, 0x1B, 0x14],
    rfl⟩

def shared : Key :=
  ⟨[0x9E, 0x00, 0x40, 0x98, 0xEF, 0xC0, 0x91, 0xD4, 0xEC, 0x26, 0x63, 0xB4, 0xE9, 0xF5, 0xCF, 0xD4,
    0xD7, 0x06, 0x45, 0x71, 0x69, 0x0B, 0x4B, 0xEA, 0x97, 0xAB, 0x14, 0x6A, 0xB9, 0xF3, 0x50, 0x56],
    rfl⟩

def cipherKey : Key :=
  ⟨[0x4B, 0xE7, 0xB7, 0x9B, 0x41, 0x0A, 0xD3, 0xB5, 0x92, 0x87, 0xA2, 0xB0, 0xCB, 0x98, 0x23, 0x45,
    0x99, 0x76, 0x39, 0xA4, 0x2F, 0x20, 0x57, 0x47, 0x5F, 0xAF, 0x42, 0xBE, 0xC1, 0xDE, 0x27, 0x6C],
    rfl⟩

def nonce : Nonce :=
  ⟨[0x4E, 0x29, 0x90, 0xC2, 0xC3, 0x87, 0x1C, 0x7F, 0xA3, 0x98, 0x95, 0xFA], rfl⟩

/-- The first bytes of the key stream for `cipherKey` and `nonce`. -/
def stream : List UInt8 :=
  [0x90, 0xB8, 0x56, 0x70, 0x90, 0xA9, 0xF2, 0x32, 0xC7, 0x93, 0xC0, 0xCF, 0xAC, 0x6D, 0x5E, 0xD3,
    0x50, 0x37, 0x6E, 0xB6, 0x7C, 0x55, 0x6E, 0x1C]

/-- The client's ciphertext, sent at `1700000000`. -/
def ciphertext : List UInt8 :=
  [0x98, 0xBC, 0xE3, 0x06, 0xDD, 0x52, 0xB0, 0x78, 0x47, 0x74, 0x28, 0xDD, 0x49, 0xAC, 0x62, 0x7D,
    0x50, 0x37, 0x6E, 0xB6, 0x19, 0x06, 0x9F, 0x1C]

def tag : Tag :=
  ⟨[0xDC, 0xCF, 0x6E, 0x4F, 0x5A, 0x19, 0x8F, 0x76, 0x4B, 0x19, 0x83, 0x73, 0xF3, 0xE4, 0xAE, 0x7A],
    rfl⟩

/-- The server's public key on the command line. -/
def pubkeyText : Text := ascii "e06Qm75__kTEZaIgA31gjuNYl9Me-XLwf3SJLLD3PxM"

def publicKey (secret : Key) : Key :=
  if secret = serverKey then serverPub
  else if secret = clientKey then clientPub
  else if secret = ephemeralKey then ephemeralPub
  else List.Vector.replicate 32 0

/-- The recorded public keys belong to the recorded secrets only. -/
theorem publicKey_eq_serverPub (k : Key) : publicKey k = serverPub ↔ k = serverKey := by
  unfold publicKey
  split_ifs with h₁ h₂ h₃
  · exact iff_of_true rfl h₁
  · exact iff_of_false (by decide) h₁
  · exact iff_of_false (by decide) h₁
  · exact iff_of_false (by decide) h₁

/-- The same for the client's key. -/
theorem publicKey_eq_clientPub (k : Key) : publicKey k = clientPub ↔ k = clientKey := by
  unfold publicKey
  split_ifs with h₁ h₂ h₃
  · subst h₁
    exact iff_of_false (by decide) (by decide)
  · exact iff_of_true rfl h₂
  · exact iff_of_false (by decide) h₂
  · exact iff_of_false (by decide) h₂

def diffieHellman (secret pub : Key) : Key :=
  if secret = clientKey ∧ pub = serverPub ∨ secret = serverKey ∧ pub = clientPub then shared
  else List.Vector.replicate 32 0

/-- The key stream is added to the bytes. -/
def applyKeystream {n : Nat} (key : Key) (iv : Nonce) (bytes : List.Vector UInt8 n) :
    List.Vector UInt8 n :=
  List.Vector.ofFn fun i =>
    bytes.get i ^^^ if key = cipherKey ∧ iv = nonce then stream.getD i 0 else 0

/-- The key stream is added twice. -/
theorem applyKeystream_twice {n : Nat} (key : Key) (iv : Nonce) (bytes : List.Vector UInt8 n) :
    applyKeystream key iv (applyKeystream key iv bytes) = bytes := by
  apply List.Vector.ext
  intro i
  simp only [applyKeystream, List.Vector.get_ofFn]
  rw [UInt8.xor_assoc, UInt8.xor_self, UInt8.xor_zero]

def mac (key : Key) (iv : Nonce) (aad sealed : List UInt8) : Tag :=
  if key = cipherKey ∧ iv = nonce ∧ aad = [] ∧ sealed = ciphertext then tag
  else List.Vector.replicate 16 0

/-- The primitives of the recorded login. -/
def crypto : Crypto where
  publicKey := publicKey
  diffieHellman := diffieHellman
  diffieHellman_comm a b := by
    simp only [diffieHellman, publicKey_eq_serverPub, publicKey_eq_clientPub]
    congr 1
    apply propext
    tauto
  hkdfExpand salt ikm info n :=
    if n ≤ 255 * 32 then
      some <| List.Vector.ofFn fun i =>
        if salt = ascii "orcax-v2" ∧ ikm = shared.toList ∧ info = ascii "ORCAX-AUTH-V2" then
          (cipherKey.toList ++ nonce.toList).getD i 0
        else 0
    else none
  hkdfExpand_isSome salt ikm info n h := by rw [if_pos h, Option.isSome_some]
  encrypt key iv aad plaintext :=
    let sealed := applyKeystream key iv plaintext
    some (sealed, mac key iv aad sealed.toList)
  encrypt_isSome key iv aad plaintext _ := rfl
  decrypt key iv aad sealed tag :=
    if tag = mac key iv aad sealed.toList then some (applyKeystream key iv sealed) else none
  decrypt_encrypt key iv aad plaintext sealed tag h := by
    obtain ⟨rfl, rfl⟩ := Prod.mk.inj (Option.some.inj h)
    rw [if_pos rfl, applyKeystream_twice]
  base64Decode t := if t = pubkeyText then some serverPub.toList else none

def uuid : CanonicalUuid where
  group1 := ⟨ascii "0804b576", rfl⟩
  group2 := ⟨ascii "4dfb", rfl⟩
  group3 := ⟨ascii "424a", rfl⟩
  group4 := ⟨ascii "80e7", rfl⟩
  group5 := ⟨ascii "e812e5c13cae", rfl⟩
  isLower := List.all_iff_forall_prop.1 (by decide)

def args : List Text :=
  [ascii "orcax-connect", ascii "--pubkey", pubkeyText, ascii "--uuid",
    ascii "0804b576-4dfb-424a-80e7-e812e5c13cae"]

end Recorded

/-- The recorded login, ten and sixteen seconds late. -/
theorem clients_authenticate_recorded :
    ∃ (eph : Key) (enc : List.Vector UInt8 40),
      connectAndAuth Recorded.crypto Recorded.args Recorded.clientKey 1700000000 =
        .ret (eph.toList ++ enc.toList) ∧
      quicConnectAndAuth Recorded.crypto Recorded.args Recorded.clientKey 1700000000 =
        .ret (eph.toList ++ enc.toList) ∧
      wsCdnModeAuthMsg Recorded.crypto Recorded.args Recorded.clientKey 1700000000 =
        .ret (.ok (eph.toList ++ enc.toList)) ∧
      serverHandshake Recorded.crypto { staticKey := Recorded.serverKey } eph enc.toList 1700000010
          Recorded.ephemeralKey =
        .ok { uuid := ascii "0804b576-4dfb-424a-80e7-e812e5c13cae"
              serverEphemeralPub := Recorded.ephemeralPub } ∧
      ∃ drift : UInt64, drift.toNat = 16 ∧
        serverHandshake Recorded.crypto { staticKey := Recorded.serverKey } eph enc.toList
          1700000016 Recorded.ephemeralKey = .error (.drift drift) := by
  obtain ⟨eph, enc, htcp, hquic, hcdn, hserver⟩ := clients_authenticate Recorded.crypto
    Recorded.serverKey Recorded.clientKey Recorded.uuid Recorded.args Recorded.pubkeyText 1700000000
    (by decide) (by decide) (by decide)
  exact ⟨eph, enc, htcp, hquic, hcdn, (hserver 1700000010 Recorded.ephemeralKey).1 (by decide),
    (hserver 1700000016 Recorded.ephemeralKey).2 (by decide)⟩

/-- The recorded login through the tunnel: same keys, same second, no message. -/
theorem tunnel_recorded_not_authenticated :
    ¬ TunnelAuthenticates Recorded.crypto
      { serverPubkey := Recorded.serverPub
        uuid := ⟨[0x08, 0x04, 0xB5, 0x76, 0x4D, 0xFB, 0x42, 0x4A, 0x80, 0xE7, 0xE8, 0x12, 0xE5, 0xC1,
          0x3C, 0xAE], rfl⟩ }
      Recorded.clientKey 1700000000 (List.replicate 33 0) Recorded.serverKey 1700000000
      Recorded.ephemeralKey := by
  rintro ⟨eph, enc, result, hret, -⟩
  rw [connectOrcax_eq_panic] at hret
  cases hret

end Fogged.Spec.Handshake
