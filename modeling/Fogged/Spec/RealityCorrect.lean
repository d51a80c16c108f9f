import Fogged.Native.Reality
import Fogged.Spec.HandshakeCorrect

/-!
# Reality client and server agree through the ClientHello

The session id of a ClientHello is a part like any other to the parser: `Layout`
says where the parts stand, and that a message is accepted depends on what follows
the session id, not on the session id. So overwriting it changes nothing else that
is parsed, and both sides arrive at the same associated data, whichever session id
stands in the message when they zero it.

## Key results

- `parseClientHello_iff`: the accepted messages and what is read from them
- `zeroRange_bytes`: the associated data does not depend on the session id
- `checkPayload_authPlaintext`: what the server makes of the client's plaintext
- `reality_agrees`: the whole exchange
-/

namespace Fogged.Spec.Reality

open Fogged.Native.Handshake Fogged.Native.ClientHello Fogged.Native.Reality
open Checked

/-! ## The layout of a ClientHello -/

/-- A ClientHello, up to the session id part by part. -/
structure Layout where
  version : List.Vector UInt8 2
  random : List.Vector UInt8 32
  sessionId : List UInt8
  /-- Cipher suites, compression methods, extensions. -/
  rest : List UInt8
  /-- The length of the session id fits its byte. -/
  sessionId_lt : sessionId.length < 256
  /-- The length of the body fits its three bytes. -/
  body_lt : 2 + 32 + 1 + sessionId.length + rest.length < 2 ^ 24

namespace Layout

/-- What precedes the session id in the body. -/
def front (l : Layout) : List UInt8 :=
  l.version.toList ++ l.random.toList ++ Bytes.toBE 1 l.sessionId.length

def body (l : Layout) : List UInt8 := l.front ++ l.sessionId ++ l.rest

/-- The handshake message. -/
def bytes (l : Layout) : List UInt8 := [0x01] ++ Bytes.toBE 3 l.body.length ++ l.body

/-- What the parser reports, given what it found behind the session id. -/
def info (l : Layout) (found : List UInt16 × Option Text × Option Key) : ClientHelloInfo where
  raw := l.bytes
  random := l.random
  sessionId := l.sessionId
  sessionIdOffset := sessionIdOffset
  sni := found.2.1
  x25519Key := found.2.2
  cipherSuites := found.1

/-- The session id stands behind 35 bytes of the body. -/
theorem length_front (l : Layout) : l.front.length = 35 := by
  simp [front]

theorem length_body (l : Layout) : l.body.length = 35 + l.sessionId.length + l.rest.length := by
  simp only [body, List.length_append, length_front]

/-- The header of a handshake message is four bytes. -/
theorem length_bytes (l : Layout) : l.bytes.length = 4 + l.body.length := by
  simp [bytes]
  omega

/-- The length of the session id is read back. -/
theorem ofBE_sessionId_length (l : Layout) :
    Bytes.ofBE (Bytes.toBE 1 l.sessionId.length) = l.sessionId.length :=
  Bytes.ofBE_toBE l.sessionId_lt

/-- The length of the message is read back. -/
theorem ofBE_body_length (l : Layout) : Bytes.ofBE (Bytes.toBE 3 l.body.length) = l.body.length := by
  have h := l.body_lt
  apply Bytes.ofBE_toBE
  rw [length_body]
  omega

end Layout

/-- A slice of 32 bytes becomes an array. -/
theorem run_toArray32_eq_ok {bytes : List UInt8} {v : List.Vector UInt8 32} :
    (toArray32 bytes).run = .ret (.ok v) ↔ bytes = v.toList := by
  unfold toArray32
  split
  · constructor
    · intro hrun
      cases hrun
      rfl
    · rintro rfl
      rfl
  · rename_i h
    refine iff_of_false ?_ ?_
    · intro hrun
      cases hrun
    · rintro rfl
      exact h v.toList_length

/-- A message whose parts are in place is accepted if the parser gets through what
    follows the session id. -/
theorem parseClientHello_layout (l : Layout) (trailing : List UInt8)
    {found : List UInt16 × Option Text × Option Key}
    (h : (parseAfterSessionId l.rest).run = .ret (.ok found)) :
    (parseClientHello (l.bytes ++ trailing)).run = .ret (.ok (l.info found)) := by
  have hbytes := l.length_bytes
  have hbody := l.length_body
  have hdata : (l.bytes ++ trailing).length = 4 + l.body.length + trailing.length := by
    rw [List.length_append, hbytes]
  -- the header
  have htype : (slice 1 (l.bytes ++ trailing) : Parse _) =
      pure ([0x01], Bytes.toBE 3 l.body.length ++ (l.body ++ trailing)) :=
    slice_append rfl (by simp [Layout.bytes])
  have hhsLen : (slice 3 (Bytes.toBE 3 l.body.length ++ (l.body ++ trailing)) : Parse _) =
      pure (Bytes.toBE 3 l.body.length, l.body ++ trailing) :=
    slice_append (Bytes.length_toBE 3 _) rfl
  have hraw : (slice (4 + l.body.length) (l.bytes ++ trailing) : Parse _) =
      pure (l.bytes, trailing) := slice_append hbytes rfl
  have hbodySlice : (slice l.body.length (l.body ++ trailing) : Parse _) =
      pure (l.body, trailing) := slice_append rfl rfl
  -- the body, up to the session id
  have hversion : (slice 2 l.body : Parse _) =
      pure (l.version.toList, l.random.toList ++
        (Bytes.toBE 1 l.sessionId.length ++ (l.sessionId ++ l.rest))) :=
    slice_append l.version.toList_length (by simp [Layout.body, Layout.front])
  have hrandom : (slice 32 (l.random.toList ++
      (Bytes.toBE 1 l.sessionId.length ++ (l.sessionId ++ l.rest))) : Parse _) =
      pure (l.random.toList, Bytes.toBE 1 l.sessionId.length ++ (l.sessionId ++ l.rest)) :=
    slice_append l.random.toList_length rfl
  have harray : toArray32 l.random.toList = pure l.random := dif_pos l.random.toList_length
  have hsidLen : (slice 1 (Bytes.toBE 1 l.sessionId.length ++ (l.sessionId ++ l.rest)) : Parse _) =
      pure (Bytes.toBE 1 l.sessionId.length, l.sessionId ++ l.rest) :=
    slice_append (Bytes.length_toBE 1 _) rfl
  have hsid : (slice l.sessionId.length (l.sessionId ++ l.rest) : Parse _) =
      pure (l.sessionId, l.rest) := slice_append rfl rfl
  rw [parseClientHello, ensure_of _ (by omega)]
  simp only [pure_bind, htype, hhsLen, ensure_of, l.ofBE_body_length, hraw, hbodySlice]
  rw [ensure_of _ (by omega), pure_bind, ensure_of _ (by omega)]
  simp only [pure_bind, hversion, hrandom, harray, hsidLen, l.ofBE_sessionId_length, hsid]
  rw [ensure_of _ (by simp), pure_bind, ensure_of _ (by simp), pure_bind, ensure_of _ (by simp),
    pure_bind]
  rw [ExceptT.run_bind, h]
  rfl

/-- Every accepted message has its parts in place. -/
theorem exists_layout {data : List UInt8} {info : ClientHelloInfo}
    (h : (parseClientHello data).run = .ret (.ok info)) :
    ∃ (l : Layout) (trailing : List UInt8) (found : List UInt16 × Option Text × Option Key),
      data = l.bytes ++ trailing ∧ (parseAfterSessionId l.rest).run = .ret (.ok found) ∧
      l.info found = info := by
  simp only [parseClientHello, run_bind_eq_ok, run_ensure_eq_ok, run_slice_eq_ok,
    run_toArray32_eq_ok, run_pure_eq_ok, Prod.exists] at h
  -- the equations are used once all parts have a name
  obtain ⟨-, -, type, afterType, ⟨-, hdata⟩, -, htype, hsLen, afterLen, ⟨hhsLen, hafterType⟩, -, -,
    raw, trailing, ⟨hraw, hsplit⟩, body, trailing', ⟨hbody, hafterLen⟩, -, -, version, afterVersion,
    ⟨hversion, hbodyEq⟩, -, -, randomBytes, afterRandom, ⟨-, hafterVersion⟩, random, hrandom, -, -,
    sidLen, afterSidLen, ⟨hsidLen, hafterRandom⟩, -, -, sid, rest, ⟨hsid, hafterSidLen⟩, suites, sni,
    key, hfound, hinfo⟩ := h
  subst htype hafterType hafterLen hbodyEq hafterVersion hrandom hafterRandom hafterSidLen hinfo
  have hsidLt : Bytes.ofBE sidLen < 256 := by simpa [hsidLen] using Bytes.ofBE_lt sidLen
  have hbodyLt : Bytes.ofBE hsLen < 2 ^ 24 := by simpa [hhsLen] using Bytes.ofBE_lt hsLen
  have hbodyLen : 2 + 32 + 1 + sid.length + rest.length = Bytes.ofBE hsLen := by
    rw [← hbody]
    simp only [List.length_append, hversion, List.Vector.toList_length, hsidLen]
    omega
  let l : Layout :=
    { version := ⟨version, hversion⟩, random := random, sessionId := sid, rest := rest
      sessionId_lt := by omega, body_lt := by omega }
  -- both length fields are what the layout writes
  have hsidBytes : Bytes.toBE 1 sid.length = sidLen := by
    rw [hsid, ← hsidLen, Bytes.toBE_ofBE]
  have hlbody : l.body = version ++ (random.toList ++ (sidLen ++ (sid ++ rest))) := by
    simp [Layout.body, Layout.front, l, hsidBytes]
  have hlbytes : l.bytes = [0x01] ++ hsLen ++ l.body := by
    rw [Layout.bytes, hlbody, hbody, ← hhsLen, Bytes.toBE_ofBE]
  have hraws : raw ++ trailing = l.bytes ++ trailing' := by
    rw [← hsplit, hdata, hlbytes, hlbody]
    simp
  have hrawEq : raw = l.bytes :=
    List.append_inj_left hraws (by rw [hraw, l.length_bytes, hlbody, hbody])
  rw [hrawEq] at hsplit ⊢
  exact ⟨l, trailing, (suites, sni, key), hsplit, hfound, rfl⟩

/-! ## The session id among the other parts -/

/-- The bytes of `data` from `lo` to `hi`, replaced. -/
def replaceRange (lo hi : Nat) (new data : List UInt8) : List UInt8 :=
  data.take lo ++ new ++ data.drop hi

namespace Layout

/-- The layout with another session id of the same length. -/
def withSessionId (l : Layout) (sessionId : List UInt8)
    (h : sessionId.length = l.sessionId.length) : Layout :=
  { l with
    sessionId
    sessionId_lt := h ▸ l.sessionId_lt
    body_lt := h ▸ l.body_lt }

/-- What precedes the session id in the message. -/
def header (l : Layout) : List UInt8 := [0x01] ++ Bytes.toBE 3 l.body.length ++ l.front

/-- The parser reports this offset for every message. -/
theorem length_header (l : Layout) : l.header.length = sessionIdOffset := by
  simp [header, length_front, sessionIdOffset]

/-- The message with its session id in the middle. -/
theorem bytes_eq (l : Layout) : l.bytes = l.header ++ l.sessionId ++ l.rest := by
  simp [bytes, header, body]

/-- Another session id of the same length leaves what is in front of it. -/
theorem header_withSessionId (l : Layout) {sessionId : List UInt8}
    (h : sessionId.length = l.sessionId.length) : (l.withSessionId sessionId h).header = l.header := by
  simp only [header, front, length_body, withSessionId, h]

/-- Overwriting the session id in the message. -/
theorem bytes_withSessionId (l : Layout) {sessionId : List UInt8}
    (h : sessionId.length = l.sessionId.length) :
    (l.withSessionId sessionId h).bytes =
      replaceRange sessionIdOffset (sessionIdOffset + l.sessionId.length) sessionId l.bytes := by
  rw [bytes_eq, header_withSessionId, replaceRange, bytes_eq, ← l.length_header]
  simp [withSessionId, List.drop_append, List.drop_of_length_le]

/-- The random stands behind header and version. -/
theorem random_eq (l : Layout) : (l.bytes.drop 6).take 32 = l.random.toList := by
  have hbytes : l.bytes = ([0x01] ++ Bytes.toBE 3 l.body.length ++ l.version.toList) ++
      (l.random.toList ++ (Bytes.toBE 1 l.sessionId.length ++ (l.sessionId ++ l.rest))) := by
    simp [bytes, body, front]
  rw [hbytes, List.drop_left' (by simp), List.take_left' l.random.toList_length]

end Layout

/-- The associated data does not depend on the session id. -/
theorem zeroRange_bytes (l : Layout) {sessionId : List UInt8}
    (h : sessionId.length = l.sessionId.length) :
    zeroRange sessionIdOffset (sessionIdOffset + l.sessionId.length)
        (l.withSessionId sessionId h).bytes =
      zeroRange sessionIdOffset (sessionIdOffset + l.sessionId.length) l.bytes := by
  rw [Layout.bytes_eq, l.header_withSessionId, l.bytes_eq, ← l.length_header]
  simp [zeroRange, Layout.withSessionId, List.drop_append, List.drop_of_length_le, h]

/-! ## The client -/

/-- A key has the length that the cipher asks for. -/
theorem newFromSlice_toList (key : Key) : newFromSlice key.toList = some key :=
  dif_pos key.toList_length

/-- The plaintext fills one block. -/
theorem length_authPlaintext (config : RealityClientConfig) (now : UInt64) :
    (authPlaintext config now).length = 16 := by
  simp [authPlaintext]

/-- 32 bytes of key material are within the limits of HKDF. -/
theorem exists_authKey (lib : Crypto) (privateKey clientPublic : Key)
    (random : List.Vector UInt8 32) :
    ∃ authKey, lib.hkdfExpand (salt random) (lib.diffieHellman privateKey clientPublic).toList
        (ascii "REALITY") 32 = some authKey ∧
      deriveAuthKey lib privateKey clientPublic random = .ret authKey := by
  obtain ⟨authKey, hkey⟩ := Option.isSome_iff_exists.1
    (lib.hkdfExpand_isSome (salt random) (lib.diffieHellman privateKey clientPublic).toList
      (ascii "REALITY") 32 (by decide))
  refine ⟨authKey, hkey, ?_⟩
  rw [deriveAuthKey, hkey]

/-- The client seals its payload under the message with the session id zeroed, as
    long as anything follows the session id. -/
theorem encryptSessionIdWithKey_eq (aes : AesGcm) (config : RealityClientConfig) (authKey : Key)
    (random : List.Vector UInt8 32) {rawHello : List UInt8} {offset : Nat} (now : UInt64)
    (h : offset + 32 < rawHello.length) :
    ∃ sid : List.Vector UInt8 32,
      encryptSessionIdWithKey aes config authKey random rawHello offset now = .ret (.ok sid) ∧
      aes.encrypt authKey (nonceOf random) (zeroRange offset (offset + 32) rawHello)
        (authPlaintext config now) = some sid.toList := by
  have hlen := length_authPlaintext config now
  obtain ⟨sealed, hsealed⟩ := Option.isSome_iff_exists.1
    (aes.encrypt_isSome authKey (nonceOf random) (zeroRange offset (offset + 32) rawHello)
      (authPlaintext config now) (by rw [hlen]; decide))
  have hsealedLen : sealed.length = 32 := by
    rw [aes.length_encrypt _ _ _ _ _ hsealed, hlen]
  refine ⟨⟨sealed, hsealedLen⟩, ?_, hsealed⟩
  have hwhole : window 0 32 sealed (by omega) = ⟨sealed, hsealedLen⟩ :=
    Subtype.ext (List.take_of_length_le hsealedLen.le)
  simp only [encryptSessionIdWithKey, newFromSlice_toList, if_pos h, hsealed, hwhole,
    dif_pos (show 0 + 32 ≤ sealed.length by omega)]

/-! ## The server -/

/-- Parts of the plaintext, read back. -/
theorem window_authPlaintext (config : RealityClientConfig) (now : UInt64)
    (h : 16 ≤ (authPlaintext config now).length) :
    (window 0 4 (authPlaintext config now) (by omega)).toList = List.replicate 4 0 ∧
      (window 4 4 (authPlaintext config now) (by omega)).toList =
        Bytes.toBE 4 now.toUInt32.toNat ∧
      window 8 8 (authPlaintext config now) (by omega) = padShortId config.shortId := by
  refine ⟨?_, ?_, Subtype.ext ?_⟩
  · show (authPlaintext config now).take 4 = _
    simp [authPlaintext]
  · show ((authPlaintext config now).drop 4).take 4 = _
    rw [authPlaintext, List.append_assoc, List.drop_left' (by simp), List.take_left' (by simp)]
  · show ((authPlaintext config now).drop 8).take 8 = _
    rw [authPlaintext, List.drop_left' (by simp)]
    exact List.take_of_length_le (padShortId config.shortId).toList_length.le

/-- The drift is the distance of the clocks, without a wrap-around. -/
theorem diff_toNat (a b : UInt32) :
    (if a > b then a - b else b - a).toNat = ((a.toNat : Int) - b.toNat).natAbs := by
  split
  · rename_i h
    have hlt : b.toNat < a.toNat := UInt32.lt_iff_toNat_lt.1 h
    rw [UInt32.toNat_sub_of_le _ _ (UInt32.le_iff_toNat_le.2 hlt.le)]
    omega
  · rename_i h
    have hle : a.toNat ≤ b.toNat := UInt32.le_iff_toNat_le.1 (UInt32.not_lt.1 h)
    rw [UInt32.toNat_sub_of_le _ _ (UInt32.le_iff_toNat_le.2 hle)]
    omega

/-- The time fits the four bytes it is sent in. -/
theorem toNat_toUInt32_of_lt {n : UInt64} (h : n.toNat < 2 ^ 32) : n.toUInt32.toNat = n.toNat := by
  rw [UInt64.toNat_toUInt32]
  exact Nat.mod_eq_of_lt h

/-- A known short id and clocks that are close enough pass the checks. -/
theorem checkPayload_authPlaintext (config : RealityConfig) (client : RealityClientConfig)
    {clientNow serverNow : UInt64} (hshort : padShortId client.shortId ∈ config.shortIds)
    (hclient : clientNow.toNat < 2 ^ 32) (hserver : serverNow.toNat < 2 ^ 32)
    (hmax : config.maxTimeDiff.toNat < 2 ^ 32)
    (hdrift : ((serverNow.toNat : Int) - clientNow.toNat).natAbs ≤ config.maxTimeDiff.toNat) :
    checkPayload config (authPlaintext client clientNow) serverNow =
      .ok { version := List.Vector.replicate 4 0
            timestamp := clientNow.toUInt32
            shortId := padShortId client.shortId } := by
  have hlen : 16 ≤ (authPlaintext client clientNow).length := (length_authPlaintext _ _).ge
  obtain ⟨hversion, htimestamp, hshortId⟩ := window_authPlaintext client clientNow hlen
  have htime : UInt32.ofNat (Bytes.ofBE (Bytes.toBE 4 clientNow.toUInt32.toNat)) =
      clientNow.toUInt32 := by
    rw [Bytes.ofBE_toBE clientNow.toUInt32.toNat_lt, UInt32.ofNat_toNat]
  -- below 2^32 the casts to `u32` lose nothing
  have hnear : ¬ (if serverNow.toUInt32 > clientNow.toUInt32 then
      serverNow.toUInt32 - clientNow.toUInt32 else clientNow.toUInt32 - serverNow.toUInt32) >
      config.maxTimeDiff.toUInt32 := by
    apply UInt32.not_lt.2
    rw [UInt32.le_iff_toNat_le, diff_toNat, toNat_toUInt32_of_lt hclient,
      toNat_toUInt32_of_lt hserver, toNat_toUInt32_of_lt hmax]
    exact hdrift
  simp only [checkPayload, dif_pos hlen, htimestamp, hshortId, htime, not_not.2 hshort, if_false,
    hnear]
  exact congrArg Except.ok (congrArg (RealityAuth.mk · _ _) (Subtype.ext hversion))

/-- The server opens what was sealed with the derived key, the client's random and
    the zeroed message. -/
theorem verifyClientHello_sealed {lib : Crypto} {aes : AesGcm} {config : RealityConfig}
    {info : ClientHelloInfo} {sni : Text} {clientPublic authKey : Key} {plaintext : List UInt8}
    (now : UInt64) (hsni : info.sni = some sni) (hname : sni ∈ config.serverNames)
    (hkeyShare : info.x25519Key = some clientPublic)
    (hkey : lib.hkdfExpand (salt info.random)
      (lib.diffieHellman config.privateKey clientPublic).toList (ascii "REALITY") 32 = some authKey)
    (hlen : info.sessionId.length = 32) (hraw : info.sessionIdOffset + 32 ≤ info.raw.length)
    (hsealed : aes.encrypt authKey (nonceOf info.random)
      (zeroRange info.sessionIdOffset (info.sessionIdOffset + 32) info.raw) plaintext =
        some info.sessionId) :
    verifyClientHello lib aes config info now = checkPayload config plaintext now := by
  have hopen := aes.decrypt_encrypt _ _ _ _ _ hsealed
  simp only [verifyClientHello, hsni, Option.getD_some, not_not.2 hname, if_false, hkeyShare, hkey,
    hlen, ne_eq, not_true, Nat.not_lt.2 hraw, newFromSlice_toList, hopen]

/-! ## The exchange -/

/-- Where the parser succeeds, something follows the session id. -/
theorem two_le_of_parseAfterSessionId {rest : List UInt8}
    {found : List UInt16 × Option Text × Option Key}
    (h : (parseAfterSessionId rest).run = .ret (.ok found)) : 2 ≤ rest.length := by
  rw [parseAfterSessionId, run_bind_eq_ok] at h
  obtain ⟨u, hensure, -⟩ := h
  exact run_ensure_eq_ok.1 hensure

/-- **Client and server agree**: take any message that parses, without trailing
    bytes, with a session id of 32 bytes, a served SNI and a key share. Overwritten
    with the client's sealed session id it parses to the same random, SNI, key share
    and cipher suites, and the server accepts it with the client's short id and time
    if the clocks are close enough. -/
theorem reality_agrees (lib : Crypto) (aes : AesGcm) (config : RealityConfig) (m : List UInt8)
    (info : ClientHelloInfo) (sni : Text) (clientPublic : Key) (random : List.Vector UInt8 32)
    (s : List UInt8) (clientNow serverNow : UInt64)
    (hparse : (parseClientHello m).run = .ret (.ok info))
    (hexact : m.length = 4 + Bytes.ofBE ((m.drop 1).take 3))
    (hrandom : random.toList = (m.drop 6).take 32)
    (hlen : info.sessionId.length = 32) (hsni : info.sni = some sni)
    (hname : sni ∈ config.serverNames) (hkeyShare : info.x25519Key = some clientPublic)
    (hshort : padShortId s ∈ config.shortIds)
    (hclient : clientNow.toNat < 2 ^ 32) (hserver : serverNow.toNat < 2 ^ 32)
    (hmax : config.maxTimeDiff.toNat < 2 ^ 32)
    (hdrift : ((serverNow.toNat : Int) - clientNow.toNat).natAbs ≤ config.maxTimeDiff.toNat) :
    ∃ (authKey : Key) (sid : List.Vector UInt8 32) (info' : ClientHelloInfo),
      deriveAuthKey lib config.privateKey clientPublic info.random = .ret authKey ∧
      encryptSessionIdWithKey aes { shortId := s } authKey random m 39 clientNow =
        .ret (.ok sid) ∧
      (parseClientHello (replaceRange 39 71 sid.toList m)).run = .ret (.ok info') ∧
      info'.random = info.random ∧ info'.sni = info.sni ∧ info'.x25519Key = info.x25519Key ∧
      info'.cipherSuites = info.cipherSuites ∧
      verifyClientHello lib aes config info' serverNow =
        .ok { version := List.Vector.replicate 4 0
              timestamp := clientNow.toUInt32
              shortId := padShortId s } := by
  obtain ⟨l, trailing, found, rfl, hfound, rfl⟩ := exists_layout hparse
  have hsidLen : l.sessionId.length = 32 := hlen
  -- no byte follows the message
  have htrailing : trailing = [] := by
    have hfield : ((l.bytes ++ trailing).drop 1).take 3 = Bytes.toBE 3 l.body.length := by
      simp [Layout.bytes]
    rw [hfield, l.ofBE_body_length, List.length_append, l.length_bytes] at hexact
    exact List.length_eq_zero_iff.1 (by omega)
  subst htrailing
  rw [List.append_nil] at hrandom ⊢
  have hrandomEq : random = l.random := Subtype.ext (hrandom.trans l.random_eq)
  subst hrandomEq
  have hlong : sessionIdOffset + 32 < l.bytes.length := by
    have htwo := two_le_of_parseAfterSessionId hfound
    rw [l.length_bytes, l.length_body, hsidLen]
    show 39 + 32 < _
    omega
  -- the client derives the key and seals its session id
  obtain ⟨authKey, hkey, hderive⟩ := exists_authKey lib config.privateKey clientPublic l.random
  obtain ⟨sid, hencrypt, hsealed⟩ :=
    encryptSessionIdWithKey_eq aes { shortId := s } authKey l.random clientNow hlong
  have hsame : sid.toList.length = l.sessionId.length := by rw [sid.toList_length, hsidLen]
  have hbytes := l.bytes_withSessionId hsame
  have haad := zeroRange_bytes l hsame
  rw [hsidLen] at hbytes haad
  -- the server parses what was sent, and zeroes the same range
  have hparse' := parseClientHello_layout (l.withSessionId sid.toList hsame) [] hfound
  rw [List.append_nil] at hparse'
  rw [hbytes] at hparse'
  rw [← haad] at hsealed
  have hfits : 39 + 32 ≤ (l.withSessionId sid.toList hsame).bytes.length := by
    rw [Layout.length_bytes, Layout.length_body]
    show 39 + 32 ≤ 4 + (35 + sid.toList.length + l.rest.length)
    rw [sid.toList_length]
    omega
  have hverify : verifyClientHello lib aes config ((l.withSessionId sid.toList hsame).info found)
      serverNow = checkPayload config (authPlaintext { shortId := s } clientNow) serverNow :=
    verifyClientHello_sealed serverNow hsni hname hkeyShare hkey sid.toList_length hfits hsealed
  exact ⟨authKey, sid, (l.withSessionId sid.toList hsame).info found, hderive, hencrypt, hparse',
    rfl, rfl, rfl, rfl, hverify.trans (checkPayload_authPlaintext config { shortId := s } hshort
      hclient hserver hmax hdrift)⟩

/-! ## A recorded ClientHello

The hypotheses on the cryptography hold for real bytes: HKDF-SHA256 and AES-256-GCM
tabulated at the values that come up when the client of the recorded login visits
`ozon.ru` at the server of the recorded login. -/

namespace Recorded

def random : List.Vector UInt8 32 := List.Vector.replicate 32 0x44

def authKey : Key :=
  ⟨[0x16, 0x4D, 0x69, 0x6A, 0x7C, 0x3C, 0x33, 0x3F, 0xBE, 0x4A, 0x4A, 0xCD, 0x46, 0xD1, 0x24, 0x17,
    0x31, 0x15, 0xB1, 0xED, 0x9A, 0x31, 0x9F, 0x8F, 0xF1, 0x3F, 0x7B, 0x86, 0xE8, 0x92, 0xE4, 0xE5],
    rfl⟩

/-- The first bytes of the key stream for `authKey` and the nonce. -/
def stream : List UInt8 :=
  [0x32, 0xCA, 0x1C, 0x0D, 0xE5, 0x7E, 0xF3, 0xD6, 0xE4, 0x16, 0x0D, 0x0E, 0x38, 0xD2, 0x53, 0x81]

/-- The ciphertext of the short id `01ab`, at `1700000000`. -/
def ciphertext : List UInt8 :=
  [0x32, 0xCA, 0x1C, 0x0D, 0x80, 0x2D, 0x02, 0xD6, 0xE5, 0xBD, 0x0D, 0x0E, 0x38, 0xD2, 0x53, 0x81]

def tag : Tag :=
  ⟨[0x7F, 0xEF, 0x59, 0x88, 0x0D, 0x38, 0xB7, 0x22, 0xFA, 0x60, 0x8B, 0x5B, 0x1A, 0x40, 0x6D, 0xA4],
    rfl⟩

/-- One cipher suite, no compression, server name and key share. -/
def afterSessionId : List UInt8 :=
  [0x00, 0x02, 0x13, 0x01, 0x01, 0x00, 0x00, 0x3A, 0x00, 0x00, 0x00, 0x0C, 0x00, 0x0A, 0x00, 0x00,
    0x07] ++ ascii "ozon.ru" ++
  [0x00, 0x33, 0x00, 0x26, 0x00, 0x24, 0x00, 0x1D, 0x00, 0x20] ++
    Handshake.Recorded.clientPub.toList

/-- The ClientHello, before the session id is filled in. -/
def hello : List UInt8 :=
  [0x01, 0x00, 0x00, 0x85, 0x03, 0x03] ++ random.toList ++ [0x20] ++ List.replicate 32 0 ++
    afterSessionId

def crypto : Crypto :=
  { Handshake.Recorded.crypto with
    hkdfExpand := fun salt ikm info n =>
      if n ≤ 255 * 32 then
        some <| List.Vector.ofFn fun i =>
          if salt = List.replicate 20 0x44 ∧ ikm = Handshake.Recorded.shared.toList ∧
              info = ascii "REALITY" then
            authKey.toList.getD i 0
          else 0
      else none
    hkdfExpand_isSome := fun salt ikm info n h => by rw [if_pos h, Option.isSome_some] }

/-- The key stream is added to the bytes. -/
def applyKeystream (key : Key) (iv : Nonce) (bytes : List UInt8) : List UInt8 :=
  bytes.mapIdx fun i b => b ^^^ if key = authKey ∧ iv = nonceOf random then stream.getD i 0 else 0

/-- The key stream is added twice. -/
theorem applyKeystream_applyKeystream (key : Key) (iv : Nonce) (bytes : List UInt8) :
    applyKeystream key iv (applyKeystream key iv bytes) = bytes := by
  apply List.ext_getElem
  · simp [applyKeystream]
  · intro i h₁ h₂
    simp only [applyKeystream, List.getElem_mapIdx]
    rw [UInt8.xor_assoc, UInt8.xor_self, UInt8.xor_zero]

def mac (key : Key) (iv : Nonce) (aad sealed : List UInt8) : Tag :=
  if key = authKey ∧ iv = nonceOf random ∧ aad = hello ∧ sealed = ciphertext then tag
  else List.Vector.replicate 16 0

def aes : AesGcm where
  encrypt key iv aad plaintext :=
    let sealed := applyKeystream key iv plaintext
    some (sealed ++ (mac key iv aad sealed).toList)
  encrypt_isSome key iv aad plaintext _ := rfl
  length_encrypt key iv aad plaintext sealed h := by
    obtain rfl := Option.some.inj h
    simp [applyKeystream]
  decrypt key iv aad sealed :=
    let ciphertext := sealed.take (sealed.length - 16)
    if sealed.drop (sealed.length - 16) = (mac key iv aad ciphertext).toList then
      some (applyKeystream key iv ciphertext)
    else none
  decrypt_encrypt key iv aad plaintext sealed h := by
    obtain rfl := Option.some.inj h
    simp [applyKeystream_applyKeystream]

def config : RealityConfig where
  privateKey := Handshake.Recorded.serverKey
  shortIds := [padShortId [0x01, 0xAB]]
  serverNames := [ascii "ozon.ru"]
  maxTimeDiff := 120

def info : ClientHelloInfo where
  raw := hello
  random := random
  sessionId := List.replicate 32 0
  sessionIdOffset := 39
  sni := some (ascii "ozon.ru")
  x25519Key := some Handshake.Recorded.clientPub
  cipherSuites := [0x1301]

theorem parse_hello : (parseClientHello hello).run = .ret (.ok info) := by
  decide +kernel

end Recorded

/-- The recorded ClientHello, 90 seconds late. -/
theorem reality_agrees_recorded :
    ∃ (authKey : Key) (sid : List.Vector UInt8 32) (info' : ClientHelloInfo),
      deriveAuthKey Recorded.crypto Handshake.Recorded.serverKey Handshake.Recorded.clientPub
        Recorded.random = .ret authKey ∧
      encryptSessionIdWithKey Recorded.aes { shortId := [0x01, 0xAB] } authKey Recorded.random
        Recorded.hello 39 1700000000 = .ret (.ok sid) ∧
      (parseClientHello (replaceRange 39 71 sid.toList Recorded.hello)).run = .ret (.ok info') ∧
      info'.random = Recorded.random ∧ info'.sni = some (ascii "ozon.ru") ∧
      info'.x25519Key = some Handshake.Recorded.clientPub ∧ info'.cipherSuites = [0x1301] ∧
      verifyClientHello Recorded.crypto Recorded.aes Recorded.config info' 1700000090 =
        .ok { version := List.Vector.replicate 4 0
              timestamp := 1700000000
              shortId := ⟨[0x01, 0xAB, 0, 0, 0, 0, 0, 0], rfl⟩ } := by
  -- the recorded bytes are one message, with the random bytes at their place
  have hexact : Recorded.hello.length =
      4 + Bytes.ofBE ((Recorded.hello.drop 1).take 3) := by decide +kernel
  have hrandom : Recorded.random.toList = (Recorded.hello.drop 6).take 32 := by decide +kernel
  exact reality_agrees Recorded.crypto Recorded.aes Recorded.config Recorded.hello Recorded.info
    (ascii "ozon.ru") Handshake.Recorded.clientPub Recorded.random [0x01, 0xAB] 1700000000
    1700000090 Recorded.parse_hello hexact hrandom rfl rfl (by decide) rfl
    (by decide) (by decide) (by decide) (by decide) (by decide)

end Fogged.Spec.Reality
