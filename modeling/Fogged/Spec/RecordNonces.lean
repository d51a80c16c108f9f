import Fogged.ForStd.Machine
import Fogged.Native.RecordLayer

/-!
# Records: what is sealed can be opened, and no nonce is used twice

## Key results

- `decrypt_encrypt`: a record opens to what was sealed, under the same key and number
- `nonce_ne_of_run`: between two changes of the key, no two records are sealed with the same
  nonce
-/

namespace Fogged.Spec.Records

open Fogged.Native.Tls
open Fogged.Native.Deframer (ContentType ProtocolVersion OpaqueMessage PlainMessage Error)

variable {κ : Type} {aead : Aead κ}

/-! ## Content types -/

/-- The types that stand for themselves on the wire: no number has two names, and zero is
    what padding is made of. -/
def Proper (typ : ContentType) : Prop := ContentType.ofU8 (typeByte typ) = typ ∧ typeByte typ ≠ 0

instance (typ : ContentType) : Decidable (Proper typ) := inferInstanceAs (Decidable (_ ∧ _))

/-! ## Opening what was sealed -/

/-- The type stands behind the payload. -/
theorem unpadTls13_append {payload : List UInt8} {b : UInt8} (h : b ≠ 0) :
    unpadTls13 (payload ++ [b]) = (ContentType.ofU8 b, payload) := by
  simp [unpadTls13, unpadReversed, h]

/-- What a sealed record looks like from outside. -/
theorem encrypt_shape {k : TrafficKey κ} {m : PlainMessage} {seq : Nat} {em : OpaqueMessage}
    (h : encrypt aead k m seq = some em) :
    em.typ = .applicationData ∧ em.version = .tlsv1_2 ∧
      em.payload.length = m.payload.length + 17 := by
  obtain ⟨c, hc, rfl⟩ := Option.map_eq_some_iff.1 h
  have hlen := aead.length_seal _ _ _ _ _ hc
  rw [List.length_append, List.length_singleton] at hlen
  exact ⟨rfl, rfl, hlen⟩

/-- A record opens to what was sealed, under the same key and sequence number. -/
theorem decrypt_encrypt {k : TrafficKey κ} {m : PlainMessage} {seq : Nat} {em : OpaqueMessage}
    (htyp : Proper m.typ) (hlen : m.payload.length ≤ maxFragmentLen)
    (h : encrypt aead k m seq = some em) :
    decrypt aead k em seq = .ok { m with version := .tlsv1_3 } := by
  obtain ⟨-, -, hlength⟩ := encrypt_shape h
  obtain ⟨c, hc, rfl⟩ := Option.map_eq_some_iff.1 h
  have hopen := aead.open_seal _ _ _ _ _ hc
  dsimp only at hlength
  rw [decrypt, if_neg (by dsimp only; omega)]
  dsimp only
  rw [hlength, hopen]
  dsimp only
  rw [intoTls13UnpaddedMessage, if_neg (by rw [List.length_append, List.length_singleton]; omega)]
  dsimp only
  rw [unpadTls13_append htyp.2, htyp.1]
  dsimp only
  -- zero is not the type of a message, and the payload is not too long
  rw [if_neg (fun heq => htyp.2 (by rw [heq]; rfl)), if_neg (Nat.not_lt.2 hlen)]

/-! ## Nonces -/

/-- Different numbers give different nonces. -/
theorem zipWith_xor_injective {xs ys zs : List UInt8} (hxs : xs.length = zs.length)
    (hys : ys.length = zs.length)
    (h : List.zipWith (· ^^^ ·) xs zs = List.zipWith (· ^^^ ·) ys zs) : xs = ys := by
  induction zs generalizing xs ys with
  | nil =>
    rw [List.length_eq_zero_iff.1 hxs, List.length_eq_zero_iff.1 hys]
  | cons z zs ih =>
    obtain ⟨x, xs, rfl⟩ := List.exists_cons_of_length_eq_add_one hxs
    obtain ⟨y, ys, rfl⟩ := List.exists_cons_of_length_eq_add_one hys
    rw [List.zipWith_cons_cons, List.zipWith_cons_cons, List.cons.injEq] at h
    have hxy : x = y := by
      have hz := congrArg (· ^^^ z) h.1
      simpa [UInt8.xor_assoc] using hz
    rw [hxy, ih (by simpa using hxs) (by simpa using hys) h.2]

/-- Under one IV, different sequence numbers give different nonces. -/
theorem nonceOf_injective {iv : List.Vector UInt8 12} {a b : Nat} (ha : a < 2 ^ 64)
    (hb : b < 2 ^ 64) (h : nonceOf iv a = nonceOf iv b) : a = b := by
  have hval := congrArg List.Vector.toList h
  have hbytes : [0, 0, 0, 0] ++ Bytes.toBE 8 a = [0, 0, 0, 0] ++ Bytes.toBE 8 b :=
    zipWith_xor_injective (by simp) (by simp) hval
  have hbe := congrArg Bytes.ofBE (List.append_cancel_left hbytes)
  rwa [Bytes.ofBE_toBE (k := 8) ha, Bytes.ofBE_toBE (k := 8) hb] at hbe

/-! ## Runs of the record layer -/

section Runs

open RecordLayer

/-- The record `r.2` is what the AEAD makes of the message `r.1`, under this key and this
    nonce. -/
def SealedWith (aead : Aead κ) (key : κ) (nonce : List.Vector UInt8 12)
    (r : PlainMessage × OpaqueMessage) : Prop :=
  aead.sealInPlace key nonce (makeTls13Aad (r.1.payload.length + 1 + 16))
    (r.1.payload ++ [typeByte r.1.typ]) = some r.2.payload

/-- An encrypter, `none` before the first one is installed, and what was sealed while it was
    the current one, oldest first. -/
structure Epoch (κ : Type) where
  cipher : Option (TrafficKey κ)
  records : List (PlainMessage × OpaqueMessage)

/-- One more effect, with the epochs so far; the first of them is the current one. -/
def advance : List (Epoch κ) → Effect κ → List (Epoch κ)
  | past, .installed cipher => ⟨some cipher, []⟩ :: past
  | now :: past, .sealed plain em => ⟨now.cipher, now.records ++ [(plain, em)]⟩ :: past
  | [], .sealed plain em => [⟨none, [(plain, em)]⟩]
  | past, .panicked => past

/-- What a run has sealed, encrypter by encrypter, the last one first. -/
def epochs (out : List (Effect κ)) : List (Epoch κ) := out.foldl advance [⟨none, []⟩]

/-- One more effect. -/
theorem epochs_append_singleton (past : List (Effect κ)) (e : Effect κ) :
    epochs (past ++ [e]) = advance (epochs past) e := by
  rw [epochs, epochs, List.foldl_append, List.foldl_cons, List.foldl_nil]

/-- A call that panics seals nothing. -/
theorem advance_panicked (past : List (Epoch κ)) : advance past .panicked = past := by
  cases past <;> rfl

/-- Nothing is sealed without an encrypter. What is sealed with one is all sealed under its
    key, and each record with a nonce of its own. -/
def Epoch.Fresh (aead : Aead κ) : Epoch κ → Prop
  | ⟨none, records⟩ => records = []
  | ⟨some k, records⟩ => ∃ nonces : List (List.Vector UInt8 12), nonces.Nodup ∧
      List.Forall₂ (SealedWith aead k.key) nonces records

/-- The records so far have the numbers from zero on, each one its own. -/
def Epoch.Numbered (aead : Aead κ) (writeSeq : Nat) : Epoch κ → Prop
  | ⟨none, records⟩ => records = []
  | ⟨some k, records⟩ => List.Forall₂ (fun seq => SealedWith aead k.key (nonceOf k.iv seq))
      (List.range writeSeq) records

/-- The current epoch is the one of the current encrypter, with as many records as its sequence
    number says; the nonces of those before it are fresh. -/
structure Counted (aead : Aead κ) (rl : RecordLayer κ) (past : List (Effect κ)) : Prop where
  le : rl.writeSeq ≤ seqHardLimit
  history : ∃ records older, epochs past = ⟨rl.messageEncrypter, records⟩ :: older ∧
    Epoch.Numbered aead rl.writeSeq ⟨rl.messageEncrypter, records⟩ ∧
    ∀ ep ∈ older, ep.Fresh aead

/-- Up to the hard limit the sequence numbers fit in 64 bits, so numbered records have fresh
    nonces. -/
theorem Epoch.Numbered.fresh {ep : Epoch κ} {writeSeq : Nat} (hle : writeSeq ≤ seqHardLimit)
    (h : ep.Numbered aead writeSeq) : ep.Fresh aead := by
  rcases ep with ⟨_ | k, records⟩
  · exact h
  · refine ⟨(List.range writeSeq).map (nonceOf k.iv), ?_, List.forall₂_map_left_iff.2 h⟩
    have hlimit : seqHardLimit < 2 ^ 64 := by decide
    apply List.Nodup.map_on _ List.nodup_range
    intro a ha b hb hab
    rw [List.mem_range] at ha hb
    exact nonceOf_injective (by omega) (by omega) hab

/-- A record that is returned has been sealed under the next number. -/
theorem encryptOutgoing_eq_ret {rl rl' : RecordLayer κ} {plain : PlainMessage} {em : OpaqueMessage}
    (h : rl.encryptOutgoing aead plain = .ret (em, rl')) :
    rl.writeSeq < seqHardLimit ∧ ∃ k, rl.messageEncrypter = some k ∧
      encrypt aead k plain rl.writeSeq = some em ∧ rl' = { rl with writeSeq := rl.writeSeq + 1 } := by
  unfold encryptOutgoing at h
  split at h
  · cases h
  · rename_i hexhausted
    split at h
    · cases h
    · rename_i k hk
      split at h
      · cases h
      · rename_i em' hem
        cases h
        -- neither exhausted nor without a key, and the layer has sealed
        exact ⟨by simpa [encryptExhausted] using hexhausted, k, hk, hem, rfl⟩

/-- Nothing has been sealed. -/
theorem counted_new (aead : Aead κ) : Counted aead (RecordLayer.new : RecordLayer κ) [] :=
  ⟨Nat.zero_le _, [], [], rfl, rfl, by simp⟩

/-- An encrypter that has just been installed has sealed nothing, and the epoch of the one
    before it is complete. -/
theorem Counted.installed {rl rl' : RecordLayer κ} {k : TrafficKey κ} {past : List (Effect κ)}
    (h : Counted aead rl past) (hk : rl'.messageEncrypter = some k) (hseq : rl'.writeSeq = 0) :
    Counted aead rl' (past ++ [.installed k]) := by
  obtain ⟨records, older, hepochs, hnumbered, holder⟩ := h.history
  refine ⟨by rw [hseq]; exact Nat.zero_le _, [], ⟨rl.messageEncrypter, records⟩ :: older, ?_, ?_,
    ?_⟩
  · rw [epochs_append_singleton, hepochs, advance, hk]
  · rw [hk, hseq]
    exact List.Forall₂.nil
  · intro ep hep
    rcases List.mem_cons.1 hep with rfl | hep
    · exact hnumbered.fresh h.le
    · exact holder ep hep

/-- A call that does not touch the encrypter. -/
theorem Counted.congr {rl rl' : RecordLayer κ} {past : List (Effect κ)} (h : Counted aead rl past)
    (hseq : rl'.writeSeq = rl.writeSeq) (hk : rl'.messageEncrypter = rl.messageEncrypter) :
    Counted aead rl' past :=
  ⟨by rw [hseq]; exact h.le, by rw [hseq, hk]; exact h.history⟩

/-- A sealed record takes the next number. The record itself says so: it is what the AEAD
    returned for that number's nonce. -/
theorem Counted.sealed {rl rl' : RecordLayer κ} {plain : PlainMessage} {em : OpaqueMessage}
    {past : List (Effect κ)} (h : Counted aead rl past)
    (hret : rl.encryptOutgoing aead plain = .ret (em, rl')) :
    Counted aead rl' (past ++ [.sealed plain em]) := by
  obtain ⟨hlt, k, hk, hem, rfl⟩ := encryptOutgoing_eq_ret hret
  obtain ⟨records, older, hepochs, hnumbered, holder⟩ := h.history
  have hnew : SealedWith aead k.key (nonceOf k.iv rl.writeSeq) (plain, em) := by
    obtain ⟨c, hc, rfl⟩ := Option.map_eq_some_iff.1 hem
    exact hc
  rw [hk] at hnumbered
  refine ⟨hlt, records ++ [(plain, em)], older, ?_, ?_, holder⟩
  · rw [epochs_append_singleton, hepochs, advance]
  · dsimp only
    rw [hk, Epoch.Numbered, List.range_succ]
    exact List.rel_append hnumbered (List.Forall₂.cons hnew List.Forall₂.nil)

/-- Receiving does not touch what sending uses. -/
theorem decryptIncoming_writeSeq (aead : Aead κ) (rl : RecordLayer κ) (encr : OpaqueMessage) :
    (rl.decryptIncoming aead encr).2.writeSeq = rl.writeSeq ∧
      (rl.decryptIncoming aead encr).2.messageEncrypter = rl.messageEncrypter := by
  unfold decryptIncoming doingTrialDecryption
  split
  · exact ⟨rfl, rfl⟩
  · dsimp only
    split
    · exact ⟨rfl, rfl⟩
    · split
      · split
        · -- a record that cannot be opened may be dropped during trial decryption
          rename_i heq
          split at heq
          · split at heq
            · cases heq
              exact ⟨rfl, rfl⟩
            · cases heq
          · cases heq
        · exact ⟨rfl, rfl⟩
      · exact ⟨rfl, rfl⟩

/-- Every call keeps count. -/
theorem step_counted {rl rl' : RecordLayer κ} {past o : List (Effect κ)} {e : Event κ}
    (h : Counted aead rl past) (hstep : step aead rl e = some (rl', o)) :
    Counted aead rl' (past ++ o) := by
  cases e with
  | encryptOutgoing plain =>
    rw [step] at hstep
    split at hstep
    · rename_i em rl'' hret
      cases hstep
      exact h.sealed hret
    · cases hstep
      -- the number is used up, or there is no encrypter
      refine ⟨h.le, ?_⟩
      rw [epochs_append_singleton, advance_panicked]
      exact h.history
  | decryptIncoming encr =>
    cases hstep
    obtain ⟨hseq, hk⟩ := decryptIncoming_writeSeq aead rl encr
    rw [List.append_nil]
    exact h.congr hseq hk
  -- a new encrypter starts an epoch, with the number zero
  | prepareMessageEncrypter cipher | setMessageEncrypter cipher =>
    cases hstep
    exact h.installed rfl rfl
  | prepareMessageDecrypter _ | startEncrypting | startDecrypting | setMessageDecrypter _
  | setMessageDecrypterWithTrialDecryption _ _ | finishTrialDecryption =>
    cases hstep
    rw [List.append_nil]
    exact h.congr rfl rfl

/-- Whatever calls are made, in whatever order: the records that an encrypter seals until the
    next one is installed are all sealed under its key, no two of them with the same nonce, and
    the sequence number stops at its hard limit. -/
theorem nonce_ne_of_run {es : List (Event κ)} {rl : RecordLayer κ} {out : List (Effect κ)}
    (hrun : Machine.run (step aead) RecordLayer.new es = some (rl, out)) :
    (∀ ep ∈ epochs out, ep.Fresh aead) ∧ rl.writeSeq ≤ seqHardLimit := by
  have hcounted := Machine.run_history_of_allowed (I := Counted aead)
    (fun _ _ _ _ _ h (_ : True) hstep => step_counted h hstep) [] (counted_new aead)
    (Machine.allowed_of_forall (fun _ _ _ => trivial) _) hrun
  obtain ⟨records, older, hepochs, hnumbered, holder⟩ := hcounted.history
  refine ⟨fun ep hep => ?_, hcounted.le⟩
  rw [List.nil_append] at hepochs
  rw [hepochs] at hep
  -- the current epoch is numbered, the others are complete
  rcases List.mem_cons.1 hep with rfl | hep
  · exact hnumbered.fresh hcounted.le
  · exact holder ep hep

/-- An AEAD whose tag shows the nonce. -/
def showingAead : Aead Unit where
  sealInPlace _ nonce _ plaintext := some (plaintext ++ nonce.toList ++ [0, 0, 0, 0])
  seal_isSome _ _ _ _ _ := rfl
  length_seal := by
    rintro _ _ _ plaintext _ ⟨⟩
    simp
  openInPlace _ _ _ ciphertext := some (ciphertext.take (ciphertext.length - 16))
  open_seal := by
    rintro _ _ _ plaintext _ ⟨⟩
    simp
  length_open := by
    rintro _ _ _ ciphertext _ ⟨⟩
    simp

/-- An AEAD that hides nothing and checks nothing, to run the record layer on. -/
def clearAead : Aead Unit where
  sealInPlace _ _ _ plaintext := some (plaintext ++ List.replicate 16 0)
  seal_isSome _ _ _ _ _ := rfl
  length_seal := by
    rintro _ _ _ plaintext _ ⟨⟩
    simp
  openInPlace _ _ _ ciphertext := some (ciphertext.take (ciphertext.length - 16))
  open_seal := by
    rintro _ _ _ plaintext _ ⟨⟩
    simp
  length_open := by
    rintro _ _ _ ciphertext _ ⟨⟩
    simp

/-- A key with an IV of zeros. -/
def clearKey : TrafficKey Unit where
  key := ()
  iv := List.Vector.replicate 12 0

/-- Two records under one key, one under the next; the tags are the nonces. -/
theorem nonce_ne_of_three_records :
    ∃ rl out, Machine.run (step showingAead) RecordLayer.new
        [.setMessageEncrypter clearKey, .encryptOutgoing ⟨.applicationData, .tlsv1_2, [1]⟩,
          .encryptOutgoing ⟨.applicationData, .tlsv1_2, [2]⟩, .setMessageEncrypter clearKey,
          .encryptOutgoing ⟨.alert, .tlsv1_2, [1, 0]⟩] = some (rl, out) ∧
      .sealed ⟨.applicationData, .tlsv1_2, [2]⟩ ⟨.applicationData, .tlsv1_2,
        [2, 0x17, 0, 0, 0, 0, 0, 0, 0, 0, 0, 0, 0, 1, 0, 0, 0, 0]⟩ ∈ out ∧
      (epochs out).map (fun ep => ep.records.length) = [1, 2, 0] ∧
      (∀ ep ∈ epochs out, ep.Fresh showingAead) ∧ rl.writeSeq ≤ seqHardLimit := by
  -- the second key is the first one again, and its count restarts at 0
  have hrun : Machine.run (step showingAead) RecordLayer.new
      [.setMessageEncrypter clearKey, .encryptOutgoing ⟨.applicationData, .tlsv1_2, [1]⟩,
        .encryptOutgoing ⟨.applicationData, .tlsv1_2, [2]⟩, .setMessageEncrypter clearKey,
        .encryptOutgoing ⟨.alert, .tlsv1_2, [1, 0]⟩] =
      some ({ RecordLayer.new.setMessageEncrypter clearKey with writeSeq := 1 },
        [.installed clearKey,
          .sealed ⟨.applicationData, .tlsv1_2, [1]⟩ ⟨.applicationData, .tlsv1_2,
            [1, 0x17, 0, 0, 0, 0, 0, 0, 0, 0, 0, 0, 0, 0, 0, 0, 0, 0]⟩,
          .sealed ⟨.applicationData, .tlsv1_2, [2]⟩ ⟨.applicationData, .tlsv1_2,
            [2, 0x17, 0, 0, 0, 0, 0, 0, 0, 0, 0, 0, 0, 1, 0, 0, 0, 0]⟩,
          .installed clearKey,
          .sealed ⟨.alert, .tlsv1_2, [1, 0]⟩ ⟨.applicationData, .tlsv1_2,
            [1, 0, 0x15, 0, 0, 0, 0, 0, 0, 0, 0, 0, 0, 0, 0, 0, 0, 0, 0]⟩]) := rfl
  exact ⟨_, _, hrun, by simp, rfl, nonce_ne_of_run hrun⟩

end Runs

end Fogged.Spec.Records
