import Fogged.Native.InnerTls

/-!
# What is detected in the first record

`detect_record` says what the detector makes of data that starts with a handshake record.
It finds the cipher suite by the length of the session id, and compares the position with
the end of the data, not with the end of the record or of the ServerHello.

## Key results

- `detection_confined_iff`: when the answer comes from the record, and from its ServerHello
- `detection_reads_beyond`: trailing bytes, or the rest of the record, taken for a suite
-/

namespace Fogged.Spec.InnerTls

open Fogged.Native.InnerTls Indexed
open Bytes

/-! ## Records -/

/-- A complete handshake record. -/
structure Record where
  payload : List UInt8
  payload_lt : payload.length < 2 ^ 16

namespace Record

def bytes (r : Record) : List UInt8 := [0x16, 3, 3] ++ toBE 2 r.payload.length ++ r.payload

/-- Where the cipher suite stands in the payload: behind the session id. -/
def cipherPos (r : Record) : Nat := 39 + (r.payload.getD 38 0).toNat

/-- The length of the handshake message, with its header. -/
def messageLength (r : Record) : Nat := 4 + ofBE ((r.payload.drop 1).take 3)

/-- The cipher suite is in the record, and in the message. -/
def Inside (r : Record) : Prop :=
  r.cipherPos + 2 ≤ r.payload.length ∧ r.cipherPos + 2 ≤ r.messageLength

instance (r : Record) : Decidable r.Inside := inferInstanceAs (Decidable (_ ∧ _))

/-- What stands at that place, if other bytes follow the record. -/
def cipherBytes (r : Record) (rest : List UInt8) : List UInt8 :=
  ((r.payload ++ rest).drop r.cipherPos).take 2

/-- Long enough for a ServerHello, with its type, and a suite of TLS 1.3 in its place. -/
def Tls13 (r : Record) (rest : List UInt8) : Prop :=
  38 < r.payload.length ∧ r.payload.head? = some 2 ∧ (r.cipherBytes rest).length = 2 ∧
    0x1301 ≤ ofBE (r.cipherBytes rest) ∧ ofBE (r.cipherBytes rest) ≤ 0x1303

instance (r : Record) (rest : List UInt8) : Decidable (r.Tls13 rest) :=
  inferInstanceAs (Decidable (_ ∧ _))

end Record

/-! ## The detector on a record -/

/-- The five bytes in front of a record. -/
theorem bytes_append (r : Record) (rest : List UInt8) :
    ∃ l0 l1, ofBE [l0, l1] = r.payload.length ∧
      r.bytes ++ rest = 0x16 :: 3 :: 3 :: l0 :: l1 :: (r.payload ++ rest) := by
  obtain ⟨l0, l1, hl, hlen⟩ := exists_toBE_two r.payload_lt
  exact ⟨l0, l1, hlen, by simp [Record.bytes, hl]⟩

/-- The suite is read where it should stand, if there are two bytes. -/
theorem u16_cipherPos (r : Record) (rest : List UInt8)
    (h : r.cipherPos + 1 < (r.payload ++ rest).length) :
    (r.cipherBytes rest).length = 2 ∧
      u16 (r.bytes ++ rest) (5 + r.cipherPos) = .ret (ofBE (r.cipherBytes rest)) := by
  -- the session id is 255 bytes at most, so no index overflows
  have hpos : r.cipherPos < 2 ^ 9 := by
    have := (r.payload.getD 38 0).toNat_lt
    rw [Record.cipherPos]
    omega
  obtain ⟨l0, l1, -, hdata⟩ := bytes_append r rest
  obtain ⟨a, b, hab⟩ := exists_drop_two h
  have hdrop : (r.bytes ++ rest).drop (5 + r.cipherPos) =
      a :: b :: (r.payload ++ rest).drop (r.cipherPos + 2) := by
    rw [hdata, ← List.drop_drop]
    exact hab
  have hbytes : r.cipherBytes rest = [a, b] := by
    rw [Record.cipherBytes, hab]
    rfl
  rw [hbytes]
  exact ⟨rfl, u16_of_drop (by omega) hdrop⟩

/-- The detector behind the header of the record. -/
theorem detectServerHello_record (r : Record) (rest : List UInt8) :
    detectServerHello (r.bytes ++ rest) =
      .ret (if r.Tls13 rest then some (0x0304, UInt16.ofNat (ofBE (r.cipherBytes rest)))
        else none) := by
  obtain ⟨l0, l1, hlen, hdata⟩ := bytes_append r rest
  have hlt := r.payload_lt
  have hlength : (r.bytes ++ rest).length = 5 + (r.payload ++ rest).length := by
    rw [hdata]
    simp only [List.length_cons]
    omega
  have hrecord : u16 (r.bytes ++ rest) 3 = .ret r.payload.length := by
    rw [u16_of_drop (by decide) (by rw [hdata]; rfl), hlen]
  rw [detectServerHello, hrecord, Outcome.ret_bind, add_of_lt (by omega), Outcome.ret_bind]
  by_cases hlong : 38 < r.payload.length
  · -- long enough for a session id: type, session id and cipher suite are read in turn
    have hstop : 5 + r.payload.length ≤ (r.bytes ++ rest).length := by
      rw [hlength, List.length_append]
      omega
    obtain ⟨t, tail, htail⟩ : ∃ t tail, r.payload = t :: tail :=
      List.exists_cons_of_length_pos (by omega)
    have htypeDrop : (r.bytes ++ rest).drop 5 = t :: (tail ++ rest) := by
      rw [hdata, htail]
      rfl
    -- byte 43 of the data is byte 38 of the payload
    have hsidDrop : (r.bytes ++ rest).drop 43 =
        r.payload.getD 38 0 :: (r.payload.drop 39 ++ rest) := by
      rw [hdata]
      show (r.payload ++ rest).drop 38 = _
      rw [List.drop_append_of_le_length (by omega), List.drop_eq_getElem_cons hlong,
        List.getD_eq_getElem?_getD, List.getElem?_eq_getElem hlong]
      rfl
    have hsid := get_of_drop hsidDrop
    rw [if_pos ⟨hstop, hlong⟩, get_of_drop htypeDrop, Outcome.ret_bind]
    by_cases hhello : t = 2
    · have hsidLt := (r.payload.getD 38 0).toNat_lt
      have hoffset : 44 + (r.payload.getD 38 0).toNat = 5 + r.cipherPos := by
        rw [Record.cipherPos]
        omega
      rw [if_pos hhello, if_pos (by omega), hsid, Outcome.ret_bind, add_of_lt (by omega),
        Outcome.ret_bind, hoffset, add_of_lt (by omega), Outcome.ret_bind]
      by_cases hfits : 5 + r.cipherPos + 1 < (r.bytes ++ rest).length
      · obtain ⟨htwo, hcipher⟩ := u16_cipherPos r rest (by omega)
        rw [if_pos hfits, hcipher, Outcome.ret_bind]
        by_cases hsuite : 0x1301 ≤ ofBE (r.cipherBytes rest) ∧ ofBE (r.cipherBytes rest) ≤ 0x1303
        · rw [if_pos hsuite, if_pos ⟨hlong, by rw [htail, hhello]; rfl, htwo, hsuite⟩]
          rfl
        · rw [if_neg hsuite, if_neg fun h => hsuite h.2.2.2]
          rfl
      · -- fewer than two bytes are left
        have hshort : ¬ (r.cipherBytes rest).length = 2 := by
          rw [Record.cipherBytes, List.length_take, List.length_drop]
          omega
        rw [if_neg hfits, if_neg fun h => hshort h.2.2.1]
        rfl
    · -- another type of handshake message
      have hother : ¬ r.payload.head? = some 2 := by
        rw [htail]
        simpa using hhello
      rw [if_neg hhello, if_neg fun h => hother h.2.1]
      rfl
  · rw [if_neg (by omega), if_neg fun h => hlong h.1]
    rfl

/-- **The detector on a record.** -/
theorem detect_record (r : Record) (rest : List UInt8) :
    detectInnerTls13 (r.bytes ++ rest) =
      .ret (if r.Tls13 rest then some (0x0304, UInt16.ofNat (ofBE (r.cipherBytes rest)))
        else none) := by
  obtain ⟨l0, l1, -, hdata⟩ := bytes_append r rest
  have hlong : ¬ (r.bytes ++ rest).length < 5 := by
    rw [hdata]
    simp
  -- the header says that a handshake message of TLS follows
  have htype : get (r.bytes ++ rest) 0 = .ret 0x16 := get_of_drop (by rw [hdata]; rfl)
  have hdrop : (r.bytes ++ rest).drop 1 = 3 :: 3 :: l0 :: l1 :: (r.payload ++ rest) := by
    rw [hdata]
    rfl
  have hversion : u16 (r.bytes ++ rest) 1 = .ret 0x0303 := u16_of_drop (by decide) hdrop
  rw [detectInnerTls13, if_neg hlong, htype, Outcome.ret_bind, hversion, Outcome.ret_bind,
    if_pos ⟨rfl, rfl⟩, detectServerHello_record, Outcome.ret_bind]
  by_cases htls : r.Tls13 rest
  · rw [if_pos htls]
    rfl
  · rw [if_neg htls]
    rfl

/-- A record by itself. -/
theorem detect_alone (r : Record) :
    detectInnerTls13 r.bytes =
      .ret (if r.Tls13 [] then some (0x0304, UInt16.ofNat (ofBE (r.cipherBytes [])))
        else none) := by
  simpa using detect_record r []

/-! ## Confinement -/

/-- What follows the record does not matter, and a suite that is returned stands in the
    record and in its ServerHello. -/
def Confined (r : Record) (rest : List UInt8) : Prop :=
  detectInnerTls13 (r.bytes ++ rest) = detectInnerTls13 r.bytes ∧
    ∀ c, detectInnerTls13 (r.bytes ++ rest) = .ret (some (0x0304, c)) →
      r.Inside ∧ toBE 2 c.toNat = (r.payload.drop r.cipherPos).take 2

/-- Two bytes in the record are the same whatever follows. -/
theorem cipherBytes_eq {r : Record} (h : r.cipherPos + 2 ≤ r.payload.length) (rest : List UInt8) :
    r.cipherBytes rest = (r.payload.drop r.cipherPos).take 2 := by
  rw [Record.cipherBytes, List.drop_append_of_le_length (by omega),
    List.take_append_of_le_length (by rw [List.length_drop]; omega)]

/-- What is detected in the record alone is detected. -/
theorem tls13_of_alone {r : Record} (rest : List UInt8) (h : r.Tls13 []) : r.Tls13 rest := by
  have hfits : r.cipherPos + 2 ≤ r.payload.length := by
    have htwo := h.2.2.1
    rw [Record.cipherBytes, List.append_nil, List.length_take, List.length_drop] at htwo
    omega
  have heq : r.cipherBytes rest = r.cipherBytes [] := by
    rw [cipherBytes_eq hfits, cipherBytes_eq hfits]
  rw [Record.Tls13, heq]
  exact h

/-- **Detection is confined** to the first record and its ServerHello exactly if a suite of
    TLS 1.3, where one is found, stands inside both. -/
theorem detection_confined_iff (r : Record) (rest : List UInt8) :
    Confined r rest ↔ (r.Tls13 rest → r.Inside) := by
  constructor
  · rintro ⟨-, hinside⟩ htls
    have hfound := detect_record r rest
    rw [if_pos htls] at hfound
    exact (hinside _ hfound).1
  · intro hinside
    by_cases htls : r.Tls13 rest
    · have hbytes := cipherBytes_eq (hinside htls).1
      -- the suite is inside the record, so what follows does not change it
      have htls' : r.Tls13 [] := by
        rw [Record.Tls13, hbytes, ← hbytes rest]
        exact htls
      constructor
      · rw [detect_record, detect_alone, if_pos htls, if_pos htls', hbytes, hbytes]
      · intro c hc
        rw [detect_record, if_pos htls] at hc
        cases hc
        exact ⟨hinside htls, by rw [toBE_toNat_ofBE htls.2.2.1, hbytes]⟩
    · -- what is not found in the whole data is not found in the record
      have htls' : ¬ r.Tls13 [] := fun h => htls (tls13_of_alone rest h)
      constructor
      · rw [detect_record, detect_alone, if_neg htls, if_neg htls']
      · intro c hc
        rw [detect_record, if_neg htls] at hc
        cases hc

/-- The payload of a ServerHello that ends with its empty session id. -/
def truncatedHello : List UInt8 := [2, 0, 0, 35, 3, 3] ++ List.replicate 32 0 ++ [0]

/-- A record with that message, and one with two bytes behind the message. -/
def truncatedRecord : Record := ⟨truncatedHello, by decide⟩

def longRecord : Record := ⟨truncatedHello ++ [0x13, 0x01], by decide⟩

/-- **Detection beyond the record, and beyond the message.** The two bytes behind the
    truncated ServerHello are taken for its cipher suite, whether they belong to the record
    or follow it. -/
theorem detection_reads_beyond :
    detectInnerTls13 (truncatedRecord.bytes ++ [0x13, 0x01]) = .ret (some (0x0304, 0x1301)) ∧
      detectInnerTls13 truncatedRecord.bytes = .ret none ∧
      ¬ Confined truncatedRecord [0x13, 0x01] ∧
      detectInnerTls13 longRecord.bytes = .ret (some (0x0304, 0x1301)) ∧
      longRecord.messageLength = 39 ∧ longRecord.cipherPos = 39 ∧ ¬ Confined longRecord [] := by
  have hbehind : detectInnerTls13 (truncatedRecord.bytes ++ [0x13, 0x01]) =
      .ret (some (0x0304, 0x1301)) := by decide +kernel
  have halone : detectInnerTls13 truncatedRecord.bytes = .ret none := by decide +kernel
  have hlong : detectInnerTls13 longRecord.bytes = .ret (some (0x0304, 0x1301)) := by
    decide +kernel
  have houtside : ¬ longRecord.Inside := by decide +kernel
  refine ⟨hbehind, halone, fun h => ?_, hlong, by decide, by decide, fun h => ?_⟩
  · rw [h.1, halone] at hbehind
    cases hbehind
  · rw [← List.append_nil longRecord.bytes] at hlong
    exact houtside (h.2 _ hlong).1

/-! ## Every input -/

/-- Whatever the bytes are, no index is out of range. -/
theorem detectServerHello_returns {data : List UInt8} (h : 5 ≤ data.length) :
    (detectServerHello data).Returns fun _ => True := by
  have hrecordLen := ofBE_two_lt data[3] data[3 + 1]
  -- each access follows the check that covers it
  rw [detectServerHello, u16_of_lt (by omega) (by decide), Outcome.ret_bind,
    add_of_lt (by omega), Outcome.ret_bind]
  split
  · rename_i hrecord
    rw [get_of_lt (by omega), Outcome.ret_bind]
    split
    · split
      · rename_i hlong
        -- the session id is at most 255 bytes long, so its end is in range
        have hsidLen := data[43].toNat_lt
        rw [get_of_lt hlong, Outcome.ret_bind, add_of_lt (by omega), Outcome.ret_bind,
          add_of_lt (by omega), Outcome.ret_bind]
        split
        · rename_i hfits
          rw [u16_of_lt hfits (by omega), Outcome.ret_bind]
          split
          · exact .ret trivial
          · exact .ret trivial
        · exact .ret trivial
      · exact .ret trivial
    · exact .ret trivial
  · exact .ret trivial

/-- **Every input is looked at** without a panic. -/
theorem detectInnerTls13_returns (data : List UInt8) :
    (detectInnerTls13 data).Returns fun _ => True := by
  rw [detectInnerTls13]
  split
  · exact .ret trivial
  · rename_i hshort
    have hlong : 5 ≤ data.length := by omega
    rw [get_of_lt (by omega), Outcome.ret_bind, u16_of_lt (by omega) (by decide), Outcome.ret_bind]
    dsimp only
    -- after the handshake records, those with application data
    have happlication (c : Prop) [Decidable c] :
        (if c then pure (some (0x0304, 0x1301)) else pure none :
          Outcome (Option (UInt16 × UInt16))).Returns fun _ => True := by
      split <;> exact .ret trivial
    by_cases hhandshake : data[0] = tlsHandshake ∧ ofBE [data[1], data[1 + 1]] = 0x0303
    · rw [if_pos hhandshake]
      refine (detectServerHello_returns hlong).bind fun found _ => ?_
      cases found with
      | some r => exact .ret trivial
      | none => exact happlication _
    · rw [if_neg hhandshake]
      exact happlication _

end Fogged.Spec.InnerTls
