import Mathlib.Data.List.OfFn

/-!
# Hexadecimal text

A string is its UTF-8 bytes. Digits are read in either case, as
`char::to_digit(16)` does, and written in lower case; `fromStrRadix` is
`u8::from_str_radix(_, 16)`, leading `+` and overflow check included. A text of
digits can be read two digits at a time, and one of lower-case digits survives being
written again.
-/

namespace Hex

/-- The value of an ASCII hexadecimal digit. -/
def digit? (b : UInt8) : Option Nat :=
  if 0x30 ≤ b ∧ b ≤ 0x39 then some (b.toNat - 0x30)
  else if 0x61 ≤ b ∧ b ≤ 0x66 then some (b.toNat - 0x61 + 10)
  else if 0x41 ≤ b ∧ b ≤ 0x46 then some (b.toNat - 0x41 + 10)
  else none

/-- The lower-case digit of a value below 16. -/
def digit (n : Nat) : UInt8 :=
  if n < 10 then UInt8.ofNat (0x30 + n) else UInt8.ofNat (0x61 + (n - 10))

/-- Two lower-case digits for each byte. -/
def encode (bytes : List UInt8) : List UInt8 :=
  bytes.flatMap fun b => [digit (b.toNat / 16), digit (b.toNat % 16)]

/-- Digits from the left, as long as the number fits a byte. -/
def parseDigits (acc : Nat) : List UInt8 → Option UInt8
  | [] => some (UInt8.ofNat acc)
  | b :: bs =>
    match digit? b with
    | none => none
    | some d => if 16 * acc + d ≤ 255 then parseDigits (16 * acc + d) bs else none

/-- A number below 256 with an optional leading `+`. -/
def fromStrRadix (text : List UInt8) : Option UInt8 :=
  match text with
  | [] => none
  | 0x2B :: digits => if digits = [] then none else parseDigits 0 digits
  | digits => parseDigits 0 digits

/-- The list in pieces of two; the last may be shorter (`chunks(2)`). -/
def pairs : List UInt8 → List (List UInt8)
  | [] => []
  | [x] => [[x]]
  | x :: y :: rest => [x, y] :: pairs rest

/-- A lower-case digit. -/
def IsLower (b : UInt8) : Prop := 0x30 ≤ b ∧ b ≤ 0x39 ∨ 0x61 ≤ b ∧ b ≤ 0x66

instance : DecidablePred IsLower := fun _ => inferInstanceAs (Decidable (_ ∨ _))

/-- The digits that are written. -/
theorem isLower_digit {n : Nat} (h : n < 16) : IsLower (digit n) := by
  revert n
  decide

/-- What is written is lower-case digits. -/
theorem isLower_of_mem_encode {bytes : List UInt8} {b : UInt8} (h : b ∈ encode bytes) :
    IsLower b := by
  obtain ⟨a, -, hb⟩ := List.mem_flatMap.1 h
  have ha := a.toNat_lt
  rw [List.mem_cons, List.mem_singleton] at hb
  obtain rfl | rfl := hb
  · exact isLower_digit (by omega)
  · exact isLower_digit (by omega)

/-- A lower-case digit is the digit of its value. -/
theorem digit_of_isLower {b : UInt8} (h : IsLower b) :
    ∃ d, digit? b = some d ∧ d < 16 ∧ digit d = b := by
  simp only [IsLower, UInt8.le_iff_toNat_le] at h
  obtain ⟨hlo, hhi⟩ | ⟨hlo, hhi⟩ := h
  · -- `0` to `9`
    have hlo' : 48 ≤ b.toNat := hlo
    have hhi' : b.toNat ≤ 57 := hhi
    refine ⟨b.toNat - 48, ?_, by omega, ?_⟩
    · rw [digit?, if_pos ⟨UInt8.le_iff_toNat_le.2 hlo, UInt8.le_iff_toNat_le.2 hhi⟩]
    · rw [digit, if_pos (by omega)]
      apply UInt8.toNat_inj.mp
      rw [UInt8.toNat_ofNat']
      omega
  · -- `a` to `f`
    have hlo' : 97 ≤ b.toNat := hlo
    have hhi' : b.toNat ≤ 102 := hhi
    have hnot : ¬ (0x30 ≤ b ∧ b ≤ 0x39) := by
      rintro ⟨-, hle⟩
      have hle' : b.toNat ≤ 57 := UInt8.le_iff_toNat_le.1 hle
      omega
    refine ⟨b.toNat - 97 + 10, ?_, by omega, ?_⟩
    · rw [digit?, if_neg hnot, if_pos ⟨UInt8.le_iff_toNat_le.2 hlo, UInt8.le_iff_toNat_le.2 hhi⟩]
    · rw [digit, if_neg (by omega)]
      apply UInt8.toNat_inj.mp
      rw [UInt8.toNat_ofNat']
      omega

/-- Digits are ASCII, and their values are below 16. -/
theorem lt_of_digit? {b : UInt8} {d : Nat} (h : digit? b = some d) : b < 0x80 ∧ d < 16 := by
  unfold digit? at h
  split at h
  · -- decimal digits, small letters and capitals
    rename_i hb
    cases h
    have hle : b.toNat ≤ 57 := UInt8.le_iff_toNat_le.1 hb.2
    exact ⟨UInt8.lt_of_le_of_lt hb.2 (by decide), by omega⟩
  · split at h
    · rename_i hb
      cases h
      have hle : b.toNat ≤ 102 := UInt8.le_iff_toNat_le.1 hb.2
      exact ⟨UInt8.lt_of_le_of_lt hb.2 (by decide), by omega⟩
    · split at h
      · rename_i hb
        cases h
        have hle : b.toNat ≤ 70 := UInt8.le_iff_toNat_le.1 hb.2
        exact ⟨UInt8.lt_of_le_of_lt hb.2 (by decide), by omega⟩
      · cases h

/-- A text that starts with a digit has no sign. -/
theorem fromStrRadix_cons {b : UInt8} {d : Nat} (h : digit? b = some d) (rest : List UInt8) :
    fromStrRadix (b :: rest) = parseDigits d rest := by
  -- a plus sign would be skipped
  have hplus : b ≠ 0x2B := by
    rintro rfl
    cases h
  have hparse : fromStrRadix (b :: rest) = parseDigits 0 (b :: rest) := by
    unfold fromStrRadix
    split
    · rename_i heq
      cases heq
    · rename_i heq
      exact absurd (List.cons.inj heq).1 hplus
    · rfl
  have hd := (lt_of_digit? h).2
  rw [hparse, parseDigits, h]
  simp only [Nat.mul_zero, Nat.zero_add]
  rw [if_pos (by omega)]

/-- Two lower-case digits are a byte, and the byte is written with them. -/
theorem fromStrRadix_pair {x y : UInt8} (hx : IsLower x) (hy : IsLower y) :
    ∃ b, fromStrRadix [x, y] = some b ∧ encode [b] = [x, y] := by
  obtain ⟨d, hd, hd16, hdx⟩ := digit_of_isLower hx
  obtain ⟨e, he, he16, hey⟩ := digit_of_isLower hy
  -- two digits fit a byte
  have hb : (UInt8.ofNat (16 * d + e)).toNat = 16 * d + e := by
    rw [UInt8.toNat_ofNat']
    omega
  refine ⟨UInt8.ofNat (16 * d + e), ?_, ?_⟩
  · rw [fromStrRadix_cons hd]
    simp only [parseDigits, he]
    rw [if_pos (by omega)]
  · have hhi : (16 * d + e) / 16 = d := by omega
    have hlo : (16 * d + e) % 16 = e := by omega
    simp only [encode, List.flatMap_cons, List.flatMap_nil, hb, hhi, hlo, hdx, hey]
    rfl

/-! ## Pieces of digits -/

/-- Every piece of a text of digits is a number. -/
theorem isSome_fromStrRadix_of_mem_pairs {text : List UInt8}
    (h : ∀ b ∈ text, (digit? b).isSome = true) :
    ∀ piece ∈ pairs text, (fromStrRadix piece).isSome = true := by
  fun_induction pairs text with
  | case1 => simp
  | case2 x =>
    intro piece hpiece
    obtain ⟨d, hd⟩ := Option.isSome_iff_exists.1 (h x (by simp))
    rw [List.mem_singleton.1 hpiece, fromStrRadix_cons hd]
    rfl
  | case3 x y rest ih =>
    intro piece hpiece
    obtain rfl | hrest := List.mem_cons.1 hpiece
    · obtain ⟨d, hd⟩ := Option.isSome_iff_exists.1 (h x (by simp))
      obtain ⟨e, he⟩ := Option.isSome_iff_exists.1 (h y (by simp))
      -- two digits are at most 255, so the sum does not overflow
      have hd16 := (lt_of_digit? hd).2
      have he16 := (lt_of_digit? he).2
      rw [fromStrRadix_cons hd, parseDigits, he]
      simp only
      rw [if_pos (by omega)]
      rfl
    · exact ih (fun b hb => h b (by simp [hb])) piece hrest

/-- The last piece may be a single byte. -/
theorem length_pairs (text : List UInt8) : (pairs text).length = (text.length + 1) / 2 := by
  fun_induction pairs text with
  | case1 => rfl
  | case2 x => simp
  | case3 x y rest ih =>
    simp only [List.length_cons, ih]
    omega

/-- **Reading and writing again**: an even number of lower-case digits, read two at
    a time, are bytes that are written with these digits. -/
theorem pairs_fromStrRadix (n : Nat) (text : List UInt8) (hlen : text.length = 2 * n)
    (h : ∀ b ∈ text, IsLower b) :
    ∃ bytes : List UInt8, bytes.length = n ∧
      (pairs text).map fromStrRadix = bytes.map some ∧ encode bytes = text := by
  -- two digits at a time, as `pairs` takes them
  induction n generalizing text with
  | zero =>
    rw [List.eq_nil_of_length_eq_zero hlen]
    exact ⟨[], rfl, rfl, rfl⟩
  | succ n ih =>
    match text, hlen with
    | x :: y :: rest, hlen =>
      obtain ⟨b, hb, henc⟩ := fromStrRadix_pair (h x (by simp)) (h y (by simp))
      have hrestLen : rest.length = 2 * n := by
        simp only [List.length_cons] at hlen
        omega
      obtain ⟨bytes, hn, hmap, hbytes⟩ := ih rest hrestLen (fun z hz => h z (by simp [hz]))
      refine ⟨b :: bytes, by simp [hn], ?_, ?_⟩
      · simp only [pairs, List.map_cons, hb, hmap]
      · show encode ([b] ++ bytes) = [x, y] ++ rest
        rw [encode, List.flatMap_append]
        show encode [b] ++ encode bytes = _
        rw [henc, hbytes]

/-- The pieces at the positions `0, 2, 4, …`. -/
theorem ofFn_eq_pairs (n : Nat) (text : List UInt8) (hlen : text.length = 2 * n) :
    List.ofFn (fun i : Fin n => (text.drop (i.val * 2)).take 2) = pairs text := by
  induction n generalizing text with
  | zero =>
    rw [List.eq_nil_of_length_eq_zero hlen]
    rfl
  | succ n ih =>
    match text, hlen with
    | x :: y :: rest, hlen =>
      have hrestLen : rest.length = 2 * n := by
        simp only [List.length_cons] at hlen
        omega
      rw [List.ofFn_succ, pairs, ← ih rest hrestLen]
      -- the pieces of the rest are two positions further on
      congr 2
      funext i
      show (List.drop ((i.val + 1) * 2) (x :: y :: rest)).take 2 = _
      rw [Nat.succ_mul]
      rfl

end Hex
