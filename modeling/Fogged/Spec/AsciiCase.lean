import Mathlib.Data.FinEnum
import Mathlib.Data.List.Find
import Fogged.ForStd.SplitOn
import Fogged.Native.Whitelist

/-!
# Where ASCII case does not matter

Lower-casing moves letters to letters and leaves everything else alone. So it goes through
every step that looks for digits, separators or white space only: the parser of IP literals
takes the same values from a text and leaves the same rest, lower-cased, and trimming takes
the same characters away.

## Key results

- `parse_toAsciiLowercase`: IP literals
- `trim_toAsciiLowercase`: white space
-/

namespace Fogged.Spec.AsciiCase

open Fogged.Native Fogged.Native.Handshake Fogged.Native.Whitelist

/-! ## Bytes -/

/-- Digits have the same value in both cases. -/
theorem digit?_lowerByte (b : UInt8) : Hex.digit? (lowerByte b) = Hex.digit? b := by
  revert b
  decide +kernel

/-- There is nothing to lower a second time. -/
theorem lowerByte_lowerByte (b : UInt8) : lowerByte (lowerByte b) = lowerByte b := by
  revert b
  decide +kernel

theorem toAsciiLowercase_idem (text : Text) :
    toAsciiLowercase (toAsciiLowercase text) = toAsciiLowercase text := by
  simp [toAsciiLowercase, lowerByte_lowerByte]

/-- Lower-casing neither changes the byte nor makes another byte to it. -/
def Caseless (c : UInt8) : Prop := ∀ b, lowerByte b = c ↔ b = c

def isLetter (c : UInt8) : Bool := 0x41 ≤ c && c ≤ 0x5A || 0x61 ≤ c && c ≤ 0x7A

/-- Whatever is not a letter is caseless. -/
theorem caseless_of_not_letter {c : UInt8} (h : isLetter c = false) : Caseless c := by
  intro b
  unfold lowerByte
  split
  · -- an upper-case letter, and a lower-case one instead
    rename_i hupper
    constructor
    · rintro rfl
      have hlower : isLetter (b + 0x20) = true := by
        simp only [isLetter, UInt8.le_iff_toNat_le, Bool.or_eq_true, Bool.and_eq_true,
          decide_eq_true_eq, UInt8.toNat_add, UInt8.reduceToNat] at hupper ⊢
        omega
      rw [h] at hlower
      cases hlower
    · rintro rfl
      simp [isLetter, hupper] at h
  · exact Iff.rfl

/-! ## IP literals -/

open IpAddr

/-- What a part of the parser has taken, with the rest in lower case. -/
def lowerRest {α : Type} (r : α × Text) : α × Text := (r.1, toAsciiLowercase r.2)

/-- The same digits are taken. -/
theorem spanDigits_lower (radix : Nat) (text : Text) :
    spanDigits radix (toAsciiLowercase text) = lowerRest (spanDigits radix text) := by
  induction text with
  | nil => rfl
  | cons b text ih =>
    have hdigit : toDigit radix (lowerByte b) = toDigit radix b := by
      rw [toDigit, toDigit, digit?_lowerByte]
    show spanDigits radix (lowerByte b :: toAsciiLowercase text) = _
    rw [spanDigits, spanDigits, hdigit, ih]
    cases toDigit radix b <;> rfl

/-- The same number is read. -/
theorem readNumber_lower (radix maxDigits bound : Nat) (allowZeroPrefix : Bool) (text : Text) :
    readNumber radix maxDigits bound allowZeroPrefix (toAsciiLowercase text) =
      (readNumber radix maxDigits bound allowZeroPrefix text).map lowerRest := by
  simp only [readNumber, spanDigits_lower, lowerRest]
  split
  · rfl
  · split <;> rfl

/-- A caseless character is found in both or in neither. -/
theorem readGivenChar_lower {c : UInt8} (hc : Caseless c) (text : Text) :
    readGivenChar c (toAsciiLowercase text) = (readGivenChar c text).map toAsciiLowercase := by
  cases text with
  | nil => rfl
  | cons b text =>
    show readGivenChar c (lowerByte b :: toAsciiLowercase text) = _
    rw [readGivenChar, readGivenChar]
    by_cases hb : b = c
    · rw [if_pos ((hc b).2 hb), if_pos hb]
      rfl
    · rw [if_neg (mt (hc b).1 hb), if_neg hb]
      rfl

/-- The same for a part behind a separator. -/
theorem readSeparator_lower {α : Type} {sep : UInt8} (hsep : Caseless sep) (index : Nat)
    {inner : Text → Option (α × Text)}
    (hinner : ∀ text, inner (toAsciiLowercase text) = (inner text).map lowerRest) (text : Text) :
    readSeparator sep index inner (toAsciiLowercase text) =
      (readSeparator sep index inner text).map lowerRest := by
  rw [readSeparator, readSeparator]
  split
  · exact hinner text
  · rw [readGivenChar_lower hsep]
    cases readGivenChar sep text with
    | none => rfl
    | some rest => exact hinner rest

/-- The octets of an IPv4 address, by induction on how many are left. -/
theorem readOctets_lower (index count : Nat) (text : Text) :
    readOctets index count (toAsciiLowercase text) =
      (readOctets index count text).map lowerRest := by
  induction count generalizing index text with
  | zero => rfl
  | succ count ih =>
    -- neither the separator nor a decimal digit is a letter
    rw [IpAddr.readOctets, IpAddr.readOctets,
      readSeparator_lower (caseless_of_not_letter rfl) index
        (readNumber_lower 10 3 256 false)]
    cases readSeparator 0x2E index (readNumber 10 3 256 false) text with
    | none => rfl
    | some r =>
      obtain ⟨octet, rest⟩ := r
      simp only [Option.map_some, lowerRest, Option.bind_eq_bind, Option.bind_some, ih]
      cases readOctets (index + 1) count rest <;> rfl

/-- The groups of an IPv6 address, with an IPv4 address perhaps at the end. -/
theorem readGroups_lower (index left : Nat) (text : Text) :
    readGroups index left (toAsciiLowercase text) =
      ((readGroups index left text).1, lowerRest (readGroups index left text).2) := by
  induction left generalizing index text with
  | zero => rfl
  | succ left ih =>
    -- an IPv4 address at the end has no letters
    have hembedded : (if 0 < left then readSeparator 0x3A index readIpv4Addr (toAsciiLowercase text)
        else none) =
        (if 0 < left then readSeparator 0x3A index readIpv4Addr text else none).map lowerRest := by
      split
      · exact readSeparator_lower (caseless_of_not_letter rfl) index (readOctets_lower 0 4) text
      · rfl
    rw [readGroups, readGroups, hembedded,
      readSeparator_lower (caseless_of_not_letter rfl) index (readNumber_lower 16 4 65536 true)]
    cases if 0 < left then readSeparator 0x3A index readIpv4Addr text else none with
    | some r => rfl
    | none =>
      cases readSeparator 0x3A index (readNumber 16 4 65536 true) text with
      | none => rfl
      | some r =>
        obtain ⟨g, rest⟩ := r
        simp only [Option.map_none, Option.map_some, lowerRest, ih]

/-- The groups before and behind `::`. -/
theorem readIpv6Addr_lower (text : Text) :
    readIpv6Addr (toAsciiLowercase text) = (readIpv6Addr text).map lowerRest := by
  rw [readIpv6Addr, readIpv6Addr, readGroups_lower]
  generalize readGroups 0 8 text = r
  obtain ⟨head, headIpv4, rest⟩ := r
  simp only [lowerRest]
  by_cases hfull : head.length = 8
  · rw [if_pos hfull, if_pos hfull]
    rfl
  · cases headIpv4 with
    | true =>
      rw [if_neg hfull, if_neg hfull]
      rfl
    | false =>
      -- the two colons, and the groups behind them
      rw [if_neg hfull, if_neg hfull, readGivenChar_lower (caseless_of_not_letter rfl)]
      cases readGivenChar 0x3A rest with
      | none => rfl
      | some rest =>
        simp only [Bool.false_eq_true, if_false, Option.map_some, Option.bind_eq_bind,
          Option.bind_some]
        rw [readGivenChar_lower (caseless_of_not_letter rfl)]
        cases readGivenChar 0x3A rest with
        | none => rfl
        | some rest =>
          simp only [Option.map_some, Option.bind_some, readGroups_lower, lowerRest]

/-- **IP literals** are read the same in either case. -/
theorem parse_toAsciiLowercase (text : Text) :
    IpAddr.parse (toAsciiLowercase text) = IpAddr.parse text := by
  have h4 : readIpv4Addr (toAsciiLowercase text) = (readIpv4Addr text).map lowerRest :=
    readOctets_lower 0 4 text
  rw [IpAddr.parse, IpAddr.parse, h4, readIpv6Addr_lower]
  -- nothing is left over in lower case exactly if nothing is left over
  cases readIpv4Addr text with
  | some r =>
    obtain ⟨octets, rest⟩ := r
    cases rest <;> rfl
  | none =>
    cases readIpv6Addr text with
    | none => rfl
    | some r =>
      obtain ⟨groups, rest⟩ := r
      cases rest <;> rfl

/-! ## White space -/

/-- A caseless text starts both or neither. -/
theorem isPrefixOf_lower {c : Text} (hc : ∀ b ∈ c, Caseless b) (text : Text) :
    c.isPrefixOf (toAsciiLowercase text) = c.isPrefixOf text := by
  induction c generalizing text with
  | nil => simp
  | cons b c ih =>
    cases text with
    | nil => rfl
    | cons a text =>
      have hhead : (b == lowerByte a) = (b == a) := by
        rw [Bool.eq_iff_iff, beq_iff_eq, beq_iff_eq, eq_comm, hc b List.mem_cons_self a, eq_comm]
      show (b == lowerByte a && c.isPrefixOf (toAsciiLowercase text)) = _
      rw [hhead, ih (fun x hx => hc x (List.mem_cons_of_mem b hx))]
      rfl

/-- The same white space is taken off the front. -/
theorem stripFront_lower {chars : List Text} (hchars : ∀ c ∈ chars, ∀ b ∈ c, Caseless b)
    (fuel : Nat) (text : Text) :
    stripFront chars fuel (toAsciiLowercase text) =
      toAsciiLowercase (stripFront chars fuel text) := by
  induction fuel generalizing text with
  | zero => rfl
  | succ fuel ih =>
    -- the same character is found at the front
    have hfind : chars.find? (·.isPrefixOf (toAsciiLowercase text)) =
        chars.find? (·.isPrefixOf text) :=
      List.find?_congr fun c hc => isPrefixOf_lower (hchars c hc) text
    rw [stripFront, stripFront, hfind]
    cases chars.find? (·.isPrefixOf text) with
    | none => rfl
    | some c =>
      show stripFront chars fuel ((toAsciiLowercase text).drop c.length) = _
      rw [show (toAsciiLowercase text).drop c.length = toAsciiLowercase (text.drop c.length) from
        (List.map_drop ..).symm, ih]

/-- White space has no letters, in any of its encodings. -/
theorem caseless_whiteSpace : ∀ c ∈ whiteSpace, ∀ b ∈ c, Caseless b := by
  have hspace : (whiteSpace.all fun c => c.all fun b => !isLetter b) = true := by decide
  intro c hc b hb
  have hletter := List.all_eq_true.1 (List.all_eq_true.1 hspace c hc) b hb
  rw [Bool.not_eq_true'] at hletter
  exact caseless_of_not_letter hletter

/-- **White space** at both ends is the same in either case. -/
theorem trim_toAsciiLowercase (text : Text) :
    trim (toAsciiLowercase text) = toAsciiLowercase (trim text) := by
  have hlen (t : Text) : (toAsciiLowercase t).length = t.length := List.length_map ..
  have hreverse (t : Text) : (toAsciiLowercase t).reverse = toAsciiLowercase t.reverse :=
    List.map_reverse.symm
  have hspace : ∀ c ∈ whiteSpace.map List.reverse, ∀ b ∈ c, Caseless b := by
    intro c hc b hb
    obtain ⟨d, hd, rfl⟩ := List.mem_map.1 hc
    exact caseless_whiteSpace d hd b (List.mem_reverse.1 hb)
  simp only [trim]
  rw [hlen, stripFront_lower caseless_whiteSpace, hlen, hreverse, stripFront_lower hspace, hreverse]

end Fogged.Spec.AsciiCase
