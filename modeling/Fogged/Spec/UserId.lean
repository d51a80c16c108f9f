import Mathlib.Data.List.Forall2
import Mathlib.Data.Vector.Basic
import Fogged.Native.ClientAuth

/-!
# The user id on the command line

TCP and QUIC mode pick the hexadecimal digits out of the text and read the first 32 of them;
fewer stop the program. CDN mode drops the dashes, reads what is left two bytes at a time and
drops what it cannot read; anything but 16 bytes is an error.

The two agree on a text if each piece that CDN mode can read stands for the two digits that
are next in TCP mode. Which texts do so whatever their digits are is decided by marking one
digit at a time: the first 32 have to be pairs where CDN mode cuts, too.

## Key results

- `parseUuid_eq_ret`, `parseUuid_eq_panic`: TCP and QUIC mode
- `cdnUuidBytes_of_digits`: CDN mode on digits and dashes
- `forall_alike_iff_aligned`: the texts that are read alike whatever their digits are
- `same_identity_iff`: when all transports read the same
-/

namespace Fogged.Spec.UserId

open Fogged.Native.Handshake Fogged.Native.ClientAuth

/-- The hexadecimal digits of a text. -/
def digits (s : Text) : Text := s.filter isAsciiHexdigit

/-- The bytes that digits spell, two a byte. -/
def bytesOf (digits : Text) : List UInt8 :=
  (Hex.pairs digits).map fun piece => (Hex.fromStrRadix piece).getD 0

/-! ## TCP and QUIC mode -/

/-- A loop that fills an array stops at the first run-time check that fails. -/
theorem mOfFn_eq_panic {α : Type} {n : Nat} {f : Fin n → Outcome α} (hf : ∀ i, f i ≠ .diverge)
    {i : Fin n} (hi : f i = .panic) : List.Vector.mOfFn f = .panic := by
  induction n with
  | zero => exact i.elim0
  | succ n ih =>
    rw [List.Vector.mOfFn]
    cases hzero : f 0 with
    | panic => rfl
    | diverge => exact absurd hzero (hf 0)
    | ret a =>
      have hne : i ≠ 0 := by
        rintro rfl
        rw [hzero] at hi
        cases hi
      -- the check that fails is a later one
      obtain ⟨j, rfl⟩ := Fin.exists_succ_eq.2 hne
      rw [Outcome.ret_bind, ih (fun i => hf i.succ) hi]
      rfl

/-- A single digit at the end makes a byte, too. -/
theorem length_bytesOf (digits : Text) : (bytesOf digits).length = (digits.length + 1) / 2 := by
  rw [bytesOf, List.length_map, Hex.length_pairs]

/-- The first 32 digits are enough. -/
theorem parseUuid_eq_ret {s : Text} (h : 32 ≤ (digits s).length) :
    ∃ uuid : List.Vector UInt8 16, parseUuid s = .ret uuid ∧
      uuid.toList = bytesOf ((digits s).take 32) := by
  have hlen : ((digits s).take 32).length = 2 * 16 := by
    rw [List.length_take]
    omega
  -- no slice is out of range, so every pass of the loop returns
  have hbody (i : Fin 16) : i.val * 2 + 2 ≤ (s.filter isAsciiHexdigit).length := by
    have hi := i.isLt
    have hdigits : (s.filter isAsciiHexdigit).length = (digits s).length := rfl
    omega
  have hslice (i : Fin 16) : ((s.filter isAsciiHexdigit).drop (i.val * 2)).take 2 =
      (((digits s).take 32).drop (i.val * 2)).take 2 := by
    have hi := i.isLt
    rw [List.drop_take, List.take_take, Nat.min_eq_left (by omega)]
    rfl
  refine ⟨List.Vector.ofFn fun i : Fin 16 =>
    (Hex.fromStrRadix ((((digits s).take 32).drop (i.val * 2)).take 2)).getD 0, ?_, ?_⟩
  · simp only [parseUuid, hbody, if_true, hslice]
    rw [show @Outcome.ret UInt8 = pure from rfl, List.Vector.mOfFn_pure]
    rfl
  · rw [List.Vector.toList_ofFn, bytesOf, ← Hex.ofFn_eq_pairs 16 _ hlen, List.map_ofFn]
    rfl

/-- Fewer stop the program. -/
theorem parseUuid_eq_panic {s : Text} (h : (digits s).length < 32) : parseUuid s = .panic := by
  refine mOfFn_eq_panic (i := 15) ?_ ?_
  · intro i
    split <;> simp
  · rw [if_neg]
    show ¬ 15 * 2 + 2 ≤ (digits s).length
    omega

/-! ## CDN mode -/

/-- Pieces of ASCII text are text. -/
theorem validUtf8_of_mem_pairs {text : Text} (h : ∀ b ∈ text, b < 0x80) :
    ∀ piece ∈ Hex.pairs text, validUtf8 piece = true := by
  fun_induction Hex.pairs text with
  | case1 => simp
  | case2 x =>
    intro piece hpiece
    rw [List.mem_singleton.1 hpiece]
    simpa [validUtf8] using h x (by simp)
  | case3 x y rest ih =>
    intro piece hpiece
    obtain rfl | hrest := List.mem_cons.1 hpiece
    · simp [validUtf8, h x (by simp), h y (by simp)]
    · exact ih (fun b hb => h b (by simp [hb])) piece hrest

/-- Digits and dashes. -/
def DigitsAndDashes (s : Text) : Prop := ∀ b ∈ s, isAsciiHexdigit b = true ∨ b = 0x2D

/-- Without the dashes, the digits are left. -/
theorem filter_dashes {s : Text} (h : DigitsAndDashes s) : s.filter (· ≠ 0x2D) = digits s := by
  apply List.filter_congr
  intro b hb
  obtain hdigit | rfl := h b hb
  · rw [hdigit, decide_eq_true]
    rintro rfl
    cases hdigit
  · rfl

/-- CDN mode reads all digits. -/
theorem cdnUuidBytes_of_digits {s : Text} (h : DigitsAndDashes s) :
    cdnUuidBytes s = bytesOf (digits s) := by
  have hdigits (b : UInt8) (hb : b ∈ digits s) : (Hex.digit? b).isSome = true :=
    (List.mem_filter.1 hb).2
  have hascii (b : UInt8) (hb : b ∈ digits s) : b < 0x80 := by
    obtain ⟨d, hd⟩ := Option.isSome_iff_exists.1 (hdigits b hb)
    exact (Hex.lt_of_digit? hd).1
  have hvalid := validUtf8_of_mem_pairs hascii
  rw [cdnUuidBytes, filter_dashes h, bytesOf, ← List.filterMap_eq_map']
  -- no piece is dropped, so nothing moves
  apply List.filterMap_congr
  intro piece hpiece
  obtain ⟨b, hb⟩ :=
    Option.isSome_iff_exists.1 (Hex.isSome_fromStrRadix_of_mem_pairs hdigits piece hpiece)
  rw [if_pos (hvalid piece hpiece), hb]
  rfl

/-! ## Pieces -/

/-- What CDN mode cuts the text into. -/
def pieces (s : Text) : List (List UInt8) := Hex.pairs (s.filter (· ≠ 0x2D))

/-- What CDN mode makes of a piece. -/
def pieceByte? (piece : List UInt8) : Option UInt8 :=
  Hex.fromStrRadix (if validUtf8 piece then piece else ascii "00")

/-- CDN mode reads piece by piece. -/
theorem cdnUuidBytes_eq (s : Text) : cdnUuidBytes s = (pieces s).filterMap pieceByte? := rfl

/-- A piece that counts in CDN mode: two digits, a plus sign and a digit, a single digit at
    the end, or bytes that are no text, which count as `00`. -/
def readable (piece : List UInt8) : Bool :=
  !validUtf8 piece ||
    match piece with
    | [x, y] => (isAsciiHexdigit x || x = 0x2B) && isAsciiHexdigit y
    | [y] => isAsciiHexdigit y
    | _ => false

/-- A piece stands for two digits. -/
inductive Spells : List UInt8 → List UInt8 → Prop where
  | pair {x y u v : UInt8} (hx : Hex.digit? x = Hex.digit? u) (hy : Hex.digit? y = Hex.digit? v) :
      Spells [x, y] [u, v]
  | sign {y u v : UInt8} (hu : Hex.digit? u = some 0) (hy : Hex.digit? y = Hex.digit? v) :
      Spells [0x2B, y] [u, v]
  | last {y u v : UInt8} (hu : Hex.digit? u = some 0) (hy : Hex.digit? y = Hex.digit? v) :
      Spells [y] [u, v]
  | broken {piece : List UInt8} {u v : UInt8} (hpiece : validUtf8 piece = false)
      (hu : Hex.digit? u = some 0) (hv : Hex.digit? v = some 0) : Spells piece [u, v]

/-- Two digits are a byte. -/
theorem fromStrRadix_two {x y : UInt8} {d e : Nat} (hx : Hex.digit? x = some d)
    (hy : Hex.digit? y = some e) : Hex.fromStrRadix [x, y] = some (UInt8.ofNat (16 * d + e)) := by
  have hd := (Hex.lt_of_digit? hx).2
  have he := (Hex.lt_of_digit? hy).2
  rw [Hex.fromStrRadix_cons hx, Hex.parseDigits, hy]
  simp only
  rw [if_pos (by omega), Hex.parseDigits]

/-- One digit is a byte, with or without a sign. -/
theorem parseDigits_one {y : UInt8} {e : Nat} (hy : Hex.digit? y = some e) :
    Hex.parseDigits 0 [y] = some (UInt8.ofNat e) := by
  have he := (Hex.lt_of_digit? hy).2
  rw [Hex.parseDigits, hy]
  simp only [Nat.mul_zero, Nat.zero_add]
  rw [if_pos (by omega), Hex.parseDigits]

/-- Bytes that are spelled with two digits are equal if the digits are. -/
theorem ofNat_digits_inj {d e d' e' : Nat} (hd : d < 16) (he : e < 16) (hd' : d' < 16)
    (he' : e' < 16) :
    UInt8.ofNat (16 * d + e) = UInt8.ofNat (16 * d' + e') ↔ d = d' ∧ e = e' := by
  rw [← UInt8.toNat_inj, UInt8.toNat_ofNat', UInt8.toNat_ofNat']
  omega

/-- A piece without text counts as `00`. -/
theorem pieceByte?_broken {piece : List UInt8} (h : validUtf8 piece = false) :
    pieceByte? piece = some 0 := by
  rw [pieceByte?, h]
  rfl

/-- A piece that is text is read as a number in base 16. -/
theorem pieceByte?_text {piece : List UInt8} (h : validUtf8 piece = true) :
    pieceByte? piece = Hex.fromStrRadix piece := by
  rw [pieceByte?, if_pos h]

/-- A sign in front of a digit, or of anything else. -/
theorem fromStrRadix_sign (y : UInt8) :
    Hex.fromStrRadix [0x2B, y] = (Hex.digit? y).map UInt8.ofNat := by
  cases hy : Hex.digit? y with
  | none => simp [Hex.fromStrRadix, Hex.parseDigits, hy]
  | some e => exact parseDigits_one hy

/-- A single byte. -/
theorem fromStrRadix_one (y : UInt8) :
    Hex.fromStrRadix [y] = (Hex.digit? y).map UInt8.ofNat := by
  cases hy : Hex.digit? y with
  | none =>
    unfold Hex.fromStrRadix
    split
    · rfl
    · rename_i heq
      cases (List.cons.inj heq).2
      rfl
    · simp [Hex.parseDigits, hy]
  | some e => rw [Hex.fromStrRadix_cons hy, Hex.parseDigits, Option.map_some]

/-- Two bytes of which the first is no sign. -/
theorem fromStrRadix_pair_eq {x : UInt8} (hx : x ≠ 0x2B) (y : UInt8) :
    Hex.fromStrRadix [x, y] =
      (Hex.digit? x).bind fun d => (Hex.digit? y).map fun e => UInt8.ofNat (16 * d + e) := by
  cases hd : Hex.digit? x with
  | some d =>
    cases he : Hex.digit? y with
    | some e => exact fromStrRadix_two hd he
    | none => simp [Hex.fromStrRadix_cons hd, Hex.parseDigits, he]
  | none =>
    unfold Hex.fromStrRadix
    split
    · rfl
    · -- a plus sign is excluded
      rename_i heq
      exact absurd (List.cons.inj heq).1 hx
    · simp [Hex.parseDigits, hd]

/-- A hexadecimal digit is a byte that has a value. -/
theorem isAsciiHexdigit_iff {b : UInt8} : isAsciiHexdigit b = true ↔ ∃ d, Hex.digit? b = some d :=
  Option.isSome_iff_exists

/-- What CDN mode reads is a byte exactly if the piece is readable. -/
theorem isSome_pieceByte? {piece : List UInt8} (hlen : piece.length ≤ 2) :
    (pieceByte? piece).isSome = readable piece := by
  cases hvalid : validUtf8 piece with
  | false => simp [pieceByte?_broken hvalid, readable, hvalid]
  | true =>
    rw [pieceByte?_text hvalid]
    match piece, hlen with
    | [], _ => rfl
    -- an odd number of characters leaves one at the end
    | [y], _ =>
      show _ = (!validUtf8 [y] || isAsciiHexdigit y)
      rw [hvalid, fromStrRadix_one, Option.isSome_map]
      rfl
    | [x, y], _ =>
      show _ = (!validUtf8 [x, y] || ((isAsciiHexdigit x || x = 0x2B) && isAsciiHexdigit y))
      -- `from_str_radix` takes a plus sign in front
      by_cases hx : x = 0x2B
      · rw [hvalid, hx, fromStrRadix_sign, Option.isSome_map]
        rfl
      · rw [hvalid, fromStrRadix_pair_eq hx, decide_eq_false hx]
        cases hd : Hex.digit? x with
        | none => simp [isAsciiHexdigit, hd]
        | some d => simp [isAsciiHexdigit, hd, Option.isSome_map]

/-- A single digit that is read as two: the first is 0, and the second is the digit. -/
theorem digits_of_single {y : UInt8} {d e : Nat} (hd : d < 16) (he : e < 16)
    (h : (Hex.digit? y).map UInt8.ofNat = some (UInt8.ofNat (16 * d + e))) :
    d = 0 ∧ Hex.digit? y = some e := by
  obtain ⟨f, hf, hfe⟩ := Option.map_eq_some_iff.1 h
  have hdigits := (ofNat_digits_inj (d := 0) (e := f) (by omega) (Hex.lt_of_digit? hf).2 hd he).1
    (by rw [Nat.mul_zero, Nat.zero_add]; exact hfe)
  exact ⟨hdigits.1.symm, by rw [hf, hdigits.2]⟩

/-- Each spelling of two digits is read as their byte. -/
theorem pieceByte?_of_spells {piece : List UInt8} {u v : UInt8} {d e : Nat}
    (hd : Hex.digit? u = some d) (he : Hex.digit? v = some e) (h : Spells piece [u, v]) :
    pieceByte? piece = some (UInt8.ofNat (16 * d + e)) := by
  cases h with
  | @pair x y _ _ hx hy =>
    rw [hd] at hx
    rw [he] at hy
    have hvalid : validUtf8 [x, y] = true := by
      simp [validUtf8, (Hex.lt_of_digit? hx).1, (Hex.lt_of_digit? hy).1]
    rw [pieceByte?_text hvalid, fromStrRadix_two hx hy]
  | @sign y _ _ hzero hy =>
    rw [he] at hy
    cases hd.symm.trans hzero
    have hvalid : validUtf8 [0x2B, y] = true := by
      simp [validUtf8, (Hex.lt_of_digit? hy).1]
    rw [pieceByte?_text hvalid, fromStrRadix_sign, hy, Option.map_some, Nat.mul_zero,
      Nat.zero_add]
  | @last y _ _ hzero hy =>
    rw [he] at hy
    cases hd.symm.trans hzero
    have hvalid : validUtf8 [y] = true := by
      simp [validUtf8, (Hex.lt_of_digit? hy).1]
    rw [pieceByte?_text hvalid, fromStrRadix_one, hy, Option.map_some, Nat.mul_zero,
      Nat.zero_add]
  | broken hpiece hzero hzero' =>
    cases hd.symm.trans hzero
    cases he.symm.trans hzero'
    exact pieceByte?_broken hpiece

/-- Conversely, what is read as the byte of two digits is a spelling of them. -/
theorem spells_of_pieceByte? {piece : List UInt8} (hlen : piece.length ≤ 2) {u v : UInt8} {d e : Nat}
    (hd : Hex.digit? u = some d) (he : Hex.digit? v = some e)
    (h : pieceByte? piece = some (UInt8.ofNat (16 * d + e))) : Spells piece [u, v] := by
  have hd16 := (Hex.lt_of_digit? hd).2
  have he16 := (Hex.lt_of_digit? he).2
  cases hvalid : validUtf8 piece with
  | false =>
    -- the byte is 0, so both digits are
    rw [pieceByte?_broken hvalid] at h
    have hzero := (ofNat_digits_inj (d := 0) (e := 0) (by omega) (by omega) hd16 he16).1
      (Option.some.inj h)
    exact .broken hvalid (hzero.1 ▸ hd) (hzero.2 ▸ he)
  | true =>
    rw [pieceByte?_text hvalid] at h
    -- a piece of text has at most two bytes
    match piece, hlen with
    | [], _ => cases h
    | [y], _ =>
      rw [fromStrRadix_one] at h
      obtain ⟨rfl, hy⟩ := digits_of_single hd16 he16 h
      exact .last hd (hy.trans he.symm)
    | [x, y], _ =>
      -- a plus sign before one digit is accepted as well
      by_cases hx : x = 0x2B
      · subst hx
        rw [fromStrRadix_sign] at h
        obtain ⟨rfl, hy⟩ := digits_of_single hd16 he16 h
        exact .sign hd (hy.trans he.symm)
      · rw [fromStrRadix_pair_eq hx] at h
        obtain ⟨f, hf, hrest⟩ := Option.bind_eq_some_iff.1 h
        obtain ⟨g, hg, hfg⟩ := Option.map_eq_some_iff.1 hrest
        have hdigits := (ofNat_digits_inj (Hex.lt_of_digit? hf).2 (Hex.lt_of_digit? hg).2
          hd16 he16).1 hfg
        exact .pair (by rw [hf, hd, hdigits.1]) (by rw [hg, he, hdigits.2])

/-- **A piece stands for two digits** exactly if CDN mode reads what they spell. -/
theorem spells_iff {piece : List UInt8} (hlen : piece.length ≤ 2) {u v : UInt8}
    (hu : isAsciiHexdigit u = true) (hv : isAsciiHexdigit v = true) :
    Spells piece [u, v] ↔ pieceByte? piece = Hex.fromStrRadix [u, v] := by
  obtain ⟨d, hd⟩ := isAsciiHexdigit_iff.1 hu
  obtain ⟨e, he⟩ := isAsciiHexdigit_iff.1 hv
  rw [fromStrRadix_two hd he]
  exact ⟨pieceByte?_of_spells hd he, spells_of_pieceByte? hlen hd he⟩

/-! ## All transports -/

inductive Transport where
  | tcp
  | quic
  | cdn
  deriving DecidableEq

/-- The user id that a transport reads, `none` if it is refused. -/
def identity (s : Text) : Transport → Outcome (Option (List.Vector UInt8 16))
  | .tcp | .quic => do
    let uuid ← parseUuid s
    .ret (some uuid)
  | .cdn =>
    let uuidBytes := cdnUuidBytes s
    .ret (if h : uuidBytes.length = 16 then some ⟨uuidBytes, h⟩ else none)

/-- All transports refuse the text, or read the same user id. -/
def SameIdentity (s : Text) : Prop := ∃ r, ∀ t, identity s t = .ret r

/-- The three transports read the same if TCP mode has its digits and CDN mode comes to the
    same bytes. -/
theorem sameIdentity_iff_bytes (s : Text) :
    SameIdentity s ↔
      32 ≤ (digits s).length ∧ cdnUuidBytes s = bytesOf ((digits s).take 32) := by
  by_cases hlen : 32 ≤ (digits s).length
  · obtain ⟨uuid, hparse, huuid⟩ := parseUuid_eq_ret hlen
    rw [← huuid]
    constructor
    · rintro ⟨r, hr⟩
      have htcp := hr .tcp
      have hcdn := hr .cdn
      simp only [identity, hparse, Outcome.ret_bind] at htcp hcdn
      rw [← htcp] at hcdn
      obtain h := Outcome.ret.inj hcdn
      split at h
      · exact ⟨hlen, congrArg List.Vector.toList (Option.some.inj h)⟩
      · cases h
    · rintro ⟨-, hcdn⟩
      refine ⟨some uuid, fun t => ?_⟩
      have hcdnLen : (cdnUuidBytes s).length = 16 := by rw [hcdn, uuid.toList_length]
      cases t with
      | tcp | quic => simp only [identity, hparse, Outcome.ret_bind]
      | cdn =>
        simp only [identity, dif_pos hcdnLen]
        exact congrArg (Outcome.ret ∘ some) (Subtype.ext hcdn)
  · -- the program stops in TCP and QUIC mode
    refine iff_of_false ?_ (fun h => hlen h.1)
    rintro ⟨r, hr⟩
    have htcp := hr .tcp
    rw [identity, parseUuid_eq_panic (by omega)] at htcp
    cases htcp

/-- The text spells its digits: it has 32 at least, and of the pieces that count in CDN mode
    each stands for the next two of the first 32, and there are no more. -/
def Spelled (s : Text) : Prop :=
  32 ≤ (digits s).length ∧
    List.Forall₂ Spells ((pieces s).filter readable) (Hex.pairs ((digits s).take 32))

/-- CDN mode cuts after every second byte. -/
theorem length_le_of_mem_pairs {text piece : List UInt8} (h : piece ∈ Hex.pairs text) :
    piece.length ≤ 2 := by
  fun_induction Hex.pairs text with
  | case1 => cases h
  | case2 x =>
    rw [List.mem_singleton.1 h]
    exact Nat.le_succ 1
  | case3 x y rest ih =>
    obtain rfl | hrest := List.mem_cons.1 h
    · exact Nat.le_refl 2
    · exact ih hrest

/-- An even number of digits is cut into pairs of digits. -/
theorem exists_of_mem_pairs_digits {text piece : List UInt8} (hlen : text.length % 2 = 0)
    (hdigits : ∀ b ∈ text, isAsciiHexdigit b = true) (h : piece ∈ Hex.pairs text) :
    ∃ u v, piece = [u, v] ∧ isAsciiHexdigit u = true ∧ isAsciiHexdigit v = true := by
  fun_induction Hex.pairs text with
  | case1 => cases h
  | case2 x => simp at hlen
  | case3 x y rest ih =>
    obtain rfl | hrest := List.mem_cons.1 h
    · exact ⟨x, y, rfl, hdigits x (by simp), hdigits y (by simp)⟩
    · refine ih ?_ (fun b hb => hdigits b (by simp [hb])) hrest
      simp only [List.length_cons] at hlen
      omega

/-- Reading the pieces that count. -/
theorem filterMap_pieceByte? {ps : List (List UInt8)} (h : ∀ p ∈ ps, p.length ≤ 2) :
    (ps.filterMap pieceByte?).map some = (ps.filter readable).map pieceByte? := by
  induction ps with
  | nil => rfl
  | cons p ps ih =>
    have hrest := ih fun q hq => h q (List.mem_cons_of_mem _ hq)
    have hsome := isSome_pieceByte? (h p List.mem_cons_self)
    -- a piece is dropped by both sides or kept by both
    cases hbyte : pieceByte? p with
    | none =>
      rw [hbyte] at hsome
      rw [List.filterMap_cons_none hbyte, List.filter_cons_of_neg (by simp [← hsome]), hrest]
    | some byte =>
      rw [hbyte] at hsome
      rw [List.filterMap_cons_some hbyte, List.filter_cons_of_pos hsome.symm, List.map_cons,
        List.map_cons, hrest, hbyte]

/-- Pieces stand for pairs of digits, one by one, exactly if they are read alike. -/
theorem forall₂_spells_iff {ps qs : List (List UInt8)} (hps : ∀ p ∈ ps, p.length ≤ 2)
    (hqs : ∀ q ∈ qs, ∃ u v, q = [u, v] ∧ isAsciiHexdigit u = true ∧ isAsciiHexdigit v = true) :
    List.Forall₂ Spells ps qs ↔ ps.map pieceByte? = qs.map Hex.fromStrRadix := by
  induction ps generalizing qs with
  | nil => cases qs <;> simp
  | cons p ps ih =>
    cases qs with
    | nil => simp
    | cons q qs =>
      obtain ⟨u, v, rfl, hu, hv⟩ := hqs q List.mem_cons_self
      rw [List.forall₂_cons, spells_iff (hps p List.mem_cons_self) hu hv,
        ih (fun p hp => hps p (List.mem_cons_of_mem _ hp))
          (fun q hq => hqs q (List.mem_cons_of_mem _ hq)), List.map_cons, List.map_cons,
        List.cons.injEq]

/-- Byte by byte: each piece that counts stands for the next two digits. -/
theorem sameIdentity_iff_spelled (s : Text) : SameIdentity s ↔ Spelled s := by
  rw [sameIdentity_iff_bytes, Spelled]
  refine and_congr_right fun hlen => ?_
  have hdigits (b : UInt8) (hb : b ∈ (digits s).take 32) : isAsciiHexdigit b = true :=
    (List.mem_filter.1 (List.mem_of_mem_take hb)).2
  have hpairs (q : List UInt8) (hq : q ∈ Hex.pairs ((digits s).take 32)) :=
    exists_of_mem_pairs_digits (by rw [List.length_take]; omega) hdigits hq
  have hshort (p : List UInt8) (hp : p ∈ pieces s) : p.length ≤ 2 := length_le_of_mem_pairs hp
  rw [forall₂_spells_iff (fun p hp => hshort p (List.mem_of_mem_filter hp)) hpairs,
    ← filterMap_pieceByte? hshort, cdnUuidBytes_eq, bytesOf]
  -- every pair of digits is a byte, so nothing is lost by comparing options
  have hbytes : ((Hex.pairs ((digits s).take 32)).map fun q => (Hex.fromStrRadix q).getD 0).map
      some = (Hex.pairs ((digits s).take 32)).map Hex.fromStrRadix := by
    rw [List.map_map]
    apply List.map_congr_left
    intro q hq
    obtain ⟨u, v, rfl, hu, hv⟩ := hpairs q hq
    obtain ⟨d, hd⟩ := isAsciiHexdigit_iff.1 hu
    obtain ⟨e, he⟩ := isAsciiHexdigit_iff.1 hv
    simp [fromStrRadix_two hd he]
  rw [← hbytes]
  exact (List.map_injective_iff.2 (Option.some_injective UInt8)).eq_iff.symm

/-! ## Texts that differ in their digits -/

/-- Two digits. -/
def isPair (piece : List UInt8) : Bool :=
  match piece with
  | [x, y] => isAsciiHexdigit x && isAsciiHexdigit y
  | _ => false

/-- A piece that counts in no mode: it has no digit, and is text. -/
def blank (piece : List UInt8) : Bool := !readable piece && piece.all fun b => !isAsciiHexdigit b

/-- Among the pieces are `n` pairs of digits with nothing that counts in front of them and
    between them, and behind them nothing that counts in CDN mode. -/
def alignedPieces : Nat → List (List UInt8) → Bool
  | 0, ps => ps.all fun p => !readable p
  | _ + 1, [] => false
  | n + 1, p :: ps =>
    if isPair p then alignedPieces n ps else blank p && alignedPieces (n + 1) ps

/-- The first 32 digits are pairs where CDN mode cuts, too. -/
def Aligned (s : Text) : Prop := alignedPieces 16 (pieces s) = true

/-- Texts that differ in the values of their digits only. -/
def Alike (s t : Text) : Prop :=
  List.Forall₂ (fun b c => isAsciiHexdigit b = true ∧ isAsciiHexdigit c = true ∨ b = c) s t

/-- A pair is two bytes, both of them digits. -/
theorem isPair_iff {piece : List UInt8} :
    isPair piece = true ↔
      ∃ x y, piece = [x, y] ∧ isAsciiHexdigit x = true ∧ isAsciiHexdigit y = true := by
  unfold isPair
  split
  · simp
  · rename_i hne
    refine iff_of_false Bool.false_ne_true ?_
    rintro ⟨x, y, rfl, -⟩
    exact hne x y rfl

/-- Pairs count in CDN mode. -/
theorem readable_of_isPair {piece : List UInt8} (h : isPair piece = true) :
    readable piece = true := by
  obtain ⟨x, y, rfl, hx, hy⟩ := isPair_iff.1 h
  simp [readable, hx, hy]

/-- Cutting a text loses nothing. -/
theorem flatten_pairs (text : List UInt8) : (Hex.pairs text).flatten = text := by
  fun_induction Hex.pairs text with
  | case1 => rfl
  | case2 x => rfl
  | case3 x y rest ih => simp [ih]

/-- Pairs are cut into pairs. -/
theorem pairs_flatten {ps : List (List UInt8)} (h : ∀ p ∈ ps, isPair p = true) :
    Hex.pairs ps.flatten = ps := by
  induction ps with
  | nil => rfl
  | cons p ps ih =>
    obtain ⟨x, y, rfl, -, -⟩ := isPair_iff.1 (h p List.mem_cons_self)
    show [x, y] :: Hex.pairs ps.flatten = _
    rw [ih fun q hq => h q (List.mem_cons_of_mem _ hq)]

/-- The digits of the text are those of its pieces. -/
theorem digits_eq_flatten (s : Text) :
    digits s = (pieces s).flatten.filter isAsciiHexdigit := by
  rw [pieces, flatten_pairs, List.filter_filter, digits]
  apply List.filter_congr
  intro b _
  by_cases hb : b = 0x2D
  · subst hb
    rfl
  · simp [hb]

/-- A blank piece neither counts nor has digits. -/
theorem blank_iff {piece : List UInt8} :
    blank piece = true ↔ readable piece = false ∧ ∀ b ∈ piece, isAsciiHexdigit b = false := by
  simp [blank]

/-- Each pair has two digits. -/
theorem length_flatten_pairs {ps : List (List UInt8)} (h : ∀ p ∈ ps, isPair p = true) :
    ps.flatten.length = 2 * ps.length := by
  induction ps with
  | nil => rfl
  | cons p ps ih =>
    obtain ⟨x, y, rfl, -, -⟩ := isPair_iff.1 (h p List.mem_cons_self)
    rw [List.flatten_cons, List.length_append, ih fun q hq => h q (List.mem_cons_of_mem _ hq)]
    simp only [List.length_cons, List.length_nil]
    omega

/-- In aligned pieces, those that count are the pairs, and their digits come first. -/
theorem exists_of_alignedPieces {n : Nat} {ps : List (List UInt8)}
    (h : alignedPieces n ps = true) :
    (ps.filter readable).length = n ∧ (∀ p ∈ ps.filter readable, isPair p = true) ∧
      ∃ rest, ps.flatten.filter isAsciiHexdigit = (ps.filter readable).flatten ++ rest := by
  fun_induction alignedPieces n ps with
  -- all pairs have been found, and nothing else counts
  | case1 ps =>
    have hnone : ps.filter readable = [] := by
      rw [List.filter_eq_nil_iff]
      intro p hp
      simpa using List.all_eq_true.1 h p hp
    rw [hnone]
    exact ⟨rfl, by simp, _, rfl⟩
  | case2 n => cases h
  -- the next pair
  | case3 n p ps hpair ih =>
    obtain ⟨hlen, hall, rest, hrest⟩ := ih h
    rw [List.filter_cons_of_pos (readable_of_isPair hpair)]
    refine ⟨by rw [List.length_cons, hlen], List.forall_mem_cons.2 ⟨hpair, hall⟩, rest, ?_⟩
    obtain ⟨x, y, rfl, hx, hy⟩ := isPair_iff.1 hpair
    simp [hx, hy, hrest]
  -- a blank piece changes neither side
  | case4 n p ps hpair ih =>
    obtain ⟨hblank, haligned⟩ := Bool.and_eq_true_iff.1 h
    obtain ⟨hread, hdigits⟩ := blank_iff.1 hblank
    have hnone : p.filter isAsciiHexdigit = [] := by
      rw [List.filter_eq_nil_iff]
      intro b hb
      rw [hdigits b hb]
      exact Bool.false_ne_true
    rw [List.filter_cons_of_neg (by rw [hread]; exact Bool.false_ne_true), List.flatten_cons,
      List.filter_append, hnone, List.nil_append]
    exact ih haligned

/-- **Aligned texts are read alike.** -/
theorem spelled_of_aligned {s : Text} (h : Aligned s) : Spelled s := by
  obtain ⟨hcount, hpairs, rest, hrest⟩ := exists_of_alignedPieces h
  have hlen : ((pieces s).filter readable).flatten.length = 32 := by
    rw [length_flatten_pairs hpairs, hcount]
  rw [← digits_eq_flatten] at hrest
  refine ⟨by rw [hrest, List.length_append, hlen]; omega, ?_⟩
  rw [hrest, List.take_left' hlen, pairs_flatten hpairs, List.forall₂_same]
  intro p hp
  obtain ⟨x, y, rfl, -, -⟩ := isPair_iff.1 (hpairs p hp)
  exact .pair rfl rfl

/-! ## Marked digits -/

/-- All digits are 0, but digit `i` is 1. -/
def mark (i k : Nat) : UInt8 := if k = i then 0x31 else 0x30

/-- The text with its digits, of which the first is digit `k`, marked. -/
def assign (i : Nat) : Nat → Text → Text
  | _, [] => []
  | k, b :: s =>
    if isAsciiHexdigit b then mark i k :: assign i (k + 1) s else b :: assign i k s

/-- A marked digit is a digit. -/
theorem isAsciiHexdigit_mark (i k : Nat) : isAsciiHexdigit (mark i k) = true := by
  unfold mark
  split <;> rfl

/-- A marked digit is no dash, so it is cut like the digit it stands for. -/
theorem mark_ne_dash (i k : Nat) : mark i k ≠ 0x2D := by
  unfold mark
  split <;> decide

/-- The marked digit has the value 1. -/
theorem digit?_mark_self (i : Nat) : Hex.digit? (mark i i) = some 1 := by
  rw [mark, if_pos rfl]
  rfl

/-- All others have the value 0. -/
theorem digit?_mark_of_ne {i k : Nat} (h : k ≠ i) : Hex.digit? (mark i k) = some 0 := by
  rw [mark, if_neg h]
  rfl

/-- Marking changes nothing but values of digits. -/
theorem alike_assign (i k : Nat) (s : Text) : Alike s (assign i k s) := by
  induction s generalizing k with
  | nil => exact .nil
  | cons b s ih =>
    rw [assign]
    split
    · rename_i hb
      exact .cons (.inl ⟨hb, isAsciiHexdigit_mark i k⟩) (ih (k + 1))
    · exact .cons (.inr rfl) (ih k)

/-- Marking commutes with the removal of the dashes. -/
theorem filter_assign (i k : Nat) (s : Text) :
    (assign i k s).filter (· ≠ 0x2D) = assign i k (s.filter (· ≠ 0x2D)) := by
  induction s generalizing k with
  | nil => rfl
  | cons b s ih =>
    by_cases hb : isAsciiHexdigit b = true
    · -- a digit is no dash, and stays
      have hdash : b ≠ 0x2D := by
        rintro rfl
        cases hb
      rw [assign, if_pos hb, List.filter_cons_of_pos (by simpa using mark_ne_dash i k), ih,
        List.filter_cons_of_pos (by simpa using hdash), assign, if_pos hb]
    · rw [assign, if_neg hb]
      -- a dash has no number of its own
      by_cases hdash : b = 0x2D
      · rw [List.filter_cons_of_neg (by simpa using hdash), ih,
          List.filter_cons_of_neg (by simpa using hdash)]
      · rw [List.filter_cons_of_pos (by simpa using hdash), ih,
          List.filter_cons_of_pos (by simpa using hdash), assign, if_neg hb]

/-- The digits of a marked text are the marks in their order. -/
theorem digits_assign (i k : Nat) (s : Text) :
    digits (assign i k s) = (List.range' k (digits s).length).map (mark i) := by
  induction s generalizing k with
  | nil => rfl
  | cons b s ih =>
    simp only [digits] at ih ⊢
    rw [assign]
    split
    · rename_i hb
      rw [List.filter_cons_of_pos (isAsciiHexdigit_mark i k), ih, List.filter_cons_of_pos hb]
      rfl
    · rename_i hb
      rw [List.filter_cons_of_neg hb, ih, List.filter_cons_of_neg hb]

/-- The pieces with their digits marked. -/
def assignPieces (i : Nat) : Nat → List (List UInt8) → List (List UInt8)
  | _, [] => []
  | k, p :: ps => assign i k p :: assignPieces i (k + (digits p).length) ps

/-- Marking commutes with cutting. -/
theorem pairs_assign (i k : Nat) (text : Text) :
    Hex.pairs (assign i k text) = assignPieces i k (Hex.pairs text) := by
  fun_induction Hex.pairs text generalizing k with
  | case1 => rfl
  | case2 x =>
    simp only [assign, assignPieces]
    split <;> rfl
  | case3 x y rest ih =>
    by_cases hx : isAsciiHexdigit x = true <;> by_cases hy : isAsciiHexdigit y = true <;>
      simp [assign, assignPieces, digits, Hex.pairs, hx, hy, ← ih]

/-- The pieces of a marked text, by the two lemmas above. -/
theorem pieces_assign (i : Nat) (s : Text) :
    pieces (assign i 0 s) = assignPieces i 0 (pieces s) := by
  rw [pieces, filter_assign, pairs_assign]
  rfl

/-- Digits are ASCII, and none is a sign. -/
theorem lt_of_isAsciiHexdigit {b : UInt8} (h : isAsciiHexdigit b = true) :
    b < 0x80 ∧ ¬ 0x80 ≤ b ∧ ¬ 0xC2 ≤ b ∧ b ≠ 0x2B := by
  obtain ⟨d, hd⟩ := isAsciiHexdigit_iff.1 h
  have hlt := (Hex.lt_of_digit? hd).1
  refine ⟨hlt, UInt8.not_le.2 hlt, UInt8.not_le.2 (UInt8.lt_trans hlt (by decide)), ?_⟩
  rintro rfl
  cases hd

/-- Whether a piece counts does not depend on the values of its digits. -/
theorem Alike.readable_eq {p q : List UInt8} (h : Alike p q) (hlen : p.length ≤ 2) :
    readable p = readable q := by
  match p, hlen with
  | [], _ =>
    cases h
    rfl
  | [y], _ =>
    obtain ⟨y', _, hy, hnil, rfl⟩ := List.forall₂_cons_left_iff.1 h
    cases hnil
    obtain ⟨hy, hy'⟩ | rfl := hy
    · simp [readable, validUtf8, hy, hy', lt_of_isAsciiHexdigit hy, lt_of_isAsciiHexdigit hy']
    · rfl
  | [x, y], _ =>
    obtain ⟨x', _, hx, hrest, rfl⟩ := List.forall₂_cons_left_iff.1 h
    obtain ⟨y', _, hy, hnil, rfl⟩ := List.forall₂_cons_left_iff.1 hrest
    cases hnil
    -- each byte is a digit in both pieces, or the same in both
    obtain ⟨hx, hx'⟩ | rfl := hx <;> obtain ⟨hy, hy'⟩ | rfl := hy
    · simp [readable, validUtf8, hx, hx', hy, hy', lt_of_isAsciiHexdigit hx,
        lt_of_isAsciiHexdigit hx', lt_of_isAsciiHexdigit hy, lt_of_isAsciiHexdigit hy']
    · simp [readable, validUtf8, hx, hx', lt_of_isAsciiHexdigit hx, lt_of_isAsciiHexdigit hx']
    · simp [readable, validUtf8, hy, hy', lt_of_isAsciiHexdigit hy, lt_of_isAsciiHexdigit hy']
    · rfl

/-- The digits stand at the same places. -/
theorem Alike.map_isAsciiHexdigit {p q : List UInt8} (h : Alike p q) :
    p.map isAsciiHexdigit = q.map isAsciiHexdigit := by
  induction h with
  | nil => rfl
  | cons hb _ ih =>
    rw [List.map_cons, List.map_cons, ih]
    obtain ⟨hb, hc⟩ | rfl := hb
    · rw [hb, hc]
    · rfl

/-- Whether a piece is a pair depends only on which of its bytes are digits. -/
theorem isPair_eq_map (p : List UInt8) : isPair p = (p.map isAsciiHexdigit == [true, true]) := by
  match p with
  | [] | [_] | _ :: _ :: _ :: _ => simp [isPair]
  | [x, y] => simp [isPair]

/-- So it does not depend on their values. -/
theorem Alike.isPair_eq {p q : List UInt8} (h : Alike p q) : isPair p = isPair q := by
  rw [isPair_eq_map, isPair_eq_map, h.map_isAsciiHexdigit]

/-- The same for blank pieces. -/
theorem Alike.blank_eq {p q : List UInt8} (h : Alike p q) (hlen : p.length ≤ 2) :
    blank p = blank q := by
  have hall (l : List UInt8) :
      (l.all fun b => !isAsciiHexdigit b) = (l.map isAsciiHexdigit).all (! ·) := by
    rw [List.all_map]
    rfl
  rw [blank, blank, h.readable_eq hlen, hall, hall, h.map_isAsciiHexdigit]

/-- Texts that differ in their digits are cut at the same places. -/
theorem Alike.pairs {s t : List UInt8} (h : Alike s t) :
    List.Forall₂ Alike (Hex.pairs s) (Hex.pairs t) := by
  fun_induction Hex.pairs s generalizing t with
  | case1 =>
    cases h
    exact .nil
  -- an odd byte at the end
  | case2 x =>
    obtain ⟨x', _, hx, hnil, rfl⟩ := List.forall₂_cons_left_iff.1 h
    cases hnil
    exact .cons (.cons hx .nil) .nil
  | case3 x y rest ih =>
    obtain ⟨x', _, hx, htail, rfl⟩ := List.forall₂_cons_left_iff.1 h
    obtain ⟨y', _, hy, hrest, rfl⟩ := List.forall₂_cons_left_iff.1 htail
    exact .cons (.cons hx (.cons hy .nil)) (ih hrest)

/-- Texts that are alike are cut into pieces that are alike. -/
theorem Alike.pieces {s t : Text} (h : Alike s t) :
    List.Forall₂ Alike (pieces s) (pieces t) := by
  refine Alike.pairs ?_
  induction h with
  | nil => exact .nil
  | @cons b c s t hb _ ih =>
    -- a dash is no digit, so both texts have it or neither
    have hdash : (b ≠ 0x2D) ↔ (c ≠ 0x2D) := by
      obtain ⟨hb, hc⟩ | rfl := hb
      · refine iff_of_true ?_ ?_
        · rintro rfl
          cases hb
        · rintro rfl
          cases hc
      · exact Iff.rfl
    by_cases hkeep : b ≠ 0x2D
    · rw [List.filter_cons_of_pos (by simpa using hkeep),
        List.filter_cons_of_pos (by simpa using hdash.1 hkeep)]
      exact .cons hb ih
    · rw [List.filter_cons_of_neg (by simpa using hkeep),
        List.filter_cons_of_neg (by simpa using mt hdash.2 hkeep)]
      exact ih

/-- Alignment does not depend on the values of the digits. -/
theorem alignedPieces_of_alike {n : Nat} {ps qs : List (List UInt8)}
    (h : List.Forall₂ Alike ps qs) (hps : ∀ p ∈ ps, p.length ≤ 2) :
    alignedPieces n ps = alignedPieces n qs := by
  induction h generalizing n with
  | nil => rfl
  | @cons p q ps qs hpq hrest ih =>
    have hlen := hps p List.mem_cons_self
    have hps' (r : List UInt8) (hr : r ∈ ps) := hps r (List.mem_cons_of_mem _ hr)
    cases n with
    -- behind the last pair no piece may be readable
    | zero =>
      have hzero := ih (n := 0) hps'
      simp only [alignedPieces] at hzero ⊢
      rw [List.all_cons, List.all_cons, hzero, hpq.readable_eq hlen]
    | succ n =>
      rw [alignedPieces, alignedPieces, hpq.isPair_eq, hpq.blank_eq hlen, ih hps', ih hps']

/-- Behind the marked digit all digits are 0. -/
theorem digit?_ne_one_of_mem_assign {i k : Nat} (hk : i < k) {s : Text} {b : UInt8}
    (hb : b ∈ assign i k s) : Hex.digit? b ≠ some 1 := by
  induction s generalizing k with
  | nil => cases hb
  | cons c s ih =>
    rw [assign] at hb
    split at hb
    · obtain rfl | hb := List.mem_cons.1 hb
      · -- digits from `k` on are behind digit `i`
        rw [digit?_mark_of_ne (by omega)]
        decide
      · exact ih (by omega) hb
    · rename_i hc
      obtain rfl | hb := List.mem_cons.1 hb
      · exact fun hone => hc (isAsciiHexdigit_iff.2 ⟨1, hone⟩)
      · exact ih hk hb

/-- The same piece by piece. -/
theorem digit?_ne_one_of_mem_assignPieces {i k : Nat} (hk : i < k) {ps : List (List UInt8)}
    {p : List UInt8} (hp : p ∈ assignPieces i k ps) {b : UInt8} (hb : b ∈ p) :
    Hex.digit? b ≠ some 1 := by
  induction ps generalizing k with
  | nil => cases hp
  | cons q ps ih =>
    rw [assignPieces] at hp
    obtain rfl | hp := List.mem_cons.1 hp
    · exact digit?_ne_one_of_mem_assign hk hb
    · exact ih (by omega) hp

/-- A piece that stands for two digits of which the first is not 0 is a pair that begins
    with it. -/
theorem Spells.pair_of_ne_zero {piece : List UInt8} {u v : UInt8} (h : Spells piece [u, v])
    (hu : Hex.digit? u ≠ some 0) :
    ∃ x y, piece = [x, y] ∧ Hex.digit? x = Hex.digit? u ∧ Hex.digit? y = Hex.digit? v := by
  cases h with
  | pair hx hy => exact ⟨_, _, rfl, hx, hy⟩
  | sign hzero | last hzero | broken _ hzero => exact absurd hzero hu

/-- The marked digits of `n` pieces. -/
theorem pairs_marks (i k n : Nat) :
    Hex.pairs ((List.range' k (2 * (n + 1))).map (mark i)) =
      [mark i k, mark i (k + 1)] :: Hex.pairs ((List.range' (k + 2) (2 * n)).map (mark i)) := rfl

/-- Marking does not change which pieces count. -/
theorem readable_assign (i k : Nat) {p : List UInt8} (hlen : p.length ≤ 2) :
    readable (assign i k p) = readable p :=
  ((alike_assign i k p).readable_eq hlen).symm

/-- If no marked piece counts, no piece does. -/
theorem all_of_filter_assignPieces {i k : Nat} {ps : List (List UInt8)}
    (hps : ∀ p ∈ ps, p.length ≤ 2) (h : (assignPieces i k ps).filter readable = []) :
    ∀ p ∈ ps, readable p = false := by
  induction ps generalizing k with
  | nil => simp
  | cons p ps ih =>
    rw [assignPieces, List.filter_eq_nil_iff, List.forall_mem_cons] at h
    rw [List.forall_mem_cons]
    refine ⟨?_, ih (fun q hq => hps q (List.mem_cons_of_mem _ hq)) (List.filter_eq_nil_iff.2 h.2)⟩
    rw [← readable_assign i k (hps p List.mem_cons_self)]
    simpa using h.1

/-- With the mark on its first digit, a piece that is read has to be a pair. -/
theorem isPair_of_spells_mark {p : List UInt8} {k : Nat}
    (h : Spells (assign k k p) [mark k k, mark k (k + 1)]) : isPair p = true := by
  obtain ⟨x, y, hxy, hx, hy⟩ := h.pair_of_ne_zero (by rw [digit?_mark_self]; decide)
  rw [(alike_assign k k p).isPair_eq, hxy, isPair_iff]
  exact ⟨x, y, rfl, isAsciiHexdigit_iff.2 ⟨1, hx.trans (digit?_mark_self k)⟩,
    isAsciiHexdigit_iff.2 ⟨0, hy.trans (digit?_mark_of_ne (by omega))⟩⟩

/-- A pair has two digits. -/
theorem length_digits_of_isPair {p : List UInt8} (h : isPair p = true) : (digits p).length = 2 := by
  obtain ⟨x, y, rfl, hx, hy⟩ := isPair_iff.1 h
  simp [digits, hx, hy]

/-- A piece that is not read and has no digits is blank. -/
theorem blank_of_digits {p : List UInt8} (hread : ¬ readable p = true) (hdigits : digits p = []) :
    blank p = true := by
  rw [blank_iff]
  refine ⟨by simpa using hread, fun b hb => ?_⟩
  simpa using List.filter_eq_nil_iff.1 hdigits b hb

/-- **The marks find every pair**: if the pieces that count stand for the digits wherever the
    mark is, they are aligned. -/
theorem alignedPieces_of_marks {ps : List (List UInt8)} (hps : ∀ p ∈ ps, p.length ≤ 2) (k n : Nat)
    (h : ∀ i, List.Forall₂ Spells ((assignPieces i k ps).filter readable)
      (Hex.pairs ((List.range' k (2 * n)).map (mark i)))) : alignedPieces n ps = true := by
  induction ps generalizing k n with
  | nil =>
    cases n with
    | zero => rfl
    | succ n =>
      have hk := h k
      rw [pairs_marks] at hk
      cases hk
  | cons p ps ih =>
    have hlen := hps p List.mem_cons_self
    have hps' (q : List UInt8) (hq : q ∈ ps) := hps q (List.mem_cons_of_mem _ hq)
    cases n with
    | zero =>
      -- nothing is left to stand for, so nothing counts any more
      have hnone := List.forall₂_nil_right_iff.1 (h k)
      rw [alignedPieces, List.all_eq_true]
      intro q hq
      rw [all_of_filter_assignPieces hps hnone q hq]
      rfl
    | succ n =>
      simp only [pairs_marks] at h
      rw [alignedPieces]
      by_cases hread : readable p = true
      · have hcons (i : Nat) : (assignPieces i k (p :: ps)).filter readable =
            assign i k p :: (assignPieces i (k + (digits p).length) ps).filter readable := by
          rw [assignPieces, List.filter_cons_of_pos (by rw [readable_assign i k hlen, hread])]
        simp only [hcons, List.forall₂_cons] at h
        have hpair := isPair_of_spells_mark (h k).1
        rw [length_digits_of_isPair hpair] at h
        rw [if_pos hpair]
        exact ih hps' (k + 2) n fun i => (h i).2
      · have hcons (i : Nat) : (assignPieces i k (p :: ps)).filter readable =
            (assignPieces i (k + (digits p).length) ps).filter readable := by
          rw [assignPieces, List.filter_cons_of_neg (by rw [readable_assign i k hlen]; exact hread)]
        simp only [hcons] at h
        have hpair : ¬ isPair p = true := fun hpair => hread (readable_of_isPair hpair)
        by_cases hdigits : digits p = []
        · rw [if_neg hpair, blank_of_digits hread hdigits, Bool.true_and]
          rw [hdigits] at h
          exact ih hps' k (n + 1) h
        · -- the mark is on a digit of this piece, where CDN mode does not see it
          have hpos := List.length_pos_iff.2 hdigits
          obtain ⟨q, qs, hq, -, hqs⟩ := List.forall₂_cons_right_iff.1 (h k)
          obtain ⟨x, y, rfl, hx, -⟩ := hq.pair_of_ne_zero (by rw [digit?_mark_self]; decide)
          have hmem : [x, y] ∈ assignPieces k (k + (digits p).length) ps :=
            List.mem_of_mem_filter (hqs ▸ List.mem_cons_self)
          exact absurd (hx.trans (digit?_mark_self k))
            (digit?_ne_one_of_mem_assignPieces (by omega) hmem (by simp))

/-- **Which texts are read alike whatever their digits are**: the aligned ones. -/
theorem forall_alike_iff_aligned (s : Text) :
    (∀ t, Alike s t → SameIdentity t) ↔ Aligned s := by
  have hshort (p : List UInt8) (hp : p ∈ pieces s) : p.length ≤ 2 := length_le_of_mem_pairs hp
  constructor
  · intro h
    -- marking digit `i` shows which piece CDN mode reads it in
    refine alignedPieces_of_marks hshort 0 16 fun i => ?_
    obtain ⟨hlen, hspells⟩ := (sameIdentity_iff_spelled _).1 (h _ (alike_assign i 0 s))
    rw [digits_assign, List.length_map, List.length_range'] at hlen
    rw [pieces_assign, digits_assign, ← List.map_take, List.take_range'_of_length_ge hlen]
      at hspells
    exact hspells
  · intro haligned t ht
    -- alignment is the same for all texts that are alike
    rw [sameIdentity_iff_spelled]
    refine spelled_of_aligned ?_
    rw [Aligned, ← alignedPieces_of_alike ht.pieces hshort]
    exact haligned

/-- **The same identity on all transports.** All transports read the same from a text exactly
    if it has 32 digits at least and, cut into twos without its dashes, has 16 pieces that
    count, of which each stands for the next two of the first 32 digits. That is so whatever
    the digits are exactly if the text is aligned, and for a text of digits and dashes exactly
    if it has 32 digits. -/
theorem same_identity_iff (s : Text) :
    (SameIdentity s ↔ Spelled s) ∧
    ((∀ t, Alike s t → SameIdentity t) ↔ Aligned s) ∧
    (DigitsAndDashes s → (SameIdentity s ↔ (digits s).length = 32)) := by
  refine ⟨sameIdentity_iff_spelled s, forall_alike_iff_aligned s, fun hs => ?_⟩
  rw [sameIdentity_iff_bytes, cdnUuidBytes_of_digits hs]
  constructor
  · rintro ⟨hle, heq⟩
    -- more digits are more bytes
    have hlen := congrArg List.length heq
    rw [length_bytesOf, length_bytesOf, List.length_take] at hlen
    omega
  · intro hlen
    rw [List.take_of_length_le (by omega)]
    exact ⟨by omega, rfl⟩

/-- Upper-case digits without dashes. -/
theorem same_identity_upper : SameIdentity (ascii "0804B5764DFB424A80E7E812E5C13CAE") :=
  ((same_identity_iff (ascii "0804B5764DFB424A80E7E812E5C13CAE")).2.2 fun b hb =>
    .inl (List.all_eq_true.1 (show List.all _ isAsciiHexdigit = true by decide) b hb)).2 (by decide)

/-- **Three ways to disagree**: a text in front of the digits makes TCP mode and CDN mode
    read different users; a digit too many is refused by CDN mode alone; and without a digit
    CDN mode refuses the text where TCP mode panics. -/
theorem identities_differ :
    (∃ a b, a ≠ b ∧
      identity (ascii "x000112233445566778899aabbccddeeff") .tcp = .ret (some a) ∧
      identity (ascii "x000112233445566778899aabbccddeeff") .cdn = .ret (some b)) ∧
    (∃ a, identity (ascii "0804b576-4dfb-424a-80e7-e812e5c13cae0") .tcp = .ret (some a) ∧
      identity (ascii "0804b576-4dfb-424a-80e7-e812e5c13cae0") .cdn = .ret none) ∧
    (identity [] .tcp = .panic ∧ identity [] .cdn = .ret none) := by
  refine ⟨⟨⟨[0x00, 0x01, 0x12, 0x23, 0x34, 0x45, 0x56, 0x67, 0x78, 0x89, 0x9A, 0xAB, 0xBC, 0xCD,
      0xDE, 0xEF], rfl⟩,
    ⟨[0x00, 0x11, 0x22, 0x33, 0x44, 0x55, 0x66, 0x77, 0x88, 0x99, 0xAA, 0xBB, 0xCC, 0xDD, 0xEE,
      0xFF], rfl⟩, ?_, ?_, ?_⟩,
    ⟨⟨[0x08, 0x04, 0xB5, 0x76, 0x4D, 0xFB, 0x42, 0x4A, 0x80, 0xE7, 0xE8, 0x12, 0xE5, 0xC1, 0x3C,
      0xAE], rfl⟩, ?_, ?_⟩, ?_, ?_⟩
  · exact fun h => absurd (congrArg List.Vector.toList h) (by decide)
  all_goals decide +kernel

end Fogged.Spec.UserId
