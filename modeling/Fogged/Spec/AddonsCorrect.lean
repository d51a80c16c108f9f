import Fogged.ForStd.Protobuf
import Fogged.Native.Addons

/-!
# The addons parser and protobuf

A varint is read as protobuf says, up to ten bytes and modulo `2 ^ 64`. `Addons.parse` never
stops the program, whatever it is given. On a protobuf message it goes through the fields in
step with the format as long as every tag is one byte, which is so for the field numbers up
to 15: the flow is then that of the last `Flow` field with a valid text. A tag of several
bytes brings the parser out of step. It takes the rest of the tag for the payload, so that
the value of the field is parsed as if it were fields. Only a varint at the end of the
message can do no harm.

## Key results

- `readVarint_exact`: what `read_varint` returns, on any bytes
- `parse_returns`: no panic and no endless loop
- `parseField_of_high_varint`, `parseField_of_high_bytes`: how it gets out of step
- `exists_misread`: any field number above 15 can go wrong
- `flow_agrees_iff`: the parser agrees with protobuf on the field numbers up to 15, and on no
  others
-/

namespace Fogged.Spec.Addons

open Fogged.Native Fogged.Native.Addons Fogged.Native.Handshake
open Indexed Buffer Protobuf

/-! ## Varints -/

/-- Seven bits of a byte, in their place. -/
theorem toNat_or_shiftLeft {val : UInt64} {shift : Nat} (b : UInt8) (hval : val.toNat < 2 ^ shift)
    (hshift : shift < 64) :
    (val ||| (b &&& 0x7F).toUInt64 <<< UInt64.ofNat shift).toNat =
      (val.toNat + 2 ^ shift * (b.toNat % 128)) % 2 ^ 64 := by
  have hbits : (b &&& 0x7F).toUInt64.toNat = b.toNat % 128 := by
    rw [UInt8.toNat_toUInt64, UInt8.toNat_and]
    exact Nat.and_two_pow_sub_one_eq_mod b.toNat 7
  rw [UInt64.toNat_or, UInt64.toNat_shiftLeft, UInt64.toNat_ofNat_of_lt' (hshift.trans (by decide)),
    Nat.mod_eq_of_lt hshift, hbits]
  exact or_shiftLeft _ hval hshift

/-- The test for the high bit. -/
theorem and_0x80_eq_zero_iff (b : UInt8) : b &&& 0x80 = 0 ↔ b.toNat < 128 := by
  have hlt := b.toNat_lt
  rw [← UInt8.toNat_inj, UInt8.toNat_and]
  show b.toNat &&& 2 ^ 7 = 0 ↔ b.toNat < 128
  rw [Nat.and_two_pow, Nat.testBit_eq_decide_div_mod_eq]
  by_cases hbit : b.toNat / 2 ^ 7 % 2 = 1
  · simp only [hbit, decide_true, Bool.toNat_true]
    omega
  · simp only [hbit, decide_false, Bool.toNat_false]
    omega

/-- What one byte of a varint does to the accumulator. -/
theorem readVarintLoop_cons {val : UInt64} {shift i : Nat} (b : UInt8) (bytes : List UInt8)
    (hshift : shift < 64) (hi : i + 1 < 2 ^ 64) :
    readVarintLoop val shift i (b :: bytes) =
      if b.toNat < 128 then
        .ret (some (val ||| (b &&& 0x7F).toUInt64 <<< UInt64.ofNat shift, i + 1))
      else
        readVarintLoop (val ||| (b &&& 0x7F).toUInt64 <<< UInt64.ofNat shift) (shift + 7) (i + 1)
          bytes := by
  rw [readVarintLoop, shiftLeft, if_pos hshift, Outcome.ret_bind]
  by_cases hb : b.toNat < 128
  · rw [if_pos hb, if_pos ((and_0x80_eq_zero_iff b).2 hb), add_of_lt hi]
    rfl
  · rw [if_neg hb, if_neg (mt (and_0x80_eq_zero_iff b).1 hb), if_pos (by omega), Outcome.ret_bind]

/-- The loop, of which `val` is what came before: it ends at the first byte without the
    high bit, and adds the number up to there. -/
theorem readVarintLoop_eq (bytes : List UInt8) {val : UInt64} {shift i : Nat}
    (hval : val.toNat < 2 ^ shift) (hshift : shift + 7 * bytes.length ≤ 70)
    (hi : i + bytes.length < 2 ^ 64) :
    readVarintLoop val shift i bytes =
      .ret ((bytes.findIdx? (·.toNat < 128)).map fun j =>
        (UInt64.ofNat (val.toNat + 2 ^ shift * value (bytes.take (j + 1))), i + (j + 1))) := by
  induction bytes generalizing val shift i with
  | nil => rfl
  | cons b bytes ih =>
    simp only [List.length_cons] at hshift hi
    have hstep := toNat_or_shiftLeft b hval (by omega)
    rw [readVarintLoop_cons b _ (by omega) (by omega), List.findIdx?_cons]
    by_cases hb : b.toNat < 128
    · -- the last byte
      rw [if_pos hb, if_pos (decide_eq_true hb)]
      congr 3
      apply UInt64.toNat_inj.1
      rw [hstep, UInt64.toNat_ofNat']
      rfl
    · rw [if_neg hb, if_neg (by simpa using hb)]
      cases bytes with
      | nil => rfl
      | cons c bytes =>
        simp only [List.length_cons] at hshift hi ih
        -- there is room for seven more bits
        have hlow : val.toNat + 2 ^ shift * (b.toNat % 128) < 2 ^ (shift + 7) := by
          have hle : 2 ^ shift * (b.toNat % 128) ≤ 2 ^ shift * 127 :=
            Nat.mul_le_mul_left _ (by omega)
          rw [Nat.pow_add]
          omega
        have hroom : 2 ^ (shift + 7) ≤ 2 ^ 64 := Nat.pow_le_pow_right (by decide) (by omega)
        rw [Nat.mod_eq_of_lt (hlow.trans_le hroom)] at hstep
        rw [ih (by rw [hstep]; exact hlow) (by omega) (by omega), hstep, Option.map_map]
        congr 2
        funext j
        simp only [Function.comp_apply, List.take_succ_cons, value, Prod.mk.injEq]
        constructor
        · rw [Nat.pow_add]
          congr 1
          ring
        · omega

/-- What `read_varint` returns, on any bytes. -/
theorem readVarint_eq (data : List UInt8) :
    readVarint data =
      .ret (((data.take 10).findIdx? (·.toNat < 128)).map fun j =>
        (UInt64.ofNat (value (data.take (j + 1))), j + 1)) := by
  have hten : (data.take 10).length ≤ 10 := List.length_take_le 10 data
  rw [readVarint, readVarintLoop_eq _ (by decide) (by omega) (by omega)]
  congr 1
  apply Option.map_congr
  intro j hj
  obtain ⟨hlt, -⟩ := List.findIdx?_eq_some_iff_getElem.1 hj
  rw [List.take_take, Nat.min_eq_left (by omega)]
  simp

/-- **A varint is read**, whatever follows it. -/
theorem readVarint_append (v : Varint) (rest : List UInt8) :
    readVarint (v.bytes ++ rest) = .ret (some (UInt64.ofNat (value v.bytes), v.bytes.length)) := by
  have hle := v.length_le
  have hpos := v.terminated.length_pos
  have hsucc : v.bytes.length - 1 + 1 = v.bytes.length := by omega
  rw [readVarint_eq, List.take_append, List.take_of_length_le hle, v.terminated.findIdx?_append,
    Option.map_some, hsucc, List.take_left]

/-- The first byte without the high bit, among the first ten. -/
theorem findIdx?_take_ten {data : List UInt8} {i : Nat} :
    (data.take 10).findIdx? (·.toNat < 128) = some i ↔
      i < 10 ∧ data.findIdx? (·.toNat < 128) = some i := by
  rw [List.findIdx?_take, Option.bind_guard, Option.filter_eq_some_iff, decide_eq_true_iff,
    and_comm]

/-- What `read_varint` returns, in the words of the format: the first byte below 128 among ten
    ends the number. -/
theorem readVarint_eq_some_iff {data : List UInt8} {x : UInt64} {n : Nat} :
    readVarint data = .ret (some (x, n)) ↔
      ∃ i < 10, n = i + 1 ∧ data.findIdx? (·.toNat < 128) = some i ∧
        x.toNat = (∑ j ∈ Finset.range n, (data.getD j 0).toNat % 128 * 128 ^ j) % 2 ^ 64 := by
  -- the value modulo `2 ^ 64`, as a sum over the bytes
  have hvalue (i : Nat) (hi : data.findIdx? (·.toNat < 128) = some i) :
      x = UInt64.ofNat (value (data.take (i + 1))) ↔
        x.toNat =
          (∑ j ∈ Finset.range (i + 1), (data.getD j 0).toNat % 128 * 128 ^ j) % 2 ^ 64 := by
    obtain ⟨hlt, -⟩ := List.findIdx?_eq_some_iff_getElem.1 hi
    rw [← UInt64.toNat_inj, UInt64.toNat_ofNat', value_take hlt]
  rw [readVarint_eq, Outcome.ret.injEq, Option.map_eq_some_iff]
  constructor
  · rintro ⟨i, hi, heq⟩
    obtain ⟨hten, hfirst⟩ := findIdx?_take_ten.1 hi
    cases heq
    exact ⟨i, hten, rfl, hfirst, (hvalue i hfirst).1 rfl⟩
  · rintro ⟨i, hten, rfl, hfirst, hx⟩
    exact ⟨i, findIdx?_take_ten.2 ⟨hten, hfirst⟩, by rw [(hvalue i hfirst).2 hx]⟩

/-- Without such a byte there is no number. -/
theorem readVarint_eq_none_iff {data : List UInt8} :
    readVarint data = .ret none ↔ ¬ ∃ i < 10, data.findIdx? (·.toNat < 128) = some i := by
  rw [readVarint_eq, Outcome.ret.injEq, Option.map_eq_none_iff, Option.eq_none_iff_forall_ne_some,
    not_exists]
  exact forall_congr' fun i => not_congr findIdx?_take_ten

/-- The shortest varint of a `u64`. -/
theorem readVarint_minimal (v : UInt64) (rest : List UInt8) :
    readVarint (minimal v.toNat ++ rest) = .ret (some (v, (minimal v.toNat).length)) := by
  have hlen : (minimal v.toNat).length ≤ 10 :=
    length_minimal_le 9 (v.toNat_lt.trans_le (by decide))
  rw [readVarint_append ⟨minimal v.toNat, terminated_minimal v.toNat, hlen⟩ rest, value_minimal,
    UInt64.ofNat_toNat]

/-- **Varints are read exactly**: the shortest varint of a `u64` is read as that number, and
    no varint of it is shorter. On any bytes, `read_varint` returns a number exactly if one of
    the first ten is without the high bit; the number has seven bits of each byte up to the
    first of these, modulo `2 ^ 64`. -/
theorem readVarint_exact :
    (∀ (v : UInt64) (rest : List UInt8),
      readVarint (minimal v.toNat ++ rest) = .ret (some (v, (minimal v.toNat).length)) ∧
        ∀ bytes, Terminated bytes → value bytes = v.toNat →
          (minimal v.toNat).length ≤ bytes.length) ∧
    ∀ data : List UInt8,
      (∀ x n, readVarint data = .ret (some (x, n)) ↔
        ∃ i < 10, n = i + 1 ∧ data.findIdx? (·.toNat < 128) = some i ∧
          x.toNat = (∑ j ∈ Finset.range n, (data.getD j 0).toNat % 128 * 128 ^ j) % 2 ^ 64) ∧
      (readVarint data = .ret none ↔
        ¬ ∃ i < 10, data.findIdx? (·.toNat < 128) = some i) := by
  refine ⟨fun v rest => ⟨readVarint_minimal v rest, fun bytes hbytes hvalue => ?_⟩,
    fun data => ⟨fun x n => readVarint_eq_some_iff, readVarint_eq_none_iff⟩⟩
  rw [← hvalue]
  exact length_minimal_le_length hbytes

/-- The two bytes of 300, and a third that does not belong to them. -/
theorem readVarint_exact_two_bytes :
    readVarint ([0xAC, 0x02] ++ [0xFF]) = .ret (some (300, 2)) ∧
      Terminated [0xAC, 0x82, 0x00] ∧ (minimal 300).length ≤ 3 := by
  have hbytes : minimal (300 : UInt64).toNat = [0xAC, 0x02] := by
    show minimal 300 = _
    simp [minimal]
  obtain ⟨hread, hshort⟩ := readVarint_exact.1 300 [0xFF]
  rw [hbytes] at hread
  exact ⟨hread, by decide, hshort [0xAC, 0x82, 0x00] (by decide) (by decide)⟩

/-- The tenth byte has one bit left. -/
example : readVarint (List.replicate 9 0x80 ++ [0x7F]) = .ret (some (2 ^ 63, 10)) := by
  decide +kernel

/-! ## One field -/

/-- The text that a field gives for the flow. -/
def flow? (f : Field) : Option Text :=
  match f.payload with
  | .bytes _ contents _ => if f.number = 1 ∧ Bytes.validUtf8 contents then some contents else none
  | .varint _ => none

/-- The addons after a field. -/
def update (out : Addons) (f : Field) : Addons :=
  match flow? f with
  | some s => { flow := s }
  | none => out

/-- A tag of one byte is taken apart as it should be. -/
theorem tag_of_le {f : Field} (h : f.number ≤ 15) :
    minimal f.tag = [UInt8.ofNat f.tag] ∧ UInt8.ofNat f.tag >>> 3 = UInt8.ofNat f.number ∧
      UInt8.ofNat f.tag &&& 0x07 = UInt8.ofNat f.payload.wireType := by
  have hwire : f.payload.wireType ≤ 2 := by cases f.payload <;> simp [Payload.wireType]
  have htag : f.tag = 8 * f.number + f.payload.wireType := rfl
  refine ⟨?_, ?_, ?_⟩
  · -- the tag is at most 122
    rw [minimal, if_pos (by omega)]
  · apply UInt8.toNat_inj.1
    rw [UInt8.toNat_shiftRight, UInt8.toNat_ofNat', UInt8.toNat_ofNat', Nat.shiftRight_eq_div_pow]
    show f.tag % 2 ^ 8 / 2 ^ 3 = f.number % 2 ^ 8
    omega
  · apply UInt8.toNat_inj.1
    rw [UInt8.toNat_and, UInt8.toNat_ofNat', UInt8.toNat_ofNat']
    show f.tag % 2 ^ 8 &&& 2 ^ 3 - 1 = f.payload.wireType % 2 ^ 8
    rw [Nat.and_two_pow_sub_one_eq_mod]
    omega

/-- A payload with its length in front. -/
theorem lengthDelimited_of_drop {data contents rest : List UInt8} {i : Nat} (length : Varint)
    (hdata : data.length < 2 ^ 63) (hi : i ≤ data.length)
    (hlength : length.toNat = contents.length)
    (hdrop : data.drop i = length.bytes ++ (contents ++ rest)) :
    lengthDelimited data i =
      .ret (some (i + length.bytes.length, i + length.bytes.length + contents.length)) := by
  have hlen := congrArg List.length hdrop
  simp only [List.length_drop, List.length_append] at hlen
  have htoNat : (UInt64.ofNat (value length.bytes)).toNat = contents.length := by
    rw [UInt64.toNat_ofNat', ← hlength]
    rfl
  rw [lengthDelimited, slice_length hi, Outcome.ret_bind, hdrop, readVarint_append,
    Outcome.ret_bind]
  dsimp only
  rw [add_of_lt (by omega), Outcome.ret_bind, htoNat, saturatingAdd, Nat.min_eq_left (by omega),
    if_neg (by omega)]

section OneByte

variable {data rest : List UInt8} {i : Nat} {tag : UInt8} (out : Addons)

/-- A byte that asks for a varint, and a varint. -/
theorem parseField_varint (v : Varint) (hdata : data.length < 2 ^ 63)
    (hdrop : data.drop i = tag :: (v.bytes ++ rest)) (hwire : tag &&& 0x07 = 0) :
    parseField data i out = .ret (some (i + (1 + v.bytes.length), out)) := by
  have hlen := congrArg List.length hdrop
  simp only [List.length_drop, List.length_cons, List.length_append] at hlen
  have hnext : data.drop (i + 1) = v.bytes ++ rest := by
    rw [← List.drop_drop, hdrop]
    rfl
  rw [parseField, get_of_drop hdrop, Outcome.ret_bind, add_of_lt (by omega), Outcome.ret_bind]
  dsimp only
  rw [hwire, if_neg (by rintro ⟨-, h⟩; cases h), if_pos rfl, slice_length (by omega),
    Outcome.ret_bind, hnext, readVarint_append, Outcome.ret_bind]
  dsimp only
  rw [add_of_lt (by omega), Nat.add_assoc]
  rfl

/-- A byte that asks for a length and that many bytes, and both. -/
theorem parseField_bytes {contents : List UInt8} (length : Varint) (hdata : data.length < 2 ^ 63)
    (hlength : length.toNat = contents.length)
    (hdrop : data.drop i = tag :: (length.bytes ++ (contents ++ rest))) (hwire : tag &&& 0x07 = 2) :
    parseField data i out =
      .ret (some (i + (1 + (length.bytes ++ contents).length),
        if tag >>> 3 = 1 ∧ Bytes.validUtf8 contents then { flow := contents } else out)) := by
  have hlen := congrArg List.length hdrop
  simp only [List.length_drop, List.length_cons, List.length_append] at hlen
  have hnext : data.drop (i + 1) = length.bytes ++ (contents ++ rest) := by
    rw [← List.drop_drop, hdrop]
    rfl
  have hcontents : data.drop (i + 1 + length.bytes.length) = contents ++ rest := by
    rw [← List.drop_drop, hnext, List.drop_left]
  have hrange := lengthDelimited_of_drop length hdata (by omega) hlength hnext
  have hstop : i + (1 + (length.bytes ++ contents).length) =
      i + 1 + length.bytes.length + contents.length := by
    rw [List.length_append]
    omega
  rw [parseField, get_of_drop hdrop, Outcome.ret_bind, add_of_lt (by omega), Outcome.ret_bind]
  dsimp only
  rw [hwire, hrange, hstop]
  -- the flow, the seed, and the fields that are skipped
  by_cases hflow : tag >>> 3 = 1
  · rw [if_pos ⟨.inl hflow, rfl⟩, Outcome.ret_bind]
    dsimp only
    rw [if_pos hflow, slice_of_drop (by omega) hcontents, Outcome.ret_bind]
    simp only [hflow, true_and]
  · rw [if_neg (c := tag >>> 3 = 1 ∧ _) fun h => hflow h.1]
    by_cases hseed : tag >>> 3 = 2
    · rw [if_pos ⟨.inr hseed, rfl⟩, Outcome.ret_bind]
      dsimp only
      rw [if_neg hflow]
    · rw [if_neg (by simp [hflow, hseed]), if_neg (by decide), if_pos rfl]
      rfl

end OneByte

/-- **A field with a tag of one byte** is parsed as protobuf says. -/
theorem parseField_of_drop {data rest : List UInt8} {i : Nat} {f : Field} (out : Addons)
    (hnumber : f.number ≤ 15) (hdata : data.length < 2 ^ 63)
    (hdrop : data.drop i = f.encode ++ rest) :
    parseField data i out = .ret (some (i + f.encode.length, update out f)) := by
  obtain ⟨hminimal, hfield, hwire⟩ := tag_of_le hnumber
  rw [Field.encode, hminimal, List.append_assoc, List.singleton_append] at hdrop
  rw [Field.encode, hminimal, List.length_append, List.length_singleton]
  -- the field number is compared as a byte
  have hone : UInt8.ofNat f.number = 1 ↔ f.number = 1 := by
    rw [← UInt8.toNat_inj, UInt8.toNat_ofNat_of_lt' (by show f.number < 2 ^ 8; omega)]
    rfl
  cases hf : f.payload with
  | varint v =>
    rw [hf] at hdrop hwire
    rw [parseField_varint out v hdata hdrop hwire, update, flow?, hf]
    rfl
  | bytes length contents hlength =>
    rw [hf] at hdrop hwire
    rw [Payload.encode, List.append_assoc] at hdrop
    rw [parseField_bytes out length hdata hlength hdrop hwire, hfield, update, flow?, hf]
    simp only [hone, Payload.encode]
    -- a text that is not valid is skipped, as in `flow?`
    by_cases hflow : f.number = 1 ∧ Bytes.validUtf8 contents
    · rw [if_pos hflow, if_pos hflow]
    · rw [if_neg hflow, if_neg hflow]

/-! ## Messages -/

/-- The flow of a message: the last `Flow` field with a valid text, if any. -/
def lastFlow (fields : List Field) : Text := ((fields.filterMap flow?).getLast?).getD []

/-- The last field that gives a flow decides. -/
theorem flow_foldl_update (fields : List Field) (out : Addons) :
    (fields.foldl update out).flow = ((fields.filterMap flow?).getLast?).getD out.flow := by
  induction fields generalizing out with
  | nil => rfl
  | cons f fields ih =>
    rw [List.foldl_cons, ih]
    cases hf : flow? f with
    | none => rw [List.filterMap_cons_none hf, update, hf]
    | some s => rw [List.filterMap_cons_some hf, update, hf, List.getLast?_cons, Option.getD_some]

/-- The addons after all fields. -/
theorem foldl_update_eq (fields : List Field) :
    fields.foldl update {} = { flow := lastFlow fields } := by
  show Addons.mk (fields.foldl update {}).flow = _
  rw [flow_foldl_update]
  rfl

/-- One round of the loop; the fuel lasts. -/
theorem parseLoop_next {data : List UInt8} {fuel i j : Nat} {out out' : Addons}
    (hfuel : data.length ≤ i + fuel) (hi : i < data.length) (hij : i < j)
    (hfield : parseField data i out = .ret (some (j, out'))) :
    ∃ fuel', data.length ≤ j + fuel' ∧
      parseLoop data fuel i out = parseLoop data fuel' j out' := by
  cases fuel with
  | zero => omega
  | succ fuel =>
    refine ⟨fuel, by omega, ?_⟩
    rw [parseLoop, if_pos hi, hfield, Outcome.ret_bind]

/-- The loop goes through fields with tags of one byte, whatever stands behind them. -/
theorem parseLoop_append {data rest : List UInt8} {fields : List Field} {fuel i : Nat}
    (out : Addons) (hnumber : ∀ f ∈ fields, f.number ≤ 15) (hdata : data.length < 2 ^ 63)
    (hfuel : data.length ≤ i + fuel) (hdrop : data.drop i = encode fields ++ rest) :
    ∃ fuel' j, data.length ≤ j + fuel' ∧ data.drop j = rest ∧
      parseLoop data fuel i out = parseLoop data fuel' j (fields.foldl update out) := by
  induction fields generalizing fuel i out with
  | nil => exact ⟨fuel, i, hfuel, hdrop, rfl⟩
  | cons f fields ih =>
    obtain ⟨hf, hfields⟩ := List.forall_mem_cons.1 hnumber
    -- a field has its tag at least, so the fuel lasts
    have hpos : 0 < f.encode.length := by
      rw [Field.encode, (tag_of_le hf).1]
      simp
    have hcons : data.drop i = f.encode ++ (encode fields ++ rest) := by
      rw [hdrop, encode, List.flatMap_cons, List.append_assoc]
      rfl
    have hlen := congrArg List.length hcons
    rw [List.length_drop, List.length_append] at hlen
    have hnext : data.drop (i + f.encode.length) = encode fields ++ rest := by
      rw [← List.drop_drop, hcons, List.drop_left]
    obtain ⟨fuel', hfuel', hloop⟩ := parseLoop_next hfuel (by omega) (by omega)
      (parseField_of_drop out hf hdata hcons)
    rw [hloop]
    exact ih (update out f) hfields hfuel' hnext

/-- The loop at the end of the data. -/
theorem parseLoop_of_drop_nil {data : List UInt8} {i : Nat} (fuel : Nat) (out : Addons)
    (hdrop : data.drop i = []) : parseLoop data fuel i out = .ret out := by
  have hi : ¬ i < data.length := by
    have hlen := congrArg List.length hdrop
    simp only [List.length_drop, List.length_nil] at hlen
    omega
  cases fuel <;> rw [parseLoop, if_neg hi]

/-- A message with tags of one byte. -/
theorem parse_encode {fields : List Field} (hnumber : ∀ f ∈ fields, f.number ≤ 15)
    (hdata : (encode fields).length < 2 ^ 63) :
    parse (encode fields) = .ret { flow := lastFlow fields } := by
  have hfuel : (encode fields).length ≤ 0 + (encode fields).length := by omega
  obtain ⟨fuel, i, -, hend, hloop⟩ :=
    parseLoop_append {} hnumber hdata hfuel (List.append_nil (encode fields)).symm
  rw [parse, hloop, parseLoop_of_drop_nil fuel _ hend]
  exact congrArg Outcome.ret (foldl_update_eq fields)

/-! ## Tags of several bytes -/

/-- The first byte of a tag of several bytes shows the wire type, and a field number that is
    neither that of `Flow` nor that of `Seed`. The other bytes are a varint of their own. -/
theorem tag_of_lt {f : Field} (h : 16 ≤ f.number) :
    ∃ b : UInt8, ∃ tail : Varint, minimal f.tag = b :: tail.bytes ∧
      value tail.bytes = f.tag / 128 ∧ b &&& 0x07 = UInt8.ofNat f.payload.wireType ∧
      b >>> 3 ≠ 1 := by
  have hlt := f.number_lt
  have hwire : f.payload.wireType ≤ 2 := by cases f.payload <;> simp [Payload.wireType]
  have htag : f.tag = 8 * f.number + f.payload.wireType := rfl
  -- the bytes behind the first are the number divided by 128
  let tail : Varint :=
    { bytes := minimal (f.tag / 128)
      terminated := terminated_minimal _
      length_le := (length_minimal_le 3 (by omega)).trans (by decide) }
  refine ⟨UInt8.ofNat (128 + f.tag % 128), tail, ?_, value_minimal _, ?_, ?_⟩
  · rw [minimal, if_neg (by omega)]
  · apply UInt8.toNat_inj.1
    rw [UInt8.toNat_and, UInt8.toNat_ofNat', UInt8.toNat_ofNat']
    show (128 + f.tag % 128) % 2 ^ 8 &&& 2 ^ 3 - 1 = f.payload.wireType % 2 ^ 8
    rw [Nat.and_two_pow_sub_one_eq_mod]
    omega
  · -- the high bit of the first byte makes the number that is seen 16 or more
    intro hone
    have hnat := congrArg UInt8.toNat hone
    rw [UInt8.toNat_shiftRight, UInt8.toNat_ofNat', Nat.shiftRight_eq_div_pow] at hnat
    have hvalue : (128 + f.tag % 128) % 2 ^ 8 / 2 ^ 3 = 1 := hnat
    omega

/-- **Out of step**: the parser takes the rest of a long tag for the varint that the field
    holds, so that the varint itself is parsed as what follows the field. -/
theorem parseField_of_high_varint {data rest : List UInt8} {i : Nat} {f : Field} {v : Varint}
    (out : Addons) (hpayload : f.payload = .varint v) (hnumber : 16 ≤ f.number)
    (hdata : data.length < 2 ^ 63) (hdrop : data.drop i = f.encode ++ rest) :
    ∃ j, i < j ∧ parseField data i out = .ret (some (j, out)) ∧
      data.drop j = v.bytes ++ rest := by
  obtain ⟨b, tail, htag, -, hwire, -⟩ := tag_of_lt hnumber
  rw [Field.encode, htag, hpayload, List.append_assoc, List.cons_append] at hdrop
  rw [hpayload] at hwire
  refine ⟨_, by omega, parseField_varint out tail hdata hdrop hwire, ?_⟩
  rw [← List.drop_drop, hdrop, Nat.add_comm 1, List.drop_succ_cons, List.drop_left]
  rfl

/-- **Out of step** in the same way: the rest of a long tag is taken for a length, and as many
    bytes are skipped, first those of the length that was meant. -/
theorem parseField_of_high_bytes {data skipped rest : List UInt8} {i : Nat} {f : Field}
    {length : Varint} {contents : List UInt8} {hlength : length.toNat = contents.length}
    (out : Addons) (hpayload : f.payload = .bytes length contents hlength)
    (hnumber : 16 ≤ f.number) (hdata : data.length < 2 ^ 63)
    (hskipped : skipped.length = f.number / 16)
    (hdrop : data.drop i = minimal f.tag ++ (skipped ++ rest)) :
    ∃ j, i < j ∧ parseField data i out = .ret (some (j, out)) ∧ data.drop j = rest := by
  have hlt := f.number_lt
  obtain ⟨b, tail, htag, hvalue, hwire, hfield⟩ := tag_of_lt hnumber
  rw [htag, List.cons_append] at hdrop
  rw [hpayload] at hwire
  have hnumbers : f.tag / 128 = f.number / 16 := by
    have htagEq : f.tag = 8 * f.number + 2 := by
      rw [Field.tag, hpayload]
      rfl
    omega
  -- what is skipped is as long as the rest of the tag says
  have htail : tail.toNat = skipped.length := by
    rw [Varint.toNat, hvalue, hnumbers, hskipped]
    omega
  have hparse := parseField_bytes out tail hdata htail hdrop hwire
  rw [if_neg fun h => hfield h.1] at hparse
  refine ⟨_, by omega, hparse, ?_⟩
  rw [← List.drop_drop, hdrop, Nat.add_comm 1, List.drop_succ_cons, ← List.append_assoc,
    List.drop_left]

/-- A byte below 128 at the end of the data: whatever it asks for is not there. -/
theorem parseField_of_last_byte {data : List UInt8} {i : Nat} {b : UInt8} (out : Addons)
    (hdata : data.length < 2 ^ 63) (hdrop : data.drop i = [b]) :
    parseField data i out = .ret none := by
  have hlen := congrArg List.length hdrop
  simp only [List.length_drop, List.length_cons, List.length_nil] at hlen
  have hnext : data.drop (i + 1) = [] := by
    rw [← List.drop_drop, hdrop]
    rfl
  have hnone : lengthDelimited data (i + 1) = .ret none := by
    rw [lengthDelimited, slice_length (by omega), Outcome.ret_bind, hnext]
    rfl
  rw [parseField, get_of_drop hdrop, Outcome.ret_bind, add_of_lt (by omega), Outcome.ret_bind]
  dsimp only
  rw [hnone, slice_length (by omega), hnext]
  split
  · rfl
  · split
    · rfl
    · split <;> rfl

/-- A byte from 128 on is no tag of `Flow` or `Seed`: its field number is above 15. -/
theorem not_known_of_continued {b : UInt8} (hb : ¬ b.toNat < 128) :
    ¬ ((b >>> 3 = 1 ∨ b >>> 3 = 2) ∧ b &&& 0x07 = 2) := by
  have hlt := b.toNat_lt
  rintro ⟨heq | heq, -⟩
  all_goals
    have hnat := congrArg UInt8.toNat heq
    rw [UInt8.toNat_shiftRight, Nat.shiftRight_eq_div_pow] at hnat
  · have hvalue : b.toNat / 2 ^ 3 = 1 := hnat
    omega
  · have hvalue : b.toNat / 2 ^ 3 = 2 := hnat
    omega

/-- Such a byte, with a varint behind it up to the end of the data: a number or bytes that
    are skipped, if there are that many, and nothing is left. -/
theorem parseField_of_last_tail {data : List UInt8} {i : Nat} {b : UInt8} (out : Addons) (v : Varint)
    (hdata : data.length < 2 ^ 63) (hb : ¬ b.toNat < 128) (hdrop : data.drop i = b :: v.bytes) :
    parseField data i out = .ret none ∨
      ∃ j, i < j ∧ parseField data i out = .ret (some (j, out)) ∧ data.drop j = [] := by
  have hlen := congrArg List.length hdrop
  simp only [List.length_drop, List.length_cons] at hlen
  have hnext : data.drop (i + 1) = v.bytes := by
    rw [← List.drop_drop, hdrop]
    rfl
  have hread : readVarint v.bytes =
      .ret (some (UInt64.ofNat (value v.bytes), v.bytes.length)) := by
    have happend := readVarint_append v []
    rwa [List.append_nil] at happend
  have hend : data.drop (i + 1 + v.bytes.length) = [] := by
    rw [← List.drop_drop, hnext, List.drop_length]
  rw [parseField, get_of_drop hdrop, Outcome.ret_bind, add_of_lt (by omega), Outcome.ret_bind]
  dsimp only
  rw [if_neg (not_known_of_continued hb)]
  split
  · refine .inr ⟨i + 1 + v.bytes.length, by omega, ?_, hend⟩
    rw [slice_length (by omega), Outcome.ret_bind, hnext, hread, Outcome.ret_bind]
    dsimp only
    rw [add_of_lt (by omega), Outcome.ret_bind]
  · split
    · rw [lengthDelimited, slice_length (by omega), Outcome.ret_bind, hnext, hread,
        Outcome.ret_bind]
      dsimp only
      rw [add_of_lt (by omega), Outcome.ret_bind]
      split
      · exact .inl rfl
      · rename_i hstop
        refine .inr ⟨_, ?_, rfl, ?_⟩
        · rw [saturatingAdd]
          omega
        · rw [List.drop_eq_nil_iff, saturatingAdd]
          omega
    · exact .inl rfl

/-- At the end of the data the bytes of a varint, read as fields, give no flow: all but the
    last are above the numbers of `Flow` and `Seed`, and nothing follows the last. -/
theorem parseField_of_last_varint {data : List UInt8} {i : Nat} (out : Addons) (v : Varint)
    (hdata : data.length < 2 ^ 63) (hdrop : data.drop i = v.bytes) :
    parseField data i out = .ret none ∨
      ∃ j, i < j ∧ parseField data i out = .ret (some (j, out)) ∧ data.drop j = [] := by
  obtain ⟨bytes, hterminated, hten⟩ := v
  cases bytes with
  | nil => exact hterminated.elim
  | cons b bytes =>
    by_cases hb : b.toNat < 128
    · obtain rfl := hterminated.eq_nil hb
      exact .inl (parseField_of_last_byte out hdata hdrop)
    · -- the varint without its first byte is one again
      simp only [List.length_cons] at hten
      exact parseField_of_last_tail out ⟨bytes, hterminated.tail (by omega), by omega⟩ hdata hb hdrop

/-- The loop at such a varint. -/
theorem parseLoop_of_last_varint {data : List UInt8} {fuel i : Nat} (out : Addons) (v : Varint)
    (hdata : data.length < 2 ^ 63) (hfuel : data.length ≤ i + fuel)
    (hdrop : data.drop i = v.bytes) : parseLoop data fuel i out = .ret out := by
  have hi : i < data.length := by
    have hlen := congrArg List.length hdrop
    have hpos := v.terminated.length_pos
    rw [List.length_drop] at hlen
    omega
  obtain hnone | ⟨j, hij, hfield, hend⟩ := parseField_of_last_varint out v hdata hdrop
  · cases fuel with
    | zero => omega
    | succ fuel => rw [parseLoop, if_pos hi, hnone, Outcome.ret_bind]
  · obtain ⟨fuel', -, hloop⟩ := parseLoop_next hfuel hi hij hfield
    rw [hloop, parseLoop_of_drop_nil fuel' out hend]

/-- A field has a tag. -/
theorem encode_ne_nil (f : Field) : f.encode ≠ [] := by
  have hpos := (terminated_minimal f.tag).length_pos
  rw [Field.encode]
  exact List.append_ne_nil_of_left_ne_nil (List.ne_nil_of_length_pos hpos) _

/-- A position with something behind it is inside. -/
theorem lt_of_drop_append {data front rest : List UInt8} {i : Nat}
    (hdrop : data.drop i = front ++ rest) (hfront : front ≠ []) : i < data.length := by
  have hlen := congrArg List.length hdrop
  have hpos := List.length_pos_iff.2 hfront
  rw [List.length_drop, List.length_append] at hlen
  omega

/-- A message with tags of one byte, and at its end a varint field with any number. -/
theorem parse_encode_concat {fields : List Field} {f : Field} {v : Varint}
    (hnumber : ∀ g ∈ fields, g.number ≤ 15) (hpayload : f.payload = .varint v)
    (hdata : (encode (fields ++ [f])).length < 2 ^ 63) :
    parse (encode (fields ++ [f])) = .ret { flow := lastFlow (fields ++ [f]) } := by
  -- the last field gives no flow
  have hflow : lastFlow (fields ++ [f]) = lastFlow fields := by
    rw [lastFlow, List.filterMap_append, List.filterMap_cons_none (by rw [flow?, hpayload])]
    simp [lastFlow]
  by_cases hf : f.number ≤ 15
  · refine parse_encode (fun g hg => ?_) hdata
    obtain hg | hg := List.mem_append.1 hg
    · exact hnumber g hg
    · rwa [List.mem_singleton.1 hg]
  · -- the fields before it are parsed in step, up to position `i`
    have hsplit : (encode (fields ++ [f])).drop 0 = encode fields ++ (f.encode ++ []) := by
      simp [encode]
    have hfuel : (encode (fields ++ [f])).length ≤ 0 + (encode (fields ++ [f])).length := by omega
    obtain ⟨fuel, i, hfuel, hdrop, hloop⟩ := parseLoop_append {} hnumber hdata hfuel hsplit
    obtain ⟨j, hij, hfield, hj⟩ := parseField_of_high_varint (fields.foldl update {}) hpayload
      (by omega) hdata hdrop
    have hi : i < (encode (fields ++ [f])).length := lt_of_drop_append hdrop (encode_ne_nil f)
    obtain ⟨fuel', hfuel', hnext⟩ := parseLoop_next hfuel hi hij hfield
    rw [List.append_nil] at hj
    rw [parse, hloop, hnext, parseLoop_of_last_varint _ v hdata hfuel' hj, foldl_update_eq, hflow]

/-! ## Fields that go wrong -/

/-- The contents of a field that the parser, having skipped `skip` bytes from the length on,
    goes on to read as a `Flow` of one letter, and as a tag at which it stops. -/
def misread (skip : Nat) (letter : UInt8) : List UInt8 :=
  List.replicate (skip - (minimal (skip + 4)).length) 0 ++
    ([0x0A, 0x01, letter, 0x07] ++ List.replicate (minimal (skip + 4)).length 0)

/-- There is room for the length among the bytes that are skipped. -/
theorem length_minimal_le_skip {skip : Nat} (hpos : 0 < skip) (hlt : skip < 2 ^ 25) :
    (minimal (skip + 4)).length ≤ skip := by
  by_cases hsmall : skip + 4 < 128
  · rw [minimal, if_pos hsmall]
    exact hpos
  · exact (length_minimal_le 3 (show skip + 4 < 128 ^ 4 by omega)).trans (by omega)

/-- The contents are four bytes longer than what is skipped of them. -/
theorem length_misread {skip : Nat} (hpos : 0 < skip) (hlt : skip < 2 ^ 25) (letter : UInt8) :
    (misread skip letter).length = skip + 4 := by
  have hle := length_minimal_le_skip hpos hlt
  simp only [misread, List.length_append, List.length_replicate, List.length_cons,
    List.length_nil]
  omega

/-- Something is skipped. -/
theorem skip_pos {n : Nat} (hlow : 16 ≤ n) : 0 < n / 16 := Nat.div_pos hlow (by decide)

/-- The rest of a tag is at most `2 ^ 25`. -/
theorem skip_lt {n : Nat} (hlt : n < 2 ^ 29) : n / 16 < 2 ^ 25 := Nat.div_lt_of_lt_mul hlt

/-- The length of these contents. -/
def misreadLength (n : Nat) (hlt : n < 2 ^ 29) : Varint where
  bytes := minimal (n / 16 + 4)
  terminated := terminated_minimal _
  length_le := (length_minimal_le 9 ((Nat.add_lt_add_right (skip_lt hlt) 4).trans (by decide)))

/-- The length that is meant is the length of the contents. -/
theorem misreadLength_toNat {n : Nat} (hlow : 16 ≤ n) (hlt : n < 2 ^ 29) (letter : UInt8) :
    (misreadLength n hlt).toNat = (misread (n / 16) letter).length := by
  rw [length_misread (skip_pos hlow) (skip_lt hlt), Varint.toNat, misreadLength, value_minimal]
  exact Nat.mod_eq_of_lt ((Nat.add_lt_add_right (skip_lt hlt) 4).trans (by decide))

/-- The field with these contents. -/
def misreadField (n : Nat) (hlow : 16 ≤ n) (hlt : n < 2 ^ 29) (letter : UInt8) : Field where
  number := n
  number_pos := Nat.lt_of_lt_of_le (by decide) hlow
  number_lt := hlt
  payload := .bytes (misreadLength n hlt) (misread (n / 16) letter)
    (misreadLength_toNat hlow hlt letter)

/-- The field is small. -/
theorem length_encode_misreadField {n : Nat} (hlow : 16 ≤ n) (hlt : n < 2 ^ 29) (letter : UInt8) :
    (misreadField n hlow hlt letter).encode.length < 2 ^ 26 := by
  have hskip := skip_lt hlt
  -- a tag below 128 ^ 5 takes five bytes at most
  have htag : (minimal (misreadField n hlow hlt letter).tag).length ≤ 5 :=
    length_minimal_le 4 (by
      rw [Field.tag]
      show 8 * n + 2 < 128 ^ 5
      omega)
  have hlength := (misreadLength n hlt).length_le
  have hcontents := length_misread (skip_pos hlow) hskip letter
  rw [Field.encode, List.length_append, misreadField, Payload.encode, List.length_append,
    hcontents]
  rw [misreadField] at htag
  omega

/-- Only field 1 gives a flow. -/
theorem flow?_of_ne {f : Field} (h : f.number ≠ 1) : flow? f = none := by
  unfold flow?
  split
  · rw [if_neg fun hflow => h hflow.1]
  · rfl

/-- Such a field, a `Flow` in it and a tag at which the parser stops. -/
theorem parseLoop_of_misread {data skipped behind : List UInt8} {fuel i : Nat} {f : Field}
    {length : Varint} {contents : List UInt8} {hlength : length.toNat = contents.length}
    {letter : UInt8} (out : Addons) (hpayload : f.payload = .bytes length contents hlength)
    (hnumber : 16 ≤ f.number) (hdata : data.length < 2 ^ 63) (hfuel : data.length ≤ i + fuel)
    (hskipped : skipped.length = f.number / 16) (hletter : letter < 0x80)
    (hdrop : data.drop i =
      minimal f.tag ++ (skipped ++ (0x0A :: ([0x01] ++ ([letter] ++ 0x07 :: behind))))) :
    parseLoop data fuel i out = .ret { flow := [letter] } := by
  have hi := lt_of_drop_append hdrop
    (List.ne_nil_of_length_pos (terminated_minimal f.tag).length_pos)
  -- the rest of the tag is taken for a length
  obtain ⟨j, hij, hskip, hflow⟩ :=
    parseField_of_high_bytes out hpayload hnumber hdata hskipped hdrop
  obtain ⟨fuel₁, hfuel₁, hloop₁⟩ := parseLoop_next hfuel hi hij hskip
  -- then there is a `Flow`
  have hj : j < data.length := by
    have hlen := congrArg List.length hflow
    simp only [List.length_drop, List.length_cons] at hlen
    omega
  have hvalid : Bytes.validUtf8 [letter] = true := by
    rw [Bytes.validUtf8, if_pos hletter]
    rfl
  have hfield : parseField data j out = .ret (some (j + 3, { flow := [letter] })) := by
    have hbytes := parseField_bytes out ⟨[0x01], by decide, by decide⟩ hdata
      (show 1 = [letter].length from rfl) hflow (by decide)
    rw [if_pos ⟨by decide, hvalid⟩] at hbytes
    exact hbytes
  obtain ⟨fuel₂, hfuel₂, hloop₂⟩ := parseLoop_next hfuel₁ hj (by omega) hfield
  -- and a tag at which the parser stops
  have hstop : data.drop (j + 3) = 0x07 :: behind := by
    rw [← List.drop_drop, hflow]
    rfl
  have hend := congrArg List.length hstop
  rw [List.length_drop, List.length_cons] at hend
  rw [hloop₁, hloop₂]
  cases fuel₂ with
  | zero => omega
  | succ fuel₂ =>
    rw [parseLoop, if_pos (by omega), parseField, get_of_drop hstop, Outcome.ret_bind,
      add_of_lt (by omega), Outcome.ret_bind]
    rfl

/-- **Any number above 15 can go wrong**: wherever a field with such a number stands in a
    message, it can be one that makes the parser return another flow. -/
theorem exists_misread (fields rest : List Field) (hnumber : ∀ f ∈ fields, f.number ≤ 15)
    (hdata : (encode fields).length + (encode rest).length < 2 ^ 62) {n : Nat} (hlow : 16 ≤ n)
    (hlt : n < 2 ^ 29) :
    ∃ f : Field, f.number = n ∧ (encode (fields ++ f :: rest)).length < 2 ^ 63 ∧
      parse (encode (fields ++ f :: rest)) ≠ .ret { flow := lastFlow (fields ++ f :: rest) } := by
  -- a letter that is not the flow of the message
  obtain ⟨letter, hascii, hletter⟩ : ∃ letter : UInt8, letter < 0x80 ∧
      [letter] ≠ lastFlow (fields ++ rest) := by
    by_cases ha : [0x61] = lastFlow (fields ++ rest)
    · exact ⟨0x62, by decide, ha ▸ by decide⟩
    · exact ⟨0x61, by decide, ha⟩
  let f := misreadField n hlow hlt letter
  have hflow : lastFlow (fields ++ f :: rest) = lastFlow (fields ++ rest) := by
    have hnone : flow? f = none := flow?_of_ne (show n ≠ 1 by omega)
    rw [lastFlow, List.filterMap_append, List.filterMap_cons_none hnone, ← List.filterMap_append]
    rfl
  have hlen : (encode (fields ++ f :: rest)).length < 2 ^ 63 := by
    have hf : f.encode.length < 2 ^ 26 := length_encode_misreadField hlow hlt letter
    have hsum : (encode (fields ++ f :: rest)).length =
        (encode fields).length + (f.encode.length + (encode rest).length) := by
      simp [encode]
    omega
  refine ⟨f, rfl, hlen, ?_⟩
  -- what is skipped is the length and the first bytes of the contents
  have hle := length_minimal_le_skip (skip_pos hlow) (skip_lt hlt)
  have hskipped : (minimal (n / 16 + 4) ++
      List.replicate (n / 16 - (minimal (n / 16 + 4)).length) (0 : UInt8)).length = n / 16 := by
    rw [List.length_append, List.length_replicate]
    omega
  have hsplit : (encode (fields ++ f :: rest)).drop 0 = encode fields ++ (minimal f.tag ++
      ((minimal (n / 16 + 4) ++
        List.replicate (n / 16 - (minimal (n / 16 + 4)).length) (0 : UInt8)) ++
      (0x0A :: ([0x01] ++ ([letter] ++ 0x07 ::
        (List.replicate (minimal (n / 16 + 4)).length 0 ++ encode rest)))))) := by
    simp [encode, f, misreadField, misreadLength, misread, Field.encode, Payload.encode]
  have hfuel : (encode (fields ++ f :: rest)).length ≤
      0 + (encode (fields ++ f :: rest)).length := by
    omega
  obtain ⟨fuel, i, hfuel, hdrop, hloop⟩ := parseLoop_append {} hnumber hlen hfuel hsplit
  have hparse : parse (encode (fields ++ f :: rest)) = .ret { flow := [letter] } := by
    rw [parse, hloop]
    exact parseLoop_of_misread _ rfl hlow hlen hfuel hskipped hascii hdrop
  rw [hparse, hflow]
  intro heq
  exact hletter (congrArg Addons.flow (Outcome.ret.inj heq))

/-- Vision, and before it the number ten in a field with the number 16. -/
def behindHigh : List Field :=
  [{ number := 16
     number_pos := by decide
     number_lt := by decide
     payload := .varint ⟨[10], by decide, by decide⟩ },
   { number := 1
     number_pos := by decide
     number_lt := by decide
     payload := .bytes ⟨[16], by decide, by decide⟩ (ascii "xtls-rprx-vision") rfl }]

theorem encode_behindHigh :
    encode behindHigh = [0x80, 0x01, 10, 0x0A, 16] ++ ascii "xtls-rprx-vision" := by
  simp [encode, behindHigh, Field.encode, Field.tag, Payload.wireType, Payload.encode, minimal]

/-- The number ten is taken for the tag of a `Flow`, and the tag behind it for a length. -/
theorem parse_behindHigh :
    parse (encode behindHigh) = .ret { flow := 16 :: ascii "xtls-rprx" } ∧
      lastFlow behindHigh = ascii "xtls-rprx-vision" := by
  rw [encode_behindHigh]
  exact ⟨by decide +kernel, by decide +kernel⟩

/-- The numbers of a message are 15 at most, but that of a varint field at its end. -/
def ShortTags (fields : List Field) : Prop :=
  (∀ f ∈ fields.dropLast, f.number ≤ 15) ∧
    ∀ f, fields.getLast? = some f → f.number ≤ 15 ∨ ∃ v, f.payload = .varint v

/-- Short tags, and perhaps a varint with a long one at the end. -/
theorem parse_of_shortTags {fields : List Field} (h : ShortTags fields)
    (hdata : (encode fields).length < 2 ^ 63) :
    parse (encode fields) = .ret { flow := lastFlow fields } := by
  rcases List.eq_nil_or_concat fields with rfl | ⟨front, f, rfl⟩
  · rfl
  · rw [List.concat_eq_append] at h hdata ⊢
    rw [ShortTags, List.dropLast_concat, List.getLast?_concat] at h
    obtain ⟨hfront, hlast⟩ := h
    obtain hf | ⟨v, hv⟩ := hlast f rfl
    · refine parse_encode (fun g hg => ?_) hdata
      obtain hg | hg := List.mem_append.1 hg
      · exact hfront g hg
      · rwa [List.mem_singleton.1 hg]
    · exact parse_encode_concat hfront hv hdata

/-- **Agreement with protobuf.** The flow is that of the last valid `Flow` field for every
    message whose field numbers are 15 at most, except that of a varint field at its end. No
    other number can be allowed: for all messages with numbers from some set the parser agrees
    with protobuf exactly if the set has no number above 15, and wherever a field with such a
    number stands in a message, it can be one that makes the parser return another flow. -/
theorem flow_agrees_iff (fields : List Field) (numbers : Set Nat) :
    ((encode fields).length < 2 ^ 63 → ShortTags fields →
      parse (encode fields) = .ret { flow := lastFlow fields }) ∧
    ((∀ message : List Field, (encode message).length < 2 ^ 63 →
        (∀ f ∈ message, f.number ∈ numbers) →
          parse (encode message) = .ret { flow := lastFlow message }) ↔
      ∀ n ∈ numbers, 0 < n → n < 2 ^ 29 → n ≤ 15) ∧
    (∀ (rest : List Field) (n : Nat), (∀ f ∈ fields, f.number ≤ 15) →
      (encode fields).length + (encode rest).length < 2 ^ 62 → 16 ≤ n → n < 2 ^ 29 →
        ∃ f : Field, f.number = n ∧ (encode (fields ++ f :: rest)).length < 2 ^ 63 ∧
          parse (encode (fields ++ f :: rest)) ≠
            .ret { flow := lastFlow (fields ++ f :: rest) }) := by
  refine ⟨fun hdata hshort => parse_of_shortTags hshort hdata, ⟨?_, ?_⟩,
    fun rest n hnumber hdata hlow hlt => exists_misread fields rest hnumber hdata hlow hlt⟩
  · -- a field by itself is a message
    intro hagree n hn hpos hlt
    by_contra hlow
    obtain ⟨f, hf, hlen, hmisread⟩ := exists_misread [] [] (by simp) (by decide)
      (show 16 ≤ n by omega) hlt
    exact hmisread (hagree [f] hlen fun g hg => by rwa [List.mem_singleton.1 hg, hf])
  · intro hnumbers message hdata hmem
    exact parse_encode (fun f hf => hnumbers _ (hmem f hf) f.number_pos f.number_lt) hdata

/-- Vision, and behind it the number zero in a field with the number 1000. -/
def beforeHigh : List Field :=
  [{ number := 1
     number_pos := by decide
     number_lt := by decide
     payload := .bytes ⟨[16], by decide, by decide⟩ (ascii "xtls-rprx-vision") rfl },
   { number := 1000
     number_pos := by decide
     number_lt := by decide
     payload := .varint ⟨[0], by decide, by decide⟩ }]

/-- A message of the second kind. -/
theorem flow_agrees_before_high :
    parse (encode beforeHigh) = .ret { flow := ascii "xtls-rprx-vision" } := by
  have hshort : ShortTags beforeHigh := by
    refine ⟨fun f hf => ?_, fun f hf => .inr ?_⟩
    · rw [List.mem_singleton.1 hf]
      exact (by decide : 1 ≤ 15)
    · cases hf
      exact ⟨_, rfl⟩
  have hlen : (encode beforeHigh).length < 2 ^ 63 := by
    simp [encode, beforeHigh, Field.encode, Field.tag, Payload.wireType, Payload.encode, minimal,
      ascii]
  rw [(flow_agrees_iff beforeHigh ∅).1 hlen hshort]
  decide +kernel

/-- **Vision is lost** behind an unknown field. -/
theorem vision_lost :
    (encode behindHigh).length < 2 ^ 63 ∧
      (∃ out, parse (encode behindHigh) = .ret out ∧ out.isVision = false) ∧
      Addons.isVision { flow := lastFlow behindHigh } = true := by
  rw [parse_behindHigh.1, parse_behindHigh.2, encode_behindHigh]
  exact ⟨by decide +kernel, ⟨_, rfl, by decide +kernel⟩, by decide +kernel⟩

/-! ## Every input -/

/-- `read_varint` returns and has consumed a byte at least. -/
theorem readVarint_returns (data : List UInt8) :
    (readVarint data).Returns fun r => ∀ v n, r = some (v, n) → 0 < n ∧ n ≤ data.length := by
  refine ⟨_, readVarint_eq data, ?_⟩
  intro v n hr
  obtain ⟨j, hj, heq⟩ := Option.map_eq_some_iff.1 hr
  cases heq
  obtain ⟨hlt, -⟩ := List.findIdx?_eq_some_iff_getElem.1 hj
  rw [List.length_take] at hlt
  omega

section Every

variable {data : List UInt8} {i : Nat} (hdata : data.length < 2 ^ 63)

include hdata

/-- A length and its contents lie inside the data. -/
theorem lengthDelimited_returns (hi : i ≤ data.length) :
    (lengthDelimited data i).Returns fun r =>
      ∀ start stop, r = some (start, stop) → i ≤ start ∧ start ≤ stop ∧ stop ≤ data.length := by
  rw [lengthDelimited, slice_length hi, Outcome.ret_bind]
  refine (readVarint_returns (data.drop i)).bind fun r hr => ?_
  match r with
  | none => exact .ret (by rintro start stop ⟨⟩)
  | some (len, consumed) =>
    obtain ⟨hpos, hle⟩ := hr len consumed rfl
    rw [List.length_drop] at hle
    dsimp only
    -- the length is added with saturation, so it cannot wrap
    rw [add_of_lt (by omega), Outcome.ret_bind]
    refine .ret fun start stop heq => ?_
    split at heq
    · cases heq
    · cases heq
      rw [saturatingAdd] at *
      omega

/-- A round returns, and moves on. -/
theorem parseField_returns (out : Addons) (hi : i < data.length) :
    (parseField data i out).Returns fun r =>
      ∀ j out', r = some (j, out') → i < j ∧ j ≤ data.length := by
  rw [parseField, get_of_lt hi, Outcome.ret_bind, add_of_lt (by omega), Outcome.ret_bind]
  dsimp only
  have hrange := lengthDelimited_returns hdata (i := i + 1) hi
  split
  · -- `Flow` or `Seed`
    refine hrange.bind fun r hr => ?_
    match r with
    | none => exact .ret (by rintro j out' ⟨⟩)
    | some (start, stop) =>
      obtain ⟨hstart, hstop, hle⟩ := hr start stop rfl
      dsimp only
      split
      · rw [slice_of_le hstop hle, Outcome.ret_bind]
        refine .ret ?_
        rintro j out' ⟨⟩
        omega
      · refine .ret ?_
        rintro j out' ⟨⟩
        omega
  split
  · -- a number, which is skipped
    rw [slice_length (by omega), Outcome.ret_bind]
    refine (readVarint_returns _).bind fun r hr => ?_
    match r with
    | none => exact .ret (by rintro j out' ⟨⟩)
    | some (v, consumed) =>
      obtain ⟨hpos, hle⟩ := hr v consumed rfl
      rw [List.length_drop] at hle
      dsimp only
      rw [add_of_lt (by omega), Outcome.ret_bind]
      refine .ret ?_
      rintro j out' ⟨⟩
      omega
  split
  · -- the bytes of another field, skipped as well
    refine hrange.bind fun r hr => ?_
    match r with
    | none => exact .ret (by rintro j out' ⟨⟩)
    | some (start, stop) =>
      obtain ⟨hstart, hstop, hle⟩ := hr start stop rfl
      refine .ret ?_
      rintro j out' ⟨⟩
      omega
  · exact .ret (by rintro j out' ⟨⟩)

/-- **The loop.** Each field moves the position forward, so the length of the data bounds their
    number. -/
theorem parseLoop_returns {fuel : Nat} (out : Addons) (hfuel : data.length ≤ i + fuel) :
    (parseLoop data fuel i out).Returns fun _ => True := by
  induction fuel generalizing i out with
  | zero =>
    rw [parseLoop, if_neg (by omega)]
    exact .ret trivial
  | succ fuel ih =>
    rw [parseLoop]
    split
    · rename_i hi
      refine (parseField_returns hdata out hi).bind fun r hr => ?_
      match r with
      | none => exact .ret trivial
      | some (j, out') =>
        -- every round takes a byte, and the fuel is the length
        obtain ⟨hlt, -⟩ := hr j out' rfl
        exact ih out' (by omega)
    · exact .ret trivial

/-- **Every input is parsed**, without a panic and in as many rounds as there are bytes. -/
theorem parse_returns : (parse data).Returns fun _ => True :=
  parseLoop_returns hdata {} (by omega)

end Every

end Fogged.Spec.Addons
