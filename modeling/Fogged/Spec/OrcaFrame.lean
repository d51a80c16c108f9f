import Fogged.Native.Orca

/-!
# OrcaX frames: unique decodability, and what padding does to it

`Frame.decode` reads back exactly what `Frame.encode` wrote, up to the padding it
strips: the two directions are `decode_encode_append` and `decode_eq_ok`. Without
the `padded` flag nothing is stripped, which makes the framing uniquely decodable.
With it, the two sides disagree about the length byte by one: `withPadding` counts
that byte as padding, `decode` takes it off in addition.

## Key results

- `encode_uniquely_decodable`: streams of unpadded frames, in both directions
- `paddingInvisible_iff`: when a padded frame comes back with its own payload
-/

namespace Fogged.Spec.Orca

open Fogged.Native.Orca
open Bytes

/-! ## Header fields -/

@[simp] theorem fromByte_toByte (t : FrameType) : FrameType.fromByte t.toByte = .ok t := by
  cases t <;> rfl

/-- A frame type is known by one byte. -/
theorem toByte_of_fromByte {b : UInt8} {t : FrameType} (h : FrameType.fromByte b = .ok t) :
    t.toByte = b := by
  unfold FrameType.fromByte at h
  split at h <;> cases h <;> rfl

/-- A `u32` survives its four bytes. -/
theorem ofNat_ofBE_toBE (id : UInt32) : UInt32.ofNat (ofBE (toBE 4 id.toNat)) = id := by
  rw [ofBE_toBE (k := 4) id.toNat_lt, UInt32.ofNat_toNat]

/-- A stream id is read back from its four bytes. -/
theorem toBE_ofNat_ofBE (i0 i1 i2 i3 : UInt8) :
    toBE 4 (UInt32.ofNat (ofBE [i0, i1, i2, i3])).toNat = [i0, i1, i2, i3] := by
  have hlt : ofBE [i0, i1, i2, i3] < 2 ^ 32 := by simpa using ofBE_lt [i0, i1, i2, i3]
  rw [UInt32.toNat_ofNat_of_lt' hlt]
  exact toBE_ofBE [i0, i1, i2, i3]

/-- The length field of a payload that fits it. -/
theorem ofBE_length {payload : List UInt8} (h : payload.length ≤ maxFrameSize) :
    ofBE (toBE 2 (UInt16.ofNat payload.length).toNat) = payload.length := by
  have hlt : payload.length < 2 ^ 16 := Nat.lt_succ_of_le h
  rw [UInt16.toNat_ofNat_of_lt' hlt]
  exact ofBE_toBE (k := 2) hlt

/-- A length is read back from its two bytes. -/
theorem toBE_length {payload : List UInt8} {l0 l1 : UInt8}
    (h : payload.length = ofBE [l0, l1]) :
    toBE 2 (UInt16.ofNat payload.length).toNat = [l0, l1] := by
  rw [h]
  exact toBE_toNat_ofBE rfl

/-- The bytes after type and flags, named one by one. -/
theorem header_bytes (id : UInt32) {payload : List UInt8} (h : payload.length ≤ maxFrameSize) :
    ∃ i0 i1 i2 i3 l0 l1,
      toBE 4 id.toNat ++ toBE 2 (UInt16.ofNat payload.length).toNat ++ payload =
        i0 :: i1 :: i2 :: i3 :: l0 :: l1 :: payload ∧
      UInt32.ofNat (ofBE [i0, i1, i2, i3]) = id ∧ ofBE [l0, l1] = payload.length := by
  obtain ⟨i0, i1, i2, i3, hid⟩ : ∃ i0 i1 i2 i3, toBE 4 id.toNat = [i0, i1, i2, i3] :=
    ⟨_, _, _, _, rfl⟩
  obtain ⟨l0, l1, hl⟩ : ∃ l0 l1, toBE 2 (UInt16.ofNat payload.length).toNat = [l0, l1] :=
    ⟨_, _, rfl⟩
  refine ⟨i0, i1, i2, i3, l0, l1, ?_, ?_, ?_⟩
  · rw [hid, hl]
    rfl
  · rw [← hid]
    exact ofNat_ofBE_toBE id
  · rw [← hl]
    exact ofBE_length h

/-! ## Decoding one frame -/

/-- **Decoding what was encoded** gives the frame back up to stripping, and leaves
    the bytes after it alone. -/
theorem decode_encode_append (f : Frame) (hlen : f.payload.length ≤ maxFrameSize)
    (rest : List UInt8) :
    Frame.decode (f.encode ++ rest) =
      .ok ({ f with payload := stripPadding f.flags f.payload }, rest) := by
  obtain ⟨i0, i1, i2, i3, l0, l1, hbytes, hid, hl⟩ := header_bytes f.streamId hlen
  have hfits : ¬ f.payload.length > maxFrameSize := by omega
  simp only [Frame.encode, hbytes, List.cons_append, Frame.decode, fromByte_toByte, bind,
    Except.bind, hl, hfits, if_false, readExact_append, hid]

/-- **What was decoded had been encoded**: a successful `decode` has consumed the
    encoding of the frame as it was before stripping. -/
theorem decode_eq_ok {w rest : List UInt8} {g : Frame} (h : Frame.decode w = .ok (g, rest)) :
    ∃ payload, payload.length ≤ maxFrameSize ∧ g.payload = stripPadding g.flags payload ∧
      w = Frame.encode { g with payload } ++ rest := by
  -- every branch but one returns an error
  unfold Frame.decode at h
  split at h
  · rename_i type flags i0 i1 i2 i3 l0 l1 input
    cases ht : FrameType.fromByte type with
    | error e =>
      rw [ht] at h
      cases h
    | ok t =>
      rw [ht] at h
      simp only [bind, Except.bind] at h
      split at h
      · cases h
      · rename_i hle
        split at h
        · cases h
        · rename_i payload input' hread
          cases h
          obtain ⟨hplen, hinput⟩ := readExact_eq_some hread
          have htype := toByte_of_fromByte ht
          have hid := toBE_ofNat_ofBE i0 i1 i2 i3
          have hl := toBE_length hplen
          refine ⟨payload, by omega, rfl, ?_⟩
          simp only [Frame.encode, htype, hid, hl, hinput, List.cons_append, List.nil_append]
  · cases h

/-- A frame that is decoded up to its end has a payload that fits. -/
theorem length_le_of_decode {f g : Frame} {rest : List UInt8}
    (h : Frame.decode (f.encode ++ rest) = .ok (g, rest)) : f.payload.length ≤ maxFrameSize := by
  obtain ⟨payload, hlen, -, hw⟩ := decode_eq_ok h
  have heq := congrArg List.length (List.append_cancel_right hw)
  simp only [Frame.encode, List.length_cons, List.length_append, length_toBE] at heq
  omega

/-- One byte more than fits, and the length field is zero. -/
theorem decode_encode_full (f : Frame) (hlen : f.payload.length = maxFrameSize + 1)
    (rest : List UInt8) :
    Frame.decode (f.encode ++ rest) = .ok ({ f with payload := [] }, f.payload ++ rest) := by
  have hempty : Frame.encode { f with payload := [] } ++ f.payload = f.encode := by
    simp [Frame.encode, hlen, maxFrameSize]
  have hstrip : stripPadding f.flags [] = [] := by
    rw [stripPadding]
    split <;> rfl
  have hdecode := decode_encode_append { f with payload := [] } (Nat.zero_le _) (f.payload ++ rest)
  rw [← List.append_assoc, hempty, hstrip] at hdecode
  exact hdecode

/-! ## Streams of unpadded frames -/

/-- Without the `padded` flag nothing is stripped. -/
theorem stripPadding_of_clear {flags : UInt8} (h : flags &&& padded = 0) (payload : List UInt8) :
    stripPadding flags payload = payload := by
  rw [stripPadding, if_neg (by simp [h])]

/-- Read `n` frames one after the other. -/
def decodeFrames : Nat → List UInt8 → Except DecodeError (List Frame × List UInt8)
  | 0, input => .ok ([], input)
  | n + 1, input => do
    let (f, input) ← Frame.decode input
    let (fs, input) ← decodeFrames n input
    .ok (f :: fs, input)

/-- Frames in a row are decoded one after the other. -/
theorem decodeFrames_encode (frames : List Frame)
    (h : ∀ f ∈ frames, f.flags &&& padded = 0 ∧ f.payload.length ≤ maxFrameSize)
    (rest : List UInt8) :
    decodeFrames frames.length (frames.flatMap Frame.encode ++ rest) = .ok (frames, rest) := by
  induction frames with
  | nil => rfl
  | cons f fs ih =>
    obtain ⟨hclear, hlen⟩ := h f List.mem_cons_self
    have htail := ih (fun x hx => h x (List.mem_cons_of_mem _ hx))
    rw [List.flatMap_cons, List.append_assoc, List.length_cons, decodeFrames,
      decode_encode_append f hlen, stripPadding_of_clear hclear]
    simp only [bind, Except.bind, htail]

/-- A frame that ends early is not a frame: decoding the rest of its bytes as well
    would leave a rest, while decoding the whole leaves none. -/
theorem decode_strict_prefix {f : Frame} (hlen : f.payload.length ≤ maxFrameSize)
    {p : List UInt8} (hp : p <+: f.encode) (hne : p ≠ f.encode) :
    ∃ e, Frame.decode p = .error e := by
  cases hdec : Frame.decode p with
  | error e => exact ⟨e, rfl⟩
  | ok r =>
    obtain ⟨g, rest⟩ := r
    obtain ⟨tail, htail⟩ := hp
    obtain ⟨payload, hpay, -, hw⟩ := decode_eq_ok hdec
    have hwhole := decode_encode_append f hlen []
    have hsplit := decode_encode_append { g with payload } hpay (rest ++ tail)
    rw [← List.append_assoc, ← hw, htail] at hsplit
    rw [List.append_nil, hsplit] at hwhole
    -- both readings of the same bytes leave the same rest
    have hrest : rest ++ tail = [] := (Prod.ext_iff.1 (Except.ok.inj hwhole)).2
    have hnil : tail = [] := (List.append_eq_nil_iff.1 hrest).2
    rw [hnil, List.append_nil] at htail
    exact absurd htail hne

/-- **Unpadded framing is uniquely decodable.** A stream of frames is read back
    frame by frame, no strict prefix of a frame is accepted, and whatever is
    accepted without the `padded` flag is the encoding of what is returned. -/
theorem encode_uniquely_decodable :
    (∀ (frames : List Frame) (rest : List UInt8),
      (∀ f ∈ frames, f.flags &&& padded = 0 ∧ f.payload.length ≤ maxFrameSize) →
      decodeFrames frames.length (frames.flatMap Frame.encode ++ rest) = .ok (frames, rest)) ∧
    (∀ (f : Frame) (p : List UInt8), f.flags &&& padded = 0 → f.payload.length ≤ maxFrameSize →
      p <+: f.encode → p ≠ f.encode → ∃ e, Frame.decode p = .error e) ∧
    (∀ (w rest : List UInt8) (g : Frame), Frame.decode w = .ok (g, rest) →
      g.flags &&& padded = 0 → g.encode ++ rest = w) := by
  refine ⟨?_, ?_, ?_⟩
  · intro frames rest h
    exact decodeFrames_encode frames h rest
  · intro f p _ hlen hp hne
    exact decode_strict_prefix hlen hp hne
  · intro w rest g hdec hclear
    obtain ⟨payload, -, hpay, hw⟩ := decode_eq_ok hdec
    rw [stripPadding_of_clear hclear] at hpay
    rw [hw, ← hpay]

/-- Two frames, the second without payload, and one byte after them. -/
theorem encode_uniquely_decodable_two :
    decodeFrames 2 ([⟨.data, 0, 7, [1, 2]⟩, ⟨.streamClose, 1, 7, []⟩].flatMap Frame.encode ++ [9]) =
      .ok ([⟨.data, 0, 7, [1, 2]⟩, ⟨.streamClose, 1, 7, []⟩], [9]) :=
  encode_uniquely_decodable.1 [⟨.data, 0, 7, [1, 2]⟩, ⟨.streamClose, 1, 7, []⟩] [9] (by decide)

/-! ## Padding -/

/-- Setting the flag sets it. -/
theorem or_padded (flags : UInt8) : (flags ||| padded) &&& padded ≠ 0 := by
  intro h
  have hnat : (flags.toNat ||| 4) &&& 4 = 0 := by
    simpa [padded] using congrArg UInt8.toNat h
  rw [Nat.and_or_distrib_right, Nat.or_eq_zero_iff] at hnat
  cases hnat.2

@[simp] theorem length_paddingBytes (rng : Rng) (n : Nat) : (paddingBytes rng n).length = n := by
  unfold paddingBytes
  cases n with
  | zero => rfl
  | succ n => simp [List.range_succ]

/-- The last byte of a padding is its length, as a `u8`. -/
theorem getLast?_paddingBytes (rng : Rng) {n : Nat} (hn : 0 < n) :
    (paddingBytes rng n).getLast? = some (UInt8.ofNat n) := by
  unfold paddingBytes
  cases n with
  | zero => exact absurd hn (Nat.lt_irrefl 0)
  | succ n => simp [List.range_succ]

/-- How much a padded payload keeps: nothing is stripped if its last byte claims
    all of it or more, otherwise that many bytes and one. -/
theorem length_stripPadding {flags : UInt8} (hflags : flags &&& padded ≠ 0)
    {payload : List UInt8} {last : UInt8} (hlast : payload.getLast? = some last) :
    (stripPadding flags payload).length =
      if last.toNat < payload.length then payload.length - last.toNat - 1 else payload.length := by
  rw [stripPadding, if_pos hflags, hlast]
  show (if last.toNat < payload.length then _ else payload).length = _
  split
  · rw [List.length_take]
    omega
  · rfl

/-- **When nothing is stripped**: PADDED is clear, or the last byte, if there is one, claims
    the whole payload or more. -/
theorem stripPadding_eq_self_iff (flags : UInt8) (payload : List UInt8) :
    stripPadding flags payload = payload ↔
      flags &&& padded = 0 ∨ ∀ last, payload.getLast? = some last → payload.length ≤ last.toNat := by
  by_cases hflags : flags &&& padded = 0
  · exact iff_of_true (by rw [stripPadding, if_neg (not_not.2 hflags)]) (.inl hflags)
  · cases hlast : payload.getLast? with
    | none =>
      refine iff_of_true ?_ (.inr fun last h => by cases h)
      rw [stripPadding, if_pos hflags, hlast]
    | some last =>
      -- what is kept is shorter, unless the last byte claims all of it
      have hlen := length_stripPadding hflags hlast
      constructor
      · intro heq
        rw [heq] at hlen
        refine .inr fun last' h => ?_
        cases h
        split at hlen <;> omega
      · intro h
        have hle := (h.resolve_left hflags) last rfl
        rw [stripPadding, if_pos hflags, hlast]
        exact if_neg (by omega)

/-- The frame with `n` bytes of padding. -/
def paddedBy (f : Frame) (rng : Rng) (n : Nat) : Frame :=
  { f with payload := f.payload ++ paddingBytes rng n, flags := f.flags ||| padded }

/-- `withPadding` adds as many bytes as it drew. -/
theorem withPadding_eq (f : Frame) (rng : Rng) {min max : Nat} (hmin : min ≤ max)
    (hmax : max ≤ maxPadding) :
    f.withPadding rng min max = .ret (paddedBy f rng (rng.genRange min max)) := by
  have hcap : Nat.min max maxPadding = max := Nat.min_eq_left hmax
  rw [Frame.withPadding, hcap, Rng.sample, if_pos hmin]
  rfl

/-- The frame that `withPadding` makes comes back with `f`'s type, stream and
    payload, and the bytes after it are left. -/
def PaddingInvisible (f : Frame) (rng : Rng) (min max : Nat) (rest : List UInt8) : Prop :=
  ∃ g d, f.withPadding rng min max = .ret g ∧ Frame.decode (g.encode ++ rest) = .ok (d, rest) ∧
    d.frameType = f.frameType ∧ d.streamId = f.streamId ∧ d.payload = f.payload

/-- Stripping gives the payload back only if no padding was added, and then only
    if the payload's own last byte does not pass for a padding length. -/
theorem stripPadding_padded_iff (flags : UInt8) (payload : List UInt8) (rng : Rng) {n : Nat}
    (hn : n ≤ maxPadding) :
    stripPadding (flags ||| padded) (payload ++ paddingBytes rng n) = payload ↔
      n = 0 ∧ ∀ last, payload.getLast? = some last → payload.length ≤ last.toNat := by
  have hflags := or_padded flags
  by_cases hzero : n = 0
  · -- nothing was added, but the flag is set: the payload is read as if it had been
    subst hzero
    have hnil : payload ++ paddingBytes rng 0 = payload := List.append_nil payload
    rw [hnil]
    rw [stripPadding_eq_self_iff]
    constructor
    · exact fun h => ⟨rfl, h.resolve_left hflags⟩
    · exact fun h => .inr h.2
  · -- the lengths differ, whatever the padding's length byte says
    have hlast : (payload ++ paddingBytes rng n).getLast? = some (UInt8.ofNat n) := by
      rw [List.getLast?_append, getLast?_paddingBytes rng (by omega)]
      rfl
    have hlen := length_stripPadding hflags hlast
    rw [List.length_append, length_paddingBytes, UInt8.toNat_ofNat'] at hlen
    constructor
    · intro heq
      -- one byte too many for 1 to 255 bytes of padding; 256 write the length 0
      rw [heq] at hlen
      unfold maxPadding at hn
      split at hlen <;> omega
    · intro h
      exact absurd h.1 hzero

/-- **When padding is invisible**: exactly when the generator drew no padding at
    all and the payload is empty or ends in a byte that is at least its length. Any
    padding that is really added damages the frame. -/
theorem paddingInvisible_iff (f : Frame) (rng : Rng) (min max : Nat) (rest : List UInt8)
    (hmin : min ≤ max) (hmax : max ≤ maxPadding)
    (hlen : f.payload.length + max ≤ maxFrameSize) :
    PaddingInvisible f rng min max rest ↔
      rng.genRange min max = 0 ∧
        ∀ last, f.payload.getLast? = some last → f.payload.length ≤ last.toNat := by
  obtain ⟨n, hn⟩ : ∃ n, n = rng.genRange min max := ⟨_, rfl⟩
  have hle : n ≤ max := by
    rw [hn]
    exact (rng.genRange_mem min max hmin).2
  have hpad := withPadding_eq f rng hmin hmax
  rw [← hn] at hpad
  -- the padded frame still fits, so it is decoded as it was encoded
  have hfits : (paddedBy f rng n).payload.length ≤ maxFrameSize := by
    rw [paddedBy, List.length_append, length_paddingBytes]
    omega
  have hdec := decode_encode_append (paddedBy f rng n) hfits rest
  rw [← hn, ← stripPadding_padded_iff f.flags f.payload rng (by omega : n ≤ maxPadding)]
  constructor
  · rintro ⟨g, d, hg, hd, -, -, hpayload⟩
    rw [hpad] at hg
    cases hg
    rw [hdec] at hd
    cases hd
    exact hpayload
  · intro hstrip
    exact ⟨_, _, hpad, hdec, rfl, rfl, hstrip⟩

/-- A generator that draws the lower bound and fills with one byte. -/
def lowRng : Rng where
  genRange lo _ := lo
  genRange_mem lo _ h := ⟨Nat.le_refl lo, h⟩
  fill _ := 0xAA

/-- No padding drawn, and a payload whose last byte is large. -/
theorem paddingInvisible_zero : PaddingInvisible (Frame.data 1 [0x61]) lowRng 0 0 [0x07] := by
  apply (paddingInvisible_iff (Frame.data 1 [0x61]) lowRng 0 0 [0x07] (by decide) (by decide)
    (by decide)).2
  refine ⟨rfl, ?_⟩
  rintro last ⟨⟩
  decide

/-- Four bytes of padding cost a data frame its payload. -/
theorem withPadding_loses_payload :
    (Frame.data 1 [0x61]).flags &&& padded = 0 ∧ 4 ≤ maxPadding ∧ 1 + 4 ≤ maxFrameSize ∧
      (Frame.data 1 [0x61]).withPadding lowRng 4 4 =
        .ret ⟨.data, padded, 1, [0x61, 0xAA, 0xAA, 0xAA, 0x04]⟩ ∧
      Frame.decode (Frame.encode ⟨.data, padded, 1, [0x61, 0xAA, 0xAA, 0xAA, 0x04]⟩ ++ [0x07]) =
        .ok (⟨.data, padded, 1, []⟩, [0x07]) ∧
      ¬ PaddingInvisible (Frame.data 1 [0x61]) lowRng 4 4 [0x07] := by
  have hpad : (Frame.data 1 [0x61]).withPadding lowRng 4 4 =
      .ret ⟨.data, padded, 1, [0x61, 0xAA, 0xAA, 0xAA, 0x04]⟩ := by decide
  have hdec : Frame.decode (Frame.encode ⟨.data, padded, 1, [0x61, 0xAA, 0xAA, 0xAA, 0x04]⟩ ++
      [0x07]) = .ok (⟨.data, padded, 1, []⟩, [0x07]) := by decide
  refine ⟨by decide, by decide, by decide, hpad, hdec, ?_⟩
  rintro ⟨g, d, hg, hd, -, -, hpayload⟩
  rw [hpad] at hg
  cases hg
  rw [hdec] at hd
  cases hd
  cases hpayload

end Fogged.Spec.Orca
