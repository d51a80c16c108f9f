import Fogged.Spec.VisionUnpadCorrect

/-!
# Vision: what the writer sends, the reader recovers

The encoder pads a payload by a random amount, clamped so that the frame fits, and
writes both lengths modulo 2^16. This file describes its output (`encodeFrame_default`),
runs the reader over it, and composes frames to sessions.

## Key results

- `run_frame`: the reader over one well-formed frame
- `unpad_encodeSession`: a multi-frame session followed by raw bytes
- `unpad_padState`: everything a `PadState` ever writes, payloads longer than the
  length field included
-/

namespace Fogged.Spec.Vision

open Fogged.Native.Vision
open Fogged.Native.Vision.UnpadState
open Transducer

/-! ## One frame through the reader -/

/-- The reader at the start of a frame. -/
def ready (uuid : Uuid) : UnpadState :=
  { UnpadState.new uuid with uuidBuf := uuid.toList, uuidDone := true, remainingCommand := 5 }

/-- The reader inside a frame whose header it has read. -/
def inFrame (uuid : Uuid) (cmd : UInt8) (content padding : Int) : UnpadState :=
  { ready uuid with
    remainingCommand := 0
    currentCommand := cmd
    remainingContent := content
    remainingPadding := padding }

/-- The five header bytes, both lengths big-endian and modulo 2^16. -/
def header (cmd : UInt8) (content padding : Nat) : List UInt8 :=
  [cmd, UInt8.ofNat (content / 256), UInt8.ofNat content,
    UInt8.ofNat (padding / 256), UInt8.ofNat padding]

theorem inFrame_framing (uuid : Uuid) (cmd : UInt8) (content padding : Nat)
    (hc : content < 65536) (hp : padding < 65536) :
    Framing (inFrame uuid cmd content padding) := by
  refine ⟨⟨?_, ?_, ?_, ?_, ?_⟩, rfl, rfl, rfl, rfl⟩ <;> simp only [inFrame] <;> omega

/-- The user's UUID brings a new reader to its first frame. -/
theorem run_uuidPrefix (uuid : Uuid) (w : List UInt8) :
    run byteStep (UnpadState.new uuid) (uuid.toList ++ w) = run byteStep (ready uuid) w := by
  have hlen : uuid.toList.length = 16 := by simp
  have hne : uuid.toList ≠ [] := by
    intro h
    rw [h] at hlen
    cases hlen
  have hfull := run_uuid_full (s := UnpadState.new uuid) rfl uuid.toList hne
    (by simp [UnpadState.new])
  rw [if_pos (by simp [UnpadState.new])] at hfull
  rw [run_append, hfull, Report.andThen_ok]
  rfl

/-- Two bytes of a 16-bit length give it back. -/
theorem beBytes_eq (n : Nat) (hn : n < 65536) :
    256 * ((UInt8.ofNat (n / 256)).toNat : Int) + ((UInt8.ofNat n).toNat : Int) = n := by
  simp only [UInt8.toNat_ofNat']
  omega

theorem ready_framing (uuid : Uuid) : Framing (ready uuid) := by
  refine ⟨⟨?_, ?_, ?_, ?_, ?_⟩, rfl, rfl, rfl, rfl⟩ <;> simp [ready]

/-- A byte of the header. -/
theorem byteStep_headerByte {s : UnpadState} (h : Framing s) (hrc : s.remainingCommand > 0)
    (b : UInt8) : byteStep s b = settle (headerByte s b) [] := by
  rw [byteStep, if_neg (by simp [h.uuidDone]), if_neg (by simp [h.done]), if_pos hrc]

/-- Up to the last header byte nothing is settled. -/
theorem byteStep_header {s : UnpadState} (h : Framing s) (hrc : s.remainingCommand > 1)
    (b : UInt8) : byteStep s b = ⟨.ok (), headerByte s b, []⟩ := by
  -- four positions leave header bytes to be read, the fifth is excluded
  have hopen : (headerByte s b).frameComplete = false := by
    obtain hrc' | hrc' | hrc' | hrc' | hrc' := h.command_cases (by omega)
    · simp [headerByte, hrc', frameComplete]
    · simp [headerByte, hrc', frameComplete]
    · simp [headerByte, hrc', frameComplete]
    · simp [headerByte, hrc', frameComplete]
    · omega
  rw [byteStep_headerByte h (by omega), settle_of_not_complete hopen]

/-- The reader over a header. -/
theorem run_header (uuid : Uuid) (cmd : UInt8) (content padding : Nat)
    (hc : content < 65536) (hp : padding < 65536) :
    run byteStep (ready uuid) (header cmd content padding) =
      settle (inFrame uuid cmd content padding) [] := by
  obtain ⟨chi, hchi⟩ : ∃ b, b = UInt8.ofNat (content / 256) := ⟨_, rfl⟩
  obtain ⟨clo, hclo⟩ : ∃ b, b = UInt8.ofNat content := ⟨_, rfl⟩
  obtain ⟨phi, hphi⟩ : ∃ b, b = UInt8.ofNat (padding / 256) := ⟨_, rfl⟩
  obtain ⟨plo, hplo⟩ : ∃ b, b = UInt8.ofNat padding := ⟨_, rfl⟩
  -- the state after each of the first four bytes
  have f0 := ready_framing uuid
  have f1 := headerByte_framing f0 cmd (show (5 : Int) > 0 by decide)
  have f2 := headerByte_framing f1 chi (show (4 : Int) > 0 by decide)
  have f3 := headerByte_framing f2 clo (show (3 : Int) > 0 by decide)
  have f4 := headerByte_framing f3 phi (show (2 : Int) > 0 by decide)
  have hlast : headerByte (headerByte (headerByte (headerByte (headerByte (ready uuid) cmd) chi)
      clo) phi) plo = inFrame uuid cmd content padding := by
    simp only [headerByte, ready, inFrame]
    rw [hchi, hclo, hphi, hplo, beBytes_eq content hc, beBytes_eq padding hp]
  rw [header, ← hchi, ← hclo, ← hphi, ← hplo, run_cons,
    byteStep_header f0 (show (5 : Int) > 1 by decide), Report.andThen_ok, run_cons,
    byteStep_header f1 (show (4 : Int) > 1 by decide), Report.andThen_ok, run_cons,
    byteStep_header f2 (show (3 : Int) > 1 by decide), Report.andThen_ok, run_cons,
    byteStep_header f3 (show (2 : Int) > 1 by decide), Report.andThen_ok, run_singleton,
    byteStep_headerByte f4 (show (1 : Int) > 0 by decide), hlast]
  rfl

/-- There is more to come in the frame. -/
theorem settle_inFrame_open (uuid : Uuid) (cmd : UInt8) (content padding : Nat)
    (h : 0 < content + padding) (out : List UInt8) :
    settle (inFrame uuid cmd content padding) out =
      ⟨.ok (), inFrame uuid cmd content padding, out⟩ := by
  apply settle_of_not_complete
  simp only [frameComplete, inFrame, Bool.and_eq_false_iff, beq_eq_false_iff_ne]
  omega

/-- The reader over the content and padding its header announced. -/
theorem run_body (uuid : Uuid) (cmd : UInt8) (content padding : List UInt8)
    (hc : content.length < 65536) (hp : padding.length < 65536) :
    (settle (inFrame uuid cmd content.length padding.length) []).andThen
      (fun s => run byteStep s (content ++ padding)) = settle (inFrame uuid cmd 0 0) content := by
  -- the padding of a frame whose content has been copied
  have hpad : ∀ out, (settle (inFrame uuid cmd 0 padding.length) out).andThen
      (fun s => run byteStep s padding) = settle (inFrame uuid cmd 0 0) out := by
    intro out
    by_cases hne : padding = []
    · subst hne
      simp
    · -- the frame is open before its padding and settled at its end, output kept
      have hpos : 0 < padding.length := List.length_pos_of_ne_nil hne
      have hrun := run_padding (inFrame_framing uuid cmd 0 padding.length (by omega) hp)
        (by simp [inFrame]) (by simp [inFrame]) padding hne (by simp [inFrame])
      have hend : { inFrame uuid cmd (0 : Nat) padding.length with
          remainingPadding := (inFrame uuid cmd (0 : Nat) padding.length).remainingPadding -
            padding.length } = inFrame uuid cmd 0 0 := by simp [inFrame]
      have hout := settle_append (inFrame uuid cmd 0 0) out []
      have hopen := settle_inFrame_open uuid cmd 0 padding.length (by omega) out
      rw [hend] at hrun
      rw [List.append_nil] at hout
      rw [Nat.cast_zero] at hopen hrun
      rw [hopen, Report.andThen_ok, hrun, hout]
  by_cases hne : content = []
  · subst hne
    exact hpad []
  · -- the content first; what is left is a frame with padding only
    have hpos : 0 < content.length := List.length_pos_of_ne_nil hne
    have hrun := run_content (inFrame_framing uuid cmd _ _ hc hp) (by simp [inFrame]) content hne
      (by simp [inFrame])
    have hend : { inFrame uuid cmd content.length padding.length with
        remainingContent := (inFrame uuid cmd content.length padding.length).remainingContent -
          content.length } = inFrame uuid cmd 0 padding.length := by simp [inFrame]
    rw [hend] at hrun
    rw [settle_inFrame_open uuid cmd _ _ (by omega), Report.andThen_ok, run_append, hrun, hpad]
    simp

/-- **The reader over one frame** copies its content and does what its command says. -/
theorem run_frame (uuid : Uuid) (cmd : UInt8) (content padding : List UInt8)
    (hc : content.length < 65536) (hp : padding.length < 65536) :
    run byteStep (ready uuid) (header cmd content.length padding.length ++ content ++ padding) =
      settle (inFrame uuid cmd 0 0) content := by
  rw [List.append_assoc, run_append, run_header uuid cmd _ _ hc hp,
    run_body uuid cmd content padding hc hp]

/-- What the reader does at the end of a frame it has read completely. -/
theorem settle_continue (uuid : Uuid) (out : List UInt8) :
    settle (inFrame uuid Command.paddingContinue.toByte 0 0) out = ⟨.ok (), ready uuid, out⟩ := rfl

/-- The reader after a terminating command. -/
def ended (uuid : Uuid) (c : Command) : UnpadState :=
  { inFrame uuid c.toByte 0 0 with done := true, direct := c == .paddingDirect }

/-- The frame is complete, and its command ends the padding. -/
theorem settle_end (uuid : Uuid) {c : Command} (hc : c ≠ .paddingContinue) (out : List UInt8) :
    settle (inFrame uuid c.toByte 0 0) out = ⟨.ok (), ended uuid c, out⟩ := by
  cases c with
  | paddingContinue => exact absurd rfl hc
  | paddingEnd => rfl
  | paddingDirect => rfl

/-! ## What the encoder writes -/

/-- A cast to `i32` in range. -/
theorem asI32_of_range {x : Int} (h0 : -2 ^ 31 ≤ x) (h1 : x < 2 ^ 31) : asI32 x = x := by
  simp only [asI32, Int.bmod]
  omega

/-- A cast to `usize` in range. -/
theorem asUsize_natCast {n : Nat} (h : n < 2 ^ 64) : asUsize n = n := by
  simp only [asUsize]
  omega

/-- The low byte of a length. -/
theorem ofInt_natCast (n : Nat) : UInt8.ofInt n = UInt8.ofNat n := by
  apply UInt8.toNat_inj.mp
  rw [UInt8.ofInt, UInt8.toNat_ofNat', UInt8.toNat_ofNat']
  omega

/-- The high byte of a length. -/
theorem ofInt_natCast_shift (n : Nat) :
    UInt8.ofInt ((n : Int) >>> (8 : Nat)) = UInt8.ofNat (n / 256) := by
  rw [← ofInt_natCast, Int.shiftRight_eq_div_pow]
  rfl

/-- The padding the default seed draws. -/
theorem drawPadding_default (rng : Rng) (n : Nat) (hn : n < 2 ^ 31) (long : Bool) :
    drawPadding rng n long .default =
      .ret (if n < 900 ∧ long = true then (rng.nextU32.toNat % 500 : Nat) + 900 - n
        else (rng.nextU32.toNat % 256 : Nat)) := by
  have hlen : asU32 n = n := by simp only [asU32]; omega
  have hlong : rng.nextU32.toNat % 500 < 500 := Nat.mod_lt _ (by decide)
  have hshort : rng.nextU32.toNat % 256 < 256 := Nat.mod_lt _ (by decide)
  have hr500 : remU32 rng.nextU32 500 = .ret (rng.nextU32 % 500) := rfl
  have hr256 : remU32 rng.nextU32 256 = .ret (rng.nextU32 % 256) := rfl
  have h900 : UInt32.toNat 900 = 900 := rfl
  have h500 : UInt32.toNat 500 = 500 := rfl
  have h256 : UInt32.toNat 256 = 256 := rfl
  simp only [drawPadding, hlen, PaddingSeed.default, hr500, hr256, Outcome.ret_bind,
    UInt32.toNat_mod, h900, h500, h256]
  by_cases hcond : n < 900 ∧ long = true
  · rw [if_pos hcond, if_pos hcond]
    -- none of the four `i32` results wraps
    rw [asI32_of_range (x := (rng.nextU32.toNat % 500 : Nat)) (by omega) (by omega),
      asI32_of_range (x := (900 : Nat)) (by omega) (by omega),
      asI32_of_range (x := (rng.nextU32.toNat % 500 : Nat) + (900 : Nat)) (by omega) (by omega),
      asI32_of_range (by omega) (by omega)]
    rfl
  · rw [if_neg hcond, if_neg hcond, asI32_of_range (by omega) (by omega)]

/-- The cap leaves room for header and UUID, and never goes below zero. -/
theorem capPadding_eq (n : Nat) (hn : n < 2 ^ 31) (d : Int) :
    capPadding n d = max 0 (min d (2027 - n)) := by
  have hcap : asI32 (frameMax - headerOverhead - n) = 2027 - n := by
    rw [asI32_of_range] <;> simp only [frameMax, headerOverhead] <;> omega
  simp only [capPadding, hcap]
  split <;> split <;> omega

/-- The padding length of the default seed, for a content of `n` bytes. -/
def paddingLength (draw : UInt32) (n : Nat) (long : Bool) : Nat :=
  min (if n < 900 ∧ long = true then draw.toNat % 500 + 900 - n else draw.toNat % 256) (2027 - n)

/-- The length of the padding, drawn and clamped. -/
theorem capPadding_drawPadding (rng : Rng) (n : Nat) (hn : n < 2 ^ 31) (long : Bool) :
    ∃ d, drawPadding rng n long .default = .ret d ∧
      capPadding n d = (paddingLength rng.nextU32 n long : Nat) := by
  refine ⟨_, drawPadding_default rng n hn long, ?_⟩
  rw [capPadding_eq n hn, paddingLength]
  split <;> omega

/-- **What the encoder writes** with the default seed: the optional UUID, the
    header, the payload and the padding. -/
theorem encodeFrame_default (rng : Rng) (payload : List UInt8) (hlen : payload.length < 2 ^ 31)
    (c : Command) (withUuid : Bool) (uuid : Uuid) (long : Bool) :
    ∃ padding : List UInt8, padding.length = paddingLength rng.nextU32 payload.length long ∧
      encodeFrame rng payload c withUuid uuid long .default =
        .ret ((if withUuid then uuid.toList else []) ++
          (header c.toByte payload.length padding.length ++ payload ++ padding)) := by
  obtain ⟨d, hd, hcap⟩ := capPadding_drawPadding rng payload.length hlen long
  have hle : paddingLength rng.nextU32 payload.length long ≤ 2027 := by
    rw [paddingLength]
    omega
  generalize paddingLength rng.nextU32 payload.length long = m at hcap hle
  have hmlen : ((List.range m).map rng.fillBytes).length = m := by simp
  refine ⟨(List.range m).map rng.fillBytes, hmlen, ?_⟩
  -- `Vec::with_capacity` does not overflow
  have hcapacity : ¬ ((if withUuid = true then 16 else 0) + 5 + payload.length + m) % 2 ^ 64 ≥
      2 ^ 63 := by
    split <;> omega
  simp only [encodeFrame, asI32_of_range (x := payload.length) (by omega) (by omega), hd,
    Outcome.ret_bind, hcap, asUsize_natCast (show payload.length < 2 ^ 64 by omega),
    asUsize_natCast (show m < 2 ^ 64 by omega), if_neg hcapacity, ofInt_natCast,
    ofInt_natCast_shift, hmlen, header, List.append_assoc]

/-- At most 2027 bytes of padding, none of it for a payload that fills the frame by
    itself. -/
theorem encodeFrame_eq (rng : Rng) (payload : List UInt8) (hlen : payload.length < 2 ^ 31)
    (c : Command) (withUuid : Bool) (uuid : Uuid) (long : Bool) :
    ∃ padding : List UInt8, padding.length ≤ 2027 ∧
      (2027 ≤ payload.length → padding = []) ∧
      encodeFrame rng payload c withUuid uuid long .default =
        .ret ((if withUuid then uuid.toList else []) ++
          (header c.toByte payload.length padding.length ++ payload ++ padding)) := by
  obtain ⟨padding, hpadding, henc⟩ := encodeFrame_default rng payload hlen c withUuid uuid long
  rw [paddingLength] at hpadding
  refine ⟨padding, by omega, ?_, henc⟩
  intro hfull
  exact List.eq_nil_of_length_eq_zero (by omega)

/-! ## Sessions of several frames -/

/-- A payload with the padding choice and the random outcomes of its frame. -/
structure Sent where
  payload : List UInt8
  longPadding : Bool
  rng : Rng

/-- The frames of a session, one after the other: all but the last continue, and
    the first may carry the UUID. -/
def encodeSession (uuid : Uuid) (last : Command) : Bool → List Sent → Outcome (List UInt8)
  | _, [] => .ret []
  | first, [f] => encodeFrame f.rng f.payload last first uuid f.longPadding .default
  | first, f :: g :: fs => do
    let bytes ← encodeFrame f.rng f.payload .paddingContinue first uuid f.longPadding .default
    let rest ← encodeSession uuid last false (g :: fs)
    .ret (bytes ++ rest)

/-- The frames of a session after the UUID, and the reader over them. -/
theorem encodeSession_eq (uuid : Uuid) (c : Command) (hc : c ≠ .paddingContinue) (first : Bool)
    (frames : List Sent) (hne : frames ≠ []) (hlen : ∀ f ∈ frames, f.payload.length ≤ 65535) :
    ∃ body, encodeSession uuid c first frames =
        .ret ((if first then uuid.toList else []) ++ body) ∧
      run byteStep (ready uuid) body = ⟨.ok (), ended uuid c, frames.flatMap Sent.payload⟩ := by
  -- induction on the frames; only the first of them can carry the UUID
  induction frames generalizing first with
  | nil => exact absurd rfl hne
  | cons f fs ih =>
    have hf : f.payload.length ≤ 65535 := hlen f List.mem_cons_self
    cases fs with
    | nil =>
      obtain ⟨padding, hp, -, henc⟩ :=
        encodeFrame_eq f.rng f.payload (by omega) c first uuid f.longPadding
      refine ⟨_, henc, ?_⟩
      rw [run_frame uuid c.toByte f.payload padding (by omega) (by omega), settle_end uuid hc]
      simp
    | cons g fs =>
      obtain ⟨padding, hp, -, henc⟩ :=
        encodeFrame_eq f.rng f.payload (by omega) .paddingContinue first uuid f.longPadding
      obtain ⟨body, hbody, hrun⟩ := ih false (by simp)
        (fun x hx => hlen x (List.mem_cons_of_mem _ hx))
      refine ⟨header Command.paddingContinue.toByte f.payload.length padding.length ++ f.payload ++
        padding ++ body, ?_, ?_⟩
      · rw [encodeSession, henc, Outcome.ret_bind, hbody, Outcome.ret_bind]
        simp
      · -- a continued frame leaves the reader where it started
        rw [run_append, run_frame uuid _ f.payload padding (by omega) (by omega), settle_continue,
          Report.andThen_ok, hrun]
        simp

/-- **Decoding undoes encoding over whole sessions**: any non-empty list of
    payloads that fit the length field, any padding choices and random outcomes, a
    terminating command, then raw bytes, cut into chunks in any way. -/
theorem unpad_encodeSession (uuid : Uuid) (c : Command) (hc : c = .paddingEnd ∨ c = .paddingDirect)
    (frames : List Sent) (hne : frames ≠ []) (hlen : ∀ f ∈ frames, f.payload.length ≤ 65535) :
    ∃ wire, encodeSession uuid c true frames = .ret wire ∧
      ∀ (tail : List UInt8) (chunks : List (List UInt8)), chunks.flatten = wire ++ tail →
        ∃ s, feedChunks feed (UnpadState.new uuid) chunks =
            .ret ⟨.ok (), s, frames.flatMap Sent.payload ++ tail⟩ ∧
          s.isDone = true ∧ (s.isDirect = true ↔ c = .paddingDirect) := by
  have hcont : c ≠ .paddingContinue := by
    rintro rfl
    simp at hc
  obtain ⟨body, henc, hrun⟩ := encodeSession_eq uuid c hcont true frames hne hlen
  refine ⟨uuid.toList ++ body, henc, ?_⟩
  intro tail chunks hflat
  refine ⟨ended uuid c, ?_, rfl, ?_⟩
  · rw [feedChunks_of_live (new_live uuid), hflat, List.append_assoc, run_uuidPrefix, run_append,
      hrun, Report.andThen_ok, run_done rfl rfl]
  · simp [ended, UnpadState.isDirect]

/-- Two frames, the second without content, a Direct cutover and two raw bytes. -/
theorem unpad_encodeSession_direct :
    ∃ wire s,
      encodeSession testUuid .paddingDirect true
        [⟨[0x61], false, ⟨7, fun _ => 0⟩⟩, ⟨[], true, ⟨0, fun _ => 1⟩⟩] = .ret wire ∧
      feedChunks feed (UnpadState.new testUuid) [wire, [0x52, 0x41]] =
        .ret ⟨.ok (), s, [0x61, 0x52, 0x41]⟩ ∧
      s.isDone = true ∧ s.isDirect = true := by
  obtain ⟨wire, henc, hfeed⟩ := unpad_encodeSession testUuid .paddingDirect (.inr rfl)
    [⟨[0x61], false, ⟨7, fun _ => 0⟩⟩, ⟨[], true, ⟨0, fun _ => 1⟩⟩] (by simp) (by simp)
  obtain ⟨s, hs, hdone, hdirect⟩ := hfeed [0x52, 0x41] [wire, [0x52, 0x41]] (by simp)
  exact ⟨wire, s, henc, hs, hdone, hdirect.2 rfl⟩

/-! ## Everything a `PadState` writes -/

/-- A call on a `PadState`. -/
inductive PadCall where
  | wrap (payload : List UInt8)
  | intoDirect (payload : List UInt8)

namespace PadCall

def payload : PadCall → List UInt8
  | .wrap p => p
  | .intoDirect p => p

/-- The command a call puts into the frame if it is the first. -/
def command : PadCall → Command
  | .wrap _ => .paddingEnd
  | .intoDirect _ => .paddingDirect

/-- Make the call. -/
def apply (p : PadState) (rng : Rng) : PadCall → Outcome (List UInt8 × PadState)
  | .wrap payload => p.wrap rng payload
  | .intoDirect payload => p.intoDirect rng payload

/-- Both calls have the same body. -/
theorem apply_eq_oneShot (p : PadState) (rng : Rng) (c : PadCall) :
    c.apply p rng = PadState.oneShot c.command p rng c.payload := by
  cases c <;> rfl

end PadCall

/-- The byte vectors a sequence of calls returns. -/
def padCalls : PadState → List (PadCall × Rng) → Outcome (List (List UInt8))
  | _, [] => .ret []
  | p, (c, rng) :: cs => do
    let (bytes, p) ← c.apply p rng
    let rest ← padCalls p cs
    .ret (bytes :: rest)

/-- After the first call payloads pass through unchanged. -/
theorem padCalls_of_done {p : PadState} (h : p.done = true) (calls : List (PadCall × Rng)) :
    padCalls p calls = .ret (calls.map fun c => c.1.payload) := by
  induction calls with
  | nil => rfl
  | cons c cs ih =>
    obtain ⟨c, rng⟩ := c
    rw [padCalls, PadCall.apply_eq_oneShot, PadState.oneShot, if_pos h, Outcome.ret_bind]
    simp only
    rw [ih]
    rfl

/-- A header carries its lengths modulo 2^16. -/
theorem header_mod (cmd : UInt8) (n m : Nat) : header cmd (n % 65536) m = header cmd n m := by
  have hhi : UInt8.ofNat (n % 65536 / 256) = UInt8.ofNat (n / 256) := by
    apply UInt8.toNat_inj.mp
    rw [UInt8.toNat_ofNat', UInt8.toNat_ofNat']
    omega
  have hlo : UInt8.ofNat (n % 65536) = UInt8.ofNat n := by
    apply UInt8.toNat_inj.mp
    rw [UInt8.toNat_ofNat', UInt8.toNat_ofNat']
    omega
  rw [header, hhi, hlo, header]

/-- The last frame of a session is recovered for any payload length. When the
    payload does not fit the length field there is no padding, so the frame ends
    inside the payload and the rest of it passes as raw bytes. -/
theorem run_lastFrame (uuid : Uuid) {c : Command} (hc : c ≠ .paddingContinue)
    (payload padding : List UInt8) (hp : padding.length ≤ 2027)
    (hlong : 2027 ≤ payload.length → padding = []) (tail : List UInt8) :
    run byteStep (ready uuid)
        (header c.toByte payload.length padding.length ++ payload ++ padding ++ tail) =
      ⟨.ok (), ended uuid c, payload ++ tail⟩ := by
  by_cases hfit : payload.length < 65536
  · rw [run_append, run_frame uuid _ payload padding hfit (by omega), settle_end uuid hc,
      Report.andThen_ok, run_done rfl rfl]
  · have hpad : padding = [] := hlong (by omega)
    subst hpad
    -- the announced content is a proper part of the payload
    obtain ⟨n, hn⟩ : ∃ n, n = payload.length % 65536 := ⟨_, rfl⟩
    have hlen : (payload.take n).length = n := by
      rw [List.length_take]
      omega
    have hsplit : header c.toByte payload.length ([] : List UInt8).length ++ payload ++ [] ++ tail =
        (header c.toByte (payload.take n).length ([] : List UInt8).length ++ payload.take n ++ []) ++
          (payload.drop n ++ tail) := by
      rw [hlen, hn, header_mod, ← hn, List.append_nil, List.append_nil, List.append_assoc,
        List.append_assoc, ← List.append_assoc (payload.take n), List.take_append_drop]
    rw [hsplit, run_append, run_frame uuid _ (payload.take n) [] (by omega) (by decide),
      settle_end uuid hc, Report.andThen_ok, run_done rfl rfl, ← List.append_assoc,
      List.take_append_drop]

/-- **A `PadState` downlink is transparent** for every sequence of calls and every
    random outcome, payloads longer than the length field included; and as soon as
    the first call's bytes have been read the reader is done. -/
theorem unpad_padState (uuid : Uuid) (first : PadCall) (rng : Rng)
    (calls : List (PadCall × Rng))
    (hlen : ∀ c ∈ (first, rng) :: calls, c.1.payload.length < 2 ^ 31) :
    ∃ head rest, padCalls (PadState.new uuid) ((first, rng) :: calls) = .ret (head :: rest) ∧
      (∀ chunks : List (List UInt8), chunks.flatten = (head :: rest).flatten →
        ∃ s, feedChunks feed (UnpadState.new uuid) chunks =
          .ret ⟨.ok (), s, ((first, rng) :: calls).flatMap fun c => c.1.payload⟩) ∧
      (∀ chunks : List (List UInt8), head <+: chunks.flatten →
        ∃ r, feedChunks feed (UnpadState.new uuid) chunks = .ret r ∧ r.verdict = .ok () ∧
          r.state.isDone = true ∧
          (r.state.isDirect = true ↔ ∃ payload, first = .intoDirect payload)) := by
  have hc : first.command ≠ .paddingContinue := by
    cases first <;> simp [PadCall.command]
  obtain ⟨padding, hp, hlong, henc⟩ := encodeFrame_eq rng first.payload
    (hlen (first, rng) List.mem_cons_self) first.command true uuid true
  -- the reader over the first call's bytes and anything after them
  have hrun : ∀ (chunks : List (List UInt8)) (tail : List UInt8),
      chunks.flatten = uuid.toList ++ (header first.command.toByte first.payload.length
        padding.length ++ first.payload ++ padding) ++ tail →
      feedChunks feed (UnpadState.new uuid) chunks =
        .ret ⟨.ok (), ended uuid first.command, first.payload ++ tail⟩ := by
    intro chunks tail hflat
    rw [feedChunks_of_live (new_live uuid), hflat, List.append_assoc, run_uuidPrefix,
      run_lastFrame uuid hc _ _ hp hlong]
  refine ⟨uuid.toList ++ (header first.command.toByte first.payload.length padding.length ++
    first.payload ++ padding), calls.map fun c => c.1.payload, ?_, ?_, ?_⟩
  · -- the first call writes a frame, the others their payloads
    rw [padCalls, PadCall.apply_eq_oneShot, PadState.oneShot]
    simp only [PadState.new, Bool.false_eq_true, if_false]
    rw [henc, Outcome.ret_bind, Outcome.ret_bind]
    simp only
    rw [padCalls_of_done rfl]
    rfl
  · intro chunks hflat
    refine ⟨ended uuid first.command, ?_⟩
    have hout := hrun chunks _ hflat
    rw [← List.flatMap_def] at hout
    exact hout
  · intro chunks hprefix
    obtain ⟨tail, htail⟩ := hprefix
    refine ⟨_, hrun chunks tail htail.symm, rfl, rfl, ?_⟩
    cases first <;> simp [ended, UnpadState.isDirect, PadCall.command]

/-- A cutover to direct copy, then a raw write, delivered in one chunk. -/
theorem unpad_padState_direct :
    ∃ head rest s,
      padCalls (PadState.new testUuid)
        [(.intoDirect [0x61], ⟨7, fun _ => 0⟩), (.wrap [0x62], ⟨0, fun _ => 1⟩)] =
          .ret (head :: rest) ∧
      feedChunks feed (UnpadState.new testUuid) [head ++ rest.flatten] =
        .ret ⟨.ok (), s, [0x61, 0x62]⟩ := by
  obtain ⟨head, rest, hcalls, hfeed, -⟩ := unpad_padState testUuid (.intoDirect [0x61])
    ⟨7, fun _ => 0⟩ [(.wrap [0x62], ⟨0, fun _ => 1⟩)] (by simp [PadCall.payload])
  obtain ⟨s, hs⟩ := hfeed [head ++ rest.flatten] (by simp)
  exact ⟨head, rest, s, hcalls, hs⟩

end Fogged.Spec.Vision
