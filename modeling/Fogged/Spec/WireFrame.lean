import Fogged.ForStd.Machine
import Fogged.Native.TcpReader
import Fogged.Spec.OrcaFrame

/-!
# The TCP-mode reader: bytes and frames

The reader re-implements frame decoding and padding removal. Its meaning is given
by a machine of the same shape that takes whole frames from a list instead of
bytes from a connection (`nextFrame`). The two run in lockstep as long as the
connection carries an encoding of the list, so everything about routing and
delivery can be proved on frames, without a byte in sight.

## Key results

- `readMessage_encode`: one frame of the connection is one message
- `step_simulates`: machines over agreeing sources run in lockstep
-/

namespace Fogged.Spec.TcpReader

open Fogged.Native.Orca
open Fogged.Native.TcpReader
open Fogged.Spec.Orca
open Bytes Machine

/-! ## What a peer puts on the connection -/

/-- A frame that the reader may meet: unpadded, padded by `with_padding`, or of a
    type that the protocol does not know. -/
inductive WireFrame where
  | plain (f : Frame) (clear : f.flags &&& padded = 0) (fits : f.payload.length ≤ maxFrameSize)
  | padded (f : Frame) (rng : Rng) (min max : Nat) (four_le : 4 ≤ min) (min_le : min ≤ max)
      (max_le : max ≤ 128) (fits : f.payload.length + rng.genRange min max ≤ maxFrameSize)
      (own : f.frameType = .data → f.payload ≠ [])
  | unknown (type flags : UInt8) (streamId : UInt32) (payload : List UInt8) (unknown : 8 < type)
      (fits : payload.length ≤ maxFrameSize)

/-- What a frame tells the reader. `carried` are the payload bytes on the wire. -/
def frameMessage (f : Frame) (carried : List UInt8) : Message :=
  match f.frameType with
  | .data => .data f.streamId f.payload
  | .streamOpen => .ready f.streamId carried
  | .streamClose => .close f.streamId
  | .ping => .ping
  | _ => .other

namespace WireFrame

/-- The bytes on the connection. -/
def encode : WireFrame → Outcome (List UInt8)
  | .plain f _ _ => .ret f.encode
  | .padded f rng min max _ _ _ _ _ => do
    let g ← f.withPadding rng min max
    .ret g.encode
  | .unknown type flags streamId payload _ _ =>
    .ret (type :: flags :: (toBE 4 streamId.toNat ++ toBE 2 payload.length ++ payload))

/-- The bytes of the frames one after the other. -/
def encodeAll : List WireFrame → Outcome (List UInt8)
  | [] => .ret []
  | f :: fs => do
    let bytes ← f.encode
    let rest ← encodeAll fs
    .ret (bytes ++ rest)

/-- The stream and the payload of a data frame, as they were before padding. -/
def data? : WireFrame → Option (UInt32 × List UInt8)
  | .plain f _ _ => if f.frameType = .data then some (f.streamId, f.payload) else none
  | .padded f _ _ _ _ _ _ _ _ => if f.frameType = .data then some (f.streamId, f.payload) else none
  | .unknown _ _ _ _ _ _ => none

/-- What the frame tells the reader. -/
def message : WireFrame → Message
  | .plain f _ _ => frameMessage f f.payload
  | .padded f rng min max _ _ _ _ _ =>
    frameMessage f (f.payload ++ paddingBytes rng (rng.genRange min max))
  | .unknown _ _ _ _ _ _ => .other

end WireFrame

/-! ## Reading one frame -/

/-- A raw frame's bytes. -/
def rawBytes (f : RawFrame) : List UInt8 :=
  f.type :: f.flags ::
    (toBE 4 f.streamId.toNat ++ toBE 2 (UInt16.ofNat f.payload.length).toNat ++ f.payload)

/-- The loop's two reads undo the header layout. -/
theorem readFrame_rawBytes (f : RawFrame) (hlen : f.payload.length ≤ maxFrameSize)
    (w : List UInt8) : readFrame (rawBytes f ++ w) = some (f, w) := by
  obtain ⟨i0, i1, i2, i3, l0, l1, hbytes, hid, hl⟩ := header_bytes f.streamId hlen
  simp only [rawBytes, hbytes, List.cons_append, readFrame, hl, readExact_append, hid]

/-- The data arm keeps an unpadded payload. -/
theorem stripData_of_clear {flags : UInt8} (h : flags &&& padded = 0) (payload : List UInt8) :
    stripData flags payload = payload := by
  have hclear : ¬ (flags &&& 0x04 ≠ 0 ∧ payload ≠ []) := by
    intro hset
    exact hset.1 h
  rw [stripData, if_neg hclear]

/-- The data arm takes off exactly what `with_padding` put on, for paddings of 1 to
    255 bytes after a payload that is not empty. -/
theorem stripData_padded (flags : UInt8) {payload : List UInt8} (hne : payload ≠ []) (rng : Rng)
    {n : Nat} (hpos : 0 < n) (hn : n < 256) :
    stripData (flags ||| padded) (payload ++ paddingBytes rng n) = payload := by
  have hlen : 0 < payload.length := List.length_pos_of_ne_nil hne
  -- the last byte of the padding is its length
  have hlast : ((payload ++ paddingBytes rng n).getLastD 0).toNat = n := by
    rw [List.getLastD_eq_getLast?, List.getLast?_append, getLast?_paddingBytes rng hpos]
    show (UInt8.ofNat n).toNat = n
    rw [UInt8.toNat_ofNat']
    omega
  have hset : (flags ||| padded) &&& 0x04 ≠ 0 ∧ payload ++ paddingBytes rng n ≠ [] :=
    ⟨or_padded flags, by simp [hne]⟩
  have htotal : (payload ++ paddingBytes rng n).length = payload.length + n := by simp
  rw [stripData, if_pos hset]
  show (if _ > 0 ∧ _ < _ then List.take _ _ else _) = _
  rw [hlast, htotal, if_pos (by omega), Nat.add_sub_cancel, List.take_left]

/-- The message of a known frame, given what the data arm makes of its payload. -/
theorem message_eq_frameMessage (f : Frame) (flags : UInt8) (carried : List UInt8)
    (hdata : f.frameType = .data → stripData flags carried = f.payload) :
    RawFrame.message ⟨f.frameType.toByte, flags, f.streamId, carried⟩ = frameMessage f carried := by
  cases hf : f.frameType with
  | data =>
    simp only [frameMessage, hf]
    rw [← hdata hf]
    rfl
  | _ =>
    simp only [frameMessage, hf]
    rfl

/-- Frames of unknown types are ignored. -/
theorem message_unknown (flags : UInt8) (streamId : UInt32) (payload : List UInt8) {type : UInt8}
    (h : 8 < type) : RawFrame.message ⟨type, flags, streamId, payload⟩ = .other := by
  unfold RawFrame.message
  split <;> simp_all

/-- **One frame of the connection is one message**, whatever follows it. -/
theorem readMessage_encode (f : WireFrame) :
    ∃ bytes, f.encode = .ret bytes ∧ ∀ w, readMessage (bytes ++ w) = some (f.message, w) := by
  cases f with
  | plain f clear fits =>
    refine ⟨f.encode, rfl, ?_⟩
    intro w
    have hread := readFrame_rawBytes ⟨f.frameType.toByte, f.flags, f.streamId, f.payload⟩ fits w
    have hmsg := message_eq_frameMessage f f.flags f.payload
      (fun _ => stripData_of_clear clear f.payload)
    show (readFrame (rawBytes ⟨f.frameType.toByte, f.flags, f.streamId, f.payload⟩ ++ w)).map _ = _
    rw [hread, Option.map_some, hmsg]
    rfl
  | padded f rng min max four_le min_le max_le fits own =>
    -- the bounds on the padding are those of the source's calls
    obtain ⟨hlo, hhi⟩ := rng.genRange_mem min max min_le
    have hpad := withPadding_eq f rng min_le (by unfold maxPadding; omega)
    have hmsg := message_eq_frameMessage f (f.flags ||| Native.Orca.padded)
      (f.payload ++ paddingBytes rng (rng.genRange min max))
      (fun hd => stripData_padded f.flags (own hd) rng (by omega) (by omega))
    refine ⟨(paddedBy f rng (rng.genRange min max)).encode, ?_, ?_⟩
    · rw [WireFrame.encode, hpad]
      rfl
    · intro w
      have hread := readFrame_rawBytes ⟨f.frameType.toByte, f.flags ||| Native.Orca.padded,
        f.streamId, f.payload ++ paddingBytes rng (rng.genRange min max)⟩ (by simpa using fits) w
      show (readFrame (rawBytes ⟨f.frameType.toByte, f.flags ||| Native.Orca.padded, f.streamId,
        f.payload ++ paddingBytes rng (rng.genRange min max)⟩ ++ w)).map _ = _
      rw [hread, Option.map_some, hmsg]
      rfl
  | unknown type flags streamId payload hunknown fits =>
    refine ⟨_, rfl, ?_⟩
    intro w
    have hread := readFrame_rawBytes ⟨type, flags, streamId, payload⟩ fits w
    -- whatever is sent with an unknown type is skipped by its length
    have hlen : (UInt16.ofNat payload.length).toNat = payload.length :=
      UInt16.toNat_ofNat_of_lt' (Nat.lt_succ_of_le fits)
    rw [rawBytes] at hread
    simp only [hlen] at hread
    rw [readMessage, hread, Option.map_some, message_unknown flags streamId payload hunknown]
    rfl

/-! ## Bytes and frames in lockstep -/

/-- Who made a step: the reader, or a task that changes only what is shared. -/
theorem step_cases {σ : Type} {next : σ → Option (Message × σ)} {s s' : State σ} {e : Event}
    {o : List Effect} (h : step next s e = some (s', o)) :
    (∃ rng, e = .reader rng ∧ stepReader next rng s = some (s', o)) ∨
      ∃ shared', stepOther s.reader.locked s.shared e = some (shared', o) ∧
        s' = { s with shared := shared' } := by
  cases e with
  | reader rng => exact .inl ⟨rng, rfl, h⟩
  | _ =>
    simp only [step] at h
    obtain ⟨⟨shared', o'⟩, hother, heq⟩ := Option.map_eq_some_iff.1 h
    cases heq
    exact .inr ⟨shared', hother, rfl⟩

/-- The next message when the source is a list of frames. -/
def nextFrame : List WireFrame → Option (Message × List WireFrame)
  | [] => none
  | f :: fs => some (f.message, fs)

/-- Every sequence of frames has an encoding. -/
theorem encodeAll_ret (fs : List WireFrame) : ∃ wire, WireFrame.encodeAll fs = .ret wire := by
  induction fs with
  | nil => exact ⟨[], rfl⟩
  | cons f fs ih =>
    obtain ⟨bytes, hbytes, -⟩ := readMessage_encode f
    obtain ⟨rest, hrest⟩ := ih
    refine ⟨bytes ++ rest, ?_⟩
    rw [WireFrame.encodeAll, hbytes, Outcome.ret_bind, hrest, Outcome.ret_bind]

/-- Two sources that yield the same messages. -/
def Agree {σ τ : Type} (next : σ → Option (Message × σ)) (next' : τ → Option (Message × τ))
    (Q : σ → τ → Prop) : Prop :=
  ∀ a b, Q a b → (next a = none ∧ next' b = none) ∨
    ∃ m a' b', next a = some (m, a') ∧ next' b = some (m, b') ∧ Q a' b'

/-- A connection and the frames it carries. -/
def Carries (wire : List UInt8) (fs : List WireFrame) : Prop :=
  WireFrame.encodeAll fs = .ret wire

/-- The connection yields the messages of the frames it carries, and ends when they do. -/
theorem readMessage_agree : Agree readMessage nextFrame Carries := by
  intro wire fs h
  cases fs with
  | nil =>
    cases h
    exact .inl ⟨rfl, rfl⟩
  | cons f fs =>
    obtain ⟨bytes, hbytes, hread⟩ := readMessage_encode f
    obtain ⟨rest, hrest⟩ := encodeAll_ret fs
    rw [Carries, WireFrame.encodeAll, hbytes, Outcome.ret_bind, hrest, Outcome.ret_bind] at h
    cases h
    exact .inr ⟨f.message, rest, fs, hread rest, rfl, hrest⟩

/-- Agreement is symmetric. -/
theorem agree_symm {σ τ : Type} {next : σ → Option (Message × σ)}
    {next' : τ → Option (Message × τ)} {Q : σ → τ → Prop} (h : Agree next next' Q) :
    Agree next' next (fun b a => Q a b) := by
  intro b a hQ
  obtain ⟨h₁, h₂⟩ | ⟨m, a', b', h₁, h₂, hQ'⟩ := h a b hQ
  · exact .inl ⟨h₂, h₁⟩
  · exact .inr ⟨m, b', a', h₂, h₁, hQ'⟩

/-- States that differ in their sources only. -/
structure Same {σ τ : Type} (Q : σ → τ → Prop) (s : State σ) (t : State τ) : Prop where
  source : Q s.source t.source
  reader : s.reader = t.reader
  shared : s.shared = t.shared

/-- **Lockstep.** Over sources that agree, every step of one machine is a step of
    the other, with the same effects. -/
theorem step_simulates {σ τ : Type} {next : σ → Option (Message × σ)}
    {next' : τ → Option (Message × τ)} {Q : σ → τ → Prop} (hQ : Agree next next' Q)
    (s : State σ) (t : State τ) (e : Event) (s' : State σ) (o : List Effect) (h : Same Q s t)
    (hstep : step next s e = some (s', o)) :
    ∃ t', step next' t e = some (t', o) ∧ Same Q s' t' := by
  obtain ⟨a, reader, shared⟩ := s
  obtain ⟨b, _, _⟩ := t
  obtain ⟨hsource, rfl, rfl⟩ := h
  cases e with
  | reader rng =>
    simp only [step, stepReader] at hstep ⊢
    cases reader with
    | reading =>
      -- the only step that touches the source
      obtain ⟨h₁, h₂⟩ | ⟨m, a', b', h₁, h₂, hQ'⟩ := hQ a b hsource
      · simp only [h₁, h₂] at hstep ⊢
        cases hstep
        exact ⟨_, rfl, hsource, rfl, rfl⟩
      · simp only [h₁, h₂] at hstep ⊢
        cases hstep
        exact ⟨_, rfl, hQ', rfl, rfl⟩
    | routing origin streamId bytes =>
      simp only at hstep ⊢
      split at hstep <;> cases hstep <;> exact ⟨_, rfl, hsource, rfl, rfl⟩
    | sending chan bytes =>
      simp only at hstep ⊢
      split at hstep <;> cases hstep <;> exact ⟨_, rfl, hsource, rfl, rfl⟩
    | closing streamId =>
      cases hstep
      exact ⟨_, rfl, hsource, rfl, rfl⟩
    | answering bytes =>
      simp only at hstep ⊢
      split at hstep
      · cases hstep
      · cases hstep
        exact ⟨_, rfl, hsource, rfl, rfl⟩
    | stopped => cases hstep
  | _ =>
    -- the other tasks do not look at the source
    simp only [step] at hstep ⊢
    obtain ⟨r, hr, heq⟩ := Option.map_eq_some_iff.1 hstep
    cases heq
    exact ⟨_, Option.map_eq_some_iff.2 ⟨r, hr, rfl⟩, hsource, rfl, rfl⟩

end Fogged.Spec.TcpReader
