import Fogged.Native.Deframer

/-!
# What the deframer does to its buffer

Every call is followed through twice at the same time, over two buffers that agree on the
part in use: both return, with the same result, and the buffers agree again (`Agree`). What
has not been taken of the bytes that were read stays in the buffer, behind the records that
are being joined (`unread`); the records taken are exactly what is missing.

It is assumed that a decrypted handshake payload is no longer than its record (`Fits`).
Without that, joining would run into bytes that are still to be read, or out of the buffer.

## Key results

- `pop_spec`: `pop` returns, and takes whole records from the front of what is unread
- `payload_fits`: joining never writes beyond the record that is being joined
-/

namespace Fogged.Spec.Deframer

open Fogged.Native.Deframer
open Buffer (window)

variable {σ ρ : Type}

/-! ## Buffers that agree -/

/-- Two buffers of the same length with the same first `n` bytes. -/
structure Agree (n : Nat) (buf buf' : List UInt8) : Prop where
  length : buf'.length = buf.length
  front : window buf' 0 n = window buf 0 n

theorem Agree.refl (n : Nat) (buf : List UInt8) : Agree n buf buf := ⟨rfl, rfl⟩

section Agree

variable {n start stop : Nat} {buf buf' : List UInt8}

/-- Buffers that agree up to `n` show the same windows there. -/
theorem Agree.window_eq (h : Agree n buf buf') (start : Nat) (hstop : stop ≤ n) :
    window buf' start stop = window buf start stop := by
  have hfront : buf'.take n = buf.take n := h.front
  have htake : buf'.take stop = buf.take stop := by
    rw [← Nat.min_eq_left hstop, ← List.take_take, ← List.take_take, hfront]
  rw [Buffer.window, Buffer.window, htake]

/-- And the same slices. -/
theorem Agree.slice_eq (h : Agree n buf buf') (hstop : stop ≤ n) :
    Buffer.slice buf' start stop = Buffer.slice buf start stop := by
  rw [Buffer.slice, Buffer.slice, h.length, h.window_eq start hstop]

/-- The same bytes written to the same place. -/
theorem Agree.overwrite (h : Agree n buf buf') {data : List UInt8} (hdata : start + data.length ≤ n)
    (hn : n ≤ buf.length) :
    Agree n (Buffer.overwrite buf start data) (Buffer.overwrite buf' start data) := by
  have hlength := h.length
  constructor
  · rw [Buffer.length_overwrite (by omega), Buffer.length_overwrite (by omega), hlength]
  · rw [Buffer.window_zero_overwrite hdata hn, Buffer.window_zero_overwrite hdata (by omega), h.front]

/-- What is moved to the front is all that they have to agree on. -/
theorem Agree.copied (h : Agree n buf buf') (hstart : start ≤ n) (hn : n ≤ buf.length) :
    Agree (n - start) (Buffer.overwrite buf 0 (window buf start n))
      (Buffer.overwrite buf' 0 (window buf' start n)) := by
  have hlength := h.length
  have hwindow := Buffer.length_window start hn
  rw [h.window_eq start (Nat.le_refl n)]
  constructor
  · rw [Buffer.length_overwrite (by omega), Buffer.length_overwrite (by omega), hlength]
  · rw [← hwindow, Buffer.window_overwrite_zero, Buffer.window_overwrite_zero]

end Agree

/-! ## Well-formed deframers -/

/-- Where a handshake message is being joined. -/
structure Joining (used : Nat) (hs : HandshakePayloadMeta) : Prop where
  quic : hs.quic = false
  start_le : hs.payload.start ≤ hs.payload.stop
  stop_le : hs.payload.stop ≤ hs.message.stop
  header_le : 5 ≤ hs.message.stop
  le_used : hs.message.stop ≤ used

structure Wf (d : MessageDeframer) : Prop where
  used_le : d.used ≤ d.buf.length
  joining : ∀ hs, d.joiningHs = some hs → Joining d.used hs

/-- How much of the buffer is taken by a message that is being joined. -/
def processed (d : MessageDeframer) : Nat :=
  match d.joiningHs with
  | none => 0
  | some hs => hs.message.stop

/-- What has been read and not taken. -/
def unread (d : MessageDeframer) : List UInt8 := window d.buf (processed d) d.used

/-- What is being joined lies in the used part. -/
theorem Wf.processed_le {d : MessageDeframer} (h : Wf d) : processed d ≤ d.used := by
  unfold processed
  split
  · exact Nat.zero_le _
  · rename_i hs hjoining
    exact (h.joining hs hjoining).le_used

/-- How much is unread. -/
theorem Wf.length_unread {d : MessageDeframer} (h : Wf d) :
    (unread d).length = d.used - processed d :=
  Buffer.length_window _ h.used_le

/-- The same deframer on another buffer. -/
def onBuffer (d : MessageDeframer) (buf : List UInt8) : MessageDeframer := { d with buf }

@[simp] theorem onBuffer_buf (d : MessageDeframer) (buf : List UInt8) :
    (onBuffer d buf).buf = buf := rfl

@[simp] theorem onBuffer_used (d : MessageDeframer) (buf : List UInt8) :
    (onBuffer d buf).used = d.used := rfl

@[simp] theorem onBuffer_joiningHs (d : MessageDeframer) (buf : List UInt8) :
    (onBuffer d buf).joiningHs = d.joiningHs := rfl

@[simp] theorem onBuffer_lastError (d : MessageDeframer) (buf : List UInt8) :
    (onBuffer d buf).lastError = d.lastError := rfl

/-- A call over two buffers that agree: it returns, it leaves a well-formed deframer, and it
    has taken records from the front of what was unread. -/
def Returns (d : MessageDeframer) (x x' : Outcome (Turn σ ρ)) (P : Turn σ ρ → Prop) : Prop :=
  ∃ t buf', x = .ret t ∧ x' = .ret { t with deframer := onBuffer t.deframer buf' } ∧
    Agree t.deframer.used t.deframer.buf buf' ∧ Wf t.deframer ∧
    unread d = t.taken.flatten ++ unread t.deframer ∧ P t

/-- A decrypted handshake payload takes no more room than its record, header included. -/
def Fits (rl : RecordLayer σ) : Prop :=
  ∀ layer m msg, (rl.decryptIncoming layer m).1 = .ok (some msg) → msg.typ = .handshake →
    msg.payload.length ≤ m.payload.length + 5

/-! ## Reading a record -/

/-- A record that can be read is whole, and has a header of five bytes. -/
theorem read_eq_ok {input : List UInt8} {m : OpaqueMessage} {n : Nat}
    (h : OpaqueMessage.read input = .ok (m, n)) :
    n ≤ input.length ∧ m.payload.length + 5 = n := by
  -- type, version, length, and the checks of the length, in the order of the source
  unfold OpaqueMessage.read at h
  split at h
  · cases h
  · rename_i t rest
    split at h
    · cases h
    · split at h
      · rename_i high low rest' _
        dsimp only at h
        split at h
        · split at h
          · rename_i l₁ l₂ rest''
            split at h
            · cases h
            · split at h
              · cases h
              · split at h
                · cases h
                · -- the record is as long as its header says
                  rename_i hlen
                  cases h
                  simp only [List.length_cons, List.length_take]
                  omega
          · cases h
        · cases h
      · cases h

/-! ## `discard` -/

/-- Wherever it is called, nothing is being joined. -/
theorem discard_spec {d : MessageDeframer} {buf' : List UInt8} {n : Nat} (hd : Wf d)
    (hagree : Agree d.used d.buf buf') (hjoining : d.joiningHs = none) (hn : n ≤ d.used) :
    ∃ e buf'', d.discard n = .ret e ∧ (onBuffer d buf').discard n = .ret (onBuffer e buf'') ∧
      Agree e.used e.buf buf'' ∧ Wf e ∧ unread e = (unread d).drop n := by
  have hused := hd.used_le
  have hlength := hagree.length
  have hprocessed : processed d = 0 := by rw [processed, hjoining]
  have hunread : (unread d).drop n = window d.buf n d.used := by
    rw [unread, ← Buffer.window_add, hprocessed, Nat.zero_add]
  have hnone : ∀ {used : Nat} hs, d.joiningHs = some hs → Joining used hs := fun hs h => by
    rw [hjoining] at h
    cases h
  rw [hunread]
  by_cases hlt : n < d.used
  · -- the rest moves to the front of the buffer
    have hwindow := Buffer.length_window n hused
    refine ⟨{ d with buf := Buffer.overwrite d.buf 0 (window d.buf n d.used), used := d.used - n },
      Buffer.overwrite buf' 0 (window buf' n d.used), ?_, ?_, hagree.copied hn hused, ⟨?_, hnone⟩, ?_⟩
    · rw [MessageDeframer.discard, if_pos hlt, Buffer.copyToFront_of_le hn hused]
      rfl
    · rw [MessageDeframer.discard, onBuffer_used, onBuffer_buf, if_pos hlt,
        Buffer.copyToFront_of_le hn (by omega)]
      rfl
    · show d.used - n ≤ (Buffer.overwrite d.buf 0 (window d.buf n d.used)).length
      rw [Buffer.length_overwrite (by omega)]
      omega
    · show window (Buffer.overwrite d.buf 0 (window d.buf n d.used)) (processed d) (d.used - n) = _
      rw [hprocessed, ← hwindow, Buffer.window_overwrite_zero]
  · -- nothing is left, and the buffer stays as it is
    obtain rfl : n = d.used := by omega
    refine ⟨{ d with used := 0 }, buf', ?_, ?_, ⟨hlength, by simp [window]⟩, ⟨Nat.zero_le _, hnone⟩,
      ?_⟩
    · simp [MessageDeframer.discard]
    · simp [MessageDeframer.discard, onBuffer]
    · simp [unread, window]

/-! ## `append_hs` -/

/-- A complete message lies in the payload that has been joined. -/
theorem le_of_payloadState {used len : Nat} {hs : HandshakePayloadMeta}
    (h : payloadState used hs = .complete len) : len ≤ hs.payload.len := by
  unfold payloadState at h
  split at h
  · split at h
    · rename_i hle
      cases h
      exact hle
    · split at h <;> cases h
  · split at h <;> cases h

section Append

variable {d : MessageDeframer} {buf' payload : List UInt8} {n : Nat}

/-- `d` with a payload written at `start`, and `hs` as what is being joined. -/
def appended (d : MessageDeframer) (start : Nat) (payload : List UInt8) (hs : HandshakePayloadMeta) :
    MessageDeframer :=
  { d with buf := Buffer.overwrite d.buf start payload, joiningHs := some hs }

/-- Joining never writes beyond the record that is being joined. -/
theorem payload_fits (hd : Wf d) {start : Nat} {hs : HandshakePayloadMeta}
    (hwrite : start + payload.length ≤ hs.message.stop) (hjoining : Joining d.used hs)
    (hstop : hs.message.stop = processed d + n) :
    Wf (appended d start payload hs) ∧
      unread (appended d start payload hs) = (unread d).drop n := by
  have hused := hd.used_le
  have hle := hjoining.le_used
  refine ⟨⟨?_, ?_⟩, ?_⟩
  · show d.used ≤ (Buffer.overwrite d.buf start payload).length
    rw [Buffer.length_overwrite (by omega)]
    exact hused
  · rintro _ ⟨⟩
    exact hjoining
  · show window (Buffer.overwrite d.buf start payload) hs.message.stop d.used = _
    rw [Buffer.window_overwrite hwrite (by omega), hstop, unread, Buffer.window_add]

/-- What `append_hs` leaves, over two buffers that agree, of a record of `n` bytes. -/
def Appends (d : MessageDeframer) (n : Nat)
    (x x' : Outcome (Except Error HandshakePayloadState × MessageDeframer)) : Prop :=
  ∃ r e buf', x = .ret (r, e) ∧ x' = .ret (r, onBuffer e buf') ∧ Agree e.used e.buf buf' ∧ Wf e ∧
    match r with
    | .error _ => unread e = if d.joiningHs.isSome then (unread d).drop n else unread d
    | .ok state => unread e = (unread d).drop n ∧
        ∀ len, state = .complete len → ∃ hs, e.joiningHs = some hs ∧ len ≤ hs.payload.len

/-- What is being joined once a payload has been appended that ends a record at `stop`. -/
def joined (hs : HandshakePayloadMeta) (payload : List UInt8) (stop : Nat)
    (expectedLen : Option Nat) : HandshakePayloadMeta :=
  { hs with
    message := { hs.message with stop }
    payload := { hs.payload with stop := hs.payload.stop + payload.length }
    expectedLen }

/-- `append_hs` with a message under way: the payload goes behind the joined part, and the
    length is looked at once it is known. -/
theorem appendTo_eq {hs : HandshakePayloadMeta} {stop : Nat}
    (hstart : hs.payload.start ≤ hs.payload.stop)
    (hwrite : hs.payload.stop + payload.length ≤ d.buf.length) :
    d.appendTo hs payload stop =
      match hs.expectedLen with
      | some len => .ret (.ok (payloadState d.used (joined hs payload stop (some len))),
          appended d hs.payload.stop payload (joined hs payload stop (some len)))
      | none =>
        match payloadSize (window (Buffer.overwrite d.buf hs.payload.stop payload) hs.payload.start
            (hs.payload.stop + payload.length)) with
        | .error e => .ret (.error e, appended d hs.payload.stop payload (joined hs payload stop none))
        | .ok expectedLen => .ret (.ok (payloadState d.used (joined hs payload stop expectedLen)),
            appended d hs.payload.stop payload (joined hs payload stop expectedLen)) := by
  have hlength := Buffer.length_overwrite hwrite
  have hslice : Buffer.slice (Buffer.overwrite d.buf hs.payload.stop payload) hs.payload.start
      (hs.payload.stop + payload.length) = .ret _ := Buffer.slice_of_le (by omega) (by omega)
  obtain ⟨message, range, version, expectedLen, quic⟩ := hs
  rw [MessageDeframer.appendTo, Buffer.write_of_le hwrite]
  -- the length is known from the first fragment, or read now that more has arrived
  cases expectedLen with
  | some len => rfl
  | none =>
    show (Buffer.slice _ _ _ >>= _) = _
    rw [hslice, Outcome.ret_bind]
    dsimp only
    cases payloadSize _ <;> rfl

/-- A payload that has been appended, over both buffers. -/
theorem appends_of_appended (hd : Wf d) (hagree : Agree d.used d.buf buf') {start : Nat}
    {hs : HandshakePayloadMeta} (hjoining : Joining d.used hs)
    (hwrite : start + payload.length ≤ hs.message.stop) (hstop : hs.message.stop = processed d + n)
    {r : Except Error HandshakePayloadState}
    (hr : r = .ok (payloadState d.used hs) ∨ d.joiningHs.isSome ∧ ∃ e, r = .error e) :
    Appends d n (.ret (r, appended d start payload hs))
      (.ret (r, appended (onBuffer d buf') start payload hs)) := by
  have hle := hjoining.le_used
  obtain ⟨hwf, hunread⟩ := payload_fits hd hwrite hjoining hstop
  refine ⟨r, appended d start payload hs, Buffer.overwrite buf' start payload, rfl, rfl,
    hagree.overwrite (by omega) hd.used_le, hwf, ?_⟩
  rcases hr with rfl | ⟨hsome, e, rfl⟩
  · exact ⟨hunread, fun len hlen => ⟨hs, rfl, le_of_payloadState hlen⟩⟩
  · show unread _ = if d.joiningHs.isSome then _ else _
    rw [if_pos hsome, hunread]

/-- Over two buffers. The payload is not longer than its record, so it stays in front of what
    is unread. -/
theorem appendTo_spec (hd : Wf d) (hagree : Agree d.used d.buf buf') {hs : HandshakePayloadMeta}
    (hjoining : d.joiningHs = some hs) (hpayload : payload.length ≤ n)
    (hn : hs.message.stop + n ≤ d.used) :
    Appends d n (d.appendTo hs payload (hs.message.stop + n))
      ((onBuffer d buf').appendTo hs payload (hs.message.stop + n)) := by
  obtain ⟨hquic, hstart, hstop, hheader, hle⟩ := hd.joining hs hjoining
  have hused := hd.used_le
  have hlength := hagree.length
  have hprocessed : processed d = hs.message.stop := by rw [processed, hjoining]
  have hsome : d.joiningHs.isSome = true := by rw [hjoining]; rfl
  -- the length may become known with this payload, nothing else depends on it
  have hjoined : ∀ expectedLen,
      Joining d.used (joined hs payload (hs.message.stop + n) expectedLen) := fun _ =>
    ⟨hquic, Nat.le_add_right_of_le hstart, Nat.add_le_add hstop hpayload,
      Nat.le_add_right_of_le hheader, hn⟩
  have hwrite : hs.payload.stop + payload.length ≤ hs.message.stop + n := Nat.add_le_add hstop hpayload
  have happends := fun expectedLen r hr => appends_of_appended (r := r) hd hagree
    (hjoined expectedLen) hwrite (by rw [hprocessed]; rfl) hr
  have hfront : hs.payload.stop + payload.length ≤ d.used := by omega
  -- both buffers agree up to the end of what is written
  have hwindow := (hagree.overwrite hfront hused).window_eq hs.payload.start hfront
  rw [appendTo_eq hstart (by omega), appendTo_eq hstart (by rw [onBuffer_buf]; omega), onBuffer_buf,
    onBuffer_used, hwindow]
  cases hs.expectedLen with
  | some len => exact happends (some len) _ (.inl rfl)
  | none =>
    dsimp only
    split
    · exact happends none _ (.inr ⟨hsome, _, rfl⟩)
    · exact happends _ _ (.inl rfl)

/-- The first record of a message. -/
theorem appendNew_spec (hd : Wf d) (hagree : Agree d.used d.buf buf') (hjoining : d.joiningHs = none)
    (version : ProtocolVersion) (hpayload : payload.length ≤ n) (hheader : 5 ≤ n) (hn : n ≤ d.used) :
    Appends d n (d.appendNew version payload n) ((onBuffer d buf').appendNew version payload n) := by
  have hused := hd.used_le
  have hlength := hagree.length
  have hprocessed : processed d = 0 := by rw [processed, hjoining]
  rw [MessageDeframer.appendNew, MessageDeframer.appendNew]
  cases payloadSize payload with
  | error e =>
    refine ⟨.error e, d, buf', rfl, rfl, hagree, hd, ?_⟩
    -- a message that is too large is an error, and nothing is taken
    show unread d = if d.joiningHs.isSome then _ else _
    rw [hjoining]
    rfl
  | ok expectedLen =>
    dsimp only
    rw [onBuffer_buf, Buffer.write_of_le (by omega), Buffer.write_of_le (by omega)]
    -- the payload is put to the front of the buffer, where its record was
    have hwrite : 0 + payload.length ≤ n := by omega
    exact appends_of_appended hd hagree ⟨rfl, Nat.zero_le _, hpayload, hheader, hn⟩ hwrite
      (by rw [hprocessed, Nat.zero_add]) (.inl rfl)

/-- Both cases of `append_hs`. -/
theorem appendHs_spec (hd : Wf d) (hagree : Agree d.used d.buf buf') (version : ProtocolVersion)
    (hpayload : payload.length ≤ n) (hheader : 5 ≤ n) (hn : processed d + n ≤ d.used) :
    Appends d n (d.appendHs version payload (processed d + n))
      ((onBuffer d buf').appendHs version payload (processed d + n)) := by
  rw [MessageDeframer.appendHs, MessageDeframer.appendHs, onBuffer_joiningHs]
  cases hjoining : d.joiningHs with
  | some hs =>
    have hprocessed : processed d = hs.message.stop := by rw [processed, hjoining]
    rw [hprocessed] at hn ⊢
    exact appendTo_spec hd hagree hjoining hpayload hn
  | none =>
    have hprocessed : processed d = 0 := by rw [processed, hjoining]
    rw [hprocessed, Nat.zero_add] at hn ⊢
    exact appendNew_spec hd hagree hjoining version hpayload hheader hn

end Append

/-! ## One iteration -/

section Pop

variable {rl : RecordLayer σ} (negotiated : Option ProtocolVersion) {d : MessageDeframer}
  {buf' : List UInt8}

/-- How an iteration makes progress. -/
def Advances (d : MessageDeframer) (t : Turn σ Flow) : Prop :=
  match t.result with
  | .done _ => True
  | .complete len => ∃ hs, t.deframer.joiningHs = some hs ∧ len ≤ hs.payload.len
  | .next => (unread t.deframer).length < (unread d).length

/-- A call that leaves the buffer as it is. -/
theorem returns_of_eq (hd : Wf d) (hagree : Agree d.used d.buf buf') {e : MessageDeframer}
    {P : Turn σ ρ → Prop} {result : ρ} {layer : σ} (hbuf : e.buf = d.buf)
    (hjoining : e.joiningHs = d.joiningHs) (hused : e.used = d.used) (hP : P ⟨result, e, layer, []⟩) :
    Returns d (.ret ⟨result, e, layer, []⟩) (.ret ⟨result, onBuffer e buf', layer, []⟩) P := by
  refine ⟨⟨result, e, layer, []⟩, buf', rfl, rfl, ?_, ⟨?_, ?_⟩, ?_, hP⟩
  · -- buffer, length and what is being joined are all that counts
    show Agree e.used e.buf buf'
    rw [hbuf, hused]
    exact hagree
  · show e.used ≤ e.buf.length
    rw [hbuf, hused]
    exact hd.used_le
  · show ∀ hs, e.joiningHs = some hs → Joining e.used hs
    rw [hjoining, hused]
    exact hd.joining
  · show unread d = [].flatten ++ unread e
    rw [unread, unread, processed, processed, hbuf, hjoining, hused]
    rfl

/-- A call that takes a record of `n` bytes. -/
theorem returns_of_take {e : MessageDeframer} {P : Turn σ ρ → Prop} {result : ρ} {layer : σ} {n : Nat}
    (hagree : Agree e.used e.buf buf') (hwf : Wf e) (hunread : unread e = (unread d).drop n)
    (hP : P ⟨result, e, layer, [(unread d).take n]⟩) :
    Returns d (.ret ⟨result, e, layer, [(unread d).take n]⟩)
      (.ret ⟨result, onBuffer e buf', layer, [(unread d).take n]⟩) P := by
  refine ⟨_, buf', rfl, rfl, hagree, hwf, ?_, hP⟩
  show unread d = [(unread d).take n].flatten ++ unread e
  rw [hunread, List.flatten_singleton, List.take_append_drop]

/-- Taking a record is progress. -/
theorem length_lt_of_take {e : MessageDeframer} {n : Nat} (hd : Wf d) (hpos : 0 < n)
    (hn : processed d + n ≤ d.used) (hunread : unread e = (unread d).drop n) :
    (unread e).length < (unread d).length := by
  rw [hunread, List.length_drop, hd.length_unread]
  omega

/-- A record of `n` bytes is discarded and the call goes on without a look at the buffer. -/
theorem returns_of_discard (hd : Wf d) (hagree : Agree d.used d.buf buf')
    (hjoining : d.joiningHs = none) {n : Nat} (hn : processed d + n ≤ d.used)
    {P : Turn σ ρ → Prop} {result : ρ} {layer : σ}
    (hP : ∀ e, unread e = (unread d).drop n → P ⟨result, e, layer, [(unread d).take n]⟩) :
    Returns d
      (d.discard (processed d + n) >>= fun e => pure ⟨result, e, layer, [(unread d).take n]⟩)
      ((onBuffer d buf').discard (processed d + n) >>= fun e =>
        pure ⟨result, e, layer, [(unread d).take n]⟩) P := by
  have hprocessed : processed d = 0 := by rw [processed, hjoining]
  rw [hprocessed, Nat.zero_add] at hn ⊢
  obtain ⟨e, buf'', heq, heq', hagree', hwf, hunread⟩ := discard_spec hd hagree hjoining hn
  rw [heq, heq']
  exact returns_of_take hagree' hwf hunread (hP e hunread)

/-- A decrypted record: a handshake message is joined, anything else is returned and its bytes
    discarded. -/
theorem decrypted_spec (hd : Wf d) (hagree : Agree d.used d.buf buf') (layer : σ) {n : Nat}
    {msg : PlainMessage} (hmsg : msg.typ = .handshake → msg.payload.length ≤ n) (hheader : 5 ≤ n)
    (hn : processed d + n ≤ d.used) :
    Returns d (decrypted d layer ((unread d).take n) (processed d + n) msg)
      (decrypted (onBuffer d buf') layer ((unread d).take n) (processed d + n) msg) (Advances d) := by
  rw [decrypted, decrypted, onBuffer_joiningHs]
  split
  · exact returns_of_eq hd hagree rfl rfl rfl trivial
  · rename_i hinterleaved
    split
    · -- no handshake message: it is returned at once
      rename_i htyp
      have hjoining : d.joiningHs = none := by simpa [htyp] using hinterleaved
      exact returns_of_discard hd hagree hjoining hn fun _ _ => trivial
    · rename_i htyp
      obtain ⟨r, e, buf'', heq, heq', hagree', hwf, hr⟩ :=
        appendHs_spec hd hagree msg.version (hmsg (not_not.1 htyp)) hheader hn
      rw [heq, heq', Outcome.ret_bind, Outcome.ret_bind]
      cases r with
      | error err =>
        dsimp only
        -- an error leaves the record unread, unless it was joined to earlier ones
        by_cases hsome : d.joiningHs.isSome
        · rw [if_pos hsome]
          exact returns_of_take hagree' hwf (hr.trans (if_pos hsome)) trivial
        · rw [if_neg hsome]
          exact ⟨_, buf'', rfl, rfl, hagree', hwf, (hr.trans (if_neg hsome)).symm, trivial⟩
      | ok state =>
        obtain ⟨hunread, hcomplete⟩ := hr
        cases state with
        | blocked => exact returns_of_take hagree' hwf hunread trivial
        | complete len => exact returns_of_take hagree' hwf hunread (hcomplete len rfl)
        | more =>
          exact returns_of_take hagree' hwf hunread (length_lt_of_take hd (by omega) hn hunread)

/-- The record after what is being joined. -/
theorem popRecord_spec (hrl : Fits rl) (hd : Wf d) (hagree : Agree d.used d.buf buf') (layer : σ) :
    Returns d (popRecord rl negotiated d layer (processed d))
      (popRecord rl negotiated (onBuffer d buf') layer (processed d)) (Advances d) := by
  have hslice : Buffer.slice d.buf (processed d) d.used = .ret (unread d) :=
    Buffer.slice_of_le hd.processed_le hd.used_le
  rw [popRecord, popRecord, onBuffer_buf, onBuffer_used, onBuffer_joiningHs,
    hagree.slice_eq (Nat.le_refl _), hslice, Outcome.ret_bind, Outcome.ret_bind]
  cases hread : OpaqueMessage.read (unread d) with
  | error err =>
    dsimp only
    -- nothing is consumed, whether the record is incomplete or broken
    cases err.kind with
    | none => exact returns_of_eq hd hagree rfl rfl rfl trivial
    | some e => exact returns_of_eq hd hagree rfl rfl rfl trivial
  | ok p =>
    obtain ⟨m, n⟩ := p
    dsimp only
    obtain ⟨hle, hm⟩ := read_eq_ok hread
    have hn : processed d + n ≤ d.used := by
      have hlength := hd.length_unread
      have hprocessed := hd.processed_le
      omega
    split
    · -- a plaintext that is allowed here is returned as it is
      rename_i hplain
      have hjoining := Option.isNone_iff_eq_none.1 hplain.1
      exact returns_of_discard hd hagree hjoining hn fun _ _ => trivial
    · have hfits := hrl layer m
      cases hdecrypt : rl.decryptIncoming layer m with
      | mk r layer' =>
        rw [hdecrypt] at hfits
        rcases r with err | _ | msg
        · exact returns_of_eq hd hagree rfl rfl rfl trivial
        · dsimp only
          split
          · exact returns_of_eq hd hagree rfl rfl rfl trivial
          · -- rejected early data is dropped, and the loop goes on behind it
            rename_i hsome
            have hjoining : d.joiningHs = none := by simpa using hsome
            exact returns_of_discard hd hagree hjoining hn fun e hunread =>
              length_lt_of_take hd (by omega) hn hunread
        · exact decrypted_spec hd hagree layer'
            (fun htyp => Nat.le_trans (hfits msg rfl htyp) (Nat.le_of_eq hm)) (by omega) hn

/-- **One iteration.** A record is read, decrypted and handled, or the loop ends. -/
theorem popBody_spec (hrl : Fits rl) (hd : Wf d) (hagree : Agree d.used d.buf buf') (layer : σ) :
    Returns d (popBody rl negotiated d layer) (popBody rl negotiated (onBuffer d buf') layer)
      (Advances d) := by
  have hrecord := popRecord_spec negotiated hrl hd hagree layer
  rw [popBody, popBody, onBuffer_joiningHs]
  cases hjoining : d.joiningHs with
  | none =>
    rw [processed, hjoining] at hrecord
    exact hrecord
  | some hs =>
    -- nothing is being joined for QUIC, so the two early returns are never taken
    have hquic := (hd.joining hs hjoining).quic
    rw [processed, hjoining] at hrecord
    dsimp only at hrecord ⊢
    rw [hquic]
    cases hs.expectedLen with
    | none => exact hrecord
    | some len =>
      dsimp only
      split
      · rename_i hle
        exact returns_of_eq hd hagree rfl rfl rfl ⟨hs, hjoining, hle⟩
      · exact hrecord

/-! ## `pop` -/

/-- A complete message is cut off from the joined part; the rest of it stays. -/
theorem finish_spec (hd : Wf d) (hagree : Agree d.used d.buf buf') {hs : HandshakePayloadMeta}
    (hjoining : d.joiningHs = some hs) {len : Nat} (hlen : len ≤ hs.payload.len) :
    ∃ r e buf'', finish d len = .ret (r, e) ∧
      finish (onBuffer d buf') len = .ret (r, onBuffer e buf'') ∧
      Agree e.used e.buf buf'' ∧ Wf e ∧ unread e = unread d := by
  obtain ⟨hquic, hstart, hstop, hheader, hle⟩ := hd.joining hs hjoining
  have hused := hd.used_le
  have hunread : unread d = window d.buf hs.message.stop d.used := by
    rw [unread, processed, hjoining]
  rw [Range.len] at hlen
  rw [finish, finish, onBuffer_joiningHs, hjoining]
  dsimp only
  rw [onBuffer_buf, hagree.slice_eq (by omega), Buffer.slice_of_le (by omega) (by omega),
    Outcome.ret_bind, Outcome.ret_bind]
  split
  · -- more messages have been joined already
    rename_i hlt
    rw [Range.len] at hlt
    have hrest : ∀ expectedLen, Wf { d with joiningHs := some { hs with
        payload := { hs.payload with start := hs.payload.start + len }, expectedLen } } := fun _ => by
      refine ⟨hused, ?_⟩
      rintro _ ⟨⟩
      exact ⟨hquic, by dsimp only; omega, hstop, hheader, hle⟩
    rw [hagree.slice_eq (by omega), Buffer.slice_of_le (by omega) (by omega), Outcome.ret_bind,
      Outcome.ret_bind]
    cases payloadSize _ with
    | error e => exact ⟨_, _, buf', rfl, rfl, hagree, hrest _, hunread.symm⟩
    | ok expectedLen => exact ⟨_, _, buf', rfl, rfl, hagree, hrest _, hunread.symm⟩
  · -- that was the last one, and its records are discarded
    obtain ⟨e, buf'', heq, heq', hagree', hwf, hrest⟩ :=
      discard_spec (d := { d with joiningHs := none }) ⟨hused, nofun⟩ hagree rfl hle
    dsimp only [onBuffer] at heq' ⊢
    rw [heq, heq']
    refine ⟨_, e, buf'', rfl, rfl, hagree', hwf, ?_⟩
    rw [hrest, hunread, unread, ← Buffer.window_add]
    simp [processed]

/-- **The loop.** Every iteration that goes on has taken a record, so what is unread bounds
    their number. -/
theorem popLoop_spec (hrl : Fits rl) (hd : Wf d) (hagree : Agree d.used d.buf buf') (layer : σ)
    {fuel : Nat} (hfuel : (unread d).length < fuel) :
    Returns d (popLoop rl negotiated fuel d layer) (popLoop rl negotiated fuel (onBuffer d buf') layer)
      (fun _ => True) := by
  -- a turn that goes on has taken a record, so the budget lasts
  induction fuel generalizing d buf' layer with
  | zero => omega
  | succ fuel ih =>
    obtain ⟨t, buf₁, heq, heq', hagree₁, hwf, hunread, hadvances⟩ :=
      popBody_spec negotiated hrl hd hagree layer
    obtain ⟨result, e, layer', taken⟩ := t
    dsimp only at heq' hagree₁ hwf hunread
    rw [popLoop, popLoop, heq, heq', Outcome.ret_bind, Outcome.ret_bind]
    cases result with
    | done result => exact ⟨_, buf₁, rfl, rfl, hagree₁, hwf, hunread, trivial⟩
    | complete len =>
      obtain ⟨hs, hjoining, hlen⟩ := hadvances
      obtain ⟨r, e', buf₂, hfinish, hfinish', hagree₂, hwf', hrest⟩ :=
        finish_spec hwf hagree₁ hjoining hlen
      dsimp only
      rw [hfinish, hfinish']
      exact ⟨_, buf₂, rfl, rfl, hagree₂, hwf', by rw [hunread, ← hrest], trivial⟩
    | next =>
      have hlt : (unread e).length < (unread d).length := hadvances
      obtain ⟨t, buf₂, hrest, hrest', hagree₂, hwf', hunread', -⟩ :=
        ih hwf hagree₁ layer' (by omega)
      dsimp only
      rw [hrest, hrest']
      refine ⟨_, buf₂, rfl, rfl, hagree₂, hwf', ?_, trivial⟩
      -- first the records of this turn, then those of the rest
      rw [hunread, hunread', List.flatten_append, List.append_assoc]

/-- `pop` returns, whatever the buffer holds, and takes whole records from the front of what
    is unread. -/
theorem pop_spec (hrl : Fits rl) (hd : Wf d) (hagree : Agree d.used d.buf buf') (layer : σ) :
    Returns d (pop rl negotiated d layer) (pop rl negotiated (onBuffer d buf') layer)
      (fun _ => True) := by
  rw [pop, pop, onBuffer_lastError, onBuffer_used]
  cases d.lastError with
  | some e => exact returns_of_eq hd hagree rfl rfl rfl trivial
  | none =>
    dsimp only
    split
    · exact returns_of_eq hd hagree rfl rfl rfl trivial
    · refine popLoop_spec negotiated hrl hd hagree layer ?_
      rw [hd.length_unread]
      omega

end Pop

end Fogged.Spec.Deframer
