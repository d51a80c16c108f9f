import Fogged.Spec.ClientHelloPartial

/-!
# Where the fields of a ClientHello come from

The parser compares an extension with the end of the message, not with the end of the
block that the extensions are declared to stand in, and a key with the end of the
extension, not with the end of the list of keys. So the last extension, or the last key, may
lie outside. All others lie inside, and what the parser returns is confined to the declared
block unless that last one holds a field that can reach there.

The positions are those of the format, computed from the message alone.

## Key results

- `found_extensionBytes`: what is returned, in terms of positions
- `exists_replace_block`: the bytes of the block can be replaced
- `fields_confined_iff`: the fields come from the declared block exactly if no field in the
  extension that reaches beyond it can reach there
- `fields_from_behind`: an SNI and a key from behind the block
-/

namespace Fogged.Spec.ClientHello

open Fogged.Native.Handshake Fogged.Native.ClientHello
open Fogged.Spec.Reality
open Checked Tlv
open Bytes (ofBE toBE)

/-! ## Positions -/

/-- The byte at `i`. -/
def byteAt (d : List UInt8) (i : Nat) : Nat := (d.getD i 0).toNat

/-- The number in the two bytes at `i`. -/
def u16At (d : List UInt8) (i : Nat) : Nat := ofBE ((d.drop i).take 2)

/-- Where the cipher suites start, with their length: behind the session id. -/
def suitesPos (d : List UInt8) : Nat := 39 + byteAt d 38

/-- Where the compression methods start, with their length. -/
def compressionPos (d : List UInt8) : Nat := suitesPos d + 2 + u16At d (suitesPos d)

/-- Where the extensions start, with their length. -/
def blockPos (d : List UInt8) : Nat := compressionPos d + 1 + byteAt d (compressionPos d)

/-- The end of the message. -/
def messageEnd (d : List UInt8) : Nat := 4 + ofBE ((d.drop 1).take 3)

/-- The extensions with their length in front, and what follows up to the end of the
    message. -/
def block (d : List UInt8) : List UInt8 := (d.take (messageEnd d)).drop (blockPos d)

/-- The declared length of the extensions. -/
def declaredLength (d : List UInt8) : Nat := u16At (block d) 0

/-- The declared end of the extensions. -/
def blockEnd (d : List UInt8) : Nat := blockPos d + 2 + declaredLength d

/-- The extensions, and what follows up to the end of the message. -/
def extensionBytes (d : List UInt8) : List UInt8 := (block d).drop 2

/-- The extensions in terms of positions. -/
theorem extensions_eq (b : List UInt8) : extensions b = entries (u16At b 0) (b.drop 2) := by
  match b with
  | [] | [_] => exact (entries_of_length_lt _ (by simp)).symm
  | e0 :: e1 :: rest => rfl

/-- The key in terms of positions. -/
theorem keyShare_eq (b : List UInt8) :
    keyShare b = (entries (u16At b 0) (b.drop 2)).findSome? x25519? := by
  match b with
  | [] | [_] =>
    rw [entries_of_length_lt _ (by simp)]
    rfl
  | l0 :: l1 :: rest =>
    rw [keyShare, entries_min]
    rfl

/-- The byte behind `pre`. -/
theorem byteAt_append (pre post : List UInt8) (b : UInt8) :
    byteAt (pre ++ b :: post) pre.length = b.toNat := by
  simp [byteAt]

/-- The number behind `pre`. -/
theorem u16At_append {n : Nat} (h : n < 2 ^ 16) (pre post : List UInt8) :
    u16At (pre ++ (toBE 2 n ++ post)) pre.length = n := by
  rw [u16At, List.drop_left, List.take_left' (Bytes.length_toBE 2 n), Bytes.ofBE_toBE (k := 2) h]

/-- The message up to the session id, with its length. -/
def toSessionId (l : Layout) : List UInt8 :=
  [0x01] ++ toBE 3 l.body.length ++ l.version.toList ++ l.random.toList

/-- The message up to the cipher suites. -/
def toSuites (l : Layout) : List UInt8 :=
  toSessionId l ++ UInt8.ofNat l.sessionId.length :: l.sessionId

/-- The message up to the compression methods. -/
def toCompression (l : Layout) (t : Tail) : List UInt8 :=
  toSuites l ++ toBE 2 t.suites.length ++ t.suites

section Positions

variable {l : Layout} {t : Tail}

/-- The session id stands at a fixed place. -/
theorem length_toSessionId : (toSessionId l).length = 38 := by simp [toSessionId]

theorem length_toSuites : (toSuites l).length = 39 + l.sessionId.length := by
  simp only [toSuites, List.length_append, List.length_cons, length_toSessionId]
  omega

/-- A message is cut in front of the compression methods. -/
theorem bytes_eq_toCompression (ht : l.rest = t.bytes) :
    l.bytes = toCompression l t ++ t.compLen :: t.rest := by
  have hone : toBE 1 l.sessionId.length = [UInt8.ofNat l.sessionId.length] := rfl
  simp only [Layout.bytes, Layout.body, Layout.front, ht, hone, Tail.bytes, toCompression,
    toSuites, toSessionId, List.append_assoc, List.cons_append, List.nil_append]

/-- Where the extensions start in a message whose parts are in place. -/
theorem blockPos_layout (ht : l.rest = t.bytes) (trailing : List UInt8) :
    blockPos (l.bytes ++ trailing) = (toCompression l t).length + (1 + t.compLen.toNat) := by
  have hsid : (UInt8.ofNat l.sessionId.length).toNat = l.sessionId.length :=
    UInt8.toNat_ofNat_of_lt' l.sessionId_lt
  have hbytes := bytes_eq_toCompression ht
  -- from the front: each length says where the next part starts
  have hsuitesPos : suitesPos (l.bytes ++ trailing) = (toSuites l).length := by
    have hd : l.bytes ++ trailing = toSessionId l ++ UInt8.ofNat l.sessionId.length ::
        (l.sessionId ++ (toBE 2 t.suites.length ++ (t.suites ++ t.compLen ::
          (t.rest ++ trailing)))) := by
      simp [hbytes, toCompression, toSuites]
    rw [suitesPos, hd, ← length_toSessionId (l := l), byteAt_append, hsid, length_toSuites]
  have hcompressionPos : compressionPos (l.bytes ++ trailing) = (toCompression l t).length := by
    have hd : l.bytes ++ trailing = toSuites l ++
        (toBE 2 t.suites.length ++ (t.suites ++ t.compLen :: (t.rest ++ trailing))) := by
      simp [hbytes, toCompression]
    rw [compressionPos, hsuitesPos, hd, u16At_append t.suites_lt]
    simp only [toCompression, List.length_append, Bytes.length_toBE]
  rw [blockPos, hcompressionPos, hbytes, List.append_assoc, List.cons_append, byteAt_append,
    Nat.add_assoc]

/-- What follows the message does not move its end. -/
theorem messageEnd_layout (trailing : List UInt8) :
    messageEnd (l.bytes ++ trailing) = l.bytes.length := by
  have hlen : ((l.bytes ++ trailing).drop 1).take 3 = toBE 3 l.body.length := by
    simp only [Layout.bytes, List.append_assoc, List.cons_append, List.nil_append,
      List.drop_succ_cons, List.drop_zero]
    exact List.take_left' (Bytes.length_toBE 3 _)
  rw [messageEnd, hlen, l.ofBE_body_length, l.length_bytes]

/-- The block of a message whose parts are in place. -/
theorem block_layout (ht : l.rest = t.bytes) (trailing : List UInt8) :
    block (l.bytes ++ trailing) = t.block := by
  rw [block, messageEnd_layout, List.take_left, blockPos_layout ht, bytes_eq_toCompression ht,
    ← List.drop_drop, List.drop_left, Nat.add_comm 1, List.drop_succ_cons, Tail.block]

end Positions

/-- **What is returned**, in terms of positions. -/
theorem found_extensionBytes {d : List UInt8} {info : ClientHelloInfo}
    (h : (parseClientHello d).run = .ret (.ok info)) :
    (info.sni, info.x25519Key) = found (entries (declaredLength d) (extensionBytes d)) := by
  obtain ⟨l, trailing, r, rfl, hafter, rfl⟩ := exists_layout h
  obtain ⟨t, ht⟩ := exists_tail hafter
  rw [ht, t.parseAfterSessionId_bytes] at hafter
  cases hafter
  rw [declaredLength, extensionBytes, ← extensions_eq, block_layout ht]
  rfl

/-! ## Messages that agree -/

section Agree

variable {d d' : List UInt8} {n : Nat} (h : d.take n = d'.take n)

include h

/-- Messages that agree up to `n` have the same bytes there. -/
theorem byteAt_congr {i : Nat} (hi : i < n) : byteAt d i = byteAt d' i := by
  have hget := congrArg (·[i]?) h
  simp only [List.getElem?_take_of_lt hi] at hget
  rw [byteAt, byteAt, List.getD_eq_getElem?_getD, List.getD_eq_getElem?_getD, hget]

/-- And the same windows. -/
theorem window_congr {i k : Nat} (hi : i + k ≤ n) : (d.drop i).take k = (d'.drop i).take k := by
  have htake := congrArg (fun l => (l.take (i + k)).drop i) h
  simpa only [List.take_take, Nat.min_eq_left hi, List.drop_take, Nat.add_sub_cancel_left]
    using htake

/-- And the same numbers. -/
theorem u16At_congr {i : Nat} (hi : i + 2 ≤ n) : u16At d i = u16At d' i := by
  rw [u16At, u16At, window_congr h hi]

/-- If the block starts where they agree, it starts at the same place in both. -/
theorem blockPos_congr (hn : blockPos d < n) : blockPos d = blockPos d' := by
  -- each length that is read lies before the block
  have hcompressionPos : compressionPos d < n := by
    rw [blockPos] at hn
    omega
  have hsuitesPos : suitesPos d + 2 ≤ n := by
    rw [compressionPos] at hcompressionPos
    omega
  have hsuites : suitesPos d = suitesPos d' := by
    rw [suitesPos] at hsuitesPos
    rw [suitesPos, suitesPos, byteAt_congr h (by omega)]
  have hcompression : compressionPos d = compressionPos d' := by
    rw [compressionPos, compressionPos, ← hsuites, u16At_congr h hsuitesPos]
  rw [blockPos, blockPos, ← hcompression, byteAt_congr h hcompressionPos]

end Agree

/-- Messages of the same length that agree up to the end of the block have the same
    extensions, up to one that reaches beyond it. -/
theorem extensions_alike {d d' : List UInt8} (hlen : d.length = d'.length)
    (h : d.take (blockEnd d) = d'.take (blockEnd d)) :
    declaredLength d = declaredLength d' ∧
      Alike (declaredLength d) (entries (declaredLength d) (extensionBytes d))
        (entries (declaredLength d) (extensionBytes d')) := by
  have hpos : blockPos d = blockPos d' := blockPos_congr h (by rw [blockEnd]; omega)
  -- the length of the message is in its first four bytes
  have hend : messageEnd d = messageEnd d' := by
    have hfar : 1 + 3 ≤ blockEnd d := by
      rw [blockEnd, blockPos, compressionPos, suitesPos]
      omega
    rw [messageEnd, messageEnd, window_congr h hfar]
  have hmessage : (d.take (messageEnd d)).take (blockEnd d) =
      (d'.take (messageEnd d)).take (blockEnd d) := by
    rw [List.take_take, List.take_take, Nat.min_comm, ← List.take_take, h, List.take_take]
  have hblock : (block d).take (2 + declaredLength d) = (block d').take (2 + declaredLength d) := by
    rw [block, block, ← hpos, ← hend]
    exact window_congr hmessage (by rw [blockEnd]; omega)
  have hblockLen : (block d).length = (block d').length := by
    simp only [block, List.length_drop, List.length_take, hpos, hend, hlen]
  refine ⟨u16At_congr hblock (by omega), entries_alike ?_ ?_⟩
  · rw [extensionBytes, extensionBytes, List.length_drop, List.length_drop, hblockLen]
  · exact window_congr hblock (Nat.le_refl _)

/-! ## Replacing the block -/

/-- The message up to the block. -/
def toBlock (l : Layout) (t : Tail) : List UInt8 :=
  toCompression l t ++ t.compLen :: t.rest.take t.compLen.toNat

/-- A message is cut in front of its extensions. -/
theorem bytes_eq_toBlock {l : Layout} {t : Tail} (ht : l.rest = t.bytes) :
    l.bytes = toBlock l t ++ t.block := by
  rw [bytes_eq_toCompression ht, toBlock, Tail.block, List.append_assoc, List.cons_append,
    List.take_append_drop]

/-- Another block of the same length. -/
def Tail.withBlock (t : Tail) (b : List UInt8) : Tail :=
  { t with rest := t.rest.take t.compLen.toNat ++ b }

/-- Another tail of the same length. -/
def withTail (l : Layout) (t : Tail) (h : l.rest.length = t.bytes.length) : Layout :=
  { l with rest := t.bytes, body_lt := h ▸ l.body_lt }

/-- Another block leaves what is in front of it. -/
theorem toBlock_withTail {l : Layout} {t : Tail} {b : List UInt8}
    (h : l.rest.length = (t.withBlock b).bytes.length) (hcomp : t.compLen.toNat ≤ t.rest.length) :
    toBlock (withTail l (t.withBlock b) h) (t.withBlock b) = toBlock l t := by
  have hbody : (withTail l (t.withBlock b) h).body.length = l.body.length := by
    rw [Layout.length_body, Layout.length_body]
    show 35 + l.sessionId.length + (t.withBlock b).bytes.length = _
    rw [← h]
  have hrest : (t.withBlock b).rest.take t.compLen.toNat = t.rest.take t.compLen.toNat :=
    List.take_left' (by rw [List.length_take, Nat.min_eq_left hcomp])
  show [0x01] ++ toBE 3 (withTail l (t.withBlock b) h).body.length ++ _ ++ _ ++ _ ++ _ ++ _ ++
    t.compLen :: (t.withBlock b).rest.take t.compLen.toNat = _
  rw [hbody, hrest]
  rfl

/-- **The block can be replaced** by other bytes: the message is still accepted, and where the
    new block agrees with the old one, so do the messages. -/
theorem exists_replace_block {d : List UInt8} {info : ClientHelloInfo}
    (h : (parseClientHello d).run = .ret (.ok info)) (hne : block d ≠ []) {b : List UInt8}
    (hlen : b.length = (block d).length)
    (htake : b.take (2 + declaredLength d) = (block d).take (2 + declaredLength d)) :
    ∃ d' info', d'.length = d.length ∧ d.take (blockEnd d) = d'.take (blockEnd d) ∧
      (parseClientHello d').run = .ret (.ok info') ∧ block d' = b := by
  obtain ⟨l, trailing, r, rfl, hafter, rfl⟩ := exists_layout h
  obtain ⟨t, ht⟩ := exists_tail hafter
  have hpos := blockPos_layout ht trailing
  have hblockEnd : blockEnd (l.bytes ++ trailing) =
      blockPos (l.bytes ++ trailing) + 2 + declaredLength (l.bytes ++ trailing) := rfl
  rw [block_layout ht] at hne hlen htake
  -- the compression methods end within the message, as there is a block
  have hcomp : t.compLen.toNat ≤ t.rest.length := by
    by_contra hlt
    exact hne (List.drop_eq_nil_of_le (by omega))
  have htaken : (t.rest.take t.compLen.toNat).length = t.compLen.toNat := by
    rw [List.length_take, Nat.min_eq_left hcomp]
  have hblockLen : t.block.length = t.rest.length - t.compLen.toNat := List.length_drop
  -- the new block has the old one's length, and so has the message
  have hbytes : l.rest.length = (t.withBlock b).bytes.length := by
    rw [ht]
    simp only [Tail.bytes, Tail.withBlock, List.length_append, List.length_cons, htaken,
      Bytes.length_toBE]
    omega
  have hblock : (t.withBlock b).block = b := List.drop_left' htaken
  have hold := bytes_eq_toBlock ht
  have hnew := bytes_eq_toBlock (l := withTail l (t.withBlock b) hbytes) rfl
  rw [toBlock_withTail hbytes hcomp, hblock] at hnew
  -- the parser finds the same cipher suites, and the extensions of `b`
  have hafter' : (parseAfterSessionId (withTail l (t.withBlock b) hbytes).rest).run =
      .ret (.ok (cipherSuites t.suites, found (extensions b))) := by
    show (parseAfterSessionId (t.withBlock b).bytes).run = _
    rw [(t.withBlock b).parseAfterSessionId_bytes, hblock]
    rfl
  refine ⟨(withTail l (t.withBlock b) hbytes).bytes ++ trailing, _, ?_, ?_,
    parseClientHello_layout _ trailing hafter', ?_⟩
  · rw [hold, hnew]
    simp only [List.length_append, hlen]
  · -- up to the block nothing has changed, and in the block what is compared has not
    have hto : (toBlock l t).length = blockPos (l.bytes ++ trailing) := by
      rw [hpos, toBlock, List.length_append, List.length_cons, htaken]
      omega
    rw [hblockEnd, ← hto, hnew]
    generalize declaredLength (l.bytes ++ trailing) = n at htake ⊢
    rw [hold, List.append_assoc, List.append_assoc, Nat.add_assoc, List.take_length_add_append,
      List.take_length_add_append, List.take_append, List.take_append, htake, hlen]
  · rw [block_layout rfl, hblock]

/-! ## Fields from the declared block -/

/-- The entry that reaches beyond the declared length is the last one. -/
theorem overhang_of_last {left : Nat} {rest : List UInt8} {front : List Entry} {e : Entry}
    (hes : entries left rest = front ++ [e]) (hsize : left < size (entries left rest)) :
    overhang left rest = some e := by
  rw [overhang, if_neg (by omega), hes, List.getLast?_concat]

/-- The field that is read from an extension can depend on its last `m` bytes. -/
def FieldOpen (m : Nat) (e : Entry) : Prop :=
  e.type = 0x0000 ∧ NameOpen m (e.data.take (e.data.length - m)) ∨
    e.type = 0x0033 ∧ ShareOpen m (e.data.take (e.data.length - m))

/-- The fields are updated from left to right. -/
theorem found_concat (front : List Entry) (e : Entry) :
    found (front ++ [e]) = update (found front) e := by
  rw [found, List.foldl_append]
  rfl

/-- If it cannot, extensions that agree up to there give the same. -/
theorem update_congr {m : Nat} {e e' : Entry} (h : ¬ FieldOpen m e) (hm : m ≤ e.data.length)
    (htype : e.type = e'.type) (hlength : e.data.length = e'.data.length)
    (hdata : e.data.take (e.data.length - m) = e'.data.take (e.data.length - m))
    (known : Option Text × Option Key) : update known e = update known e' := by
  -- both extensions are cut where they may begin to differ
  have hsplit : e.data = e.data.take (e.data.length - m) ++ e.data.drop (e.data.length - m) :=
    (List.take_append_drop _ _).symm
  have hsplit' : e'.data = e.data.take (e.data.length - m) ++ e'.data.drop (e.data.length - m) := by
    rw [hdata, List.take_append_drop]
  have hrest : (e.data.drop (e.data.length - m)).length = m := by
    rw [List.length_drop]
    omega
  have hrest' : (e'.data.drop (e.data.length - m)).length = m := by
    rw [List.length_drop]
    omega
  unfold update
  rw [← htype]
  split
  · -- only two types of extensions hold a field
    rename_i hsni
    have hname : hostName e.data = hostName e'.data := by
      rw [hsplit']
      conv_lhs => rw [hsplit]
      exact hostName_congr (fun hopen => h (.inl ⟨hsni, hopen⟩)) hrest hrest'
    rw [hname]
  · split
    · rename_i hshare
      have hkey : keyShare e.data = keyShare e'.data := by
        rw [hsplit']
        conv_lhs => rw [hsplit]
        exact keyShare_congr (fun hopen => h (.inr ⟨hshare, hopen⟩)) hrest hrest'
      rw [hkey]
    · rfl

/-- If what is read from the data depends on the last `m` bytes, another entry with the same
    header and the same front gives something else. -/
theorem exists_entry_ne {α : Type} {f : List UInt8 → α} {m : Nat} {e : Entry}
    (hm : m ≤ e.data.length) (h : Varies f (e.data.take (e.data.length - m)) m) :
    ∃ e' : Entry, e'.type = e.type ∧ e'.data.length = e.data.length ∧
      e'.data.take (e.data.length - m) = e.data.take (e.data.length - m) ∧
      f e'.data ≠ f e.data := by
  obtain ⟨a, ha, hne⟩ := h.exists_ne (f e.data)
  have htaken : (e.data.take (e.data.length - m)).length = e.data.length - m := by
    rw [List.length_take]
    omega
  have hlength : (e.data.take (e.data.length - m) ++ a).length = e.data.length := by
    rw [List.length_append, htaken, ha]
    omega
  exact ⟨⟨e.type, e.data.take (e.data.length - m) ++ a, e.type_lt,
    by rw [hlength]; exact e.length_lt⟩, rfl, hlength, List.take_left' htaken, hne⟩

/-- If it can depend on them, another extension of the same type and the same front gives
    something else. -/
theorem exists_update_ne {m : Nat} {e : Entry} (h : FieldOpen m e) (hm : m ≤ e.data.length)
    (known : Option Text × Option Key) :
    ∃ e' : Entry, e'.type = e.type ∧ e'.data.length = e.data.length ∧
      e'.data.take (e.data.length - m) = e.data.take (e.data.length - m) ∧
      update known e' ≠ update known e := by
  rcases h with ⟨htype, hopen⟩ | ⟨htype, hopen⟩
  · obtain ⟨e', htype', hlength, hdata, hne⟩ := exists_entry_ne hm (varies_hostName hopen)
    refine ⟨e', htype', hlength, hdata, ?_⟩
    -- a name that differs is returned, whatever was known
    rw [update, update, if_pos (htype'.trans htype), if_pos htype]
    exact fun heq => hne (Prod.mk.inj heq).1
  · obtain ⟨e', htype', hlength, hdata, hne⟩ := exists_entry_ne hm (varies_keyShare hopen)
    -- the test for the other type comes first
    have hother : ¬ e.type = 0x0000 := by
      rw [htype]
      decide
    refine ⟨e', htype', hlength, hdata, ?_⟩
    rw [update, update, if_neg (htype' ▸ hother), if_neg hother, if_pos (htype'.trans htype),
      if_pos htype]
    exact fun heq => hne (Prod.mk.inj heq).2

/-- What lies behind the block is no more than the data. -/
theorem excess_le {left : Nat} {rest : List UInt8} {e : Entry} (h : overhang left rest = some e) :
    0 < excess left rest ∧ excess left rest ≤ e.data.length := by
  obtain ⟨front, tail, hentries, -, hroom, hout⟩ := exists_of_overhang h
  have hsize : size (front ++ [e]) = size front + (4 + e.data.length) := by simp [size, Entry.size]
  rw [Entry.size] at hout
  rw [excess, hentries, hsize]
  omega

/-- A block that has an entry has two bytes for its length. -/
theorem two_le_of_overhang {left : Nat} {b : List UInt8} {e : Entry}
    (h : overhang left (b.drop 2) = some e) : 2 ≤ b.length := by
  obtain ⟨front, tail, hentries, -⟩ := exists_of_overhang h
  by_contra hshort
  rw [List.drop_eq_nil_of_le (by omega), entries_of_length_lt _ (by simp)] at hentries
  simp at hentries

/-- Other bytes behind the length of a block. -/
theorem replace_behind_length {b rest : List UInt8} (hb : 2 ≤ b.length)
    (hlen : rest.length = (b.drop 2).length) :
    (b.take 2 ++ rest).length = b.length ∧ u16At (b.take 2 ++ rest) 0 = u16At b 0 ∧
      (b.take 2 ++ rest).drop 2 = rest ∧
      ∀ n, rest.take n = (b.drop 2).take n → (b.take 2 ++ rest).take (2 + n) = b.take (2 + n) := by
  have htwo : (b.take 2).length = 2 := by
    rw [List.length_take, Nat.min_eq_left hb]
  refine ⟨?_, ?_, List.drop_left' htwo, fun n hn => ?_⟩
  · rw [List.length_append, htwo, hlen, List.length_drop]
    omega
  · rw [u16At, u16At, List.drop_zero, List.drop_zero, List.take_left' htwo]
  · rw [List.take_append, List.take_of_length_le (by omega), htwo, Nat.add_sub_cancel_left, hn,
      List.take_add]

/-- Messages of the same length that agree up to the end of the block give the same fields. -/
def Confined (d : List UInt8) (info : ClientHelloInfo) : Prop :=
  ∀ d' info', d'.length = d.length → d.take (blockEnd d) = d'.take (blockEnd d) →
    (parseClientHello d').run = .ret (.ok info') →
    info.sni = info'.sni ∧ info.x25519Key = info'.x25519Key

/-- Key shares of the same length that agree up to the end of the list give the same key. -/
def ShareConfined (d : List UInt8) : Prop :=
  ∀ d', d'.length = d.length → d.take (2 + u16At d 0) = d'.take (2 + u16At d 0) →
    (parseKeyShare d).run = (parseKeyShare d').run

section Confined

variable {d : List UInt8} {info : ClientHelloInfo}
  (hparse : (parseClientHello d).run = .ret (.ok info))

include hparse

/-- If the extension that reaches beyond the block holds no field that can reach there, all
    messages that agree up to the end of the block give the same fields. -/
theorem confined_of_not_open
    (h : ∀ e, overhang (declaredLength d) (extensionBytes d) = some e →
      ¬ FieldOpen (excess (declaredLength d) (extensionBytes d)) e) : Confined d info := by
  intro d' info' hlen htake hparse'
  obtain ⟨hdeclared, halike⟩ := extensions_alike hlen.symm htake
  have hfound : (info.sni, info.x25519Key) = (info'.sni, info'.x25519Key) := by
    rw [found_extensionBytes hparse, found_extensionBytes hparse', ← hdeclared]
    cases halike with
    | same h => rw [h]
    | last front e e' hes hes' htype hlength hsize hdata =>
      -- only the entry that reaches out can differ, and its field does not
      have hover := overhang_of_last hes hsize
      rw [hes, hes', found_concat, found_concat,
        update_congr (h e hover) (excess_le hover).2 htype hlength hdata]
  exact ⟨congrArg Prod.fst hfound, congrArg Prod.snd hfound⟩

/-- Otherwise the extension can be replaced so that its field is another one. -/
theorem not_open_of_confined (h : Confined d info) {e : Entry}
    (hover : overhang (declaredLength d) (extensionBytes d) = some e) :
    ¬ FieldOpen (excess (declaredLength d) (extensionBytes d)) e := by
  intro hopen
  obtain ⟨front, -, hentries, -⟩ := exists_of_overhang hover
  obtain ⟨e', htype, hlength, hdata, hne⟩ :=
    exists_update_ne hopen (excess_le hover).2 (found front)
  -- the message is taken apart to the extension, and put together again with the other one
  obtain ⟨front', rest', hentries', hnew, hrestLen, hrestTake⟩ :=
    exists_replace_overhang hover htype hlength hdata
  obtain rfl : front = front' := List.append_cancel_right (hentries.symm.trans hentries')
  have hlong := two_le_of_overhang hover
  obtain ⟨hlenB, hu16, hdrop, htakeB⟩ := replace_behind_length hlong hrestLen
  obtain ⟨d', info', hlen, htake, hparse', hblock⟩ :=
    exists_replace_block hparse (List.ne_nil_of_length_pos (by omega)) hlenB (htakeB _ hrestTake)
  have hdeclared : declaredLength d' = declaredLength d := by
    rw [declaredLength, declaredLength, hblock, hu16]
  have hbytes : extensionBytes d' = rest' := by
    rw [extensionBytes, hblock, hdrop]
  obtain ⟨hsni, hkey⟩ := h d' info' hlen htake hparse'
  -- both messages give the same fields, so the two updates cannot differ
  refine hne ?_
  rw [← found_concat, ← found_concat, ← hnew, ← hentries, ← hbytes, ← hdeclared,
    ← found_extensionBytes hparse', hdeclared, ← found_extensionBytes hparse, hsni, hkey]

end Confined

/-- A last entry that is no key changes nothing. -/
theorem findSome?_concat_none {front : List Entry} {e : Entry} (h : x25519? e = none) :
    (front ++ [e]).findSome? x25519? = front.findSome? x25519? := by
  rw [List.findSome?_append, List.findSome?_cons, h]
  exact Option.or_none

/-- Which entries are no x25519 key. -/
theorem x25519?_eq_none_iff {e : Entry} :
    x25519? e = none ↔ ¬ (e.type = 0x001D ∧ e.data.length = 32) := by
  unfold x25519?
  split
  · rename_i h
    exact iff_of_false (Option.some_ne_none _) (not_not.2 h)
  · rename_i h
    exact iff_of_true rfl h

/-- The last entry does not matter if it is no key, or if there is one before it. -/
theorem shareConfined_of {d : List UInt8}
    (h : ∀ e, overhang (u16At d 0) (d.drop 2) = some e → x25519? e = none ∨
      ∃ f ∈ (entries (u16At d 0) (d.drop 2)).dropLast, x25519? f ≠ none) : ShareConfined d := by
  intro d' hlen htake
  rw [parseKeyShare_eq, parseKeyShare_eq, keyShare_eq, keyShare_eq,
    ← u16At_congr htake (by omega)]
  have hrest := window_congr htake (i := 2) (Nat.le_refl _)
  have halike := entries_alike (by rw [List.length_drop, List.length_drop, hlen]) hrest
  cases halike with
  | same h => rw [h]
  | last front e e' hes hes' htype hlength hsize _ =>
    rw [hes, hes']
    rcases h e (overhang_of_last hes hsize) with hnone | ⟨f, hf, hsome⟩
    · -- it is no key, and what the other list has in its place has its type and its length
      have hnone' : x25519? e' = none := by
        rw [x25519?_eq_none_iff, ← htype, ← hlength, ← x25519?_eq_none_iff]
        exact hnone
      rw [findSome?_concat_none hnone, findSome?_concat_none hnone']
    · -- a key in front of it is found first
      rw [hes, List.dropLast_concat] at hf
      have hfront : (front.findSome? x25519?).isSome := by
        rw [List.findSome?_isSome_iff]
        exact ⟨f, hf, Option.isSome_iff_ne_none.2 hsome⟩
      obtain ⟨key, hkey⟩ := Option.isSome_iff_exists.1 hfront
      rw [List.findSome?_append, List.findSome?_append, hkey]
      rfl

/-- Bytes that are there vary. -/
theorem varies_id (known : List UInt8) {m : Nat} (h : 0 < m) : Varies id known m := by
  refine ⟨List.replicate m 0, List.replicate m 1, List.length_replicate, List.length_replicate, ?_⟩
  intro heq
  obtain ⟨n, rfl⟩ : ∃ n, m = n + 1 := ⟨m - 1, by omega⟩
  have hbytes := List.append_cancel_left heq
  rw [List.replicate_succ, List.replicate_succ] at hbytes
  exact absurd (List.cons.inj hbytes).1 (by decide)

/-- Otherwise the key it holds can be changed behind the end of the list. -/
theorem of_shareConfined {d : List UInt8} (h : ShareConfined d) {e : Entry}
    (hover : overhang (u16At d 0) (d.drop 2) = some e) :
    x25519? e = none ∨ ∃ f ∈ (entries (u16At d 0) (d.drop 2)).dropLast, x25519? f ≠ none := by
  by_contra hcon
  rw [not_or, not_exists] at hcon
  obtain ⟨hkey, hfront⟩ := hcon
  obtain ⟨hpos, hle⟩ := excess_le hover
  obtain ⟨e', htype, hlength, hdata, hne⟩ := exists_entry_ne hle (varies_id _ hpos)
  obtain ⟨front, rest', hentries, hnew, hrestLen, hrestTake⟩ :=
    exists_replace_overhang hover htype hlength hdata
  obtain ⟨hlen, hu16, hdrop, htake⟩ := replace_behind_length (two_le_of_overhang hover) hrestLen
  have hsame := h _ hlen (htake _ hrestTake).symm
  rw [parseKeyShare_eq, parseKeyShare_eq, keyShare_eq, keyShare_eq, hu16, hdrop, hentries, hnew]
    at hsame
  -- no key in front, so the two keys are compared
  rw [hentries, List.dropLast_concat] at hfront
  have hfirst (k : Entry) : (front ++ [k]).findSome? x25519? = x25519? k := by
    have hnone : front.findSome? x25519? = none :=
      List.findSome?_eq_none_iff.2 fun f hf => by_contra fun hf' => hfront f ⟨hf, hf'⟩
    rw [List.findSome?_append, hnone, List.findSome?_cons]
    cases x25519? k <;> rfl
  rw [hfirst, hfirst] at hsame
  have hkeys : x25519? e = x25519? e' := Except.ok.inj (Outcome.ret.inj hsame)
  have hc : e.type = 0x001D ∧ e.data.length = 32 := not_not.1 (mt x25519?_eq_none_iff.2 hkey)
  rw [x25519?, x25519?, dif_pos hc, dif_pos ⟨htype.trans hc.1, hlength.trans hc.2⟩] at hkeys
  exact hne (congrArg List.Vector.toList (Option.some.inj hkeys)).symm

/-- **Where the fields come from.** An accepted message gives the same SNI and the same key as
    every other one that agrees with it up to the end of the declared block, exactly if the
    extension that reaches beyond the block, if there is one, holds no host name and no key that
    can reach there. A key share gives the same key as every other one that agrees with it up
    to the end of the declared list, exactly if the entry that reaches beyond the list is no
    key for x25519, or one stands in front of it. -/
theorem fields_confined_iff (d : List UInt8) :
    (∀ info, (parseClientHello d).run = .ret (.ok info) →
      (Confined d info ↔ ∀ e, overhang (declaredLength d) (extensionBytes d) = some e →
        ¬ FieldOpen (excess (declaredLength d) (extensionBytes d)) e)) ∧
    (ShareConfined d ↔ ∀ e, overhang (u16At d 0) (d.drop 2) = some e → x25519? e = none ∨
      ∃ f ∈ (entries (u16At d 0) (d.drop 2)).dropLast, x25519? f ≠ none) :=
  ⟨fun _ hparse => ⟨fun h _ => not_open_of_confined hparse h, confined_of_not_open hparse⟩,
    fun h _ => of_shareConfined h, shareConfined_of⟩

/-- A ClientHello whose extensions are declared to be `extLen` bytes long. -/
def helloWith (extLen : UInt8) (rest : List UInt8) : List UInt8 :=
  [0x01, 0, 0, UInt8.ofNat (43 + rest.length), 3, 3] ++ List.replicate 32 0 ++
    [0, 0, 2, 0x13, 0x01, 1, 0, 0, extLen] ++ rest

/-- What is read from it, if it is a host name. -/
def infoWith (raw : List UInt8) (name : Text) : ClientHelloInfo where
  raw := raw
  random := List.Vector.replicate 32 0
  sessionId := []
  sessionIdOffset := 39
  sni := some name
  x25519Key := none
  cipherSuites := [0x1301]

/-- An SNI extension for the name `c`. -/
def sniBytes (c : UInt8) : List UInt8 := [0, 0, 0, 6, 0, 4, 0, 0, 1, c]

/-- An entry of a key share, for x25519. -/
def keyBytes (c : UInt8) : List UInt8 := [0x00, 0x1D, 0, 32] ++ List.replicate 32 c

def keyEntry (c : UInt8) : Entry := ⟨0x001D, List.replicate 32 c, by decide, by simp⟩

theorem encode_keyEntry (c : UInt8) : (keyEntry c).encode = keyBytes c := by
  have hheader : toBE 2 0x001D ++ toBE 2 32 = [0x00, 0x1D, 0, 32] := by decide
  rw [Entry.encode, keyBytes, ← hheader]
  simp [keyEntry]

/-- An extension that ends behind its block, with the name `a` inside; and a key that ends
    behind its list, with another one in front. -/
theorem fields_confined_inside :
    Confined (helloWith 10 ([0, 0, 0, 7, 0, 4, 0, 0, 1, 0x61] ++ [1]))
        (infoWith (helloWith 10 ([0, 0, 0, 7, 0, 4, 0, 0, 1, 0x61] ++ [1])) [0x61]) ∧
      ShareConfined ([0, 40] ++ (keyBytes 7 ++ keyBytes 8)) := by
  have hblock :
      declaredLength (helloWith 10 ([0, 0, 0, 7, 0, 4, 0, 0, 1, 0x61] ++ [1])) = 10 ∧
        extensionBytes (helloWith 10 ([0, 0, 0, 7, 0, 4, 0, 0, 1, 0x61] ++ [1])) =
          [0, 0, 0, 7, 0, 4, 0, 0, 1, 0x61, 1] := by
    decide +kernel
  refine ⟨((fields_confined_iff _).1 _ (by decide +kernel)).2 ?_, (fields_confined_iff _).2.2 ?_⟩
  · rw [hblock.1, hblock.2]
    intro e he
    simp [overhang, entries, size, Entry.size, ofBE] at he
    subst he
    simp [FieldOpen, excess, entries, size, Entry.size, NameOpen, ofBE]
  · -- both keys are read
    have hentries : entries 40 (keyBytes 7 ++ (keyBytes 8 ++ [])) = [keyEntry 7, keyEntry 8] := by
      rw [← encode_keyEntry, ← encode_keyEntry, entries_encode_append (by decide),
        entries_encode_append (by decide)]
      rw [entries_of_length_lt _ (by decide)]
    rw [List.append_nil] at hentries
    intro e _
    refine .inr ⟨keyEntry 7, ?_, by decide⟩
    have hlist : u16At ([0, 40] ++ (keyBytes 7 ++ keyBytes 8)) 0 = 40 := by decide +kernel
    have hdrop : ([0, 40] ++ (keyBytes 7 ++ keyBytes 8)).drop 2 = keyBytes 7 ++ keyBytes 8 := rfl
    rw [hlist, hdrop, hentries]
    exact List.mem_singleton.2 rfl

/-- **Fields from behind the block.** The block has room for the header of an extension only,
    and the name stands behind it; the list has room for the header of a key only. -/
theorem fields_from_behind :
    (parseClientHello (helloWith 4 (sniBytes 0x61))).run =
        .ret (.ok (infoWith (helloWith 4 (sniBytes 0x61)) [0x61])) ∧
      (parseClientHello (helloWith 4 (sniBytes 0x62))).run =
        .ret (.ok (infoWith (helloWith 4 (sniBytes 0x62)) [0x62])) ∧
      (helloWith 4 (sniBytes 0x61)).length = (helloWith 4 (sniBytes 0x62)).length ∧
      (helloWith 4 (sniBytes 0x61)).take (blockEnd (helloWith 4 (sniBytes 0x61))) =
        (helloWith 4 (sniBytes 0x62)).take (blockEnd (helloWith 4 (sniBytes 0x61))) ∧
      ([0, 4] ++ keyBytes 1).take (2 + u16At ([0, 4] ++ keyBytes 1) 0) =
        ([0, 4] ++ keyBytes 2).take (2 + u16At ([0, 4] ++ keyBytes 1) 0) ∧
      (parseKeyShare ([0, 4] ++ keyBytes 1)).run =
        .ret (.ok (some (List.Vector.replicate 32 1))) ∧
      (parseKeyShare ([0, 4] ++ keyBytes 2)).run =
        .ret (.ok (some (List.Vector.replicate 32 2))) := by
  decide +kernel

end Fogged.Spec.ClientHello
