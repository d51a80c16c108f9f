import Fogged.ForStd.Tlv
import Fogged.Spec.RealityCorrect

/-!
# What is found in a ClientHello

The extensions of a ClientHello and the entries of its key share are both sequences of
typed, length-prefixed entries, and the two loops of the parser walk them in the same way.
`found` says in terms of the entries what the parser returns. From the bytes of a
well-formed message the parser recovers its parts, with any extensions in any order.

## Key results

- `parseSni_eq`, `parseKeyShare_eq`, `extensionLoop_eq`: the parser in terms of entries
- `Tail.parseAfterSessionId_bytes`, `exists_tail`: what is accepted behind the session id
- `hello_recovered`: a well-formed ClientHello is recovered
-/

namespace Fogged.Spec.ClientHello

open Fogged.Native.Handshake Fogged.Native.ClientHello
open Fogged.Spec.Reality
open Checked Tlv
open Bytes (ofBE toBE)

/-! ## In terms of entries -/

/-- The host name in the data of an SNI extension, if the first name is one. -/
def hostName : List UInt8 → Option Text
  | _ :: _ :: nameType :: n0 :: n1 :: rest =>
    if nameType = 0 ∧ ofBE [n0, n1] ≤ rest.length ∧ Bytes.validUtf8 (rest.take (ofBE [n0, n1])) then
      some (rest.take (ofBE [n0, n1]))
    else none
  | _ => none

/-- The key of an entry of the key share, if it is one for x25519. -/
def x25519? (e : Entry) : Option Key :=
  if h : e.type = 0x001D ∧ e.data.length = 32 then some ⟨e.data, h.2⟩ else none

/-- The first key for x25519 in the data of a key share extension. -/
def keyShare : List UInt8 → Option Key
  | l0 :: l1 :: rest => (entries (min (ofBE [l0, l1]) rest.length) rest).findSome? x25519?
  | _ => none

/-- What is known after an extension. -/
def update (known : Option Text × Option Key) (e : Entry) : Option Text × Option Key :=
  if e.type = 0x0000 then (hostName e.data, known.2)
  else if e.type = 0x0033 then (known.1, keyShare e.data)
  else known

/-- What is known after all extensions. -/
def found (es : List Entry) : Option Text × Option Key := es.foldl update (none, none)

/-- The extensions, with the length of their block in front. -/
def extensions : List UInt8 → List Entry
  | e0 :: e1 :: rest => entries (ofBE [e0, e1]) rest
  | _ => []

/-- A block that ends behind its length has no extensions. -/
theorem extensions_of_length_le {block : List UInt8} (h : block.length ≤ 2) :
    extensions block = [] := by
  unfold extensions
  split
  · simp only [List.length_cons] at h
    exact entries_of_length_lt _ (by omega)
  · rfl

/-- A number of two bytes is read. -/
theorem u16_cons (a b : UInt8) (rest : List UInt8) :
    Fogged.Native.ClientHello.u16 (a :: b :: rest) = pure (ofBE [a, b], rest) := by
  have hslice : (slice 2 (a :: b :: rest) : Parse _) = pure ([a, b], rest) := slice_append rfl rfl
  rw [Fogged.Native.ClientHello.u16, hslice]
  rfl

/-- A number that was written in two bytes. -/
theorem u16_append {n : Nat} (h : n < 2 ^ 16) (rest : List UInt8) :
    Fogged.Native.ClientHello.u16 (toBE 2 n ++ rest) = pure (n, rest) := by
  have hslice : (slice 2 (toBE 2 n ++ rest) : Parse _) = pure (toBE 2 n, rest) :=
    slice_append (Bytes.length_toBE 2 n) rfl
  rw [Fogged.Native.ClientHello.u16, hslice, pure_bind]
  dsimp only
  rw [Bytes.ofBE_toBE (k := 2) h]

/-- The parser of an SNI extension, in terms of its data. -/
theorem parseSni_eq (data : List UInt8) : parseSni data = pure (hostName data) := by
  match data with
  | [] | [_] | [_, _] | [_, _, _] | [_, _, _, _] => rfl
  | l0 :: l1 :: nameType :: n0 :: n1 :: rest =>
    rw [parseSni, if_neg (by simp), hostName]
    simp only [u16_cons, pure_bind, slice_one]
    -- only a host name is taken, and only if it is complete
    by_cases htype : nameType = 0
    · rw [if_neg (by simp [htype])]
      by_cases hlen : ofBE [n0, n1] ≤ rest.length
      · rw [if_neg (by simp only [List.length_cons]; omega), slice_of_le hlen, pure_bind]
        simp only [htype, hlen, true_and]
      · rw [if_pos (by simp only [List.length_cons]; omega), if_neg fun h => hlen h.2.1]
    · rw [if_pos (by simpa using htype), if_neg fun h => htype h.1]

/-- The loop over the entries of the key share. -/
theorem keyShareLoop_eq {fuel left : Nat} {rest : List UInt8} (hleft : left ≤ rest.length)
    (hfuel : rest.length < fuel) :
    keyShareLoop fuel left rest = pure ((entries left rest).findSome? x25519?) := by
  induction fuel generalizing left rest with
  | zero => omega
  | succ fuel ih =>
    rw [keyShareLoop]
    by_cases hroom : 4 ≤ left
    · match rest with
      | [] | [_] | [_, _] | [_, _, _] =>
        simp only [List.length_cons, List.length_nil] at hleft
        omega
      | t0 :: t1 :: l0 :: l1 :: rest =>
        simp only [List.length_cons] at hleft hfuel
        rw [if_pos hroom, entries]
        simp only [u16_cons, pure_bind]
        -- the entry is there, or cut by the end of the data
        by_cases hlen : ofBE [l0, l1] ≤ rest.length
        · rw [if_neg (by omega), if_pos ⟨hroom, hlen⟩, slice_of_le hlen, pure_bind]
          dsimp only
          by_cases hkey : ofBE [t0, t1] = 0x001D ∧ (rest.take (ofBE [l0, l1])).length = 32
          · rw [dif_pos hkey, List.findSome?_cons, x25519?, dif_pos hkey]
          · -- another group, or a key of another length: the loop goes on
            rw [dif_neg hkey, List.findSome?_cons, x25519?, dif_neg hkey]
            exact ih (by rw [List.length_drop]; omega) (by rw [List.length_drop]; omega)
        · rw [if_pos (by omega), if_neg fun h => hlen h.2]
          rfl
    · rw [if_neg hroom, entries_of_lt (by omega)]
      rfl

/-- The parser of a key share: the loop over the entries, with the data as its end. -/
theorem parseKeyShare_eq (data : List UInt8) : parseKeyShare data = pure (keyShare data) := by
  match data with
  | [] | [_] => rfl
  | l0 :: l1 :: rest =>
    rw [parseKeyShare, if_neg (by simp), keyShare]
    simp only [u16_cons, pure_bind]
    exact keyShareLoop_eq (Nat.min_le_right _ _) (by simp only [List.length_cons]; omega)

/-- The loop over the extensions. -/
theorem extensionLoop_eq {fuel left : Nat} {rest : List UInt8} (hfuel : rest.length < fuel)
    (sni : Option Text) (key : Option Key) :
    extensionLoop fuel left rest sni key = pure ((entries left rest).foldl update (sni, key)) := by
  induction fuel generalizing left rest sni key with
  | zero => omega
  | succ fuel ih =>
    rw [extensionLoop]
    by_cases hroom : 4 ≤ left ∧ 4 ≤ rest.length
    · match rest with
      | [] | [_] | [_, _] | [_, _, _] =>
        simp only [List.length_cons, List.length_nil] at hroom
        omega
      | t0 :: t1 :: l0 :: l1 :: rest =>
        simp only [List.length_cons] at hfuel
        rw [if_pos hroom, entries]
        simp only [u16_cons, pure_bind]
        -- type and length are there; the body may be cut
        by_cases hlen : ofBE [l0, l1] ≤ rest.length
        · have hrest : (rest.drop (ofBE [l0, l1])).length < fuel := by
            rw [List.length_drop]
            omega
          rw [if_neg (by omega), if_pos ⟨hroom.1, hlen⟩, slice_of_le hlen, pure_bind,
            List.foldl_cons]
          dsimp only
          -- the three arms of the `match` on the type
          rw [update]
          dsimp only
          split
          · rename_i htype
            rw [if_pos htype, parseSni_eq, pure_bind]
            exact ih hrest _ _
          · rename_i htype
            rw [if_neg (by rw [htype]; decide), if_pos htype, parseKeyShare_eq, pure_bind]
            exact ih hrest _ _
          · rename_i hsni hkey
            rw [if_neg hsni, if_neg hkey]
            exact ih hrest _ _
        · -- cut: the loop breaks, and there is no entry
          rw [if_pos (by omega), if_neg fun h => hlen h.2]
          rfl
    · rw [if_neg hroom]
      by_cases hleft : 4 ≤ left
      · rw [entries_of_length_lt left (by omega)]
        rfl
      · rw [entries_of_lt (by omega)]
        rfl

/-! ## Behind the session id -/

/-- What follows the session id. -/
structure Tail where
  /-- Two bytes each. -/
  suites : List UInt8
  suites_even : suites.length % 2 = 0
  suites_lt : suites.length < 2 ^ 16
  compLen : UInt8
  /-- Compression methods and extensions. -/
  rest : List UInt8

namespace Tail

def bytes (t : Tail) : List UInt8 := toBE 2 t.suites.length ++ (t.suites ++ t.compLen :: t.rest)

/-- The block of extensions, with its length in front. -/
def block (t : Tail) : List UInt8 := t.rest.drop t.compLen.toNat

/-- From the cipher suites to the extensions. -/
theorem parseAfterSessionId_bytes (t : Tail) :
    parseAfterSessionId t.bytes = pure (cipherSuites t.suites, found (extensions t.block)) := by
  have hcsLen : Fogged.Native.ClientHello.u16 t.bytes =
      pure (t.suites.length, t.suites ++ t.compLen :: t.rest) := u16_append t.suites_lt _
  have hsuites : (slice t.suites.length (t.suites ++ t.compLen :: t.rest) : Parse _) =
      pure (t.suites, t.compLen :: t.rest) := slice_append rfl rfl
  rw [parseAfterSessionId, ensure_of _ (by simp [bytes])]
  simp only [pure_bind, hcsLen]
  rw [ensure_of _ ⟨by simp, t.suites_even⟩]
  simp only [pure_bind, hsuites]
  rw [ensure_of _ (by simp)]
  simp only [pure_bind, slice_one, Bytes.ofBE_singleton]
  rw [show t.rest.drop t.compLen.toNat = t.block from rfl]
  -- the extensions are optional
  by_cases hlong : 2 < t.block.length
  · obtain ⟨e0, e1, hblock⟩ : ∃ e0 e1, t.block = e0 :: e1 :: t.block.drop 2 :=
      ⟨t.block[0], t.block[1], by
        rw [List.getElem_cons_drop, List.getElem_cons_drop, List.drop_zero]⟩
    rw [if_pos hlong, hblock, extensions, found]
    simp only [u16_cons, pure_bind]
    rw [extensionLoop_eq (Nat.lt_succ_self _), pure_bind]
  · rw [if_neg hlong, extensions_of_length_le (by omega)]
    rfl

end Tail

/-- What is accepted behind the session id has its parts in place. -/
theorem exists_tail {rest : List UInt8} {r : List UInt16 × Option Text × Option Key}
    (h : (parseAfterSessionId rest).run = .ret (.ok r)) : ∃ t : Tail, rest = t.bytes := by
  simp only [parseAfterSessionId, Fogged.Native.ClientHello.u16, bind_assoc, pure_bind,
    run_bind_eq_ok, run_ensure_eq_ok, run_slice_eq_ok, Prod.exists] at h
  obtain ⟨-, -, csLen, afterLen, ⟨hcsLen, hrest⟩, -, ⟨-, heven⟩, suites, afterSuites,
    ⟨hsuites, hafterLen⟩, -, -, compLen, tail, ⟨hcompLen, hafterSuites⟩, -⟩ := h
  obtain ⟨b, rfl⟩ := List.length_eq_one_iff.1 hcompLen
  have hlt : ofBE csLen < 2 ^ 16 := by simpa [hcsLen] using Bytes.ofBE_lt csLen
  -- the length that was sent is the length of the suites
  have hbytes : toBE 2 suites.length = csLen := by
    rw [hsuites, ← hcsLen, Bytes.toBE_ofBE]
  refine ⟨⟨suites, by rw [hsuites]; exact heven, by rw [hsuites]; exact hlt, b, tail⟩, ?_⟩
  show rest = toBE 2 suites.length ++ (suites ++ b :: tail)
  rw [hbytes, hrest, hafterLen, hafterSuites]
  rfl

/-! ## Well-formed messages -/

/-- An extension. -/
inductive Extension where
  /-- A host name, with other names behind it. -/
  | serverName (name more : List UInt8) (valid : Bytes.validUtf8 name = true)
      (length_lt : 5 + name.length + more.length < 2 ^ 16)
  /-- Keys, each with its group as the type. -/
  | keyShare (keys : List Entry) (length_lt : 2 + size keys < 2 ^ 16)
  | other (e : Entry) (type_ne : e.type ≠ 0x0000 ∧ e.type ≠ 0x0033)

namespace Extension

/-- The extension on the wire. -/
def entry : Extension → Entry
  | serverName name more _ h =>
    { type := 0x0000
      data := toBE 2 (3 + name.length + more.length) ++ [0] ++ toBE 2 name.length ++ name ++ more
      type_lt := by decide
      length_lt := by
        simp only [List.length_append, Bytes.length_toBE, List.length_singleton]
        omega }
  | keyShare keys h =>
    { type := 0x0033
      data := toBE 2 (size keys) ++ encode keys
      type_lt := by decide
      length_lt := by
        rw [List.length_append, Bytes.length_toBE, length_encode]
        exact h }
  | other e _ => e

def serverName? : Extension → Option Text
  | serverName name _ _ _ => some name
  | _ => none

def keyShare? : Extension → Option (List Entry)
  | keyShare keys _ => some keys
  | _ => none

end Extension

/-- A well-formed ClientHello. -/
structure Hello where
  version : List.Vector UInt8 2
  random : List.Vector UInt8 32
  sessionId : List UInt8
  suites : List UInt16
  compression : List UInt8
  extensions : List Extension
  sessionId_le : sessionId.length ≤ 255
  suites_lt : 2 * suites.length < 2 ^ 16
  compression_le : compression.length ≤ 255
  extensions_lt : size (extensions.map Extension.entry) < 2 ^ 16
  serverName_le : (extensions.filterMap Extension.serverName?).length ≤ 1
  keyShare_le : (extensions.filterMap Extension.keyShare?).length ≤ 1

namespace Hello

/-- The body of the message, of a length that fits three bytes. -/
def body (h : Hello) : List UInt8 :=
  h.version.toList ++ h.random.toList ++ toBE 1 h.sessionId.length ++ h.sessionId ++
    (toBE 2 (2 * h.suites.length) ++ h.suites.flatMap (fun s => toBE 2 s.toNat) ++
      toBE 1 h.compression.length ++ h.compression ++
      toBE 2 (size (h.extensions.map Extension.entry)) ++
      encode (h.extensions.map Extension.entry))

/-- The handshake message. -/
def bytes (h : Hello) : List UInt8 := [0x01] ++ toBE 3 h.body.length ++ h.body

/-- The host name. -/
def sni (h : Hello) : Option Text := (h.extensions.filterMap Extension.serverName?).head?

/-- The first key for x25519. -/
def x25519Key (h : Hello) : Option Key :=
  (h.extensions.filterMap Extension.keyShare?).flatten.findSome? x25519?

end Hello

/-- The cipher suites are recovered. -/
theorem cipherSuites_flatMap (suites : List UInt16) :
    cipherSuites (suites.flatMap fun s => toBE 2 s.toNat) = suites := by
  induction suites with
  | nil => rfl
  | cons s suites ih =>
    obtain ⟨a, b, hab, hofBE⟩ := Bytes.exists_toBE_two s.toNat_lt
    rw [List.flatMap_cons, hab, List.cons_append, List.cons_append, List.nil_append, cipherSuites,
      hofBE, UInt16.ofNat_toNat, ih]

/-- Each cipher suite takes two bytes. -/
theorem length_flatMap_toBE (suites : List UInt16) :
    (suites.flatMap fun s => toBE 2 s.toNat).length = 2 * suites.length := by
  rw [List.length_flatMap]
  simp [Nat.mul_comm]

/-! ## Recovering a well-formed message -/

/-- The host name of an SNI extension is recovered. -/
theorem hostName_serverName {name : List UInt8} (hvalid : Bytes.validUtf8 name = true)
    (hlength : name.length < 2 ^ 16) (list : Nat) (more : List UInt8) :
    hostName (toBE 2 list ++ [0] ++ toBE 2 name.length ++ name ++ more) = some name := by
  obtain ⟨l0, l1, hl⟩ : ∃ l0 l1, toBE 2 list = [l0, l1] := ⟨_, _, rfl⟩
  obtain ⟨n0, n1, hn, hofBE⟩ := Bytes.exists_toBE_two hlength
  have hdata : toBE 2 list ++ [0] ++ toBE 2 name.length ++ name ++ more =
      l0 :: l1 :: 0 :: n0 :: n1 :: (name ++ more) := by
    simp [hl, hn]
  rw [hdata, hostName, hofBE, List.take_left, if_pos ⟨rfl, by simp, hvalid⟩]

/-- The first x25519 key of a key share is recovered. -/
theorem keyShare_encode (keys : List Entry) (hlength : size keys < 2 ^ 16) :
    keyShare (toBE 2 (size keys) ++ encode keys) = keys.findSome? x25519? := by
  obtain ⟨l0, l1, hl, hofBE⟩ := Bytes.exists_toBE_two hlength
  have hkeys := entries_encode keys []
  rw [List.append_nil] at hkeys
  rw [hl]
  show (entries (min (ofBE [l0, l1]) (encode keys).length) (encode keys)).findSome? x25519? = _
  rw [hofBE, length_encode, Nat.min_self, hkeys]

/-- What is known after an extension that is well formed. -/
theorem update_entry (known : Option Text × Option Key) (e : Extension) :
    update known e.entry =
      (e.serverName?.or known.1, (e.keyShare?.map (·.findSome? x25519?)).getD known.2) := by
  cases e with
  | serverName name more hvalid hlength =>
    have hname := hostName_serverName hvalid (by omega) (3 + name.length + more.length) more
    exact (if_pos rfl).trans (congrArg (·, known.2) hname)
  | keyShare keys hlength =>
    have hkeys := keyShare_encode keys (by omega)
    have htype : ¬ (Extension.keyShare keys hlength).entry.type = 0x0000 := by
      show ¬ 0x0033 = 0x0000
      decide
    exact (if_neg htype).trans ((if_pos rfl).trans (congrArg (known.1, ·) hkeys))
  -- any other extension changes nothing
  | other e htype =>
    exact (if_neg htype.1).trans (if_neg htype.2)

/-- The last value of a list, or else the first element's. -/
theorem getLast?_filterMap_cons {α β : Type} (f : α → Option β) (a : α) (l : List α) :
    ((a :: l).filterMap f).getLast? = ((l.filterMap f).getLast?).or (f a) := by
  cases h : f a with
  | none => rw [List.filterMap_cons_none h, Option.or_none]
  | some b =>
    rw [List.filterMap_cons_some h, List.getLast?_cons]
    cases (l.filterMap f).getLast? <;> rfl

/-- What is known after the extensions: the last of each kind. -/
theorem foldl_update_entry (exts : List Extension) (known : Option Text × Option Key) :
    (exts.map Extension.entry).foldl update known =
      (((exts.filterMap Extension.serverName?).getLast?).or known.1,
        (((exts.filterMap Extension.keyShare?).getLast?).map (·.findSome? x25519?)).getD
          known.2) := by
  induction exts generalizing known with
  | nil => rfl
  | cons e exts ih =>
    rw [List.map_cons, List.foldl_cons, ih, update_entry, getLast?_filterMap_cons,
      getLast?_filterMap_cons, Option.or_assoc]
    cases (exts.filterMap Extension.keyShare?).getLast? <;> rfl

/-- Where there is one at most, the last is the first. -/
theorem getLast?_eq_head? {α : Type} {l : List α} (h : l.length ≤ 1) : l.getLast? = l.head? := by
  match l with
  | [] | [_] => rfl
  | _ :: _ :: _ =>
    simp only [List.length_cons] at h
    omega

namespace Hello

/-- A well-formed message has one SNI and one key share at most, so that first and last are the
    same. -/
theorem found_extensions (h : Hello) :
    found (h.extensions.map Extension.entry) = (h.sni, h.x25519Key) := by
  rw [found, foldl_update_entry, Option.or_none, getLast?_eq_head? h.serverName_le,
    getLast?_eq_head? h.keyShare_le, sni, x25519Key]
  have hone := h.keyShare_le
  generalize h.extensions.filterMap Extension.keyShare? = shares at hone
  match shares with
  | [] => rfl
  | [keys] => simp
  | _ :: _ :: _ =>
    simp only [List.length_cons] at hone
    omega

/-- What follows the session id. -/
def tail (h : Hello) : Tail where
  suites := h.suites.flatMap fun s => toBE 2 s.toNat
  suites_even := by rw [length_flatMap_toBE]; omega
  suites_lt := by rw [length_flatMap_toBE]; exact h.suites_lt
  compLen := UInt8.ofNat h.compression.length
  rest := h.compression ++ (toBE 2 (size (h.extensions.map Extension.entry)) ++
    encode (h.extensions.map Extension.entry))

/-- The extensions of a message are recovered. -/
theorem extensions_tail (h : Hello) :
    Fogged.Spec.ClientHello.extensions h.tail.block = h.extensions.map Extension.entry := by
  have hcomp : (UInt8.ofNat h.compression.length).toNat = h.compression.length :=
    UInt8.toNat_ofNat_of_lt' (Nat.lt_succ_of_le h.compression_le)
  obtain ⟨e0, e1, he, hofBE⟩ := Bytes.exists_toBE_two h.extensions_lt
  have hblock : h.tail.block = e0 :: e1 :: encode (h.extensions.map Extension.entry) := by
    simp [Tail.block, tail, hcomp, he]
  have hentries := entries_encode (h.extensions.map Extension.entry) []
  rw [List.append_nil] at hentries
  rw [hblock, Fogged.Spec.ClientHello.extensions, hofBE, hentries]

/-- The message as a layout. -/
def layout (h : Hello) : Layout where
  version := h.version
  random := h.random
  sessionId := h.sessionId
  rest := h.tail.bytes
  sessionId_lt := Nat.lt_succ_of_le h.sessionId_le
  body_lt := by
    have := h.sessionId_le
    have := h.compression_le
    have := h.suites_lt
    have := h.extensions_lt
    simp only [Tail.bytes, tail, List.length_append, List.length_cons, Bytes.length_toBE,
      length_flatMap_toBE, length_encode]
    omega

/-- A message in the layout of the parser. -/
theorem bytes_layout (h : Hello) : h.layout.bytes = h.bytes := by
  have hbody : h.layout.body = h.body := by
    have hcomp : toBE 1 h.compression.length = [UInt8.ofNat h.compression.length] := rfl
    simp only [Layout.body, Layout.front, layout, Tail.bytes, tail, body, length_flatMap_toBE,
      hcomp, List.append_assoc, List.cons_append, List.nil_append]
  rw [Layout.bytes, bytes, hbody]

end Hello

/-- **A well-formed ClientHello is recovered** from its bytes, whatever follows them. -/
theorem hello_recovered (h : Hello) (trailing : List UInt8) :
    (parseClientHello (h.bytes ++ trailing)).run =
      .ret (.ok
        { raw := h.bytes
          random := h.random
          sessionId := h.sessionId
          sessionIdOffset := sessionIdOffset
          sni := h.sni
          x25519Key := h.x25519Key
          cipherSuites := h.suites }) := by
  -- behind the session id: suites, then what the extensions say
  have htail : (parseAfterSessionId h.layout.rest).run =
      .ret (.ok (h.suites, h.sni, h.x25519Key)) := by
    show (parseAfterSessionId h.tail.bytes).run = _
    rw [h.tail.parseAfterSessionId_bytes, h.extensions_tail, h.found_extensions]
    show Outcome.ret (Except.ok (cipherSuites (h.suites.flatMap _), _)) = _
    rw [cipherSuites_flatMap]
  rw [← h.bytes_layout, parseClientHello_layout h.layout trailing htail]
  rfl

end Fogged.Spec.ClientHello
