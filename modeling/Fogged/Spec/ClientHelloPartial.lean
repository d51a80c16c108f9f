import Mathlib.Data.List.GetD
import Fogged.Spec.ClientHelloCorrect

/-!
# Extensions of which the front is known

The front of an extension is given, and behind it `m` bytes that may be anything. Do they
matter? For a host name and for a key share this can be told from the front: a name whose
bytes reach behind it and can still become a text, a key for x25519 that can end behind it.

## Key results

- `varies_hostName_iff`: when the host name depends on the bytes behind
- `varies_keyShare_iff`: when the key does
-/

namespace Fogged.Spec.ClientHello

open Fogged.Native.Handshake Fogged.Native.ClientHello
open Tlv
open Bytes (ofBE toBE validUtf8)

/-- The value depends on the `m` bytes behind `known`. -/
def Varies {α : Type} (f : List UInt8 → α) (known : List UInt8) (m : Nat) : Prop :=
  ∃ a b, a.length = m ∧ b.length = m ∧ f (known ++ a) ≠ f (known ++ b)

/-- Then it can differ from what is there. -/
theorem Varies.exists_ne {α : Type} {f : List UInt8 → α} {known : List UInt8} {m : Nat}
    (h : Varies f known m) (v : α) : ∃ a, a.length = m ∧ f (known ++ a) ≠ v := by
  obtain ⟨a, b, ha, hb, hne⟩ := h
  by_cases hv : f (known ++ a) = v
  · exact ⟨b, hb, fun hb' => hne (hv.trans hb'.symm)⟩
  · exact ⟨a, ha, hv⟩

/-! ## Host names -/

/-- A host name can end in the `m` bytes behind `known`. Either its length is known, it
    ends there, and its first bytes can be completed to a text; or its length is not known,
    and the least one that it can have is not too long. -/
def NameOpen (m : Nat) : List UInt8 → Prop
  | _ :: _ :: nameType :: n0 :: n1 :: name =>
    nameType = 0 ∧ name.length < ofBE [n0, n1] ∧ ofBE [n0, n1] ≤ name.length + m ∧
      ∃ fill, name.length + fill.length = ofBE [n0, n1] ∧ validUtf8 (name ++ fill) = true
  | known => known.getD 2 0 = 0 ∧ 5 + 256 * (known.getD 3 0).toNat ≤ known.length + m

/-- A header that is cut, with zeros for the bytes that are not known. -/
theorem nameOpen_of_lt {known : List UInt8} (h : known.length < 5) (m : Nat) :
    NameOpen m known ↔
      known.getD 2 0 = 0 ∧ 5 + 256 * (known.getD 3 0).toNat ≤ known.length + m := by
  match known with
  | [] | [_] | [_, _] | [_, _, _] | [_, _, _, _] => exact Iff.rfl
  | _ :: _ :: _ :: _ :: _ :: _ =>
    simp only [List.length_cons] at h
    omega

/-- What a name is read from. -/
theorem hostName_eq_some {data name : List UInt8} (h : hostName data = some name) :
    ∃ l0 l1 n0 n1 rest, data = l0 :: l1 :: 0 :: n0 :: n1 :: rest ∧
      ofBE [n0, n1] ≤ rest.length ∧ name = rest.take (ofBE [n0, n1]) ∧ validUtf8 name = true := by
  unfold hostName at h
  split at h
  · rename_i l0 l1 nameType n0 n1 rest
    split at h
    · rename_i hc
      obtain ⟨rfl, hlen, hvalid⟩ := hc
      cases h
      exact ⟨l0, l1, n0, n1, rest, rfl, hlen, rfl, hvalid⟩
    · cases h
  · cases h

/-- The value of two bytes. -/
theorem ofBE_pair (a b : UInt8) : ofBE [a, b] = 256 * a.toNat + b.toNat := by
  simp [ofBE]

/-- The number of bytes that a name takes with what stands in front of it. -/
theorem le_of_hostName {data name : List UInt8} (h : hostName data = some name) :
    data.getD 2 0 = 0 ∧ 5 + 256 * (data.getD 3 0).toNat ≤ data.length := by
  obtain ⟨l0, l1, n0, n1, rest, rfl, hlen, -, -⟩ := hostName_eq_some h
  rw [ofBE_pair] at hlen
  refine ⟨rfl, ?_⟩
  simp only [List.getD_cons_succ, List.getD_cons_zero, List.length_cons]
  omega

/-- A byte that is not known counts as 0. -/
theorem toNat_getD_le (known a : List UInt8) (i : Nat) :
    (known.getD i 0).toNat ≤ ((known ++ a).getD i 0).toNat := by
  by_cases hi : i < known.length
  · rw [List.getD_append _ _ _ _ hi]
  · rw [List.getD_eq_default _ _ (by omega)]
    exact Nat.zero_le _

/-- A header that is cut: the type is another one, or there are too few bytes. -/
theorem hostName_eq_none {known : List UInt8} {m : Nat} (hlength : known.length < 5)
    (h : ¬ NameOpen m known) {a : List UInt8} (ha : a.length = m) :
    hostName (known ++ a) = none := by
  refine Option.eq_none_iff_forall_ne_some.2 fun name hname => ?_
  obtain ⟨htype, hlen⟩ := le_of_hostName hname
  have htypeLe := toNat_getD_le known a 2
  have hlenLe := toNat_getD_le known a 3
  rw [htype] at htypeLe
  rw [List.length_append, ha] at hlen
  refine h ((nameOpen_of_lt hlength m).2 ⟨UInt8.toNat_inj.1 (Nat.le_zero.1 htypeLe), by omega⟩)

/-- If no name can end there, the bytes behind do not matter. -/
theorem hostName_congr {known : List UInt8} {m : Nat} (h : ¬ NameOpen m known) {a b : List UInt8}
    (ha : a.length = m) (hb : b.length = m) : hostName (known ++ a) = hostName (known ++ b) := by
  match known with
  | l0 :: l1 :: nameType :: n0 :: n1 :: name =>
    simp only [List.cons_append, hostName]
    by_cases hinside : ofBE [n0, n1] ≤ name.length
    · -- the name is known
      rw [List.take_append_of_le_length hinside, List.take_append_of_le_length hinside]
      simp only [List.length_append, ha, hb]
    · -- the name would end behind, and cannot become a text
      have hnone (c : List UInt8) (hc : c.length = m) : ¬ (nameType = 0 ∧
          ofBE [n0, n1] ≤ (name ++ c).length ∧
            validUtf8 ((name ++ c).take (ofBE [n0, n1])) = true) := by
        rintro ⟨htype, hlen, hvalid⟩
        rw [List.length_append, hc] at hlen
        rw [List.take_append, List.take_of_length_le (by omega)] at hvalid
        refine h ⟨htype, by omega, hlen, c.take (ofBE [n0, n1] - name.length), ?_, hvalid⟩
        rw [List.length_take]
        omega
      rw [if_neg (hnone a ha), if_neg (hnone b hb)]
  | [] | [_] | [_, _] | [_, _, _] | [_, _, _, _] =>
    rw [hostName_eq_none (by simp) h ha, hostName_eq_none (by simp) h hb]

/-- A header that is not all known can be completed. -/
theorem exists_header_fill {known : List UInt8} (h : known.length < 5)
    (htype : known.getD 2 0 = 0) :
    ∃ l0 l1, ∃ fill, known ++ fill = [l0, l1, 0, known.getD 3 0] := by
  match known with
  | [] => exact ⟨0, 0, [0, 0, 0, 0], rfl⟩
  | [l0] => exact ⟨l0, 0, [0, 0, 0], rfl⟩
  | [l0, l1] => exact ⟨l0, l1, [0, 0], rfl⟩
  | [l0, l1, t] => exact ⟨l0, l1, [0], by simp_all⟩
  | [l0, l1, t, n0] => exact ⟨l0, l1, [], by simp_all⟩
  | _ :: _ :: _ :: _ :: _ :: _ =>
    simp only [List.length_cons] at h
    omega

/-- A host name of letters. -/
theorem hostName_replicate (l0 l1 n0 n1 : UInt8) (k : Nat) :
    hostName (l0 :: l1 :: 0 :: n0 :: n1 :: List.replicate k 0x61) =
      if ofBE [n0, n1] ≤ k then some (List.replicate (ofBE [n0, n1]) 0x61) else none := by
  rw [hostName]
  by_cases hle : ofBE [n0, n1] ≤ k
  · rw [if_pos hle, List.take_replicate, Nat.min_eq_left hle,
      if_pos ⟨rfl, by rwa [List.length_replicate], Bytes.validUtf8_replicate _⟩]
  · rw [if_neg hle, if_neg]
    rw [List.length_replicate]
    exact fun h => hle h.2.1

/-- A header that is cut: it can be completed for two names of different lengths. -/
theorem varies_hostName_of_lt {known : List UInt8} {m : Nat} (hlength : known.length < 5)
    (h : NameOpen m known) : Varies hostName known m := by
  obtain ⟨htype, hle⟩ := (nameOpen_of_lt hlength m).1 h
  obtain ⟨l0, l1, fill, hfill⟩ := exists_header_fill hlength htype
  have hfillLen : known.length + fill.length = 4 := by
    rw [← List.length_append, hfill]
    rfl
  -- the known bytes, completed to a name of `a`s
  have hdata (c : UInt8) (k : Nat) : known ++ (fill ++ c :: List.replicate k 0x61) =
      l0 :: l1 :: 0 :: known.getD 3 0 :: c :: List.replicate k 0x61 := by
    rw [← List.append_assoc, hfill]
    rfl
  have hlen (c : UInt8) :
      (fill ++ c :: List.replicate (known.length + m - 5) (0x61 : UInt8)).length = m := by
    rw [List.length_append, List.length_cons, List.length_replicate]
    omega
  -- the last byte of the length is 0 or 1
  refine ⟨_, _, hlen 0, hlen 1, ?_⟩
  rw [hdata, hdata, hostName_replicate, hostName_replicate, ofBE_pair, ofBE_pair,
    if_pos (by simp only [UInt8.toNat_zero]; omega)]
  split
  · intro heq
    have hlengths := congrArg List.length (Option.some.inj heq)
    simp only [List.length_replicate, UInt8.toNat_zero, UInt8.toNat_one] at hlengths
    omega
  · exact Option.some_ne_none _

/-- If a name can end there, its last byte can be one of two. -/
theorem varies_hostName {known : List UInt8} {m : Nat} (h : NameOpen m known) :
    Varies hostName known m := by
  match known with
  | l0 :: l1 :: nameType :: n0 :: n1 :: name =>
    -- the text, and bytes that are in no text
    obtain ⟨rfl, hlt, hle, fill, hfill, hvalid⟩ := h
    refine ⟨fill ++ List.replicate (m - fill.length) 0, List.replicate m 0xFF, ?_,
      List.length_replicate, ?_⟩
    · rw [List.length_append, List.length_replicate]
      omega
    · simp only [List.cons_append]
      rw [hostName, hostName, if_pos, if_neg]
      · exact Option.some_ne_none _
      · rintro ⟨-, -, hff⟩
        refine Bytes.ne_of_mem_validUtf8 hff 0xFF ?_ rfl
        rw [List.take_append, List.take_of_length_le (by omega), List.take_replicate]
        exact List.mem_append_right _ (List.mem_replicate.2 ⟨by omega, rfl⟩)
      · rw [← List.append_assoc, List.take_left' (by rw [List.length_append, hfill])]
        refine ⟨rfl, ?_, hvalid⟩
        rw [List.length_append, List.length_append]
        omega
  | [] | [_] | [_, _] | [_, _, _] | [_, _, _, _] => exact varies_hostName_of_lt (by simp) h

/-- **When the host name depends on the bytes behind.** -/
theorem varies_hostName_iff (known : List UInt8) (m : Nat) :
    Varies hostName known m ↔ NameOpen m known := by
  refine ⟨fun ⟨a, b, ha, hb, hne⟩ => ?_, varies_hostName⟩
  by_contra hopen
  exact hne (hostName_congr hopen ha hb)

/-! ## Keys -/

/-- The first key for x25519 in `left` bytes of entries. -/
def firstKey (left : Nat) (rest : List UInt8) : Option Key := (entries left rest).findSome? x25519?

/-- The header of an entry with a key for x25519. -/
def keyHeader : List UInt8 := [0x00, 0x1D, 0x00, 0x20]

/-- A key for x25519 can end in the `m` bytes behind `known`, with none in front of it. The
    entry that starts `known` is such a key; or another entry does, and the key is behind
    it. If its header is cut, the shortest other entry is one whose length has zeros for the
    bytes that are not known. -/
def KeyOpen (left m : Nat) : List UInt8 → Prop
  | t0 :: t1 :: l0 :: l1 :: known =>
    4 ≤ left ∧ ofBE [l0, l1] ≤ known.length + m ∧
      if ofBE [t0, t1] = 0x001D ∧ ofBE [l0, l1] = 32 then known.length < 32
      else KeyOpen (left - (4 + ofBE [l0, l1])) (m - (ofBE [l0, l1] - known.length))
        (known.drop (ofBE [l0, l1]))
  | known =>
    4 ≤ left ∧ (known <+: keyHeader ∧ 36 ≤ known.length + m ∨
      4 + (4 + 256 * (known.getD 2 0).toNat) ≤ left ∧
        36 + (4 + 256 * (known.getD 2 0).toNat) ≤ known.length + m)
termination_by known => known.length
decreasing_by
  simp only [List.length_drop, List.length_cons]
  omega

/-- A header that is cut, with zeros for the bytes that are not known. -/
theorem keyOpen_of_lt {known : List UInt8} (h : known.length < 4) (left m : Nat) :
    KeyOpen left m known ↔
      4 ≤ left ∧ (known <+: keyHeader ∧ 36 ≤ known.length + m ∨
        4 + (4 + 256 * (known.getD 2 0).toNat) ≤ left ∧
          36 + (4 + 256 * (known.getD 2 0).toNat) ≤ known.length + m) := by
  match known with
  | [] | [_] | [_, _] | [_, _, _] => rw [KeyOpen]; simp
  | _ :: _ :: _ :: _ :: _ =>
    simp only [List.length_cons] at h
    omega

section FirstKey

variable {left : Nat} {t0 t1 l0 l1 : UInt8} {rest : List UInt8}

/-- There is no room for the entry, or it is not all there. -/
theorem firstKey_of_stop (h : ¬ (4 ≤ left ∧ ofBE [l0, l1] ≤ rest.length)) :
    firstKey left (t0 :: t1 :: l0 :: l1 :: rest) = none := by
  rw [firstKey, entries, if_neg h]
  rfl

/-- The entry is a key for x25519. -/
theorem firstKey_of_key (rest : List UInt8) (hroom : 4 ≤ left) (hlen : 32 ≤ rest.length) :
    ∃ key : Key, firstKey left (keyHeader ++ rest) = some key ∧ key.toList = rest.take 32 := by
  have hkey : (rest.take (ofBE [0x00, 0x20])).length = 32 := by
    rw [List.length_take]
    exact Nat.min_eq_left hlen
  refine ⟨⟨_, hkey⟩, ?_, rfl⟩
  show firstKey left (0x00 :: 0x1D :: 0x00 :: 0x20 :: rest) = _
  rw [firstKey, entries, if_pos ⟨hroom, hlen⟩, List.findSome?_cons, x25519?, dif_pos ⟨rfl, hkey⟩]

/-- The entry is another one. -/
theorem firstKey_of_other (hroom : 4 ≤ left) (hlen : ofBE [l0, l1] ≤ rest.length)
    (hkey : ¬ (ofBE [t0, t1] = 0x001D ∧ ofBE [l0, l1] = 32)) :
    firstKey left (t0 :: t1 :: l0 :: l1 :: rest) =
      firstKey (left - (4 + ofBE [l0, l1])) (rest.drop (ofBE [l0, l1])) := by
  rw [firstKey, entries, if_pos ⟨hroom, hlen⟩, List.findSome?_cons, x25519?, dif_neg]
  · rfl
  · rwa [List.length_take, Nat.min_eq_left hlen]

/-- The bytes of the header, from its numbers. -/
theorem header_eq (h : ofBE [t0, t1] = 0x001D ∧ ofBE [l0, l1] = 32) :
    [t0, t1, l0, l1] = keyHeader := by
  have htype : toBE 2 (ofBE [t0, t1]) = [t0, t1] := Bytes.toBE_ofBE [t0, t1]
  have hlen : toBE 2 (ofBE [l0, l1]) = [l0, l1] := Bytes.toBE_ofBE [l0, l1]
  rw [h.1] at htype
  rw [h.2] at hlen
  show [t0, t1] ++ [l0, l1] = _
  rw [← htype, ← hlen]
  rfl

end FirstKey

/-- A key takes 36 bytes, and its header stands in the list. -/
theorem le_of_firstKey {left : Nat} {rest : List UInt8} (h : firstKey left rest ≠ none) :
    4 ≤ left ∧ 36 ≤ rest.length := by
  match rest with
  | [] | [_] | [_, _] | [_, _, _] =>
    rw [firstKey, entries_of_length_lt _ (by simp)] at h
    exact (h rfl).elim
  | t0 :: t1 :: l0 :: l1 :: rest =>
    by_cases hentry : 4 ≤ left ∧ ofBE [l0, l1] ≤ rest.length
    · refine ⟨hentry.1, ?_⟩
      -- the first entry is the key, or the key is behind it
      by_cases hkey : ofBE [t0, t1] = 0x001D ∧ ofBE [l0, l1] = 32
      · simp only [List.length_cons]
        omega
      · rw [firstKey_of_other hentry.1 hentry.2 hkey] at h
        have hrest := (le_of_firstKey h).2
        simp only [List.length_drop, List.length_cons] at hrest ⊢
        omega
    · exact (h (firstKey_of_stop hentry)).elim
termination_by rest.length
decreasing_by
  simp only [List.length_drop, List.length_cons]
  omega

/-- The header of an entry is four bytes. -/
theorem exists_four {l : List UInt8} (h : 4 ≤ l.length) :
    ∃ t0 t1 l0 l1 rest, l = t0 :: t1 :: l0 :: l1 :: rest := by
  match l with
  | [] | [_] | [_, _] | [_, _, _] => simp at h
  | t0 :: t1 :: l0 :: l1 :: rest => exact ⟨t0, t1, l0, l1, rest, rfl⟩

/-- A header that is cut: no key can stand here or behind. -/
theorem firstKey_eq_none {known : List UInt8} {left m : Nat} (hlength : known.length < 4)
    (h : ¬ KeyOpen left m known) {a : List UInt8} (ha : a.length = m) :
    firstKey left (known ++ a) = none := by
  -- a key would have to be the entry that is cut, or stand behind it
  by_contra hsome
  obtain ⟨hroom, htotal⟩ := le_of_firstKey hsome
  rw [List.length_append, ha] at htotal
  refine h ((keyOpen_of_lt hlength left m).2 ⟨hroom, ?_⟩)
  obtain ⟨t0, t1, l0, l1, rest, hdata⟩ := exists_four (l := known ++ a)
    (by rw [List.length_append]; omega)
  have hrest : known.length + m = rest.length + 4 := by
    rw [← ha, ← List.length_append, hdata]
    rfl
  rw [hdata] at hsome
  by_cases hentry : 4 ≤ left ∧ ofBE [l0, l1] ≤ rest.length
  · by_cases hkey : ofBE [t0, t1] = 0x001D ∧ ofBE [l0, l1] = 32
    · left
      refine ⟨?_, htotal⟩
      rw [← header_eq hkey]
      have hprefix : [t0, t1, l0, l1] <+: known ++ a := ⟨rest, hdata.symm⟩
      exact List.prefix_of_prefix_length_le (List.prefix_append known a) hprefix (by simp; omega)
    · right
      rw [firstKey_of_other hentry.1 hentry.2 hkey] at hsome
      have hbehind := le_of_firstKey hsome
      -- the entry that is cut is at least as long as what is known of its length says
      have hlen : (known.getD 2 0).toNat ≤ l0.toNat := by
        have := toNat_getD_le known a 2
        rwa [hdata] at this
      rw [List.length_drop, ofBE_pair] at hbehind
      omega
  · exact (hsome (firstKey_of_stop hentry)).elim

/-- If no key can end there, the bytes behind do not matter. -/
theorem firstKey_congr {known : List UInt8} {left m : Nat} (h : ¬ KeyOpen left m known)
    {a b : List UInt8} (ha : a.length = m) (hb : b.length = m) :
    firstKey left (known ++ a) = firstKey left (known ++ b) := by
  match known with
  | t0 :: t1 :: l0 :: l1 :: known =>
    rw [KeyOpen] at h
    simp only [List.cons_append]
    by_cases hentry : 4 ≤ left ∧ ofBE [l0, l1] ≤ known.length + m
    · have hlen (c : List UInt8) (hc : c.length = m) : ofBE [l0, l1] ≤ (known ++ c).length := by
        rw [List.length_append, hc]
        exact hentry.2
      by_cases hkey : ofBE [t0, t1] = 0x001D ∧ ofBE [l0, l1] = 32
      · -- the key is all known
        have hinside : 32 ≤ known.length := by
          by_contra hlt
          exact h ⟨hentry.1, hentry.2, by rw [if_pos hkey]; omega⟩
        have hsame (c : List UInt8) : (known ++ c).take 32 = known.take 32 :=
          List.take_append_of_le_length hinside
        obtain ⟨keyA, hkeyA, hlistA⟩ := firstKey_of_key (known ++ a) hentry.1
          (by rw [List.length_append]; omega)
        obtain ⟨keyB, hkeyB, hlistB⟩ := firstKey_of_key (known ++ b) hentry.1
          (by rw [List.length_append]; omega)
        rw [← header_eq hkey] at hkeyA hkeyB
        have hkeys : keyA = keyB := by
          apply List.Vector.toList_injective
          rw [hlistA, hlistB, hsame, hsame]
        exact hkeyA.trans ((congrArg some hkeys).trans hkeyB.symm)
      · -- another entry, which may be cut itself
        rw [firstKey_of_other hentry.1 (hlen a ha) hkey,
          firstKey_of_other hentry.1 (hlen b hb) hkey, List.drop_append, List.drop_append]
        refine firstKey_congr (fun hopen => h ⟨hentry.1, hentry.2, by rwa [if_neg hkey]⟩) ?_ ?_
        · rw [List.length_drop, ha]
        · rw [List.length_drop, hb]
    · rw [firstKey_of_stop (by rw [List.length_append, ha]; exact hentry),
        firstKey_of_stop (by rw [List.length_append, hb]; exact hentry)]
  | [] | [_] | [_, _] | [_, _, _] =>
    rw [firstKey_eq_none (by simp) h ha, firstKey_eq_none (by simp) h hb]
termination_by known.length
decreasing_by
  simp only [List.length_drop, List.length_cons]
  omega

/-- Some of the bytes behind can be chosen first. -/
theorem Varies.of_append {α : Type} {f : List UInt8 → α} {known : List UInt8} {m : Nat}
    (fill : List UInt8) (h : Varies f (known ++ fill) (m - fill.length)) (hle : fill.length ≤ m) :
    Varies f known m := by
  obtain ⟨a, b, ha, hb, hne⟩ := h
  refine ⟨fill ++ a, fill ++ b, ?_, ?_, ?_⟩
  · rw [List.length_append]
    omega
  · rw [List.length_append]
    omega
  · rwa [← List.append_assoc, ← List.append_assoc]

/-- A key that is cut. -/
theorem varies_key {left m : Nat} (key : List UInt8) (hroom : 4 ≤ left) (hcut : key.length < 32)
    (hlen : 32 ≤ key.length + m) : Varies (firstKey left) (keyHeader ++ key) m := by
  -- the key is completed with zeros or with ones
  have htake (c : UInt8) : (key ++ List.replicate m c).take 32 =
      key ++ List.replicate (32 - key.length) c := by
    rw [List.take_append, List.take_of_length_le (by omega), List.take_replicate,
      Nat.min_eq_left (by omega)]
  refine ⟨List.replicate m 0, List.replicate m 1, List.length_replicate, List.length_replicate, ?_⟩
  obtain ⟨key0, hkey0, hlist0⟩ := firstKey_of_key (key ++ List.replicate m 0) hroom
    (by rw [List.length_append, List.length_replicate]; exact hlen)
  obtain ⟨key1, hkey1, hlist1⟩ := firstKey_of_key (key ++ List.replicate m 1) hroom
    (by rw [List.length_append, List.length_replicate]; exact hlen)
  rw [List.append_assoc, List.append_assoc, hkey0, hkey1]
  intro heq
  have hlists := congrArg List.Vector.toList (Option.some.inj heq)
  rw [hlist0, hlist1, htake, htake] at hlists
  have hbytes := List.append_cancel_left hlists
  -- at least one byte is missing, so the two keys differ in it
  obtain ⟨n, hn⟩ : ∃ n, 32 - key.length = n + 1 := ⟨31 - key.length, by omega⟩
  rw [hn, List.replicate_succ, List.replicate_succ] at hbytes
  exact absurd (List.cons.inj hbytes).1 (by decide)

/-- An entry whose header is known, and what varies behind it. -/
theorem varies_other {left m : Nat} {t0 t1 l0 l1 : UInt8} {known : List UInt8} (hroom : 4 ≤ left)
    (hlen : ofBE [l0, l1] ≤ known.length + m)
    (hkey : ¬ (ofBE [t0, t1] = 0x001D ∧ ofBE [l0, l1] = 32))
    (h : Varies (firstKey (left - (4 + ofBE [l0, l1]))) (known.drop (ofBE [l0, l1]))
      (m - (ofBE [l0, l1] - known.length))) :
    Varies (firstKey left) (t0 :: t1 :: l0 :: l1 :: known) m := by
  obtain ⟨a, b, ha, hb, hne⟩ := h
  -- the rest of the entry is filled with zeros
  have hfirst (c : List UInt8) (hc : c.length = m - (ofBE [l0, l1] - known.length)) :
      firstKey left (t0 :: t1 :: l0 :: l1 ::
        (known ++ (List.replicate (ofBE [l0, l1] - known.length) 0 ++ c))) =
      firstKey (left - (4 + ofBE [l0, l1])) (known.drop (ofBE [l0, l1]) ++ c) := by
    rw [firstKey_of_other hroom _ hkey, List.drop_append, List.drop_left' List.length_replicate]
    simp only [List.length_append, List.length_replicate]
    omega
  have hlength (c : List UInt8) (hc : c.length = m - (ofBE [l0, l1] - known.length)) :
      (List.replicate (ofBE [l0, l1] - known.length) 0 ++ c).length = m := by
    rw [List.length_append, List.length_replicate]
    omega
  refine ⟨_, _, hlength a ha, hlength b hb, ?_⟩
  simp only [List.cons_append]
  rwa [hfirst a ha, hfirst b hb]

/-- A header that is cut and can be completed to that of a key. -/
theorem varies_key_of_isPrefix {left m : Nat} {known : List UInt8} (hroom : 4 ≤ left)
    (h : known <+: keyHeader) (hlen : 36 ≤ known.length + m) : Varies (firstKey left) known m := by
  obtain ⟨fill, hfill⟩ := h
  have hfillLen : known.length + fill.length = 4 := by
    rw [← List.length_append, hfill]
    rfl
  refine Varies.of_append fill ?_ (by omega)
  have hcut := varies_key (m := m - fill.length) [] hroom (by simp) (by simp; omega)
  rwa [List.append_nil, ← hfill] at hcut

/-- A header that is cut, completed with zeros. -/
theorem exists_header_zeros {known : List UInt8} (h : known.length < 4) :
    ∃ t0 t1, known ++ List.replicate (4 - known.length) 0 = [t0, t1, known.getD 2 0, 0] := by
  match known with
  | [] => exact ⟨0, 0, rfl⟩
  | [t0] => exact ⟨t0, 0, rfl⟩
  | [t0, t1] => exact ⟨t0, t1, rfl⟩
  | [t0, t1, l0] => exact ⟨t0, t1, rfl⟩
  | _ :: _ :: _ :: _ :: _ =>
    simp only [List.length_cons] at h
    omega

/-- A header that is cut can be completed to that of a key, or to the shortest other entry with
    a key behind it. -/
theorem varies_firstKey_of_lt {known : List UInt8} {left m : Nat} (hlength : known.length < 4)
    (h : KeyOpen left m known) : Varies (firstKey left) known m := by
  obtain ⟨hroom, ⟨hknown, hlen⟩ | ⟨hleft, hlen⟩⟩ := (keyOpen_of_lt hlength left m).1 h
  · exact varies_key_of_isPrefix hroom hknown hlen
  · -- the shortest entry that is possible, and a key behind it
    obtain ⟨t0, t1, hheader⟩ := exists_header_zeros hlength
    refine Varies.of_append (List.replicate (4 - known.length) 0) ?_ ?_
    · have hlow : ofBE [known.getD 2 0, 0] = 256 * (known.getD 2 0).toNat := ofBE_pair _ _
      rw [hheader, List.length_replicate]
      refine varies_other hroom ?_ ?_ ?_
      · rw [hlow, List.length_nil]
        omega
      · rw [hlow]
        omega
      · rw [List.drop_nil, hlow]
        refine varies_key_of_isPrefix (by omega) List.nil_prefix ?_
        simp only [List.length_nil]
        omega
    · rw [List.length_replicate]
      omega

/-- If a key can end there, it can be one of two. -/
theorem varies_firstKey {known : List UInt8} {left m : Nat} (h : KeyOpen left m known) :
    Varies (firstKey left) known m := by
  match known with
  | t0 :: t1 :: l0 :: l1 :: known =>
    rw [KeyOpen] at h
    obtain ⟨hroom, hlen, hopen⟩ := h
    split at hopen
    · rename_i hkey
      have hcut := varies_key _ hroom hopen (by rw [← hkey.2]; exact hlen)
      rwa [← header_eq hkey] at hcut
    · rename_i hkey
      exact varies_other hroom hlen hkey (varies_firstKey hopen)
  | [] | [_] | [_, _] | [_, _, _] => exact varies_firstKey_of_lt (by simp) h
termination_by known.length
decreasing_by
  simp only [List.length_drop, List.length_cons]
  omega

/-- A key for x25519 can end in the `m` bytes behind `known`, the front of a key share with the
    length of its list. -/
def ShareOpen (m : Nat) : List UInt8 → Prop
  | l0 :: l1 :: known => KeyOpen (ofBE [l0, l1]) m known
  | known => 38 ≤ known.length + m

/-- A key share is the length of its list and the list. -/
theorem keyShare_cons (l0 l1 : UInt8) (rest : List UInt8) :
    keyShare (l0 :: l1 :: rest) = firstKey (ofBE [l0, l1]) rest := by
  rw [keyShare, entries_min, firstKey]

/-- A key share with a key has 38 bytes at least. -/
theorem le_of_keyShare {data : List UInt8} (h : keyShare data ≠ none) : 38 ≤ data.length := by
  match data with
  | [] | [_] => exact (h rfl).elim
  | l0 :: l1 :: rest =>
    rw [keyShare_cons] at h
    have hrest := (le_of_firstKey h).2
    simp only [List.length_cons]
    omega

/-- The same for key shares. -/
theorem keyShare_congr {known : List UInt8} {m : Nat} (h : ¬ ShareOpen m known) {a b : List UInt8}
    (ha : a.length = m) (hb : b.length = m) : keyShare (known ++ a) = keyShare (known ++ b) := by
  match known with
  | l0 :: l1 :: known =>
    simp only [List.cons_append]
    rw [keyShare_cons, keyShare_cons]
    exact firstKey_congr h ha hb
  | [] | [_] =>
    -- there are too few bytes for a key
    have hnone (c known : List UInt8) (hc : c.length = m) (hle : ¬ 38 ≤ known.length + m) :
        keyShare (known ++ c) = none := by
      by_contra hsome
      have hlen := le_of_keyShare hsome
      rw [List.length_append, hc] at hlen
      exact hle hlen
    rw [hnone a _ ha h, hnone b _ hb h]

/-- The length of the list is known. -/
theorem varies_keyShare_cons {l0 l1 : UInt8} {known : List UInt8} {m : Nat}
    (h : Varies (firstKey (ofBE [l0, l1])) known m) : Varies keyShare (l0 :: l1 :: known) m := by
  obtain ⟨a, b, ha, hb, hne⟩ := h
  refine ⟨a, b, ha, hb, ?_⟩
  simp only [List.cons_append]
  rwa [keyShare_cons, keyShare_cons]

/-- A length that is cut can become one with room for a key. -/
theorem varies_keyShare_of_fill {known : List UInt8} {l : UInt8} {m : Nat} (fill : List UInt8)
    (hfill : known ++ fill = [l, 0xFF]) (hlen : 38 ≤ known.length + m) :
    Varies keyShare known m := by
  have hfillLen : known.length + fill.length = 2 := by
    rw [← List.length_append, hfill]
    rfl
  refine Varies.of_append fill ?_ (by omega)
  rw [hfill]
  refine varies_keyShare_cons (varies_key_of_isPrefix ?_ List.nil_prefix ?_)
  · rw [ofBE_pair, show (0xFF : UInt8).toNat = 255 from rfl]
    omega
  · simp only [List.length_nil]
    omega

/-- If a key can end there, it can be one of two. -/
theorem varies_keyShare {known : List UInt8} {m : Nat} (h : ShareOpen m known) :
    Varies keyShare known m := by
  match known with
  | l0 :: l1 :: known => exact varies_keyShare_cons (varies_firstKey h)
  | [] => exact varies_keyShare_of_fill [0, 0xFF] rfl h
  | [l0] => exact varies_keyShare_of_fill [0xFF] rfl h

/-- **When the key depends on the bytes behind.** -/
theorem varies_keyShare_iff (known : List UInt8) (m : Nat) :
    Varies keyShare known m ↔ ShareOpen m known := by
  refine ⟨fun ⟨a, b, ha, hb, hne⟩ => ?_, varies_keyShare⟩
  by_contra hopen
  exact hne (keyShare_congr hopen ha hb)

end Fogged.Spec.ClientHello
