import Mathlib.Data.List.TakeDrop
import Fogged.ForStd.Bytes

/-!
# Sequences of typed, length-prefixed entries

An entry is a type, a length and that many bytes, the numbers in two bytes each. A block of
entries is declared with its length and stands in front of other bytes. `entries` walks
through such a block: it goes on as long as the block has room for a header, and stops at
an entry that is not all there. What it does not ask is whether an entry ends in the block.

`entries_encode` says that a block that was written is read back. `entries_alike` is about
the bytes behind the block: they matter to the last entry only, and if it reaches there.
-/

namespace Tlv

open Bytes

structure Entry where
  type : Nat
  data : List UInt8
  type_lt : type < 2 ^ 16
  length_lt : data.length < 2 ^ 16

def Entry.encode (e : Entry) : List UInt8 := toBE 2 e.type ++ toBE 2 e.data.length ++ e.data

/-- The length of an entry, with its header. -/
def Entry.size (e : Entry) : Nat := 4 + e.data.length

/-- The entries one after the other. -/
def encode (es : List Entry) : List UInt8 := es.flatMap Entry.encode

/-- The length of a sequence of entries. -/
def size (es : List Entry) : Nat := (es.map Entry.size).sum

/-- The entries at the front of `rest`, if `left` bytes of it are declared to hold them. -/
def entries (left : Nat) : List UInt8 → List Entry
  | t0 :: t1 :: l0 :: l1 :: rest =>
    if 4 ≤ left ∧ ofBE [l0, l1] ≤ rest.length then
      { type := ofBE [t0, t1]
        data := rest.take (ofBE [l0, l1])
        type_lt := ofBE_two_lt t0 t1
        length_lt := Nat.lt_of_le_of_lt (List.length_take_le _ _) (ofBE_two_lt l0 l1) } ::
      entries (left - (4 + ofBE [l0, l1])) (rest.drop (ofBE [l0, l1]))
    else []
  | _ => []
termination_by rest => rest.length
decreasing_by
  simp only [List.length_drop, List.length_cons]
  omega

@[simp] theorem length_encode_entry (e : Entry) : e.encode.length = e.size := by
  simp only [Entry.encode, Entry.size, List.length_append, length_toBE]

/-- Entries take up their sizes. -/
theorem length_encode (es : List Entry) : (encode es).length = size es := by
  induction es with
  | nil => rfl
  | cons e es ih =>
    simp only [encode, List.flatMap_cons, List.length_append, length_encode_entry, size,
      List.map_cons, List.sum_cons] at ih ⊢
    rw [ih]

/-! ## Reading -/

/-- A block without room for a header. -/
theorem entries_of_lt {left : Nat} (h : left < 4) (rest : List UInt8) : entries left rest = [] := by
  unfold entries
  split
  · rw [if_neg (by omega)]
  · rfl

/-- A rest without a header. -/
theorem entries_of_length_lt (left : Nat) {rest : List UInt8} (h : rest.length < 4) :
    entries left rest = [] := by
  unfold entries
  split
  · simp only [List.length_cons] at h
    omega
  · rfl

/-- An entry in front, with room for its header. -/
theorem entries_encode_append {left : Nat} (h : 4 ≤ left) (e : Entry) (rest : List UInt8) :
    entries left (e.encode ++ rest) = e :: entries (left - e.size) rest := by
  obtain ⟨type, data, htype, hlength⟩ := e
  obtain ⟨t0, t1, ht, hofType⟩ := exists_toBE_two htype
  obtain ⟨l0, l1, hl, hofLength⟩ := exists_toBE_two hlength
  have hbytes : Entry.encode ⟨type, data, htype, hlength⟩ ++ rest =
      t0 :: t1 :: l0 :: l1 :: (data ++ rest) := by
    simp [Entry.encode, ht, hl]
  rw [hbytes, entries, if_pos ⟨h, by simp [hofLength]⟩]
  simp only [hofType, hofLength, List.take_left, List.drop_left, Entry.size]

/-- **A block that was written is read back**, whatever follows it. -/
theorem entries_encode (es : List Entry) (rest : List UInt8) :
    entries (size es) (encode es ++ rest) = es := by
  induction es with
  | nil => exact entries_of_lt (by decide) rest
  | cons e es ih =>
    have hsize : size (e :: es) = e.size + size es := by simp [size]
    have hbytes : encode (e :: es) ++ rest = e.encode ++ (encode es ++ rest) := by simp [encode]
    rw [hsize, hbytes, entries_encode_append (by rw [Entry.size]; omega), Nat.add_sub_cancel_left,
      ih]

/-- A block cannot hold more than there is. -/
theorem entries_min (left : Nat) (rest : List UInt8) :
    entries (min left rest.length) rest = entries left rest := by
  fun_induction entries left rest with
  | case1 left t0 t1 l0 l1 rest hc ih =>
    -- the rest of the block is cut in the same way
    have hleft : min left (t0 :: t1 :: l0 :: l1 :: rest).length - (4 + ofBE [l0, l1]) =
        min (left - (4 + ofBE [l0, l1])) (rest.drop (ofBE [l0, l1])).length := by
      simp only [List.length_cons, List.length_drop]
      omega
    rw [entries, if_pos ⟨by simp only [List.length_cons]; omega, hc.2⟩, hleft, ih]
  | case2 left t0 t1 l0 l1 rest hc =>
    rw [entries, if_neg]
    simp only [List.length_cons]
    omega
  | case3 left rest hshort =>
    unfold entries
    split
    · rename_i t0 t1 l0 l1 rest
      exact (hshort t0 t1 l0 l1 rest rfl).elim
    · rfl

/-- An entry's data is a piece of what was read. -/
theorem isInfix_of_mem_entries {left : Nat} {rest : List UInt8} {e : Entry}
    (h : e ∈ entries left rest) : e.data <:+: rest := by
  fun_induction entries left rest with
  | case1 left t0 t1 l0 l1 rest hc ih =>
    have hrest := List.suffix_append [t0, t1, l0, l1] rest
    obtain rfl | h := List.mem_cons.1 h
    · exact (List.take_prefix _ rest).isInfix.trans hrest.isInfix
    · exact (ih h).trans ((List.drop_suffix _ rest).trans hrest).isInfix
  | case2 => cases h
  | case3 => cases h

/-- The first entry, and what is left for the others. -/
theorem entries_eq_cons {left : Nat} {rest : List UInt8} {e : Entry} {es : List Entry}
    (h : entries left rest = e :: es) :
    4 ≤ left ∧ ∃ tail, rest = e.encode ++ tail ∧ es = entries (left - e.size) tail := by
  match rest with
  | [] | [_] | [_, _] | [_, _, _] =>
    rw [entries_of_length_lt left (by simp)] at h
    cases h
  | t0 :: t1 :: l0 :: l1 :: rest =>
    rw [entries] at h
    split at h
    · rename_i hc
      obtain ⟨rfl, rfl⟩ := List.cons.inj h
      have hlength : (rest.take (ofBE [l0, l1])).length = ofBE [l0, l1] := by
        rw [List.length_take, Nat.min_eq_left hc.2]
      refine ⟨hc.1, rest.drop (ofBE [l0, l1]), ?_, by rw [Entry.size, hlength]⟩
      -- the header is written as it was read
      have htype : toBE 2 (ofBE [t0, t1]) = [t0, t1] := toBE_ofBE [t0, t1]
      have hlen : toBE 2 (ofBE [l0, l1]) = [l0, l1] := toBE_ofBE [l0, l1]
      rw [Entry.encode, hlength, htype, hlen, List.append_assoc, List.take_append_drop]
      rfl
    · cases h

/-- **The entries in front** stand at the front, and others of the same sizes in their place
    are read in the same way, whatever follows. -/
theorem entries_eq_append {left : Nat} {rest : List UInt8} {es back : List Entry}
    (h : entries left rest = es ++ back) :
    (∃ tail, rest = encode es ++ tail ∧ back = entries (left - size es) tail) ∧
      ∀ es' tail, es'.map Entry.size = es.map Entry.size →
        entries left (encode es' ++ tail) = es' ++ entries (left - size es) tail := by
  induction es generalizing left rest with
  | nil =>
    refine ⟨⟨rest, rfl, h.symm⟩, fun es' tail hsizes => ?_⟩
    rw [List.map_eq_nil_iff.1 hsizes]
    rfl
  | cons e es ih =>
    obtain ⟨hleft, tail, rfl, hes⟩ := entries_eq_cons h
    obtain ⟨⟨tail', rfl, hback⟩, hothers⟩ := ih hes.symm
    have hsize : left - size (e :: es) = left - e.size - size es := by
      simp only [size, List.map_cons, List.sum_cons]
      omega
    rw [hsize]
    refine ⟨⟨tail', by simp [encode], hback⟩, fun es' tail hsizes => ?_⟩
    -- entries of the same sizes are taken off one by one
    obtain ⟨e', es', rfl, he', hes'⟩ := List.map_eq_cons_iff.1 hsizes
    have hbytes : encode (e' :: es') ++ tail = e'.encode ++ (encode es' ++ tail) := by
      simp [encode]
    rw [hbytes, entries_encode_append hleft, he', hothers es' tail hes']
    rfl

/-! ## What lies behind the block -/

/-- Bytes that agree with an entry's header start with it. -/
theorem exists_header {left : Nat} {t0 t1 l0 l1 : UInt8} {rest rest' : List UInt8}
    (h : 4 ≤ left) (htake : (t0 :: t1 :: l0 :: l1 :: rest).take left = rest'.take left) :
    ∃ tail, rest' = t0 :: t1 :: l0 :: l1 :: tail ∧ rest.take (left - 4) = tail.take (left - 4) := by
  obtain ⟨k, rfl⟩ : ∃ k, left = k + 4 := ⟨left - 4, by omega⟩
  match rest' with
  | [] | [_] | [_, _] | [_, _, _] => simp at htake
  | a :: b :: c :: d :: tail =>
    simp only [List.take_succ_cons, List.cons.injEq] at htake
    obtain ⟨rfl, rfl, rfl, rfl, htail⟩ := htake
    exact ⟨tail, rfl, htail⟩

/-- The entry that ends behind the block. Only the last can. -/
def overhang (left : Nat) (rest : List UInt8) : Option Entry :=
  if size (entries left rest) ≤ left then none else (entries left rest).getLast?

/-- How many bytes of it lie behind the block. -/
def excess (left : Nat) (rest : List UInt8) : Nat := size (entries left rest) - left

/-- It starts in the block and ends behind it, and the others end in the block. -/
theorem exists_of_overhang {left : Nat} {rest : List UInt8} {e : Entry}
    (h : overhang left rest = some e) :
    ∃ front tail, entries left rest = front ++ [e] ∧ rest = encode front ++ (e.encode ++ tail) ∧
      size front + 4 ≤ left ∧ left < size front + e.size := by
  rw [overhang] at h
  split at h
  · cases h
  · rename_i hsize
    -- only the last entry can claim more than there is
    obtain ⟨front, hfront⟩ := List.getLast?_eq_some_iff.1 h
    obtain ⟨⟨tail, hrest, hlast⟩, -⟩ := entries_eq_append hfront
    obtain ⟨hroom, tail', rfl, -⟩ := entries_eq_cons hlast.symm
    refine ⟨front, tail', hfront, hrest, by omega, ?_⟩
    rw [hfront] at hsize
    simp only [size, List.map_append, List.sum_append, List.map_cons, List.map_nil, List.sum_cons,
      List.sum_nil] at hsize ⊢
    omega

/-- The same entries; or the same up to the last, which ends behind the block, and there
    the same header, and the same data in the block. -/
inductive Alike (left : Nat) (es es' : List Entry) : Prop where
  | same (h : es = es')
  | last (front : List Entry) (e e' : Entry) (hes : es = front ++ [e]) (hes' : es' = front ++ [e'])
      (htype : e.type = e'.type) (hlength : e.data.length = e'.data.length) (hsize : left < size es)
      (hdata : e.data.take (e.data.length - (size es - left)) =
        e'.data.take (e.data.length - (size es - left)))

/-- The same entry in front. -/
theorem Alike.cons {left left' : Nat} {e : Entry} {es es' : List Entry} (h : Alike left es es')
    (hleft : left' = e.size + left) : Alike left' (e :: es) (e :: es') := by
  cases h with
  | same h => exact .same (by rw [h])
  | last front f f' hes hes' htype hlength hsize hdata =>
    have hsizes : size (e :: es) = e.size + size es := by simp [size]
    refine .last (e :: front) f f' (by rw [hes]; rfl) (by rw [hes']; rfl) htype hlength
      (by omega) ?_
    rwa [hsizes, hleft, Nat.add_sub_add_left]

/-- **What lies behind the block** can only change the data of an entry that reaches there. -/
theorem entries_alike {left : Nat} {rest rest' : List UInt8} (hlen : rest.length = rest'.length)
    (htake : rest.take left = rest'.take left) :
    Alike left (entries left rest) (entries left rest') := by
  fun_induction entries left rest generalizing rest' with
  | case1 left t0 t1 l0 l1 rest hc ih =>
    obtain ⟨tail, rfl, htail⟩ := exists_header hc.1 htake
    simp only [List.length_cons, Nat.add_right_cancel_iff] at hlen
    rw [entries, if_pos ⟨hc.1, by omega⟩]
    by_cases hinside : 4 + ofBE [l0, l1] ≤ left
    · -- the entry ends in the block, so its data and the rest of the block are the same
      have hdata : rest.take (ofBE [l0, l1]) = tail.take (ofBE [l0, l1]) := by
        have := congrArg (List.take (ofBE [l0, l1])) htail
        rwa [List.take_take, List.take_take, Nat.min_eq_left (by omega)] at this
      have hrest : (rest.drop (ofBE [l0, l1])).take (left - (4 + ofBE [l0, l1])) =
          (tail.drop (ofBE [l0, l1])).take (left - (4 + ofBE [l0, l1])) := by
        have := congrArg (List.drop (ofBE [l0, l1])) htail
        rwa [List.drop_take, List.drop_take, Nat.sub_sub] at this
      have halike := ih (by rw [List.length_drop, List.length_drop, hlen]) hrest
      simp only [← hdata]
      refine halike.cons ?_
      simp only [Entry.size, List.length_take, Nat.min_eq_left hc.2]
      omega
    · -- the entry reaches beyond the block, and is the last one
      rw [Nat.sub_eq_zero_of_le (by omega), entries_of_lt (by decide), entries_of_lt (by decide)]
      have hlengths : (rest.take (ofBE [l0, l1])).length = ofBE [l0, l1] := by
        rw [List.length_take, Nat.min_eq_left hc.2]
      refine .last [] _ _ rfl rfl rfl (by simp only [List.length_take, hlen]) ?_ ?_
      · simp only [size, List.map_cons, List.map_nil, List.sum_cons, List.sum_nil, Entry.size,
          hlengths]
        omega
      · -- of its data, what fits behind the header is in the block
        have hinside : ofBE [l0, l1] - (4 + ofBE [l0, l1] + 0 - left) = left - 4 := by omega
        simp only [size, List.map_cons, List.map_nil, List.sum_cons, List.sum_nil, Entry.size,
          hlengths, hinside, List.take_take]
        rw [Nat.min_eq_left (by omega), htail]
  | case2 left t0 t1 l0 l1 rest hc =>
    by_cases hleft : 4 ≤ left
    · obtain ⟨tail, rfl, -⟩ := exists_header hleft htake
      simp only [List.length_cons, Nat.add_right_cancel_iff] at hlen
      rw [entries, if_neg (by rw [← hlen]; exact hc)]
      exact .same rfl
    · rw [entries_of_lt (by omega) rest']
      exact .same rfl
  | case3 left rest hshort =>
    have hlt : rest'.length < 4 := by
      rw [← hlen]
      match rest with
      | [] | [_] | [_, _] | [_, _, _] => simp
      | t0 :: t1 :: l0 :: l1 :: rest => exact (hshort t0 t1 l0 l1 rest rfl).elim
    rw [entries_of_length_lt left hlt]
    exact .same rfl

/-- An entry with other data behind the first `k` bytes has the same front. -/
theorem take_encode_congr {e e' : Entry} (htype : e'.type = e.type)
    (hlength : e'.data.length = e.data.length) {k : Nat} (hdata : e'.data.take k = e.data.take k) :
    e'.encode.take (4 + k) = e.encode.take (4 + k) := by
  have hheader : (toBE 2 e.type ++ toBE 2 e.data.length).length = 4 := by simp
  have htake (data : List UInt8) : (toBE 2 e.type ++ toBE 2 e.data.length ++ data).take (4 + k) =
      toBE 2 e.type ++ toBE 2 e.data.length ++ data.take k := by
    rw [List.take_append, hheader, List.take_of_length_le (by omega), Nat.add_sub_cancel_left]
  rw [Entry.encode, Entry.encode, htype, hlength, htake, htake, hdata]

/-- **The entry that ends behind the block** can be any with the same header and the same data
    in the block. -/
theorem exists_replace_overhang {left : Nat} {rest : List UInt8} {e e' : Entry}
    (h : overhang left rest = some e) (htype : e'.type = e.type)
    (hlength : e'.data.length = e.data.length)
    (hdata : e'.data.take (e.data.length - excess left rest) =
      e.data.take (e.data.length - excess left rest)) :
    ∃ front rest', entries left rest = front ++ [e] ∧ entries left rest' = front ++ [e'] ∧
      rest'.length = rest.length ∧ rest'.take left = rest.take left := by
  obtain ⟨front, tail, hentries, hrest, hroom, hout⟩ := exists_of_overhang h
  have hsize : size (front ++ [e]) = size front + e.size := by simp [size]
  have hesize : e.size = 4 + e.data.length := rfl
  have hesize' : e'.size = e.size := by rw [hesize, Entry.size, hlength]
  refine ⟨front, encode front ++ (e'.encode ++ tail), hentries, ?_, ?_, ?_⟩
  · have hall : entries left rest = front ++ [e] ++ [] := by rw [hentries, List.append_nil]
    -- the two entries have the same size, so the others stay where they are
    have hothers := (entries_eq_append hall).2 (front ++ [e']) tail (by simp [hesize'])
    have hnone : left - size (front ++ [e]) < 4 := by omega
    rw [entries_of_lt hnone, List.append_nil] at hothers
    rw [← hothers]
    simp [encode]
  · rw [hrest]
    simp only [List.length_append, length_encode_entry, hesize']
  · -- the block ends in the data of the entry
    obtain ⟨k, hk⟩ : ∃ k, left = (encode front).length + (4 + k) := by
      rw [length_encode]
      exact ⟨left - size front - 4, by omega⟩
    have hinside : e.data.length - excess left rest = k := by
      rw [length_encode] at hk
      rw [excess, hentries, hsize]
      omega
    rw [hinside] at hdata
    rw [length_encode] at hk
    rw [hrest, hk, ← length_encode, List.take_length_add_append, List.take_length_add_append,
      List.take_append_of_le_length (by rw [length_encode_entry]; omega),
      List.take_append_of_le_length (by rw [length_encode_entry]; omega),
      take_encode_congr htype hlength hdata]

end Tlv
