import Fogged.Native.ByIndex
import Fogged.Spec.AddonsCorrect
import Fogged.Spec.ClientHelloCorrect
import Fogged.Spec.InnerTlsCorrect
import Fogged.Spec.TargetAddress

/-!
# No input stops a parser

The parsers by index return what the parsers on suffixes return, on every slice: no index
is out of range, no sum overflows, and every loop ends. The position `pos` of the one and
the suffix of the other are connected by `data.drop pos`.

## Key results

- `parseClientHello_agree`, `targetAddr_parse_eq`: the two parsers by index agree with those
  on suffixes
- `parsers_return`: all parsers that run before a client is authenticated
-/

namespace Fogged.Spec.ByIndex

open Fogged.Native Fogged.Native.Handshake Fogged.Native.ClientHello
open Fogged.Spec.ClientHello Fogged.Spec.Reality
open Checked Indexed Tlv
open Bytes (ofBE toBE)

/-! ## Extensions -/

/-- The parser of an SNI extension. -/
theorem parseSni_eq (data : List UInt8) : ByIndex.parseSni data = .ret (hostName data) := by
  match data with
  | [] | [_] | [_, _] | [_, _, _] | [_, _, _, _] => rfl
  | l0 :: l1 :: nameType :: n0 :: n1 :: rest =>
    have hlt := Bytes.ofBE_two_lt n0 n1
    rw [ByIndex.parseSni, if_neg (by simp), u16_of_drop (by decide) rfl, Outcome.ret_bind,
      get_of_drop (i := 2) rfl, Outcome.ret_bind, hostName]
    by_cases htype : nameType = 0
    · rw [if_neg (not_not.2 htype), u16_of_drop (i := 3) (by decide) rfl, Outcome.ret_bind,
        add_of_lt (by omega), Outcome.ret_bind]
      -- the end of the name is compared with the end of the data before it is sliced
      by_cases hlen : ofBE [n0, n1] ≤ rest.length
      · rw [if_neg (by simp only [List.length_cons]; omega),
          Buffer.slice_add (by simp only [List.length_cons]; omega), Outcome.ret_bind]
        simp only [htype, hlen, true_and]
        rfl
      · rw [if_pos (by simp only [List.length_cons]; omega), if_neg fun h => hlen h.2.1]
    · rw [if_pos htype, if_neg fun h => htype h.1]

/-- The entry at position `i`, and those behind it. -/
theorem entries_drop {data : List UInt8} {stop i : Nat} {t0 t1 l0 l1 : UInt8}
    (hdrop : data.drop i = t0 :: t1 :: l0 :: l1 :: data.drop (i + 4)) (hroom : i + 4 ≤ stop)
    (hnext : i + 4 + ofBE [l0, l1] ≤ data.length) :
    ∃ e : Entry, e.type = ofBE [t0, t1] ∧ e.data = (data.drop (i + 4)).take (ofBE [l0, l1]) ∧
      entries (stop - i) (data.drop i) =
        e :: entries (stop - (i + 4 + ofBE [l0, l1])) (data.drop (i + 4 + ofBE [l0, l1])) := by
  rw [hdrop, entries, if_pos ⟨by omega, by rw [List.length_drop]; omega⟩, List.drop_drop,
    Nat.sub_sub, ← Nat.add_assoc]
  exact ⟨_, rfl, rfl, rfl⟩

/-- An entry that is not all there. -/
theorem entries_drop_eq_nil {data : List UInt8} {i : Nat} {t0 t1 l0 l1 : UInt8} (left : Nat)
    (hdrop : data.drop i = t0 :: t1 :: l0 :: l1 :: data.drop (i + 4))
    (hnext : data.length < i + 4 + ofBE [l0, l1]) (hi : i + 4 ≤ data.length) :
    entries left (data.drop i) = [] := by
  rw [hdrop, entries, if_neg]
  rw [List.length_drop]
  omega

section Loops

variable {data : List UInt8} (hdata : data.length < 2 ^ 63)

include hdata

/-- Both loops read the header of an entry in the same way. -/
theorem header_bind {α : Type} {pos : Nat} {t0 t1 l0 l1 : UInt8}
    (hdrop : data.drop pos = t0 :: t1 :: l0 :: l1 :: data.drop (pos + 4))
    (hpos : pos + 4 ≤ data.length) (f : Nat → Nat → Nat → Outcome α) :
    (do
      let type ← Indexed.u16 data pos
      let lenPos ← add pos 2
      let len ← Indexed.u16 data lenPos
      let next ← add (pos + 4) len
      f type len next) = f (ofBE [t0, t1]) (ofBE [l0, l1]) (pos + 4 + ofBE [l0, l1]) := by
  have hlt := Bytes.ofBE_two_lt l0 l1
  have hlen : data.drop (pos + 2) = l0 :: l1 :: data.drop (pos + 4) := by
    rw [← List.drop_drop, hdrop]
    rfl
  rw [u16_of_drop (by omega) hdrop, Outcome.ret_bind, add_of_lt (by omega), Outcome.ret_bind,
    u16_of_drop (by omega) hlen, Outcome.ret_bind, add_of_lt (by omega), Outcome.ret_bind]

/-- **The loop over the keys.** Each iteration moves at least four bytes on. -/
theorem keyShareLoop_eq {stop fuel pos : Nat} (hpos : pos ≤ data.length)
    (hstop : stop ≤ data.length) (hfuel : data.length < pos + fuel) :
    ByIndex.keyShareLoop data stop fuel pos =
      .ret ((entries (stop - pos) (data.drop pos)).findSome? x25519?) := by
  induction fuel generalizing pos with
  | zero => omega
  | succ fuel ih =>
    rw [ByIndex.keyShareLoop, add_of_lt (by omega), Outcome.ret_bind]
    by_cases hroom : pos + 4 ≤ stop
    · obtain ⟨t0, t1, l0, l1, hdrop⟩ := exists_drop_four (hroom.trans hstop)
      rw [if_pos hroom, header_bind hdata hdrop (hroom.trans hstop)]
      by_cases hnext : pos + 4 + ofBE [l0, l1] ≤ data.length
      · obtain ⟨e, htype, hbytes, hentries⟩ := entries_drop hdrop hroom hnext
        have hlength : e.data.length = ofBE [l0, l1] := by
          rw [hbytes, List.length_take, List.length_drop]
          omega
        rw [if_neg (by omega), hentries, List.findSome?_cons, x25519?]
        -- an X25519 key of 32 bytes ends the search
        by_cases hkey : ofBE [t0, t1] = 0x001D ∧ ofBE [l0, l1] = 32
        · have hkey' : e.type = 0x001D ∧ e.data.length = 32 := by
            rw [htype, hlength]
            exact hkey
          have hslice : Buffer.slice data (pos + 4) (pos + 4 + 32) = .ret e.data := by
            rw [Buffer.slice_add (by omega), hbytes, hkey.2]
          rw [if_pos hkey, dif_pos hkey', add_of_lt (by omega), Outcome.ret_bind, hslice,
            Outcome.ret_bind, toArray_of_length hkey'.2]
          rfl
        · have hkey' : ¬ (e.type = 0x001D ∧ e.data.length = 32) := by
            rw [htype, hlength]
            exact hkey
          rw [if_neg hkey, dif_neg hkey']
          exact ih hnext (by omega)
      · -- the entry is cut: the loop breaks, and there is none
        rw [if_pos (by omega), entries_drop_eq_nil _ hdrop (by omega) (by omega)]
        rfl
    · rw [if_neg hroom, entries_of_lt (by omega)]
      rfl

/-- The parser of a key share, whose list may be declared longer than the data. -/
theorem parseKeyShare_eq : ByIndex.parseKeyShare data = .ret (keyShare data) := by
  match data with
  | [] | [_] => rfl
  | l0 :: l1 :: rest =>
    have hlt := Bytes.ofBE_two_lt l0 l1
    simp only [List.length_cons] at hdata
    rw [ByIndex.parseKeyShare, if_neg (by simp), u16_of_drop (by decide) rfl, Outcome.ret_bind,
      add_of_lt (by omega), Outcome.ret_bind,
      keyShareLoop_eq (by simpa using hdata) (by simp) (Nat.min_le_right _ _) (by omega)]
    -- the end of the list is cut to the end of the data
    have hleft : min (2 + ofBE [l0, l1]) (l0 :: l1 :: rest).length - 2 =
        min (ofBE [l0, l1]) rest.length := by
      simp only [List.length_cons]
      omega
    rw [hleft]
    rfl

/-- **The loop over the extensions.** Each iteration moves at least four bytes on. -/
theorem extensionLoop_eq {extEnd fuel pos : Nat} (hpos : pos ≤ data.length)
    (hfuel : data.length < pos + fuel) (sni : Option Text) (key : Option Key) :
    ByIndex.extensionLoop data extEnd fuel pos sni key =
      .ret ((entries (extEnd - pos) (data.drop pos)).foldl update (sni, key)) := by
  induction fuel generalizing pos sni key with
  | zero => omega
  | succ fuel ih =>
    rw [ByIndex.extensionLoop, add_of_lt (by omega), Outcome.ret_bind]
    by_cases hroom : pos + 4 ≤ extEnd ∧ pos + 4 ≤ data.length
    · obtain ⟨t0, t1, l0, l1, hdrop⟩ := exists_drop_four hroom.2
      rw [if_pos hroom, header_bind hdata hdrop hroom.2]
      by_cases hnext : pos + 4 + ofBE [l0, l1] ≤ data.length
      · obtain ⟨e, htype, hbytes, hentries⟩ := entries_drop hdrop hroom.1 hnext
        have hslice : Buffer.slice data (pos + 4) (pos + 4 + ofBE [l0, l1]) = .ret e.data := by
          rw [Buffer.slice_add hnext, hbytes]
        -- a body is shorter than 2^16, so its own parser is within range too
        have hlength : e.data.length < 2 ^ 63 := e.length_lt.trans (by decide)
        rw [if_neg (by omega), hslice, Outcome.ret_bind, hentries, List.foldl_cons, update, ← htype]
        split
        · rename_i hsni
          rw [if_pos hsni, parseSni_eq, Outcome.ret_bind]
          exact ih hnext (by omega) _ _
        · rename_i hshare
          rw [if_neg (by rw [hshare]; decide), if_pos hshare, parseKeyShare_eq hlength,
            Outcome.ret_bind]
          exact ih hnext (by omega) _ _
        · rename_i hsni hshare
          rw [if_neg hsni, if_neg hshare]
          exact ih hnext (by omega) _ _
      · rw [if_pos (by omega), entries_drop_eq_nil _ hdrop (by omega) hroom.2]
        rfl
    · rw [if_neg hroom]
      -- the block ends here, or the data does
      by_cases hend : pos + 4 ≤ extEnd
      · rw [entries_of_length_lt _ (by rw [List.length_drop]; omega)]
        rfl
      · rw [entries_of_lt (by omega)]
        rfl

/-- The cipher suites, by induction on how many are left. -/
theorem readSuites_eq {pos count i : Nat} (h : pos + i + 2 * count ≤ data.length) :
    ByIndex.readSuites data pos count i =
      .ret (cipherSuites ((data.drop (pos + i)).take (2 * count))) := by
  induction count generalizing i with
  | zero =>
    rw [Nat.mul_zero, List.take_zero]
    rfl
  | succ count ih =>
    obtain ⟨a, b, hab⟩ := exists_drop_two (show pos + i + 1 < data.length by omega)
    rw [ByIndex.readSuites, add_of_lt (by omega), Outcome.ret_bind, u16_of_drop (by omega) hab,
      Outcome.ret_bind, ih (by omega), hab, Nat.mul_succ, List.take_succ_cons, List.take_succ_cons,
      cipherSuites, Nat.add_assoc pos i 2]
    rfl

end Loops

/-! ## The message -/

section Message

variable {body : List UInt8} (hbody : body.length < 2 ^ 63)

include hbody

/-- The extensions, with the length of their block at `pos`. -/
theorem extensions_agree {pos : Nat} (hpos : pos < 2 ^ 63 + 2 ^ 9) (suites : List UInt16) :
    Agree
      (if body.length > pos + 2 then do
        let extLen ← liftM (Indexed.u16 body pos)
        let extEnd ← liftM (add (pos + 2) extLen)
        let found ← liftM
          (ByIndex.extensionLoop body extEnd (body.length + 1) (pos + 2) none none)
        pure (suites, found)
      else pure (suites, none, none) : Parse _)
      (if 2 < (body.drop pos).length then do
        let (extLen, rest) ← Fogged.Native.ClientHello.u16 (body.drop pos)
        let found ← extensionLoop (rest.length + 1) extLen rest none none
        pure (suites, found)
      else pure (suites, none, none)) := by
  -- the source reads the length of the block only if a byte follows it
  by_cases hext : body.length > pos + 2
  · obtain ⟨e0, e1, he⟩ := exists_drop_two (show pos + 1 < body.length by omega)
    have helt := Bytes.ofBE_two_lt e0 e1
    rw [if_pos hext, if_pos (by rw [List.length_drop]; omega), u16_of_drop (by omega) he, he]
    simp only [u16_cons, pure_bind, liftM_ret]
    rw [add_of_lt (by omega), liftM_ret, pure_bind, extensionLoop_eq hbody (by omega) (by omega),
      ClientHello.extensionLoop_eq (Nat.lt_succ_self _), Nat.add_sub_cancel_left, liftM_ret]
    exact .pure _
  · rw [if_neg hext, if_neg (by rw [List.length_drop]; omega)]
    exact .pure _

/-- What follows the session id, which ends at `pos`. -/
theorem parseAfterSessionId_agree {pos : Nat} (hpos : pos ≤ body.length) :
    Agree (ByIndex.parseAfterSessionId body pos) (parseAfterSessionId (body.drop pos)) := by
  rw [ByIndex.parseAfterSessionId, parseAfterSessionId, add_of_lt (by omega), liftM_ret, pure_bind]
  refine .ensure (by rw [List.length_drop]; omega) fun hlen => ?_
  obtain ⟨a, b, hab⟩ := exists_drop_two (show pos + 1 < body.length by omega)
  have hlt := Bytes.ofBE_two_lt a b
  rw [u16_of_drop (by omega) hab, liftM_ret, pure_bind, add_of_lt (by omega), liftM_ret, pure_bind,
    hab]
  simp only [u16_cons, pure_bind]
  -- the cipher suites, two bytes each
  refine .ensure (by rw [List.length_drop]; omega) fun hsuites => ?_
  have hread : ByIndex.readSuites body (pos + 2) (ofBE [a, b] / 2) 0 =
      .ret (cipherSuites ((body.drop (pos + 2)).take (ofBE [a, b]))) := by
    rw [readSuites_eq hbody (by omega), Nat.mul_div_cancel' (Nat.dvd_of_mod_eq_zero hsuites.2)]
  rw [hread, liftM_ret, pure_bind, add_of_lt (by omega), liftM_ret, pure_bind,
    slice_of_le (by rw [List.length_drop]; omega), pure_bind]
  dsimp only
  rw [List.drop_drop]
  generalize hnext : pos + 2 + ofBE [a, b] = next at hsuites
  -- the index moves over the compression methods, possibly beyond the end
  refine .ensure (by rw [List.length_drop]; omega) fun hcomp => ?_
  obtain ⟨c, hc⟩ := exists_drop_one (show next < body.length by omega)
  have hclt := c.toNat_lt
  rw [get_of_drop hc, liftM_ret, pure_bind, add_of_lt (by omega), liftM_ret, pure_bind,
    add_of_lt (by omega), liftM_ret, pure_bind, add_of_lt (by omega), liftM_ret, pure_bind, hc,
    slice_one, pure_bind]
  dsimp only
  rw [Bytes.ofBE_singleton, List.drop_drop, Nat.add_assoc next 1]
  exact extensions_agree hbody (by omega) _

end Message

/-- Three bytes, put together by shifts. -/
theorem or_shiftLeft_eq (l0 l1 l2 : UInt8) :
    l0.toNat <<< 16 ||| l1.toNat <<< 8 ||| l2.toNat = ofBE [l0, l1, l2] := by
  have h1 := l1.toNat_lt
  have h2 := l2.toNat_lt
  have hlow : l1.toNat <<< 8 ||| l2.toNat = l1.toNat <<< 8 + l2.toNat :=
    (Nat.shiftLeft_add_eq_or_of_lt h2 _).symm
  have hlt : l1.toNat <<< 8 + l2.toNat < 2 ^ 16 := by
    rw [Nat.shiftLeft_eq]
    omega
  rw [Nat.or_assoc, hlow, ← Nat.shiftLeft_add_eq_or_of_lt hlt]
  simp only [Nat.shiftLeft_eq, ofBE, List.foldl_cons, List.foldl_nil]
  omega

/-- **A ClientHello by index.** -/
theorem parseClientHello_agree {data : List UInt8} (hdata : data.length < 2 ^ 63) :
    Agree (ByIndex.parseClientHello data) (parseClientHello data) := by
  rw [ByIndex.parseClientHello, parseClientHello]
  -- the handshake header
  refine .ensure Iff.rfl fun hlong => ?_
  obtain ⟨type, l0, l1, l2, hdrop⟩ := exists_drop_four (i := 0) (by omega)
  rw [List.drop_zero, Nat.zero_add] at hdrop
  have hslice1 : (slice 1 data : Parse _) = pure ([type], l0 :: l1 :: l2 :: data.drop 4) :=
    slice_append rfl hdrop
  have hslice3 : (slice 3 (l0 :: l1 :: l2 :: data.drop 4) : Parse _) =
      pure ([l0, l1, l2], data.drop 4) := slice_append rfl rfl
  have hget (i : Nat) {b : UInt8} {rest : List UInt8}
      (h : (type :: l0 :: l1 :: l2 :: data.drop 4).drop i = b :: rest) : get data i = .ret b :=
    get_of_drop (by rw [hdrop]; exact h)
  have hlt : ofBE [l0, l1, l2] < 2 ^ 24 := by simpa using Bytes.ofBE_lt [l0, l1, l2]
  rw [hget 0 rfl, liftM_ret, pure_bind, hslice1, pure_bind]
  refine .ensure (by simp) fun htype => ?_
  rw [hget 1 rfl, liftM_ret, pure_bind, hget 2 rfl, liftM_ret, pure_bind, hget 3 rfl, liftM_ret,
    pure_bind, hslice3, pure_bind]
  dsimp only
  rw [or_shiftLeft_eq, add_of_lt (by omega), liftM_ret, pure_bind]
  refine .ensure Iff.rfl fun hstop => ?_
  have hraw : Buffer.slice data 0 (4 + ofBE [l0, l1, l2]) =
      .ret (data.take (4 + ofBE [l0, l1, l2])) := by
    rw [Buffer.slice_of_le (Nat.zero_le _) hstop, Buffer.window, List.drop_zero]
  have hbodyLen : ofBE [l0, l1, l2] ≤ (data.drop 4).length := by
    rw [List.length_drop]
    omega
  rw [hraw, liftM_ret, pure_bind, Buffer.slice_add hstop, liftM_ret, pure_bind,
    slice_of_le hstop, pure_bind, slice_of_le hbodyLen, pure_bind]
  dsimp only
  have hbody : ((data.drop 4).take (ofBE [l0, l1, l2])).length < 2 ^ 63 := by
    rw [List.length_take]
    omega
  generalize (data.drop 4).take (ofBE [l0, l1, l2]) = body at hbody
  -- version and random
  refine .ensure Iff.rfl fun hversion => ?_
  rw [slice_of_le hversion, pure_bind]
  refine .ensure (by rw [List.length_drop]; omega) fun hrandom => ?_
  obtain ⟨random, harray, harray32⟩ : ∃ v : List.Vector UInt8 32,
      toArray 32 ((body.drop 2).take 32) = .ret v ∧
        toArray32 ((body.drop 2).take 32) = pure v := by
    have hlen : ((body.drop 2).take 32).length = 32 := by
      rw [List.length_take, List.length_drop]
      omega
    exact ⟨⟨_, hlen⟩, dif_pos hlen, dif_pos hlen⟩
  rw [Buffer.slice_add hrandom, liftM_ret, pure_bind, harray, liftM_ret, pure_bind,
    slice_of_le (by rw [List.length_drop]; omega), pure_bind]
  dsimp only
  rw [harray32, pure_bind, List.drop_drop]
  -- the session id, with its length byte
  refine .ensure (by rw [List.length_drop]; omega) fun hsidLen => ?_
  obtain ⟨c, hc⟩ := exists_drop_one (show 2 + 32 < body.length by omega)
  have hclt := c.toNat_lt
  rw [get_of_drop hc, liftM_ret, pure_bind, add_of_lt (by omega), liftM_ret, pure_bind, hc, slice_one,
    pure_bind]
  dsimp only
  rw [Bytes.ofBE_singleton]
  refine .ensure (by rw [List.length_drop]; omega) fun hsid => ?_
  rw [Buffer.slice_add hsid, liftM_ret, pure_bind,
    slice_of_le (by rw [List.length_drop]; omega), pure_bind]
  dsimp only
  rw [List.drop_drop]
  exact (parseAfterSessionId_agree hbody hsid).bind fun found => .pure _

/-! ## Target addresses -/

/-- A slice that is long enough becomes an array. -/
theorem readOctets_of_le {n : Nat} {bytes : List UInt8} (h : n ≤ bytes.length) :
    ∃ v, readOctets n bytes = some v ∧ toArray n (bytes.take n) = .ret v :=
  ⟨⟨bytes.take n, by simp [h]⟩, dif_pos h, dif_pos (by simp [h])⟩

/-- The host of a target address, by its type. -/
theorem parseHost_eq (p0 p1 addrType b : UInt8) (rest : List UInt8) :
    (ByIndex.parseHost (p0 :: p1 :: addrType :: b :: rest) addrType).run =
      .ret (parseHost addrType (b :: rest)) := by
  unfold ByIndex.parseHost
  split
  · -- IPv4
    rw [run_ensure_bind]
    match rest with
    | [] | [_] | [_, _] => rfl
    | c :: d :: e :: rest =>
      rw [if_pos (by simp)]
      rfl
  · -- a domain
    have hlt := b.toNat_lt
    rw [run_ensure_bind, if_pos (by simp), get_of_drop (i := 3) rfl, liftM_ret, pure_bind,
      add_of_lt (by omega), liftM_ret, pure_bind, run_ensure_bind]
    by_cases hle : b.toNat ≤ rest.length
    · have hread : Bytes.readExact b.toNat rest = some (rest.take b.toNat, rest.drop b.toNat) :=
        if_pos hle
      rw [if_pos (by simp only [List.length_cons]; omega),
        Buffer.slice_add (by simp only [List.length_cons]; omega), liftM_ret, pure_bind]
      simp only [parseHost, hread, List.drop_succ_cons, List.drop_zero]
      cases String.fromUTF8? ⟨(rest.take b.toNat).toArray⟩ <;> rfl
    · have hread : Bytes.readExact b.toNat rest = none := if_neg hle
      rw [if_neg (by simp only [List.length_cons]; omega)]
      simp only [parseHost, hread]
  · -- IPv6
    rw [run_ensure_bind]
    by_cases hle : 16 ≤ (b :: rest).length
    · obtain ⟨v, hread, harray⟩ := readOctets_of_le hle
      have hslice : Buffer.slice (p0 :: p1 :: 3 :: b :: rest) 3 19 =
          .ret ((b :: rest).take 16) := by
        show Buffer.slice _ 3 (3 + 16) = _
        rw [Buffer.slice_add (by simp only [List.length_cons] at hle ⊢; omega)]
        rfl
      rw [if_pos (by simp only [List.length_cons] at hle ⊢; omega), hslice, liftM_ret, pure_bind,
        harray, liftM_ret, pure_bind]
      simp only [parseHost, hread]
      rfl
    · have hread : readOctets 16 (b :: rest) = none := dif_neg hle
      rw [if_neg (by simp only [List.length_cons] at hle ⊢; omega)]
      simp only [parseHost, hread]
  · rename_i h1 h2 h3
    unfold parseHost
    split
    · exact absurd rfl h1
    · exact absurd rfl h2
    · exact absurd rfl h3
    · rfl

/-- **A target address by index.** -/
theorem targetAddr_parse_eq (data : List UInt8) :
    (ByIndex.TargetAddr.parse data).run = .ret (TargetAddr.parse data) := by
  rw [ByIndex.TargetAddr.parse, run_ensure_bind]
  match data with
  | [] | [_] | [_, _] | [_, _, _] => rfl
  | p0 :: p1 :: addrType :: b :: rest =>
    rw [if_pos (by simp), u16_of_drop (by decide) rfl, liftM_ret, pure_bind,
      get_of_drop (i := 2) rfl, liftM_ret, pure_bind, ExceptT.run_bind, parseHost_eq,
      TargetAddr.parse, if_neg (by simp)]
    cases parseHost addrType (b :: rest) <;> rfl

/-! ## Pieces of the message -/

/-- A key is a piece of the extension it was found in. -/
theorem isInfix_of_keyShare {data : List UInt8} {key : Key} (h : keyShare data = some key) :
    key.toList <:+: data := by
  match data with
  | [] | [_] => cases h
  | l0 :: l1 :: rest =>
    obtain ⟨e, he, hkey⟩ := List.exists_of_findSome?_eq_some h
    -- the key is the whole data of its entry
    have hdata : key.toList = e.data := by
      unfold x25519? at hkey
      split at hkey
      · cases hkey
        rfl
      · cases hkey
    rw [hdata]
    exact (isInfix_of_mem_entries he).trans (List.suffix_append [l0, l1] rest).isInfix

/-- A key was found in one of the extensions. -/
theorem exists_of_foldl_update {es : List Entry} {known : Option Text × Option Key} {key : Key}
    (h : (es.foldl update known).2 = some key) :
    known.2 = some key ∨ ∃ e ∈ es, keyShare e.data = some key := by
  induction es generalizing known with
  | nil => exact .inl h
  | cons e es ih =>
    obtain hknown | ⟨e', he', hkey⟩ := ih h
    · unfold update at hknown
      split at hknown
      · exact .inl hknown
      split at hknown
      · exact .inr ⟨e, List.mem_cons_self, hknown⟩
      · exact .inl hknown
    · exact .inr ⟨e', List.mem_cons_of_mem e he', hkey⟩

/-- The data of an extension is a piece of the block. -/
theorem isInfix_of_mem_extensions {block : List UInt8} {e : Entry} (h : e ∈ extensions block) :
    e.data <:+: block := by
  match block with
  | [] | [_] => cases h
  | e0 :: e1 :: rest =>
    exact (isInfix_of_mem_entries h).trans (List.suffix_append [e0, e1] rest).isInfix

/-- What is returned are pieces of the message, the session id in its place. -/
structure Pieces (data : List UInt8) (info : ClientHelloInfo) : Prop where
  raw : info.raw <+: data
  sessionId : Buffer.window info.raw info.sessionIdOffset
    (info.sessionIdOffset + info.sessionId.length) = info.sessionId
  key : ∀ key, info.x25519Key = some key → key.toList <:+: info.raw

/-- What the parser on suffixes returns are pieces of the message. -/
theorem pieces_of_parse {data : List UInt8} {info : ClientHelloInfo}
    (h : (parseClientHello data).run = .ret (.ok info)) : Pieces data info := by
  obtain ⟨l, trailing, r, rfl, hafter, rfl⟩ := exists_layout h
  obtain ⟨t, ht⟩ := exists_tail hafter
  rw [ht, t.parseAfterSessionId_bytes] at hafter
  cases hafter
  refine ⟨List.prefix_append _ _, ?_, fun key hkey => ?_⟩
  · show Buffer.window l.bytes sessionIdOffset (sessionIdOffset + l.sessionId.length) = l.sessionId
    rw [l.bytes_eq, List.append_assoc, ← l.length_header, Buffer.window, List.drop_take,
      List.drop_left, Nat.add_sub_cancel_left, List.take_left]
  · show key.toList <:+: l.bytes
    -- the key comes from one of the extensions
    obtain hnone | ⟨e, he, hshare⟩ := exists_of_foldl_update hkey
    · cases hnone
    have hrest : t.rest <:+: l.bytes := by
      rw [l.bytes_eq, ht, Tail.bytes]
      exact ⟨l.header ++ l.sessionId ++ toBE 2 t.suites.length ++ t.suites ++ [t.compLen], [],
        by simp⟩
    exact (isInfix_of_keyShare hshare).trans ((isInfix_of_mem_extensions he).trans
      ((List.drop_suffix _ _).isInfix.trans hrest))

/-- **No input stops a parser**: whatever the slice, each of them returns, and what
    `parse_client_hello` returns are pieces of the message. -/
theorem parsers_return (data : Slice) :
    ((ByIndex.parseClientHello data.1).run.Returns fun r =>
      ∀ info, r = .ok info → Pieces data.1 info) ∧
    ((ByIndex.parseSni data.1).Returns fun _ => True) ∧
    ((ByIndex.parseKeyShare data.1).Returns fun _ => True) ∧
    ((ByIndex.TargetAddr.parse data.1).run.Returns fun _ => True) ∧
    ((Addons.parse data.1).Returns fun _ => True) ∧
    ((Addons.readVarint data.1).Returns fun _ => True) ∧
    ((InnerTls.detectInnerTls13 data.1).Returns fun _ => True) := by
  refine ⟨?_, ⟨_, parseSni_eq data.1, trivial⟩, ⟨_, parseKeyShare_eq data.2, trivial⟩,
    ⟨_, targetAddr_parse_eq data.1, trivial⟩, Addons.parse_returns data.2,
    (Addons.readVarint_returns data.1).mono fun _ _ => trivial,
    InnerTls.detectInnerTls13_returns data.1⟩
  obtain ⟨r, hindex, hsuffix⟩ := parseClientHello_agree data.2
  refine ⟨r, hindex, fun info hinfo => pieces_of_parse ?_⟩
  rw [hsuffix, hinfo]

end Fogged.Spec.ByIndex
