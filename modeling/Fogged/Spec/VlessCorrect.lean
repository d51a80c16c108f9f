import Fogged.Native.Vless
import Fogged.Spec.TargetAddress

/-!
# VLESS requests: every byte accounted for, and where the cuts matter

`parse_request` reads the preamble exactly and the address with one plain read. What it
returns is a split of the stream: no byte is lost or read twice, wherever the stream is
cut. Whether it returns at all depends on the cuts. The address must come with the first
read after the command, and this is the only thing that does.

## Key results

- `parsePreamble_congr`: the preamble is read alike from any two sources of the same bytes
- `headers_agree_iff`: two deliveries of the same bytes give the same header exactly if the
  first read covers the address in both or in neither
- `request_bytes`: a request and the unread rest are the bytes of the stream
-/

namespace Fogged.Spec.Vless

open Fogged.Native Fogged.Native.Vless Fogged.Native.Handshake
open Fogged.Spec.TargetAddress
open AsyncRead

/-! ## The preamble -/

/-- A command is known by one byte. -/
theorem fromByte_eq_ok {b : UInt8} {command : Command} (h : Command.fromByte b = .ok command) :
    command.toByte = b := by
  unfold Command.fromByte at h
  split at h <;> cases h <;> rfl

/-- The addons are read alike from any two sources of the same bytes. -/
theorem readAddons_congr (n : Nat) {s₁ s₂ : Source} (h : s₁.bytes = s₂.bytes) :
    readAddons n s₁ = none ∧ readAddons n s₂ = none ∨
      ∃ addons s₁' s₂', readAddons n s₁ = some (addons, s₁') ∧
        readAddons n s₂ = some (addons, s₂') ∧ s₁'.bytes = s₂'.bytes := by
  unfold readAddons
  by_cases hn : 0 < n
  · rw [if_pos hn, if_pos hn]
    obtain ⟨h₁, h₂⟩ | ⟨v, s₁', s₂', h₁, h₂, hrest⟩ := Source.readExact_congr n h
    · rw [h₁, h₂]
      exact .inl ⟨rfl, rfl⟩
    · rw [h₁, h₂]
      exact .inr ⟨v.toList, s₁', s₂', rfl, rfl, hrest⟩
  · rw [if_neg hn, if_neg hn]
    exact .inr ⟨[], s₁, s₂, rfl, rfl, h⟩

/-- The addons are read exactly; without any, nothing is read. -/
theorem readAddons_eq_some {n : Nat} {s s' : Source} {addons : List UInt8}
    (h : readAddons n s = some (addons, s')) :
    addons.length = n ∧ s.bytes = addons ++ s'.bytes := by
  unfold readAddons at h
  split at h
  · obtain ⟨⟨v, s''⟩, hread, heq⟩ := Option.map_eq_some_iff.1 h
    cases heq
    exact ⟨v.toList_length, Source.readExact_eq_some hread⟩
  · cases h
    exact ⟨by simp; omega, rfl⟩

/-- **The preamble does not depend on the cuts.** -/
theorem parsePreamble_congr {s₁ s₂ : Source} (h : s₁.bytes = s₂.bytes) :
    (∃ e, parsePreamble s₁ = .error e ∧ parsePreamble s₂ = .error e) ∨
      ∃ p s₁' s₂', parsePreamble s₁ = .ok (p, s₁') ∧ parsePreamble s₂ = .ok (p, s₂') ∧
        s₁'.bytes = s₂'.bytes := by
  -- the two runs are taken through the same reads and tests side by side
  unfold parsePreamble
  obtain ⟨h₁, h₂⟩ | ⟨hdr, a₁, a₂, h₁, h₂, ha⟩ := Source.readExact_congr 18 h
  · rw [h₁, h₂]
    exact .inl ⟨_, rfl, rfl⟩
  rw [h₁, h₂]
  dsimp only
  by_cases hversion : hdr.get 0 ≠ 0
  · rw [if_pos hversion, if_pos hversion]
    exact .inl ⟨_, rfl, rfl⟩
  rw [if_neg hversion, if_neg hversion]
  by_cases hlarge : (hdr.get 17).toNat > maxAddonsLen
  · rw [if_pos hlarge, if_pos hlarge]
    exact .inl ⟨_, rfl, rfl⟩
  rw [if_neg hlarge, if_neg hlarge]
  obtain ⟨h₁, h₂⟩ | ⟨addons, b₁, b₂, h₁, h₂, hb⟩ := readAddons_congr (hdr.get 17).toNat ha
  · rw [h₁, h₂]
    exact .inl ⟨_, rfl, rfl⟩
  rw [h₁, h₂]
  dsimp only
  obtain ⟨h₁, h₂⟩ | ⟨cmdBuf, c₁, c₂, h₁, h₂, hc⟩ := Source.readExact_congr 1 hb
  · rw [h₁, h₂]
    exact .inl ⟨_, rfl, rfl⟩
  rw [h₁, h₂]
  dsimp only
  cases Command.fromByte (cmdBuf.get 0) with
  | error e => exact .inl ⟨e, rfl, rfl⟩
  | ok command => exact .inr ⟨_, c₁, c₂, rfl, rfl, hc⟩

/-- The bytes of a preamble. -/
def preambleBytes (p : Preamble) : List UInt8 :=
  [0] ++ p.uuidBytes.toList ++ [UInt8.ofNat p.addons.length] ++ p.addons ++ [p.command.toByte]

/-- The header's eighteen bytes. -/
theorem toList_header (hdr : List.Vector UInt8 18) :
    hdr.toList = [hdr.get 0] ++ ((hdr.drop 1).take 16).toList ++ [hdr.get 17] := by
  obtain ⟨bytes, hlen⟩ := hdr
  match bytes, hlen with
  | [_, _, _, _, _, _, _, _, _, _, _, _, _, _, _, _, _, _], _ => rfl

/-- A preamble is what stands in front. -/
theorem parsePreamble_eq_ok {s s' : Source} {p : Preamble} (h : parsePreamble s = .ok (p, s')) :
    s.bytes = preambleBytes p ++ s'.bytes ∧ p.addons.length < 256 := by
  -- every early return contradicts `h`: header, version, size and bytes of the addons, command
  unfold parsePreamble at h
  split at h
  · cases h
  rename_i hdr a hhdr
  split at h
  · cases h
  rename_i hversion
  dsimp only at h
  split at h
  · cases h
  split at h
  · cases h
  rename_i addons b haddons
  split at h
  · cases h
  rename_i cmdBuf c hcmd
  cases hcommand : Command.fromByte (cmdBuf.get 0) with
  | error e =>
    rw [hcommand] at h
    cases h
  | ok command =>
    rw [hcommand] at h
    cases h
    obtain ⟨hlen, ha⟩ := readAddons_eq_some haddons
    have hlt := (hdr.get 17).toNat_lt
    -- the command is one byte
    have hcmdBuf : cmdBuf.toList = [cmdBuf.get 0] := by
      obtain ⟨bytes, hlen⟩ := cmdBuf
      match bytes, hlen with
      | [_], _ => rfl
    refine ⟨?_, by show addons.length < 256; omega⟩
    rw [Source.readExact_eq_some hhdr, ha, Source.readExact_eq_some hcmd, toList_header, hcmdBuf,
      not_not.1 hversion, preambleBytes, fromByte_eq_ok hcommand, hlen, UInt8.ofNat_toNat]
    simp only [List.append_assoc]

/-! ## The request -/

/-- What a request is after its preamble `p`, of which `s` is the rest. -/
theorem parseRequest_of_preamble {s₀ s : Source} {p : Preamble}
    (h : parsePreamble s₀ = .ok (p, s)) :
    parseRequest s₀ =
      if p.command = .mux then
        .ok ({ uuid := formatUuid p.uuidBytes.toList, uuidBytes := p.uuidBytes,
               command := p.command, target := none, addons := p.addons,
               initialPayload := (s.read restSize).1 }, (s.read restSize).2)
      else if (s.read restSize).1.length < 3 then .error .truncatedAddress
      else
        match TargetAddr.parse (s.read restSize).1 with
        | .error e => .error (.address e)
        | .ok (addr, consumed) =>
          .ok ({ uuid := formatUuid p.uuidBytes.toList, uuidBytes := p.uuidBytes,
                 command := p.command, target := some addr, addons := p.addons,
                 initialPayload := (s.read restSize).1.drop consumed }, (s.read restSize).2) := by
  rw [parseRequest, h]
  show (if (s.read restSize).1.length < 3 ∧ p.command ≠ .mux then _ else _) = _
  -- the source tests the length before it looks at the command, and spares `mux`
  by_cases hmux : p.command = .mux
  · rw [if_neg (fun hshort => hshort.2 hmux), if_pos hmux, if_pos hmux]
    rfl
  · rw [if_neg hmux, if_neg hmux]
    by_cases hshort : (s.read restSize).1.length < 3
    · rw [if_pos ⟨hshort, hmux⟩, if_pos hshort]
      rfl
    · rw [if_neg (fun h => hshort h.1), if_neg hshort]
      rfl

/-- What a run says about the request: its user, command, target and addons, if it
    returns one. -/
def header (s : Source) : Option (Text × Command × Option TargetAddr × List UInt8) :=
  match parseRequest s with
  | .error _ => none
  | .ok (req, _) => some (req.uuid, req.command, req.target, req.addons)

/-- The first read after the command covers the address that stands in the stream, if
    there is one. -/
def Covered (s₀ : Source) : Prop :=
  ∀ p s t n, parsePreamble s₀ = .ok (p, s) → p.command ≠ .mux →
    TargetAddr.parse s.bytes = .ok (t, n) → n ≤ (s.read restSize).1.length

/-- A preamble that is refused. -/
theorem header_of_error {s : Source} {e : VlessError} (h : parsePreamble s = .error e) :
    header s = none := by
  rw [header, parseRequest, h]
  rfl

/-- A `Mux` request has no address, and nothing more is read. -/
theorem header_of_mux {s₀ s : Source} {p : Preamble} (h : parsePreamble s₀ = .ok (p, s))
    (hmux : p.command = .mux) :
    header s₀ = some (formatUuid p.uuidBytes.toList, .mux, none, p.addons) := by
  rw [header, parseRequest_of_preamble h, if_pos hmux, hmux]

/-- Otherwise the address must be in what the next read returns. -/
theorem header_of_read {s₀ s : Source} {p : Preamble} (h : parsePreamble s₀ = .ok (p, s))
    (hmux : p.command ≠ .mux) :
    header s₀ =
      match TargetAddr.parse (s.read restSize).1 with
      | .error _ => none
      | .ok (t, _) => some (formatUuid p.uuidBytes.toList, p.command, some t, p.addons) := by
  rw [header, parseRequest_of_preamble h, if_neg hmux]
  by_cases hshort : (s.read restSize).1.length < 3
  · -- no address is that short
    have hparse : TargetAddr.parse (s.read restSize).1 = .error (.tooShort _) := if_pos (by omega)
    rw [if_pos hshort, hparse]
  · rw [if_neg hshort]
    cases TargetAddr.parse (s.read restSize).1 <;> rfl

/-- With an address in the stream, the first read decides. -/
theorem header_of_parse {s₀ s : Source} {p : Preamble} {t : TargetAddr} {n : Nat}
    (h : parsePreamble s₀ = .ok (p, s)) (hmux : p.command ≠ .mux)
    (hparse : TargetAddr.parse s.bytes = .ok (t, n)) :
    header s₀ =
      if n ≤ (s.read restSize).1.length then
        some (formatUuid p.uuidBytes.toList, p.command, some t, p.addons)
      else none := by
  rw [← s.read_append restSize] at hparse
  rw [header_of_read h hmux]
  by_cases hle : n ≤ (s.read restSize).1.length
  · rw [if_pos hle, parse_append_iff.2 ⟨hparse, hle⟩]
  · rw [if_neg hle]
    cases hread : TargetAddr.parse (s.read restSize).1 with
    | error e => rfl
    | ok r =>
      rw [(parse_append_iff.1 hread).1] at hparse
      cases hparse
      exact absurd (parse_eq_ok hread).1 hle

/-- Without an address in the stream there is none in the first read. -/
theorem header_of_parse_error {s₀ s : Source} {p : Preamble} {e : AddressError}
    (h : parsePreamble s₀ = .ok (p, s)) (hmux : p.command ≠ .mux)
    (hparse : TargetAddr.parse s.bytes = .error e) : header s₀ = none := by
  rw [← s.read_append restSize] at hparse
  rw [header_of_read h hmux]
  cases hread : TargetAddr.parse (s.read restSize).1 with
  | error e => rfl
  | ok r =>
    rw [(parse_append_iff.1 hread).1] at hparse
    cases hparse

/-- `Covered`, with the preamble read. -/
theorem covered_iff {s₀ s : Source} {p : Preamble} {t : TargetAddr} {n : Nat}
    (h : parsePreamble s₀ = .ok (p, s)) (hmux : p.command ≠ .mux)
    (hparse : TargetAddr.parse s.bytes = .ok (t, n)) :
    Covered s₀ ↔ n ≤ (s.read restSize).1.length := by
  constructor
  · intro hcovered
    exact hcovered p s t n h hmux hparse
  · intro hle p' s' t' n' h' _ hparse'
    rw [h] at h'
    cases h'
    rw [hparse] at hparse'
    cases hparse'
    exact hle

/-! Without an address there is nothing to cover. -/

/-- Without a preamble there is no address to cover. -/
theorem covered_of_error {s : Source} {e : VlessError} (h : parsePreamble s = .error e) :
    Covered s := by
  intro p s' t n hp
  rw [h] at hp
  cases hp

/-- Nor is there one in a `Mux` request. -/
theorem covered_of_mux {s₀ s : Source} {p : Preamble} (h : parsePreamble s₀ = .ok (p, s))
    (hmux : p.command = .mux) : Covered s₀ := by
  intro p' s' t n hp hne
  rw [h] at hp
  cases hp
  exact absurd hmux hne

/-- Nor in bytes that are no address, wherever they are cut. -/
theorem covered_of_parse_error {s₀ s : Source} {p : Preamble} {e : AddressError}
    (h : parsePreamble s₀ = .ok (p, s)) (hparse : TargetAddr.parse s.bytes = .error e) :
    Covered s₀ := by
  intro p' s' t n hp _ hok
  rw [h] at hp
  cases hp
  rw [hparse] at hok
  cases hok

/-- **Two deliveries of the same bytes** give the same answer, and the same user, command,
    target and addons, exactly if the first read after the command covers the address in
    both or in neither. -/
theorem headers_agree_iff (s₁ s₂ : Source) (h : s₁.bytes = s₂.bytes) :
    header s₁ = header s₂ ↔ (Covered s₁ ↔ Covered s₂) := by
  obtain ⟨e, h₁, h₂⟩ | ⟨p, s₁', s₂', h₁, h₂, hrest⟩ := parsePreamble_congr h
  · rw [header_of_error h₁, header_of_error h₂]
    exact iff_of_true rfl (iff_of_true (covered_of_error h₁) (covered_of_error h₂))
  by_cases hmux : p.command = .mux
  · rw [header_of_mux h₁ hmux, header_of_mux h₂ hmux]
    exact iff_of_true rfl (iff_of_true (covered_of_mux h₁ hmux) (covered_of_mux h₂ hmux))
  -- what stands behind the command is the same in both, and so is its parse
  cases hparse : TargetAddr.parse s₁'.bytes with
  | error e =>
    have hparse₂ := hparse
    rw [hrest] at hparse₂
    rw [header_of_parse_error h₁ hmux hparse, header_of_parse_error h₂ hmux hparse₂]
    exact iff_of_true rfl
      (iff_of_true (covered_of_parse_error h₁ hparse) (covered_of_parse_error h₂ hparse₂))
  | ok r =>
    obtain ⟨t, n⟩ := r
    have hparse₂ := hparse
    rw [hrest] at hparse₂
    rw [header_of_parse h₁ hmux hparse, header_of_parse h₂ hmux hparse₂,
      covered_iff h₁ hmux hparse, covered_iff h₂ hmux hparse₂]
    by_cases hle₁ : n ≤ (s₁'.read restSize).1.length <;>
      by_cases hle₂ : n ≤ (s₂'.read restSize).1.length <;> simp [hle₁, hle₂]

/-- A request for 127.0.0.1:80 with one byte of payload, cut before byte `n`. -/
def deliveredAt (n : Nat) : Source :=
  let request : List UInt8 :=
    [0, 0x55, 0x0E, 0x84, 0, 0xE2, 0x9B, 0x41, 0xD4, 0xA7, 0x16, 0x44, 0x66, 0x55, 0x44, 0, 0, 0,
      1, 0, 80, 1, 127, 0, 0, 1, 0x68]
  { pieces := [request.take n, request.drop n].filter (· ≠ [])
    ne_nil := fun piece h => by simpa using (List.mem_filter.1 h).2 }

/-- The request whole, or cut in the user id: both are read. -/
theorem headers_agree_in_uuid : header (deliveredAt 0) = header (deliveredAt 9) :=
  (headers_agree_iff (deliveredAt 0) (deliveredAt 9) rfl).2
    (iff_of_true ((covered_iff rfl (by decide) rfl).2 (by decide))
      ((covered_iff rfl (by decide) rfl).2 (by decide)))

/-- **A cut in the address loses the request**, though all of it is on the way. -/
theorem cut_address_refused :
    (deliveredAt 0).bytes = (deliveredAt 23).bytes ∧
      parseRequest (deliveredAt 23) = .error (.address .truncatedIpv4) ∧
      (header (deliveredAt 0)).map (·.2.2.1) =
        some (some { addr := .ipv4 ⟨[127, 0, 0, 1], rfl⟩, port := 80 }) :=
  ⟨rfl, rfl, rfl⟩

/-! ## Where the bytes went -/

/-- The user id as text, in groups of 8, 4, 4, 4 and 12 lower-case digits. -/
def canonicalUuid (uuid : List UInt8) : Text :=
  Hex.encode (uuid.take 4) ++ [0x2D] ++ Hex.encode ((uuid.drop 4).take 2) ++ [0x2D] ++
    Hex.encode ((uuid.drop 6).take 2) ++ [0x2D] ++ Hex.encode ((uuid.drop 8).take 2) ++ [0x2D] ++
    Hex.encode ((uuid.drop 10).take 6)

/-- The user id is written in the usual groups. -/
theorem formatUuid_eq_canonicalUuid (uuid : List.Vector UInt8 16) :
    formatUuid uuid.toList = canonicalUuid uuid.toList := by
  obtain ⟨bytes, hlen⟩ := uuid
  match bytes, hlen with
  | [_, _, _, _, _, _, _, _, _, _, _, _, _, _, _, _], _ => rfl

/-- The bytes of a request's target; there are none for `Mux`. -/
def targetBytes (target : Option TargetAddr) : List UInt8 := (target.map addressBytes).getD []

/-- **Every byte of a request is accounted for**: whatever the cuts, the stream is version,
    user id, addons with their length, command, address, first payload and the unread rest.
    There is no target for `Mux` and one for the other commands, with a name that fits its
    length byte. -/
theorem request_bytes (s s' : Source) (req : VlessRequest) (h : parseRequest s = .ok (req, s')) :
    s.bytes =
        [0] ++ req.uuidBytes.toList ++ [UInt8.ofNat req.addons.length] ++ req.addons ++
          [req.command.toByte] ++ targetBytes req.target ++ req.initialPayload ++ s'.bytes ∧
      req.addons.length < 256 ∧
      (req.command = .mux ↔ req.target = none) ∧ (∀ t, req.target = some t → Fits t) ∧
      req.uuid = canonicalUuid req.uuidBytes.toList := by
  cases hp : parsePreamble s with
  | error e =>
    rw [parseRequest, hp] at h
    cases h
  | ok r =>
    obtain ⟨p, s₁⟩ := r
    obtain ⟨hbytes, hlen⟩ := parsePreamble_eq_ok hp
    rw [hbytes, ← s₁.read_append restSize]
    rw [parseRequest_of_preamble hp] at h
    split at h
    · -- `Mux`: all that was read is payload
      rename_i hmux
      cases h
      refine ⟨?_, hlen, iff_of_true hmux rfl, by rintro t ⟨⟩, formatUuid_eq_canonicalUuid _⟩
      simp [preambleBytes, targetBytes]
    split at h
    · cases h
    rename_i hmux _
    split at h
    · cases h
    · rename_i t n hparse
      cases h
      obtain ⟨-, haddress⟩ := parse_eq_ok hparse
      refine ⟨?_, hlen, iff_of_false hmux (Option.some_ne_none t), ?_,
        formatUuid_eq_canonicalUuid _⟩
      swap
      · rintro t' ⟨⟩
        exact fits_of_parse hparse
      show preambleBytes p ++ _ = preambleBytes p ++ addressBytes t ++ _ ++ _
      rw [haddress, List.append_assoc _ (List.take _ _), List.take_append_drop, List.append_assoc]

/-- A request cut in the user id, with the byte of payload it came with. -/
theorem request_bytes_in_uuid :
    (deliveredAt 9).bytes =
      [0] ++ [0x55, 0x0E, 0x84, 0, 0xE2, 0x9B, 0x41, 0xD4, 0xA7, 0x16, 0x44, 0x66, 0x55, 0x44, 0,
          0] ++ [0] ++ [] ++ [1] ++ [0, 80, 1, 127, 0, 0, 1] ++ [0x68] ++ [] :=
  (request_bytes (deliveredAt 9) ⟨[], by simp⟩
    { uuid := ascii "550e8400-e29b-41d4-a716-446655440000"
      uuidBytes := ⟨[0x55, 0x0E, 0x84, 0, 0xE2, 0x9B, 0x41, 0xD4, 0xA7, 0x16, 0x44, 0x66, 0x55,
        0x44, 0, 0], rfl⟩
      command := .tcp
      target := some { addr := .ipv4 ⟨[127, 0, 0, 1], rfl⟩, port := 80 }
      addons := []
      initialPayload := [0x68] } rfl).1

end Fogged.Spec.Vless
