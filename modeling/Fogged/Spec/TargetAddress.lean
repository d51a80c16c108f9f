import Fogged.Native.CdnMode
import Fogged.Native.MuxPool
import Fogged.Native.QuicMode

/-!
# Target addresses: one format, four encoders, one parser

`addressBytes` is the format. `Frame.streamOpen` and `Frame.udpDatagram` write it, and
so do the two copies in `quic_socks5` and `cdn_socks5`, from the text of the host;
`TargetAddr.parse` reads exactly this format, whatever follows it.

## Key results

- `parse_addressBytes_append`, `parse_eq_ok`: the two directions of the round trip
- `streamOpen_targetAddr`: the handmade addresses are those of a StreamOpen
- `target_addresses`: all encoders and the parser together
-/

namespace Fogged.Spec.TargetAddress

open Fogged.Native Fogged.Native.Orca Fogged.Native.Handshake

/-! ## Strings and their bytes -/

/-- The bytes of a string. -/
def utf8 (s : String) : List UInt8 := s.toUTF8.data.toList

theorem length_utf8 (s : String) : (utf8 s).length = s.utf8ByteSize := by
  simp [utf8]

/-- Reading a string's bytes gives the string back. -/
theorem fromUTF8?_utf8 (s : String) : String.fromUTF8? ⟨(utf8 s).toArray⟩ = some s := by
  have hbytes : (⟨(utf8 s).toArray⟩ : ByteArray) = s.toByteArray := by simp [utf8]
  rw [hbytes, String.fromUTF8?, dif_pos s.isValidUTF8]
  rfl

/-- What is read as a string are the bytes of that string. -/
theorem utf8_of_fromUTF8? {bytes : List UInt8} {s : String}
    (h : String.fromUTF8? ⟨bytes.toArray⟩ = some s) : utf8 s = bytes := by
  unfold String.fromUTF8? at h
  split at h
  · cases h
    simp [utf8, String.fromUTF8]
  · cases h

/-! ## The format -/

/-- A host with its type byte. -/
def hostBytes : Address → List UInt8
  | .ipv4 octets => 1 :: octets.toList
  | .domain name => 2 :: UInt8.ofNat name.utf8ByteSize :: utf8 name
  | .ipv6 octets => 3 :: octets.toList

def addressBytes (t : TargetAddr) : List UInt8 := Bytes.toBE 2 t.port.toNat ++ hostBytes t.addr

/-- The length of a domain fits its byte. -/
def Fits (t : TargetAddr) : Prop := ∀ name, t.addr = .domain name → name.utf8ByteSize ≤ 255

/-- A StreamOpen carries the address behind one byte. -/
theorem streamOpen_payload (id : UInt32) (t : TargetAddr) :
    (Frame.streamOpen id t).payload = 1 :: addressBytes t := by
  obtain ⟨addr, port⟩ := t
  cases addr <;> rfl

/-- In a datagram the address stands in front. -/
theorem udpDatagram_payload (t : TargetAddr) (data : List UInt8) :
    (Frame.udpDatagram t data).payload =
      addressBytes t ++ (Bytes.toBE 2 (UInt16.ofNat data.length).toNat ++ data) := by
  obtain ⟨addr, port⟩ := t
  cases addr <;> simp [Frame.udpDatagram, addressBytes, hostBytes, utf8]

/-! ## Parsing what was written -/

/-- The octets of an address are read back. -/
theorem readOctets_append {n : Nat} (octets : List.Vector UInt8 n) (rest : List UInt8) :
    readOctets n (octets.toList ++ rest) = some octets := by
  have hlen : octets.toList.length = n := octets.toList_length
  rw [readOctets, dif_pos (by simp [hlen])]
  congr 1
  apply List.Vector.eq
  show (octets.toList ++ rest).take n = octets.toList
  exact List.take_left' hlen

/-- A host is parsed from the front of what follows the port. -/
theorem parseHost_append (addr : Address)
    (hfits : ∀ name, addr = .domain name → name.utf8ByteSize ≤ 255) (rest : List UInt8) :
    ∃ addrType host, hostBytes addr = addrType :: host ∧
      parseHost addrType (host ++ rest) = .ok (addr, 2 + (hostBytes addr).length) := by
  cases addr with
  | ipv4 octets =>
    refine ⟨1, octets.toList, rfl, ?_⟩
    simp [parseHost, readOctets_append, hostBytes]
  | ipv6 octets =>
    refine ⟨3, octets.toList, rfl, ?_⟩
    simp [parseHost, readOctets_append, hostBytes]
  | domain name =>
    refine ⟨2, UInt8.ofNat name.utf8ByteSize :: utf8 name, rfl, ?_⟩
    -- the length byte holds the size of the name
    have hlt : name.utf8ByteSize < 256 := Nat.lt_succ_of_le (hfits name rfl)
    have hlen : (UInt8.ofNat name.utf8ByteSize).toNat = (utf8 name).length := by
      rw [UInt8.toNat_ofNat_of_lt' hlt, length_utf8]
    simp only [parseHost, List.cons_append, hlen, Bytes.readExact_append, fromUTF8?_utf8, hostBytes,
      List.length_cons]
    congr 2
    omega

/-- **What was written is parsed**, whatever follows it. -/
theorem parse_addressBytes_append {t : TargetAddr} (hfits : Fits t) (rest : List UInt8) :
    TargetAddr.parse (addressBytes t ++ rest) = .ok (t, (addressBytes t).length) := by
  obtain ⟨addr, port⟩ := t
  obtain ⟨addrType, host, hhost, hparse⟩ := parseHost_append addr hfits rest
  obtain ⟨p0, p1, hport, hofBE⟩ := Bytes.exists_toBE_two port.toNat_lt
  have hback : UInt16.ofNat (Bytes.ofBE [p0, p1]) = port := by
    rw [hofBE, UInt16.ofNat_toNat]
  -- no host is empty, so there are at least four bytes
  have hlong : 2 ≤ (hostBytes addr).length := by
    cases addr <;> simp [hostBytes]
  have hdata : addressBytes ⟨addr, port⟩ ++ rest = p0 :: p1 :: addrType :: (host ++ rest) := by
    simp [addressBytes, hport, hhost]
  have hlen : (addressBytes ⟨addr, port⟩).length = 2 + (hostBytes addr).length := by
    simp [addressBytes]
  rw [hhost, List.length_cons] at hlong
  rw [hdata, hlen, TargetAddr.parse, if_neg (by simp; omega)]
  simp only [hparse, hback]
  rfl

/-! ## Writing what was parsed -/

/-- What is read are the first bytes. -/
theorem readOctets_eq_some {n : Nat} {bytes : List UInt8} {octets : List.Vector UInt8 n}
    (h : readOctets n bytes = some octets) : n ≤ bytes.length ∧ octets.toList = bytes.take n := by
  unfold readOctets at h
  split at h
  · rename_i hle
    cases h
    exact ⟨hle, rfl⟩
  · cases h

/-- A parsed host is what stands in front. -/
theorem parseHost_eq_ok {addrType : UInt8} {rest : List UInt8} {addr : Address} {n : Nat}
    (h : parseHost addrType rest = .ok (addr, n)) :
    3 ≤ n ∧ n ≤ 3 + rest.length ∧ hostBytes addr = addrType :: rest.take (n - 3) ∧
      ∀ name, addr = .domain name → name.utf8ByteSize ≤ 255 := by
  unfold parseHost at h
  split at h
  · -- IPv4
    split at h
    · cases h
    · rename_i octets hoctets
      cases h
      obtain ⟨hle, htake⟩ := readOctets_eq_some hoctets
      exact ⟨by omega, by omega, by rw [hostBytes, htake], by rintro name ⟨⟩⟩
  · -- a domain, with its length byte
    split at h
    · cases h
    · rename_i domainLen bytes
      split at h
      · cases h
      · rename_i taken left hread
        obtain ⟨hlen, hsplit⟩ := Bytes.readExact_eq_some hread
        split at h
        · cases h
        · rename_i name hname
          cases h
          have hutf8 : utf8 name = taken := utf8_of_fromUTF8? hname
          have hsize : name.utf8ByteSize = domainLen.toNat := by rw [← length_utf8, hutf8, hlen]
          have htake : (domainLen :: bytes).take (4 + domainLen.toNat - 3) = domainLen :: taken := by
            rw [show 4 + domainLen.toNat - 3 = domainLen.toNat + 1 by omega, List.take_succ_cons,
              hsplit, List.take_left' hlen]
          refine ⟨by omega, ?_, ?_, ?_⟩
          · simp only [List.length_cons, hsplit, List.length_append]
            omega
          · rw [hostBytes, hutf8, hsize, UInt8.ofNat_toNat, htake]
          · intro name' heq
            cases heq
            have hlt := domainLen.toNat_lt
            omega
  · -- IPv6
    split at h
    · cases h
    · rename_i octets hoctets
      cases h
      obtain ⟨hle, htake⟩ := readOctets_eq_some hoctets
      exact ⟨by omega, by omega, by rw [hostBytes, htake], by rintro name ⟨⟩⟩
  · cases h

/-- An address that is parsed has a port and a host. -/
theorem parse_split {data : List UInt8} {t : TargetAddr} {n : Nat}
    (h : TargetAddr.parse data = .ok (t, n)) :
    ∃ p0 p1 addrType rest, data = p0 :: p1 :: addrType :: rest ∧
      parseHost addrType rest = .ok (t.addr, n) ∧
      t.port = UInt16.ofNat (Bytes.ofBE [p0, p1]) := by
  unfold TargetAddr.parse at h
  split at h
  · -- fewer than four bytes are refused
    cases h
  split at h
  · rename_i p0 p1 addrType rest _
    cases hhost : parseHost addrType rest with
    | error e =>
      rw [hhost] at h
      cases h
    | ok r =>
      rw [hhost] at h
      cases h
      exact ⟨p0, p1, addrType, rest, rfl, hhost, rfl⟩
  · cases h

/-- **What was parsed is written** as it was. -/
theorem parse_eq_ok {data : List UInt8} {t : TargetAddr} {n : Nat}
    (h : TargetAddr.parse data = .ok (t, n)) : n ≤ data.length ∧ addressBytes t = data.take n := by
  obtain ⟨p0, p1, addrType, rest, rfl, hhost, hport⟩ := parse_split h
  obtain ⟨hmin, hmax, hbytes, -⟩ := parseHost_eq_ok hhost
  have hback : Bytes.toBE 2 t.port.toNat = [p0, p1] := by
    rw [hport]
    exact Bytes.toBE_toNat_ofBE rfl
  obtain ⟨k, rfl⟩ : ∃ k, n = k + 3 := ⟨n - 3, by omega⟩
  refine ⟨by simp only [List.length_cons]; omega, ?_⟩
  simp only [addressBytes, hback, hbytes, Nat.add_sub_cancel]
  rfl

/-- A parsed domain came with its length in one byte. -/
theorem fits_of_parse {data : List UInt8} {t : TargetAddr} {n : Nat}
    (h : TargetAddr.parse data = .ok (t, n)) : Fits t := by
  obtain ⟨_, _, _, _, -, hhost, -⟩ := parse_split h
  exact (parseHost_eq_ok hhost).2.2.2

/-- What follows an address does not matter to the parser, and it reads no address that
    is cut. -/
theorem parse_append_iff {front back : List UInt8} {t : TargetAddr} {n : Nat} :
    TargetAddr.parse front = .ok (t, n) ↔
      TargetAddr.parse (front ++ back) = .ok (t, n) ∧ n ≤ front.length := by
  -- an address that is parsed stands at the front, as a whole
  have hwhole {data : List UInt8} (h : TargetAddr.parse data = .ok (t, n)) :
      data = addressBytes t ++ data.drop n ∧ (addressBytes t).length = n := by
    obtain ⟨hle, hbytes⟩ := parse_eq_ok h
    rw [hbytes, List.take_append_drop, List.length_take]
    exact ⟨rfl, by omega⟩
  constructor
  · intro h
    obtain ⟨hfront, hlen⟩ := hwhole h
    refine ⟨?_, (parse_eq_ok h).1⟩
    rw [hfront, List.append_assoc, parse_addressBytes_append (fits_of_parse h), hlen]
  · rintro ⟨h, hle⟩
    obtain ⟨-, hbytes⟩ := parse_eq_ok h
    obtain ⟨-, hlen⟩ := hwhole h
    have hfront : front = addressBytes t ++ front.drop n := by
      rw [hbytes, List.take_append_of_le_length hle, List.take_append_drop]
    rw [hfront, parse_addressBytes_append (fits_of_parse h), hlen]

/-! ## The handmade addresses -/

/-- An IPv4 literal has as many octets as were asked for. -/
theorem length_readOctets {index count : Nat} {text rest : Text} {octets : List UInt8}
    (h : IpAddr.readOctets index count text = some (octets, rest)) : octets.length = count := by
  induction count generalizing index text octets with
  | zero =>
    cases h
    rfl
  | succ count ih =>
    simp only [IpAddr.readOctets, Option.bind_eq_bind, Option.bind_eq_some_iff] at h
    obtain ⟨⟨octet, text'⟩, -, ⟨octets', text''⟩, hrest, heq⟩ := h
    cases heq
    rw [List.length_cons, ih hrest]

/-- An IPv4 address has four octets. -/
theorem length_parseIpv4 {text : Text} {octets : List UInt8}
    (h : IpAddr.parseIpv4 text = some octets) : octets.length = 4 := by
  unfold IpAddr.parseIpv4 at h
  split at h
  · cases h
  · split at h
    · rename_i hread
      cases h
      exact length_readOctets hread
    · cases h

/-- The address that `handle_socks5` sends, from the text of the host. -/
theorem streamOpen_targetAddr (id : UInt32) (host : String) (port : UInt16) :
    (Frame.streamOpen id (MuxPool.targetAddr (utf8 host) port)).payload =
      [1] ++ Bytes.toBE 2 port.toNat ++
        match IpAddr.parseIpv4 (utf8 host) with
        | some octets => [1] ++ octets
        | none => [2, UInt8.ofNat (utf8 host).length] ++ utf8 host := by
  rw [streamOpen_payload, addressBytes, MuxPool.targetAddr]
  cases hip : IpAddr.parseIpv4 (utf8 host) with
  | some octets =>
    simp only [dif_pos (length_parseIpv4 hip)]
    rfl
  | none =>
    simp only [fromUTF8?_utf8, Option.getD_some, hostBytes, length_utf8]
    rfl

/-- **All encoders and the parser.** Parsing undoes writing, with anything behind the
    address, in a StreamOpen after its command byte and in a datagram; what is parsed is
    the front of the data, as it would be written; and the addresses that `quic_socks5`
    and `cdn_socks5` put together are those of the StreamOpen that `handle_socks5`
    sends for the same host and port. -/
theorem target_addresses :
    (∀ id t rest, Fits t →
      TargetAddr.parse ((Frame.streamOpen id t).payload.drop 1 ++ rest) =
        .ok (t, (Frame.streamOpen id t).payload.length - 1)) ∧
    (∀ id t data rest, Fits t →
      TargetAddr.parse ((Frame.udpDatagram t data).payload ++ rest) =
        .ok (t, (Frame.streamOpen id t).payload.length - 1)) ∧
    (∀ id data t n, TargetAddr.parse data = .ok (t, n) →
      n ≤ data.length ∧ (Frame.streamOpen id t).payload.drop 1 = data.take n) ∧
    ∀ id (host : String) port, host.utf8ByteSize ≤ 255 →
      QuicMode.address (utf8 host) port =
          (Frame.streamOpen id (MuxPool.targetAddr (utf8 host) port)).payload ∧
        CdnMode.address (utf8 host) port =
          (Frame.streamOpen id (MuxPool.targetAddr (utf8 host) port)).payload := by
  refine ⟨fun id t rest hfits => ?_, fun id t data rest hfits => ?_, fun id data t n h => ?_,
    fun id host port _ => ?_⟩
  · rw [streamOpen_payload]
    exact parse_addressBytes_append hfits rest
  · rw [streamOpen_payload, udpDatagram_payload, List.append_assoc]
    exact parse_addressBytes_append hfits _
  · rw [streamOpen_payload]
    exact parse_eq_ok h
  · rw [streamOpen_targetAddr]
    exact ⟨rfl, rfl⟩

end Fogged.Spec.TargetAddress
