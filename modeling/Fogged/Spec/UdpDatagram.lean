import Fogged.Spec.OrcaFrame
import Fogged.Spec.TargetAddress

/-!
# Datagrams in frames

A datagram frame has two lengths of 16 bits: that of the datagram, which always fits, and
that of the frame, which counts the address as well. Every IP address leaves enough room
for the largest datagram; a domain of more than 22 bytes does not.

## Key results

- `datagram_survives_iff`: which datagrams come out as they were put in
- `datagram_wraps`: a domain of 23 bytes and the largest datagram
-/

namespace Fogged.Spec.UdpDatagram

open Fogged.Native Fogged.Native.Orca
open Fogged.Spec.Orca Fogged.Spec.TargetAddress

/-- The largest payload of a UDP datagram. -/
def maxDatagram : Nat := 65507

/-- The frame is decoded and leaves what follows it; its payload is the target, the length
    of the datagram and the datagram. -/
def Survives (t : TargetAddr) (d rest : List UInt8) : Prop :=
  ∃ f n len, Frame.decode ((Frame.udpDatagram t d).encode ++ rest) = .ok (f, rest) ∧
    f.frameType = .udpDatagram ∧ TargetAddr.parse f.payload = .ok (t, n) ∧
    f.payload.drop n = len ++ d ∧ len.length = 2 ∧ Bytes.ofBE len = d.length

/-- What a datagram adds to its data. -/
theorem length_payload (t : TargetAddr) (d : List UInt8) :
    (Frame.udpDatagram t d).payload.length = (addressBytes t).length + 2 + d.length := by
  rw [udpDatagram_payload]
  simp only [List.length_append, Bytes.length_toBE]
  omega

/-- **Datagrams survive** exactly if address, length and datagram fit a frame. -/
theorem datagram_survives_iff (t : TargetAddr) (hfits : Fits t) (d rest : List UInt8)
    (hd : d.length ≤ maxDatagram) :
    Survives t d rest ↔ (addressBytes t).length + 2 + d.length ≤ maxFrameSize := by
  constructor
  · rintro ⟨f, n, len, hdecode, -⟩
    rw [← length_payload]
    exact length_le_of_decode hdecode
  · intro hlen
    have hdecode := decode_encode_append (Frame.udpDatagram t d)
      (by rw [length_payload]; exact hlen) rest
    -- a datagram is not padded, so nothing is stripped
    have hclear : (Frame.udpDatagram t d).flags &&& padded = 0 := by
      show udp &&& padded = 0
      decide
    rw [stripPadding_of_clear hclear] at hdecode
    have hlt : d.length < 2 ^ 16 := by
      unfold maxDatagram at hd
      omega
    refine ⟨_, (addressBytes t).length, Bytes.toBE 2 d.length, hdecode, rfl, ?_, ?_,
      Bytes.length_toBE 2 _, Bytes.ofBE_toBE hlt⟩
    · dsimp only
      rw [udpDatagram_payload]
      exact parse_addressBytes_append hfits _
    · dsimp only
      rw [udpDatagram_payload, List.drop_left, UInt16.toNat_ofNat_of_lt' hlt]

/-- A question to a name server. -/
theorem datagram_survives_dns :
    Fits ⟨.ipv4 ⟨[8, 8, 8, 8], rfl⟩, 53⟩ ∧
      Survives ⟨.ipv4 ⟨[8, 8, 8, 8], rfl⟩, 53⟩ [1, 2, 3] [9] :=
  have hfits : Fits ⟨.ipv4 ⟨[8, 8, 8, 8], rfl⟩, 53⟩ := by
    intro name h
    cases h
  ⟨hfits, (datagram_survives_iff _ hfits _ _ (by decide)).2 (by decide)⟩

/-- **A datagram that wraps.** With 23 bytes of domain the payload has 65536 bytes; the
    frame says zero, and the payload is left in the stream. -/
theorem datagram_wraps :
    ∃ t d, Fits t ∧ d.length = maxDatagram ∧
      (Frame.udpDatagram t d).payload.length = 65536 ∧
      Frame.decode (Frame.udpDatagram t d).encode =
        .ok (⟨.udpDatagram, udp, 0, []⟩, (Frame.udpDatagram t d).payload) ∧ ¬ Survives t d [] := by
  let t : TargetAddr := ⟨.domain "resolver.example.domain", 53⟩
  let d : List UInt8 := List.replicate maxDatagram 0
  have hsize : "resolver.example.domain".utf8ByteSize = 23 := by decide
  have hlen : (Frame.udpDatagram t d).payload.length = maxFrameSize + 1 := by
    have haddr : (addressBytes t).length = 4 + 23 := by
      simp only [t, addressBytes, hostBytes, List.length_append, List.length_cons, length_utf8,
        Bytes.length_toBE, hsize]
    rw [length_payload, haddr, List.length_replicate]
    rfl
  -- the length field has two bytes, so it holds zero
  have hdecode := decode_encode_full (Frame.udpDatagram t d) hlen []
  rw [List.append_nil, List.append_nil] at hdecode
  refine ⟨t, d, ?_, List.length_replicate, hlen, hdecode, ?_⟩
  · intro name h
    cases h
    rw [hsize]
    decide
  · rintro ⟨f, n, len, hsurvives, -⟩
    have hle := length_le_of_decode hsurvives
    omega

end Fogged.Spec.UdpDatagram
