import Fogged.ForStd.Bytes
import Fogged.ForStd.Outcome
import Fogged.Native.Address

/-!
# OrcaX frames (`orcax/protocol/src/orca.rs`)

After the handshake both sides exchange frames

  `[type: 1] [flags: 1] [stream_id: 4] [length: 2] [payload: N]`

with numbers in big-endian order. A frame may be padded before it is written: the
padding is appended to the payload, its last byte is its length, and the flag
`padded` is set. `Frame.decode` reads from a byte list what the source reads from
an `AsyncRead` that ends after those bytes, and returns what is left unread.
-/

namespace Fogged.Native.Orca

/-- Max frame payload size, `MAX_FRAME_SIZE`. -/
def maxFrameSize : Nat := 65535

/-- Max padding size, `MAX_PADDING`. -/
def maxPadding : Nat := 256

/-- Frame types of the multiplexed stream protocol. -/
inductive FrameType where
  | data
  | streamOpen
  | streamClose
  | ping
  | pong
  | goAway
  | windowUpdate
  | udpDatagram
  | passthrough
  deriving DecidableEq, Repr

/-- Why `Frame.decode` gives up. -/
inductive DecodeError where
  | shortHeader
  | unknownType (b : UInt8)
  | tooLarge (length : Nat)
  | shortPayload
  deriving DecidableEq, Repr

namespace FrameType

/-- `frame_type as u8`. -/
def toByte : FrameType → UInt8
  | .data => 0x00
  | .streamOpen => 0x01
  | .streamClose => 0x02
  | .ping => 0x03
  | .pong => 0x04
  | .goAway => 0x05
  | .windowUpdate => 0x06
  | .udpDatagram => 0x07
  | .passthrough => 0x08

def fromByte (b : UInt8) : Except DecodeError FrameType :=
  match b with
  | 0x00 => .ok .data
  | 0x01 => .ok .streamOpen
  | 0x02 => .ok .streamClose
  | 0x03 => .ok .ping
  | 0x04 => .ok .pong
  | 0x05 => .ok .goAway
  | 0x06 => .ok .windowUpdate
  | 0x07 => .ok .udpDatagram
  | 0x08 => .ok .passthrough
  | _ => .error (.unknownType b)

end FrameType

/-- The flag `PADDED`: the frame has padding appended. -/
def padded : UInt8 := 0x04

/-- The flag `UDP`. -/
def udp : UInt8 := 0x08

/-- A single frame. -/
structure Frame where
  frameType : FrameType
  flags : UInt8
  streamId : UInt32
  payload : List UInt8
  deriving DecidableEq, Repr

/-- What one `with_padding` call draws from the thread's random generator: a number
    of the requested range, and fill bytes. -/
structure Rng where
  genRange : Nat → Nat → Nat
  genRange_mem : ∀ lo hi, lo ≤ hi → lo ≤ genRange lo hi ∧ genRange lo hi ≤ hi
  fill : Nat → UInt8

/-- `gen_range(lo..=hi)`, which panics on an empty range. -/
def Rng.sample (rng : Rng) (lo hi : Nat) : Outcome Nat :=
  if lo ≤ hi then .ret (rng.genRange lo hi) else .panic

/-- The bytes `with_padding` appends when it drew the length `padLen`. -/
def paddingBytes (rng : Rng) (padLen : Nat) : List UInt8 :=
  let padding := (List.range padLen).map rng.fill
  -- last byte = padding length
  if padding.isEmpty then padding else padding.dropLast ++ [UInt8.ofNat padLen]

/-- What `decode` keeps of the bytes it read as payload. -/
def stripPadding (flags : UInt8) (payload : List UInt8) : List UInt8 :=
  if flags &&& padded ≠ 0 then
    match payload.getLast? with
    | none => payload
    | some last =>
      let padLen := last.toNat
      if padLen < payload.length then payload.take (payload.length - padLen - 1) else payload
  else payload

namespace Frame

/-- A data frame. -/
def data (streamId : UInt32) (payload : List UInt8) : Frame :=
  { frameType := .data, flags := 0, streamId, payload }

/-- A stream open frame with its target. -/
def streamOpen (streamId : UInt32) (target : TargetAddr) : Frame :=
  let addr :=
    match target.addr with
    | .ipv4 octets => 1 :: octets.toList
    | .domain name => 2 :: UInt8.ofNat name.utf8ByteSize :: name.toUTF8.data.toList
    | .ipv6 octets => 3 :: octets.toList
  -- the command is TCP by default
  { frameType := .streamOpen, flags := 0, streamId,
    payload := [1] ++ Bytes.toBE 2 target.port.toNat ++ addr }

/-- A datagram with its target; it belongs to no stream. -/
def udpDatagram (target : TargetAddr) (data : List UInt8) : Frame :=
  let addr :=
    match target.addr with
    | .ipv4 octets => 1 :: octets.toList
    | .domain name => 2 :: UInt8.ofNat name.utf8ByteSize :: name.toUTF8.data.toList
    | .ipv6 octets => 3 :: octets.toList
  let len := UInt16.ofNat data.length
  { frameType := .udpDatagram, flags := udp, streamId := 0,
    payload := Bytes.toBE 2 target.port.toNat ++ addr ++ Bytes.toBE 2 len.toNat ++ data }

/-- A pong frame. -/
def pong : Frame :=
  { frameType := .pong, flags := 0, streamId := 0, payload := [] }

/-- Serialize a frame. The length field is `payload.len() as u16`. -/
def encode (f : Frame) : List UInt8 :=
  let len := UInt16.ofNat f.payload.length
  f.frameType.toByte :: f.flags ::
    (Bytes.toBE 4 f.streamId.toNat ++ Bytes.toBE 2 len.toNat ++ f.payload)

/-- Read a frame from the front of the input. -/
def decode (input : List UInt8) : Except DecodeError (Frame × List UInt8) :=
  match input with
  | type :: flags :: i0 :: i1 :: i2 :: i3 :: l0 :: l1 :: input => do
    let frameType ← FrameType.fromByte type
    let streamId := UInt32.ofNat (Bytes.ofBE [i0, i1, i2, i3])
    let length := Bytes.ofBE [l0, l1]
    if length > maxFrameSize then
      .error (.tooLarge length)
    else
      match Bytes.readExact length input with
      | none => .error .shortPayload
      | some (payload, input) =>
        .ok ({ frameType, flags, streamId, payload := stripPadding flags payload }, input)
  | _ => .error .shortHeader

/-- Add random padding to a frame. -/
def withPadding (f : Frame) (rng : Rng) (min max : Nat) : Outcome Frame := do
  let padLen ← rng.sample min (Nat.min max maxPadding)
  .ret { f with payload := f.payload ++ paddingBytes rng padLen, flags := f.flags ||| padded }

end Frame

end Fogged.Native.Orca
