import Fogged.Native.Handshake

/-!
# IP literals (`str::parse::<IpAddr>` of the standard library)

The client decides by this parser whether a destination is a name or an address.
A part of the parser takes what it recognises from the front of the text, or leaves
the text alone.
-/

namespace Fogged.Native

open Fogged.Native.Handshake

/-- `std::net::IpAddr`. -/
inductive IpAddr where
  | v4 (octets : List UInt8)
  | v6 (groups : List UInt16)
  deriving DecidableEq

namespace IpAddr

/-- The value of a digit below `radix`, `char::to_digit`. -/
def toDigit (radix : Nat) (b : UInt8) : Option Nat :=
  (Hex.digit? b).bind fun d => if d < radix then some d else none

/-- The digits at the front of a text, and what follows them. -/
def spanDigits (radix : Nat) : Text → List Nat × Text
  | [] => ([], [])
  | b :: text =>
    match toDigit radix b with
    | none => ([], b :: text)
    | some d => let (digits, rest) := spanDigits radix text; (d :: digits, rest)

/-- `read_number`: one to `maxDigits` digits, below `bound`. -/
def readNumber (radix maxDigits bound : Nat) (allowZeroPrefix : Bool) (text : Text) :
    Option (Nat × Text) :=
  let (digits, rest) := spanDigits radix text
  let value := digits.foldl (fun acc d => acc * radix + d) 0
  if digits.length = 0 ∨ maxDigits < digits.length ∨ bound ≤ value then none
  else if ¬ allowZeroPrefix ∧ digits.head? = some 0 ∧ 1 < digits.length then none
  else some (value, rest)

/-- `read_given_char`. -/
def readGivenChar (c : UInt8) : Text → Option Text
  | [] => none
  | b :: text => if b = c then some text else none

/-- `read_separator`: the separator in front of all parts but the first. -/
def readSeparator {α : Type} (sep : UInt8) (index : Nat) (inner : Text → Option (α × Text))
    (text : Text) : Option (α × Text) :=
  if index = 0 then inner text else (readGivenChar sep text).bind inner

/-- Octets `index` to 3 of an IPv4 address. -/
def readOctets (index count : Nat) (text : Text) : Option (List UInt8 × Text) :=
  match count with
  | 0 => some ([], text)
  | count + 1 => do
    let (octet, text) ← readSeparator 0x2E index (readNumber 10 3 256 false) text
    let (octets, text) ← readOctets (index + 1) count text
    some (UInt8.ofNat octet :: octets, text)

/-- `read_ipv4_addr`. -/
def readIpv4Addr (text : Text) : Option (List UInt8 × Text) := readOctets 0 4 text

/-- `text.parse::<Ipv4Addr>()`: at most 15 bytes, an address and nothing else. -/
def parseIpv4 (text : Text) : Option (List UInt8) :=
  if 15 < text.length then none
  else
    match readIpv4Addr text with
    | some (octets, []) => some octets
    | _ => none

/-- `read_groups`: up to `left` groups from number `index` on, the last two of which
    may be written as an IPv4 address, and whether they were. -/
def readGroups (index left : Nat) (text : Text) : List UInt16 × Bool × Text :=
  match left with
  | 0 => ([], false, text)
  | left + 1 =>
    let embedded := if 0 < left then readSeparator 0x3A index readIpv4Addr text else none
    match embedded with
    | some (octets, text) =>
      let group (pair : List UInt8) := UInt16.ofNat (Bytes.ofBE pair)
      ([group (octets.take 2), group (octets.drop 2)], true, text)
    | none =>
      match readSeparator 0x3A index (readNumber 16 4 65536 true) text with
      | none => ([], false, text)
      | some (g, text) =>
        let (groups, ipv4, text) := readGroups (index + 1) left text
        (UInt16.ofNat g :: groups, ipv4, text)

/-- `read_ipv6_addr`: eight groups, or fewer around `::`. -/
def readIpv6Addr (text : Text) : Option (List UInt16 × Text) :=
  let (head, headIpv4, text) := readGroups 0 8 text
  if head.length = 8 then some (head, text)
  -- an IPv4 part is not allowed before `::`
  else if headIpv4 then none
  else do
    let text ← readGivenChar 0x3A text
    let text ← readGivenChar 0x3A text
    let (tail, _, text) := readGroups 0 (8 - (head.length + 1)) text
    some (head ++ List.replicate (8 - head.length - tail.length) 0 ++ tail, text)

/-- `text.parse::<IpAddr>()`: an address and nothing else. -/
def parse (text : Text) : Option IpAddr :=
  let read :=
    match readIpv4Addr text with
    | some (octets, rest) => some (IpAddr.v4 octets, rest)
    | none => (readIpv6Addr text).map fun (groups, rest) => (IpAddr.v6 groups, rest)
  match read with
  | some (ip, []) => some ip
  | _ => none

end IpAddr

end Fogged.Native
