import Fogged.ForStd.Json

/-!
# Status lines (`orcax/client/src/main.rs`, `lib/main.dart`)

orcax-connect tells the app what it is doing in lines on its standard output, each of them
a JSON object: `emit` writes the changes of its status and `dlog` the log. Neither escapes
what it puts between quotes, but `dlog` replaces quotes and backslashes first. The app
splits what it reads into lines and decodes each of them by itself; what it cannot decode
it shows in the log.

A text is a list of UTF-16 code units, as the app has it; that is more than the strings
there are in Rust. How a number literal becomes an `int` is left open.
-/

namespace Fogged.Native.StatusChannel

open Json

/-! ## orcax-connect -/

/-- What is passed to `emit` as the status. -/
inductive Status where
  | connecting
  | connected
  | reconnecting
  | error
  deriving DecidableEq

def Status.text : Status → Units
  | .connecting => units "connecting"
  | .connected => units "connected"
  | .reconnecting => units "reconnecting"
  | .error => units "error"

/-- The line break of `println!`. -/
def newline : UInt16 := unit '\n'

def carriageReturn : UInt16 := unit '\r'

/-- What `emit` writes. -/
def emit (s : Units) : Option Units → Units
  | some v =>
    units "\x7b\"status\":\"" ++ s ++ units "\",\"detail\":\"" ++ v ++ units "\"\x7d" ++ [newline]
  | none => units "\x7b\"status\":\"" ++ s ++ units "\"\x7d" ++ [newline]

def apostrophe : UInt16 := 39

/-- `msg.replace('"', "'").replace('\\', "/")`. -/
def cleaned (msg : Units) : Units :=
  (msg.map fun c => if c = quote then apostrophe else c).map fun c =>
    if c = backslash then unit '/' else c

/-- The decimal digits of a number. -/
def decimal (n : Nat) : Units := (Nat.toDigits 10 n).map unit

/-- What `dlog` writes, at the time `ts`. -/
def dlog (ts : Nat) (msg : Units) : Units :=
  units "\x7b\"status\":\"log\",\"ts\":" ++ decimal ts ++ units ",\"msg\":\"" ++ cleaned msg ++
    units "\"\x7d" ++ [newline]

/-! ## The app -/

/-- `LineSplitter`; `skip` says that a line feed now belongs to a carriage return. -/
def splitFrom (skip : Bool) (line : Units) : Units → List Units
  | [] => if line = [] then [] else [line]
  | c :: rest =>
    if c = newline then
      if skip then splitFrom false line rest else line :: splitFrom false [] rest
    else if c = carriageReturn then line :: splitFrom true [] rest
    else splitFrom false (line ++ [c]) rest

def splitLines (text : Units) : List Units := splitFrom false [] text

/-- What the app does on a line. -/
inductive Action where
  /-- `_enableVpnRouting` and `_onConnected`. -/
  | onConnected
  | addLog (msg : Units)
  /-- `_connecting = false`. -/
  | notConnecting
  | showError (msg : Units)
  /-- `_downloaded`. -/
  | downloaded (down : Int)
  deriving DecidableEq

/-- `value as String?`; `none` if it throws. -/
def asString : Option Value → Option (Option Units)
  | none | some (.scalar .null) => some none
  | some (.string text) => some (some text)
  | _ => none

/-- `value as int?`. -/
def asInt (intOf : Units → Option Int) : Option Value → Option (Option Int)
  | none | some (.scalar .null) => some none
  | some (.scalar (.number literal)) => (intOf literal).map some
  | _ => none

/-- The part of `_handleOrcaxOutput` that depends on the status. -/
def handleStatus (intOf : Units → Option Int) (line : Units) (members : List (Units × Value))
    (status : Option Units) : List Action :=
  if status = some (units "connected") then [.onConnected]
  else if status = some (units "log") then
    match asString (field members (units "msg")) with
    | some msg => [.addLog (msg.getD [])]
    | none => [.addLog line]
  else if status = some (units "error") then
    match asString (field members (units "detail")) with
    | some detail => [.notConnecting, .showError (detail.getD (units "Unknown error"))]
    | none => [.notConnecting, .addLog line]
  else if status = some (units "stats") then
    match asInt intOf (field members (units "down")) with
    | some down => [.downloaded (down.getD 0)]
    | none => [.addLog line]
  else []

/-- `_handleOrcaxOutput`. -/
def handleOrcaxOutput (intOf : Units → Option Int) (line : Units) : List Action :=
  match decode line with
  | some (.object members) =>
    match asString (field members (units "status")) with
    | some status => handleStatus intOf line members status
    | none => [.addLog line]
  | _ => [.addLog line]

end Fogged.Native.StatusChannel
