import Mathlib.Logic.Function.Basic
import Fogged.Native.Handshake

/-!
# Stored secrets (`lib/main.dart`, `_secRead`, `_secWrite`, `_secDelete`)

The user id, the Telegram handle and the VK link are kept in the keychain. Where it
fails, in unsigned builds for instance, the shared preferences stand in for it. Each
call decides for itself: a keychain operation that throws leaves the keychain as it
was, and the shared preferences always work.

The calls are awaited one after the other, so each is one step; whether its keychain
operation succeeds is part of the event.
-/

namespace Fogged.Native.SecureStorage

open Fogged.Native.Handshake

structure State where
  keychain : Text → Option Text
  /-- The strings among the shared preferences. -/
  prefs : Text → Option Text

/-- As installed. -/
def State.new : State where
  keychain _ := none
  prefs _ := none

/-- The preference that stands in for a key. -/
def prefKey (key : Text) : Text := ascii "sec_" ++ key

/-- `ok` says whether `_secureStorage.read` returns. -/
def secRead (s : State) (key : Text) (ok : Bool) : Option Text :=
  match if ok then s.keychain key else none with
  | some value => some value
  | none => s.prefs (prefKey key)

def secWrite (s : State) (key value : Text) (ok : Bool) : State :=
  if ok then { s with keychain := Function.update s.keychain key (some value) }
  else { s with prefs := Function.update s.prefs (prefKey key) (some value) }

def secDelete (s : State) (key : Text) (ok : Bool) : State :=
  let s := if ok then { s with keychain := Function.update s.keychain key none } else s
  { s with prefs := Function.update s.prefs (prefKey key) none }

inductive Event where
  | read (key : Text) (ok : Bool)
  | write (key value : Text) (ok : Bool)
  | delete (key : Text) (ok : Bool)
  deriving DecidableEq

/-- The calls as their caller sees them. -/
inductive Effect where
  | returned (key : Text) (result : Option Text)
  | wrote (key value : Text)
  | deleted (key : Text)
  deriving DecidableEq

def step (s : State) : Event → Option (State × List Effect)
  | .read key ok => some (s, [.returned key (secRead s key ok)])
  | .write key value ok => some (secWrite s key value ok, [.wrote key value])
  | .delete key ok => some (secDelete s key ok, [.deleted key])

end Fogged.Native.SecureStorage
