import Mathlib.Logic.Function.Basic
import Fogged.Native.VpnConfig

/-!
# Updates of the app (`lib/main.dart`, `lib/widgets/update_dialog.dart`)

A check asks the server for the latest version and offers it in a dialog, from which it is
installed. Three preferences that outlive the app decide whether there is an offer: when the
user has last put it off, which version the user has skipped, and which version counts as
installed. They are read when a check starts, long before the server answers, and written by
dialogs and installations, each by itself; so the state of the app is one phase for each
check and what has become of its dialog, and an event is what goes on between two awaits.

On macOS and Android a version counts as installed before it is: the new bundle is swapped
in by a script after the app has ended, and the package is installed by the system, if the
user agrees. On Windows the installer has returned by then.
-/

namespace Fogged.Native.Updates

open Fogged.Native.Handshake Fogged.Native.App

inductive Platform where
  | macOS
  | windows
  | android
  deriving DecidableEq

/-! ## Preferences -/

/-- `update_dismissed_at`, `update_skipped_version` and `update_installed_version`. -/
structure Prefs where
  dismissedAt : Option Nat
  skippedVersion : Option Text
  installedVersion : Option Text
  deriving DecidableEq

/-- `prefs.setInt`, `prefs.setString`, and `prefs.remove` for `none`. -/
inductive Write where
  | dismissedAt (value : Option Nat)
  | skippedVersion (value : Option Text)
  | installedVersion (value : Option Text)
  deriving DecidableEq

def Prefs.set (p : Prefs) : Write → Prefs
  | .dismissedAt value => { p with dismissedAt := value }
  | .skippedVersion value => { p with skippedVersion := value }
  | .installedVersion value => { p with installedVersion := value }

/-! ## Versions -/

/-- The numbers of a version, three at least. -/
def versionParts (version : Text) : List Int :=
  let parts := (version.splitOn 0x2E).map fun s => (tryParse s).getD 0
  parts ++ List.replicate (3 - parts.length) 0

/-- The loop of `_isNewer`, with `left` numbers to compare. -/
def newerLoop : (left : Nat) → List Int → List Int → Bool
  | left + 1, a :: as, b :: bs =>
    if a > b then true else if a < b then false else newerLoop left as bs
  | _, _, _ => false

/-- `_isNewer`: whether `a` is a later version than `b`. -/
def isNewer (a b : Text) : Bool := newerLoop 3 (versionParts a) (versionParts b)

/-! ## Checks -/

/-- Which call of `_runUpdateCheck`. -/
abbrev CheckId := Nat

/-- Where `_installUpdate` is. -/
inductive Phase where
  | downloading
  /-- The download is complete and has the right hash. -/
  | verified
  /-- The version counts as installed, or the installer of Windows has failed. -/
  | handedOver
  deriving DecidableEq

inductive Check where
  | idle
  /-- Before the preferences are read; a forced check removes them first. -/
  | preparing (forced : Bool) (removals : List Write)
  /-- In `http.get`, with what the preferences were. -/
  | waiting (forced : Bool) (skippedVersion installedVersion : Text)
  /-- The dialog is open. -/
  | showing (version : Text)
  /-- `onSkip` and `onLater`, before the preference is written. -/
  | skipping (version : Text)
  | postponing
  | installing (version : Text) (phase : Phase)
  /-- The dialog shows why the installation has failed. -/
  | failed (version : Text)
  | returned
  deriving DecidableEq

structure State where
  /-- `_appVersion`. -/
  version : Text
  prefs : Prefs
  checks : CheckId → Check

/-- The app is started for the first time. -/
def State.new (version : Text) : State where
  version := version
  prefs := ⟨none, none, none⟩
  checks _ := .idle

/-- What the request for `/version` comes to. -/
inductive Response where
  /-- It throws or times out, or its body is not what is expected. -/
  | failed
  /-- A status other than 200. -/
  | refused
  /-- The version, if the body has one, and the download of the platform. -/
  | ok (version : Option Text) (downloadUrl : Text)

inductive Event where
  | start (c : CheckId) (forced : Bool)
  /-- A forced check removes a preference. -/
  | remove (c : CheckId)
  /-- The preferences are read, at `now` in milliseconds. -/
  | read (c : CheckId) (now : Nat)
  | respond (c : CheckId) (response : Response) (mounted : Bool)
  /-- `onSkip`, which the dialog is given but has no button for. -/
  | skip (c : CheckId)
  /-- The buttons of the dialog, and a click beside it. -/
  | later (c : CheckId)
  | dismiss (c : CheckId)
  | install (c : CheckId)
  /-- `onSkip` and `onLater` write. -/
  | write (c : CheckId) (now : Nat)
  | downloaded (c : CheckId)
  /-- macOS: the bundle is complete; Android: the package is on disk. -/
  | prepared (c : CheckId)
  /-- Windows: the installer returns. -/
  | installerExits (c : CheckId) (code : Int)
  /-- Android: the system has the package. -/
  | handedOver (c : CheckId)
  /-- `_failInstall`, for a check that fails or an exception. -/
  | fails (c : CheckId)
  /-- The app has ended, by itself or not, and runs again: as before, or updated. -/
  | relaunch (version : Text)

inductive Effect where
  | wrote (write : Write)
  /-- The dialog offers a version. -/
  | shown (c : CheckId) (version : Text)
  /-- A forced check says that it has failed, or that there is nothing new. -/
  | checkFailed (c : CheckId)
  | upToDate (c : CheckId)
  deriving DecidableEq

def State.setCheck (s : State) (c : CheckId) (check : Check) : State :=
  { s with checks := Function.update s.checks c check }

/-- A write, after which the check goes on in another phase. -/
def State.write (s : State) (c : CheckId) (check : Check) (w : Write) : State × List Effect :=
  ({ s.setCheck c check with prefs := s.prefs.set w }, [.wrote w])

/-- The dismissal counts for a day. -/
def snooze : Nat := 86400000

/-- An automatic check in the day after a dismissal ends here. -/
def readPrefs (s : State) (c : CheckId) (forced : Bool) (now : Nat) : State :=
  let lastDismissed := s.prefs.dismissedAt.getD 0
  let skippedVersion := s.prefs.skippedVersion.getD []
  let installedVersion := s.prefs.installedVersion.getD []
  if ¬ forced ∧ now < lastDismissed + snooze then s.setCheck c .returned
  else s.setCheck c (.waiting forced skippedVersion installedVersion)

/-- The server has answered. -/
def respond (s : State) (c : CheckId) (forced : Bool) (skippedVersion installedVersion : Text)
    (response : Response) (mounted : Bool) : State × List Effect :=
  let status (effect : Effect) : List Effect := if forced ∧ mounted then [effect] else []
  match response with
  | .failed | .refused => (s.setCheck c .returned, status (.checkFailed c))
  | .ok version downloadUrl =>
    let latest := version.getD s.version
    let hasUpdate := isNewer latest s.version ∧ latest ≠ skippedVersion ∧ latest ≠ installedVersion
    if ¬ hasUpdate then (s.setCheck c .returned, status (.upToDate c))
    else if downloadUrl = [] ∨ ¬ mounted then (s.setCheck c .returned, [])
    else (s.setCheck c (.showing latest), [.shown c latest])

/-- The steps of `_runUpdateCheck` up to the dialog. -/
def stepCheck (s : State) : Event → Option (State × List Effect)
  | .start c forced =>
    match s.checks c with
    | .idle =>
      let removals := if forced then
        [.dismissedAt none, .installedVersion none, .skippedVersion none] else []
      some (s.setCheck c (.preparing forced removals), [])
    | _ => none
  | .remove c =>
    match s.checks c with
    | .preparing forced (w :: removals) => some (s.write c (.preparing forced removals) w)
    | _ => none
  | .read c now =>
    match s.checks c with
    | .preparing forced [] => some (readPrefs s c forced now, [])
    | _ => none
  | .respond c response mounted =>
    match s.checks c with
    | .waiting forced skippedVersion installedVersion =>
      some (respond s c forced skippedVersion installedVersion response mounted)
    | _ => none
  | _ => none

/-- The steps of the dialog. After a failure, of its buttons only `onLater` writes. -/
def stepDialog (s : State) : Event → Option (State × List Effect)
  | .skip c =>
    match s.checks c with
    | .showing version => some (s.setCheck c (.skipping version), [])
    | _ => none
  | .later c =>
    match s.checks c with
    | .showing _ | .failed _ => some (s.setCheck c .postponing, [])
    | _ => none
  | .dismiss c =>
    match s.checks c with
    | .showing _ | .failed _ => some (s.setCheck c .returned, [])
    | _ => none
  | .write c now =>
    match s.checks c with
    | .skipping version => some (s.write c .returned (.skippedVersion (some version)))
    | .postponing => some (s.write c .returned (.dismissedAt (some now)))
    | _ => none
  | _ => none

/-- The steps of `_installUpdate`. -/
def stepInstall (platform : Platform) (s : State) : Event → Option (State × List Effect)
  | .install c =>
    match s.checks c with
    | .showing version => some (s.setCheck c (.installing version .downloading), [])
    | _ => none
  | .downloaded c =>
    match s.checks c with
    | .installing version .downloading => some (s.setCheck c (.installing version .verified), [])
    | _ => none
  | .prepared c =>
    match s.checks c with
    | .installing version .verified =>
      if platform = .windows then none
      else some (s.write c (.installing version .handedOver) (.installedVersion (some version)))
    | _ => none
  | .installerExits c code =>
    match s.checks c with
    | .installing version .verified =>
      if platform ≠ .windows then none
      -- only mark as installed if the installer succeeded
      else if code = 0 then
        some (s.write c (.installing version .handedOver) (.installedVersion (some version)))
      else some (s.setCheck c (.installing version .handedOver), [])
    | _ => none
  | .handedOver c =>
    match s.checks c with
    | .installing _ .handedOver =>
      if platform = .android then some (s.setCheck c .returned, []) else none
    | _ => none
  | .fails c =>
    match s.checks c with
    | .installing version _ => some (s.setCheck c (.failed version), [])
    | _ => none
  | _ => none

/-- One step of the app. An event belongs to one of the three parts, or is the end of all. -/
def step (platform : Platform) (s : State) (e : Event) : Option (State × List Effect) :=
  match e with
  | .relaunch version => some ({ s with version, checks := fun _ => .idle }, [])
  | e => (stepCheck s e).or ((stepDialog s e).or (stepInstall platform s e))

end Fogged.Native.Updates
