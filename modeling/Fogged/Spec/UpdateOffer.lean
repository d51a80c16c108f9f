import Fogged.ForStd.Register
import Fogged.Native.Updates

/-!
# Whether an update is offered again

The preferences are registers: they hold what was written last, by whichever check, dialog
or installation. So what an automatic check finds in them is a matter of the history of the
app, and so is its outcome. The mark that a version is installed is never taken back, except
by a check that the user asks for. On macOS and Android it is set before the installation is
over, and if that fails, the version is not offered again.

## Key results

- `step_cases`: what a step can do
- `get_eq_some_iff`: a preference as a matter of history
- `update_offered_iff`: when an automatic check offers a new version
-/

namespace Fogged.Spec.Updates

open Machine Fogged.Native Fogged.Native.Handshake Fogged.Native.Updates

/-! ## Steps -/

/-- Which check an event belongs to. -/
def checkOf : Event → Option CheckId
  | .start c _ | .remove c | .read c _ | .respond c _ _ | .skip c | .later c | .dismiss c
  | .install c | .write c _ | .downloaded c | .prepared c | .installerExits c _ | .handedOver c
  | .fails c => some c
  | .relaunch _ => none

/-- The check `c` goes on in another phase, with or without a write. -/
def Moves (s : State) (c : CheckId) (r : State × List Effect) : Prop :=
  (∃ check, r.1 = s.setCheck c check ∧ ∀ w, .wrote w ∉ r.2) ∨ ∃ check w, r = s.write c check w

/-- A check goes on without a write. -/
theorem Moves.quiet (s : State) (c : CheckId) (check : Check) :
    Moves s c (s.setCheck c check, []) :=
  .inl ⟨check, rfl, by simp⟩

theorem Moves.wrote (s : State) (c : CheckId) (check : Check) (w : Write) :
    Moves s c (s.write c check w) :=
  .inr ⟨check, w, rfl⟩

section

variable {platform : Platform} {s : State} {c : CheckId} {e : Event} {r : State × List Effect}

/-- A check reads the preferences. -/
theorem moves_readPrefs (forced : Bool) (now : Nat) :
    Moves s c (readPrefs s c forced now, []) := by
  unfold readPrefs
  dsimp only
  split
  · exact .quiet ..
  · exact .quiet ..

/-- The answer of the server is compared with what was read. -/
theorem moves_respond (forced : Bool) (skippedVersion installedVersion : Text)
    (response : Response) (mounted : Bool) :
    Moves s c (respond s c forced skippedVersion installedVersion response mounted) := by
  -- a check that ends writes nothing, whatever it shows
  have hstatus (effect : Effect) (h : ∀ w, effect ≠ .wrote w) :
      Moves s c (s.setCheck c .returned, if forced ∧ mounted then [effect] else []) := by
    refine .inl ⟨_, rfl, fun w => ?_⟩
    dsimp only
    split
    · simpa using (h w).symm
    · simp
  cases response with
  | failed => exact hstatus (.checkFailed c) (by simp)
  | refused => exact hstatus (.checkFailed c) (by simp)
  | ok version downloadUrl =>
    rw [respond]
    dsimp only
    split
    · exact hstatus (.upToDate c) (by simp)
    · split
      · exact .quiet ..
      · exact .inl ⟨_, rfl, by simp⟩

/-- The steps from the start of a check to its answer. -/
theorem moves_stepCheck (hc : checkOf e = some c) (h : stepCheck s e = some r) : Moves s c r := by
  cases e
  case start =>
    cases hc
    rw [stepCheck] at h
    split at h
    · cases h
      exact .quiet ..
    · cases h
  -- a check that the user asks for takes the marks back, one by one
  case remove =>
    cases hc
    rw [stepCheck] at h
    split at h
    · cases h
      exact .wrote ..
    · cases h
  case read =>
    cases hc
    rw [stepCheck] at h
    split at h
    · cases h
      exact moves_readPrefs ..
    · cases h
  case respond =>
    cases hc
    rw [stepCheck] at h
    split at h
    · cases h
      exact moves_respond ..
    · cases h
  all_goals cases h

/-- The steps of the dialog. -/
theorem moves_stepDialog (hc : checkOf e = some c) (h : stepDialog s e = some r) : Moves s c r := by
  cases e
  case skip =>
    cases hc
    rw [stepDialog] at h
    split at h
    · cases h
      exact .quiet ..
    · cases h
  -- the write comes after the dialog is gone
  case write =>
    cases hc
    rw [stepDialog] at h
    split at h
    · cases h
      exact .wrote ..
    · cases h
      exact .wrote ..
    · cases h
  case later | dismiss =>
    cases hc
    rw [stepDialog] at h
    split at h
    · cases h
      exact .quiet ..
    · cases h
      exact .quiet ..
    · cases h
  all_goals cases h

/-- The steps of an installation, which differ between the platforms. -/
theorem moves_stepInstall (hc : checkOf e = some c) (h : stepInstall platform s e = some r) :
    Moves s c r := by
  -- the mark is written in two places: before the handover, or after an installer that succeeded
  cases e
  case install | downloaded | fails =>
    cases hc
    rw [stepInstall] at h
    split at h
    · cases h
      exact .quiet ..
    · cases h
  case prepared =>
    cases hc
    rw [stepInstall] at h
    split at h
    · split at h
      · cases h
      · cases h
        exact .wrote ..
    · cases h
  -- only an exit code of 0 is written down
  case installerExits =>
    cases hc
    rw [stepInstall] at h
    split at h
    · split at h
      · cases h
      · split at h
        · cases h
          exact .wrote ..
        · cases h
          exact .quiet ..
    · cases h
  case handedOver =>
    cases hc
    rw [stepInstall] at h
    split at h
    · split at h
      · cases h
        exact .quiet ..
      · cases h
    · cases h
  all_goals cases h

/-- What a step can do: the app starts again, or one check goes on. -/
theorem step_cases {t : State} {o : List Effect} (h : step platform s e = some (t, o)) :
    (∃ version, e = .relaunch version ∧ t = { s with version, checks := fun _ => .idle } ∧ o = []) ∨
      ∃ c, checkOf e = some c ∧ Moves s c (t, o) := by
  unfold step at h
  split at h
  · rename_i version
    cases h
    exact .inl ⟨version, rfl, rfl, rfl⟩
  · rename_i hother
    obtain ⟨c, hc⟩ : ∃ c, checkOf e = some c := by
      cases e
      case relaunch version => exact absurd rfl (hother version)
      all_goals exact ⟨_, rfl⟩
    refine .inr ⟨c, hc, ?_⟩
    -- a phase has steps of one of three kinds
    obtain hcheck | ⟨-, h⟩ := Option.or_eq_some_iff.1 h
    · exact moves_stepCheck hc hcheck
    · obtain hdialog | ⟨-, hinstall⟩ := Option.or_eq_some_iff.1 h
      · exact moves_stepDialog hc hdialog
      · exact moves_stepInstall hc hinstall

/-- A step of another check leaves `c` as it is. -/
theorem step_frame {t : State} {o : List Effect} (h : step platform s e = some (t, o))
    (he : ∃ c', checkOf e = some c' ∧ c' ≠ c) :
    t.checks c = s.checks c ∧ t.version = s.version := by
  obtain ⟨c', hc', hne⟩ := he
  have hupdate (check : Check) : (s.setCheck c' check).checks c = s.checks c :=
    Function.update_of_ne (Ne.symm hne) ..
  obtain ⟨version, rfl, -⟩ | ⟨c'', hc'', hmoves⟩ := step_cases h
  · cases hc'
  · obtain rfl : c' = c'' := Option.some.inj (hc'.symm.trans hc'')
    obtain ⟨check, rfl, -⟩ | ⟨check, w, hr⟩ := hmoves
    · exact ⟨hupdate check, rfl⟩
    · cases hr
      exact ⟨hupdate check, rfl⟩

/-! ## The preferences as registers -/

/-- A step writes one preference or none. -/
theorem step_prefs {t : State} {o : List Effect} (h : step platform s e = some (t, o)) :
    (t.prefs = s.prefs ∧ ∀ w, .wrote w ∉ o) ∨ ∃ w, t.prefs = s.prefs.set w ∧ o = [.wrote w] := by
  obtain ⟨version, rfl, rfl, rfl⟩ | ⟨c, -, ⟨check, rfl, hquiet⟩ | ⟨check, w, hr⟩⟩ := step_cases h
  · exact .inl ⟨rfl, by simp⟩
  · exact .inl ⟨rfl, hquiet⟩
  · cases hr
    exact .inr ⟨w, rfl, rfl⟩

end

/-- One of the preferences: how it is read, and its writes. -/
structure Pref (β : Type) where
  get : Prefs → Option β
  set : Option β → Write
  written : Write → Option (Option β)
  get_set : ∀ p w, get (p.set w) = (written w).getD (get p)
  written_eq : ∀ w value, written w = some value ↔ w = set value
  get_new : get (State.new []).prefs = none

def dismissedAt : Pref Nat where
  get := Prefs.dismissedAt
  set := .dismissedAt
  written
    | .dismissedAt value => some value
    | _ => none
  get_set _ w := by cases w <;> rfl
  written_eq w _ := by cases w <;> simp
  get_new := rfl

def skippedVersion : Pref Text where
  get := Prefs.skippedVersion
  set := .skippedVersion
  written
    | .skippedVersion value => some value
    | _ => none
  get_set _ w := by cases w <;> rfl
  written_eq w _ := by cases w <;> simp
  get_new := rfl

def installedVersion : Pref Text where
  get := Prefs.installedVersion
  set := .installedVersion
  written
    | .installedVersion value => some value
    | _ => none
  get_set _ w := by cases w <;> rfl
  written_eq w _ := by cases w <;> simp
  get_new := rfl

/-- The writes of a preference among all effects. -/
def Pref.writes {β : Type} (pref : Pref β) : Effect → Option (Option β)
  | .wrote w => pref.written w
  | _ => none

/-- The value `b` has been written, and the preference has not been written since. -/
def Holds {β : Type} (pref : Pref β) (history : List Effect) (b : β) : Prop :=
  ∃ before after, history = before ++ .wrote (pref.set (some b)) :: after ∧
    ∀ value, .wrote (pref.set value) ∉ after

section

variable {β : Type} (pref : Pref β)

/-- A write of the preference, as an effect. -/
theorem writes_eq_some_iff {x : Effect} {value : Option β} :
    pref.writes x = some value ↔ x = .wrote (pref.set value) := by
  cases x with
  | wrote w => rw [Pref.writes, pref.written_eq, Effect.wrote.injEq]
  | shown | checkFailed | upToDate => simp [Pref.writes]

/-- The last write among all effects. -/
theorem holds_iff {history : List Effect} {b : β} :
    Holds pref history b ↔ lastWrite pref.writes history = some (some b) := by
  rw [lastWrite_eq_some_iff]
  constructor
  · rintro ⟨before, after, rfl, hafter⟩
    refine ⟨before, _, after, rfl, (writes_eq_some_iff pref).2 rfl, fun y hy => ?_⟩
    -- no effect behind it is a write of the same preference
    rw [Option.eq_none_iff_forall_ne_some]
    intro value hvalue
    rw [(writes_eq_some_iff pref).1 hvalue] at hy
    exact hafter value hy
  · rintro ⟨before, x, after, rfl, hx, hafter⟩
    rw [(writes_eq_some_iff pref).1 hx]
    refine ⟨before, after, rfl, fun value hmem => ?_⟩
    have hnone := hafter _ hmem
    rw [(writes_eq_some_iff pref).2 rfl] at hnone
    cases hnone

/-- A preference holds what was written last. -/
theorem get_of_run {platform : Platform} {s t : State} {events : List Event} {out : List Effect}
    (hrun : run (step platform) s events = some (t, out)) :
    pref.get t.prefs = (lastWrite pref.writes out).getD (pref.get s.prefs) := by
  -- enough for one step: it writes nothing, or one preference, this one or another
  refine run_register (fun s => pref.get s.prefs) (fun s e t o hstep => ?_) hrun
  obtain ⟨hprefs, hquiet⟩ | ⟨w, hprefs, rfl⟩ := step_prefs hstep
  · have hnone : lastWrite pref.writes o = none := by
      rw [lastWrite, List.findSome?_eq_none_iff]
      intro x hx
      cases x with
      | wrote w => exact absurd (List.mem_reverse.1 hx) (hquiet w)
      | shown | checkFailed | upToDate => rfl
    rw [hprefs, hnone]
    rfl
  · rw [hprefs, lastWrite_singleton]
    exact pref.get_set s.prefs w

variable {platform : Platform} {version₀ : Text} {events : List Event} {s : State}
  {history : List Effect} (hrun : run (step platform) (.new version₀) events = some (s, history))

include hrun

/-- A preference is a matter of history. -/
theorem get_eq_some_iff {b : β} : pref.get s.prefs = some b ↔ Holds pref history b := by
  have hnew : pref.get (State.new version₀).prefs = none := pref.get_new
  rw [holds_iff, get_of_run pref hrun, hnew]
  cases lastWrite pref.writes history <;> simp

end

/-! ## The offer -/

/-- The events between the start of a check and its answer: those of other checks, since the
    app that has asked must still be there. -/
def Spares (c : CheckId) (e : Event) : Prop := ∃ c', checkOf e = some c' ∧ c' ≠ c

/-- The version is shown when the server answers the check `c`. -/
def Offered (platform : Platform) (s : State) (c : CheckId) (version downloadUrl : Text) : Prop :=
  ∃ t out, step platform s (.respond c (.ok (some version) downloadUrl) true) = some (t, out) ∧
    .shown c version ∈ out

section

variable {platform : Platform} {s : State} {c : CheckId} {version downloadUrl : Text}

/-- A check that has returned shows nothing. -/
theorem not_offered_of_returned (h : s.checks c = .returned) :
    ¬ Offered platform s c version downloadUrl := by
  rintro ⟨t, out, hstep, -⟩
  simp [step, stepCheck, stepDialog, stepInstall, h] at hstep

/-- A version that is newer is offered unless the preferences have named it. -/
theorem offered_iff_of_waiting {skipped installed : Text}
    (hnewer : isNewer version s.version = true) (hurl : downloadUrl ≠ [])
    (h : s.checks c = .waiting false skipped installed) :
    Offered platform s c version downloadUrl ↔ version ≠ skipped ∧ version ≠ installed := by
  have hstep : step platform s (.respond c (.ok (some version) downloadUrl) true) =
      some (respond s c false skipped installed (.ok (some version) downloadUrl) true) := by
    simp [step, stepCheck, stepDialog, stepInstall, h]
  unfold Offered
  rw [hstep]
  by_cases hprefs : version ≠ skipped ∧ version ≠ installed
  · -- newer, with a link, and not named by either preference
    have hshown : respond s c false skipped installed (.ok (some version) downloadUrl) true =
        (s.setCheck c (.showing version), [.shown c version]) := by
      simp [respond, hnewer, hprefs, hurl]
    rw [hshown]
    exact iff_of_true ⟨_, _, rfl, List.mem_singleton_self _⟩ hprefs
  · refine iff_of_false ?_ hprefs
    rintro ⟨t, out, hout, hshown⟩
    simp only [respond, Option.getD_some, hnewer, true_and, if_pos hprefs] at hout
    cases hout
    simp at hshown

/-- The check is still waiting when other checks have gone on. -/
theorem spared_run {t : State} {mid : List Event} {out : List Effect}
    (hrun : run (step platform) s mid = some (t, out)) (hmid : ∀ e ∈ mid, Spares c e) :
    t.checks c = s.checks c ∧ t.version = s.version := by
  induction mid generalizing s out with
  | nil =>
    cases hrun
    exact ⟨rfl, rfl⟩
  | cons e mid ih =>
    obtain ⟨u, o, os, hstep, hrest, rfl⟩ := run_cons_eq_some.1 hrun
    obtain ⟨hcheck, hversion⟩ := step_frame hstep (hmid e List.mem_cons_self)
    obtain ⟨hcheck', hversion'⟩ := ih hrest fun x hx => hmid x (List.mem_cons_of_mem e hx)
    exact ⟨hcheck'.trans hcheck, hversion'.trans hversion⟩

end

section

variable {platform : Platform} {version₀ : Text} {before mid : List Event} {s t : State}
  {history later : List Effect} {c : CheckId} {now : Nat}
  (hrun : run (step platform) (.new version₀) before = some (s, history))
  (hcheck : s.checks c = .preparing false [])
  (hmid : run (step platform) s (.read c now :: mid) = some (t, later))
  (hspares : ∀ e ∈ mid, Spares c e)

include hcheck hmid hspares in
/-- What the check finds, and has found when it is answered. -/
theorem check_at_answer :
    t.version = s.version ∧ t.checks c =
      if now < s.prefs.dismissedAt.getD 0 + snooze then .returned
      else .waiting false (s.prefs.skippedVersion.getD []) (s.prefs.installedVersion.getD []) := by
  obtain ⟨u, o, os, hread, hrest, -⟩ := run_cons_eq_some.1 hmid
  -- other checks change preferences, but not what this one has read
  obtain ⟨hcheck', hversion'⟩ := spared_run hrest hspares
  have hstep : step platform s (.read c now) = some (readPrefs s c false now, []) := by
    simp [step, stepCheck, stepDialog, stepInstall, hcheck]
  rw [hstep] at hread
  cases hread
  rw [hcheck', hversion', readPrefs]
  split
  · -- within the time for which the user does not want to be asked
    rename_i hearly
    rw [if_pos hearly.2]
    exact ⟨rfl, Function.update_self ..⟩
  · rename_i hlate
    rw [if_neg fun hnow => hlate ⟨by simp, hnow⟩]
    exact ⟨rfl, Function.update_self ..⟩

include hrun in
/-- A dismissal that is a day old does not stop a check. -/
theorem early_iff
    (hdismiss : ∀ moment, Holds dismissedAt history moment → moment + snooze ≤ now) :
    now < s.prefs.dismissedAt.getD 0 + snooze ↔ ¬ snooze ≤ now := by
  cases hlast : s.prefs.dismissedAt with
  | none =>
    rw [Option.getD_none]
    omega
  | some moment =>
    have hold := hdismiss moment ((get_eq_some_iff dismissedAt hrun).1 hlast)
    rw [Option.getD_some]
    omega

end

/-- **When an update is offered**: after any history of the app, an automatic check starts
    and is answered, while other checks and their dialogs go on. Let the answer be a version
    that is newer than the app and that the user has not skipped, and let the last dismissal
    be a day old. Then it is offered exactly if it does not count as installed, and if the
    clock is past the first day of its era. -/
theorem update_offered_iff (platform : Platform) (version₀ : Text) (before mid : List Event)
    (s t : State) (history later : List Effect) (c : CheckId) (now : Nat)
    (version downloadUrl : Text)
    (hrun : run (step platform) (.new version₀) before = some (s, history))
    (hcheck : s.checks c = .preparing false [])
    (hmid : run (step platform) s (.read c now :: mid) = some (t, later))
    (hspares : ∀ e ∈ mid, Spares c e)
    (hversion : version ≠ []) (hnewer : isNewer version s.version = true)
    (hskip : ¬ Holds skippedVersion history version)
    (hdismiss : ∀ moment, Holds dismissedAt history moment → moment + snooze ≤ now)
    (hurl : downloadUrl ≠ []) :
    Offered platform t c version downloadUrl ↔
      ¬ Holds installedVersion history version ∧ snooze ≤ now := by
  obtain ⟨hsame, hphase⟩ := check_at_answer hcheck hmid hspares
  have hearly := early_iff hrun hdismiss
  by_cases hday : snooze ≤ now
  · -- the check has gone on, with the preferences as they were when it read them
    rw [if_neg fun h => hearly.1 h hday] at hphase
    rw [offered_iff_of_waiting (hsame ▸ hnewer) hurl hphase, and_iff_left hday]
    have hskipped : version ≠ s.prefs.skippedVersion.getD [] := by
      cases hlast : s.prefs.skippedVersion with
      | none => exact hversion
      | some skipped =>
        rintro rfl
        exact hskip ((get_eq_some_iff skippedVersion hrun).1 hlast)
    have hinstalled : version ≠ s.prefs.installedVersion.getD [] ↔
        ¬ Holds installedVersion history version := by
      rw [← get_eq_some_iff installedVersion hrun]
      show _ ↔ ¬ s.prefs.installedVersion = some version
      cases s.prefs.installedVersion with
      | none => simpa using hversion
      | some installed => simp [eq_comm]
    rw [and_iff_right hskipped, hinstalled]
  · -- without a dismissal its time reads as 0, so the first day counts as dismissed
    rw [if_pos (hearly.2 hday)] at hphase
    exact iff_of_false (not_offered_of_returned hphase) fun h => hday h.2

/-- A check that is answered with version 2.0.0. -/
def checkEvents (c : CheckId) (now : Nat) : List Event :=
  [.start c false, .read c now, .respond c (.ok (some (ascii "2.0.0")) (ascii "https://dl")) true]

/-- Two days after the beginning of the era. -/
def noon : Nat := 2 * snooze

/-- On Windows the installer fails: the update is offered again. -/
theorem update_offered_windows :
    ∃ s history t, run (step .windows) (.new (ascii "1.0.0")) (checkEvents 0 noon ++
        [.install 0, .downloaded 0, .installerExits 0 1, .relaunch (ascii "1.0.0"),
          .start 1 false]) = some (s, history) ∧
      run (step .windows) s [.read 1 noon] = some (t, []) ∧
      Offered .windows t 1 (ascii "2.0.0") (ascii "https://dl") := by
  have hfacts : (run (step .windows) (.new (ascii "1.0.0")) (checkEvents 0 noon ++
      [.install 0, .downloaded 0, .installerExits 0 1, .relaunch (ascii "1.0.0"),
        .start 1 false])).map (fun r => (r.1.version, r.1.checks 1, r.2)) =
        some (ascii "1.0.0", .preparing false [], [.shown 0 (ascii "2.0.0")]) := by
    decide +kernel
  obtain ⟨⟨s, history⟩, hrun, heq⟩ := Option.map_eq_some_iff.1 hfacts
  obtain ⟨hversion, hcheck, hhistory⟩ : s.version = ascii "1.0.0" ∧
      s.checks 1 = .preparing false [] ∧ history = [.shown 0 (ascii "2.0.0")] := by
    simpa using heq
  have hread : run (step .windows) s [.read 1 noon] = some (readPrefs s 1 false noon, []) :=
    run_singleton (by simp [step, stepCheck, stepDialog, stepInstall, hcheck])
  -- nothing has been written
  have hnever {β : Type} (pref : Pref β) (b : β) : ¬ Holds pref history b := by
    rintro ⟨before, after, hsplit, -⟩
    have hmem : .wrote (pref.set (some b)) ∈ history := by
      rw [hsplit]
      exact List.mem_append_right before List.mem_cons_self
    simp [hhistory] at hmem
  refine ⟨s, history, _, hrun, hread, ?_⟩
  refine (update_offered_iff .windows (ascii "1.0.0") _ [] s _ history _ 1 noon _ _ hrun hcheck
    hread (by simp) (by decide) ?_ ?_ ?_ (by decide)).2 ⟨?_, by decide⟩
  · rw [hversion]
    decide +kernel
  · exact hnever skippedVersion _
  · exact fun moment h => absurd h (hnever dismissedAt moment)
  · exact hnever installedVersion _

/-- On macOS the bundle is not swapped, on Android the user does not install the package: the
    next check, of the same version of the app, does not offer the update. -/
theorem failed_update_not_offered :
    let failed := checkEvents 0 noon ++ [.install 0, .downloaded 0, .prepared 0,
      .relaunch (ascii "1.0.0")]
    let effects := [.shown 0 (ascii "2.0.0"), .wrote (.installedVersion (some (ascii "2.0.0")))]
    isNewer (ascii "2.0.0") (ascii "1.0.0") = true ∧
    ∀ platform ∈ [Platform.macOS, .android],
      (run (step platform) (.new (ascii "1.0.0")) failed).map (·.2) = some effects ∧
      (run (step platform) (.new (ascii "1.0.0")) (failed ++ checkEvents 1 (2 * noon))).map (·.2) =
        some effects := by
  decide +kernel

end Fogged.Spec.Updates
