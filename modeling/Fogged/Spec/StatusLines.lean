import Fogged.Native.StatusChannel

/-!
# What the app reads from the status lines

A detail that needs no escapes comes out as it was put in. One that needs them does not: the
line breaks, or the scanner stops at a control character, or what it reads up to the next
quote is too short to be the detail.

The log is different: a message may break a line into pieces, and a piece could read as
anything. But a piece has no quotes other than those that `dlog` has written itself, so that
it is not JSON, or an object without members, or the whole line.

## Key results

- `status_events_arrive`: which details arrive
- `quote_loses_event`: an error that is taken for a line of the log
- `log_forges_nothing`: whatever is logged, no piece of it is an event of another kind
-/

namespace Fogged.Spec.StatusChannel

open Fogged.Native.StatusChannel
open Json

/-! ## Lines -/

/-- Nothing ends a line. -/
def OneLine (text : Units) : Prop := ∀ c ∈ text, c ≠ newline ∧ c ≠ carriageReturn

instance (text : Units) : Decidable (OneLine text) :=
  List.decidableBAll (fun c => c ≠ newline ∧ c ≠ carriageReturn) text

/-- Two texts without line ends, put together. -/
theorem OneLine.append {a b : Units} (ha : OneLine a) (hb : OneLine b) : OneLine (a ++ b) :=
  fun c hc => (List.mem_append.1 hc).elim (ha c) (hb c)

/-- Text without line ends goes to the current line. -/
theorem splitFrom_append {a : Units} (ha : OneLine a) (line rest : Units) :
    splitFrom false line (a ++ rest) = splitFrom false (line ++ a) rest := by
  induction a generalizing line with
  | nil => simp
  | cons c a ih =>
    obtain ⟨hnewline, hreturn⟩ := ha c List.mem_cons_self
    rw [List.cons_append, splitFrom, if_neg hnewline, if_neg hreturn,
      ih (fun d hd => ha d (List.mem_cons_of_mem _ hd)), List.append_assoc, List.singleton_append]

/-- A single line with its end. -/
theorem splitLines_newline {a : Units} (ha : OneLine a) : splitLines (a ++ [newline]) = [a] := by
  rw [splitLines, splitFrom_append ha]
  rfl

/-- A line that has been begun is returned. -/
theorem splitFrom_ne_nil {line : Units} (hline : line ≠ []) (skip : Bool) (text : Units) :
    splitFrom skip line text ≠ [] := by
  induction text generalizing skip line with
  | nil => simp [splitFrom, hline]
  | cons c text ih =>
    rw [splitFrom]
    split
    · split
      · exact ih hline false
      · exact List.cons_ne_nil _ _
    · split
      · exact List.cons_ne_nil _ _
      · exact ih (List.append_ne_nil_of_right_ne_nil _ (List.cons_ne_nil _ _)) false

/-- A character that ends no line is in one. -/
theorem splitFrom_ne_nil_of_mem {text : Units} {c : UInt16} (hc : c ≠ newline ∧ c ≠ carriageReturn)
    (hmem : c ∈ text) (skip : Bool) (line : Units) : splitFrom skip line text ≠ [] := by
  induction text generalizing skip line with
  | nil => cases hmem
  | cons d text ih =>
    rw [splitFrom]
    rcases List.mem_cons.1 hmem with rfl | hmem
    · -- from here on the current line is not empty
      rw [if_neg hc.1, if_neg hc.2]
      exact splitFrom_ne_nil (List.append_ne_nil_of_right_ne_nil _ (List.cons_ne_nil _ _)) false _
    · split
      · split
        · exact ih hmem false line
        · exact List.cons_ne_nil _ _
      · split
        · exact List.cons_ne_nil _ _
        · exact ih hmem false _

/-- What comes out as one line is one, up to the last character in it. -/
theorem oneLine_of_splitFrom {text rest line l : Units} {c : UInt16}
    (hc : c ≠ newline ∧ c ≠ carriageReturn) (hmem : c ∈ rest)
    (h : splitFrom false line (text ++ rest) = [l]) : OneLine text := by
  induction text generalizing line with
  | nil => exact nofun
  | cons d text ih =>
    have hrest : c ∈ text ++ rest := List.mem_append_right _ hmem
    rw [List.cons_append, splitFrom] at h
    split at h
    · -- a line feed or a carriage return would start another line
      exact absurd (List.cons.inj h).2 (splitFrom_ne_nil_of_mem hc hrest false [])
    · rename_i hnewline
      split at h
      · exact absurd (List.cons.inj h).2 (splitFrom_ne_nil_of_mem hc hrest true [])
      · rename_i hreturn
        exact List.forall_mem_cons.2 ⟨⟨hnewline, hreturn⟩, ih h⟩

/-- How a line lies in `first ++ middle ++ last`: it is all of it, its start, its end, or in
    the middle. -/
def Piece (P : UInt16 → Prop) (first middle last l : Units) : Prop :=
  l = first ++ middle ++ last ∨ (∃ p, (∀ c ∈ p, P c) ∧ l = first ++ p) ∨
    (∃ q, (∀ c ∈ q, P c) ∧ l = q ++ last) ∨ ∀ c ∈ l, P c

/-- After a line break there is no start any more. -/
theorem Piece.of_nil {P : UInt16 → Prop} {first middle middle' last l : Units}
    (hmiddle : ∀ c ∈ middle, P c) (h : Piece P [] middle last l) :
    Piece P first middle' last l := by
  rcases h with rfl | ⟨p, hp, rfl⟩ | h | h
  · exact .inr (.inr (.inl ⟨middle, hmiddle, rfl⟩))
  · exact .inr (.inr (.inr hp))
  · exact .inr (.inr (.inl h))
  · exact .inr (.inr (.inr h))

/-- One character goes from the middle to the start. -/
theorem Piece.cons {P : UInt16 → Prop} {first middle last l : Units} {c : UInt16} (hc : P c)
    (h : Piece P (first ++ [c]) middle last l) : Piece P first (c :: middle) last l := by
  rcases h with rfl | ⟨p, hp, rfl⟩ | h | h
  · exact .inl (by simp)
  · exact .inr (.inl ⟨c :: p, by simpa using ⟨hc, hp⟩, by simp⟩)
  · exact .inr (.inr (.inl h))
  · exact .inr (.inr (.inr h))

/-- What was said about `\r` matters for a `\n` only. -/
theorem splitFrom_skip {c : UInt16} (hc : c ≠ newline) (line rest : Units) :
    splitFrom true line (c :: rest) = splitFrom false line (c :: rest) := by
  rw [splitFrom, splitFrom, if_neg hc, if_neg hc]

/-- Every line is a piece. -/
theorem piece_of_mem_splitFrom {P : UInt16 → Prop} {middle last l : Units} (skip : Bool)
    (first : Units) (hmiddle : ∀ c ∈ middle, P c) (hlast : OneLine last)
    (hskip : skip = true → first = [])
    (hl : l ∈ splitFrom skip first (middle ++ (last ++ [newline]))) :
    Piece P first middle last l := by
  induction middle generalizing skip first with
  | nil =>
    have hfalse (h : l ∈ splitFrom false first (last ++ [newline])) : Piece P first [] last l := by
      rw [splitFrom_append hlast] at h
      exact .inl (by simpa [splitFrom] using h)
    cases skip with
    | false => exact hfalse hl
    | true =>
      cases last with
      | nil => simp [splitFrom, hskip] at hl
      | cons c last =>
        rw [List.nil_append, List.cons_append, splitFrom_skip (hlast c List.mem_cons_self).1] at hl
        exact hfalse hl
  | cons c middle ih =>
    have hc := hmiddle c List.mem_cons_self
    have hrest : ∀ d ∈ middle, P d := fun d hd => hmiddle d (List.mem_cons_of_mem _ hd)
    -- a line that ends here is a start
    have hends : Piece P first (c :: middle) last first := .inr (.inl ⟨[], nofun, by simp⟩)
    rw [List.cons_append, splitFrom] at hl
    split at hl
    · split at hl
      · rename_i htrue
        obtain rfl := hskip htrue
        exact (ih false [] hrest (fun _ => rfl) hl).of_nil hrest
      · rcases List.mem_cons.1 hl with rfl | hl
        · exact hends
        · exact (ih false [] hrest (fun _ => rfl) hl).of_nil hrest
    · split at hl
      · rcases List.mem_cons.1 hl with rfl | hl
        · exact hends
        · exact (ih true [] hrest (fun _ => rfl) hl).of_nil hrest
      · exact (ih false (first ++ [c]) hrest nofun hl).cons hc

/-! ## Status events -/

/-- The status and the detail of an event, if the line is one. -/
def eventOf (line : Units) : Option (Units × Option Units) :=
  match decode line with
  | some (.object members) =>
    match asString (field members (units "status")), asString (field members (units "detail")) with
    | some (some status), some detail => some (status, detail)
    | _, _ => none
  | _ => none

/-- `emit` without the line break. -/
def statusLine (s d : Units) : Units :=
  units "\x7b\"status\":\"" ++ s ++ units "\",\"detail\":\"" ++ d ++ units "\"\x7d"

/-- A status line with its end. -/
theorem emit_some (s d : Units) : emit s (some d) = statusLine s d ++ [newline] := rfl

/-- The scanner reaches the detail in a string. -/
theorem run_statusStart {s : Units} (hs : ∀ c ∈ s, Plain c) :
    Machine.run scanStep .idle (units "\x7b\"status\":\"" ++ s ++ units "\",\"detail\":\"") =
      some (.string [], [.lbrace, .string (units "status"), .colon, .string s, .comma,
        .string (units "detail"), .colon]) := by
  have hfirst : Machine.run scanStep .idle (units "\x7b\"status\":\"") =
      some (.string [], [.lbrace, .string (units "status"), .colon]) := rfl
  have hmiddle : Machine.run scanStep (.string s) (units "\",\"detail\":\"") =
      some (.string [], [.string s, .comma, .string (units "detail"), .colon]) := rfl
  exact Machine.run_append (Machine.run_append hfirst (run_plain hs [])) hmiddle

/-- Text that needs no escapes is scanned as it stands. -/
theorem decode_statusLine {s d : Units} (hs : ∀ c ∈ s, Plain c) (hd : ∀ c ∈ d, Plain c) :
    decode (statusLine s d) =
      some (.object [(units "status", .string s), (units "detail", .string d)]) := by
  have hlast : Machine.run scanStep (.string d) (units "\"\x7d") =
      some (.idle, [.string d, .rbrace]) := rfl
  have hrun := Machine.run_append
    (Machine.run_append (run_statusStart hs) (run_plain hd [])) hlast
  rw [decode, scan, statusLine, hrun]
  rfl

theorem plain_of_all {text : Units} (h : text.all (fun c => decide (Plain c)) = true) :
    ∀ c ∈ text, Plain c :=
  fun c hc => of_decide_eq_true (List.all_eq_true.1 h c hc)

/-- The names of the statuses need no escapes. -/
theorem plain_text (s : Status) : ∀ c ∈ s.text, Plain c := by
  cases s <;> exact plain_of_all (by decide)

/-- A text without escapes is one line. -/
theorem oneLine_of_plain {text : Units} (hplain : ∀ c ∈ text, Plain c) : OneLine text := by
  intro c hc
  have hcontrol := (hplain c hc).2.2
  constructor <;> (rintro rfl; exact hcontrol (by decide))

/-- A status line is one line if its parts are. -/
theorem oneLine_statusLine {s d : Units} (hs : OneLine s) (hd : OneLine d) :
    OneLine (statusLine s d) := by
  have hfirst : OneLine (units "\x7b\"status\":\"") := by decide
  have hmiddle : OneLine (units "\",\"detail\":\"") := by decide
  have hlast : OneLine (units "\"\x7d") := by decide
  exact (((hfirst.append hs).append hmiddle).append hd).append hlast

/-- The first character that is not plain. -/
theorem exists_first_not_plain {text : Units} (h : ¬ ∀ c ∈ text, Plain c) :
    ∃ p c q, text = p ++ c :: q ∧ (∀ x ∈ p, Plain x) ∧ ¬ Plain c := by
  induction text with
  | nil => exact absurd nofun h
  | cons c text ih =>
    by_cases hc : Plain c
    · obtain ⟨p, d, q, rfl, hp, hd⟩ := ih fun hall => h (List.forall_mem_cons.2 ⟨hc, hall⟩)
      exact ⟨c :: p, d, q, rfl, List.forall_mem_cons.2 ⟨hc, hp⟩, hd⟩
    · exact ⟨[], c, text, rfl, nofun, hc⟩

/-- Text that needs escapes is no string of the line: what the scanner has before it is plain,
    and what comes after is too short. -/
theorem ne_of_scan_statusLine {s d : Units} {tokens : List Token} (hs : ∀ c ∈ s, Plain c)
    (hd : ¬ ∀ c ∈ d, Plain c) (hscan : scan (statusLine s d) = some tokens) :
    ∀ x, .string x ∈ tokens → x ≠ d := by
  obtain ⟨p, c, q, rfl, hp, hc⟩ := exists_first_not_plain hd
  obtain ⟨t, o, e, hrun, hend, rfl⟩ := scan_eq_some hscan
  have hline : statusLine s (p ++ c :: q) =
      units "\x7b\"status\":\"" ++ s ++ units "\",\"detail\":\"" ++ p ++ c :: (q ++ [quote]) ++
        [unit '}'] := by
    simp only [statusLine, List.append_assoc, List.cons_append]
    rfl
  rw [hline] at hrun
  obtain ⟨t₂, o₂, o₃, hquote, hbrace, rfl⟩ := Machine.run_append_eq_some.1 hrun
  obtain ⟨t₁, o₁, o₂, hstart, hafter, rfl⟩ := Machine.run_append_eq_some.1 hquote
  rw [Machine.run_append (run_statusStart hs) (run_plain hp [])] at hstart
  cases hstart
  obtain ⟨t₃, o₃, os, hstep, hnil, rfl⟩ := Machine.run_cons_eq_some.1 hbrace
  cases hnil
  rintro x hx rfl
  simp only [List.mem_append, List.append_nil] at hx
  rcases hx with ((hx | hx) | hx) | hx
  · -- the tokens before the detail are plain
    simp only [List.mem_cons, Token.string.injEq, reduceCtorEq, false_or, List.not_mem_nil,
      or_false] at hx
    rcases hx with heq | heq | heq
    · exact hd (heq ▸ plain_of_all (by decide))
    · exact hd (heq ▸ hs)
    · exact hd (heq ▸ plain_of_all (by decide))
  · exact Nat.lt_irrefl _ (length_lt_of_not_plain hc hafter _ hx)
  · -- the brace ends no string
    exact absurd ((held_scanStep hstep).2 _ hx).1 (by decide)
  · cases isString_of_mem_scanEnd hend _ hx

/-- A cast to a string that succeeds has found one. -/
theorem eq_string_of_asString {value : Option Value} {text : Units}
    (h : asString value = some (some text)) : value = some (.string text) := by
  unfold asString at h
  split at h
  · cases h
  · cases h
  · cases h
    rfl
  · cases h

/-- A detail that comes out as it was put in needs no escapes. -/
theorem plain_of_eventOf {s d status : Units} (hs : ∀ c ∈ s, Plain c)
    (h : eventOf (statusLine s d) = some (status, some d)) : ∀ c ∈ d, Plain c := by
  by_contra hd
  unfold eventOf at h
  split at h
  · rename_i members hdecode
    -- every string of the object comes from a token of the line
    have hstrings := strings_of_decode_object
      (fun tokens hscan => ne_of_scan_statusLine hs hd hscan) hdecode
    split at h
    · rename_i text detail hstatus hdetail
      cases h
      exact hstrings _ d (mem_of_field (eq_string_of_asString hdetail)) rfl
    · cases h
  · cases h

/-- What the app does on an event. -/
def reaction : Status → Units → List Action
  | .connected, _ => [.onConnected]
  | .error, detail => [.notConnecting, .showError detail]
  | .connecting, _ | .reconnecting, _ => []

/-- **Status events arrive** if and only if the detail has no quotes, backslashes and control
    characters; then it is one line, and that line is the event. -/
theorem status_events_arrive (intOf : Units → Option Int) (s : Status) (d : Units) :
    ((splitLines (emit s.text (some d))).map eventOf = [some (s.text, some d)] ↔
        ∀ c ∈ d, Plain c) ∧
      ((∀ c ∈ d, Plain c) →
        (splitLines (emit s.text (some d))).flatMap (handleOrcaxOutput intOf) = reaction s d) := by
  have hs := oneLine_of_plain (plain_text s)
  rw [emit_some]
  refine ⟨⟨fun h => ?_, fun hplain => ?_⟩, fun hplain => ?_⟩
  · -- a detail of several lines gives several events
    have hone : OneLine d := by
      obtain ⟨l, hl, -⟩ := List.map_eq_singleton_iff.1 h
      rw [statusLine, List.append_assoc, splitLines] at hl
      have hline := oneLine_of_splitFrom (c := quote) (by decide) (by decide) hl
      exact fun c hc => hline c (List.mem_append_right _ hc)
    rw [splitLines_newline (oneLine_statusLine hs hone)] at h
    exact plain_of_eventOf (plain_text s) (List.cons.inj h).1
  · rw [splitLines_newline (oneLine_statusLine hs (oneLine_of_plain hplain))]
    simp only [List.map_cons, List.map_nil, eventOf, decode_statusLine (plain_text s) hplain]
    rfl
  · rw [splitLines_newline (oneLine_statusLine hs (oneLine_of_plain hplain))]
    simp only [List.flatMap_cons, List.flatMap_nil, handleOrcaxOutput,
      decode_statusLine (plain_text s) hplain]
    cases s <;> rfl

/-- An error message of the system arrives. -/
theorem status_events_arrive_refused :
    (∀ c ∈ units "Connection refused (os error 111)", Plain c) ∧
    (splitLines (emit (Status.text .error)
        (some (units "Connection refused (os error 111)")))).flatMap
        (handleOrcaxOutput fun _ => none) =
      [.notConnecting, .showError (units "Connection refused (os error 111)")] :=
  ⟨plain_of_all (by decide),
    (status_events_arrive (fun _ => none) .error _).2 (plain_of_all (by decide))⟩

/-- **A quote loses the event.** The line is not JSON, and the app goes on connecting. -/
theorem quote_loses_event :
    (splitLines (emit (Status.text .error) (some (units "bad \"name\"")))).map eventOf = [none] ∧
    (splitLines (emit (Status.text .error) (some (units "bad \"name\"")))).flatMap
        (handleOrcaxOutput fun _ => none) =
      [.addLog (units "\x7b\"status\":\"error\",\"detail\":\"bad \"name\"\"\x7d")] :=
  ⟨rfl, rfl⟩

/-! ## The log -/

/-- What `dlog` leaves of a message. -/
def Cleaned (c : UInt16) : Prop := c ≠ quote ∧ c ≠ backslash

instance : DecidablePred Cleaned := fun c => inferInstanceAs (Decidable (c ≠ quote ∧ c ≠ backslash))

/-- `dlog` replaces quotes and backslashes. -/
theorem cleaned_cleaned (msg : Units) : ∀ c ∈ cleaned msg, Cleaned c := by
  intro c hc
  simp only [cleaned, List.map_map, List.mem_map, Function.comp_apply] at hc
  obtain ⟨d, -, rfl⟩ := hc
  by_cases hquote : d = quote
  · rw [if_pos hquote]
    decide
  · rw [if_neg hquote]
    split
    · decide
    · rename_i hbackslash
      exact ⟨hquote, hbackslash⟩

theorem Cleaned.not_mem {text : Units} (h : ∀ c ∈ text, Cleaned c) :
    quote ∉ text ∧ backslash ∉ text :=
  ⟨fun hmem => (h _ hmem).1 rfl, fun hmem => (h _ hmem).2 rfl⟩

/-- A number is written in digits. -/
theorem isDigit_of_mem_decimal {n : Nat} {c : UInt16} (hc : c ∈ decimal n) : isDigit c = true := by
  obtain ⟨ch, hch, rfl⟩ := List.mem_map.1 hc
  have hdigit := Nat.isDigit_of_mem_toDigits (by decide) (by decide) hch
  simp only [Char.isDigit, Bool.and_eq_true, decide_eq_true_eq] at hdigit
  have hlow : 48 ≤ ch.toNat := UInt32.le_iff_toNat_le.1 hdigit.1
  have hhigh : ch.toNat ≤ 57 := UInt32.le_iff_toNat_le.1 hdigit.2
  have htoNat : (unit ch).toNat = ch.toNat := Nat.mod_eq_of_lt (by omega)
  have hzero : (unit '0').toNat = 48 := rfl
  have hnine : (unit '9').toNat = 57 := rfl
  simp only [isDigit, UInt16.le_iff_toNat_le, Bool.and_eq_true, decide_eq_true_eq]
  omega

/-- `dlog` up to the message. -/
def logStart (ts : Nat) : Units :=
  units "\x7b\"status\":\"log\",\"ts\":" ++ decimal ts ++ units ",\"msg\":\""

def logEnd : Units := units "\"\x7d"

/-- A log line, cut at the message. -/
theorem dlog_eq (ts : Nat) (msg : Units) :
    dlog ts msg = logStart ts ++ (cleaned msg ++ (logEnd ++ [newline])) := by
  simp [dlog, logStart, logEnd]

/-- The front of a log line has an odd number of quotes: the message is inside a string. -/
theorem count_logStart (ts : Nat) : (logStart ts).count quote = 9 := by
  have hdecimal : (decimal ts).count quote = 0 :=
    List.count_eq_zero.2 fun hmem => absurd (isDigit_of_mem_decimal hmem) (by decide)
  have hfirst : (units "\x7b\"status\":\"log\",\"ts\":").count quote = 6 := by decide
  have hlast : (units ",\"msg\":\"").count quote = 3 := by decide
  rw [logStart, List.count_append, List.count_append, hdecimal, hfirst, hlast]

/-- The front of a log line has no escapes. -/
theorem backslash_notMem_logStart (ts : Nat) : backslash ∉ logStart ts := by
  have hdecimal : backslash ∉ decimal ts := fun hmem =>
    absurd (isDigit_of_mem_decimal hmem) (by decide)
  have hfirst : backslash ∉ units "\x7b\"status\":\"log\",\"ts\":" := by decide
  have hlast : backslash ∉ units ",\"msg\":\"" := by decide
  simp only [logStart, List.mem_append, not_or]
  exact ⟨⟨hfirst, hdecimal⟩, hlast⟩

/-- The front of a log line is not broken. -/
theorem oneLine_logStart (ts : Nat) : OneLine (logStart ts) := by
  have hdecimal : OneLine (decimal ts) := by
    intro c hc
    have hdigit := isDigit_of_mem_decimal hc
    constructor <;> (rintro rfl; revert hdigit; decide)
  have hfirst : OneLine (units "\x7b\"status\":\"log\",\"ts\":") := by decide
  have hlast : OneLine (units ",\"msg\":\"") := by decide
  exact (hfirst.append hdecimal).append hlast

/-- The scanner reaches the message in a string. -/
theorem run_logStart {ts : Nat} {s : Scanner} {o : List Token}
    (h : Machine.run scanStep .idle (logStart ts) = some (s, o)) :
    s = .string [] ∧ ∃ scalar, o = [.lbrace, .string (units "status"), .colon,
      .string (units "log"), .comma, .string (units "ts"), .colon, .scalar scalar, .comma,
      .string (units "msg"), .colon] := by
  have hfirst : Machine.run scanStep .idle (units "\x7b\"status\":\"log\",\"ts\":") =
      some (.idle, [.lbrace, .string (units "status"), .colon, .string (units "log"), .comma,
        .string (units "ts"), .colon]) := rfl
  have hdigits := run_digits (decimal ts) (by simp [decimal, Nat.toDigits_ne_nil])
    fun _ hc => isDigit_of_mem_decimal hc
  have hlast : Machine.run scanStep .idle (units "\"msg\":\"") =
      some (.string [], [.string (units "msg"), .colon]) := rfl
  obtain ⟨t, o₁, p, ht, hmsg, rfl⟩ := Machine.run_append_eq_some.1 h
  rw [Machine.run_append hfirst hdigits] at ht
  cases ht
  -- the comma ends the number
  have hcons : units ",\"msg\":\"" = unit ',' :: units "\"msg\":\"" := rfl
  rw [hcons] at hmsg
  obtain ⟨u, o₂, os, hcomma, hrest, rfl⟩ := Machine.run_cons_eq_some.1 hmsg
  rw [scanStep, if_neg (by decide)] at hcomma
  split at hcomma
  · rename_i scalar t' tokens hscalar hbegin
    cases hbegin
    cases hcomma
    rw [hlast] at hrest
    cases hrest
    exact ⟨rfl, scalar, rfl⟩
  · cases hcomma

/-- A line that is not broken is a log event, if it is JSON at all. -/
theorem decode_logLine {ts : Nat} {text : Units} {value : Value} (htext : ∀ c ∈ text, Cleaned c)
    (h : decode (logStart ts ++ text ++ logEnd) = some value) :
    ∃ scalar, value = .object [(units "status", .string (units "log")),
      (units "ts", .scalar scalar), (units "msg", .string text)] := by
  obtain ⟨hquote, hbackslash⟩ := Cleaned.not_mem htext
  obtain ⟨tokens, hscan, hparse⟩ := Option.bind_eq_some_iff.1 h
  obtain ⟨s, o, p, hrun, hend, rfl⟩ := scan_eq_some hscan
  -- the scanner goes over the front, the message and the end
  obtain ⟨s₂, o₂, p₂, hrun₂, hlast, rfl⟩ := Machine.run_append_eq_some.1 hrun
  obtain ⟨s₁, o₁, p₁, hstart, hmiddle, rfl⟩ := Machine.run_append_eq_some.1 hrun₂
  obtain ⟨rfl, scalar, rfl⟩ := run_logStart hstart
  -- the message cannot end the string
  obtain ⟨rfl, rfl⟩ := run_string hquote hbackslash hmiddle
  have hend' : Machine.run scanStep (.string ([] ++ text)) logEnd =
      some (.idle, [.string text, .rbrace]) := rfl
  rw [hend'] at hlast
  cases hlast
  cases hend
  exact ⟨scalar, (Option.some.inj hparse).symm⟩

/-- The line is a log event, an object without a status, or not an object. -/
def Harmless (line : Units) : Prop :=
  (∃ members, decode line = some (.object members) ∧
    field members (units "status") = some (.string (units "log"))) ∨
  (∃ members, decode line = some (.object members) ∧ field members (units "status") = none) ∨
  ∀ members, decode line ≠ some (.object members)

/-- On such a line the app does nothing, or adds to the log. -/
theorem Harmless.addLog {intOf : Units → Option Int} {line : Units} (h : Harmless line) :
    ∀ action ∈ handleOrcaxOutput intOf line, ∃ text, action = .addLog text := by
  rcases h with ⟨members, hdecode, hstatus⟩ | ⟨members, hdecode, hstatus⟩ | h
  · simp only [handleOrcaxOutput, hdecode, hstatus]
    show ∀ action ∈ handleStatus intOf line members (some (units "log")), _
    rw [handleStatus, if_neg (by decide), if_pos rfl]
    intro action hmem
    -- with its message or, without one, as it is
    split at hmem
    · exact ⟨_, List.mem_singleton.1 hmem⟩
    · exact ⟨_, List.mem_singleton.1 hmem⟩
  · simp [handleOrcaxOutput, hdecode, hstatus, asString, handleStatus]
  · unfold handleOrcaxOutput
    split
    · rename_i members hdecode
      exact absurd hdecode (h members)
    · intro action hmem
      exact ⟨line, List.mem_singleton.1 hmem⟩

/-- A line with an odd number of quotes is not JSON. -/
theorem harmless_of_odd {line : Units} (hbackslash : backslash ∉ line)
    (hodd : ¬ Even (line.count quote)) : Harmless line := by
  refine .inr (.inr fun members h => ?_)
  rw [decode_eq_none_of_odd hbackslash hodd] at h
  cases h

/-- **Every piece of a log line is harmless.** It is the whole line, or quotes are missing, or
    it has none at all. -/
theorem harmless_of_piece {ts : Nat} {text line : Units} (htext : ∀ c ∈ text, Cleaned c)
    (h : Piece Cleaned (logStart ts) text logEnd line) : Harmless line := by
  rcases h with rfl | ⟨p, hp, rfl⟩ | ⟨q, hq, rfl⟩ | h
  · cases hdecode : decode (logStart ts ++ text ++ logEnd) with
    | none => exact .inr (.inr fun members h => by rw [hdecode] at h; cases h)
    | some value =>
      obtain ⟨scalar, rfl⟩ := decode_logLine htext hdecode
      exact .inl ⟨_, hdecode, rfl⟩
  · -- the message is left open
    obtain ⟨hquote, hbackslash⟩ := Cleaned.not_mem hp
    refine harmless_of_odd ?_ ?_
    · simp [backslash_notMem_logStart, hbackslash]
    · rw [List.count_append, count_logStart, List.count_eq_zero.2 hquote]
      decide
  · -- the quote at the end opens a string
    obtain ⟨hquote, hbackslash⟩ := Cleaned.not_mem hq
    have hlast : backslash ∉ logEnd := by decide
    have hcount : logEnd.count quote = 1 := by decide
    refine harmless_of_odd ?_ ?_
    · simp [hbackslash, hlast]
    · rw [List.count_append, List.count_eq_zero.2 hquote, hcount]
      decide
  · obtain ⟨hquote, hbackslash⟩ := Cleaned.not_mem h
    cases hdecode : decode line with
    | none => exact .inr (.inr fun members h => by rw [hdecode] at h; cases h)
    | some value =>
      by_cases hobject : ∃ members, value = .object members
      · obtain ⟨members, rfl⟩ := hobject
        obtain rfl := eq_nil_of_decode_object hquote hbackslash hdecode
        exact .inr (.inl ⟨[], hdecode, rfl⟩)
      · refine .inr (.inr fun members h => hobject ⟨members, ?_⟩)
        rw [hdecode] at h
        exact Option.some.inj h

/-- **The log forges nothing.** Whatever is logged, each line of it is a log event, an object
    without a status, or not an object, and the app does no more than add to its log. -/
theorem log_forges_nothing (intOf : Units → Option Int) (ts : Nat) (msg line : Units)
    (hline : line ∈ splitLines (dlog ts msg)) :
    Harmless line ∧ ∀ action ∈ handleOrcaxOutput intOf line, ∃ text, action = .addLog text := by
  have hlast : OneLine logEnd := by decide
  rw [dlog_eq, splitLines, splitFrom_append (oneLine_logStart ts), List.nil_append] at hline
  have hpiece := piece_of_mem_splitFrom false (logStart ts) (cleaned_cleaned msg) hlast nofun hline
  have hharmless := harmless_of_piece (cleaned_cleaned msg) hpiece
  exact ⟨hharmless, hharmless.addLog⟩

/-- A host name with an event between two line breaks. -/
theorem log_forges_nothing_breaks :
    (units "\x7b'status':'connected'\x7d") ∈
        splitLines (dlog 7 (units "a\n\x7b\"status\":\"connected\"\x7d\rb")) ∧
      handleOrcaxOutput (fun _ => none) (units "\x7b'status':'connected'\x7d") =
        [.addLog (units "\x7b'status':'connected'\x7d")] ∧
      Harmless (units "\x7b'status':'connected'\x7d") :=
  ⟨by decide, rfl, (log_forges_nothing (fun _ => none) 7
    (units "a\n\x7b\"status\":\"connected\"\x7d\rb") _ (by decide)).1⟩

end Fogged.Spec.StatusChannel
