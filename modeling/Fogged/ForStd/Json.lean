import Mathlib.Algebra.Ring.Parity
import Fogged.ForStd.Machine

/-!
# JSON texts

A decoder for JSON texts (RFC 8259), given as UTF-16 code units. Both of its halves are
machines that take one symbol at a time: the scanner takes code units and has tokens as its
effects, the parser takes tokens and keeps the containers that are open on a stack. So
everything about a text is an invariant of a run, and a text that consists of parts is
scanned part by part.

A number is kept as its literal. An object keeps all its members in order; where a name
occurs twice, `field` is the last one.

## Key results

- `run_plain`: characters that stand for themselves in a string
- `decode_eq_none_of_odd`: without escapes, quotes come in pairs
- `length_lt_of_not_plain`: what has to be escaped makes a string shorter
- `eq_nil_of_decode_object`: without quotes, an object is empty
- `strings_of_decode_object`: the strings in an object are strings of the text
-/

namespace Json

/-- A text, as UTF-16 code units. -/
abbrev Units := List UInt16

/-- A character of the basic plane. -/
def unit (c : Char) : UInt16 := c.toNat.toUInt16

/-- A literal whose characters are in the basic plane. -/
def units (s : String) : Units := s.toList.map unit

def quote : UInt16 := unit '"'

def backslash : UInt16 := unit '\\'

inductive Scalar where
  | null
  | bool (b : Bool)
  | number (literal : Units)

inductive Value where
  | scalar (scalar : Scalar)
  | string (text : Units)
  | array (elements : List Value)
  | object (members : List (Units × Value))

/-- The member with the given name. -/
def field (members : List (Units × Value)) (name : Units) : Option Value :=
  members.reverse.lookup name

/-- A field that is found is one of the members. -/
theorem mem_of_field {members : List (Units × Value)} {name : Units} {value : Value}
    (h : field members name = some value) : (name, value) ∈ members := by
  obtain ⟨l, l', heq, -⟩ := List.lookup_eq_some_iff.1 h
  rw [← List.mem_reverse, heq]
  exact List.mem_append_right l List.mem_cons_self

/-! ## Scanning -/

inductive Token where
  | lbrace
  | rbrace
  | lbracket
  | rbracket
  | colon
  | comma
  | string (text : Units)
  | scalar (scalar : Scalar)

def isSpace (c : UInt16) : Bool := c = unit ' ' || c = unit '\t' || c = unit '\n' || c = unit '\r'

def isDigit (c : UInt16) : Bool := unit '0' ≤ c && c ≤ unit '9'

/-- What a number or one of the three names can consist of. -/
def isWord (c : UInt16) : Bool :=
  isDigit c || unit 'a' ≤ c && c ≤ unit 'z' || unit 'A' ≤ c && c ≤ unit 'Z' || c = unit '+' ||
    c = unit '-' || c = unit '.'

/-- One digit or more. -/
def skipDigits : Units → Option Units
  | c :: rest => if isDigit c then some (rest.dropWhile isDigit) else none
  | [] => none

/-- No leading zeros. -/
def skipInteger : Units → Option Units
  | c :: rest => if c = unit '0' then some rest else skipDigits (c :: rest)
  | [] => none

def skipSign : Units → Units
  | c :: rest => if c = unit '+' ∨ c = unit '-' then rest else c :: rest
  | [] => []

def skipFraction : Units → Option Units
  | c :: rest => if c = unit '.' then skipDigits rest else some (c :: rest)
  | [] => some []

def skipExponent : Units → Option Units
  | c :: rest =>
    if c = unit 'e' ∨ c = unit 'E' then skipDigits (skipSign rest) else some (c :: rest)
  | [] => some []

def isNumber (word : Units) : Bool :=
  let word := if word.head? = some (unit '-') then word.tail else word
  ((skipInteger word).bind skipFraction).bind skipExponent = some []

def scalar (word : Units) : Option Scalar :=
  if word = units "null" then some .null
  else if word = units "true" then some (.bool true)
  else if word = units "false" then some (.bool false)
  else if isNumber word then some (.number word)
  else none

def punctuation (c : UInt16) : Option Token :=
  if c = unit '{' then some .lbrace
  else if c = unit '}' then some .rbrace
  else if c = unit '[' then some .lbracket
  else if c = unit ']' then some .rbracket
  else if c = unit ':' then some .colon
  else if c = unit ',' then some .comma
  else none

/-- The character after a backslash, except `u`. -/
def escaped (c : UInt16) : Option UInt16 :=
  if c = quote ∨ c = backslash ∨ c = unit '/' then some c
  else if c = unit 'b' then some 8
  else if c = unit 'f' then some 12
  else if c = unit 'n' then some 10
  else if c = unit 'r' then some 13
  else if c = unit 't' then some 9
  else none

def hexDigit (c : UInt16) : Option UInt16 :=
  if isDigit c then some (c - unit '0')
  else if unit 'a' ≤ c ∧ c ≤ unit 'f' then some (c - unit 'a' + 10)
  else if unit 'A' ≤ c ∧ c ≤ unit 'F' then some (c - unit 'A' + 10)
  else none

/-- Where the scanner is, with what it has read of a token. -/
inductive Scanner where
  | idle
  | word (text : Units)
  | string (text : Units)
  /-- After a backslash. -/
  | escape (text : Units)
  /-- After `\u`, with so many digits left. -/
  | hex (text : Units) (left : Nat) (value : UInt16)

/-- Between tokens. -/
def begin (c : UInt16) : Option (Scanner × List Token) :=
  if isSpace c then some (.idle, [])
  else if c = quote then some (.string [], [])
  else if isWord c then some (.word [c], [])
  else (punctuation c).map fun token => (.idle, [token])

def scanStep : Scanner → UInt16 → Option (Scanner × List Token)
  | .idle, c => begin c
  | .word text, c =>
    if isWord c then some (.word (text ++ [c]), [])
    else
      match scalar text, begin c with
      | some value, some (s, tokens) => some (s, .scalar value :: tokens)
      | _, _ => none
  | .string text, c =>
    if c = quote then some (.idle, [.string text])
    else if c = backslash then some (.escape text, [])
    else if c < unit ' ' then none
    else some (.string (text ++ [c]), [])
  | .escape text, c =>
    if c = unit 'u' then some (.hex text 3 0, [])
    else (escaped c).map fun c => (.string (text ++ [c]), [])
  | .hex text left value, c =>
    match hexDigit c, left with
    | some d, 0 => some (.string (text ++ [value * 16 + d]), [])
    | some d, left + 1 => some (.hex text left (value * 16 + d), [])
    | none, _ => none

/-- At the end of the text. -/
def scanEnd : Scanner → Option (List Token)
  | .idle => some []
  | .word text => (scalar text).map fun value => [.scalar value]
  | .string _ | .escape _ | .hex _ _ _ => none

def scan (text : Units) : Option (List Token) :=
  match Machine.run scanStep .idle text with
  | none => none
  | some (s, tokens) => (scanEnd s).map (tokens ++ ·)

/-! ## Parsing -/

/-- A container that waits for a value. -/
inductive Frame where
  | array (elements : List Value)
  | object (members : List (Units × Value)) (name : Units)

/-- What the parser waits for; `first` says that the container may end here. -/
inductive Parser where
  | value (first : Bool) (stack : List Frame)
  | name (first : Bool) (members : List (Units × Value)) (stack : List Frame)
  | colon (members : List (Units × Value)) (name : Units) (stack : List Frame)
  /-- The value is complete. -/
  | after (value : Value) (stack : List Frame)

def parseStep : Parser → Token → Option (Parser × List Empty)
  | .value _ stack, .string text => some (.after (.string text) stack, [])
  | .value _ stack, .scalar scalar => some (.after (.scalar scalar) stack, [])
  | .value _ stack, .lbrace => some (.name true [] stack, [])
  | .value _ stack, .lbracket => some (.value true (.array [] :: stack), [])
  | .value true (.array elements :: stack), .rbracket => some (.after (.array elements) stack, [])
  | .name _ members stack, .string text => some (.colon members text stack, [])
  | .name true members stack, .rbrace => some (.after (.object members) stack, [])
  | .colon members name stack, .colon => some (.value false (.object members name :: stack), [])
  | .after value (.array elements :: stack), .comma =>
    some (.value false (.array (elements ++ [value]) :: stack), [])
  | .after value (.array elements :: stack), .rbracket =>
    some (.after (.array (elements ++ [value])) stack, [])
  | .after value (.object members name :: stack), .comma =>
    some (.name false (members ++ [(name, value)]) stack, [])
  | .after value (.object members name :: stack), .rbrace =>
    some (.after (.object (members ++ [(name, value)])) stack, [])
  | _, _ => none

def parse (tokens : List Token) : Option Value :=
  match Machine.run parseStep (.value false []) tokens with
  | some (.after value [], _) => some value
  | _ => none

/-- The value of a JSON text; `none` if it is not one. -/
def decode (text : Units) : Option Value := (scan text).bind parse

/-! ## Strings -/

/-- The character stands for itself in a string. -/
def Plain (c : UInt16) : Prop := c ≠ quote ∧ c ≠ backslash ∧ ¬ c < unit ' '

instance : DecidablePred Plain := fun c =>
  inferInstanceAs (Decidable (c ≠ quote ∧ c ≠ backslash ∧ ¬ c < unit ' '))

/-- Characters that stand for themselves. -/
theorem run_plain {text : Units} (hplain : ∀ c ∈ text, Plain c) (acc : Units) :
    Machine.run scanStep (.string acc) text = some (.string (acc ++ text), []) := by
  induction text generalizing acc with
  | nil => simp [Machine.run]
  | cons c text ih =>
    obtain ⟨hquote, hbackslash, hcontrol⟩ := hplain c List.mem_cons_self
    have hrest := ih (fun d hd => hplain d (List.mem_cons_of_mem _ hd)) (acc ++ [c])
    rw [List.append_assoc] at hrest
    exact Machine.run_cons_eq_some.2
      ⟨_, [], [], by simp [scanStep, hquote, hbackslash, hcontrol], hrest, rfl⟩

/-- Without quotes and backslashes a string goes on, if it is one. -/
theorem run_string {text acc : Units} {s : Scanner} {tokens : List Token} (hquote : quote ∉ text)
    (hbackslash : backslash ∉ text)
    (hrun : Machine.run scanStep (.string acc) text = some (s, tokens)) :
    s = .string (acc ++ text) ∧ tokens = [] := by
  induction text generalizing acc tokens with
  | nil =>
    cases hrun
    exact ⟨by rw [List.append_nil], rfl⟩
  | cons c text ih =>
    simp only [List.mem_cons, not_or] at hquote hbackslash
    obtain ⟨t, o, os, hstep, hrest, rfl⟩ := Machine.run_cons_eq_some.1 hrun
    simp only [scanStep, Ne.symm hquote.1, Ne.symm hbackslash.1, if_false] at hstep
    -- a control character stops the scanner
    split at hstep
    · cases hstep
    · cases hstep
      obtain ⟨rfl, rfl⟩ := ih hquote.2 hbackslash.2 hrest
      exact ⟨by rw [List.append_assoc]; rfl, rfl⟩

/-- A word goes on. -/
theorem run_word {text : Units} (hword : ∀ c ∈ text, isWord c = true) (acc : Units) :
    Machine.run scanStep (.word acc) text = some (.word (acc ++ text), []) := by
  induction text generalizing acc with
  | nil => simp [Machine.run]
  | cons c text ih =>
    have hrest := ih (fun d hd => hword d (List.mem_cons_of_mem _ hd)) (acc ++ [c])
    rw [List.append_assoc] at hrest
    exact Machine.run_cons_eq_some.2
      ⟨_, [], [], by simp [scanStep, hword c List.mem_cons_self], hrest, rfl⟩

/-- A number begins with a digit. -/
theorem begin_digit {c : UInt16} (hc : isDigit c = true) : begin c = some (.word [c], []) := by
  have hspace : isSpace c = false := by
    rw [← Bool.not_eq_true]
    intro hspace
    simp only [isSpace, Bool.or_eq_true, decide_eq_true_eq] at hspace
    rcases hspace with ((rfl | rfl) | rfl) | rfl <;> revert hc <;> decide
  have hquote : c ≠ quote := by
    rintro rfl
    revert hc
    decide
  have hword : isWord c = true := by simp [isWord, hc]
  simp [begin, hspace, hquote, hword]

/-- The digits of a number. -/
theorem run_digits (text : Units) (hne : text ≠ []) (hdigits : ∀ c ∈ text, isDigit c = true) :
    Machine.run scanStep .idle text = some (.word text, []) := by
  obtain ⟨c, rest, rfl⟩ := List.exists_cons_of_ne_nil hne
  have hword : ∀ d ∈ rest, isWord d = true := fun d hd => by
    simp [isWord, hdigits d (List.mem_cons_of_mem _ hd)]
  exact Machine.run_cons_eq_some.2
    ⟨.word [c], [], [], begin_digit (hdigits c List.mem_cons_self), run_word hword [c], rfl⟩

/-! ## Counting quotes -/

/-- The scanner is in a string, and not at an escape. -/
def isOpen : Scanner → Option Nat
  | .idle | .word _ => some 0
  | .string _ => some 1
  | .escape _ | .hex _ _ _ => none

def isString : Token → Bool
  | .string _ => true
  | _ => false

/-- Between tokens only a quote opens a string, and no token ends there that is one. -/
theorem begin_cases {c : UInt16} {s : Scanner} {tokens : List Token}
    (h : begin c = some (s, tokens)) :
    (isOpen s = some (if c = quote then 1 else 0)) ∧ ∀ token ∈ tokens, isString token = false := by
  unfold begin at h
  split at h
  · rename_i hspace
    cases h
    -- a quote is no white space
    have hne : c ≠ quote := by
      rintro rfl
      revert hspace
      decide
    simp [isOpen, hne]
  · split at h
    · rename_i hquote
      cases h
      simp [isOpen, hquote]
    · rename_i hne
      split at h
      · cases h
        simp [isOpen, hne]
      · obtain ⟨token, htoken, heq⟩ := Option.map_eq_some_iff.1 h
        cases heq
        refine ⟨by simp [isOpen, hne], ?_⟩
        simp only [List.mem_singleton, forall_eq]
        -- none of the punctuation tokens is a string
        unfold punctuation at htoken
        repeat' split at htoken
        all_goals first | (cases htoken; rfl) | cases htoken

/-- **One character.** Every quote opens or closes a string, if there are no escapes; and a
    string ends with a quote. -/
theorem isOpen_scanStep {c : UInt16} {s t : Scanner} {tokens : List Token} {n : Nat}
    (hs : isOpen s = some n) (hbackslash : c ≠ backslash)
    (hstep : scanStep s c = some (t, tokens)) :
    (∃ m, isOpen t = some m ∧ Even (n + (if c = quote then 1 else 0) + m)) ∧
      (c ≠ quote → ∀ token ∈ tokens, isString token = false) := by
  cases s with
  | idle =>
    cases hs
    obtain ⟨hopen, htokens⟩ := begin_cases hstep
    refine ⟨⟨_, hopen, ?_⟩, fun _ => htokens⟩
    split <;> decide
  | word text =>
    cases hs
    rw [scanStep] at hstep
    split at hstep
    · rename_i hword
      cases hstep
      -- a quote is no character of a word
      have hne : c ≠ quote := by
        rintro rfl
        revert hword
        decide
      exact ⟨⟨0, rfl, by simp [hne]⟩, fun _ => nofun⟩
    · split at hstep
      · rename_i value u more hscalar hbegin
        cases hstep
        obtain ⟨hopen, htokens⟩ := begin_cases hbegin
        refine ⟨⟨_, hopen, ?_⟩, fun _ token hmem => ?_⟩
        · split <;> decide
        · rcases List.mem_cons.1 hmem with rfl | hmem
          · rfl
          · exact htokens token hmem
      · cases hstep
  | string text =>
    cases hs
    simp only [scanStep, hbackslash, if_false] at hstep
    split at hstep
    · -- the quote closes the string
      rename_i hquote
      cases hstep
      exact ⟨⟨0, rfl, by simp [hquote]⟩, fun hne => absurd hquote hne⟩
    · rename_i hne
      split at hstep
      · cases hstep
      · cases hstep
        exact ⟨⟨1, rfl, by simp [hne]⟩, fun _ => nofun⟩
  | escape | hex => cases hs

/-- **Any text.** -/
theorem isOpen_run {text : Units} {s t : Scanner} {tokens : List Token} {n : Nat}
    (hs : isOpen s = some n) (hbackslash : backslash ∉ text)
    (hrun : Machine.run scanStep s text = some (t, tokens)) :
    (∃ m, isOpen t = some m ∧ Even (n + text.count quote + m)) ∧
      (quote ∉ text → ∀ token ∈ tokens, isString token = false) := by
  induction text generalizing s n tokens with
  | nil =>
    cases hrun
    exact ⟨⟨n, hs, by simp⟩, fun _ => nofun⟩
  | cons c text ih =>
    simp only [List.mem_cons, not_or] at hbackslash
    obtain ⟨u, o, os, hstep, hrest, rfl⟩ := Machine.run_cons_eq_some.1 hrun
    obtain ⟨⟨k, hk, heven⟩, htokens⟩ := isOpen_scanStep hs (Ne.symm hbackslash.1) hstep
    obtain ⟨⟨m, hm, heven'⟩, htokens'⟩ := ih hk hbackslash.2 hrest
    constructor
    · refine ⟨m, hm, ?_⟩
      rw [List.count_cons]
      -- the state in the middle counts twice
      have hsum := heven.add heven'
      simp only [beq_iff_eq]
      rw [Nat.even_iff] at hsum ⊢
      omega
    · intro hquote token hmem
      simp only [List.mem_cons, not_or] at hquote
      rcases List.mem_append.1 hmem with hmem | hmem
      · exact htokens (Ne.symm hquote.1) token hmem
      · exact htokens' hquote.2 token hmem

/-- A text that can be scanned is a run of the scanner to an end. -/
theorem scan_eq_some {text : Units} {tokens : List Token} (h : scan text = some tokens) :
    ∃ s o p, Machine.run scanStep .idle text = some (s, o) ∧ scanEnd s = some p ∧
      tokens = o ++ p := by
  unfold scan at h
  split at h
  · cases h
  · rename_i s o hrun
    obtain ⟨p, hp, heq⟩ := Option.map_eq_some_iff.1 h
    exact ⟨s, o, p, hrun, hp, heq.symm⟩

/-- What is left at the end of a text is not a string. -/
theorem isString_of_mem_scanEnd {s : Scanner} {tokens : List Token} (h : scanEnd s = some tokens) :
    ∀ token ∈ tokens, isString token = false := by
  intro token hmem
  cases s with
  | idle =>
    cases h
    cases hmem
  | word word =>
    obtain ⟨value, -, rfl⟩ := Option.map_eq_some_iff.1 h
    rw [List.mem_singleton.1 hmem]
    rfl
  | string | escape | hex => cases h

/-- Without escapes, quotes come in pairs. -/
theorem decode_eq_none_of_odd {text : Units} (hbackslash : backslash ∉ text)
    (hodd : ¬ Even (text.count quote)) : decode text = none := by
  unfold decode
  cases hscan : scan text with
  | none => rfl
  | some tokens =>
    obtain ⟨s, o, p, hrun, hend, -⟩ := scan_eq_some hscan
    obtain ⟨⟨m, hm, heven⟩, -⟩ := isOpen_run rfl hbackslash hrun
    -- a text does not end in a string
    have hzero : m = 0 := by
      cases s with
      | idle | word => exact (Option.some.inj hm).symm
      | string | escape | hex => cases hend
    rw [hzero, Nat.zero_add, Nat.add_zero] at heven
    exact absurd heven hodd

/-! ## How long a string can be

A text in quotes that has a character to escape is read as something shorter, if at all. -/

/-- How much the scanner has of a string. -/
def held : Scanner → Nat
  | .idle | .word _ => 0
  | .string text | .escape text | .hex text _ _ => text.length

/-- A token that begins is no string yet. -/
theorem held_begin {c : UInt16} {s : Scanner} {tokens : List Token}
    (h : begin c = some (s, tokens)) : held s = 0 := by
  unfold begin at h
  split at h
  · cases h
    rfl
  · split at h
    · cases h
      rfl
    · split at h
      · cases h
        rfl
      · -- a number or a word, whose end is not read yet
        obtain ⟨token, -, heq⟩ := Option.map_eq_some_iff.1 h
        cases heq
        rfl

/-- **One character** adds at most one to a string, and a string ends with a quote. -/
theorem held_scanStep {c : UInt16} {s t : Scanner} {tokens : List Token}
    (hstep : scanStep s c = some (t, tokens)) :
    held t ≤ held s + 1 ∧ ∀ text, .string text ∈ tokens → c = quote ∧ text.length = held s := by
  cases s with
  | idle =>
    refine ⟨by simp [held_begin hstep], fun text hmem => ?_⟩
    cases (begin_cases hstep).2 _ hmem
  | word word =>
    rw [scanStep] at hstep
    split at hstep
    · cases hstep
      exact ⟨Nat.zero_le _, nofun⟩
    · split at hstep
      · rename_i value u more hscalar hbegin
        cases hstep
        -- the word ends here, and `c` begins the next token
        refine ⟨by simp [held_begin hbegin], fun text hmem => ?_⟩
        rcases List.mem_cons.1 hmem with heq | hmem
        · cases heq
        · cases (begin_cases hbegin).2 _ hmem
      · cases hstep
  | string acc =>
    rw [scanStep] at hstep
    split at hstep
    · -- the closing quote: the token is the string that was held
      rename_i hquote
      cases hstep
      refine ⟨Nat.zero_le _, fun text hmem => ?_⟩
      cases List.mem_singleton.1 hmem
      exact ⟨hquote, rfl⟩
    · split at hstep
      · cases hstep
        exact ⟨Nat.le_succ _, nofun⟩
      · split at hstep
        · cases hstep
        · cases hstep
          exact ⟨by simp [held], nofun⟩
  | escape acc =>
    rw [scanStep] at hstep
    split at hstep
    · cases hstep
      exact ⟨Nat.le_succ _, nofun⟩
    · obtain ⟨d, -, heq⟩ := Option.map_eq_some_iff.1 hstep
      cases heq
      exact ⟨by simp [held], nofun⟩
  | hex acc left value =>
    cases hdigit : hexDigit c with
    | none => simp [scanStep, hdigit] at hstep
    | some d =>
      -- the fourth digit adds the unit, the first three only the value
      cases left with
      | zero =>
        simp only [scanStep, hdigit] at hstep
        cases hstep
        exact ⟨by simp [held], nofun⟩
      | succ left =>
        simp only [scanStep, hdigit] at hstep
        cases hstep
        exact ⟨Nat.le_succ _, nofun⟩

/-- A character that is not plain adds nothing. -/
theorem held_of_not_plain {c : UInt16} {acc : Units} {t : Scanner} {tokens : List Token}
    (hc : ¬ Plain c) (hstep : scanStep (.string acc) c = some (t, tokens)) :
    held t ≤ acc.length := by
  rw [scanStep] at hstep
  split at hstep
  · cases hstep
    exact Nat.zero_le _
  · -- the quote ends the string, a backslash begins an escape
    rename_i hquote
    split at hstep
    · cases hstep
      exact Nat.le_refl _
    · rename_i hbackslash
      split at hstep
      · cases hstep
      · rename_i hcontrol
        exact absurd ⟨hquote, hbackslash, hcontrol⟩ hc

/-- **Any text.** A string is shorter than what it is read from. -/
theorem length_lt_of_run {text : Units} {s t : Scanner} {tokens : List Token}
    (hrun : Machine.run scanStep s text = some (t, tokens)) :
    ∀ x, .string x ∈ tokens → x.length < held s + text.length := by
  induction text generalizing s tokens with
  | nil =>
    cases hrun
    exact nofun
  | cons c text ih =>
    intro x hmem
    obtain ⟨u, o, os, hstep, hrest, rfl⟩ := Machine.run_cons_eq_some.1 hrun
    obtain ⟨hheld, htokens⟩ := held_scanStep hstep
    rw [List.length_cons]
    -- the string ends at this character or later
    rcases List.mem_append.1 hmem with hmem | hmem
    · have hlength := (htokens x hmem).2
      omega
    · have hlength := ih hrest x hmem
      omega

/-- What is read from a text in quotes, from the first character on that is not plain. -/
theorem length_lt_of_not_plain {p q : Units} {c : UInt16} {t : Scanner} {tokens : List Token}
    (hc : ¬ Plain c)
    (hrun : Machine.run scanStep (.string p) (c :: (q ++ [quote])) = some (t, tokens)) :
    ∀ x, .string x ∈ tokens → x.length < (p ++ c :: q).length := by
  intro x hmem
  obtain ⟨u, o, os, hstep, hrest, rfl⟩ := Machine.run_cons_eq_some.1 hrun
  rw [List.length_append, List.length_cons]
  rcases List.mem_append.1 hmem with hmem | hmem
  · have hlength : x.length = p.length := ((held_scanStep hstep).2 x hmem).2
    omega
  · have hheld := held_of_not_plain hc hstep
    have hlength := length_lt_of_run hrest x hmem
    rw [List.length_append, List.length_singleton] at hlength
    omega

/-! ## Objects without names -/

/-- No object has a member so far. -/
def Nameless : Parser → Prop
  | .value _ stack => ∀ frame ∈ stack, ∃ elements, frame = .array elements
  | .name _ members stack => members = [] ∧ ∀ frame ∈ stack, ∃ elements, frame = .array elements
  | .colon _ _ _ => False
  | .after value stack =>
    (∀ members, value = .object members → members = []) ∧
      ∀ frame ∈ stack, ∃ elements, frame = .array elements

/-- **One token.** Without strings there are no names. -/
theorem nameless_parseStep {s t : Parser} {token : Token} {o : List Empty} (hs : Nameless s)
    (htoken : isString token = false) (hstep : parseStep s token = some (t, o)) : Nameless t := by
  unfold parseStep at hstep
  split at hstep
  -- `h_1` and `h_6` take a string; `h_8`, `h_11` and `h_12` need a name read before
  case h_1 => cases htoken
  case h_2 stack scalar =>
    cases hstep
    exact ⟨nofun, hs⟩
  case h_3 stack =>
    cases hstep
    exact ⟨rfl, hs⟩
  case h_4 stack =>
    cases hstep
    intro frame hmem
    rcases List.mem_cons.1 hmem with rfl | hmem
    · exact ⟨[], rfl⟩
    · exact hs frame hmem
  case h_5 elements stack =>
    cases hstep
    exact ⟨nofun, fun frame hmem => hs frame (List.mem_cons_of_mem _ hmem)⟩
  case h_6 => cases htoken
  case h_7 members stack =>
    cases hstep
    refine ⟨?_, hs.2⟩
    rintro _ ⟨⟩
    exact hs.1
  case h_8 => cases hs
  -- the element before the comma joins the array
  case h_9 value elements stack =>
    cases hstep
    intro frame hmem
    rcases List.mem_cons.1 hmem with rfl | hmem
    · exact ⟨_, rfl⟩
    · exact hs.2 frame (List.mem_cons_of_mem _ hmem)
  case h_10 value elements stack =>
    cases hstep
    exact ⟨nofun, fun frame hmem => hs.2 frame (List.mem_cons_of_mem _ hmem)⟩
  case h_11 value members name stack =>
    obtain ⟨elements, heq⟩ := hs.2 _ List.mem_cons_self
    cases heq
  case h_12 value members name stack =>
    obtain ⟨elements, heq⟩ := hs.2 _ List.mem_cons_self
    cases heq
  case h_13 => cases hstep

/-- Without quotes, an object is empty. -/
theorem eq_nil_of_decode_object {text : Units} {members : List (Units × Value)}
    (hquote : quote ∉ text) (hbackslash : backslash ∉ text)
    (h : decode text = some (.object members)) : members = [] := by
  obtain ⟨tokens, hscan, hparse⟩ := Option.bind_eq_some_iff.1 h
  obtain ⟨s, o, p, hrun, hend, rfl⟩ := scan_eq_some hscan
  have htokens : ∀ token ∈ o ++ p, isString token = false := by
    intro token hmem
    rcases List.mem_append.1 hmem with hmem | hmem
    · exact (isOpen_run rfl hbackslash hrun).2 hquote token hmem
    · exact isString_of_mem_scanEnd hend token hmem
  unfold parse at hparse
  split at hparse
  · rename_i value out hrun
    cases hparse
    -- a member needs a name, and a name is a string
    have hnameless := Machine.run_invariant_of_allowed (I := Nameless) (s := .value false [])
      (fun _ _ _ _ hs htoken hstep => nameless_parseStep hs htoken hstep) nofun
      (Machine.allowed_of_forall (fun token hmem _ => htokens token hmem) _) hrun
    exact hnameless.1 members rfl
  · cases hparse

/-! ## Strings in objects -/

section Strings

variable (P : Units → Prop)

/-- The members that are strings have the property. -/
def Strings (members : List (Units × Value)) : Prop :=
  ∀ name text, (name, .string text) ∈ members → P text

/-- So has the value, and so have its members. -/
def OfValue : Value → Prop
  | .string text => P text
  | .object members => Strings P members
  | .array _ | .scalar _ => True

def OfFrame : Frame → Prop
  | .array _ => True
  | .object members _ => Strings P members

def OfParser : Parser → Prop
  | .value _ stack => ∀ frame ∈ stack, OfFrame P frame
  | .name _ members stack | .colon members _ stack =>
    Strings P members ∧ ∀ frame ∈ stack, OfFrame P frame
  | .after value stack => OfValue P value ∧ ∀ frame ∈ stack, OfFrame P frame

variable {P}

/-- One more member. -/
theorem Strings.concat {members : List (Units × Value)} {value : Value}
    (hmembers : Strings P members) (hvalue : OfValue P value) (name : Units) :
    Strings P (members ++ [(name, value)]) := by
  intro name' text hmem
  rcases List.mem_append.1 hmem with hmem | hmem
  · exact hmembers name' text hmem
  · cases List.mem_singleton.1 hmem
    exact hvalue

/-- **One token.** -/
theorem ofParser_parseStep {s t : Parser} {token : Token} {o : List Empty} (hs : OfParser P s)
    (htoken : ∀ text, token = .string text → P text) (hstep : parseStep s token = some (t, o)) :
    OfParser P t := by
  unfold parseStep at hstep
  split at hstep
  -- only `h_1` brings a string in as a value; the one of `h_6` becomes a name
  case h_1 stack text =>
    cases hstep
    exact ⟨htoken text rfl, hs⟩
  case h_2 stack scalar =>
    cases hstep
    exact ⟨trivial, hs⟩
  case h_3 stack =>
    cases hstep
    exact ⟨nofun, hs⟩
  case h_4 stack =>
    cases hstep
    exact List.forall_mem_cons.2 ⟨trivial, hs⟩
  case h_5 elements stack =>
    cases hstep
    exact ⟨trivial, (List.forall_mem_cons.1 hs).2⟩
  case h_6 members stack text =>
    cases hstep
    exact hs
  case h_7 members stack =>
    cases hstep
    exact hs
  case h_8 members name stack =>
    cases hstep
    exact List.forall_mem_cons.2 hs
  case h_9 value elements stack =>
    cases hstep
    exact List.forall_mem_cons.2 ⟨trivial, (List.forall_mem_cons.1 hs.2).2⟩
  case h_10 value elements stack =>
    cases hstep
    exact ⟨trivial, (List.forall_mem_cons.1 hs.2).2⟩
  -- a member ends at a comma or at the closing brace
  case h_11 value members name stack =>
    cases hstep
    obtain ⟨hmembers, hstack⟩ := List.forall_mem_cons.1 hs.2
    exact ⟨Strings.concat hmembers hs.1 name, hstack⟩
  case h_12 value members name stack =>
    cases hstep
    obtain ⟨hmembers, hstack⟩ := List.forall_mem_cons.1 hs.2
    exact ⟨Strings.concat hmembers hs.1 name, hstack⟩
  case h_13 => cases hstep

/-- The strings in an object are strings of the text. -/
theorem strings_of_decode_object {text : Units} {members : List (Units × Value)}
    (htokens : ∀ tokens, scan text = some tokens → ∀ x, .string x ∈ tokens → P x)
    (h : decode text = some (.object members)) : Strings P members := by
  obtain ⟨tokens, hscan, hparse⟩ := Option.bind_eq_some_iff.1 h
  unfold parse at hparse
  split at hparse
  · rename_i value out hrun
    cases hparse
    have hall (token : Token) (hmem : token ∈ tokens) (x : Units) (heq : token = .string x) : P x :=
      htokens tokens hscan x (heq ▸ hmem)
    -- the parser's state only holds strings of the tokens
    have hparser := Machine.run_invariant_of_allowed (I := OfParser P) (s := .value false [])
      (fun _ _ _ _ hs htoken hstep => ofParser_parseStep hs htoken hstep) nofun
      (Machine.allowed_of_forall (fun token hmem _ => hall token hmem) _) hrun
    exact hparser.1
  · cases hparse

end Strings

end Json
