import Fogged.ForStd.Decimal
import Fogged.Native.LaunchArgs
import Fogged.Native.Whitelist

/-!
# The split-tunnel choice of the app and the routing of orcax-connect

The app turns the user's choice into arguments, orcax-connect turns arguments into
a list of domains, and every handler matches its destination against the list.
Each half is described on its own, by what it does to the set of domains; the
composition decides what the user gets.

## Key results

- `mem_domains_new`: the domains of a list built from extras
- `matches_iff`: matching a host name
- `setup_bypassArgs`: what arrives of the app's arguments
- `split_tunnel_iff`: the routing is the user's choice only with the default list on
-/

namespace Fogged.Spec.SplitTunnel

open Fogged.Native Fogged.Native.Handshake Fogged.Native.ClientAuth Fogged.Native.App
open Fogged.Native.Whitelist

/-! ## The list -/

/-- `host` is the domain `d` or a subdomain of it, up to ASCII case. -/
def Under (host d : Text) : Prop :=
  toAsciiLowercase host = d ∨ (ascii "." ++ d) <:+ toAsciiLowercase host

instance (host d : Text) : Decidable (Under host d) := by
  unfold Under
  infer_instance

/-- What is kept of an entry of the extras. -/
def entryDomain (entry : Text) : Text := toAsciiLowercase (trim entry)

/-- An entry without a dot is malformed. -/
theorem mem_addExtra {domains : List Text} {entry d : Text} :
    d ∈ addExtra domains entry ↔ d ∈ domains ∨ d = entryDomain entry ∧ 0x2E ∈ d := by
  show (d ∈ if entryDomain entry ≠ [] ∧ 0x2E ∈ entryDomain entry ∧
    ¬ domains.contains (entryDomain entry) then domains ++ [entryDomain entry] else domains) ↔ _
  split
  · rename_i h
    rw [List.mem_append, List.mem_singleton]
    constructor
    · rintro (hd | rfl)
      · exact .inl hd
      · exact .inr ⟨rfl, h.2.1⟩
    · rintro (hd | ⟨hd, -⟩)
      · exact .inl hd
      · exact .inr hd
  · rename_i h
    constructor
    · exact .inl
    · rintro (hd | ⟨rfl, hdot⟩)
      · exact hd
      · -- an entry with a dot is only left out if it is there already
        by_contra hnew
        exact h ⟨List.ne_nil_of_mem hdot, hdot, mt List.contains_iff_mem.1 hnew⟩

/-- An entry without a dot is dropped. -/
theorem mem_foldl_addExtra {entries domains : List Text} {d : Text} :
    d ∈ entries.foldl addExtra domains ↔
      d ∈ domains ∨ ∃ entry ∈ entries, d = entryDomain entry ∧ 0x2E ∈ d := by
  induction entries generalizing domains with
  | nil => simp
  | cons entry entries ih =>
    rw [List.foldl_cons, ih, mem_addExtra]
    simp only [List.mem_cons, exists_eq_or_imp, or_assoc]

/-- The default domains are written in lower case. -/
theorem map_defaultDomains : defaultDomains.map toAsciiLowercase = defaultDomains := by
  decide +kernel

variable {fromStr : Text → Option IpNet}

/-- The domains of a list: the defaults and the well-formed entries of the extras. -/
theorem mem_domains_new {extra : Option Text} {d : Text} :
    d ∈ (Whitelist.new fromStr extra).domains ↔ d ∈ defaultDomains ∨
      ∃ s ∈ extra, ∃ entry ∈ s.splitOn 0x2C, d = entryDomain entry ∧ 0x2E ∈ d := by
  cases extra with
  | none => simp [Whitelist.new, map_defaultDomains]
  | some s => simp [Whitelist.new, map_defaultDomains, mem_foldl_addExtra]

/-- A host name matches if it is under one of the domains. -/
theorem matches_iff (w : Whitelist) {host : Text} (h : IpAddr.parse host = none) :
    w.matches host = true ↔ ∃ d ∈ w.domains, Under host d := by
  simp only [Whitelist.matches, h, List.any_eq_true, decide_eq_true_eq, List.isSuffixOf_iff_suffix,
    Under]

/-! ## From the app to the list -/

/-- A domain name as the app takes it from the user: trimmed, in lower case, with a
    dot, and without a comma. -/
structure DomainName (d : Text) : Prop where
  trimmed : trim d = d
  lower : toAsciiLowercase d = d
  dotted : 0x2E ∈ d
  no_comma : 0x2C ∉ d

/-- A domain name is stored as it is. -/
theorem DomainName.entryDomain_eq {d : Text} (h : DomainName d) : entryDomain d = d := by
  rw [entryDomain, h.trimmed, h.lower]

/-- The list that the app joins is the list that orcax-connect splits. -/
theorem splitOn_join {names : List Text} (h : ∀ d ∈ names, DomainName d) (hne : names ≠ []) :
    (join names).splitOn 0x2C = names :=
  List.splitOn_intercalate 0x2C (fun d hd => (h d hd).no_comma) hne

/-- The extras, as the app passes them. -/
def extraOf (names : List Text) : Option Text := if names ≠ [] then some (join names) else none

/-- Every name of the user becomes a domain of the list. -/
theorem mem_domains_extraOf {names : List Text} (h : ∀ d ∈ names, DomainName d) {d : Text} :
    d ∈ (Whitelist.new fromStr (extraOf names)).domains ↔ d ∈ defaultDomains ∨ d ∈ names := by
  rw [mem_domains_new]
  unfold extraOf
  split
  · -- joining and splitting the names gives them back
    rename_i hne
    simp only [Option.mem_def, Option.some.injEq, exists_eq_left', splitOn_join h hne]
    constructor
    · rintro (hd | ⟨entry, hentry, hd, -⟩)
      · exact .inl hd
      · rw [(h entry hentry).entryDomain_eq] at hd
        exact .inr (hd ▸ hentry)
    · rintro (hd | hd)
      · exact .inl hd
      · exact .inr ⟨d, hd, (h d hd).entryDomain_eq.symm, (h d hd).dotted⟩
  · rename_i hnil
    simp [not_not.1 hnil]

/-- A flag is looked for behind arguments that are something else. -/
theorem arg_append {front rest : List Text} {flag : Text} (h : flag ∉ front) :
    arg (front ++ rest) flag = arg rest flag := by
  induction front with
  | nil => rfl
  | cons a front ih =>
    rw [List.mem_cons, not_or] at h
    rw [List.cons_append, arg, if_neg (Ne.symm h.1), ih h.2]

/-- The joined names start with the first of them. -/
theorem join_cons (d : Text) (names : List Text) : ∃ rest, join (d :: names) = d ++ rest := by
  cases names with
  | nil => exact ⟨[], by simp [join, List.intercalate]⟩
  | cons e names => exact ⟨_, by simp [join, List.intercalate]; rfl⟩

/-- The joined names are no flag: they contain a dot. -/
theorem join_ne {names : List Text} (h : ∀ d ∈ names, DomainName d) (hne : names ≠ [])
    {flag : Text} (hflag : 0x2E ∉ flag) : join names ≠ flag := by
  cases names with
  | nil => exact absurd rfl hne
  | cons d names =>
    obtain ⟨rest, hrest⟩ := join_cons d names
    intro heq
    rw [← heq, hrest] at hflag
    exact hflag (List.mem_append_left rest (h d List.mem_cons_self).dotted)

/-- No argument is spelled like one of the two flags. -/
def Plain (args : List Text) : Prop :=
  ascii "--whitelist" ∉ args ∧ ascii "--whitelist-extra" ∉ args

/-- What arrives of the app's arguments, behind others that are no bypass flags: the
    extras only together with the default list. -/
theorem setup_bypassArgs (fromStr : Text → Option IpNet) (settings : Settings)
    {front : List Text} (hnames : ∀ d ∈ settings.splitDomains, DomainName d)
    (hfront : Plain front) :
    setup fromStr (front ++ bypassArgs settings) =
      if settings.domainBypass then some (Whitelist.new fromStr (extraOf settings.splitDomains))
      else none := by
  have hextra : arg (front ++ bypassArgs settings) (ascii "--whitelist-extra") =
      extraOf settings.splitDomains := by
    rw [arg_append hfront.2, bypassArgs, arg_append (by cases settings.domainBypass <;> decide),
      extraOf]
    split <;> rfl
  have henabled : (front ++ bypassArgs settings).any (· = ascii "--whitelist") =
      settings.domainBypass := by
    have hnone : front.any (· = ascii "--whitelist") = false := by
      simpa using fun a ha => ne_of_mem_of_not_mem ha hfront.1
    have hflag : (if settings.domainBypass then [ascii "--whitelist"] else []).any
        (· = ascii "--whitelist") = settings.domainBypass := by
      cases settings.domainBypass <;> rfl
    -- the joined names are no flag, since a name has a dot
    have hvalue : (if settings.splitDomains ≠ [] then
        [ascii "--whitelist-extra", join settings.splitDomains] else []).any
        (· = ascii "--whitelist") = false := by
      split
      · rename_i hne
        have hjoin : join settings.splitDomains ≠ ascii "--whitelist" :=
          join_ne hnames hne (by decide)
        rw [List.any_cons, List.any_cons, List.any_nil, decide_eq_false hjoin]
        rfl
      · rfl
    rw [List.any_append, hnone, Bool.false_or, bypassArgs, List.any_append, hflag, hvalue,
      Bool.or_false]
  rw [setup, hextra, henabled]

/-! ## The user's choice -/

/-- What the user has chosen: the default domains, if domain bypass is on, and the
    names they entered. -/
def Chosen (settings : Settings) (host : Text) : Prop :=
  (settings.domainBypass = true ∧ ∃ d ∈ defaultDomains, Under host d) ∨
    ∃ d ∈ settings.splitDomains, Under host d

/-- orcax-connect, started with `args`, connects past the tunnel exactly where the
    user has chosen it. -/
def Routed (fromStr : Text → Option IpNet) (settings : Settings) (args : List Text) (host : Text) :
    Prop :=
  bypasses (setup fromStr args) host = true ↔ Chosen settings host

/-- With the arguments of the app behind `front`: the names the user entered count only
    together with the default domains. -/
theorem routed_iff (fromStr : Text → Option IpNet) (settings : Settings) {front : List Text}
    {host : Text}
    (hnames : ∀ d ∈ settings.splitDomains, DomainName d)
    (hfront : Plain front)
    (hhost : IpAddr.parse host = none) :
    Routed fromStr settings (front ++ bypassArgs settings) host ↔
      settings.domainBypass = true ∨ ∀ d ∈ settings.splitDomains, ¬ Under host d := by
  rw [Routed, setup_bypassArgs fromStr settings hnames hfront, Chosen]
  cases hbypass : settings.domainBypass with
  | true =>
    have hmatch : bypasses (some (Whitelist.new fromStr (extraOf settings.splitDomains))) host =
        true ↔ (∃ d ∈ defaultDomains, Under host d) ∨ ∃ d ∈ settings.splitDomains, Under host d := by
      rw [bypasses, matches_iff _ hhost]
      simp only [mem_domains_extraOf hnames, or_and_right, exists_or]
    simpa using hmatch
  | false => simp [bypasses]

/-- **The routing is the user's choice** exactly if domain bypass is on or the
    destination is under none of the names the user entered, both for orcax-connect as
    the tunnel and as the shim. -/
theorem split_tunnel_iff (fromStr : Text → Option IpNet) (settings : Settings) (srv : VpnServer)
    (binary host : Text)
    (hnames : ∀ d ∈ settings.splitDomains, DomainName d)
    (hplain : Plain (binary :: tunnelArgs settings srv)) (hhost : IpAddr.parse host = none) :
    (Routed fromStr settings (binary :: orcaxArgs settings srv) host ↔
      settings.domainBypass = true ∨ ∀ d ∈ settings.splitDomains, ¬ Under host d) ∧
    (Routed fromStr settings (binary :: shimArgs settings) host ↔
      settings.domainBypass = true ∨ ∀ d ∈ settings.splitDomains, ¬ Under host d) := by
  constructor
  · exact routed_iff fromStr settings hnames hplain hhost
  · -- behind the shim the arguments are fixed, apart from the program's name
    have hsocks : Plain (binary :: [ascii "--socks", ascii "127.0.0.1:1080",
        ascii "--upstream-socks", ascii "127.0.0.1:1081"]) := by
      obtain ⟨hbinary, hbinary'⟩ := hplain
      rw [List.mem_cons, not_or] at hbinary hbinary'
      constructor
      · rw [List.mem_cons, not_or]
        exact ⟨hbinary.1, by decide⟩
      · rw [List.mem_cons, not_or]
        exact ⟨hbinary'.1, by decide⟩
    exact routed_iff fromStr settings hnames hsocks hhost

/-- IPv4 networks as `ipnet` reads them: the address and the length of what must agree. -/
def ipv4Net (text : Text) : Option IpNet :=
  match text.splitOn 0x2F with
  | [addr, len] =>
    match IpAddr.parse addr, Decimal.value 10 len with
    | some (.v4 net), some n => some fun
      | .v4 octets => Bytes.ofBE octets >>> (32 - n) = Bytes.ofBE net >>> (32 - n)
      | .v6 _ => false
    | _, _ => none
  | _ => none

/-- A user without domain bypass who entered `example.org`. -/
def exampleSettings : Settings where
  protocol := .orcaxProMax
  uuid := ascii "0804b576-4dfb-424a-80e7-e812e5c13cae"
  domainBypass := false
  splitDomains := [ascii "example.org"]

def exampleServer : VpnServer where
  protocol := .orcax
  name := ascii "Helsinki"
  addr := ascii "204.168.171.253:9444"
  params := []

theorem domainName_example : DomainName (ascii "example.org") where
  trimmed := by decide +kernel
  lower := by decide +kernel
  dotted := by decide
  no_comma := by decide

/-- The user's own name goes through the tunnel, as it does through the shim. -/
theorem split_tunnel_ignores_names :
    ¬ Routed ipv4Net exampleSettings
        (ascii "orcax-connect" :: orcaxArgs exampleSettings exampleServer)
        (ascii "example.org") ∧
      ¬ Routed ipv4Net exampleSettings (ascii "orcax-connect" :: shimArgs exampleSettings)
        (ascii "example.org") := by
  have hchosen : Chosen exampleSettings (ascii "example.org") :=
    .inr ⟨ascii "example.org", List.mem_singleton_self _, by decide⟩
  constructor
  · intro h
    exact absurd (h.2 hchosen) (by decide +kernel)
  · intro h
    exact absurd (h.2 hchosen) (by decide +kernel)

/-- With domain bypass on, both names are routed as chosen. -/
theorem split_tunnel_iff_example :
    Routed ipv4Net { exampleSettings with domainBypass := true }
        (ascii "orcax-connect" ::
          orcaxArgs { exampleSettings with domainBypass := true } exampleServer)
        (ascii "www.example.org") ∧
      Routed ipv4Net { exampleSettings with domainBypass := true }
        (ascii "orcax-connect" :: shimArgs { exampleSettings with domainBypass := true })
        (ascii "www.example.org") := by
  have hiff := split_tunnel_iff ipv4Net { exampleSettings with domainBypass := true } exampleServer
    (ascii "orcax-connect") (ascii "www.example.org")
    (fun d hd => List.mem_singleton.1 hd ▸ domainName_example)
    ⟨by decide +kernel, by decide +kernel⟩ (by decide +kernel)
  exact ⟨hiff.1.2 (.inl rfl), hiff.2.2 (.inl rfl)⟩

end Fogged.Spec.SplitTunnel
