import Fogged.Spec.AsciiCase
import Fogged.Spec.SplitTunnel

/-!
# What the whitelist matches

The code compares strings, with a dot put in front; what is meant are labels. The two are the
same for every stored domain and every host that is no IP literal, leading, trailing and
double dots included. An entry of the user is stored by one rule, "it contains a dot", and
looked up by another: a text that reads as an IP address is looked for in the built-in
networks only, so an address that the user has entered is stored and has no effect.

## Key results

- `under_iff_labels`: the comparison of strings as one of labels
- `whitelist_matches_labels`: matching, case, and more entries
- `entry_takes_effect_iff`: which entries of the user count
-/

namespace Fogged.Spec.WhitelistCorrect

open Fogged.Native Fogged.Native.Handshake Fogged.Native.Whitelist
open AsciiCase SplitTunnel

/-! ## Labels -/

/-- The dot-separated labels of a name. -/
def labels (name : Text) : List Text := name.splitOn 0x2E

/-- A suffix of the string behind a dot is a suffix of the labels. -/
theorem under_iff_labels (host d : Text) :
    Under host d ↔ labels d <:+ labels (toAsciiLowercase host) :=
  (List.splitOn_suffix_splitOn_iff 0x2E d (toAsciiLowercase host)).symm

variable {fromStr : Text → Option IpNet}

/-- The stored domains are in lower case. -/
theorem toAsciiLowercase_of_mem {extra : Option Text} {d : Text}
    (h : d ∈ (Whitelist.new fromStr extra).domains) : toAsciiLowercase d = d := by
  obtain hdefault | ⟨s, -, entry, -, rfl, -⟩ := mem_domains_new.1 h
  · rw [← map_defaultDomains] at hdefault
    obtain ⟨name, -, rfl⟩ := List.mem_map.1 hdefault
    exact toAsciiLowercase_idem name
  · exact toAsciiLowercase_idem (trim entry)

/-! ## Entries -/

/-- The comma-separated entries of the extras. -/
def entries : Option Text → List Text
  | none => []
  | some s => s.splitOn 0x2C

/-- What is stored: the built-in domains, and the entries that have a dot. -/
theorem mem_domains_iff {extra : Option Text} {d : Text} :
    d ∈ (Whitelist.new fromStr extra).domains ↔
      d ∈ defaultDomains ∨ ∃ entry ∈ entries extra, d = entryDomain entry ∧ 0x2E ∈ d := by
  rw [mem_domains_new]
  cases extra <;> simp [entries]

/-- More entries are more domains. -/
theorem domains_subset {extra extra' : Option Text} (h : entries extra ⊆ entries extra') :
    (Whitelist.new fromStr extra).domains ⊆ (Whitelist.new fromStr extra').domains := by
  intro d hd
  rw [mem_domains_iff] at hd ⊢
  exact hd.imp_right fun ⟨entry, hentry, hd⟩ => ⟨entry, h hentry, hd⟩

/-- An entry is stored in lower case. -/
theorem entryDomain_lower (entry : Text) :
    entryDomain (toAsciiLowercase entry) = entryDomain entry := by
  rw [entryDomain, trim_toAsciiLowercase, toAsciiLowercase_idem]
  rfl

/-- Commas have no case. -/
theorem entries_lower (extra : Option Text) :
    entries (extra.map toAsciiLowercase) = (entries extra).map toAsciiLowercase := by
  cases extra with
  | none => rfl
  | some s => exact List.splitOn_map (caseless_of_not_letter rfl) s

/-- Entries in another case are the same domains. -/
theorem mem_domains_lower (extra : Option Text) (d : Text) :
    d ∈ (Whitelist.new fromStr (extra.map toAsciiLowercase)).domains ↔
      d ∈ (Whitelist.new fromStr extra).domains := by
  rw [mem_domains_iff, mem_domains_iff, entries_lower]
  apply or_congr_right
  constructor
  · rintro ⟨lowered, hlowered, hd, hdot⟩
    obtain ⟨entry, hentry, rfl⟩ := List.mem_map.1 hlowered
    exact ⟨entry, hentry, hd.trans (entryDomain_lower entry), hdot⟩
  · rintro ⟨entry, hentry, hd, hdot⟩
    exact ⟨toAsciiLowercase entry, List.mem_map_of_mem hentry,
      hd.trans (entryDomain_lower entry).symm, hdot⟩

/-! ## Matching -/

/-- Addresses are looked for in the networks, whatever the domains. -/
theorem matches_of_parse (w : Whitelist) {host : Text} {ip : IpAddr}
    (h : IpAddr.parse host = some ip) : w.matches host = w.matchesIp ip := by
  simp only [Whitelist.matches, h]

/-- The case of the host does not matter. -/
theorem matches_lower (w : Whitelist) (host : Text) :
    w.matches (toAsciiLowercase host) = w.matches host := by
  simp only [Whitelist.matches, parse_toAsciiLowercase, toAsciiLowercase_idem]

/-- The networks are the built-in ones, so the domains decide. -/
theorem matches_mono {extra extra' : Option Text} {host : Text}
    (hsub : (Whitelist.new fromStr extra).domains ⊆ (Whitelist.new fromStr extra').domains)
    (h : (Whitelist.new fromStr extra).matches host = true) :
    (Whitelist.new fromStr extra').matches host = true := by
  cases hhost : IpAddr.parse host with
  | some ip =>
    rw [matches_of_parse _ hhost] at h ⊢
    exact h
  | none =>
    rw [matches_iff _ hhost] at h ⊢
    obtain ⟨d, hd, hunder⟩ := h
    exact ⟨d, hsub hd, hunder⟩

/-- Nor does the case of the extras. -/
theorem matches_new_lower (extra : Option Text) (host : Text) :
    (Whitelist.new fromStr (extra.map toAsciiLowercase)).matches host =
      (Whitelist.new fromStr extra).matches host := by
  rw [Bool.eq_iff_iff]
  exact ⟨matches_mono fun d => (mem_domains_lower extra d).1,
    matches_mono fun d => (mem_domains_lower extra d).2⟩

/-- **Matching is by labels**: a host that is no IP literal matches exactly if the labels of
    a stored domain are a suffix of its own, up to ASCII case. The case of the host and of
    the extras does not matter, and with more entries no match is lost. -/
theorem whitelist_matches_labels (fromStr : Text → Option IpNet) (extra : Option Text)
    (host : Text) :
    (IpAddr.parse host = none →
      ((Whitelist.new fromStr extra).matches host = true ↔
        ∃ d ∈ (Whitelist.new fromStr extra).domains,
          labels (toAsciiLowercase d) <:+ labels (toAsciiLowercase host))) ∧
    (∀ host', toAsciiLowercase host' = toAsciiLowercase host →
      (Whitelist.new fromStr extra).matches host' = (Whitelist.new fromStr extra).matches host) ∧
    (∀ extra', extra'.map toAsciiLowercase = extra.map toAsciiLowercase →
      (Whitelist.new fromStr extra').matches host = (Whitelist.new fromStr extra).matches host) ∧
    (∀ extra', entries extra ⊆ entries extra' →
      (Whitelist.new fromStr extra).matches host = true →
        (Whitelist.new fromStr extra').matches host = true) := by
  refine ⟨?_, ?_, ?_, ?_⟩
  · -- stored domains are in lower case already
    intro hhost
    rw [matches_iff _ hhost]
    apply exists_congr
    intro d
    apply and_congr_right
    intro hd
    rw [under_iff_labels, toAsciiLowercase_of_mem hd]
  · intro host' hcase
    rw [← matches_lower, hcase, matches_lower]
  · intro extra' hcase
    rw [← matches_new_lower, hcase, matches_new_lower]
  · intro extra' hsub
    exact matches_mono (domains_subset hsub)

/-- A subdomain of a default domain, in capitals. -/
theorem whitelist_matches_labels_vk :
    IpAddr.parse (ascii "M.VK.COM") = none ∧
      (Whitelist.new ipv4Net none).matches (ascii "M.VK.COM") = true := by
  have hname : IpAddr.parse (ascii "M.VK.COM") = none := by decide +kernel
  exact ⟨hname, ((whitelist_matches_labels ipv4Net none (ascii "M.VK.COM")).1 hname).2
    ⟨ascii "vk.com", by decide +kernel, by decide +kernel⟩⟩

/-! ## The entries of the user -/

/-- The entry `e` takes effect: it matches, and so does every subdomain of it. -/
def TakesEffect (w : Whitelist) (e : Text) : Prop :=
  w.matches (trim e) = true ∧
    ∀ p, p ≠ [] → IpAddr.parse (p ++ ascii "." ++ trim e) = none →
      w.matches (p ++ ascii "." ++ trim e) = true

/-- Lower-casing goes byte by byte. -/
theorem toAsciiLowercase_append (s t : Text) :
    toAsciiLowercase (s ++ t) = toAsciiLowercase s ++ toAsciiLowercase t :=
  List.map_append

/-- A caseless byte is in both or in neither. -/
theorem mem_toAsciiLowercase {c : UInt8} (h : Caseless c) (text : Text) :
    c ∈ toAsciiLowercase text ↔ c ∈ text := by
  simp only [toAsciiLowercase, List.mem_map, h _, exists_eq_right]

/-- An entry with a dot is stored. -/
theorem entryDomain_mem (fromStr : Text → Option IpNet) {extra e : Text}
    (he : e ∈ extra.splitOn 0x2C) (hdot : 0x2E ∈ trim e) :
    entryDomain e ∈ (Whitelist.new fromStr (some extra)).domains := by
  have hdot' : 0x2E ∈ entryDomain e :=
    (mem_toAsciiLowercase (caseless_of_not_letter rfl) _).2 hdot
  exact mem_domains_iff.2 (.inr ⟨e, he, rfl, hdot'⟩)

/-- **Which entries count**: an entry with a dot takes effect exactly if it is no IP literal,
    or one of an address that the built-in networks contain anyway. -/
theorem entry_takes_effect_iff (fromStr : Text → Option IpNet) (extra e : Text)
    (he : e ∈ extra.splitOn 0x2C) (hdot : 0x2E ∈ trim e) :
    TakesEffect (Whitelist.new fromStr (some extra)) e ↔ ∀ ip, IpAddr.parse (trim e) = some ip →
      (Whitelist.new fromStr (some extra)).matchesIp ip = true := by
  have hstored := entryDomain_mem fromStr he hdot
  constructor
  · rintro ⟨hmatch, -⟩ ip hip
    rwa [matches_of_parse _ hip] at hmatch
  · intro hip
    refine ⟨?_, ?_⟩
    · -- an entry that reads as an address is looked for in the networks
      cases hhost : IpAddr.parse (trim e) with
      | some ip =>
        rw [matches_of_parse _ hhost]
        exact hip ip hhost
      | none => exact (matches_iff _ hhost).2 ⟨_, hstored, .inl rfl⟩
    · -- a subdomain is compared with the stored entry
      intro p _ hhost
      refine (matches_iff _ hhost).2 ⟨_, hstored, .inr ⟨toAsciiLowercase p, ?_⟩⟩
      rw [List.append_assoc, toAsciiLowercase_append, toAsciiLowercase_append]
      rfl

/-- A domain between blanks. -/
theorem entry_takes_effect_padded :
    TakesEffect (Whitelist.new ipv4Net (some (ascii "a.ru, Example.org ")))
      (ascii " Example.org ") :=
  (entry_takes_effect_iff _ _ _ (by decide +kernel) (by decide +kernel)).2
    fun ip hip => by
      rw [show IpAddr.parse (trim (ascii " Example.org ")) = none by decide +kernel] at hip
      cases hip

/-- An address that the user has entered is stored and does not match. -/
theorem address_entry_ignored :
    ascii "8.8.8.8" ∈ (ascii "8.8.8.8").splitOn 0x2C ∧
      trim (ascii "8.8.8.8") = ascii "8.8.8.8" ∧ 0x2E ∈ ascii "8.8.8.8" ∧
      ascii "8.8.8.8" ∈ (Whitelist.new ipv4Net (some (ascii "8.8.8.8"))).domains ∧
      (Whitelist.new ipv4Net (some (ascii "8.8.8.8"))).matches (ascii "8.8.8.8") = false := by
  decide +kernel

end Fogged.Spec.WhitelistCorrect
