import Fogged.ForStd.SplitOn
import Fogged.Native.VpnConfig

/-!
# The endpoint of a subscription line in the engine configurations

A server keeps its endpoint as `host:port`, and the generators cut this text at every colon.
The first piece is the host and the second the port, if the host has no colon in it. An IPv6
address has, and it has lost its brackets on the way: what an engine gets is the first group
for a host, and the second group, if it happens to be decimal, for a port.

## Key results

- `tryParse_digits`: a port survives being written and read
- `singBox_endpoint`, `xray_endpoint`, `hy2_server`: what the generators name
- `endpoint_kept_iff`: the endpoint is kept exactly for hosts without a colon
-/

namespace Fogged.Spec.VpnConfig

open Fogged.Native Fogged.Native.Handshake Fogged.Native.App
open Whitelist (stripFront whiteSpace)

/-! ## Integers -/

/-- Every byte of the text is a decimal digit. -/
def Digits (text : Text) : Prop := ∀ b ∈ text, 0x30 ≤ b ∧ b ≤ 0x39

/-- A number is written in digits. -/
theorem digits_digits (n : Nat) : Digits (Decimal.digits n) := fun _ => Decimal.isDigit_of_mem

/-- The first byte of each of `chars` is not a digit. -/
def Digitless (chars : List Text) : Prop :=
  ∀ c ∈ chars, ∃ b ∈ c.head?, ¬ (0x30 ≤ b ∧ b ≤ 0x39)

instance (chars : List Text) : Decidable (Digitless chars) := by
  unfold Digitless
  infer_instance

/-- There is nothing to strip in front of a digit. -/
theorem stripFront_of_digits {chars : List Text} (hchars : Digitless chars) {text : Text}
    (h : Digits text) (fuel : Nat) : stripFront chars fuel text = text := by
  cases fuel with
  | zero => rfl
  | succ fuel =>
    have hfind : chars.find? (·.isPrefixOf text) = none := by
      rw [List.find?_eq_none]
      intro c hc hprefix
      obtain ⟨b, hb, hdigit⟩ := hchars c hc
      obtain ⟨rest, hrest⟩ := List.isPrefixOf_iff_prefix.1 hprefix
      have hmem : b ∈ c := List.mem_of_mem_head? hb
      exact hdigit (h b (hrest ▸ List.mem_append_left rest hmem))
    rw [stripFront, hfind]

/-- Nor behind one. -/
theorem trimDart_of_digits {text : Text} (h : Digits text) : trimDart text = text := by
  have hreverse : Digits text.reverse := fun b hb => h b (List.mem_reverse.1 hb)
  rw [trimDart, stripFront_of_digits (by decide) h, stripFront_of_digits (by decide) hreverse,
    List.reverse_reverse]

/-- A number survives being written and read. -/
theorem tryParse_digits {n : Nat} (h : n < 2 ^ 63) :
    tryParse (Decimal.digits n) = some (n : Int) := by
  have hdigits := digits_digits n
  have hvalue := Decimal.value_digits n
  rw [tryParse, trimDart_of_digits hdigits]
  generalize Decimal.digits n = text at hdigits hvalue
  have hunsigned : parseUnsigned false text = some (n : Int) := by
    simp only [parseUnsigned, Bool.false_eq_true, if_false, one_mul]
    -- no digit is the `x` of a hexadecimal number; below, none is a sign
    split
    · exact absurd (hdigits 0x78 (by simp)) (by decide)
    · exact absurd (hdigits 0x58 (by simp)) (by decide)
    · rw [hvalue, Option.bind_some, if_pos h]
  split
  · exact absurd (hdigits 0x2D (by simp)) (by decide)
  · exact absurd (hdigits 0x2B (by simp)) (by decide)
  · exact hunsigned

/-- A port that is no range is left as it is. -/
theorem firstPort_digits (n : Nat) : firstPort (Decimal.digits n) = Decimal.digits n := by
  rw [firstPort, if_neg]
  intro h
  exact absurd (digits_digits n _ h) (by decide)

/-! ## What the generators name -/

/-- The first piece of the address, which the generators take for the host. -/
def firstPiece (srv : VpnServer) : Text := (srv.addr.splitOn 0x3A).headD []

/-- The second piece, which they take for the port. -/
def secondPiece (srv : VpnServer) (default : Text) : Text :=
  if 1 < (srv.addr.splitOn 0x3A).length then (srv.addr.splitOn 0x3A).getD 1 [] else default

def outbound (key : String) : List Json.Key := [.field "outbounds", .index 0, .field key]

def vnext (key : String) : List Json.Key :=
  [.field "outbounds", .index 0, .field "settings", .field "vnext", .index 0, .field key]

/-- The port of sing-box if the address has none. -/
def defaultPort : Scheme → Int
  | .vless => 8443
  | _ => 38000

/-- What sing-box gets: the second piece for a port, or a default if it is no number. -/
theorem singBox_endpoint {srv : VpnServer} (h : srv.protocol ≠ .orcax) (uuid : Text)
    (socksPort : Nat) :
    ∃ warnings config, generateSingBoxConfig srv uuid socksPort = .ok (warnings, config) ∧
      config.path (outbound "server") = some (.str (firstPiece srv)) ∧
      config.path (outbound "server_port") = some (.num
        ((tryParse (firstPort (secondPiece srv []))).getD (defaultPort srv.protocol))) := by
  cases hprotocol : srv.protocol with
  | vless =>
    rw [generateSingBoxConfig, hprotocol]
    exact ⟨_, _, rfl, rfl, rfl⟩
  | hysteria2 =>
    rw [generateSingBoxConfig, hprotocol]
    exact ⟨_, _, rfl, rfl, rfl⟩
  | orcax => exact absurd hprotocol h

/-- What Xray gets. -/
theorem xray_endpoint (srv : VpnServer) (uuid : Text) (socksPort : Nat) :
    (generateXrayConfig srv uuid socksPort).path (vnext "address") =
        some (.str (firstPiece srv)) ∧
      (generateXrayConfig srv uuid socksPort).path (vnext "port") =
        some (.num ((tryParse (secondPiece srv (ascii "8443"))).getD 8443)) :=
  ⟨rfl, rfl⟩

/-- The first line of the configuration of Hysteria. -/
theorem hy2_server (srv : VpnServer) (uuid : Text) (socksPort : Nat) :
    ∃ rest, (generateHy2Config srv uuid socksPort).2 =
      ascii "server: " ++ firstPiece srv ++ ascii ":" ++
        firstPort (secondPiece srv (ascii "20000-50000")) ++ ascii "\n" ++ rest := by
  have hline : ascii "\nauth: " = ascii "\n" ++ ascii "auth: " := rfl
  apply Exists.intro
  rw [generateHy2Config, hline]
  simp only [List.append_assoc]
  rfl

/-! ## The endpoint -/

/-- A host and a port as one text, with brackets around an IPv6 address. -/
def authority (host : Text) (port : Nat) : Text :=
  (if 0x3A ∈ host then ascii "[" ++ host ++ ascii "]" else host) ++ ascii ":" ++
    Decimal.digits port

/-- The configurations of `srv` name the endpoint of the line. -/
structure Kept (uri : Uri) (srv : VpnServer) (uuid : Text) (socksPort : Nat) : Prop where
  singBox : ∃ warnings config, generateSingBoxConfig srv uuid socksPort = .ok (warnings, config) ∧
    config.path (outbound "server") = some (.str uri.host) ∧
    config.path (outbound "server_port") = some (.num uri.port)
  xray : srv.protocol = .vless →
    (generateXrayConfig srv uuid socksPort).path (vnext "address") = some (.str uri.host) ∧
    (generateXrayConfig srv uuid socksPort).path (vnext "port") = some (.num uri.port)
  hy2 : srv.protocol = .hysteria2 → ∃ rest, (generateHy2Config srv uuid socksPort).2 =
    ascii "server: " ++ authority uri.host uri.port ++ ascii "\n" ++ rest

/-- The address of a server is the host, without brackets, and the port. -/
theorem addr_of_parseLine {uri : Uri} {srv : VpnServer} (h : parseLine uri = some srv) :
    srv.addr = uri.host ++ 0x3A :: Decimal.digits uri.port := by
  -- the three schemes differ in the protocol alone
  have hserver (protocol : Scheme) (hsrv : (do
      let name ← uri.name
      let params ← uri.queryParameters
      some { protocol, name, addr := uri.host ++ ascii ":" ++ Decimal.digits uri.port, params } :
        Option VpnServer) = some srv) : srv.addr = uri.host ++ 0x3A :: Decimal.digits uri.port := by
    simp only [Option.bind_eq_bind, Option.bind_eq_some_iff, Option.some.injEq] at hsrv
    obtain ⟨name, -, params, -, rfl⟩ := hsrv
    rw [List.append_assoc]
    rfl
  unfold parseLine at h
  simp only at h
  split at h
  · exact hserver _ h
  · split at h
    · exact hserver _ h
    · split at h
      · exact hserver _ h
      · cases h

/-- It is cut at the colons of the host, too. -/
theorem splitOn_addr {uri : Uri} {srv : VpnServer} (h : parseLine uri = some srv) :
    srv.addr.splitOn 0x3A = uri.host.splitOn 0x3A ++ [Decimal.digits uri.port] := by
  have hdigits : 0x3A ∉ Decimal.digits uri.port := fun hmem =>
    absurd (digits_digits uri.port _ hmem) (by decide)
  rw [addr_of_parseLine h, List.splitOn_append_cons, List.splitOn_eq_singleton hdigits]

section

variable {uri : Uri} {srv : VpnServer} (h : parseLine uri = some srv)
  (hengine : srv.protocol ≠ .orcax) {uuid : Text} {socksPort : Nat}

include hengine

/-- The first piece is the host only if the host has no colon. -/
theorem not_mem_of_kept (hkept : Kept uri srv uuid socksPort) : 0x3A ∉ uri.host := by
  obtain ⟨warnings, config, hsingBox, hserver, -⟩ := singBox_endpoint hengine uuid socksPort
  obtain ⟨_, _, hsingBox', hserver', -⟩ := hkept.singBox
  rw [hsingBox] at hsingBox'
  cases hsingBox'
  rw [hserver] at hserver'
  have hhost : firstPiece srv = uri.host := Json.str.inj (Option.some.inj hserver')
  -- whatever stands in front of the first colon has none
  rw [← hhost]
  exact List.not_mem_headD_splitOn 0x3A srv.addr

include h

/-- Without one, all three configurations name host and port. -/
theorem kept_of_not_mem (hcolon : 0x3A ∉ uri.host) : Kept uri srv uuid socksPort := by
  -- without a colon in the host the address has two pieces
  have hparts : srv.addr.splitOn 0x3A = [uri.host, Decimal.digits uri.port] := by
    rw [splitOn_addr h, List.splitOn_eq_singleton hcolon]
    rfl
  have hfirst : firstPiece srv = uri.host := by
    rw [firstPiece, hparts]
    rfl
  have hsecond (default : Text) : secondPiece srv default = Decimal.digits uri.port := by
    rw [secondPiece, hparts]
    rfl
  have hvalue := tryParse_digits uri.port_lt
  obtain ⟨warnings, config, hsingBox, hserver, hport⟩ := singBox_endpoint hengine uuid socksPort
  refine ⟨⟨warnings, config, hsingBox, ?_, ?_⟩, fun _ => ?_, fun _ => ?_⟩
  · rw [hserver, hfirst]
  · rw [hport, hsecond, firstPort_digits, hvalue]
    rfl
  · obtain ⟨haddress, hxrayPort⟩ := xray_endpoint srv uuid socksPort
    rw [haddress, hxrayPort, hfirst, hsecond, hvalue]
    exact ⟨rfl, rfl⟩
  · obtain ⟨rest, hrest⟩ := hy2_server srv uuid socksPort
    refine ⟨rest, ?_⟩
    rw [hrest, hfirst, hsecond, firstPort_digits, authority, if_neg hcolon]
    simp only [List.append_assoc]

end

/-- **The endpoint is kept exactly for hosts without a colon.** -/
theorem endpoint_kept_iff (uri : Uri) (srv : VpnServer) (h : parseLine uri = some srv)
    (hengine : srv.protocol ≠ .orcax) (uuid : Text) (socksPort : Nat) :
    Kept uri srv uuid socksPort ↔ 0x3A ∉ uri.host :=
  ⟨not_mem_of_kept hengine, kept_of_not_mem h hengine⟩

/-- A line without a name or parameters. -/
def line (scheme host : String) (port : Nat) (h : port < 2 ^ 63) : Uri :=
  ⟨ascii scheme, ascii host, port, h, some [], some []⟩

/-- The server of such a line. -/
def server (protocol : Scheme) (addr : String) : VpnServer := ⟨protocol, [], ascii addr, []⟩

/-- An IPv4 address is kept. -/
theorem endpoint_kept_ipv4 :
    Kept (line "vless" "198.51.100.7" 443 (by decide)) (server .vless "198.51.100.7:443")
      (ascii "id") 1081 :=
  (endpoint_kept_iff _ _ (by decide) (by decide) _ _).2 (by decide)

/-- The endpoint `[2001:db8::1]:443`: the host becomes `2001`, and the port a default or the
    second group. -/
theorem ipv6_endpoint_lost :
    let vless := line "vless" "2001:db8::1" 443 (by decide)
    let hysteria2 := line "hysteria2" "2001:db8::1" 443 (by decide)
    let srv := server .vless "2001:db8::1:443"
    let srv' := server .hysteria2 "2001:db8::1:443"
    parseLine vless = some srv ∧ parseLine hysteria2 = some srv' ∧
    (∃ warnings config, generateSingBoxConfig srv (ascii "id") 1081 = .ok (warnings, config) ∧
      config.path (outbound "server") = some (.lit "2001") ∧
      config.path (outbound "server_port") = some (.num 8443)) ∧
    (generateXrayConfig srv (ascii "id") 1081).path (vnext "address") = some (.lit "2001") ∧
    (generateXrayConfig srv (ascii "id") 1081).path (vnext "port") = some (.num 8443) ∧
    (∃ rest, (generateHy2Config srv' (ascii "id") 1081).2 =
      ascii "server: " ++ ascii "2001" ++ ascii ":" ++ ascii "db8" ++ ascii "\n" ++ rest) ∧
    ¬ Kept vless srv (ascii "id") 1081 ∧ ¬ Kept hysteria2 srv' (ascii "id") 1081 := by
  intro vless hysteria2 srv srv'
  -- the second group is no decimal number
  have hport : tryParse (ascii "db8") = none := by decide +kernel
  refine ⟨by decide, by decide, ?_, rfl, ?_, ?_, ?_, ?_⟩
  · obtain ⟨warnings, config, hconfig, hserver, hserverPort⟩ :=
      singBox_endpoint (show srv.protocol ≠ .orcax by decide) (ascii "id") 1081
    refine ⟨warnings, config, hconfig, hserver, ?_⟩
    rw [hserverPort, show firstPort (secondPiece srv []) = ascii "db8" by decide, hport]
    rfl
  · rw [(xray_endpoint srv (ascii "id") 1081).2,
      show secondPiece srv (ascii "8443") = ascii "db8" by decide, hport]
    rfl
  · exact hy2_server srv' (ascii "id") 1081
  · exact fun hkept => not_mem_of_kept (by decide) hkept (by decide)
  · exact fun hkept => not_mem_of_kept (by decide) hkept (by decide)

end Fogged.Spec.VpnConfig
