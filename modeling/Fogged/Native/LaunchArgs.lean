import Fogged.Native.Handshake

/-!
# Servers and the arguments of orcax-connect (`lib/main.dart`, `lib/models/vpn_server.dart`)

The app starts orcax-connect in two ways: as the tunnel itself, for an OrcaX server,
and as a SOCKS5 front end of another engine, the shim.
-/

namespace Fogged.Native.App

open Fogged.Native.Handshake

/-- The scheme of a subscription line, `VpnServer.protocol`. -/
inductive Scheme where
  | vless
  | hysteria2
  | orcax
  deriving DecidableEq

/-- The selected protocol, `_protocol`. The last two are handled but no longer
    offered. -/
inductive Protocol where
  | vlessReality
  | hysteria2
  | orcaxProMax
  | orcaxVless
  | orcaxHysteria2
  deriving DecidableEq

/-- A server of the subscription. -/
structure VpnServer where
  protocol : Scheme
  name : Text
  addr : Text
  params : List (Text × Text)
  deriving DecidableEq

/-- `params[key]`. -/
def VpnServer.param (srv : VpnServer) (key : String) : Option Text := srv.params.lookup (ascii key)

/-- The settings that the arguments depend on. -/
structure Settings where
  protocol : Protocol
  uuid : Text
  domainBypass : Bool
  splitDomains : List Text
  deriving DecidableEq

/-- `text.replaceAll(pattern, replacement)`, for a pattern that is not empty. -/
def replaceAll (pattern replacement text : Text) : Text :=
  match text with
  | [] => []
  | b :: rest =>
    if pattern.isPrefixOf (b :: rest) ∧ pattern ≠ [] then
      replacement ++ replaceAll pattern replacement (rest.drop (pattern.length - 1))
    else b :: replaceAll pattern replacement rest
  termination_by text.length
  decreasing_by all_goals simp; try omega

/-- `list.join(',')`. -/
def join (texts : List Text) : Text := (ascii ",").intercalate texts

/-- `--whitelist` and `--whitelist-extra`, built alike for the tunnel and the shim. -/
def bypassArgs (settings : Settings) : List Text :=
  (if settings.domainBypass then [ascii "--whitelist"] else []) ++
    if settings.splitDomains ≠ [] then
      [ascii "--whitelist-extra", join settings.splitDomains]
    else []

/-- A flag and its value, if there is one that is not empty. -/
def optionalArg (flag : String) (value : Option Text) : List Text :=
  match value with
  | some v => if v ≠ [] then [ascii flag, v] else []
  | none => []

/-- The arguments that tell orcax-connect where and how to connect. -/
def tunnelArgs (settings : Settings) (srv : VpnServer) : List Text :=
  let useQuic := settings.protocol = .orcaxProMax ∨ settings.protocol = .orcaxHysteria2
  let serverAddr :=
    if useQuic then srv.addr
    else
      replaceAll (ascii ":9444") (ascii ":" ++ (srv.param "tcp_port").getD (ascii "9446")) srv.addr
  [ascii "--server", serverAddr, ascii "--socks", ascii "127.0.0.1:1080", ascii "--uuid",
      settings.uuid] ++
    optionalArg "--pubkey" (srv.param "pubkey") ++
    optionalArg "--sni-pool" (srv.param "sni_pool") ++
    if useQuic then
      [ascii "--protocol", ascii "quic", ascii "--cdn-url", ascii "wss://tunnel.fogged.net"]
    else []

/-- `_startProxy` (orcax args). -/
def orcaxArgs (settings : Settings) (srv : VpnServer) : List Text :=
  tunnelArgs settings srv ++ bypassArgs settings

/-- `_startProxy` (shim args). -/
def shimArgs (settings : Settings) : List Text :=
  [ascii "--socks", ascii "127.0.0.1:1080", ascii "--upstream-socks", ascii "127.0.0.1:1081"] ++
    bypassArgs settings

end Fogged.Native.App
