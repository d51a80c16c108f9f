import Fogged.ForStd.Decimal
import Fogged.Native.LaunchArgs
import Fogged.Native.Whitelist

/-!
# Engine configurations (`lib/services/vpn_config.dart`, `_parseLine` of `lib/main.dart`)

A line of the subscription becomes a server, whose address is the text `host:port`. The
generators take this text apart again, each in its own way, and put the pieces into the
configuration of an engine: Xray and sing-box are configured in JSON, Hysteria in YAML.
A configuration in JSON is the tree that `jsonEncode` gets.
-/

namespace Fogged.Native.App

open Fogged.Native.Handshake
open Whitelist (stripFront whiteSpace)

/-! ## Lines -/

/-- What `Uri.parse` returns: the host without brackets, the port as an integer, and the
    name and the parameters decoded, unless that throws. -/
structure Uri where
  scheme : Text
  host : Text
  port : Nat
  /-- An `int` has 64 bits. -/
  port_lt : port < 2 ^ 63
  /-- `Uri.decodeComponent(uri.fragment)`. -/
  name : Option Text
  queryParameters : Option (List (Text × Text))

/-- The server of a line; `none` for a line that is not understood. -/
def parseLine (uri : Uri) : Option VpnServer :=
  let server (protocol : Scheme) : Option VpnServer := do
    let name ← uri.name
    let params ← uri.queryParameters
    some { protocol, name, addr := uri.host ++ ascii ":" ++ Decimal.digits uri.port, params }
  if uri.scheme = ascii "vless" then server .vless
  else if uri.scheme = ascii "hysteria2" then server .hysteria2
  else if uri.scheme = ascii "orcax" then server .orcax
  else none

/-! ## Integers -/

/-- The text without white space around it, of which a byte order mark is a part. -/
def trimDart (text : Text) : Text :=
  let chars := whiteSpace ++ [[0xEF, 0xBB, 0xBF]]
  let text := stripFront chars text.length text
  (stripFront (chars.map List.reverse) text.length text.reverse).reverse

/-- Digits behind the sign. A hexadecimal number may use all of the 64 bits. -/
def parseUnsigned (negative : Bool) (text : Text) : Option Int :=
  let sign : Int := if negative then -1 else 1
  let bound (value : Nat) : Prop := if negative then value ≤ 2 ^ 63 else value < 2 ^ 63
  let hex (digits : Text) : Option Int :=
    (Decimal.value 16 digits).bind fun value =>
      if bound value then some (sign * value)
      else if ¬ negative ∧ value < 2 ^ 64 then some (value - 2 ^ 64)
      else none
  match text with
  | 0x30 :: 0x78 :: digits => hex digits
  | 0x30 :: 0x58 :: digits => hex digits
  | digits => (Decimal.value 10 digits).bind fun value =>
      if bound value then some (sign * value) else none

/-- `int.tryParse(text)`. -/
def tryParse (text : Text) : Option Int :=
  match trimDart text with
  | 0x2D :: digits => parseUnsigned true digits
  | 0x2B :: digits => parseUnsigned false digits
  | digits => parseUnsigned false digits

/-! ## Trees -/

/-- What `jsonEncode` gets. -/
inductive Json where
  | str (text : Text)
  | num (n : Int)
  | bool (b : Bool)
  | list (items : List Json)
  | map (fields : List (String × Json))

/-- A step into a tree. -/
inductive Json.Key where
  | field (name : String)
  | index (i : Nat)

def Json.get : Json → Json.Key → Option Json
  | .map fields, .field name => fields.lookup name
  | .list items, .index i => items[i]?
  | _, _ => none

/-- The part of a tree at the end of a path. -/
def Json.path (j : Json) (keys : List Json.Key) : Option Json :=
  keys.foldlM Json.get j

/-- A string literal of the source. -/
def Json.lit (s : String) : Json := .str (ascii s)

/-! ## Generators -/

/-- `generateXrayConfig`. -/
def generateXrayConfig (srv : VpnServer) (uuid : Text) (socksPort : Nat) : Json :=
  let parts := srv.addr.splitOn 0x3A
  let ip := parts.headD []
  let port := if 1 < parts.length then parts.getD 1 [] else ascii "8443"
  let pbk := (srv.param "pbk").getD []
  let sid := (srv.param "sid").getD []
  let sni := (srv.param "sni").getD (ascii "cdn.jsdelivr.net")
  let flow := (srv.param "flow").getD []
  let fp := (srv.param "fp").getD (ascii "random")
  let user := [("id", .str uuid), ("encryption", .lit "none")] ++
    if flow ≠ [] then [("flow", Json.str flow)] else []
  .map [
    ("log", .map [("loglevel", .lit "warning")]),
    ("inbounds", .list [.map [
      ("tag", .lit "socks"), ("protocol", .lit "socks"), ("listen", .lit "127.0.0.1"),
      ("port", .num socksPort),
      ("settings", .map [("auth", .lit "noauth"), ("udp", .bool true)])]]),
    ("outbounds", .list [.map [
      ("tag", .lit "proxy"), ("protocol", .lit "vless"),
      ("settings", .map [("vnext", .list [.map [
        ("address", .str ip), ("port", .num ((tryParse port).getD 8443)),
        ("users", .list [.map user])]])]),
      ("streamSettings", .map [
        ("network", .lit "tcp"), ("security", .lit "reality"),
        ("realitySettings", .map [
          ("serverName", .str sni), ("fingerprint", .str fp), ("publicKey", .str pbk),
          ("shortId", .str sid)])])]])]

/-- The first port of a range. -/
def firstPort (rawPort : Text) : Text :=
  if 0x2D ∈ rawPort then (rawPort.splitOn 0x2D).headD [] else rawPort

/-- The obfuscation password of a Hysteria server, empty if there is none. -/
def obfsPassword (srv : VpnServer) : Text :=
  ((srv.param "obfs-password").or (srv.param "obfs")).getD []

/-- What `onWarning` gets. -/
def obfsWarnings (obfs : Text) : List String :=
  if obfs = [] then ["WARNING: no obfs password from server, HY2 may fail"] else []

/-- `generateSingBoxConfig`, with its warnings; it throws for an OrcaX server. -/
def generateSingBoxConfig (srv : VpnServer) (uuid : Text) (socksPort : Nat) :
    Except String (List String × Json) :=
  let parts := srv.addr.splitOn 0x3A
  let ip := parts.headD []
  let rawPort := if 1 < parts.length then parts.getD 1 [] else []
  let config (outbound : List (String × Json)) : Json :=
    .map [
      ("log", .map [("level", .lit "warn")]),
      ("inbounds", .list [.map [
        ("type", .lit "socks"), ("tag", .lit "socks-in"), ("listen", .lit "127.0.0.1"),
        ("listen_port", .num socksPort)]]),
      ("outbounds", .list [.map outbound])]
  match srv.protocol with
  | .vless =>
    let pbk := (srv.param "pbk").getD []
    let sid := (srv.param "sid").getD []
    let sni := (srv.param "sni").getD (ascii "cdn.jsdelivr.net")
    let fp := (srv.param "fp").getD (ascii "random")
    let flow := (srv.param "flow").getD []
    .ok ([], config (
      [("type", .lit "vless"), ("tag", .lit "proxy"), ("server", .str ip),
        ("server_port", .num ((tryParse (firstPort rawPort)).getD 8443)), ("uuid", .str uuid)] ++
      (if flow ≠ [] then [("flow", .str flow)] else []) ++
      [("tls", .map [
        ("enabled", .bool true), ("server_name", .str sni),
        ("reality", .map [
          ("enabled", .bool true), ("public_key", .str pbk), ("short_id", .str sid)]),
        ("utls", .map [("enabled", .bool true), ("fingerprint", .str fp)])])]))
  | .hysteria2 =>
    let obfs := obfsPassword srv
    let sni := (srv.param "sni").getD (ascii "bing.com")
    .ok (obfsWarnings obfs, config (
      [("type", .lit "hysteria2"), ("tag", .lit "proxy"), ("server", .str ip),
        ("server_port", .num ((tryParse (firstPort rawPort)).getD 38000)),
        ("password", .str uuid)] ++
      (if obfs ≠ [] then
        [("obfs", .map [("type", .lit "salamander"), ("password", .str obfs)])]
      else []) ++
      [("tls", .map [
        ("enabled", .bool true), ("server_name", .str sni), ("insecure", .bool true)])]))
  | .orcax => .error "unsupported protocol for sing-box: orcax"

/-- `generateHy2Config`, with its warnings. -/
def generateHy2Config (srv : VpnServer) (uuid : Text) (socksPort : Nat) : List String × Text :=
  let parts := srv.addr.splitOn 0x3A
  let ip := parts.headD []
  let portRange := if 1 < parts.length then parts.getD 1 [] else ascii "20000-50000"
  let port := firstPort portRange
  let obfs := obfsPassword srv
  let sni := (srv.param "sni").getD (ascii "bing.com")
  let pinSha256 := ((srv.param "pinSHA256").or (srv.param "pin_sha256")).getD []
  let bandwidthBlock := ascii "bandwidth:\n  up: 100 mbps\n  down: 100 mbps"
  let tlsBlock :=
    if pinSha256 = [] then ascii "tls:\n  sni: " ++ sni ++ ascii "\n  insecure: true"
    else ascii "tls:\n  sni: " ++ sni ++ ascii "\n  pinSHA256: " ++ pinSha256
  (obfsWarnings obfs,
    ascii "server: " ++ ip ++ ascii ":" ++ port ++
    ascii "\nauth: " ++ uuid ++
    ascii "\n" ++ bandwidthBlock ++
    ascii "\nobfs:\n  type: salamander\n  salamander:\n    password: " ++ obfs ++
    ascii "\nsocks5:\n  listen: 127.0.0.1:" ++ Decimal.digits socksPort ++
    ascii "\n" ++ tlsBlock ++ ascii "\n")

end Fogged.Native.App
