import Fogged.Native.ClientAuth
import Fogged.Native.LaunchArgs
import Fogged.Native.Relay
import Fogged.Native.StatusChannel

/-!
# How orcax-connect starts (`orcax/client/src/main.rs`, `main`)

From its arguments to the transport over which it serves. With `--upstream-socks` it is the
front end of another proxy. Otherwise it connects to a server: in QUIC mode over QUIC, to all
servers at once; then, in either mode, over TCP, to one after the other; and if nobody can be
reached, through the CDN, if it has a URL for that. What it is doing it says in status lines.

Whether a server is reached, whether it accepts the client or says nothing at all, and whether
the local port can be bound is up to the environment. Connections come up in time or not at all,
but nothing limits the time for the answer to the authentication, for the first stream of a QUIC
connection and for the WebSocket. The numbered attempts are those at the servers in the order of
their list. What `main` logs and the line with the SOCKS token are left out, and so is the search for
another instance that uses the port.
-/

namespace Fogged.Native.Launch

open Fogged.Native.Handshake Fogged.Native.ClientAuth
open Fogged.Native.StatusChannel (Status)

/-! ## Addresses -/

/-- `std::net::SocketAddr`. -/
structure SocketAddr where
  ip : IpAddr
  port : UInt16
  deriving DecidableEq

def colon : UInt8 := 0x3A

/-- `read_port`: a colon and a number, which may have any number of zeros in front. -/
def readPort (text : Text) : Option (UInt16 × Text) := do
  let text ← IpAddr.readGivenChar colon text
  let (port, text) ← IpAddr.readNumber 10 text.length 65536 true text
  some (UInt16.ofNat port, text)

/-- `read_scope_id`; the scope is not used. -/
def readScopeId (text : Text) : Text :=
  match IpAddr.readGivenChar 0x25 text with
  | none => text
  | some rest =>
    match IpAddr.readNumber 10 rest.length (2 ^ 32) true rest with
    | some (_, rest) => rest
    | none => text

/-- `read_socket_addr_v4`. -/
def readSocketAddrV4 (text : Text) : Option (SocketAddr × Text) := do
  let (octets, text) ← IpAddr.readIpv4Addr text
  let (port, text) ← readPort text
  some (⟨.v4 octets, port⟩, text)

/-- `read_socket_addr_v6`. -/
def readSocketAddrV6 (text : Text) : Option (SocketAddr × Text) := do
  let text ← IpAddr.readGivenChar 0x5B text
  let (groups, text) ← IpAddr.readIpv6Addr text
  let text ← IpAddr.readGivenChar 0x5D (readScopeId text)
  let (port, text) ← readPort text
  some (⟨.v6 groups, port⟩, text)

/-- `text.parse::<SocketAddr>()`. -/
def SocketAddr.parse (text : Text) : Option SocketAddr :=
  match (readSocketAddrV4 text).or (readSocketAddrV6 text) with
  | some (addr, []) => some addr
  | _ => none

/-- `text.parse::<u16>()`; a plus sign is allowed. -/
def parseU16 (text : Text) : Option UInt16 :=
  let digits := if text.head? = some 0x2B then text.tail else text
  match IpAddr.readNumber 10 digits.length 65536 true digits with
  | some (value, []) => some (UInt16.ofNat value)
  | _ => none

/-- `text.split_once(':')`. -/
def splitOnce (text : Text) : Option (Text × Text) :=
  match text.splitOn colon with
  | first :: second :: rest => some (first, [colon].intercalate (second :: rest))
  | _ => none

/-- A piece of `--extra-servers`, as QUIC mode reads it. -/
def extraAddr (s : Text) : Option SocketAddr :=
  match SocketAddr.parse (Whitelist.trim s) with
  | some addr => some addr
  | none => do
    let (h, p) ← splitOnce (Whitelist.trim s)
    let port ← parseU16 p
    let ip ← IpAddr.parse h
    some ⟨ip, port⟩

/-- The address of the primary server in QUIC mode; without a port it is 9444. The last
    `unwrap` panics on a name. -/
def primaryAddr (sa : Text) : Option SocketAddr :=
  match SocketAddr.parse sa with
  | some addr => some addr
  | none =>
    let parts := sa.splitOn colon
    SocketAddr.parse (parts.headD [] ++ [colon] ++ (parts[1]?).getD (ascii "9444"))

def comma : UInt8 := 0x2C

/-- `server_addrs`; none if the program panics. -/
def serverAddrs (sa : Text) (extraServers : Option Text) : Option (List SocketAddr) :=
  (primaryAddr sa).map fun addr =>
    addr :: match extraServers with
      | none => []
      | some extras => (extras.splitOn comma).filterMap extraAddr

/-- `tcp_servers`. -/
def tcpServers (sa : Text) (extraServers : Option Text) : List Text :=
  sa :: match extraServers with
    | none => []
    | some extras => ((extras.splitOn comma).map Whitelist.trim).filter (· ≠ [])

/-- `--ports`: the port of the server is replaced by one of the list, which is chosen at
    random. -/
def hopPort (args : List Text) (random : Nat) (sa : Text) : Text :=
  match arg args (ascii "--ports") with
  | none => sa
  | some list =>
    let ports := (list.splitOn comma).filterMap fun p => parseU16 (Whitelist.trim p)
    match ports[random % ports.length]? with
    | none => sa
    | some port =>
      if colon ∈ sa then
        (sa.reverse.dropWhile (· ≠ colon)).reverse ++
          (Nat.toDigits 10 port.toNat).map fun c => UInt8.ofNat c.toNat
      else sa

/-! ## The environment -/

/-- What a server answers to the authentication. -/
inductive Reply (α : Type) where
  | accepted (a : α)
  | rejected
  /-- Nothing; the connection stays open. -/
  | silent

/-- An attempt to connect to a server and to authenticate. -/
structure Attempt where
  /-- The connection comes up in time. -/
  reached : Bool
  /-- The key that the client draws, and its clock. -/
  secret : Key
  now : UInt64
  /-- A server that accepts the client over TCP sends this token. -/
  reply : Reply (List.Vector UInt8 16)

/-- What becomes of `connect_async`. -/
inductive WsConnect where
  | connected
  | failed (e : Text)
  | silent

structure Env where
  lib : Crypto
  /-- The random number for `--ports`. -/
  random : Nat
  quic : Nat → Attempt
  /-- The server allows a stream on the connection. -/
  openBi : Nat → Bool
  tcp : Nat → Attempt
  /-- The errors of `TcpListener::bind`, in the four modes. -/
  bindShim : Option Text
  bindQuic : Option Text
  bindTcp : Option Text
  bindCdn : Option Text
  wsConnect : WsConnect
  wsSecret : Key
  wsNow : UInt64
  wsSend : Bool
  wsReply : Reply Unit

/-- `connect_and_auth`. -/
def connectAndAuth (env : Env) (args : List Text) (attempt : Attempt) :
    Outcome (Option (List.Vector UInt8 16)) :=
  if attempt.reached then do
    let _ ← authMessage env.lib args attempt.secret attempt.now
    match attempt.reply with
    | .accepted token => .ret (some token)
    | .rejected => .ret none
    | .silent => .diverge
  else .ret none

/-- `quic_connect_and_auth`; it needs a stream first. -/
def quicConnectAndAuth (env : Env) (args : List Text) (i : Nat) :
    Outcome (Option (List.Vector UInt8 16)) :=
  if (env.quic i).reached && !env.openBi i then .diverge
  else connectAndAuth env args (env.quic i)

/-! ## Modes -/

/-- What orcax-connect serves over. -/
inductive Transport where
  /-- In front of the proxy at `upstream`. -/
  | shim (upstream : Text)
  /-- The connections that have come up, the first of which is used. -/
  | quic (connections : List SocketAddr)
  /-- The TLS connection is to `link`; `serverAddr` and `sessionToken` are those of the pool. -/
  | tcp (link serverAddr : Text) (sessionToken : List.Vector UInt8 16)
  | cdn (url : Text)
  deriving DecidableEq

inductive End where
  | serving (transport : Transport)
  /-- `main` returns. -/
  | returned
  /-- `exit(1)`. -/
  | exited
  | panicked
  /-- It waits for a server, for ever. -/
  | waiting
  deriving DecidableEq

/-- What is passed to `emit`. -/
abbrev Line := Status × Option Text

def runShimMode (env : Env) (listen upstream : Text) : List Line × End :=
  match env.bindShim with
  | some e => ([(.error, some (ascii "shim bind: " ++ e))], .exited)
  | none => ([(.connected, some listen)], .serving (.shim upstream))

/-- Two futures of `join_all`: a panic of one ends both, and both have to come to an end. -/
def join {α β γ : Type} (x : Outcome α) (y : Outcome β) (f : α → β → γ) : Outcome γ :=
  match x, y with
  | .ret a, .ret b => .ret (f a b)
  | .panic, _ | _, .panic => .panic
  | .diverge, _ | _, .diverge => .diverge

/-- The servers that have accepted the client, of those from number `i` on; all are tried at
    once. -/
def connectAll (env : Env) (args : List Text) :
    Nat → List SocketAddr → Outcome (List SocketAddr)
  | _, [] => .ret []
  | i, addr :: addrs =>
    join (quicConnectAndAuth env args i) (connectAll env args (i + 1) addrs) fun result rest =>
      if result.isSome then addr :: rest else rest

/-- `run_quic_mode`; without an end it returns to `main`. -/
def runQuicMode (env : Env) (args : List Text) (sa sk : Text) : List Line × Option End :=
  match serverAddrs sa (arg args (ascii "--extra-servers")) with
  | none => ([], some .panicked)
  | some addrs =>
    match connectAll env args 0 addrs with
    | .ret [] => ([(.error, some (ascii "all servers unreachable"))], none)
    | .ret connections =>
      match env.bindQuic with
      | some e => ([(.error, some e)], none)
      | none => ([(.connected, some sk)], some (.serving (.quic connections)))
    | .panic => ([], some .panicked)
    | .diverge => ([], some .waiting)

def cdnFailed (text : Text) : List Line × End := ([(.error, some text)], .returned)

def runWsCdnMode (env : Env) (args : List Text) (url sk : Text) : List Line × End :=
  match env.bindCdn with
  | some e => cdnFailed (ascii "CDN bind: " ++ e)
  | none =>
    match env.wsConnect with
    | .failed e => cdnFailed (ascii "CDN connect failed: " ++ e)
    | .silent => ([], .waiting)
    | .connected =>
      match wsCdnModeAuthMsg env.lib args env.wsSecret env.wsNow with
      | .ret (.error e) => cdnFailed (ascii e.text)
      | .ret (.ok _) =>
        if ¬ env.wsSend then cdnFailed (ascii "CDN auth send failed")
        else
          match env.wsReply with
          | .accepted _ => ([(.connected, some (sk ++ ascii " (CDN)"))], .serving (.cdn url))
          | .rejected => cdnFailed (ascii "CDN auth rejected")
          | .silent => ([], .waiting)
      | _ => ([], .panicked)

/-- The first server from number `i` on that accepts the client, and its token. -/
def connectFirst (env : Env) (args : List Text) :
    Nat → List Text → Outcome (Option (Text × List.Vector UInt8 16))
  | _, [] => .ret none
  | i, server :: servers => do
    match ← connectAndAuth env args (env.tcp i) with
    | some token => .ret (some (server, token))
    | none => connectFirst env args (i + 1) servers

/-- From the TCP servers on. -/
def runTcpMode (env : Env) (args : List Text) (sa sk : Text) : List Line × End :=
  match connectFirst env args 0 (tcpServers sa (arg args (ascii "--extra-servers"))) with
  | .ret (some (link, token)) =>
    match env.bindTcp with
    | some e => ([(.error, some e)], .exited)
    | none => ([(.connected, some sk)], .serving (.tcp link sa token))
  | .ret none =>
    match arg args (ascii "--cdn-url") with
    | some url =>
      let (lines, stop) := runWsCdnMode env args url sk
      ((.connecting, some (ascii "CDN tunnel")) :: lines, stop)
    | none => ([(.error, some (ascii "all servers unreachable"))], .returned)
  | .panic => ([], .panicked)
  | .diverge => ([], .waiting)

/-- The address over TCP of a server that is given by its address for QUIC. -/
def stealthAddr (sa : Text) : Text :=
  App.replaceAll (ascii ":9444") (ascii ":9443")
    (App.replaceAll (ascii ":9446") (ascii ":9443") sa)

/-- `--server`. -/
def serverArg (env : Env) (args : List Text) : Text :=
  hopPort args env.random ((arg args (ascii "--server")).getD (ascii "204.168.171.253:9444"))

/-- `--socks`. -/
def socksArg (args : List Text) : Text :=
  (arg args (ascii "--socks")).getD (ascii "127.0.0.1:1080")

def quicArg (args : List Text) : Bool :=
  (arg args (ascii "--protocol")).getD (ascii "tcp") = ascii "quic"

def main (env : Env) (args : List Text) : List Line × End :=
  match arg args (ascii "--upstream-socks") with
  | some upstream => runShimMode env (socksArg args) upstream
  | none =>
    let sa := serverArg env args
    if quicArg args then
      match runQuicMode env args sa (socksArg args) with
      | (lines, some stop) => ((.connecting, none) :: lines, stop)
      | (lines, none) =>
        let (lines', stop) := runTcpMode env args (stealthAddr sa) (socksArg args)
        ((.connecting, none) :: lines ++ (.connecting, some (ascii "TCP stealth")) :: lines', stop)
    else
      let (lines, stop) := runTcpMode env args sa (socksArg args)
      ((.connecting, none) :: lines, stop)

end Fogged.Native.Launch
