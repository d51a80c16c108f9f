import Fogged.ForStd.Pipe
import Fogged.ForStd.Proxy
import Fogged.Native.MuxPool
import Fogged.Native.QuicMode
import Fogged.Native.Socks5Handlers

/-!
# Relayed connections (`orcax/client/src/main.rs`)

`handle_socks5`, `quic_socks5` and `shim_handle` from the greeting of a client to the end of
its connection. A handler negotiates, reads the request, connects to somebody on behalf of the
client and says what is to be said at first; that is code between two sockets. From then on it
copies in both directions, with `copy_bidirectional`, or in QUIC mode with two tasks of its
own.

Who answers at an address, how the name of a host is resolved and whether a connection or a
stream can be opened is up to the world, and so is who stays silent. Most operations have a
time-out, or the system gives up on them; those that have none are `untimed` here. `cdn_socks5`
has no connection of its own to copy to; it is in `CdnMode`.
-/

namespace Fogged.Native.Relay

open Fogged.Native.Handshake Fogged.Native.Socks5
open Buffer (filled)
open Socket (Fault Reaction)

/-- Where a handler connects to. -/
inductive Peer where
  /-- The host itself, in `bypass_direct`. -/
  | direct (host : Text) (port : UInt16)
  /-- The server, for the data of a stream. -/
  | data (server : Text)
  /-- A stream of the QUIC connection. -/
  | stream
  /-- The proxy behind the shim. -/
  | upstream (addr : Text)
  deriving DecidableEq

/-- Why a handler gives up. -/
inductive Error where
  | auth (e : AuthError)
  | refused (r : Refusal)
  | text (message : String)
  | io
  deriving DecidableEq

abbrev Serve := Proxy.Serve Peer Error

abbrev World := Proxy.World Peer Error

/-- What is written to the client is a few bytes. -/
def toClient (bytes : List UInt8) : Serve Unit :=
  Proxy.onClient id (Socket.writeAll bytes (Socket.unaided .io))

def toPeer (bytes : List UInt8) (onFault : Fault → Reaction Error) : Serve Unit :=
  Proxy.onPeer id (Socket.writeAll bytes onFault)

/-- One read from the client, into a buffer of `size` zeros. -/
def readClient (size : Nat) (onFault : Fault → Reaction Error) : Serve (List UInt8) :=
  Proxy.onClient id (Socket.read size onFault)

/-- A read with a time-out of five seconds. -/
def timed (onTimeout : String) : Fault → Reaction Error := Socket.timed (.text onTimeout) .io

/-- `c.set_nodelay(true)?`. -/
def setNodelay : Socket.Io Error Unit := Socket.attempt (Socket.unaided .io)

/-- The reply to a request that succeeds. -/
def reply : List UInt8 := [5, 0, 0, 1, 0, 0, 0, 0, 0, 0]

/-- For whitelisted destinations. -/
def bypassDirect (host : Text) (port : UInt16) : Serve Unit := do
  Proxy.dial (some (.text "bypass connect timeout")) (.direct host port)
  toClient reply

/-- From the request on: to the host itself, or through the tunnel. -/
def proceed (decide : List UInt8 → ExceptT Refusal Outcome Served) (tunnel : Served → Serve Unit)
    (request : List UInt8) : Serve Unit := do
  let served ← Proxy.checked .refused (decide request)
  match served.act with
  | .bypassDirect => bypassDirect served.host served.port
  | .stream | .replay _ => tunnel served

/-- What `handle_socks5` uses of the pool. -/
structure Pool where
  serverAddr : Text
  sessionToken : List.Vector UInt8 16
  /-- `open_stream`, which may wait for room in the channel for ever, and the wait for
      StreamReady, of ten seconds. -/
  opened : TargetAddr → Option (Except Error UInt32)

/-- TCP mode. -/
def handleSocks5 (pool : Pool) (wl : Option Whitelist) (token : Text) : Serve Unit := do
  Proxy.onClient id setNodelay
  Proxy.onClient .auth (socks5Auth token)
  let r ← readClient bufferSize (timed "socks5 timeout")
  proceed (Socks5.handleSocks5 wl) (fun served => do
    let sid ← Proxy.given (pool.opened (MuxPool.targetAddr served.host served.port))
    Proxy.dial (some .io) (.data pool.serverAddr)
    Proxy.onPeer id setNodelay
    toPeer (pool.sessionToken.toList ++ Bytes.toBE 4 sid.toNat) (Socket.unaided .io)
    toClient reply) r

/-- QUIC mode. There is no time-out for the request, for `open_bi`, which waits until the server
    allows another stream, and for the first write, which waits until it allows the bytes. -/
def quicSocks5 (wl : Option Whitelist) (token : Text) : Serve Unit := do
  Proxy.onClient id setNodelay
  Proxy.onClient .auth (socks5Auth token)
  let r ← readClient bufferSize (Socket.untimed .io)
  proceed (Socks5.quicSocks5 wl) (fun served => do
    Proxy.dial none .stream
    toPeer (QuicMode.address served.host served.port) (Socket.untimed .io)
    toClient reply) r

/-- The front end of another proxy; `upstream` is where that listens. There is no time-out for
    its answer to the greeting. -/
def shimHandle (wl : Option Whitelist) (upstream : Text) : Serve Unit := do
  Proxy.onClient id setNodelay
  let greet ← readClient 258 (timed "shim greet timeout")
  let version ← Proxy.checked id (liftM (Indexed.get (filled 258 0 greet) 0))
  if greet.length < 2 ∨ version ≠ 5 then throw (.text "not socks5")
  else do
    toClient [5, 0]
    let req ← readClient bufferSize (timed "shim req timeout")
    proceed (Socks5.shimHandle wl) (fun _ => do
      Proxy.dial (some .io) (.upstream upstream)
      toPeer [5, 1, 0] (Socket.unaided .io)
      let gr ← Proxy.onPeer id (Socket.readExact 2 (Socket.untimed .io) .io)
      if gr.get 0 ≠ 5 ∨ gr.get 1 ≠ 0 then throw (.text "upstream no no-auth")
      else toPeer req (Socket.unaided .io)) req

/-! ## Copying -/

/-- The buffer of `tokio::io::copy` and `copy_bidirectional`. -/
def bufferBytes : Nat := 8192

abbrev Splice := Pipe.Splice bufferBytes

abbrev CopyStep := Splice → Pipe.Side × Pipe.Act → Option (Splice × List Unit)

/-- `copy_bidirectional`: an error of either direction ends both. -/
def copyBidirectional : CopyStep := Pipe.Splice.step true

/-- The two tasks of `quic_socks5`. The handler returns with the first of them, and the other
    goes on; each closes what it writes to when it ends. -/
def copyTasks : CopyStep := Pipe.Splice.step false

/-- The two directions when a handler begins to copy. -/
def splice (w : World) : Splice where
  up := .start bufferBytes w.client.input w.peer.output
  down := .start bufferBytes w.peer.input w.client.output

end Fogged.Native.Relay
