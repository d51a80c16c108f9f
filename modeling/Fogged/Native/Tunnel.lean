import Fogged.Native.Handshake

/-!
# The library tunnel (`orcax/client/src/tunnel.rs`)

The client that is embedded as a library. It sends its own authentication message,
from a buffer of 48 bytes, and waits for the server's verdict.
-/

namespace Fogged.Native.Tunnel

open Fogged.Native.Handshake

/-- Tunnel configuration, as far as authentication reads it. -/
structure TunnelConfig where
  serverPubkey : Key
  uuid : List.Vector UInt8 16

/-- `buf[lo..hi].copy_from_slice(src)`, which panics if the range is not in the
    buffer or not as long as `src`. -/
def copyFromSlice (buf : List UInt8) (lo hi : Nat) (src : List UInt8) : Outcome (List UInt8) :=
  if lo ≤ hi ∧ hi ≤ buf.length ∧ src.length = hi - lo then
    .ret (buf.take lo ++ src ++ buf.drop hi)
  else .panic

/-- Why `connect_orcax` gives up. -/
inductive TunnelError where
  | shortRead
  | authFailed
  | deviceLimit
  | banned
  | serverError (status : UInt8)
  deriving DecidableEq

/-- The part of `connect_orcax` after the TLS handshake, on a stream from which
    `reply` can be read: the bytes written and the result. -/
def connectOrcax (lib : Crypto) (config : TunnelConfig) (clientSecret : Key) (now : UInt64)
    (reply : List UInt8) : Outcome (List UInt8 × Except TunnelError Unit) := do
  let (ephemeralPub, encryptedUuid) ←
    clientEncryptUuid lib config.serverPubkey config.uuid clientSecret now
  let auth ← copyFromSlice (List.replicate 48 0) 0 32 ephemeralPub.toList
  let auth ← copyFromSlice auth 32 48 encryptedUuid
  match Bytes.readExact 33 reply with
  | none => .ret (auth, .error .shortRead)
  | some (resp, _) =>
    match resp.getD 32 0 with
    | 0 => .ret (auth, .ok ())
    | 1 => .ret (auth, .error .authFailed)
    | 2 => .ret (auth, .error .deviceLimit)
    | 3 => .ret (auth, .error .banned)
    | status => .ret (auth, .error (.serverError status))

end Fogged.Native.Tunnel
