import Fogged.ForStd.Indexed

/-!
# Detecting TLS inside the tunnel (`orcax/protocol/src/orca.rs`, `detect_inner_tls13`)

The server looks at the first bytes that the target sends. If they are a ServerHello
with a cipher suite of TLS 1.3, or application data, the tunnel's own encryption is
dropped. A ServerHello stands in a handshake record:

  `[5] type  [6-8] length  [9-10] version  [11-42] random  [43] session_id_length`

and then the session id and the cipher suite.
-/

namespace Fogged.Native.InnerTls

open Indexed

/-- The record type of handshake messages, `TLS_HANDSHAKE`. -/
def tlsHandshake : UInt8 := 0x16

/-- The record type of application data, `TLS_APPLICATION_DATA`. -/
def tlsApplicationData : UInt8 := 0x17

/-- The branch for a handshake record. -/
def detectServerHello (data : List UInt8) : Outcome (Option (UInt16 × UInt16)) := do
  let recordLen ← u16 data 3
  let stop ← add 5 recordLen
  if stop ≤ data.length ∧ 38 < recordLen then
    let messageType ← get data 5
    if messageType = 0x02 then
      if 43 < data.length then
        let sidLen ← get data 43
        let cipherOffset ← add 44 sidLen.toNat
        let last ← add cipherOffset 1
        if last < data.length then
          let cipher ← u16 data cipherOffset
          if 0x1301 ≤ cipher ∧ cipher ≤ 0x1303 then
            return some (0x0304, UInt16.ofNat cipher)
  return none

/-- Version and cipher suite, if the data starts with a record of TLS 1.3. -/
def detectInnerTls13 (data : List UInt8) : Outcome (Option (UInt16 × UInt16)) := do
  if data.length < 5 then
    return none
  let recordType ← get data 0
  let version ← u16 data 1
  if recordType = tlsHandshake ∧ version = 0x0303 then
    if let some found ← detectServerHello data then
      return some found
  if recordType = tlsApplicationData ∧ version = 0x0303 then
    -- assume TLS 1.3 AES-128-GCM
    return some (0x0304, 0x1301)
  return none

end Fogged.Native.InnerTls
