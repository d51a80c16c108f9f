import Mathlib.Data.FinEnum
import Fogged.Native.MuxPool
import Fogged.Native.Socks5Handlers
import Fogged.Spec.SplitTunnel

/-!
# Which SOCKS5 requests the handlers act on

A handler reads once and takes what it gets for a request. Seven bytes are enough for it,
but a request for an IPv4 address has ten and one for a name seven and the length of the
name: what is missing reads as zero. So a request that arrives in pieces becomes one for
another host or another port. Three of the five handlers do not look at the version either.

## Key results

- `target_run`: `parseRequest` is what all handlers do, up to the version and the errors
- `connect_iff`: a request that has been read as a whole
- `acts_as_sent_iff`: when a handler acts on what the client has sent
- `targetAddr_dotted`: an address survives the way through its text
-/

namespace Fogged.Spec.Socks5Request

open Fogged.Native Fogged.Native.Handshake Fogged.Native.Socks5
open Checked (run_ensure_bind liftM_ret)

/-! ## The handlers by index -/

/-- An IPv4 address as text. -/
def dotted (a b c d : UInt8) : Text :=
  let dot := ascii "."
  decimal a ++ dot ++ decimal b ++ dot ++ decimal c ++ dot ++ decimal d

/-- A port as it is sent. -/
def portOf (p q : UInt8) : UInt16 := UInt16.ofNat (Bytes.ofBE [p, q])

/-- What a handler says instead of an error of `parseRequest`; `atyp` is the address type. -/
def refusal (checks : Checks) (atyp : UInt8) : RequestError → Refusal
  | .badSocks5 => .text checks.bad
  | .utf8 => .utf8
  | .unsupported => .text (checks.unsupported atyp)

/-- The request in terms of the bytes that were read, with zeros for what is missing. -/
theorem parseRequest_eq (bytes : List UInt8) :
    parseRequest bytes =
      if bytes.length < 7 ∨ bytes.getD 1 0 ≠ 1 then .error .badSocks5
      else if bytes.getD 3 0 = 1 then
        .ok (dotted (bytes.getD 4 0) (bytes.getD 5 0) (bytes.getD 6 0) (bytes.getD 7 0),
          portOf (bytes.getD 8 0) (bytes.getD 9 0))
      else if bytes.getD 3 0 = 3 then
        let l := (bytes.getD 4 0).toNat
        let host := ((Buffer.filled bufferSize 0 bytes).drop 5).take l
        if Bytes.validUtf8 host then
          .ok (host, portOf (bytes.getD (5 + l) 0) (bytes.getD (6 + l) 0))
        else .error .utf8
      else .error .unsupported := by
  -- bytes that have not been read are zero, as in the buffer
  have hget (i : Nat) : (Buffer.filled bufferSize 0 bytes).getD i 0 = bytes.getD i 0 :=
    Buffer.filled_getD 0 i
  simp only [Buffer.filled] at hget ⊢
  simp only [parseRequest, hget]
  split
  · rfl
  · generalize bytes.getD 3 0 = atyp
    split
    · rfl
    · rfl
    · rename_i h1 h3
      rw [if_neg h1, if_neg h3]

/-- The name in a request, with zeros for what has not been read of it. -/
def nameIn (bytes : List UInt8) : Text :=
  ((Buffer.filled bufferSize 0 bytes).drop 5).take (bytes.getD 4 0).toNat

/-- Bytes that are no request to any handler: fewer than seven, another command than CONNECT,
    an address that is neither IPv4 nor a name, or a name that is no UTF-8. -/
def Malformed (bytes : List UInt8) : Prop :=
  bytes.length < 7 ∨ bytes.getD 1 0 ≠ 1 ∨ (bytes.getD 3 0 ≠ 1 ∧ bytes.getD 3 0 ≠ 3) ∨
    bytes.getD 3 0 = 3 ∧ Bytes.validUtf8 (nameIn bytes) = false

/-- Which bytes are refused whatever the version is. -/
theorem exists_error_iff_malformed {bytes : List UInt8} :
    (∃ e, parseRequest bytes = .error e) ↔ Malformed bytes := by
  rw [parseRequest_eq, Malformed, ← or_assoc]
  by_cases hbad : bytes.length < 7 ∨ bytes.getD 1 0 ≠ 1
  · rw [if_pos hbad]
    exact iff_of_true ⟨_, rfl⟩ (.inl hbad)
  · rw [if_neg hbad, or_iff_right hbad]
    -- the address type decides what is looked at next
    generalize bytes.getD 3 0 = atyp
    by_cases h1 : atyp = 1
    · simp [h1]
    · rw [if_neg h1]
      by_cases h3 : atyp = 3
      · rw [if_pos h3]
        dsimp only
        rw [← nameIn]
        cases Bytes.validUtf8 (nameIn bytes) <;> simp [h3]
      · rw [if_neg h3]
        exact iff_of_true ⟨_, rfl⟩ (.inl ⟨h1, h3⟩)

/-- All handlers do what `parseRequest` does; some look at the version before. -/
theorem target_run (checks : Checks) {bytes : List UInt8} (hlen : bytes.length ≤ bufferSize) :
    (target checks bytes).run =
      .ret (if checks.version = true ∧ bytes.getD 0 0 ≠ 5 then .error (.text checks.bad)
        else (parseRequest bytes).mapError (refusal checks (bytes.getD 3 0))) := by
  -- the longest request has 262 bytes, so no access to the buffer is out of range
  have hget (i : Nat) (hi : i < 263) := Indexed.get_filled hlen hi
  have hu16 (i : Nat) (hi : i < 262) : Indexed.u16 (Buffer.filled bufferSize 0 bytes) i =
      .ret (Bytes.ofBE [bytes.getD i 0, bytes.getD (i + 1) 0]) :=
    Indexed.u16_filled hlen (by simp only [bufferSize]; omega) (by decide)
  have hslice (l : UInt8) : Buffer.slice (Buffer.filled bufferSize 0 bytes) 5 (5 + l.toNat) =
      .ret (((Buffer.filled bufferSize 0 bytes).drop 5).take l.toNat) :=
    Buffer.slice_add (by
      have hl := l.toNat_lt
      rw [Buffer.length_filled hlen]
      simp only [bufferSize]
      omega)
  rw [target, parseRequest_eq]
  simp only [hget 0 (by omega), hget 1 (by omega), hget 3 (by omega), liftM_ret, pure_bind,
    run_ensure_bind]
  by_cases hgood : 7 ≤ bytes.length ∧ (checks.version = true → bytes.getD 0 0 = 5) ∧
      bytes.getD 1 0 = 1
  · obtain ⟨h7, hversion, hcommand⟩ := hgood
    rw [if_pos ⟨h7, hversion, hcommand⟩, if_neg (fun h => h.2 (hversion h.1)),
      if_neg (by simp only [not_or, not_not]; exact ⟨by omega, hcommand⟩)]
    -- the three types of address
    generalize bytes.getD 3 0 = atyp
    split
    · simp only [hget 4 (by omega), hget 5 (by omega), hget 6 (by omega), hget 7 (by omega),
        hu16 8 (by omega), liftM_ret, pure_bind]
      rfl
    · have hl := (bytes.getD 4 0).toNat_lt
      -- the port follows the name, whose length is the byte before it
      have hnext : 5 + (bytes.getD 4 0).toNat + 1 = 6 + (bytes.getD 4 0).toNat := by omega
      simp only [hget 4 (by omega), hslice, hu16 (5 + (bytes.getD 4 0).toNat) (by omega), liftM_ret,
        pure_bind, run_ensure_bind, hnext]
      split <;> rfl
    · rename_i h1 h3
      rw [if_neg h1, if_neg h3]
      rfl
  · rw [if_neg hgood]
    -- a check has failed: the version comes first
    congr 1
    split
    · rfl
    · rename_i hversion
      rw [if_pos]
      · rfl
      · by_contra hnot
        simp only [not_or, not_not, not_lt] at hnot
        exact hgood ⟨hnot.1, fun h => not_not.1 fun hne => hversion ⟨h, hne⟩, hnot.2⟩

/-! ## Requests -/

/-- `bytes` start with a complete CONNECT request for `host` and `port`. -/
inductive Connect : (bytes : List UInt8) → (host : Text) → (port : UInt16) → Prop
  | ipv4 (reserved a b c d p q : UInt8) (rest : List UInt8) :
    Connect ([5, 1, reserved, 1, a, b, c, d, p, q] ++ rest) (dotted a b c d) (portOf p q)
  | domain (reserved len : UInt8) (name : Text) (p q : UInt8) (rest : List UInt8)
    (h : name.length = len.toNat) :
    Connect ([5, 1, reserved, 3, len] ++ name ++ [p, q] ++ rest) name (portOf p q)

/-- How long a request is, by its address type and the length of its name. -/
def requestLength (bytes : List UInt8) : Nat :=
  if bytes.getD 3 0 = 3 then 7 + (bytes.getD 4 0).toNat else 10

/-- A complete request has the version five and is long enough. -/
theorem Connect.whole {bytes : List UInt8} {host : Text} {port : UInt16}
    (h : Connect bytes host port) :
    bytes.getD 0 0 = 5 ∧ requestLength bytes ≤ bytes.length := by
  cases h with
  | ipv4 => exact ⟨rfl, by simp [requestLength]⟩
  | domain reserved len name p q rest h =>
    refine ⟨rfl, ?_⟩
    simp only [List.cons_append, requestLength, List.getD_cons_succ, List.getD_cons_zero, if_pos,
      List.length_cons, List.length_append, List.length_nil]
    omega

/-- The bytes in front of the address. -/
theorem exists_front {bytes : List UInt8} (h : 5 ≤ bytes.length) :
    ∃ version command reserved atyp x rest,
      bytes = version :: command :: reserved :: atyp :: x :: rest := by
  obtain ⟨version, command, reserved, atyp, hfour⟩ :=
    Indexed.exists_drop_four (show 0 + 4 ≤ bytes.length by omega)
  obtain ⟨x, hone⟩ := Indexed.exists_drop_one (show 0 + 4 < bytes.length by omega)
  exact ⟨version, command, reserved, atyp, x, _, by rw [← hone, ← hfour, List.drop_zero]⟩

/-- Ten bytes are a whole request for an IPv4 address. -/
theorem connect_of_ipv4 {reserved x : UInt8} {rest : List UInt8} {host : Text} {port : UInt16}
    (hlen : 5 ≤ rest.length)
    (hok : parseRequest (5 :: 1 :: reserved :: 1 :: x :: rest) = .ok (host, port)) :
    Connect (5 :: 1 :: reserved :: 1 :: x :: rest) host port := by
  obtain ⟨b, c, d, p, q, rest, rfl⟩ := exists_front hlen
  rw [parseRequest_eq, if_neg (by simp)] at hok
  cases hok
  exact .ipv4 reserved x b c d p q rest

/-- A whole request for a name. -/
theorem parseRequest_domain {reserved x : UInt8} {name : Text} (p q : UInt8) (rest : List UInt8)
    (hname : name.length = x.toNat) :
    parseRequest ([5, 1, reserved, 3, x] ++ name ++ [p, q] ++ rest) =
      if Bytes.validUtf8 name then .ok (name, portOf p q) else .error .utf8 := by
  obtain ⟨bytes, hbytes⟩ : ∃ bytes, bytes = [5, 1, reserved, 3, x] ++ name ++ [p, q] ++ rest :=
    ⟨_, rfl⟩
  have htype : bytes.getD 3 0 = 3 := by rw [hbytes]; rfl
  have hx : bytes.getD 4 0 = x := by rw [hbytes]; rfl
  -- the name is cut out of the buffer, not of what was read
  have hhost : ((Buffer.filled bufferSize 0 bytes).drop 5).take x.toNat = name := by
    rw [hbytes, Buffer.filled, ← hname, List.append_assoc, List.append_assoc, List.append_assoc]
    exact List.take_left
  have hp : bytes.getD (5 + x.toNat) 0 = p := by
    rw [hbytes, ← hname]
    simp [List.getD_eq_getElem?_getD, Nat.add_comm 5]
  have hq : bytes.getD (6 + x.toNat) 0 = q := by
    rw [hbytes, ← hname]
    simp [List.getD_eq_getElem?_getD, Nat.add_comm 6]
  have hguard : ¬ (bytes.length < 7 ∨ bytes.getD 1 0 ≠ 1) := by
    rw [hbytes]
    simp
    omega
  rw [← hbytes, parseRequest_eq, if_neg hguard]
  simp only [htype, hx, hhost, hp, hq]
  rfl

/-- Seven bytes and the name are a whole request for a name. -/
theorem connect_of_domain {reserved x : UInt8} {rest : List UInt8} {host : Text} {port : UInt16}
    (hlen : x.toNat + 2 ≤ rest.length)
    (hok : parseRequest (5 :: 1 :: reserved :: 3 :: x :: rest) = .ok (host, port)) :
    Connect (5 :: 1 :: reserved :: 3 :: x :: rest) host port := by
  obtain ⟨p, q, hpq⟩ := Indexed.exists_drop_two (show x.toNat + 1 < rest.length by omega)
  -- the bytes are cut at the name and at the port
  have hbytes : 5 :: 1 :: reserved :: 3 :: x :: rest =
      [5, 1, reserved, 3, x] ++ rest.take x.toNat ++ [p, q] ++ rest.drop (x.toNat + 2) := by
    rw [List.append_assoc, List.append_assoc]
    show _ = [5, 1, reserved, 3, x] ++ (rest.take x.toNat ++ (p :: q :: rest.drop (x.toNat + 2)))
    rw [← hpq, List.take_append_drop]
    rfl
  have hname : (rest.take x.toNat).length = x.toNat := List.length_take_of_le (by omega)
  rw [hbytes] at hok ⊢
  rw [parseRequest_domain p q _ hname] at hok
  split at hok
  · cases hok
    exact .domain reserved x _ p q _ hname
  · cases hok

/-- What the handlers check. -/
theorem checked_of_ok {bytes : List UInt8} {r : Text × UInt16} (hok : parseRequest bytes = .ok r) :
    7 ≤ bytes.length ∧ bytes.getD 1 0 = 1 ∧ (bytes.getD 3 0 = 1 ∨ bytes.getD 3 0 = 3) := by
  rw [parseRequest_eq] at hok
  by_cases hbad : bytes.length < 7 ∨ bytes.getD 1 0 ≠ 1
  · rw [if_pos hbad] at hok
    cases hok
  · rw [if_neg hbad] at hok
    obtain ⟨hlen, hcommand⟩ := not_or.1 hbad
    refine ⟨Nat.le_of_not_lt hlen, not_not.1 hcommand, ?_⟩
    by_contra hother
    obtain ⟨h1, h3⟩ := not_or.1 hother
    rw [if_neg h1, if_neg h3] at hok
    cases hok

/-- A handler acts on a request as it was sent if the version is right and nothing of it is
    missing. -/
theorem connect_iff {bytes : List UInt8} {host : Text} {port : UInt16}
    (hok : parseRequest bytes = .ok (host, port)) :
    Connect bytes host port ↔ bytes.getD 0 0 = 5 ∧ requestLength bytes ≤ bytes.length := by
  refine ⟨Connect.whole, ?_⟩
  rintro ⟨hversion, hwhole⟩
  -- what the handler has checked leaves the version and the length
  obtain ⟨hlen, hcommand, htype⟩ := checked_of_ok hok
  obtain ⟨version, command, reserved, atyp, x, rest, rfl⟩ :=
    exists_front (show 5 ≤ bytes.length by omega)
  obtain rfl : version = 5 := hversion
  obtain rfl : command = 1 := hcommand
  unfold requestLength at hwhole
  simp only [List.getD_cons_succ, List.getD_cons_zero, List.length_cons] at hwhole htype
  obtain rfl | rfl := htype
  · rw [if_neg (by decide)] at hwhole
    exact connect_of_ipv4 (by omega) hok
  · rw [if_pos rfl] at hwhole
    exact connect_of_domain (by omega) hok

/-! ## The five handlers -/

inductive Handler where
  | handleSocks5
  | quicSocks5
  | cdnSocks5
  | shimHandle
  | tunnel
  deriving DecidableEq

def Handler.handle (wl : Option Whitelist) : Handler → List UInt8 → ExceptT Refusal Outcome Served
  | .handleSocks5 => Socks5.handleSocks5 wl
  | .quicSocks5 => Socks5.quicSocks5 wl
  | .cdnSocks5 => Socks5.cdnSocks5 wl
  | .shimHandle => Socks5.shimHandle wl
  | .tunnel => Tunnel.handleSocks5

/-- The handlers that look at the version. -/
def Handler.looksAtVersion : Handler → Bool
  | .shimHandle | .tunnel => true
  | .handleSocks5 | .quicSocks5 | .cdnSocks5 => false

/-- All handlers have one body, with their own checks and messages. -/
theorem Handler.handle_eq (handler : Handler) (wl : Option Whitelist) (bytes : List UInt8) :
    ∃ checks act, handler.handle wl bytes = serve checks act bytes ∧
      checks.version = handler.looksAtVersion := by
  cases handler with
  | handleSocks5 => exact ⟨_, _, rfl, rfl⟩
  | quicSocks5 => exact ⟨_, _, rfl, rfl⟩
  | cdnSocks5 => exact ⟨_, _, rfl, rfl⟩
  | shimHandle => exact ⟨_, _, rfl, rfl⟩
  | tunnel => exact ⟨_, fun _ => .stream, rfl, rfl⟩

/-- That body in terms of `parseRequest`. -/
theorem serve_run (checks : Checks) (act : Text → Act) {bytes : List UInt8}
    (hlen : bytes.length ≤ bufferSize) :
    (serve checks act bytes).run =
      .ret (if checks.version = true ∧ bytes.getD 0 0 ≠ 5 then .error (.text checks.bad)
        else
          match parseRequest bytes with
          | .error e => .error (refusal checks (bytes.getD 3 0) e)
          | .ok (host, port) => .ok ⟨host, port, act host⟩) := by
  rw [serve, ExceptT.run_bind, target_run checks hlen]
  split
  · rfl
  · cases parseRequest bytes <;> rfl

/-- In TCP mode, `MuxPool` goes on as `handle_socks5` does. -/
theorem stepRequest_eq (wl : Option Whitelist) {s : MuxPool.State} {h : MuxPool.HandlerId}
    {bytes : List UInt8} (hs : s.handlers h = .negotiating) (hlen : bytes.length ≤ bufferSize) :
    MuxPool.stepRequest wl s h bytes =
      match (Socks5.handleSocks5 wl bytes).run with
      | .ret (.ok ⟨_, _, .bypassDirect⟩) => some (s.setHandler h .bypassing)
      | .ret (.ok ⟨host, port, _⟩) =>
        some { s.setHandler h (.registering s.nextId (MuxPool.targetAddr host port)) with
          nextId := s.nextId + 2 }
      | _ => some (s.setHandler h (.returned false)) := by
  rw [Socks5.handleSocks5, serve_run _ _ hlen, if_neg (by simp), MuxPool.stepRequest, hs]
  dsimp only
  rw [if_neg (by omega)]
  cases parseRequest bytes with
  | error e => rfl
  | ok r =>
    dsimp only [route]
    -- the whitelist decides between the two ways
    cases Whitelist.bypasses wl r.1 <;> rfl

/-- The bytes that a handler refuses. -/
def Refused (handler : Handler) (bytes : List UInt8) : Prop :=
  handler.looksAtVersion = true ∧ bytes.getD 0 0 ≠ 5 ∨ Malformed bytes

/-- A handler refuses what is malformed and, if it looks at the version, another one. -/
theorem serve_refuses_iff (checks : Checks) (act : Text → Act) {bytes : List UInt8}
    {handler : Handler} (hversion : checks.version = handler.looksAtVersion)
    (hlen : bytes.length ≤ bufferSize) :
    (∃ e, (serve checks act bytes).run = .ret (.error e)) ↔ Refused handler bytes := by
  rw [serve_run checks act hlen, Refused, ← hversion, ← exists_error_iff_malformed]
  split
  · rename_i hother
    exact iff_of_true ⟨_, rfl⟩ (.inl hother)
  · rename_i hother
    rw [or_iff_right hother]
    cases parseRequest bytes <;> simp

/-- **When a handler acts on what was sent**: every handler returns. It goes on with a host and
    a port only as in a complete request exactly if the bytes that it has read are such as it
    refuses, or have version 5 and the length of a request. -/
theorem acts_as_sent_iff (handler : Handler) (wl : Option Whitelist) (bytes : List UInt8)
    (hlen : bytes.length ≤ bufferSize) :
    ∃ r, (handler.handle wl bytes).run = .ret r ∧
      ((∃ e, r = .error e) ↔ Refused handler bytes) ∧
      ((∀ served, r = .ok served → Connect bytes served.host served.port) ↔
        Refused handler bytes ∨ bytes.getD 0 0 = 5 ∧ requestLength bytes ≤ bytes.length) := by
  obtain ⟨checks, act, hhandle, hversion⟩ := handler.handle_eq wl bytes
  have hrefuses := serve_refuses_iff checks act hversion hlen
  rw [serve_run checks act hlen] at hrefuses
  rw [hhandle]
  refine ⟨_, serve_run checks act hlen, by simpa using hrefuses, ?_⟩
  rw [← hrefuses]
  split
  · -- refused for its version
    refine iff_of_true ?_ (.inl ⟨_, rfl⟩)
    rintro _ ⟨⟩
  · cases hparse : parseRequest bytes with
    | error e =>
      refine iff_of_true ?_ (.inl ⟨_, rfl⟩)
      rintro _ ⟨⟩
    | ok r =>
      rw [← connect_iff hparse]
      constructor
      · intro h
        exact .inr (h _ rfl)
      · rintro (⟨_, ⟨⟩⟩ | hconnect) _ ⟨⟩
        exact hconnect

/-- A request that has been read as a whole. -/
theorem acts_as_sent_example :
    let bytes := [5, 1, 0, 3, 11] ++ ascii "example.org" ++ [1, 187]
    Connect bytes (ascii "example.org") 443 := by
  intro bytes
  obtain ⟨r, hrun, h⟩ := acts_as_sent_iff .handleSocks5 none bytes (by decide)
  have hok : (Handler.handleSocks5.handle none bytes).run =
      .ret (.ok ⟨ascii "example.org", 443, .stream⟩) := by decide +kernel
  rw [hok] at hrun
  cases hrun
  exact h.2.2 (.inr (by decide)) _ rfl

/-- The request for port 443 of a whitelisted host, cut before the port: all handlers go on
    with port 0. Seven bytes of a request for 10.0.0.1 do for 10.0.0.0. And three handlers
    do not mind another version. -/
theorem truncated_request_served :
    let cut := [5, 1, 0, 3, 6] ++ ascii "vk.com"
    let wl := some (Whitelist.new SplitTunnel.ipv4Net none)
    (∀ handler ∈ [Handler.handleSocks5, .quicSocks5, .cdnSocks5, .shimHandle],
      (handler.handle wl cut).run = .ret (.ok ⟨ascii "vk.com", 0, .bypassDirect⟩)) ∧
    (Handler.tunnel.handle wl cut).run = .ret (.ok ⟨ascii "vk.com", 0, .stream⟩) ∧
    ¬ Connect cut (ascii "vk.com") 0 ∧
    (Handler.tunnel.handle none [5, 1, 0, 1, 10, 0, 0]).run =
      .ret (.ok ⟨ascii "10.0.0.0", 0, .stream⟩) ∧
    ¬ Connect [5, 1, 0, 1, 10, 0, 0] (ascii "10.0.0.0") 0 ∧
    (∀ handler ∈ [Handler.handleSocks5, .quicSocks5, .cdnSocks5],
      (handler.handle none [4, 1, 0, 1, 10, 0, 0, 1, 0, 80]).run =
        .ret (.ok ⟨ascii "10.0.0.1", 80, .stream⟩)) ∧
    ¬ Connect [4, 1, 0, 1, 10, 0, 0, 1, 0, 80] (ascii "10.0.0.1") 80 := by
  refine ⟨by decide +kernel, by decide +kernel, ?_, by decide +kernel, ?_, by decide +kernel, ?_⟩
  · -- each of these requests is cut, or not for this version
    exact fun h => absurd h.whole (by decide)
  · exact fun h => absurd h.whole (by decide)
  · exact fun h => absurd h.whole (by decide)

/-! ## Addresses -/

open IpAddr (toDigit spanDigits readNumber readSeparator)

/-- The digits of a byte, as numbers. -/
def digitsOf (b : UInt8) : List Nat := (decimal b).filterMap (toDigit 10)

/-- A byte as text: one to three digits, no leading zero, its value. -/
theorem digitsOf_spec (b : UInt8) :
    (decimal b).map (toDigit 10) = (digitsOf b).map some ∧ (digitsOf b).length ≠ 0 ∧
      (digitsOf b).length ≤ 3 ∧ (digitsOf b).foldl (fun acc d => acc * 10 + d) 0 = b.toNat ∧
      ((digitsOf b).head? = some 0 → (digitsOf b).length = 1) := by
  revert b
  decide +kernel

/-- The digits of a number end where something else begins. -/
theorem spanDigits_append {text : Text} {digits : List Nat} {rest : Text}
    (h : text.map (toDigit 10) = digits.map some) (hrest : ∀ b ∈ rest.head?, toDigit 10 b = none) :
    spanDigits 10 (text ++ rest) = (digits, rest) := by
  induction text generalizing digits with
  | nil =>
    obtain rfl : digits = [] := by simpa using h.symm
    cases rest with
    | nil => rfl
    -- the digits end where `rest` begins
    | cons b rest => rw [List.nil_append, spanDigits, hrest b rfl]
  | cons c text ih =>
    cases digits with
    | nil => cases h
    | cons d digits =>
      obtain ⟨hc, htext⟩ := List.cons.inj h
      rw [List.cons_append, spanDigits, hc, ih htext]

/-- A byte written in decimal is read back. -/
theorem readNumber_decimal (b : UInt8) {rest : Text}
    (hrest : ∀ c ∈ rest.head?, toDigit 10 c = none) :
    readNumber 10 3 256 false (decimal b ++ rest) = some (b.toNat, rest) := by
  obtain ⟨hdigits, hpos, hshort, hvalue, hzero⟩ := digitsOf_spec b
  have hb := b.toNat_lt
  rw [readNumber, spanDigits_append hdigits hrest]
  dsimp only
  rw [hvalue, if_neg (by omega), if_neg]
  rintro ⟨-, hhead, hlong⟩
  have := hzero hhead
  omega

/-- One octet more in front of a text, with a dot if it is not the first one. -/
theorem readOctets_decimal {index count : Nat} (b : UInt8) {octets : List UInt8} {rest : Text}
    (hrest : ∀ c ∈ rest.head?, toDigit 10 c = none)
    (h : IpAddr.readOctets (index + 1) count rest = some (octets, [])) :
    IpAddr.readOctets index (count + 1)
        ((if index = 0 then [] else ascii ".") ++ (decimal b ++ rest)) =
      some (b :: octets, []) := by
  have hnumber : readSeparator 0x2E index (readNumber 10 3 256 false)
      ((if index = 0 then [] else ascii ".") ++ (decimal b ++ rest)) = some (b.toNat, rest) := by
    by_cases hindex : index = 0
    · rw [readSeparator, if_pos hindex, if_pos hindex]
      exact readNumber_decimal b hrest
    · rw [readSeparator, if_neg hindex, if_neg hindex]
      exact readNumber_decimal b hrest
  rw [IpAddr.readOctets, hnumber]
  simp only [Option.bind_eq_bind, Option.bind_some, h, UInt8.ofNat_toNat]

/-- An address survives being written. -/
theorem parseIpv4_dotted (a b c d : UInt8) :
    IpAddr.parseIpv4 (dotted a b c d) = some [a, b, c, d] := by
  have hdot (rest : Text) : ∀ x ∈ (ascii "." ++ rest).head?, toDigit 10 x = none := by
    intro x hx
    cases hx
    rfl
  have hnil : ∀ x ∈ ([] : Text).head?, toDigit 10 x = none := by
    intro x hx
    cases hx
  -- from the last octet to the first
  have hend : IpAddr.readOctets (3 + 1) 0 [] = some ([], []) := rfl
  have hd := readOctets_decimal d hnil hend
  have hc := readOctets_decimal c (hdot _) hd
  have hb := readOctets_decimal b (hdot _) hc
  have ha : IpAddr.readIpv4Addr (decimal a ++ (ascii "." ++ (decimal b ++ (ascii "." ++
      (decimal c ++ (ascii "." ++ (decimal d ++ []))))))) = some ([a, b, c, d], []) :=
    readOctets_decimal a (hdot _) hb
  have htext : dotted a b c d = decimal a ++ (ascii "." ++ (decimal b ++ (ascii "." ++
      (decimal c ++ (ascii "." ++ (decimal d ++ [])))))) := by
    simp only [dotted, List.append_assoc, List.append_nil]
  have hshort (x : UInt8) : (decimal x).length ≤ 3 := by
    have hlength := congrArg List.length (digitsOf_spec x).1
    rw [List.length_map, List.length_map] at hlength
    rw [hlength]
    exact (digitsOf_spec x).2.2.1
  -- four octets of three digits at most, and three dots
  have hlength : (dotted a b c d).length ≤ 15 := by
    have := hshort a
    have := hshort b
    have := hshort c
    have := hshort d
    simp only [dotted, List.length_append, show (ascii ".").length = 1 from rfl]
    omega
  rw [IpAddr.parseIpv4, if_neg (by omega), htext, ha]

/-- The target of a stream for an address is that address. -/
theorem targetAddr_dotted (a b c d : UInt8) (port : UInt16) :
    MuxPool.targetAddr (dotted a b c d) port = ⟨.ipv4 ⟨[a, b, c, d], rfl⟩, port⟩ := by
  simp only [MuxPool.targetAddr, parseIpv4_dotted]
  rfl

end Fogged.Spec.Socks5Request
