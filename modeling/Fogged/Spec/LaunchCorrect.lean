import Fogged.Native.Launch
import Fogged.Spec.HandshakeCorrect
import Fogged.Spec.RelayCorrect
import Fogged.Spec.StatusLines

/-!
# What becomes of a start of orcax-connect

The status lines tell how it ends: with `connected` if it serves, with an error if it gives
up, and with neither if it panics or waits for a server that never answers. On the way there may
be an error although it serves in the end, and that is so exactly if QUIC mode has fallen back
to another transport.

In TCP mode the pool connects to the address of the first server, whichever server has
accepted the client. If nobody answers there, no connection of a client is relayed.

## Key results

- `status_of_main`: the status lines, and what the app makes of them
- `failover_dials_first`: to whom the data of the clients goes
-/

namespace Fogged.Spec.Launch

open Fogged.Native Fogged.Native.Handshake Fogged.Native.ClientAuth Fogged.Native.Launch
open Fogged.Native.StatusChannel (Status Action)

/-! ## Status lines -/

section Status

variable {env : Env} {args : List Text} {sa sk : Text} {lines : List Line} {stop : End}

/-- The program has come to serve. -/
def isServing : End → Bool
  | .serving _ => true
  | .returned | .exited | .panicked | .waiting => false

/-- The program has come to serve, or has given up. -/
def isSettled : End → Bool
  | .serving _ | .returned | .exited => true
  | .panicked | .waiting => false

/-- The statuses before the last one. -/
def Underway (line : Line) : Prop := line.1 = .connecting ∨ line.1 = .error

/-- The last line tells the end. -/
inductive Ended : List Line → End → Prop
  | serving (front : List Line) (hfront : ∀ line ∈ front, Underway line) (detail : Option Text)
    (transport : Transport) : Ended (front ++ [(.connected, detail)]) (.serving transport)
  | failed (front : List Line) (hfront : ∀ line ∈ front, Underway line) (detail : Option Text)
    {stop : End} (hstop : stop = .returned ∨ stop = .exited) :
    Ended (front ++ [(.error, detail)]) stop
  | unsettled (front : List Line) (hfront : ∀ line ∈ front, Underway line) {stop : End}
    (hstop : isSettled stop = false) : Ended front stop

/-- Statuses that are underway may come before. -/
theorem Ended.append (front : List Line) (hfront : ∀ line ∈ front, Underway line)
    (h : Ended lines stop) : Ended (front ++ lines) stop := by
  have hboth {front' : List Line} (h' : ∀ line ∈ front', Underway line) :
      ∀ line ∈ front ++ front', Underway line :=
    fun line hline => (List.mem_append.1 hline).elim (hfront line) (h' line)
  cases h with
  | serving front' hfront' detail transport =>
    rw [← List.append_assoc]
    exact .serving _ (hboth hfront') detail transport
  | failed front' hfront' detail hstop =>
    rw [← List.append_assoc]
    exact .failed _ (hboth hfront') detail hstop
  | unsettled _ hfront' hstop => exact .unsettled _ (hboth hfront') hstop

/-- One line before the others. -/
theorem Ended.cons {line : Line} (hline : Underway line) (h : Ended lines stop) :
    Ended (line :: lines) stop :=
  h.append [line] (by simpa using hline)

/-- The line of a program that serves, by itself. -/
theorem ended_connected (detail : Option Text) (transport : Transport) :
    Ended [(.connected, detail)] (.serving transport) :=
  .serving [] (by simp) detail transport

/-- The line of a program that gives up, by itself. -/
theorem ended_error (detail : Option Text) (hstop : stop = .returned ∨ stop = .exited) :
    Ended [(.error, detail)] stop :=
  .failed [] (by simp) detail hstop

/-- A panic or an endless wait needs no line. -/
theorem ended_unsettled (hstop : isSettled stop = false) : Ended [] stop :=
  .unsettled [] (by simp) hstop

/-- The shim serves as soon as its port is bound, or else gives up. -/
theorem ended_runShimMode (env : Env) (listen upstream : Text) :
    Ended (runShimMode env listen upstream).1 (runShimMode env listen upstream).2 := by
  unfold runShimMode
  split
  · exact ended_error _ (.inr rfl)
  · exact ended_connected _ _

/-- Through the CDN, the URL, the WebSocket, the first message and the answer can each end the
    start. -/
theorem ended_runWsCdnMode (env : Env) (args : List Text) (url sk : Text) :
    Ended (runWsCdnMode env args url sk).1 (runWsCdnMode env args url sk).2 := by
  unfold runWsCdnMode
  split
  · exact ended_error _ (.inl rfl)
  · split
    · exact ended_error _ (.inl rfl)
    · -- nobody answers the WebSocket
      exact ended_unsettled rfl
    · split
      · exact ended_error _ (.inl rfl)
      · split
        · exact ended_error _ (.inl rfl)
        · split
          · exact ended_connected _ _
          · exact ended_error _ (.inl rfl)
          · -- nor the authentication
            exact ended_unsettled rfl
      · exact ended_unsettled rfl

/-- Over TCP a server accepts, or the CDN is tried if there is one. -/
theorem ended_runTcpMode (env : Env) (args : List Text) (sa sk : Text) :
    Ended (runTcpMode env args sa sk).1 (runTcpMode env args sa sk).2 := by
  unfold runTcpMode
  split
  · split
    · exact ended_error _ (.inr rfl)
    · exact ended_connected _ _
  · split
    · exact (ended_runWsCdnMode env args _ sk).cons (.inl rfl)
    · exact ended_error _ (.inl rfl)
  · exact ended_unsettled rfl
  · exact ended_unsettled rfl

/-- QUIC mode ends, or it reports an error and leaves the rest to `main`. -/
theorem ended_runQuicMode (env : Env) (args : List Text) (sa sk : Text) :
    (∃ detail, runQuicMode env args sa sk = ([(.error, detail)], none)) ∨
      ∃ lines stop, runQuicMode env args sa sk = (lines, some stop) ∧ Ended lines stop ∧
        (∀ line ∈ lines, line.1 ≠ .error) ∧
        ∀ transport, stop = .serving transport → ∃ addrs, transport = .quic addrs := by
  unfold runQuicMode
  split
  · exact .inr ⟨_, _, rfl, ended_unsettled rfl, by simp, by rintro _ ⟨⟩⟩
  · split
    · exact .inl ⟨_, rfl⟩
    · split
      · exact .inl ⟨_, rfl⟩
      · exact .inr ⟨_, _, rfl, ended_connected _ _, by simp, by rintro _ ⟨⟩; exact ⟨_, rfl⟩⟩
    · exact .inr ⟨_, _, rfl, ended_unsettled rfl, by simp, by rintro _ ⟨⟩⟩
    · exact .inr ⟨_, _, rfl, ended_unsettled rfl, by simp, by rintro _ ⟨⟩⟩

/-- A transport that QUIC mode falls back to. -/
def isFallback : Transport → Bool
  | .tcp _ _ _ | .cdn _ => true
  | .shim _ | .quic _ => false

/-- A start through the CDN that serves has shown no error. -/
theorem runWsCdnMode_of_serving {url : Text} {transport : Transport} :
    (runWsCdnMode env args url sk).2 = .serving transport →
      (∀ line ∈ (runWsCdnMode env args url sk).1, line.1 ≠ .error) ∧
        transport = .cdn url := by
  unfold runWsCdnMode
  split
  · rintro ⟨⟩
  · split
    · rintro ⟨⟩
    · rintro ⟨⟩
    · split
      · rintro ⟨⟩
      · split
        · rintro ⟨⟩
        · split
          · rintro ⟨⟩
            -- the only branch that serves
            exact ⟨by simp, rfl⟩
          · rintro ⟨⟩
          · rintro ⟨⟩
      · rintro ⟨⟩

/-- Over TCP and through the CDN there is no error on the way. -/
theorem runTcpMode_of_serving {transport : Transport} :
    (runTcpMode env args sa sk).2 = .serving transport →
      (∀ line ∈ (runTcpMode env args sa sk).1, line.1 ≠ .error) ∧
        isFallback transport = true := by
  unfold runTcpMode
  split
  · split
    · rintro ⟨⟩
    · rintro ⟨⟩
      -- a server has accepted, and the port is bound
      exact ⟨by simp, rfl⟩
  · split
    · intro h
      -- no server has; the line that says so is no error
      obtain ⟨hlines, rfl⟩ := runWsCdnMode_of_serving h
      exact ⟨List.forall_mem_cons.2 ⟨by simp, hlines⟩, rfl⟩
    · rintro ⟨⟩
  · rintro ⟨⟩
  · rintro ⟨⟩

/-! ## Who is waited for -/

/-- A server takes the connection, and then says nothing. -/
def Attempt.Silent (attempt : Attempt) : Prop := attempt.reached = true ∧ attempt.reply = .silent

/-- Somebody is silent whom `main` may wait for. -/
inductive SomebodySilent (env : Env) : Prop
  | quic (i : Nat) (h : Attempt.Silent (env.quic i))
  | openBi (i : Nat) (hreached : (env.quic i).reached = true) (h : env.openBi i = false)
  | tcp (i : Nat) (h : Attempt.Silent (env.tcp i))
  | wsConnect (h : env.wsConnect = .silent)
  | ws (h : env.wsReply = .silent)

/-- Parsing does not wait for anybody. -/
theorem parseUuid_ne_diverge (s : Text) : parseUuid s ≠ .diverge := by
  rcases Nat.lt_or_ge (UserId.digits s).length 32 with hlt | hge
  · rw [UserId.parseUuid_eq_panic hlt]
    simp
  · obtain ⟨uuid, huuid, -⟩ := UserId.parseUuid_eq_ret hge
    rw [huuid]
    simp

/-- Nor does the choice of the key. -/
theorem spk_ne_diverge (lib : Crypto) (pubkey : Option Text) : spk lib pubkey ≠ .diverge := by
  unfold spk
  dsimp only
  split
  · simp
  · split <;> simp

/-- Nor does the encryption. -/
theorem clientEncryptUuid_ne_diverge (lib : Crypto) (pk : Key) (uuid : List.Vector UInt8 16)
    (secret : Key) (now : UInt64) : clientEncryptUuid lib pk uuid secret now ≠ .diverge := by
  unfold clientEncryptUuid
  dsimp only
  split
  · simp
  · split
    · simp
    · split <;> simp

/-- The message itself is made at once, or there is a panic. -/
theorem authMessage_ne_diverge (lib : Crypto) (args : List Text) (secret : Key) (now : UInt64) :
    authMessage lib args secret now ≠ .diverge := by
  refine Outcome.bind_ne_diverge (spk_ne_diverge _ _) fun pk => ?_
  refine Outcome.bind_ne_diverge (parseUuid_ne_diverge _) fun uuid => ?_
  exact Outcome.bind_ne_diverge (clientEncryptUuid_ne_diverge _ _ _ _ _) (by simp)

/-- An attempt over TCP waits for ever only for the answer of its server. -/
theorem silent_of_connectAndAuth {attempt : Attempt}
    (h : Launch.connectAndAuth env args attempt = .diverge) : Attempt.Silent attempt := by
  unfold Launch.connectAndAuth at h
  split at h
  · rename_i hreached
    -- the message is made before anything is awaited
    cases hmessage : authMessage env.lib args attempt.secret attempt.now with
    | ret message =>
      rw [hmessage, Outcome.ret_bind] at h
      cases hreply : attempt.reply with
      | silent => exact ⟨hreached, hreply⟩
      | accepted token =>
        rw [hreply] at h
        cases h
      | rejected =>
        rw [hreply] at h
        cases h
    | panic =>
      rw [hmessage] at h
      cases h
    | diverge => exact absurd hmessage (authMessage_ne_diverge _ _ _ _)
  · cases h

/-- `join` waits for both, so it waits for ever if one of them does. -/
theorem join_eq_diverge {α β γ : Type} {x : Outcome α} {y : Outcome β} {f : α → β → γ}
    (h : join x y f = .diverge) : x = .diverge ∨ y = .diverge := by
  cases x <;> cases y <;> simp [join] at h ⊢

/-- An attempt over QUIC waits for the stream and then for the answer. -/
theorem silent_of_quicConnectAndAuth {i : Nat}
    (h : Launch.quicConnectAndAuth env args i = .diverge) : SomebodySilent env := by
  unfold Launch.quicConnectAndAuth at h
  split at h
  · rename_i hopen
    rw [Bool.and_eq_true, Bool.not_eq_true'] at hopen
    exact .openBi i hopen.1 hopen.2
  · exact .quic i (silent_of_connectAndAuth h)

/-- All servers are tried at once over QUIC, and all are waited for. -/
theorem silent_of_connectAll {addrs : List SocketAddr} {i : Nat}
    (h : connectAll env args i addrs = .diverge) : SomebodySilent env := by
  induction addrs generalizing i with
  | nil => cases h
  | cons addr addrs ih =>
    rcases join_eq_diverge h with hfirst | hrest
    · exact silent_of_quicConnectAndAuth hfirst
    · exact ih hrest

/-- Over TCP the servers are tried one after another. The first that says nothing holds up the
    rest. -/
theorem silent_of_connectFirst {servers : List Text} {i : Nat}
    (h : connectFirst env args i servers = .diverge) : SomebodySilent env := by
  induction servers generalizing i with
  | nil => cases h
  | cons server servers ih =>
    rw [connectFirst] at h
    cases hresult : Launch.connectAndAuth env args (env.tcp i) with
    | ret result =>
      rw [hresult, Outcome.ret_bind] at h
      cases result with
      | some token => cases h
      | none => exact ih h
    | panic =>
      rw [hresult] at h
      cases h
    -- a server that neither accepts nor rejects holds up all that follow
    | diverge => exact .tcp i (silent_of_connectAndAuth hresult)

/-- Through the CDN the WebSocket and the answer are waited for. -/
theorem silent_of_runWsCdnMode {url : Text} :
    (runWsCdnMode env args url sk).2 = .waiting → SomebodySilent env := by
  unfold runWsCdnMode
  split
  · rintro ⟨⟩
  · split
    · rintro ⟨⟩
    · -- the connection itself hangs
      rename_i hconnect
      exact fun _ => .wsConnect hconnect
    · split
      · rintro ⟨⟩
      · split
        · rintro ⟨⟩
        · split
          · rintro ⟨⟩
          · rintro ⟨⟩
          · rename_i hreply
            exact fun _ => .ws hreply
      · rintro ⟨⟩

/-- What is waited for over TCP, and through the CDN after it. -/
theorem silent_of_runTcpMode :
    (runTcpMode env args sa sk).2 = .waiting → SomebodySilent env := by
  unfold runTcpMode
  split
  · split
    · rintro ⟨⟩
    · rintro ⟨⟩
  · split
    · exact silent_of_runWsCdnMode
    · rintro ⟨⟩
  · rintro ⟨⟩
  · rename_i hfirst
    exact fun _ => silent_of_connectFirst hfirst

/-- QUIC mode waits for its servers only; the fallback is another start. -/
theorem silent_of_runQuicMode :
    (runQuicMode env args sa sk).2 = some .waiting → SomebodySilent env := by
  unfold runQuicMode
  split
  · rintro ⟨⟩
  · split
    · rintro ⟨⟩
    · split
      · rintro ⟨⟩
      · rintro ⟨⟩
    · rintro ⟨⟩
    · rename_i hall
      exact fun _ => silent_of_connectAll hall

/-- `main` waits for ever only for a server that is silent. -/
theorem silent_of_main (h : (main env args).2 = .waiting) : SomebodySilent env := by
  unfold main at h
  split at h
  · -- the shim asks no server
    unfold runShimMode at h
    split at h <;> cases h
  · dsimp only at h
    split at h
    · split at h
      · -- QUIC mode has come to an end of its own
        rename_i lines stop hmode
        have hquic : (runQuicMode env args (serverArg env args) (socksArg args)).2 =
            some .waiting := by
          rw [hmode]
          exact congrArg some h
        exact silent_of_runQuicMode hquic
      · exact silent_of_runTcpMode h
    · exact silent_of_runTcpMode h

/-! ## What the app makes of it -/

/-- What the app keeps of the status. -/
structure Flags where
  connected : Bool
  connecting : Bool
  deriving DecidableEq

def Flags.act (flags : Flags) : Action → Flags
  | .onConnected => ⟨true, false⟩
  | .notConnecting => { flags with connecting := false }
  | .addLog _ | .showError _ | .downloaded _ => flags

/-- A status. -/
def Flags.hear (flags : Flags) (status : Status) : Flags :=
  (StatusChannel.reaction status []).foldl Flags.act flags

/-- Statuses that are underway do not make the app connected. -/
theorem hear_of_underway {front : List Line} (hfront : ∀ line ∈ front, Underway line)
    {flags : Flags} (hflags : flags.connected = false) :
    ((front.map Prod.fst).foldl Flags.hear flags).connected = false := by
  induction front generalizing flags with
  | nil => exact hflags
  | cons line front ih =>
    obtain ⟨hline, hrest⟩ := List.forall_mem_cons.1 hfront
    refine ih hrest ?_
    rcases hline with hline | hline
    · rw [hline]
      exact hflags
    · rw [hline]
      exact hflags

/-- The app is connected after the status lines exactly if the program serves. -/
theorem connected_of_ended (h : Ended lines stop) :
    ((lines.map Prod.fst).foldl Flags.hear ⟨false, true⟩).connected = isServing stop := by
  cases h with
  -- `connected` comes last and decides, whatever was shown before
  | serving front hfront detail transport =>
    rw [List.map_append, List.foldl_append]
    rfl
  | failed front hfront detail hstop =>
    rw [List.map_append, List.foldl_append]
    -- neither the statuses on the way nor the error at the end connect
    refine (hear_of_underway hfront rfl).trans ?_
    rcases hstop with rfl | rfl <;> rfl
  | unsettled _ hfront hstop =>
    -- the program says nothing more
    refine (hear_of_underway hfront rfl).trans ?_
    cases stop with
    | panicked | waiting => rfl
    | serving _ | returned | exited => cases hstop

/-- Once the start is settled, the app does not wait any longer. -/
theorem connecting_of_ended (h : Ended lines stop) (hsettled : isSettled stop = true) :
    ((lines.map Prod.fst).foldl Flags.hear ⟨false, true⟩).connecting = false := by
  cases h with
  | serving front hfront detail transport =>
    rw [List.map_append, List.foldl_append]
    rfl
  | failed front hfront detail _ =>
    rw [List.map_append, List.foldl_append]
    rfl
  | unsettled _ _ hstop =>
    rw [hsettled] at hstop
    cases hstop

/-- Status lines of a start that may have fallen back. -/
theorem ended_main (env : Env) (args : List Text) :
    Ended (main env args).1 (main env args).2 ∧
      ∀ transport, (main env args).2 = .serving transport →
        ((∃ detail, (Status.error, detail) ∈ (main env args).1) ↔
          quicArg args = true ∧ isFallback transport = true) := by
  unfold main
  split
  · -- the shim has no fallback
    refine ⟨ended_runShimMode env _ _, ?_⟩
    unfold runShimMode
    split
    · rintro _ ⟨⟩
    · rintro _ ⟨⟩
      simp [isFallback]
  · dsimp only
    split
    · rename_i hquic
      rcases ended_runQuicMode env args (serverArg env args) (socksArg args) with
        ⟨detail, hmode⟩ | ⟨lines, stop, hmode, hended, hlines, hstop⟩
      · -- QUIC mode gives up with an error, and TCP mode follows
        rw [hmode]
        have htcp := ended_runTcpMode env args (stealthAddr (serverArg env args)) (socksArg args)
        refine ⟨((htcp.cons (.inl rfl)).cons (.inr rfl)).cons (.inl rfl), fun transport h => ?_⟩
        have hfallback := (runTcpMode_of_serving h).2
        exact iff_of_true ⟨detail, by simp⟩ ⟨hquic, hfallback⟩
      · -- QUIC mode serves or waits, without an error before
        rw [hmode]
        refine ⟨hended.cons (.inl rfl), fun transport h => ?_⟩
        obtain ⟨addrs, rfl⟩ := hstop transport h
        refine iff_of_false ?_ (by simp [isFallback])
        rintro ⟨detail, hmem⟩
        rcases List.mem_cons.1 hmem with heq | hmem
        · cases heq
        · exact hlines _ hmem rfl
    · -- TCP mode from the start: an error would be its last line
      rename_i hquic
      refine ⟨(ended_runTcpMode env args _ _).cons (.inl rfl), fun transport h => ?_⟩
      obtain ⟨hlines, -⟩ := runTcpMode_of_serving h
      refine iff_of_false ?_ fun hboth => hquic hboth.1
      rintro ⟨detail, hmem⟩
      rcases List.mem_cons.1 hmem with heq | hmem
      · cases heq
      · exact hlines _ hmem rfl

/-- A server that cannot be reached. -/
def unreachable : Attempt where
  reached := false
  secret := Handshake.Recorded.clientKey
  now := 0
  reply := .rejected

/-- A server that accepts the client. -/
def accepting : Attempt where
  reached := true
  secret := Handshake.Recorded.clientKey
  now := 1700000000
  reply := .accepted (List.Vector.replicate 16 1)

/-- QUIC is blocked; `tcp` says what becomes of the attempts over TCP. -/
def blockedQuic (tcp : Nat → Attempt) : Env where
  lib := Handshake.Recorded.crypto
  random := 0
  quic _ := unreachable
  openBi _ := true
  tcp := tcp
  bindShim := none
  bindQuic := none
  bindTcp := none
  bindCdn := none
  wsConnect := .connected
  wsSecret := Handshake.Recorded.clientKey
  wsNow := 0
  wsSend := false
  wsReply := .rejected

def proMaxArgs : List Text :=
  Handshake.Recorded.args ++ [ascii "--server", ascii "1.2.3.4:9444", ascii "--protocol", ascii "quic"]

/-- A server that takes the TCP connection and says nothing: the app waits for ever. -/
example : (main (blockedQuic fun _ => { accepting with reply := .silent }) proMaxArgs).2 =
    .waiting := by decide +kernel

end Status

/-! ## Data connections -/

section Data

variable {env : Env} {args : List Text} {sa : Text}

/-- The address of the first server, over TCP. -/
def firstServer (env : Env) (args : List Text) : Text :=
  if quicArg args then stealthAddr (serverArg env args) else serverArg env args

/-- A server of the list has accepted the client, and those before it have not. -/
structure Accepted (env : Env) (servers : List Text) (i : Nat) (link : Text)
    (token : List.Vector UInt8 16) : Prop where
  server : servers[i]? = some link
  reached : (env.tcp i).reached = true
  accepted : (env.tcp i).reply = .accepted token
  before : ∀ j < i, (env.tcp j).reached = false ∨ (env.tcp j).reply = .rejected

/-- An attempt that has a token has reached its server, which has accepted it. -/
theorem connectAndAuth_eq_some {attempt : Attempt} {token : List.Vector UInt8 16}
    (h : Launch.connectAndAuth env args attempt = .ret (some token)) :
    attempt.reached = true ∧ attempt.reply = .accepted token := by
  unfold Launch.connectAndAuth at h
  split at h
  · rename_i hreached
    -- only the answer of the server decides
    obtain ⟨message, -, hret⟩ := Outcome.bind_eq_ret h
    cases hreply : attempt.reply with
    | accepted token' =>
      rw [hreply] at hret
      cases hret
      exact ⟨hreached, rfl⟩
    | rejected =>
      rw [hreply] at hret
      cases hret
    | silent =>
      rw [hreply] at hret
      cases hret
  · cases h

/-- An attempt without a token has not reached its server, or was rejected. -/
theorem connectAndAuth_eq_none {attempt : Attempt}
    (h : Launch.connectAndAuth env args attempt = .ret none) :
    attempt.reached = false ∨ attempt.reply = .rejected := by
  unfold Launch.connectAndAuth at h
  split at h
  · obtain ⟨message, -, hret⟩ := Outcome.bind_eq_ret h
    cases hreply : attempt.reply with
    | accepted token =>
      rw [hreply] at hret
      cases hret
    | rejected => exact .inr rfl
    | silent =>
      rw [hreply] at hret
      cases hret
  · rename_i hreached
    exact .inl (Bool.eq_false_iff.2 hreached)

/-- The loop over the servers stops at the first one that accepts. -/
theorem accepted_of_connectFirst {servers : List Text} {i : Nat} {link : Text}
    {token : List.Vector UInt8 16}
    (h : connectFirst env args i servers = .ret (some (link, token)))
    (hbefore : ∀ j < i, (env.tcp j).reached = false ∨ (env.tcp j).reply = .rejected) :
    ∃ k, servers[k]? = some link ∧ (env.tcp (i + k)).reached = true ∧
      (env.tcp (i + k)).reply = .accepted token ∧
      ∀ j < i + k, (env.tcp j).reached = false ∨ (env.tcp j).reply = .rejected := by
  induction servers generalizing i with
  | nil => cases h
  | cons server servers ih =>
    obtain ⟨result, hresult, hrest⟩ := Outcome.bind_eq_ret h
    cases result with
    | some token' =>
      cases hrest
      obtain ⟨hreached, haccepted⟩ := connectAndAuth_eq_some hresult
      exact ⟨0, rfl, hreached, haccepted, hbefore⟩
    | none =>
      -- server `i` does not count among those that have accepted
      have hnext : ∀ j < i + 1, (env.tcp j).reached = false ∨ (env.tcp j).reply = .rejected := by
        intro j hj
        rcases Nat.lt_succ_iff_lt_or_eq.1 hj with hj | rfl
        · exact hbefore j hj
        · exact connectAndAuth_eq_none hresult
      obtain ⟨k, hserver, hreached, haccepted, hbefore'⟩ := ih hrest hnext
      refine ⟨k + 1, hserver, ?_, ?_, ?_⟩
      · rwa [show i + (k + 1) = i + 1 + k by omega]
      · rwa [show i + (k + 1) = i + 1 + k by omega]
      · rwa [show i + (k + 1) = i + 1 + k by omega]

/-- A TCP mode that serves has connected to the first server that accepts; the pool is given
    the address of the first of all. -/
theorem runTcpMode_eq_tcp {sk link serverAddr : Text} {token : List.Vector UInt8 16} :
    (runTcpMode env args sa sk).2 = .serving (.tcp link serverAddr token) →
      connectFirst env args 0 (tcpServers sa (arg args (ascii "--extra-servers"))) =
        .ret (some (link, token)) ∧ serverAddr = sa := by
  unfold runTcpMode
  split
  · rename_i link' token' hfirst
    split
    · rintro ⟨⟩
    · rintro ⟨⟩
      -- the link is that of the loop, the address of the pool the argument
      exact ⟨hfirst, rfl⟩
  · split
    · intro h
      -- the CDN is another transport
      have hcdn := (runWsCdnMode_of_serving h).2
      cases hcdn
    · rintro ⟨⟩
  · rintro ⟨⟩
  · rintro ⟨⟩

/-- In TCP mode the pool has the address of the first server. -/
theorem main_eq_tcp {link serverAddr : Text} {token : List.Vector UInt8 16}
    (h : (main env args).2 = .serving (.tcp link serverAddr token)) :
    (∃ i, Accepted env
      (tcpServers (firstServer env args) (arg args (ascii "--extra-servers"))) i link token) ∧
      serverAddr = firstServer env args := by
  -- both ways into TCP mode
  have haccepted {sa : Text} (htcp : (runTcpMode env args sa (socksArg args)).2 =
      .serving (.tcp link serverAddr token)) :
      (∃ i, Accepted env (tcpServers sa (arg args (ascii "--extra-servers"))) i link token) ∧
        serverAddr = sa := by
    obtain ⟨hfirst, hsa⟩ := runTcpMode_eq_tcp htcp
    obtain ⟨k, hserver, hreached, haccepted, hbefore⟩ :=
      accepted_of_connectFirst hfirst fun j hj => absurd hj (Nat.not_lt_zero j)
    rw [Nat.zero_add] at hreached haccepted hbefore
    exact ⟨⟨k, hserver, hreached, haccepted, hbefore⟩, hsa⟩
  unfold main at h
  split at h
  · unfold runShimMode at h
    split at h
    · cases h
    · cases h
  · dsimp only at h
    split at h
    · rename_i hquic
      rw [firstServer, if_pos hquic]
      rcases ended_runQuicMode env args (serverArg env args) (socksArg args) with
        ⟨detail, hmode⟩ | ⟨lines, stop, hmode, -, -, hstop⟩
      · -- QUIC has failed, and TCP mode is tried
        rw [hmode] at h
        exact haccepted h
      · rw [hmode] at h
        -- QUIC serves itself, which is no TCP link
        obtain ⟨addrs, haddrs⟩ := hstop _ h
        cases haddrs
    · rename_i hquic
      rw [firstServer, if_neg hquic]
      exact haccepted h

/-- **The data goes to the first server.** In TCP mode the client is authenticated by the first
    server of the list that accepts it. But every connection that is relayed, other than to a
    whitelisted host, is over a data connection to the first server of the list, and there is
    none if nobody answers there. -/
theorem failover_dials_first {link serverAddr : Text} {token : List.Vector UInt8 16}
    (hmain : (main env args).2 = .serving (.tcp link serverAddr token))
    (opened : TargetAddr → Option (Except Relay.Error UInt32)) (wl : Option Whitelist)
    (socksToken : Text) {w w' : Relay.World}
    (hserve : (Relay.handleSocks5 ⟨serverAddr, token, opened⟩ wl socksToken).run.run w =
      .ret (.ok (), w')) :
    (∃ i, Accepted env
      (tcpServers (firstServer env args) (arg args (ascii "--extra-servers"))) i link token) ∧
      ((∃ host port, Whitelist.bypasses wl host = true ∧
          w'.dialled = w.dialled ++ [.direct host port]) ∨
        w'.dialled = w.dialled ++ [.data (firstServer env args)] ∧
          ∃ peer, w.net (.data (firstServer env args)) = .connected peer) := by
  obtain ⟨haccepted, rfl⟩ := main_eq_tcp hmain
  refine ⟨haccepted, ?_⟩
  obtain ⟨hwaits, -⟩ | ⟨⟨r, w''⟩, hret, hr⟩ :=
    Relay.serves (.tcp ⟨firstServer env args, token, opened⟩ socksToken) wl w
  · cases hwaits.symm.trans hserve
  have heq : (Except.ok (), w') = (r, w'') := Outcome.ret.inj (hserve.symm.trans hret)
  cases heq
  obtain ⟨request, host, port, n, peer, opening, answers, hjoined⟩ := hr () rfl
  cases hjoined.opens with
  | direct _ hbypass => exact .inl ⟨host, port, hbypass, hjoined.dialled⟩
  | data _ _ _ => exact .inr ⟨hjoined.dialled, peer, hjoined.answered⟩

/-- The first server does not accept the client and the second does. -/
def firstDown : Env := blockedQuic fun i => if i = 0 then unreachable else accepting

def twoServers : List Text :=
  Handshake.Recorded.args ++ [ascii "--server", ascii "a:1", ascii "--extra-servers", ascii "b:2"]

/-- A client is connected to the first server with the token of the second. -/
theorem failover_of_two_servers :
    ∃ w', (main firstDown twoServers).2 =
        .serving (.tcp (ascii "b:2") (ascii "a:1") (List.Vector.replicate 16 1)) ∧
      (Relay.handleSocks5 ⟨ascii "a:1", List.Vector.replicate 16 1, fun _ => some (.ok 1)⟩ none
        []).run.run Relay.earlyWorld = .ret (.ok (), w') ∧ w'.dialled = [.data (ascii "a:1")] := by
  have hmain : (main firstDown twoServers).2 =
      .serving (.tcp (ascii "b:2") (ascii "a:1") (List.Vector.replicate 16 1)) := by
    decide +kernel
  obtain ⟨w', hserve⟩ : ∃ w' : Relay.World,
      (Relay.handleSocks5 ⟨ascii "a:1", List.Vector.replicate 16 1, fun _ => some (.ok 1)⟩ none
        []).run.run Relay.earlyWorld = .ret (.ok (), w') := ⟨_, rfl⟩
  refine ⟨w', hmain, hserve, ?_⟩
  have hfirst : firstServer firstDown twoServers = ascii "a:1" := by decide +kernel
  -- nothing is whitelisted, so the connection is not bypassed
  rcases (failover_dials_first hmain _ none [] hserve).2 with ⟨_, _, hbypass, _⟩ | ⟨hdialled, -⟩
  · cases hbypass
  · rw [hdialled, hfirst]
    rfl

end Data

end Fogged.Spec.Launch
