import Fogged.Native.Socks5Handlers

/-!
# What the token of the SOCKS port protects

`socks5_auth` asks for the password only if the client offers the method for it. A client
that offers the method without authentication is let in, and so is one that sends nothing
but the number of its methods: the methods are looked for in the zeros behind the greeting.
Behind the password there are zeros as well, which matters for tokens that end in one; those
that `generate_socks_token` makes do not.

## Key results

- `socks5Auth_ends`: `socks5_auth` returns, and what it has seen and said if it accepts
- `token_protects_iff`: whom the token keeps out
-/

namespace Fogged.Spec.Socks5Auth

open Fogged.Native Fogged.Native.Handshake Fogged.Native.Socks5
open Buffer (filled window)
open Socket (Ends)

/-! ## What the client sends -/

/-- The methods that a greeting lists. -/
def methodsOf (greeting : List UInt8) : List UInt8 :=
  (greeting.drop 2).take (greeting.getD 1 0).toNat

/-- All of a username and password message has been read. -/
def Complete (message : List UInt8) : Prop :=
  let ulen := (message.getD 1 0).toNat
  let plen := (message.getD (2 + ulen) 0).toNat
  3 + ulen + plen ≤ message.length

instance (message : List UInt8) : Decidable (Complete message) := by
  unfold Complete
  infer_instance

/-- The client has offered to authenticate and has then sent the token as its password. -/
structure Negotiated (token greeting message : List UInt8) : Prop where
  offered : 0x02 ∈ methodsOf greeting
  password : ∃ ulen user plen rest, message = [1, ulen] ++ user ++ [plen] ++ token ++ rest ∧
    user.length = ulen.toNat ∧ token.length = plen.toNat

/-! ## The password -/

/-- The password in the buffer. -/
def passwordOf (message : List UInt8) : List UInt8 :=
  let ulen := (message.getD 1 0).toNat
  let plen := (message.getD (2 + ulen) 0).toNat
  window (filled 515 0 message) (3 + ulen) (3 + ulen + plen)

/-- A negotiation that succeeds has read its message whole. -/
theorem Negotiated.complete {token greeting message : List UInt8}
    (h : Negotiated token greeting message) : Complete message := by
  obtain ⟨ulen, user, plen, rest, rfl, huser, htoken⟩ := h.password
  have hplen : ([1, ulen] ++ user ++ [plen] ++ token ++ rest).getD (2 + ulen.toNat) 0 = plen := by
    rw [← huser]
    simp [List.getD_eq_getElem?_getD, Nat.add_comm 2]
  have hulen : ([1, ulen] ++ user ++ [plen] ++ token ++ rest).getD 1 0 = ulen := rfl
  unfold Complete
  simp only [hulen, hplen, List.length_append, List.length_cons, List.length_nil]
  omega

/-- A complete message with the password is what the format says. -/
theorem negotiated_of_complete {token greeting message : List UInt8}
    (hoffered : 0x02 ∈ methodsOf greeting) (hversion : message.getD 0 0 = 1)
    (hcomplete : Complete message) (hpassword : passwordOf message = token) :
    Negotiated token greeting message := by
  -- the length bytes cut the message into the pieces that `Negotiated` asks for
  match message with
  | [] => exact absurd hversion (by decide)
  | [v] => exact absurd hcomplete (by simp [Complete])
  | v :: ulen :: tail =>
    obtain rfl : v = 1 := hversion
    have hplen : (1 :: ulen :: tail).getD (2 + ulen.toNat) 0 = tail.getD ulen.toNat 0 := by
      rw [Nat.add_comm]
      rfl
    have hlength : 1 + ulen.toNat + (tail.getD ulen.toNat 0).toNat ≤ tail.length := by
      unfold Complete at hcomplete
      simp only [List.getD_cons_succ, List.getD_cons_zero, hplen, List.length_cons] at hcomplete
      omega
    -- the length of the password stands behind the name
    have hcell := List.drop_eq_getElem_cons (l := tail) (i := ulen.toNat) (by omega)
    have hpass : (tail.drop (ulen.toNat + 1)).take (tail.getD ulen.toNat 0).toNat = token := by
      rw [← hpassword]
      unfold passwordOf
      simp only [List.getD_cons_succ, List.getD_cons_zero, hplen]
      rw [Buffer.window_filled 0 (by simp only [List.length_cons]; omega), Buffer.window_eq_take,
        show 3 + ulen.toNat = ulen.toNat + 1 + 2 by omega]
      rfl
    refine ⟨hoffered, ulen, tail.take ulen.toNat, tail.getD ulen.toNat 0,
      (tail.drop (ulen.toNat + 1)).drop (tail.getD ulen.toNat 0).toNat, ?_, ?_, ?_⟩
    · rw [← hpass, List.append_assoc, List.take_append_drop, List.append_assoc, List.append_assoc,
        List.getD_eq_getElem _ _ (by omega), List.singleton_append, ← hcell,
        List.take_append_drop]
      rfl
    · rw [List.length_take]
      omega
    · rw [← hpass, List.length_take, List.length_drop]
      omega

/-- A password without a NUL has been sent as a whole: what is missing would be zeros. -/
theorem complete_of_password {token message : List UInt8} (hpassword : passwordOf message = token)
    (hne : token ≠ []) (hnul : 0 ∉ token) : Complete message := by
  unfold passwordOf at hpassword
  unfold Complete
  dsimp only at hpassword ⊢
  generalize hulen : (message.getD 1 0).toNat = ulen at hpassword ⊢
  generalize hplen : (message.getD (2 + ulen) 0).toNat = plen at hpassword ⊢
  by_contra hshort
  apply hnul
  rw [← hpassword, Buffer.window_eq_take]
  have hpos : 0 < plen := by
    by_contra hzero
    obtain rfl : plen = 0 := by omega
    rw [Buffer.window_eq_take, List.take_zero] at hpassword
    exact hne hpassword.symm
  -- the last byte of the password is behind the message
  rw [List.mem_iff_getElem?]
  refine ⟨plen - 1, ?_⟩
  have hulen256 := (message.getD 1 0).toNat_lt
  have hplen256 := (message.getD (2 + ulen) 0).toNat_lt
  rw [List.getElem?_take_of_lt (by omega), List.getElem?_drop, filled,
    List.getElem?_append_right (by omega), List.getElem?_replicate_of_lt (by omega)]

/-! ## The run -/

/-- A few bytes are written, or there is an error. -/
theorem write_ends (bytes : List UInt8) {s : Socket.State} :
    Ends False (write bytes) s fun _ s' =>
      s' = { s with output := s.output ++ bytes, faults := s.faults.tail } :=
  Ends.writeAll bytes (Socket.bears_unaided _)

/-- The password is accepted with two bytes. -/
theorem checkPassword_ends {token message : List UInt8} {s : Socket.State}
    (hlen : message.length ≤ 515) :
    Ends False (checkPassword token message) s fun _ s' =>
      s' = { s with output := s.output ++ [1, 0], faults := s.faults.tail } ∧
        (token ≠ [] → message.getD 0 0 = 1 ∧ passwordOf message = token) := by
  refine .bind (.lift ⟨_, Indexed.get_filled hlen (by omega), rfl⟩)
    fun version s₁ ⟨hversion, hs₁⟩ => ?_
  split
  · exact .throw _
  rename_i hok
  -- the buffer holds any name and password of up to 255 bytes, so no access panics
  refine .bind (.lift ⟨_, Indexed.get_filled hlen (by omega), rfl⟩) fun ulen s₂ ⟨hulen, hs₂⟩ => ?_
  have hulen256 := ulen.toNat_lt
  refine .bind (.lift ⟨_, Indexed.get_filled hlen (by omega), rfl⟩)
    fun plen s₃ ⟨hplen, hs₃⟩ => ?_
  have hplen256 := plen.toNat_lt
  have hslice : (Buffer.slice (filled 515 0 message) (3 + ulen.toNat)
      (3 + ulen.toNat + plen.toNat)).Returns (· = passwordOf message) := by
    rw [Buffer.slice_of_le (by omega) (by rw [Buffer.length_filled hlen]; omega)]
    refine .ret ?_
    rw [← hplen, ← hulen]
    rfl
  refine .bind (.lift hslice) fun pass s₄ ⟨hpass, hs₄⟩ => ?_
  subst hs₄ hs₃ hs₂ hs₁
  dsimp only
  by_cases heq : (if Bytes.validUtf8 pass = true then pass else []) = token
  · rw [if_pos heq]
    refine (write_ends _).mono fun _ _ hs => ⟨hs, fun htoken => ⟨?_, ?_⟩⟩
    · rw [hversion]
      exact not_not.1 (not_or.1 hok).2
    · -- bytes that are not UTF-8 count as the empty password
      split at heq
      · rw [← hpass, heq]
      · exact absurd heq.symm htoken
  · rw [if_neg heq]
    exact .bind (write_ends _) fun _ _ _ => .throw _

/-- What the first read of `socks5_auth` returns. -/
def greetingOf (s : Socket.State) : List UInt8 := (s.input.read 258).1

/-- What the second read returns. -/
def messageOf (s : Socket.State) : List UInt8 := ((s.input.read 258).2.read 515).1

/-- The methods in the buffer, without the zeros that are not the client's. -/
theorem offered_iff (greeting : List UInt8) :
    0x02 ∈ window (filled 258 0 greeting) 2
        (2 + min ((filled 258 0 greeting)[1]?.getD 0).toNat 256) ↔
      0x02 ∈ methodsOf greeting := by
  have hcount : (filled 258 0 greeting)[1]?.getD 0 = greeting.getD 1 0 := by
    rw [← List.getD_eq_getElem?_getD, Buffer.filled_getD]
  have hlt := (greeting.getD 1 0).toNat_lt
  rw [hcount, Nat.min_eq_left (by omega), Buffer.mem_window_filled (by decide),
    Buffer.window_eq_take]
  rfl

/-- What `socks5_auth` answers when it succeeds. -/
def negotiations : List (List UInt8) := [[5, 0], [5, 2, 1, 0]]

/-- What `socks5_auth` has seen and said when it accepts: the password, or that the method for it
    is not on offer. -/
structure Accepted (token : Text) (s s' : Socket.State) : Prop where
  authorised : token ≠ [] → 0x02 ∈ methodsOf (greetingOf s) →
    (messageOf s).getD 0 0 = 1 ∧ passwordOf (messageOf s) = token
  read : ∃ head, s.input.bytes = head ++ s'.input.bytes
  answered : ∃ answer ∈ negotiations, s'.output = s.output ++ answer
  faults : s'.faults <:+ s.faults

/-- Without a password: one read, and one answer. -/
theorem accepted_of_open {token : Text} {s : Socket.State}
    (h : token ≠ [] → 0x02 ∉ methodsOf (greetingOf s)) :
    Ends False (write [5, 0])
      { s with input := (s.input.read 258).2, faults := s.faults.tail }
      fun _ s' => Accepted token s s' := by
  refine (write_ends [5, 0]).mono fun _ s' hs' => ?_
  subst hs'
  refine ⟨fun htoken hoffered => absurd hoffered (h htoken), ⟨greetingOf s, ?_⟩,
    ⟨[5, 0], by decide, rfl⟩, ?_⟩
  · exact (AsyncRead.Source.read_append 258 s.input).symm
  · exact (List.tail_suffix _).trans (List.tail_suffix _)

/-- With the password: a second read, and a second answer. -/
theorem accepted_of_password {token : Text} {s : Socket.State} :
    Ends False (do
        write [5, 2]
        let message ← Socket.read 515 (Socket.timed .authTimeout .io)
        checkPassword token message)
      { s with input := (s.input.read 258).2, faults := s.faults.tail }
      fun _ s' => Accepted token s s' := by
  refine .bind (write_ends [5, 2]) fun _ s₁ hs₁ => ?_
  refine .bind (Ends.read 515 (Socket.bears_timed _ _)) fun message s₂ ⟨hmessage, hs₂⟩ => ?_
  subst hs₂ hs₁
  -- the message is what the second read returns
  obtain rfl : message = messageOf s := hmessage
  have hlen : (messageOf s).length ≤ 515 := AsyncRead.Source.length_read_le 515 _
  refine (checkPassword_ends hlen).mono fun _ s' ⟨hs', hpassword⟩ => ?_
  subst hs'
  refine ⟨fun htoken _ => hpassword htoken, ⟨greetingOf s ++ messageOf s, ?_⟩,
    ⟨[5, 2, 1, 0], by decide, ?_⟩, ?_⟩
  · rw [List.append_assoc]
    dsimp only
    rw [messageOf, AsyncRead.Source.read_append]
    exact (AsyncRead.Source.read_append 258 s.input).symm
  · exact List.append_assoc _ _ _
  · exact (List.tail_suffix _).trans ((List.tail_suffix _).trans
      ((List.tail_suffix _).trans (List.tail_suffix _)))

/-- `socks5_auth` returns: both of its reads have a time-out. -/
theorem socks5Auth_ends (token : Text) (s : Socket.State) :
    Ends False (socks5Auth token) s fun _ s' => Accepted token s s' := by
  refine .bind (Ends.read 258 (Socket.bears_timed _ _)) fun greeting s₁ ⟨hgreeting, hs₁⟩ => ?_
  subst hs₁
  have hlen : (filled 258 0 greeting).length = 258 :=
    Buffer.length_filled (hgreeting ▸ s.input.length_read_le 258) 0
  dsimp only
  split
  · rename_i htoken
    -- without a token everyone is let in
    exact accepted_of_open fun h => absurd htoken h
  -- the slice never leaves the buffer: it ends at 258 at the latest
  have hslice : (Buffer.slice (filled 258 0 greeting) 2
      (2 + min ((filled 258 0 greeting)[1]?.getD 0).toNat 256)).Returns fun methods =>
        (0x02 ∈ methods ↔ 0x02 ∈ methodsOf greeting) := by
    rw [Buffer.slice_of_le (by omega) (by omega)]
    exact .ret (offered_iff greeting)
  refine .bind (.lift hslice) fun methods s₂ ⟨hmethods, hs₂⟩ => ?_
  subst hs₂
  rw [hgreeting] at hmethods
  split
  · exact accepted_of_password
  · rename_i hnone
    split
    · exact accepted_of_open fun _ h => hnone (hmethods.2 h)
    · exact .bind (write_ends _) fun _ _ _ => .throw _

/-! ## Whom the token keeps out -/

/-- A token that has been generated is not empty, and has no zero in it. -/
theorem generateSocksToken_ne (bytes : List.Vector UInt8 16) :
    generateSocksToken bytes ≠ [] ∧ 0 ∉ generateSocksToken bytes := by
  refine ⟨?_, fun h => absurd (Hex.isLower_of_mem_encode h) (by decide)⟩
  obtain ⟨list, hlist⟩ := bytes
  cases list with
  | nil => cases hlist
  | cons b list => exact List.cons_ne_nil _ _

/-- **The token keeps out those who offer to authenticate**: `socks5_auth` returns. If it
    accepts with a token set, then the client has sent the token exactly if it has offered
    the method and all of its message has been read; for a token that has been generated, it
    is enough that it has offered the method. -/
theorem token_protects_iff (token : Text) (s : Socket.State) :
    ∃ r s', (socks5Auth token).run.run s = .ret (r, s') ∧
      (token ≠ [] → r = .ok () →
        (Negotiated token (greetingOf s) (messageOf s) ↔
          0x02 ∈ methodsOf (greetingOf s) ∧ Complete (messageOf s))) ∧
      (∀ bytes, token = generateSocksToken bytes → r = .ok () →
        (Negotiated token (greetingOf s) (messageOf s) ↔ 0x02 ∈ methodsOf (greetingOf s))) := by
  obtain ⟨⟨r, s'⟩, hret, hr⟩ := (socks5Auth_ends token s).returns
  refine ⟨r, s', hret, fun htoken hok => ⟨fun h => ⟨h.offered, h.complete⟩, ?_⟩, ?_⟩
  · rintro ⟨hoffered, hcomplete⟩
    obtain ⟨hversion, hpassword⟩ := (hr () hok).authorised htoken hoffered
    exact negotiated_of_complete hoffered hversion hcomplete hpassword
  · rintro bytes rfl hok
    obtain ⟨hne, hnul⟩ := generateSocksToken_ne bytes
    refine ⟨fun h => h.offered, fun hoffered => ?_⟩
    obtain ⟨hversion, hpassword⟩ := (hr () hok).authorised hne hoffered
    exact negotiated_of_complete hoffered hversion (complete_of_password hpassword hne hnul)
      hpassword

/-- A client that sends `pieces`, without faults; `output` has been written to it. -/
def client (pieces : List { piece : List UInt8 // piece ≠ [] }) (output : List UInt8) :
    Socket.State where
  input := ⟨pieces.map (·.1), List.forall_mem_map.2 fun piece _ => piece.2⟩
  output := output
  faults := []

/-- A client that authenticates. -/
theorem token_protects_honest :
    let s := client [⟨[5, 1, 2], by decide⟩, ⟨[1, 1, 0x61, 2, 0x6F, 0x6B], by decide⟩] []
    (socks5Auth (ascii "ok")).run.run s = .ret (.ok (), client [] [5, 2, 1, 0]) ∧
      Negotiated (ascii "ok") (greetingOf s) (messageOf s) := by
  intro s
  have hrun : (socks5Auth (ascii "ok")).run.run s = .ret (.ok (), client [] [5, 2, 1, 0]) := by
    decide +kernel
  obtain ⟨r, s', hret, h⟩ := token_protects_iff (ascii "ok") s
  rw [hrun] at hret
  cases hret
  exact ⟨hrun, (h.1 (by decide) rfl).2 ⟨by decide, by decide⟩⟩

/-- A client that offers no authentication is let in, and so is one that sends two bytes. -/
theorem token_bypassed :
    let token := generateSocksToken (List.Vector.replicate 16 0xA5)
    let noAuth := client [⟨[5, 1, 0], by decide⟩] []
    let cut := client [⟨[5, 1], by decide⟩] []
    token ≠ [] ∧
      (socks5Auth token).run.run noAuth = .ret (.ok (), client [] [5, 0]) ∧
      (socks5Auth token).run.run cut = .ret (.ok (), client [] [5, 0]) ∧
      ¬ Negotiated token (greetingOf noAuth) (messageOf noAuth) ∧
      ¬ Negotiated token (greetingOf cut) (messageOf cut) := by
  -- neither greeting offers the method that carries the token
  refine ⟨by decide, by decide +kernel, by decide +kernel, ?_, ?_⟩
  · intro h
    exact absurd h.offered (by decide)
  · intro h
    exact absurd h.offered (by decide)

end Fogged.Spec.Socks5Auth
