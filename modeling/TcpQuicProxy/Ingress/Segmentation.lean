import TcpQuicProxy.Ingress.State
import TcpQuicProxy.Machine.Incremental
import TcpQuicProxy.Platform.InetText

/-!
# Parsing does not depend on how the stream is cut

A step of the handshake that does not wait for bytes is the same when more
bytes follow (`State.poll_push`), so the handshake, with its replies taken as
written, is a consumer of a stream in the sense of `Machine.Incremental`. Every
session of the driver walks along a path of that consumer, and two that are
settled after the same bytes have the same outcome.
-/

namespace TcpQuicProxy.Ingress

open Machine Platform Protocol Wire List State

namespace State

theorem take_drop_append {b : Bytes} {k n : Nat} (h : k + n ≤ b.length) (d : Bytes) :
    ((b ++ d).drop k).take n = (b.drop k).take n := by
  rw [drop_append_of_le_length (by omega), take_append_of_le_length (by rw [length_drop]; omega)]

theorem not_short_append {b : Bytes} {n : Nat} (h : ¬b.length < n) (d : Bytes) :
    ¬(b ++ d).length < n := by
  rw [length_append]
  omega

variable {s : State} {inet : Inet}

theorem feedSocks5Auth_push (d : Bytes) (h : s.feedSocks5Auth.2 ≠ .needRead) :
    (s.push d).feedSocks5Auth = (s.feedSocks5Auth.1.push d, s.feedSocks5Auth.2) := by
  unfold feedSocks5Auth at h ⊢
  simp only [push] at h ⊢
  by_cases hlen : s.readBuffer.length < 2
  · simp [hlen] at h
  simp only [if_neg hlen, if_neg (not_short_append hlen d),
    byteAt_append (show 0 < s.readBuffer.length by omega),
    byteAt_append (show 1 < s.readBuffer.length by omega)] at h ⊢
  generalize (byteAt s.readBuffer 1).toNat = ulen at h ⊢
  by_cases hversion : byteAt s.readBuffer 0 ≠ socks5UserPassVersion
  · simp only [if_pos hversion]
  by_cases hulen : (ulen = 0 || kMaxFieldBytes < ulen) = true
  · simp only [if_neg hversion, if_pos hulen]
  by_cases huser : s.readBuffer.length < 2 + ulen + 1
  · simp [hversion, hulen, huser] at h
  simp only [if_neg hversion, if_neg hulen, if_neg huser, if_neg (not_short_append huser d),
    byteAt_append (show 2 + ulen < s.readBuffer.length by omega)] at h ⊢
  generalize (byteAt s.readBuffer (2 + ulen)).toNat = plen at h ⊢
  by_cases hplen : (plen = 0 || kMaxFieldBytes < plen) = true
  · simp only [if_pos hplen]
  by_cases hpass : s.readBuffer.length < 2 + ulen + 1 + plen
  · simp [hplen, hpass] at h
  simp only [if_neg hplen, if_neg hpass, if_neg (not_short_append hpass d),
    take_drop_append (show 2 + ulen ≤ s.readBuffer.length by omega),
    take_drop_append (show 2 + ulen + 1 + plen ≤ s.readBuffer.length by omega),
    drop_append_of_le_length (show 2 + ulen + 1 + plen ≤ s.readBuffer.length by omega)]

theorem feedSocks5Greeting_push (d : Bytes) (h : s.feedSocks5Greeting.2 ≠ .needRead) :
    (s.push d).feedSocks5Greeting = (s.feedSocks5Greeting.1.push d, s.feedSocks5Greeting.2) := by
  unfold feedSocks5Greeting refuseMethods at h ⊢
  simp only [push] at h ⊢
  by_cases hlen : s.readBuffer.length < 2
  · simp [hlen] at h
  simp only [if_neg hlen, if_neg (not_short_append hlen d),
    byteAt_append (show 0 < s.readBuffer.length by omega),
    byteAt_append (show 1 < s.readBuffer.length by omega)] at h ⊢
  generalize (byteAt s.readBuffer 1).toNat = n at h ⊢
  by_cases hversion : byteAt s.readBuffer 0 ≠ socks5Version
  · simp only [if_pos hversion]
  by_cases hmethods : s.readBuffer.length < 2 + n
  · simp [hversion, hmethods] at h
  simp only [if_neg hversion, if_neg hmethods, if_neg (not_short_append hmethods d),
    take_drop_append (show 2 + n ≤ s.readBuffer.length by omega),
    drop_append_of_le_length (show 2 + n ≤ s.readBuffer.length by omega)]
  split_ifs <;> rfl

theorem socks5RequestLength_append {b : Bytes} {n : Nat} (h : socks5RequestLength b = some n)
    (d : Bytes) :
    socks5RequestLength (b ++ d) = some n := by
  unfold socks5RequestLength at h ⊢
  by_cases hlen : b.length < 4
  · simp [hlen] at h
  simp only [if_neg hlen, if_neg (not_short_append hlen d),
    byteAt_append (show 3 < b.length by omega)] at h ⊢
  by_cases hdomain : b.length < 5
  · split_ifs at h ⊢ <;> exact h
  · have hdomain' : ¬(b ++ d).length < 5 := by rw [length_append]; omega
    simpa only [if_neg hdomain', if_neg hdomain, byteAt_append (show 4 < b.length by omega)] using h

theorem feedSocks5Request_push (d : Bytes) (h : (s.feedSocks5Request inet).2 ≠ .needRead) :
    (s.push d).feedSocks5Request inet =
      ((s.feedSocks5Request inet).1.push d, (s.feedSocks5Request inet).2) := by
  unfold feedSocks5Request at h ⊢
  simp only [push] at h ⊢
  cases hn : socks5RequestLength s.readBuffer with
  | none => simp [hn] at h
  | some n =>
    simp only [hn, socks5RequestLength_append hn] at h ⊢
    by_cases hzero : n = 0
    · simp only [if_pos hzero]
    by_cases hlen : s.readBuffer.length < n
    · simp [hzero, hlen] at h
    simp only [if_neg hzero, if_neg hlen, if_neg (not_short_append hlen d),
      take_append_of_le_length (Nat.le_of_not_lt hlen),
      drop_append_of_le_length (Nat.le_of_not_lt hlen)]
    split <;> rfl

theorem feedHttpHeader_push (d : Bytes) (h : (s.feedHttpHeader inet).2 ≠ .needRead) :
    (s.push d).feedHttpHeader inet =
      ((s.feedHttpHeader inet).1.push d, (s.feedHttpHeader inet).2) := by
  unfold feedHttpHeader at h ⊢
  simp only [push] at h ⊢
  cases hfind : find headerTerminator s.readBuffer with
  | some headerEnd =>
    have hend : headerEnd + 4 ≤ s.readBuffer.length := find_add_length_le hfind
    simp only [find_append hfind d, take_append_of_le_length hend, drop_append_of_le_length hend]
    by_cases hcap : httpConnectHeaderCap < headerEnd + 4
    · simp only [if_pos hcap]
    simp only [if_neg hcap]
    cases parseHttpConnectRequest inet (s.readBuffer.take (headerEnd + 4)) with
    | none => rfl
    | some parsed => dsimp only; split_ifs <;> rfl
  | none =>
    simp only [hfind] at h ⊢
    by_cases hcap : httpConnectHeaderCap ≤ s.readBuffer.length
    · have hcap' : httpConnectHeaderCap ≤ (s.readBuffer ++ d).length := by rw [length_append]; omega
      simp only [if_pos hcap]
      cases hfind' : find headerTerminator (s.readBuffer ++ d) with
      | none => exact if_pos hcap'
      | some headerEnd =>
        -- a header that ends only in the new bytes is longer than the cap
        have hlate : httpConnectHeaderCap < headerEnd + 4 := by
          by_contra hearly
          have hend : headerEnd + headerTerminator.length ≤ s.readBuffer.length :=
            le_trans (show headerEnd + 4 ≤ httpConnectHeaderCap by omega) hcap
          rw [find_of_append hfind' hend] at hfind
          cases hfind
        simp only [if_pos hlate]
    · simp [hcap] at h

/-- **A step that does not wait for more bytes is the same when more bytes follow.** -/
theorem poll_push (d : Bytes) (h : (s.poll inet).2 ≠ .needRead) :
    (s.push d).poll inet = ((s.poll inet).1.push d, (s.poll inet).2) := by
  -- new bytes change nothing that is looked at before the buffer
  have hpush : (s.push d).ready = s.ready ∧ (s.push d).proto = s.proto ∧
      (s.push d).writeBuffer = s.writeBuffer ∧
      (s.push d).closeAfterWrite = s.closeAfterWrite ∧
        (s.push d).socksGreetingDone = s.socksGreetingDone ∧
      (s.push d).socksAuthPending = s.socksAuthPending := ⟨rfl, rfl, rfl, rfl, rfl, rfl⟩
  unfold poll feedSocks5 feedHttpConnect at h ⊢
  simp only [hpush]
  by_cases hready : s.ready = true
  · simp only [if_pos hready]
  by_cases hwrite : s.writeBuffer ≠ []
  · cases s.proto <;> simp only [if_neg hready, if_pos hwrite]
  by_cases hclose : s.closeAfterWrite = true
  · cases s.proto <;> simp only [if_neg hready, if_neg hwrite, if_pos hclose]
  simp only [if_neg hready, if_neg hwrite, if_neg hclose] at h ⊢
  cases hproto : s.proto with
  | socks5 =>
    simp only [hproto] at h ⊢
    by_cases hdone : (!s.socksGreetingDone) = true
    · simp only [if_pos hdone] at h ⊢
      by_cases hpending : s.socksAuthPending = true
      · simp only [if_pos hpending] at h ⊢
        exact feedSocks5Auth_push d h
      · simp only [if_neg hpending] at h ⊢
        exact feedSocks5Greeting_push d h
    · simp only [if_neg hdone] at h ⊢
      exact feedSocks5Request_push d h
  | httpConnect =>
    simp only [hproto] at h ⊢
    exact feedHttpHeader_push d h

theorem push_nil (s : State) : s.push [] = s := by
  rw [push, append_nil]

/-- The state after all pending replies have been written. -/
def flush (s : State) : State := { s with writeBuffer := [] }

theorem flush_eq_self (h : s.writeBuffer = []) : s.flush = s := by
  cases s
  subst h
  rfl

/-- Handshake steps that are left. -/
def rank (s : State) : Nat :=
  if s.ready || s.closeAfterWrite then 0
  else if s.proto = .httpConnect || s.socksGreetingDone then 1
  else if s.socksAuthPending then 2
  else 3

/-- Asking again without new bytes and without a write changes nothing. -/
theorem poll_poll (inet : Inet) (s : State) : (s.poll inet).1.poll inet = s.poll inet := by
  have hturn := poll_turn inet s
  generalize hpoll : s.poll inet = p at hturn ⊢
  obtain ⟨t, r⟩ := p
  dsimp only at hturn ⊢
  cases hturn with
  | wait | reject | pending | done => exact hpoll
  | acceptSocks5 | acceptHttp => rfl
  | refuseMethods open' proto | acceptMethod open' proto | checkUser open' proto =>
    simp [poll, feedSocks5, open'.ready, proto]
  | refuseHttp open' proto =>
    simp [poll, feedHttpConnect, open'.ready, proto, authenticationRequired, ascii]

theorem poll_of_pending (hready : s.ready = false) (hwrite : s.writeBuffer ≠ []) :
    s.poll inet = (s, .needWrite) := by
  cases hproto : s.proto <;> simp [poll, feedSocks5, feedHttpConnect, hready, hproto, hwrite]

theorem ready_of_poll (inet : Inet) (s : State) (h : (s.poll inet).2 = .readyToOpen) :
    (s.poll inet).1.ready = true := by
  have hturn := poll_turn inet s
  generalize s.poll inet = p at h hturn ⊢
  obtain ⟨t, r⟩ := p
  subst h
  cases hturn with
  | done hready => exact hready
  | acceptSocks5 | acceptHttp => rfl

theorem poll_suffix (inet : Inet) (s : State) : (s.poll inet).1.readBuffer <:+ s.readBuffer := by
  have hturn := poll_turn inet s
  generalize s.poll inet = p at hturn ⊢
  obtain ⟨t, r⟩ := p
  dsimp only at hturn ⊢
  cases hturn with
  | wait | reject | pending | done | refuseHttp => exact suffix_rfl
  | refuseMethods _ _ _ buffer | acceptMethod _ _ _ buffer | checkUser _ _ _ buffer
  | acceptSocks5 _ _ _ buffer
  | acceptHttp _ _ buffer =>
    rw [buffer]
    exact suffix_append _ _

/-! ### What a handshake has taken -/

/-- The greeting of a SOCKS5 client: a count and as many methods. -/
def IsGreeting (bytes : Bytes) : Prop :=
  ∃ n methods, bytes = socks5Version :: n :: methods ∧ methods.length = n.toNat

/-- A name and a password behind their lengths. -/
def IsCredentials (bytes : Bytes) : Prop :=
  ∃ n m username password, bytes = socks5UserPassVersion :: n :: username ++ m :: password ∧
    username.length = n.toNat ∧ password.length = m.toNat

/-- The greeting, and the credentials if the server asks for them. -/
def IsOpening (auth : ProxyAuthTable) (bytes : Bytes) : Prop :=
  ∃ greeting credentials, bytes = greeting ++ credentials ∧ IsGreeting greeting ∧
    if auth.enabled then IsCredentials credentials else credentials = []

/-- The bytes of a whole handshake, up to the last one of its request. -/
inductive Accepted (inet : Inet) (auth : ProxyAuthTable) : Proto → TunnelRequest → Bytes → Prop
  | socks5 {opening request : Bytes} {parsed : TunnelRequest} (hopening : IsOpening auth opening)
      (hparse : parseSocks5ConnectRequest inet request = some parsed) :
      Accepted inet auth .socks5 { parsed with ingressTraceProto := 1 } (opening ++ request)
  | httpConnect {header : Bytes} {headerEnd : Nat} {parsed : TunnelRequest}
      (found : find headerTerminator header = some headerEnd)
      (size : header.length = headerEnd + headerTerminator.length)
      (hparse : parseHttpConnectRequest inet header = some parsed) :
      Accepted inet auth .httpConnect { parsed with ingressTraceProto := 2 } header

/-- The bytes of the steps before the one that the handshake is at. -/
def Taken (s : State) (bytes : Bytes) : Prop :=
  match s.proto with
  | .httpConnect => bytes = []
  | .socks5 =>
    if s.socksGreetingDone then IsOpening s.auth bytes
    else if s.socksAuthPending then s.auth.enabled = true ∧ IsGreeting bytes
    else bytes = []

/-- What has been taken from the stream; a handshake that is refused is over. -/
def Consumed (inet : Inet) (s : State) (bytes : Bytes) : Prop :=
  if s.ready then Accepted inet s.auth s.proto s.parsedRequest bytes
  else s.closeAfterWrite = true ∨ s.Taken bytes

theorem InHandshake.taken (h : s.InHandshake) {bytes : Bytes} (hs : Consumed inet s bytes) :
    s.Taken bytes := by
  rw [Consumed, h.ready, if_neg Bool.false_ne_true] at hs
  exact hs.resolve_left (by rw [h.closeAfterWrite]; exact Bool.false_ne_true)

/-- A call takes the bytes of the step that it makes. -/
theorem Consumed.poll {bytes : Bytes} (h : Consumed inet s bytes) :
    ∃ taken, taken ++ (s.poll inet).1.readBuffer = s.readBuffer ∧
      Consumed inet (s.poll inet).1 (bytes ++ taken) := by
  have hturn := poll_turn inet s
  generalize s.poll inet = p at hturn ⊢
  obtain ⟨t, r⟩ := p
  dsimp only at hturn ⊢
  cases hturn with
  | wait | reject | pending | done => exact ⟨[], rfl, by rwa [append_nil]⟩
  | refuseHttp open' =>
    refine ⟨[], rfl, ?_⟩
    rw [Consumed, if_neg (by simp [open'.ready])]
    exact .inl rfl
  | refuseMethods open' _ _ buffer =>
    refine ⟨_, buffer.symm, ?_⟩
    rw [Consumed, if_neg (by simp [open'.ready])]
    exact .inl rfl
  | @acceptMethod n methods rest open' proto stage buffer length =>
    have hnone := open'.taken h
    simp only [Taken, proto, stage.1, stage.2, Bool.false_eq_true, if_false] at hnone
    subst hnone
    have hgreeting : IsGreeting (socks5Version :: n :: methods) := ⟨n, methods, rfl, length⟩
    refine ⟨_, buffer.symm, ?_⟩
    rw [Consumed, if_neg (by simp [open'.ready])]
    refine .inr ?_
    simp only [Taken, proto]
    cases hauth : s.auth.enabled with
    | false => exact ⟨_, [], (append_nil _).symm, hgreeting, by simp [hauth]⟩
    | true => exact ⟨rfl, hgreeting⟩
  | @checkUser n m username password rest open' proto stage buffer length =>
    have hgreeted := open'.taken h
    simp only [Taken, proto, stage.1, stage.2, Bool.false_eq_true, if_false, if_true] at hgreeted
    refine ⟨_, buffer.symm, ?_⟩
    rw [Consumed, if_neg (by simp [open'.ready])]
    cases hvalid : s.auth.validate username password with
    | false => exact .inl rfl
    | true =>
      simp only [Taken, proto]
      refine .inr ⟨bytes, _, rfl, hgreeted.2, ?_⟩
      rw [if_pos hgreeted.1]
      exact ⟨n, m, username, password, rfl, length⟩
  | acceptSocks5 open' proto stage buffer parse =>
    have hopening := open'.taken h
    simp only [Taken, proto, stage, if_true] at hopening
    refine ⟨_, buffer.symm, ?_⟩
    rw [Consumed, if_pos rfl]
    dsimp only
    rw [proto]
    exact .socks5 hopening parse
  | acceptHttp open' proto buffer found size parse =>
    have hnone := open'.taken h
    simp only [Taken, proto] at hnone
    subst hnone
    refine ⟨_, buffer.symm, ?_⟩
    rw [Consumed, if_pos rfl]
    dsimp only
    rw [proto]
    exact .httpConnect found size parse

end State

/-! ### The handshake as a consumer of a stream -/

/-- One step of the handshake on what is buffered, with the reply written at once. -/
def advance (inet : Inet) (y : State × Bytes) : Option (State × Bytes) :=
  let (t, result) := y.1.flush.poll inet
  if y.1.ready || result = .needRead || result = .close then none
  else some (t.flush, y.2 ++ t.writeBuffer)

variable {inet : Inet}

theorem advance_eq_some {y z : State × Bytes} :
    advance inet y = some z ↔ y.1.ready = false ∧ (y.1.flush.poll inet).2 ≠ .needRead ∧
      (y.1.flush.poll inet).2 ≠ .close ∧
        ((y.1.flush.poll inet).1.flush, y.2 ++ (y.1.flush.poll inet).1.writeBuffer) = z := by
  simp [advance, and_assoc]

theorem rank_lt_of_advance {y z : State × Bytes} (h : advance inet y = some z) :
    z.1.rank < y.1.rank := by
  obtain ⟨hready, hread, hclose, rfl⟩ := advance_eq_some.mp h
  have hturn := poll_turn inet y.1.flush
  generalize y.1.flush.poll inet = p at hread hclose hturn ⊢
  obtain ⟨t, r⟩ := p
  dsimp only at hread hclose hturn ⊢
  cases hturn with
  | wait => exact absurd rfl hread
  | reject => exact absurd rfl hclose
  | pending _ hwrite => exact absurd rfl hwrite
  | done hdone => cases hready.symm.trans hdone
  | refuseMethods open' proto stage | acceptMethod open' proto stage | checkUser open' proto stage
  | acceptSocks5 open' proto stage | refuseHttp open' proto | acceptHttp open' proto =>
    have hclosing : y.1.closeAfterWrite = false := open'.closeAfterWrite
    simp_all [rank, flush]
    try (split_ifs <;> omega)

def handshake (inet : Inet) : Incremental (State × Bytes) UInt8 where
  append y d := (y.1.push d, y.2)
  advance := advance inet
  rank y := y.1.rank
  append_nil y := by
    simp [State.push]
  append_append y d e := by
    simp [State.push]
  advance_append := by
    intro y z d h
    obtain ⟨hready, hread, hclose, rfl⟩ := advance_eq_some.mp h
    have hpush := State.poll_push d hread
    refine advance_eq_some.mpr ?_
    rw [show (y.1.push d, y.2).1.flush = y.1.flush.push d from rfl, hpush]
    exact ⟨hready, hread, hclose, rfl⟩
  rank_lt := rank_lt_of_advance

/-! ### Sessions -/

namespace Session

/-- What the handshake has come to when all pending replies count as written. -/
def view (x : Session) : State × Bytes := (x.state.flush, x.written ++ x.state.writeBuffer)

/-- `result` is what another call without new bytes would give. -/
structure Coherent (inet : Inet) (x : Session) : Prop where
  poll_eq : x.state.poll inet = (x.state, x.result)
  writeBuffer_of_ready : x.state.ready = true → x.state.writeBuffer = []

theorem coherent_start (inet : Inet) (proto : Proto) (auth : ProxyAuthTable) :
    (start proto auth).Coherent inet := by
  refine ⟨?_, fun h => absurd h Bool.false_ne_true⟩
  cases proto <;> rfl

variable {s : State} {x : Session}

theorem writeBuffer_of_poll_ready {inet : Inet} (hs : s.ready = true → s.writeBuffer = [])
    (h : (s.poll inet).1.ready = true) : (s.poll inet).1.writeBuffer = [] := by
  have hturn := poll_turn inet s
  generalize s.poll inet = p at h hturn ⊢
  obtain ⟨t, r⟩ := p
  dsimp only at h hturn ⊢
  cases hturn with
  | wait | reject | pending | done => exact hs h
  | acceptSocks5 open' | acceptHttp open' => exact open'.writeBuffer
  | refuseMethods open' | acceptMethod open' | checkUser open' | refuseHttp open' =>
    cases open'.ready.symm.trans h

/-- A call leaves the handshake where it was or takes one step of it. -/
theorem poll_view (inet : Inet) (written : Bytes) (hs : s.ready = true → s.writeBuffer = []) :
    ((s.poll inet).1.flush, written ++ (s.poll inet).1.writeBuffer) =
      (s.flush, written ++ s.writeBuffer) ∨
      advance inet (s.flush, written ++ s.writeBuffer) =
        some ((s.poll inet).1.flush, written ++ (s.poll inet).1.writeBuffer) := by
  by_cases hmoves : s.writeBuffer = [] ∧
      ¬(s.ready = true ∨ (s.poll inet).2 = .needRead ∨ (s.poll inet).2 = .close)
  · obtain ⟨hwrite, hgoes⟩ := hmoves
    simp only [not_or] at hgoes
    refine .inr (advance_eq_some.mpr ?_)
    simp only [flush_eq_self hwrite, hwrite, append_nil]
    exact ⟨by simpa using hgoes.1, hgoes.2.1, hgoes.2.2, trivial⟩
  · refine .inl ?_
    have hturn := poll_turn inet s
    generalize s.poll inet = p at hmoves hturn ⊢
    obtain ⟨t, r⟩ := p
    cases hturn with
    | wait | reject | pending | done => rfl
    | acceptSocks5 open' | acceptHttp open' | refuseMethods open' | acceptMethod open'
    | checkUser open' | refuseHttp open' => simp [open'.ready, open'.writeBuffer] at hmoves

/-- Bytes that have been written count the same as bytes that are to be written. -/
theorem view_markWriteComplete (x : Session) (bytes : Nat) :
    view { x with
      state := x.state.markWriteComplete bytes
      written := x.written ++ x.state.writeBuffer.take bytes } = x.view := by
  have htake : x.state.writeBuffer.take bytes =
      x.state.writeBuffer.take (min bytes x.state.writeBuffer.length) := by
    rcases Nat.le_total bytes x.state.writeBuffer.length with h | h
    · rw [Nat.min_eq_left h]
    · rw [Nat.min_eq_right h, take_of_length_le h, take_length]
  simp only [view, State.markWriteComplete, flush, htake, append_assoc, take_append_drop]

theorem poll_path (inet : Inet) (written : Bytes) (hs : s.ready = true → s.writeBuffer = []) :
    (handshake inet).Path (s.flush, written ++ s.writeBuffer) []
      ((s.poll inet).1.flush, written ++ (s.poll inet).1.writeBuffer) := by
  rcases poll_view inet written hs with heq | hadv
  · rw [heq]
    exact .refl
  · exact .advance .refl hadv

theorem coherent_poll {inet : Inet} (hs : s.ready = true → s.writeBuffer = []) (written : Bytes) :
    Coherent inet ⟨(s.poll inet).1, (s.poll inet).2, written⟩ :=
  ⟨poll_poll inet s, writeBuffer_of_poll_ready hs⟩

/-- **Step lemma.** An action adds what it feeds and lets the handshake advance. -/
theorem step_path {inet : Inet} (hx : x.Coherent inet) (a : Action) :
    (x.step inet a).Coherent inet ∧
      (handshake inet).Path x.view (fed [a]) (x.step inet a).view := by
  cases a with
  | feed data =>
    have hpush : (x.state.push data).ready = true → (x.state.push data).writeBuffer = [] :=
      hx.writeBuffer_of_ready
    refine ⟨coherent_poll hpush x.written, ?_⟩
    have harrive : (handshake inet).Path x.view data ((handshake inet).append x.view data) :=
      .arrive data .refl
    exact harrive.trans (poll_path inet x.written hpush)
  | write bytes =>
    have hmark : (x.state.markWriteComplete bytes).ready = true →
        (x.state.markWriteComplete bytes).writeBuffer = [] := by
      intro hready
      show x.state.writeBuffer.drop _ = []
      rw [hx.writeBuffer_of_ready hready, drop_nil]
    have hstep : x.step inet (.write bytes) =
        ⟨((x.state.markWriteComplete bytes).poll inet).1,
          ((x.state.markWriteComplete bytes).poll inet).2,
          x.written ++ x.state.writeBuffer.take bytes⟩ := by
      simp only [step, State.feed, push_nil]
    rw [hstep, ← view_markWriteComplete x bytes]
    exact ⟨coherent_poll hmark _, poll_path inet _ hmark⟩

theorem fed_append (as bs : List Action) : fed (as ++ bs) = fed as ++ fed bs := by
  induction as with
  | nil => rfl
  | cons a as ih => cases a <;> simp [fed, ih]

variable (inet : Inet) (proto : Proto) (auth : ProxyAuthTable)

theorem drive_concat (as : List Action) (a : Action) :
    drive inet proto auth (as ++ [a]) = (drive inet proto auth as).step inet a := by
  rw [drive, foldl_append]
  rfl

/-- **Run lemma.** A session has taken the handshake as far as some order of
arrivals and steps does. -/
theorem drive_path (as : List Action) :
    (drive inet proto auth as).Coherent inet ∧
      (handshake inet).Path (start proto auth).view (fed as) (drive inet proto auth as).view := by
  induction as using reverseRecOn with
  | nil => exact ⟨coherent_start inet proto auth, .refl⟩
  | append_singleton as a ih =>
    obtain ⟨hcoherent, hpath⟩ := step_path ih.1 a
    rw [drive_concat, fed_append]
    exact ⟨hcoherent, ih.2.trans hpath⟩

/-- What has been taken and what is left make up what was fed. -/
theorem consumed_drive (as : List Action) :
    ∃ consumed, consumed ++ (drive inet proto auth as).state.readBuffer = fed as ∧
      Consumed inet (drive inet proto auth as).state consumed := by
  induction as using reverseRecOn with
  | nil => exact ⟨[], rfl, .inr (by cases proto <;> rfl)⟩
  | append_singleton as a ih =>
    obtain ⟨consumed, hfed, hconsumed⟩ := ih
    rw [drive_concat, fed_append, ← hfed]
    cases a with
    | feed data =>
      obtain ⟨taken, htaken, hnext⟩ :=
        hconsumed.poll (s := (drive inet proto auth as).state.push data)
      refine ⟨consumed ++ taken,
        (append_assoc ..).trans (congrArg (consumed ++ ·) htaken |>.trans ?_), hnext⟩
      simp [State.push, fed]
    | write bytes =>
      obtain ⟨taken, htaken, hnext⟩ :=
        hconsumed.poll (s := ((drive inet proto auth as).state.markWriteComplete bytes).push [])
      refine ⟨consumed ++ taken,
        (append_assoc ..).trans (congrArg (consumed ++ ·) htaken |>.trans ?_), hnext⟩
      simp [State.push, State.markWriteComplete, fed]

variable {inet}

/-- When no reply is pending the handshake cannot go on without new bytes. -/
theorem settled_of_result (hx : x.Coherent inet) (h : x.result ≠ .needWrite) :
    x.state.writeBuffer = [] ∧ advance inet x.view = none := by
  have hwrite : x.state.writeBuffer = [] := by
    cases hready : x.state.ready with
    | true => exact hx.writeBuffer_of_ready hready
    | false =>
      by_contra hwrite
      have hpoll := hx.poll_eq.symm.trans (poll_of_pending hready hwrite)
      exact h (congrArg Prod.snd hpoll)
  refine ⟨hwrite, ?_⟩
  rw [Option.eq_none_iff_forall_not_mem]
  intro z hz
  obtain ⟨hready, hread, hclose, -⟩ := advance_eq_some.mp hz
  have hpoll : x.view.1.flush.poll inet = (x.state, x.result) := by
    rw [show x.view.1.flush = x.state.flush from rfl, flush_eq_self hwrite, hx.poll_eq]
  rw [hpoll] at hread hclose
  cases hr : x.result with
  | needRead => exact hread hr
  | needWrite => exact h hr
  | close => exact hclose hr
  | readyToOpen =>
    have hdone := ready_of_poll inet x.state (by rw [hx.poll_eq]; exact hr)
    rw [hx.poll_eq] at hdone
    cases hready.symm.trans hdone

/-- What a client and the tunnel behind the ingress see of a session. -/
structure Outcome where
  result : Result
  request : TunnelRequest
  replies : Bytes
  leftover : Bytes
  deriving DecidableEq

def outcome (x : Session) : Outcome :=
  ⟨x.result, x.state.parsedRequest, x.written, x.state.takeBufferedData⟩

/-- The outcome of a settled session can be read off the handshake. -/
theorem outcome_eq_of_view {y : Session} (hx : x.Coherent inet) (hy : y.Coherent inet)
    (hxw : x.state.writeBuffer = []) (hyw : y.state.writeBuffer = []) (h : x.view = y.view) :
    x.outcome = y.outcome := by
  obtain ⟨hstate, hreplies⟩ := Prod.mk.inj h
  rw [flush_eq_self hxw, flush_eq_self hyw] at hstate
  rw [hxw, hyw, append_nil, append_nil] at hreplies
  have hresult : x.result = y.result := by
    have hpoll := hx.poll_eq
    rw [hstate, hy.poll_eq] at hpoll
    exact (congrArg Prod.snd hpoll).symm
  simp only [outcome, hstate, hreplies, hresult]

/-- Writing out everything lets the handshake take the step it was waiting with. -/
theorem advance_of_write (h : (x.step inet
    (.write x.state.writeBuffer.length)).result = .needWrite) :
    advance inet x.view = some (x.step inet (.write x.state.writeBuffer.length)).view := by
  have hmark : x.state.markWriteComplete x.state.writeBuffer.length = x.state.flush := by
    rw [State.markWriteComplete, Nat.min_self, drop_length]
    rfl
  have hstep : x.step inet (.write x.state.writeBuffer.length) =
      ⟨(x.state.flush.poll inet).1, (x.state.flush.poll inet).2,
        x.written ++ x.state.writeBuffer⟩ := by
    simp only [step, State.feed, push_nil, hmark, take_length]
  rw [hstep] at h ⊢
  dsimp only at h
  refine advance_eq_some.mpr ⟨?_, ?_, ?_, rfl⟩
  · by_contra hready
    have hdone : x.state.flush.ready = true := (Bool.not_eq_false _).mp hready
    rw [State.poll, if_pos hdone] at h
    cases h
  · rw [show x.view.1.flush = x.state.flush from rfl, h]
    decide
  · rw [show x.view.1.flush = x.state.flush from rfl, h]
    decide

/-- Writing out what is pending, again and again, settles a session. -/
theorem exists_writes_settled (inet : Inet) : ∀ (n : Nat) (x : Session), x.view.1.rank < n →
    ∃ sizes : List Nat, ((sizes.map Action.write).foldl (step inet) x).result ≠ .needWrite := by
  intro n
  induction n with
  | zero => exact fun x hx => absurd hx (by omega)
  | succ n ih =>
    intro x hx
    by_cases hpending : (x.step inet (.write x.state.writeBuffer.length)).result = .needWrite
    · have hlt := rank_lt_of_advance (advance_of_write hpending)
      obtain ⟨sizes, hsizes⟩ := ih (x.step inet (.write x.state.writeBuffer.length)) (by omega)
      exact ⟨x.state.writeBuffer.length :: sizes, hsizes⟩
    · exact ⟨[x.state.writeBuffer.length], hpending⟩

end Session

theorem fed_map_write (sizes : List Nat) : fed (sizes.map .write) = [] := by
  induction sizes with
  | nil => rfl
  | cons _ sizes ih => exact ih

/-- Two settled sessions that were fed the same bytes have the same outcome. -/
theorem outcome_unique {proto : Proto} {auth : ProxyAuthTable} {as bs : List Action}
    (hfed : fed as = fed bs) (ha : (drive inet proto auth as).result ≠ .needWrite)
    (hb : (drive inet proto auth bs).result ≠ .needWrite) :
    (drive inet proto auth as).outcome = (drive inet proto auth bs).outcome := by
  obtain ⟨hx, hpath⟩ := Session.drive_path inet proto auth as
  obtain ⟨hy, hpath'⟩ := Session.drive_path inet proto auth bs
  rw [← hfed] at hpath'
  obtain ⟨hxw, hxadv⟩ := Session.settled_of_result hx ha
  obtain ⟨hyw, hyadv⟩ := Session.settled_of_result hy hb
  exact Session.outcome_eq_of_view hx hy hxw hyw (hpath.eq_of_settled hpath' hxadv hyadv)

/-- What comes behind a complete request is left over. -/
theorem outcome_feed_of_ready {proto : Proto} {auth : ProxyAuthTable} {as : List Action}
    (h : (drive inet proto auth as).result = .readyToOpen) (d : Bytes) :
    (drive inet proto auth (as ++ [.feed d])).outcome =
      { (drive inet proto auth as).outcome with
        leftover := (drive inet proto auth as).outcome.leftover ++ d } := by
  have hpoll := (Session.drive_path inet proto auth as).1.poll_eq
  have hwait : ((drive inet proto auth as).state.poll inet).2 ≠ .needRead := by
    rw [hpoll, h]
    nofun
  have hpush := State.poll_push d hwait
  rw [Session.drive_concat]
  simp only [Session.step, State.feed, hpush, hpoll]
  rfl

/-- **The outcome depends on the bytes and not on how they were cut.** Any session can be settled by
writing out its replies, and a settled one has the outcome of feeding the same bytes at once. What
has been taken and what is left over are the bytes that were fed: the handshake with its request,
and everything behind it. -/
theorem outcome_independent_of_segmentation (inet : Inet) (proto : Proto) (auth : ProxyAuthTable)
    (actions : List Action) :
    (∃ sizes : List Nat,
      (drive inet proto auth (actions ++ sizes.map .write)).result ≠ .needWrite) ∧
      ((drive inet proto auth actions).result ≠ .needWrite → ∀ sizes : List Nat,
        (drive inet proto auth (.feed (fed actions) :: sizes.map .write)).result ≠ .needWrite →
          (drive inet proto auth actions).outcome =
            (drive inet proto auth (.feed (fed actions) :: sizes.map .write)).outcome) ∧
      (∃ consumed, consumed ++ (drive inet proto auth actions).outcome.leftover = fed actions ∧
        Consumed inet (drive inet proto auth actions).state consumed) ∧
      ((drive inet proto auth actions).result = .readyToOpen → ∀ d,
        (drive inet proto auth (actions ++ [.feed d])).outcome =
          { (drive inet proto auth actions).outcome with
            leftover := (drive inet proto auth actions).outcome.leftover ++ d }) := by
  refine ⟨?_, ?_, Session.consumed_drive inet proto auth actions, outcome_feed_of_ready⟩
  · obtain ⟨sizes, hsizes⟩ := Session.exists_writes_settled inet _ (drive inet proto auth actions)
      (Nat.lt_succ_self _)
    exact ⟨sizes, by rwa [drive, foldl_append]⟩
  · intro hsettled sizes hwhole
    exact outcome_unique (by rw [fed, fed_map_write, append_nil]) hsettled hwhole

/-- A SOCKS5 client that sends two bytes with its request, and one behind them. -/
def earlyPayload : List Action :=
  [.feed [0x05, 0x01, 0x00], .write 2,
    .feed [0x05, 0x01, 0x00, 0x01, 0x7F, 0x00, 0x00, 0x01, 0x00, 0x50, 0x61, 0x62]]

theorem earlyPayload_left_over :
    (drive plainInet.toInet .socks5 ⟨[]⟩ earlyPayload).outcome.leftover = [0x61, 0x62] ∧
      (∃ consumed, consumed ++ [0x61, 0x62] = fed earlyPayload ∧
        Consumed plainInet.toInet
          (drive plainInet.toInet .socks5 ⟨[]⟩ earlyPayload).state consumed) ∧
      (drive plainInet.toInet .socks5 ⟨[]⟩ (earlyPayload ++ [.feed [0x63]])).outcome.leftover =
        [0x61, 0x62, 0x63] := by
  obtain ⟨-, -, hconsumed, hlater⟩ :=
    outcome_independent_of_segmentation plainInet.toInet .socks5 ⟨[]⟩ earlyPayload
  have hleft :
      (drive plainInet.toInet .socks5 ⟨[]⟩ earlyPayload).outcome.leftover = [0x61, 0x62] := by
    decide
  rw [hleft] at hconsumed
  rw [hlater (by decide), hleft]
  exact ⟨rfl, hconsumed, rfl⟩

end TcpQuicProxy.Ingress
