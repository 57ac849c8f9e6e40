import TcpQuicProxy.Ingress.Segmentation
import TcpQuicProxy.Machine.Run
import TcpQuicProxy.Platform.InetText

/-!
# An ingress client from its handshake to its tunnel

The reactor reads a client's socket one byte at a time until the handshake has its
request, opens a tunnel, writes the answer and hands the socket over; what it has not
read is left to the relay. A hang-up of the client's sending direction is reported as
an error, and an error closes a client that the reactor still has.
-/

namespace TcpQuicProxy.Ingress

open Machine Platform Protocol Wire List Option

inductive ClientEntry.Phase where
  | handshake
  | opening
  | writingOpenResponse
  /-- The tunnel has the socket. -/
  | tunnel
  /-- The client is closed, by the reactor or with a tunnel that was rejected. -/
  | closed
  deriving DecidableEq

structure ClientEntry where
  session : Session
  phase : ClientEntry.Phase
  /-- Bytes that have arrived at the socket and are not read. -/
  arrived : Bytes := []
  /-- The client has closed its sending direction. -/
  hungUp : Bool := false
  pendingWrite : Bytes := []
  openSucceeded : Bool := false
  /-- All that has arrived, and what the reactor has read of it. -/
  received : Bytes := []
  read : Bytes := []
  deriving DecidableEq

inductive ClientEntry.Action where
  | arrive (data : Bytes)
  | hangUp
  /-- Events of the socket; `written` is how much the writes take. -/
  | events (readable : Bool) (written : Option Nat) (error : Bool)
  /-- The socket fails. -/
  | fail
  | completeOpen (ok : Bool) (written : Nat)
  deriving DecidableEq

namespace ClientEntry

/-- The reactor has the client. -/
def held (c : ClientEntry) : Bool := c.phase ≠ .tunnel && c.phase ≠ .closed

def handleIngressResult (c : ClientEntry) : ClientEntry :=
  match c.session.result with
  | .needRead | .needWrite => c
  | .readyToOpen => { c with phase := .opening }
  | .close => { c with phase := .closed }

/-- `HandleClientRead` on what has arrived; the reactor's buffer has room for one byte. -/
def handleClientRead (inet : Inet) (c : ClientEntry) : Bytes → ClientEntry
  | [] => if c.hungUp then { c with phase := .closed } else c
  | b :: rest =>
    if c.phase ≠ .handshake then { c with arrived := rest, read := c.read ++ [b] }
    else
      let t :=
        { c with
          session := c.session.step inet (.feed [b]), arrived := rest, read := c.read ++ [b] }
      if t.session.result = .needRead then handleClientRead inet t rest else t.handleIngressResult

/-- The loop of `HandleClientWrite`, which sends `bytes` in all. -/
def handleClientWrite (inet : Inet) (c : ClientEntry) (bytes : Nat) : ClientEntry :=
  match c.phase with
  | .handshake => handleIngressResult { c with session := c.session.step inet (.write bytes) }
  | _ =>
    if c.pendingWrite.drop bytes = [] then
      { c with pendingWrite := [], phase := if c.openSucceeded then .tunnel else .closed }
    else { c with pendingWrite := c.pendingWrite.drop bytes }

/-- The reactor has asked for the events; a hang-up it is told of in any case. -/
def reports (c : ClientEntry) (readable : Bool) (written : Option Nat) (error : Bool) : Bool :=
  c.held && (!readable || (c.phase = .handshake && c.session.result = .needRead)) &&
    (!written.isSome || (c.phase = .handshake && c.session.result = .needWrite) ||
      c.phase = .writingOpenResponse) &&
    (!error || c.hungUp)

/-- `HandleClientEvents`: reading, writing, then the error. -/
def handleClientEvents (inet : Inet) (c : ClientEntry) (readable : Bool) (written : Option Nat)
    (error : Bool) : ClientEntry :=
  let c := if readable then handleClientRead inet c c.arrived else c
  let c := (written.map fun bytes => if c.held then c.handleClientWrite inet bytes else c).getD c
  if error && c.held then { c with phase := .closed } else c

/-- `CompleteClientOpen`, and `TimeoutClientOpen` as an open that fails; `response` is the answer
to the client, empty for a port forward. -/
def completeClientOpen (inet : Inet) (response : Bool → Bytes) (c : ClientEntry) (ok : Bool)
    (written : Nat) : ClientEntry :=
  handleClientWrite inet
    { c with phase := .writingOpenResponse, openSucceeded := ok, pendingWrite := response ok }
      written

def step (inet : Inet) (response : Bool → Bytes) (c : ClientEntry) : Action → Option ClientEntry
  | .arrive data => if c.hungUp then
      none else some { c with arrived := c.arrived ++ data, received := c.received ++ data }
  | .hangUp => some { c with hungUp := true }
  | .events readable written error =>
    if c.reports readable written error then
      some (c.handleClientEvents inet readable written error) else none
  | .fail => if c.held then some { c with phase := .closed } else none
  | .completeOpen ok written =>
    if c.phase = .opening then some (c.completeClientOpen inet response ok written) else none

/-- An accepted client; the open of a port forward starts at once. -/
def start (portForward : Bool) (proto : Proto) (auth : ProxyAuthTable) : ClientEntry where
  session := .start proto auth
  phase := if portForward then .opening else .handshake

end ClientEntry

/-! ### Sessions that have read a part of a request -/

/-- The session has been fed these bytes. -/
def Session.Fed (inet : Inet) (proto : Proto) (auth : ProxyAuthTable) (x : Session)
    (bytes : Bytes) : Prop :=
  ∃ as, x = drive inet proto auth as ∧ fed as = bytes

/-- The session waits neither for bytes nor for a write. -/
structure Session.Settled (x : Session) : Prop where
  read : x.result ≠ .needRead
  write : x.result ≠ .needWrite

/-- The bytes of a whole handshake with its request. -/
def Complete (inet : Inet) (proto : Proto) (auth : ProxyAuthTable) (request : Bytes) : Prop :=
  ∃ x : Session, x.Fed inet proto auth request ∧ x.result = .readyToOpen ∧ x.state.readBuffer = []

namespace Session

variable {inet : Inet} {proto : Proto} {auth : ProxyAuthTable} {x y : Session} {d e : Bytes}

section

variable (h : x.Fed inet proto auth d)
include h

theorem Fed.coherent : x.Coherent inet := by
  obtain ⟨as, rfl, -⟩ := h
  exact (drive_path inet proto auth as).1

theorem Fed.feed (e : Bytes) : (x.step inet (.feed e)).Fed inet proto auth (d ++ e) := by
  obtain ⟨as, rfl, rfl⟩ := h
  exact ⟨as ++ [.feed e], (drive_concat inet proto auth as _).symm, by simp [fed_append, fed]⟩

theorem Fed.write (bytes : Nat) : (x.step inet (.write bytes)).Fed inet proto auth d := by
  obtain ⟨as, rfl, rfl⟩ := h
  exact ⟨as ++ [.write bytes], (drive_concat inet proto auth as _).symm, by simp [fed_append, fed]⟩

end

theorem settled_of_ready (h : x.result = .readyToOpen) : x.Settled :=
  ⟨by rw [h]; nofun, by rw [h]; nofun⟩

/-- A settled session that is fed on keeps its result and what comes. -/
theorem settled_push {q : Bytes} (hx : x.Fed inet proto auth d)
    (hy : y.Fed inet proto auth (d ++ q)) (hsettled : x.Settled) (hsettled' : y.Settled) :
    x.result = y.result ∧ x.state.readBuffer ++ q = y.state.readBuffer := by
  have hpoll := hx.coherent.poll_eq
  have hpush :=
    State.poll_push q (show (x.state.poll inet).2 ≠ .needRead by rw [hpoll]; exact hsettled.read)
  have hstep : x.step inet (.feed q) = { x with state := x.state.push q } := by
    rw [hpoll] at hpush
    dsimp only [step, State.feed]
    rw [hpush]
  obtain ⟨as, has, hfed⟩ := hx.feed q
  obtain ⟨bs, rfl, hfed'⟩ := hy
  rw [hstep] at has
  have houtcome := outcome_unique (hfed.trans hfed'.symm) (has ▸ hsettled.write) hsettled'.write
  rw [← has] at houtcome
  exact ⟨congrArg Outcome.result houtcome, congrArg Outcome.leftover houtcome⟩

/-- Two settled sessions that were fed parts of one stream come to the same result, and if neither
has bytes left they were fed the same ones. -/
theorem settled_agree {stream : Bytes} (hx : x.Fed inet proto auth d) (hy : y.Fed inet proto auth e)
    (hd : d <+: stream) (he : e <+: stream) (hsettled : x.Settled) (hsettled' : y.Settled) :
    x.result = y.result ∧ (x.state.readBuffer = [] → y.state.readBuffer = [] → d = e) := by
  obtain ⟨q, rfl⟩ | ⟨q, rfl⟩ := prefix_or_prefix_of_prefix hd he
  · obtain ⟨hresult, hleft⟩ := settled_push hx hy hsettled hsettled'
    refine ⟨hresult, fun hnil hnil' => ?_⟩
    rw [hnil, hnil', nil_append] at hleft
    rw [hleft, append_nil]
  · obtain ⟨hresult, hleft⟩ := settled_push hy hx hsettled' hsettled
    refine ⟨hresult.symm, fun hnil hnil' => ?_⟩
    rw [hnil, hnil', nil_append] at hleft
    rw [hleft, append_nil]

end Session

/-! ### Reading byte by byte -/

namespace State

/-- What one byte more than was waited for leaves: nothing, unless the handshake is refused. -/
def Whole (p : State × Result) : Prop :=
  p.2 = .needRead ∨ p.2 = .close ∨ p.2 = .needWrite ∧ p.1.closeAfterWrite = true ∨
    p.1.readBuffer = []

variable {inet : Inet} {s : State} {b : UInt8}

theorem feedSocks5Greeting_whole (h : s.feedSocks5Greeting.2 = .needRead) :
    Whole (s.push [b]).feedSocks5Greeting := by
  have hshort : s.readBuffer.length < 2 + (byteAt (s.readBuffer ++ [b]) 1).toNat := by
    by_contra hlong
    have hbyte :
        byteAt (s.readBuffer ++ [b]) 1 = byteAt s.readBuffer 1 := byteAt_append (by omega) [b]
    rw [hbyte] at hlong
    simp only [feedSocks5Greeting, refuseMethods, if_neg hlong,
      if_neg (show ¬s.readBuffer.length < 2 by omega)] at h
    split_ifs at h
  have hdrop : (s.readBuffer ++ [b]).drop (2 + (byteAt (s.readBuffer ++ [b]) 1).toNat) = [] :=
    drop_eq_nil_of_le (by rw [length_append, length_singleton]; omega)
  simp only [feedSocks5Greeting, refuseMethods, push, hdrop]
  split_ifs <;> simp [Whole]

theorem feedSocks5Auth_whole (h : s.feedSocks5Auth.2 = .needRead) :
    Whole (s.push [b]).feedSocks5Auth := by
  have hshort : s.readBuffer.length < 2 + (byteAt (s.readBuffer ++ [b]) 1).toNat + 1 +
      (byteAt (s.readBuffer ++ [b]) (2 + (byteAt (s.readBuffer ++ [b]) 1).toNat)).toNat := by
    by_contra hlong
    have huser :
        byteAt (s.readBuffer ++ [b]) 1 = byteAt s.readBuffer 1 := byteAt_append (by omega) [b]
    rw [huser] at hlong
    have hpass : byteAt (s.readBuffer ++ [b]) (2 + (byteAt s.readBuffer 1).toNat) =
        byteAt s.readBuffer (2 + (byteAt s.readBuffer 1).toNat) := byteAt_append (by omega) [b]
    rw [hpass] at hlong
    simp only [feedSocks5Auth, if_neg hlong, if_neg (show ¬s.readBuffer.length < 2 by omega),
      if_neg (show ¬s.readBuffer.length < 2 + (byteAt s.readBuffer 1).toNat + 1 by omega)] at h
    split_ifs at h
  have hdrop : (s.readBuffer ++ [b]).drop (2 + (byteAt (s.readBuffer ++ [b]) 1).toNat + 1 +
      (byteAt (s.readBuffer ++ [b]) (2 + (byteAt (s.readBuffer ++ [b]) 1).toNat)).toNat) = [] :=
    drop_eq_nil_of_le (by rw [length_append, length_singleton]; omega)
  simp only [feedSocks5Auth, push, hdrop]
  split_ifs <;> simp [Whole]

/-- The length of a request is known before its last byte. -/
theorem socks5RequestLength_short {data : Bytes} {n : Nat} (h : socks5RequestLength data = none)
    (hn : socks5RequestLength (data ++ [b]) = some n) (hzero : n ≠ 0) : data.length < n := by
  have hdata : data.length < 5 := by
    unfold socks5RequestLength at h
    split_ifs at h <;> omega
  unfold socks5RequestLength at hn
  split_ifs at hn <;> cases hn <;> omega

theorem feedSocks5Request_whole (h : (s.feedSocks5Request inet).2 = .needRead) :
    Whole ((s.push [b]).feedSocks5Request inet) := by
  cases hn : socks5RequestLength (s.readBuffer ++ [b]) with
  | none => exact .inl (by simp [feedSocks5Request, push, hn])
  | some n =>
    by_cases hzero : n = 0
    · exact .inr (.inl (by simp [feedSocks5Request, push, hn, hzero]))
    have hshort : s.readBuffer.length < n := by
      cases hm : socks5RequestLength s.readBuffer with
      | none => exact socks5RequestLength_short hm hn hzero
      | some m =>
        obtain rfl : m = n := some.inj ((socks5RequestLength_append hm [b]).symm.trans hn)
        by_contra hlong
        simp only [feedSocks5Request, hm, if_neg hzero, if_neg hlong] at h
        split at h <;> cases h
    have hdrop : (s.readBuffer ++ [b]).drop n = [] :=
      drop_eq_nil_of_le (by rw [length_append, length_singleton]; omega)
    simp only [feedSocks5Request, push, hn, if_neg hzero, hdrop]
    split_ifs
    · exact .inl rfl
    · split <;> simp [Whole]

theorem feedHttpHeader_whole (h : (s.feedHttpHeader inet).2 = .needRead) :
    Whole ((s.push [b]).feedHttpHeader inet) := by
  have hnone : find headerTerminator s.readBuffer = none := by
    cases hfind : find headerTerminator s.readBuffer with
    | none => rfl
    | some headerEnd =>
      simp only [feedHttpHeader, hfind] at h
      split_ifs at h <;> split at h <;> cases h
  cases hfind : find headerTerminator (s.push [b]).readBuffer with
  | none =>
    simp only [feedHttpHeader, hfind]
    split_ifs <;> simp [Whole]
  | some headerEnd =>
    have hlate : s.readBuffer.length < headerEnd + 4 := by
      by_contra hearly
      rw [find_of_append hfind (Nat.le_of_not_lt hearly)] at hnone
      cases hnone
    have hdrop : (s.push [b]).readBuffer.drop (headerEnd + 4) = [] :=
      drop_eq_nil_of_le (by rw [push, length_append, length_singleton]; omega)
    simp only [feedHttpHeader, hfind, hdrop]
    split_ifs
    · simp [Whole]
    all_goals split <;> simp [Whole]

/-- A handshake that waits for bytes and gets one has none left when it goes on. -/
theorem poll_whole (h : (s.poll inet).2 = .needRead) : Whole ((s.push [b]).poll inet) := by
  unfold poll at h ⊢
  rw [show (s.push [b]).ready = s.ready from rfl, show (s.push [b]).proto = s.proto from rfl]
  split_ifs at h ⊢ with hready
  cases hproto : s.proto with
  | socks5 =>
    simp only [hproto, feedSocks5] at h ⊢
    rw [show (s.push [b]).writeBuffer = s.writeBuffer
      from rfl, show (s.push [b]).closeAfterWrite = s.closeAfterWrite from rfl,
      show (s.push [b]).socksGreetingDone = s.socksGreetingDone from rfl,
      show (s.push [b]).socksAuthPending = s.socksAuthPending from rfl]
    split_ifs at h ⊢
    · exact feedSocks5Auth_whole h
    · exact feedSocks5Greeting_whole h
    · exact feedSocks5Request_whole h
  | httpConnect =>
    simp only [hproto, feedHttpConnect] at h ⊢
    rw [show (s.push [b]).writeBuffer = s.writeBuffer
      from rfl, show (s.push [b]).closeAfterWrite = s.closeAfterWrite from rfl]
    split_ifs at h ⊢
    exact feedHttpHeader_whole h

theorem poll_of_closing (hready : s.ready = false) (hclose : s.closeAfterWrite = true) :
    Whole (s.poll inet) := by
  cases hproto : s.proto <;>
    simp only [poll, hready, hproto, feedSocks5, feedHttpConnect, hclose] <;> split_ifs <;>
    simp_all [Whole]

end State

namespace Session

variable {inet : Inet} {x : Session}

/-- A session reads no byte past the step of the handshake that it is in. -/
def Whole (x : Session) : Prop := State.Whole (x.state, x.result)

theorem whole_feed (hx : x.Coherent inet) (hread : x.result = .needRead) (b : UInt8) :
    (x.step inet (.feed [b])).Whole :=
  State.poll_whole (by rw [hx.poll_eq]; exact hread)

theorem whole_write (hx : x.Coherent inet) (h : x.Whole) (hwrite : x.result = .needWrite)
    (bytes : Nat) :
    (x.step inet (.write bytes)).Whole := by
  have hready : x.state.ready = false := by
    by_contra hready
    have hpoll := hx.poll_eq
    rw [State.poll, if_pos (by simpa using hready)] at hpoll
    cases (congrArg Prod.snd hpoll).trans hwrite
  show State.Whole (((x.state.markWriteComplete bytes).push []).poll inet)
  rw [State.push_nil]
  obtain h | h | ⟨-, h⟩ | h := h
  · cases hwrite.symm.trans h
  · cases hwrite.symm.trans h
  · exact State.poll_of_closing hready h
  · have hsuffix := State.poll_suffix inet (x.state.markWriteComplete bytes)
    rw [show (x.state.markWriteComplete bytes).readBuffer = [] from h] at hsuffix
    exact .inr (.inr (.inr (suffix_nil.mp hsuffix)))

end Session

/-! ### Runs of a client -/

namespace ClientEntry

variable {inet : Inet} {response : Bool → Bytes} {proto : Proto} {auth : ProxyAuthTable}
  {portForward : Bool} {c t : ClientEntry}
  {a : Action}

/-- The handshake was fed what the reactor has read. -/
structure Reading (inet : Inet) (proto : Proto) (auth : ProxyAuthTable) (portForward : Bool)
    (c : ClientEntry) : Prop where
  session : c.session.Fed inet proto auth c.read
  whole : c.session.Whole
  bytes : c.read ++ c.arrived = c.received
  opened : c.phase ≠ .handshake → c.phase ≠ .closed → portForward = false →
    c.session.result = .readyToOpen

section

variable (h : Reading inet proto auth portForward c)
include h

theorem Reading.read_of_received : c.read <+: c.received := by
  rw [← h.bytes]
  exact prefix_append _ _

theorem Reading.close : Reading inet proto auth portForward { c with phase := .closed } :=
  ⟨h.session, h.whole, h.bytes, fun _ hopen => absurd rfl hopen⟩

theorem Reading.handleIngressResult :
    Reading inet proto auth portForward c.handleIngressResult := by
  cases hresult : c.session.result <;> simp only [ClientEntry.handleIngressResult, hresult]
  case needRead | needWrite => exact h
  case readyToOpen => exact ⟨h.session, h.whole, h.bytes, fun _ _ _ => hresult⟩
  case close => exact h.close

theorem Reading.readByte (hphase : c.phase = .handshake) (hread : c.session.result = .needRead)
    {b : UInt8} {rest : Bytes} (harrived : c.arrived = b :: rest) :
    Reading inet proto auth portForward
      { c with
        session := c.session.step inet (.feed [b]), arrived := rest, read := c.read ++ [b] } := by
  refine ⟨h.session.feed [b], Session.whole_feed h.session.coherent hread b, ?_,
    fun hne => absurd hphase hne⟩
  rw [← h.bytes, harrived]
  simp

end

/-- A call in the handshake moves the session on and does what its result asks for. -/
def Handled (inet : Inet) (proto : Proto) (auth : ProxyAuthTable) (portForward : Bool)
    (c t : ClientEntry) : Prop :=
  ∃ d, Reading inet proto auth portForward d ∧ d.phase = .handshake ∧ d.received = c.received ∧
    d.openSucceeded = c.openSucceeded ∧
      (t = d ∨ t = d.handleIngressResult ∨ c.hungUp = true ∧ t = { d with phase := .closed })

theorem handled_read (data : Bytes) :
    ∀ {c : ClientEntry}, Reading inet proto auth portForward c → c.arrived = data →
    c.phase = .handshake → c.session.result = .needRead →
    Handled inet proto auth portForward c (handleClientRead inet c data) := by
  induction data with
  | nil =>
    intro c h _ hphase _
    refine ⟨c, h, hphase, rfl, rfl, ?_⟩
    unfold handleClientRead
    split
    next hhung => exact .inr (.inr ⟨hhung, rfl⟩)
    · exact .inl rfl
  | cons b rest ih =>
    intro c h harrived hphase hread
    have hbyte := h.readByte hphase hread harrived
    unfold handleClientRead
    rw [if_neg (not_not.mpr hphase)]
    dsimp only
    split
    next hmore => exact ih hbyte rfl hphase hmore
    · exact ⟨_, hbyte, hphase, rfl, rfl, .inr (.inl rfl)⟩

theorem handled_write (h : Reading inet proto auth portForward c) (hphase : c.phase = .handshake)
    (hwrite : c.session.result = .needWrite) (bytes : Nat) :
    Handled inet proto auth portForward c (c.handleClientWrite inet bytes) := by
  refine ⟨{ c with session := c.session.step inet (.write bytes) }, ⟨h.session.write bytes,
    Session.whole_write h.session.coherent h.whole hwrite bytes, h.bytes,
      fun hne => absurd hphase hne⟩, hphase, rfl, rfl,
    .inr (.inl ?_)⟩
  simp only [handleClientWrite, hphase]

/-- What the events of a socket come to before the error is looked at: a call in the handshake, a
write of the answer, or nothing. -/
theorem events_cases {readable : Bool} {written : Option Nat} {error : Bool}
    (h : Reading inet proto auth portForward c)
    (hreports : c.reports readable written error = true) :
    (error = true → c.hungUp = true) ∧
      ∃ d, (d = c ∨ c.phase = .handshake ∧ Handled inet proto auth portForward c d ∨
      c.phase = .writingOpenResponse ∧ ∃ bytes, d = c.handleClientWrite inet bytes) ∧
      c.handleClientEvents inet readable written error = if error &&
        d.held then { d with phase := .closed } else d := by
  simp only [reports, Bool.and_eq_true, Bool.or_eq_true, Bool.not_eq_true',
    decide_eq_true_eq] at hreports
  obtain ⟨⟨⟨hheld, hreadable⟩, hwritten⟩, herror⟩ := hreports
  refine ⟨by grind, _, ?_, rfl⟩
  cases written with
  | none =>
    cases readable with
    | false => exact .inl rfl
    | true =>
      obtain ⟨hphase, hread⟩ : c.phase = .handshake ∧ c.session.result = .needRead := by
        simpa using hreadable
      exact .inr (.inl ⟨hphase, handled_read _ h rfl hphase hread⟩)
  | some bytes =>
    have hidle : readable = false := by grind
    simp only [hidle, Bool.false_eq_true, if_false, map_some, getD_some, if_pos hheld]
    obtain (hwritten | ⟨hphase, hwrite⟩) | hphase := hwritten
    · cases hwritten
    · exact .inr (.inl ⟨hphase, handled_write h hphase hwrite bytes⟩)
    · exact .inr (.inr ⟨hphase, bytes, rfl⟩)

theorem Handled.reading (h : Handled inet proto auth portForward c t) :
    Reading inet proto auth portForward t := by
  obtain ⟨d, hd, -, -, -, rfl | rfl | ⟨-, rfl⟩⟩ := h
  · exact hd
  · exact hd.handleIngressResult
  · exact hd.close

theorem Reading.writeAnswer (h : Reading inet proto auth portForward c)
    (hphase : c.phase = .writingOpenResponse) (bytes : Nat) :
    Reading inet proto auth portForward (c.handleClientWrite inet bytes) := by
  have hopened := h.opened (by rw [hphase]; nofun) (by rw [hphase]; nofun)
  simp only [handleClientWrite, hphase]
  split
  · exact ⟨h.session, h.whole, h.bytes, fun _ _ => hopened⟩
  · exact ⟨h.session, h.whole, h.bytes, fun _ _ => hopened⟩

theorem Reading.answer (h : Reading inet proto auth portForward c) (hphase : c.phase = .opening)
    (ok : Bool) :
    Reading inet proto auth portForward
      { c with phase := .writingOpenResponse, openSucceeded := ok, pendingWrite := response ok } :=
  ⟨h.session, h.whole, h.bytes, fun _ _ => h.opened (by rw [hphase]; nofun) (by rw [hphase]; nofun)⟩

theorem Reading.step (h : Reading inet proto auth portForward c)
    (hs : c.step inet response a = some t) :
    Reading inet proto auth portForward t := by
  cases a <;>
    simp only [ClientEntry.step, ite_none_right_eq_some, ite_none_left_eq_some, some.injEq] at hs
  case arrive data =>
    obtain ⟨-, rfl⟩ := hs
    exact ⟨h.session, h.whole, by simp [← h.bytes], h.opened⟩
  case hangUp =>
    subst hs
    exact ⟨h.session, h.whole, h.bytes, h.opened⟩
  case events readable written error =>
    obtain ⟨hreports, rfl⟩ := hs
    obtain ⟨-, d, hd, heq⟩ := events_cases h hreports
    rw [heq]
    have hreading : Reading inet proto auth portForward d := by
      obtain rfl | ⟨-, hhandled⟩ | ⟨hphase, bytes, rfl⟩ := hd
      · exact h
      · exact hhandled.reading
      · exact h.writeAnswer hphase bytes
    split
    · exact hreading.close
    · exact hreading
  case fail =>
    obtain ⟨-, rfl⟩ := hs
    exact h.close
  case completeOpen ok written =>
    obtain ⟨hphase, rfl⟩ := hs
    exact (h.answer hphase ok).writeAnswer rfl written

theorem reading_start (inet : Inet) (proto : Proto) (auth : ProxyAuthTable) (portForward : Bool) :
    Reading inet proto auth portForward (start portForward proto auth) := by
  refine ⟨⟨[], rfl, rfl⟩, .inl rfl, rfl, fun hphase _ hproxy => ?_⟩
  rw [hproxy] at hphase
  exact absurd rfl hphase

/-- A SOCKS5 client that sends its request and two bytes of payload at once. -/
def eagerClient : List Action :=
  [.arrive [0x05, 0x01, 0x00], .events true none false, .events false (some 2) false,
    .arrive [0x05, 0x01, 0x00, 0x01, 0x7F, 0x00, 0x00, 0x01, 0x00, 0x50, 0x61, 0x62],
      .events true none false,
    .completeOpen true 1, .events false (some 9) false]

def eagerRequest : Bytes :=
  [0x05, 0x01, 0x00, 0x05, 0x01, 0x00, 0x01, 0x7F, 0x00, 0x00, 0x01, 0x00, 0x50]

theorem eagerRequest_complete : Complete plainInet.toInet .socks5 ⟨[]⟩ eagerRequest :=
  ⟨_, ⟨[.feed [0x05, 0x01, 0x00], .write 2,
    .feed [0x05, 0x01, 0x00, 0x01, 0x7F, 0x00, 0x00, 0x01, 0x00, 0x50]], rfl, rfl⟩,
    by decide, by decide⟩

/-! ### A client that closes its sending direction -/

/-- The socket does not fail and the open succeeds. -/
def Action.undisturbed : Action → Bool
  | .fail => false
  | .completeOpen ok _ => ok
  | _ => true

/-- The reactor is told nothing of a client that has closed its sending direction. -/
def unhung (c : ClientEntry) : Action → Bool
  | .events .. => !c.hungUp
  | _ => true

/-- The client is not closed, and an open that has succeeded is on its way to the tunnel. -/
structure Kept (stream : Bytes) (portForward : Bool) (c : ClientEntry) : Prop where
  alive : c.received <+: stream → c.phase ≠ .closed
  replying : c.phase = .writingOpenResponse → c.openSucceeded = true ∧ c.pendingWrite ≠ []
  handed : c.openSucceeded = true → c.phase ≠ .handshake ∧ c.phase ≠ .opening
  direct : portForward = true → c.phase ≠ .handshake

variable {stream : Bytes}

theorem Reading.not_close (h : Reading inet proto auth portForward c) {request : Bytes}
    (hcomplete : Complete inet proto auth request) (hrequest : request <+: stream)
    (hreceived : c.received <+: stream) : c.session.result ≠ .close := by
  intro hclose
  obtain ⟨x, hx, hready, -⟩ := hcomplete
  have hagree := (Session.settled_agree h.session hx (h.read_of_received.trans hreceived) hrequest
    ⟨by rw [hclose]; nofun, by rw [hclose]; nofun⟩ (Session.settled_of_ready hready)).1
  rw [hclose, hready] at hagree
  cases hagree

theorem Kept.handled (h : Kept stream portForward c)
    (haccepts : portForward = false →
      ∃ request, Complete inet proto auth request ∧ request <+: stream)
    (hphase : c.phase = .handshake) (hhung : c.hungUp = false)
    (hhandled : Handled inet proto auth portForward c t) :
    Kept stream portForward t := by
  have hproxy : portForward = false := by
    by_contra hdirect
    exact h.direct (by simpa using hdirect) hphase
  have hopen : c.openSucceeded = false := by
    by_contra hopen
    exact (h.handed (by simpa using hopen)).1 hphase
  obtain ⟨request, hcomplete, hrequest⟩ := haccepts hproxy
  obtain ⟨d, hd, hdphase, -, hdopen, rfl | rfl | ⟨hhung', -⟩⟩ := hhandled
  · exact ⟨by simp [hdphase], by simp [hdphase], by simp [hdopen, hopen], by simp [hproxy]⟩
  · have hclose := hd.not_close hcomplete hrequest
    cases hresult : d.session.result <;> simp only [handleIngressResult, hresult]
    case close =>
      exact ⟨fun hreceived => absurd hresult (hclose hreceived), by simp,
        by simp [hdopen, hopen], by simp⟩
    all_goals exact ⟨by simp [hdphase], by simp [hdphase], by simp [hdopen, hopen], by
      simp [hproxy]⟩
  · cases hhung.symm.trans hhung'

theorem kept_writeAnswer (hphase : c.phase = .writingOpenResponse) (hopen : c.openSucceeded = true)
    (bytes : Nat) :
    Kept stream portForward (c.handleClientWrite inet bytes) := by
  simp only [handleClientWrite, hphase, hopen, if_true]
  split
  · exact ⟨by simp, by simp, by simp, by simp⟩
  next hleft => exact ⟨by simp, fun _ => ⟨rfl, hleft⟩, by simp, by simp⟩

theorem Kept.step (h : Kept stream portForward c) (hreading : Reading inet proto auth portForward c)
    (haccepts : portForward = false →
      ∃ request, Complete inet proto auth request ∧ request <+: stream)
    (hunhung : c.unhung a = true) (hcalm : a.undisturbed = true)
    (hs : c.step inet response a = some t) : Kept stream portForward t := by
  cases a <;>
    simp only [ClientEntry.step, ite_none_right_eq_some, ite_none_left_eq_some, some.injEq] at hs
  case arrive data =>
    obtain ⟨-, rfl⟩ := hs
    exact ⟨fun hreceived => h.alive ((prefix_append _ _).trans hreceived), h.replying,
      h.handed, h.direct⟩
  case hangUp =>
    subst hs
    exact ⟨h.alive, h.replying, h.handed, h.direct⟩
  case events readable written error =>
    have hhung : c.hungUp = false := by simpa [unhung] using hunhung
    obtain ⟨hreports, rfl⟩ := hs
    obtain ⟨herror, d, hd, heq⟩ := events_cases hreading hreports
    have hquiet : error = false := by
      by_contra herror'
      exact absurd (hhung.symm.trans (herror (by simpa using herror'))) Bool.false_ne_true
    rw [heq, hquiet, Bool.false_and, if_neg Bool.false_ne_true]
    obtain rfl | ⟨hphase, hhandled⟩ | ⟨hphase, bytes, rfl⟩ := hd
    · exact h
    · exact h.handled haccepts hphase hhung hhandled
    · exact kept_writeAnswer hphase (h.replying hphase).1 bytes
  case fail => cases hcalm
  case completeOpen ok written =>
    obtain ⟨-, rfl⟩ := hs
    exact kept_writeAnswer rfl hcalm written

/-- **A client is handed to its tunnel.** If the socket does not fail, the open succeeds and the
reactor is told nothing after the client has closed its sending direction, a client whose stream
begins with a request is not closed, and from the open on it is only the answer that is still to
be written before the tunnel has the socket. -/
theorem client_handed_over (inet : Inet) (response : Bool → Bytes) (portForward : Bool)
    (proto : Proto) (auth : ProxyAuthTable) (stream : Bytes)
    (haccepts : portForward = false →
      ∃ request, Complete inet proto auth request ∧ request <+: stream) (actions : List Action)
    (t : ClientEntry)
    (hmeets : Meets (step inet response) (fun c a => c.unhung a = true ∧ a.undisturbed = true)
      (start portForward proto auth) actions)
    (hrun : run (step inet response) (start portForward proto auth) actions = some t)
    (hstream : t.received <+: stream) :
    t.phase ≠ .closed ∧
      (t.openSucceeded = true →
        t.phase = .tunnel ∨ t.phase = .writingOpenResponse ∧ t.pendingWrite ≠ []) := by
  have hstart : Kept stream portForward (start portForward proto auth) := by
    cases portForward <;> exact ⟨nofun, nofun, nofun, nofun⟩
  have hkept :=
    (@invariant_of_meets _ _ _ _
      (fun c => Reading inet proto auth portForward c ∧ Kept stream portForward c)
    (fun _ _ _ h hc hs => ⟨h.1.step hs, h.2.step h.1 haccepts hc.1 hc.2 hs⟩) _ _ _
    ⟨reading_start inet proto auth portForward, hstart⟩ hmeets hrun).2
  have halive := hkept.alive hstream
  refine ⟨halive, fun hopen => ?_⟩
  have hhanded := hkept.handed hopen
  cases hphase : t.phase with
  | handshake => exact absurd hphase hhanded.1
  | opening => exact absurd hphase hhanded.2
  | writingOpenResponse => exact .inr ⟨rfl, (hkept.replying hphase).2⟩
  | tunnel => exact .inl rfl
  | closed => exact absurd hphase halive

theorem eagerClient_handed_over :
    ∃ t, run (step plainInet.toInet fun _ => [0x05, 0x00]) (start false .socks5 ⟨[]⟩)
      (eagerClient ++ [.hangUp]) = some t ∧ t.openSucceeded = true ∧ t.phase ≠ .closed ∧
    (t.openSucceeded = true →
      t.phase = .tunnel ∨ t.phase = .writingOpenResponse ∧ t.pendingWrite ≠ []) := by
  refine run_observed (f := fun t => (t.openSucceeded, t.received))
    (o := (true, eagerRequest ++ [0x61, 0x62])) (by decide) fun t hrun hobs => ?_
  simp only [Prod.mk.injEq] at hobs
  exact ⟨hobs.1, client_handed_over plainInet.toInet _ false .socks5 ⟨[]⟩
    (eagerRequest ++ [0x61, 0x62])
    (fun _ => ⟨eagerRequest, eagerRequest_complete, prefix_append _ _⟩) (eagerClient ++ [.hangUp]) t
    (by decide) hrun
    (hobs.2 ▸ prefix_rfl)⟩

/-- A SOCKS5 client sends its request and closes its sending direction: the reactor reads the
request and closes the client. -/
theorem halfClosedClient_closed :
    ¬∀ (actions : List Action) (t : ClientEntry), (∀ a ∈ actions, a.undisturbed = true) →
      run (step plainInet.toInet fun _ => [0x05, 0x00]) (start false .socks5 ⟨[]⟩)
        actions = some t →
      t.received = eagerRequest → t.phase ≠ .closed := by
  intro h
  have htrace : (run (step plainInet.toInet fun _ => [0x05, 0x00]) (start false .socks5 ⟨[]⟩)
      [.arrive [0x05, 0x01, 0x00], .events true none false, .events false (some 2) false,
        .arrive [0x05, 0x01, 0x00, 0x01, 0x7F, 0x00, 0x00, 0x01, 0x00, 0x50], .hangUp,
          .events true none true]).map
      (fun t => (t.received, t.phase)) = some (eagerRequest, .closed) := by decide
  obtain ⟨t, hrun, hobs⟩ := map_eq_some_iff.mp htrace
  simp only [Prod.mk.injEq] at hobs
  exact h _ t (by decide) hrun hobs.1 hobs.2

end ClientEntry
end TcpQuicProxy.Ingress
