import Mathlib.Data.List.TakeWhile
import TcpQuicProxy.Ingress.Segmentation
import TcpQuicProxy.Platform.InetText

/-!
# The authentication gate

With a user table, a session gets ready to open only after its stream has named
an entry of the table. What naming means is said of the stream alone: for SOCKS5
the greeting and the sub-negotiation at its start, for HTTP the first
Proxy-Authorization line of its header. `Gate` relates every state of a session
to the stream fed so far and the replies given so far, and one poll keeps it.
-/

namespace TcpQuicProxy.Ingress

open Platform Wire List

/-! ### Credentials in a stream -/

/-- The stream begins with a greeting that offers username/password and a
sub-negotiation with this pair. -/
def Socks5Credentials (stream user pass : Bytes) : Prop :=
  ∃ (n ulen plen : UInt8) (methods rest : Bytes),
    stream = socks5Version :: n :: methods ++
      (socks5UserPassVersion :: ulen :: user ++ plen :: pass ++ rest) ∧
    methods.length = n.toNat ∧ user.length = ulen.toNat ∧ pass.length = plen.toNat ∧
      socks5UserPass ∈ methods

/-- A header line with the given name, compared without regard to case. -/
def Named (headerName line : Bytes) : Prop :=
  ∃ name value, line = name ++ colon :: value ∧ colon ∉ name ∧
    equalsIgnoreCase name headerName = true

/-- The stream begins with a header whose first Proxy-Authorization line has
Basic credentials for this pair. -/
def BasicCredentials (stream user pass : Bytes) : Prop :=
  ∃ header rest before name blanks scheme encoded after,
    stream = header ++ rest ∧
      find headerTerminator header = some (header.length - headerTerminator.length) ∧
    headerLines header = before ++ (name ++ colon :: (blanks ++ (scheme ++ encoded))) :: after ∧
    (∀ line ∈ before, ¬Named proxyAuthorization line) ∧
    colon ∉ name ∧ equalsIgnoreCase name proxyAuthorization = true ∧
      (∀ b ∈ blanks, b = space ∨ b = 0x09) ∧
    equalsIgnoreCase scheme basicScheme = true ∧
    base64Decode encoded = some (user ++ colon :: pass) ∧ colon ∉ user

def Credentials : Proto → Bytes → Bytes → Bytes → Prop
  | .socks5 => Socks5Credentials
  | .httpConnect => BasicCredentials

theorem Credentials.append {proto : Proto} {stream user pass : Bytes}
    (h : Credentials proto stream user pass) (more : Bytes) :
    Credentials proto (stream ++ more) user pass := by
  cases proto with
  | socks5 =>
    obtain ⟨n, ulen, plen, methods, rest, rfl, hrest⟩ := h
    exact ⟨n, ulen, plen, methods, rest ++ more, by simp [append_assoc], hrest⟩
  | httpConnect =>
    obtain ⟨header, rest, before, name, blanks, scheme, encoded, after, rfl, hrest⟩ := h
    exact ⟨header, rest ++ more, before, name, blanks, scheme, encoded, after,
      append_assoc .., hrest⟩

/-! ### What the header search finds -/

theorem headerLineValue_eq_some {headerName line value : Bytes}
    (h : headerLineValue headerName line = some value) :
    ∃ name blanks, line = name ++ colon :: (blanks ++ value) ∧ colon ∉ name ∧
      equalsIgnoreCase name headerName = true ∧ ∀ b ∈ blanks, b = space ∨ b = 0x09 := by
  unfold headerLineValue at h
  cases hfind : find [colon] line with
  | none => simp [hfind] at h
  | some i =>
    obtain ⟨hsplit, hname⟩ := find_singleton hfind
    simp only [hfind] at h
    split_ifs at h with heq
    cases h
    refine ⟨line.take i, (line.drop (i + 1)).takeWhile fun b => b = space || b = 0x09, ?_,
      hname, heq, ?_⟩
    · rw [takeWhile_append_dropWhile]
      exact hsplit
    · intro b hb
      simpa using mem_takeWhile_imp hb

theorem not_named_of_headerLineValue {headerName line : Bytes}
    (h : headerLineValue headerName line = none) :
    ¬Named headerName line := by
  rintro ⟨name, value, rfl, hname, heq⟩
  unfold headerLineValue at h
  rw [find_singleton_of_not_mem hname] at h
  simp [heq] at h

theorem parseHttpProxyAuthorization_eq_some {value user pass : Bytes}
    (h : parseHttpProxyAuthorization value = some (user, pass)) :
    ∃ scheme encoded, value = scheme ++ encoded ∧ equalsIgnoreCase scheme basicScheme = true ∧
      base64Decode encoded = some (user ++ colon :: pass) ∧ colon ∉ user := by
  unfold parseHttpProxyAuthorization at h
  split_ifs at h with hscheme
  simp only [Bool.or_eq_true, decide_eq_true_eq, Bool.not_eq_true', not_or,
    Bool.not_eq_false] at hscheme
  cases hdecode : base64Decode (value.drop basicScheme.length) with
  | none => simp [hdecode] at h
  | some decoded =>
    simp only [hdecode] at h
    cases hfind : find [colon] decoded with
    | none => simp [hfind] at h
    | some i =>
      simp only [hfind] at h
      split_ifs at h with hempty
      cases h
      obtain ⟨hsplit, hcolon⟩ := find_singleton hfind
      exact ⟨_, _, (take_append_drop ..).symm, hscheme.2, by rw [hdecode, ← hsplit], hcolon⟩

/-- An authorized header names an entry of the table in its first
Proxy-Authorization line. -/
theorem basicCredentials_of_authorized {header : Bytes} (rest : Bytes) {headerEnd : Nat}
    {auth : ProxyAuthTable} (hauth : auth.users ≠ [])
    (hfound : find headerTerminator header = some headerEnd)
    (hsize : header.length = headerEnd + headerTerminator.length)
    (h : httpConnectRequestAuthorized header auth = true) :
    ∃ user pass, ⟨user, pass⟩ ∈ auth.users ∧ BasicCredentials (header ++ rest) user pass := by
  have henabled : auth.enabled = true := by simp [ProxyAuthTable.enabled, hauth]
  simp only [httpConnectRequestAuthorized, httpConnectRequestAuthResult, henabled, Bool.not_true,
    if_neg Bool.false_ne_true] at h
  cases hvalue : findHttpHeaderValue header proxyAuthorization with
  | none => simp [hvalue] at h
  | some value =>
    cases hparse : parseHttpProxyAuthorization value with
    | none => simp [hvalue, hparse] at h
    | some pair =>
      obtain ⟨user, pass⟩ := pair
      have hvalid : auth.validate user pass = true := by
        by_contra hnot
        simp [hvalue, hparse, hnot] at h
      rw [findHttpHeaderValue_eq hfound] at hvalue
      obtain ⟨before, line, after, hlines, hline, hbefore⟩ := findSome?_eq_some_iff.mp hvalue
      obtain ⟨name, blanks, rfl, hname, heq, hblanks⟩ := headerLineValue_eq_some hline
      obtain ⟨scheme, encoded, rfl, hscheme, hdecode, huser⟩ :=
        parseHttpProxyAuthorization_eq_some hparse
      refine ⟨user, pass, ProxyAuthTable.mem_of_validate hauth hvalid, ?_⟩
      refine ⟨header, rest, before, name, blanks, scheme, encoded, after, rfl, ?_, hlines, ?_,
        hname, heq, hblanks,
        hscheme, hdecode, huser⟩
      · rw [hfound, hsize, Nat.add_sub_cancel]
      · exact fun l hl => not_named_of_headerLineValue (hbefore l hl)

/-! ### The gate -/

/-- The replies after which a session is over. -/
def refusals : Proto → List Bytes
  | .socks5 => [[socks5Version, socks5NoAcceptable],
      [socks5Version, socks5UserPass, socks5UserPassVersion, socks5AuthFailure]]
  | .httpConnect => [authenticationRequired]

/-- How a state stands to the replies given and the stream fed so far. -/
inductive Gate (s : State) (replies stream : Bytes) : Prop
  | start (proceeding : s.closeAfterWrite = false ∧ s.ready = false)
      (stage : s.socksGreetingDone = false ∧ s.socksAuthPending = false) (reply : replies = [])
      (buffer : stream = s.readBuffer)
  | negotiating {n : UInt8} {methods : Bytes}
      (proceeding : s.closeAfterWrite = false ∧ s.ready = false)
      (proto : s.proto = .socks5) (stage : s.socksGreetingDone = false ∧ s.socksAuthPending = true)
      (reply : replies = [socks5Version, socks5UserPass])
      (buffer : stream = socks5Version :: n :: methods ++ s.readBuffer)
      (length : methods.length = n.toNat)
      (offered : socks5UserPass ∈ methods)
  | passed {user pass : Bytes} (proceeding : s.closeAfterWrite = false)
      (stage : s.proto = .socks5 → s.socksGreetingDone = true)
      (httpReady : s.proto = .httpConnect → s.ready = true)
      (entry : ⟨user, pass⟩ ∈ s.auth.users) (credentials : Credentials s.proto stream user pass)
      (reply : replies ∉ refusals s.proto)
  | refused (closing : s.closeAfterWrite = true) (unready : s.ready = false)

theorem Gate.push {s : State} {replies stream : Bytes} (h : Gate s replies stream) (data : Bytes) :
    Gate (s.push data) replies (stream ++ data) := by
  cases h with
  | start proceeding stage reply buffer =>
    exact .start proceeding stage reply (by rw [buffer, State.push])
  | negotiating proceeding proto stage reply buffer length offered =>
    exact .negotiating proceeding proto stage reply (by rw [buffer, State.push, append_assoc])
      length offered
  | passed proceeding stage httpReady entry credentials reply =>
    exact .passed proceeding stage httpReady entry (credentials.append data) reply
  | refused closing unready => exact .refused closing unready

theorem Gate.markWriteComplete {s : State} {replies stream : Bytes} (h : Gate s replies stream)
    (bytes : Nat) :
    Gate (s.markWriteComplete bytes) replies stream := by
  cases h with
  | start proceeding stage reply buffer => exact .start proceeding stage reply buffer
  | negotiating proceeding proto stage reply buffer length offered =>
    exact .negotiating proceeding proto stage reply buffer length offered
  | passed proceeding stage httpReady entry credentials reply =>
    exact .passed proceeding stage httpReady entry credentials reply
  | refused closing unready => exact .refused closing unready

/-- A refusal among the replies is final. -/
theorem Gate.closing_of_refusal {s : State} {replies stream : Bytes} (h : Gate s replies stream)
    (hrefused : replies ∈ refusals s.proto) : s.closeAfterWrite = true ∧ s.ready = false := by
  cases h with
  | start _ _ reply =>
    subst reply
    cases hproto : s.proto <;> rw [hproto] at hrefused <;> exact absurd hrefused (by decide)
  | negotiating _ proto _ reply =>
    rw [reply, proto] at hrefused
    exact absurd hrefused (by decide)
  | passed _ _ _ _ _ reply => exact absurd hrefused reply
  | refused closing unready => exact ⟨closing, unready⟩

/-- One call keeps the gate. -/
theorem Gate.poll (inet : Inet) {s : State} {written stream : Bytes} (hauth : s.auth.users ≠ [])
    (h : Gate s (written ++ s.writeBuffer) stream) :
    Gate (s.poll inet).1 (written ++ (s.poll inet).1.writeBuffer) stream := by
  have henabled : s.auth.enabled = true := by simp [ProxyAuthTable.enabled, hauth]
  have hturn := State.poll_turn inet s
  generalize s.poll inet = p at hturn ⊢
  obtain ⟨t, r⟩ := p
  dsimp only at hturn ⊢
  cases hturn with
  | wait | reject | pending | done => exact h
  | refuseMethods open' | refuseHttp open' => exact .refused rfl open'.ready
  | acceptMethod open' proto stage buffer length offered =>
    have hrequired : s.requiredMethod = socks5UserPass := by
      rw [State.requiredMethod, henabled]; rfl
    rw [hrequired] at offered ⊢
    cases h with
    | start _ _ reply hbuffer =>
      rw [open'.writeBuffer, append_nil] at reply
      refine .negotiating ⟨open'.closeAfterWrite, open'.ready⟩ proto ⟨?_, henabled⟩ ?_
        (hbuffer.trans buffer) length
        offered
      · rw [henabled]; rfl
      · rw [reply]; rfl
    | negotiating _ _ hstage => cases stage.2.symm.trans hstage.2
    | passed _ hstage => cases stage.1.symm.trans (hstage proto)
    | refused closing => cases open'.closeAfterWrite.symm.trans closing
  | @checkUser n m username password rest open' proto stage buffer length =>
    cases h with
    | start _ hstage => cases hstage.2.symm.trans stage.2
    | @negotiating n' methods _ _ _ reply hbuffer hlength offered =>
      rw [open'.writeBuffer, append_nil] at reply
      cases hvalid : s.auth.validate username password with
      | false => exact .refused rfl open'.ready
      | true =>
        refine .passed rfl (fun _ => rfl) (fun hhttp => ?_)
          (ProxyAuthTable.mem_of_validate hauth hvalid) ?_ ?_
        · cases proto.symm.trans hhttp
        · rw [show Credentials s.proto = Socks5Credentials by rw [proto]; rfl]
          exact ⟨n', n, m, methods, rest, by rw [hbuffer, buffer], hlength, length.1,
            length.2, offered⟩
        · show written ++ [socks5UserPassVersion, socks5AuthSuccess] ∉ refusals s.proto
          rw [proto, reply]
          decide
    | passed _ hstage => cases stage.1.symm.trans (hstage proto)
    | refused closing => cases open'.closeAfterWrite.symm.trans closing
  | acceptSocks5 open' proto stage =>
    cases h with
    | start _ hstage | negotiating _ _ hstage => cases hstage.1.symm.trans stage
    | passed proceeding hstage _ entry credentials reply =>
      exact .passed proceeding hstage (fun _ => rfl) entry credentials reply
    | refused closing => cases open'.closeAfterWrite.symm.trans closing
  | @acceptHttp _ rest _ _ open' proto buffer found size _ authorized =>
    cases h with
    | start _ _ reply hbuffer =>
      obtain ⟨user, pass, hentry, hcredentials⟩ :=
        basicCredentials_of_authorized rest hauth found size authorized
      refine .passed open'.closeAfterWrite (fun hsocks => ?_) (fun _ => rfl) hentry ?_ ?_
      · cases proto.symm.trans hsocks
      · rw [show Credentials s.proto = BasicCredentials by rw [proto]; rfl, hbuffer, buffer]
        exact hcredentials
      · rw [reply, proto]
        decide
    | negotiating _ hproto => cases proto.symm.trans hproto
    | passed _ _ hready => cases open'.ready.symm.trans (hready proto)
    | refused closing => cases open'.closeAfterWrite.symm.trans closing

namespace Session

variable (inet : Inet) (proto : Proto) {auth : ProxyAuthTable}

/-- All replies of a session, written or not. -/
def replies (x : Session) : Bytes := x.written ++ x.state.writeBuffer

theorem poll_auth (inet : Inet) (s : State) :
    (s.poll inet).1.auth = s.auth ∧ (s.poll inet).1.proto = s.proto := by
  have hturn := State.poll_turn inet s
  generalize s.poll inet = p at hturn ⊢
  obtain ⟨t, r⟩ := p
  cases hturn <;> exact ⟨rfl, rfl⟩

theorem drive_auth (auth : ProxyAuthTable) (actions : List Action) :
    (drive inet proto auth actions).state.auth = auth ∧
      (drive inet proto auth actions).state.proto = proto := by
  induction actions using reverseRecOn with
  | nil => exact ⟨rfl, rfl⟩
  | append_singleton actions a ih =>
    rw [drive_concat]
    cases a with
    | feed data =>
      obtain ⟨hauth, hproto⟩ := poll_auth inet ((drive inet proto auth actions).state.push data)
      exact ⟨hauth.trans ih.1, hproto.trans ih.2⟩
    | write bytes =>
      obtain ⟨hauth, hproto⟩ :=
        poll_auth inet (((drive inet proto auth actions).state.markWriteComplete bytes).push [])
      exact ⟨hauth.trans ih.1, hproto.trans ih.2⟩

/-- One action keeps the gate. -/
theorem step_gate {x : Session} {stream : Bytes} (hauth : x.state.auth.users ≠ [])
    (h : Gate x.state x.replies stream) (a : Action) :
    Gate (x.step inet a).state (x.step inet a).replies (stream ++ fed [a]) := by
  cases a with
  | feed data =>
    rw [show fed [.feed data] = data from append_nil data]
    have hgate : Gate (x.state.push data) (x.written ++ (x.state.push data).writeBuffer)
        (stream ++ data) := h.push data
    exact hgate.poll inet hauth
  | write bytes =>
    have hview : (x.written ++ x.state.writeBuffer.take bytes) ++
        (x.state.markWriteComplete bytes).writeBuffer =
        x.replies := congrArg Prod.snd (view_markWriteComplete x bytes)
    have hgate := h.markWriteComplete bytes
    rw [← hview] at hgate
    have hauth' : (x.state.markWriteComplete bytes).auth.users ≠ [] := hauth
    have hpoll := hgate.poll inet hauth'
    rw [fed, fed, append_nil]
    simpa only [step, replies, State.feed, State.push_nil] using hpoll

/-- Every state of a session stands at the gate. -/
theorem drive_gate (hauth : auth.users ≠ []) (actions : List Action) :
    Gate (drive inet proto auth actions).state (drive inet proto auth actions).replies
      (fed actions) := by
  induction actions using reverseRecOn with
  | nil => exact .start ⟨rfl, rfl⟩ ⟨rfl, rfl⟩ rfl rfl
  | append_singleton actions a ih =>
    rw [drive_concat, fed_append]
    exact step_gate inet (by rwa [(drive_auth inet proto auth actions).1]) ih a

/-- A session is over: it was told to close or has been given a refusal. -/
def Refused (x : Session) : Prop := x.result = .close ∨ x.replies ∈ refusals x.state.proto

instance (x : Session) : Decidable x.Refused := inferInstanceAs (Decidable (_ ∨ _))

end Session

/-- The states from which a session cannot get ready. -/
def Dead (inet : Inet) (s : State) : Prop :=
  s.ready = false ∧ (s.closeAfterWrite = true ∨ s.poll inet = (s, .close))

namespace Dead

variable {inet : Inet} {s : State}

theorem push (h : Dead inet s) (data : Bytes) : Dead inet (s.push data) := by
  refine ⟨h.1, h.2.imp id fun hpoll => ?_⟩
  have hread : (s.poll inet).2 ≠ .needRead := by
    rw [hpoll]
    exact Result.noConfusion
  have hpush := State.poll_push data hread
  rwa [hpoll] at hpush

theorem markWriteComplete (h : Dead inet s) (bytes : Nat) :
    Dead inet (s.markWriteComplete bytes) := by
  refine ⟨h.1, h.2.imp id fun hpoll => ?_⟩
  have hwrite : s.writeBuffer = [] := by
    by_contra hwrite
    rw [State.poll_of_pending h.1 hwrite] at hpoll
    exact Result.noConfusion (congrArg Prod.snd hpoll)
  have hmark : s.markWriteComplete bytes = s := by
    rw [State.markWriteComplete, hwrite, drop_nil, ← hwrite]
  rwa [hmark]

theorem poll (h : Dead inet s) : (s.poll inet).1 = s ∧ (s.poll inet).2 ≠ .readyToOpen := by
  rcases h.2 with hclosing | hpoll
  · cases hproto : s.proto <;> by_cases hwrite : s.writeBuffer = [] <;>
      simp [State.poll, State.feedSocks5, State.feedHttpConnect, h.1, hclosing, hproto, hwrite]
  · rw [hpoll]
    exact ⟨rfl, Result.noConfusion⟩

theorem step {x : Session} (h : Dead inet x.state) (a : Action) :
    Dead inet (x.step inet a).state ∧ (x.step inet a).result ≠ .readyToOpen := by
  have hpolled : ∀ {t : State}, Dead inet t →
      Dead inet (t.poll inet).1 ∧ (t.poll inet).2 ≠ .readyToOpen :=
    fun ht => ⟨by rwa [ht.poll.1], ht.poll.2⟩
  cases a with
  | feed data => exact hpolled (h.push data)
  | write bytes => exact hpolled ((h.markWriteComplete bytes).push [])

theorem run {x : Session} (h : Dead inet x.state) (hx : x.result ≠ .readyToOpen)
    (more : List Action) :
    (more.foldl (Session.step inet) x).result ≠ .readyToOpen := by
  induction more generalizing x with
  | nil => exact hx
  | cons a more ih => exact ih (h.step a).1 (h.step a).2

end Dead

theorem Session.Coherent.dead {inet : Inet} {x : Session} (hx : x.Coherent inet)
    (h : x.result = .close) :
    Dead inet x.state := by
  have hpoll : x.state.poll inet = (x.state, .close) := h ▸ hx.poll_eq
  refine ⟨?_, .inr hpoll⟩
  by_contra hready
  rw [State.poll, if_pos ((Bool.not_eq_false _).mp hready)] at hpoll
  exact Result.noConfusion (congrArg Prod.snd hpoll)

/-- **With a user table, a session gets ready only on a stream that carries the
credentials of an entry, and once refused it never gets ready.** -/
theorem ready_requires_credentials (inet : Inet) (proto : Proto) (auth : ProxyAuthTable)
    (hauth : auth.users ≠ []) (actions : List Action) :
    ((drive inet proto auth actions).result = .readyToOpen →
        ∃ user pass, ⟨user, pass⟩ ∈ auth.users ∧ Credentials proto (fed actions) user pass) ∧
      ((drive inet proto auth actions).Refused →
        ∀ more, (drive inet proto auth (actions ++ more)).result ≠ .readyToOpen) := by
  obtain ⟨hcoherent, -⟩ := Session.drive_path inet proto auth actions
  obtain ⟨hauth', hproto⟩ := Session.drive_auth inet proto auth actions
  have hgate := Session.drive_gate inet proto hauth actions
  constructor
  · intro hready
    have hdone := State.ready_of_poll inet (drive inet proto auth actions).state
      (by rw [hcoherent.poll_eq]; exact hready)
    rw [hcoherent.poll_eq] at hdone
    cases hgate with
    | start proceeding | negotiating proceeding =>
      cases proceeding.2.symm.trans hdone
    | @passed user pass _ _ _ entry credentials =>
      rw [hproto] at credentials
      rw [hauth'] at entry
      exact ⟨user, pass, entry, credentials⟩
    | refused _ unready => cases unready.symm.trans hdone
  · intro hrefused more
    have hdead : Dead inet (drive inet proto auth actions).state := by
      rcases hrefused with hclose | hreply
      · exact hcoherent.dead hclose
      · obtain ⟨hclosing, hunready⟩ := hgate.closing_of_refusal hreply
        exact ⟨hunready, .inl hclosing⟩
    have hresult : (drive inet proto auth actions).result ≠ .readyToOpen := by
      have hpoll := hdead.poll.2
      rwa [hcoherent.poll_eq] at hpoll
    rw [drive, foldl_append]
    exact hdead.run hresult more

/-- The table with the user `u` and the password `p`. -/
def oneUser : ProxyAuthTable := ⟨[⟨ascii "u", ascii "p"⟩]⟩

/-- A SOCKS5 client that names the user, in several reads. -/
def namesUser : List Action :=
  [.feed [0x05], .feed [0x01, 0x02], .write 2, .feed [0x01, 0x01, 0x75, 0x01, 0x70, 0x05],
    .write 1, .write 1,
    .feed [0x01, 0x00, 0x01, 0x7F, 0x00, 0x00, 0x01, 0x00, 0x50]]

/-- An HTTP client that names the user. -/
def namesUserInHeader : List Action :=
  [.feed (ascii "CONNECT a:80 HTTP/1.1\r\nproxy-authorization: Basic "),
    .feed (ascii "dTpw\r\n\r\n")]

/-- A SOCKS5 client that offers no authentication. -/
def offersNoAuth : List Action := [.feed [0x05, 0x01, 0x00]]

theorem oneUser_gate :
    (drive plainInet.toInet .socks5 oneUser namesUser).result = .readyToOpen ∧
      (∃ user pass, ⟨user, pass⟩ ∈ oneUser.users ∧ Credentials .socks5 (fed namesUser) user pass) ∧
    (drive plainInet.toInet .httpConnect oneUser namesUserInHeader).result = .readyToOpen ∧
      (∃ user pass, ⟨user, pass⟩ ∈ oneUser.users ∧
        Credentials .httpConnect (fed namesUserInHeader) user pass) ∧
    (drive plainInet.toInet .socks5 oneUser offersNoAuth).Refused ∧
      ∀ more, (drive plainInet.toInet .socks5 oneUser (offersNoAuth ++ more)).result ≠
        .readyToOpen := by
  have hauth : oneUser.users ≠ [] := by decide
  have hsocks : (drive plainInet.toInet .socks5 oneUser namesUser).result = .readyToOpen := by
    decide +kernel
  have hhttp :
      (drive plainInet.toInet .httpConnect oneUser namesUserInHeader).result = .readyToOpen := by
    decide +kernel
  have hrefused : (drive plainInet.toInet .socks5 oneUser offersNoAuth).Refused := by decide +kernel
  exact ⟨hsocks,
    (ready_requires_credentials plainInet.toInet .socks5 oneUser hauth namesUser).1 hsocks,
    hhttp, (ready_requires_credentials plainInet.toInet
      .httpConnect oneUser hauth namesUserInHeader).1 hhttp,
    hrefused,
      (ready_requires_credentials plainInet.toInet .socks5 oneUser hauth offersNoAuth).2 hrefused⟩

end TcpQuicProxy.Ingress
