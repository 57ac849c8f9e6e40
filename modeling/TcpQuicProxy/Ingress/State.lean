import TcpQuicProxy.Ingress.Connect

/-!
# The ingress state machine

`TqClientIngressState` takes the bytes of a proxy client as they come, answers
the steps of the handshake and ends with a parsed request. A reply has to be
written out before the next step is taken. `Session` is the state together with
the driver around it, which feeds what it reads and after each write feeds
nothing, to let the handshake go on.
-/

namespace TcpQuicProxy.Ingress

open Platform Protocol Wire

inductive Proto where
  | socks5
  | httpConnect
  deriving DecidableEq

inductive Result where
  | needRead
  | needWrite
  | readyToOpen
  | close
  deriving DecidableEq

structure State where
  proto : Proto
  auth : ProxyAuthTable
  readBuffer : Bytes
  writeBuffer : Bytes
  parsedRequest : TunnelRequest
  socksGreetingDone : Bool
  socksAuthPending : Bool
  closeAfterWrite : Bool
  ready : Bool
  deriving DecidableEq

def State.new (proto : Proto) (auth : ProxyAuthTable) : State :=
  ⟨proto, auth, [], [], .empty, false, false, false, false⟩

def socks5NoAuth : UInt8 := 0x00
def socks5UserPass : UInt8 := 0x02
def socks5NoAcceptable : UInt8 := 0xFF
def socks5UserPassVersion : UInt8 := 0x01
def socks5AuthSuccess : UInt8 := 0x00
def socks5AuthFailure : UInt8 := 0x01

def httpConnectHeaderCap : Nat := 16 * 1024

def authenticationRequired : Bytes := ascii
  "HTTP/1.1 407 Proxy Authentication Required\r\nProxy-Authenticate: Basic realm=\"tcpquic-proxy\"\r\n\r\n"

/-- The length of the request that begins in the buffer, zero for one that
cannot be valid. -/
def socks5RequestLength (data : Bytes) : Option Nat :=
  if data.length < 4 then none
  else if byteAt data 3 = socks5AtypIpv4 then some 10
  else if byteAt data 3 = socks5AtypDomain then
    if data.length < 5 then none
    else if byteAt data 4 = 0 then some 0
    else some (7 + (byteAt data 4).toNat)
  else if byteAt data 3 = socks5AtypIpv6 then some 22
  else some 0

namespace State

/-- The username/password sub-negotiation. -/
def feedSocks5Auth (s : State) : State × Result :=
  if s.readBuffer.length < 2 then (s, .needRead)
  else if byteAt s.readBuffer 0 ≠ socks5UserPassVersion then (s, .close)
  else
    let usernameLen := (byteAt s.readBuffer 1).toNat
    if usernameLen = 0 || kMaxFieldBytes < usernameLen then (s, .close)
    else if s.readBuffer.length < 2 + usernameLen + 1 then (s, .needRead)
    else
      let passwordLen := (byteAt s.readBuffer (2 + usernameLen)).toNat
      if passwordLen = 0 || kMaxFieldBytes < passwordLen then (s, .close)
      else
        let authLen := 2 + usernameLen + 1 + passwordLen
        if s.readBuffer.length < authLen then (s, .needRead)
        else
          let username := (s.readBuffer.drop 2).take usernameLen
          let password := (s.readBuffer.drop (2 + usernameLen + 1)).take passwordLen
          let valid := s.auth.validate username password
          ({ s with
              readBuffer := s.readBuffer.drop authLen
              writeBuffer :=
                [socks5UserPassVersion, if valid then socks5AuthSuccess else socks5AuthFailure]
              closeAfterWrite := !valid
              socksAuthPending := false
              socksGreetingDone := valid },
            .needWrite)

def refuseMethods (s : State) (greetingLen : Nat) : State × Result :=
  ({ s with
      writeBuffer := [socks5Version, socks5NoAcceptable]
      closeAfterWrite := true
      readBuffer := s.readBuffer.drop greetingLen },
    .needWrite)

def feedSocks5Greeting (s : State) : State × Result :=
  if s.readBuffer.length < 2 then (s, .needRead)
  else if byteAt s.readBuffer 0 ≠ socks5Version then (s, .close)
  else
    let methodsLen := (byteAt s.readBuffer 1).toNat
    let greetingLen := 2 + methodsLen
    if s.readBuffer.length < greetingLen then (s, .needRead)
    else
      let methods := (s.readBuffer.drop 2).take methodsLen
      if !s.auth.enabled then
        if socks5NoAuth ∉ methods then s.refuseMethods greetingLen
        else
          ({ s with
              readBuffer := s.readBuffer.drop greetingLen
              writeBuffer := [socks5Version, socks5NoAuth]
              socksGreetingDone := true },
            .needWrite)
      else if socks5UserPass ∉ methods then s.refuseMethods greetingLen
      else
        ({ s with
            writeBuffer := [socks5Version, socks5UserPass]
            readBuffer := s.readBuffer.drop greetingLen
            socksAuthPending := true },
          .needWrite)

def feedSocks5Request (inet : Inet) (s : State) : State × Result :=
  match socks5RequestLength s.readBuffer with
  | none => (s, .needRead)
  | some requestLen =>
    if requestLen = 0 then (s, .close)
    else if s.readBuffer.length < requestLen then (s, .needRead)
    else
      match parseSocks5ConnectRequest inet (s.readBuffer.take requestLen) with
      | none => (s, .close)
      | some parsed =>
        ({ s with
            parsedRequest := { parsed with ingressTraceProto := 1 }
            readBuffer := s.readBuffer.drop requestLen
            ready := true },
          .readyToOpen)

def feedSocks5 (inet : Inet) (s : State) : State × Result :=
  if s.writeBuffer ≠ [] then (s, .needWrite)
  else if s.closeAfterWrite then (s, .close)
  else if !s.socksGreetingDone then
    if s.socksAuthPending then s.feedSocks5Auth else s.feedSocks5Greeting
  else s.feedSocks5Request inet

/-- The search for the request in the buffer; a refused one stays there. -/
def feedHttpHeader (inet : Inet) (s : State) : State × Result :=
  match find headerTerminator s.readBuffer with
  | none => if httpConnectHeaderCap ≤ s.readBuffer.length then (s, .close) else (s, .needRead)
  | some headerEnd =>
    let headerSize := headerEnd + 4
    if httpConnectHeaderCap < headerSize then (s, .close)
    else
      let header := s.readBuffer.take headerSize
      match parseHttpConnectRequest inet header with
      | none => (s, .close)
      | some parsed =>
        if !httpConnectRequestAuthorized header s.auth then
          ({ s with
              writeBuffer := authenticationRequired
              closeAfterWrite := true },
            .needWrite)
        else
          ({ s with
              parsedRequest := { parsed with ingressTraceProto := 2 }
              readBuffer := s.readBuffer.drop headerSize
              ready := true },
            .readyToOpen)

def feedHttpConnect (inet : Inet) (s : State) : State × Result :=
  if s.writeBuffer ≠ [] then (s, .needWrite)
  else if s.closeAfterWrite then (s, .close)
  else s.feedHttpHeader inet

def push (s : State) (data : Bytes) : State := { s with readBuffer := s.readBuffer ++ data }

/-- What `Feed` does once the new bytes are in the buffer. -/
def poll (inet : Inet) (s : State) : State × Result :=
  if s.ready then (s, .readyToOpen)
  else
    match s.proto with
    | .socks5 => s.feedSocks5 inet
    | .httpConnect => s.feedHttpConnect inet

def feed (inet : Inet) (s : State) (data : Bytes) : State × Result := (s.push data).poll inet

def markWriteComplete (s : State) (bytes : Nat) : State :=
  { s with writeBuffer := s.writeBuffer.drop (min bytes s.writeBuffer.length) }

/-- `TakeBufferedData`. -/
def takeBufferedData (s : State) : Bytes := s.readBuffer

/-! ### What one call can do -/

/-- The handshake goes on: it is neither over nor waiting for a reply to be written. -/
structure InHandshake (s : State) : Prop where
  ready : s.ready = false
  closeAfterWrite : s.closeAfterWrite = false
  writeBuffer : s.writeBuffer = []

/-- The method that a SOCKS5 client has to offer. -/
def requiredMethod (s : State) : UInt8 := if s.auth.enabled then socks5UserPass else socks5NoAuth

/-- One call of `Feed`, by what it finds in the buffer. -/
inductive Turn (inet : Inet) (s : State) : State → Result → Prop
  | wait : s.InHandshake → Turn inet s s .needRead
  | reject : s.writeBuffer = [] → s.ready = false → Turn inet s s .close
  | pending : s.ready = false → s.writeBuffer ≠ [] → Turn inet s s .needWrite
  | done : s.ready = true → Turn inet s s .readyToOpen
  | refuseMethods {n : UInt8} {methods rest : Bytes} (open' : s.InHandshake)
      (proto : s.proto = .socks5)
      (stage : s.socksGreetingDone = false ∧ s.socksAuthPending = false)
      (buffer : s.readBuffer = socks5Version :: n :: methods ++ rest)
      (length : methods.length = n.toNat)
      (missing : s.requiredMethod ∉ methods) :
      Turn inet s { s with
        readBuffer := rest
        writeBuffer := [socks5Version, socks5NoAcceptable]
        closeAfterWrite := true } .needWrite
  | acceptMethod {n : UInt8} {methods rest : Bytes} (open' : s.InHandshake)
      (proto : s.proto = .socks5)
      (stage : s.socksGreetingDone = false ∧ s.socksAuthPending = false)
      (buffer : s.readBuffer = socks5Version :: n :: methods ++ rest)
      (length : methods.length = n.toNat)
      (offered : s.requiredMethod ∈ methods) :
      Turn inet s { s with
        readBuffer := rest
        writeBuffer := [socks5Version, s.requiredMethod]
        socksGreetingDone := !s.auth.enabled
        socksAuthPending := s.auth.enabled } .needWrite
  | checkUser {n m : UInt8} {username password rest : Bytes} (open' : s.InHandshake)
      (proto : s.proto = .socks5)
      (stage : s.socksGreetingDone = false ∧ s.socksAuthPending = true)
      (buffer : s.readBuffer = socks5UserPassVersion :: n :: username ++ m :: password ++ rest)
      (length : username.length = n.toNat ∧ password.length = m.toNat) :
      Turn inet s { s with
        readBuffer := rest
        writeBuffer := [socks5UserPassVersion,
          if s.auth.validate username password then socks5AuthSuccess else socks5AuthFailure]
        closeAfterWrite := !s.auth.validate username password
        socksAuthPending := false
        socksGreetingDone := s.auth.validate username password } .needWrite
  | acceptSocks5 {request rest : Bytes} {parsed : TunnelRequest} (open' : s.InHandshake)
      (proto : s.proto = .socks5)
      (stage : s.socksGreetingDone = true) (buffer : s.readBuffer = request ++ rest)
      (parse : parseSocks5ConnectRequest inet request = some parsed) :
      Turn inet s { s with
        parsedRequest := { parsed with ingressTraceProto := 1 }
        readBuffer := rest
        ready := true } .readyToOpen
  | refuseHttp {header rest : Bytes} {headerEnd : Nat} (open' : s.InHandshake)
      (proto : s.proto = .httpConnect)
      (buffer : s.readBuffer = header ++ rest)
      (found : find headerTerminator header = some headerEnd)
      (size : header.length = headerEnd + headerTerminator.length)
      (unauthorized : httpConnectRequestAuthorized header s.auth = false) :
      Turn inet s { s with
        writeBuffer := authenticationRequired
        closeAfterWrite := true } .needWrite
  | acceptHttp {header rest : Bytes} {headerEnd : Nat} {parsed : TunnelRequest}
      (open' : s.InHandshake)
      (proto : s.proto = .httpConnect) (buffer : s.readBuffer = header ++ rest)
      (found : find headerTerminator header = some headerEnd)
      (size : header.length = headerEnd + headerTerminator.length)
      (parse : parseHttpConnectRequest inet header = some parsed)
      (authorized : httpConnectRequestAuthorized header s.auth = true) :
      Turn inet s { s with
        parsedRequest := { parsed with ingressTraceProto := 2 }
        readBuffer := rest
        ready := true } .readyToOpen

variable {inet : Inet} {s : State}

section

variable (hopen : s.InHandshake)
include hopen

section

variable (hproto : s.proto = .socks5)
include hproto

theorem feedSocks5Greeting_turn
    (hstage : s.socksGreetingDone = false ∧ s.socksAuthPending = false) :
    Turn inet s s.feedSocks5Greeting.1 s.feedSocks5Greeting.2 := by
  unfold feedSocks5Greeting
  by_cases hlen : s.readBuffer.length < 2
  · rw [if_pos hlen]
    exact .wait hopen
  by_cases hversion : byteAt s.readBuffer 0 ≠ socks5Version
  · rw [if_neg hlen, if_pos hversion]
    exact .reject hopen.writeBuffer hopen.ready
  rw [if_neg hlen, if_neg hversion]
  dsimp only
  by_cases hmethods : s.readBuffer.length < 2 + (byteAt s.readBuffer 1).toNat
  · rw [if_pos hmethods]
    exact .wait hopen
  rw [if_neg hmethods]
  have hbuffer : s.readBuffer = socks5Version :: byteAt s.readBuffer 1 ::
      (s.readBuffer.drop 2).take (byteAt s.readBuffer 1).toNat ++
        s.readBuffer.drop (2 + (byteAt s.readBuffer 1).toNat) := by
    conv_lhs => rw [eq_byteAt_cons (Nat.le_of_not_lt hlen), not_not.mp hversion,
      drop_eq_take_append 2 (byteAt s.readBuffer 1).toNat]
    rfl
  have hlength := length_field (b := s.readBuffer) (Nat.le_of_not_lt hmethods)
  cases hauth : s.auth.enabled with
  | false =>
    have hrequired : s.requiredMethod = socks5NoAuth := by rw [requiredMethod, hauth]; rfl
    rw [Bool.not_false, if_pos rfl]
    split_ifs with hoffered
    · have hturn : Turn inet s _ _ :=
        .acceptMethod hopen hproto hstage hbuffer hlength (hrequired ▸ hoffered)
      rw [hrequired, hauth, Bool.not_false, ← hstage.2] at hturn
      exact hturn
    · exact .refuseMethods hopen hproto hstage hbuffer hlength (hrequired ▸ hoffered)
  | true =>
    have hrequired : s.requiredMethod = socks5UserPass := by rw [requiredMethod, hauth]; rfl
    rw [Bool.not_true, if_neg Bool.false_ne_true]
    split_ifs with hoffered
    · have hturn : Turn inet s _ _ :=
        .acceptMethod hopen hproto hstage hbuffer hlength (hrequired ▸ hoffered)
      rw [hrequired, hauth, Bool.not_true, ← hstage.1] at hturn
      exact hturn
    · exact .refuseMethods hopen hproto hstage hbuffer hlength (hrequired ▸ hoffered)

theorem feedSocks5Auth_turn (hstage : s.socksGreetingDone = false ∧ s.socksAuthPending = true) :
    Turn inet s s.feedSocks5Auth.1 s.feedSocks5Auth.2 := by
  unfold feedSocks5Auth
  by_cases hlen : s.readBuffer.length < 2
  · rw [if_pos hlen]
    exact .wait hopen
  by_cases hversion : byteAt s.readBuffer 0 ≠ socks5UserPassVersion
  · rw [if_neg hlen, if_pos hversion]
    exact .reject hopen.writeBuffer hopen.ready
  rw [if_neg hlen, if_neg hversion]
  dsimp only
  generalize hulen : (byteAt s.readBuffer 1).toNat = ulen
  by_cases hbad : (ulen = 0 || kMaxFieldBytes < ulen) = true
  · rw [if_pos hbad]
    exact .reject hopen.writeBuffer hopen.ready
  by_cases huser : s.readBuffer.length < 2 + ulen + 1
  · rw [if_neg hbad, if_pos huser]
    exact .wait hopen
  rw [if_neg hbad, if_neg huser]
  generalize hplen : (byteAt s.readBuffer (2 + ulen)).toNat = plen
  by_cases hbad' : (plen = 0 || kMaxFieldBytes < plen) = true
  · rw [if_pos hbad']
    exact .reject hopen.writeBuffer hopen.ready
  by_cases hpass : s.readBuffer.length < 2 + ulen + 1 + plen
  · rw [if_neg hbad', if_pos hpass]
    exact .wait hopen
  rw [if_neg hbad', if_neg hpass]
  have hbuffer : s.readBuffer = socks5UserPassVersion :: byteAt s.readBuffer 1 ::
      (s.readBuffer.drop 2).take ulen ++ byteAt s.readBuffer (2 + ulen) ::
        (s.readBuffer.drop (2 + ulen + 1)).take plen ++
          s.readBuffer.drop (2 + ulen + 1 + plen) := by
    conv_lhs =>
      rw [eq_byteAt_cons (Nat.le_of_not_lt hlen), not_not.mp hversion, drop_eq_take_append 2 ulen,
      drop_eq_byteAt_cons (show 2 + ulen < s.readBuffer.length by omega),
        drop_eq_take_append (2 + ulen + 1) plen]
    simp only [List.cons_append, List.append_assoc]
  exact .checkUser hopen hproto hstage hbuffer
    ⟨by rw [length_field (by omega), hulen], by rw [length_field (by omega), hplen]⟩

theorem feedSocks5Request_turn (hstage : s.socksGreetingDone = true) :
    Turn inet s (s.feedSocks5Request inet).1 (s.feedSocks5Request inet).2 := by
  unfold feedSocks5Request
  cases socks5RequestLength s.readBuffer with
  | none => exact .wait hopen
  | some requestLen =>
    dsimp only
    split_ifs with _ hlen
    · exact .reject hopen.writeBuffer hopen.ready
    · exact .wait hopen
    · cases hparse : parseSocks5ConnectRequest inet (s.readBuffer.take requestLen) with
      | none => exact .reject hopen.writeBuffer hopen.ready
      | some parsed =>
        exact .acceptSocks5 hopen hproto hstage (List.take_append_drop ..).symm hparse

end

theorem feedHttpHeader_turn (hproto : s.proto = .httpConnect) :
    Turn inet s (s.feedHttpHeader inet).1 (s.feedHttpHeader inet).2 := by
  unfold feedHttpHeader
  cases hfind : find headerTerminator s.readBuffer with
  | none =>
    dsimp only
    split_ifs
    · exact .reject hopen.writeBuffer hopen.ready
    · exact .wait hopen
  | some headerEnd =>
    have hend : headerEnd + 4 ≤ s.readBuffer.length := find_add_length_le hfind
    have hsize :
        (s.readBuffer.take (headerEnd + 4)).length = headerEnd + headerTerminator.length := by
      rw [List.length_take, Nat.min_eq_left hend]
      rfl
    have hfound : find headerTerminator (s.readBuffer.take (headerEnd + 4)) = some headerEnd := by
      rw [← List.take_append_drop (headerEnd + 4) s.readBuffer] at hfind
      exact find_of_append hfind (Nat.le_of_eq hsize.symm)
    dsimp only
    by_cases hcap : httpConnectHeaderCap < headerEnd + 4
    · rw [if_pos hcap]
      exact .reject hopen.writeBuffer hopen.ready
    rw [if_neg hcap]
    cases hparse : parseHttpConnectRequest inet (s.readBuffer.take (headerEnd + 4)) with
    | none => exact .reject hopen.writeBuffer hopen.ready
    | some parsed =>
      dsimp only
      split_ifs with hauth
      · exact .refuseHttp hopen hproto (List.take_append_drop ..).symm hfound hsize
          (by simpa using hauth)
      · exact .acceptHttp hopen hproto (List.take_append_drop ..).symm hfound hsize hparse
          (by simpa using hauth)

end

/-- **Every call of `Feed` takes one of the turns.** -/
theorem poll_turn (inet : Inet) (s : State) : Turn inet s (s.poll inet).1 (s.poll inet).2 := by
  unfold poll
  by_cases hready : s.ready = true
  · rw [if_pos hready]
    exact .done hready
  have hready' : s.ready = false := by simpa using hready
  rw [if_neg hready]
  cases hproto : s.proto with
  | socks5 =>
    simp only [feedSocks5]
    split_ifs with hwrite hclose hdone hpending
    · exact .pending hready' hwrite
    · exact .reject (not_not.mp hwrite) hready'
    · exact feedSocks5Auth_turn ⟨hready', by simpa using hclose, not_not.mp hwrite⟩ hproto
        ⟨by simpa using hdone, hpending⟩
    · exact feedSocks5Greeting_turn ⟨hready', by simpa using hclose, not_not.mp hwrite⟩ hproto
        ⟨by simpa using hdone, by simpa using hpending⟩
    · exact feedSocks5Request_turn ⟨hready', by simpa using hclose, not_not.mp hwrite⟩ hproto
        (by simpa using hdone)
  | httpConnect =>
    simp only [feedHttpConnect]
    split_ifs with hwrite hclose
    · exact .pending hready' hwrite
    · exact .reject (not_not.mp hwrite) hready'
    · exact feedHttpHeader_turn ⟨hready', by simpa using hclose, not_not.mp hwrite⟩ hproto

end State

/-! ### The driver -/

inductive Action where
  | feed (data : Bytes)
  | write (bytes : Nat)
  deriving DecidableEq

/-- `written` is what the client has been sent so far. -/
structure Session where
  state : State
  result : Result
  written : Bytes
  deriving DecidableEq

def Session.start (proto : Proto) (auth : ProxyAuthTable) : Session :=
  ⟨.new proto auth, .needRead, []⟩

def Session.step (inet : Inet) (x : Session) : Action → Session
  | .feed data =>
    let (state, result) := x.state.feed inet data
    { x with state := state, result := result }
  | .write bytes =>
    let (state, result) := (x.state.markWriteComplete bytes).feed inet []
    { state := state, result := result, written := x.written ++ x.state.writeBuffer.take bytes }

/-- The session after a list of actions. -/
def drive (inet : Inet) (proto : Proto) (auth : ProxyAuthTable) (actions : List Action) : Session :=
  actions.foldl (Session.step inet) (.start proto auth)

/-- The bytes that a list of actions feeds. -/
def fed : List Action → Bytes
  | [] => []
  | .feed data :: rest => data ++ fed rest
  | .write _ :: rest => fed rest

end TcpQuicProxy.Ingress
