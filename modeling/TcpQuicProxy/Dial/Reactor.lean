import TcpQuicProxy.Acl.Matcher
import TcpQuicProxy.Machine.Pool

/-!
# The server dial reactor

A dial is submitted with a completion callback and gets a token. It resolves its
host, filters the addresses through the access control list and tries them one
after the other; then it leaves the pending table, and its completion waits in a
ready list until some thread drains that list and runs the callbacks without the
lock. What the operating system answers (sockets, connects, the clock) is read
from lists that a step brings along.
-/

namespace TcpQuicProxy.Dial

open Platform Acl
open Protocol (OpenError)

abbrev Fd := Nat

/-- An errno of a failed connect, as far as the reactor tells them apart. -/
inductive ConnectError where
  | refused
  | timeoutLike
  | other
  deriving DecidableEq

/-- How the socket calls of one attempt end. -/
inductive Attempt where
  | noSocket
  | blockingSocket (fd : Fd)
  | connected (fd : Fd)
  | failed (fd : Fd) (error : ConnectError)
  | inProgress (fd : Fd) (added : Bool)
  deriving DecidableEq

/-- What `SO_ERROR` says of a connect that became ready. -/
inductive SocketStatus where
  | unreadable
  | connected
  | failed (error : ConnectError)
  deriving DecidableEq

structure DialResult where
  done : Bool
  error : OpenError
  fd : Option Fd
  deriving DecidableEq

/-- The callback is named by the number of its dial. -/
structure Request where
  host : Bytes
  port : UInt16
  bypassAclForAuthorizedLoopback : Bool
  complete : Option Nat
  deriving DecidableEq

structure DialState where
  token : UInt64
  request : Request
  dnsId : UInt64
  candidates : List SockAddr
  nextCandidate : Nat
  fd : Option Fd
  registered : Bool
  dnsCallbackRan : Bool
  sawRefused : Bool
  sawTimeout : Bool
  sawInternal : Bool
  deadline : Nat
  deriving DecidableEq

/-- A completion that waits for its callback to be run; the token is only kept to speak of it. -/
structure ReadyCompletion where
  token : UInt64
  complete : Option Nat
  result : DialResult
  deriving DecidableEq

inductive Effect where
  | submitted (token : UInt64) (dial : Nat)
  | cancelReturned (token : UInt64)
  | callbackStarted (dial : Nat) (result : DialResult)
  | socketOpened (fd : Fd)
  | connecting (fd : Fd) (addr : SockAddr)
  | socketClosed (fd : Fd)
  deriving DecidableEq

structure Reactor where
  inet : Inet
  acl : Rules
  started : Bool
  nextToken : UInt64
  pending : List DialState
  readyCompletions : List ReadyCompletion
  -- the resolver's queries and the reactor's registered sockets, each with the token its callback
  -- has captured
  nextQuery : UInt64
  queries : List (UInt64 × UInt64)
  sockets : List (Fd × UInt64)
  -- answers of the operating system for the current step
  attempts : List Attempt
  now : Nat
  dials : Nat
  log : List Effect

namespace Reactor

variable (r : Reactor)

def emit (e : Effect) : Reactor := { r with log := r.log ++ [e] }

def find (token : UInt64) : Option DialState := r.pending.find? (·.token = token)

def update (token : UInt64) (f : DialState → DialState) : Reactor :=
  { r with pending := r.pending.map fun s => if s.token = token then f s else s }

def erase (token : UInt64) : Reactor := { r with pending := r.pending.filter (·.token ≠ token) }

def takeAttempt : Attempt × Reactor :=
  match r.attempts with
  | [] => (.noSocket, r)
  | a :: rest => (a, { r with attempts := rest })

/-! ### Tokens -/

/-- Zero and the numbers in use are skipped; the first argument bounds how many there are. -/
def skipUsed (used : UInt64 → Bool) : Nat → UInt64 → UInt64
  | 0, next => next
  | fuel + 1, next => if next = 0 || used next then skipUsed used fuel (next + 1) else next

def nextAvailableToken : UInt64 :=
  skipUsed (fun token => r.pending.any (·.token = token)) (r.pending.length + 1) r.nextToken

def nextQueryId : UInt64 :=
  skipUsed (fun id => r.queries.any (·.1 = id)) (r.queries.length + 1) r.nextQuery

/-! ### Sockets of a dial -/

def removeSocket (fd : Fd) : Reactor := { r with sockets := r.sockets.filter (·.1 ≠ fd) }

def closeOwnedSocket (token : UInt64) : Reactor :=
  match (r.find token).bind (·.fd) with
  | none => r
  | some fd => (r.emit (.socketClosed fd)).update token fun s => { s with fd := none }

def unregister (token : UInt64) : Reactor :=
  match r.find token with
  | none => r
  | some s =>
    match s.fd with
    | some fd => if s.registered then (r.removeSocket fd).update token fun s =>
        { s with registered := false } else r
    | none => r

def cleanupConnect (token : UInt64) : Reactor := (r.unregister token).closeOwnedSocket token

def cancelResolve (id : UInt64) : Reactor :=
  if id = 0 then r else { r with queries := r.queries.filter (·.1 ≠ id) }

def cleanupState (token : UInt64) (suppressCompletion : Bool) : Reactor :=
  match r.find token with
  | none => r
  | some s =>
    let r := if suppressCompletion then
        r.update token fun s => { s with request := { s.request with complete := none } }
      else r
    ((r.cancelResolve s.dnsId).update token fun s => { s with dnsId := 0 }).cleanupConnect token

/-! ### The end of a dial -/

def complete (token : UInt64) (error : OpenError) : Reactor :=
  match r.find token with
  | none => r
  | some s =>
    let r := (r.cleanupState token false).erase token
    if s.request.complete.isSome then
      { r with
        readyCompletions := r.readyCompletions ++
          [{ token
             complete := s.request.complete
             result := { done := true, error, fd := none } }] }
    else r

def completeConnected (token : UInt64) : Reactor :=
  match r.find token with
  | none => r
  | some s =>
    let r := (r.unregister token).erase token
    let result : DialResult := { done := true, error := .ok, fd := s.fd }
    if s.request.complete.isSome then
      { r with
        readyCompletions := r.readyCompletions ++
          [{ token, complete := s.request.complete, result }] }
    else
      match result.fd with
      | some fd => r.emit (.socketClosed fd)
      | none => r

/-! ### Connecting -/

def sockaddrLength : SockAddr → Nat
  | .inet _ _ => 16
  | .inet6 _ _ _ _ => 28
  | .other _ => 0

def recordInternalFailure (token : UInt64) : Reactor :=
  r.update token fun s => { s with sawInternal := true }

def recordConnectFailure (token : UInt64) : ConnectError → Reactor
  | .refused => r.update token fun s => { s with sawRefused := true }
  | .timeoutLike => r.update token fun s => { s with sawTimeout := true }
  | .other => r.recordInternalFailure token

def finalConnectError (s : DialState) : OpenError :=
  if s.sawInternal then .internal
  else if s.sawRefused then .tcpRefused
  else if s.sawTimeout then .tcpTimeout
  else .tcpTimeout

def connectAttemptTimeoutMs : Nat := 10000

/-- The attempts on the remaining candidates. -/
def attemptCandidates (token : UInt64) : List SockAddr → Reactor → Reactor
  | [], r =>
    match r.find token with
    | none => r
    | some s => r.complete token (finalConnectError s)
  | addr :: rest, r =>
    let r := r.update token fun s => { s with nextCandidate := s.nextCandidate + 1 }
    if sockaddrLength addr = 0 then attemptCandidates token rest r
    else
      let (attempt, r) := r.takeAttempt
      match attempt with
      | .noSocket => attemptCandidates token rest (r.recordInternalFailure token)
      | .blockingSocket fd =>
        attemptCandidates token rest
          (((r.emit (.socketOpened fd)).recordInternalFailure token).emit (.socketClosed fd))
      | .connected fd =>
        let r := (r.emit (.socketOpened fd)).emit (.connecting fd addr)
        (r.update token fun s => { s with fd := some fd }).completeConnected token
      | .failed fd error =>
        let r := (r.emit (.socketOpened fd)).emit (.connecting fd addr)
        attemptCandidates token rest ((r.recordConnectFailure token error).emit (.socketClosed fd))
      | .inProgress fd added =>
        let r := (r.emit (.socketOpened fd)).emit (.connecting fd addr)
        let deadline := r.now + connectAttemptTimeoutMs
        if added then
          { r.update token fun s => { s with fd := some fd, deadline, registered := true } with
            sockets := (fd, token) :: r.sockets.filter (·.1 ≠ fd) }
        else
          ((r.update token fun s => { s with deadline }).emit (.socketClosed fd)).complete token
          .internal

def startNextAttempt (token : UInt64) : Reactor :=
  match r.find token with
  | none => r
  | some s => (r.cleanupConnect token).attemptCandidates token (s.candidates.drop s.nextCandidate)

/-- The decision on the resolved addresses of a dial. -/
def filterAddresses (request : Request) (addresses : List SockAddr) (literal : Bool) :
    Except OpenError (List SockAddr) :=
  let filtered :=
    if request.bypassAclForAuthorizedLoopback then
      some (addresses.map (setSockaddrPort request.port))
    else r.acl.filterResolvedAddresses r.inet addresses request.port
  match filtered with
  | none => .error .aclDenied
  | some filtered =>
    if filtered.isEmpty then .error (if literal then .aclDenied else .tcpTimeout) else .ok filtered

def onResolved (token : UInt64) (addresses : List SockAddr) (literal : Bool) : Reactor :=
  match r.find token with
  | none => r
  | some s =>
    match r.filterAddresses s.request addresses literal with
    | .error error => r.complete token error
    | .ok filtered =>
      (r.update token fun s =>
        { s with candidates := filtered, nextCandidate := 0 }).startNextAttempt token

def onConnectReady (token : UInt64) (readyFd : Fd) (status : SocketStatus) : Reactor :=
  match r.find token with
  | none => r
  | some s =>
    if s.fd ≠ some readyFd then r
    else
      let r := r.unregister token
      match status with
      | .unreadable =>
        ((r.recordInternalFailure token).closeOwnedSocket token).startNextAttempt token
      | .connected => r.completeConnected token
      | .failed error =>
        ((r.recordConnectFailure token error).closeOwnedSocket token).startNextAttempt token

/-- Attempts past their deadline are given up; the tokens are collected before the first is. -/
def expireAttempts (now : Nat) : Reactor :=
  let expired := (r.pending.filter fun s => s.fd.isSome && s.deadline ≤ now).map (·.token)
  expired.foldl
    (fun r token =>
      match r.find token with
      | none => r
      | some _ =>
        ((r.update token fun s =>
          { s with sawTimeout := true }).cleanupConnect token).startNextAttempt token)
    { r with now }

/-! ### Name resolution -/

structure DnsResult where
  completed : Bool
  success : Bool
  addresses : List SockAddr
  deriving DecidableEq

def onDnsResult (token : UInt64) (result : DnsResult) : Reactor :=
  match r.find token with
  | none => r
  | some _ =>
    let r := r.update token fun s => { s with dnsCallbackRan := true, dnsId := 0 }
    if !result.completed || !result.success || result.addresses.isEmpty then
      r.complete token .dnsFailed
    else r.onResolved token result.addresses false

/-- The resolver hands a completed query to the callback that asked for it. -/
def deliver (results : List (UInt64 × DnsResult)) : Reactor :=
  results.foldl
    (fun r (id, result) =>
      match r.queries.find? (·.1 = id) with
      | none => r
      | some (_, token) =>
        { r with queries := r.queries.filter (·.1 ≠ id) }.onDnsResult token result)
    r

/-- The socket reactor calls the handlers of the ready sockets. -/
def dispatch (ready : List (Fd × SocketStatus)) : Reactor :=
  ready.foldl
    (fun r (fd, status) =>
      match r.sockets.find? (·.1 = fd) with
      | none => r
      | some (_, token) => r.onConnectReady token fd status)
    r

def parseIpLiteral (host : Bytes) : List SockAddr :=
  match r.inet.pton4 (cString host) with
  | some v4 => [.inet v4 0]
  | none =>
    match r.inet.pton6 (cString host) with
    | some v6 => [.inet6 v6 0 0 0]
    | none => []

end Reactor

/-! ### Threads -/

/-- What the operating system and the resolver bring to one step. -/
structure Io where
  attempts : List Attempt
  now : Nat
  dns : List (UInt64 × Reactor.DnsResult)
  ready : List (Fd × SocketStatus)
  dnsLate : List (UInt64 × Reactor.DnsResult)
  later : Nat
  deriving DecidableEq

inductive Call where
  | submit (host : Bytes) (port : UInt16) (bypass hasComplete : Bool)
  | resolve (token : UInt64)
  | submitResolved (token dnsId : UInt64)
  | cancel (token : UInt64)
  | runOnce
  | start
  | stop
  | updateAcl (acl : Rules)
  | drain
  | runCompletion (completion : ReadyCompletion)
  deriving DecidableEq

namespace Reactor

variable (r : Reactor)

def newDial (host : Bytes) (port : UInt16) (bypass : Bool) : DialState where
  token := r.nextAvailableToken
  request := { host, port, bypassAclForAuthorizedLoopback := bypass, complete := some r.dials }
  dnsId := 0
  candidates := []
  nextCandidate := 0
  fd := none
  registered := false
  dnsCallbackRan := false
  sawRefused := false
  sawTimeout := false
  sawInternal := false
  deadline := 0

def insertDial (state : DialState) : Reactor :=
  { r with
    nextToken := state.token + 1
    dials := r.dials + 1
    pending := r.pending ++ [state]
    log := r.log ++ [.submitted state.token r.dials] }

def submit (host : Bytes) (port : UInt16) (bypass hasComplete : Bool) : Reactor × List Call :=
  if !r.started || host.isEmpty || port = 0 || !hasComplete then (r, [])
  else
    let state := r.newDial host port bypass
    let r := r.insertDial state
    let literalAddrs := r.parseIpLiteral host
    if literalAddrs.isEmpty then (r, [.resolve state.token])
    else (r.onResolved state.token literalAddrs true, [.drain])

/-- `Resolve` runs without the lock; the resolver only records the query. -/
def resolve (token : UInt64) : Reactor × List Call :=
  if r.started then
    let id := r.nextQueryId
    ({ r with queries := r.queries ++ [(id, token)], nextQuery := id + 1 },
      [.submitResolved token id])
  else (r, [.submitResolved token 0])

def submitResolved (token dnsId : UInt64) : Reactor × List Call :=
  match r.find token with
  | none => (r, if dnsId = 0 then [] else [.drain])
  | some s =>
    if s.dnsCallbackRan then (r, [.drain])
    else if dnsId = 0 then ((r.cleanupState token true).erase token, [])
    else (r.update token fun s => { s with dnsId }, [.drain])

def cancel (token : UInt64) : Reactor :=
  match r.find token with
  | none => r
  | some _ => (r.cleanupState token true).erase token

def runOnce (io : Io) : Reactor :=
  if r.started then
    ((((r.deliver io.dns).expireAttempts io.now).dispatch io.ready).deliver
      io.dnsLate).expireAttempts io.later
  else r

def stop : Reactor :=
  let r := r.pending.foldl (fun r s => r.cleanupState s.token true) r
  { r with pending := [], queries := [], sockets := [], started := false }

/-- A pass of the drain loop: the waiting completions are taken out under the lock and run without
it. -/
def drain : Reactor × List Call :=
  if r.readyCompletions.isEmpty then (r, [])
  else ({ r with readyCompletions := [] }, r.readyCompletions.map .runCompletion ++ [.drain])

def runCompletion (completion : ReadyCompletion) : Reactor :=
  match completion.complete with
  | some dial => r.emit (.callbackStarted dial completion.result)
  | none =>
    match completion.result.fd with
    | some fd => r.emit (.socketClosed fd)
    | none => r

def execute (io : Io) (call : Call) : Reactor × List Call :=
  let r := { r with attempts := io.attempts, now := io.now }
  match call with
  | .submit host port bypass hasComplete => r.submit host port bypass hasComplete
  | .resolve token => r.resolve token
  | .submitResolved token dnsId => r.submitResolved token dnsId
  | .cancel token => ((r.cancel token).emit (.cancelReturned token), [])
  | .runOnce => (r.runOnce io, [.drain])
  | .start => ({ r with started := true }, [])
  | .stop => (r.stop, [])
  | .updateAcl acl => ({ r with acl }, [])
  | .drain => r.drain
  | .runCompletion completion => (r.runCompletion completion, [])

end Reactor

/-- The reactor and the calls that its threads still have to make. -/
abbrev System (θ : Type) := Machine.Pool θ Reactor Call

inductive Action (θ : Type) where
  | enter (thread : θ) (call : Call)
  | call (thread : θ) (io : Io)
  deriving DecidableEq

/-- The calls that a thread may enter the reactor with. -/
def Call.isEntry : Call → Bool
  | .submit .. | .cancel _ | .runOnce | .start | .stop | .updateAcl _ => true
  | .resolve _ | .submitResolved .. | .drain | .runCompletion _ => false

variable {θ : Type} [DecidableEq θ]

def step (s : System θ) : Action θ → Option (System θ)
  | .enter thread call => if call.isEntry then s.enter thread [call] else none
  | .call thread io => s.advance (fun r c => r.execute io c) thread

/-- A new reactor. -/
def start (θ : Type) (inet : Inet) (acl : Rules) : System θ where
  shared := {
    inet, acl, started := false, nextToken := 1, pending := [], readyCompletions := []
    nextQuery := 1, queries := []
    sockets := [], attempts := [], now := 0, dials := 0, log := [] }
  calls _ := []

end TcpQuicProxy.Dial
