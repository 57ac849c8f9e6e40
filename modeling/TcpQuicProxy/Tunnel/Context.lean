import TcpQuicProxy.Machine.Pool
import TcpQuicProxy.Protocol.OpenFrame

/-!
# The tunnel context in the OPEN phase

`TqTunnelContext` owns a stream from its first byte until a relay takes it
over. Its handlers run on several threads and hold `Lock` only for short
sections, so every section is a call of its own: it changes the context and
names the calls that follow it on the same thread. `Io` holds what the
environment answers during one call.

The record has the fields that decide what happens to the bytes, the responses
and the relay. When the object deletes itself, what it traces and what it tells
the registry are left out, and so is the synchronous client path.
-/

namespace TcpQuicProxy.Tunnel

open Protocol

inductive Role where
  | clientOpen
  | serverOpen
  deriving DecidableEq

/-- The owner of a stream's events: the target of its `TqStreamLifetime`. A
`foreign` stream carries another kind of control traffic, and `gone` is the
state after SHUTDOWN_COMPLETE. -/
inductive Target where
  | dispatcher
  | context
  | relay
  | foreign
  | gone
  deriving DecidableEq

inductive ShutdownIntent where
  | gracefulSend
  | abortReceive
  | abortBoth
  deriving DecidableEq

/-- What the open path does to the outside. `relayReceive` is a RECEIVE event
in the hands of the relay: one of MsQuic, or the replay of buffered bytes. -/
inductive Effect where
  | receiveIndicated (buffers : List Bytes) (fin : Bool)
  | receiveConsumed (count : Nat)
  | relayReceive (buffers : List Bytes) (fin replayed : Bool)
  | openResponse (response : OpenResponse)
  | openComplete (ok : Bool)
  | startRelay
  | relayPublished
  | relayStarted
  | stopRelay
  | closeTcp
  | shutdownTcpSend
  | shutdownStream (intent : ShutdownIntent)
  | acceptReturned (accepted : Bool)
  deriving DecidableEq

/-- The server dials on the reactor or on a thread of its own. -/
inductive DialMode where
  | reactor
  | thread
  deriving DecidableEq

/-- The result of a dial; `refused` is only set by a dial on a thread. -/
structure DialResult where
  done : Bool := true
  error : OpenError := .ok
  fd : Bool := true
  refused : Bool := false
  deriving DecidableEq

/-- The error that a dial ends the open with. -/
def DialMode.failure (result : DialResult) : DialMode → Option OpenError
  | .reactor =>
    if !result.done || result.error ≠ .ok || !result.fd then
      some (if result.done then result.error else .internal)
    else none
  | .thread =>
    if result.fd then none else some (if result.refused then .tcpRefused else .tcpTimeout)

structure Io where
  contextAllocated : Bool := true
  targetPublished : Bool := true
  hostText : Bool := true
  reactor : Bool := true
  resolveError : Option OpenError := none
  submitted : Bool := true
  dial : DialResult := {}
  connId : UInt32 := 0
  sendAccepted : Bool := true
  compressorCreated : Bool := true
  relayCommitted : Bool := true
  deriving DecidableEq

/-- `sends` are the sends of the tunnel that are in flight, each with the target
that gets its completion. -/
structure Context where
  role : Role
  target : Target
  stream : Bool := true
  tcpFd : Bool := false
  bufferedRx : Bytes := []
  openingRx : Bytes := []
  pendingRelayRx : Bytes := []
  pendingRelayRxDispatchBuffer : Bytes := []
  openDone : Bool := false
  relayStarted : Bool := false
  shutdownComplete : Bool := false
  streamShutdownQueued : Bool := false
  abortedByConnection : Bool := false
  -- server
  serverOpenDispatched : Bool := false
  pendingServerOpen : Bool := false
  serverDialReactor : Bool := false
  serverDialToken : Bool := false
  serverDialCallbackActive : Bool := false
  serverDialPendingWithReactor : Bool := false
  dialRequest : Option (DialMode × UInt8) := none
  pendingServerRelay : Bool := false
  pendingServerRelayFlags : UInt8 := 0
  pendingOpenFailureShutdown : Bool := false
  -- client
  asyncClientOpenHandle : Bool := false
  asyncClientOpenFlags : UInt8 := 0
  asyncClientOpenAccepted : Bool := false
  openSendComplete : Bool := false
  pendingClientRelay : Bool := false
  pendingClientRelayFlags : UInt8 := 0
  sends : List Target := []
  log : List Effect := []

/-- Who called `StartRelay`, and so what follows it. -/
inductive Caller where
  | startPendingServerRelay
  | acceptAsyncClientOpen
  | onSendComplete
  deriving DecidableEq

inductive Call where
  -- RECEIVE
  | dispatch (bytes : Bytes)
  | onReceive (bytes : Bytes)
  | returnSuccess (count : Nat)
  -- OPEN request
  | tryHandleServerOpen
  | tryHandleServerOpenWithReactor (flags : UInt8)
  | submitDial (flags : UInt8)
  | submitFailed
  | noteDialToken
  | spawnDial (flags : UInt8)
  -- end of the dial
  | beginServerDialCallback (flags : UInt8)
  | finishServerOpen (mode : DialMode) (flags : UInt8)
  | checkAborted (flags : UInt8)
  | recheckAborted (flags : UInt8)
  | sendOpenOk (flags : UInt8)
  | openOkFailed
  | notePendingServerRelay (flags : UInt8)
  | serverOpenFinished
  | cancelServerDial
  | clearServerDial (reactor token : Bool)
  | closeTcp
  -- OPEN failure
  | guardOpenFailure (error : OpenError)
  | sendOpenFailureResponse (error : OpenError)
  | notePendingOpenFailureShutdown
  | armSelfDeleteOnShutdown
  | shutdownReceiveAfterOpenFailure
  -- OPEN response
  | tryCompleteClientOpen
  | completeOpen (ok : Bool)
  | completeAsyncClientOpenIfNeeded (ok : Bool)
  -- SEND_COMPLETE
  | onSendComplete
  | startPendingServerRelay
  | startPendingClientRelay (caller : Caller)
  -- start of the relay
  | startRelay (flags : UInt8) (caller : Caller)
  | registerRelay (tcpFd : Bool) (caller : Caller)
  | commitRelay (caller : Caller)
  | noteRelayStarted (caller : Caller)
  | dispatchPendingRelayRx (caller : Caller)
  | dispatchBufferedEvent (bytes : Bytes) (caller : Caller)
  | startRelayReturned (ok : Bool) (caller : Caller)
  -- ingress
  | acceptAsyncClientOpen
  | isPendingClientRelayWaiting
  | acceptReturned (accepted : Bool)
  | abortAcceptedClientOpenBeforeRelay
  -- connection and stream shutdown
  | stopRelay
  | noteStartFailure
  | noteShutdownComplete
  deriving DecidableEq

namespace Context

variable (c : Context) (io : Io)

def emit (e : Effect) : Context := { c with log := c.log ++ [e] }

def isAbortedOrShutdown : Bool :=
  c.abortedByConnection || c.shutdownComplete || c.streamShutdownQueued

def closeTcpLocked : Context := if c.tcpFd then { c with tcpFd := false }.emit .closeTcp else c

/-- Every path that shuts the stream down does so at most once. -/
def queueStreamShutdown (intent : ShutdownIntent) : Context :=
  if c.stream && !c.shutdownComplete && !c.streamShutdownQueued then
    { c with streamShutdownQueued := true }.emit (.shutdownStream intent)
  else c

@[simp] theorem closeTcpLocked_eq :
    c.closeTcpLocked =
      { c with tcpFd := false, log := c.log ++ if c.tcpFd then [.closeTcp] else [] } := by
  unfold closeTcpLocked emit
  split
  · rfl
  next h =>
    rw [Bool.not_eq_true] at h
    cases c
    simp_all

@[simp] theorem queueStreamShutdown_eq (intent : ShutdownIntent) :
    c.queueStreamShutdown intent = { c with
      streamShutdownQueued := c.streamShutdownQueued || (c.stream && !c.shutdownComplete)
      log := c.log ++
        if c.stream && !c.shutdownComplete && !c.streamShutdownQueued then [.shutdownStream intent]
        else [] } := by
  unfold queueStreamShutdown emit
  split
  next h => simp_all
  next h =>
    cases c
    simp_all

/-- `PublishTarget` refuses a stream that has ended. -/
def publishTarget : Bool := io.targetPublished && c.target ≠ .gone

/-- The response can be encoded, and `SendBytes` puts it on the stream. A stream
that has ended gives no API lease. -/
def sendBytes (resp : OpenResponse) : Bool :=
  (encodeOpenResponse resp).isSome && c.stream && !c.shutdownComplete && !c.streamShutdownQueued &&
    c.target ≠ .gone && io.sendAccepted

@[simp] def submitResponse (resp : OpenResponse) : Context :=
  { c with sends := c.sends ++ [c.target] }.emit (.openResponse resp)

/-! ### RECEIVE -/

/-- `SendOpenFailure` starts with `CloseTcp`. -/
@[simp] def sendOpenFailure (error : OpenError) : List Call :=
  [.cancelServerDial, .closeTcp, .guardOpenFailure error]

@[simp] def handOffToTunnelContext : Context × List Call :=
  if io.contextAllocated && c.publishTarget io then
    ({ c with target := .context, openingRx := c.bufferedRx, bufferedRx := [] },
      [.tryHandleServerOpen])
  else (c.emit (.shutdownStream .abortBoth), [])

/-- `TryDispatch` of the dispatcher of incoming streams; only an OPEN command
leads to a tunnel. -/
@[simp] def tryDispatch : Context × List Call :=
  if c.bufferedRx.length < 4 then (c, [])
  else if byteAt c.bufferedRx 0 ≠ magic0 || byteAt c.bufferedRx 1 ≠ magic1 ||
    byteAt c.bufferedRx 2 ≠ version then
    (c.emit (.shutdownStream .abortBoth), [])
  else if byteAt c.bufferedRx 3 = cmdOpen then c.handOffToTunnelContext io
  else ({ c with target := .foreign }, [])

/-- Keep what follows the first `count` bytes of the opening buffer. -/
@[simp] def assignPendingRelayRx (count : Nat) : Context :=
  { c with
    pendingRelayRx :=
      if count < c.openingRx.length then c.openingRx.drop count else c.pendingRelayRx }

@[simp] def tryHandleServerOpen : Context × List Call :=
  if c.serverOpenDispatched then (c, [])
  else if c.openingRx.length < 10 then (c, [])
  else if c.openingRx.length < openRequestLength c.openingRx then (c, [])
  else
    match decodeOpenRequest (c.openingRx.take (openRequestLength c.openingRx)) with
    | none => ({ c with serverOpenDispatched := true }, sendOpenFailure .internal)
    | some req =>
      let c := c.assignPendingRelayRx (openRequestLength c.openingRx)
      if !io.hostText then ({ c with serverOpenDispatched := true }, sendOpenFailure .internal)
      else if io.reactor then (c, [.tryHandleServerOpenWithReactor req.flags])
      else
        match io.resolveError with
        | some error => ({ c with serverOpenDispatched := true }, sendOpenFailure error)
        | none => (c, [.spawnDial req.flags])

@[simp] def tryCompleteClientOpen : Context × List Call :=
  if c.openingRx.length < openResponseSize then (c, [])
  else
    match decodeOpenResponse (c.openingRx.take openResponseSize) with
    | none => (c, [.completeOpen false])
    | some resp =>
      (if resp.ok then c.assignPendingRelayRx openResponseSize else c, [.completeOpen resp.ok])

@[simp] def completeOpen (ok : Bool) : Context × List Call :=
  if c.openDone then (c, [])
  else ({ c with openDone := true }, [.completeAsyncClientOpenIfNeeded ok])

/-! ### The dial of the server -/

@[simp] def forgetServerDial : Context :=
  { c with
    pendingServerOpen := false
    serverDialReactor := false
    serverDialToken := false
    serverDialPendingWithReactor := false }

/-- The dial that was submitted is still the one to wait for. -/
def awaitsServerDial : Bool :=
  c.pendingServerOpen && c.serverDialReactor && !c.serverDialCallbackActive

@[simp] def tryHandleServerOpenWithReactor (flags : UInt8) : Context × List Call :=
  if c.serverOpenDispatched then ({ c.forgetServerDial with serverDialCallbackActive := false }, [])
  else
    ({ c with
      serverOpenDispatched := true
      pendingServerOpen := true
      serverDialReactor := true
      serverDialToken := false
      serverDialCallbackActive := false
      serverDialPendingWithReactor := true }, [.submitDial flags])

@[simp] def submitFailed : Context × List Call :=
  if !c.awaitsServerDial then (c, [])
  else if c.isAbortedOrShutdown then (c.forgetServerDial, [])
  else (c.forgetServerDial, sendOpenFailure .internal)

/-- A token that nobody waits for is cancelled. -/
@[simp] def noteDialToken : Context :=
  if c.awaitsServerDial then { c with serverDialToken := true } else { c with dialRequest := none }

@[simp] def spawnDial (flags : UInt8) : Context :=
  if c.serverOpenDispatched then { c with pendingServerOpen := false }
  else { c with
    serverOpenDispatched := true, pendingServerOpen := true, dialRequest := some (.thread, flags) }

@[simp] def beginServerDialCallback (flags : UInt8) : Context × List Call :=
  if !c.pendingServerOpen || !c.serverDialReactor then (c, [])
  else
    ({ c with
      serverDialCallbackActive := true
      serverDialToken := false
      serverDialPendingWithReactor := true },
        [.finishServerOpen .reactor flags, .serverOpenFinished])

/-- `FinishServerOpenAfterReactorDial` and `FinishServerOpenAfterDial` up to the
first check for an abort. -/
@[simp] def finishServerOpen (mode : DialMode) (flags : UInt8) : Context × List Call :=
  match mode.failure io.dial with
  | some error => (c, sendOpenFailure error)
  | none =>
    let c := { c with tcpFd := true }
    if c.abortedByConnection || c.shutdownComplete then (c.closeTcpLocked, [])
    else (c, [.checkAborted flags])

/-- `CancelServerDialAndMaybeDelete` up to the call of the reactor. -/
@[simp] def cancelServerDial : Context × List Call :=
  if !c.serverDialPendingWithReactor && !c.serverDialCallbackActive then (c, [])
  else
    ({ c with
      dialRequest := if c.serverDialReactor && c.serverDialToken then none else c.dialRequest },
      [.clearServerDial c.serverDialReactor c.serverDialToken])

@[simp] def clearServerDial (reactor token : Bool) : Context :=
  if c.serverDialPendingWithReactor && c.serverDialReactor = reactor &&
    c.serverDialToken = token then
    { c with
      serverDialReactor := false
      serverDialToken := false
      serverDialPendingWithReactor := false
      pendingServerOpen := c.pendingServerOpen && c.serverDialCallbackActive }
  else c

/-! ### Responses and their completions -/

@[simp] def sendOpenOk (flags : UInt8) : Context × List Call :=
  let resp : OpenResponse := { ok := true, error := OpenError.ok.code, connId := io.connId }
  if c.sendBytes io resp then (c.submitResponse resp, [.notePendingServerRelay flags])
  else (c, [.openOkFailed])

@[simp] def notePendingServerRelay (flags : UInt8) : Context :=
  if c.isAbortedOrShutdown then c
  else { c with pendingServerRelay := true, pendingServerRelayFlags := flags }

@[simp] def sendOpenFailureResponse (error : OpenError) : Context × List Call :=
  let resp : OpenResponse := { ok := false, error := error.code, connId := 0 }
  if c.sendBytes io resp then (c.submitResponse resp, [.notePendingOpenFailureShutdown])
  else (c, [.armSelfDeleteOnShutdown])

@[simp] def armSelfDeleteOnShutdown : Context :=
  if c.relayStarted then c else c.queueStreamShutdown .abortBoth

@[simp] def onSendComplete : Context × List Call :=
  match c.role with
  | .serverOpen =>
    if c.pendingOpenFailureShutdown then
      ({ c with pendingOpenFailureShutdown := false }, [.shutdownReceiveAfterOpenFailure])
    else (c, [.startPendingServerRelay])
  | .clientOpen => ({ c with openSendComplete := true }, [.startPendingClientRelay .onSendComplete])

/-! ### The start of the relay -/

@[simp] def startPendingServerRelay : Context × List Call :=
  if !c.pendingServerRelay || c.relayStarted || c.shutdownComplete || c.streamShutdownQueued then
    (c, [])
  else ({ c with pendingServerRelay := false },
    [.startRelay c.pendingServerRelayFlags .startPendingServerRelay])

@[simp] def startPendingClientRelay (caller : Caller) : Context × List Call :=
  if !c.pendingClientRelay || !c.openSendComplete || c.relayStarted || c.shutdownComplete ||
      c.streamShutdownQueued then (c, [.startRelayReturned c.relayStarted caller])
  else ({ c with pendingClientRelay := false }, [.startRelay c.pendingClientRelayFlags caller])

/-- `StartRelay` up to its first section. -/
@[simp] def startRelay (flags : UInt8) (caller : Caller) : Context × List Call :=
  if flags &&& flagCompress ≠ 0 && !io.compressorCreated then
    (c.emit .startRelay, [.startRelayReturned false caller])
  else if !c.stream || c.shutdownComplete || c.streamShutdownQueued || c.relayStarted then
    (c.emit .startRelay, [.startRelayReturned false caller])
  else (c.emit .startRelay, [.registerRelay c.tcpFd caller])

/-- The worker takes the socket when it publishes its binding. -/
@[simp] def registerRelay (tcpFd : Bool) (caller : Caller) : Context × List Call :=
  if tcpFd && c.publishTarget io then
    ({ c with target := .relay }.emit .relayPublished, [.commitRelay caller])
  else (c, [.startRelayReturned false caller])

@[simp] def commitRelay (caller : Caller) : Context × List Call :=
  if io.relayCommitted then (c, [.noteRelayStarted caller])
  else ({ c with tcpFd := false }, [.startRelayReturned false caller])

@[simp] def noteRelayStarted (caller : Caller) : Context × List Call :=
  if !c.stream || c.shutdownComplete || c.streamShutdownQueued then
    (c.emit .stopRelay, [.startRelayReturned false caller])
  else
    ({ c with relayStarted := true, tcpFd := false }.emit .relayStarted,
      [.dispatchPendingRelayRx caller])

@[simp] def dispatchPendingRelayRx (caller : Caller) : Context × List Call :=
  let c' := { c with
    pendingRelayRx := c.pendingRelayRxDispatchBuffer
    pendingRelayRxDispatchBuffer := c.pendingRelayRx }
  if c.pendingRelayRx = [] then (c', [.startRelayReturned true caller])
  else (c', [.dispatchBufferedEvent c.pendingRelayRx caller])

/-- The length of a `QUIC_BUFFER` has 32 bits. -/
def quicBuffer (bytes : Bytes) : Bytes := bytes.take (bytes.length % 4294967296)

/-- The replay is routed like an event of MsQuic. -/
@[simp] def dispatchBufferedEvent (bytes : Bytes) (caller : Caller) : Context × List Call :=
  match c.target with
  | .relay =>
    (c.emit (.relayReceive [quicBuffer bytes] false true), [.startRelayReturned true caller])
  | .context => (c, [.onReceive (quicBuffer bytes), .startRelayReturned true caller])
  | .dispatcher => (c, [.dispatch (quicBuffer bytes), .startRelayReturned true caller])
  | .foreign | .gone => (c, [.startRelayReturned true caller])

@[simp] def startRelayReturned (ok : Bool) : Caller → List Call
  | .startPendingServerRelay => if ok then [] else sendOpenFailure .internal
  | .acceptAsyncClientOpen => if ok then [.acceptReturned true] else [.isPendingClientRelayWaiting]
  | .onSendComplete => if ok then [] else [.abortAcceptedClientOpenBeforeRelay]

/-! ### The ingress side of a client open -/

@[simp] def acceptAsyncClientOpen : Context × List Call :=
  if c.asyncClientOpenHandle then
    ({ c with
      asyncClientOpenHandle := false
      asyncClientOpenAccepted := true
      pendingClientRelay := true
      pendingClientRelayFlags := c.asyncClientOpenFlags },
        [.startPendingClientRelay .acceptAsyncClientOpen])
  else (c, [.acceptReturned false])

def isPendingClientRelayWaiting : Bool :=
  c.asyncClientOpenAccepted && c.pendingClientRelay && !c.openSendComplete && !c.relayStarted &&
    !c.shutdownComplete && !c.streamShutdownQueued

@[simp] def abortAcceptedClientOpenBeforeRelay : Context :=
  if !c.asyncClientOpenAccepted || c.relayStarted || c.shutdownComplete ||
    c.streamShutdownQueued then c
  else { c with pendingClientRelay := false }.closeTcpLocked.queueStreamShutdown .abortBoth

/-- `RejectAsyncClientOpen` and `CancelAsyncClientOpen`. -/
@[simp] def rejectAsyncClientOpen : Context :=
  if c.asyncClientOpenHandle then
    { c with asyncClientOpenHandle := false }.closeTcpLocked.queueStreamShutdown .abortBoth
  else c

@[simp] def abandonAsyncClientOpenWithoutClosingTcp : Context :=
  if c.asyncClientOpenHandle then
    { c with asyncClientOpenHandle := false, tcpFd := false }.queueStreamShutdown .abortBoth
  else c

/-! ### Shutdown -/

@[simp] def abortForConnectionShutdown : Context × List Call :=
  let c' := { c with abortedByConnection := true }.closeTcpLocked
  if c.relayStarted then (c', [.cancelServerDial, .stopRelay])
  else (c'.queueStreamShutdown .abortBoth, [.cancelServerDial])

@[simp] def drainFromAdmin : Context :=
  if c.shutdownComplete || c.streamShutdownQueued then c
  else
    { c with
      streamShutdownQueued := true
      log := c.log ++ (if c.tcpFd then [.shutdownTcpSend] else []) ++
        if c.stream then [.shutdownStream .gracefulSend] else [] }

/-- Make one call: the new context and what follows on the same thread. -/
def execute : Call → Context × List Call
  | .dispatch bytes => { c with bufferedRx := c.bufferedRx ++ bytes }.tryDispatch io
  | .onReceive bytes =>
    ({ c with openingRx := c.openingRx ++ bytes },
      [match c.role with
        | .clientOpen => .tryCompleteClientOpen
        | .serverOpen => .tryHandleServerOpen])
  | .returnSuccess count => (c.emit (.receiveConsumed count), [])
  | .tryHandleServerOpen => c.tryHandleServerOpen io
  | .tryHandleServerOpenWithReactor flags => c.tryHandleServerOpenWithReactor flags
  | .submitDial flags =>
    if io.submitted then ({ c with dialRequest := some (.reactor, flags) }, [.noteDialToken])
    else (c, [.submitFailed])
  | .submitFailed => c.submitFailed
  | .noteDialToken => (c.noteDialToken, [])
  | .spawnDial flags => (c.spawnDial flags, [])
  | .beginServerDialCallback flags => c.beginServerDialCallback flags
  | .finishServerOpen mode flags => c.finishServerOpen io mode flags
  | .checkAborted flags =>
    if c.isAbortedOrShutdown then (c, [.cancelServerDial, .closeTcp])
    else (c, [.recheckAborted flags])
  | .recheckAborted flags =>
    if c.isAbortedOrShutdown then (c, [.cancelServerDial, .closeTcp]) else (c, [.sendOpenOk flags])
  | .sendOpenOk flags => c.sendOpenOk io flags
  | .openOkFailed => if c.isAbortedOrShutdown then (c, []) else (c, sendOpenFailure .internal)
  | .notePendingServerRelay flags => (c.notePendingServerRelay flags, [])
  | .serverOpenFinished => ({ c.forgetServerDial with serverDialCallbackActive := false }, [])
  | .cancelServerDial => c.cancelServerDial
  | .clearServerDial reactor token => (c.clearServerDial reactor token, [])
  | .closeTcp => (c.closeTcpLocked, [])
  | .guardOpenFailure error =>
    if c.isAbortedOrShutdown then (c, [.armSelfDeleteOnShutdown])
    else (c, [.sendOpenFailureResponse error])
  | .sendOpenFailureResponse error => c.sendOpenFailureResponse io error
  | .notePendingOpenFailureShutdown => ({ c with pendingOpenFailureShutdown := true }, [])
  | .armSelfDeleteOnShutdown => (c.armSelfDeleteOnShutdown, [])
  | .shutdownReceiveAfterOpenFailure => (c.queueStreamShutdown .abortReceive, [])
  | .tryCompleteClientOpen => c.tryCompleteClientOpen
  | .completeOpen ok => c.completeOpen ok
  | .completeAsyncClientOpenIfNeeded ok =>
    (if c.role = .clientOpen && c.asyncClientOpenHandle then c.emit (.openComplete ok) else c, [])
  | .onSendComplete => c.onSendComplete
  | .startPendingServerRelay => c.startPendingServerRelay
  | .startPendingClientRelay caller => c.startPendingClientRelay caller
  | .startRelay flags caller => c.startRelay io flags caller
  | .registerRelay tcpFd caller => c.registerRelay io tcpFd caller
  | .commitRelay caller => c.commitRelay io caller
  | .noteRelayStarted caller => c.noteRelayStarted caller
  | .dispatchPendingRelayRx caller => c.dispatchPendingRelayRx caller
  | .dispatchBufferedEvent bytes caller => c.dispatchBufferedEvent bytes caller
  | .startRelayReturned ok caller => (c, startRelayReturned ok caller)
  | .acceptAsyncClientOpen => c.acceptAsyncClientOpen
  | .isPendingClientRelayWaiting =>
    if c.isPendingClientRelayWaiting then (c, [.acceptReturned true])
    else (c, [.abortAcceptedClientOpenBeforeRelay, .acceptReturned false])
  | .acceptReturned accepted => (c.emit (.acceptReturned accepted), [])
  | .abortAcceptedClientOpenBeforeRelay => (c.abortAcceptedClientOpenBeforeRelay, [])
  | .stopRelay => (c.emit .stopRelay, [])
  | .noteStartFailure => ({ c with stream := false, shutdownComplete := true }, [])
  | .noteShutdownComplete =>
    ({ c with stream := false, shutdownComplete := true, streamShutdownQueued := false }, [])

end Context
end TcpQuicProxy.Tunnel
