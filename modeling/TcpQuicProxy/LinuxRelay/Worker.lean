import TcpQuicProxy.LinuxRelay.Download

/-!
# The worker thread and the stream callback as one machine

The worker executes one call at a time; the calls that its current event
handler still has to make stand in `calls`. Between two calls the stream
callback may deliver events and other producers may fill the bounded event
queue. Events of other relays and control commands are `foreign`: they take
queue space and have no effect on this relay.

A run starts in the middle of `RegisterRelayWithIdLocal`, right after the
binding was published as the target of the stream: the callback already
delivers events, and keeps the views of RECEIVE events in the binding until the
worker activates it.
-/

namespace TcpQuicProxy.LinuxRelay

/-- A RECEIVE event: its buffers, its `TotalBufferLength` and its FIN flag. -/
structure ReceiveEvent where
  buffers : List Bytes
  totalBufferLength : Nat
  fin : Bool := false
  deriving DecidableEq

/-- An event as MsQuic reports it, with the length of its buffers. -/
def ReceiveEvent.indicated (buffers : List Bytes) (fin : Bool) : ReceiveEvent :=
  { buffers := buffers, totalBufferLength := buffers.flatten.length, fin := fin }

def ReceiveEvent.finOnly (e : ReceiveEvent) : Bool := e.fin && e.totalBufferLength = 0

inductive CallbackStatus where
  | success
  | pending
  | outOfMemory
  deriving DecidableEq

/-- Peer aborts, the fake FIN and failed callbacks ask for a terminal handoff. -/
inductive TerminalEvent where
  | terminalHandoff
  | quicShutdownComplete
  deriving DecidableEq

/-- The event types of the worker queue that concern a registered relay. -/
inductive QueueEvent where
  | quicReceiveView (view : ReceiveView)
  | quicSendComplete (op : SendOperation)
  | quicIdealSendBuffer (byteCount : Nat)
  | tcpWritable
  | terminal (event : TerminalEvent)
  | unregisterRelay
  | foreign
  deriving DecidableEq

/-- What the worker still has to do in the handler it is executing. -/
inductive Call where
  | commitRelay
  | activateManagedBinding
  | drainQuicSendCompletionFallbacks
  | drainQuicTerminalFallbacks
  | popEvents (processed : Nat)
  | processQuicReceiveView (view : ReceiveView)
  | completeQuicSend (op : SendOperation)
  | resumeAfterQuicSend
  | handleQuicIdealSendBuffer (byteCount : Nat)
  | processTerminalHandoffRequest
  | abortRelayAndRelease
  | processQuicShutdownComplete
  | unregisterRelay
  | flushTcpWrites
  | flushDeferredQuicReceives
  | drainTcpReadable
  | drainTcpReadableTurn (readBytes : Nat)
  | retryPendingQuicSends
  | drainCallbackPendingQuicReceives
  | maybeResumeQuicReceive
  deriving DecidableEq

/-- `precommitReceives` are the views that wait for the activation of the
binding; a binding that is active or has failed has none. -/
structure Worker where
  relay : Relay := {}
  precommitReceives : Option (List ReceiveView) := some []
  eventQueue : List QueueEvent := []
  sendCompletionFallback : List SendOperation := []
  terminalFallback : List TerminalEvent := []
  calls : List Call := []

/-- What a registration chooses for its relay, and the number of events that
the worker has processed in its pass up to the registration. -/
structure Registration where
  compressor : Bool := false
  decompressor : Bool := false
  compressAlgo : CompressAlgo := .none
  enableQuicSends : Bool := true
  sinkQuicReceives : Bool := false
  tcpFd : Bool := true
  processed : Nat := 1
  deriving DecidableEq

def Registration.compresses (reg : Registration) : Bool :=
  reg.compressor && reg.compressAlgo ≠ .none

def Registration.decompresses (reg : Registration) : Bool :=
  reg.decompressor && reg.compressAlgo = .zstd

/-- `RelayState` as its constructor leaves it, in front of a TCP peer that will
send `tcpInput`. -/
def Relay.ofRegistration (cfg : Config) (reg : Registration) (tcpInput : Bytes) : Relay where
  tcpFdOpen := reg.tcpFd
  compressor := reg.compressor
  decompressor := reg.decompressor
  compressAlgo := reg.compressAlgo
  enableQuicSends := reg.enableQuicSends
  sinkQuicReceives := reg.sinkQuicReceives
  idealSendBufferBytes :=
    if cfg.maxBufferedQuicSendBytes ≠ 0 then cfg.maxBufferedQuicSendBytes
    else initialIdealSendFallbackBytes
  tcpInput := tcpInput

/-- A worker that has just published the binding of a new relay, in the event
loop of `DrainEvents`. -/
def Worker.start (cfg : Config) (reg : Registration) (tcpInput : Bytes) : Worker where
  relay := .ofRegistration cfg reg tcpInput
  calls := [.commitRelay, .activateManagedBinding, .popEvents reg.processed, .retryPendingQuicSends,
    .drainCallbackPendingQuicReceives]

/-- The bits of an epoll event, and whether `SO_ERROR` reported an error. -/
structure EpollEvent where
  readable : Bool := false
  writable : Bool := false
  error : Bool := false
  hangup : Bool := false
  socketError : Bool := false
  deriving DecidableEq

inductive Action where
  -- stream callback
  | receive (buffers : List Bytes) (fin : Bool) (io : Io)
  | sendComplete (index : Nat)
  | idealSendBufferSize (byteCount : Nat)
  | terminalEvent
  | shutdownComplete
  -- other threads
  | enqueue (event : QueueEvent)
  -- worker thread
  | drainEvents
  | epoll (event : EpollEvent)
  | call (io : Io)

/-- `BuildPendingQuicReceive` for an open relay. -/
def ReceiveEvent.buildPendingQuicReceive (e : ReceiveEvent) : Option ReceiveView :=
  let slices := e.buffers.filter (· ≠ [])
  if slices.flatten = [] && !e.fin then none
  else some {
    slices := slices
    totalLength := slices.flatten.length
    fin := e.fin
    zeroLengthFinCompletionPending := !e.finOnly && e.fin && slices.flatten = [] }

/-- `TcpWritable` and `EPOLLOUT` flush in this order. -/
def writableCalls : List Call := [.flushTcpWrites, .flushDeferredQuicReceives, .flushTcpWrites]

def TerminalEvent.call : TerminalEvent → Call
  | .terminalHandoff => .processTerminalHandoffRequest
  | .quicShutdownComplete => .processQuicShutdownComplete

def QueueEvent.calls : QueueEvent → List Call
  | .quicReceiveView view => [.processQuicReceiveView view]
  | .quicSendComplete op => [.completeQuicSend op]
  | .quicIdealSendBuffer byteCount => [.handleQuicIdealSendBuffer byteCount]
  | .tcpWritable => writableCalls
  | .terminal event => [event.call]
  | .unregisterRelay => [.unregisterRelay]
  | .foreign => []

def Relay.pushCallbackPending (r : Relay) (view : ReceiveView) : Relay :=
  { r with callbackPendingQuicReceives := r.callbackPendingQuicReceives ++ [view] }

def Relay.pauseQuicReceiveFromCallback (r : Relay) : Relay :=
  if r.quicReceivePaused then r
  else { r with quicReceivePaused := true }.setQuicReceiveEnabled false

namespace Worker

variable (cfg : Config) (w : Worker)

/-- `Enqueue` on the bounded event queue; the Boolean is its return value. -/
def enqueue (e : QueueEvent) : Bool × Worker :=
  if w.eventQueue.length < cfg.eventQueueCapacity then
    (true, { w with eventQueue := w.eventQueue ++ [e] })
  else (false, w)

/-- Queue a terminal event, or its request on the fallback list. -/
def enqueueTerminal (e : TerminalEvent) : Worker :=
  match w.enqueue cfg (.terminal e) with
  | (true, w) => w
  | (false, w) => { w with terminalFallback := e :: w.terminalFallback }

/-- `QueueDeferredQuicReceiveFromOffset` with a built view. -/
def queueDeferredQuicReceive (view : ReceiveView) : Worker :=
  match w.enqueue cfg (.quicReceiveView view) with
  | (true, w) => w
  | (false, w) =>
    { w with relay := (w.relay.pushCallbackPending view).pauseQuicReceiveFromCallback }

/-- `QueuePrecommitQuicReceive` for a binding that is not active yet. -/
def queuePrecommitQuicReceive (views : List ReceiveView) (view : ReceiveView) : Option Worker :=
  let pending := Machine.total ReceiveView.remaining views
  if cfg.maxPendingQuicReceiveBytes - min pending cfg.maxPendingQuicReceiveBytes <
      view.remaining then none
  else some { w with precommitReceives := some (views ++ [view]) }

def abortRelayFromCallback : Worker :=
  { w with relay := w.relay.sealBinding }.enqueueTerminal cfg .terminalHandoff

/-- `FailManagedBinding` drops the views without credit. -/
def failManagedBinding : Worker :=
  { w with relay := w.relay.setRelayStop.sealBinding, precommitReceives := none }

/-- Put a view where the worker will find it. -/
def queueQuicReceiveView (view : ReceiveView) : Option Worker :=
  match w.precommitReceives with
  | none => some (w.queueDeferredQuicReceive cfg view)
  | some views => w.queuePrecommitQuicReceive cfg views view

/-- The RECEIVE branch of `OnStreamEventWithBinding`. -/
def onReceive (e : ReceiveEvent) (io : Io) : CallbackStatus × Worker :=
  if w.relay.bindingClosing || w.relay.closing then (.success, w)
  else
    match (if io.operationAllocated then e.buildPendingQuicReceive else none).bind
        ({ w with relay := w.relay.answering io }.queueQuicReceiveView cfg) with
    | none => (.outOfMemory, w.abortRelayFromCallback cfg)
    | some w' => (if e.finOnly then .success else .pending, w')

/-- A RECEIVE event of MsQuic. A return value of success consumes its bytes. -/
def indicateReceive (e : ReceiveEvent) (io : Io) : Worker :=
  let p :=
    { w with relay := w.relay.emit (.receiveIndicated e.buffers.flatten e.fin) }.onReceive cfg e io
  if p.1 = .success then
    { p.2 with relay := p.2.relay.emit (.receiveConsumed e.totalBufferLength) } else p.2

/-- The SEND_COMPLETE branch: the queue, or the fallback list when it is full. -/
def onSendComplete (op : SendOperation) : Worker :=
  match w.enqueue cfg (.quicSendComplete op) with
  | (true, w) => w
  | (false, w) => { w with sendCompletionFallback := op :: w.sendCompletionFallback }

/-- Peer aborts and the fake FIN seal the binding, SHUTDOWN_COMPLETE fails it. -/
def onTerminalEvent (e : TerminalEvent) : Worker :=
  if w.relay.bindingClosing then w
  else
    match e with
    | .terminalHandoff => { w with relay := w.relay.sealBinding }.enqueueTerminal cfg e
    | .quicShutdownComplete => w.failManagedBinding.enqueueTerminal cfg e

/-- The order of work of one `DrainEvents` pass. -/
def drainEventsCalls : List Call :=
  [.drainQuicSendCompletionFallbacks, .drainQuicTerminalFallbacks, .popEvents 0,
    .retryPendingQuicSends,
    .drainCallbackPendingQuicReceives]

/-- The checks and calls of `ProcessTcpEvents`. -/
def processTcpEvents (e : EpollEvent) : List Call :=
  if w.relay.streamShutdownComplete && (e.error || e.hangup) then []
  else if w.relay.closing then []
  else if e.error && e.socketError then [.abortRelayAndRelease]
  else (if e.writable then writableCalls else []) ++
    (if e.readable || e.hangup || e.error then [.drainTcpReadable] else [])

/-- The rest of `RegisterRelayWithIdLocal` behind the publication. A relay that
cannot be committed is closed and leaves the tables. -/
def commitRelay : Worker :=
  if w.relay.bindingClosing then
    { w.failManagedBinding with relay := w.failManagedBinding.relay.erase }
  else if w.relay.tcpFdOpen && !w.relay.io.epollAdded then
    { w.failManagedBinding with
      relay := (w.failManagedBinding.relay.beginTerminalHandoff cfg false).erase }
  else w

def activateManagedBinding : Worker :=
  match w.precommitReceives with
  | none => w
  | some views =>
    { w with precommitReceives := none, calls := views.map .processQuicReceiveView ++ w.calls }

/-- Execute one call; `w.calls` is what the handler does afterwards. -/
def execute : Call → Worker
  | .commitRelay => w.commitRelay cfg
  | .activateManagedBinding => w.activateManagedBinding
  | .drainQuicSendCompletionFallbacks =>
    { w with
      sendCompletionFallback := []
      calls := w.sendCompletionFallback.map .completeQuicSend ++ w.calls }
  | .drainQuicTerminalFallbacks =>
    { w with terminalFallback := [], calls := w.terminalFallback.map TerminalEvent.call ++ w.calls }
  | .popEvents processed =>
    match w.eventQueue with
    | [] => w
    | e :: rest =>
      if cfg.eventBudget ≤ processed then w
      else { w with eventQueue := rest, calls := e.calls ++ .popEvents (processed + 1) :: w.calls }
  | .processQuicReceiveView view =>
    { w with
      relay := w.relay.appendQuicReceive cfg view
      calls := if w.relay.closing then w.calls else .flushDeferredQuicReceives :: w.calls }
  | .completeQuicSend op =>
    { w with
      relay := w.relay.accountQuicSend op
      calls := if w.relay.closing then
        w.calls else .flushDeferredQuicReceives :: .resumeAfterQuicSend :: w.calls }
  | .resumeAfterQuicSend => { w with relay := w.relay.resumeTcpRead.maybeStopFullyClosedRelay cfg }
  | .handleQuicIdealSendBuffer byteCount =>
    { w with relay := w.relay.handleQuicIdealSendBuffer byteCount }
  -- a request of a relay that has let go of its stream does not match any more
  | .processTerminalHandoffRequest =>
    if w.relay.streamOwner then { w with relay := w.relay.beginTerminalHandoff cfg false } else w
  | .abortRelayAndRelease => { w with relay := w.relay.beginTerminalHandoff cfg false }
  | .processQuicShutdownComplete => { w with relay := w.relay.processQuicShutdownComplete cfg }
  | .unregisterRelay => { w with relay := w.relay.unregisterRelayLocal cfg }
  | .flushTcpWrites => { w with relay := w.relay.flushTcpWrites cfg }
  | .flushDeferredQuicReceives => { w with relay := w.relay.flushDeferredQuicReceives cfg }
  | .drainTcpReadable =>
    let (enter, r) := w.relay.drainTcpReadable
    { w with relay := r, calls := if enter then .drainTcpReadableTurn 0 :: w.calls else w.calls }
  | .drainTcpReadableTurn readBytes =>
    let (r, next) := w.relay.drainTcpReadableTurn cfg readBytes
    { w with relay := r, calls := (next.map Call.drainTcpReadableTurn).toList ++ w.calls }
  | .retryPendingQuicSends => { w with relay := w.relay.retryPendingQuicSends }
  | .drainCallbackPendingQuicReceives =>
    if w.relay.closing then w
    else { w with
      relay := { w.relay with callbackPendingQuicReceives := [] }
      calls := w.relay.callbackPendingQuicReceives.map .processQuicReceiveView ++
        .maybeResumeQuicReceive :: w.calls }
  | .maybeResumeQuicReceive => { w with relay := w.relay.maybeResumeQuicReceive cfg }

/-- One step of the stream callback, of another producer or of the worker. -/
def step : Action → Option Worker
  | .receive buffers fin io => some (w.indicateReceive cfg (.indicated buffers fin) io)
  | .sendComplete index =>
    w.relay.inFlight[index]?.map fun op =>
      { w with
        relay := { w.relay with inFlight := w.relay.inFlight.eraseIdx index } }.onSendComplete
        cfg op
  | .idealSendBufferSize byteCount =>
    some (if w.relay.bindingClosing then w else (w.enqueue cfg (.quicIdealSendBuffer byteCount)).2)
  | .terminalEvent => some (w.onTerminalEvent cfg .terminalHandoff)
  | .shutdownComplete => some (w.onTerminalEvent cfg .quicShutdownComplete)
  | .enqueue .foreign => some (w.enqueue cfg .foreign).2
  | .enqueue .unregisterRelay => some (w.enqueue cfg .unregisterRelay).2
  | .enqueue .tcpWritable => some (w.enqueue cfg .tcpWritable).2
  | .enqueue _ => none
  | .drainEvents => if w.calls = [] then some { w with calls := drainEventsCalls } else none
  | .epoll e => if w.calls = [] then some { w with calls := w.processTcpEvents e } else none
  | .call io =>
    match w.calls with
    | [] => none
    | c :: rest => some ({ w with relay := w.relay.answering io, calls := rest }.execute cfg c)

end Worker
end TcpQuicProxy.LinuxRelay
