import TcpQuicProxy.Machine.Run
import TcpQuicProxy.Protocol.OpenFrame

/-!
# State of one relay of the Linux worker

The record follows `RelayState`, `TqPendingQuicReceive` and
`TqLinuxRelaySendOperation`. What the environment answers during one call of
the worker (readv, sendmsg, StreamSend, zstd, API leases) stands in `Io`, and
what the call does to the outside is appended to `log`. Counters that only feed
metrics and the texts of traces are left out.
-/

namespace TcpQuicProxy.LinuxRelay

/-- The fields of `TqLinuxRelayWorkerConfig` read by the data path. The tuning
code never configures fewer than eight I/O vectors. -/
structure Config where
  eventBudget : Nat := 4096
  byteBudgetPerTick : Nat := 64 * 1024 * 1024
  readChunkSize : Nat := 128 * 1024
  readBatchBytes : Nat := 1024 * 1024
  maxIov : Nat := 16
  tcpWriteMaxBytes : Nat := 0
  tcpWriteBurstBytes : Nat := 0
  maxPendingBufferBytes : Nat := 256 * 1024 * 1024
  maxPendingQuicReceiveBytesPerRelay : Nat := 0
  deferredReceiveCompleteBatchBytes : Nat := 0
  maxBufferedQuicSendBytes : Nat := 0
  eventQueueCapacity : Nat := 4096
  maxIov_pos : 0 < maxIov := by decide

/-- `TqValidationInitialIdealSendFallbackBytes`. -/
def initialIdealSendFallbackBytes : Nat := 128 * 1024 * 1024

def uint32Max : Nat := 4294967295

inductive CompressAlgo where
  | none
  | zstd
  deriving DecidableEq

/-- `TqPendingQuicReceive`. `slices` is the part of `Slices` from `SliceIndex`
on, its first element without the `SliceOffset` bytes already consumed. -/
structure ReceiveView where
  slices : List Bytes
  totalLength : Nat
  completedLength : Nat := 0
  pendingCompleteBytes : Nat := 0
  fin : Bool := false
  zeroLengthFinCompletionPending : Bool := false
  deriving DecidableEq

/-- `TqLinuxRelaySendOperation`: the buffer views it owns and its FIN flag. -/
structure SendOperation where
  views : List Bytes := []
  totalBytes : Nat := 0
  fin : Bool := false
  deriving DecidableEq

def SendOperation.payload (op : SendOperation) : Bytes := op.views.flatten

/-- The classes of StreamSend results that the worker tells apart. -/
inductive SendStatus where
  | success
  | outOfMemory
  | bufferTooSmall
  | failed
  deriving DecidableEq

inductive ReadResult where
  | data (n : Nat)
  | eof
  | eintr
  | eagain
  | error
  deriving DecidableEq

inductive WriteResult where
  | sent (n : Nat)
  | eintr
  | eagain
  | error
  deriving DecidableEq

/-- One turn of the decompression loop: whether an output buffer could be
acquired, what `DecompressInto` returned, and the bytes it produced. -/
structure InflateResult where
  acquired : Bool := true
  ok : Bool := true
  inputConsumed : Nat := 0
  output : Bytes := []
  needsMoreInput : Bool := false
  deriving DecidableEq

/-- Answers of the environment during one call. A used-up list of writes
answers `EAGAIN`, one of leases grants them, one of compressor calls fails and
one of decompressor turns finds no output buffer. -/
structure Io where
  buffers : Nat := 1
  pendingBytesLimit : Bool := false
  read : ReadResult := .eagain
  lease : Bool := true
  completionKey : Bool := true
  operationAllocated : Bool := true
  status : SendStatus := .success
  compress : List (Option Bytes) := []
  flush : Option Bytes := some []
  outputBuffers : Nat := 0
  writes : List WriteResult := []
  inflates : List InflateResult := []
  leases : List Bool := []
  handoffReady : Bool := true
  epollAdded : Bool := true
  deriving DecidableEq

/-- What a relay does to its socket, its stream and its stop control, and what
its stream callback is told: the bytes of a RECEIVE event, and those that its
return value reports as consumed. -/
inductive Effect where
  | tcpRead (bytes : Bytes)
  | tcpEof
  | streamSend (payload : Bytes) (fin : Bool)
  | receiveIndicated (bytes : Bytes) (fin : Bool)
  | receiveConsumed (count : Nat)
  | receiveAppended (bytes : Bytes) (fin : Bool)
  | inflateInput (bytes : Bytes)
  | inflateOutput (bytes : Bytes)
  | tcpWrite (bytes : Bytes)
  | shutdownWrite
  | receiveComplete (count : Nat)
  | receiveSetEnabled (enabled : Bool)
  | beginTerminalShutdown (graceful : Bool)
  | resetSocket
  | closeSocket
  | stop
  deriving DecidableEq

/-- `RelayState`. `tcpInput` is what the TCP peer has sent and the relay has
not read yet, `inFlight` what MsQuic accepted and has not completed. -/
structure Relay where
  tcpFdOpen : Bool := true
  streamOpen : Bool := true
  streamOwner : Bool := true
  stopControl : Bool := true
  compressor : Bool := false
  decompressor : Bool := false
  compressAlgo : CompressAlgo := .none
  enableQuicSends : Bool := true
  sinkQuicReceives : Bool := false
  closing : Bool := false
  bindingClosing : Bool := false
  tcpReadClosed : Bool := false
  tcpWriteClosed : Bool := false
  streamShutdownComplete : Bool := false
  quicSendFinSubmitted : Bool := false
  quicSendFinCompleted : Bool := false
  outstandingQuicSends : Nat := 0
  outstandingQuicSendBytes : Nat := 0
  idealSendBufferBytes : Nat := initialIdealSendFallbackBytes
  pendingQuicSendRetries : List SendOperation := []
  pendingTcpWrites : List Bytes := []
  pendingQuicReceives : List ReceiveView := []
  callbackPendingQuicReceives : List ReceiveView := []
  pendingQuicReceiveBytes : Nat := 0
  quicReceivePaused : Bool := false
  tcpWriteShutdownQueued : Bool := false
  tcpReadArmed : Bool := true
  tcpWriteArmed : Bool := false
  tcpReadPausedByQuicBacklog : Bool := false
  tcpInput : Bytes := []
  inFlight : List SendOperation := []
  io : Io := {}
  log : List Effect := []

/-- `MaxPendingQuicReceiveBytesPerRelay`, with the budget as its fallback. -/
def Config.maxPendingQuicReceiveBytes (cfg : Config) : Nat :=
  if cfg.maxPendingQuicReceiveBytesPerRelay ≠ 0 then cfg.maxPendingQuicReceiveBytesPerRelay
  else cfg.maxPendingBufferBytes

namespace Relay

variable (cfg : Config) (r : Relay)

def emit (e : Effect) : Relay := { r with log := r.log ++ [e] }

def answering (io : Io) : Relay := { r with io := io }

/-- `TqStreamLifetime::TryAcquireApi` on the stream of the relay. -/
def tryAcquireApi : Bool × Relay :=
  match r.io.leases with
  | [] => (true, r)
  | granted :: rest => (granted, { r with io := { r.io with leases := rest } })

def setRelayStop : Relay := r.emit .stop

def setTcpReadBackpressure (paused : Bool) : Relay :=
  { r with tcpReadPausedByQuicBacklog := paused }

def armTcpReadable (enabled : Bool) : Relay :=
  if r.tcpFdOpen then { r with tcpReadArmed := enabled && !r.tcpReadClosed } else r

def armTcpWritable (enabled : Bool) : Relay :=
  if r.tcpFdOpen then { r with tcpWriteArmed := enabled } else r

def setQuicReceiveEnabled (enabled : Bool) : Relay :=
  if r.streamOpen then
    let (lease, r) := r.tryAcquireApi
    if lease then r.emit (.receiveSetEnabled enabled) else r
  else r

def maybePauseQuicReceive : Relay :=
  if !r.quicReceivePaused && cfg.maxPendingQuicReceiveBytes ≤ r.pendingQuicReceiveBytes then
    { r with quicReceivePaused := true }.setQuicReceiveEnabled false
  else r

/-- The low-water mark of `MaybeResumeQuicReceive` is the pause threshold. -/
def maybeResumeQuicReceive : Relay :=
  if r.quicReceivePaused && r.pendingQuicReceiveBytes < cfg.maxPendingQuicReceiveBytes then
    { r with quicReceivePaused := false }.setQuicReceiveEnabled true
  else r

/-- The subtraction that the worker guards against going below zero. -/
def takePendingQuicReceiveBytes (count : Nat) : Relay :=
  { r with pendingQuicReceiveBytes := r.pendingQuicReceiveBytes - count }

def completeZeroLengthFinReceive (view : ReceiveView) : ReceiveView × Relay :=
  if view.zeroLengthFinCompletionPending then
    let (lease, r) := r.tryAcquireApi
    if lease then
      ({ view with zeroLengthFinCompletionPending := false }, r.emit (.receiveComplete 0))
    else (view, r)
  else (view, r)

def flushDeferredReceiveCompletion (view : ReceiveView) (force : Bool) : ReceiveView × Relay :=
  let threshold := cfg.deferredReceiveCompleteBatchBytes
  if view.pendingCompleteBytes = 0 then (view, r)
  else if !force && threshold ≠ 0 && view.pendingCompleteBytes < threshold then (view, r)
  else
    let (lease, r) := r.tryAcquireApi
    ({ view with pendingCompleteBytes := 0 },
      if lease then r.emit (.receiveComplete view.pendingCompleteBytes) else r)

def completeAndDiscardQuicReceive (view : ReceiveView) : Relay :=
  let (view, r) := r.completeZeroLengthFinReceive view
  let remaining := view.totalLength - view.completedLength
  let view := { view with
    pendingCompleteBytes := view.pendingCompleteBytes + remaining
    completedLength := view.completedLength + remaining }
  (r.flushDeferredReceiveCompletion cfg view true).2

/-- Views of a stream that is already terminal are dropped without credit. -/
def discardQuicReceives (views : List ReceiveView) : Relay :=
  if r.streamShutdownComplete then r
  else views.foldl (fun r view => r.completeAndDiscardQuicReceive cfg view) r

end Relay
end TcpQuicProxy.LinuxRelay
