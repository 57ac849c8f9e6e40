import TcpQuicProxy.LinuxRelay.State

/-!
# Teardown and the TCP-to-QUIC direction of a relay

The read loop of `DrainTcpReadable` is given as one turn, because a worker
that has parked a send goes on reading in the same loop and the order of the
bytes depends on it. Compression is an answer of the environment; the code
only cuts its output into buffers.
-/

namespace TcpQuicProxy.LinuxRelay

variable (cfg : Config) (r : Relay)

namespace Relay

def completePendingStreamDetach : Relay :=
  { r with streamOpen := false, streamOwner := false, bindingClosing := true }

def close : Relay := { r with closing := true }

/-- Take the socket out of epoll and reset or close it. -/
def releaseSocket (e : Effect) : Relay :=
  if r.tcpFdOpen then { r.emit e with tcpFdOpen := false } else r

def sealBinding : Relay := { r with bindingClosing := true }

def dropPendingSends : Relay := { r with pendingTcpWrites := [], pendingQuicSendRetries := [] }

def dropPendingQuicReceives : Relay :=
  { r.discardQuicReceives cfg r.pendingQuicReceives with
    pendingQuicReceives := [], pendingQuicReceiveBytes := 0 }

def dropCallbackPendingQuicReceives : Relay :=
  { r.discardQuicReceives cfg r.callbackPendingQuicReceives with callbackPendingQuicReceives := [] }

/-- The common end of `AbortRelayAndRelease` and `UnregisterRelayLocal`. -/
def releasePending : Relay :=
  (r.dropPendingSends.dropPendingQuicReceives cfg).dropCallbackPendingQuicReceives cfg

/-- `AbortRelayAndRelease` without a stream abort. -/
def abortRelayAndRelease : Relay :=
  let r := (r.setRelayStop.close.releaseSocket .resetSocket).sealBinding
  let r := if r.outstandingQuicSends = 0 then r.completePendingStreamDetach else r
  r.releasePending cfg

/-- `BeginTerminalHandoff`. Ledger, handoff control and sink are together one
answer of the environment; every path ends in the release of the relay. -/
def beginTerminalHandoff (graceful : Bool) : Relay :=
  if !r.streamOwner || !r.stopControl then r.abortRelayAndRelease cfg
  else
    let r := r.setRelayStop.close
    let r := if r.io.handoffReady then r.emit (.beginTerminalShutdown graceful) else r
    r.abortRelayAndRelease cfg

def failRelayFatal : Relay :=
  if r.closing then r else r.beginTerminalHandoff cfg false

def maybeStopFullyClosedRelay : Relay :=
  if r.closing || !r.stopControl then r
  else if !r.tcpReadClosed || !r.tcpWriteClosed then r
  else if !r.quicSendFinSubmitted || !r.quicSendFinCompleted then r
  else if r.outstandingQuicSends ≠ 0 || !r.pendingTcpWrites.isEmpty ||
    !r.pendingQuicReceives.isEmpty ||
      r.pendingQuicReceiveBytes ≠ 0 then r
  else r.beginTerminalHandoff cfg true

/-- `UnregisterRelayLocal` on a relay that is still in the tables. -/
def unregisterRelayLocal : Relay :=
  let r := (r.close.releaseSocket .closeSocket).sealBinding
  let r := if r.outstandingQuicSends = 0 then { r with streamOpen := false } else r
  r.releasePending cfg

/-- A relay that is taken out of the tables of its worker. -/
def erase : Relay := (r.close.releaseSocket .closeSocket).completePendingStreamDetach

def hasPendingAfterStreamShutdown : Bool :=
  r.outstandingQuicSends ≠ 0 || r.outstandingQuicSendBytes ≠ 0 ||
    !r.pendingQuicSendRetries.isEmpty ||
    !r.pendingTcpWrites.isEmpty || !r.pendingQuicReceives.isEmpty ||
    !r.callbackPendingQuicReceives.isEmpty || r.pendingQuicReceiveBytes ≠ 0 ||
    r.tcpWriteShutdownQueued || r.quicSendFinSubmitted != r.quicSendFinCompleted

def beginStreamShutdownCompleteDetach : Relay :=
  let r := { r with bindingClosing := true, streamOpen := false }
  if r.outstandingQuicSends = 0 then { r with streamOwner := false } else r

def processQuicShutdownComplete : Relay :=
  if r.streamShutdownComplete then r
  else
    let r := { r with streamShutdownComplete := true }
    let hasPending := r.hasPendingAfterStreamShutdown
    let r := r.beginStreamShutdownCompleteDetach.abortRelayAndRelease cfg
    if hasPending then r else r.unregisterRelayLocal cfg

def currentRelayIdealSendBytes : Nat :=
  if r.idealSendBufferBytes = 0 then initialIdealSendFallbackBytes else r.idealSendBufferBytes

def shouldPauseTcpReadForQuicBacklog : Bool :=
  r.currentRelayIdealSendBytes ≠ 0 && r.currentRelayIdealSendBytes ≤ r.outstandingQuicSendBytes

def shouldResumeTcpReadForQuicBacklog : Bool :=
  r.currentRelayIdealSendBytes = 0 || r.outstandingQuicSendBytes < r.currentRelayIdealSendBytes

def pauseTcpRead : Relay := (r.setTcpReadBackpressure true).armTcpReadable false

/-- The resume that follows a completion, a larger ideal send buffer and a
drained retry queue. None of the first two looks at the retry queue. -/
def resumeTcpRead : Relay :=
  if !r.tcpReadClosed && r.shouldResumeTcpReadForQuicBacklog then
    (r.setTcpReadBackpressure false).armTcpReadable true
  else r

def handleQuicIdealSendBuffer (byteCount : Nat) : Relay :=
  if byteCount = 0 || r.closing then r
  else { r with idealSendBufferBytes := max r.idealSendBufferBytes byteCount }.resumeTcpRead

end Relay

def SendStatus.isQuicSendBackpressureStatus : SendStatus → Bool
  | .outOfMemory => true
  | .bufferTooSmall => true
  | .success => false
  | .failed => false

/-- Cut `bytes` into the buffers acquired for a read, each of `chunk` bytes. -/
def splitViews (chunk : Nat) : Nat → Bytes → List Bytes
  | 0, _ => []
  | n + 1, bytes =>
    if bytes = [] then [] else bytes.take chunk :: splitViews chunk n (bytes.drop chunk)

/-- One `Compress` call for each view; the output accumulates. -/
def compressAll : List Bytes → List (Option Bytes) → Option Bytes
  | [], _ => some []
  | _ :: _, [] => none
  | _ :: views, answer :: answers => do
    let out ← answer
    let rest ← compressAll views answers
    return out ++ rest

namespace Relay

def compresses : Bool := r.compressor && r.compressAlgo ≠ .none

/-- Cut compressor output into buffers, or fail when they run out. -/
def bufferOutput (out : Bytes) : Option (List Bytes) :=
  let views := splitViews cfg.readChunkSize r.io.outputBuffers out
  if views.flatten = out then some views else none

def buildTcpToQuicViews (input : List Bytes) : Option (List Bytes) :=
  if !r.compresses then some input
  else do
    let out ← compressAll input r.io.compress
    let out ← if out = [] then r.io.flush else some out
    r.bufferOutput cfg out

/-- `TrySubmitQuicSendOperation`; the Boolean is its return value. -/
def trySubmitQuicSendOperation (op : SendOperation) : Bool × Relay :=
  if r.streamOwner && !(r.io.lease && r.io.completionKey) then (false, r)
  else if !r.streamOpen || r.closing then (false, r)
  else if r.io.status = .success then
    (true, { r with
      outstandingQuicSends := r.outstandingQuicSends + 1
      outstandingQuicSendBytes := r.outstandingQuicSendBytes + op.totalBytes
      inFlight := r.inFlight ++ [op] }.emit (.streamSend op.payload op.fin))
  else if r.io.status.isQuicSendBackpressureStatus then
    let r := r.pauseTcpRead
    (true, { r with pendingQuicSendRetries := r.pendingQuicSendRetries ++ [op] })
  else (false, r)

def markQuicSendFin (fin : Bool) : Relay :=
  { r with quicSendFinSubmitted := r.quicSendFinSubmitted || fin }

/-- A relay whose sends are disabled for tests completes its FIN at once. -/
def completeWithoutSend (fin : Bool) : Relay :=
  if fin then { r with quicSendFinCompleted := true }.maybeStopFullyClosedRelay cfg else r

/-- `SubmitTcpBatchToQuic`. Without sends the bytes are captured for tests. -/
def submitTcpBatchToQuic (views : List Bytes) (fin : Bool) : Bool × Relay :=
  if views = [] then
    let r := r.markQuicSendFin fin
    if !r.enableQuicSends then (true, r.completeWithoutSend cfg fin)
    else if !fin then (true, r)
    else if r.closing || !r.streamOpen then (false, r)
    else if !r.io.operationAllocated then (false, r)
    else r.trySubmitQuicSendOperation { fin := true }
  else if !r.enableQuicSends then (true, (r.markQuicSendFin fin).completeWithoutSend cfg fin)
  else if r.closing || !r.streamOpen then (false, r)
  else if views.any (fun view => uint32Max < view.length) then (false, r)
  else if !r.io.operationAllocated then (false, r)
  else
    (r.markQuicSendFin fin).trySubmitQuicSendOperation
      { views := views, totalBytes := views.flatten.length, fin := fin }

def finishTcpToQuic : Bool × Relay :=
  if r.closing then (false, r)
  else if r.compresses then
    match r.io.compress.head?.join.bind (r.bufferOutput cfg) with
    | none => (false, r)
    | some views => r.submitTcpBatchToQuic cfg views true
  else r.submitTcpBatchToQuic cfg [] true

/-- The checks of `DrainTcpReadable` before its loop; the Boolean says whether
the loop is entered. -/
def drainTcpReadable : Bool × Relay :=
  if r.closing then (false, r)
  else if r.tcpReadClosed then (false, r.armTcpReadable false)
  else if r.shouldPauseTcpReadForQuicBacklog then (false, r.pauseTcpRead)
  else (true, r)

def readTickBudget : Nat := min cfg.readBatchBytes cfg.byteBudgetPerTick

/-- A batch that has been read is built and submitted; the Boolean says
whether the loop goes on. Parked sends are not looked at. -/
def submitReadBatch (views : List Bytes) : Bool × Relay :=
  match r.buildTcpToQuicViews cfg views with
  | none => (false, r.setRelayStop)
  | some sendViews =>
    let (ok, r) := r.submitTcpBatchToQuic cfg sendViews false
    if !ok then (false, r.setRelayStop)
    else if r.shouldPauseTcpReadForQuicBacklog then (false, r.pauseTcpRead)
    else (true, r)

def closeTcpRead : Relay := { r.emit .tcpEof with tcpReadClosed := true }

/-- End of file: the read side closes and the FIN is submitted. -/
def finishTcpRead : Relay :=
  if r.tcpReadClosed then r
  else
    let p := (r.closeTcpRead.armTcpReadable false).finishTcpToQuic cfg
    if p.1 then p.2 else p.2.setRelayStop

/-- The number of buffers that one turn of the read loop asks for. -/
def wantedBuffers (readBytes : Nat) : Nat :=
  if readBytes + cfg.readChunkSize ≤ readTickBudget cfg then min cfg.maxIov 1024 else 0

/-- How many of them it gets. -/
def acquiredBuffers (readBytes : Nat) : Nat :=
  if cfg.readChunkSize = 0 then 0 else min (wantedBuffers cfg readBytes) r.io.buffers

/-- Reading is disarmed when the buffer budget is used up. -/
def noteBufferLimit (readBytes : Nat) : Relay :=
  if r.acquiredBuffers cfg readBytes < wantedBuffers cfg readBytes && r.io.pendingBytesLimit then
    r.armTcpReadable false
  else r

def takeTcpInput (bytes : Bytes) : Relay :=
  { r with tcpInput := r.tcpInput.drop bytes.length }.emit (.tcpRead bytes)

/-- The readv into `iov` buffers and what follows each of its results. -/
def readBuffers (readBytes iov : Nat) : Relay × Option Nat :=
  match r.io.read with
  | .data n =>
    let bytes := r.tcpInput.take (min n (iov * cfg.readChunkSize))
    -- an empty receive buffer is `EAGAIN`
    if bytes = [] then (r, none)
    else
      let p := (r.takeTcpInput bytes).submitReadBatch cfg (splitViews cfg.readChunkSize iov bytes)
      (p.2, if p.1 then some (readBytes + bytes.length) else none)
  | .eof => (r.finishTcpRead cfg, none)
  | .eintr => (r, some readBytes)
  | .eagain => (r, none)
  | .error => (r.failRelayFatal cfg, none)

/-- One turn of the read loop of `DrainTcpReadable` that started with
`readBytes` already read; the new count if the loop goes on. -/
def drainTcpReadableTurn (readBytes : Nat) : Relay × Option Nat :=
  if readTickBudget cfg ≤ readBytes then (r, none)
  else if r.acquiredBuffers cfg readBytes = 0 then (r.noteBufferLimit cfg readBytes, none)
  else (r.noteBufferLimit cfg readBytes).readBuffers cfg readBytes (r.acquiredBuffers cfg readBytes)

/-- `RetryPendingQuicSends`. Its loop makes a second turn only on an empty
queue, so one pass submits one operation; a refused one goes to the back. -/
def retryPendingQuicSends : Relay :=
  if r.closing then r
  else
    match r.pendingQuicSendRetries with
    | [] => r.resumeTcpRead
    | op :: rest =>
      let (ok, r) := { r with pendingQuicSendRetries := rest }.trySubmitQuicSendOperation op
      if !ok then r.setRelayStop
      else if r.pendingQuicSendRetries ≠ [] then r
      else r.resumeTcpRead

/-- The accounting part of `CompleteQuicSend`. -/
def accountQuicSend (op : SendOperation) : Relay :=
  let r := { r with
    outstandingQuicSends := r.outstandingQuicSends - 1
    outstandingQuicSendBytes := r.outstandingQuicSendBytes - op.totalBytes }
  if r.closing then if r.outstandingQuicSends = 0 then r.completePendingStreamDetach else r
  else { r with quicSendFinCompleted := r.quicSendFinCompleted || op.fin }

end Relay
end TcpQuicProxy.LinuxRelay
