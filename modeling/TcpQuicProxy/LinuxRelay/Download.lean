import TcpQuicProxy.Machine.Loop
import TcpQuicProxy.LinuxRelay.Upload

/-!
# The QUIC-to-TCP direction of a relay

`FlushDeferredQuicReceives`, `DrainCompressedQuicReceiveView` and
`FlushTcpWrites` with their write batching, partial writes, burst limits and
error exits. Every turn of a loop uses up an answer of the environment or
retires a view, so the turn budgets below are never reached.
-/

namespace TcpQuicProxy.LinuxRelay

/-- The byte limit of one sendmsg after `burst` bytes; zero means none. -/
def Config.maxWriteBytes (cfg : Config) (burst : Nat) : Nat :=
  if cfg.tcpWriteBurstBytes = 0 then cfg.tcpWriteMaxBytes
  else if cfg.tcpWriteMaxBytes = 0 then cfg.tcpWriteBurstBytes - burst
  else min cfg.tcpWriteMaxBytes (cfg.tcpWriteBurstBytes - burst)

def Config.burstReached (cfg : Config) (burst : Nat) : Bool :=
  cfg.tcpWriteBurstBytes ≠ 0 && cfg.tcpWriteBurstBytes ≤ burst

/-- The I/O vectors of one sendmsg over the given pieces: at most `iov` of
them and, unless `limit` is zero, at most `limit` bytes. A consumed slice of a
view is stepped over, an empty pending write ends the vector. -/
def gather (skipEmpty : Bool) (limit : Nat) : Nat → Nat → List Bytes → List Bytes
  | _, _, [] => []
  | iov, attempted, piece :: rest =>
    if iov = 0 || (limit ≠ 0 && limit ≤ attempted) then []
    else if piece = [] then if skipEmpty then gather skipEmpty limit iov attempted rest else []
    else
      let part :=
        if limit ≠ 0 && limit < attempted + piece.length then piece.take (limit - attempted)
        else piece
      part :: gather skipEmpty limit (iov - 1) (attempted + part.length) rest

/-- Remove the first `n` bytes of a sequence of pieces. -/
def dropBytes : Nat → List Bytes → List Bytes
  | _, [] => []
  | 0, pieces => pieces
  | n + 1, piece :: rest =>
    if piece.length ≤ n + 1 then dropBytes (n + 1 - piece.length) rest
    else piece.drop (n + 1) :: rest

/-- Account `count` consumed bytes of a view, with the slices that are left. -/
def ReceiveView.consume (view : ReceiveView) (slices : List Bytes) (count : Nat) : ReceiveView :=
  { view with
    slices := slices
    completedLength := view.completedLength + count
    pendingCompleteBytes := view.pendingCompleteBytes + count }

def ReceiveView.remaining (view : ReceiveView) : Nat := view.totalLength - view.completedLength

/-- Step over slices that are used up. -/
def ReceiveView.skipEmpty (view : ReceiveView) : ReceiveView :=
  { view with slices := view.slices.dropWhile (· = []) }

namespace Relay

variable (cfg : Config) (r : Relay)

def takeWrite : WriteResult × Relay :=
  match r.io.writes with
  | [] => (.eagain, r)
  | w :: rest => (w, { r with io := { r.io with writes := rest } })

def takeInflate : InflateResult × Relay :=
  match r.io.inflates with
  | [] => ({ acquired := false }, r)
  | z :: rest => (z, { r with io := { r.io with inflates := rest } })

def closeTcpWrite : Relay := { r with tcpWriteShutdownQueued := false, tcpWriteClosed := true }

/-- `shutdown(SHUT_WR)` of the TCP socket and what follows it. -/
def shutdownTcpWrite : Relay :=
  ((if r.tcpFdOpen then r.emit .shutdownWrite else r).closeTcpWrite).maybeStopFullyClosedRelay cfg

def disarmIdleWritable : Relay :=
  if r.pendingTcpWrites = [] && r.pendingQuicReceives = [] then r.armTcpWritable false else r

def pushTcpWrite (output : Bytes) : Relay :=
  { r with pendingTcpWrites := r.pendingTcpWrites ++ [output] }.emit (.inflateOutput output)

def acceptTcpWrite (sent : Bytes) : Relay :=
  { r with pendingTcpWrites := dropBytes sent.length r.pendingTcpWrites }.emit (.tcpWrite sent)

/-- What `FlushTcpWrites` does with the result of its sendmsg. -/
def finishTcpWrite (burst : Nat) (iov : List Bytes) : WriteResult → (Nat × Relay) ⊕ (Bool × Relay)
  | .sent n =>
    let sent := iov.flatten.take n
    if sent = [] then .inr (true, r.beginTerminalHandoff cfg false)
    else if cfg.burstReached (burst + sent.length) &&
      (r.acceptTcpWrite sent).pendingTcpWrites ≠ [] then
      .inr (false, (r.acceptTcpWrite sent).armTcpWritable true)
    else .inl (burst + sent.length, r.acceptTcpWrite sent)
  | .eintr => .inl (burst, r)
  | .eagain => .inr (false, r.armTcpWritable true)
  | .error => .inr (true, r.beginTerminalHandoff cfg false)

/-- One turn of `FlushTcpWrites`; a loop left with `true` has aborted the relay. -/
def flushTcpWritesTurn (s : Nat × Relay) : (Nat × Relay) ⊕ (Bool × Relay) :=
  let burst := s.1
  let r := s.2
  if r.pendingTcpWrites = [] then .inr (false, r)
  else if cfg.burstReached burst then .inr (false, r.armTcpWritable true)
  else
    let iov := gather false (cfg.maxWriteBytes burst) cfg.maxIov 0 r.pendingTcpWrites
    if iov = [] then .inr (false, r) else r.takeWrite.2.finishTcpWrite cfg burst iov r.takeWrite.1

def flushTcpWritesLoop : Bool × Relay :=
  Machine.loop (flushTcpWritesTurn cfg) (fun s => (false, s.2)) (r.io.writes.length + 1) (0, r)

/-- The half-close that waits for the last pending write. -/
def shutdownAfterTcpWrites : Relay :=
  if r.pendingTcpWrites = [] && r.tcpWriteShutdownQueued then r.shutdownTcpWrite cfg else r

def flushTcpWrites : Relay :=
  if r.closing then r
  else if (r.flushTcpWritesLoop cfg).1 then (r.flushTcpWritesLoop cfg).2
  else ((r.flushTcpWritesLoop cfg).2.shutdownAfterTcpWrites cfg).disarmIdleWritable

/-- The view at the front of the queue after a change of it. A relay that was
aborted meanwhile has no front. -/
def setFrontReceive (view : ReceiveView) : Relay :=
  match r.pendingQuicReceives with
  | [] => r
  | _ :: rest => { r with pendingQuicReceives := view :: rest }

def popFrontReceive : Relay := { r with pendingQuicReceives := r.pendingQuicReceives.tail }

def retireFrontReceive (fin : Bool) : Relay :=
  { r.popFrontReceive with tcpWriteShutdownQueued := r.tcpWriteShutdownQueued || fin }

/-- Flush the completion of the front view and write the view back. -/
def flushFrontCompletion (view : ReceiveView) (force : Bool) : ReceiveView × Relay :=
  let p := r.flushDeferredReceiveCompletion cfg view force
  (p.1, p.2.setFrontReceive p.1)

/-- Bytes of the front view have been consumed. -/
def consumeFront (view : ReceiveView) (slices : List Bytes) (count : Nat) (force : Bool) :
    ReceiveView × Relay :=
  let view := view.consume slices count
  let p :=
    ((r.takePendingQuicReceiveBytes count).setFrontReceive view).flushFrontCompletion cfg view force
  (p.1, p.2.maybeResumeQuicReceive cfg)

/-- The end of a view: the FIN credit, the queued half-close, the pop. -/
def finishFront (view : ReceiveView) : Relay :=
  let p := r.completeZeroLengthFinReceive view
  p.2.retireFrontReceive p.1.fin

def inflateConsumed (view : ReceiveView) (z : InflateResult) : ReceiveView × Relay :=
  if z.inputConsumed = 0 then (view, r)
  else
    (r.emit (.inflateInput ((view.slices.headD []).take z.inputConsumed))).consumeFront cfg view
      ((dropBytes z.inputConsumed view.slices).dropWhile (· = [])) z.inputConsumed false

def inflateProduced (z : InflateResult) : Relay :=
  if z.output = [] then r else (r.pushTcpWrite z.output).flushTcpWrites cfg

/-- What the decompression loop does with a valid `DecompressInto` result. A
hard write error of the nested flush releases the view; the source goes on
with the dangling reference, the model leaves the loop. -/
def acceptInflate (view : ReceiveView) (z : InflateResult) :
    (ReceiveView × Relay) ⊕ (Bool × ReceiveView × Relay) :=
  let hasInput : Bool := view.slices ≠ []
  let p := r.inflateConsumed cfg view z
  let view := p.1
  let r := p.2.inflateProduced cfg z
  if r.closing then .inr (false, view, r)
  else if z.output ≠ [] && r.pendingTcpWrites ≠ [] then .inr (false, view, r)
  else if z.inputConsumed = 0 && z.output = [] then
    if !hasInput && z.needsMoreInput then .inr (true, view, r)
    else .inr (false, view, r.setRelayStop)
  else if view.slices = [] && z.output = [] && z.needsMoreInput then .inr (true, view, r)
  else .inl (view, r)

/-- One turn of `DrainCompressedQuicReceiveView`. The pending writes that an
earlier call may have left behind are not looked at. -/
def drainCompressedTurn (s : ReceiveView × Relay) :
    (ReceiveView × Relay) ⊕ (Bool × ReceiveView × Relay) :=
  let view := s.1.skipEmpty
  let z := s.2.takeInflate.1
  let r := s.2.takeInflate.2.setFrontReceive view
  if !z.acquired then .inr (false, view, r.armTcpWritable true)
  else if !z.ok || (view.slices.headD []).length < z.inputConsumed ||
    cfg.readChunkSize < z.output.length then
    .inr (false, view, r.setRelayStop)
  else r.acceptInflate cfg view z

def drainCompressedLoop (view : ReceiveView) : Bool × ReceiveView × Relay :=
  Machine.loop (drainCompressedTurn cfg) (fun s => (false, s)) (r.io.inflates.length + 1) (view, r)

/-- `DrainCompressedQuicReceiveView`; `true` when the view is used up. -/
def drainCompressedQuicReceiveView (view : ReceiveView) : Bool × ReceiveView × Relay :=
  let p := r.drainCompressedLoop cfg view
  if p.1 then (true, p.2.2.flushFrontCompletion cfg p.2.1 true) else p

def needsDecompress : Bool := r.decompressor && r.compressAlgo = .zstd

/-- The branch of a relay that only counts what it receives. -/
def sinkFront (view : ReceiveView) : Relay :=
  let p := (r.takePendingQuicReceiveBytes view.remaining).flushDeferredReceiveCompletion cfg
    (view.consume view.slices view.remaining) true
  let q := p.2.completeZeroLengthFinReceive p.1
  (if view.fin then q.2.setRelayStop else q.2).popFrontReceive.maybeResumeQuicReceive cfg

/-- The branch of a view with nothing left to write. -/
def retireEmptyFront (view : ReceiveView) : Relay :=
  let p := r.completeZeroLengthFinReceive view
  let q := p.2.flushDeferredReceiveCompletion cfg p.1 true
  q.2.retireFrontReceive view.fin

/-- Bytes of an uncompressed front view were accepted by the socket. -/
def acceptFrontWrite (view : ReceiveView) (sent : Bytes) : Relay :=
  let complete : Bool := view.totalLength ≤ view.completedLength + sent.length
  let p :=
    (r.emit (.tcpWrite sent)).consumeFront cfg view (dropBytes sent.length view.slices)
    sent.length complete
  if complete then p.2.finishFront p.1 else p.2

/-- What `FlushDeferredQuicReceives` does with the result of its sendmsg. -/
def finishFrontWrite (burst : Nat) (view : ReceiveView) (iov : List Bytes) :
    WriteResult → (Nat × Relay) ⊕ (Bool × Relay)
  | .sent n =>
    let sent := iov.flatten.take n
    if sent = [] then .inr (true, r.beginTerminalHandoff cfg false)
    else if cfg.burstReached (burst + sent.length) &&
      (r.acceptFrontWrite cfg view sent).pendingQuicReceives ≠ [] then
      .inr (false, (r.acceptFrontWrite cfg view sent).armTcpWritable true)
    else .inl (burst + sent.length, r.acceptFrontWrite cfg view sent)
  | .eintr => .inl (burst, r)
  | .eagain => .inr (false, r.armTcpWritable true)
  | .error => .inr (true, r.beginTerminalHandoff cfg false)

/-- What one turn does with the front view after its completion was flushed. -/
def flushFront (burst : Nat) (view : ReceiveView) : (Nat × Relay) ⊕ (Bool × Relay) :=
  if r.sinkQuicReceives then .inl (burst, r.sinkFront cfg view)
  else if r.needsDecompress then
    let p := r.drainCompressedQuicReceiveView cfg view
    if p.1 then .inl (burst, p.2.2.finishFront p.2.1) else .inr (false, p.2.2)
  else
    let iov := gather true (cfg.maxWriteBytes burst) cfg.maxIov 0 view.slices
    if iov = [] then .inl (burst, r.retireEmptyFront cfg view)
    else r.takeWrite.2.finishFrontWrite cfg burst view iov r.takeWrite.1

/-- One turn of `FlushDeferredQuicReceives`; a loop left with `true` has
aborted the relay. -/
def flushDeferredTurn (s : Nat × Relay) : (Nat × Relay) ⊕ (Bool × Relay) :=
  match s.2.pendingQuicReceives with
  | [] => .inr (false, s.2)
  | front :: _ =>
    if cfg.burstReached s.1 then .inr (false, s.2.armTcpWritable true)
    else
      let p := s.2.flushFrontCompletion cfg front false
      p.2.flushFront cfg s.1 p.1

def flushDeferredLoop : Bool × Relay :=
  Machine.loop (flushDeferredTurn cfg) (fun s => (false, s.2))
    (r.pendingQuicReceives.length + r.io.writes.length + 1) (0, r)

/-- The half-close at the end of the flush does not look at pending writes. -/
def shutdownAfterQuicReceives : Relay :=
  if r.pendingQuicReceives = [] && r.tcpWriteShutdownQueued then r.shutdownTcpWrite cfg else r

def flushDeferredQuicReceives : Relay :=
  if r.closing then r
  else if (r.flushDeferredLoop cfg).1 then (r.flushDeferredLoop cfg).2
  else
    (((r.flushDeferredLoop cfg).2.shutdownAfterQuicReceives cfg).maybeResumeQuicReceive
      cfg).disarmIdleWritable

def queueQuicReceive (view : ReceiveView) : Relay :=
  { r with
    pendingQuicReceiveBytes := r.pendingQuicReceiveBytes + view.remaining
    pendingQuicReceives :=
      r.pendingQuicReceives ++ [view] }.emit (.receiveAppended view.slices.flatten view.fin)

/-- The queueing part of `ProcessQuicReceiveViewEvent`; a closing relay gives
the credit back and drops the view. -/
def appendQuicReceive (view : ReceiveView) : Relay :=
  if r.closing then r.completeAndDiscardQuicReceive cfg view
  else (r.queueQuicReceive view).maybePauseQuicReceive cfg

end Relay
end TcpQuicProxy.LinuxRelay
