import TcpQuicProxy.LinuxRelay.Worker

/-!
# The sends of a relay and how it ends

Two projections of a relay. `SendSide` has what decides whether an upload goes
on: the sends that are parked and outstanding, the pause of the TCP side, the
flags of the teardown, and the stop signals and terminal shutdowns in the log.
`EndSide` has what the end of a relay can be read off: its closing flags, the
end of both directions and the effects that release its socket. `Drives` says
what a function of the relay does to both: the sends make the moves below, and
the relay ends in order unless there is a fault.
-/

namespace TcpQuicProxy.LinuxRelay

/-- Stop signals and terminal shutdowns. -/
def Effect.endsRelay : Effect → Bool
  | .stop => true
  | .beginTerminalShutdown _ => true
  | _ => false

structure SendSide where
  closing : Bool
  tcpFdOpen : Bool
  streamOpen : Bool
  streamOwner : Bool
  stopControl : Bool
  handoffReady : Bool
  tcpReadClosed : Bool
  tcpReadPaused : Bool
  pendingQuicSendRetries : List SendOperation
  inFlight : List SendOperation
  outstandingQuicSends : Nat
  outstandingQuicSendBytes : Nat
  idealSendBufferBytes : Nat
  ends : List Effect

/-- The effects by which the socket is closed. -/
def Effect.releasesSocket : Effect → Bool
  | .resetSocket => true
  | .closeSocket => true
  | _ => false

def socketReleases (log : List Effect) : List Effect := log.filter Effect.releasesSocket

/-- The answers to reads and writes stand here because an error among them ends
a relay. -/
structure EndSide where
  closing : Bool
  tcpFdOpen : Bool
  bindingClosing : Bool
  tcpReadClosed : Bool
  tcpWriteClosed : Bool
  quicSendFinCompleted : Bool
  releases : List Effect
  read : ReadResult
  writes : List WriteResult

/-- The state that every teardown by `AbortRelayAndRelease` leaves. -/
def EndSide.shut (s : EndSide) : EndSide :=
  { s with
    closing := true
    tcpFdOpen := false
    bindingClosing := true
    releases := s.releases ++ if s.tcpFdOpen then [.resetSocket] else [] }

theorem EndSide.shut_shut (s : EndSide) : s.shut.shut = s.shut := by simp [shut]

namespace SendSide

variable (s : SendSide)

def threshold : Nat :=
  if s.idealSendBufferBytes = 0 then initialIdealSendFallbackBytes else s.idealSendBufferBytes

def stop : SendSide := { s with ends := s.ends ++ [.stop] }

/-- `AbortRelayAndRelease` without a stream abort. -/
def abort : SendSide :=
  { s.stop with
    closing := true
    tcpFdOpen := false
    streamOpen := s.streamOpen && s.outstandingQuicSends ≠ 0
    streamOwner := s.streamOwner && s.outstandingQuicSends ≠ 0
    pendingQuicSendRetries := [] }

def beginShutdown (graceful : Bool) : SendSide :=
  if s.handoffReady then { s with ends := s.ends ++ [.beginTerminalShutdown graceful] } else s

/-- `BeginTerminalHandoff`. -/
def handoff (graceful : Bool) : SendSide :=
  if !s.streamOwner || !s.stopControl then s.abort
  else ({ s.stop with closing := true }.beginShutdown graceful).abort

/-- A send that the stream has accepted. -/
def send (op : SendOperation) : SendSide :=
  { s with
    outstandingQuicSends := s.outstandingQuicSends + 1
    outstandingQuicSendBytes := s.outstandingQuicSendBytes + op.totalBytes
    inFlight := s.inFlight ++ [op] }

/-- A send that met backpressure. -/
def park (op : SendOperation) : SendSide :=
  { s with tcpReadPaused := true, pendingQuicSendRetries := s.pendingQuicSendRetries ++ [op] }

end SendSide

/-- What a function may do besides: signal the stop of a relay that it leaves
open, and park a send while none is outstanding. -/
structure Permits where
  stops : Prop
  parksAlone : Prop

inductive SendSide.Move (may : Permits) (s : SendSide) : SendSide → Prop
  | handoff (graceful : Bool) (hopen : s.closing = false) : Move may s (s.handoff graceful)
  | stop (h : may.stops) : Move may s s.stop
  | send (op : SendOperation) (hopen : s.closing = false) : Move may s (s.send op)
  | park (op : SendOperation) (hopen : s.closing = false)
      (h : may.parksAlone ∨ 0 < s.outstandingQuicSends) :
      Move may s (s.park op)
  | pause (h : s.threshold ≤ s.outstandingQuicSendBytes) :
      Move may s { s with tcpReadPaused := true }
  | resume : Move may s { s with tcpReadPaused := false }
  | eof : Move may s { s with tcpReadClosed := true }

theorem SendSide.closing_handoff {s : SendSide} (graceful : Bool) :
    (s.handoff graceful).closing = true := by
  unfold handoff
  split <;> rfl

theorem SendSide.Move.closing {may : Permits} {s s' : SendSide} (hmove : s.Move may s')
    (hclosing : s.closing = true) :
    s'.closing = true := by
  cases hmove with
  | handoff graceful _ => exact closing_handoff graceful
  | stop _ | send op _ | park op _ _ | pause _ | resume | eof => exact hclosing

abbrev SendSide.Leads (may : Permits) : SendSide → SendSide → Prop :=
  Relation.ReflTransGen (SendSide.Move may)

namespace Relay

def sendSide (r : Relay) : SendSide where
  closing := r.closing
  tcpFdOpen := r.tcpFdOpen
  streamOpen := r.streamOpen
  streamOwner := r.streamOwner
  stopControl := r.stopControl
  handoffReady := r.io.handoffReady
  tcpReadClosed := r.tcpReadClosed
  tcpReadPaused := r.tcpReadPausedByQuicBacklog
  pendingQuicSendRetries := r.pendingQuicSendRetries
  inFlight := r.inFlight
  outstandingQuicSends := r.outstandingQuicSends
  outstandingQuicSendBytes := r.outstandingQuicSendBytes
  idealSendBufferBytes := r.idealSendBufferBytes
  ends := r.log.filter Effect.endsRelay

def endSide (r : Relay) : EndSide where
  closing := r.closing
  tcpFdOpen := r.tcpFdOpen
  bindingClosing := r.bindingClosing
  tcpReadClosed := r.tcpReadClosed
  tcpWriteClosed := r.tcpWriteClosed
  quicSendFinCompleted := r.quicSendFinCompleted
  releases := socketReleases r.log
  read := r.io.read
  writes := r.io.writes

variable (cfg : Config) (r : Relay)

/-! ### Functions that leave them alone -/

attribute [local simp] sendSide SendSide.stop

theorem sendSide_emit {e : Effect} (he : e.endsRelay = false) :
    (r.emit e).sendSide = r.sendSide := by
  simp [emit, he]

theorem endSide_emit {e : Effect} (he : e.releasesSocket = false) :
    (r.emit e).endSide = r.endSide := by
  simp [endSide, emit, socketReleases, he]

/-- What a relay is to both. -/
def sides : SendSide × EndSide := (r.sendSide, r.endSide)

theorem sides_emit {e : Effect} (he : e.endsRelay = false) (he' : e.releasesSocket = false) :
    (r.emit e).sides = r.sides :=
  Prod.ext (r.sendSide_emit he) (r.endSide_emit he')

theorem sendSide_of_sides {r r' : Relay} (h : r'.sides = r.sides) : r'.sendSide = r.sendSide :=
  congrArg Prod.fst h

theorem endSide_of_sides {r r' : Relay} (h : r'.sides = r.sides) : r'.endSide = r.endSide :=
  congrArg Prod.snd h

@[simp] theorem sides_armTcpReadable (enabled : Bool) :
    (r.armTcpReadable enabled).sides = r.sides := by
  unfold armTcpReadable
  split <;> rfl

@[simp] theorem sides_armTcpWritable (enabled : Bool) :
    (r.armTcpWritable enabled).sides = r.sides := by
  unfold armTcpWritable
  split <;> rfl

@[simp] theorem sides_tryAcquireApi : r.tryAcquireApi.2.sides = r.sides := by
  unfold tryAcquireApi
  split <;> rfl

@[simp] theorem sides_setQuicReceiveEnabled (enabled : Bool) :
    (r.setQuicReceiveEnabled enabled).sides = r.sides := by
  unfold setQuicReceiveEnabled
  split_ifs
  · dsimp only
    split_ifs
    · rw [sides_emit _ rfl rfl, sides_tryAcquireApi]
    · exact r.sides_tryAcquireApi
  · rfl

@[simp] theorem sides_maybePauseQuicReceive : (r.maybePauseQuicReceive cfg).sides = r.sides := by
  unfold maybePauseQuicReceive
  split
  · rw [sides_setQuicReceiveEnabled]
    rfl
  · rfl

@[simp] theorem sides_maybeResumeQuicReceive : (r.maybeResumeQuicReceive cfg).sides = r.sides := by
  unfold maybeResumeQuicReceive
  split
  · rw [sides_setQuicReceiveEnabled]
    rfl
  · rfl

@[simp] theorem sides_completeZeroLengthFinReceive (view : ReceiveView) :
    (r.completeZeroLengthFinReceive view).2.sides = r.sides := by
  unfold completeZeroLengthFinReceive
  split_ifs
  · dsimp only
    split_ifs
    · rw [sides_emit _ rfl rfl, sides_tryAcquireApi]
    · exact r.sides_tryAcquireApi
  · rfl

@[simp] theorem sides_flushDeferredReceiveCompletion (view : ReceiveView) (force : Bool) :
    (r.flushDeferredReceiveCompletion cfg view force).2.sides = r.sides := by
  unfold flushDeferredReceiveCompletion
  dsimp only
  split_ifs
  · rfl
  · rfl
  · rw [sides_emit _ rfl rfl, sides_tryAcquireApi]
  · exact r.sides_tryAcquireApi

@[simp] theorem sides_completeAndDiscardQuicReceive (view : ReceiveView) :
    (r.completeAndDiscardQuicReceive cfg view).sides = r.sides := by
  simp [completeAndDiscardQuicReceive]

@[simp] theorem sides_discardQuicReceives (views : List ReceiveView) :
    (r.discardQuicReceives cfg views).sides = r.sides := by
  unfold discardQuicReceives
  split
  · rfl
  clear * -
  induction views generalizing r with
  | nil => rfl
  | cons view views ih => rw [List.foldl_cons, ih, sides_completeAndDiscardQuicReceive]

@[simp] theorem sides_takeInflate : r.takeInflate.2.sides = r.sides := by
  unfold takeInflate
  split <;> rfl

@[simp] theorem sides_disarmIdleWritable : r.disarmIdleWritable.sides = r.sides := by
  unfold disarmIdleWritable
  split <;> simp

@[simp] theorem sides_pushTcpWrite (output : Bytes) : (r.pushTcpWrite output).sides = r.sides :=
  sides_emit _ rfl rfl

@[simp] theorem sides_acceptTcpWrite (sent : Bytes) : (r.acceptTcpWrite sent).sides = r.sides :=
  sides_emit _ rfl rfl

@[simp] theorem sides_setFrontReceive (view : ReceiveView) :
    (r.setFrontReceive view).sides = r.sides := by
  unfold setFrontReceive
  split <;> rfl

@[simp] theorem sides_retireFrontReceive (fin : Bool) :
    (r.retireFrontReceive fin).sides = r.sides := rfl

section

variable (view : ReceiveView)
include view

@[simp] theorem sides_flushFrontCompletion (force : Bool) :
    (r.flushFrontCompletion cfg view force).2.sides = r.sides := by
  simp [flushFrontCompletion]

@[simp] theorem sides_consumeFront (slices : List Bytes) (count : Nat) (force : Bool) :
    (r.consumeFront cfg view slices count force).2.sides = r.sides := by
  simp only [consumeFront, sides_maybeResumeQuicReceive, sides_flushFrontCompletion,
    sides_setFrontReceive]
  rfl

@[simp] theorem sides_finishFront : (r.finishFront view).sides = r.sides := by
  simp [finishFront]

@[simp] theorem sides_inflateConsumed (z : InflateResult) :
    (r.inflateConsumed cfg view z).2.sides = r.sides := by
  unfold inflateConsumed
  split
  · rfl
  · rw [sides_consumeFront, sides_emit _ rfl rfl]

@[simp] theorem sides_retireEmptyFront : (r.retireEmptyFront cfg view).sides = r.sides := by
  simp [retireEmptyFront]

@[simp] theorem sides_acceptFrontWrite (sent : Bytes) :
    (r.acceptFrontWrite cfg view sent).sides = r.sides := by
  unfold acceptFrontWrite
  dsimp only
  split_ifs <;> simp [sides_emit _ (e := .tcpWrite sent) rfl rfl]

@[simp] theorem sides_appendQuicReceive : (r.appendQuicReceive cfg view).sides = r.sides := by
  unfold appendQuicReceive
  split
  · simp
  · rw [sides_maybePauseQuicReceive]
    exact sides_emit _ rfl rfl

end

@[simp] theorem sides_noteBufferLimit (readBytes : Nat) :
    (r.noteBufferLimit cfg readBytes).sides = r.sides := by
  unfold noteBufferLimit
  split <;> simp

@[simp] theorem sides_takeTcpInput (bytes : Bytes) : (r.takeTcpInput bytes).sides = r.sides :=
  sides_emit _ rfl rfl

@[simp] theorem sendSide_setRelayStop : r.setRelayStop.sendSide = r.sendSide.stop := by
  simp [setRelayStop, emit, Effect.endsRelay]

theorem sides_setRelayStop : r.setRelayStop.sides = (r.sides.1.stop, r.sides.2) :=
  Prod.ext r.sendSide_setRelayStop (r.endSide_emit rfl)

@[simp] theorem sendSide_takeWrite : r.takeWrite.2.sendSide = r.sendSide := by
  unfold takeWrite
  split <;> rfl

/-! ### The teardown -/

@[simp] theorem sendSide_releasePending :
    (r.releasePending cfg).sendSide = { r.sendSide with pendingQuicSendRetries := [] } := by
  have hdrop : ∀ r : Relay, (r.dropPendingQuicReceives cfg).sendSide = r.sendSide :=
    fun r => sendSide_of_sides (r.sides_discardQuicReceives cfg _)
  have hlane : ∀ r : Relay, (r.dropCallbackPendingQuicReceives cfg).sendSide = r.sendSide :=
    fun r => sendSide_of_sides (r.sides_discardQuicReceives cfg _)
  rw [releasePending, hlane, hdrop]
  rfl

theorem sendSide_releaseSocket {e : Effect} (he : e.endsRelay = false) :
    (r.releaseSocket e).sendSide = { r.sendSide with tcpFdOpen := false } := by
  unfold releaseSocket
  split
  · simp [emit, he]
  next hfd =>
    have hclosed : r.tcpFdOpen = false := eq_false_of_ne_true hfd
    simp [hclosed]

theorem sendSide_completePendingStreamDetach :
    r.completePendingStreamDetach.sendSide =
      { r.sendSide with streamOpen := false, streamOwner := false } := rfl

@[simp] theorem sendSide_abortRelayAndRelease :
    (r.abortRelayAndRelease cfg).sendSide = r.sendSide.abort := by
  unfold abortRelayAndRelease
  have hrelease : ((r.setRelayStop.close.releaseSocket .resetSocket).sealBinding).sendSide =
      { r.sendSide.stop with closing := true, tcpFdOpen := false } := by
    rw [show ((r.setRelayStop.close.releaseSocket .resetSocket).sealBinding).sendSide =
      (r.setRelayStop.close.releaseSocket .resetSocket).sendSide
        from rfl, sendSide_releaseSocket _ rfl,
      show r.setRelayStop.close.sendSide = { r.setRelayStop.sendSide with closing := true }
        from rfl, sendSide_setRelayStop]
  have hcount :
    ((r.setRelayStop.close.releaseSocket .resetSocket).sealBinding).outstandingQuicSends =
      r.outstandingQuicSends := congrArg SendSide.outstandingQuicSends hrelease
  simp only [sendSide_releasePending]
  split
  next hzero =>
    rw [hcount] at hzero
    rw [sendSide_completePendingStreamDetach, hrelease]
    simp [SendSide.abort, hzero]
  next hpos =>
    rw [hcount] at hpos
    rw [hrelease]
    simp [SendSide.abort, hpos]

@[simp] theorem sendSide_beginTerminalHandoff (graceful : Bool) :
    (r.beginTerminalHandoff cfg graceful).sendSide = r.sendSide.handoff graceful := by
  unfold beginTerminalHandoff SendSide.handoff
  show _ = if !r.streamOwner || !r.stopControl then _ else _
  split
  · exact r.sendSide_abortRelayAndRelease cfg
  · simp only [sendSide_abortRelayAndRelease]
    congr 1
    show (if r.io.handoffReady then _ else _ : Relay).sendSide = if r.io.handoffReady then _ else _
    split
    · simp [emit, setRelayStop, close, Effect.endsRelay]
    · simp [emit, setRelayStop, close, Effect.endsRelay]

theorem closing_beginTerminalHandoff (graceful : Bool) :
    (r.beginTerminalHandoff cfg graceful).closing = true :=
  (congrArg SendSide.closing (sendSide_beginTerminalHandoff cfg r graceful)).trans
  (SendSide.closing_handoff graceful)

theorem sendSide_unregisterRelayLocal : (r.unregisterRelayLocal cfg).sendSide =
    { r.sendSide with
      closing := true
      tcpFdOpen := false
      streamOpen := r.streamOpen && r.outstandingQuicSends ≠ 0
      pendingQuicSendRetries := [] } := by
  have hclosed : ((r.close.releaseSocket .closeSocket).sealBinding).sendSide =
      { r.sendSide with closing := true, tcpFdOpen := false } :=
    r.close.sendSide_releaseSocket rfl
  have hcount : ((r.close.releaseSocket .closeSocket).sealBinding).outstandingQuicSends =
      r.outstandingQuicSends :=
    congrArg SendSide.outstandingQuicSends hclosed
  have hstream : ((r.close.releaseSocket .closeSocket).sealBinding).streamOpen = r.streamOpen :=
    congrArg SendSide.streamOpen hclosed
  simp only [unregisterRelayLocal, sendSide_releasePending]
  split
  next hzero =>
    rw [hcount] at hzero
    show { ((r.close.releaseSocket .closeSocket).sealBinding).sendSide with
      streamOpen := false, pendingQuicSendRetries := [] } = _
    rw [hclosed]
    simp [hzero]
  next hpos =>
    rw [hcount] at hpos
    rw [hclosed]
    simp [hpos]

theorem closing_unregisterRelayLocal : (r.unregisterRelayLocal cfg).closing = true :=
  congrArg SendSide.closing (r.sendSide_unregisterRelayLocal cfg)

theorem closing_erase : r.erase.closing = true := by
  unfold erase releaseSocket
  split <;> rfl

/-! ### Functions of the upload direction and the end -/

@[simp] theorem endSide_setRelayStop : r.setRelayStop.endSide = r.endSide := r.endSide_emit rfl

@[simp] theorem endSide_releasePending : (r.releasePending cfg).endSide = r.endSide := by
  have hdrop : ∀ r : Relay, (r.dropPendingQuicReceives cfg).endSide = r.endSide :=
    fun r => endSide_of_sides (r.sides_discardQuicReceives cfg _)
  have hlane : ∀ r : Relay, (r.dropCallbackPendingQuicReceives cfg).endSide = r.endSide :=
    fun r => endSide_of_sides (r.sides_discardQuicReceives cfg _)
  rw [releasePending, hlane, hdrop]
  rfl

@[simp] theorem endSide_pauseTcpRead : r.pauseTcpRead.endSide = r.endSide := by
  rw [pauseTcpRead, endSide_of_sides (sides_armTcpReadable _ _)]
  rfl

@[simp] theorem endSide_resumeTcpRead : r.resumeTcpRead.endSide = r.endSide := by
  unfold resumeTcpRead
  split
  · rw [endSide_of_sides (sides_armTcpReadable _ _)]
    rfl
  · rfl

@[simp] theorem endSide_handleQuicIdealSendBuffer (byteCount : Nat) :
    (r.handleQuicIdealSendBuffer byteCount).endSide = r.endSide := by
  unfold handleQuicIdealSendBuffer
  split
  · rfl
  · rw [endSide_resumeTcpRead]
    rfl

@[simp] theorem endSide_trySubmitQuicSendOperation (op : SendOperation) :
    (r.trySubmitQuicSendOperation op).2.endSide = r.endSide := by
  unfold trySubmitQuicSendOperation
  split_ifs
  · rfl
  · rfl
  · exact endSide_emit _ rfl
  · exact r.endSide_pauseTcpRead
  · rfl

@[simp] theorem endSide_retryPendingQuicSends : r.retryPendingQuicSends.endSide = r.endSide := by
  unfold retryPendingQuicSends
  split
  · rfl
  · split
    · exact r.endSide_resumeTcpRead
    · dsimp only
      split_ifs <;> simp [endSide_trySubmitQuicSendOperation] <;> rfl

/-! ### The teardown and the end -/

@[simp] theorem endSide_abortRelayAndRelease :
    (r.abortRelayAndRelease cfg).endSide = r.endSide.shut := by
  unfold abortRelayAndRelease
  simp only [endSide_releasePending]
  have hrelease :
      (r.setRelayStop.close.releaseSocket .resetSocket).sealBinding.endSide = r.endSide.shut := by
    cases hfd : r.tcpFdOpen <;>
      simp [releaseSocket, setRelayStop, emit, close, sealBinding, endSide, EndSide.shut,
        socketReleases,
        Effect.releasesSocket, hfd]
  split
  · rw [← hrelease]
    rfl
  · exact hrelease

@[simp] theorem endSide_beginTerminalHandoff (graceful : Bool) :
    (r.beginTerminalHandoff cfg graceful).endSide = r.endSide.shut := by
  unfold beginTerminalHandoff
  split
  · exact r.endSide_abortRelayAndRelease cfg
  · have hclose : r.setRelayStop.close.endSide.shut = r.endSide.shut := by
      cases hfd : r.tcpFdOpen <;>
        simp [EndSide.shut, endSide, close, setRelayStop, emit, socketReleases,
          Effect.releasesSocket, hfd]
    simp only [endSide_abortRelayAndRelease]
    split
    · rw [endSide_emit _ rfl, hclose]
    · exact hclose

end Relay

/-! ### Ends with and without an error -/

/-- What the socket and its flag have come to. -/
def EndSide.socket (s : EndSide) : Bool × Bool × List Effect := (s.closing, s.tcpFdOpen, s.releases)

theorem EndSide.socket_shut {s s' : EndSide} (h : s'.socket = s.socket) :
    s'.shut.socket = s.shut.socket := by
  obtain ⟨-, hfd, hreleases⟩ :
      s'.closing = s.closing ∧ s'.tcpFdOpen = s.tcpFdOpen ∧ s'.releases = s.releases := by
    simpa [socket] using h
  simp [socket, shut, hfd, hreleases]

/-- Both directions have reached their end, and the peer has acknowledged ours. -/
structure EndSide.Finished (s : EndSide) : Prop where
  read : s.tcpReadClosed = true
  write : s.tcpWriteClosed = true
  fin : s.quicSendFinCompleted = true

def WriteResult.accepting : WriteResult → Bool
  | .error => false
  | .sent n => n ≠ 0
  | _ => true

/-- No read or write of the socket will fail. -/
structure EndSide.Clean (s : EndSide) : Prop where
  read : s.read ≠ .error
  writes : ∀ w ∈ s.writes, w.accepting = true

/-- A change that leaves the socket alone or ends the relay. Unless there is a
`fault`, it ends only a relay both of whose directions are at their end. -/
structure EndSide.Follows (fault : Prop) (s s' : EndSide) : Prop where
  socket : s'.socket = s.socket ∨ s'.socket = s.shut.socket ∧ (fault ∨ s'.Finished)
  finished : s.Finished → s'.Finished
  binding : s'.bindingClosing = true → s.bindingClosing = true ∨ s'.closing = true
  clean : s.Clean → s'.Clean

namespace EndSide.Follows

variable {fault : Prop} {s s' s'' : EndSide}

theorem refl (s : EndSide) : s.Follows fault s := ⟨.inl rfl, id, .inl, id⟩

theorem of_eq (h : s' = s) : s.Follows fault s' := h ▸ refl s'

/-- Once closed, a relay stays closed. -/
theorem closing (h : s.Follows fault s') (hc : s.closing = true) : s'.closing = true := by
  rcases h.socket with heq | ⟨heq, -⟩
  · rw [show s'.closing = s.closing from congrArg Prod.fst heq, hc]
  · exact congrArg Prod.fst heq

theorem trans (h : s.Follows fault s') (h' : s'.Follows fault s'') : s.Follows fault s'' := by
  refine ⟨?_, h'.finished ∘ h.finished, ?_, h'.clean ∘ h.clean⟩
  · rcases h.socket with heq | ⟨heq, hfin⟩
    · rcases h'.socket with heq' | ⟨heq', hfin'⟩
      · exact .inl (heq'.trans heq)
      · exact .inr ⟨heq'.trans (socket_shut heq), hfin'⟩
    · rcases h'.socket with heq' | ⟨heq', hfin'⟩
      · exact .inr ⟨heq'.trans heq, hfin.imp_right h'.finished⟩
      · exact .inr ⟨heq'.trans ((socket_shut heq).trans (congrArg _ s.shut_shut)), hfin'⟩
  · intro hb
    rcases h'.binding hb with hb' | hc
    · exact (h.binding hb').imp id h'.closing
    · exact .inr hc

theorem keeps (h : s.Follows fault s') (heq : s'' = s') : s.Follows fault s'' := heq ▸ h

/-- The graceful end, and any other once there is a fault. -/
theorem shut (hend : fault ∨ s.Finished) : s.Follows fault s.shut :=
  ⟨.inr ⟨rfl, hend.imp_right fun h => ⟨h.read, h.write, h.fin⟩⟩, fun h => ⟨h.read, h.write, h.fin⟩,
    fun _ => .inr rfl,
    fun h => ⟨h.read, h.writes⟩⟩

/-- What follows a relay whose socket will not fail, or a faulty one, is such a relay again. -/
theorem unfailing (h : s.Follows fault s') (hs : fault ∨ s.Clean) : fault ∨ s'.Clean :=
  hs.imp_right h.clean

end EndSide.Follows

/-! ### Both of them -/

namespace Relay

abbrev Leads (may : Permits) (r r' : Relay) : Prop := r.sendSide.Leads may r'.sendSide

abbrev Follows (fault : Prop) (r r' : Relay) : Prop := r.endSide.Follows fault r'.endSide

/-- A change whose moves are permitted and which ends a relay whose socket does not fail only in
order. -/
structure Drives (may : Permits) (fault : Prop) (r r' : Relay) : Prop where
  leads : Leads may r r'
  follows : fault ∨ r.endSide.Clean → Follows fault r r'

variable (cfg : Config) {may : Permits} {fault : Prop} {r r' r'' : Relay}

theorem closing_of_sendSide (h : r'.sendSide = r.sendSide) : r'.closing = r.closing :=
  congrArg SendSide.closing h

theorem leads_of_eq (h : r'.sendSide = r.sendSide) : Leads may r r' := by
  unfold Leads
  rw [h]

/-- Every move is permitted. -/
def unrestricted : Permits := ⟨True, True⟩

theorem follows_of_drives (h : Drives unrestricted fault r r') (hclean : fault ∨ r.endSide.Clean) :
    Follows fault r r' :=
  h.follows hclean

namespace Drives

theorem refl (r : Relay) : Drives may fault r r := ⟨.refl, fun _ => .refl _⟩

theorem trans (h : Drives may fault r r') (h' : Drives may fault r' r'') : Drives may fault r r'' :=
  ⟨h.leads.trans h'.leads,
    fun hclean => (h.follows hclean).trans (h'.follows ((h.follows hclean).unfailing hclean))⟩

theorem of_sides (h : r'.sides = r.sides) : Drives may fault r r' :=
  ⟨leads_of_eq (sendSide_of_sides h), fun _ => .of_eq (endSide_of_sides h)⟩

theorem keeps (h : Drives may fault r r') (heq : r''.sides = r'.sides) : Drives may fault r r'' :=
  h.trans (of_sides heq)

theorem after (h : Drives may fault r' r'') (heq : r'.sides = r.sides) : Drives may fault r r'' :=
  (of_sides heq).trans h

theorem handoff (h : Drives may fault r r') (hopen : r'.closing = false)
    (hend : fault ∨ r.endSide.Clean → fault ∨ r'.endSide.Finished) (graceful : Bool) :
    Drives may fault r (r'.beginTerminalHandoff cfg graceful) := by
  constructor
  · refine h.leads.trans ?_
    rw [sendSide_beginTerminalHandoff]
    exact .single (.handoff graceful hopen)
  · intro hclean
    refine (h.follows hclean).trans ?_
    rw [endSide_beginTerminalHandoff]
    exact .shut (hend hclean)

theorem stop (h : Drives may fault r r') (hstops : may.stops) :
    Drives may fault r r'.setRelayStop := by
  constructor
  · refine h.leads.trans ?_
    rw [sendSide_setRelayStop]
    exact .single (.stop hstops)
  · exact fun hclean => (h.follows hclean).keeps r'.endSide_setRelayStop

end Drives
end Relay
end TcpQuicProxy.LinuxRelay
