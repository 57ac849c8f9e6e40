import TcpQuicProxy.LinuxRelay.SendSide
import TcpQuicProxy.LinuxRelay.Steps

/-!
# The teardown of a stopped relay

`BeginTerminalHandoff` signals the stop of a relay, hands its stream over to a
terminal sink and releases the relay; the facts it leaves in the handoff control
tell the reaper when the tunnel can go. `Handoff` adds these facts to the worker.
Some failures signal the stop and do nothing else. Without them, a relay that
the worker has stopped is closed and its handoff is on its way.
-/

namespace TcpQuicProxy.LinuxRelay

open Machine List Option Relay

/-- `TqTerminalShutdownResult`, and whether the sink of the call has become the
target of the stream. -/
structure ShutdownResult where
  submitted : Bool := true
  alreadyTerminal : Bool := false
  retryScheduled : Bool := false
  sinkInstalled : Bool := true
  deriving DecidableEq

/-- What the stream answers to a terminal shutdown of either intent. -/
structure Shutdowns where
  graceful : ShutdownResult := {}
  abort : ShutdownResult := {}
  deriving DecidableEq

/-- A worker with the handoff control of its relay. `stopSignalled` is the stop
of the worker, not that of the stream callback; `gracefulAccepted` says that a
graceful shutdown was submitted whose sink completes the handoff. -/
structure Handoff where
  worker : Worker
  stopSignalled : Bool := false
  dataPlaneStopped : Bool := false
  terminalHandoffComplete : Bool := false
  localOperationOwnershipTransferredOrDrained : Bool := false
  gracefulAccepted : Bool := false

/-- The stop signals and terminal shutdowns in the log of the relay. -/
def Worker.ends (w : Worker) : List Effect := w.relay.log.filter Effect.endsRelay

namespace Handoff

/-- `TqTerminalReleaseReady`, which is what the reaper waits for. -/
def releaseReady (h : Handoff) : Bool :=
  h.dataPlaneStopped && h.terminalHandoffComplete && h.localOperationOwnershipTransferredOrDrained

/-- The end of `BeginTerminalHandoff`, behind `BeginTerminalShutdown`. -/
def recordFacts (h : Handoff) (graceful : Bool) (answers : Shutdowns) : Handoff :=
  { h with
    dataPlaneStopped := true
    localOperationOwnershipTransferredOrDrained := true
    terminalHandoffComplete := h.terminalHandoffComplete ||
      if graceful then answers.graceful.alreadyTerminal
      else answers.abort.submitted || answers.abort.alreadyTerminal || answers.abort.retryScheduled
    gracefulAccepted :=
      h.gracefulAccepted ||
        graceful && answers.graceful.submitted && answers.graceful.sinkInstalled }

def record (answers : Shutdowns) (h : Handoff) : Effect → Handoff
  | .stop => { h with stopSignalled := true }
  | .beginTerminalShutdown graceful => h.recordFacts graceful answers
  | _ => h

/-- The end of `ProcessQuicShutdownComplete`, if the call is one that has not
been made before. -/
def recordShutdownComplete (h : Handoff) (before : Worker) (io : Io) : Handoff :=
  if before.calls.head? = some .processQuicShutdownComplete &&
    !before.relay.streamShutdownComplete && io.handoffReady then
    { h with
      dataPlaneStopped := true
      localOperationOwnershipTransferredOrDrained := true
      terminalHandoffComplete := true }
  else h

variable (cfg : Config)

/-- A step of the worker or of another thread. The sink of a graceful shutdown
completes the handoff when it is told of SHUTDOWN_COMPLETE. -/
def step (h : Handoff) (a : Action × Shutdowns) : Option Handoff :=
  (h.worker.step cfg a.1).map fun w =>
    match a.1 with
    | .call io =>
      ((w.ends.drop h.worker.ends.length).foldl (record a.2)
        { h with worker := w }).recordShutdownComplete h.worker io
    | .shutdownComplete =>
      { h with
        worker := w, terminalHandoffComplete := h.terminalHandoffComplete || h.gracefulAccepted }
    | _ => { h with worker := w }

def start (reg : Registration) (tcpInput : Bytes) : Handoff :=
  { worker := Worker.start cfg reg tcpInput }

/-- The relay is closed, its socket released, and the reaper can release the
tunnel now or when the graceful shutdown completes. -/
def TornDown (h : Handoff) : Prop :=
  h.worker.relay.closing = true ∧ h.worker.relay.tcpFdOpen = false ∧
    (h.releaseReady = true ∨ h.gracefulAccepted = true)

end Handoff

/-! ### What a call does to the end of the relay -/

/-- Everything is permitted except a stop that leaves the relay open. -/
def orderly : Permits where
  stops := False
  parksAlone := True

/-- The part of a relay that decides how it ends. -/
structure Standing where
  closing : Bool
  tcpFdOpen : Bool
  streamOpen : Bool
  streamOwner : Bool
  stopControl : Bool
  handoffReady : Bool
  ends : List Effect

def SendSide.standing (s : SendSide) : Standing where
  closing := s.closing
  tcpFdOpen := s.tcpFdOpen
  streamOpen := s.streamOpen
  streamOwner := s.streamOwner
  stopControl := s.stopControl
  handoffReady := s.handoffReady
  ends := s.ends

def Relay.standing (r : Relay) : Standing := r.sendSide.standing

/-- What a call other than that for SHUTDOWN_COMPLETE can do: leave the end
alone, close the relay without a stop, or hand it off. -/
inductive Standing.Ends (s s' : Standing) : Prop
  | keeps (hclosing : s'.closing = s.closing) (hfd : s'.tcpFdOpen = s.tcpFdOpen)
      (hends : s'.ends = s.ends)
      (hcontrol : s'.stopControl = s.stopControl)
      (hstream : s.closing = false → s'.streamOpen = s.streamOpen ∧ s'.streamOwner = s.streamOwner)
  | closes (hclosing : s'.closing = true) (hfd : s'.tcpFdOpen = false) (hends : s'.ends = s.ends)
      (hcontrol : s'.stopControl = s.stopControl)
  | handsOff (graceful : Bool) (hclosing : s'.closing = true) (hfd : s'.tcpFdOpen = false)
      (hends : s'.ends = s.ends ++ [.stop, .beginTerminalShutdown graceful, .stop])
      (hcontrol : s'.stopControl = s.stopControl)

/-- A relay that has a stop control and, while it is open, its stream. -/
structure Standing.Equipped (s : Standing) : Prop where
  control : s.stopControl = true
  stream : s.closing = false → s.streamOpen = true ∧ s.streamOwner = true

theorem Standing.Ends.refl {s : Standing} : s.Ends s := .keeps rfl rfl rfl rfl fun _ => ⟨rfl, rfl⟩

namespace SendSide

variable {s s' : SendSide}

theorem ends_handoff (howner : s.streamOwner = true) (hcontrol : s.stopControl = true)
    (hready : s.handoffReady = true) (graceful : Bool) :
    s.standing.Ends (s.handoff graceful).standing := by
  refine .handsOff graceful (closing_handoff graceful) ?_ ?_ ?_
  all_goals simp [standing, handoff, beginShutdown, abort, stop, howner, hcontrol, hready]

theorem Move.standing (hmove : s.Move orderly s') :
    s'.standing = s.standing ∨ s.closing = false ∧ ∃ graceful, s' = s.handoff graceful := by
  cases hmove with
  | handoff graceful hopen => exact .inr ⟨hopen, graceful, rfl⟩
  | stop h => exact h.elim
  | send op _ | park op _ _ | pause _ | resume | eof => exact .inl rfl

/-- A function that is made of orderly moves hands the relay off at most once. -/
theorem ends_of_leads (hleads : s.Leads orderly s') (hequipped : s.standing.Equipped)
    (hready : s.handoffReady = true) :
    s.standing.Ends s'.standing := by
  -- behind a handoff the relay is closed, and no further one is made
  have hstands : s'.standing = s.standing ∨ s'.closing = true ∧ s.standing.Ends s'.standing := by
    induction hleads with
    | refl => exact .inl rfl
    | @tail t t' _ hmove ih =>
      rcases hmove.standing with hquiet | ⟨hopen, graceful, rfl⟩
      · rw [hquiet]
        refine ih.imp_right fun hended => ⟨?_, hended.2⟩
        exact (congrArg Standing.closing hquiet).trans hended.1
      · rcases ih with hsame | ⟨hclosing, -⟩
        · have hstream := (hsame ▸ hequipped).stream hopen
          refine .inr ⟨closing_handoff graceful, ?_⟩
          rw [← hsame]
          exact ends_handoff hstream.2 (hsame ▸ hequipped).control
            ((congrArg Standing.handoffReady hsame).trans hready) graceful
        · rw [hclosing] at hopen
          cases hopen
  rcases hstands with hsame | ⟨-, hends⟩
  · rw [hsame]
    exact .refl
  · exact hends

end SendSide

namespace Relay

variable (cfg : Config) {r r' : Relay}

theorem ends_of_drives (hdrives : Drives orderly True r r') (hequipped : r.standing.Equipped)
    (hready : r.io.handoffReady = true) :
    r.standing.Ends r'.standing :=
  SendSide.ends_of_leads hdrives.leads hequipped hready

theorem ends_accountQuicSend (op : SendOperation) :
    r.standing.Ends (r.accountQuicSend op).standing := by
  simp only [accountQuicSend]
  split
  next hclosing =>
    have hclosing : r.closing = true := hclosing
    refine .keeps ?_ ?_ ?_ ?_ fun hopen => ?_
    · split <;> rfl
    · split <;> rfl
    · split <;> rfl
    · split <;> rfl
    · rw [show r.standing.closing = true from hclosing] at hopen
      cases hopen
  · exact .keeps rfl rfl rfl rfl fun _ => ⟨rfl, rfl⟩

theorem ends_handleQuicIdealSendBuffer (byteCount : Nat) :
    r.standing.Ends (r.handleQuicIdealSendBuffer byteCount).standing := by
  unfold handleQuicIdealSendBuffer resumeTcpRead
  split_ifs
  · exact .refl
  · unfold standing
    rw [sendSide_of_sides (sides_armTcpReadable _ _)]
    exact .keeps rfl rfl rfl rfl fun _ => ⟨rfl, rfl⟩
  · exact .keeps rfl rfl rfl rfl fun _ => ⟨rfl, rfl⟩

theorem ends_unregisterRelayLocal : r.standing.Ends (r.unregisterRelayLocal cfg).standing := by
  unfold standing
  rw [sendSide_unregisterRelayLocal]
  exact .closes rfl rfl rfl rfl

/-- `ProcessQuicShutdownComplete` signals one stop and releases the relay. -/
theorem standing_processQuicShutdownComplete (hfirst : r.streamShutdownComplete = false) :
    (r.processQuicShutdownComplete cfg).standing.closing = true ∧
      (r.processQuicShutdownComplete cfg).standing.tcpFdOpen = false ∧
      (r.processQuicShutdownComplete cfg).standing.stopControl = r.standing.stopControl ∧
      (r.processQuicShutdownComplete cfg).standing.ends = r.standing.ends ++ [.stop] := by
  have hdetach : ∃ owned,
      ({ r with
        streamShutdownComplete := true } : Relay).beginStreamShutdownCompleteDetach.sendSide =
      { r.sendSide with streamOpen := false, streamOwner := owned } := by
    simp only [beginStreamShutdownCompleteDetach]
    split
    · exact ⟨false, rfl⟩
    · exact ⟨r.streamOwner, rfl⟩
  obtain ⟨owned, hdetach⟩ := hdetach
  simp only [processQuicShutdownComplete, hfirst, Bool.false_eq_true, if_false]
  split
  · unfold standing
    rw [sendSide_abortRelayAndRelease, hdetach]
    exact ⟨rfl, rfl, rfl, rfl⟩
  · unfold standing
    rw [sendSide_unregisterRelayLocal, sendSide_abortRelayAndRelease, hdetach]
    exact ⟨rfl, rfl, rfl, rfl⟩

theorem ends_retryPendingQuicSends (hequipped : r.standing.Equipped)
    (hready : r.io.handoffReady = true) (hgranted : r.retryGranted = true) :
    r.standing.Ends r.retryPendingQuicSends.standing := by
  have hspec : Retries orderly r r.retryPendingQuicSends :=
    retries_retryPendingQuicSends (fun hopen => (hequipped.stream hopen).1) hgranted
  generalize r.retryPendingQuicSends = r' at hspec ⊢
  cases hspec with
  | closed _ => exact .refl
  | drained _ => exact SendSide.ends_of_leads leads_resumeTcpRead hequipped hready
  | sent op rest _ _ hside | parked op rest _ _ _ hside =>
    have hends := SendSide.ends_of_leads hside ⟨hequipped.control, hequipped.stream⟩ hready
    exact hends

end Relay

/-! ### Answers with which a turn of the read loop is passed on -/

/-- The stream takes a send: API lease, completion key and operation are there,
and `StreamSend` succeeds or meets backpressure. -/
def Io.grantsSend (io : Io) : Bool :=
  io.lease && io.completionKey && io.operationAllocated && io.status ≠ .failed

/-- Views whose lengths fit a `QUIC_BUFFER`. -/
def fitsBuffers (views : List Bytes) : Bool := !views.any fun view => uint32Max < view.length

namespace Relay

variable (cfg : Config) {r : Relay} {views : List Bytes} {readBytes : Nat}

theorem submitTcpBatchToQuic_accepts (hopen : r.closing = false) (hstream : r.streamOpen = true)
    (hio : r.io.grantsSend = true) (hviews : fitsBuffers views = true) (fin : Bool) :
    (r.submitTcpBatchToQuic cfg views fin).1 = true := by
  simp only [Io.grantsSend, Bool.and_eq_true, decide_eq_true_eq, ne_eq] at hio
  obtain ⟨⟨⟨hlease, hkey⟩, hallocated⟩, hstatus⟩ := hio
  have htry (op : SendOperation) :
      ((r.markQuicSendFin fin).trySubmitQuicSendOperation op).1 = true := by
    have hsubmits := submits_trySubmitQuicSendOperation (r := r.markQuicSendFin fin) op
    generalize (r.markQuicSendFin fin).trySubmitQuicSendOperation op = p at hsubmits
    cases hsubmits with
    | refused h => simp [refusesSend, markQuicSendFin, hlease, hkey, hopen, hstream, hstatus] at h
    | sent r' _ _ => rfl
    | parked r' _ _ _ => rfl
  have hfits : ¬ (views.any fun view => uint32Max < view.length) = true := by
    simpa [fitsBuffers] using hviews
  have hclosed : ¬ (r.closing || !r.streamOpen) = true := by simp [hopen, hstream]
  have hallocates : ¬ (!r.io.operationAllocated) = true := by simp [hallocated]
  unfold submitTcpBatchToQuic
  dsimp only
  split
  · have hclosed :
        ¬ ((r.markQuicSendFin fin).closing || !(r.markQuicSendFin fin).streamOpen) = true := hclosed
    have hallocates : ¬ (!(r.markQuicSendFin fin).io.operationAllocated) = true := hallocates
    split_ifs
    · rfl
    · rfl
    · exact htry _
  · split_ifs
    · rfl
    · exact htry _

/-- A batch can be converted to views that the stream takes. -/
def convertsBatch (r : Relay) (views : List Bytes) : Bool :=
  ((r.buildTcpToQuicViews cfg views).map fitsBuffers).getD false

/-- The end of the compressed stream can be built. -/
def convertsFin (r : Relay) : Bool :=
  !r.compresses || ((r.io.compress.head?.join.bind (r.bufferOutput cfg)).map fitsBuffers).getD false

/-- What a turn of the read loop reads can be passed on to the stream. -/
def turnGranted (r : Relay) (readBytes : Nat) : Bool :=
  r.io.grantsSend &&
    match r.io.read with
    | .data _ =>
      r.convertsBatch cfg (splitViews cfg.readChunkSize (r.acquiredBuffers cfg readBytes)
        (r.readBatch cfg (r.acquiredBuffers cfg readBytes)))
    | .eof => r.tcpReadClosed || r.convertsFin cfg
    | _ => true

theorem submitsBatch_of_converts (hopen : r.closing = false) (hstream : r.streamOpen = true)
    (hio : r.io.grantsSend = true) (hconverts : r.convertsBatch cfg views = true) :
    submitsBatch cfg r views = true := by
  unfold convertsBatch at hconverts
  unfold submitsBatch
  cases hbuild : r.buildTcpToQuicViews cfg views with
  | none => simp [hbuild] at hconverts
  | some sendViews =>
    simp only [hbuild, map_some, getD_some] at hconverts
    exact submitTcpBatchToQuic_accepts cfg hopen hstream hio hconverts false

theorem submitsFin_of_converts (hopen : r.closing = false) (hstream : r.streamOpen = true)
    (hio : r.io.grantsSend = true) (hconverts : (r.tcpReadClosed || r.convertsFin cfg) = true) :
    submitsFin cfg r = true := by
  unfold submitsFin
  rw [Bool.or_eq_true] at hconverts ⊢
  refine hconverts.imp_right fun hfin => ?_
  have hfinish {r' : Relay} (hopen : r'.closing = false) (hstream : r'.streamOpen = true)
      (hio : r'.io.grantsSend = true)
      (hfin : r'.convertsFin cfg = true) : (r'.finishTcpToQuic cfg).1 = true := by
    unfold finishTcpToQuic
    unfold convertsFin at hfin
    rw [if_neg (by simp [hopen])]
    split
    next hcompresses =>
      simp only [hcompresses, Bool.not_true, Bool.false_or] at hfin
      split
      next hnone => simp [hnone] at hfin
      next views hsome =>
        simp only [hsome, map_some, getD_some] at hfin
        exact submitTcpBatchToQuic_accepts cfg hopen hstream hio hfin true
    · exact submitTcpBatchToQuic_accepts cfg hopen hstream hio rfl true
  unfold armTcpReadable
  split
  · exact hfinish hopen hstream hio hfin
  · exact hfinish hopen hstream hio hfin

theorem passesOnTurn_of_granted (hopen : r.closing = false) (hstream : r.streamOpen = true)
    (hgranted : r.turnGranted cfg readBytes = true) : passesOnTurn cfg r readBytes = true := by
  rw [turnGranted, Bool.and_eq_true] at hgranted
  obtain ⟨hio, hread⟩ := hgranted
  have hpasses {r' : Relay} (hopen : r'.closing = false) (hstream : r'.streamOpen = true)
      (hio : r'.io.grantsSend = true)
      {iov : Nat}
      (hread : (match r'.io.read with
        | .data _ => r'.convertsBatch cfg (splitViews cfg.readChunkSize iov (r'.readBatch cfg iov))
        | .eof => r'.tcpReadClosed || r'.convertsFin cfg
        | _ => true) = true) : passesOn cfg r' iov = true := by
    unfold passesOn
    split
    next hdata =>
      rw [hdata] at hread
      have hsubmits : submitsBatch cfg (r'.takeTcpInput (r'.readBatch cfg iov))
          (splitViews cfg.readChunkSize iov (r'.readBatch cfg iov)) = true :=
        submitsBatch_of_converts (r := r'.takeTcpInput _) cfg hopen hstream hio hread
      rw [hsubmits, Bool.or_true]
    next heof =>
      rw [heof] at hread
      exact submitsFin_of_converts cfg hopen hstream hio hread
    · rfl
  unfold passesOnTurn noteBufferLimit armTcpReadable
  split_ifs
  all_goals
    refine hpasses ?_ ?_ ?_ ?_
    · exact hopen
    · exact hstream
    · exact hio
    · exact hread

/-- A batch without FIN leaves the relay open. -/
theorem closing_submitTcpBatchToQuic (views : List Bytes) :
    (r.submitTcpBatchToQuic cfg views false).2.closing = r.closing := by
  have htry (op : SendOperation) :
      ((r.markQuicSendFin false).trySubmitQuicSendOperation op).2.closing = r.closing := by
    have hsubmits := submits_trySubmitQuicSendOperation (r := r.markQuicSendFin false) op
    generalize (r.markQuicSendFin false).trySubmitQuicSendOperation op = p at hsubmits
    cases hsubmits with
    | refused _ => rfl
    | sent r' _ hside | parked r' _ _ hside => exact congrArg SendSide.closing hside
  unfold submitTcpBatchToQuic
  dsimp only
  split_ifs
  all_goals first
    | rfl
    | exact htry _

theorem open_of_submitReadBatch (hopen : r.closing = false)
    (hok : (r.submitReadBatch cfg views).1 = true) :
    (r.submitReadBatch cfg views).2.closing = false := by
  unfold submitReadBatch at hok ⊢
  split
  next hnone => simp [hnone] at hok
  next sendViews hsome =>
    simp only [hsome] at hok ⊢
    have hclosing := (closing_submitTcpBatchToQuic (r := r) cfg sendViews).trans hopen
    split_ifs at hok ⊢
    exact hclosing

/-- The read loop goes on only with an open relay. -/
theorem open_of_drainTcpReadableTurn (hopen : r.closing = false) {next : Nat}
    (hnext : (r.drainTcpReadableTurn cfg readBytes).2 = some next) :
    (r.drainTcpReadableTurn cfg readBytes).1.closing = false := by
  have hnote : (r.noteBufferLimit cfg readBytes).closing = false :=
    (congrArg SendSide.closing
      (sendSide_of_sides (r.sides_noteBufferLimit cfg readBytes))).trans hopen
  unfold drainTcpReadableTurn at hnext ⊢
  split_ifs at hnext ⊢
  unfold readBuffers at hnext ⊢
  split
  next n hdata =>
    simp only [hdata] at hnext
    dsimp only
    split
    · exact hnote
    next hne =>
      simp only [hne, if_false] at hnext
      refine open_of_submitReadBatch (r := (r.noteBufferLimit cfg readBytes).takeTcpInput _)
        cfg hnote ?_
      by_contra hstop
      rw [if_neg hstop] at hnext
      cases hnext
  next heof => simp [heof] at hnext
  · exact hnote
  · exact hnote
  next herror => simp [herror] at hnext

end Relay

/-! ### The worker with its handoff control -/

/-- Calls that are made for an open relay only. -/
def Call.needsOpen : Call → Bool
  | .abortRelayAndRelease => true
  | .drainTcpReadableTurn _ => true
  | _ => false

namespace Worker

variable {w w' : Worker}

/-- A call that needs an open relay is the next one, and finds it open. -/
def Careful (w : Worker) : Prop :=
  match w.calls with
  | [] => True
  | c :: rest =>
    (c.needsOpen = true → w.relay.closing = false) ∧ rest.all (fun c => !c.needsOpen) = true

theorem Delivers.standing (hdelivers : Delivers w w') : ∃ ready ends,
    w'.relay.standing = { w.relay.standing with handoffReady := ready, ends := ends } ∧
      w'.calls = w.calls := by
  cases hdelivers with
  | spares hspares =>
    obtain ⟨hcalls, -, ready, hside⟩ := hspares
    exact ⟨ready, w.ends, congrArg SendSide.standing hside, hcalls⟩
  | sent index op _ hcalls _ hside =>
    have hstanding : w'.relay.standing = w.relay.standing := by
      unfold Relay.standing
      rw [hside]
      rfl
    exact ⟨w.relay.io.handoffReady, w.ends, hstanding, hcalls⟩
  | failed hspares =>
    obtain ⟨hcalls, -, ready, hside⟩ := hspares
    rw [sendSide_failManagedBinding] at hside
    refine ⟨ready, w.ends ++ [.stop], ?_, hcalls⟩
    unfold Relay.standing
    rw [hside]
    rfl

theorem careful_of_all (hcalls : w.calls.all (fun c => !c.needsOpen) = true) : w.Careful := by
  unfold Careful
  split
  · trivial
  next c rest heq =>
    rw [heq, all_cons, Bool.and_eq_true] at hcalls
    refine ⟨fun hneeds => ?_, hcalls.2⟩
    rw [hneeds] at hcalls
    cases hcalls.1

theorem careful_cons {c : Call} {rest : List Call} (hcalls : w.calls = c :: rest)
    (hopen : w.relay.closing = false) (hrest : rest.all (fun c => !c.needsOpen) = true) :
    w.Careful := by
  unfold Careful
  rw [hcalls]
  exact ⟨fun _ => hopen, hrest⟩

theorem careful_processTcpEvents (e : EpollEvent) :
    ({ w with calls := w.processTcpEvents e } : Worker).Careful := by
  unfold processTcpEvents
  split_ifs with _ hclosing
  · exact careful_of_all rfl
  · exact careful_of_all rfl
  · exact careful_cons rfl (eq_false_of_ne_true hclosing) rfl
  all_goals exact careful_of_all rfl

end Worker

namespace Handoff

variable (cfg : Config) {h h' : Handoff} {answers : Shutdowns}

/-- The stream takes a terminal shutdown of either intent. -/
def accepts (answers : Shutdowns) : Bool :=
  (answers.graceful.alreadyTerminal ||
    answers.graceful.submitted && answers.graceful.sinkInstalled) &&
    (answers.abort.submitted || answers.abort.alreadyTerminal || answers.abort.retryScheduled)

/-- The relay has been handed off, or will be when the stream has shut down. -/
def Converges (h : Handoff) : Prop := h.releaseReady = true ∨ h.gracefulAccepted = true

theorem converges_recordFacts (haccepts : accepts answers = true) (graceful : Bool) :
    (h.recordFacts graceful answers).Converges := by
  simp only [accepts, Bool.and_eq_true, Bool.or_eq_true] at haccepts
  cases graceful with
  | true =>
    rcases haccepts.1 with hterminal | ⟨hsubmitted, hsink⟩
    · exact .inl (by simp [releaseReady, recordFacts, hterminal])
    · exact .inr (by simp [recordFacts, hsubmitted, hsink])
  | false =>
    refine .inl ?_
    simp only [releaseReady, recordFacts, Bool.false_eq_true, if_false, Bool.true_and,
      Bool.and_true, Bool.or_eq_true]
    exact .inr haccepts.2

theorem Converges.recordShutdownComplete (hc : h.Converges) (before : Worker) (io : Io) :
    (h.recordShutdownComplete before io).Converges := by
  unfold Handoff.recordShutdownComplete
  split
  · exact .inl rfl
  · exact hc

@[simp] theorem recordShutdownComplete_worker (before : Worker) (io : Io) :
    (h.recordShutdownComplete before io).worker = h.worker := by
  unfold Handoff.recordShutdownComplete
  split <;> rfl

@[simp] theorem recordShutdownComplete_stopSignalled (before : Worker) (io : Io) :
    (h.recordShutdownComplete before io).stopSignalled = h.stopSignalled := by
  unfold Handoff.recordShutdownComplete
  split <;> rfl

structure Sound (h : Handoff) : Prop where
  equipped : h.worker.relay.standing.Equipped
  released : h.worker.relay.closing = true → h.worker.relay.tcpFdOpen = false
  stopped : h.stopSignalled = true → h.worker.relay.closing = true ∧ h.Converges
  careful : h.worker.Careful

/-- A step of another thread. -/
theorem Sound.delivers (hs : h.Sound) (hdelivers : Worker.Delivers h.worker h'.worker)
    (hsignalled : h'.stopSignalled = h.stopSignalled) (hconverges : h.Converges → h'.Converges) :
    h'.Sound := by
  obtain ⟨ready, ends, hstanding, hcalls⟩ := hdelivers.standing
  have hclosing : h'.worker.relay.closing = h.worker.relay.closing :=
    congrArg Standing.closing hstanding
  have hfd : h'.worker.relay.tcpFdOpen = h.worker.relay.tcpFdOpen :=
    congrArg Standing.tcpFdOpen hstanding
  refine ⟨?_, fun hc => ?_, fun hstop => ?_, ?_⟩
  · rw [hstanding]
    exact ⟨hs.equipped.control, hs.equipped.stream⟩
  · exact hfd.trans (hs.released (hclosing.symm.trans hc))
  · obtain ⟨hended, hconverging⟩ := hs.stopped (hsignalled.symm.trans hstop)
    exact ⟨hclosing.trans hended, hconverges hconverging⟩
  · have hcareful := hs.careful
    unfold Worker.Careful at hcareful ⊢
    rwa [hcalls, hclosing]

theorem Sound.recordShutdownComplete (hs : h.Sound) (before : Worker) (io : Io) :
    (h.recordShutdownComplete before io).Sound := by
  have hworker := h.recordShutdownComplete_worker before io
  refine ⟨by rw [hworker]; exact hs.equipped, by rw [hworker]; exact hs.released, fun hstop => ?_,
    by rw [hworker]; exact hs.careful⟩
  rw [recordShutdownComplete_stopSignalled] at hstop
  rw [hworker]
  exact ⟨(hs.stopped hstop).1, (hs.stopped hstop).2.recordShutdownComplete before io⟩

variable {w' : Worker} {io : Io}

/-- A call of the worker that is not that for SHUTDOWN_COMPLETE. -/
theorem Sound.call (hs : h.Sound) (haccepts : accepts answers = true)
    (hends : (h.worker.relay.answering io).standing.Ends w'.relay.standing)
    (hcareful : w'.Careful) :
    ((w'.ends.drop h.worker.ends.length).foldl (record answers) { h with worker := w' }).Sound := by
  cases hends with
  | keeps hclosing hfd hends hcontrol hstream =>
    have hquiet : w'.ends.drop h.worker.ends.length = [] :=
      drop_of_length_le (by rw [show w'.ends = _ from hends]; rfl)
    rw [hquiet]
    refine ⟨⟨hcontrol.trans hs.equipped.control, fun hopen => ?_⟩, fun hc => ?_,
      fun hstop => ?_, hcareful⟩
    · have hopen : h.worker.relay.closing = false := hclosing.symm.trans hopen
      obtain ⟨hstreamOpen, howner⟩ := hstream hopen
      exact ⟨hstreamOpen.trans (hs.equipped.stream hopen).1,
        howner.trans (hs.equipped.stream hopen).2⟩
    · exact hfd.trans (hs.released (hclosing.symm.trans hc))
    · exact ⟨hclosing.trans (hs.stopped hstop).1, (hs.stopped hstop).2⟩
  | closes hclosing hfd hends hcontrol =>
    have hquiet : w'.ends.drop h.worker.ends.length = [] :=
      drop_of_length_le (by rw [show w'.ends = _ from hends]; rfl)
    rw [hquiet]
    refine ⟨⟨hcontrol.trans hs.equipped.control, fun hopen => ?_⟩, fun _ => hfd,
      fun hstop => ?_, hcareful⟩
    · have hopen : w'.relay.standing.closing = false := hopen
      rw [hclosing] at hopen
      cases hopen
    · exact ⟨hclosing, (hs.stopped hstop).2⟩
  | handsOff graceful hclosing hfd hends hcontrol =>
    have hfresh :
        w'.ends.drop h.worker.ends.length = [.stop, .beginTerminalShutdown graceful, .stop] := by
      rw [show w'.ends = h.worker.ends ++ _ from hends]
      exact drop_left
    rw [hfresh]
    refine ⟨⟨hcontrol.trans hs.equipped.control, fun hopen => ?_⟩, fun _ => hfd,
      fun _ => ⟨hclosing, ?_⟩, hcareful⟩
    · have hopen : w'.relay.standing.closing = false := hopen
      rw [hclosing] at hopen
      cases hopen
    · exact converges_recordFacts (h := { h with worker := w', stopSignalled := true })
        haccepts graceful

/-- The call for SHUTDOWN_COMPLETE leaves all facts behind. -/
theorem Sound.shutdownComplete (hs : h.Sound) (haccepts : accepts answers = true) {rest : List Call}
    (hcalls : h.worker.calls = .processQuicShutdownComplete :: rest)
    (hready : io.handoffReady = true)
    (hrelay : w'.relay = (h.worker.relay.answering io).processQuicShutdownComplete cfg)
    (hcareful : w'.Careful) :
    (((w'.ends.drop h.worker.ends.length).foldl (record answers)
      { h with worker := w' }).recordShutdownComplete h.worker
      io).Sound := by
  cases hfirst : h.worker.relay.streamShutdownComplete with
  | true =>
    have hsame : w'.relay = h.worker.relay.answering io := hrelay.trans (if_pos hfirst)
    have hends : (h.worker.relay.answering io).standing.Ends w'.relay.standing := hsame ▸ .refl
    exact (hs.call haccepts hends hcareful).recordShutdownComplete h.worker io
  | false =>
    obtain ⟨hclosing, hfd, hcontrol, hends⟩ :=
      standing_processQuicShutdownComplete (r := h.worker.relay.answering io) cfg hfirst
    rw [← hrelay] at hclosing hfd hcontrol hends
    have hfresh : w'.ends.drop h.worker.ends.length = [.stop] := by
      rw [show w'.ends = h.worker.ends ++ _ from hends]
      exact drop_left
    have hrecords :
      (h.worker.calls.head? = some .processQuicShutdownComplete &&
      !h.worker.relay.streamShutdownComplete &&
        io.handoffReady) = true := by
      simp [hcalls, hfirst, hready]
    rw [hfresh]
    unfold Handoff.recordShutdownComplete
    rw [if_pos hrecords]
    refine ⟨⟨hcontrol.trans hs.equipped.control, fun hopen => ?_⟩, fun _ => hfd,
      fun _ => ⟨hclosing, .inl rfl⟩, hcareful⟩
    have hopen : w'.relay.standing.closing = false := hopen
    rw [hclosing] at hopen
    cases hopen

end Handoff

namespace Worker

variable (cfg : Config) {w : Worker}

/-- A relay can be committed: no terminal event was seen, and epoll takes its
socket. -/
def commits (w : Worker) : Bool :=
  !w.relay.bindingClosing && (!w.relay.tcpFdOpen || w.relay.io.epollAdded)

/-- The answers with which a call does not stop the relay and leave it open. -/
def granted (w : Worker) : Call → Bool
  | .commitRelay => w.commits
  | .drainTcpReadableTurn readBytes => w.relay.turnGranted cfg readBytes
  | .retryPendingQuicSends => w.relay.retryGranted
  | .flushDeferredQuicReceives => w.relay.servesReceives cfg
  | _ => true

theorem commitRelay_of_commits (hcommits : w.commits = true) : w.commitRelay cfg = w := by
  simp only [commits, Bool.and_eq_true, Bool.not_eq_true', Bool.or_eq_true] at hcommits
  unfold commitRelay
  rw [if_neg (by simp [hcommits.1]), if_neg]
  rcases hcommits.2 with hfd | hadded
  · simp [hfd]
  · simp [hadded]

variable {c : Call}

/-- Every call but that for SHUTDOWN_COMPLETE. -/
theorem ends_execute (hequipped : w.relay.standing.Equipped)
    (hready : w.relay.io.handoffReady = true)
    (hneeds : c.needsOpen = true → w.relay.closing = false) (hgranted : w.granted cfg c = true)
    (hother : c ≠ .processQuicShutdownComplete) :
    w.relay.standing.Ends (w.execute cfg c).relay.standing := by
  cases c with
  | commitRelay =>
    simp only [execute, commitRelay_of_commits cfg hgranted]
    exact .refl
  | activateManagedBinding =>
    simp only [execute, activateManagedBinding]
    split <;> exact .refl
  | drainQuicSendCompletionFallbacks | drainQuicTerminalFallbacks => exact .refl
  | popEvents processed =>
    simp only [execute]
    split
    · exact .refl
    · split <;> exact .refl
  | processQuicReceiveView view =>
    exact ends_of_drives (.of_sides (w.relay.sides_appendQuicReceive cfg view)) hequipped hready
  | completeQuicSend op => exact ends_accountQuicSend op
  | resumeAfterQuicSend =>
    exact ends_of_drives (Relay.drives_resumeTcpRead.trans (drives_maybeStopFullyClosedRelay cfg _))
      hequipped hready
  | handleQuicIdealSendBuffer byteCount => exact ends_handleQuicIdealSendBuffer byteCount
  | processTerminalHandoffRequest =>
    simp only [execute]
    split
    next howner =>
      unfold Relay.standing
      rw [sendSide_beginTerminalHandoff]
      exact SendSide.ends_handoff howner hequipped.control hready false
    · exact .refl
  | abortRelayAndRelease =>
    exact ends_of_drives
      ((Relay.Drives.refl _).handoff cfg (hneeds rfl) (fun _ => .inl trivial) false)
      hequipped hready
  | processQuicShutdownComplete => exact absurd rfl hother
  | unregisterRelay => exact ends_unregisterRelayLocal cfg
  | flushTcpWrites => exact ends_of_drives (drives_flushTcpWrites cfg) hequipped hready
  | flushDeferredQuicReceives =>
    exact ends_of_drives (drives_flushDeferredQuicReceives cfg (.inr hgranted)) hequipped hready
  | drainTcpReadable => exact ends_of_drives drives_drainTcpReadable hequipped hready
  | drainTcpReadableTurn readBytes =>
    have hopen := hneeds rfl
    have hpasses := passesOnTurn_of_granted cfg hopen (hequipped.stream hopen).1 hgranted
    exact ends_of_drives (drives_drainTcpReadableTurn cfg (.inl trivial) (.inr hpasses))
      hequipped hready
  | retryPendingQuicSends => exact ends_retryPendingQuicSends hequipped hready hgranted
  | drainCallbackPendingQuicReceives =>
    simp only [execute]
    split <;> exact .refl
  | maybeResumeQuicReceive =>
    exact ends_of_drives (.of_sides (w.relay.sides_maybeResumeQuicReceive cfg)) hequipped hready

theorem careful_execute (hneeds : c.needsOpen = true → w.relay.closing = false)
    (hrest : w.calls.all (fun c => !c.needsOpen) = true) : (w.execute cfg c).Careful := by
  have hserves {front : List Call} (hfront : ∀ d ∈ front, d.serves = true) :
      front.all (fun c => !c.needsOpen) = true := by
    refine all_eq_true.mpr fun d hd => ?_
    have hd := hfront d hd
    cases d <;> first | rfl | cases hd
  obtain ⟨front, hfront, heq | ⟨-, n, heq⟩⟩ | ⟨hreads, n, heq⟩ := execute_calls cfg w c
  · refine careful_of_all ?_
    rw [heq, all_append, hserves hfront, hrest]
    rfl
  · refine careful_of_all ?_
    rw [heq, all_append, hserves hfront, all_cons, hrest]
    rfl
  · refine careful_cons heq ?_ hrest
    cases c with
    | drainTcpReadable =>
      have henter : w.relay.drainTcpReadable.1 = true := by
        by_contra hnot
        simp [execute, hnot] at heq
      change w.relay.drainTcpReadable.2.closing = false
      unfold drainTcpReadable at henter ⊢
      split_ifs at henter ⊢ with hclosing
      exact eq_false_of_ne_true hclosing
    | drainTcpReadableTurn readBytes =>
      cases hnext : (w.relay.drainTcpReadableTurn cfg readBytes).2 with
      | none => simp [execute, hnext] at heq
      | some next => exact open_of_drainTcpReadableTurn cfg (hneeds rfl) hnext
    | _ => cases hreads

end Worker

namespace Handoff

variable (cfg : Config) {h h' : Handoff}

/-- The answers of a step with which no failure stops the relay and leaves it
open: the registration succeeds, sends are taken, batches and views can be
converted, and the stream takes terminal shutdowns. -/
def granted (h : Handoff) (a : Action × Shutdowns) : Bool :=
  match a.1 with
  | .call io =>
    accepts a.2 && io.handoffReady &&
      match h.worker.calls with
      | [] => true
      | c :: _ => { h.worker with relay := h.worker.relay.answering io }.granted cfg c
  | _ => true

theorem sound_step {a : Action × Shutdowns} (hs : h.Sound) (hgranted : h.granted cfg a = true)
    (hstep : h.step cfg a = some h') : h'.Sound := by
  obtain ⟨a, answers⟩ := a
  obtain ⟨w', hw, rfl⟩ := map_eq_some_iff.mp hstep
  cases a with
  | call io =>
    obtain ⟨c, rest, hcalls, rfl⟩ := Worker.step_call cfg hw
    simp only [granted, hcalls, Bool.and_eq_true] at hgranted
    obtain ⟨⟨haccepts, hready⟩, hgranted⟩ := hgranted
    have hcareful := hs.careful
    rw [Worker.Careful, hcalls] at hcareful
    have hnext :=
      Worker.careful_execute
        (w := { h.worker with relay := h.worker.relay.answering io, calls := rest }) cfg
      hcareful.1 hcareful.2
    by_cases hshutdown : c = .processQuicShutdownComplete
    · subst hshutdown
      exact hs.shutdownComplete cfg haccepts hcalls hready rfl hnext
    · have hends :=
        Worker.ends_execute
          (w := { h.worker with relay := h.worker.relay.answering io, calls := rest }) cfg
        ⟨hs.equipped.control, hs.equipped.stream⟩ hready hcareful.1 hgranted hshutdown
      exact (hs.call haccepts hends hnext).recordShutdownComplete h.worker io
  | drainEvents =>
    simp only [Worker.step] at hw
    split at hw
    · cases hw
      exact ⟨hs.equipped, hs.released, hs.stopped, Worker.careful_of_all rfl⟩
    · cases hw
  | epoll event =>
    simp only [Worker.step] at hw
    split at hw
    · cases hw
      exact ⟨hs.equipped, hs.released, hs.stopped, Worker.careful_processTcpEvents event⟩
    · cases hw
  | shutdownComplete =>
    refine hs.delivers (Worker.delivers_step cfg rfl hw) rfl fun hconverges => ?_
    refine hconverges.imp_left fun hready => ?_
    simp only [releaseReady, Bool.and_eq_true] at hready ⊢
    simp [hready]
  | receive buffers fin io | sendComplete index | terminalEvent =>
    exact hs.delivers (Worker.delivers_step cfg rfl hw) rfl id
  | idealSendBufferSize byteCount | enqueue event =>
    exact hs.delivers (Worker.delivers_step cfg rfl hw) rfl id

theorem sound_start (reg : Registration) (tcpInput : Bytes) : (start cfg reg tcpInput).Sound where
  equipped := ⟨rfl, fun _ => ⟨rfl, rfl⟩⟩
  released := fun hclosing => (by cases hclosing)
  stopped := fun hstop => (by cases hstop)
  careful := Worker.careful_of_all rfl

/-- **Teardown.** In every run whose answers are granted, a relay that the worker
has stopped is torn down in every state. -/
theorem stopped_relay_is_torn_down (cfg : Config) (reg : Registration) (tcpInput : Bytes)
    (as : List (Action × Shutdowns)) (h : Handoff)
    (hgranted : Meets (step cfg) (fun h a => h.granted cfg a = true) (start cfg reg tcpInput) as)
    (hrun : run (step cfg) (start cfg reg tcpInput) as = some h)
    (hstopped : h.stopSignalled = true) :
    h.TornDown := by
  have hsound :=
    invariant_of_meets (fun _ _ _ hs hg hstep => sound_step cfg hs hg hstep)
      (sound_start cfg reg tcpInput)
    hgranted hrun
  obtain ⟨hclosing, hconverges⟩ := hsound.stopped hstopped
  exact ⟨hclosing, hsound.released hclosing, hconverges⟩

/-- Every terminal shutdown of these steps would be submitted. -/
def submitting (as : List Action) : List (Action × Shutdowns) := as.map (·, {})

/-- A read error ends the relay. -/
def readError : List (Action × Shutdowns) :=
  submitting
    (Worker.registration ++ [.epoll { readable := true }, .call {}, .call { read := .error }])

theorem readError_torn_down :
    ∃ h, run (step {}) (start {} {} [1, 2]) readError = some h ∧ h.stopSignalled = true ∧
      h.TornDown := by
  refine run_observed (f := (·.stopSignalled)) (o := true) (by decide +kernel)
    fun h hrun hstopped => ?_
  exact ⟨hstopped, stopped_relay_is_torn_down {} {} [1, 2] readError h (by decide +kernel)
    hrun hstopped⟩

/-- A parked send is tried again and fails. -/
def failedRetry : List (Action × Shutdowns) :=
  submitting (Worker.registration ++ [.epoll { readable := true }, .call {},
    .call { read := .data 2, status := .outOfMemory }, .call {},
    .drainEvents, .call {}, .call {}, .call {}, .call { status := .failed }, .call {}, .call {}])

/-- The worker has signalled the stop and finished its pass; the relay is open
and keeps its socket, and no handoff was begun. -/
theorem failedRetry_stays_open :
    ∃ h, run (step {}) (start {} {} [1, 2]) failedRetry = some h ∧ h.worker.calls = [] ∧
      h.stopSignalled = true ∧
      h.worker.relay.closing = false ∧ h.worker.relay.tcpFdOpen = true ∧
        h.dataPlaneStopped = false ∧ ¬ h.TornDown := by
  have hend : (run (step {}) (start {} {} [1, 2]) failedRetry).map
      (fun h => (h.worker.calls, h.stopSignalled, h.worker.relay.closing, h.worker.relay.tcpFdOpen,
        h.dataPlaneStopped)) =
        some ([], true, false, true, false) := by decide +kernel
  obtain ⟨h, hrun, hend⟩ := map_eq_some_iff.mp hend
  simp only [Prod.mk.injEq] at hend
  obtain ⟨hcalls, hstopped, hopen, hfd, hplane⟩ := hend
  refine ⟨h, hrun, hcalls, hstopped, hopen, hfd, hplane, fun htorn => ?_⟩
  rw [htorn.1] at hopen
  cases hopen

end Handoff
end TcpQuicProxy.LinuxRelay
