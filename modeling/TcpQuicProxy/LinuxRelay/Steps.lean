import TcpQuicProxy.LinuxRelay.Moves

/-!
# What one step of the worker does to received bytes

A view that the stream callback has taken is in the event queue, in the lane
beside it or in the hand of the worker, until the worker appends it to the
receive queue of the relay. `Stepped` lists what a step of the machine can do
to these places and to the relay; every invariant about received bytes is
derived from it.
-/

namespace TcpQuicProxy.LinuxRelay

open List Option Relay

/-! ### The upload direction leaves received bytes alone -/

namespace Relay

variable (cfg : Config) {strict : Prop} (r : Relay)

theorem download_trySubmitQuicSendOperation (op : SendOperation) :
    KeepsDownload r (r.trySubmitQuicSendOperation op).2 := by
  unfold trySubmitQuicSendOperation
  split_ifs
  · exact .refl r
  · exact .refl r
  · exact .of_emit rfl (.inl rfl) rfl rfl rfl
  · exact r.keeps_pauseTcpRead.download.trans (.of_eq rfl rfl rfl rfl)
  · exact .refl r

theorem moves_failRelayFatal : Moves KeepsDownload strict r (r.failRelayFatal cfg) := by
  unfold failRelayFatal
  split
  · exact .refl
  · exact .of_shuts (r.shuts_beginTerminalHandoff cfg false)

theorem moves_completeWithoutSend (fin : Bool) :
    Moves KeepsDownload strict r (r.completeWithoutSend cfg fin) := by
  unfold completeWithoutSend
  split
  · have hset : KeepsDownload r { r with quicSendFinCompleted := true } := .of_eq rfl rfl rfl rfl
    exact (Moves.of_quiet hset).trans (moves_maybeStopFullyClosedRelay cfg _).download
  · exact .refl

theorem download_markQuicSendFin (fin : Bool) : KeepsDownload r (r.markQuicSendFin fin) :=
  .of_eq rfl rfl rfl rfl

theorem moves_submitTcpBatchToQuic (views : List Bytes) (fin : Bool) :
    Moves KeepsDownload strict r (r.submitTcpBatchToQuic cfg views fin).2 := by
  have hmark : Moves KeepsDownload strict r (r.markQuicSendFin fin) :=
    .of_quiet (r.download_markQuicSendFin fin)
  simp only [submitTcpBatchToQuic]
  split_ifs
  all_goals first
    | exact .refl
    | exact hmark
    | exact hmark.trans (moves_completeWithoutSend cfg _ fin)
    | exact hmark.trans (Moves.of_quiet (download_trySubmitQuicSendOperation _ _))

theorem moves_finishTcpToQuic : Moves KeepsDownload strict r (r.finishTcpToQuic cfg).2 := by
  unfold finishTcpToQuic
  split_ifs
  · exact .refl
  · split
    · exact .refl
    · exact r.moves_submitTcpBatchToQuic cfg _ true
  · exact r.moves_submitTcpBatchToQuic cfg _ true

theorem moves_submitReadBatch (views : List Bytes) :
    Moves KeepsDownload strict r (r.submitReadBatch cfg views).2 := by
  unfold submitReadBatch
  split
  · exact Moves.of_quiet r.keeps_setRelayStop.download
  next sendViews _ =>
    have hsub : Moves KeepsDownload strict r (r.submitTcpBatchToQuic cfg sendViews false).2 :=
      r.moves_submitTcpBatchToQuic cfg sendViews false
    generalize r.submitTcpBatchToQuic cfg sendViews false = p at hsub
    dsimp only
    split_ifs
    · exact hsub.trans (Moves.of_quiet (keeps_setRelayStop _).download)
    · exact hsub.trans (Moves.of_quiet (keeps_pauseTcpRead _).download)
    · exact hsub

theorem moves_finishTcpRead : Moves KeepsDownload strict r (r.finishTcpRead cfg) := by
  unfold finishTcpRead
  split
  · exact .refl
  have heof : KeepsDownload r r.closeTcpRead := .of_emit rfl (.inl rfl) rfl rfl rfl
  have harm : KeepsDownload r (r.closeTcpRead.armTcpReadable false) :=
    heof.trans (keeps_armTcpReadable _ false).download
  have hfin :
      Moves KeepsDownload strict r ((r.closeTcpRead.armTcpReadable false).finishTcpToQuic cfg).2 :=
    (Moves.of_quiet harm).trans (moves_finishTcpToQuic cfg _)
  dsimp only
  split
  · exact hfin
  · exact hfin.trans (Moves.of_quiet (keeps_setRelayStop _).download)

theorem moves_readBuffers (readBytes iov : Nat) :
    Moves KeepsDownload strict r (r.readBuffers cfg readBytes iov).1 := by
  unfold readBuffers
  split
  · dsimp only
    split
    · exact .refl
    · have htake (bytes : Bytes) : KeepsDownload r (r.takeTcpInput bytes) :=
        .of_emit rfl (.inl rfl) rfl rfl rfl
      exact (Moves.of_quiet (htake _)).trans (moves_submitReadBatch cfg _ _)
  · exact r.moves_finishTcpRead cfg
  · exact .refl
  · exact .refl
  · exact r.moves_failRelayFatal cfg

theorem moves_drainTcpReadableTurn (readBytes : Nat) :
    Moves KeepsDownload strict r (r.drainTcpReadableTurn cfg readBytes).1 := by
  have hnote : Moves KeepsDownload strict r (r.noteBufferLimit cfg readBytes) :=
    .of_quiet (r.keeps_noteBufferLimit cfg readBytes).download
  unfold drainTcpReadableTurn
  split_ifs
  · exact .refl
  · exact hnote
  · exact hnote.trans (moves_readBuffers cfg _ readBytes _)

theorem moves_retryPendingQuicSends : Moves KeepsDownload strict r r.retryPendingQuicSends := by
  unfold retryPendingQuicSends
  split
  · exact .refl
  split
  · exact Moves.of_quiet r.keeps_resumeTcpRead.download
  next op rest _ =>
    have hsub :
        KeepsDownload r
        ({ r with pendingQuicSendRetries := rest }.trySubmitQuicSendOperation op).2 :=
      (download_trySubmitQuicSendOperation _ op).after_update rfl rfl rfl rfl
    generalize { r with pendingQuicSendRetries := rest }.trySubmitQuicSendOperation op = p at hsub
    dsimp only
    split_ifs
    · exact Moves.of_quiet (hsub.trans (keeps_setRelayStop _).download)
    · exact Moves.of_quiet hsub
    · exact Moves.of_quiet (hsub.trans (keeps_resumeTcpRead _).download)

end Relay

/-! ### Views on their way to the relay -/

/-- A call that fetches views into the call list. -/
def Call.loads : Call → Bool
  | .activateManagedBinding => true
  | .popEvents _ => true
  | .drainCallbackPendingQuicReceives => true
  | _ => false

/-- A call that goes on with the read loop. -/
def Call.reads : Call → Bool
  | .drainTcpReadable | .drainTcpReadableTurn _ => true
  | _ => false

/-- A call that other calls put in front of the remaining ones. -/
def Call.serves : Call → Bool
  | .popEvents _ | .activateManagedBinding | .drainCallbackPendingQuicReceives
  | .drainTcpReadableTurn _ | .abortRelayAndRelease => false
  | _ => true

attribute [local simp] Call.serves Relay.answering

theorem QueueEvent.calls_serve (e : QueueEvent) : ∀ c ∈ e.calls, c.serves = true := by
  cases e with
  | terminal event => cases event <;> simp [QueueEvent.calls, TerminalEvent.call]
  | _ => simp [QueueEvent.calls, writableCalls]

def Action.isReceive : Action → Bool
  | .receive _ _ _ => true
  | _ => false

def Action.isCall : Action → Bool
  | .call _ => true
  | _ => false

def Call.views : Call → List ReceiveView
  | .processQuicReceiveView view => [view]
  | _ => []

/-- Nothing of the view is consumed. -/
def ReceiveView.Fresh (view : ReceiveView) : Prop :=
  view.completedLength = 0 ∧ view.pendingCompleteBytes = 0

def QueueEvent.views : QueueEvent → List ReceiveView
  | .quicReceiveView view => [view]
  | _ => []

theorem QueueEvent.calls_views (e : QueueEvent) : e.calls.flatMap Call.views = e.views := by
  cases e with
  | terminal event => cases event <;> rfl
  | _ => rfl

/-- The callback changes its lane and nothing else. -/
abbrev KeepsFlows (r r' : Relay) : Prop :=
  Keeps (fun r => (r.uploadSide, r.downloadSide, r.callbackSide.shutOff)) (· = .control) r r'

variable {r : Relay}

theorem KeepsCore.flows {r' : Relay} (h : KeepsCore r r') : KeepsFlows r r' :=
  h.mono (fun c => (c.1, c.2.1, c.2.2.shutOff)) (fun _ => id)

theorem KeepsFlows.upload {r' : Relay} (h : KeepsFlows r r') : KeepsUpload r r' :=
  .of_keeps h Prod.fst rfl (by rintro k rfl; decide)

theorem Relay.open_of_accepting (h : r.callbackSide.shutOff = false) : r.closing = false := by
  simp only [callbackSide, Bool.or_eq_false_iff] at h
  exact h.2

namespace Worker

/-- The views that the calls of the current handler will append. -/
def handViews (w : Worker) : List ReceiveView := w.calls.flatMap Call.views

/-- The views in the event queue. -/
def eventViews (w : Worker) : List ReceiveView := w.eventQueue.flatMap QueueEvent.views

/-- The views that the worker will fetch: those that wait for the activation of
the binding, then those in the event queue. -/
def queueViews (w : Worker) : List ReceiveView := w.precommitReceives.getD [] ++ w.eventViews

def laneViews (w : Worker) : List ReceiveView := w.relay.callbackPendingQuicReceives

/-- While the binding waits for its activation, the worker is busy with the
registration and every view waits in the binding. -/
structure Staged (w : Worker) : Prop where
  calls : ∃ rest, w.calls = .activateManagedBinding :: rest ∨
    w.calls = .commitRelay :: .activateManagedBinding :: rest
  events : w.eventViews = []
  lane : w.laneViews = []

structure Sound (w : Worker) : Prop where
  relay : w.relay.Sound
  hand : ∀ view ∈ w.handViews, view.Fits
  queue : ∀ view ∈ w.queueViews, view.Fits
  lane : w.relay.closing = false → ∀ view ∈ w.laneViews, view.Fits
  staged : w.precommitReceives.isSome = true → w.Staged

/-- What holds of every view on its way to the relay. -/
structure Carries (P : ReceiveView → Prop) (w : Worker) : Prop where
  hand : ∀ view ∈ w.handViews, P view
  queue : ∀ view ∈ w.queueViews, P view
  lane : w.relay.closing = false → ∀ view ∈ w.laneViews, P view

/-- A RECEIVE event has been taken over by the callback as `view`. Only an
event without bytes is answered with success. -/
structure Accepted (w w' : Worker) (bytes : Bytes) (fin : Bool) (view : ReceiveView) : Prop where
  opened : w.relay.callbackSide.shutOff = false
  payload : view.slices.flatten = bytes ∧ view.fin = fin
  fits : view.Fits
  credit : view.credit = bytes.length
  fresh : view.Fresh
  relay : ∃ m, KeepsFlows (w.relay.emit (.receiveIndicated bytes fin)) m ∧
    (w'.relay = m ∨ w'.relay = m.emit (.receiveConsumed 0))
  hand : w'.handViews = w.handViews

variable {w w' : Worker} {bytes : Bytes} {fin : Bool} {view : ReceiveView} {c : Call}
  {rest : List Call}

theorem Accepted.open
    (h : Accepted w w' bytes fin view) : w.relay.closing = false := open_of_accepting h.opened

/-- What one step of the machine can do to the views and to the relay. -/
inductive Stepped (cfg : Config) (strict : Prop) (a : Action) (w w' : Worker) : Prop
  | moved (hrelay : Moves KeepsDownload strict w.relay w'.relay)
      (hhand : w'.handViews = w.handViews)
      (hqueue : w'.queueViews = w.queueViews)
  | loaded (batch : List ReceiveView) (hcall : ∃ c rest, w.calls = c :: rest ∧ c.loads = true)
      (hrelay : KeepsDownload w.relay w'.relay) (hhand : w'.handViews = batch ++ w.handViews)
      (hqueue : w.queueViews = batch ++ w'.queueViews)
  | laneLoaded
      (hcall : a.isCall = true ∧ ∃ rest, w.calls = .drainCallbackPendingQuicReceives :: rest)
      (hopen : w.relay.closing = false)
      (hrelay : KeepsDownload { w.relay with callbackPendingQuicReceives := [] } w'.relay)
      (hhand : w'.handViews = w.laneViews ++ w.handViews) (hqueue : w'.queueViews = w.queueViews)
  | appended {view : ReceiveView} (hopen : w.relay.closing = false)
      (hrelay : KeepsDownload (w.relay.queueQuicReceive view) w'.relay)
      (hhand : w.handViews = view :: w'.handViews)
      (hqueue : w'.queueViews = w.queueViews)
  | discarded {view : ReceiveView} {es : List Effect} (hclosed : w.relay.closing = true)
      (hes : ∀ e ∈ es, e.kind = .credit)
      (hle : completedBytes es ≤ view.credit) (hrelay : KeepsDownload (w.relay.record es) w'.relay)
      (hhand : w.handViews = view :: w'.handViews) (hqueue : w'.queueViews = w.queueViews)
  | received {bytes : Bytes} {fin : Bool} {view : ReceiveView} (h : Accepted w w' bytes fin view)
      (hroom : a.isReceive = true ∧
        (w.eventQueue.length < cfg.eventQueueCapacity ∨ w.laneViews = []))
      (hqueue : w'.queueViews = w.queueViews ++ [view]) (hlane : w'.laneViews = w.laneViews)
  | receivedLane {bytes : Bytes} {fin : Bool} {view : ReceiveView}
      (h : Accepted w w' bytes fin view)
      (ha : a.isReceive = true) (hqueue : w'.queueViews = w.queueViews)
      (hlane : w'.laneViews = w.laneViews ++ [view])
  | ignored {bytes : Bytes} {fin : Bool} (hoff : w.relay.callbackSide.shutOff = true)
      (hrelay : w'.relay =
        (w.relay.emit (.receiveIndicated bytes fin)).emit (.receiveConsumed bytes.length))
      (hhand : w'.handViews = w.handViews) (hqueue : w'.queueViews = w.queueViews)
  | refused {bytes : Bytes} {fin : Bool}
      (hrelay : w'.relay = (w.relay.emit (.receiveIndicated bytes fin)).sealBinding)
      (hhand : w'.handViews = w.handViews) (hqueue : w'.queueViews = w.queueViews)
  | shutOff {r : Relay} (hstop : KeepsCore w.relay r) (hrelay : w'.relay = r.sealBinding)
      (hhand : w'.handViews = w.handViews)
      (hqueue : w'.queueViews = w.queueViews ∨
        w'.queueViews = [] ∧ w.laneViews = [] ∧ w.precommitReceives.isSome = true)
  | erased (hrelay : Shuts w.relay w'.relay) (hhand : w'.handViews = w.handViews)
      (hqueue : w'.queueViews = w.queueViews ∨ w'.queueViews = [])

variable (cfg : Config) {strict : Prop} {a : Action}

/-- A change that leaves the relay and all views alone. -/
structure Untouched (w w' : Worker) : Prop where
  relay : w'.relay = w.relay
  calls : w'.calls = w.calls
  precommit : w'.precommitReceives = w.precommitReceives
  events : w'.eventViews = w.eventViews

theorem handViews_of_calls (h : w'.calls = w.calls) : w'.handViews = w.handViews := by
  rw [handViews, h]
  rfl

theorem queueViews_of_eq (hpre : w'.precommitReceives = w.precommitReceives)
    (hevents : w'.eventViews = w.eventViews) : w'.queueViews = w.queueViews := by
  rw [queueViews, hpre, hevents]
  rfl

theorem Untouched.hand (h : Untouched w w') : w'.handViews = w.handViews :=
  handViews_of_calls h.calls

theorem Untouched.queue (h : Untouched w w') : w'.queueViews = w.queueViews :=
  queueViews_of_eq h.precommit h.events

theorem Untouched.stepped (h : Untouched w w') : Stepped cfg strict a w w' :=
  .moved (by rw [h.relay]) h.hand h.queue

/-! #### The queue -/

/-- Queueing an event without a view, or failing to. -/
theorem enqueue_untouched (w : Worker) {e : QueueEvent} (he : e.views = []) :
    Untouched w (w.enqueue cfg e).2 := by
  unfold enqueue
  split
  · exact ⟨rfl, rfl, rfl, by simp [eventViews, he]⟩
  · exact ⟨rfl, rfl, rfl, rfl⟩

theorem enqueueTerminal_untouched (w : Worker) (e : TerminalEvent) :
    Untouched w (w.enqueueTerminal cfg e) := by
  have h := w.enqueue_untouched cfg (e := .terminal e) rfl
  unfold enqueueTerminal
  split
  next w' heq => rw [heq] at h; exact h
  next w' heq => rw [heq] at h; exact ⟨h.relay, h.calls, h.precommit, h.events⟩

theorem onSendComplete_untouched (w : Worker) (op : SendOperation) :
    Untouched w (w.onSendComplete cfg op) := by
  have h := w.enqueue_untouched cfg (e := .quicSendComplete op) rfl
  unfold onSendComplete
  split
  next w' heq => rw [heq] at h; exact h
  next w' heq => rw [heq] at h; exact ⟨h.relay, h.calls, h.precommit, h.events⟩

/-- A failed binding drops what waits in it; later all its views are queued. -/
theorem queueViews_failManagedBinding (hs : w.precommitReceives.isSome = true → w.Staged) :
    w.failManagedBinding.queueViews = w.queueViews ∨
      w.failManagedBinding.queueViews = [] ∧ w.laneViews = [] ∧
        w.precommitReceives.isSome = true := by
  cases hpre : w.precommitReceives with
  | none =>
    refine .inl ?_
    simp only [queueViews, failManagedBinding, hpre]
    rfl
  | some views =>
    have hstaged := hs (by rw [hpre]; rfl)
    refine .inr ⟨?_, hstaged.lane, rfl⟩
    have hevents := hstaged.events
    simp only [queueViews, failManagedBinding, getD_none, nil_append]
    exact hevents

theorem stepped_onTerminalEvent (hs : w.Sound) (e : TerminalEvent) :
    Stepped cfg strict a w (w.onTerminalEvent cfg e) := by
  unfold onTerminalEvent
  split
  · exact .moved .refl rfl rfl
  · cases e with
    | terminalHandoff =>
      have h :=
        enqueueTerminal_untouched cfg { w with relay := w.relay.sealBinding } .terminalHandoff
      exact .shutOff (.refl _) h.relay h.hand (.inl h.queue)
    | quicShutdownComplete =>
      have h := enqueueTerminal_untouched cfg w.failManagedBinding .quicShutdownComplete
      refine .shutOff w.relay.keeps_setRelayStop h.relay h.hand ?_
      rw [h.queue]
      exact queueViews_failManagedBinding hs.staged

/-! #### The stream callback -/

theorem flatten_filter_ne_nil (pieces : List Bytes) :
    (pieces.filter (· ≠ [])).flatten = pieces.flatten := by
  induction pieces with
  | nil => rfl
  | cons piece rest ih =>
    by_cases h : piece = []
    · rw [filter_cons_of_neg (by simpa using h), ih, h, flatten_cons, nil_append]
    · rw [filter_cons_of_pos (by simpa using h), flatten_cons, flatten_cons, ih]

/-- A new view holds the bytes of its event and nothing of it is consumed. -/
theorem buildPendingQuicReceive_spec {e : ReceiveEvent}
    (h : e.buildPendingQuicReceive = some view) :
    view.slices.flatten = e.buffers.flatten ∧ view.fin = e.fin ∧ view.Fits ∧
      view.credit = e.buffers.flatten.length ∧ view.Fresh := by
  have hflat := flatten_filter_ne_nil e.buffers
  simp only [ReceiveEvent.buildPendingQuicReceive, ite_none_left_eq_some, some.injEq] at h
  obtain ⟨-, rfl⟩ := h
  refine ⟨hflat, rfl, Nat.zero_add _, ?_, rfl, rfl⟩
  simp only [ReceiveView.credit, ReceiveView.remaining, hflat, Nat.sub_zero, Nat.add_zero]

/-- Where the callback has put a view. -/
structure Placed (cfg : Config) (w w' : Worker) (view : ReceiveView) : Prop where
  relay : KeepsFlows w.relay w'.relay
  calls : w'.calls = w.calls
  place : ((w.eventQueue.length < cfg.eventQueueCapacity ∨ w.laneViews = []) ∧
    w'.queueViews = w.queueViews ++ [view] ∧
      w'.laneViews = w.laneViews) ∨
    (w'.queueViews = w.queueViews ∧ w'.laneViews = w.laneViews ++ [view])

/-- The callback puts a view into the queue if there is room, else into the lane. -/
theorem placed_queueDeferredQuicReceive (w : Worker) (view : ReceiveView) :
    Placed cfg w (w.queueDeferredQuicReceive cfg view) view := by
  by_cases hroom : w.eventQueue.length < cfg.eventQueueCapacity
  · have heq : w.queueDeferredQuicReceive cfg view
        = { w with eventQueue := w.eventQueue ++ [.quicReceiveView view] } := by
      simp only [queueDeferredQuicReceive, enqueue, hroom, ↓reduceIte]
    rw [heq]
    refine ⟨.refl _, rfl, .inl ⟨.inl hroom, ?_, rfl⟩⟩
    simp [queueViews, eventViews, QueueEvent.views]
  · have hpause : KeepsCore (w.relay.pushCallbackPending view)
        (w.relay.pushCallbackPending view).pauseQuicReceiveFromCallback := by
      unfold pauseQuicReceiveFromCallback
      split
      · exact .refl _
      · exact (keeps_setQuicReceiveEnabled _ false).after_update rfl rfl rfl rfl
    have hpush : KeepsFlows w.relay (w.relay.pushCallbackPending view) := .of_eq rfl rfl rfl rfl
    have heq : w.queueDeferredQuicReceive cfg view
        = { w with relay := (w.relay.pushCallbackPending view).pauseQuicReceiveFromCallback } := by
      simp only [queueDeferredQuicReceive, enqueue, hroom, ↓reduceIte]
    rw [heq]
    refine ⟨hpush.trans hpause.flows, rfl, .inr ⟨rfl, ?_⟩⟩
    exact congrArg (fun c : UploadSide × DownloadSide × CallbackSide =>
      c.2.2.callbackPendingQuicReceives) hpause.kept

/-- Before the activation a view waits in the binding, where nothing overtakes it. -/
theorem placed_queueQuicReceiveView (hs : w.precommitReceives.isSome = true → w.Staged)
    (h : w.queueQuicReceiveView cfg view = some w') :
    Placed cfg w w' view := by
  unfold queueQuicReceiveView at h
  split at h
  next => exact some.inj h ▸ w.placed_queueDeferredQuicReceive cfg view
  next views hpre =>
    have hstaged := hs (by rw [hpre]; rfl)
    simp only [queuePrecommitQuicReceive, ite_none_left_eq_some, some.injEq] at h
    obtain ⟨-, rfl⟩ := h
    refine ⟨.refl _, rfl, .inl ⟨.inr hstaged.lane, ?_, rfl⟩⟩
    have hevents := hstaged.events
    simp only [queueViews, hpre, getD_some, hevents, append_nil]
    rw [show eventViews { w with precommitReceives := some (views ++ [view]) } = []
      from hevents, append_nil]

/-- A placed view of an event that was answered with pending or, if it has no
bytes, with success. -/
theorem Placed.stepped {q : Worker} {io : Io}
    (h : Placed cfg { w with relay := (w.relay.emit (.receiveIndicated bytes fin)).answering io }
      q view) (ha : a.isReceive = true) (hon : w.relay.callbackSide.shutOff = false)
    (hbytes : view.slices.flatten = bytes) (hfin : view.fin = fin) (hfits : view.Fits)
    (hcredit : view.credit = bytes.length) (hfresh : view.Fresh)
    (hw : w' = q ∨ w' = { q with relay := q.relay.emit (.receiveConsumed 0) }) :
    Stepped cfg strict a w w' := by
  have hkeeps : KeepsFlows (w.relay.emit (.receiveIndicated bytes fin)) q.relay :=
    (keeps_answering _ io).flows.trans h.relay
  have hsame : w'.calls = q.calls ∧ w'.queueViews = q.queueViews ∧ w'.laneViews = q.laneViews := by
    rcases hw with rfl | rfl
    · exact ⟨rfl, rfl, rfl⟩
    · exact ⟨rfl, rfl, rfl⟩
  have hacc : Accepted w w' bytes fin view := by
    refine ⟨hon, ⟨hbytes, hfin⟩, hfits, hcredit, hfresh, ⟨q.relay, hkeeps, ?_⟩,
      handViews_of_calls (hsame.1.trans h.calls)⟩
    rcases hw with rfl | rfl
    · exact .inl rfl
    · exact .inr rfl
  rcases h.place with ⟨hroom, hqueue, hlane⟩ | ⟨hqueue, hlane⟩
  · exact .received hacc ⟨ha, hroom⟩ (hsame.2.1.trans hqueue) (hsame.2.2.trans hlane)
  · exact .receivedLane hacc ha (hsame.2.1.trans hqueue) (hsame.2.2.trans hlane)

/-- **Every RECEIVE event is taken over, ignored by a sealed binding or refused.** -/
theorem stepped_indicateReceive (hs : w.Sound) (ha : a.isReceive = true) {e : ReceiveEvent}
    (hlen : e.totalBufferLength = e.buffers.flatten.length) (io : Io) :
    Stepped cfg strict a w (w.indicateReceive cfg e io) := by
  simp only [indicateReceive, onReceive]
  split
  next hoff => exact .ignored hoff (by rw [hlen]; rfl) rfl rfl
  next hon =>
    split
    next hnone =>
      have h := enqueueTerminal_untouched cfg
        { w with relay := (w.relay.emit (.receiveIndicated e.buffers.flatten e.fin)).sealBinding }
        .terminalHandoff
      exact .refused h.relay h.hand h.queue
    next q hq =>
      obtain ⟨view, hview, hq⟩ := bind_eq_some_iff.mp hq
      have hbuild : e.buildPendingQuicReceive = some view := by
        split at hview
        · exact hview
        · cases hview
      obtain ⟨hbytes, hfin, hfits, hcredit, hfresh⟩ := buildPendingQuicReceive_spec hbuild
      have hstaged (h : w.precommitReceives.isSome = true) :
          Staged { w with
            relay := (w.relay.emit (.receiveIndicated e.buffers.flatten e.fin)).answering io } :=
        ⟨(hs.staged h).calls, (hs.staged h).events, (hs.staged h).lane⟩
      have hplaced := placed_queueQuicReceiveView cfg hstaged hq
      refine hplaced.stepped cfg ha (by simpa [callbackSide, Relay.emit] using hon)
        hbytes hfin hfits hcredit hfresh ?_
      by_cases hempty : e.finOnly = true
      · have hzero : e.totalBufferLength = 0 := by
          simp only [ReceiveEvent.finOnly, Bool.and_eq_true, decide_eq_true_eq] at hempty
          exact hempty.2
        simp [hempty, hzero]
      · simp [hempty]

/-! #### The worker thread -/

theorem flatMap_views_map {α : Type} (f : α → Call) (hf : ∀ a, (f a).views = []) (l : List α) :
    (l.map f).flatMap Call.views = [] := by
  simp [flatMap_map, hf]

/-- Only the registration itself runs before the activation. -/
theorem Sound.activated (hs : w.Sound) (hcalls : w.calls = c :: rest) (hcommit : c ≠ .commitRelay)
    (hactivate : c ≠ .activateManagedBinding) : w.precommitReceives = none := by
  by_contra hsome
  obtain ⟨rest', hhead | hhead⟩ := (hs.staged (isSome_iff_ne_none.mpr hsome)).calls
  · rw [hcalls] at hhead
    exact hactivate (cons.inj hhead).1
  · rw [hcalls] at hhead
    exact hcommit (cons.inj hhead).1

/-- A call without views that works on the relay. -/
theorem Stepped.of_call (hcalls : w.calls = c :: rest) (hviews : c.views = []) (new : List Call)
    (hnew : new.flatMap Call.views = []) (hrelay : Moves KeepsDownload strict w.relay w'.relay)
    (hcalls' : w'.calls = new ++ rest) (hqueue : w'.queueViews = w.queueViews) :
    Stepped cfg strict a w w' := by
  refine .moved hrelay ?_ hqueue
  simp only [handViews, hcalls, hcalls', flatMap_append, hnew, flatMap_cons, hviews, nil_append]

theorem stepped_commitRelay (hs : w.Sound) (io : Io) (hcalls : w.calls = .commitRelay :: rest) :
    Stepped cfg strict a w
      ({ w with relay := w.relay.answering io, calls := rest }.execute cfg .commitRelay) := by
  have hhand : rest.flatMap Call.views = w.handViews := by simp [handViews, hcalls, Call.views]
  have hfailed : w.failManagedBinding.queueViews = w.queueViews ∨
      w.failManagedBinding.queueViews = [] :=
    (queueViews_failManagedBinding hs.staged).imp id And.left
  simp only [execute, commitRelay]
  split
  · refine .erased ?_ hhand hfailed
    exact (shuts_erase _).after [.stop] rfl (by simp [Effect.kind]) rfl
  · split
    · refine .erased ?_ hhand hfailed
      have hhandoff :=
        shuts_beginTerminalHandoff cfg (w.relay.answering io).setRelayStop.sealBinding false
      exact (hhandoff.trans (shuts_erase _)).after [.stop] rfl (by simp [Effect.kind]) rfl
    · exact .of_call cfg hcalls rfl [] rfl (.of_quiet (w.relay.keeps_answering io).download) rfl rfl

theorem stepped_activateManagedBinding (io : Io)
    (hcalls : w.calls = .activateManagedBinding :: rest) :
    Stepped cfg strict a w
      ({ w with relay := w.relay.answering io, calls := rest }.execute cfg
        .activateManagedBinding) := by
  have hio : KeepsDownload w.relay (w.relay.answering io) := (w.relay.keeps_answering io).download
  simp only [execute, activateManagedBinding]
  split
  · exact .of_call cfg hcalls rfl [] rfl (.of_quiet hio) rfl rfl
  next views hpre =>
    refine .loaded views ⟨_, rest, hcalls, rfl⟩ hio ?_ ?_
    · simp [handViews, hcalls, Call.views, flatMap_map]
    · have hpre' : w.precommitReceives = some views := hpre
      simp only [queueViews, hpre', getD_some, getD_none, nil_append]
      rfl

theorem stepped_popEvents (hs : w.Sound) {processed : Nat} (io : Io)
    (hcalls : w.calls = .popEvents processed :: rest) :
    Stepped cfg strict a w
      ({ w with relay := w.relay.answering io, calls := rest }.execute cfg
        (.popEvents processed)) := by
  have hio : KeepsDownload w.relay (w.relay.answering io) := (w.relay.keeps_answering io).download
  have hpre : w.precommitReceives = none := hs.activated hcalls (by simp) (by simp)
  simp only [execute]
  split
  · exact .of_call cfg hcalls rfl [] rfl (.of_quiet hio) rfl rfl
  next e events hevents =>
    split
    · exact .of_call cfg hcalls rfl [] rfl (.of_quiet hio) rfl rfl
    · have hevents' : w.eventQueue = e :: events := hevents
      refine .loaded e.views ⟨_, rest, hcalls, rfl⟩ hio ?_ ?_
      · simp [handViews, hcalls, QueueEvent.calls_views, Call.views]
      · simp only [queueViews, eventViews, hpre, hevents', flatMap_cons, getD_none, nil_append]

theorem stepped_processQuicReceiveView (io : Io)
    (hcalls : w.calls = .processQuicReceiveView view :: rest) :
    Stepped cfg strict a w
      ({ w with relay := w.relay.answering io, calls := rest }.execute cfg
        (.processQuicReceiveView view)) := by
  have hhand : w.handViews = view :: rest.flatMap Call.views := by
    simp [handViews, hcalls, Call.views]
  simp only [execute]
  cases hc : w.relay.closing with
  | false =>
    have happend : KeepsDownload (w.relay.queueQuicReceive view)
        ((w.relay.answering io).appendQuicReceive cfg view) := by
      have hopen : (w.relay.answering io).closing = false := hc
      simp only [appendQuicReceive, hopen, Bool.false_eq_true, ↓reduceIte]
      exact (keeps_maybePauseQuicReceive cfg _).download.after_update rfl rfl rfl rfl
    refine .appended hc happend ?_ rfl
    rw [hhand]
    simp [handViews, hc, Call.views]
  | true =>
    obtain ⟨io', es, heq, hes, hle⟩ :=
      (w.relay.answering io).completeAndDiscardQuicReceive_eq cfg view
    refine .discarded hc hes hle ?_ ?_ rfl
    · have hclosed : (w.relay.answering io).closing = true := hc
      rw [appendQuicReceive, if_pos hclosed, heq]
      exact .of_eq rfl rfl rfl rfl
    · rw [hhand]
      simp [handViews, hc]

theorem stepped_drainCallbackPendingQuicReceives (ha : a.isCall = true) (io : Io)
    (hcalls : w.calls = .drainCallbackPendingQuicReceives :: rest) :
    Stepped cfg strict a w
      ({ w with relay := w.relay.answering io, calls := rest }.execute cfg
        .drainCallbackPendingQuicReceives) := by
  have hio : KeepsDownload w.relay (w.relay.answering io) := (w.relay.keeps_answering io).download
  simp only [execute]
  split
  · exact .of_call cfg hcalls rfl [] rfl (.of_quiet hio) rfl rfl
  next hc =>
    refine .laneLoaded ⟨ha, rest, hcalls⟩ (by simpa [Relay.answering] using hc)
      (.of_eq rfl rfl rfl rfl) ?_ rfl
    simp [handViews, hcalls, Call.views, laneViews, flatMap_map]

/-- A flush in a strict step finds no FIN behind a pending write. -/
def flushesUnblocked (w : Worker) : Prop :=
  ∀ rest, w.calls = .flushDeferredQuicReceives :: rest → w.relay.closing = false →
    w.relay.FinUnblocked

theorem stepped_call (ha : a.isCall = true) (hs : w.Sound) (hstrict : strict → w.flushesUnblocked)
    (hcalls : w.calls = c :: rest) (io : Io) :
    Stepped cfg strict a w
      ({ w with relay := w.relay.answering io, calls := rest }.execute cfg c) := by
  have hio : Moves KeepsDownload strict w.relay (w.relay.answering io) :=
    .of_quiet (w.relay.keeps_answering io).download
  have hsound : (w.relay.answering io).Sound := hs.relay.moves hio
  cases c with
  | commitRelay => exact stepped_commitRelay cfg hs io hcalls
  | activateManagedBinding => exact stepped_activateManagedBinding cfg io hcalls
  | popEvents processed => exact stepped_popEvents cfg hs io hcalls
  | processQuicReceiveView view => exact stepped_processQuicReceiveView cfg io hcalls
  | drainCallbackPendingQuicReceives =>
    exact stepped_drainCallbackPendingQuicReceives cfg ha io hcalls
  | drainQuicSendCompletionFallbacks =>
    exact .of_call cfg hcalls rfl _
      (flatMap_views_map .completeQuicSend (fun _ => rfl) _) hio rfl rfl
  | drainQuicTerminalFallbacks =>
    exact .of_call cfg hcalls rfl _
      (flatMap_views_map TerminalEvent.call (fun e => by cases e <;> rfl) _) hio rfl rfl
  | completeQuicSend op =>
    refine .of_call cfg hcalls rfl
      (if (w.relay.answering io).closing then
        [] else [.flushDeferredQuicReceives, .resumeAfterQuicSend]) ?_
      (hio.trans (Moves.of_quiet (keeps_accountQuicSend _ op).download)) ?_ rfl
    · split <;> rfl
    · simp only [execute]
      split <;> rfl
  | resumeAfterQuicSend =>
    exact .of_call cfg hcalls rfl [] rfl
      ((hio.trans (Moves.of_quiet (keeps_resumeTcpRead _).download)).trans
        (moves_maybeStopFullyClosedRelay cfg _).download) rfl rfl
  | handleQuicIdealSendBuffer byteCount =>
    exact .of_call cfg hcalls rfl [] rfl
      (hio.trans (Moves.of_quiet (keeps_handleQuicIdealSendBuffer _ byteCount).download)) rfl rfl
  | processTerminalHandoffRequest =>
    simp only [execute]
    split
    · exact .of_call cfg hcalls rfl [] rfl
        (hio.trans (Moves.of_shuts (shuts_beginTerminalHandoff cfg _ false))) rfl rfl
    · exact .of_call cfg hcalls rfl [] rfl hio rfl rfl
  | abortRelayAndRelease =>
    exact .of_call cfg hcalls rfl [] rfl
      (hio.trans (Moves.of_shuts (shuts_beginTerminalHandoff cfg _ false))) rfl rfl
  | processQuicShutdownComplete =>
    exact .of_call cfg hcalls rfl [] rfl
      (hio.trans (moves_processQuicShutdownComplete cfg _).download) rfl rfl
  | unregisterRelay =>
    exact .of_call cfg hcalls rfl [] rfl
      (hio.trans (Moves.of_shuts (shuts_unregisterRelayLocal cfg _))) rfl rfl
  | flushTcpWrites =>
    exact .of_call cfg hcalls rfl [] rfl
      (hio.trans (writesOnly_flushTcpWrites cfg hsound).moves.download) rfl rfl
  | flushDeferredQuicReceives =>
    have hunblocked : strict → (w.relay.answering io).closing = false →
        (w.relay.answering io).FinUnblocked :=
      fun h => hstrict h rest hcalls
    exact .of_call cfg hcalls rfl [] rfl
      (hio.trans (moves_flushDeferredQuicReceives cfg hsound hunblocked).download) rfl rfl
  | drainTcpReadable =>
    have hdrain := (w.relay.answering io).keeps_drainTcpReadable
    refine .of_call cfg hcalls rfl
      (if (w.relay.answering io).drainTcpReadable.1 then [.drainTcpReadableTurn 0] else [])
      ?_ (hio.trans (Moves.of_quiet hdrain.download)) ?_ rfl
    · split <;> rfl
    · simp only [execute]
      split <;> rfl
  | drainTcpReadableTurn readBytes =>
    refine .of_call cfg hcalls rfl
      (((w.relay.answering io).drainTcpReadableTurn cfg
        readBytes).2.map Call.drainTcpReadableTurn).toList ?_
      (hio.trans (moves_drainTcpReadableTurn cfg _ readBytes)) rfl rfl
    cases ((w.relay.answering io).drainTcpReadableTurn cfg readBytes).2 <;> rfl
  | retryPendingQuicSends =>
    exact .of_call cfg hcalls rfl [] rfl (hio.trans (moves_retryPendingQuicSends _)) rfl rfl
  | maybeResumeQuicReceive =>
    exact .of_call cfg hcalls rfl [] rfl
      (hio.trans (Moves.of_quiet (keeps_maybeResumeQuicReceive cfg _).download)) rfl rfl

/-- The calls that an epoll event can lead to. -/
theorem mem_processTcpEvents {e : EpollEvent} {d : Call} (h : d ∈ w.processTcpEvents e) :
    (d = .abortRelayAndRelease ∧ (e.error && e.socketError) = true) ∨ d ∈ writableCalls ∨
      d = .drainTcpReadable := by
  unfold processTcpEvents at h
  split_ifs at h with _ _ herror hwrite hread hread
  · cases h
  · cases h
  · exact .inl ⟨mem_singleton.mp h, herror⟩
  · exact .inr ((mem_append.mp h).imp id mem_singleton.mp)
  · exact .inr (.inl (by simpa using h))
  · exact .inr (.inr (by simpa using h))
  · cases h

/-- A call of the worker executes the head of its call list. -/
theorem step_call {io : Io} (h : w.step cfg (.call io) = some w') :
    ∃ c rest, w.calls = c :: rest ∧
      w' = { w with relay := w.relay.answering io, calls := rest }.execute cfg c := by
  cases hcalls : w.calls with
  | nil => simp only [step, hcalls, reduceCtorEq] at h
  | cons c rest =>
    simp only [step, hcalls, some.injEq] at h
    exact ⟨c, rest, rfl, h.symm⟩

theorem processTcpEvents_views (w : Worker) (e : EpollEvent) :
    (w.processTcpEvents e).flatMap Call.views = [] := by
  unfold processTcpEvents
  split_ifs <;> rfl

/-- A call adds calls in front of the remaining ones, the event loop itself once more, or the
next turn of the read loop. -/
theorem execute_calls (w : Worker) (c : Call) :
    (∃ front, (∀ c' ∈ front, c'.serves = true) ∧ ((w.execute cfg c).calls = front ++ w.calls ∨
      c.loads = true ∧ ∃ n, (w.execute cfg c).calls = front ++ .popEvents n :: w.calls)) ∨
    c.reads = true ∧ ∃ n, (w.execute cfg c).calls = .drainTcpReadableTurn n :: w.calls := by
  have hsame (h : (w.execute cfg c).calls = w.calls) :
      ∃ front, (∀ c' ∈ front, c'.serves = true) ∧ ((w.execute cfg c).calls = front ++ w.calls ∨
        c.loads = true ∧ ∃ n, (w.execute cfg c).calls = front ++ .popEvents n :: w.calls) := ⟨[], by
          simp, .inl h⟩
  cases c with
  | commitRelay =>
    refine .inl (hsame ?_)
    simp only [execute, commitRelay]
    split_ifs <;> rfl
  | activateManagedBinding =>
    simp only [execute, activateManagedBinding]
    split
    · exact .inl ⟨[], by simp, .inl rfl⟩
    next views _ => exact .inl ⟨views.map .processQuicReceiveView, by simp, .inl rfl⟩
  | drainQuicSendCompletionFallbacks =>
    exact .inl ⟨w.sendCompletionFallback.map .completeQuicSend, by simp, .inl rfl⟩
  | drainQuicTerminalFallbacks =>
    refine .inl ⟨w.terminalFallback.map TerminalEvent.call, ?_, .inl rfl⟩
    simp only [List.mem_map, forall_exists_index, and_imp, forall_apply_eq_imp_iff₂]
    intro event _
    cases event <;> rfl
  | popEvents processed =>
    simp only [execute]
    split
    · exact .inl ⟨[], by simp, .inl rfl⟩
    next e rest hevents =>
      split
      · exact .inl ⟨[], by simp, .inl rfl⟩
      · exact .inl ⟨e.calls, e.calls_serve, .inr ⟨rfl, _, rfl⟩⟩
  | processQuicReceiveView view =>
    cases hc : w.relay.closing
    · exact .inl ⟨[.flushDeferredQuicReceives], by simp, .inl (by simp [execute, hc])⟩
    · exact .inl (hsame (by simp [execute, hc]))
  | completeQuicSend op =>
    cases hc : w.relay.closing
    · exact .inl
        ⟨[.flushDeferredQuicReceives, .resumeAfterQuicSend], by simp, .inl (by simp [execute, hc])⟩
    · exact .inl (hsame (by simp [execute, hc]))
  | processTerminalHandoffRequest =>
    refine .inl (hsame ?_)
    simp only [execute]
    split <;> rfl
  | drainTcpReadable =>
    cases hc : w.relay.drainTcpReadable.1
    · exact .inl (hsame (by simp [execute, hc]))
    · exact .inr ⟨rfl, 0, by simp [execute, hc]⟩
  | drainTcpReadableTurn readBytes =>
    cases hnext : (w.relay.drainTcpReadableTurn cfg readBytes).2 with
    | none => exact .inl (hsame (by simp [execute, hnext]))
    | some n => exact .inr ⟨rfl, n, by simp [execute, hnext]⟩
  | drainCallbackPendingQuicReceives =>
    simp only [execute]
    split
    · exact .inl ⟨[], by simp, .inl rfl⟩
    · refine .inl ⟨w.relay.callbackPendingQuicReceives.map .processQuicReceiveView ++
        [.maybeResumeQuicReceive], ?_, .inl ?_⟩
      · simp [or_imp, forall_and]
      · simp
  | _ => exact .inl (hsame rfl)

/-- **What a step of the machine does**, for every action of every thread. -/
theorem stepped_step (hs : w.Sound) (hstrict : strict → ∀ io, a = .call io → w.flushesUnblocked)
    (h : w.step cfg a = some w') : Stepped cfg strict a w w' := by
  cases a with
  | receive buffers fin io =>
    cases h
    exact stepped_indicateReceive cfg hs rfl rfl io
  | sendComplete index =>
    simp only [step, map_eq_some_iff] at h
    obtain ⟨op, -, rfl⟩ := h
    have hkept := onSendComplete_untouched cfg
      { w with relay := { w.relay with inFlight := w.relay.inFlight.eraseIdx index } } op
    exact .moved (.of_quiet (by rw [hkept.relay]; exact .of_eq rfl rfl rfl rfl))
      hkept.hand hkept.queue
  | idealSendBufferSize byteCount =>
    cases h
    split
    · exact .moved .refl rfl rfl
    · exact (w.enqueue_untouched cfg rfl).stepped cfg
  | terminalEvent | shutdownComplete =>
    cases h
    exact stepped_onTerminalEvent cfg hs _
  | enqueue event =>
    have hkept {e : QueueEvent} (he : e.views = []) (h : some (w.enqueue cfg e).2 = some w') :
        Stepped cfg strict (.enqueue event) w w' := by
      cases h
      exact (w.enqueue_untouched cfg he).stepped cfg
    cases event with
    | foreign | unregisterRelay | tcpWritable => exact hkept rfl h
    | _ => cases h
  | drainEvents =>
    obtain ⟨hcalls, rfl⟩ := Machine.guarded_iff.mp h
    exact .moved .refl (by simp only [handViews, hcalls]; rfl) rfl
  | epoll e =>
    obtain ⟨hcalls, rfl⟩ := Machine.guarded_iff.mp h
    exact .moved .refl (by simp only [handViews, hcalls, processTcpEvents_views, flatMap_nil]) rfl
  | call io =>
    obtain ⟨c, rest, hcalls, rfl⟩ := step_call cfg h
    exact stepped_call cfg rfl hs (fun h' => hstrict h' io rfl) hcalls io

/-! ### The registration -/

theorem Untouched.staged (h : Untouched w w') (hs : w.precommitReceives.isSome = true → w.Staged) :
    w'.precommitReceives.isSome = true → w'.Staged := by
  intro hsome
  obtain ⟨hcalls, hevents, hlane⟩ := hs (h.precommit ▸ hsome)
  exact ⟨h.calls ▸ hcalls, h.events.trans hevents, by rw [laneViews, h.relay]; exact hlane⟩

theorem staged_indicateReceive (hs : w.precommitReceives.isSome = true → w.Staged)
    (e : ReceiveEvent) (io : Io) :
    (w.indicateReceive cfg e io).precommitReceives.isSome = true →
      (w.indicateReceive cfg e io).Staged := by
  have hsame {w' : Worker}
      (hpre : w'.precommitReceives.isSome = true → w.precommitReceives.isSome = true)
      (hcalls : w'.calls = w.calls) (hevents : w'.eventQueue = w.eventQueue)
      (hlane : w'.laneViews = w.laneViews) :
      w'.precommitReceives.isSome = true → w'.Staged := by
    intro hsome
    obtain ⟨hcalls', hevents', hlane'⟩ := hs (hpre hsome)
    exact ⟨hcalls ▸ hcalls', by rw [eventViews, hevents]; exact hevents', hlane.trans hlane'⟩
  simp only [indicateReceive, onReceive]
  split
  next => exact hsame id rfl rfl rfl
  next =>
    split
    next =>
      refine (enqueueTerminal_untouched cfg _ _).staged ?_
      exact hsame id rfl rfl rfl
    next q hq =>
      obtain ⟨view, -, hq⟩ := bind_eq_some_iff.mp hq
      unfold queueQuicReceiveView at hq
      split at hq
      next hnone =>
        have hpre : w.precommitReceives = none := hnone
        have hq' : q.precommitReceives = none := by
          rw [← some.inj hq]
          unfold queueDeferredQuicReceive enqueue
          split_ifs <;> exact hpre
        split_ifs <;> simp [hq']
      next views hsome =>
        have hpre : w.precommitReceives = some views := hsome
        simp only [queuePrecommitQuicReceive, ite_none_left_eq_some, some.injEq] at hq
        obtain ⟨-, rfl⟩ := hq
        split_ifs <;> exact hsame (fun _ => by rw [hpre]; rfl) rfl rfl rfl

theorem execute_precommitReceives (w : Worker) (c : Call) (hcommit : c ≠ .commitRelay)
    (hactivate : c ≠ .activateManagedBinding) :
    (w.execute cfg c).precommitReceives = w.precommitReceives := by
  cases c with
  | commitRelay => exact absurd rfl hcommit
  | activateManagedBinding => exact absurd rfl hactivate
  | popEvents processed =>
    simp only [execute]
    split
    · rfl
    · split <;> rfl
  | processTerminalHandoffRequest | drainCallbackPendingQuicReceives =>
    simp only [execute]
    split <;> rfl
  | _ => rfl

theorem staged_step (hs : w.Sound) (h : w.step cfg a = some w') :
    w'.precommitReceives.isSome = true → w'.Staged := by
  cases a with
  | receive buffers fin io =>
    cases h
    exact staged_indicateReceive cfg hs.staged _ io
  | sendComplete index =>
    simp only [step, map_eq_some_iff] at h
    obtain ⟨op, -, rfl⟩ := h
    refine (onSendComplete_untouched cfg _ op).staged fun hsome => ?_
    exact ⟨(hs.staged hsome).calls, (hs.staged hsome).events, (hs.staged hsome).lane⟩
  | idealSendBufferSize byteCount =>
    cases h
    split
    · exact hs.staged
    · exact (w.enqueue_untouched cfg rfl).staged hs.staged
  | terminalEvent =>
    cases h
    unfold onTerminalEvent
    split
    · exact hs.staged
    · refine (enqueueTerminal_untouched cfg _ _).staged fun hsome => ?_
      exact ⟨(hs.staged hsome).calls, (hs.staged hsome).events, (hs.staged hsome).lane⟩
  | shutdownComplete =>
    cases h
    unfold onTerminalEvent
    split
    · exact hs.staged
    · exact (enqueueTerminal_untouched cfg _ _).staged fun hsome => by cases hsome
  | enqueue event =>
    have hkept {e : QueueEvent} (he : e.views = []) (h : some (w.enqueue cfg e).2 = some w') :
        w'.precommitReceives.isSome = true → w'.Staged := by
      cases h
      exact (w.enqueue_untouched cfg he).staged hs.staged
    cases event with
    | foreign | unregisterRelay | tcpWritable => exact hkept rfl h
    | _ => cases h
  | drainEvents | epoll e =>
    obtain ⟨hcalls, rfl⟩ := Machine.guarded_iff.mp h
    intro hsome
    obtain ⟨rest, hhead⟩ := (hs.staged hsome).calls
    simp [hcalls] at hhead
  | call io =>
    obtain ⟨c, rest, hcalls, rfl⟩ := step_call cfg h
    by_cases hcommit : c = .commitRelay
    · subst hcommit
      simp only [execute, commitRelay]
      split
      · intro hsome
        cases hsome
      · split
        · intro hsome
          cases hsome
        · intro hsome
          obtain ⟨⟨rest', hhead | hhead⟩, hevents, hlane⟩ := hs.staged hsome
          · rw [hcalls] at hhead
            cases (cons.inj hhead).1
          · rw [hcalls] at hhead
            exact ⟨⟨rest', .inl (cons.inj hhead).2⟩, hevents, hlane⟩
    · by_cases hactivate : c = .activateManagedBinding
      · subst hactivate
        simp only [execute, activateManagedBinding]
        split
        next hnone =>
          intro hsome
          rw [hnone] at hsome
          cases hsome
        next => intro hsome; cases hsome
      · rw [execute_precommitReceives cfg _ c hcommit hactivate]
        intro hsome
        have hnone := hs.activated hcalls hcommit hactivate
        rw [show w.precommitReceives = none from hnone] at hsome
        cases hsome

/-! ### The views of every run are whole -/

theorem Accepted.sound (h : Accepted w w' bytes fin view) (hs : w.relay.Sound) :
    w'.relay.Sound := by
  obtain ⟨m, hflows, hm⟩ := h.relay
  have hmsound : m.Sound := by
    have hqueue : m.pendingQuicReceives = w.relay.pendingQuicReceives :=
      congrArg (fun c : UploadSide × DownloadSide × Bool => c.2.1.pendingQuicReceives) hflows.kept
    exact hs.shrink (by rw [hqueue]; exact fun _ => id) hflows.closing hflows.tcpFdOpen
  rcases hm with hm | hm
  · rw [hm]
    exact hmsound
  · rw [hm]
    exact hmsound.shrink (fun _ => id) rfl rfl

theorem laneViews_of_callbackSide (h : w'.relay.callbackSide = w.relay.callbackSide) :
    w'.laneViews = w.laneViews :=
  congrArg CallbackSide.callbackPendingQuicReceives h

/-- A property of new views holds of all views on their way. -/
theorem Carries.stepped {P : ReceiveView → Prop} (h : Carries P w) (hs : Stepped cfg strict a w w')
    (hnew : ∀ bytes fin view, Accepted w w' bytes fin view → P view) : Carries P w' := by
  have hhead {view : ReceiveView} {l l' : List ReceiveView} (hl : ∀ v ∈ l, P v)
      (heq : l = view :: l') : ∀ v ∈ l', P v := by
    rw [heq] at hl
    exact (forall_mem_cons.mp hl).2
  have hfewer (hqueue : w'.queueViews = w.queueViews ∨ w'.queueViews = []) :
      ∀ v ∈ w'.queueViews, P v := by
    rcases hqueue with hqueue | hqueue
    · rw [hqueue]
      exact h.queue
    · simp [hqueue]
  cases hs with
  | moved hrelay hhand hqueue =>
    refine ⟨by rw [hhand]; exact h.hand, hfewer (.inl hqueue), fun hc => ?_⟩
    obtain ⟨hopen, -, hside⟩ := hrelay.kept hc
    rw [laneViews_of_callbackSide hside]
    exact h.lane hopen
  | loaded _ _ hrelay hhand hqueue =>
    have hall := h.queue
    rw [hqueue] at hall
    obtain ⟨hbatch, hrest⟩ := forall_mem_append.mp hall
    refine ⟨?_, hrest, fun hc => ?_⟩
    · rw [hhand]
      exact forall_mem_append.mpr ⟨hbatch, h.hand⟩
    · rw [laneViews_of_callbackSide (congrArg Prod.snd hrelay.kept)]
      exact h.lane (hrelay.closing ▸ hc)
  | laneLoaded _ hopen hrelay hhand hqueue =>
    have hempty : w'.laneViews = [] :=
      congrArg (fun c : DownloadSide × CallbackSide => c.2.callbackPendingQuicReceives) hrelay.kept
    refine ⟨?_, hfewer (.inl hqueue), by simp [hempty]⟩
    rw [hhand]
    exact forall_mem_append.mpr ⟨h.lane hopen, h.hand⟩
  | appended hopen hrelay hhand hqueue =>
    refine ⟨hhead h.hand hhand, hfewer (.inl hqueue), fun _ => ?_⟩
    rw [show w'.laneViews = w.laneViews from congrArg
      (fun c : DownloadSide × CallbackSide => c.2.callbackPendingQuicReceives) hrelay.kept]
    exact h.lane hopen
  | discarded hclosed hes hle hrelay hhand hqueue =>
    refine ⟨hhead h.hand hhand, hfewer (.inl hqueue), fun hc => ?_⟩
    rw [hrelay.closing.trans hclosed] at hc
    cases hc
  | received hacc hroom hqueue hlane =>
    refine ⟨by rw [hacc.hand]; exact h.hand, ?_, fun _ => ?_⟩
    · rw [hqueue]
      exact forall_mem_append.mpr ⟨h.queue, by simpa using hnew _ _ _ hacc⟩
    · rw [hlane]
      exact h.lane hacc.open
  | receivedLane hacc _ hqueue hlane =>
    refine ⟨by rw [hacc.hand]; exact h.hand, hfewer (.inl hqueue), fun _ => ?_⟩
    rw [hlane]
    exact forall_mem_append.mpr ⟨h.lane hacc.open, by simpa using hnew _ _ _ hacc⟩
  | ignored hoff hrelay hhand hqueue | refused hrelay hhand hqueue =>
    refine ⟨by rw [hhand]; exact h.hand, hfewer (.inl hqueue), ?_⟩
    rw [laneViews, hrelay]
    exact h.lane
  | shutOff hstop hrelay hhand hqueue =>
    refine ⟨by rw [hhand]; exact h.hand, hfewer (hqueue.imp id And.left), ?_⟩
    rw [laneViews, hrelay]
    intro hc
    have hside :=
      congrArg (fun c : UploadSide × DownloadSide × CallbackSide =>
        c.2.2.callbackPendingQuicReceives) hstop.kept
    rw [show (Relay.sealBinding _).callbackPendingQuicReceives = w.laneViews from hside]
    exact h.lane (hstop.closing ▸ hc)
  | erased hrelay hhand hqueue =>
    refine ⟨by rw [hhand]; exact h.hand, hfewer hqueue, fun hc => ?_⟩
    rw [hrelay.closed] at hc
    cases hc

theorem Sound.carries (h : w.Sound) : Carries ReceiveView.Fits w := ⟨h.hand, h.queue, h.lane⟩

/-- The queue of the relay stays whole: only whole views are appended. -/
theorem Sound.relay_stepped (h : w.Sound) (hs : Stepped cfg strict a w w') : w'.relay.Sound := by
  cases hs with
  | moved hrelay _ _ => exact h.relay.moves hrelay
  | loaded _ _ hrelay _ _ => exact h.relay.keeps hrelay
  | laneLoaded _ _ hrelay _ _ =>
    have hsound : ({ w.relay with callbackPendingQuicReceives := [] } : Relay).Sound :=
      ⟨h.relay.isSealed, h.relay.fits⟩
    exact hsound.keeps hrelay
  | appended _ hrelay hhand _ =>
    have hview := h.hand
    rw [hhand] at hview
    exact (h.relay.append (forall_mem_cons.mp hview).1).keeps hrelay
  | discarded hclosed _ _ hrelay _ _ =>
    refine ⟨fun _ => hrelay.tcpFdOpen.trans (h.relay.isSealed hclosed), fun hc => ?_⟩
    rw [hrelay.closing.trans hclosed] at hc
    cases hc
  | received hacc _ _ _ | receivedLane hacc _ _ _ => exact hacc.sound h.relay
  | ignored _ hrelay _ _ | refused hrelay _ _ =>
    rw [hrelay]
    exact ⟨h.relay.isSealed, h.relay.fits⟩
  | shutOff hstop hrelay _ _ =>
    have hsound := h.relay.keeps hstop.download
    rw [hrelay]
    exact ⟨hsound.isSealed, hsound.fits⟩
  | erased hrelay _ _ =>
    refine ⟨fun _ => hrelay.released, fun hc => ?_⟩
    rw [hrelay.closed] at hc
    cases hc

theorem Sound.stepped (h : w.Sound) (hs : Stepped cfg strict a w w')
    (hstaged : w'.precommitReceives.isSome = true → w'.Staged) : w'.Sound := by
  have hcarried := h.carries.stepped cfg hs fun _ _ _ hacc => hacc.fits
  exact ⟨h.relay_stepped cfg hs, hcarried.hand, hcarried.queue, hcarried.lane, hstaged⟩

theorem sound_start (reg : Registration) (tcpInput : Bytes) : (start cfg reg tcpInput).Sound := by
  refine ⟨⟨?_, ?_⟩, ?_, ?_, ?_, fun _ => ⟨⟨_, .inr rfl⟩, rfl, rfl⟩⟩
  all_goals
    simp [start, ofRegistration, Relay.Sealed, handViews, queueViews, eventViews,
      laneViews, Call.views]

theorem sound_step (hs : w.Sound) (h : w.step cfg a = some w') : w'.Sound := by
  have hstep : Stepped cfg False a w w' := stepped_step cfg hs False.elim h
  exact hs.stepped cfg hstep (staged_step cfg hs h)

/-- The calls that finish the registration of a relay when nothing happens. -/
def registration : List Action := List.replicate 6 (.call {})

end Worker
end TcpQuicProxy.LinuxRelay
