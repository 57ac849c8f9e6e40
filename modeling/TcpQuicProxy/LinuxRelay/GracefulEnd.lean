import TcpQuicProxy.LinuxRelay.SendSide
import TcpQuicProxy.LinuxRelay.Steps

/-!
# How a relay ends when nothing goes wrong

`FaultFree` rules out every error, abort, unregister and shutdown event. What
is left ends a relay in one place, `MaybeStopFullyClosedRelay`, after both
directions have reached their end. That place hands over to the teardown it
shares with the fatal ends, and the teardown resets the socket.
-/

namespace TcpQuicProxy.LinuxRelay

open Machine List Relay

/-- The socket is open until the relay ends, the relay ends only after both
directions, and its socket is then released by one reset. -/
structure EndSide.Orderly (socket : Bool) (s : EndSide) : Prop where
  fd : s.tcpFdOpen = (socket && !s.closing)
  releases : s.releases = if socket && s.closing then [.resetSocket] else []
  finished : s.closing = true → s.Finished
  binding : s.bindingClosing = true → s.closing = true

theorem EndSide.Orderly.follows {socket : Bool} {s s' : EndSide} (h : s.Orderly socket)
    (hfollows : s.Follows False s') :
    s'.Orderly socket := by
  have hbinding : s'.bindingClosing = true → s'.closing = true := fun hb =>
    (hfollows.binding hb).elim (fun hb => hfollows.closing (h.binding hb)) id
  rcases hfollows.socket with heq | ⟨heq, hfin⟩
  · obtain ⟨hclosing, hfd, hreleases⟩ :
        s'.closing = s.closing ∧ s'.tcpFdOpen = s.tcpFdOpen ∧ s'.releases = s.releases := by
      simpa [EndSide.socket] using heq
    refine ⟨?_, ?_, fun hc => hfollows.finished (h.finished (hclosing ▸ hc)), hbinding⟩
    · rw [hfd, hclosing, h.fd]
    · rw [hreleases, hclosing, h.releases]
  · obtain ⟨hclosing, hfd, hreleases⟩ : s'.closing = true ∧ s'.tcpFdOpen = false ∧
        s'.releases = s.releases ++ if s.tcpFdOpen then [.resetSocket] else [] := by
      simpa [EndSide.socket, EndSide.shut] using heq
    refine ⟨by simp [hfd, hclosing], ?_, fun _ => hfin.resolve_left id, hbinding⟩
    rw [hreleases, h.fd, h.releases, hclosing]
    cases socket <;> cases s.closing <;> rfl

/-- A call that tears the relay down whatever its directions have come to. -/
def Call.fatal : Call → Bool
  | .processTerminalHandoffRequest => true
  | .abortRelayAndRelease => true
  | .processQuicShutdownComplete => true
  | .unregisterRelay => true
  | _ => false

def QueueEvent.fatal : QueueEvent → Bool
  | .terminal _ => true
  | .unregisterRelay => true
  | _ => false

theorem QueueEvent.calls_not_fatal {e : QueueEvent} (he : e.fatal = false) :
    ∀ c ∈ e.calls, c.fatal = false := by
  cases e with
  | terminal event | unregisterRelay => cases he
  | foreign => intro c hc; cases hc
  | tcpWritable => decide
  | _ => intro c hc; obtain rfl := mem_singleton.mp hc; rfl

namespace Worker

/-- No error, abort, unregister or shutdown event. -/
def FaultFree (cfg : Config) (w : Worker) : Action → Prop
  | .receive buffers fin io =>
    ({ w with
        relay := w.relay.emit
          (.receiveIndicated (ReceiveEvent.indicated buffers fin).buffers.flatten fin) }.onReceive
      cfg (.indicated buffers fin) io).1 ≠ .outOfMemory
  | .terminalEvent => False
  | .shutdownComplete => False
  | .enqueue event => event.fatal = false
  | .epoll event => (event.error && event.socketError) = false
  | .call io => io.read ≠ .error ∧ (∀ res ∈ io.writes, res.accepting = true) ∧ io.epollAdded = true
  | _ => True

instance (cfg : Config) (w : Worker) : ∀ a, Decidable (w.FaultFree cfg a)
  | .receive _ _ _ => inferInstanceAs (Decidable (_ ≠ _))
  | .sendComplete _ => isTrue trivial
  | .idealSendBufferSize _ => isTrue trivial
  | .terminalEvent => isFalse id
  | .shutdownComplete => isFalse id
  | .enqueue _ => inferInstanceAs (Decidable (_ = _))
  | .drainEvents => isTrue trivial
  | .epoll _ => inferInstanceAs (Decidable (_ = _))
  | .call _ => inferInstanceAs (Decidable (_ ∧ _ ∧ _))

structure Orderly (socket : Bool) (w : Worker) : Prop where
  relay : w.relay.endSide.Orderly socket
  calls : ∀ c ∈ w.calls, c.fatal = false
  queue : ∀ e ∈ w.eventQueue, e.fatal = false
  fallback : w.terminalFallback = []

variable (cfg : Config) {socket : Bool} {w w' : Worker}

section

variable (h : w.Orderly socket)
include h

theorem Orderly.enqueue {e : QueueEvent} (he : e.fatal = false) :
    (w.enqueue cfg e).2.Orderly socket := by
  unfold Worker.enqueue
  split
  · exact ⟨h.relay, h.calls, forall_mem_append.mpr ⟨h.queue, forall_mem_singleton.mpr he⟩,
      h.fallback⟩
  · exact h

theorem Orderly.follows {r : Relay} (hr : Relay.Follows False w.relay r) :
    ({ w with relay := r } : Worker).Orderly socket :=
  ⟨h.relay.follows hr, h.calls, h.queue, h.fallback⟩

theorem Orderly.with_calls (calls : List Call) (hcalls : ∀ c ∈ calls, c.fatal = false) :
    ({ w with calls := calls } : Worker).Orderly socket :=
  ⟨h.relay, hcalls, h.queue, h.fallback⟩

theorem Orderly.calls_prepend (calls : List Call) (hcalls : ∀ c ∈ calls, c.fatal = false) :
    ({ w with calls := calls ++ w.calls } : Worker).Orderly socket :=
  h.with_calls _ fun c hc => (mem_append.mp hc).elim (hcalls c) (h.calls c)

/-! ### The stream callback -/

theorem Orderly.answering (io : Io) :
    ({ w with relay := w.relay.answering io } : Worker).Orderly socket :=
  ⟨⟨h.relay.fd, h.relay.releases,
    fun hc => ⟨(h.relay.finished hc).read, (h.relay.finished hc).write,
    (h.relay.finished hc).fin⟩, h.relay.binding⟩, h.calls, h.queue, h.fallback⟩

theorem Orderly.emit {e : Effect} (he : e.releasesSocket = false) :
    ({ w with relay := w.relay.emit e } : Worker).Orderly socket :=
  h.follows (.of_eq (w.relay.endSide_emit he))

theorem Orderly.queueDeferredQuicReceive (view : ReceiveView) :
    (w.queueDeferredQuicReceive cfg view).Orderly socket := by
  have henqueue := h.enqueue cfg (e := .quicReceiveView view) rfl
  have hpause (r : Relay) :
      (r.pushCallbackPending view).pauseQuicReceiveFromCallback.endSide = r.endSide := by
    unfold pauseQuicReceiveFromCallback
    split
    · rfl
    · rw [endSide_of_sides (sides_setQuicReceiveEnabled _ _)]
      rfl
  unfold Worker.queueDeferredQuicReceive
  split
  · next heq =>
    rw [heq] at henqueue
    exact henqueue
  · next heq =>
    rw [heq] at henqueue
    exact henqueue.follows (.of_eq (hpause _))

theorem Orderly.queueQuicReceiveView {view : ReceiveView}
    (hw : w.queueQuicReceiveView cfg view = some w') : w'.Orderly socket := by
  unfold Worker.queueQuicReceiveView at hw
  split at hw
  · cases hw
    exact h.queueDeferredQuicReceive cfg view
  · simp only [queuePrecommitQuicReceive] at hw
    split at hw
    · cases hw
    · cases hw
      exact ⟨h.relay, h.calls, h.queue, h.fallback⟩

theorem Orderly.onReceive (e : ReceiveEvent) (io : Io)
    (hstatus : (w.onReceive cfg e io).1 ≠ .outOfMemory) :
    (w.onReceive cfg e io).2.Orderly socket := by
  unfold Worker.onReceive at hstatus ⊢
  split
  · exact h
  · next hopen =>
    simp only [hopen, Bool.false_eq_true, ↓reduceIte] at hstatus
    split at hstatus
    · exact absurd rfl hstatus
    · next heq =>
      obtain ⟨view, -, hqueue⟩ := Option.bind_eq_some_iff.mp heq
      exact (h.answering io).queueQuicReceiveView cfg hqueue

theorem Orderly.onSendComplete (op : SendOperation) : (w.onSendComplete cfg op).Orderly socket := by
  have henqueue := h.enqueue cfg (e := .quicSendComplete op) rfl
  unfold Worker.onSendComplete
  split
  · next heq =>
    rw [heq] at henqueue
    exact henqueue
  · next heq =>
    rw [heq] at henqueue
    exact ⟨henqueue.relay, henqueue.calls, henqueue.queue, henqueue.fallback⟩

end

/-! ### The worker -/

attribute [local simp] Relay.ofRegistration Relay.endSide Call.fatal start

section

variable (h : w.Orderly socket)
include h

/-- A relay whose binding was sealed before the commit has ended already, and
taking it out of the tables finds no socket. -/
theorem Orderly.commitRelay (hadded : w.relay.io.epollAdded = true) :
    (w.commitRelay cfg).Orderly socket := by
  unfold Worker.commitRelay
  split_ifs with hbinding hepoll
  · have hclosing : w.relay.closing = true := h.relay.binding hbinding
    have hfd : w.relay.tcpFdOpen = false := by
      have hfd : w.relay.tcpFdOpen = (socket && !w.relay.closing) := h.relay.fd
      simpa [hclosing] using hfd
    have herase : (w.failManagedBinding.relay.erase).endSide = w.relay.endSide := by
      simp [failManagedBinding, Relay.erase, releaseSocket, Relay.close,
        completePendingStreamDetach, setRelayStop, Relay.sealBinding, Relay.emit, socketReleases,
        Effect.releasesSocket, hfd, hclosing, hbinding]
    exact ⟨herase ▸ h.relay, h.calls, h.queue, h.fallback⟩
  · simp [hadded] at hepoll
  · exact h

theorem Orderly.activateManagedBinding : w.activateManagedBinding.Orderly socket := by
  unfold Worker.activateManagedBinding
  split
  · exact h
  · next views _ =>
    have hcalls : ∀ c ∈ views.map Call.processQuicReceiveView, c.fatal = false := by simp
    have hloaded := h.calls_prepend _ hcalls
    exact ⟨hloaded.relay, hloaded.calls, hloaded.queue, hloaded.fallback⟩

theorem Orderly.popEvents (processed : Nat) :
    (w.execute cfg (.popEvents processed)).Orderly socket := by
  simp only [execute]
  split
  · exact h
  · next e rest hqueue =>
    split
    · exact h
    · have hpop := forall_mem_cons.mp (hqueue ▸ h.queue)
      have hcalls : ∀ c ∈ e.calls ++ [.popEvents (processed + 1)], c.fatal = false := fun c hc =>
        (mem_append.mp hc).elim (QueueEvent.calls_not_fatal hpop.1 c) fun hc => by
          rw [mem_singleton.mp hc]
          rfl
      have hloaded := (h.calls_prepend _ hcalls).calls
      simp only [append_assoc, singleton_append] at hloaded
      exact ⟨h.relay, hloaded, hpop.2, h.fallback⟩

/-- One call of the worker, on answers without an error. -/
theorem Orderly.execute (hclean : w.relay.endSide.Clean) (hadded : w.relay.io.epollAdded = true)
    {c : Call} (hc : c.fatal = false) : (w.execute cfg c).Orderly socket := by
  have hcall (c : Call) (hc : c.fatal = false) :
      ({ w with calls := c :: w.calls } : Worker).Orderly socket :=
    h.calls_prepend [c] (by simpa using hc)
  cases c with
  | commitRelay => exact h.commitRelay cfg hadded
  | activateManagedBinding => exact h.activateManagedBinding
  | drainQuicSendCompletionFallbacks =>
    have hcalls : ∀ c ∈ w.sendCompletionFallback.map Call.completeQuicSend, c.fatal = false := by
      simp
    exact ⟨h.relay, (h.calls_prepend _ hcalls).calls, h.queue, h.fallback⟩
  | drainQuicTerminalFallbacks =>
    refine ⟨h.relay, ?_, h.queue, rfl⟩
    simpa [Worker.execute, h.fallback] using h.calls
  | popEvents processed => exact h.popEvents cfg processed
  | processQuicReceiveView view =>
    have happend : Relay.Follows False w.relay (w.relay.appendQuicReceive cfg view) :=
      .of_eq <| endSide_of_sides (by simp)
    simp only [Worker.execute]
    split
    · exact h.follows happend
    · exact (hcall .flushDeferredQuicReceives rfl).follows happend
  | completeQuicSend op =>
    have haccount : Relay.Follows False w.relay (w.relay.accountQuicSend op) :=
      w.relay.follows_accountQuicSend op
    simp only [Worker.execute]
    split
    · exact h.follows haccount
    · exact (h.calls_prepend [.flushDeferredQuicReceives, .resumeAfterQuicSend]
        (by decide)).follows haccount
  | resumeAfterQuicSend =>
    exact h.follows (follows_of_drives
      (Relay.drives_resumeTcpRead.trans (drives_maybeStopFullyClosedRelay cfg _)) (.inr hclean))
  | handleQuicIdealSendBuffer byteCount =>
    exact h.follows (.of_eq (w.relay.endSide_handleQuicIdealSendBuffer byteCount))
  | flushTcpWrites => exact h.follows (follows_of_drives (drives_flushTcpWrites cfg) (.inr hclean))
  | flushDeferredQuicReceives =>
    exact h.follows
      (follows_of_drives (drives_flushDeferredQuicReceives cfg (.inl trivial)) (.inr hclean))
  | drainTcpReadable =>
    have hdrain : Relay.Follows False w.relay w.relay.drainTcpReadable.2 :=
      follows_of_drives drives_drainTcpReadable (.inr hclean)
    simp only [Worker.execute]
    split
    · exact (hcall (.drainTcpReadableTurn 0) rfl).follows hdrain
    · exact h.follows hdrain
  | drainTcpReadableTurn readBytes =>
    have hturn : Relay.Follows False w.relay (w.relay.drainTcpReadableTurn cfg readBytes).1 :=
      follows_of_drives (drives_drainTcpReadableTurn cfg (.inl trivial) (.inl trivial))
        (.inr hclean)
    simp only [Worker.execute]
    refine (h.calls_prepend _ ?_).follows hturn
    simp
  | retryPendingQuicSends => exact h.follows (.of_eq w.relay.endSide_retryPendingQuicSends)
  | drainCallbackPendingQuicReceives =>
    simp only [Worker.execute]
    split
    · exact h
    · have hcalls : ∀ c ∈ w.relay.callbackPendingQuicReceives.map Call.processQuicReceiveView ++
          [.maybeResumeQuicReceive],
          c.fatal = false := by
        intro c hc
        simp only [mem_append, mem_map, mem_singleton] at hc
        rcases hc with ⟨view, -, rfl⟩ | rfl <;> rfl
      have hloaded := (h.calls_prepend _ hcalls).calls
      simp only [append_assoc, singleton_append] at hloaded
      exact ⟨h.relay, hloaded, h.queue, h.fallback⟩
  | maybeResumeQuicReceive =>
    exact h.follows (.of_eq <| endSide_of_sides (w.relay.sides_maybeResumeQuicReceive cfg))
  | processTerminalHandoffRequest | abortRelayAndRelease | processQuicShutdownComplete
  | unregisterRelay => cases hc

theorem orderly_step {a : Action} (hfree : w.FaultFree cfg a) (hstep : w.step cfg a = some w') :
    w'.Orderly socket := by
  cases a with
  | receive buffers fin io =>
    cases hstep
    have hreceived :=
      (h.emit (e := .receiveIndicated (ReceiveEvent.indicated buffers fin).buffers.flatten fin)
        rfl).onReceive
      cfg (.indicated buffers fin) io hfree
    simp only [indicateReceive]
    split
    · exact hreceived.emit rfl
    · exact hreceived
  | sendComplete index =>
    obtain ⟨op, -, rfl⟩ := Option.map_eq_some_iff.mp hstep
    have hcompleted : Relay.Follows False w.relay
        { w.relay with inFlight := w.relay.inFlight.eraseIdx index } := .of_eq rfl
    exact (h.follows hcompleted).onSendComplete cfg op
  | idealSendBufferSize byteCount =>
    cases hstep
    split
    · exact h
    · exact h.enqueue cfg rfl
  | terminalEvent | shutdownComplete => exact hfree.elim
  | enqueue event =>
    cases event with
    | foreign | tcpWritable =>
      cases hstep
      exact h.enqueue cfg rfl
    | unregisterRelay => cases hfree
    | _ => cases hstep
  | drainEvents =>
    simp only [step] at hstep
    split at hstep
    · cases hstep
      exact h.with_calls drainEventsCalls (by decide)
    · cases hstep
  | epoll event =>
    simp only [step] at hstep
    split at hstep
    · cases hstep
      have hwritable : ∀ c ∈ writableCalls, c.fatal = false := by decide
      refine h.with_calls _ fun c hc => ?_
      rcases mem_processTcpEvents hc with ⟨-, herror⟩ | hc | rfl
      · cases herror.symm.trans hfree
      · exact hwritable c hc
      · rfl
    · cases hstep
  | call io =>
    obtain ⟨hread, hwrites, hadded⟩ := hfree
    simp only [step] at hstep
    split at hstep
    · cases hstep
    · next c rest hcalls =>
      cases hstep
      have hpop := forall_mem_cons.mp (hcalls ▸ h.calls)
      exact ((h.answering io).with_calls rest hpop.2).execute cfg ⟨hread, hwrites⟩ hadded hpop.1

end

theorem orderly_start (reg : Registration) (tcpInput : Bytes) :
    (start cfg reg tcpInput).Orderly reg.tcpFd := by
  refine ⟨⟨?_, ?_, ?_, ?_⟩, ?_, ?_, rfl⟩
  · simp
  · simp [socketReleases]
  · simp
  · simp
  · simp
  · simp

/-- **A graceful end resets the socket.** In a run without an error, abort,
unregister or shutdown event a relay ends only after both directions have
reached their end. A relay with a socket has then always reset it, and no other
way of closing it is ever taken. -/
theorem no_reset_iff_not_ended (cfg : Config) (reg : Registration) (tcpInput : Bytes)
    (as : List Action) (w : Worker)
    (hfree : Meets (step cfg) (FaultFree cfg) (start cfg reg tcpInput) as)
    (hrun : run (step cfg) (start cfg reg tcpInput) as = some w) :
    (w.relay.closing = true → w.relay.endSide.Finished) ∧ Effect.closeSocket ∉ w.relay.log ∧
      (Effect.resetSocket ∉ w.relay.log ↔ reg.tcpFd = false ∨ w.relay.closing = false) := by
  have horderly :=
    invariant_of_meets (fun _ _ _ h hr hs => orderly_step cfg h hr hs)
      (orderly_start cfg reg tcpInput) hfree hrun
  have hreleases :
      socketReleases w.relay.log = if reg.tcpFd && w.relay.closing then [.resetSocket] else [] :=
    horderly.relay.releases
  have hmem (e : Effect) (he : e.releasesSocket = true) :
      e ∈ w.relay.log ↔ e ∈ socketReleases w.relay.log := by
    simp [socketReleases, he]
  refine ⟨horderly.relay.finished, ?_, ?_⟩
  · rw [hmem _ rfl, hreleases]
    cases reg.tcpFd <;> cases w.relay.closing <;> decide
  · rw [hmem _ rfl, hreleases]
    cases reg.tcpFd <;> cases w.relay.closing <;> decide

/-- The stream delivers one byte and its FIN, and the socket takes both. -/
def downloadEnd : List Action :=
  registration ++ [.receive [[5]] true {}, .drainEvents, .call {}, .call {}, .call {}, .call {},
    .call { writes := [.sent 1] }, .call {}, .call {}, .call {}, .call {}]

theorem downloadEnd_not_reset :
    ∃ w, run (step {}) (start {} {} []) downloadEnd = some w ∧ w.relay.tcpWriteClosed = true ∧
      Effect.resetSocket ∉ w.relay.log := by
  refine run_observed (f := fun w => (w.relay.tcpWriteClosed, w.relay.closing))
    (o := (true, false)) (by decide) fun w hw hobs => ?_
  obtain ⟨hwrite, hclosing⟩ := Prod.mk.inj hobs
  exact ⟨hwrite, (no_reset_iff_not_ended {} {} [] downloadEnd w (by decide) hw).2.2.mpr
    (.inr hclosing)⟩

/-- Then the client ends its direction, and MsQuic completes the FIN. -/
def bothEnds : List Action :=
  downloadEnd ++
    [.epoll { readable := true }, .call {}, .call { read := .eof }, .sendComplete 0, .drainEvents,
    .call {}, .call {}, .call {}, .call {}, .call {}, .call {}]

theorem bothEnds_reset :
    ∃ w, Meets (step {}) (FaultFree {}) (start {} {} []) bothEnds ∧
      run (step {}) (start {} {} []) bothEnds = some w ∧ Effect.tcpWrite [5] ∈ w.relay.log ∧
      Effect.beginTerminalShutdown true ∈ w.relay.log ∧ Effect.resetSocket ∈ w.relay.log := by
  have htrace : (run (step {}) (start {} {} []) bothEnds).map
      (fun w => decide (Effect.tcpWrite [5] ∈ w.relay.log ∧
      Effect.beginTerminalShutdown true ∈ w.relay.log ∧ Effect.resetSocket ∈ w.relay.log)) =
        some true := by
    decide
  obtain ⟨w, hw, hobs⟩ := Option.map_eq_some_iff.mp htrace
  exact ⟨w, by decide, hw, of_decide_eq_true hobs⟩

end Worker
end TcpQuicProxy.LinuxRelay
