import Mathlib.Algebra.Group.Prod
import TcpQuicProxy.Tunnel.SocketOwner

/-!
# An accept that nothing disturbs

`AcceptAsyncClientOpen` records that a relay is pending and tries to start it.
It can do so once the OPEN request is out; otherwise the relay is left to the
completion of the send. Each of the two looks at what the other has left behind,
and an accept that finds its record gone and no relay takes the open for failed.
So much depends on nobody else moving meanwhile.
-/

namespace TcpQuicProxy.Tunnel

/-- The environment lets a relay start. -/
def Io.startsRelay (io : Io) : Bool :=
  io.compressorCreated && io.targetPublished && io.relayCommitted

/-- What a thread adds to the log that starts the relay or accepts the open. -/
def Effect.starting : Effect → Bool
  | .startRelay | .relayPublished | .relayStarted | .relayReceive .. | .acceptReturned true => true
  | _ => false

/-- `StartRelay` between its entry and its record. -/
def Call.startingRelay : Call → Bool
  | .registerRelay .. | .commitRelay _ | .noteRelayStarted _ => true
  | _ => false

namespace Context

/-- The stream and the socket are the tunnel's, and no relay has them yet. -/
structure Fit (c : Context) : Prop where
  held : c.socketSide.Held
  target : c.target = .context
  unstarted : c.relayStarted = false

/-- The relay has been recorded as pending for the completion of the send. -/
structure LeftPending (c : Context) : Prop where
  fit : c.Fit
  accepted : c.asyncClientOpenAccepted = true
  pending : c.pendingClientRelay = true
  sending : c.openSendComplete = false

/-- The calls of a thread that starts the relay and is alone with the context. -/
inductive RelayStart (caller : Caller) (c : Context) : List Call → Prop
  | start (fit : c.Fit) (flags : UInt8) : RelayStart caller c [.startRelay flags caller]
  | register (fit : c.Fit) : RelayStart caller c [.registerRelay true caller]
  | commit (held : c.socketSide.Held) (target : c.target = .relay)
      (unstarted : c.relayStarted = false) :
      RelayStart caller c [.commitRelay caller]
  | note (held : c.socketSide.Held) (target : c.target = .relay)
      (unstarted : c.relayStarted = false) :
      RelayStart caller c [.noteRelayStarted caller]
  | dispatch (started : c.relayStarted = true) (target : c.target = .relay) :
      RelayStart caller c [.dispatchPendingRelayRx caller]
  | buffered (started : c.relayStarted = true) (target : c.target = .relay) (bytes : Bytes) :
      RelayStart caller c [.dispatchBufferedEvent bytes caller]
  | returned (started : c.relayStarted = true) :
      RelayStart caller c [.startRelayReturned true caller]

/-- The calls of the ingress thread during such an accept. -/
inductive Accepting (c : Context) : List Call → Prop
  | accept (fit : c.Fit) (attached : c.asyncClientOpenHandle = true) :
      Accepting c [.acceptAsyncClientOpen]
  | pending (fit : c.Fit) (accepted : c.asyncClientOpenAccepted = true)
      (pending : c.pendingClientRelay = true) :
      Accepting c [.startPendingClientRelay .acceptAsyncClientOpen]
  | starts {calls : List Call} (relay : RelayStart .acceptAsyncClientOpen c calls) :
      Accepting c calls
  | refused (left : c.LeftPending) : Accepting c [.startRelayReturned false .acceptAsyncClientOpen]
  | asks (left : c.LeftPending) : Accepting c [.isPendingClientRelayWaiting]
  | returns (settled : c.relayStarted = true ∨ c.LeftPending) : Accepting c [.acceptReturned true]
  | done (settled : c.relayStarted = true ∨ c.LeftPending) (told : .acceptReturned true ∈ c.log) :
      Accepting c []

/-- How often `StartRelay` was entered, and how often it recorded a relay. -/
def relayStarts (log : List Effect) : Nat × Nat := (log.count .startRelay, log.count .relayStarted)

attribute [local simp] Context.execute relayStarts Call.startingRelay Context.emit

@[simp] theorem relayStarts_append (log es : List Effect) :
    relayStarts (log ++ es) = relayStarts log + relayStarts es := by
  simp

/-- The same, read off the context and the calls that are still to come. -/
def credit (c : Context) (calls : List Call) : Nat × Nat :=
  if c.relayStarted then (1, 1) else if calls.any Call.startingRelay then (1, 0) else (0, 0)

/-- What is added to the log starts the relay or accepts the open, and the
credit keeps account of it. -/
def Advances (c c' : Context) (calls calls' : List Call) : Prop :=
  ∃ es, c'.log = c.log ++ es ∧ (∀ e ∈ es, e.starting = true) ∧
    c'.credit calls' = c.credit calls + relayStarts es

variable {c : Context} {io : Io} {caller : Caller} {call : Call} {rest : List Call}

theorem Fit.emit (h : c.Fit) (e : Effect) : (c.emit e).Fit :=
  ⟨⟨h.held.tcpFd, h.held.stream, h.held.running, h.held.unqueued⟩, h.target, h.unstarted⟩

attribute [local simp] credit Effect.starting

/-- A thread that starts the relay and is let do so goes on or is through. -/
theorem RelayStart.execute (h : RelayStart caller c (call :: rest)) (hio : io.startsRelay = true) :
    (RelayStart caller (c.execute io call).1 ((c.execute io call).2 ++ rest) ∨
      call = .startRelayReturned true caller ∧ rest = [] ∧ (c.execute io call).1 = c ∧
        c.relayStarted = true) ∧
    c.Advances (c.execute io call).1 (call :: rest) ((c.execute io call).2 ++ rest) := by
  simp only [Io.startsRelay, Bool.and_eq_true] at hio
  obtain ⟨⟨hcompressor, htarget⟩, hcommitted⟩ := hio
  cases h with
  | start fit flags =>
    obtain ⟨hstream, hrunning, hunqueued⟩ :
        c.stream = true ∧ c.shutdownComplete = false ∧ c.streamShutdownQueued = false :=
      ⟨fit.held.stream, fit.held.running, fit.held.unqueued⟩
    have hfd : c.tcpFd = true := fit.held.tcpFd
    have hstart : c.execute io (.startRelay flags caller) =
        (c.emit .startRelay, [.registerRelay true caller]) := by
      simp [startRelay, hcompressor, hstream, hrunning, hunqueued, fit.unstarted, hfd]
    rw [hstart]
    refine ⟨.inl (.register (fit.emit _)), [.startRelay], rfl, by simp, ?_⟩
    simp [fit.unstarted]
  | register fit =>
    have hregister : c.execute io (.registerRelay true caller) =
        ({ c with target := .relay }.emit .relayPublished, [.commitRelay caller]) := by
      simp [registerRelay, publishTarget, htarget, fit.target]
    rw [hregister]
    refine ⟨.inl (.commit ?_ rfl fit.unstarted), [.relayPublished], rfl, by simp, ?_⟩
    · exact ⟨fit.held.tcpFd, fit.held.stream, fit.held.running, fit.held.unqueued⟩
    · simp [fit.unstarted]
  | commit held target unstarted =>
    have hcommit : c.execute io (.commitRelay caller) = (c, [.noteRelayStarted caller]) := by
      simp [commitRelay, hcommitted]
    rw [hcommit]
    refine ⟨.inl (.note held target unstarted), [], by simp, by simp, ?_⟩
    simp [unstarted]
  | note held target unstarted =>
    obtain ⟨hstream, hrunning, hunqueued⟩ :
        c.stream = true ∧ c.shutdownComplete = false ∧ c.streamShutdownQueued = false :=
      ⟨held.stream, held.running, held.unqueued⟩
    have hnote : c.execute io (.noteRelayStarted caller) =
        ({ c with relayStarted := true, tcpFd := false }.emit .relayStarted,
          [.dispatchPendingRelayRx caller]) := by
      simp [noteRelayStarted, hstream, hrunning, hunqueued]
    rw [hnote]
    refine ⟨.inl (.dispatch rfl target), [.relayStarted], rfl, by simp, ?_⟩
    simp [unstarted]
  | dispatch started target =>
    simp only [Context.execute, dispatchPendingRelayRx]
    split
    · exact ⟨.inl (.returned started), [], by simp, by simp, by simp [started]⟩
    · refine ⟨.inl (.buffered ?_ ?_ _), [], by simp, by simp, by simp [started]⟩
      · exact started
      · exact target
  | buffered started target bytes =>
    simp only [Context.execute, dispatchBufferedEvent, target]
    refine ⟨.inl (.returned started), [.relayReceive [quicBuffer bytes] false true], rfl,
      by simp, ?_⟩
    simp [started]
  | returned started =>
    exact ⟨.inr ⟨rfl, rfl, rfl, started⟩, [], by simp, by simp,
      by simp [started]⟩

/-- An accept that is alone and is let start the relay goes on until it returns
true. -/
theorem Accepting.execute (h : Accepting c (call :: rest)) (hio : io.startsRelay = true) :
    Accepting (c.execute io call).1 ((c.execute io call).2 ++ rest) ∧
      c.Advances (c.execute io call).1 (call :: rest) ((c.execute io call).2 ++ rest) := by
  cases h with
  | accept fit attached =>
    have haccept : c.execute io .acceptAsyncClientOpen =
        ({ c with
          asyncClientOpenHandle := false
          asyncClientOpenAccepted := true
          pendingClientRelay := true
          pendingClientRelayFlags := c.asyncClientOpenFlags },
            [.startPendingClientRelay .acceptAsyncClientOpen]) := by
      simp [acceptAsyncClientOpen, attached]
    rw [haccept]
    refine ⟨.pending ?_ rfl rfl, [], by simp, by simp, by simp [fit.unstarted]⟩
    exact ⟨⟨fit.held.tcpFd, fit.held.stream, fit.held.running, fit.held.unqueued⟩, fit.target,
      fit.unstarted⟩
  | pending fit accepted pending =>
    obtain ⟨hrunning, hunqueued⟩ : c.shutdownComplete = false ∧ c.streamShutdownQueued = false :=
      ⟨fit.held.running, fit.held.unqueued⟩
    -- whether the request is out decides who starts the relay
    cases hsent : c.openSendComplete with
    | true =>
      have hstart : c.execute io (.startPendingClientRelay .acceptAsyncClientOpen) =
          ({ c with pendingClientRelay := false },
            [.startRelay c.pendingClientRelayFlags .acceptAsyncClientOpen]) := by
        simp [startPendingClientRelay, pending, hsent, fit.unstarted, hrunning, hunqueued]
      rw [hstart]
      refine ⟨.starts (.start ?_ _), [], by simp, by simp, by simp [fit.unstarted]⟩
      exact ⟨⟨fit.held.tcpFd, fit.held.stream, fit.held.running, fit.held.unqueued⟩, fit.target,
        fit.unstarted⟩
    | false =>
      have hwait : c.execute io (.startPendingClientRelay .acceptAsyncClientOpen) =
          (c, [.startRelayReturned false .acceptAsyncClientOpen]) := by
        simp [startPendingClientRelay, pending, hsent, fit.unstarted]
      rw [hwait]
      exact ⟨.refused ⟨fit, accepted, pending, hsent⟩, [], by simp, by simp,
        by simp [fit.unstarted]⟩
  | starts relay =>
    obtain ⟨hnext, hadvances⟩ := relay.execute hio
    refine ⟨?_, hadvances⟩
    rcases hnext with hnext | ⟨rfl, rfl, hsame, started⟩
    · exact .starts hnext
    · rw [hsame]
      exact .returns (.inl started)
  | refused left =>
    exact ⟨.asks left, [], by simp, by simp,
      by simp [left.fit.unstarted]⟩
  | asks left =>
    obtain ⟨hrunning, hunqueued⟩ : c.shutdownComplete = false ∧ c.streamShutdownQueued = false :=
      ⟨left.fit.held.running, left.fit.held.unqueued⟩
    have hasks : c.execute io .isPendingClientRelayWaiting = (c, [.acceptReturned true]) := by
      simp [isPendingClientRelayWaiting, left.accepted, left.pending, left.sending,
        left.fit.unstarted, hrunning, hunqueued]
    rw [hasks]
    exact ⟨.returns (.inr left), [], by simp, by simp, by simp [left.fit.unstarted]⟩
  | returns settled =>
    refine ⟨.done (settled.imp_right fun left => ?_) (by simp), [.acceptReturned true], rfl,
      by simp, ?_⟩
    · exact ⟨left.fit.emit _, left.accepted, left.pending, left.sending⟩
    · cases hstarted : c.relayStarted <;> simp [hstarted]

/-! ### The handle of a tunnel -/

/-- Only the accept takes the handle. -/
theorem accepted_execute (h : call ≠ .acceptAsyncClientOpen) :
    (c.execute io call).1.asyncClientOpenAccepted = c.asyncClientOpenAccepted ∧
      (c.execute io call).1.asyncClientOpenHandle = c.asyncClientOpenHandle := by
  cases call
  case acceptAsyncClientOpen => exact absurd rfl h
  all_goals dsimp [execute]
  all_goals repeat' split
  all_goals simp

end Context
end TcpQuicProxy.Tunnel
