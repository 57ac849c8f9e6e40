import TcpQuicProxy.Tunnel.Accept

/-!
# The accept of a client and the completion of its OPEN request

Two threads can start the relay of a client: the ingress thread that accepts the
open and the callback that learns that the request is out. Each claims the
pending relay in one section, starts it without the lock and falls back to an
abort when it finds that nothing was left to claim. If the sections of one fall
between those of the other, the one that comes second takes a relay that is just
being started for one that failed. `Apart` keeps the two apart, and then one of
them starts the relay and neither aborts it.
-/

namespace TcpQuicProxy.Tunnel

open Machine List

/-! ### Every handler returns -/

/-- A bound on the calls that a thread makes from this one on. -/
def Call.remaining : Call → Nat
  | .returnSuccess _ | .noteDialToken | .spawnDial _ | .notePendingServerRelay _
  | .serverOpenFinished
  | .clearServerDial .. | .closeTcp | .notePendingOpenFailureShutdown | .armSelfDeleteOnShutdown
  | .shutdownReceiveAfterOpenFailure | .completeAsyncClientOpenIfNeeded _ | .acceptReturned _
  | .abortAcceptedClientOpenBeforeRelay | .stopRelay | .noteStartFailure
  | .noteShutdownComplete => 1
  | .cancelServerDial | .sendOpenFailureResponse _ | .completeOpen _ => 2
  | .guardOpenFailure _ | .tryCompleteClientOpen | .isPendingClientRelayWaiting => 3
  | .submitFailed | .openOkFailed | .startRelayReturned .. => 7
  | .submitDial _ | .sendOpenOk _ => 8
  | .tryHandleServerOpenWithReactor _ | .recheckAborted _ => 9
  | .tryHandleServerOpen | .checkAborted _ => 10
  | .onReceive _ | .dispatch _ | .finishServerOpen .. => 11
  | .beginServerDialCallback _ => 13
  | .dispatchBufferedEvent .. => 19
  | .dispatchPendingRelayRx _ => 20
  | .noteRelayStarted _ => 21
  | .commitRelay _ => 22
  | .registerRelay .. => 23
  | .startRelay .. => 24
  | .startPendingServerRelay | .startPendingClientRelay _ => 25
  | .onSendComplete | .acceptAsyncClientOpen => 26

theorem Context.remaining_execute (c : Context) (io : Io) (call : Call) :
    total Call.remaining (c.execute io call).2 < call.remaining := by
  cases call
  case startRelayReturned ok caller =>
    cases ok <;> cases caller <;> simp [execute, Call.remaining]
  case onReceive bytes =>
    cases hrole : c.role <;> simp [execute, hrole, Call.remaining]
  all_goals dsimp [execute]
  all_goals repeat' split
  all_goals simp [Call.remaining]

/-- Every call of a thread brings it closer to its return. -/
theorem remaining_step {s s' : System} {t : Thread} {io : Io} (h : step s (.call t io) = some s') :
    total Call.remaining (s'.calls t) < total Call.remaining (s.calls t) := by
  have h : s.advance (·.execute io) t = some s' := h
  obtain ⟨call, rest, hcalls, rfl⟩ := Pool.advance_eq_some h
  have hcall := s.shared.remaining_execute io call
  rw [Pool.setCalls_calls_self, hcalls, total_append, total_cons]
  omega

/-! ### What the two threads look at -/

/-- The handler of a RECEIVE event at the client. -/
def Call.receives : Call → Bool
  | .onReceive _ | .tryCompleteClientOpen | .completeOpen _ | .completeAsyncClientOpenIfNeeded _
  | .returnSuccess _ => true
  | _ => false

/-- What such a handler adds to the log, and what MsQuic does before it. -/
def Effect.receiving : Effect → Bool
  | .receiveIndicated .. | .receiveConsumed _ | .relayReceive .. | .openComplete _ => true
  | _ => false

structure AcceptSide where
  socket : SocketSide
  target : Target
  accepted : Bool
  sent : Bool
  pending : Bool

namespace Context

def acceptSide (c : Context) : AcceptSide where
  socket := c.socketSide
  target := c.target
  accepted := c.asyncClientOpenAccepted
  sent := c.openSendComplete
  pending := c.pendingClientRelay

/-- Nobody has accepted the open yet. -/
structure Before (c : Context) : Prop where
  fit : c.Fit
  unaccepted : c.asyncClientOpenAccepted = false
  unpended : c.pendingClientRelay = false

/-- Neither thread is at work on the relay. -/
inductive Resting (c : Context) : Prop
  | before (h : c.Before)
  | pending (h : c.LeftPending)
  | started (h : c.relayStarted = true) (accepted : c.asyncClientOpenAccepted = true)

/-- The calls of the callback while the ingress thread is outside of its
sections. -/
inductive Completing (c : Context) : List Call → Prop
  | receives (h : c.Resting) {calls : List Call} (receives : ∀ call ∈ calls, call.receives = true) :
      Completing c calls
  | enters (h : c.Resting) : Completing c [.onSendComplete]
  | looks (h : c.Resting) (sent : c.openSendComplete = true) :
      Completing c [.startPendingClientRelay .onSendComplete]
  | claims (fit : c.Fit) (accepted : c.asyncClientOpenAccepted = true)
      (pending : c.pendingClientRelay = true)
      (sent : c.openSendComplete = true) : Completing c [.startPendingClientRelay .onSendComplete]
  | starts {calls : List Call} (relay : RelayStart .onSendComplete c calls)
      (accepted : c.asyncClientOpenAccepted = true) :
      Completing c calls
  | refused (h : c.Before) : Completing c [.startRelayReturned false .onSendComplete]
  | aborts (h : c.Before) : Completing c [.abortAcceptedClientOpenBeforeRelay]

/-- The calls of the ingress thread outside of its sections. -/
inductive Outside (c : Context) : List Call → Prop
  | idle (told : c.asyncClientOpenAccepted = true → .acceptReturned true ∈ c.log) : Outside c []
  | entering (unaccepted : c.asyncClientOpenAccepted = false)
      (attached : c.asyncClientOpenHandle = true) :
      Outside c [.acceptAsyncClientOpen]
  | leaving (accepted : c.asyncClientOpenAccepted = true) : Outside c [.acceptReturned true]

/-- The callback is outside of its sections. -/
def Aside (calls : List Call) : Prop :=
  (∀ call ∈ calls, call.receives = true) ∨ calls = [.onSendComplete]

variable {c c' : Context} {io : Io} {call : Call} {rest calls : List Call} {e : Event}
  {r : Context × List Call}

section Frame

variable (hside : c'.acceptSide = c.acceptSide)
include hside

theorem Fit.of_acceptSide (h : c.Fit) : c'.Fit := by
  have hsocket : c'.socketSide = c.socketSide := congrArg AcceptSide.socket hside
  have htarget : c'.target = c.target := congrArg AcceptSide.target hside
  have hstarted : c'.relayStarted = c.relayStarted := congrArg SocketSide.relayStarted hsocket
  exact ⟨hsocket ▸ h.held, htarget ▸ h.target, hstarted ▸ h.unstarted⟩

theorem fields_of_acceptSide : c'.asyncClientOpenAccepted = c.asyncClientOpenAccepted ∧
    c'.pendingClientRelay = c.pendingClientRelay ∧ c'.openSendComplete = c.openSendComplete :=
  ⟨congrArg AcceptSide.accepted hside, congrArg AcceptSide.pending hside,
    congrArg AcceptSide.sent hside⟩

theorem LeftPending.of_acceptSide (h : c.LeftPending) : c'.LeftPending := by
  obtain ⟨haccepted, hpending, hsent⟩ := fields_of_acceptSide hside
  exact ⟨h.fit.of_acceptSide hside, haccepted ▸ h.accepted, hpending ▸ h.pending, hsent ▸ h.sending⟩

theorem Before.of_acceptSide (h : c.Before) : c'.Before := by
  obtain ⟨haccepted, hpending, -⟩ := fields_of_acceptSide hside
  exact ⟨h.fit.of_acceptSide hside, haccepted ▸ h.unaccepted, hpending ▸ h.unpended⟩

theorem relayStarted_of_acceptSide : c'.relayStarted = c.relayStarted :=
  congrArg (·.socket.relayStarted) hside

theorem Resting.of_acceptSide (h : c.Resting) : c'.Resting := by
  obtain ⟨haccepted, -⟩ := fields_of_acceptSide hside
  cases h with
  | before h => exact .before (h.of_acceptSide hside)
  | pending h => exact .pending (h.of_acceptSide hside)
  | started h accepted =>
    exact .started ((relayStarted_of_acceptSide hside).trans h) (haccepted.trans accepted)

theorem RelayStart.of_acceptSide {caller : Caller} (h : RelayStart caller c calls) :
    RelayStart caller c' calls := by
  have hsocket : c'.socketSide = c.socketSide := congrArg AcceptSide.socket hside
  have htarget : c'.target = c.target := congrArg AcceptSide.target hside
  have hstarted : c'.relayStarted = c.relayStarted := relayStarted_of_acceptSide hside
  cases h with
  | start fit flags => exact .start (fit.of_acceptSide hside) flags
  | register fit => exact .register (fit.of_acceptSide hside)
  | commit held target unstarted =>
    exact .commit (hsocket ▸ held) (htarget.trans target) (hstarted.trans unstarted)
  | note held target unstarted =>
    exact .note (hsocket ▸ held) (htarget.trans target) (hstarted.trans unstarted)
  | dispatch started target => exact .dispatch (hstarted.trans started) (htarget.trans target)
  | buffered started target bytes =>
    exact .buffered (hstarted.trans started) (htarget.trans target) bytes
  | returned started => exact .returned (hstarted.trans started)

theorem Accepting.of_acceptSide (hlog : c.log ⊆ c'.log) (h : Accepting c calls) :
    Accepting c' calls := by
  have hstarted : c'.relayStarted = c.relayStarted := relayStarted_of_acceptSide hside
  have hattached : c'.asyncClientOpenHandle = c.asyncClientOpenHandle :=
    congrArg (·.socket.asyncClientOpenHandle) hside
  obtain ⟨haccepted, hpending, -⟩ := fields_of_acceptSide hside
  have hsettled (h : c.relayStarted = true ∨ c.LeftPending) :
      c'.relayStarted = true ∨ c'.LeftPending :=
    h.imp hstarted.trans fun h => h.of_acceptSide hside
  cases h with
  | accept fit attached => exact .accept (fit.of_acceptSide hside) (hattached.trans attached)
  | pending fit accepted pending =>
    exact .pending (fit.of_acceptSide hside) (haccepted.trans accepted) (hpending.trans pending)
  | starts relay => exact .starts (relay.of_acceptSide hside)
  | refused left => exact .refused (left.of_acceptSide hside)
  | asks left => exact .asks (left.of_acceptSide hside)
  | returns settled => exact .returns (hsettled settled)
  | done settled told => exact .done (hsettled settled) (hlog told)

theorem Completing.of_acceptSide (h : Completing c calls) : Completing c' calls := by
  obtain ⟨haccepted, hpending, hsent⟩ := fields_of_acceptSide hside
  cases h with
  | receives h receives => exact .receives (h.of_acceptSide hside) receives
  | enters h => exact .enters (h.of_acceptSide hside)
  | looks h sent => exact .looks (h.of_acceptSide hside) (hsent.trans sent)
  | claims fit accepted pending sent =>
    exact .claims (fit.of_acceptSide hside) (haccepted.trans accepted) (hpending.trans pending)
      (hsent.trans sent)
  | starts relay accepted => exact .starts (relay.of_acceptSide hside) (haccepted.trans accepted)
  | refused h => exact .refused (h.of_acceptSide hside)
  | aborts h => exact .aborts (h.of_acceptSide hside)

end Frame

attribute [local simp] Context.execute Call.receives socketSide

attribute [local simp] startPendingClientRelay acceptSide

/-- The handler of a RECEIVE event leaves alone what the two threads look at. -/
theorem receives_execute (hrole : c.role = .clientOpen) (h : call.receives = true) :
    (c.execute io call).1.acceptSide = c.acceptSide ∧
      (∀ d ∈ (c.execute io call).2, d.receives = true) ∧
      ∃ es, (c.execute io call).1.log = c.log ++ es ∧ ∀ e ∈ es, e.receiving = true := by
  cases call
  all_goals simp only [Call.receives, Bool.false_eq_true] at h
  case onReceive bytes =>
    exact ⟨rfl, by simp [execute, hrole], [], by simp [execute], by simp⟩
  case returnSuccess count =>
    refine ⟨?_, by simp [execute], [.receiveConsumed count], rfl, by simp [Effect.receiving]⟩
    simp [execute, emit]
  case tryCompleteClientOpen =>
    simp only [execute, tryCompleteClientOpen]
    repeat' split
    all_goals exact ⟨rfl, by simp, [], by simp, by simp⟩
  case completeOpen ok =>
    simp only [execute, completeOpen]
    split
    all_goals exact ⟨rfl, by simp, [], by simp, by simp⟩
  case completeAsyncClientOpenIfNeeded ok =>
    simp only [execute]
    split
    · refine ⟨?_, by simp, [.openComplete ok], rfl, by simp [Effect.receiving]⟩
      simp [emit]
    · exact ⟨rfl, by simp, [], by simp, by simp⟩

/-- What is added to the log is of a RECEIVE event or of a thread that starts
the relay, and the credit keeps account of it. -/
def Proceeds (c c' : Context) (calls calls' : List Call) : Prop :=
  ∃ es, c'.log = c.log ++ es ∧ (∀ e ∈ es, e.starting = true ∨ e.receiving = true) ∧
    c'.credit calls' = c.credit calls + relayStarts es

theorem Advances.proceeds {calls' : List Call} (h : c.Advances c' calls calls') :
    c.Proceeds c' calls calls' := by
  obtain ⟨es, hlog, hes, hcredit⟩ := h
  exact ⟨es, hlog, fun e he => .inl (hes e he), hcredit⟩

theorem relayStarts_receiving {es : List Effect} (h : ∀ e ∈ es, e.receiving = true) :
    relayStarts es = (0, 0) := by
  have hnot (e : Effect) (he : e.receiving = false) : e ∉ es := fun hmem => by simp [h e hmem] at he
  simp only [relayStarts, count_eq_zero_of_not_mem (hnot .startRelay rfl),
    count_eq_zero_of_not_mem (hnot .relayStarted rfl)]

theorem any_startingRelay_of_receives (h : ∀ call ∈ calls, call.receives = true) :
    calls.any Call.startingRelay = false := by
  rw [any_eq_false]
  intro call hcall
  have hreceives := h call hcall
  cases call <;> simp_all [Call.startingRelay]

theorem credit_of_receives (h : ∀ call ∈ calls, call.receives = true) :
    c.credit calls = c.credit [] := by
  simp [credit, any_startingRelay_of_receives h]

theorem credit_of_relayStarted (h : c'.relayStarted = c.relayStarted) :
    c'.credit calls = c.credit calls := by
  simp [credit, h]

theorem Fit.send (h : c.Fit) : ({ c with openSendComplete := true } : Context).Fit :=
  ⟨⟨h.held.tcpFd, h.held.stream, h.held.running, h.held.unqueued⟩, h.target, h.unstarted⟩

/-- The callback goes on while the ingress thread is outside of its sections. -/
theorem Completing.execute (hrole : c.role = .clientOpen) (h : Completing c (call :: rest))
    (hio : io.startsRelay = true) :
    Completing (c.execute io call).1 ((c.execute io call).2 ++ rest) ∧
      c.Proceeds (c.execute io call).1 (call :: rest) ((c.execute io call).2 ++ rest) := by
  have hsilent {c' : Context} {next : List Call} (hlog : c'.log = c.log)
      (hstarted : c'.relayStarted = c.relayStarted)
      (hcall : call.startingRelay = false) (hrest : rest = [])
      (hnext : next.any Call.startingRelay = false) :
      c.Proceeds c' (call :: rest) (next ++ rest) := by
    have hcredit : c'.credit (next ++ rest) = c.credit (call :: rest) := by
      simp [credit, hstarted, hrest, hcall, hnext]
    refine ⟨[], by simp [hlog], by simp, ?_⟩
    rw [hcredit, relayStarts_receiving (by simp)]
    rfl
  cases h with
  | receives h receives =>
    obtain ⟨hcall, hrest⟩ := forall_mem_cons.mp receives
    obtain ⟨hside, hnext, es, hlog, hes⟩ := @receives_execute c io call hrole hcall
    have hreceives : ∀ d ∈ (c.execute io call).2 ++ rest, d.receives = true := fun d hd =>
      (mem_append.mp hd).elim (hnext d) (hrest d)
    refine ⟨.receives (h.of_acceptSide hside) hreceives, es, hlog, fun e he => .inr (hes e he), ?_⟩
    rw [relayStarts_receiving hes, credit_of_receives hreceives, credit_of_receives receives,
      credit_of_relayStarted (relayStarted_of_acceptSide hside)]
    rfl
  | enters h =>
    have henters : c.execute io .onSendComplete =
        ({ c with openSendComplete := true }, [.startPendingClientRelay .onSendComplete]) := by
      simp [Context.onSendComplete, hrole]
    rw [henters]
    refine ⟨?_, hsilent rfl rfl rfl rfl rfl⟩
    cases h with
    | before h => exact .looks (.before ⟨h.fit.send, h.unaccepted, h.unpended⟩) rfl
    | pending h => exact .claims h.fit.send h.accepted h.pending rfl
    | started h accepted => exact .looks (.started h accepted) rfl
  | looks h sent =>
    cases h with
    | before h =>
      have hlooks : c.execute io (.startPendingClientRelay .onSendComplete) =
          (c, [.startRelayReturned false .onSendComplete]) := by
        simp [h.unpended, h.fit.unstarted]
      rw [hlooks]
      exact ⟨.refused h, hsilent rfl rfl rfl rfl rfl⟩
    | pending h => cases h.sending.symm.trans sent
    | started h accepted =>
      have hlooks : c.execute io (.startPendingClientRelay .onSendComplete) =
          (c, [.startRelayReturned true .onSendComplete]) := by
        simp [h]
      rw [hlooks]
      exact ⟨.starts (.returned h) accepted, hsilent rfl rfl rfl rfl rfl⟩
  | claims fit accepted pending sent =>
    obtain ⟨hrunning, hunqueued⟩ : c.shutdownComplete = false ∧ c.streamShutdownQueued = false :=
      ⟨fit.held.running, fit.held.unqueued⟩
    have hclaims : c.execute io (.startPendingClientRelay .onSendComplete) =
        ({ c with pendingClientRelay := false },
          [.startRelay c.pendingClientRelayFlags .onSendComplete]) := by
      simp [pending, sent, fit.unstarted, hrunning, hunqueued]
    rw [hclaims]
    refine ⟨.starts (.start ?_ _) accepted, hsilent rfl rfl rfl rfl rfl⟩
    exact ⟨⟨fit.held.tcpFd, fit.held.stream, fit.held.running, fit.held.unqueued⟩, fit.target,
      fit.unstarted⟩
  | starts relay accepted =>
    obtain ⟨hnext, hadvances⟩ := relay.execute hio
    refine ⟨?_, hadvances.proceeds⟩
    rcases hnext with hnext | ⟨rfl, rfl, hsame, started⟩
    · have hne : call ≠ .acceptAsyncClientOpen := by
        rintro rfl
        cases relay
      exact .starts hnext ((accepted_execute hne).1.trans accepted)
    · rw [hsame]
      exact .receives (.started started accepted) (by simp)
  | refused h => exact ⟨.aborts h, hsilent rfl rfl rfl rfl rfl⟩
  | aborts h =>
    have haborts : c.execute io .abortAcceptedClientOpenBeforeRelay = (c, []) := by
      simp [abortAcceptedClientOpenBeforeRelay, h.unaccepted]
    rw [haborts]
    exact ⟨.receives (.before h) (by simp), hsilent rfl rfl rfl rfl rfl⟩

/-- How far the two threads have come. -/
inductive Phase (c : Context) : List Call → List Call → Prop
  | outside {ingress callback : List Call} (outside : Outside c ingress)
      (completing : Completing c callback)
      (counted : relayStarts c.log = c.credit callback) : Phase c ingress callback
  | accepting {ingress callback : List Call} (accepted : c.asyncClientOpenAccepted = true)
      (accepting : Accepting c ingress)
      (aside : Aside callback) (counted : relayStarts c.log = c.credit ingress) :
        Phase c ingress callback

theorem Outside.of_log (hlog : c.log ⊆ c'.log)
    (haccepted : c'.asyncClientOpenAccepted = c.asyncClientOpenAccepted)
    (hattached : c'.asyncClientOpenHandle = c.asyncClientOpenHandle) (h : Outside c calls) :
    Outside c' calls := by
  cases h with
  | idle told => exact .idle fun accepted => hlog (told (haccepted.symm.trans accepted))
  | entering unaccepted attached =>
    exact .entering (haccepted.trans unaccepted) (hattached.trans attached)
  | leaving accepted => exact .leaving (haccepted.trans accepted)

theorem credit_of_aside (h : Aside calls) : c.credit calls = c.credit [] := by
  rcases h with hreceives | rfl
  · exact credit_of_receives hreceives
  · rfl

theorem Resting.completing (h : c.Resting) (haside : Aside calls) : Completing c calls := by
  rcases haside with hreceives | rfl
  · exact .receives h hreceives
  · exact .enters h

theorem Completing.resting (h : Completing c calls) (haside : Aside calls) : c.Resting := by
  cases h with
  | receives h _ | enters h => exact h
  | looks _ _ | claims _ _ _ _ | refused _ | aborts _ =>
    rcases haside with hreceives | heq <;> simp_all
  | starts relay _ => cases relay <;> rcases haside with hreceives | heq <;> simp_all

/-- An accept that is back to where it does no harm leaves the threads apart. -/
theorem Accepting.settle (h : Accepting c calls) (accepted : c.asyncClientOpenAccepted = true)
    (detached : c.asyncClientOpenHandle = false)
    (hcalls : calls = [] ∨ calls = [.acceptAsyncClientOpen] ∨ calls = [.acceptReturned true]) :
    Outside c calls ∧ c.Resting := by
  have hresting (settled : c.relayStarted = true ∨ c.LeftPending) : c.Resting :=
    settled.elim (fun h => .started h accepted) .pending
  cases h with
  | accept fit attached => cases detached.symm.trans attached
  | returns settled => exact ⟨.leaving accepted, hresting settled⟩
  | done settled told => exact ⟨.idle fun _ => told, hresting settled⟩
  | pending _ _ _ | refused _ | asks _ => simp at hcalls
  | starts relay => cases relay <;> simp at hcalls

/-- A call of the callback. -/
theorem Phase.callback {ingress : List Call} (h : Phase c ingress (call :: rest))
    (hrole : c.role = .clientOpen)
    (detached : c.asyncClientOpenAccepted = true → c.asyncClientOpenHandle = false)
    (hio : io.startsRelay = true)
    (hapart : call.receives = true ∨ ingress = [] ∨ ingress = [.acceptAsyncClientOpen] ∨
      ingress = [.acceptReturned true]) :
    Phase (c.execute io call).1 ingress ((c.execute io call).2 ++ rest) ∧
      ∃ es, (c.execute io call).1.log = c.log ++ es ∧ ∀ e ∈ es, e.starting = true ∨
        e.receiving = true := by
  have houtside (outside : Outside c ingress) (completing : Completing c (call :: rest))
      (counted : relayStarts c.log = c.credit (call :: rest)) :
      Phase (c.execute io call).1 ingress ((c.execute io call).2 ++ rest) ∧
        ∃ es, (c.execute io call).1.log = c.log ++ es ∧ ∀ e ∈ es, e.starting = true ∨
          e.receiving = true := by
    obtain ⟨hnext, es, hlog, hes, hcredit⟩ := completing.execute hrole hio
    have hne : call ≠ .acceptAsyncClientOpen := by
      rintro rfl
      cases completing with
      | receives _ receives => cases receives _ mem_cons_self
      | starts relay _ => cases relay
    obtain ⟨haccepted, hattached⟩ := @accepted_execute c io call hne
    refine ⟨.outside (outside.of_log ?_ haccepted hattached) hnext ?_, es, hlog, hes⟩
    · rw [hlog]
      exact subset_append_left ..
    · rw [hlog, relayStarts_append, counted, hcredit]
  cases h with
  | outside outside completing counted => exact houtside outside completing counted
  | accepting accepted accepting aside counted =>
    rcases hapart with hcall | hingress
    · -- the accept does not notice a RECEIVE event
      have hreceives : ∀ d ∈ call :: rest, d.receives = true := by
        rcases aside with hreceives | heq
        · exact hreceives
        · obtain ⟨rfl, rfl⟩ := cons.inj heq
          cases hcall
      obtain ⟨hside, hnext, es, hlog, hes⟩ := @receives_execute c io call hrole hcall
      refine ⟨.accepting ?_ (accepting.of_acceptSide hside ?_) (.inl ?_) ?_, es, hlog,
        fun e he => .inr (hes e he)⟩
      · exact (congrArg AcceptSide.accepted hside).trans accepted
      · rw [hlog]
        exact subset_append_left ..
      · intro d hd
        exact (mem_append.mp hd).elim (hnext d) fun hd => hreceives d (mem_cons_of_mem _ hd)
      · rw [hlog, relayStarts_append, counted, relayStarts_receiving hes,
          credit_of_relayStarted (relayStarted_of_acceptSide hside)]
        rfl
    · obtain ⟨outside, resting⟩ := accepting.settle accepted (detached accepted) hingress
      refine houtside outside (resting.completing aside) ?_
      rw [counted, credit_of_aside aside]
      rcases hingress with rfl | rfl | rfl <;> rfl

/-- A call of the ingress thread. -/
theorem Phase.ingress {callback : List Call} (h : Phase c (call :: rest) callback)
    (detached : c.asyncClientOpenAccepted = true → c.asyncClientOpenHandle = false)
    (hio : io.startsRelay = true) (hapart : call = .acceptAsyncClientOpen → Aside callback) :
    Phase (c.execute io call).1 ((c.execute io call).2 ++ rest) callback ∧
      ∃ es, (c.execute io call).1.log = c.log ++ es ∧ ∀ e ∈ es, e.starting = true ∨
        e.receiving = true := by
  have haccepting (accepted : (c.execute io call).1.asyncClientOpenAccepted = true)
      (accepting : Accepting c (call :: rest))
      (aside : Aside callback) (counted : relayStarts c.log = c.credit (call :: rest)) :
      Phase (c.execute io call).1 ((c.execute io call).2 ++ rest) callback ∧
        ∃ es, (c.execute io call).1.log = c.log ++ es ∧ ∀ e ∈ es, e.starting = true ∨
          e.receiving = true := by
    obtain ⟨hnext, es, hlog, hes, hcredit⟩ := accepting.execute hio
    refine ⟨.accepting accepted hnext aside ?_, es, hlog, fun e he => .inl (hes e he)⟩
    rw [hlog, relayStarts_append, counted, hcredit]
  cases h with
  | outside outside completing counted =>
    cases outside with
    | entering unaccepted attached =>
      have aside := hapart rfl
      have hfit : c.Fit := by
        cases completing.resting aside with
        | before h => exact h.fit
        | pending h => cases unaccepted.symm.trans h.accepted
        | started _ accepted => cases unaccepted.symm.trans accepted
      refine haccepting ?_ (.accept hfit attached) aside (counted.trans (credit_of_aside aside))
      simp [acceptAsyncClientOpen, attached]
    | leaving accepted =>
      have hside : (c.emit (.acceptReturned true)).acceptSide = c.acceptSide := by
        simp [Context.emit]
      refine ⟨.outside (.idle fun _ => ?_) (completing.of_acceptSide hside) ?_,
        [.acceptReturned true], rfl,
        by simp [Effect.starting]⟩
      · simp [Context.emit]
      · show relayStarts (c.log ++ [.acceptReturned true]) =
          (c.emit (.acceptReturned true)).credit callback
        rw [relayStarts_append, counted, credit_of_relayStarted (relayStarted_of_acceptSide hside)]
        rfl
  | accepting accepted accepting aside counted =>
    have hne : call ≠ .acceptAsyncClientOpen := by
      rintro rfl
      cases accepting with
      | accept fit attached => cases (detached accepted).symm.trans attached
      | starts relay => cases relay
    exact haccepting ((accepted_execute hne).1.trans accepted) accepting aside counted

/-- The callback enters a handler. -/
theorem Phase.enter {ingress : List Call} (h : Phase c ingress [])
    (hside : c'.acceptSide = c.acceptSide) {es : List Effect} (hlog : c'.log = c.log ++ es)
    (hes : ∀ e ∈ es, e.receiving = true) (aside : Aside calls) :
    Phase c' ingress calls := by
  have hsub : c.log ⊆ c'.log := by
    rw [hlog]
    exact subset_append_left ..
  have hcount (others : List Call) (counted : relayStarts c.log = c.credit others) :
      relayStarts c'.log = c'.credit others := by
    rw [hlog, relayStarts_append, counted, relayStarts_receiving hes,
      credit_of_relayStarted (relayStarted_of_acceptSide hside)]
    rfl
  obtain ⟨haccepted, -⟩ := fields_of_acceptSide hside
  cases h with
  | outside outside completing counted =>
    have resting := completing.resting (.inl (by simp))
    refine .outside (outside.of_log hsub haccepted ?_)
      ((resting.of_acceptSide hside).completing aside) ?_
    · exact congrArg (·.socket.asyncClientOpenHandle) hside
    · rw [hcount [] counted, credit_of_aside aside]
  | accepting accepted accepting _ counted =>
    exact .accepting (haccepted.trans accepted) (accepting.of_acceptSide hside hsub) aside
      (hcount _ counted)

theorem target_execute (h : c.target ≠ .dispatcher) :
    (c.execute io call).1.target ≠ .dispatcher := by
  cases call
  all_goals dsimp [execute]
  all_goals repeat' split
  all_goals simp [emit, h]

/-- A RECEIVE or a SEND_COMPLETE changes nothing before its handler runs. -/
theorem callback_handle (htarget : c.target ≠ .dispatcher)
    (he : (∃ buffers fin, e = .receive buffers fin) ∨ ∃ index, e = .sendComplete index)
    (h : c.handle e = some r) :
    r.1.acceptSide = c.acceptSide ∧ Aside r.2 ∧ ∃ es, r.1.log = c.log ++ es ∧
      ∀ e ∈ es, e.receiving = true := by
  obtain ⟨buffers, fin, rfl⟩ | ⟨index, rfl⟩ := he
  · have hindicated : (c.emit (.receiveIndicated buffers fin)).acceptSide = c.acceptSide := by
      simp [emit]
    simp only [handle, receive] at h
    split at h
    next hdispatcher => exact absurd hdispatcher htarget
    · cases h
      exact ⟨hindicated, .inl (by simp), [.receiveIndicated buffers fin], rfl, by
        simp [Effect.receiving]⟩
    · cases h
      refine ⟨?_, .inl (by simp), [.receiveIndicated buffers fin, .relayReceive buffers fin false],
        by simp [emit],
        by simp [Effect.receiving]⟩
      simp [emit]
    · cases h
      exact ⟨hindicated, .inl (by simp), [.receiveIndicated buffers fin], rfl, by
        simp [Effect.receiving]⟩
    · cases h
  · simp only [handle, sendComplete] at h
    split at h
    · cases h
      exact ⟨rfl, .inr rfl, [], by simp, by simp⟩
    · cases h
      exact ⟨rfl, .inl (by simp), [], by simp, by simp⟩
    · cases h

end Context

/-- The open is neither aborted nor given up, and the environment lets the relay
start. -/
def Action.peaceful : Action → Bool
  | .event (.receive ..) | .event (.sendComplete _) | .event .accept => true
  | .event _ => false
  | .call _ io => io.startsRelay

/-- The sections of the accept and those of the completion do not overlap: the
callback makes a call of its SEND_COMPLETE handler only before the accept has
begun or after it has decided, and the accept begins only when the callback has
not yet begun or is through. -/
def Apart (s : System) : Action → Prop
  | .call .callback _ =>
    (s.calls .callback).head?.all Call.receives = true ∨ s.calls .ingress = [] ∨
      s.calls .ingress = [.acceptAsyncClientOpen] ∨ s.calls .ingress = [.acceptReturned true]
  | .call .ingress _ =>
    (s.calls .ingress).head? = some .acceptAsyncClientOpen → Context.Aside (s.calls .callback)
  | _ => True

instance (calls : List Call) : Decidable (Context.Aside calls) :=
  inferInstanceAs (Decidable (_ ∨ _))

instance (s : System) : ∀ a, Decidable (Apart s a)
  | .call .callback _ => inferInstanceAs (Decidable (_ ∨ _))
  | .call .ingress _ => inferInstanceAs (Decidable (_ → _))
  | .call .dial _ | .call .control _ | .event _ => inferInstanceAs (Decidable True)

/-- The invariant of the runs in which the two threads stay apart. -/
structure Converging (s : System) : Prop where
  role : s.shared.role = .clientOpen
  target : s.shared.target ≠ .dispatcher
  detached : s.shared.asyncClientOpenAccepted = true → s.shared.asyncClientOpenHandle = false
  phase : s.shared.Phase (s.calls .ingress) (s.calls .callback)
  clean : ∀ e ∈ s.shared.log, e.starting = true ∨ e.receiving = true
  dial : s.calls .dial = []
  control : s.calls .control = []

namespace Converging

variable {s s' : System}

theorem of_log {log es : List Effect} (h : ∀ e ∈ log, e.starting = true ∨ e.receiving = true)
    (hes : ∀ e ∈ es, e.starting = true ∨ e.receiving = true) :
    ∀ e ∈ log ++ es, e.starting = true ∨ e.receiving = true :=
  fun e he => (mem_append.mp he).elim (h e) (hes e)

theorem handle (h : Converging s) {e : Event} (hpeaceful : (Action.event e).peaceful = true)
    {c : Context} {cs : List Call} (hh : s.shared.handle e = some (c, cs))
    (hidle : s.calls e.thread = []) :
    Converging ({ s with shared := c }.setCalls e.thread cs) := by
  have hcallback (hthread : e.thread = .callback)
      (he : (∃ buffers fin, e = .receive buffers fin) ∨ ∃ index, e = .sendComplete index) :
      Converging ({ s with shared := c }.setCalls e.thread cs) := by
    obtain ⟨hside, haside, es, hlog, hes⟩ := Context.callback_handle h.target he hh
    obtain ⟨haccepted, -⟩ := Context.fields_of_acceptSide hside
    have hattached : c.asyncClientOpenHandle = s.shared.asyncClientOpenHandle :=
      congrArg (·.socket.asyncClientOpenHandle) hside
    have htarget : c.target = s.shared.target := congrArg AcceptSide.target hside
    rw [hthread] at hidle ⊢
    refine ⟨(Context.grows_handle hh).role.trans h.role, ?_, ?_, ?_, ?_, h.dial, h.control⟩
    · exact htarget ▸ h.target
    · exact fun accepted => hattached.trans (h.detached (haccepted.symm.trans accepted))
    · show c.Phase (s.calls .ingress) _
      rw [Pool.setCalls_calls_self]
      exact (hidle ▸ h.phase).enter hside hlog hes haside
    · show ∀ e ∈ c.log, _
      rw [hlog]
      exact of_log h.clean fun e he => .inr (hes e he)
  cases e with
  | receive buffers fin => exact hcallback rfl (.inl ⟨buffers, fin, rfl⟩)
  | sendComplete index => exact hcallback rfl (.inr ⟨index, rfl⟩)
  | accept =>
    simp only [Context.handle, Context.accept] at hh
    split at hh
    next hattached =>
      rw [Bool.and_eq_true] at hattached
      cases hh
      refine ⟨h.role, h.target, h.detached, ?_, h.clean, h.dial, h.control⟩
      have hunaccepted : s.shared.asyncClientOpenAccepted = false := by
        rw [Bool.eq_false_iff]
        intro accepted
        cases (h.detached accepted).symm.trans hattached.2
      have hidle : s.calls .ingress = [] := hidle
      show s.shared.Phase [.acceptAsyncClientOpen] (s.calls .callback)
      cases hidle ▸ h.phase with
      | outside _ completing counted =>
        exact .outside (.entering hunaccepted hattached.2) completing counted
      | accepting accepted _ _ _ => cases hunaccepted.symm.trans accepted
    · cases hh
  | startFailed | peerAborted | shutdownComplete | dialCompleted | reject | abandon
  | abortForConnectionShutdown
  | drainFromAdmin => cases hpeaceful

theorem execute (h : Converging s) {t : Thread} {io : Io} (hio : io.startsRelay = true)
    (hapart : Apart s (.call t io)) {call : Call} {rest : List Call}
    (hcalls : s.calls t = call :: rest) :
    Converging ({ s with shared := (s.shared.execute io call).1 }.setCalls t
      ((s.shared.execute io call).2 ++ rest)) := by
  have hgrows := @Context.grows_execute s.shared io call
  have hdetached : (s.shared.execute io call).1.asyncClientOpenAccepted = true →
      (s.shared.execute io call).1.asyncClientOpenHandle = false := by
    by_cases hcall : call = .acceptAsyncClientOpen
    · subst hcall
      intro _
      simp only [Context.execute, Context.acceptAsyncClientOpen]
      split
      · rfl
      next hhandle => exact Bool.eq_false_iff.mpr hhandle
    · obtain ⟨haccepted, hattached⟩ := @Context.accepted_execute s.shared io call hcall
      rw [haccepted, hattached]
      exact h.detached
  cases t with
  | callback =>
    have hphase : s.shared.Phase (s.calls .ingress) (call :: rest) := hcalls ▸ h.phase
    have hapart : call.receives = true ∨ s.calls .ingress = [] ∨
        s.calls .ingress = [.acceptAsyncClientOpen] ∨
        s.calls .ingress = [.acceptReturned true] := by
      simpa [Apart, hcalls] using hapart
    obtain ⟨hnext, es, hlog, hes⟩ := hphase.callback h.role h.detached hio hapart
    refine ⟨hgrows.role.trans h.role, Context.target_execute h.target, hdetached, ?_, ?_,
      h.dial, h.control⟩
    · show Context.Phase _ (s.calls .ingress) _
      rwa [Pool.setCalls_calls_self]
    · show ∀ e ∈ (s.shared.execute io call).1.log, _
      rw [hlog]
      exact of_log h.clean hes
  | ingress =>
    have hphase : s.shared.Phase (call :: rest) (s.calls .callback) := hcalls ▸ h.phase
    have hapart : call = .acceptAsyncClientOpen → Context.Aside (s.calls .callback) := by
      simpa [Apart, hcalls] using hapart
    obtain ⟨hnext, es, hlog, hes⟩ := hphase.ingress h.detached hio hapart
    refine ⟨hgrows.role.trans h.role, Context.target_execute h.target, hdetached, ?_, ?_,
      h.dial, h.control⟩
    · show Context.Phase _ _ (s.calls .callback)
      rwa [Pool.setCalls_calls_self]
    · show ∀ e ∈ (s.shared.execute io call).1.log, _
      rw [hlog]
      exact of_log h.clean hes
  | dial => exact absurd (h.dial.symm.trans hcalls) (by simp)
  | control => exact absurd (h.control.symm.trans hcalls) (by simp)

theorem step (h : Converging s) {a : Action} (hpeaceful : a.peaceful = true) (hapart : Apart s a)
    (hstep : Tunnel.step s a = some s') : Converging s' := by
  obtain ⟨e, c, cs, rfl, hh, hidle, rfl⟩ | ⟨t, io, call, rest, rfl, hcalls, rfl⟩ := step_cases hstep
  · exact h.handle hpeaceful hh hidle
  · exact h.execute hpeaceful hapart hcalls

theorem client (flags : UInt8) : Converging (start (.client flags)) := by
  refine ⟨rfl, by simp [start, Context.client], by simp [start, Context.client], ?_,
    by simp [start, Context.client], rfl, rfl⟩
  have hbefore : (Context.client flags).Before := ⟨⟨⟨rfl, rfl, rfl, rfl⟩, rfl, rfl⟩, rfl, rfl⟩
  exact .outside (.idle (by simp [start, Context.client]))
    (.receives (.before hbefore) (by simp [start])) rfl

/-- The relay was started once if the open was accepted and the request is out. -/
theorem started (h : Converging s) (haccepted : s.shared.asyncClientOpenAccepted = true)
    (hsent : s.shared.openSendComplete = true) (hingress : s.calls .ingress = [])
    (hcallback : ∀ call ∈ s.calls .callback, call.receives = true) :
    s.shared.relayStarted = true := by
  have hresting : s.shared.Resting := by
    cases hingress ▸ h.phase with
    | outside _ completing _ => exact completing.resting (.inl hcallback)
    | accepting accepted accepting _ _ =>
      exact (accepting.settle accepted (h.detached accepted) (.inl rfl)).2
  cases hresting with
  | before h => cases h.unaccepted.symm.trans haccepted
  | pending h => cases h.sending.symm.trans hsent
  | started h _ => exact h

theorem told (h : Converging s) (haccepted : s.shared.asyncClientOpenAccepted = true)
    (hingress : s.calls .ingress = []) :
    .acceptReturned true ∈ s.shared.log := by
  cases hingress ▸ h.phase with
  | outside outside _ _ =>
    cases outside with
    | idle told => exact told haccepted
  | accepting _ accepting _ _ =>
    cases accepting with
    | done _ told => exact told
    | starts relay => cases relay

/-- The log and the context agree on how often the relay was started. -/
theorem counted (h : Converging s) :
    ∃ calls, Context.relayStarts s.shared.log = s.shared.credit calls := by
  cases h.phase with
  | outside _ _ counted | accepting _ _ _ counted => exact ⟨_, counted⟩

end Converging

/-- What the accept of an open that succeeded should come to. -/
structure AcceptOutcome (s : System) : Prop where
  agrees : .acceptReturned false ∉ s.shared.log
  keepsSocket : .closeTcp ∉ s.shared.log
  keepsStream : ∀ intent, .shutdownStream intent ∉ s.shared.log
  once : s.shared.log.count .startRelay ≤ 1 ∧ s.shared.log.count .relayStarted ≤ 1
  returns : s.shared.asyncClientOpenAccepted = true → s.calls .ingress = [] →
    .acceptReturned true ∈ s.shared.log
  starts : s.shared.asyncClientOpenAccepted = true → s.shared.openSendComplete = true →
    s.calls .ingress = [] →
    (∀ call ∈ s.calls .callback, call.receives = true) →
    s.shared.log.count .startRelay = 1 ∧ s.shared.log.count .relayStarted = 1

theorem Converging.outcome {s : System} (h : Converging s) : AcceptOutcome s := by
  have hnot (e : Effect) (he : (e.starting || e.receiving) = false) : e ∉ s.shared.log := by
    intro hmem
    rw [Bool.or_eq_false_iff] at he
    rcases h.clean e hmem with hstarting | hreceiving
    · cases he.1.symm.trans hstarting
    · cases he.2.symm.trans hreceiving
  obtain ⟨calls, hcounted⟩ := h.counted
  have hbegun : s.shared.log.count .startRelay = (s.shared.credit calls).1 :=
    congrArg Prod.fst hcounted
  have hstarted : s.shared.log.count .relayStarted = (s.shared.credit calls).2 :=
    congrArg Prod.snd hcounted
  refine ⟨hnot _ rfl, hnot _ rfl, fun intent => hnot _ rfl, ?_, h.told, ?_⟩
  · rw [hbegun, hstarted]
    unfold Context.credit
    split
    · decide
    · split <;> decide
  · intro haccepted hsent hingress hcallback
    have hrelay := h.started haccepted hsent hingress hcallback
    rw [hbegun, hstarted]
    simp [Context.credit, hrelay]

/-- **The accept converges** if the sections of the two threads do not overlap:
the relay is started exactly once, the accept returns true, the socket is kept
and the stream is not shut down. Both threads return, since every call of theirs
lowers what remains. -/
theorem accept_converges (flags : UInt8) (as : List Action) (s : System)
    (hpeaceful : ∀ a ∈ as, a.peaceful = true) (hapart : Meets step Apart (start (.client flags)) as)
    (hrun : run step (start (.client flags)) as = some s) :
    AcceptOutcome s ∧ ∀ t io s', step s (.call t io) = some s' →
      total Call.remaining (s'.calls t) < total Call.remaining (s.calls t) := by
  have hmeets := hapart.and_forall_mem hpeaceful
  have hconverging :=
    invariant_of_meets (fun _ _ _ h hc hs => h.step hc.1 hc.2 hs)
      (Converging.client flags) hmeets hrun
  exact ⟨hconverging.outcome, fun t io s' => remaining_step⟩

/-- OPEN_OK of the server. -/
def okResponse : Bytes := [0x54, 0x51, 0x01, 0x02, 0x00, 0x00, 0x00, 0x00, 0x00]

/-- The client is told that its open succeeded. -/
def openedClient : List Action :=
  .event (.receive [okResponse] false) :: List.replicate 5 (.call .callback {})

/-- The accept leaves the relay to the completion, which starts it. -/
def acceptedClient : List Action :=
  openedClient ++ .event .accept :: List.replicate 5 (.call .ingress {}) ++
    .event (.sendComplete 0) :: List.replicate 8 (.call .callback {})

theorem acceptedClient_converges :
    ∃ s, run step (start (.client 0)) acceptedClient = some s ∧ AcceptOutcome s ∧
      s.shared.relayStarted = true ∧
      s.calls .ingress = [] ∧ s.calls .callback = [] := by
  refine run_observed (f := fun s => (s.shared.relayStarted, s.calls .ingress, s.calls .callback))
    (o := (true, [], [])) (by decide) fun s hs hobs => ?_
  simp only [Prod.mk.injEq] at hobs
  exact ⟨(accept_converges 0 acceptedClient s (by decide) (by decide) hs).1, hobs⟩

/-- The callback claims the relay between the record of the accept and its look. -/
def racedClient : List Action :=
  openedClient ++ [.event .accept, .call .ingress {}, .event (.sendComplete 0), .call .callback {},
    .call .callback {}] ++
    List.replicate 5 (.call .ingress {})

theorem accept_aborts_own_relay :
    ¬ ∀ flags as s, (∀ a ∈ as, Action.peaceful a = true) →
      run step (start (.client flags)) as = some s →
      AcceptOutcome s := by
  intro h
  have htrace : (run step (start (.client 0)) racedClient).map
      (fun s => s.shared.log.count .closeTcp) = some 1 := by
    decide +kernel
  obtain ⟨s, hs, hcloses⟩ := Option.map_eq_some_iff.mp htrace
  have houtcome := h 0 racedClient s (by decide) hs
  rw [count_eq_zero_of_not_mem houtcome.keepsSocket] at hcloses
  cases hcloses

end TcpQuicProxy.Tunnel
