import TcpQuicProxy.Tunnel.Context

/-!
# The threads of a tunnel

The stream callback, the thread or reactor that finishes the dial, the ingress
reactor of the client and the threads that shut connections down work on one
context. An event puts a thread that has nothing to do into a handler, and a
`call` lets a thread make its next call. MsQuic never calls back twice at the
same time for one stream, so the callback is one thread.
-/

namespace TcpQuicProxy.Tunnel

inductive Thread where
  | callback
  | dial
  | ingress
  | control
  deriving DecidableEq

def Thread.all : List Thread := [.callback, .dial, .ingress, .control]

theorem Thread.nodup_all : Thread.all.Nodup := by decide

theorem Thread.mem_all (t : Thread) : t ∈ Thread.all := by cases t <;> decide

/-- A context with the calls that its threads still have to make. -/
abbrev System := Machine.Pool Thread Context Call

inductive Event where
  -- stream callback
  | receive (buffers : List Bytes) (fin : Bool)
  | sendComplete (index : Nat)
  | startFailed
  | peerAborted
  | shutdownComplete
  -- completion of the dial
  | dialCompleted
  -- ingress reactor
  | accept
  | reject
  | abandon
  -- connection and administration
  | abortForConnectionShutdown
  | drainFromAdmin
  deriving DecidableEq

inductive Action where
  | event (e : Event)
  | call (thread : Thread) (io : Io)
  deriving DecidableEq

namespace Context

variable (c : Context)

/-- A stream of the server before its first RECEIVE. -/
def server : Context := { role := .serverOpen, target := .dispatcher }

/-- A tunnel of the client whose OPEN request is on its way. -/
def client (flags : UInt8) : Context where
  role := .clientOpen
  target := .context
  tcpFd := true
  asyncClientOpenHandle := true
  asyncClientOpenFlags := flags
  sends := [.context]

/-- A tunnel context exists, and the connection and the admin know it. -/
def registered : Bool := c.target ≠ .dispatcher && c.target ≠ .foreign

/-- What peer aborts and SHUTDOWN_COMPLETE have in common. -/
@[simp] def abortCalls : List Call :=
  match c.role with
  | .clientOpen => [.cancelServerDial, .tryCompleteClientOpen, .completeOpen false]
  | .serverOpen => [.cancelServerDial, .completeOpen false]

/-- The handler of a RECEIVE event. A relay has a handler of its own. -/
@[simp] def receive (buffers : List Bytes) (fin : Bool) : Option (Context × List Call) :=
  let c' := c.emit (.receiveIndicated buffers fin)
  let bytes := buffers.flatten
  match c.target with
  | .dispatcher => some (c', [.dispatch bytes, .returnSuccess bytes.length])
  | .context => some (c', [.onReceive bytes, .returnSuccess bytes.length])
  | .relay => some (c'.emit (.relayReceive buffers fin false), [])
  | .foreign => some (c', [.returnSuccess bytes.length])
  | .gone => none

/-- A completion goes to the target that the send was registered for. -/
@[simp] def sendComplete (index : Nat) : Option (Context × List Call) :=
  match c.sends[index]? with
  | some .context => some ({ c with sends := c.sends.eraseIdx index }, [.onSendComplete])
  | some _ => some ({ c with sends := c.sends.eraseIdx index }, [])
  | none => none

@[simp] def startFailed : Option (Context × List Call) :=
  if c.role = .clientOpen && c.target = .context then
    some ({ c with target := .gone }, [.completeOpen false, .noteStartFailure])
  else none

@[simp] def peerAborted : Option (Context × List Call) :=
  match c.target with
  | .context => some (c, c.abortCalls)
  | .gone => none
  | _ => some (c, [])

@[simp] def streamShutdownComplete : Option (Context × List Call) :=
  match c.target with
  | .context => some ({ c with target := .gone }, c.abortCalls ++ [.noteShutdownComplete])
  | .gone => none
  | _ => some ({ c with target := .gone }, [])

@[simp] def dialCompleted : Option (Context × List Call) :=
  match c.dialRequest with
  | some (.reactor, flags) =>
    some ({ c with dialRequest := none }, [.beginServerDialCallback flags])
  | some (.thread, flags) =>
    some ({ c with dialRequest := none }, [.finishServerOpen .thread flags, .serverOpenFinished])
  | none => none

/-- The ingress reactor accepts an open once, after it was told of its success. -/
@[simp] def accept : Option (Context × List Call) :=
  if .openComplete true ∈ c.log && c.asyncClientOpenHandle then
    some (c, [.acceptAsyncClientOpen]) else none

/-- What an event changes at once and the calls of its handler. -/
def handle : Event → Option (Context × List Call)
  | .receive buffers fin => c.receive buffers fin
  | .sendComplete index => c.sendComplete index
  | .startFailed => c.startFailed
  | .peerAborted => c.peerAborted
  | .shutdownComplete => c.streamShutdownComplete
  | .dialCompleted => c.dialCompleted
  | .accept => c.accept
  | .reject => some (c.rejectAsyncClientOpen, [])
  | .abandon => some (c.abandonAsyncClientOpenWithoutClosingTcp, [])
  | .abortForConnectionShutdown => if c.registered then some c.abortForConnectionShutdown else none
  | .drainFromAdmin => if c.registered then some (c.drainFromAdmin, []) else none

end Context

def Event.thread : Event → Thread
  | .receive .. | .sendComplete _ | .startFailed | .peerAborted | .shutdownComplete => .callback
  | .dialCompleted => .dial
  | .accept | .reject | .abandon => .ingress
  | .abortForConnectionShutdown | .drainFromAdmin => .control

def start (c : Context) : System := { shared := c, calls := fun _ => [] }

def step (s : System) : Action → Option System
  | .event e => (s.shared.handle e).bind fun r => { s with shared := r.1 }.enter e.thread r.2
  | .call thread io => s.advance (·.execute io) thread

variable {s s' : System} {a : Action} {c : Context}

/-- Every step enters a handler or makes one call of one thread. -/
theorem step_cases (h : step s a = some s') :
    (∃ e c cs, a = .event e ∧ s.shared.handle e = some (c, cs) ∧ s.calls e.thread = [] ∧
      s' = { s with shared := c }.setCalls e.thread cs) ∨
    (∃ t io call rest, a = .call t io ∧ s.calls t = call :: rest ∧
      s' = { s with shared := (s.shared.execute io call).1 }.setCalls t
      ((s.shared.execute io call).2 ++ rest)) := by
  cases a with
  | event e =>
    obtain ⟨⟨c, cs⟩, hh, he⟩ := Option.bind_eq_some_iff.mp h
    obtain ⟨hidle, rfl⟩ := Machine.Pool.enter_eq_some he
    exact .inl ⟨e, c, cs, rfl, hh, hidle, rfl⟩
  | call t io =>
    have h : s.advance (·.execute io) t = some s' := h
    obtain ⟨call, rest, hcalls, rfl⟩ := Machine.Pool.advance_eq_some h
    exact .inr ⟨t, io, call, rest, rfl, hcalls, rfl⟩

/-! ### What no step undoes -/

/-- The log only grows, the role is fixed, a stream that went down stays down,
and what a run has dispatched, started or accepted stays so. -/
structure Context.Grows (c c' : Context) : Prop where
  role : c'.role = c.role
  log : c.log <+: c'.log
  down : c.isAbortedOrShutdown → c'.isAbortedOrShutdown
  dispatched : c.serverOpenDispatched → c'.serverOpenDispatched
  started : c.relayStarted → c'.relayStarted
  handle : c'.asyncClientOpenHandle → c.asyncClientOpenHandle

theorem Context.grows_execute {io : Io} {call : Call} : c.Grows (c.execute io call).1 := by
  cases call with
  | startRelayReturned ok caller =>
    cases ok <;> cases caller <;> constructor <;> simp [execute]
  | noteStartFailure | noteShutdownComplete =>
    -- from here on the stream is down
    constructor <;> simp_all [execute, isAbortedOrShutdown]
  | _ =>
    dsimp [execute]
    repeat' split
    all_goals constructor
    all_goals simp_all [isAbortedOrShutdown, emit]
    all_goals grind

theorem Context.grows_handle {e : Event} {r : Context × List Call} (h : c.handle e = some r) :
    c.Grows r.1 := by
  cases e with
  | receive buffers fin | sendComplete index | startFailed | peerAborted | shutdownComplete
  | dialCompleted | accept =>
    -- what goes down or is dispatched waits for the calls of the handler
    dsimp [handle] at h
    (repeat' split at h) <;> cases h <;> constructor <;> simp_all [isAbortedOrShutdown, emit]
  | reject | abandon =>
    cases h
    constructor <;> simp_all [isAbortedOrShutdown] <;> grind
  | abortForConnectionShutdown | drainFromAdmin =>
    dsimp [handle] at h
    (repeat' split at h) <;> cases h <;> constructor <;> simp_all [isAbortedOrShutdown]

theorem grows_step (h : step s a = some s') : s.shared.Grows s'.shared := by
  obtain ⟨e, c, cs, rfl, hh, -, rfl⟩ | ⟨t, io, call, rest, rfl, -, rfl⟩ := step_cases h
  · exact Context.grows_handle hh
  · exact Context.grows_execute

/-! ### Tokens along a step -/

/-- A measure of the context and of the outstanding calls that no handler and no
call increases by more than `gain` grows by at most that in a step. -/
theorem potential_step {measure : Context → Nat} {weight : Call → Nat} {gain : Nat}
    (h : step s a = some s')
    (hevent : ∀ e r, a = .event e → s.shared.handle e = some r →
      measure r.1 + Machine.total weight r.2 ≤ measure s.shared + gain)
    (hcall : ∀ t io call rest, a = .call t io → s.calls t = call :: rest →
      measure (s.shared.execute io call).1 + Machine.total weight (s.shared.execute io call).2 ≤
        measure s.shared + weight call + gain) :
    s'.potential Thread.all measure weight ≤ s.potential Thread.all measure weight + gain := by
  obtain ⟨e, c, cs, rfl, hh, hidle, rfl⟩ | ⟨t, io, call, rest, rfl, hcalls, rfl⟩ := step_cases h
  · have hgain : measure c + Machine.total weight cs ≤ measure s.shared + gain :=
      hevent e (c, cs) rfl hh
    have heq :=
      @Machine.Pool.potential_enter _ _ _ _ s _ _ weight measure Thread.nodup_all
        (Thread.mem_all e.thread)
      hidle c cs
    omega
  · have hgain := hcall t io call rest rfl hcalls
    have heq :=
      @Machine.Pool.potential_advance _ _ _ _ s _ _ _ _ weight measure Thread.nodup_all
        (Thread.mem_all t)
      hcalls (s.shared.execute io call).1 (s.shared.execute io call).2
    omega

end TcpQuicProxy.Tunnel
