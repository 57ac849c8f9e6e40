import TcpQuicProxy.RelayControl.TableRuns

/-!
# Relay handles, the runtime of the workers, and the threads that use them

A tunnel owns a relay handle. `StartRelay` starts a relay on a worker of the
runtime and publishes it in the handle; `TqRelayStop` takes the publication back,
unregisters the relay and gives up its place in the count of active relays. Stops
come from `StartRelay` itself when the stream is gone by then, from the abort of
the tunnel's connection, and from the reaper; the last two can run at the same
time. The runtime can be stopped at any moment.

Every access to shared memory is a step of its own. The plain fields of the
handle are written by one thread while others read them, as in the source.
`holders`, `homes`, `workerCalls` and the two counts in a tunnel are ghosts: the
tunnels whose relay is counted (reserved or started, and not yet released by its
first stop), the worker that registered a control, the calls that stops made on
workers, and how many starts succeeded and how many releases stops made.
-/

namespace TcpQuicProxy.RelayControl

inductive BackendType where
  | none
  | linuxWorker
  deriving DecidableEq, Repr

/-- `TqRelayLinuxCommittedState`; a worker object is a number. -/
structure CommittedState where
  workerIdentity : Nat
  relayId : Nat
  workerIndex : Nat
  control : Nat
  controlGeneration : Nat
  deriving DecidableEq, Repr

/-- What a stop has read before it clears the handle. -/
structure Captured where
  committed : Option CommittedState
  legacyWorker : Option Nat
  relayId : Nat
  control : Nat
  generation : Nat
  deriving DecidableEq, Repr

/-- Where a call of `TqRelayStop` stands. -/
inductive StopPc where
  | exchange
  /-- The exchange found no publication. -/
  | readBackend
  | capture (committed : Option CommittedState)
  | clear (c : Captured)
  | signal (c : Captured)
  | testAlive (c : Captured)
  | callRuntime (c : Captured)
  /-- Inside the worker's call, with the runtime lock held. -/
  | inRuntime
  | callLegacy (c : Captured)
  | release
  /-- The handle has no relay. -/
  | noRelay
  deriving DecidableEq, Repr

/-- Where `StartRelay` stands, from the reservation in `TqRelayStartImpl` on. -/
inductive StartPc where
  | reserve
  | startRuntime
  | pickWorker
  | makeControl (worker : Nat)
  | register (worker control : Nat)
  | checkStop (worker control relayId : Nat)
  | allocate (worker control relayId : Nat)
  | mirrors (worker control relayId : Nat)
  | publish (worker control relayId : Nat)
  | setBackend
  /-- The relay has started; the tunnel's lock is taken again. -/
  | enterRelay
  | inlineStop
  | registerReaper
  /-- A failing exit gives the reservation back. -/
  | failed
  deriving DecidableEq, Repr

inductive StopRole where
  | inline
  | abort
  | reaper
  deriving DecidableEq, Repr

/-- A tunnel context with its relay handle and the threads that work on it. -/
structure Tunnel where
  stop : Bool := false
  control : Nat
  controlGeneration : Nat := 0
  backend : BackendType := .none
  linuxWorker : Option Nat := none
  linuxRelayId : Nat := 0
  linuxWorkerIndex : Nat := 0
  linuxCommitted : Option CommittedState := none
  relayStarted : Bool := false
  inReaper : Bool := false
  terminalEscalation : Option Nat
  starter : Option StartPc := none
  stops : StopRole → Option StopPc := fun _ => none
  succeeded : Nat := 0
  released : Nat := 0

namespace Tunnel

def setStarter (t : Tunnel) (pc : Option StartPc) : Tunnel := { t with starter := pc }

def setStop (t : Tunnel) (role : StopRole) (pc : Option StopPc) : Tunnel :=
  { t with stops := Function.update t.stops role pc }

end Tunnel

structure WorkerObject where
  index : Nat
  running : Bool := true
  tables : Tables := {}

inductive RuntimeState where
  | stopped
  | running
  | stopping
  deriving DecidableEq, Repr

/-- Where `TqLinuxRelayRuntime::Stop` stands: waiting for snapshots, before the
next worker, or marking the relays of a stopped worker (active ones are also
handed off). -/
inductive RuntimeStop where
  | waiting
  | stopping (rest : List Nat)
  | marking (worker : Nat) (relays : List (RelayRef × Bool)) (rest : List Nat)
  deriving DecidableEq, Repr

inductive LockOwner where
  | runtimeStop
  | stop (tunnel : Nat) (role : StopRole)
  deriving DecidableEq, Repr

structure RelayRuntime where
  state : RuntimeState := .stopped
  workers : List Nat := []
  nextWorker : Nat := 0
  lock : Option LockOwner := none
  stop : Option RuntimeStop := none

/-- A call of a stop on a worker object: the worker that registered the handle's
control, and what the control said of the worker's endpoint at that moment. -/
structure WorkerCall where
  worker : Nat
  home : Option Nat
  endpointAlive : Bool
  deriving DecidableEq, Repr

structure Plane where
  controls : Controls := []
  /-- 64 bits wide in the source, for fewer than 2^64 controls. -/
  nextControlGeneration : Nat := 1
  workers : List WorkerObject := []
  runtime : RelayRuntime := {}
  tunnels : List Tunnel := []
  activeRelays : Nat := 0
  holders : List Nat := []
  homes : Nat → Option Nat := fun _ => none
  workerCalls : List WorkerCall := []

/-- The stop of a worker marks the control of each of its relays. -/
def Controls.endEndpoint (controls : Controls) (control : Option Nat) : Controls :=
  match control with
  | none => controls
  | some c => controls.modify c fun x => { x with workerEndpointAlive := false }

/-- What a step finds outside. -/
structure Outside where
  streamOwner : Bool := true
  /-- The number of workers that a start of the runtime brings up; `none` if it fails. -/
  runtimeWorkers : Option Nat := some 1
  /-- The worker runs a command that was posted to it. -/
  commandRuns : Bool := true
  tcpFd : Option Nat := some 5
  sinkQuicReceives : Bool := false
  answers : Tables.Answers := {}
  committedAllocated : Bool := true
  streamGone : Bool := false
  deriving DecidableEq, Repr

namespace Plane

def setTunnel (p : Plane) (h : Nat) (t : Tunnel) : Plane := { p with tunnels := p.tunnels.set h t }

def modifyControl (p : Plane) (c : Nat) (f : StopControl → StopControl) : Plane :=
  { p with controls := p.controls.modify c f }

def generation (p : Plane) (c : Nat) : Nat := p.controls.generation c

def endpointAlive (p : Plane) (c : Nat) : Bool :=
  (p.controls[c]?.map StopControl.workerEndpointAlive).getD true

def signalled (p : Plane) (c : Nat) : Bool := (p.controls[c]?.map StopControl.stop).getD false

def makeControl (p : Plane) : Plane :=
  { p with
    controls := p.controls ++ [{ generation := p.nextControlGeneration }]
    nextControlGeneration := p.nextControlGeneration + 1 }

/-- `TqRelayRegisterActive` on a counter of 32 bits. -/
def registerActive (p : Plane) (h : Nat) : Plane :=
  { p with activeRelays := (p.activeRelays + 1) % 2 ^ 32, holders := h :: p.holders }

/-- `TqRelayUnregisterActive` does not go below zero. -/
def unregisterActive (p : Plane) (h : Nat) : Plane :=
  { p with activeRelays := p.activeRelays - 1, holders := p.holders.erase h }

def modifyWorker (p : Plane) (w : Nat) (f : WorkerObject → WorkerObject) : Plane :=
  { p with workers := p.workers.modify w f }

/-- `UnregisterRelay` on a worker object; a posted command may come to nothing,
a stopped worker's tables are changed at once. -/
def workerUnregister (p : Plane) (w relayId : Nat) (commandRuns : Bool) : Plane :=
  p.modifyWorker w fun o =>
    if !o.running || commandRuns then
      { o with tables := o.tables.unregisterRelayLocal relayId } else o

/-! ### TqRelayStop -/

def recordCall (p : Plane) (w control : Nat) : Plane :=
  { p with workerCalls := p.workerCalls ++ [⟨w, p.homes control, p.endpointAlive control⟩] }

/-- One step of a stop on tunnel `h`: the new plane, the tunnel, and where the
stop stands then; `none` is its return. A stop that waits for the runtime lock
stays where it is. -/
def stopStep (p : Plane) (h : Nat) (role : StopRole) (t : Tunnel) (out : Outside) :
    StopPc → Plane × Tunnel × Option StopPc
  | .exchange =>
    (p, { t with linuxCommitted := none },
      match t.linuxCommitted with
      | none => some .readBackend
      | some k => some (.capture (some k)))
  | .readBackend => (p, t, if t.backend = .linuxWorker then some (.capture none) else some .noRelay)
  | .capture committed =>
    (p, t, match committed with
      | some k => some (.clear ⟨some k, t.linuxWorker, k.relayId, k.control, k.controlGeneration⟩)
      | none =>
        some (.clear ⟨none, t.linuxWorker, t.linuxRelayId, t.control, p.generation t.control⟩))
  | .clear c =>
    (p, { t with
      backend := .none, linuxWorker := none, linuxRelayId := 0
      linuxWorkerIndex := 0, stop := true },
      some (.signal c))
  | .signal c =>
    (p.modifyControl c.control fun x => x.signalStop c.generation, t, some (.testAlive c))
  | .testAlive c =>
    (p, t,
      if c.committed.isSome ∧ c.relayId ≠ 0 ∧ p.endpointAlive c.control = true then
        some (.callRuntime c)
      else if c.legacyWorker.isSome ∧ c.relayId ≠ 0 then some (.callLegacy c)
      else some .release)
  | .callRuntime c =>
    if p.runtime.lock.isSome then (p, t, some (.callRuntime c))
    else if p.runtime.state ≠ .running ∨ c.relayId = 0 then (p, t, some .release)
    else
      match p.runtime.workers.find? fun w =>
        (p.workers[w]?.map WorkerObject.index) == c.committed.map CommittedState.workerIndex with
      | none => (p, t, some .release)
      | some w =>
        let p := (p.recordCall w c.control).workerUnregister w c.relayId out.commandRuns
        ({ p with runtime := { p.runtime with lock := some (.stop h role) } }, t, some .inRuntime)
  | .inRuntime => ({ p with runtime := { p.runtime with lock := none } }, t, some .release)
  | .callLegacy c =>
    match c.legacyWorker with
    | none => (p, t, some .release)
    | some w =>
      ((p.recordCall w c.control).workerUnregister w c.relayId out.commandRuns, t, some .release)
  | .release => (p.unregisterActive h, { t with released := t.released + 1 }, none)
  | .noRelay =>
    let generation :=
      if t.controlGeneration ≠ 0 then t.controlGeneration else p.generation t.control
    (p.modifyControl t.control fun x => x.signalStop generation, { t with stop := true }, none)

/-! ### StartRelay -/

/-- The runtime comes up with new worker objects. -/
def startWorkers (p : Plane) (count : Nat) : Plane :=
  let count := max 1 count
  { p with
    workers := p.workers ++ (List.range count).map fun i => { index := i }
    runtime := { p.runtime with
      workers := (List.range count).map (p.workers.length + ·), nextWorker := 0
      state := .running } }

def registration (p : Plane) (c : Nat) (out : Outside) : Tables.Registration :=
  { tcpFd := if out.sinkQuicReceives then none else out.tcpFd
    stream := true
    streamOwner := true
    stopControl := some c
    controlGeneration := p.generation c
    sinkQuicReceives := out.sinkQuicReceives }

/-- The registration of control `c` runs on worker `w`: the plane and the result. -/
def register (p : Plane) (w c : Nat) (out : Outside) : Plane × Tables.RegistrationResult :=
  match p.workers[w]? with
  | none => (p, {})
  | some o =>
    if o.running && !out.commandRuns then (p, {})
    else
      let q := o.tables.registerRelayWithIdLocal p.controls (p.registration c out) out.answers
      ({ p with
          workers := p.workers.set w { o with tables := q.1 }
          controls := q.2.1
          homes := Function.update p.homes c (some w) }, q.2.2)

def workerIndex (p : Plane) (w : Nat) : Nat := (p.workers[w]?.map WorkerObject.index).getD 0

/-- One step of `StartRelay` on tunnel `h`; `none` is its return. -/
def startStep (p : Plane) (h : Nat) (t : Tunnel) (out : Outside) :
    StartPc → Plane × Tunnel × Option StartPc
  | .reserve =>
    if t.backend ≠ .none then (p, t, none) else (p.registerActive h, t, some .startRuntime)
  | .startRuntime =>
    if !out.streamOwner then (p, t, some .failed)
    else if p.runtime.lock.isSome then (p, t, some .startRuntime)
    else if p.runtime.state = .running then (p, t, some .pickWorker)
    else if p.runtime.state ≠ .stopped ∨ p.runtime.workers ≠ [] then (p, t, some .failed)
    else
      match out.runtimeWorkers with
      | none => (p, t, some .failed)
      | some count => (p.startWorkers count, t, some .pickWorker)
  | .pickWorker =>
    if p.runtime.lock.isSome then (p, t, some .pickWorker)
    else if p.runtime.state ≠ .running then (p, t, some .failed)
    else
      match p.runtime.workers[p.runtime.nextWorker % p.runtime.workers.length]? with
      | none => (p, t, some .failed)
      | some w =>
        ({ p with runtime := { p.runtime with nextWorker := p.runtime.nextWorker + 1 } }, t,
          some (.makeControl w))
  | .makeControl w => (p.makeControl, t, some (.register w p.controls.length))
  | .register w c =>
    let q := p.register w c out
    (q.1, t, if q.2.ok then some (.checkStop w c q.2.relayId) else some .failed)
  | .checkStop w c relayId =>
    if p.signalled c then (p.workerUnregister w relayId out.commandRuns, t, some .failed)
    else (p, t, some (.allocate w c relayId))
  | .allocate w c relayId =>
    if !out.committedAllocated then (p.workerUnregister w relayId out.commandRuns, t, some .failed)
    else (p, t, some (.mirrors w c relayId))
  | .mirrors w c relayId =>
    (p, { t with
        stop := false
        control := c
        controlGeneration := p.generation c
        linuxWorker := some w
        linuxRelayId := relayId
        linuxWorkerIndex := p.workerIndex w }, some (.publish w c relayId))
  | .publish w c relayId =>
    (p, { t with linuxCommitted := some ⟨w, relayId, p.workerIndex w, c, p.generation c⟩ },
      some .setBackend)
  | .setBackend =>
    (p, { t with backend := .linuxWorker, succeeded := t.succeeded + 1 }, some .enterRelay)
  | .enterRelay =>
    if out.streamGone then
      (p, t.setStop .inline (some .exchange), some .inlineStop)
    else (p, { t with relayStarted := true }, some .registerReaper)
  | .inlineStop => (p, t, if (t.stops .inline).isSome then some .inlineStop else none)
  | .registerReaper => (p, { t with inReaper := true }, none)
  | .failed => (p.unregisterActive h, t, none)

/-! ### The runtime and the workers -/

/-- One step of the runtime's stop. -/
def runtimeStep (p : Plane) (ledger sink : Bool) : RuntimeStop → Option Plane
  | .waiting =>
    if p.runtime.lock.isSome then none
    else some
      { p with
      runtime :=
        { p.runtime with lock := some .runtimeStop, stop := some (.stopping p.runtime.workers) } }
  | .stopping [] =>
    some { p with
      runtime := { state := .stopped, workers := [], nextWorker := 0, lock := none, stop := none } }
  | .stopping (w :: rest) =>
    match p.workers[w]? with
    | none => some { p with runtime := { p.runtime with stop := some (.stopping rest) } }
    | some o =>
      if !o.running then some { p with runtime := { p.runtime with stop := some (.stopping rest) } }
      else
        let relays :=
          o.tables.relays.entries.map (·, true) ++ o.tables.retired.entries.map (·, false)
        let p := p.modifyWorker w fun o => { o with running := false }
        some { p with runtime := { p.runtime with stop := some (.marking w relays rest) } }
  | .marking w ((r, active) :: relays) rest =>
    match p.workers[w]? with
    | none => none
    | some o =>
      let controls := p.controls.endEndpoint (o.tables.states r.object).stopControl
      let q := if active then
        o.tables.beginTerminalHandoff controls r ledger sink else (o.tables, controls)
      some { p with
        workers := p.workers.set w { o with tables := q.1 }
        controls := q.2
        runtime := { p.runtime with stop := some (.marking w relays rest) } }
  | .marking w [] rest =>
    let p := p.modifyWorker w fun o =>
      let tables :=
        (o.tables.relays.entries.map RelayRef.id).foldl Tables.unregisterRelayLocal o.tables
      { o with tables := { tables.purgeRetiredRelaysIfIdle true with epollFd := false } }
    some { p with runtime := { p.runtime with stop := some (.stopping rest) } }

/-- What a worker does on its own to its tables. -/
inductive WorkerTask where
  | unregister (relayId : Nat)
  | purge (queueEmpty : Bool)
  | handoff (object : Nat) (ledger sink : Bool)
  deriving DecidableEq, Repr

def workerTask (p : Plane) (w : Nat) (task : WorkerTask) : Option Plane :=
  match p.workers[w]? with
  | none => none
  | some o =>
    match task with
    | .unregister relayId =>
      some { p with
        workers := p.workers.set w { o with tables := o.tables.unregisterRelayLocal relayId } }
    | .purge queueEmpty =>
      some { p with
        workers :=
          p.workers.set w { o with tables := o.tables.purgeRetiredRelaysIfIdle queueEmpty } }
    | .handoff object ledger sink =>
      match o.tables.objects[object]? with
      | none => none
      | some r =>
        let q := o.tables.beginTerminalHandoff p.controls r ledger sink
        some { p with workers := p.workers.set w { o with tables := q.1 }, controls := q.2 }

/-! ### The machine -/

inductive HandleAction where
  /-- A tunnel context is made; its stream may be bound with an escalation object. -/
  | newTunnel (terminalEscalation : Option Nat)
  | startRelay (tunnel : Nat)
  | start (tunnel : Nat) (out : Outside)
  /-- The abort of the tunnel's connection stops a started relay. -/
  | abort (tunnel : Nat)
  /-- The reaper takes the tunnel; `ready` says that the handoff's facts are complete. -/
  | reap (tunnel : Nat) (ready : Bool)
  | stop (tunnel : Nat) (role : StopRole) (out : Outside)
  | stopRuntime
  | runtime (ledger sink : Bool)
  | worker (worker : Nat) (task : WorkerTask)

/-- `TqTunnelTerminalReleaseReady` -/
def releaseReady (p : Plane) (t : Tunnel) (ready : Bool) : Bool :=
  if t.backend = .linuxWorker then
    (p.controls[t.control]?.bind StopControl.terminalHandoff).isSome && ready
  else t.stop || p.signalled t.control

def step (p : Plane) : HandleAction → Option Plane
  | .newTunnel terminalEscalation =>
    let t : Tunnel := { control := p.controls.length, terminalEscalation }
    some { p.makeControl with tunnels := p.tunnels ++ [t] }
  | .startRelay h =>
    match p.tunnels[h]? with
    | none => none
    | some t =>
      if t.starter.isSome ∨ t.relayStarted = true then none
      else
        let p :=
          p.modifyControl t.control fun x => { x with terminalEscalation := t.terminalEscalation }
        some (p.setTunnel h (t.setStarter (some .reserve)))
  | .start h out =>
    match p.tunnels[h]? with
    | none => none
    | some t =>
      match t.starter with
      | none => none
      | some pc =>
        let q := p.startStep h t out pc
        some (q.1.setTunnel h (q.2.1.setStarter q.2.2))
  | .abort h =>
    match p.tunnels[h]? with
    | none => none
    | some t =>
      if (t.stops .abort).isSome then none
      else if t.relayStarted then some (p.setTunnel h (t.setStop .abort (some .exchange)))
      else some p
  | .reap h ready =>
    match p.tunnels[h]? with
    | none => none
    | some t =>
      if t.inReaper = false ∨ (t.stops .reaper).isSome ∨ p.releaseReady t ready = false then none
      else some (p.setTunnel h ({ t with inReaper := false }.setStop .reaper (some .exchange)))
  | .stop h role out =>
    match p.tunnels[h]? with
    | none => none
    | some t =>
      match t.stops role with
      | none => none
      | some pc =>
        let q := p.stopStep h role t out pc
        some (q.1.setTunnel h (q.2.1.setStop role q.2.2))
  | .stopRuntime =>
    if p.runtime.lock.isSome ∨ p.runtime.state ≠ .running ∨ p.runtime.stop.isSome then none
    else some { p with runtime := { p.runtime with state := .stopping, stop := some .waiting } }
  | .runtime ledger sink =>
    match p.runtime.stop with
    | none => none
    | some pc => p.runtimeStep ledger sink pc
  | .worker w task => p.workerTask w task

end Plane
end TcpQuicProxy.RelayControl
