import TcpQuicProxy.RelayControl.Accounting

/-!
# Which worker has which control

A start makes a control of its own and registers it with one worker; that worker
is the control's home. Every relay object of a worker has a control whose home
the worker is, so when the runtime stops a worker and marks the controls of its
relays, only controls at home there lose their endpoint. While the runtime is
running, all of its workers are.

`Change` lists what a step of the plane can do; most steps leave the parts of
controls and workers that matter here as they are.
-/

namespace TcpQuicProxy.RelayControl

open Machine List Option Tables

/-! ### What the operations on tables leave alone -/

/-- The part of a control that stop signals do not change. -/
def StopControl.face (x : StopControl) : Bool × Option TerminalHandoff × Option Nat :=
  (x.workerEndpointAlive, x.terminalHandoff, x.terminalEscalation)

theorem blind_face : Tables.Blind StopControl.face := by
  intro x expected
  unfold StopControl.signalStop
  split <;> rfl

/-- The part of a worker that the removal of relays does not change. -/
def WorkerObject.face (o : WorkerObject) : Bool × (Nat → Option Nat) × List Shutdown :=
  (o.running, fun i => (o.tables.states i).stopControl, o.tables.shutdowns)

namespace Tables

variable {t : Tables} {controls : Controls} {r : RelayRef}

@[simp] theorem shutdowns_closeSocket (object : Nat) :
    (t.closeSocket object).shutdowns = t.shutdowns := by
  unfold closeSocket
  split <;> rfl

theorem shutdowns_unregisterRelayLocal (relayId : Nat) :
    (t.unregisterRelayLocal relayId).shutdowns = t.shutdowns := by
  unfold unregisterRelayLocal
  split
  · rfl
  · dsimp only
    split <;> simp [setState, leave]

theorem stopControl_unregisterRelayLocal (relayId i : Nat) :
    ((t.unregisterRelayLocal relayId).states i).stopControl = (t.states i).stopControl := by
  rcases t.unregisterRelayLocal_cases relayId with ⟨-, heq⟩ | ⟨r, -, -, -, hq⟩
  · rw [heq]
  · exact hq.stopControl i

theorem face_unregister (o : WorkerObject) (relayId : Nat) :
    WorkerObject.face { o with tables := o.tables.unregisterRelayLocal relayId } = o.face := by
  simp only [WorkerObject.face, shutdowns_unregisterRelayLocal, stopControl_unregisterRelayLocal]

theorem face_unregister_all (o : WorkerObject) (ids : List Nat) :
    WorkerObject.face { o with tables := ids.foldl Tables.unregisterRelayLocal o.tables } =
      o.face := by
  induction ids generalizing o with
  | nil => rfl
  | cons relayId ids ih =>
    exact (ih { o with tables := o.tables.unregisterRelayLocal relayId }).trans
      (face_unregister o relayId)

theorem face_purge (o : WorkerObject) (queueEmpty : Bool) :
    WorkerObject.face { o with tables := o.tables.purgeRetiredRelaysIfIdle queueEmpty } =
      o.face := by
  unfold purgeRetiredRelaysIfIdle
  split <;> rfl

/-- A registration gives no object a control but the registration's own. -/
theorem stopControl_register (reg : Registration) (ans : Answers) (i : Nat) :
    ((t.registerRelayWithIdLocal controls reg ans).1.states i).stopControl =
      (t.states i).stopControl ∨
      ((t.registerRelayWithIdLocal controls reg ans).1.states i).stopControl = reg.stopControl := by
  unfold registerRelayWithIdLocal
  split
  · exact .inl rfl
  split
  · exact .inl rfl
  dsimp only
  split
  · exact .inl rfl
  split
  · exact .inl rfl
  split
  · exact .inl rfl
  have henter : ∀ (u : Tables) (r : RelayRef) (s : RelayState), s.stopControl = reg.stopControl →
      ((u.enter r s).states i).stopControl = (u.states i).stopControl ∨
        ((u.enter r s).states i).stopControl = reg.stopControl := by
    intro u r s hs
    by_cases hi : i = r.object
    · subst hi
      exact .inr (by simpa [enter] using hs)
    · exact .inl (by simp [enter, hi])
  rcases commitRegistration_cases reg ans with ⟨-, hq⟩ | ⟨-, -, hq⟩
  · rw [hq.stopControl i]
    exact henter _ _ _ rfl
  · rw [hq.stopControl i]
    exact henter _ _ _ rfl

end Tables

/-! ### What a step can do -/

/-- The worker and the control that a start has registered and not yet published. -/
def StartPc.carries : StartPc → Option (Nat × Nat)
  | .checkStop w c _ | .allocate w c _ | .mirrors w c _ | .publish w c _ => some (w, c)
  | _ => none

namespace Tunnel

def carries (t : Tunnel) : Option (Nat × Nat) := t.starter.bind StartPc.carries

/-- The tunnel goes on with the control it has; its start does not reach the
registration, and nothing is published. -/
structure Follows (t t' : Tunnel) : Prop where
  control : t'.control = t.control
  entering : ∀ w c, t'.starter = some (.register w c) → t.starter = some (.register w c)
  carries : t'.carries = none ∨ t'.carries = t.carries
  committed : t'.linuxCommitted = none ∨ t'.linuxCommitted = t.linuxCommitted

theorem Follows.refl (t : Tunnel) : Follows t t := ⟨rfl, fun _ _ h => h, .inr rfl, .inr rfl⟩

end Tunnel

def RelayRuntime.core (r : RelayRuntime) : RuntimeState × List Nat × Option RuntimeStop :=
  (r.state, r.workers, r.stop)

namespace Plane

variable {p p' : Plane}

def view (p : Plane) :
    List (Bool × Option TerminalHandoff × Option Nat) ×
      List (Bool × (Nat → Option Nat) × List Shutdown) ×
    (Nat → Option Nat) :=
  (p.controls.map StopControl.face, p.workers.map WorkerObject.face, p.homes)

inductive Change (p p' : Plane) : Prop where
  | calm (hview : p'.view = p.view) (hcore : p'.runtime.core = p.runtime.core)
    (hfollows : ∀ (h : Nat) (t' : Tunnel), p'.tunnels[h]? = some t' →
      ∃ t, p.tunnels[h]? = some t ∧ t.Follows t')
  | newTunnel (terminalEscalation : Option Nat)
    (heq : p' = { p.makeControl with
      tunnels := p.tunnels ++ [{ control := p.controls.length, terminalEscalation }] })
  | startRelay (h : Nat) (t : Tunnel) (ht : p.tunnels[h]? = some t)
    (heq : p' = (p.modifyControl t.control fun x =>
      { x with terminalEscalation := t.terminalEscalation }).setTunnel h
      (t.setStarter (some .reserve)))
  | startWorkers (h : Nat) (t : Tunnel) (count : Nat) (ht : p.tunnels[h]? = some t)
      (hstate : p.runtime.state = .stopped)
    (heq : p' = (p.startWorkers count).setTunnel h (t.setStarter (some .pickWorker)))
  | makeControl (h : Nat) (t : Tunnel) (w : Nat) (ht : p.tunnels[h]? = some t)
    (heq : p' = p.makeControl.setTunnel h (t.setStarter (some (.register w p.controls.length))))
  | register (h : Nat) (t : Tunnel) (w c : Nat) (out : Outside) (ht : p.tunnels[h]? = some t)
    (hs : t.starter = some (.register w c))
    (heq : p' = (p.register w c out).1.setTunnel h
      (t.setStarter (if (p.register w c out).2.ok then
        some (.checkStop w c (p.register w c out).2.relayId) else some .failed)))
  | mirrors (h : Nat) (t : Tunnel) (w c relayId : Nat) (ht : p.tunnels[h]? = some t)
    (hs : t.starter = some (.mirrors w c relayId))
    (heq : p' = p.setTunnel h { t with
      stop := false
      control := c
      controlGeneration := p.generation c
      linuxWorker := some w
      linuxRelayId := relayId
      linuxWorkerIndex := p.workerIndex w
      starter := some (.publish w c relayId) })
  | publish (h : Nat) (t : Tunnel) (w c relayId : Nat) (ht : p.tunnels[h]? = some t)
    (hs : t.starter = some (.publish w c relayId))
    (heq : p' = p.setTunnel h { t with
      linuxCommitted := some ⟨w, relayId, p.workerIndex w, c, p.generation c⟩
      starter := some .setBackend })
  | stopRuntime (hstate : p.runtime.state = .running)
    (heq : p' = { p with runtime := { p.runtime with state := .stopping, stop := some .waiting } })
  | runtime (ledger sink : Bool) (pc : RuntimeStop) (hstop : p.runtime.stop = some pc)
    (hstep : p.runtimeStep ledger sink pc = some p')
  | handoff (w : Nat) (o : WorkerObject) (r : RelayRef) (ledger sink : Bool)
      (ho : p.workers[w]? = some o)
    (heq : p' = { p with
      workers :=
        p.workers.set w
          { o with tables := (o.tables.beginTerminalHandoff p.controls r ledger sink).1 }
      controls := (o.tables.beginTerminalHandoff p.controls r ledger sink).2 })

theorem view_workerUnregister (p : Plane) (w relayId : Nat) (commandRuns : Bool) :
    (p.workerUnregister w relayId commandRuns).view = p.view := by
  have hworkers : (p.workerUnregister w relayId commandRuns).workers.map WorkerObject.face =
      p.workers.map WorkerObject.face := by
    refine map_modify_eq p.workers w fun o => ?_
    split
    · exact face_unregister o relayId
    · rfl
  exact congrArg (fun workers => (p.controls.map StopControl.face, workers, p.homes)) hworkers

theorem view_signal (p : Plane) (c generation : Nat) :
    (p.modifyControl c fun x => x.signalStop generation).view = p.view := by
  have hcontrols : (p.controls.modify c fun x => x.signalStop generation).map StopControl.face =
      p.controls.map StopControl.face :=
    map_modify_eq p.controls c fun x => blind_face x generation
  exact congrArg (fun controls => (controls, p.workers.map WorkerObject.face, p.homes)) hcontrols

variable {c h w : Nat} {t t' : Tunnel} {o o' : WorkerObject} {tables : Tables}

/-- A step that leaves the view alone and moves one tunnel on. -/
theorem Change.of_follows {q : Plane} (ht : p.tunnels[h]? = some t) (hview : q.view = p.view)
    (hcore : q.runtime.core = p.runtime.core) (htunnels : q.tunnels = p.tunnels)
    (hfollows : t.Follows t') :
    Change p (q.setTunnel h t') := by
  refine .calm hview hcore fun h' u hu => ?_
  rw [setTunnel, htunnels] at hu
  rcases Machine.getElem?_set_cases hu with ⟨rfl, rfl⟩ | ⟨-, hu⟩
  · exact ⟨t, ht, hfollows⟩
  · exact ⟨u, hu, Tunnel.Follows.refl u⟩

/-- A step that changes no tunnel and leaves the view alone. -/
theorem Change.of_view (hview : p'.view = p.view) (hcore : p'.runtime.core = p.runtime.core)
    (htunnels : p'.tunnels = p.tunnels) :
    Change p p' :=
  .calm hview hcore fun _ t' ht' => ⟨t', htunnels ▸ ht', Tunnel.Follows.refl t'⟩

theorem stopStep_view (p : Plane) (h : Nat) (role : StopRole) (t : Tunnel) (out : Outside)
    (pc : StopPc) :
    (p.stopStep h role t out pc).1.view = p.view ∧
      (p.stopStep h role t out pc).1.runtime.core = p.runtime.core := by
  cases pc with
  | signal c => exact ⟨view_signal p c.control c.generation, rfl⟩
  | noRelay => exact ⟨view_signal p _ _, rfl⟩
  | callRuntime c =>
    simp only [stopStep]
    split
    · exact ⟨rfl, rfl⟩
    · split
      · exact ⟨rfl, rfl⟩
      · split
        · exact ⟨rfl, rfl⟩
        · exact ⟨view_workerUnregister (p.recordCall _ c.control) _ _ _, rfl⟩
  | callLegacy c =>
    simp only [stopStep]
    split
    · exact ⟨rfl, rfl⟩
    · exact ⟨view_workerUnregister (p.recordCall _ c.control) _ _ _, rfl⟩
  | _ => exact ⟨rfl, rfl⟩

theorem stopStep_follows (p : Plane) (h : Nat) (role : StopRole) (t : Tunnel) (out : Outside)
    (pc : StopPc) (q : Option StopPc) :
    t.Follows ((p.stopStep h role t out pc).2.1.setStop role q) := by
  cases pc with
  | exchange => exact ⟨rfl, fun _ _ hs => hs, .inr rfl, .inl rfl⟩
  | callRuntime c =>
    simp only [stopStep]
    split
    · exact ⟨rfl, fun _ _ hs => hs, .inr rfl, .inr rfl⟩
    · split
      · exact ⟨rfl, fun _ _ hs => hs, .inr rfl, .inr rfl⟩
      · split <;> exact ⟨rfl, fun _ _ hs => hs, .inr rfl, .inr rfl⟩
  | callLegacy c =>
    simp only [stopStep]
    split <;> exact ⟨rfl, fun _ _ hs => hs, .inr rfl, .inr rfl⟩
  | _ => exact ⟨rfl, fun _ _ hs => hs, .inr rfl, .inr rfl⟩

theorem start_change {spc : StartPc} (out : Outside) (ht : p.tunnels[h]? = some t)
    (hs : t.starter = some spc) :
    Change p ((p.startStep h t out spc).1.setTunnel h
      ((p.startStep h t out spc).2.1.setStarter (p.startStep h t out spc).2.2)) := by
  have hmove : ∀ {q : Plane} {next : Option StartPc}, q.view = p.view →
      q.runtime.core = p.runtime.core → q.tunnels = p.tunnels →
      (∀ w c, next ≠ some (.register w c)) →
        (next.bind StartPc.carries = none ∨ next.bind StartPc.carries = t.carries) →
      Change p (q.setTunnel h (t.setStarter next)) := by
    intro q next hview hcore htunnels hnext hcarries
    exact .of_follows ht hview hcore htunnels
      ⟨rfl, fun w c hr => absurd hr (hnext w c), hcarries, .inr rfl⟩
  cases spc with
  | reserve | inlineStop =>
    simp only [startStep]
    split <;> exact hmove rfl rfl rfl (by simp) (.inl rfl)
  | startRuntime =>
    simp only [startStep]
    split
    · exact hmove rfl rfl rfl (by simp) (.inl rfl)
    split
    · exact hmove rfl rfl rfl (by simp) (.inl rfl)
    split
    · exact hmove rfl rfl rfl (by simp) (.inl rfl)
    split
    · exact hmove rfl rfl rfl (by simp) (.inl rfl)
    rename_i hstopped
    split
    · exact hmove rfl rfl rfl (by simp) (.inl rfl)
    · exact .startWorkers h t _ ht (not_not.mp fun hne => hstopped (.inl hne)) rfl
  | pickWorker =>
    simp only [startStep]
    split
    · exact hmove rfl rfl rfl (by simp) (.inl rfl)
    split
    · exact hmove rfl rfl rfl (by simp) (.inl rfl)
    split <;> exact hmove rfl rfl rfl (by simp) (.inl rfl)
  | makeControl w => exact .makeControl h t w ht rfl
  | register w c => exact .register h t w c out ht hs rfl
  | checkStop w c relayId | allocate w c relayId =>
    have hcarries : t.carries = some (w, c) := by simp [Tunnel.carries, hs, StartPc.carries]
    simp only [startStep]
    split
    · exact hmove (view_workerUnregister p w relayId _) rfl rfl (by simp) (.inl rfl)
    · exact hmove rfl rfl rfl (by simp) (.inr hcarries.symm)
  | mirrors w c relayId => exact .mirrors h t w c relayId ht hs rfl
  | publish w c relayId => exact .publish h t w c relayId ht hs rfl
  | enterRelay =>
    simp only [startStep]
    split
    · exact .of_follows ht rfl rfl rfl ⟨rfl, fun _ _ hr => (by cases hr), .inl rfl, .inr rfl⟩
    · exact .of_follows ht rfl rfl rfl ⟨rfl, fun _ _ hr => (by cases hr), .inl rfl, .inr rfl⟩
  | setBackend | registerReaper =>
    exact .of_follows ht rfl rfl rfl ⟨rfl, fun _ _ hr => (by cases hr), .inl rfl, .inr rfl⟩
  | failed => exact hmove rfl rfl rfl (fun _ _ hr => by cases hr) (.inl rfl)

theorem worker_change {task : WorkerTask} (hstep : p.workerTask w task = some p') :
    Change p p' := by
  unfold workerTask at hstep
  split at hstep
  · cases hstep
  · rename_i o ho
    have hset : ∀ o' : WorkerObject, o'.face = o.face →
        Change p { p with workers := p.workers.set w o' } := by
      intro o' hface
      have hworkers : (p.workers.set w o').map WorkerObject.face =
          p.workers.map WorkerObject.face := map_set_eq ho hface
      exact .of_view (congrArg (fun workers => (p.controls.map StopControl.face, workers, p.homes))
        hworkers) rfl rfl
    split at hstep
    · cases hstep
      exact hset _ (face_unregister o _)
    · cases hstep
      exact hset _ (face_purge o _)
    · split at hstep
      · cases hstep
      · cases hstep
        exact .handoff w o _ _ _ ho rfl

theorem step_change {a : HandleAction} (hstep : p.step a = some p') : Change p p' := by
  cases takes_of_step hstep with
  | newTunnel terminalEscalation => exact .newTunnel terminalEscalation rfl
  | startRelay tunnel => exact .startRelay _ _ tunnel rfl
  | start tunnel starter => exact start_change _ tunnel starter
  | abort tunnel | reap tunnel =>
    exact .of_follows tunnel rfl rfl rfl ⟨rfl, fun _ _ hs => hs, .inr rfl, .inr rfl⟩
  | abortUnstarted => exact .of_view rfl rfl rfl
  | @stop h t role out pc tunnel =>
    obtain ⟨hview, hcore⟩ := p.stopStep_view h role t out pc
    exact .of_follows tunnel hview hcore (p.stopStep_accounts h role t out pc).2.2.1
      (p.stopStep_follows h role t out pc _)
  | stopRuntime state => exact .stopRuntime state rfl
  | @runtime ledger sink pc _ stop step => exact .runtime ledger sink pc stop step
  | worker step => exact worker_change step

/-! ### Homes -/

/-- The start of tunnel `h` is about to register control `c` with worker `w`. -/
def Entering (p : Plane) (h w c : Nat) : Prop :=
  ∃ t, p.tunnels[h]? = some t ∧ t.starter = some (.register w c)

structure Homes (p : Plane) : Prop where
  /-- The control of a worker's relay object is at home there. -/
  homed : ∀ (w : Nat) (o : WorkerObject) (i c : Nat), p.workers[w]? = some o →
    (o.tables.states i).stopControl = some c →
    p.homes c = some w
  known : ∀ c w, p.homes c = some w → c < p.controls.length
  /-- Only the stop of a worker ends an endpoint. -/
  ended : ∀ c, p.endpointAlive c = false →
    ∃ (w : Nat) (o : WorkerObject), p.homes c = some w ∧ p.workers[w]? = some o ∧ o.running = false
  up : p.runtime.state = .running →
    ∀ w ∈ p.runtime.workers, ∃ o, p.workers[w]? = some o ∧ o.running = true
  stopping : p.runtime.stop ≠ none → p.runtime.state = .stopping
  marking : ∀ w relays rest, p.runtime.stop = some (.marking w relays rest) →
    ∃ o, p.workers[w]? = some o ∧ o.running = false
  /-- A control that is about to be registered has no home yet, and one start has it. -/
  fresh : ∀ h w c, p.Entering h w c → p.homes c = none ∧ c < p.controls.length
  once : ∀ h h' w w' c, p.Entering h w c → p.Entering h' w' c → h = h'

theorem homes_start : Homes {} where
  homed := by simp
  known := by simp
  ended := by simp [endpointAlive]
  up := by simp
  stopping := by simp
  marking := by simp
  fresh := by simp [Entering]
  once := by simp [Entering]

theorem entering_set {h' : Nat} (htunnels : p'.tunnels = p.tunnels.set h t')
    (hentering : p'.Entering h' w c) :
    (h' = h ∧ t'.starter = some (.register w c)) ∨ (h' ≠ h ∧ p.Entering h' w c) := by
  obtain ⟨u, hu, hstarter⟩ := hentering
  rw [htunnels] at hu
  rcases Machine.getElem?_set_cases hu with ⟨rfl, rfl⟩ | ⟨hne, hu⟩
  · exact .inl ⟨rfl, hstarter⟩
  · exact .inr ⟨hne, u, hu, hstarter⟩

/-- A tunnel that is not about to register leaves no new start entering. -/
theorem entering_of_set {h' : Nat} (htunnels : p'.tunnels = p.tunnels.set h t')
    (hnot : ∀ w c, t'.starter ≠ some (.register w c)) (hentering : p'.Entering h' w c) :
    h' ≠ h ∧ p.Entering h' w c := by
  rcases entering_set htunnels hentering with ⟨-, hs⟩ | hold
  · exact absurd hs (hnot w c)
  · exact hold

/-- The workers of `p` are still there, a stopped one is still stopped, and no
object has a control that it did not have before. -/
structure Older (p p' : Plane) : Prop where
  kept : ∀ (w : Nat) (o : WorkerObject), p.workers[w]? = some o →
    ∃ o', p'.workers[w]? = some o' ∧ (o.running = false → o'.running = false)
  controlled : ∀ (w : Nat) (o' : WorkerObject) (i c : Nat), p'.workers[w]? = some o' →
    (o'.tables.states i).stopControl = some c →
    ∃ o, p.workers[w]? = some o ∧ (o.tables.states i).stopControl = some c

theorem faces_getElem?
    (hworkers : p'.workers.map WorkerObject.face = p.workers.map WorkerObject.face)
    (ho : p.workers[w]? = some o) : ∃ o', p'.workers[w]? = some o' ∧ o'.face = o.face := by
  have hw : p'.workers[w]?.map WorkerObject.face = some o.face := by
    rw [← getElem?_map, hworkers, getElem?_map, ho]
    rfl
  exact map_eq_some_iff.mp hw

theorem running_of_face (hface : o'.face = o.face) : o'.running = o.running :=
  congrArg Prod.fst hface

theorem stopControl_of_face (hface : o'.face = o.face) (i : Nat) :
    (o'.tables.states i).stopControl = (o.tables.states i).stopControl :=
  congrFun (congrArg (fun face => face.2.1) hface) i

theorem Older.of_faces
    (hworkers : p'.workers.map WorkerObject.face = p.workers.map WorkerObject.face) :
    Older p p' := by
  refine ⟨fun w o ho => ?_, fun w o' i c ho' hc => ?_⟩
  · obtain ⟨o', ho', hface⟩ := faces_getElem? hworkers ho
    exact ⟨o', ho', fun hr => (running_of_face hface).trans hr⟩
  · obtain ⟨o, ho, hface⟩ := faces_getElem? hworkers.symm ho'
    exact ⟨o, ho, (stopControl_of_face hface i).trans hc⟩

/-- Homes are kept by a step that registers nothing and lets no start enter. -/
theorem Homes.of_older (hh : Homes p) (hhomes : p'.homes = p.homes)
    (hlength : p.controls.length ≤ p'.controls.length) (holder : Older p p')
    (halive : ∀ c, p'.endpointAlive c = false →
      p.endpointAlive c = false ∨ ∃ (w : Nat) (o : WorkerObject), p.homes c = some w ∧
        p.workers[w]? = some o ∧ o.running = false)
    (hup : p'.runtime.state = .running →
      ∀ w ∈ p'.runtime.workers, ∃ o, p'.workers[w]? = some o ∧ o.running = true)
    (hstopping : p'.runtime.stop ≠ none → p'.runtime.state = .stopping)
    (hmarking : ∀ w relays rest, p'.runtime.stop = some (.marking w relays rest) →
      ∃ o, p'.workers[w]? = some o ∧ o.running = false)
    (hentering : ∀ h w c, p'.Entering h w c → p.Entering h w c) : Homes p' where
  homed w o' i c ho' hc := by
    obtain ⟨o, ho, hc⟩ := holder.controlled w o' i c ho' hc
    rw [hhomes]
    exact hh.homed w o i c ho hc
  known c w hc := (hh.known c w (hhomes ▸ hc)).trans_le hlength
  ended c hc := by
    have hended : ∃ (w : Nat) (o : WorkerObject), p.homes c = some w ∧ p.workers[w]? = some o ∧
        o.running = false := by
      rcases halive c hc with hold | hnew
      · exact hh.ended c hold
      · exact hnew
    obtain ⟨w, o, hw, ho, hr⟩ := hended
    obtain ⟨o', ho', hr'⟩ := holder.kept w o ho
    exact ⟨w, o', hhomes ▸ hw, ho', hr' hr⟩
  up := hup
  stopping := hstopping
  marking := hmarking
  fresh h w c he := by
    obtain ⟨hnone, hlt⟩ := hh.fresh h w c (hentering h w c he)
    exact ⟨hhomes ▸ hnone, hlt.trans_le hlength⟩
  once h h' w w' c he he' := hh.once h h' w w' c (hentering h w c he) (hentering h' w' c he')

theorem alive_of_same (hsame : Tables.Same StopControl.workerEndpointAlive p.controls p'.controls)
    (c : Nat) :
    p'.endpointAlive c = p.endpointAlive c := by
  unfold endpointAlive
  rw [hsame.getElem? c]

theorem same_alive_of_face
    (hface : p'.controls.map StopControl.face = p.controls.map StopControl.face) :
    Tables.Same StopControl.workerEndpointAlive p.controls p'.controls := by
  have hfirst := congrArg (List.map Prod.fst) hface
  rw [List.map_map, List.map_map] at hfirst
  exact hfirst

/-- ... and in particular by one that leaves the workers' faces and the runtime's core alone. -/
theorem Homes.of_faces (hh : Homes p) (hhomes : p'.homes = p.homes)
    (hcontrols : Tables.Same StopControl.workerEndpointAlive p.controls p'.controls)
    (hworkers : p'.workers.map WorkerObject.face = p.workers.map WorkerObject.face)
    (hcore : p'.runtime.core = p.runtime.core)
    (hentering : ∀ h w c, p'.Entering h w c → p.Entering h w c) : Homes p' := by
  have hstate : p'.runtime.state = p.runtime.state := congrArg Prod.fst hcore
  have hruntime : p'.runtime.workers = p.runtime.workers := congrArg (fun core => core.2.1) hcore
  have hstop : p'.runtime.stop = p.runtime.stop := congrArg (fun core => core.2.2) hcore
  refine hh.of_older hhomes hcontrols.length.ge (.of_faces hworkers)
    (fun c hc => .inl (alive_of_same hcontrols c ▸ hc)) ?_ ?_ ?_ hentering
  · rw [hstate, hruntime]
    intro hrunning w hw
    obtain ⟨o, ho, hr⟩ := hh.up hrunning w hw
    obtain ⟨o', ho', hface⟩ := faces_getElem? hworkers ho
    exact ⟨o', ho', (running_of_face hface).trans hr⟩
  · rw [hstate, hstop]
    exact hh.stopping
  · rw [hstop]
    intro w relays rest hm
    obtain ⟨o, ho, hr⟩ := hh.marking w relays rest hm
    obtain ⟨o', ho', hface⟩ := faces_getElem? hworkers ho
    exact ⟨o', ho', (running_of_face hface).trans hr⟩

theorem endpointAlive_makeControl (p : Plane) (c : Nat) :
    p.makeControl.endpointAlive c = p.endpointAlive c := by
  simp only [endpointAlive, makeControl, getElem?_append]
  split
  · rfl
  · rename_i hge
    rw [getElem?_eq_none (Nat.le_of_not_lt hge)]
    cases c - p.controls.length <;> rfl

theorem controls_makeControl_le (p : Plane) :
    p.controls.length ≤ p.makeControl.controls.length := by
  simp [makeControl]

theorem Homes.newTunnel (hh : Homes p) (t : Tunnel) (hs : t.starter = none) :
    Homes { p.makeControl with tunnels := p.tunnels ++ [t] } := by
  refine hh.of_older rfl (controls_makeControl_le p) (.of_faces rfl)
    (fun c hc => .inl (p.endpointAlive_makeControl c ▸ hc))
    hh.up hh.stopping hh.marking ?_
  rintro h w c ⟨u, hu, hstarter⟩
  rw [getElem?_append] at hu
  split at hu
  · exact ⟨u, hu, hstarter⟩
  · have hu : u ∈ [t] := mem_of_getElem? hu
    rw [mem_singleton.mp hu, hs] at hstarter
    cases hstarter

theorem Homes.makeControl (hh : Homes p) :
    Homes (p.makeControl.setTunnel h (t.setStarter (some (.register w p.controls.length)))) := by
  have hnone : p.homes p.controls.length = none := by
    by_contra hsome
    obtain ⟨w', hw'⟩ := ne_none_iff_exists'.mp hsome
    exact Nat.lt_irrefl _ (hh.known _ _ hw')
  have hcases :
    ∀ {h' w' c},
    (p.makeControl.setTunnel h (t.setStarter (some (.register w p.controls.length)))).Entering
        h' w' c →
      (h' = h ∧ c = p.controls.length) ∨ p.Entering h' w' c := by
    intro h' w' c he
    rcases entering_set rfl he with ⟨rfl, hs⟩ | ⟨-, hold⟩
    · obtain ⟨rfl, rfl⟩ := StartPc.register.inj (some.inj hs)
      exact .inl ⟨rfl, rfl⟩
    · exact .inr hold
  refine ⟨hh.homed, fun c w' hc => (hh.known c w' hc).trans_le (controls_makeControl_le p),
    fun c hc => ?_, hh.up, hh.stopping,
    hh.marking, fun h' w' c he => ?_, fun h₁ h₂ w₁ w₂ c he₁ he₂ => ?_⟩
  · exact hh.ended c (p.endpointAlive_makeControl c ▸ hc)
  · rcases hcases he with ⟨-, rfl⟩ | hold
    · exact ⟨hnone, by simp [setTunnel, Plane.makeControl]⟩
    · obtain ⟨hnone', hlt⟩ := hh.fresh h' w' c hold
      exact ⟨hnone', hlt.trans_le (controls_makeControl_le p)⟩
  · rcases hcases he₁ with ⟨rfl, rfl⟩ | hold₁
    · rcases hcases he₂ with ⟨rfl, -⟩ | hold₂
      · rfl
      · exact absurd (hh.fresh h₂ w₂ _ hold₂).2 (Nat.lt_irrefl _)
    · rcases hcases he₂ with ⟨rfl, rfl⟩ | hold₂
      · exact absurd (hh.fresh h₁ w₁ _ hold₁).2 (Nat.lt_irrefl _)
      · exact hh.once h₁ h₂ w₁ w₂ c hold₁ hold₂

theorem Homes.startWorkers (hh : Homes p) {count : Nat} (hstop : p.runtime.stop = none) :
    Homes ((p.startWorkers count).setTunnel h (t.setStarter (some .pickWorker))) := by
  have hold : ∀ {w : Nat} {o : WorkerObject}, p.workers[w]? = some o →
      (p.workers ++ (range (max 1 count)).map fun i => ({ index := i } : WorkerObject))[w]? =
        some o := by
    intro w o ho
    rw [getElem?_append_left (List.getElem?_eq_some_iff.mp ho).1]
    exact ho
  refine hh.of_older rfl le_rfl
    ⟨fun w o ho => ⟨o, hold ho, fun hr => hr⟩, fun w o' i c ho' hc => ?_⟩
    (fun c hc => .inl hc) ?_ ?_ ?_
    fun h' w c he => (entering_of_set rfl (by simp [Tunnel.setStarter]) he).2
  · simp only [setTunnel, Plane.startWorkers, getElem?_append] at ho'
    split at ho'
    · exact ⟨o', ho', hc⟩
    · obtain ⟨j, -, rfl⟩ := map_eq_some_iff.mp (getElem?_map ▸ ho')
      cases hc
  · intro _ w hw
    obtain ⟨j, hj, rfl⟩ := List.mem_map.mp hw
    refine ⟨{ index := j }, ?_, rfl⟩
    simp only [setTunnel, Plane.startWorkers]
    rw [getElem?_append_right (Nat.le_add_right _ _)]
    simp [mem_range.mp hj]
  · intro hsome
    exact absurd hstop hsome
  · intro w relays rest hm
    have hnone : p.runtime.stop = some (.marking w relays rest) := hm
    rw [hstop] at hnone
    cases hnone

theorem blind_alive : Tables.Blind StopControl.workerEndpointAlive :=
  fun x expected => congrArg Prod.fst (blind_face x expected)

/-- A registration comes to nothing, or the worker runs it on its tables. -/
theorem register_cases (p : Plane) (w c : Nat) (out : Outside) :
    ((p.register w c out).1 = p ∧ (p.register w c out).2.ok = false) ∨
      ∃ o q, p.workers[w]? = some o ∧
        q = o.tables.registerRelayWithIdLocal p.controls (p.registration c out) out.answers ∧
        (p.register w c out).1 = { p with
          workers := p.workers.set w { o with tables := q.1 }
          controls := q.2.1
          homes := Function.update p.homes c (some w) } ∧ (p.register w c out).2 = q.2.2 := by
  unfold Plane.register
  split
  · exact .inl ⟨rfl, rfl⟩
  · rename_i o ho
    split
    · exact .inl ⟨rfl, rfl⟩
    · exact .inr ⟨o, _, ho, rfl, rfl, rfl⟩

/-- One worker's tables change; no worker starts or stops. -/
theorem running_setTables {w' : Nat} {running : Bool} (ho : p.workers[w]? = some o)
    (hworkers : p'.workers = p.workers.set w { o with tables })
    (h : ∃ o', p.workers[w']? = some o' ∧ o'.running = running) :
    ∃ o'', p'.workers[w']? = some o'' ∧ o''.running = running := by
  obtain ⟨o', ho', hr⟩ := h
  rw [hworkers]
  by_cases hw : w = w'
  · subst hw
    obtain rfl : o = o' := some.inj (ho.symm.trans ho')
    exact ⟨{ o with tables }, getElem?_set_self (List.getElem?_eq_some_iff.mp ho).1, hr⟩
  · exact ⟨o', (getElem?_set_ne hw).trans ho', hr⟩

/-- Worker `w` runs the registration of control `c`, which is at home there from now on. -/
theorem Homes.registered (hh : Homes p) (ht : p.tunnels[h]? = some t)
    (hs : t.starter = some (.register w c)) (hs' : ∀ w c, t'.starter ≠ some (.register w c))
    (ho : p.workers[w]? = some o)
    (htables : ∀ i, (tables.states i).stopControl = (o.tables.states i).stopControl ∨
      (tables.states i).stopControl = some c)
    (hworkers : p'.workers = p.workers.set w { o with tables })
    (hhomes : p'.homes = Function.update p.homes c (some w))
    (hsame : Tables.Same StopControl.workerEndpointAlive p.controls p'.controls)
    (hruntime : p'.runtime = p.runtime) (htunnels : p'.tunnels = p.tunnels.set h t') :
    Homes p' := by
  obtain ⟨hnone, hlt⟩ := hh.fresh h w c ⟨t, ht, hs⟩
  -- A home that a control already has is not the one of `c`.
  have hhome : ∀ {c' w'}, p.homes c' = some w' → p'.homes c' = some w' := by
    intro c' w' hc'
    have hne : c' ≠ c := by
      rintro rfl
      rw [hnone] at hc'
      cases hc'
    rw [hhomes, Function.update_of_ne hne]
    exact hc'
  refine ⟨fun w' o' i c' ho' hc' => ?_, fun c' w' hc' => ?_, fun c' hc' => ?_,
    fun hrunning w' hw' => ?_, hruntime ▸ hh.stopping,
    fun w' relays rest hm => ?_, fun h' w' c' he => ?_, fun h₁ h₂ w₁ w₂ c' he₁ he₂ => ?_⟩
  · rw [hworkers] at ho'
    rcases Machine.getElem?_set_cases ho' with ⟨rfl, rfl⟩ | ⟨-, ho'⟩
    · rcases htables i with hold | hnew
      · exact hhome (hh.homed w' o i c' ho (hold ▸ hc'))
      · obtain rfl : c = c' := some.inj (hnew.symm.trans hc')
        rw [hhomes, Function.update_self]
    · exact hhome (hh.homed w' o' i c' ho' hc')
  · rw [hsame.length]
    by_cases hcc : c' = c
    · exact hcc ▸ hlt
    · rw [hhomes, Function.update_of_ne hcc] at hc'
      exact hh.known c' w' hc'
  · obtain ⟨w', o', hw', ho', hr⟩ := hh.ended c' (by rwa [← alive_of_same hsame c'])
    exact ⟨w', (running_setTables ho hworkers ⟨o', ho', hr⟩).imp fun _ h => ⟨hhome hw', h⟩⟩
  · rw [hruntime] at hrunning hw'
    exact running_setTables ho hworkers (hh.up hrunning w' hw')
  · rw [hruntime] at hm
    exact running_setTables ho hworkers (hh.marking w' relays rest hm)
  · obtain ⟨hne, hold⟩ := entering_of_set htunnels hs' he
    obtain ⟨hnone', hlt'⟩ := hh.fresh h' w' c' hold
    have hcc : c' ≠ c := by
      rintro rfl
      exact hne (hh.once h' h w' w c' hold ⟨t, ht, hs⟩)
    rw [hhomes, Function.update_of_ne hcc, hsame.length]
    exact ⟨hnone', hlt'⟩
  · exact hh.once h₁ h₂ w₁ w₂ c' (entering_of_set htunnels hs' he₁).2
      (entering_of_set htunnels hs' he₂).2

theorem Homes.register (hh : Homes p) (out : Outside) (ht : p.tunnels[h]? = some t)
    (hs : t.starter = some (.register w c)) (hs' : ∀ w c, t'.starter ≠ some (.register w c)) :
    Homes ((p.register w c out).1.setTunnel h t') := by
  rcases p.register_cases w c out with ⟨heq, -⟩ | ⟨o, q, ho, rfl, heq, -⟩
  · rw [heq]
    exact hh.of_faces rfl rfl rfl rfl fun h' w' c' he => (entering_of_set rfl hs' he).2
  · rw [heq]
    exact hh.registered ht hs hs' ho
      (stopControl_register (p.registration c out) out.answers) rfl rfl
      (same_registered (fun _ _ => rfl) blind_alive (p.registration c out) out.answers) rfl rfl

/-! ### The stop of the runtime -/

/-- What a step of the runtime's stop can do: it goes on to the next worker, it
stops a worker that is running, or it marks one of the stopped worker's relays. -/
theorem runtimeStep_cases {ledger sink : Bool} {pc : RuntimeStop} (hstop : p.runtime.stop = some pc)
    (hstep : p.runtimeStep ledger sink pc = some p') (hstate : p.runtime.state = .stopping) :
    p'.homes = p.homes ∧ p'.runtime.state ≠ .running ∧
      (p'.runtime.stop ≠ none → p'.runtime.state = .stopping) ∧
      ((p'.controls = p.controls ∧
        p'.workers.map WorkerObject.face = p.workers.map WorkerObject.face ∧
          ∀ w relays rest, p'.runtime.stop ≠ some (.marking w relays rest)) ∨
        (∃ w o relays rest, p.workers[w]? = some o ∧ p'.controls = p.controls ∧
          p'.workers = p.workers.modify w (fun o => { o with running := false }) ∧
          p'.runtime.stop = some (.marking w relays rest)) ∨
        (∃ w o r active relays rest q,
          p.runtime.stop = some (.marking w ((r, active) :: relays) rest) ∧ p.workers[w]? = some o ∧
          q = (if active then
            o.tables.beginTerminalHandoff
            (p.controls.endEndpoint (o.tables.states r.object).stopControl) r ledger sink
            else (o.tables, p.controls.endEndpoint (o.tables.states r.object).stopControl)) ∧
          p'.workers = p.workers.set w { o with tables := q.1 } ∧ p'.controls = q.2 ∧
          p'.runtime.stop = some (.marking w relays rest))) := by
  have hnot : p.runtime.state ≠ .running := by
    rw [hstate]
    simp
  rcases pc with _ | (_ | ⟨w, rest⟩) | ⟨w, _ | ⟨⟨r, active⟩, relays⟩, rest⟩
  · simp only [runtimeStep] at hstep
    split at hstep
    · cases hstep
    · cases hstep
      exact ⟨rfl, hnot, fun _ => hstate, .inl ⟨rfl, rfl, by simp⟩⟩
  · cases hstep
    exact ⟨rfl, by simp, by simp, .inl ⟨rfl, rfl, by simp⟩⟩
  · simp only [runtimeStep] at hstep
    split at hstep
    · cases hstep
      exact ⟨rfl, hnot, fun _ => hstate, .inl ⟨rfl, rfl, by simp⟩⟩
    · rename_i o ho
      split at hstep
      · cases hstep
        exact ⟨rfl, hnot, fun _ => hstate, .inl ⟨rfl, rfl, by simp⟩⟩
      · cases hstep
        exact ⟨rfl, hnot, fun _ => hstate, .inr (.inl ⟨w, o, _, rest, ho, rfl, rfl, rfl⟩)⟩
  · cases hstep
    refine ⟨rfl, hnot, fun _ => hstate, .inl ⟨rfl, ?_, by simp⟩⟩
    refine map_modify_eq p.workers w fun o => ?_
    exact (face_purge { o with tables :=
      (o.tables.relays.entries.map RelayRef.id).foldl Tables.unregisterRelayLocal o.tables }
        true).trans (face_unregister_all o _)
  · simp only [runtimeStep] at hstep
    split at hstep
    · cases hstep
    · rename_i o ho
      cases hstep
      exact ⟨rfl, hnot, fun _ => hstate,
        .inr (.inr ⟨w, o, r, active, relays, rest, _, hstop, ho, rfl, rfl, rfl, rfl⟩)⟩

/-- One worker's tables change without a new control. -/
theorem older_setTables (ho : p.workers[w]? = some o)
    (htables : ∀ i, (tables.states i).stopControl = (o.tables.states i).stopControl)
    (hworkers : p'.workers = p.workers.set w { o with tables }) : Older p p' := by
  refine ⟨fun w' o' ho' => ?_, fun w' o' i c ho' hc => ?_⟩
  · obtain ⟨o'', ho'', hr⟩ := running_setTables ho hworkers ⟨o', ho', rfl⟩
    exact ⟨o'', ho'', hr.trans⟩
  · rw [hworkers] at ho'
    rcases Machine.getElem?_set_cases ho' with ⟨rfl, rfl⟩ | ⟨-, ho'⟩
    · exact ⟨o, ho, (htables i).symm.trans hc⟩
    · exact ⟨o', ho', hc⟩

theorem getElem?_stopWorker (w' : Nat)
    (hworkers : p'.workers = p.workers.modify w (fun o => { o with running := false })) :
    p'.workers[w']? = p.workers[w']?.map fun o =>
      if w = w' then { o with running := false } else o := by
  rw [hworkers, getElem?_modify]
  rfl

theorem older_stopWorker
    (hworkers : p'.workers = p.workers.modify w (fun o => { o with running := false })) :
    Older p p' := by
  refine ⟨fun w' o' ho' => ?_, fun w' o' i c ho' hc => ?_⟩
  · rw [getElem?_stopWorker w' hworkers, ho']
    refine ⟨_, rfl, fun hr => ?_⟩
    split
    · rfl
    · exact hr
  · rw [getElem?_stopWorker w' hworkers] at ho'
    obtain ⟨o, ho, rfl⟩ := map_eq_some_iff.mp ho'
    refine ⟨o, ho, ?_⟩
    split at hc <;> exact hc

/-- Only the marked control loses its endpoint. -/
theorem alive_endEndpoint {controls : Controls} {control : Option Nat}
    (hdead : ((controls.endEndpoint control)[c]?.map StopControl.workerEndpointAlive).getD true =
      false) :
    (controls[c]?.map StopControl.workerEndpointAlive).getD true = false ∨ control = some c := by
  cases control with
  | none => exact .inl hdead
  | some d =>
    by_cases hdc : d = c
    · exact .inr (congrArg some hdc)
    · simp only [Controls.endEndpoint, getElem?_modify, hdc, if_false] at hdead
      refine .inl ?_
      cases hget : controls[c]? with
      | none => simp [hget] at hdead
      | some x => simpa [hget] using hdead

theorem Homes.runtime (hh : Homes p) {ledger sink : Bool} {pc : RuntimeStop}
    (hstop : p.runtime.stop = some pc) (hstep : p.runtimeStep ledger sink pc = some p') :
    Homes p' := by
  have hentering : ∀ h w c, p'.Entering h w c → p.Entering h w c := by
    rintro h w c ⟨t, ht, hs⟩
    exact ⟨t, (runtimeStep_keeps hstep).1 ▸ ht, hs⟩
  obtain ⟨hhomes, hnot, hstopping, hcases⟩ :=
    runtimeStep_cases hstop hstep (hh.stopping (by rw [hstop]; simp))
  have hup : p'.runtime.state = .running →
      ∀ w ∈ p'.runtime.workers, ∃ o, p'.workers[w]? = some o ∧ o.running = true :=
    fun hrunning => absurd hrunning hnot
  rcases hcases with ⟨hcontrols, hworkers, hno⟩ | ⟨w, o, relays, rest, ho, hcontrols,
    hworkers, hstop'⟩ |
    ⟨w, o, r, active, relays, rest, q, hmark, ho, hq, hworkers, hcontrols, hstop'⟩
  · refine hh.of_older hhomes (le_of_eq (congrArg length hcontrols.symm)) (.of_faces hworkers)
      (fun c hc => .inl ?_) hup hstopping
      (fun w relays rest hm => absurd hm (hno w relays rest)) hentering
    rwa [endpointAlive, hcontrols] at hc
  · refine hh.of_older hhomes (le_of_eq (congrArg length hcontrols.symm))
      (older_stopWorker hworkers) (fun c hc => .inl ?_) hup
      hstopping (fun w' relays' rest' hm => ?_) hentering
    · rwa [endpointAlive, hcontrols] at hc
    · obtain ⟨rfl, -, -⟩ := RuntimeStop.marking.inj (some.inj (hstop'.symm.trans hm))
      refine ⟨{ o with running := false }, ?_, rfl⟩
      rw [getElem?_stopWorker w hworkers, ho]
      simp
  · obtain ⟨o', ho', hstopped⟩ := hh.marking w _ _ hmark
    obtain rfl : o = o' := some.inj (ho.symm.trans ho')
    have hsame : Tables.Same StopControl.workerEndpointAlive
        (p.controls.endEndpoint (o.tables.states r.object).stopControl) q.2 ∧
        ∀ i, (q.1.states i).stopControl = (o.tables.states i).stopControl := by
      subst hq
      cases active with
      | true =>
        exact ⟨same_beginTerminalHandoff blind_alive, Tables.quiet_beginTerminalHandoff.stopControl⟩
      | false => exact ⟨rfl, fun _ => rfl⟩
    have hlength : (p.controls.endEndpoint (o.tables.states r.object).stopControl).length =
        p.controls.length := by
      unfold Controls.endEndpoint
      split <;> simp
    refine hh.of_older hhomes ?_ (older_setTables ho hsame.2 hworkers) (fun c hc => ?_)
      hup hstopping (fun w' relays' rest' hm => ?_) hentering
    · rw [hcontrols, hsame.1.length, hlength]
    · rw [endpointAlive, hcontrols, hsame.1.getElem? c] at hc
      rcases alive_endEndpoint hc with hold | hmarked
      · exact .inl hold
      · exact .inr ⟨w, o, hh.homed w o _ c ho hmarked, ho, hstopped⟩
    · obtain ⟨rfl, -, -⟩ := RuntimeStop.marking.inj (some.inj (hstop'.symm.trans hm))
      refine ⟨{ o with tables := q.1 }, ?_, hstopped⟩
      rw [hworkers]
      exact getElem?_set_self (List.getElem?_eq_some_iff.mp ho).1

/-! ### Whole runs -/

theorem Homes.change (hh : Homes p) (hchange : Change p p') : Homes p' := by
  have hset : ∀ {h : Nat} {t' : Tunnel}, (∀ w c, t'.starter ≠ some (.register w c)) →
      Homes (p.setTunnel h t') :=
    fun hnot => hh.of_faces rfl rfl rfl rfl fun _ _ _ he => (entering_of_set rfl hnot he).2
  cases hchange with
  | calm hview hcore hfollows =>
    refine hh.of_faces (congrArg (fun view => view.2.2) hview)
      (same_alive_of_face (congrArg Prod.fst hview))
      (congrArg (fun view => view.2.1) hview) hcore ?_
    rintro h w c ⟨t', ht', hs⟩
    obtain ⟨t, ht, hf⟩ := hfollows h t' ht'
    exact ⟨t, ht, hf.entering w c hs⟩
  | newTunnel terminalEscalation heq => exact heq ▸ hh.newTunnel _ rfl
  | startRelay h t ht heq =>
    subst heq
    exact hh.of_faces rfl (same_modify _ fun _ => rfl) rfl rfl
      fun _ _ _ he => (entering_of_set rfl (by simp [Tunnel.setStarter]) he).2
  | startWorkers h t count ht hstate heq =>
    subst heq
    refine hh.startWorkers ?_
    by_contra hsome
    have := hh.stopping hsome
    rw [hstate] at this
    cases this
  | makeControl h t w ht heq => exact heq ▸ hh.makeControl
  | register h t w c out ht hs heq =>
    subst heq
    refine hh.register out ht hs fun w' c' => ?_
    simp only [Tunnel.setStarter]
    split <;> simp
  | mirrors h t w c relayId ht hs heq | publish h t w c relayId ht hs heq =>
    exact heq ▸ hset (by simp)
  | stopRuntime hstate heq =>
    subst heq
    exact hh.of_older rfl le_rfl (.of_faces rfl) (fun _ hc => .inl hc) (fun hr => by cases hr)
      (fun _ => rfl)
      (fun _ _ _ hm => by cases hm) fun _ _ _ he => he
  | runtime ledger sink pc hstop hstep => exact hh.runtime hstop hstep
  | handoff w o r ledger sink ho heq =>
    have hworkers : p'.workers = p.workers.set w
        { o with tables := (o.tables.beginTerminalHandoff p.controls r ledger sink).1 } :=
      congrArg workers heq
    have hruntime : p'.runtime = p.runtime := by rw [heq]
    have hsame : Tables.Same StopControl.workerEndpointAlive p.controls p'.controls := by
      rw [heq]
      exact same_beginTerminalHandoff blind_alive
    refine hh.of_older (by rw [heq]) hsame.length.ge
      (older_setTables ho Tables.quiet_beginTerminalHandoff.stopControl hworkers)
      (fun c hc => .inl (alive_of_same hsame c ▸ hc)) (fun hrunning w' hw' => ?_)
      (hruntime ▸ hh.stopping)
      (fun w' relays rest hm => ?_) ?_
    · rw [hruntime] at hrunning hw'
      exact running_setTables ho hworkers (hh.up hrunning w' hw')
    · rw [hruntime] at hm
      exact running_setTables ho hworkers (hh.marking w' relays rest hm)
    · rintro h w' c ⟨t, ht, hs⟩
      exact ⟨t, by rwa [heq] at ht, hs⟩

end Plane
end TcpQuicProxy.RelayControl
