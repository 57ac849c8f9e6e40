import TcpQuicProxy.RelayControl.Custody

/-!
# Calls on stopped workers

`TqRelayStop` calls the worker of a relay in two ways. With a published state and
an endpoint that is alive it goes through the runtime, which calls only workers
that are running. Otherwise it uses the worker pointer of the handle itself, and
that is the way it takes when the endpoint is gone: the call goes to the stopped
worker. As long as every stop reaches its test of the endpoint before the worker
is stopped, no stopped worker is called.
-/

namespace TcpQuicProxy.RelayControl.Plane

variable {p p' : Plane} {t : Tunnel} {h : Nat} {role : StopRole} {out : Outside} {pc : StopPc}
  {spc : StartPc}

/-- A stop tests the endpoint of its control while that is alive, and one that found
nothing published reads the backend only when no other stop of the tunnel is
about to clear it. -/
def timely (p : Plane) : HandleAction → Bool
  | .stop h role _ =>
    match p.tunnels[h]? with
    | none => true
    | some t =>
      match t.stops role with
      | some .readBackend => alone t
      | some (.testAlive c) => p.endpointAlive c.control
      | _ => true
  | _ => true

variable {a : HandleAction} {t' : Tunnel}

theorem exclusive_of_timely (hcond : p.timely a = true) : p.exclusive a = true := by
  cases a with
  | stop h role out =>
    simp only [timely, exclusive] at hcond ⊢
    split
    · rfl
    · rename_i t ht
      split
      · rename_i hpc
        simpa [ht, hpc] using hcond
      · rfl
  | _ => rfl

theorem alive_of_timely (hcond : p.timely (.stop h role out) = true) (ht : p.tunnels[h]? = some t)
    {c : Captured} (hrole : t.stops role = some (.testAlive c)) :
    p.endpointAlive c.control = true := by
  simpa [timely, ht, hrole] using hcond

/-- No stop of the tunnel is about to call the worker through the handle's pointer. -/
def NoLegacy (t : Tunnel) : Prop := ∀ role c, t.stops role ≠ some (.callLegacy c)

theorem NoLegacy.setStop {q : Option StopPc} (hn : NoLegacy t) (hstops : t'.stops = t.stops)
    (hq : ∀ c, q ≠ some (.callLegacy c)) : NoLegacy (t'.setStop role q) := by
  intro role' c
  by_cases hr : role' = role
  · subst hr
    rw [Tunnel.stops_setStop_self]
    exact hq c
  · rw [Tunnel.stops_setStop_of_ne hr, hstops]
    exact hn role' c

theorem NoLegacy.startStep (hn : NoLegacy t) (p : Plane) (h : Nat) (out : Outside) (spc : StartPc) :
    NoLegacy (p.startStep h t out spc).2.1 := by
  cases spc with
  | reserve | checkStop w c relayId | allocate w c relayId =>
    simp only [Plane.startStep]; split <;> exact hn
  | startRuntime =>
    simp only [Plane.startStep]
    split
    · exact hn
    split
    · exact hn
    split
    · exact hn
    split
    · exact hn
    split <;> exact hn
  | pickWorker =>
    simp only [Plane.startStep]
    split
    · exact hn
    split
    · exact hn
    split <;> exact hn
  | enterRelay =>
    simp only [Plane.startStep]
    split
    · exact hn.setStop rfl (by simp)
    · exact hn
  | _ => exact hn

/-- With a published state and a live endpoint the stop goes through the runtime. -/
theorem stopStep_not_legacy (hfilled : pc.filled = true)
    (halive : ∀ c, pc = .testAlive c → p.endpointAlive c.control = true) (c : Captured) :
    (p.stopStep h role t out pc).2.2 ≠ some (.callLegacy c) := by
  cases pc with
  | exchange | readBackend | capture committed | callLegacy d =>
    simp only [stopStep]
    split <;> simp
  | testAlive d =>
    have hcommitted : d.committed.isSome = true := hfilled
    simp only [stopStep, hcommitted, halive d rfl, true_and, and_true]
    split
    · simp
    · rename_i hzero
      simp [hzero]
  | callRuntime d =>
    simp only [stopStep]
    split
    · simp
    split
    · simp
    split <;> simp
  | _ => simp [stopStep]

/-- A call goes to a worker that is running while the endpoint of its control is alive, or
elsewhere. -/
def InTime (call : WorkerCall) : Prop := call.endpointAlive = false → call.home ≠ some call.worker

/-- A worker of the running runtime is no home of a control whose endpoint has ended. -/
theorem Homes.inTime (hh : Homes p) {w c : Nat} (hrunning : p.runtime.state = .running)
    (hw : w ∈ p.runtime.workers) :
    InTime ⟨w, p.homes c, p.endpointAlive c⟩ := by
  intro hdead hhome
  obtain ⟨w', o, hw', ho, hstopped⟩ := hh.ended c hdead
  obtain ⟨o', ho', hup⟩ := hh.up hrunning w hw
  obtain rfl : w' = w := Option.some.inj (hw'.symm.trans hhome)
  obtain rfl : o = o' := Option.some.inj (ho.symm.trans ho')
  rw [hstopped] at hup
  cases hup

theorem stopStep_calls (hh : Homes p) (hpc : ∀ c, pc ≠ .callLegacy c)
    (hcalls : ∀ call ∈ p.workerCalls, InTime call) :
    ∀ call ∈ (p.stopStep h role t out pc).1.workerCalls, InTime call := by
  cases pc with
  | callRuntime c =>
    simp only [stopStep]
    split
    · exact hcalls
    split
    · exact hcalls
    rename_i hready
    split
    · exact hcalls
    · rename_i w hfind
      refine List.forall_mem_append.mpr ⟨hcalls, List.forall_mem_singleton.mpr ?_⟩
      exact hh.inTime (not_not.mp fun hne => hready (.inl hne)) (List.mem_of_find?_eq_some hfind)
  | callLegacy c => exact absurd rfl (hpc c)
  | _ => exact hcalls

/-! ### Whole runs -/

structure Timely (p : Plane) : Prop where
  accounts : Accounts false p
  homes : Homes p
  noLegacy : ∀ (h : Nat) (t : Tunnel), p.tunnels[h]? = some t → NoLegacy t
  calls : ∀ call ∈ p.workerCalls, InTime call

theorem timely_start : Timely {} := ⟨accounts_start, homes_start, by simp, by simp⟩

theorem noLegacy_set (hn : ∀ (h : Nat) (t : Tunnel), p.tunnels[h]? = some t → NoLegacy t)
    (ht' : NoLegacy t') (htunnels : p'.tunnels = p.tunnels.set h t') :
    ∀ (h : Nat) (t : Tunnel), p'.tunnels[h]? = some t → NoLegacy t := by
  intro h' u hu
  rw [htunnels] at hu
  rcases Machine.getElem?_set_cases hu with ⟨-, rfl⟩ | ⟨-, hu⟩
  · exact ht'
  · exact hn h' u hu

theorem Timely.keeps (ht : Timely p) (hcond : p.timely a = true) (hstep : p.step a = some p') :
    (∀ (h : Nat) (t : Tunnel), p'.tunnels[h]? = some t → NoLegacy t) ∧
      ∀ call ∈ p'.workerCalls, InTime call := by
  cases takes_of_step hstep with
  | newTunnel terminalEscalation =>
    refine ⟨fun h t htunnel => ?_, ht.calls⟩
    rw [List.getElem?_append] at htunnel
    split at htunnel
    · exact ht.noLegacy h t htunnel
    · rw [List.mem_singleton.mp (List.mem_of_getElem? htunnel)]
      intro role c
      simp
  | @startRelay h t tunnel =>
    have hn : NoLegacy (t.setStarter (some .reserve)) := ht.noLegacy h t tunnel
    exact ⟨noLegacy_set ht.noLegacy hn rfl, ht.calls⟩
  | @start h t out spc tunnel starter =>
    have hn : NoLegacy ((p.startStep h t out spc).2.1.setStarter (p.startStep h t out spc).2.2) :=
      (ht.noLegacy h t tunnel).startStep p h out spc
    have hbackend : spc = .reserve → t.backend = .none := by
      rintro rfl
      exact backend_of_early (ht.accounts.books h t tunnel) starter rfl
    obtain ⟨htunnels, hcalls, -⟩ := startStep_accounts p h out hbackend
    refine ⟨noLegacy_set (h := h) ht.noLegacy hn ?_, ?_⟩
    · rw [setTunnel, htunnels]
    · rw [setTunnel, hcalls]
      exact ht.calls
  | @abort h t tunnel =>
    exact ⟨noLegacy_set ht.noLegacy ((ht.noLegacy h t tunnel).setStop rfl (by simp)) rfl, ht.calls⟩
  | abortUnstarted | stopRuntime => exact ⟨ht.noLegacy, ht.calls⟩
  | @reap h t _ tunnel =>
    have hn : NoLegacy ({ t with inReaper := false }.setStop .reaper (some .exchange)) :=
      (ht.noLegacy h t tunnel).setStop rfl (by simp)
    exact ⟨noLegacy_set ht.noLegacy hn rfl, ht.calls⟩
  | @stop h t role out pc tunnel stops =>
    have hold := ht.noLegacy h t tunnel
    have hfilled := (ht.accounts.books h t tunnel).filled role pc stops
    obtain ⟨-, -, htunnels, hstops⟩ := p.stopStep_accounts h role t out pc
    have hn :
        NoLegacy ((p.stopStep h role t out pc).2.1.setStop role (p.stopStep h role t out pc).2.2) :=
      hold.setStop hstops
        (stopStep_not_legacy hfilled fun c hpc => alive_of_timely hcond tunnel (hpc ▸ stops))
    refine ⟨noLegacy_set (h := h) ht.noLegacy hn ?_, ?_⟩
    · rw [setTunnel, htunnels]
    · exact stopStep_calls ht.homes (fun c hpc => hold role c (hpc ▸ stops)) ht.calls
  | runtime _ step =>
    obtain ⟨htunnels, -, -, hcalls⟩ := runtimeStep_keeps step
    rw [htunnels, hcalls]
    exact ⟨ht.noLegacy, ht.calls⟩
  | worker step =>
    obtain ⟨htunnels, -, -, hcalls⟩ := workerTask_keeps step
    rw [htunnels, hcalls]
    exact ⟨ht.noLegacy, ht.calls⟩

theorem timely_step (ht : Timely p) (hcond : p.timely a = true) (hstep : p.step a = some p') :
    Timely p' := by
  obtain ⟨hno, hcalls⟩ := ht.keeps hcond hstep
  exact ⟨accounts_step ht.accounts (exclusive_of_timely hcond) (by simp) hstep,
    ht.homes.change (step_change hstep), hno, hcalls⟩

/-- In every run in which stops test the endpoint of their control while it is
alive, and do not read a backend that another stop is about to clear, no stop calls
the worker that registered its control after the control has said that the
worker's endpoint is not alive any more. -/
theorem ended_endpoint_not_called {as : List HandleAction}
    (hmeets : Machine.Meets step (fun p a => p.timely a = true) {} as)
    (hrun : Machine.run step {} as = some p) :
    ∀ call ∈ p.workerCalls, call.endpointAlive = false → call.home ≠ some call.worker :=
  (Machine.invariant_of_meets (fun _ _ _ ht hcond hstep => timely_step ht hcond hstep)
    timely_start hmeets hrun).calls

/-- The runtime stops between the stop's test and its call: the call finds no running runtime. -/
def runtimeStopsFirst : List HandleAction :=
  [.newTunnel none, .newTunnel none] ++ startOne 0 ++ startOne 1 ++ [.abort 0] ++
    stopOne 0 .abort ++ [.abort 1] ++
    List.replicate 5 (.stop 1 .abort {}) ++ [.stopRuntime] ++
      List.replicate 6 (.runtime true true) ++ List.replicate 2 (.stop 1 .abort {})

theorem runtimeStopsFirst_calls :
    ∃ p, Machine.run step {} runtimeStopsFirst = some p ∧ p.workerCalls = [⟨0, some 0, true⟩] ∧
      p.endpointAlive 3 = false ∧
      ∀ call ∈ p.workerCalls, call.endpointAlive = false → call.home ≠ some call.worker := by
  have hmeets : Machine.Meets step (fun p a => p.timely a = true) {} runtimeStopsFirst := by
    decide +kernel
  have hrun :
    (Machine.run step {} runtimeStopsFirst).map (fun p => (p.workerCalls, p.endpointAlive 3)) =
      some ([⟨0, some 0, true⟩], false) := by
    decide +kernel
  obtain ⟨p, hp, heq⟩ := Option.map_eq_some_iff.mp hrun
  obtain ⟨hcalls, halive⟩ := Prod.mk.inj heq
  exact ⟨p, hp, hcalls, halive, ended_endpoint_not_called hmeets hp⟩

/-- The runtime has stopped its worker when the tunnel's connection is aborted: the
stop finds the endpoint ended and calls the stopped worker through the handle. -/
def abortAfterRuntimeStop : List HandleAction :=
  [.newTunnel none] ++ startOne 0 ++ [.stopRuntime] ++ List.replicate 5 (.runtime true true) ++
    [.abort 0] ++ List.replicate 6 (.stop 0 .abort {})

theorem abortAfterRuntimeStop_calls_stopped_worker :
    (Machine.run step {} abortAfterRuntimeStop).map
      (fun p => (p.workerCalls, p.workers.map WorkerObject.running)) =
        some ([⟨0, some 0, false⟩], [false]) := by
  decide +kernel

/-- While the runtime is up, the endpoints of its workers are alive. -/
theorem endpoint_alive_while_running {as : List HandleAction} {w c : Nat}
    (hrun : Machine.run step {} as = some p) (hup : p.runtime.state = .running)
    (hw : w ∈ p.runtime.workers) (hhome : p.homes c = some w) :
    p.endpointAlive c = true := by
  have hh : Homes p :=
    Machine.invariant (fun _ _ _ h hs => h.change (step_change hs)) homes_start hrun
  by_contra hdead
  exact hh.inTime hup hw (eq_false_of_ne_true hdead) hhome

theorem started_endpoint_alive :
    ∃ p, Machine.run step {} ([.newTunnel none] ++ startOne 0) = some p ∧
      p.endpointAlive 1 = true := by
  refine ⟨_, (Option.some_get (by decide +kernel)).symm, ?_⟩
  apply endpoint_alive_while_running (w := 0) (Option.some_get _).symm <;> decide +kernel

end TcpQuicProxy.RelayControl.Plane
