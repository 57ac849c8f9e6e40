import TcpQuicProxy.Config.Tuning

/-!
# The memory of the relays on the Linux runtime

Each relay has a budget of its own for the buffers that it reads, compresses and
inflates into. `TqAllocateRelayBuffer` checks this budget and no other, and its
limit is the same for all relays of the runtime. The cap of `--max-memory-mb` goes
into the limit, below a floor, and into the pool budget, which only the copy of
the tuning sees that a relay start throws away.
-/

namespace TcpQuicProxy.LinuxRelay

inductive BufferAcquireFailure where
  | none
  | pendingBytesLimit
  | allocationFailure
  deriving DecidableEq

/-- `TqRelayBufferBudget`. -/
structure BufferBudget where
  pendingBufferBytes : Nat := 0
  maxPendingBufferBytes : Nat := 0
  allocateCount : Nat := 0
  deriving DecidableEq

/-- `TqAllocateRelayBuffer`; `allocated` is the answer of the allocator, and the
handle stands for its `ReservedBytes`. -/
def BufferBudget.allocateRelayBuffer (b : BufferBudget) (bytes : Nat) (allocated : Bool) :
    BufferBudget × Except BufferAcquireFailure Nat :=
  if bytes = 0 then (b, .error .none)
  else if b.maxPendingBufferBytes < b.pendingBufferBytes + bytes then (b, .error .pendingBytesLimit)
  else if !allocated then (b, .error .allocationFailure)
  else
    ({ b with
        pendingBufferBytes := b.pendingBufferBytes + bytes
        allocateCount := b.allocateCount + 1 },
      .ok bytes)

/-- `TqBufferHandle::reset`. -/
def BufferBudget.reset (b : BufferBudget) (reservedBytes : Nat) : BufferBudget :=
  { b with pendingBufferBytes := b.pendingBufferBytes - reservedBytes }

/-- The budget of a `RelayState`, its worker, and the handles of the buffers that its
read batch, its sends and its pending writes own. -/
structure RelayBuffers where
  worker : Nat
  budget : BufferBudget
  handles : List Nat := []
  deriving DecidableEq

namespace RelayBuffers

variable (r : RelayBuffers)

def allocate (bytes : Nat) (allocated : Bool) : Option RelayBuffers :=
  match r.budget.allocateRelayBuffer bytes allocated with
  | (budget, .ok handle) => some { r with budget := budget, handles := r.handles ++ [handle] }
  | (_, .error _) => none

/-- The loop of `DrainTcpReadable` that acquires buffers for one readv; the first
failure ends it. -/
def acquireReadBuffers (cfg : Config) : Nat → List Bool → RelayBuffers → RelayBuffers
  | 0, _, r => r
  | wanted + 1, allocated, r =>
    match r.allocate cfg.readChunkSize (allocated.headD true) with
    | none => r
    | some r' => acquireReadBuffers cfg wanted allocated.tail r'

def reset (index : Nat) : Option RelayBuffers :=
  r.handles[index]?.map fun reserved =>
    { r with budget := r.budget.reset reserved, handles := r.handles.eraseIdx index }

end RelayBuffers
end TcpQuicProxy.LinuxRelay

namespace TcpQuicProxy.Config

open LinuxRelay (BufferBudget RelayBuffers)

/-- `TqApplyRelayPoolBudget`. -/
def Tuning.applyRelayPoolBudget (t : Tuning) (budgetMb activeRelays : Nat) : Tuning :=
  if budgetMb = 0 || activeRelays = 0 || t.relayIoSize = 0 then t
  else
    let perTunnelBytes := budgetMb * MiB / activeRelays
    let maxContexts := clamp (perTunnelBytes / t.relayIoSize) 1 t.relayMaxInFlightSends
    { t with
      relayMaxFreeSendContexts := maxContexts
      relayMaxInFlightSends := min t.relayMaxInFlightSends maxContexts
      relayDefaultIdealSend :=
        min (min perTunnelBytes (t.relayIoSize * maxContexts)) t.relayDefaultIdealSend }

/-- The configuration of the workers and their number, once the runtime runs; the
relays of all workers. -/
structure RelayRuntime where
  workers : Option (LinuxRelay.Config × Nat) := none
  nextWorker : Nat := 0
  activeRelays : Nat := 0
  relays : List RelayBuffers := []

inductive RelayRuntime.Action where
  /-- With the worker's answer to the registration. -/
  | startRelay (registered : Bool)
  /-- A turn of the read loop that has read `readBytes` before. -/
  | drainTcpReadable (relay readBytes : Nat) (allocated : List Bool)
  /-- A buffer for compressed or inflated bytes. -/
  | allocateOutput (relay : Nat) (allocated : Bool)
  /-- A buffer is not needed any more: its send completed, its bytes were written or dropped. -/
  | reset (relay index : Nat)
  /-- A `RelayState` is deleted behind its last buffer. -/
  | deleteRelay (relay : Nat)

namespace RelayRuntime

variable (rt : RelayRuntime)

/-- `TqLinuxRelayRuntime::Start` keeps the workers of the first start. -/
def start (tuning : Tuning) : RelayRuntime :=
  match rt.workers with
  | some _ => rt
  | none =>
    { rt with
      workers := some (tuning.workerConfig, max 1 tuning.relayWorkerCount), nextWorker := 0 }

/-- `RelayState` on the worker that `PickWorker` returns. -/
def addRelay (cfg : LinuxRelay.Config) (workerCount : Nat) : RelayRuntime :=
  { rt with
    nextWorker := rt.nextWorker + 1
    relays := rt.relays ++
      [{ worker := rt.nextWorker % workerCount,
         budget := { maxPendingBufferBytes := cfg.maxPendingBufferBytes } }] }

/-- `TqStartRelay` on Linux, with the tuning of the configuration. -/
def startRelay (budgetMb : Nat) (profile : Tuning) (registered : Bool) : RelayRuntime :=
  let activeRelays := rt.activeRelays + 1
  let rt :=
    { rt with activeRelays := activeRelays }.start
    (profile.applyRelayPoolBudget budgetMb activeRelays)
  match rt.workers with
  | none => rt
  | some (cfg, workerCount) =>
    if registered then rt.addRelay cfg workerCount
    else { rt with nextWorker := rt.nextWorker + 1, activeRelays := rt.activeRelays - 1 }

/-- An operation of one relay on a running runtime. -/
def onRelay (relay : Nat) (operation : LinuxRelay.Config → RelayBuffers → Option RelayBuffers) :
    Option RelayRuntime := do
  let (cfg, _) ← rt.workers
  let r ← rt.relays[relay]?
  let r' ← operation cfg r
  some { rt with relays := rt.relays.set relay r' }

def step (budgetMb : Nat) (profile : Tuning) : Action → Option RelayRuntime
  | .startRelay registered => some (rt.startRelay budgetMb profile registered)
  | .drainTcpReadable relay readBytes allocated =>
    rt.onRelay relay fun cfg r =>
      some (r.acquireReadBuffers cfg (LinuxRelay.Relay.wantedBuffers cfg readBytes) allocated)
  | .allocateOutput relay allocated =>
    rt.onRelay relay fun cfg r => some ((r.allocate cfg.readChunkSize allocated).getD r)
  | .reset relay index => rt.onRelay relay fun _ r => r.reset index
  | .deleteRelay relay =>
    match rt.relays[relay]? with
    | none => none
    | some r =>
      if r.handles = [] then
        some { rt with relays := rt.relays.eraseIdx relay, activeRelays := rt.activeRelays - 1 }
      else none

/-- The buffer bytes that the relays of all workers have reserved. -/
def reservedBytes : Nat := Machine.total (fun r => Machine.total id r.handles) rt.relays

/-- What the option promises, up to a read buffer for each relay. -/
def WithinCap (o : Options) : Prop :=
  rt.reservedBytes ≤ o.maxMemoryMb.toNat * MiB + rt.relays.length * o.readChunkSize

/-- A run of the program: the tuning that the options give, and a runtime that no relay has
started yet. -/
def run (host : Host) (o : Options) (out : Tuning) (actions : List Action) : Option RelayRuntime :=
  Machine.run (fun rt => step rt (computeTuning host o out).1 (computeTuning host o out).2) {}
    actions

end RelayRuntime

/-! ### What one relay may reserve -/

/-- What half the budget is worth to each worker. -/
def workerShareBytes (host : Host) (budget : Nat) : Nat :=
  clamp budget autoRelayBudgetMinBytes autoRelayBudgetMaxBytes / 2 / detectRelayWorkers host

/-- The limit of a relay under a memory cap: at least the floor at the end of `TqComputeTuning`. -/
def Options.bufferBytesPerRelay (host : Host) (o : Options) : Nat :=
  max validationRelaySendBufferCapBytes (workerShareBytes host (o.maxMemoryMb.toNat * MiB))

theorem detectRelayWorkers_pos (host : Host) : 0 < detectRelayWorkers host := by
  unfold detectRelayWorkers relayWorkerCountMin
  split
  · decide
  · exact lt_of_lt_of_le (by decide) (le_max_left _ _)

/-- The share of a worker with the target of a tunnel below it. -/
theorem maxPendingBufferBytes_applyLinuxRelayDefaults (host : Host) (t : Tuning) (mode : TuningMode)
    (budget : Nat) :
    ∃ target ≤ relayPerTunnelTargetMaxBytes,
      (t.applyLinuxRelayDefaults host mode budget).maxPendingBufferBytesPerRelay =
        max target (workerShareBytes host budget) ∧
      (t.applyLinuxRelayDefaults host mode budget).relayGlobalPendingBytes /
        max (t.applyLinuxRelayDefaults host mode budget).relayWorkerCount 1 =
          workerShareBytes host budget := by
  have hworkers : max (detectRelayWorkers host) 1 = detectRelayWorkers host :=
    max_eq_left (detectRelayWorkers_pos host)
  have hmode (t : Tuning) : (t.applyLinuxRelayMode mode).relayWorkerCount = t.relayWorkerCount := by
    unfold Tuning.applyLinuxRelayMode
    split <;> rfl
  let t' :=
    ({ t with
      relayWorkerCount := detectRelayWorkers host
      windowsRelayWorkerCount := detectRelayWorkers host } : Tuning)
  refine ⟨(t'.applyLinuxRelayMode mode).computeTargetPendingPerTunnelBytes,
    min_le_right _ _, ?_, ?_⟩
  · simp only [Tuning.applyLinuxRelayDefaults, hmode, hworkers, workerShareBytes, t']
  · simp only [Tuning.applyLinuxRelayDefaults, hmode, hworkers, workerShareBytes]

theorem maxPendingBufferBytes_applyHighBdpPipelineScaling (t : Tuning) :
    t.applyHighBdpPipelineScaling.maxPendingBufferBytesPerRelay = t.maxPendingBufferBytesPerRelay ∨
      ∃ pending ≤ 512 * 1024 * 1024, t.applyHighBdpPipelineScaling.maxPendingBufferBytesPerRelay =
        max pending (t.relayGlobalPendingBytes / max t.relayWorkerCount 1) := by
  unfold Tuning.applyHighBdpPipelineScaling
  split
  · exact .inl rfl
  · exact .inr ⟨_, min_le_right _ _, rfl⟩

theorem maxPendingBufferBytes_computeTuning (host : Host) (o : Options) (out : Tuning)
    (hcap : 0 < o.maxMemoryMb) :
    (computeTuning host o out).2.maxPendingBufferBytesPerRelay = o.bufferBytesPerRelay host := by
  have hbudget (t : Tuning) : budgetBytes host o t = o.maxMemoryMb.toNat * MiB := if_pos hcap
  have hfloor (t : Tuning) :
      ((t.applyCustomOverrides o).applyValidationBounds).maxPendingBufferBytesPerRelay =
    max t.maxPendingBufferBytesPerRelay validationRelaySendBufferCapBytes := rfl
  unfold computeTuning
  rw [hfloor, hbudget]
  generalize (out.applyModeDefaults o.tuningMode).applyCustomOverrides o = t
  obtain ⟨target, htarget, hlimit, hshare⟩ :=
    maxPendingBufferBytes_applyLinuxRelayDefaults host t o.tuningMode (o.maxMemoryMb.toNat * MiB)
  have hfloors : relayPerTunnelTargetMaxBytes = validationRelaySendBufferCapBytes ∧
    512 * 1024 * 1024 = validationRelaySendBufferCapBytes := by decide
  unfold Options.bufferBytesPerRelay
  rcases maxPendingBufferBytes_applyHighBdpPipelineScaling
    (t.applyLinuxRelayDefaults host o.tuningMode (o.maxMemoryMb.toNat * MiB)) with heq | ⟨pending,
      hpending, heq⟩
  · rw [heq, hlimit, max_comm, ← max_assoc, max_eq_left (htarget.trans_eq hfloors.1)]
  · rw [heq, hshare, max_comm, ← max_assoc, max_eq_left (hpending.trans_eq hfloors.2)]

/-- The pool budget reaches neither the limit of a relay nor the size of its buffers. -/
theorem workerConfig_applyRelayPoolBudget (t : Tuning) (budgetMb activeRelays : Nat) :
    (t.applyRelayPoolBudget budgetMb activeRelays).workerConfig = t.workerConfig := by
  have hkept (contexts sends ideal : Nat) : Tuning.workerConfig { t with
      relayMaxFreeSendContexts := contexts, relayMaxInFlightSends := sends
      relayDefaultIdealSend := ideal } =
    t.workerConfig := rfl
  unfold Tuning.applyRelayPoolBudget
  split
  · rfl
  · exact hkept _ _ _

/-! ### What all relays may reserve -/

/-- A relay's account: the limit of its runtime, and its handles are what is pending. -/
structure Within (limit : Nat) (r : RelayBuffers) : Prop where
  maxPendingBufferBytes : r.budget.maxPendingBufferBytes = limit
  pendingBufferBytes : r.budget.pendingBufferBytes = Machine.total id r.handles
  total_le : Machine.total id r.handles ≤ limit

section

variable {limit : Nat} {r r' : RelayBuffers}

theorem Within.allocate {bytes : Nat} {allocated : Bool} (h : Within limit r)
    (hr : r.allocate bytes allocated = some r') : Within limit r' := by
  unfold RelayBuffers.allocate BufferBudget.allocateRelayBuffer at hr
  split_ifs at hr with hzero hlimit
  cases hr
  refine ⟨h.maxPendingBufferBytes, ?_, ?_⟩
  · simp [h.pendingBufferBytes]
  · rw [h.maxPendingBufferBytes, h.pendingBufferBytes] at hlimit
    simpa using hlimit

theorem Within.acquireReadBuffers {cfg : LinuxRelay.Config} {wanted : Nat} {allocated : List Bool}
    (h : Within limit r) :
    Within limit (r.acquireReadBuffers cfg wanted allocated) := by
  induction wanted generalizing r allocated with
  | zero => exact h
  | succ wanted ih =>
    unfold RelayBuffers.acquireReadBuffers
    split
    · exact h
    · next r' hr => exact ih (h.allocate hr)

theorem Within.reset {index : Nat} (h : Within limit r) (hr : r.reset index = some r') :
    Within limit r' := by
  obtain ⟨reserved, hreserved, rfl⟩ := Option.map_eq_some_iff.mp hr
  have hsplit :
      Machine.total id r.handles = reserved + Machine.total id (r.handles.eraseIdx index) :=
    (Machine.total_eraseIdx hreserved).symm
  refine ⟨h.maxPendingBufferBytes, ?_, ?_⟩
  · show r.budget.pendingBufferBytes - reserved = _
    rw [h.pendingBufferBytes, hsplit, Nat.add_sub_cancel_left]
  · exact (Nat.le_add_left _ _).trans (hsplit.symm.trans_le h.total_le)

end

namespace RelayRuntime

/-- Before a relay is registered: all relays with it could fill their budgets, up to
a read buffer each, without passing the cap. -/
def roomForRelay (host : Host) (o : Options) (rt : RelayRuntime) : Action → Bool
  | .startRelay true =>
    (rt.relays.length + 1) * (o.bufferBytesPerRelay host - o.readChunkSize) ≤
      o.maxMemoryMb.toNat * MiB
  | _ => true

/-- Every worker has the limit that the cap gives, every relay keeps its account,
and there was room for every relay. -/
structure Capped (host : Host) (o : Options) (rt : RelayRuntime) : Prop where
  workers : ∀ cfg count, rt.workers = some (cfg, count) →
    cfg.maxPendingBufferBytes = o.bufferBytesPerRelay host
  relays : ∀ r ∈ rt.relays, Within (o.bufferBytesPerRelay host) r
  room : rt.relays.length * (o.bufferBytesPerRelay host - o.readChunkSize) ≤
    o.maxMemoryMb.toNat * MiB

variable {host : Host} {o : Options} {rt rt' : RelayRuntime}

theorem Capped.withinCap (h : Capped host o rt) : rt.WithinCap o := by
  have htotal : rt.reservedBytes ≤ rt.relays.length * o.bufferBytesPerRelay host :=
    Machine.total_le_length_mul fun r hr => (h.relays r hr).total_le
  calc rt.reservedBytes ≤ rt.relays.length * o.bufferBytesPerRelay host := htotal
    _ ≤ rt.relays.length * (o.bufferBytesPerRelay host - o.readChunkSize + o.readChunkSize) :=
      Nat.mul_le_mul_left _ (by omega)
    _ = rt.relays.length * (o.bufferBytesPerRelay host - o.readChunkSize) +
      rt.relays.length * o.readChunkSize :=
      Nat.mul_add _ _ _
    _ ≤ o.maxMemoryMb.toNat * MiB + rt.relays.length * o.readChunkSize :=
      Nat.add_le_add_right h.room _

theorem Capped.onRelay {relay : Nat}
    {operation : LinuxRelay.Config → RelayBuffers → Option RelayBuffers} (h : Capped host o rt)
    (hr : rt.onRelay relay operation = some rt')
    (hoperation : ∀ cfg r r', Within (o.bufferBytesPerRelay host) r → operation cfg r = some r' →
      Within (o.bufferBytesPerRelay host) r') : Capped host o rt' := by
  unfold RelayRuntime.onRelay at hr
  simp only [Option.bind_eq_bind, Option.bind_eq_some_iff, Option.some.injEq] at hr
  obtain ⟨⟨cfg, count⟩, hworkers, r, hget, r', hdone, rfl⟩ := hr
  refine ⟨h.workers, fun x hx => ?_, ?_⟩
  · rcases List.mem_or_eq_of_mem_set hx with hx | rfl
    · exact h.relays x hx
    · exact hoperation cfg r x (h.relays r (List.mem_of_getElem? hget)) hdone
  · simpa using h.room

variable {profile : Tuning} {budgetMb : Nat}

/-- The first start fixes the configuration of the workers; the pool budget is not part of it. -/
theorem Capped.start (h : Capped host o rt) (budgetMb activeRelays : Nat)
    (hprofile : profile.maxPendingBufferBytesPerRelay = o.bufferBytesPerRelay host) :
    Capped host o ({ rt with activeRelays := activeRelays }.start
      (profile.applyRelayPoolBudget budgetMb activeRelays)) := by
  unfold RelayRuntime.start
  split
  · exact ⟨h.workers, h.relays, h.room⟩
  · refine ⟨fun cfg count heq => ?_, h.relays, h.room⟩
    obtain ⟨rfl, -⟩ := Prod.mk.inj (Option.some.inj heq)
    rw [workerConfig_applyRelayPoolBudget]
    exact hprofile

theorem relays_start (rt : RelayRuntime) (tuning : Tuning) :
    (rt.start tuning).relays = rt.relays := by
  unfold RelayRuntime.start
  split <;> rfl

theorem Capped.startRelay {registered : Bool} (h : Capped host o rt)
    (hprofile : profile.maxPendingBufferBytesPerRelay = o.bufferBytesPerRelay host)
    (hroom : rt.roomForRelay host o (.startRelay registered) = true) :
    Capped host o (rt.startRelay budgetMb profile registered) := by
  have hstart := h.start budgetMb (rt.activeRelays + 1) hprofile
  have hrelays := relays_start { rt with activeRelays := rt.activeRelays + 1 }
    (profile.applyRelayPoolBudget budgetMb (rt.activeRelays + 1))
  unfold RelayRuntime.startRelay
  dsimp only
  generalize RelayRuntime.start _ _ = started at hstart hrelays
  split
  · exact hstart
  · next cfg count hworkers =>
    cases registered with
    | false => exact ⟨hstart.workers, hstart.relays, hstart.room⟩
    | true =>
      refine ⟨hstart.workers, List.forall_mem_append.mpr ⟨hstart.relays, ?_⟩, ?_⟩
      · exact List.forall_mem_singleton.mpr
          ⟨hstart.workers cfg count hworkers, rfl, Nat.zero_le _⟩
      · simp only [if_true, RelayRuntime.addRelay, List.length_append,
          List.length_singleton, hrelays]
        exact of_decide_eq_true hroom

theorem Capped.step {a : Action} (h : Capped host o rt)
    (hprofile : profile.maxPendingBufferBytesPerRelay = o.bufferBytesPerRelay host)
    (hroom : rt.roomForRelay host o a = true) (hstep : rt.step budgetMb profile a = some rt') :
    Capped host o rt' := by
  cases a with
  | startRelay registered =>
    cases hstep
    exact h.startRelay hprofile hroom
  | drainTcpReadable relay readBytes allocated =>
    unfold RelayRuntime.step at hstep
    refine h.onRelay hstep fun cfg r r' hr heq => ?_
    cases heq
    exact hr.acquireReadBuffers
  | allocateOutput relay allocated =>
    unfold RelayRuntime.step at hstep
    refine h.onRelay hstep fun cfg r r' hr heq => ?_
    cases heq
    cases hdone : r.allocate cfg.readChunkSize allocated with
    | none => exact hr
    | some r' => exact hr.allocate hdone
  | reset relay index =>
    unfold RelayRuntime.step at hstep
    exact h.onRelay hstep fun cfg r r' hr heq => hr.reset heq
  | deleteRelay relay =>
    simp only [RelayRuntime.step] at hstep
    split at hstep
    · cases hstep
    · split_ifs at hstep
      cases hstep
      refine ⟨h.workers, fun r hr => h.relays r (List.mem_of_mem_eraseIdx hr), ?_⟩
      exact (Nat.mul_le_mul_right _ (List.length_eraseIdx_le _ _)).trans h.room

/-- As long as there is room for each relay that starts, the buffers of all relays
keep to the cap in every state. -/
theorem relays_within_cap (host : Host) (o : Options) (out : Tuning) (actions : List Action)
    (hcap : 0 < o.maxMemoryMb)
    (hroom : Machine.Meets
      (fun rt => step rt (computeTuning host o out).1 (computeTuning host o out).2)
      (fun rt a => rt.roomForRelay host o a = true) {} actions) :
    ∀ rt, run host o out actions = some rt → rt.WithinCap o := by
  intro rt hrun
  have hprofile := maxPendingBufferBytes_computeTuning host o out hcap
  have hstart : Capped host o {} := ⟨fun _ _ h => (by cases h), fun _ h => (by cases h), by simp⟩
  exact (Machine.invariant_of_meets (fun _ _ _ h hroom hstep => h.step hprofile hroom hstep)
    hstart hroom hrun).withinCap

/-- Two relays under a cap of 1 GiB, each with the buffers of one readv. -/
def twoReaders : List Action :=
  [.startRelay true, .drainTcpReadable 0 0 [], .startRelay true, .drainTcpReadable 1 0 []]

theorem twoReaders_within_gibibyte :
    ∃ rt, run ⟨4, 0⟩ { maxMemoryMb := 1024 } {} twoReaders = some rt ∧ rt.reservedBytes = 8 * MiB ∧
      rt.WithinCap { maxMemoryMb := 1024 } := by
  refine Machine.run_observed (f := reservedBytes) (o := (8 * MiB)) (by decide)
    fun rt hrt hreserved => ?_
  exact ⟨hreserved,
    relays_within_cap ⟨4, 0⟩ { maxMemoryMb := 1024 } {} twoReaders (by decide) (by decide) rt hrt⟩

/-- Under a cap of 1 MiB the first readv of the first relay reserves 4 MiB. -/
theorem one_reader_over_mebibyte :
    ∃ rt, run ⟨4, 0⟩ { maxMemoryMb := 1 } {}
    [.startRelay true, .drainTcpReadable 0 0 []] = some rt ∧
      rt.reservedBytes = 4 * MiB ∧ ¬ rt.WithinCap { maxMemoryMb := 1 } := by
  refine Machine.run_observed (f := fun rt => (rt.reservedBytes, rt.relays.length))
    (o := (4 * MiB, 1)) (by decide) fun rt hrt hviews => ?_
  obtain ⟨hreserved, hrelays⟩ := Prod.mk.inj hviews
  refine ⟨hreserved, ?_⟩
  rw [WithinCap, hreserved, hrelays]
  decide

end RelayRuntime
end TcpQuicProxy.Config
