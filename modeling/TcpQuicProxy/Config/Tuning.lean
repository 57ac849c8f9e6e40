import TcpQuicProxy.LinuxRelay.Compression

/-!
# Tuning, and the read loop it configures

`TqComputeTuning` fills the tuning record in a fixed order: the values of the
mode, the overrides of the user, the relay values of the mode, the scaling for
paths with a large bandwidth-delay product, the overrides again, and a few
lower bounds. The mirrors that `SyncLinuxRelayLegacyFields` writes are read by
nothing modelled here and are left out. No sum or product of the code reaches
2^64, so sizes are natural numbers; the overrides keep their `uint32_t`.
-/

namespace TcpQuicProxy.Config

inductive TuningMode where
  | auto
  | lan
  | wan
  deriving DecidableEq

def KiB : Nat := 1024
def MiB : Nat := 1024 * KiB

def autoRelayBudgetFallbackBytes : Nat := 512 * MiB
def autoRelayBudgetMinBytes : Nat := 256 * MiB
def autoRelayBudgetMaxBytes : Nat := 8 * 1024 * MiB
def relayPerTunnelTargetMinBytes : Nat := 16 * MiB
def relayPerTunnelTargetMaxBytes : Nat := 512 * MiB
def validationFlowWindowBytes : Nat := 0x80000000
def validationRelaySendBufferCapBytes : Nat := 512 * MiB
def eventQueueCapacityMin : UInt32 := 1024
def eventQueueCapacityMax : UInt32 := 1048576
def relayWorkerCountMin : Nat := 1
def relayWorkerCountMax : Nat := 8

/-- `TqTuningConfig`. A relay always has an I/O vector to read into. -/
structure Tuning where
  terminalWatchdogSeconds : Nat := 5
  streamRecvWindow : Nat := 536870912
  connFlowControlWindow : Nat := 500000000
  initialWindowPackets : Nat := 2000
  initialRttMs : Nat := 100
  relayIoSize : Nat := 1024 * 1024
  relayCompressIoSize : Nat := 256 * 1024
  relayDefaultIdealSend : Nat := 64 * 1024 * 1024
  relayMaxInFlightSends : Nat := 64
  relayMaxFreeSendContexts : Nat := 64
  tcpSocketBufferBytes : Nat := 4 * 1024 * 1024
  relayWorkerCount : Nat := 0
  relayMaxIov : Nat := 16
  relayReadChunkSize : Nat := 128 * 1024
  relayReadBatchBytes : Nat := 1024 * 1024
  relayQuicRecvBatchBytes : Nat := 1024 * 1024
  relayTcpWriteMaxBytes : Nat := 0
  relayTcpWriteBurstBytes : Nat := 0
  relayGlobalPendingBytes : Nat := 256 * 1024 * 1024
  relayPerTunnelPendingBytes : Nat := 4 * 1024 * 1024
  relayWorkerEventBudget : Nat := 4096
  relayEventQueueCapacity : Nat := 4096
  relayWorkerByteBudgetPerTick : Nat := 64 * 1024 * 1024
  relayQuicReceiveCompleteBatchBytes : Nat := 0
  windowsRelayWorkerCount : Nat := 0
  initialQuicReadAheadBytes : Nat := 1024 * 1024
  maxPendingBufferBytesPerRelay : Nat := 32 * 1024 * 1024
  relayMaxIov_pos : 0 < relayMaxIov := by decide

/-- The fields of `TqConfig` that the tuning reads; an override of zero is one
that was not given. -/
structure Options where
  tuningMode : TuningMode := .wan
  maxMemoryMb : UInt32 := 0
  overrideRelayIoSize : UInt32 := 0
  overrideRelayReadChunkSize : UInt32 := 0
  overrideRelayTcpWriteMaxBytes : UInt32 := 0
  overrideRelayTcpWriteBurstBytes : UInt32 := 0
  overrideRelayEventQueueCapacity : UInt32 := 0
  overrideRelayWorkerCount : UInt32 := 0
  overrideLinuxRelayReadChunkSize : UInt32 := 0
  overrideLinuxRelayTcpWriteMaxBytes : UInt32 := 0
  overrideLinuxRelayTcpWriteBurstBytes : UInt32 := 0
  overrideLinuxRelayEventQueueCapacity : UInt32 := 0
  overrideLinuxRelayWorkerCount : UInt32 := 0
  overrideWindowsRelayWorkerCount : UInt32 := 0
  overrideQuicIw : UInt32 := 0
  overrideQuicInitRttMs : UInt32 := 0
  overrideTerminalWatchdogSeconds : UInt32 := 0

/-- What the code asks the operating system; zero stands for an unknown value. -/
structure Host where
  hardwareConcurrency : Nat
  systemMemoryBytes : Nat

/-- `ParseUint32` with the test against zero that follows it, on the number
that the text of an option reads as. -/
def parseNonZeroUint32 (v : Nat) : Option UInt32 :=
  if LinuxRelay.uint32Max < v || v = 0 then none else some (UInt32.ofNat v)

/-- The two options for the read chunk size, `--relay-read-chunk-size` and
`--linux-relay-read-chunk-size`, each of them if it was given. -/
def Options.withReadChunkSizes (o : Options) (common linux : Option Nat) : Option Options := do
  let o ← match common with
    | none => some o
    | some v => (parseNonZeroUint32 v).map fun size => { o with overrideRelayReadChunkSize := size }
  match linux with
  | none => some o
  | some v =>
    (parseNonZeroUint32 v).map fun size => { o with overrideLinuxRelayReadChunkSize := size }

def clamp (value low high : Nat) : Nat := min (max value low) high

def detectRelayWorkers (host : Host) : Nat :=
  if host.hardwareConcurrency = 0 then relayWorkerCountMin
  else max relayWorkerCountMin (min host.hardwareConcurrency relayWorkerCountMax)

def normalizeRelayWorkerCount (count : Nat) : Nat :=
  max relayWorkerCountMin (min count relayWorkerCountMax)

/-- `TqNormalizeLinuxRelayEventQueueCapacity`: up to the next power of two, by
smearing the highest bit of the predecessor. -/
def normalizeLinuxRelayEventQueueCapacity (capacity : UInt32) : UInt32 :=
  if capacity ≤ eventQueueCapacityMin then eventQueueCapacityMin
  else if eventQueueCapacityMax ≤ capacity then eventQueueCapacityMax
  else
    let c := capacity - 1
    let c := c ||| (c >>> 1)
    let c := c ||| (c >>> 2)
    let c := c ||| (c >>> 4)
    let c := c ||| (c >>> 8)
    let c := c ||| (c >>> 16)
    min (c + 1) eventQueueCapacityMax

def computeSystemSoftLimitBytes (host : Host) : Nat :=
  if host.systemMemoryBytes = 0 then autoRelayBudgetFallbackBytes
  else clamp (host.systemMemoryBytes / 8) autoRelayBudgetMinBytes autoRelayBudgetMaxBytes

def bytesToMbRoundUp (bytes : Nat) : Nat := clamp ((bytes + MiB - 1) / MiB) 0 LinuxRelay.uint32Max

/-- An override counts when it is not zero. -/
def overrideWith (value : UInt32) (current : Nat) : Nat :=
  if 0 < value then value.toNat else current

namespace Tuning

variable (t : Tuning)

def applyWanDefaults : Tuning :=
  { t with
    streamRecvWindow := 536870912
    connFlowControlWindow := 500000000
    initialWindowPackets := 2000
    initialRttMs := 100
    relayIoSize := 1024 * 1024
    relayCompressIoSize := 256 * 1024
    relayDefaultIdealSend := 64 * 1024 * 1024
    relayMaxInFlightSends := 64
    relayMaxFreeSendContexts := 64
    tcpSocketBufferBytes := 4 * 1024 * 1024 }

def applyLanDefaults : Tuning :=
  { t with
    streamRecvWindow := 16 * 1024 * 1024
    connFlowControlWindow := 16 * 1024 * 1024
    initialWindowPackets := 256
    initialRttMs := 10
    relayIoSize := 256 * 1024
    relayCompressIoSize := 64 * 1024
    relayDefaultIdealSend := 4 * 1024 * 1024
    relayMaxInFlightSends := 16
    relayMaxFreeSendContexts := 16
    tcpSocketBufferBytes := 1024 * 1024 }

def applyModeDefaults : TuningMode → Tuning
  | .lan => t.applyLanDefaults
  | .wan => t.applyWanDefaults
  | .auto => t.applyWanDefaults

def computeTargetPendingPerTunnelBytes : Nat :=
  clamp t.relayDefaultIdealSend relayPerTunnelTargetMinBytes relayPerTunnelTargetMaxBytes

def computeAutomaticRelayBudgetBytes (host : Host) : Nat :=
  let budgetBytes :=
    max (max (computeSystemSoftLimitBytes host) t.computeTargetPendingPerTunnelBytes)
    autoRelayBudgetFallbackBytes
  clamp budgetBytes autoRelayBudgetMinBytes autoRelayBudgetMaxBytes

/-- Each relay value has two overrides; the one without a platform in its
name is applied last. -/
def applyCustomOverrides (o : Options) : Tuning :=
  let capacity (value : UInt32) (current : Nat) :=
    if 0 < value then (normalizeLinuxRelayEventQueueCapacity value).toNat else current
  let workers (value : UInt32) (current : Nat) :=
    if 0 < value then normalizeRelayWorkerCount value.toNat else current
  { t with
    terminalWatchdogSeconds :=
      overrideWith o.overrideTerminalWatchdogSeconds t.terminalWatchdogSeconds
    relayIoSize := overrideWith o.overrideRelayIoSize t.relayIoSize
    relayReadChunkSize :=
      overrideWith o.overrideRelayReadChunkSize
        (overrideWith o.overrideLinuxRelayReadChunkSize t.relayReadChunkSize)
    relayTcpWriteMaxBytes :=
      overrideWith o.overrideRelayTcpWriteMaxBytes
        (overrideWith o.overrideLinuxRelayTcpWriteMaxBytes t.relayTcpWriteMaxBytes)
    relayTcpWriteBurstBytes :=
      overrideWith o.overrideRelayTcpWriteBurstBytes
        (overrideWith o.overrideLinuxRelayTcpWriteBurstBytes t.relayTcpWriteBurstBytes)
    relayEventQueueCapacity :=
      capacity o.overrideRelayEventQueueCapacity
        (capacity o.overrideLinuxRelayEventQueueCapacity t.relayEventQueueCapacity)
    relayWorkerCount :=
      workers o.overrideRelayWorkerCount
        (workers o.overrideLinuxRelayWorkerCount t.relayWorkerCount)
    windowsRelayWorkerCount := workers o.overrideWindowsRelayWorkerCount t.windowsRelayWorkerCount
    initialWindowPackets := overrideWith o.overrideQuicIw t.initialWindowPackets
    initialRttMs := overrideWith o.overrideQuicInitRttMs t.initialRttMs }

/-- The values of `TqApplyLinuxRelayDefaults` that depend on the mode alone. -/
def applyLinuxRelayMode (mode : TuningMode) : Tuning :=
  if mode = .lan then
    { t with
      relayMaxIov := 8
      relayReadChunkSize := 128 * 1024
      relayReadBatchBytes := 256 * 1024
      relayQuicRecvBatchBytes := 256 * 1024
      relayWorkerEventBudget := 1024
      relayEventQueueCapacity := 4096
      relayWorkerByteBudgetPerTick := 16 * 1024 * 1024
      relayMaxIov_pos := Nat.succ_pos 7 }
  else
    { t with
      relayMaxIov := 16
      relayReadChunkSize := 128 * 1024
      relayReadBatchBytes := 1024 * 1024
      relayQuicRecvBatchBytes := 1024 * 1024
      relayWorkerEventBudget := 4096
      relayEventQueueCapacity := 4096
      relayWorkerByteBudgetPerTick := 64 * 1024 * 1024
      relayMaxIov_pos := Nat.succ_pos 15 }

def applyLinuxRelayDefaults (host : Host) (mode : TuningMode) (autoBudgetBytes : Nat) : Tuning :=
  let workers := detectRelayWorkers host
  let t :=
    { t with
      relayWorkerCount := workers, windowsRelayWorkerCount := workers }.applyLinuxRelayMode mode
  let relayMemoryBytes := clamp autoBudgetBytes autoRelayBudgetMinBytes autoRelayBudgetMaxBytes
  let targetPendingBytes := t.computeTargetPendingPerTunnelBytes
  { t with
    relayGlobalPendingBytes := relayMemoryBytes / 2
    relayPerTunnelPendingBytes := targetPendingBytes
    maxPendingBufferBytesPerRelay :=
      max targetPendingBytes (relayMemoryBytes / 2 / max t.relayWorkerCount 1) }

def applyHighBdpPipelineScaling : Tuning :=
  if t.relayDefaultIdealSend < 64 * 1024 * 1024 then t
  else
    let pendingBytes := min t.relayDefaultIdealSend (512 * 1024 * 1024)
    let tcpBuf := min (pendingBytes / 4) (64 * 1024 * 1024)
    { t with
      relayPerTunnelPendingBytes := pendingBytes
      maxPendingBufferBytesPerRelay :=
        max pendingBytes (t.relayGlobalPendingBytes / max t.relayWorkerCount 1)
      relayWorkerByteBudgetPerTick := min pendingBytes (512 * 1024 * 1024)
      initialQuicReadAheadBytes := max t.initialQuicReadAheadBytes pendingBytes
      relayReadBatchBytes := max t.relayReadBatchBytes (4 * 1024 * 1024)
      relayQuicRecvBatchBytes := max t.relayQuicRecvBatchBytes (4 * 1024 * 1024)
      relayMaxIov := max t.relayMaxIov 32
      tcpSocketBufferBytes :=
        if t.tcpSocketBufferBytes < tcpBuf then max tcpBuf (16 * 1024 * 1024)
        else t.tcpSocketBufferBytes
      relayMaxIov_pos := by have := t.relayMaxIov_pos; omega }

/-- The lower bounds at the end of `TqComputeTuning`. -/
def applyValidationBounds : Tuning :=
  { t with
    streamRecvWindow := validationFlowWindowBytes
    connFlowControlWindow := validationFlowWindowBytes
    initialQuicReadAheadBytes :=
      max t.initialQuicReadAheadBytes LinuxRelay.initialIdealSendFallbackBytes
    maxPendingBufferBytesPerRelay :=
      max t.maxPendingBufferBytesPerRelay validationRelaySendBufferCapBytes
    relayPerTunnelPendingBytes := max t.relayPerTunnelPendingBytes validationRelaySendBufferCapBytes
    relayWorkerByteBudgetPerTick :=
      max t.relayWorkerByteBudgetPerTick LinuxRelay.initialIdealSendFallbackBytes }

end Tuning

def budgetBytes (host : Host) (o : Options) (t : Tuning) : Nat :=
  if 0 < o.maxMemoryMb then o.maxMemoryMb.toNat * MiB else t.computeAutomaticRelayBudgetBytes host

/-- `TqComputeTuning`: the relay memory budget in MiB that it stores, and the
tuning. -/
def computeTuning (host : Host) (o : Options) (out : Tuning) : Nat × Tuning :=
  let out := (out.applyModeDefaults o.tuningMode).applyCustomOverrides o
  let budget := budgetBytes host o out
  let out := (out.applyLinuxRelayDefaults host o.tuningMode budget).applyHighBdpPipelineScaling
  (bytesToMbRoundUp budget, (out.applyCustomOverrides o).applyValidationBounds)

/-- The worker configuration that `TqLinuxRelayRuntime::Start` makes of it. -/
def Tuning.workerConfig (t : Tuning) : LinuxRelay.Config where
  eventBudget := t.relayWorkerEventBudget
  byteBudgetPerTick := t.relayWorkerByteBudgetPerTick
  readChunkSize := t.relayReadChunkSize
  readBatchBytes := t.relayReadBatchBytes
  maxIov := t.relayMaxIov
  tcpWriteMaxBytes := t.relayTcpWriteMaxBytes
  tcpWriteBurstBytes := t.relayTcpWriteBurstBytes
  maxPendingBufferBytes := t.maxPendingBufferBytesPerRelay
  maxPendingQuicReceiveBytesPerRelay := t.relayPerTunnelPendingBytes
  deferredReceiveCompleteBatchBytes := t.relayQuicReceiveCompleteBatchBytes
  maxBufferedQuicSendBytes := t.initialQuicReadAheadBytes
  eventQueueCapacity := t.relayEventQueueCapacity
  maxIov_pos := t.relayMaxIov_pos

/-! ### The three limits of the read loop -/

/-- The chunk size that is in force: an override, or the default of all modes. -/
def Options.readChunkSize (o : Options) : Nat :=
  overrideWith o.overrideRelayReadChunkSize
    (overrideWith o.overrideLinuxRelayReadChunkSize (128 * KiB))

/-- What one tick of a worker reads at most. -/
def TuningMode.readBatchBytes : TuningMode → Nat
  | .lan => 256 * KiB
  | .wan => 4 * MiB
  | .auto => 4 * MiB

section

variable (host : Host) (o : Options) (out : Tuning)

theorem readChunkSize_computeTuning :
    (computeTuning host o out).2.relayReadChunkSize = o.readChunkSize := by
  have hbase : ∀ (t : Tuning) (budget : Nat),
      (t.applyLinuxRelayDefaults host o.tuningMode
        budget).applyHighBdpPipelineScaling.relayReadChunkSize = 128 * KiB := by
    intro t budget
    unfold Tuning.applyHighBdpPipelineScaling Tuning.applyLinuxRelayDefaults
      Tuning.applyLinuxRelayMode
    dsimp only
    split_ifs <;> rfl
  simp only [computeTuning, Tuning.applyValidationBounds, Tuning.applyCustomOverrides,
    Options.readChunkSize]
  rw [← hbase]

/-- No override touches the default that decides about the scaling. -/
theorem relayDefaultIdealSend_overridden (mode : TuningMode) :
    ((out.applyModeDefaults mode).applyCustomOverrides o).relayDefaultIdealSend =
      if mode = .lan then 4 * MiB else 64 * MiB := by
  cases mode <;> rfl

theorem readLimits_applyLinuxRelayDefaults (t : Tuning) (mode : TuningMode) (budget : Nat) :
    (t.applyLinuxRelayDefaults host mode budget).relayDefaultIdealSend = t.relayDefaultIdealSend ∧
      (t.applyLinuxRelayDefaults host mode budget).relayReadBatchBytes =
        (if mode = .lan then 256 * 1024 else 1024 * 1024) ∧
      (t.applyLinuxRelayDefaults host mode budget).relayWorkerByteBudgetPerTick =
        if mode = .lan then 16 * 1024 * 1024 else 64 * 1024 * 1024 := by
  unfold Tuning.applyLinuxRelayDefaults Tuning.applyLinuxRelayMode
  dsimp only
  split_ifs <;> exact ⟨rfl, rfl, rfl⟩

theorem readLimits_applyHighBdpPipelineScaling (t : Tuning) :
    t.applyHighBdpPipelineScaling.relayReadBatchBytes =
        (if t.relayDefaultIdealSend < 64 * 1024 * 1024 then t.relayReadBatchBytes
        else max t.relayReadBatchBytes (4 * 1024 * 1024)) ∧
      t.applyHighBdpPipelineScaling.relayWorkerByteBudgetPerTick ≤
        max t.relayWorkerByteBudgetPerTick t.relayDefaultIdealSend := by
  unfold Tuning.applyHighBdpPipelineScaling
  split_ifs
  · exact ⟨rfl, le_max_left _ _⟩
  · exact ⟨rfl, ((min_le_left _ _).trans (min_le_left _ _)).trans (le_max_right _ _)⟩

theorem readLimits_scaled (t : Tuning) (mode : TuningMode) (budget : Nat)
    (hideal : t.relayDefaultIdealSend = if mode = .lan then 4 * MiB else 64 * MiB) :
    (t.applyLinuxRelayDefaults host mode budget).applyHighBdpPipelineScaling.relayReadBatchBytes =
      mode.readBatchBytes ∧
      (t.applyLinuxRelayDefaults host mode
        budget).applyHighBdpPipelineScaling.relayWorkerByteBudgetPerTick ≤
        LinuxRelay.initialIdealSendFallbackBytes := by
  obtain ⟨hkeep, hbatch, htick⟩ := readLimits_applyLinuxRelayDefaults host t mode budget
  obtain ⟨hscaled, hbudget⟩ :=
    readLimits_applyHighBdpPipelineScaling (t.applyLinuxRelayDefaults host mode budget)
  rw [hkeep, hideal, hbatch] at hscaled
  rw [hkeep, hideal, htick] at hbudget
  constructor
  · rw [hscaled]
    cases mode <;> decide
  · refine hbudget.trans ?_
    cases mode <;> decide

theorem readTickBudget_computeTuning :
    LinuxRelay.Relay.readTickBudget (computeTuning host o out).2.workerConfig =
      o.tuningMode.readBatchBytes := by
  obtain ⟨hbatch, htick⟩ :=
    readLimits_scaled host ((out.applyModeDefaults o.tuningMode).applyCustomOverrides o)
    o.tuningMode (budgetBytes host o ((out.applyModeDefaults o.tuningMode).applyCustomOverrides o))
    (relayDefaultIdealSend_overridden o out o.tuningMode)
  have hbound : o.tuningMode.readBatchBytes ≤ LinuxRelay.initialIdealSendFallbackBytes := by
    cases o.tuningMode <;> decide
  simp only [LinuxRelay.Relay.readTickBudget, Tuning.workerConfig, computeTuning,
    Tuning.applyValidationBounds,
    Tuning.applyCustomOverrides] at hbatch htick ⊢
  rw [hbatch, max_eq_right htick]
  exact min_eq_left hbound

end
end TcpQuicProxy.Config

/-! ### What the limits mean for the loop -/

namespace TcpQuicProxy.LinuxRelay

/-- The socket of a relay is readable, no backlog pauses it, and at least one
buffer can be acquired. -/
structure Relay.Readable (r : Relay) : Prop where
  entered : r.drainTcpReadable.1 = true
  buffers : 0 < r.io.buffers
  pending : r.tcpInput ≠ []
  answered : ∃ n, 0 < n ∧ r.io.read = .data n

/-- The first turn of the read loop of every readable relay takes bytes off
its socket. -/
def Config.CanRead (cfg : Config) : Prop :=
  ∀ r : Relay, r.Readable →
    (bytesRead r.log).length < (bytesRead (r.drainTcpReadableTurn cfg 0).1.log).length

/-- No turn of the read loop of any relay takes bytes off a socket. -/
def Config.NeverReads (cfg : Config) : Prop :=
  ∀ (r : Relay) (readBytes : Nat),
    bytesRead (r.drainTcpReadableTurn cfg readBytes).1.log = bytesRead r.log

variable {cfg : Config} {r : Relay}

theorem neverReads_of_lt (h : Relay.readTickBudget cfg < cfg.readChunkSize) : cfg.NeverReads := by
  intro r readBytes
  have hnone : r.acquiredBuffers cfg readBytes = 0 := by
    have hwanted : Relay.wantedBuffers cfg readBytes = 0 := if_neg (by omega)
    unfold Relay.acquiredBuffers
    rw [hwanted, Nat.zero_min, ite_self]
  unfold Relay.drainTcpReadableTurn
  rw [if_pos hnone]
  split_ifs
  · rfl
  · exact congrArg ReadSide.bytes (r.readSide_noteBufferLimit cfg readBytes)

theorem acquiredBuffers_pos (hpos : 0 < cfg.readChunkSize)
    (hle : cfg.readChunkSize ≤ Relay.readTickBudget cfg) (hbuffers : 0 < r.io.buffers) :
    0 < r.acquiredBuffers cfg 0 := by
  have hwanted : Relay.wantedBuffers cfg 0 = min cfg.maxIov 1024 := if_pos (by omega)
  have hiov := cfg.maxIov_pos
  unfold Relay.acquiredBuffers
  rw [if_neg (by omega), hwanted]
  omega

theorem canRead_of_le (hpos : 0 < cfg.readChunkSize)
    (hle : cfg.readChunkSize ≤ Relay.readTickBudget cfg) :
    cfg.CanRead := by
  intro r hr
  obtain ⟨n, hn, hread⟩ := hr.answered
  have hacquired : 0 < r.acquiredBuffers cfg 0 := acquiredBuffers_pos hpos hle hr.buffers
  have hroom : 0 < min n (r.acquiredBuffers cfg 0 * cfg.readChunkSize) :=
    lt_min hn (Nat.mul_pos hacquired hpos)
  have hbytes : r.tcpInput.take (min n (r.acquiredBuffers cfg 0 * cfg.readChunkSize)) ≠ [] := by
    rw [Ne, List.take_eq_nil_iff, not_or]
    exact ⟨by omega, hr.pending⟩
  have hturn : r.readTurn cfg 0 =
      .batch (r.tcpInput.take (min n (r.acquiredBuffers cfg 0 * cfg.readChunkSize)))
      (splitViews cfg.readChunkSize (r.acquiredBuffers cfg 0)
        (r.tcpInput.take (min n (r.acquiredBuffers cfg 0 * cfg.readChunkSize)))) := by
    have hidle : ¬ (Relay.readTickBudget cfg ≤ 0 || r.acquiredBuffers cfg 0 = 0) = true := by
      rw [Bool.or_eq_true, decide_eq_true_eq, decide_eq_true_eq]
      omega
    unfold Relay.readTurn
    rw [if_neg hidle, hread]
    exact if_neg hbytes
  -- the turn ends with the batch read and submitted, and no submission changes what was read
  have hend := Relay.turnEnd_drainTcpReadableTurn cfg (r := r) 0
  rw [hturn] at hend
  generalize r.tcpInput.take (min n (r.acquiredBuffers cfg 0 * cfg.readChunkSize)) =
    bytes at hbytes hend
  generalize r.drainTcpReadableTurn cfg 0 = p at hend
  cases hend with
  | batch hviews =>
    have hside := congrArg ReadSide.bytes
      (Relay.readSide_submitReadBatch cfg ((r.noteBufferLimit cfg 0).takeTcpInput bytes)
        (splitViews cfg.readChunkSize (r.acquiredBuffers cfg 0) bytes))
    rw [Relay.readSide_takeTcpInput, Relay.readSide_noteBufferLimit] at hside
    have hgrown := congrArg List.length hside
    have hlength := List.length_pos_iff.mpr hbytes
    simp only [Relay.readSide, List.length_append] at hgrown ⊢
    omega

/-- A relay that is readable whatever its configuration. -/
def Relay.fresh : Relay := { tcpInput := [0], io := { read := .data 1 } }

theorem readable_fresh : Relay.fresh.Readable :=
  ⟨by decide, by decide, by decide, 1, by decide, rfl⟩

theorem canRead_iff (hpos : 0 < cfg.readChunkSize) :
    cfg.CanRead ↔ cfg.readChunkSize ≤ Relay.readTickBudget cfg := by
  refine ⟨fun h => ?_, canRead_of_le hpos⟩
  by_contra hlt
  have hgrown := h .fresh readable_fresh
  rw [neverReads_of_lt (Nat.lt_of_not_le hlt)] at hgrown
  exact absurd hgrown (lt_irrefl _)

end TcpQuicProxy.LinuxRelay

namespace TcpQuicProxy.Config

theorem overrideWith_pos (value : UInt32) {current : Nat} (h : 0 < current) :
    0 < overrideWith value current := by
  unfold overrideWith
  split_ifs with hv
  · exact hv
  · exact h

theorem readChunkSize_pos (o : Options) : 0 < o.readChunkSize :=
  overrideWith_pos _ (overrideWith_pos _ (by decide))

/-- The workers of a tuning can read exactly when the chunk size in force fits
into what one tick of its mode may read; no other setting matters, and past
that size no relay of theirs ever reads. -/
theorem computed_tuning_reads_iff (host : Host) (o : Options) (out : Tuning) :
    ((computeTuning host o out).2.workerConfig.CanRead ↔
      o.readChunkSize ≤ o.tuningMode.readBatchBytes) ∧
      (o.tuningMode.readBatchBytes < o.readChunkSize →
        (computeTuning host o out).2.workerConfig.NeverReads) := by
  have hchunk : (computeTuning host o out).2.workerConfig.readChunkSize = o.readChunkSize :=
    readChunkSize_computeTuning host o out
  have htick := readTickBudget_computeTuning host o out
  constructor
  · rw [← hchunk, ← htick]
    exact LinuxRelay.canRead_iff (hchunk ▸ readChunkSize_pos o)
  · intro hlt
    exact LinuxRelay.neverReads_of_lt (by rw [hchunk, htick]; exact hlt)

/-- In LAN mode a chunk size of 512 KiB is accepted, and no relay ever reads. -/
theorem lan_halfMiB_never_reads :
    ∃ o : Options, Options.withReadChunkSizes { tuningMode := .lan } (some 524288) none = some o ∧
      ∀ (host : Host) (out : Tuning), ¬ (computeTuning host o out).2.workerConfig.CanRead := by
  refine ⟨{ tuningMode := .lan, overrideRelayReadChunkSize := 524288 }, rfl,
    fun host out hread => ?_⟩
  have hchunk :=
    readChunkSize_computeTuning host
      { tuningMode := .lan, overrideRelayReadChunkSize := 524288 } out
  have htick :=
    readTickBudget_computeTuning host
      { tuningMode := .lan, overrideRelayReadChunkSize := 524288 } out
  have hgrown := hread .fresh LinuxRelay.readable_fresh
  rw [LinuxRelay.neverReads_of_lt] at hgrown
  · exact absurd hgrown (lt_irrefl _)
  · rw [htick]
    exact lt_of_lt_of_eq (by decide) hchunk.symm

end TcpQuicProxy.Config
