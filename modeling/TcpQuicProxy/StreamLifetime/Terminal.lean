import TcpQuicProxy.Machine.Run

/-!
# The terminal shutdown of one stream

`BeginTerminalShutdown` reserves, calls `Shutdown` without the lock, settles the owner,
records the result in the ledger and hands over to the scheduler, each in a critical
section of its own. `UpgradeTerminalShutdownToAbort`, retries, the watchdog and
SHUTDOWN_COMPLETE come in between. A frame is a call or a task in progress.
-/

namespace TcpQuicProxy.StreamLifetime

open List Option

inductive TerminalPhase where
  | active
  | shutdownReserved
  | shutdownSubmitted
  | terminalObserved
  deriving DecidableEq

inductive WatchdogState where
  | idle
  | armed
  | canceled
  | escalated
  | terminalTimeout
  deriving DecidableEq

inductive TerminalIntent where
  | gracefulComplete
  | abortBothImmediate
  deriving DecidableEq

/-- The terminal members of the owner; `usable` stands for a stream in phase `Starting` or
`Started`. -/
structure TerminalOwner where
  usable : Bool := true
  terminalPhase : TerminalPhase := .active
  terminalShutdownAttempt : Nat := 0
  intent : TerminalIntent := .abortBothImmediate
  sink : Bool := false
  escalation : Bool := false
  abortUpgradeReserved : Bool := false
  abortUpgradeApplied : Bool := false
  deriving DecidableEq

structure TerminalLedger where
  phase : TerminalPhase := .active
  shutdownAttempt : Nat := 0
  watchdog : WatchdogState := .idle
  connectionEscalated : Bool := false
  deriving DecidableEq

inductive TerminalTask where
  | retry
  | watchdog (escalation : Bool)
  | timeout
  deriving DecidableEq

/-- What `Shutdown` answers, or the scheduler that is to queue a task. -/
inductive TerminalAnswer where
  | ok
  | failed
  /-- The task was queued, but no worker could be started. -/
  | notStarted
  deriving DecidableEq

/-- How far a call or a task is. -/
inductive TerminalPc where
  /-- `BeginTerminalShutdown`: refused, in `Shutdown`, settled, recorded. -/
  | refused (escalation : Bool)
  | calling (attempt : Nat) (intent : TerminalIntent)
  | settled (attempt : Nat) (intent : TerminalIntent) (submitted : Bool)
  | recorded (attempt : Nat) (intent : TerminalIntent) (submitted : Bool)
  /-- `Escalate`, so many times; `due` for the watchdog's own task. -/
  | escalating (escalation due : Bool) (times : Nat)
  | upgrading (attempt : Nat) (escalation : Bool)
  | upgraded (attempt : Nat) (escalation submitted : Bool)
  /-- A retry task, before and after `RetryTerminalShutdown` has read its arguments. -/
  | retrying
  | beginning (sink escalation : Bool) (intent : TerminalIntent)
  | timingOut
  deriving DecidableEq

structure TerminalFrame where
  pc : TerminalPc
  onWorker : Bool := false
  deriving DecidableEq

/-- The ledger is marked as escalated or timed out. -/
structure TerminalMark where
  /-- With a call of `RequestConnectionShutdown`. -/
  requests : Bool
  /-- SHUTDOWN_COMPLETE was recorded before the step. -/
  late : Bool
  /-- An abort was accepted before the step, and the watchdog is not due. -/
  early : Bool
  deriving DecidableEq

structure Terminal where
  owner : TerminalOwner := {}
  ledger : TerminalLedger := {}
  tasks : List TerminalTask := []
  frames : List TerminalFrame := []
  stopped : Bool := false
  marks : List TerminalMark := []
  /-- A shutdown has begun, `Shutdown` has succeeded, and so it has with an abort. -/
  begun : Bool := false
  accepted : Bool := false
  abortAccepted : Bool := false
  everStopped : Bool := false
  retryCalls : Nat := 0
  deriving DecidableEq

inductive Terminal.Action where
  | beginTerminalShutdown (sink escalation : Bool) (intent : TerminalIntent)
  | upgradeTerminalShutdownToAbort (escalation : Bool)
  | advance (index : Nat) (answer : TerminalAnswer)
  | runTask (index : Nat)
  | shutdownComplete
  /-- `Cancel` and `Stop` of the scheduler, with the ledger in its index or not. -/
  | cancel (indexed : Bool)
  | stop (indexed : Bool)
  | start
  | startFailed
  deriving DecidableEq

namespace Terminal

open Machine

variable (s : Terminal)

/-- The ledger is marked and, with an escalation object, the connection is shut down. -/
def escalate (escalation due : Bool) : Terminal :=
  { s with
    ledger := { s.ledger with watchdog := .escalated, connectionEscalated := true }
    marks :=
      s.marks ++ [⟨escalation, s.ledger.phase = .terminalObserved, s.abortAccepted && !due⟩] }

/-- `EnqueueTaskLocked` and `StartWorkerWithLifecycleLocked`; without a worker all tasks of
the stream are erased. -/
def enqueue (task : TerminalTask) : TerminalAnswer → List TerminalTask
  | .ok => s.tasks ++ [task]
  | .failed => s.tasks
  | .notStarted => []

/-- `MarkEscalated` and the rest of `Escalate`. -/
def escalateTask (escalation due : Bool) (answer : TerminalAnswer) : Terminal :=
  if s.ledger.phase ≠ .terminalObserved && s.ledger.watchdog ≠ .canceled &&
      s.ledger.watchdog ≠ .terminalTimeout && !s.ledger.connectionEscalated then
    { s.escalate escalation due with tasks := s.enqueue .timeout answer }
  else s

def recordShutdown (attempt : Nat) (submitted : Bool) : Terminal :=
  if attempt < s.ledger.shutdownAttempt then s
  else
    let phase :=
      if s.ledger.phase = .terminalObserved then s.ledger.phase
      else if submitted then .shutdownSubmitted else .active
    { s with ledger := { s.ledger with shutdownAttempt := attempt, phase } }

/-- The first critical section of `BeginTerminalShutdown`, with what goes on after it. -/
def reserve (sink escalation : Bool) (intent : TerminalIntent) (onWorker : Bool) :
    Terminal × Option TerminalPc :=
  if s.owner.terminalPhase ≠ .active then (s, none)
  else if !s.owner.usable || !sink then ({ s with begun := true }, some (.refused escalation))
  else
    let attempt := s.owner.terminalShutdownAttempt + 1
    ({ s with
        begun := true
        retryCalls := if onWorker then s.retryCalls + 1 else s.retryCalls
        owner :=
          { s.owner with
            sink, escalation, intent
            terminalPhase := .shutdownReserved
            terminalShutdownAttempt := attempt }
        ledger := { s.ledger with phase := .shutdownReserved, shutdownAttempt := attempt } },
      some (.calling attempt intent))

/-- The answer of `Shutdown` and the critical section after it. -/
def settle (attempt : Nat) (intent : TerminalIntent) (ok : Bool) : Terminal × Option TerminalPc :=
  if s.owner.terminalPhase = .terminalObserved then (s, none)
  else if ok then
    ({ s with
        accepted := true, abortAccepted := s.abortAccepted || intent = .abortBothImmediate
        owner := { s.owner with terminalPhase := .shutdownSubmitted } },
          some (.settled attempt intent true))
  else
    let terminalPhase :=
      if s.owner.terminalPhase = .shutdownReserved then .active else s.owner.terminalPhase
    ({ s with owner := { s.owner with terminalPhase } }, some (.settled attempt intent false))

/-- `ArmWatchdog`, up to an escalation. -/
def armWatchdog (answer : TerminalAnswer) : Terminal × Option TerminalPc :=
  let escalating := TerminalPc.escalating s.owner.escalation false 1
  if s.ledger.phase = .shutdownSubmitted && s.ledger.watchdog = .idle then
    let t := { s with ledger := { s.ledger with watchdog := .armed } }
    if s.stopped then (t, some escalating)
    else ({ t with tasks := s.enqueue (.watchdog s.owner.escalation) answer },
      if answer = .ok then none else some escalating)
  else (s, some escalating)

/-- `ScheduleRetry`, and again with the last attempt if it fails. -/
def scheduleRetry (attempt : Nat) (answer : TerminalAnswer) : Terminal × Option TerminalPc :=
  let escalating := TerminalPc.escalating s.owner.escalation false 1
  if 4 ≤ attempt then (s, some (.escalating s.owner.escalation false 2))
  else if s.ledger.phase ≠ .terminalObserved && s.ledger.watchdog ≠ .canceled && !s.stopped then
    ({ s with tasks := s.enqueue .retry answer }, if answer = .ok then none else some escalating)
  else (s, some escalating)

def settleUpgrade (attempt : Nat) (escalation ok : Bool) : Terminal × Option TerminalPc :=
  let owner := { s.owner with abortUpgradeReserved := false }
  if s.owner.terminalPhase ≠ .terminalObserved && ok then
    ({ s with
      owner := { owner with abortUpgradeApplied := true }
      accepted := true, abortAccepted := true },
      some (.upgraded attempt escalation true))
  else ({ s with owner }, some (.upgraded attempt escalation false))

def recordUpgrade (attempt : Nat) (escalation submitted : Bool) : Terminal :=
  let t := { s with ledger := { s.ledger with shutdownAttempt := attempt } }
  if submitted && s.ledger.phase ≠ .terminalObserved then
    let u := { t with ledger := { t.ledger with phase := .shutdownSubmitted } }
    if escalation && !s.ledger.connectionEscalated then u.escalate escalation false else u
  else t

def timeOut : Terminal :=
  if s.ledger.watchdog = .escalated then
    { s with
      ledger := { s.ledger with watchdog := .terminalTimeout }
      marks := s.marks ++ [⟨false, s.ledger.phase = .terminalObserved, false⟩] }
  else s

def advance (answer : TerminalAnswer) (onWorker : Bool) : TerminalPc → Terminal × Option TerminalPc
  | .refused escalation =>
    (if escalation && !s.ledger.connectionEscalated then s.escalate escalation false else s, none)
  | .calling attempt intent => s.settle attempt intent (answer = .ok)
  | .settled attempt intent submitted =>
    (s.recordShutdown attempt submitted, some (.recorded attempt intent submitted))
  | .recorded _ .gracefulComplete _ => (s, none)
  | .recorded _ .abortBothImmediate true => s.armWatchdog answer
  | .recorded attempt .abortBothImmediate false => s.scheduleRetry attempt answer
  | .escalating escalation due times =>
    (s.escalateTask escalation due answer,
      if times ≤ 1 then none else some (.escalating escalation due (times - 1)))
  | .upgrading attempt escalation => s.settleUpgrade attempt escalation (answer = .ok)
  | .upgraded attempt escalation submitted => (s.recordUpgrade attempt escalation submitted, none)
  | .retrying =>
    (s, if s.ledger.phase = .terminalObserved || s.ledger.watchdog = .canceled then none
      else some (.beginning s.owner.sink s.owner.escalation s.owner.intent))
  | .beginning sink escalation intent => s.reserve sink escalation intent onWorker
  | .timingOut => (s.timeOut, none)

/-- The frame goes on or is gone. -/
def replace (index : Nat) (f : TerminalFrame) : Option TerminalPc → Terminal
  | some pc => { s with frames := s.frames.set index { f with pc } }
  | none => { s with frames := s.frames.eraseIdx index }

def TerminalTask.pc : TerminalTask → TerminalPc
  | .retry => .retrying
  | .watchdog escalation => .escalating escalation true 1
  | .timeout => .timingOut

/-- `TqTerminalSchedulerInternals::Cancel`. -/
def cancelWatchdog (indexed : Bool) : Terminal :=
  if indexed && s.ledger.watchdog ≠ .terminalTimeout then
    { s with ledger := { s.ledger with watchdog := .canceled } } else s

def shutdownComplete : Terminal :=
  if s.owner.usable && s.owner.terminalPhase ≠ .terminalObserved then
    let watchdog :=
      if s.ledger.watchdog = .armed || s.ledger.watchdog = .escalated then .canceled
      else s.ledger.watchdog
    { s with
      owner := { s.owner with terminalPhase := .terminalObserved }
      ledger := { s.ledger with phase := .terminalObserved, watchdog } }
  else s

def upgrade (escalation : Bool) : Terminal :=
  if s.owner.terminalPhase ≠ .shutdownSubmitted || s.owner.abortUpgradeApplied ||
    s.owner.abortUpgradeReserved then s
  else
    let attempt := s.owner.terminalShutdownAttempt + 1
    let escalation := escalation || s.owner.escalation
    { s with
      owner := { s.owner with
        abortUpgradeReserved := true, intent := .abortBothImmediate
        escalation, terminalShutdownAttempt := attempt }
      frames := s.frames ++ [⟨.upgrading attempt escalation, false⟩] }

def step (s : Terminal) : Action → Option Terminal
  | .beginTerminalShutdown sink escalation intent => some <|
      match s.reserve sink escalation intent false with
      | (t, some pc) => { t with frames := t.frames ++ [⟨pc, false⟩] }
      | (t, none) => t
  | .upgradeTerminalShutdownToAbort escalation => some (s.upgrade escalation)
  | .advance index answer => s.frames[index]?.map fun f =>
      let (t, pc) := s.advance answer f.onWorker f.pc
      t.replace index f pc
  | .runTask index => s.tasks[index]?.map fun task =>
      { s with
        tasks := s.tasks.eraseIdx index, frames := s.frames ++ [⟨TerminalTask.pc task, true⟩] }
  | .shutdownComplete => some s.shutdownComplete
  | .cancel indexed =>
    if s.owner.terminalPhase = .terminalObserved then
      some { s.cancelWatchdog indexed with tasks := [] } else none
  | .stop indexed =>
    some { s.cancelWatchdog indexed with tasks := [], stopped := true, everStopped := true }
  | .start => some { s with stopped := false }
  | .startFailed => some { s with owner := { s.owner with usable := false } }

/-! ### Escalations -/

/-- A refused call goes on to the connection after SHUTDOWN_COMPLETE. -/
def lateMark (s : Terminal) : TerminalPc → Bool
  | .refused true => !s.ledger.connectionEscalated && s.ledger.phase = .terminalObserved
  | _ => false

def inTime (s : Terminal) : Action → Bool
  | .advance index _ => !s.frames[index]?.any (s.lateMark ·.pc)
  | _ => true

variable {s t : Terminal} {a : Action}

/-- The frame marks the ledger as escalated. -/
def escalates (s : Terminal) : TerminalPc → Bool
  | .refused escalation => escalation && !s.ledger.connectionEscalated
  | .escalating .. =>
    s.ledger.phase ≠ .terminalObserved && s.ledger.watchdog ≠ .canceled &&
      s.ledger.watchdog ≠ .terminalTimeout &&
      !s.ledger.connectionEscalated
  | .upgraded _ escalation submitted =>
    submitted && s.ledger.phase ≠ .terminalObserved && (escalation && !s.ledger.connectionEscalated)
  | _ => false

/-- What a frame does to the state, branch by branch. -/
inductive Advances (s : Terminal) : TerminalPc → Terminal → Prop
  | quiet {pc : TerminalPc} (tasks : List TerminalTask) (begun : Bool)
      (h : s.escalates pc = false) :
    Advances s pc { s with tasks, begun }
  | refused (h : s.ledger.connectionEscalated = false) :
      Advances s (.refused true) (s.escalate true false)
  | escalated {escalation due : Bool} {times : Nat} (tasks : List TerminalTask)
    (h : s.escalates (.escalating escalation due times) = true) :
    Advances s (.escalating escalation due times) { s.escalate escalation due with tasks }
  | reserved {sink escalation : Bool} {intent : TerminalIntent} (retryCalls attempt : Nat)
      (h : s.owner.terminalPhase = .active) :
    Advances s (.beginning sink escalation intent)
      { s with
        begun := true, retryCalls
        owner :=
          { s.owner with
            sink, escalation, intent
            terminalPhase := .shutdownReserved
            terminalShutdownAttempt := attempt }
        ledger := { s.ledger with phase := .shutdownReserved, shutdownAttempt := attempt } }
  | accepted {attempt : Nat} {intent : TerminalIntent} (abortAccepted : Bool)
      (h : s.owner.terminalPhase ≠ .terminalObserved) :
    Advances s (.calling attempt intent)
      { s with
        accepted := true, abortAccepted
        owner := { s.owner with terminalPhase := .shutdownSubmitted } }
  | failed {attempt : Nat} {intent : TerminalIntent}
      (h : s.owner.terminalPhase ≠ .terminalObserved) :
    Advances s (.calling attempt intent)
      { s with owner := { s.owner with
        terminalPhase :=
          if s.owner.terminalPhase = .shutdownReserved then .active else s.owner.terminalPhase } }
  | recorded {attempt : Nat} {intent : TerminalIntent} {submitted : Bool} :
    Advances s (.settled attempt intent submitted)
      { s with ledger := { s.ledger with
        shutdownAttempt := attempt
        phase :=
          if s.ledger.phase = .terminalObserved then s.ledger.phase
          else if submitted then .shutdownSubmitted else .active } }
  | armed {attempt : Nat} (tasks : List TerminalTask) (hphase : s.ledger.phase = .shutdownSubmitted)
    (hidle : s.ledger.watchdog = .idle) :
    Advances s (.recorded attempt .abortBothImmediate true)
      { s with ledger := { s.ledger with watchdog := .armed }, tasks }
  | upgradeSettled {attempt : Nat} {escalation : Bool}
      (abortUpgradeApplied accepted abortAccepted : Bool)
    (h : s.accepted = true → accepted = true) :
    Advances s (.upgrading attempt escalation)
      { s with
        owner := { s.owner with abortUpgradeReserved := false, abortUpgradeApplied }, accepted,
        abortAccepted }
  | upgradeRecorded {attempt : Nat} {escalation submitted : Bool} (phase : TerminalPhase)
    (h : s.escalates (.upgraded attempt escalation submitted) = false)
    (hphase : phase = .terminalObserved → s.ledger.phase = .terminalObserved) :
    Advances s (.upgraded attempt escalation submitted)
      { s with ledger := { s.ledger with shutdownAttempt := attempt, phase } }
  | upgradeEscalated {attempt : Nat} (h : s.escalates (.upgraded attempt true true) = true) :
    Advances s (.upgraded attempt true true)
      (Terminal.escalate
        { s with
          ledger := { s.ledger with shutdownAttempt := attempt, phase := .shutdownSubmitted } }
        true false)
  | timedOut (h : s.ledger.watchdog = .escalated) :
    Advances s .timingOut
      { s with
        ledger := { s.ledger with watchdog := .terminalTimeout }
        marks := s.marks ++ [⟨false, s.ledger.phase = .terminalObserved, false⟩] }

theorem advances_advance (s : Terminal) (answer : TerminalAnswer) (onWorker : Bool)
    (pc : TerminalPc) : Advances s pc (s.advance answer onWorker pc).1 := by
  cases pc with
  | refused escalation =>
    dsimp only [advance]
    split
    · next hmay =>
      simp only [Bool.and_eq_true, Bool.not_eq_true'] at hmay
      obtain ⟨rfl, hescalated⟩ := hmay
      exact .refused hescalated
    · next hmay => exact .quiet _ _ (Bool.eq_false_iff.mpr hmay)
  | calling attempt intent =>
    simp only [advance, settle]
    split
    · exact .quiet _ _ rfl
    · next hphase =>
      split
      · exact .accepted _ hphase
      · exact .failed hphase
  | settled attempt intent submitted =>
    simp only [advance, recordShutdown]
    split
    · exact .quiet _ _ rfl
    · exact .recorded
  | recorded attempt intent submitted =>
    cases intent with
    | gracefulComplete => exact .quiet _ _ rfl
    | abortBothImmediate =>
      cases submitted with
      | true =>
        simp only [advance, armWatchdog]
        split
        · next hmay =>
          simp only [Bool.and_eq_true, decide_eq_true_eq] at hmay
          split <;> exact .armed _ hmay.1 hmay.2
        · exact .quiet _ _ rfl
      | false =>
        simp only [advance, scheduleRetry]
        split
        · exact .quiet _ _ rfl
        · split <;> exact .quiet _ _ rfl
  | escalating escalation due times =>
    simp only [advance, escalateTask]
    split
    · next hmay => exact .escalated _ hmay
    · next hmay => exact .quiet _ _ (Bool.eq_false_iff.mpr hmay)
  | upgrading attempt escalation =>
    simp only [advance, settleUpgrade]
    split
    · exact .upgradeSettled _ _ _ fun _ => rfl
    · exact .upgradeSettled _ _ _ id
  | upgraded attempt escalation submitted =>
    dsimp only [advance, recordUpgrade]
    split
    · next hmay =>
      split
      · next hescalates =>
        have hboth : s.escalates (.upgraded attempt escalation submitted) = true :=
          Bool.and_eq_true_iff.mpr ⟨hmay, hescalates⟩
        obtain rfl := (Bool.and_eq_true_iff.mp hmay).1
        obtain rfl := (Bool.and_eq_true_iff.mp hescalates).1
        exact .upgradeEscalated hboth
      · next hescalates =>
          exact .upgradeRecorded _
            (Bool.and_eq_false_imp.mpr fun _ => Bool.eq_false_iff.mpr hescalates) nofun
    · next hmay => exact .upgradeRecorded _ (Bool.and_eq_false_imp.mpr fun h => absurd h hmay) id
  | retrying => exact .quiet _ _ rfl
  | beginning sink escalation intent =>
    simp only [advance, reserve]
    split
    · exact .quiet _ _ rfl
    · next hactive =>
      split
      · exact .quiet _ _ rfl
      · exact .reserved _ _ (not_not.mp hactive)
  | timingOut =>
    simp only [advance, timeOut]
    split
    · next hescalated => exact .timedOut hescalated
    · exact .quiet _ _ rfl

/-- What a step does to the marks, if a mark of it is late exactly if `late` holds. -/
inductive Marks (late : Bool) (s t : Terminal) : Prop
  | none (hmarks : t.marks = s.marks) (hlate : late = false)
    (hescalated : t.ledger.connectionEscalated = s.ledger.connectionEscalated)
    (hwatchdog : t.ledger.phase = .terminalObserved → t.ledger.watchdog = .escalated →
      s.ledger.phase = .terminalObserved ∧ s.ledger.watchdog = .escalated)
  | escalated (m : TerminalMark) (hmarks : t.marks = s.marks ++ [m]) (hlate : late = m.late)
    (hphase : m.late = decide (s.ledger.phase = .terminalObserved))
    (hescalated : s.ledger.connectionEscalated = false ∧ t.ledger.connectionEscalated = true)
    (hobserved : t.ledger.phase = .terminalObserved → s.ledger.phase = .terminalObserved)
  | timedOut (m : TerminalMark) (hmarks : t.marks = s.marks ++ [m]) (hlate : late = false)
      (hrequests : m.requests = false)
    (hphase : m.late = decide (s.ledger.phase = .terminalObserved))
    (hescalated : t.ledger.connectionEscalated = s.ledger.connectionEscalated)
    (hwatchdog : s.ledger.watchdog = .escalated ∧ t.ledger.watchdog = .terminalTimeout)

/-- A step that leaves the ledger. -/
theorem Marks.of_ledger (hmarks : t.marks = s.marks) (hledger : t.ledger = s.ledger) :
    Marks false s t :=
  .none hmarks rfl (hledger ▸ rfl) (fun hp hw => ⟨hledger ▸ hp, hledger ▸ hw⟩)

variable {pc : TerminalPc} {answer : TerminalAnswer} {f : TerminalFrame} {index : Nat}

theorem Advances.marks (h : Advances s pc t) : Marks (s.lateMark pc) s t := by
  have hlate (hpc : pc ≠ .refused true) : s.lateMark pc = false := by
    unfold lateMark
    split
    · exact absurd rfl hpc
    · rfl
  cases h with
  | quiet tasks begun h =>
    have hnot : s.lateMark pc = false := by
      by_cases hpc : pc = .refused true
      · subst hpc
        have hescalated : s.ledger.connectionEscalated = true := by simpa [escalates] using h
        simp [lateMark, hescalated]
      · exact hlate hpc
    exact hnot ▸ .of_ledger rfl rfl
  | refused h => exact .escalated _ rfl (by simp [lateMark, h]) rfl ⟨h, rfl⟩ id
  | escalated tasks h =>
    simp only [escalates, Bool.and_eq_true, decide_eq_true_eq, Bool.not_eq_true'] at h
    exact .escalated _ rfl (by simp [lateMark, h]) rfl ⟨h.2, rfl⟩ id
  | reserved => exact .none rfl rfl rfl fun hp => by cases hp
  | accepted | failed | upgradeSettled => exact .of_ledger rfl rfl
  | recorded =>
    refine .none rfl rfl rfl fun hp hw => ⟨?_, hw⟩
    dsimp only at hp
    split at hp
    · exact hp
    · split at hp <;> cases hp
  | armed tasks hphase =>
    exact .none rfl rfl rfl fun hp => absurd (hphase.symm.trans hp) (by decide)
  | upgradeRecorded phase h hphase => exact .none rfl rfl rfl fun hp hw => ⟨hphase hp, hw⟩
  | upgradeEscalated h =>
    simp only [escalates, Bool.and_eq_true, decide_eq_true_eq, Bool.not_eq_true'] at h
    exact .escalated _ rfl (by simp [lateMark]) (by simp [h]) ⟨h.2.2, rfl⟩ fun hp =>
      absurd hp (by simp [escalate])
  | timedOut h => exact .timedOut _ rfl rfl rfl rfl rfl ⟨h, rfl⟩

theorem replace_frame (index : Nat) (f : TerminalFrame) (pc : Option TerminalPc) :
    (s.replace index f pc).marks = s.marks ∧ (s.replace index f pc).ledger = s.ledger := by
  cases pc <;> exact ⟨rfl, rfl⟩

theorem Marks.congr {late : Bool} {u : Terminal} (h : Marks late s t) (hmarks : u.marks = t.marks)
    (hledger : u.ledger = t.ledger) :
    Marks late s u := by
  cases h with
  | none h1 h2 h3 h4 => exact .none (hmarks.trans h1) h2 (hledger ▸ h3) (hledger ▸ h4)
  | escalated m h1 h2 h3 h4 h5 =>
    exact .escalated m (hmarks.trans h1) h2 h3 (hledger ▸ h4) (hledger ▸ h5)
  | timedOut m h1 h2 h3 h4 h5 h6 =>
    exact .timedOut m (hmarks.trans h1) h2 h3 h4 (hledger ▸ h5) (hledger ▸ h6)

theorem marks_cancelWatchdog (indexed : Bool) : Marks false s (s.cancelWatchdog indexed) := by
  unfold cancelWatchdog
  split
  · exact .none rfl rfl rfl (fun _ hw => by cases hw)
  · exact .of_ledger rfl rfl

variable {escalation onWorker sink : Bool} {intent : TerminalIntent} {pc' : TerminalPc}

/-- A call begins with its first critical section. -/
theorem step_begin (hs : s.step (.beginTerminalShutdown sink escalation intent) = some t) :
    ∃ u next, s.advance .ok false (.beginning sink escalation intent) = (u, next) ∧
      t = { u with frames := u.frames ++ (next.map (⟨·, false⟩)).toList } := by
  cases hs
  split
  all_goals
    next heq => exact ⟨_, _, heq, by simp⟩

theorem marks_step (hs : s.step a = some t) : Marks (!s.inTime a) s t := by
  cases a with
  | beginTerminalShutdown sink escalation intent =>
    obtain ⟨u, next, heq, rfl⟩ := step_begin hs
    have hreserve := (s.advances_advance .ok false (.beginning sink escalation intent)).marks
    rw [heq] at hreserve
    exact hreserve.congr rfl rfl
  | upgradeTerminalShutdownToAbort escalation =>
    cases hs
    unfold upgrade
    split <;> exact .of_ledger rfl rfl
  | advance index answer =>
    obtain ⟨f, hf, rfl⟩ := map_eq_some_iff.mp hs
    obtain ⟨hmarks, hledger⟩ := @replace_frame (s.advance answer f.onWorker f.pc).1 index f
      (s.advance answer f.onWorker f.pc).2
    have hadvance := (s.advances_advance answer f.onWorker f.pc).marks.congr hmarks hledger
    have hlate : (!s.inTime (.advance index answer)) = s.lateMark f.pc := by simp [inTime, hf]
    rw [hlate]
    exact hadvance
  | runTask index =>
    obtain ⟨task, -, rfl⟩ := map_eq_some_iff.mp hs
    exact .of_ledger rfl rfl
  | shutdownComplete =>
    cases hs
    unfold shutdownComplete
    split
    · refine .none rfl rfl rfl (fun _ hw => ?_)
      dsimp only at hw
      split at hw
      · cases hw
      · simp_all
    · exact .of_ledger rfl rfl
  | cancel indexed =>
    obtain ⟨-, rfl⟩ := guarded_iff.mp hs
    exact (marks_cancelWatchdog indexed).congr rfl rfl
  | stop indexed =>
    cases hs
    exact (marks_cancelWatchdog indexed).congr rfl rfl
  | start | startFailed =>
    cases hs
    exact .of_ledger rfl rfl

/-- A recorded SHUTDOWN_COMPLETE has no escalation to time out, as long as there was no late mark.
-/
def Settled (s : Terminal) : Prop :=
  (∀ m ∈ s.marks, m.late = false) → s.ledger.phase = .terminalObserved →
    s.ledger.watchdog ≠ .escalated

/-- One request for each ledger. -/
def Once (s : Terminal) : Prop := s.marks.countP (·.requests) ≤ s.ledger.connectionEscalated.toNat

theorem Once.step (h : Once s) (hs : s.step a = some t) : Once t := by
  unfold Once at h ⊢
  cases marks_step hs with
  | none hmarks _ hescalated _ => rwa [hmarks, hescalated]
  | escalated m hmarks _ _ hescalated _ =>
    rw [hescalated.1] at h
    rw [hmarks, hescalated.2, countP_append, countP_singleton]
    simp only [Bool.toNat_false, Bool.toNat_true] at h ⊢
    split <;> omega
  | timedOut m hmarks _ hrequests _ hescalated _ =>
    rw [hmarks, hescalated, countP_append, countP_singleton, hrequests]
    exact h

theorem Settled.step (h : Settled s) (hs : s.step a = some t) : Settled t := by
  intro hin hphase
  cases marks_step hs with
  | none hmarks _ _ hwatchdog =>
    intro hw
    obtain ⟨hp, hw⟩ := hwatchdog hphase hw
    exact h (hmarks ▸ hin) hp hw
  | escalated m hmarks _ hlate _ hobserved =>
    have hm := hin m (hmarks ▸ mem_append_right _ (mem_singleton_self m))
    rw [hlate, decide_eq_false_iff_not] at hm
    exact absurd (hobserved hphase) hm
  | timedOut m hmarks _ _ _ _ hwatchdog =>
    rw [hwatchdog.2]
    nofun

theorem late_step (h : Settled s) (hs : s.step a = some t) :
    (∀ m ∈ t.marks, m.late = false) ↔ (∀ m ∈ s.marks, m.late = false) ∧ s.inTime a = true := by
  cases marks_step hs with
  | none hmarks hlate _ _ => simp_all
  | escalated m hmarks hlate _ _ _ =>
    rw [hmarks]
    simp only [forall_mem_append, forall_mem_singleton]
    rw [← hlate, Bool.not_eq_false']
  | timedOut m hmarks hlate _ hphase _ hwatchdog =>
    rw [hmarks]
    simp only [forall_mem_append, forall_mem_singleton]
    have htime : s.inTime a = true := by simpa using hlate
    refine and_congr_right fun hin => ⟨fun _ => htime, fun _ => ?_⟩
    rw [hphase, decide_eq_false_iff_not]
    exact fun hp => h hin hp hwatchdog.1

/-- The connection is asked to shut down at most once, and nothing is marked after
SHUTDOWN_COMPLETE exactly if no refused call goes on after it. -/
theorem escalated_once_in_time (actions : List Action) (t : Terminal)
    (hrun : run step {} actions = some t) :
    t.marks.countP (·.requests) ≤ 1 ∧
    ((∀ m ∈ t.marks, m.late = false) ↔ Meets step (fun s a => s.inTime a = true) {} actions) := by
  have honce : Once t := Machine.invariant (fun _ _ _ h hs => Once.step h hs) (Nat.zero_le _) hrun
  refine ⟨Nat.le_trans honce (Bool.toNat_le _), ?_⟩
  rw [Machine.good_iff_meets Settled (fun s => ∀ m ∈ s.marks, m.late = false)
    (fun _ _ _ h hs => Settled.step h hs)
    (fun _ _ _ h hs => late_step h hs) (s := {}) (fun _ hp => by cases hp) hrun]
  exact and_iff_right (fun m hm => (not_mem_nil hm).elim)

/-- An abort is accepted, the watchdog escalates, and then the stream ends. -/
theorem watchdog_in_time :
    ∃ t, run step {}
      [.beginTerminalShutdown true true .abortBothImmediate, .advance 0 .ok, .advance 0 .ok,
        .advance 0 .ok, .runTask 0, .advance 0 .ok, .shutdownComplete, .runTask 0,
        .advance 0 .ok] = some t ∧
    t.marks.countP (·.requests) = 1 ∧ t.marks.countP (·.requests) ≤ 1 ∧
      ∀ m ∈ t.marks, m.late = false := by
  refine run_observed (f := fun t => t.marks.countP (·.requests)) rfl fun t ht hone => ?_
  have h := escalated_once_in_time _ t ht
  exact ⟨hone, h.1, h.2.mpr (by decide)⟩

/-- A call without a sink is refused, the stream ends, and the call goes on to the connection. -/
theorem refused_escalates_late :
    ∃ t, run step {} [.beginTerminalShutdown false true .abortBothImmediate, .shutdownComplete,
      .advance 0 .ok] = some t ∧ t.marks = [⟨true, true, false⟩] :=
  ⟨_, rfl, rfl⟩

/-! ### The ledger follows the owner -/

/-- A call of `BeginTerminalShutdown`, `RetryTerminalShutdown` or `UpgradeTerminalShutdownToAbort`
in progress. -/
def TerminalPc.calls : TerminalPc → Bool
  | .retrying | .timingOut | .escalating _ true _ => false
  | _ => true

def idle (s : Terminal) : Bool := !s.frames.any fun f => TerminalPc.calls f.pc

/-- The call begins while no other is in progress. -/
def alone (s : Terminal) : Action → Bool
  | .beginTerminalShutdown _ _ _ | .upgradeTerminalShutdownToAbort _ => s.idle
  | .advance index _ => s.idle || !s.frames[index]?.any (·.pc = .retrying)
  | _ => true

/-- An upgrade has no escalation object. -/
def quiet (s : Terminal) : Action → Bool
  | .upgradeTerminalShutdownToAbort escalation => !escalation && !s.owner.escalation
  | _ => true

def TerminalPc.allocates : TerminalPc → Bool
  | .recorded _ _ _ | .escalating _ _ _ => true
  | _ => false

/-- The scheduler is not stopped, allocations succeed and its worker can be started. -/
def scheduled (s : Terminal) : Action → Bool
  | .stop _ => false
  | .advance index answer =>
    answer = .ok || !s.frames[index]?.any (TerminalPc.allocates ·.pc)
  | _ => true

/-- An escalation has no effect. -/
def Spent (s : Terminal) : Prop :=
  s.ledger.phase = .terminalObserved ∨ s.ledger.watchdog = .canceled ∨
    s.ledger.connectionEscalated = true

/-- What holds while a call is in progress. -/
def Agrees (s : Terminal) : TerminalPc → Prop
  | .calling attempt _ => s.ledger.phase = s.owner.terminalPhase ∧
      (s.owner.terminalPhase = .shutdownReserved ∨ s.owner.terminalPhase = .terminalObserved) ∧
        s.ledger.shutdownAttempt ≤ attempt
  | .settled attempt _ submitted =>
    (s.ledger.phase = .terminalObserved ↔ s.owner.terminalPhase = .terminalObserved) ∧
      (s.owner.terminalPhase = .terminalObserved ∨
        s.owner.terminalPhase = (if submitted then .shutdownSubmitted else .active) ∧
          s.ledger.shutdownAttempt ≤ attempt)
  | .upgrading _ _ | .upgraded _ _ _ => s.ledger.phase = s.owner.terminalPhase ∧
      (s.owner.terminalPhase = .shutdownSubmitted ∨ s.owner.terminalPhase = .terminalObserved)
  | .refused _ | .recorded _ _ _ | .escalating _ false _ | .beginning _ _ _ =>
    s.ledger.phase = s.owner.terminalPhase
  | .retrying | .timingOut | .escalating _ true _ => True

/-- And what keeps it from escalating after an accepted abort. -/
def Timely (s : Terminal) : TerminalPc → Prop
  | .refused _ => s.abortAccepted = false
  | .calling _ _ => s.abortAccepted = false ∧ s.ledger.watchdog ≠ .armed
  | .settled _ _ submitted | .recorded _ _ submitted =>
    (submitted = false → s.abortAccepted = false) ∧ s.ledger.watchdog ≠ .armed
  | .escalating _ false _ => s.abortAccepted = true → s.Spent
  | .upgrading _ escalation | .upgraded _ escalation _ => escalation = false
  | _ => True

structure Clocked (s : Terminal) : Prop where
  early : ∀ m ∈ s.marks, m.early = false
  running : s.stopped = false
  accepted : s.abortAccepted = true →
    s.owner.terminalPhase = .shutdownSubmitted ∨ s.owner.terminalPhase = .terminalObserved
  armed : s.ledger.watchdog = .armed →
    s.owner.terminalPhase = .shutdownSubmitted ∨ s.owner.terminalPhase = .terminalObserved
  marked : s.ledger.watchdog = .escalated ∨ s.ledger.watchdog = .terminalTimeout →
    s.ledger.connectionEscalated = true

attribute [local grind =] advance Agrees settle recordShutdown armWatchdog scheduleRetry
  escalateTask escalate settleUpgrade recordUpgrade reserve timeOut TerminalPc.calls Timely Spent
  shutdownComplete cancelWatchdog

theorem advance_call (answer : TerminalAnswer) (onWorker : Bool)
    (hcalls : TerminalPc.calls pc = true) (hagrees : s.Agrees pc) :
    match s.advance answer onWorker pc with
    | (t, some pc') => TerminalPc.calls pc' = true ∧ t.Agrees pc'
    | (t, none) => t.ledger.phase = t.owner.terminalPhase := by
  cases pc with
  | refused escalation =>
    simp only [advance, Agrees] at hagrees ⊢
    split <;> exact hagrees
  | recorded attempt intent submitted => cases intent <;> cases submitted <;> grind
  | escalating escalation due times => cases due <;> grind
  | retrying | timingOut => cases hcalls
  | _ => grind

/-- The watchdog is armed for the first accepted abort, unless there is nothing left to escalate. -/
theorem timely_armWatchdog (hclocked : s.Clocked) (hphase : s.ledger.phase = s.owner.terminalPhase)
    (harmed : s.ledger.watchdog ≠ .armed) (hpc : (s.armWatchdog .ok).2 = some pc) :
    (s.armWatchdog .ok).1.Timely pc := by
  unfold armWatchdog at hpc ⊢
  simp only [hclocked.running, Bool.false_eq_true, if_true, if_false] at hpc ⊢
  split at hpc
  · cases hpc
  · rename_i hmay
    cases hpc
    rw [if_neg hmay]
    intro haccepted
    rcases hclocked.accepted haccepted with htp | htp
    · cases hwatchdog : s.ledger.watchdog with
      | idle => simp [hphase, htp, hwatchdog] at hmay
      | armed => exact absurd hwatchdog harmed
      | canceled => exact .inr (.inl hwatchdog)
      | escalated => exact .inr (.inr (hclocked.marked (.inl hwatchdog)))
      | terminalTimeout => exact .inr (.inr (hclocked.marked (.inr hwatchdog)))
    · exact .inl (hphase.trans htp)

theorem Clocked.of_advances (h : s.Clocked) (hagrees : s.Agrees pc) (htimely : s.Timely pc)
    (ht : Advances s pc t) :
    t.Clocked := by
  have hmarked {early : Bool} (hearly : early = false) (requests late : Bool) :
      ∀ m ∈ s.marks ++ [⟨requests, late, early⟩], m.early = false :=
    forall_mem_append.mpr ⟨h.early, forall_mem_singleton.mpr hearly⟩
  cases ht with
  | quiet | recorded | upgradeRecorded => exact ⟨h.early, h.running, h.accepted, h.armed, h.marked⟩
  | refused hescalated =>
    exact ⟨hmarked (by rw [show s.abortAccepted = false from htimely]; rfl) _ _, h.running,
      h.accepted, nofun, fun _ => rfl⟩
  | @escalated escalation due times tasks hmay =>
    have hearly : (s.abortAccepted && !due) = false := by
      simp only [escalates, Bool.and_eq_true, decide_eq_true_eq, Bool.not_eq_true'] at hmay
      cases due with
      | true => exact Bool.and_false _
      | false =>
        refine Bool.eq_false_iff.mpr fun haccepted => ?_
        rcases htimely (by simpa using haccepted) with hphase | hwatchdog | hescalated
        · exact hmay.1.1.1 hphase
        · exact hmay.1.1.2 hwatchdog
        · exact Bool.false_ne_true (hmay.2.symm.trans hescalated)
    exact ⟨hmarked hearly _ _, h.running, h.accepted, nofun, fun _ => rfl⟩
  | reserved retryCalls attempt hactive =>
    have hnot :
        ¬(s.owner.terminalPhase = .shutdownSubmitted ∨
          s.owner.terminalPhase = .terminalObserved) := by simp [hactive]
    exact ⟨h.early, h.running, fun hab => absurd (h.accepted hab) hnot,
      fun hw => absurd (h.armed hw) hnot, h.marked⟩
  | accepted => exact ⟨h.early, h.running, fun _ => .inl rfl, fun _ => .inl rfl, h.marked⟩
  | failed =>
    exact ⟨h.early, h.running, fun hab => absurd (htimely.1.symm.trans hab) Bool.false_ne_true,
      fun hw => absurd hw htimely.2, h.marked⟩
  | armed tasks hphase =>
    have hsubmitted : s.owner.terminalPhase = .shutdownSubmitted := hagrees.symm.trans hphase
    exact ⟨h.early, h.running, h.accepted, fun _ => .inl hsubmitted, by simp⟩
  | upgradeSettled => exact ⟨h.early, h.running, fun _ => hagrees.2, fun _ => hagrees.2, h.marked⟩
  | upgradeEscalated => cases htimely
  | timedOut hescalated =>
    exact ⟨hmarked rfl _ _, h.running, h.accepted, nofun, fun _ => h.marked (.inl hescalated)⟩

theorem timely_next (onWorker : Bool) (hok : TerminalPc.allocates pc = true → answer = .ok)
    (hclocked : s.Clocked) (hagrees : s.Agrees pc) (htimely : s.Timely pc)
    (hpc' : (s.advance answer onWorker pc).2 = some pc') :
    (s.advance answer onWorker pc).1.Timely pc' := by
  have ⟨_, _, haccepted, harmed, _⟩ := hclocked
  cases pc with
  | refused escalation | upgraded attempt escalation submitted | timingOut => cases hpc'
  | recorded attempt intent submitted =>
    obtain rfl := hok rfl
    cases intent with
    | gracefulComplete => cases hpc'
    | abortBothImmediate =>
      cases submitted with
      | false => grind
      | true => exact timely_armWatchdog hclocked hagrees htimely.2 hpc'
  | escalating escalation due times => cases due <;> grind
  | _ => grind

/-- A step beside the call in progress. -/
structure Beside (s t : Terminal) : Prop where
  owner : t.owner.terminalPhase = s.owner.terminalPhase
  phase : t.ledger.phase = s.ledger.phase
  attempt : t.ledger.shutdownAttempt = s.ledger.shutdownAttempt
  accepted : t.abortAccepted = s.abortAccepted
  armed : t.ledger.watchdog = .armed → s.ledger.watchdog = .armed
  spent : s.Spent → t.Spent

theorem Beside.agrees (h : Beside s t) (hagrees : s.Agrees pc) : t.Agrees pc := by
  obtain ⟨howner, hphase, hattempt, -, -, -⟩ := h
  cases pc with
  | escalating escalation due times => cases due <;> grind
  | _ => grind

theorem Beside.timely (h : Beside s t) (htimely : s.Timely pc) : t.Timely pc := by
  obtain ⟨-, -, -, haccepted, harmed, hspent⟩ := h
  cases pc with
  | escalating escalation due times => cases due <;> grind
  | _ => grind

theorem beside_advance (answer : TerminalAnswer) (onWorker : Bool)
    (hcalls : TerminalPc.calls pc = false) : Beside s (s.advance answer onWorker pc).1 := by
  cases pc with
  | escalating escalation due times | timingOut => constructor <;> grind
  | retrying => exact ⟨rfl, rfl, rfl, rfl, id, id⟩
  | _ => cases hcalls

/-- The calls among the frames. -/
def callsIn (frames : List TerminalFrame) : Nat := frames.countP (TerminalPc.calls ·.pc)

/-- One call at a time, and the ledger has the owner's phase when there is none. -/
structure Following (strict : Prop) (s : Terminal) (frames : List TerminalFrame) : Prop where
  own : ∀ f ∈ frames, s.Agrees f.pc ∧ (strict → s.Timely f.pc)
  single : callsIn frames ≤ 1
  follows : callsIn frames = 0 → s.ledger.phase = s.owner.terminalPhase
  clocked : strict → s.Clocked

variable {strict : Prop} {rest rest' : List TerminalFrame}

theorem callsIn_cons :
    callsIn (f :: rest) = callsIn rest + if TerminalPc.calls f.pc then 1 else 0 :=
  countP_cons

theorem not_calls (h : callsIn rest = 0) (hf : f ∈ rest) : TerminalPc.calls f.pc = false :=
  Bool.eq_false_iff.mpr (countP_eq_zero.mp h f hf)

theorem idle_iff : s.idle = true ↔ callsIn s.frames = 0 := by
  rw [idle, Bool.not_eq_true', List.any_eq_false, callsIn, countP_eq_zero]

theorem Following.perm (h : Following strict s rest) (hperm : rest.Perm rest') :
    Following strict s rest' := by
  have hcalls : callsIn rest = callsIn rest' := hperm.countP_eq _
  exact ⟨fun f hf => h.own f (hperm.mem_iff.mpr hf), hcalls ▸ h.single,
    hcalls ▸ h.follows, h.clocked⟩

theorem Following.congr (h : Following strict s rest) (tasks : List TerminalTask)
    (frames : List TerminalFrame) : Following strict { s with tasks, frames } rest :=
  ⟨h.own, h.single, h.follows, fun hstrict =>
    have ⟨h1, h2, h3, h4, h5⟩ := h.clocked hstrict
    ⟨h1, h2, h3, h4, h5⟩⟩

theorem of_not_calls (h : TerminalPc.calls pc = false) : s.Agrees pc ∧ s.Timely pc := by
  cases pc with
  | escalating escalation due times =>
    cases due with
    | true => exact ⟨trivial, trivial⟩
    | false => cases h
  | retrying | timingOut => exact ⟨trivial, trivial⟩
  | _ => cases h

theorem of_none (h : callsIn rest = 0) (hf : f ∈ rest) : s.Agrees f.pc ∧ (strict → s.Timely f.pc) :=
  (of_not_calls (not_calls h hf)).imp_right fun htimely _ => htimely

/-- The one call in progress begins or goes on. -/
theorem following_call (hnone : callsIn rest = 0) (hf : TerminalPc.calls f.pc = true)
    (hagrees : t.Agrees f.pc) (htimely : strict → t.Timely f.pc) (hclocked : strict → t.Clocked) :
    Following strict t (f :: rest) := by
  have hone : callsIn (f :: rest) = 1 := by rw [callsIn_cons, hnone, if_pos hf]
  refine ⟨forall_mem_cons.mpr ⟨⟨hagrees, htimely⟩, fun g hg => of_none hnone hg⟩, hone.le,
    fun hzero => ?_, hclocked⟩
  cases hone.symm.trans hzero

/-- A step beside the calls; a frame that is no call may be new. -/
theorem Following.beside (h : Following strict s rest) (hbeside : Beside s t)
    (new : Option TerminalFrame) (hnew : ∀ f ∈ new, TerminalPc.calls f.pc = false)
    (hclocked : strict → t.Clocked) : Following strict t (new.toList ++ rest) := by
  have hcalls : callsIn (new.toList ++ rest) = callsIn rest := by
    cases new with
    | none => rfl
    | some f => simp [callsIn_cons, hnew f rfl]
  refine ⟨forall_mem_append.mpr ⟨fun f hf => ?_, fun f hf => ?_⟩, hcalls ▸ h.single,
    fun hnone => ?_, hclocked⟩
  · exact (of_not_calls (hnew f (mem_toList.mp hf))).imp_right fun htimely _ => htimely
  · exact (h.own f hf).imp hbeside.agrees fun htimely hstrict => hbeside.timely (htimely hstrict)
  · rw [hbeside.phase, hbeside.owner]
    exact h.follows (hcalls ▸ hnone)

theorem Following.leave (h : Following strict s s.frames) (hbeside : Beside s t)
    (hframes : t.frames = s.frames) (hclocked : strict → t.Clocked) :
    Following strict t t.frames :=
  hframes ▸ h.beside hbeside none nofun hclocked

theorem Advances.frames (h : Advances s pc t) : t.frames = s.frames := by
  cases h <;> rfl

theorem advance_frames (answer : TerminalAnswer) (onWorker : Bool) (pc : TerminalPc) :
    (s.advance answer onWorker pc).1.frames = s.frames :=
  (s.advances_advance answer onWorker pc).frames

/-- Only a retry becomes a call. -/
theorem advance_beside (hcalls : TerminalPc.calls pc = false)
    (hpc : (s.advance answer onWorker pc).2 = some pc') (hcalls' : TerminalPc.calls pc' = true) :
    pc = .retrying ∧ (s.ledger.phase = s.owner.terminalPhase → s.Agrees pc') := by
  cases pc with
  | escalating escalation due times => cases due <;> grind
  | retrying => grind
  | timingOut => cases hpc
  | _ => cases hcalls

theorem replace_perm (hf : s.frames[index]? = some f) (next : Option TerminalPc) :
    ((next.map fun pc => { f with pc }).toList ++ s.frames.eraseIdx index).Perm
      (s.replace index f next).frames := by
  cases next with
  | none => exact .refl _
  | some pc => exact (set_perm_cons_eraseIdx (List.getElem?_eq_some_iff.mp hf).1 _).symm

/-- A frame beside the others goes on. -/
theorem Following.go {next : Option TerminalPc} (h : Following strict s (f :: rest))
    (hadvance : s.advance answer f.onWorker f.pc = (t, next)) (hclocked : strict → t.Clocked)
    (htimely : ∀ pc, next = some pc → strict → t.Timely pc)
    (hidle : f.pc = .retrying → callsIn (f :: rest) = 0) :
    Following strict t ((next.map fun pc => { f with pc }).toList ++ rest) := by
  obtain ⟨hagrees, -⟩ := h.own f mem_cons_self
  have ⟨hown, hsingle, hfollows, hclock⟩ := h
  rw [callsIn_cons] at hsingle hfollows hidle
  cases hcalls : TerminalPc.calls f.pc with
  | true =>
    have hnone : callsIn rest = 0 := by
      rw [if_pos hcalls] at hsingle
      omega
    have hcall := advance_call answer f.onWorker hcalls hagrees
    rw [hadvance] at hcall
    cases next with
    | none =>
      exact ⟨fun g hg => of_none hnone hg, Nat.le_succ_of_le hnone.le, fun _ => hcall, hclocked⟩
    | some pc => exact following_call hnone hcall.1 hcall.2 (htimely pc rfl) hclocked
  | false =>
    have hbeside := beside_advance (s := s) answer f.onWorker hcalls
    rw [hadvance] at hbeside
    simp only [hcalls, Bool.false_eq_true, if_false, Nat.add_zero] at hsingle hfollows hidle
    have hrest : Following strict s rest :=
      ⟨fun g hg => hown g (mem_cons_of_mem _ hg), hsingle, hfollows, hclock⟩
    cases next with
    | none => exact hrest.beside hbeside none nofun hclocked
    | some pc =>
      cases hpc : TerminalPc.calls pc with
      | false => exact hrest.beside hbeside (some { f with pc }) (by simpa using hpc) hclocked
      | true =>
        obtain ⟨hretrying, hagrees'⟩ := advance_beside hcalls (congrArg Prod.snd hadvance) hpc
        have hnone := hidle hretrying
        exact following_call hnone hpc (hbeside.agrees (hagrees' (hfollows hnone))) (htimely pc rfl)
          hclocked

theorem Following.advance (h : Following strict s s.frames)
    (halone : s.alone (.advance index answer) = true)
    (hscheduled : strict → s.scheduled (.advance index answer) = true)
    (hs : s.step (.advance index answer) = some t) : Following strict t t.frames := by
  obtain ⟨f, hf, rfl⟩ := map_eq_some_iff.mp hs
  have hperm : s.frames.Perm (f :: s.frames.eraseIdx index) := by
    obtain ⟨hlt, rfl⟩ := List.getElem?_eq_some_iff.mp hf
    exact (getElem_cons_eraseIdx_perm hlt).symm
  obtain ⟨hagrees, htimely⟩ := h.own f (mem_of_getElem? hf)
  have hframes := advance_frames (s := s) answer f.onWorker f.pc
  have hok (hstrict : strict) (hallocates : TerminalPc.allocates f.pc = true) : answer = .ok := by
    simpa [scheduled, hf, hallocates] using hscheduled hstrict
  have hgo := (h.perm hperm).go (Prod.eta _).symm
    (fun hstrict => (h.clocked hstrict).of_advances hagrees (htimely hstrict)
      (s.advances_advance answer f.onWorker f.pc))
    (fun pc hpc hstrict => timely_next f.onWorker (hok hstrict) (h.clocked hstrict) hagrees
      (htimely hstrict) hpc)
    (fun hretrying => by
      rw [callsIn, ← hperm.countP_eq, ← callsIn, ← idle_iff]
      simpa [Terminal.alone, hf, hretrying] using halone)
  rw [← hframes] at hgo hf
  have hreplaced := hgo.perm (replace_perm hf _)
  generalize s.advance answer f.onWorker f.pc = r at hreplaced ⊢
  obtain ⟨u, _ | pc⟩ := r <;> exact hreplaced.congr _ _

theorem reserve_none (h : (s.reserve sink escalation intent onWorker).2 = none) :
    (s.reserve sink escalation intent onWorker).1 = s := by
  grind

theorem Following.begin (h : Following strict s s.frames) (hidle : s.idle = true)
    (sink escalation : Bool) (intent : TerminalIntent)
    (hs : s.step (.beginTerminalShutdown sink escalation intent) = some t) :
    Following strict t t.frames := by
  -- the call goes on as a retry does that has read its arguments
  have hnone := idle_iff.mp hidle
  have hagrees : s.Agrees (.beginning sink escalation intent) := h.follows hnone
  have hcall := advance_call .ok false rfl hagrees
  have hadvances := s.advances_advance .ok false (.beginning sink escalation intent)
  have htimely (hstrict : strict) (pc : TerminalPc)
      (hpc : (s.advance .ok false (.beginning sink escalation intent)).2 = some pc) :
      (s.advance .ok false (.beginning sink escalation intent)).1.Timely pc :=
    timely_next false (fun _ => rfl) (h.clocked hstrict) hagrees trivial hpc
  obtain ⟨u, next, heq, rfl⟩ := step_begin hs
  rw [heq] at hcall hadvances htimely
  have hclocked (hstrict : strict) : u.Clocked :=
    (h.clocked hstrict).of_advances hagrees trivial hadvances
  cases next with
  | none =>
    have hsame := reserve_none (congrArg Prod.snd heq)
    rw [show s.reserve sink escalation intent false = (u, none) from heq] at hsame
    obtain rfl : u = s := hsame
    exact (h.perm (by simp)).congr _ _
  | some pc =>
    have hnew := following_call (f := ⟨pc, false⟩) (hadvances.frames ▸ hnone) hcall.1 hcall.2
      (fun hstrict => htimely hstrict pc rfl) hclocked
    exact (hnew.perm (perm_append_singleton _ _).symm).congr _ _

theorem Following.upgrade (h : Following strict s s.frames) (hidle : s.idle = true)
    (hquiet : strict → escalation = false ∧ s.owner.escalation = false) :
    Following strict (s.upgrade escalation) (s.upgrade escalation).frames := by
  unfold Terminal.upgrade
  split
  · exact h
  · rename_i hmay
    simp only [Bool.or_eq_true, decide_eq_true_eq, not_or, not_not] at hmay
    have hnone := idle_iff.mp hidle
    refine Following.perm (following_call hnone ?_ ?_ (fun hstrict => ?_) fun hstrict => ?_)
      (perm_append_singleton _ _).symm
    · rfl
    · exact ⟨h.follows hnone, .inl hmay.1.1⟩
    · simp [Timely, hquiet hstrict]
    · obtain ⟨h1, h2, h3, h4, h5⟩ := h.clocked hstrict
      exact ⟨h1, h2, h3, h4, h5⟩

theorem Following.shutdownComplete (h : Following strict s s.frames) :
    Following strict s.shutdownComplete s.shutdownComplete.frames := by
  have hframes : s.shutdownComplete.frames = s.frames := by grind
  have hagrees {pc : TerminalPc} (hp : s.Agrees pc) : s.shutdownComplete.Agrees pc := by
    cases pc with
    | escalating escalation due times => cases due <;> grind
    | _ => grind
  have htimely {pc : TerminalPc} (hp : s.Timely pc) : s.shutdownComplete.Timely pc := by
    cases pc with
    | escalating escalation due times => cases due <;> grind
    | _ => grind
  rw [hframes]
  refine ⟨fun f hf => ?_, h.single, fun hnone => ?_, fun hstrict => ?_⟩
  · obtain ⟨ha, ht⟩ := h.own f hf
    exact ⟨hagrees ha, fun hstrict => htimely (ht hstrict)⟩
  · have hphase := h.follows hnone
    grind
  · obtain ⟨h1, h2, h3, h4, h5⟩ := h.clocked hstrict
    constructor <;> grind

theorem beside_cancelWatchdog (indexed : Bool) : Beside s (s.cancelWatchdog indexed) := by
  constructor <;> grind

theorem cancelWatchdog_frames (indexed : Bool) : (s.cancelWatchdog indexed).frames = s.frames := by
  unfold cancelWatchdog
  split <;> rfl

theorem Following.step (h : Following strict s s.frames) (halone : s.alone a = true)
    (hstrict : strict → s.quiet a = true ∧ s.scheduled a = true) (hs : s.step a = some t) :
    Following strict t t.frames := by
  cases a with
  | beginTerminalShutdown sink escalation intent => exact h.begin halone sink escalation intent hs
  | upgradeTerminalShutdownToAbort escalation =>
    cases hs
    exact h.upgrade halone fun hst => by simpa [Terminal.quiet] using (hstrict hst).1
  | advance index answer => exact h.advance halone (fun hst => (hstrict hst).2) hs
  | runTask index =>
    obtain ⟨task, -, rfl⟩ := map_eq_some_iff.mp hs
    have hnew := h.beside (t := s) ⟨rfl, rfl, rfl, rfl, id, id⟩ (some ⟨TerminalTask.pc task, true⟩)
      (by cases task <;> simp [TerminalTask.pc, TerminalPc.calls]) h.clocked
    exact (hnew.perm (perm_append_singleton _ _).symm).congr _ _
  | shutdownComplete => exact some.inj hs ▸ h.shutdownComplete
  | cancel indexed =>
    obtain ⟨-, rfl⟩ := guarded_iff.mp hs
    obtain ⟨h1, h2, h3, h4, h5, h6⟩ := beside_cancelWatchdog (s := s) indexed
    refine h.leave ⟨h1, h2, h3, h4, h5, h6⟩ (cancelWatchdog_frames indexed) fun hst => ?_
    obtain ⟨h1, h2, h3, h4, h5⟩ := h.clocked hst
    constructor <;> grind
  | stop indexed =>
    cases hs
    obtain ⟨h1, h2, h3, h4, h5, h6⟩ := beside_cancelWatchdog (s := s) indexed
    exact h.leave ⟨h1, h2, h3, h4, h5, h6⟩ (cancelWatchdog_frames indexed) fun hst =>
      absurd (hstrict hst).2 Bool.false_ne_true
  | start =>
    cases hs
    refine h.leave ⟨rfl, rfl, rfl, rfl, id, id⟩ rfl fun hst => ?_
    obtain ⟨h1, h2, h3, h4, h5⟩ := h.clocked hst
    exact ⟨h1, rfl, h3, h4, h5⟩
  | startFailed =>
    cases hs
    refine h.leave ⟨rfl, rfl, rfl, rfl, id, id⟩ rfl fun hst => ?_
    obtain ⟨h1, h2, h3, h4, h5⟩ := h.clocked hst
    exact ⟨h1, h2, h3, h4, h5⟩

/-- If calls do not overlap, the ledger has the owner's phase whenever none is in progress; and if
no upgrade has an escalation object, then with a running scheduler and successful allocations
nothing but the watchdog escalates after an accepted abort. -/
theorem ledger_follows_owner (actions : List Action) (t : Terminal)
    (halone : Meets step (fun s a => s.alone a = true) {} actions)
    (hrun : run step {} actions = some t) :
    (t.idle = true → t.ledger.phase = t.owner.terminalPhase) ∧
    (Meets step (fun s a => s.quiet a = true ∧ s.scheduled a = true) {} actions →
      ∀ m ∈ t.marks, m.early = false) := by
  have hstart (strict : Prop) : Following strict {} [] :=
    ⟨nofun, Nat.zero_le 1, fun _ => rfl, fun _ => ⟨nofun, rfl, nofun, nofun, by simp⟩⟩
  constructor
  · have h : Following False t t.frames :=
      @invariant_of_meets _ _ step _ (fun s => Following False s s.frames)
        (fun _ _ _ h ha hs => h.step ha False.elim hs) _ _ _ (hstart False) halone hrun
    exact fun hidle => h.follows (idle_iff.mp hidle)
  · intro hstrict
    have h : Following True t t.frames :=
      @invariant_of_meets _ _ step _ (fun s => Following True s s.frames)
        (fun _ _ _ h ha hs => h.step ha.1 (fun _ => ha.2) hs) _ _ _ (hstart True)
        (halone.and hstrict) hrun
    exact (h.clocked trivial).early

/-- An abort fails, its retry is accepted, and the watchdog is armed. -/
def retriedAbort : List Action :=
  [.beginTerminalShutdown true true .abortBothImmediate, .advance 0 .failed, .advance 0 .ok,
    .advance 0 .ok, .runTask 0,
    .advance 0 .ok, .advance 0 .ok, .advance 0 .ok, .advance 0 .ok, .advance 0 .ok]

theorem retriedAbort_follows :
    ∃ t, run step {} retriedAbort = some t ∧ t.tasks = [.watchdog true] ∧ t.idle = true ∧
    t.ledger.phase = t.owner.terminalPhase ∧ ∀ m ∈ t.marks, m.early = false := by
  have h := ledger_follows_owner retriedAbort _ (by decide) rfl
  exact ⟨_, rfl, rfl, rfl, h.1 rfl, h.2 (by decide)⟩

/-- An upgrade fails between the acceptance of an abort and its record, which is then dropped: the
ledger stays behind, the watchdog cannot be armed, and the connection is shut down at once. -/
theorem failedUpgrade_escalates :
    ∃ t, run step {} [.beginTerminalShutdown true true .abortBothImmediate, .advance 0 .ok,
      .upgradeTerminalShutdownToAbort false, .advance 1 .failed, .advance 1 .ok, .advance 0 .ok,
        .advance 0 .ok,
      .advance 0 .ok] = some t ∧
    t.frames = [] ∧ t.owner.terminalPhase = .shutdownSubmitted ∧
      t.ledger.phase = .shutdownReserved ∧
    t.marks = [⟨true, false, true⟩] :=
  ⟨_, rfl, rfl, rfl, rfl, rfl⟩

end Terminal
end TcpQuicProxy.StreamLifetime
