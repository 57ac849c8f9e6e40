import TcpQuicProxy.StreamLifetime.EscalationMetric

/-!
# The order of the ledger's states

`RecordShutdown` and the scheduler look at the attempt, the phase and the watchdog before
they write. `UpgradeTerminalShutdownToAbort` writes its attempt without a look at the one
recorded, and it and a refused `BeginTerminalShutdown` mark a watchdog as escalated that
has been canceled.
-/

namespace TcpQuicProxy.StreamLifetime

open Machine List Option

/-- What lasts in a ledger. -/
@[mk_iff] structure TerminalLedger.Lasts (l l' : TerminalLedger) : Prop where
  observed : l.phase = .terminalObserved → l'.phase = .terminalObserved
  attempt : l.shutdownAttempt ≤ l'.shutdownAttempt
  escalated : l.connectionEscalated = true → l'.connectionEscalated = true
  timedOut : l.watchdog = .terminalTimeout → l'.watchdog = .terminalTimeout
  canceled : l.watchdog = .canceled → l'.watchdog = .canceled

/-- One change of a ledger: it times out only behind an escalation. -/
def TerminalLedger.Onward (l l' : TerminalLedger) : Prop :=
  l.Lasts l' ∧
    (l'.watchdog = .terminalTimeout → l.watchdog = .escalated ∨ l.watchdog = .terminalTimeout)

theorem TerminalLedger.Onward.refl (l : TerminalLedger) : l.Onward l :=
  ⟨⟨id, Nat.le_refl _, id, id, id⟩, .inr⟩

theorem TerminalLedger.Lasts.trans {l l' l'' : TerminalLedger} (h : l.Lasts l')
    (h' : l'.Lasts l'') :
    l.Lasts l'' :=
  ⟨h'.observed ∘ h.observed, h.attempt.trans h'.attempt, h'.escalated ∘ h.escalated,
    h'.timedOut ∘ h.timedOut,
    h'.canceled ∘ h.canceled⟩

namespace Terminal

def TerminalPc.attempt : TerminalPc → Nat
  | .calling attempt _ | .settled attempt _ _ | .recorded attempt _ _ | .upgrading attempt _
  | .upgraded attempt _ _ => attempt
  | _ => 0

/-- A canceled watchdog is marked, or an attempt below the recorded one is written. -/
def disorderly (s : Terminal) (pc : TerminalPc) : Bool :=
  s.uncounted pc && s.ledger.watchdog = .canceled ||
    match pc with
    | .upgraded attempt _ _ => attempt < s.ledger.shutdownAttempt
    | _ => false

def orderly (s : Terminal) (a : Action) : Bool := !s.takes s.disorderly a

/-- The attempts of the ledger and of the calls in progress are attempts of the owner. -/
structure Dated (s : Terminal) : Prop where
  observed : s.ledger.phase = .terminalObserved → s.owner.terminalPhase = .terminalObserved
  escalated : s.ledger.watchdog = .escalated ∨ s.ledger.watchdog = .terminalTimeout →
    s.ledger.connectionEscalated = true
  attempt : s.ledger.shutdownAttempt ≤ s.owner.terminalShutdownAttempt
  frames : ∀ f ∈ s.frames, TerminalPc.attempt f.pc ≤ s.owner.terminalShutdownAttempt

variable {s t : Terminal} {a : Action}

attribute [local simp]
    advance settle recordShutdown armWatchdog scheduleRetry escalateTask settleUpgrade recordUpgrade
    reserve timeOut
  escalate cancelWatchdog

attribute [local grind =] TerminalLedger.Onward TerminalLedger.lasts_iff

/-- A frame that goes on keeps what lasts, unless it is disorderly. -/
theorem onward_advance (h : s.Dated) (answer : TerminalAnswer) (onWorker : Bool) (pc : TerminalPc) :
    s.ledger.Onward (s.advance answer onWorker pc).1.ledger ↔ s.disorderly pc = false := by
  obtain ⟨hobserved, hescalated, hattempt, -⟩ := h
  cases pc with
  | refused escalation | upgraded attempt escalation submitted =>
    -- the two that write without a look at the ledger
    dsimp [disorderly, uncounted]
    grind
  | calling attempt intent =>
    refine iff_of_true ?_ rfl
    dsimp
    split_ifs <;> exact .refl _
  | upgrading attempt escalation =>
    refine iff_of_true ?_ rfl
    dsimp
    split_ifs <;> exact .refl _
  | settled attempt intent submitted =>
    refine iff_of_true ?_ rfl
    dsimp
    grind
  | recorded attempt intent submitted =>
    refine iff_of_true ?_ rfl
    cases intent <;> cases submitted <;> dsimp <;> grind
  | escalating escalation due times =>
    refine iff_of_true ?_ rfl
    dsimp
    grind
  | retrying => exact iff_of_true (.refl _) rfl
  | beginning sink escalation intent =>
    refine iff_of_true ?_ rfl
    dsimp
    grind
  | timingOut =>
    refine iff_of_true ?_ rfl
    dsimp
    grind

/-- A frame goes on with an attempt of the owner. -/
theorem Dated.advance (h : s.Dated) (answer : TerminalAnswer) (onWorker : Bool) {pc : TerminalPc}
    (hpc : TerminalPc.attempt pc ≤ s.owner.terminalShutdownAttempt) :
    (s.advance answer onWorker pc).1.Dated ∧
      ∀ pc' ∈ (s.advance answer onWorker pc).2, TerminalPc.attempt pc' ≤
        (s.advance answer onWorker pc).1.owner.terminalShutdownAttempt := by
  have hframes := advance_frames (s := s) answer onWorker pc
  have hold := h.frames
  obtain ⟨hobserved, hescalated, hattempt, -⟩ := h
  cases pc with
  | refused escalation | escalating escalation due times | timingOut =>
    refine ⟨⟨?_, ?_, ?_, ?_⟩, ?_⟩ <;> dsimp at * <;> grind [TerminalPc.attempt]
  | calling attempt intent | settled attempt intent submitted =>
    refine ⟨⟨?_, ?_, ?_, ?_⟩, ?_⟩ <;> dsimp at * <;> grind [TerminalPc.attempt]
  | recorded attempt intent submitted =>
    cases intent <;> cases submitted <;> refine ⟨⟨?_, ?_, ?_, ?_⟩, ?_⟩ <;> dsimp at * <;>
      grind [TerminalPc.attempt]
  | upgrading attempt escalation | upgraded attempt escalation submitted =>
    refine ⟨⟨?_, ?_, ?_, ?_⟩, ?_⟩ <;> dsimp at * <;> grind [TerminalPc.attempt]
  | retrying =>
    refine ⟨⟨hobserved, hescalated, hattempt, hold⟩, fun pc' hpc' => ?_⟩
    dsimp at hpc'
    grind [TerminalPc.attempt]
  | beginning sink escalation intent =>
    refine ⟨⟨?_, ?_, ?_, ?_⟩, ?_⟩ <;> dsimp at * <;> grind [TerminalPc.attempt]

theorem Dated.step (h : s.Dated) (hs : s.step a = some t) : t.Dated := by
  have hkeep := h
  obtain ⟨hobserved, hescalated, hattempt, hframes⟩ := h
  cases a with
  | beginTerminalShutdown sink escalation intent =>
    obtain ⟨u, next, heq, rfl⟩ := step_begin hs
    obtain ⟨hdated, hnext⟩ :=
      @Dated.advance s hkeep .ok false (.beginning sink escalation intent) (Nat.zero_le _)
    rw [heq] at hdated hnext
    exact { hdated with frames := forall_mem_append.mpr ⟨hdated.frames, by simpa using hnext⟩ }
  | upgradeTerminalShutdownToAbort escalation =>
    cases hs
    unfold upgrade
    split
    · exact hkeep
    · refine ⟨hobserved, hescalated, Nat.le_succ_of_le hattempt,
        forall_mem_append.mpr ⟨fun f hf => Nat.le_succ_of_le (hframes f hf), ?_⟩⟩
      simp [TerminalPc.attempt]
  | advance index answer =>
    obtain ⟨f, hf, rfl⟩ := map_eq_some_iff.mp hs
    obtain ⟨hdated, hnext⟩ := hkeep.advance answer f.onWorker (hframes f (mem_of_getElem? hf))
    generalize s.advance answer f.onWorker f.pc = r at hdated hnext ⊢
    obtain ⟨u, next⟩ := r
    cases next with
    | none => exact { hdated with frames := fun g hg => hdated.frames g (mem_of_mem_eraseIdx hg) }
    | some pc =>
      refine { hdated with frames := fun g hg => ?_ }
      rcases mem_or_eq_of_mem_set hg with hg | rfl
      · exact hdated.frames g hg
      · exact hnext pc rfl
  | runTask index =>
    obtain ⟨task, -, rfl⟩ := map_eq_some_iff.mp hs
    refine ⟨hobserved, hescalated, hattempt, forall_mem_append.mpr ⟨hframes, ?_⟩⟩
    cases task <;> simp [TerminalTask.pc, TerminalPc.attempt]
  | shutdownComplete =>
    cases hs
    constructor <;> unfold shutdownComplete <;> grind
  | cancel indexed =>
    obtain ⟨-, rfl⟩ := guarded_iff.mp hs
    constructor <;> dsimp <;> grind
  | stop indexed =>
    cases hs
    constructor <;> dsimp <;> grind
  | start | startFailed =>
    cases hs
    exact ⟨hobserved, hescalated, hattempt, hframes⟩

/-- A step keeps what lasts exactly if it is orderly. -/
theorem onward_step (h : s.Dated) (hs : s.step a = some t) :
    s.ledger.Onward t.ledger ↔ s.orderly a = true := by
  cases a with
  | beginTerminalShutdown sink escalation intent =>
    obtain ⟨u, next, heq, rfl⟩ := step_begin hs
    have honward := onward_advance h .ok false (.beginning sink escalation intent)
    rw [heq] at honward
    exact iff_of_true (honward.mpr rfl) rfl
  | advance index answer =>
    obtain ⟨f, hf, rfl⟩ := map_eq_some_iff.mp hs
    rw [orderly, takes, hf, (replace_frame ..).2, any_some, Bool.not_eq_true']
    exact onward_advance h answer f.onWorker f.pc
  | runTask index =>
    obtain ⟨task, -, rfl⟩ := map_eq_some_iff.mp hs
    exact iff_of_true (.refl _) rfl
  | shutdownComplete =>
    cases hs
    refine iff_of_true ?_ rfl
    unfold shutdownComplete
    grind
  | upgradeTerminalShutdownToAbort escalation =>
    cases hs
    refine iff_of_true ?_ rfl
    unfold upgrade
    split <;> exact .refl _
  | cancel indexed =>
    obtain ⟨-, rfl⟩ := guarded_iff.mp hs
    refine iff_of_true ?_ rfl
    dsimp
    grind
  | stop indexed =>
    cases hs
    refine iff_of_true ?_ rfl
    dsimp
    grind
  | start | startFailed =>
    cases hs
    exact iff_of_true (.refl _) rfl

/-- Whatever has lasted lasts along every orderly run, and every step keeps it exactly if it is
orderly. -/
theorem ledger_lasts_iff (actions more : List Action) (s t : Terminal)
    (hs : run step {} actions = some s) (ht : run step s more = some t) :
    (Meets step (fun s a => s.orderly a = true) s more → s.ledger.Lasts t.ledger) ∧
    ∀ a u, t.step a = some u → (t.ledger.Onward u.ledger ↔ t.orderly a = true) := by
  have hstart : Dated {} := ⟨nofun, nofun, Nat.le_refl _, nofun⟩
  have hdated : s.Dated := invariant (fun _ _ _ h hs => Dated.step h hs) hstart hs
  refine ⟨fun horderly => ?_,
    fun a u => onward_step (invariant (fun _ _ _ h hs => Dated.step h hs) hdated ht)⟩
  have hkeeps (u : Terminal) (a : Action) (v : Terminal) (hu : u.Dated ∧ s.ledger.Lasts u.ledger)
      (ha : u.orderly a = true)
      (hstep : u.step a = some v) : v.Dated ∧ s.ledger.Lasts v.ledger :=
    ⟨hu.1.step hstep, hu.2.trans ((onward_step hu.1 hstep).mpr ha).1⟩
  exact (invariant_of_meets hkeeps ⟨hdated, (TerminalLedger.Onward.refl _).1⟩ horderly ht).2

/-- An abort is accepted, the watchdog escalates and times out. -/
theorem watchdog_lasts :
    ∃ s t, run step {}
      [.beginTerminalShutdown true true .abortBothImmediate, .advance 0 .ok] = some s ∧
    run step s [.advance 0 .ok, .advance 0 .ok, .runTask 0, .advance 0 .ok, .runTask 0,
      .advance 0 .ok] = some t ∧
    t.ledger.watchdog = .terminalTimeout ∧ s.ledger.Lasts t.ledger := by
  refine ⟨_, _, rfl, rfl, rfl,
    (ledger_lasts_iff [.beginTerminalShutdown true true .abortBothImmediate, .advance 0 .ok]
    [.advance 0 .ok, .advance 0 .ok, .runTask 0, .advance 0 .ok, .runTask 0, .advance 0 .ok]
    _ _ rfl rfl).1 ?_⟩
  decide

/-- `Stop` cancels an armed watchdog, and an upgrade marks it as escalated. A second upgrade
overtakes one that failed, which then writes its own attempt. -/
theorem upgrades_go_back :
    (∃ s t, run step {}
      [.beginTerminalShutdown true false .abortBothImmediate, .advance 0 .ok, .advance 0 .ok,
        .advance 0 .ok,
        .stop true, .upgradeTerminalShutdownToAbort true, .advance 0 .ok] = some s ∧
          s.step (.advance 0 .ok) = some t ∧
      s.ledger.watchdog = .canceled ∧ t.ledger.watchdog = .escalated) ∧
    ∃ s t, run step {}
      [.beginTerminalShutdown true false .gracefulComplete, .advance 0 .ok, .advance 0 .ok,
        .advance 0 .ok, .upgradeTerminalShutdownToAbort false, .advance 0 .failed,
        .upgradeTerminalShutdownToAbort false, .advance 1 .ok, .advance 1 .ok] = some s ∧
      s.step (.advance 0 .ok) = some t ∧
      s.ledger.shutdownAttempt = 3 ∧ t.ledger.shutdownAttempt = 2 :=
  ⟨⟨_, _, rfl, rfl, rfl, rfl⟩, _, _, rfl, rfl, rfl, rfl⟩

end Terminal
end TcpQuicProxy.StreamLifetime
