import TcpQuicProxy.StreamLifetime.Terminal

/-!
# The count of connection escalations

`Escalate` counts a ledger that it marks as escalated. An accepted
`UpgradeTerminalShutdownToAbort` and a refused `BeginTerminalShutdown` set the same mark and do not
count it.
-/

namespace TcpQuicProxy.StreamLifetime

open Machine Option

namespace Terminal

/-- `MarkEscalated` sets the mark, and `Escalate` counts it. -/
def counted (s : Terminal) : TerminalPc → Bool
  | .escalating .. =>
    s.ledger.phase ≠ .terminalObserved && s.ledger.watchdog ≠ .canceled &&
      s.ledger.watchdog ≠ .terminalTimeout &&
      !s.ledger.connectionEscalated
  | _ => false

/-- The other two places that set the mark. -/
def uncounted (s : Terminal) : TerminalPc → Bool
  | .refused escalation => escalation && !s.ledger.connectionEscalated
  | .upgraded _ escalation submitted =>
    submitted && s.ledger.phase ≠ .terminalObserved && (escalation && !s.ledger.connectionEscalated)
  | _ => false

/-- The frame that a step takes on. -/
def takes (s : Terminal) (marks : TerminalPc → Bool) : Action → Bool
  | .advance index _ => s.frames[index]?.any (marks ·.pc)
  | _ => false

/-- The mark of the ledger as a number. -/
def mark (s : Terminal) : Nat := s.ledger.connectionEscalated.toNat

variable {s t : Terminal} {a : Action}

/-- What a frame adds to the mark. -/
theorem mark_of_advances {pc : TerminalPc} (h : Advances s pc t) :
    t.mark = s.mark + (s.counted pc).toNat + (s.uncounted pc).toNat := by
  have hmay : (s.counted pc).toNat + (s.uncounted pc).toNat = (s.escalates pc).toNat := by
    cases pc <;>
      simp only [counted, uncounted, escalates, Bool.toNat_false, Nat.add_zero, Nat.zero_add]
  rw [Nat.add_assoc, hmay]
  cases h with
  | quiet tasks begun h | upgradeRecorded phase h => rw [h]; rfl
  | refused h => simp [mark, escalate, escalates, h]
  | escalated tasks h =>
    rw [h]
    simp only [escalates, Bool.and_eq_true, Bool.not_eq_true'] at h
    simp [mark, escalate, h.2]
  | upgradeEscalated h =>
    rw [h]
    simp only [escalates, Bool.and_eq_true, Bool.not_eq_true'] at h
    simp [mark, escalate, h.2.2]
  | _ => rfl

theorem mark_step (hs : s.step a = some t) :
    t.mark = s.mark + (s.takes s.counted a).toNat + (s.takes s.uncounted a).toNat := by
  cases a with
  | beginTerminalShutdown sink escalation intent =>
    obtain ⟨u, next, heq, rfl⟩ := step_begin hs
    have hreserve :=
      mark_of_advances (s.advances_advance .ok false (.beginning sink escalation intent))
    rw [heq] at hreserve
    exact hreserve
  | upgradeTerminalShutdownToAbort escalation =>
    cases hs
    unfold upgrade
    split <;> rfl
  | advance index answer =>
    obtain ⟨f, hf, rfl⟩ := map_eq_some_iff.mp hs
    have hreplace : ∀ u : Terminal, ∀ next, (u.replace index f next).mark = u.mark := by
      intro u next
      cases next <;> rfl
    simp only [takes, hf, any_some, hreplace]
    exact mark_of_advances (s.advances_advance answer f.onWorker f.pc)
  | runTask index =>
    obtain ⟨task, -, rfl⟩ := map_eq_some_iff.mp hs
    rfl
  | shutdownComplete =>
    cases hs
    unfold shutdownComplete
    split <;> rfl
  | cancel indexed =>
    obtain ⟨-, hs⟩ := ite_none_right_eq_some.mp hs
    cases hs
    unfold cancelWatchdog
    split <;> rfl
  | stop indexed =>
    cases hs
    unfold cancelWatchdog
    split <;> rfl
  | start | startFailed =>
    cases hs
    rfl

end Terminal

/-! ### Any number of streams -/

/-- The streams of the process, and `g_connectionEscalation`. -/
structure EscalationMetric where
  streams : List Terminal := []
  connectionEscalation : Nat := 0

inductive EscalationMetric.Action where
  | newStream
  | stream (index : Nat) (action : Terminal.Action)

namespace EscalationMetric

def step (s : EscalationMetric) : Action → Option EscalationMetric
  | .newStream => some { s with streams := s.streams ++ [{}] }
  | .stream index action =>
    s.streams[index]?.bind fun stream => (stream.step action).map fun next =>
      ⟨s.streams.set index next,
        s.connectionEscalation + (stream.takes stream.counted action).toNat⟩

/-- The ledgers whose escalated mark is set. -/
def escalated (s : EscalationMetric) : Nat := total Terminal.mark s.streams

/-- The step marks a ledger and does not count it. -/
def silent (s : EscalationMetric) : Action → Bool
  | .newStream => false
  | .stream index action => s.streams[index]?.any fun stream => stream.takes stream.uncounted action

/-- **Step lemma.** -/
theorem escalated_step {s t : EscalationMetric} {a : Action} (hs : s.step a = some t) :
    t.escalated + s.connectionEscalation =
      s.escalated + t.connectionEscalation + (s.silent a).toNat := by
  cases a with
  | newStream =>
    cases hs
    simp [escalated, silent, Terminal.mark]
  | stream index action =>
    obtain ⟨stream, hstream, hs⟩ := bind_eq_some_iff.mp hs
    obtain ⟨next, hnext, rfl⟩ := map_eq_some_iff.mp hs
    have hset := total_set (f := Terminal.mark) next hstream
    have hmark := Terminal.mark_step hnext
    simp only [escalated, silent, hstream, any_some]
    omega

/-- **The metric is exact up to the silent marks.** After every run of every number of streams the
metric is the number of ledgers with the mark exactly if no step of the run was silent. -/
theorem metric_exact_iff (actions : List Action) (t : EscalationMetric)
    (hrun : run step {} actions = some t) :
    t.connectionEscalation = t.escalated ↔
      Meets step (fun s a => s.silent a = false) {} actions := by
  have hiff := @good_iff_meets _ _ step (fun s a => s.silent a = false)
    (fun s => s.connectionEscalation ≤ s.escalated) (fun s => s.connectionEscalation = s.escalated)
    (fun s a u hle hs => by
      have := escalated_step hs
      omega)
    (fun s a u hle hs => by
      have := escalated_step hs
      cases hsilent : s.silent a <;> rw [hsilent] at this <;>
        simp only [Bool.toNat_true, Bool.toNat_false] at this <;> simp <;> omega)
    actions {} t (Nat.le_refl 0) hrun
  rw [hiff]
  exact ⟨fun h => h.2, fun h => ⟨rfl, h⟩⟩

/-- An abort of the second stream is accepted, and its watchdog finds it open. -/
def watchdogEscalates : List Action :=
  [.newStream, .newStream, .stream 1 (.beginTerminalShutdown true true .abortBothImmediate)] ++
    List.replicate 3 (.stream 1 (.advance 0 .ok)) ++
      [.stream 1 (.runTask 0), .stream 1 (.advance 0 .ok)]

theorem watchdogEscalates_counted :
    ∃ t, run step {} watchdogEscalates = some t ∧ t.connectionEscalation = 1 ∧
    (t.connectionEscalation = t.escalated ↔
      Meets step (fun s a => s.silent a = false) {} watchdogEscalates) := by
  refine run_observed (f := (·.connectionEscalation)) (o := 1) (by decide +kernel)
    fun t hrun hone => ?_
  exact ⟨hone, metric_exact_iff _ t hrun⟩

/-- A graceful shutdown is accepted, and then its upgrade with an escalation object. -/
theorem acceptedUpgrade_uncounted :
    (run step {} ([.newStream, .stream 0 (.beginTerminalShutdown true false .gracefulComplete)] ++
        List.replicate 3 (.stream 0 (.advance 0 .ok)) ++
        [.stream 0 (.upgradeTerminalShutdownToAbort true), .stream 0 (.advance 0 .ok),
          .stream 0 (.advance 0 .ok)])).map
        (fun t => (t.connectionEscalation, t.escalated, t.streams.all (·.frames.isEmpty))) =
      some (0, 1, true) := by
  decide +kernel

end EscalationMetric
end TcpQuicProxy.StreamLifetime
