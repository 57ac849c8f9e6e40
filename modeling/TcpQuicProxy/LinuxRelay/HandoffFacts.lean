import TcpQuicProxy.Machine.Run

/-!
# The facts of a terminal handoff

The worker and the callback of a graceful sink store the facts of one handoff control and
count the handoff as started, completed or failed, each with an atomic exchange of its own.
Calls in progress are lists of these operations and run in any interleaving, also in more of
them than the one thread of the worker allows.
-/

namespace TcpQuicProxy.LinuxRelay

open Machine Function

/-- `TqTerminalHandoffFacts`. -/
inductive HandoffFact where
  | dataPlaneStopped
  | terminalHandoffComplete
  | localOperationOwnershipTransferredOrDrained
  deriving DecidableEq

inductive HandoffCounter where
  | started
  | completed
  | failed
  deriving DecidableEq

inductive HandoffOp where
  | store (f : HandoffFact)
  /-- The exchange of a counted mark, and the record if it was not set. -/
  | count (c : HandoffCounter)
  /-- The callback of a graceful sink, unless it has been invoked. -/
  | callback (sink : Nat)
  /-- `TryRecordTerminalHandoffCompleted` with the facts that it has yet to load. -/
  | tryRecord (facts : List HandoffFact)

/-- What the stream and its sink answer to a handoff. -/
structure HandoffAnswers where
  ledger : Bool := true
  sink : Bool := true
  submitted : Bool := false
  alreadyTerminal : Bool := false
  retryScheduled : Bool := false

/-- `TqTerminalHandoffControl`, how often each counter was recorded for it, and for each graceful
sink whether its callback was invoked. -/
structure HandoffControl where
  facts : HandoffFact → Bool := fun _ => false
  counted : HandoffCounter → Bool := fun _ => false
  recorded : HandoffCounter → Nat := fun _ => 0
  invoked : List Bool := []
  calls : List (List HandoffOp) := []

inductive HandoffControl.Action where
  | beginTerminalHandoff (graceful : Bool) (answers : HandoffAnswers)
  /-- `ProcessQuicShutdownComplete`. -/
  | shutdownComplete
  /-- The stream's terminal event reaches a sink. -/
  | terminalEvent (sink : Nat)
  | advance (index : Nat)

open HandoffFact

def tryRecordTerminalHandoffCompleted : HandoffOp :=
  .tryRecord
    [dataPlaneStopped, terminalHandoffComplete, localOperationOwnershipTransferredOrDrained]

/-- What each way to the end of the relay stores first. -/
def stopLocally : List HandoffOp :=
  [.store dataPlaneStopped, .store localOperationOwnershipTransferredOrDrained]

def beginTerminalHandoff (graceful : Bool) (answers : HandoffAnswers) (sink : Nat) :
    List HandoffOp :=
  let accepted := answers.submitted || answers.alreadyTerminal || answers.retryScheduled
  if !answers.ledger then []
  else if !answers.sink then [.count .started, .count .failed]
  else .count .started :: stopLocally ++
    if graceful then
      (if answers.alreadyTerminal then [.callback sink] else []) ++
        tryRecordTerminalHandoffCompleted ::
        if accepted then [] else [.count .failed]
    else if accepted then [.store terminalHandoffComplete, .count .completed]
    else [.count .failed]

def processQuicShutdownComplete : List HandoffOp :=
  stopLocally ++ [.store terminalHandoffComplete, .count .completed]

namespace HandoffControl

/-- The next operation of a call, with the rest of it. -/
def execute (s : HandoffControl) (rest : List HandoffOp) :
    HandoffOp → HandoffControl × List HandoffOp
  | .store f => ({ s with facts := update s.facts f true }, rest)
  | .count c =>
    if s.counted c then (s, rest)
    else
      ({ s with
          counted := update s.counted c true
          recorded := update s.recorded c (s.recorded c + 1) }, rest)
  | .callback sink =>
    if s.invoked[sink]? = some false then
      ({ s with invoked := s.invoked.set sink true },
        .store terminalHandoffComplete :: tryRecordTerminalHandoffCompleted :: rest)
    else (s, rest)
  | .tryRecord [] => (s, .count .completed :: rest)
  | .tryRecord (f :: facts) => (s, if s.facts f then .tryRecord facts :: rest else rest)

def step (s : HandoffControl) : Action → Option HandoffControl
  | .beginTerminalHandoff graceful answers =>
    some { s with
      invoked := s.invoked ++ if graceful && answers.ledger && answers.sink then [false] else []
      calls := s.calls ++ [LinuxRelay.beginTerminalHandoff graceful answers s.invoked.length] }
  | .shutdownComplete => some { s with calls := s.calls ++ [processQuicShutdownComplete] }
  | .terminalEvent sink => some { s with calls := s.calls ++ [[.callback sink]] }
  | .advance index =>
    match s.calls[index]? with
    | some (op :: rest) =>
      some { (s.execute rest op).1 with calls := s.calls.set index (s.execute rest op).2 }
    | _ => none

/-- A call counts a completion behind the facts, whoever stores them. -/
def Ready : (HandoffFact → Bool) → List HandoffOp → Prop
  | _, [] => True
  | facts, .store f :: ops => Ready (update facts f true) ops
  | facts, .count c :: ops => (c = .completed → ∀ f, facts f = true) ∧ Ready facts ops
  | facts, .callback _ :: ops => Ready facts ops
  | facts, .tryRecord rest :: ops => (∀ f, f ∈ rest ∨ facts f = true) ∧ Ready facts ops

structure Sound (s : HandoffControl) : Prop where
  recorded : ∀ c, s.recorded c = (s.counted c).toNat
  completed : s.counted .completed = true → ∀ f, s.facts f = true
  calls : ∀ ops ∈ s.calls, Ready s.facts ops

variable {s t : HandoffControl} {facts facts' : HandoffFact → Bool} {ops rest : List HandoffOp}
  {op : HandoffOp} {a : Action}

theorem stored_of_true (stored : HandoffFact) {f : HandoffFact} (h : facts f = true) :
    update facts stored true f = true := by
  by_cases heq : f = stored
  · exact heq ▸ update_self ..
  · exact (update_of_ne heq ..).trans h

/-- More facts keep a call ready. -/
theorem Ready.mono (h : ∀ f, facts f = true → facts' f = true) (hready : Ready facts ops) :
    Ready facts' ops := by
  induction ops generalizing facts facts' with
  | nil => trivial
  | cons op ops ih =>
    cases op with
    | store stored =>
      refine ih (fun f hfact => ?_) hready
      by_cases heq : f = stored
      · exact heq ▸ update_self ..
      · exact stored_of_true stored (h f ((update_of_ne heq ..).symm.trans hfact))
    | count c => exact ⟨fun hcounter f => h f (hready.1 hcounter f), ih h hready.2⟩
    | callback sink => exact ih h hready
    | tryRecord rest => exact ⟨fun f => (hready.1 f).imp_right (h f), ih h hready.2⟩

theorem ready_tryRecord (h : Ready facts rest) :
    Ready facts (tryRecordTerminalHandoffCompleted :: rest) :=
  ⟨fun f => by cases f <;> simp, h⟩

/-- All facts are stored before the completion is counted. -/
theorem ready_count : Ready facts processQuicShutdownComplete :=
  ⟨fun _ f => by cases f <;> rfl, trivial⟩

theorem ready_beginTerminalHandoff (graceful : Bool) (answers : HandoffAnswers) (sink : Nat) :
    Ready facts (LinuxRelay.beginTerminalHandoff graceful answers sink) := by
  dsimp only [LinuxRelay.beginTerminalHandoff]
  generalize (answers.submitted || answers.alreadyTerminal || answers.retryScheduled) = accepted
  split_ifs
  · trivial
  · exact ⟨nofun, nofun, trivial⟩
  · exact ⟨nofun, ready_tryRecord trivial⟩
  · exact ⟨nofun, ready_tryRecord ⟨nofun, trivial⟩⟩
  · exact ⟨nofun, ready_tryRecord trivial⟩
  · exact ⟨nofun, ready_tryRecord ⟨nofun, trivial⟩⟩
  · exact ⟨nofun, ready_count⟩
  · exact ⟨nofun, nofun, trivial⟩

/-- An operation clears no fact, leaves a call that is ready, and counts a completion only behind
the facts. -/
theorem execute_facts (hready : Ready s.facts (op :: rest)) :
    (∀ f, s.facts f = true → (s.execute rest op).1.facts f = true) ∧
      Ready (s.execute rest op).1.facts (s.execute rest op).2 ∧
      ((s.execute rest op).1.counted .completed = true →
        s.counted .completed = true ∨ ∀ f, s.facts f = true) := by
  cases op with
  | store stored => exact ⟨fun _ => stored_of_true stored, hready, .inl⟩
  | count c =>
    dsimp only [execute]
    split
    · exact ⟨fun _ => id, hready.2, .inl⟩
    · refine ⟨fun _ => id, hready.2, fun hcounted => ?_⟩
      by_cases heq : c = .completed
      · exact .inr (hready.1 heq)
      · exact .inl ((update_of_ne (Ne.symm heq) ..).symm.trans hcounted)
  | callback sink =>
    dsimp only [execute]
    split
    · exact ⟨fun _ => id, ready_tryRecord (hready.mono fun _ => stored_of_true _), .inl⟩
    · exact ⟨fun _ => id, hready, .inl⟩
  | tryRecord loads =>
    obtain ⟨hloads, hrest⟩ := hready
    cases loads with
    | nil => exact ⟨fun _ => id, ⟨fun _ f => (hloads f).resolve_left (by simp), hrest⟩, .inl⟩
    | cons f loads =>
      refine ⟨fun _ => id, ?_, .inl⟩
      dsimp only [execute]
      split
      next hload =>
        refine ⟨fun f => ?_, hrest⟩
        rcases hloads f with hmem | hfact
        · rcases List.mem_cons.mp hmem with rfl | hmem
          · exact .inr hload
          · exact .inl hmem
        · exact .inr hfact
      next => exact hrest

theorem execute_recorded (h : ∀ c, s.recorded c = (s.counted c).toNat) (c : HandoffCounter) :
    (s.execute rest op).1.recorded c = ((s.execute rest op).1.counted c).toNat := by
  unfold execute
  split
  case h_2 counted =>
    split
    · exact h c
    next hnot =>
      have hzero := h counted
      rw [eq_false_of_ne_true hnot] at hzero
      by_cases heq : c = counted
      · subst heq
        simp [hzero]
      · simp [update_of_ne heq, h]
  case h_3 => split <;> exact h c
  all_goals exact h c

theorem Sound.append (h : Sound s) (hready : Ready s.facts ops) {invoked : List Bool} :
    Sound { s with invoked, calls := s.calls ++ [ops] } :=
  ⟨h.recorded, h.completed,
    List.forall_mem_append.mpr ⟨h.calls, List.forall_mem_singleton.mpr hready⟩⟩

/-- A step clears no fact and keeps the counters sound. -/
theorem Sound.step (h : Sound s) (hs : s.step a = some t) :
    Sound t ∧ ∀ f, s.facts f = true → t.facts f = true := by
  cases a with
  | beginTerminalHandoff graceful answers =>
    cases hs
    exact ⟨h.append (ready_beginTerminalHandoff ..), fun _ => id⟩
  | shutdownComplete =>
    cases hs
    exact ⟨h.append ready_count, fun _ => id⟩
  | terminalEvent sink =>
    cases hs
    exact ⟨@Sound.append s [.callback sink] h trivial _, fun _ => id⟩
  | advance index =>
    dsimp only [HandoffControl.step] at hs
    split at hs
    next op rest hop =>
      cases hs
      obtain ⟨hfacts, hnext, hcompleted⟩ := execute_facts (h.calls _ (List.mem_of_getElem? hop))
      refine ⟨⟨execute_recorded h.recorded, fun hcounted f => hfacts f ?_, fun ops hops => ?_⟩,
        hfacts⟩
      · exact (hcompleted hcounted).elim (fun hold => h.completed hold f) fun hall => hall f
      · rcases List.mem_or_eq_of_mem_set hops with hops | rfl
        · exact (h.calls ops hops).mono hfacts
        · exact hnext
    next => cases hs

/-- After every run no step clears a fact, each counter was recorded at most once, and a
completion only behind all facts. -/
theorem facts_last_and_counted_once (actions : List Action) (s : HandoffControl)
    (hrun : run step {} actions = some s) :
    (∀ a t, s.step a = some t → ∀ f, s.facts f = true → t.facts f = true) ∧
      (∀ c, s.recorded c ≤ 1) ∧
    (s.recorded .completed ≠ 0 → ∀ f, s.facts f = true) := by
  have hstart : Sound {} := ⟨fun _ => rfl, nofun, nofun⟩
  have hsound : Sound s := invariant (fun _ _ _ h hs => (Sound.step h hs).1) hstart hrun
  refine ⟨fun a t hs => (hsound.step hs).2, fun c => hsound.recorded c ▸ Bool.toNat_le _,
    fun hne => hsound.completed ?_⟩
  by_contra hnot
  rw [hsound.recorded, eq_false_of_ne_true hnot] at hne
  exact hne rfl

/-- A graceful handoff is accepted, and its sink is told of the end before the worker has stored
its facts. -/
theorem graceful_handoff_counted :
    ∃ s, run step {}
      ([.beginTerminalHandoff true { submitted := true }, .terminalEvent 0, .advance 1,
        .advance 1] ++ List.replicate 8 (.advance 0) ++ List.replicate 5 (.advance 1)) = some s ∧
    s.recorded .completed = 1 ∧ ∀ f, s.facts f = true := by
  refine run_observed (f := fun s => s.recorded .completed) rfl fun s hs hone => ⟨hone, ?_⟩
  exact (facts_last_and_counted_once _ s hs).2.2 (hone ▸ Nat.one_ne_zero)

end HandoffControl
end TcpQuicProxy.LinuxRelay
