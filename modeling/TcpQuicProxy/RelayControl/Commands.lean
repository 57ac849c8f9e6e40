import TcpQuicProxy.RelayControl.TableRuns

/-!
# Unregister commands

`UnregisterRelay` posts a command to the worker's bounded event queue and waits
for it. The caller tries to post eight times. When the wait runs out of time it
marks the command cancelled, and a cancelled command that the worker has not
begun is skipped. A caller on the worker thread, and any caller once the worker
is stopped, removes the relay itself.

The machine interleaves any number of callers with the worker. The other events
of the queue only take room in it; what the worker does for them, and for epoll
events, is a step of the table machine taken while it is not inside an
unregister command. The removal of a command runs in three steps, since the
caller can give up between them: the command is popped and its cancel mark read,
the relay is removed, the command is marked done.
-/

namespace TcpQuicProxy.RelayControl

open Machine List

def controlEnqueueRetries : Nat := 8

/-- Why a call of `UnregisterRelay` returned. -/
inductive Outcome where
  /-- The caller removed the relay itself. -/
  | direct
  /-- The worker marked the command done. -/
  | done
  /-- The last attempt found the queue full. -/
  | queueFull
  /-- The wait ran out of time. -/
  | timedOut
  deriving DecidableEq, Repr

/-- A return, with what held at that moment. -/
structure Return where
  outcome : Outcome
  /-- The relay was out of the tables. -/
  gone : Bool
  /-- A command for its id that is not cancelled was queued. -/
  queued : Bool
  /-- The event queue was full. -/
  full : Bool
  /-- The command was marked done. -/
  done : Bool
  deriving DecidableEq, Repr

/-- Where a caller stands. -/
inductive CallPhase where
  | attempting (left : Nat)
  | waiting
  | returned (record : Return)
  deriving DecidableEq, Repr

/-- A command has been queued for the call. -/
def CallPhase.posted : CallPhase → Bool
  | .attempting _ => false
  | .waiting => true
  | .returned r => r.outcome = .done || r.outcome = .timedOut

/-- A call with its command; `target` is the relay that had the id when the call began. -/
structure UnregisterCall where
  relayId : Nat
  target : Option RelayRef
  onWorkerThread : Bool
  phase : CallPhase
  /-- The attempts to post the command so far. -/
  attempts : Nat := 0
  cancelled : Bool := false
  done : Bool := false
  deriving DecidableEq, Repr

/-- The relay is out of the worker's tables; a call for an id without relay has none to remove. -/
def UnregisterCall.gone (c : UnregisterCall) (t : Tables) : Bool :=
  match c.target with
  | none => true
  | some r => !t.relays.entries.any (· == r)

inductive QueueItem where
  | unregister (call : Nat)
  | other
  deriving DecidableEq, Repr

inductive WorkerPhase where
  | idle
  | executing (call : Nat)
  | finishing (call : Nat)
  deriving DecidableEq, Repr

structure ControlQueue where
  capacity : Nat
  world : World := {}
  running : Bool := true
  queue : List QueueItem := []
  worker : WorkerPhase := .idle
  calls : List UnregisterCall := []

inductive ControlAction where
  | call (relayId : Nat) (onWorkerThread : Bool)
  /-- The caller takes the control lock and tries to post its command. -/
  | attempt (call : Nat)
  /-- The caller finds its command done. -/
  | notice (call : Nat)
  /-- The caller's deadline passes with the command not done. -/
  | timeout (call : Nat)
  /-- Another event is posted. -/
  | post
  | pop
  | execute
  | finish
  /-- Other work of the worker on its tables. -/
  | table (action : TableAction)
  /-- `Stop` has cleared the running flag and joined the worker thread. -/
  | stop

namespace ControlQueue

def start (capacity : Nat) : ControlQueue := { capacity }

/-- A command for the same id is in the queue and not cancelled. -/
def queued (s : ControlQueue) (relayId : Nat) : Bool :=
  s.queue.any fun item => match item with
    | .other => false
    | .unregister t => match s.calls[t]? with
      | none => false
      | some c => c.relayId == relayId && !c.cancelled

def setCall (s : ControlQueue) (t : Nat) (c : UnregisterCall) : ControlQueue :=
  { s with calls := s.calls.set t c }

/-- Return from a call: the record is made in the state the caller returns in. -/
def giveBack (s : ControlQueue) (t : Nat) (c : UnregisterCall) (outcome : Outcome) : ControlQueue :=
  let s := s.setCall t c
  let record : Return :=
    { outcome
      gone := c.gone s.world.tables
      queued := s.queued c.relayId
      full := s.capacity ≤ s.queue.length
      done := c.done }
  s.setCall t { c with phase := .returned record }

def removeRelay (s : ControlQueue) (relayId : Nat) : ControlQueue :=
  { s with world := { s.world with tables := s.world.tables.unregisterRelayLocal relayId } }

/-- One turn of the loop in `UnregisterRelay`, under the control lock. -/
def attempt (s : ControlQueue) (t : Nat) (c : UnregisterCall) (left : Nat) : ControlQueue :=
  if !s.running || c.onWorkerThread then (s.removeRelay c.relayId).giveBack t c .direct
  else if s.queue.length < s.capacity then
    { s.setCall t { c with phase := .waiting } with queue := s.queue ++ [.unregister t] }
  else if left ≤ 1 then s.giveBack t c .queueFull
  else s.setCall t { c with phase := .attempting (left - 1) }

def step (s : ControlQueue) : ControlAction → Option ControlQueue
  | .call relayId onWorkerThread =>
    let c : UnregisterCall :=
      { relayId, target := s.world.tables.relays.find relayId, onWorkerThread,
        phase := .attempting controlEnqueueRetries }
    some { s with calls := s.calls ++ [c] }
  | .attempt t =>
    match s.calls[t]? with
    | none => none
    | some c => match c.phase with
      | .attempting left => some (s.attempt t { c with attempts := c.attempts + 1 } left)
      | _ => none
  | .notice t =>
    match s.calls[t]? with
    | none => none
    | some c => if c.phase = .waiting ∧ c.done = true then some (s.giveBack t c .done) else none
  | .timeout t =>
    match s.calls[t]? with
    | none => none
    | some c =>
      if c.phase = .waiting ∧ c.done = false then
        some (s.giveBack t { c with cancelled := true } .timedOut) else none
  | .post =>
    if s.queue.length < s.capacity then some { s with queue := s.queue ++ [.other] } else none
  | .pop =>
    if s.worker ≠ .idle then none
    else match s.queue with
      | [] => none
      | .other :: rest => some { s with queue := rest }
      | .unregister t :: rest => match s.calls[t]? with
        | none => none
        | some c =>
          let s := { s with queue := rest }.setCall t { c with done := c.cancelled }
          if c.cancelled then some s else some { s with worker := .executing t }
  | .execute =>
    match s.worker with
    | .executing t => match s.calls[t]? with
      | none => none
      | some c => some { s.removeRelay c.relayId with worker := .finishing t }
    | _ => none
  | .finish =>
    match s.worker with
    | .finishing t => match s.calls[t]? with
      | none => none
      | some c => some { s.setCall t { c with done := true } with worker := .idle }
    | _ => none
  | .table action =>
    if s.worker ≠ .idle then none
    else match s.world.step action with
      | none => none
      | some world => some { s with world }
  | .stop => if s.worker = .idle then some { s with running := false } else none

end ControlQueue

/-! ### A relay that has left the tables stays out -/

/-- Relay objects are kept, and one that is out of the tables does not come back. -/
structure Tables.Later (t u : Tables) : Prop where
  objects : ∀ r ∈ t.objects, r ∈ u.objects
  out : ∀ r ∈ t.objects, r ∉ t.relays.entries → r ∉ u.relays.entries

namespace Tables

variable {t u v : Tables}

theorem Later.refl (t : Tables) : Later t t := ⟨fun _ hr => hr, fun _ _ hout => hout⟩

theorem Later.trans (h : Later t u) (h' : Later u v) : Later t v :=
  ⟨fun r hr => h'.objects r (h.objects r hr),
    fun r hr hout => h'.out r (h.objects r hr) (h.out r hr hout)⟩

theorem Quiet.later (hq : Quiet t u) : Later t u :=
  ⟨fun _ hr => hq.objects ▸ hr, fun _ _ hout => hq.relays ▸ hout⟩

theorem Sound.later_unregister (h : Sound t) (relayId : Nat) :
    Later t (t.unregisterRelayLocal relayId) := by
  rcases t.unregisterRelayLocal_cases relayId with ⟨-, heq⟩ | ⟨r, -, -, -, hq⟩
  · rw [heq]
    exact Later.refl t
  · refine Later.trans ?_ hq.later
    exact ⟨fun r hr => hr,
      fun r _ hout hmem => hout ((Indexed.mem_entries_remove h.relays).mp hmem).1⟩

/-- Removing an id takes the relay of that id out. -/
theorem Sound.notMem_unregister (h : Sound t) (r : RelayRef) :
    r ∉ (t.unregisterRelayLocal r.id).relays.entries := by
  rcases t.unregisterRelayLocal_cases r.id with ⟨hfind, heq⟩ | ⟨r', -, -, -, hq⟩
  · rw [heq]
    exact fun hmem => (Indexed.find_eq_none h.relays).mp hfind r hmem rfl
  · rw [hq.relays]
    exact fun hmem => ((Indexed.mem_entries_remove h.relays).mp hmem).2 rfl

theorem Sound.later_register {controls : Controls} (h : Sound t) (reg : Registration)
    (ans : Answers) :
    Later t (t.registerRelayWithIdLocal controls reg ans).1 := by
  rcases registerRelayWithIdLocal_cases h reg ans with
    ⟨-, hq⟩ | ⟨r, s, hobject, -, -, -, -, ⟨-, hq⟩ | ⟨-, -, hq⟩⟩
  · exact hq.later
  · refine Later.trans ?_ hq.later
    exact ⟨fun r' hr' => mem_append_left _ hr', fun r' _ hout => hout⟩
  · refine Later.trans ?_ hq.later
    refine ⟨fun r' hr' => mem_append_left _ hr', fun r' hr' hout hmem => ?_⟩
    rcases mem_append.mp hmem with hmem | hmem
    · exact hout hmem
    · -- The relay that enters is a new object.
      have hlt := h.object_lt hr'
      rw [mem_singleton.mp hmem] at hlt
      omega

end Tables

theorem World.Sound.later_step {w w' : World} {a : TableAction} (h : w.Sound)
    (hstep : w.step a = some w') :
    Tables.Later w.tables w'.tables := by
  cases a with
  | makeControl | giveUp i =>
    cases hstep
    exact Tables.Later.refl _
  | register i tcpFd stream streamOwner sinkQuicReceives ans =>
    simp only [World.step] at hstep
    split at hstep
    · cases hstep
    · cases hstep
      exact h.tables.later_register _ ans
  | unregister relayId =>
    cases hstep
    exact h.tables.later_unregister relayId
  | purge queueEmpty =>
    cases hstep
    unfold Tables.purgeRetiredRelaysIfIdle
    split <;> exact ⟨fun _ hr => hr, fun _ _ hout => hout⟩
  | handoff object ledger sink =>
    simp only [World.step] at hstep
    split at hstep
    · cases hstep
    · cases hstep
      exact Tables.quiet_beginTerminalHandoff.later
  | event value events socketError =>
    simp only [World.step] at hstep
    split at hstep
    · cases hstep
    · split at hstep
      · cases hstep
        exact Tables.Later.refl _
      · cases hstep
        exact Tables.quiet_dispatch.later
  | work object after | closeEpoll =>
    cases hstep
    exact ⟨fun _ hr => hr, fun _ _ hout => hout⟩

/-! ### What holds of every call -/

theorem UnregisterCall.gone_iff {c : UnregisterCall} {t : Tables} :
    c.gone t = true ↔ ∀ r, c.target = some r → r ∉ t.relays.entries := by
  unfold UnregisterCall.gone
  cases htarget : c.target with
  | none => simp
  | some r =>
    simp only [Option.some.injEq, forall_eq', Bool.not_eq_true', any_eq_false, beq_iff_eq]
    exact ⟨fun h hmem => h r hmem rfl, fun h x hx heq => h (heq ▸ hx)⟩

/-- What a return says: a direct one and one after the command was done found the relay out, one
for want of room came after the last attempt on a full queue, one by time cancelled a command that
was not done. -/
structure UnregisterCall.Honest (c : UnregisterCall) (r : Return) : Prop where
  gone : r.outcome = .direct ∨ r.outcome = .done → r.gone = true
  queueFull : r.outcome = .queueFull → c.attempts = controlEnqueueRetries ∧ r.full = true
  timedOut : r.outcome = .timedOut → c.cancelled = true ∧ r.done = false

/-- A call knows a relay object of its id; done and not cancelled means that the
relay is out; only a call that has returned is cancelled. -/
structure UnregisterCall.Fine (t : Tables) (c : UnregisterCall) : Prop where
  target : ∀ r, c.target = some r → r ∈ t.objects ∧ r.id = c.relayId
  done : c.done = true → c.cancelled = false → c.gone t = true
  pending : (∀ r, c.phase ≠ .returned r) → c.cancelled = false
  attempting : ∀ left, c.phase = .attempting left →
    1 ≤ left ∧ c.attempts + left = controlEnqueueRetries
  returned : ∀ r, c.phase = .returned r → c.Honest r

namespace UnregisterCall

variable {t u : Tables} {c : UnregisterCall}

theorem Fine.gone_later (h : Fine t c) (hl : Tables.Later t u) (hgone : c.gone t = true) :
    c.gone u = true := by
  rw [gone_iff] at hgone ⊢
  intro r hr
  exact hl.out r (h.target r hr).1 (hgone r hr)

theorem Fine.later (h : Fine t c) (hl : Tables.Later t u) : Fine u c :=
  ⟨fun r hr => ⟨hl.objects r (h.target r hr).1, (h.target r hr).2⟩,
    fun hdone hcancelled => h.gone_later hl (h.done hdone hcancelled), h.pending, h.attempting,
    h.returned⟩

/-- Removing the id of a call takes its relay out. -/
theorem Fine.gone_unregister (h : Fine t c) (ht : t.Sound) :
    c.gone (t.unregisterRelayLocal c.relayId) = true := by
  rw [gone_iff]
  intro r hr
  rw [← (h.target r hr).2]
  exact ht.notMem_unregister r

end UnregisterCall

namespace ControlQueue

variable {s s' : ControlQueue} {t : Nat} {c : UnregisterCall}

structure Sound (s : ControlQueue) : Prop where
  world : s.world.Sound
  calls : ∀ c ∈ s.calls, c.Fine s.world.tables
  finishing : ∀ t, s.worker = .finishing t →
    ∃ c, s.calls[t]? = some c ∧ c.gone s.world.tables = true
  posted : ∀ t, .unregister t ∈ s.queue → ∃ c, s.calls[t]? = some c ∧ c.phase.posted = true

theorem sound_start (capacity : Nat) : Sound (start capacity) :=
  ⟨World.sound_start, by simp [start], by simp [start], by simp [start]⟩

section

variable (h : Sound s)
include h

theorem Sound.mem (hc : s.calls[t]? = some c) : c.Fine s.world.tables :=
  h.calls c (mem_of_getElem? hc)

/-- A new record for one call; the relay it is about is the same. -/
theorem Sound.setCall (c' : UnregisterCall) (hc : s.calls[t]? = some c)
    (htarget : c'.target = c.target) (hfine : c'.Fine s.world.tables)
    (hposted : c.phase.posted = true → c'.phase.posted = true) :
    Sound (s.setCall t c') := by
  have hlt : t < s.calls.length := (List.getElem?_eq_some_iff.mp hc).1
  refine ⟨h.world, ?_, ?_, fun t' hmem => ?_⟩
  · intro d hd
    rcases mem_or_eq_of_mem_set hd with hd | rfl
    · exact h.calls d hd
    · exact hfine
  · intro t' hworker
    obtain ⟨d, hd, hgone⟩ := h.finishing t' hworker
    by_cases heq : t = t'
    · subst heq
      obtain rfl : c = d := Option.some.inj (hc.symm.trans hd)
      refine ⟨c', by simp [ControlQueue.setCall, hlt], ?_⟩
      rw [UnregisterCall.gone_iff] at hgone ⊢
      rwa [htarget]
    · exact ⟨d, by simpa [ControlQueue.setCall, heq] using hd, hgone⟩
  · obtain ⟨d, hd, hqueued⟩ := h.posted t' hmem
    by_cases heq : t = t'
    · subst heq
      obtain rfl : c = d := Option.some.inj (hc.symm.trans hd)
      exact ⟨c', by simp [ControlQueue.setCall, hlt], hposted hqueued⟩
    · exact ⟨d, by simpa [ControlQueue.setCall, heq] using hd, hqueued⟩

/-- Later tables keep what holds of the calls. -/
theorem Sound.later {w : World} (hw : w.Sound) (hl : Tables.Later s.world.tables w.tables) :
    Sound { s with world := w } :=
  ⟨hw, fun c hc => (h.calls c hc).later hl,
    fun t hworker => by
      obtain ⟨c, hc, hgone⟩ := h.finishing t hworker
      exact ⟨c, hc, (h.mem hc).gone_later hl hgone⟩, h.posted⟩

theorem Sound.removeRelay (relayId : Nat) : Sound (s.removeRelay relayId) := by
  have hstep : s.world.step (.unregister relayId) =
      some { s.world with tables := s.world.tables.unregisterRelayLocal relayId } := rfl
  exact h.later (World.sound_step h.world hstep) (h.world.later_step hstep)

/-- A return: its record is all that the call keeps. -/
theorem Sound.giveBack (c' : UnregisterCall) (hc : s.calls[t]? = some c)
    (htarget : c'.target = c.target) (hrelayId : c'.relayId = c.relayId)
    (hdone : c'.done = true → c'.cancelled = false → c'.gone s.world.tables = true) {o : Outcome}
    (hhonest : ∀ r : Return, r.outcome = o → r.gone = c'.gone s.world.tables →
      r.full = decide (s.capacity ≤ s.queue.length) → r.done = c'.done → c'.Honest r)
    (hposted : c.phase.posted = true → o = .done ∨ o = .timedOut) : Sound (s.giveBack t c' o) := by
  have heq : s.giveBack t c' o = s.setCall t
      { c' with phase := .returned ⟨o, c'.gone s.world.tables,
        (s.setCall t c').queued c'.relayId, s.capacity ≤ s.queue.length, c'.done⟩ } := by
    simp only [ControlQueue.giveBack, ControlQueue.setCall, set_set]
    rfl
  rw [heq]
  refine h.setCall _ hc htarget ⟨?_, hdone, ?_, nofun, ?_⟩ ?_
  · intro r hr
    rw [hrelayId]
    exact (h.mem hc).target r (htarget ▸ hr)
  · intro hphase
    exact absurd rfl (hphase _)
  · intro r hphase
    obtain rfl := CallPhase.returned.inj hphase
    exact ⟨(hhonest _ rfl rfl rfl rfl).gone, (hhonest _ rfl rfl rfl rfl).queueFull,
      (hhonest _ rfl rfl rfl rfl).timedOut⟩
  · intro hqueued
    simpa [CallPhase.posted] using hposted hqueued

theorem Sound.attempt {left : Nat} (hc : s.calls[t]? = some c)
    (hphase : c.phase = .attempting left) :
    Sound (s.attempt t { c with attempts := c.attempts + 1 } left) := by
  have hfine := h.mem hc
  have hopen : ∀ r, c.phase ≠ .returned r := by simp [hphase]
  have hunposted : c.phase.posted = false := by simp [hphase, CallPhase.posted]
  obtain ⟨hleft, hattempts⟩ := hfine.attempting left hphase
  unfold ControlQueue.attempt
  split
  · have hremoved := h.removeRelay c.relayId
    refine hremoved.giveBack { c with attempts := c.attempts + 1 } hc rfl rfl
      (hremoved.mem hc).done (fun r ho hgone _ _ => ?_) ?_
    · exact ⟨fun _ => hgone.trans (hfine.gone_unregister h.world.tables), by simp [ho],
        by simp [ho]⟩
    · simp [hunposted]
  · split
    · have hset := h.setCall { c with attempts := c.attempts + 1, phase := .waiting } hc rfl
        ⟨hfine.target, hfine.done, fun _ => hfine.pending hopen, nofun, nofun⟩ fun _ => rfl
      refine ⟨hset.world, hset.calls, hset.finishing, fun t' hmem => ?_⟩
      obtain hmem | hmem := mem_append.mp hmem
      · exact hset.posted t' hmem
      · obtain rfl : t' = t := by simpa using hmem
        have hlt := (List.getElem?_eq_some_iff.mp hc).1
        exact ⟨{ c with attempts := c.attempts + 1, phase := .waiting },
          by simp [ControlQueue.setCall, hlt], rfl⟩
    · rename_i hfull
      split
      · refine h.giveBack { c with attempts := c.attempts + 1 } hc rfl rfl hfine.done
          (fun r ho _ hrecord _ => ?_) ?_
        · refine ⟨by simp [ho], fun _ => ⟨?_, ?_⟩, by simp [ho]⟩
          · dsimp only
            omega
          · rw [hrecord, decide_eq_true_eq]
            exact Nat.le_of_not_lt hfull
        · simp [hunposted]
      · refine h.setCall _ hc rfl
          ⟨hfine.target, hfine.done, fun _ => hfine.pending hopen, ?_, nofun⟩
          (by simp [hunposted])
        intro left' hphase'
        obtain rfl := CallPhase.attempting.inj hphase'
        dsimp only
        omega

theorem Sound.pop {rest : List QueueItem} (hsub : rest ⊆ s.queue) (hc : s.calls[t]? = some c) :
    Sound ({ s with queue := rest }.setCall t { c with done := c.cancelled }) ∧
      Sound { { s with queue := rest }.setCall t { c with done := c.cancelled } with
        worker := .executing t } := by
  have hfine := h.mem hc
  have hrest : Sound { s with queue := rest } :=
    ⟨h.world, h.calls, h.finishing, fun t' hmem => h.posted t' (hsub hmem)⟩
  have hpopped : UnregisterCall.Fine s.world.tables { c with done := c.cancelled } := by
    refine ⟨hfine.target, fun hdone hcancelled => ?_, hfine.pending, hfine.attempting,
      fun r hr => ⟨(hfine.returned r hr).gone, (hfine.returned r hr).queueFull,
        (hfine.returned r hr).timedOut⟩⟩
    rw [show c.cancelled = true from hdone] at hcancelled
    cases hcancelled
  have hset := hrest.setCall { c with done := c.cancelled } hc rfl hpopped id
  exact ⟨hset, hset.world, hset.calls, fun t' hworker => (by cases hworker), hset.posted⟩

theorem sound_step {a : ControlAction} (hstep : s.step a = some s') : Sound s' := by
  cases a with
  | call relayId onWorkerThread =>
    cases hstep
    refine ⟨h.world, ?_, ?_, fun t hmem => ?_⟩
    · intro c hc
      rcases mem_append.mp hc with hc | hc
      · exact h.calls c hc
      · obtain rfl := mem_singleton.mp hc
        refine ⟨fun r hr => ?_, fun hdone => ?_, fun _ => rfl, fun left hphase => ?_, nofun⟩
        · obtain ⟨hmem, hid⟩ := (Indexed.find_eq_some h.world.tables.relays).mp hr
          exact ⟨h.world.tables.relaysMade r hmem, hid⟩
        · cases hdone
        · obtain rfl := CallPhase.attempting.inj hphase
          exact ⟨by decide, rfl⟩
    · intro t hworker
      obtain ⟨c, hc, hgone⟩ := h.finishing t hworker
      exact ⟨c, by rw [getElem?_append_left (List.getElem?_eq_some_iff.mp hc).1, hc], hgone⟩
    · obtain ⟨c, hc, hqueued⟩ := h.posted t hmem
      exact ⟨c, by rw [getElem?_append_left (List.getElem?_eq_some_iff.mp hc).1, hc], hqueued⟩
  | attempt t =>
    simp only [step] at hstep
    split at hstep
    · cases hstep
    · rename_i c hc
      split at hstep
      · rename_i left hphase
        cases hstep
        exact h.attempt hc hphase
      · cases hstep
  | notice t =>
    simp only [step] at hstep
    split at hstep
    · cases hstep
    · rename_i c hc
      split at hstep
      · rename_i hready
        cases hstep
        have hfine := h.mem hc
        have hgone := hfine.done hready.2 (hfine.pending (by simp [hready.1]))
        exact h.giveBack c hc rfl rfl hfine.done
          (fun r ho hr _ _ => ⟨fun _ => hr.trans hgone, by simp [ho], by simp [ho]⟩)
          fun _ => .inl rfl
      · cases hstep
  | timeout t =>
    simp only [step] at hstep
    split at hstep
    · cases hstep
    · rename_i c hc
      split at hstep
      · rename_i hready
        cases hstep
        refine h.giveBack { c with cancelled := true } hc rfl rfl (fun _ hcancelled => ?_)
          (fun r ho _ _ hdone => ?_) fun _ => .inr rfl
        · cases hcancelled
        · exact ⟨by simp [ho], by simp [ho], fun _ => ⟨rfl, hdone.trans hready.2⟩⟩
      · cases hstep
  | post =>
    obtain ⟨-, rfl⟩ := guarded_iff.mp hstep
    exact ⟨h.world, h.calls, h.finishing, fun t hmem => h.posted t (by simpa using hmem)⟩
  | stop =>
    obtain ⟨-, rfl⟩ := guarded_iff.mp hstep
    exact ⟨h.world, h.calls, h.finishing, h.posted⟩
  | pop =>
    simp only [step] at hstep
    split at hstep
    · cases hstep
    · split at hstep
      · cases hstep
      · rename_i rest hqueue
        cases hstep
        exact ⟨h.world, h.calls, h.finishing,
          fun t hmem => h.posted t (hqueue ▸ mem_cons_of_mem _ hmem)⟩
      · rename_i t rest hqueue
        split at hstep
        · cases hstep
        · rename_i c hc
          have hpop := h.pop (hqueue ▸ subset_cons_self _ _) hc
          split at hstep <;> cases hstep
          · exact hpop.1
          · exact hpop.2
  | execute =>
    simp only [step] at hstep
    split at hstep
    · rename_i t hworker
      split at hstep
      · cases hstep
      · rename_i c hc
        cases hstep
        have hremoved := h.removeRelay c.relayId
        refine ⟨hremoved.world, hremoved.calls, fun t' hworker' => ?_, hremoved.posted⟩
        obtain rfl := WorkerPhase.finishing.inj hworker'
        exact ⟨c, hc, (h.mem hc).gone_unregister h.world.tables⟩
    · cases hstep
  | finish =>
    simp only [step] at hstep
    split at hstep
    · rename_i t hworker
      split at hstep
      · cases hstep
      · rename_i c hc
        cases hstep
        have hfine := h.mem hc
        obtain ⟨d, hd, hgone⟩ := h.finishing t hworker
        obtain rfl : c = d := Option.some.inj (hc.symm.trans hd)
        have hfinished : UnregisterCall.Fine s.world.tables { c with done := true } :=
          ⟨hfine.target, fun _ _ => hgone, hfine.pending, hfine.attempting,
            fun r hr => ⟨(hfine.returned r hr).gone, (hfine.returned r hr).queueFull,
              (hfine.returned r hr).timedOut⟩⟩
        have hset := h.setCall { c with done := true } hc rfl hfinished id
        exact ⟨hset.world, hset.calls, fun t' hidle => (by cases hidle), hset.posted⟩
    · cases hstep
  | table action =>
    simp only [step] at hstep
    split at hstep
    · cases hstep
    · split at hstep
      · cases hstep
      · rename_i world hworld
        cases hstep
        exact h.later (World.sound_step h.world hworld) (h.world.later_step hworld)

end

theorem sound_run {capacity : Nat} {as : List ControlAction}
    (hrun : Machine.run step (start capacity) as = some s) :
    Sound s :=
  Machine.invariant (fun _ _ _ h hstep => sound_step h hstep) (sound_start capacity) hrun

end ControlQueue
end TcpQuicProxy.RelayControl
