import TcpQuicProxy.Machine.Run

/-!
# The router of a stream owner

Events go to the current target, which is read under the owner's lock and called
without it. SHUTDOWN_COMPLETE takes the target away for good. Events come from the
stream and from `DispatchBufferedEvent`, so several may be between their two parts.
-/

namespace TcpQuicProxy.StreamLifetime

open List

inductive RoutePhase where
  | createdNotStarted
  | starting
  | started
  | startFailed
  | terminalPublished
  deriving DecidableEq

/-- `QUIC_STREAM_EVENT_TYPE` as far as the route depends on it; send completions have a route of
their own. -/
inductive RoutedKind where
  | startComplete (succeeded : Bool)
  | shutdownComplete
  | other
  deriving DecidableEq

/-- An event with the route that its dispatch has read. -/
structure RoutedEvent where
  dispatch : Nat
  kind : RoutedKind
  target : Nat
  generation : Nat
  deriving DecidableEq

inductive RouterRecord where
  | leased
  | published (target : Nat)
  | routed (event : RoutedEvent)
  | delivered (event : RoutedEvent)
  deriving DecidableEq

/-- The owner with the events on their way, and what happened before and after the terminal
publication. -/
structure Router where
  phase : RoutePhase := .createdNotStarted
  target : Option Nat := some 0
  routeGeneration : Nat := 1
  dispatches : Nat := 0
  onTheWay : List RoutedEvent := []
  before : List RouterRecord := []
  after : List RouterRecord := []
  deriving DecidableEq

inductive Router.Action where
  | beginStart
  /-- `CompleteStart`, from the start call. -/
  | completeStart (succeeded : Bool)
  | publishTarget (expectedGeneration target : Nat)
  /-- `BeginTerminalShutdown` makes its sink the target. -/
  | beginTerminalShutdown (sink : Nat)
  | tryAcquireApi
  /-- `Dispatch` up to the call of the target, and the call. -/
  | dispatch (kind : RoutedKind)
  | deliver (index : Nat)
  deriving DecidableEq

namespace Router

variable (s : Router)

def usable : Bool := s.phase = .starting || s.phase = .started

def record (e : RouterRecord) : Router :=
  if s.phase = .terminalPublished then { s with after := s.after ++ [e] }
  else { s with before := s.before ++ [e] }

/-- The event is bound for the target that its dispatch found. -/
def route (kind : RoutedKind) (target : Option Nat) : Router :=
  match target with
  | some target =>
    let event := ⟨s.dispatches, kind, target, s.routeGeneration⟩
    { s.record (.routed event) with
      dispatches := s.dispatches + 1, onTheWay := s.onTheWay ++ [event] }
  | none => { s with dispatches := s.dispatches + 1 }

def publishStartFailureAndTakeTarget : Router :=
  if s.phase = .starting then { s with phase := .startFailed, target := none } else s

/-- SHUTDOWN_COMPLETE: the target is taken in the critical section that publishes the terminal
phase. -/
def publishTerminalAndTakeTarget : Router :=
  if s.usable then
    { s.route .shutdownComplete s.target with phase := .terminalPublished, target := none }
  else s.route .shutdownComplete none

def publish (target : Nat) : Router :=
  { s.record (.published target) with
    target := some target, routeGeneration := s.routeGeneration + 1 }

def dispatch : RoutedKind → Router
  | .shutdownComplete => s.publishTerminalAndTakeTarget
  | .startComplete true =>
    let t := if s.phase = .starting then { s with phase := .started } else s
    t.route (.startComplete true) t.target
  | .startComplete false =>
    (s.route (.startComplete false) s.target).publishStartFailureAndTakeTarget
  | .other => s.route .other s.target

def step (s : Router) : Action → Option Router
  | .beginStart =>
    if s.phase = .createdNotStarted then some { s with phase := .starting } else some s
  | .completeStart true => if s.phase = .starting then some { s with phase := .started } else some s
  | .completeStart false => some s.publishStartFailureAndTakeTarget
  | .publishTarget expected target =>
    if s.usable && expected == s.routeGeneration then some (s.publish target) else some s
  | .beginTerminalShutdown sink => if s.usable then some (s.publish sink) else some s
  | .tryAcquireApi => if s.usable then some (s.record .leased) else some s
  | .dispatch kind => some (s.dispatch kind)
  | .deliver index => s.onTheWay[index]?.map fun event =>
      { s.record (.delivered event) with onTheWay := s.onTheWay.eraseIdx index }

/-- SHUTDOWN_COMPLETE comes to a target. -/
def ends : RouterRecord → Bool
  | .delivered event => event.kind = .shutdownComplete
  | _ => false

/-- How often SHUTDOWN_COMPLETE came to a target, or will. -/
def terminals : Nat :=
  s.before.countP ends + s.after.countP ends + s.onTheWay.countP (·.kind = .shutdownComplete)

structure Routed (s : Router) : Prop where
  once : s.terminals ≤ if s.phase = .terminalPublished then 1 else 0
  empty : s.phase = .terminalPublished → s.target = none
  way : ∀ event ∈ s.onTheWay, .routed event ∈ s.before
  after : ∀ e ∈ s.after, ∃ event, e = .delivered event ∧ .routed event ∈ s.before

variable {s t : Router} {a : Action}

theorem terminals_open (h : Routed s) (hopen : s.phase ≠ .terminalPublished) : s.terminals = 0 := by
  have honce := h.once
  rw [if_neg hopen] at honce
  exact Nat.le_zero.mp honce

/-- Before the terminal publication a step records something and puts events on their way. -/
theorem Routed.extend (h : Routed s) (hopen : s.phase ≠ .terminalPublished) (es : List RouterRecord)
    (ways : List RoutedEvent) (hbefore : t.before = s.before ++ es) (hafter : t.after = s.after)
    (hway : t.onTheWay = s.onTheWay ++ ways) (hes : es.countP ends = 0)
    (hways : ∀ w ∈ ways, .routed w ∈ es)
    (honce : ways.countP (·.kind = .shutdownComplete) ≤ if t.phase =
      .terminalPublished then 1 else 0) (hempty : t.phase = .terminalPublished → t.target = none) :
    Routed t := by
  have hzero := terminals_open h hopen
  refine ⟨?_, hempty, fun event hevent => ?_, fun e he => ?_⟩
  · simp only [terminals, hbefore, hafter, hway, countP_append] at hzero ⊢
    omega
  · rw [hway] at hevent
    rw [hbefore]
    rcases mem_append.mp hevent with hevent | hevent
    · exact mem_append_left _ (h.way event hevent)
    · exact mem_append_right _ (hways event hevent)
  · obtain ⟨event, heq, hmem⟩ := h.after e (hafter ▸ he)
    exact ⟨event, heq, hbefore ▸ mem_append_left _ hmem⟩

attribute [local simp] record publish step

theorem route_open (hopen : s.phase ≠ .terminalPublished) (kind : RoutedKind)
    (target : Option Nat) :
    ∃ es ways,
    s.route kind target =
      { s with
        dispatches := s.dispatches + 1, before := s.before ++ es, onTheWay := s.onTheWay ++ ways } ∧
    es.countP ends = 0 ∧ (∀ w ∈ ways, .routed w ∈ es ∧ w.kind = kind) ∧ ways.length ≤ 1 := by
  cases target with
  | none => exact ⟨[], [], by simp [route], rfl, by simp, Nat.zero_le _⟩
  | some target =>
    let event : RoutedEvent := ⟨s.dispatches, kind, target, s.routeGeneration⟩
    exact ⟨[.routed event], [event], by simp [route, if_neg hopen, event], rfl, by simp [event],
      Nat.le_refl _⟩

theorem Routed.dispatch (h : Routed s) (hopen : s.phase ≠ .terminalPublished) (kind : RoutedKind) :
    Routed (s.dispatch kind) := by
  -- an event of another kind is not the terminal one
  have hnone {ways : List RoutedEvent} {k : RoutedKind} (hk : k ≠ .shutdownComplete)
      (hkinds : ∀ w ∈ ways, w.kind = k) :
      ways.countP (·.kind = .shutdownComplete) = 0 :=
    countP_eq_zero.mpr fun w hw => by simp [hkinds w hw, hk]
  cases kind with
  | other =>
    obtain ⟨es, ways, heq, hes, hways, -⟩ := route_open hopen .other s.target
    rw [Router.dispatch, heq]
    refine h.extend hopen es ways rfl rfl rfl hes (fun w hw => (hways w hw).1) ?_
      (fun hp => absurd hp hopen)
    rw [hnone (by decide) fun w hw => (hways w hw).2]
    exact Nat.zero_le _
  | shutdownComplete =>
    simp only [Router.dispatch, publishTerminalAndTakeTarget]
    split
    · obtain ⟨es, ways, heq, hes, hways, hone⟩ := route_open hopen .shutdownComplete s.target
      rw [heq]
      exact h.extend hopen es ways rfl rfl rfl hes (fun w hw => (hways w hw).1)
        (countP_le_length.trans hone) (fun _ => rfl)
    · exact h.extend hopen [] [] (by simp [route]) rfl (by simp [route]) rfl (by simp)
        (Nat.zero_le _)
        (fun hp => absurd hp hopen)
  | startComplete succeeded =>
    cases succeeded with
    | true =>
      simp only [Router.dispatch]
      split
      · obtain ⟨es, ways, heq, hes, hways, -⟩ :=
          @route_open { s with phase := .started } (by simp) (.startComplete true) s.target
        rw [heq]
        refine h.extend hopen es ways rfl rfl rfl hes (fun w hw => (hways w hw).1) ?_
          (fun hp => absurd hp (by simp))
        rw [hnone (by decide) fun w hw => (hways w hw).2]
        exact Nat.zero_le _
      · obtain ⟨es, ways, heq, hes, hways, -⟩ := route_open hopen (.startComplete true) s.target
        rw [heq]
        refine h.extend hopen es ways rfl rfl rfl hes (fun w hw => (hways w hw).1) ?_
          (fun hp => absurd hp hopen)
        rw [hnone (by decide) fun w hw => (hways w hw).2]
        exact Nat.zero_le _
    | false =>
      obtain ⟨es, ways, heq, hes, hways, -⟩ := route_open hopen (.startComplete false) s.target
      have hzero := hnone (by decide) fun w hw => (hways w hw).2
      simp only [Router.dispatch, publishStartFailureAndTakeTarget]
      rw [heq]
      split
      · refine h.extend hopen es ways rfl rfl rfl hes (fun w hw => (hways w hw).1) ?_
          (fun hp => absurd hp (by simp))
        exact hzero.le.trans (Nat.zero_le _)
      · refine h.extend hopen es ways rfl rfl rfl hes (fun w hw => (hways w hw).1) ?_
          (fun hp => absurd hp hopen)
        exact hzero.le.trans (Nat.zero_le _)

theorem Routed.deliver (h : Routed s) {index : Nat} {event : RoutedEvent}
    (hevent : s.onTheWay[index]? = some event) :
    Routed { s.record (.delivered event) with onTheWay := s.onTheWay.eraseIdx index } := by
  obtain ⟨hlt, hget⟩ := List.getElem?_eq_some_iff.mp hevent
  have hcount := (getElem_cons_eraseIdx_perm hlt).countP_eq (·.kind = .shutdownComplete)
  have hmem := h.way event (mem_of_getElem? hevent)
  have hrest {w : RoutedEvent} (hw : w ∈ s.onTheWay.eraseIdx index) : .routed w ∈ s.before :=
    h.way w (mem_of_mem_eraseIdx hw)
  have honce := h.once
  rw [countP_cons, hget] at hcount
  unfold record
  split
  · refine ⟨?_, h.empty, fun w hw => hrest hw, forall_mem_append.mpr ⟨h.after, ?_⟩⟩
    · by_cases hkind : event.kind = .shutdownComplete
      all_goals
        simp [terminals, ‹s.phase = _›, ends, hkind] at honce hcount ⊢
        omega
    · exact forall_mem_singleton.mpr ⟨event, rfl, hmem⟩
  · refine ⟨?_, h.empty, fun w hw => mem_append_left _ (hrest hw), fun e he => ?_⟩
    · have hzero := terminals_open h ‹_›
      rw [terminals] at hzero
      rw [if_neg ‹_›]
      by_cases hkind : event.kind = .shutdownComplete
      all_goals
        simp only [terminals, countP_append, countP_singleton, ends, hkind, decide_true,
          decide_false, if_true,
          Bool.false_eq_true, if_false] at hcount ⊢
        omega
    · obtain ⟨w, heq, hw⟩ := h.after e he
      exact ⟨w, heq, mem_append_left _ hw⟩

def Action.delivers : Action → Bool
  | .deliver _ => true
  | _ => false

/-- After the terminal publication nothing is granted, published or routed. -/
theorem step_terminal (hphase : s.phase = .terminalPublished) (hempty : s.target = none)
    (ha : a.delivers = false) :
    ∃ dispatches, s.step a = some { s with dispatches } := by
  have hnot : s.usable = false := by simp [usable, hphase]
  cases a with
  | deliver index => cases ha
  | completeStart succeeded =>
    have hself : s.step (.completeStart succeeded) = some s := by
      cases succeeded <;> simp [publishStartFailureAndTakeTarget, hphase]
    exact ⟨s.dispatches, hself⟩
  | dispatch kind =>
    refine ⟨s.dispatches + 1, ?_⟩
    rcases kind with (_ | _) | _ | _ <;>
      simp [dispatch, route, publishStartFailureAndTakeTarget, publishTerminalAndTakeTarget, usable,
        hphase, hempty]
  | beginStart => exact ⟨s.dispatches, (by simp [hphase] : s.step .beginStart = some s)⟩
  | publishTarget expected target =>
    exact ⟨s.dispatches, (by simp [hnot] : s.step (.publishTarget expected target) = some s)⟩
  | beginTerminalShutdown sink =>
    exact ⟨s.dispatches, (by simp [hnot] : s.step (.beginTerminalShutdown sink) = some s)⟩
  | tryAcquireApi => exact ⟨s.dispatches, (by simp [hnot] : s.step .tryAcquireApi = some s)⟩

theorem Routed.step (h : Routed s) (hs : s.step a = some t) : Routed t := by
  by_cases hdelivers : a.delivers = true
  · cases a with
    | deliver index =>
      obtain ⟨event, hevent, rfl⟩ := Option.map_eq_some_iff.mp hs
      exact h.deliver hevent
    | _ => cases hdelivers
  by_cases hopen : s.phase = .terminalPublished
  · obtain ⟨dispatches, heq⟩ := step_terminal hopen (h.empty hopen) (Bool.not_eq_true _ ▸ hdelivers)
    obtain rfl := Option.some.inj (heq.symm.trans hs)
    exact ⟨h.once, h.empty, h.way, h.after⟩
  have hmove {u : Router} (hbefore : u.before = s.before) (hafter : u.after = s.after)
      (hway : u.onTheWay = s.onTheWay)
      (hphase : u.phase ≠ .terminalPublished) : Routed u :=
    h.extend hopen [] [] (by simp [hbefore]) hafter (by simp [hway]) rfl (by simp) (Nat.zero_le _)
      (fun hp => absurd hp hphase)
  have hrecord {u : Router} {e : RouterRecord} (he : ends e = false)
      (hbefore : u.before = s.before ++ [e]) (hafter : u.after = s.after)
      (hway : u.onTheWay = s.onTheWay) (hphase : u.phase = s.phase) : Routed u :=
    h.extend hopen [e] [] hbefore hafter (by simp [hway]) (by simp [he]) (by simp) (Nat.zero_le _)
      (fun hp => absurd (hphase ▸ hp) hopen)
  cases a with
  | deliver index => exact absurd rfl hdelivers
  | dispatch kind => exact Option.some.inj hs ▸ h.dispatch hopen kind
  | beginStart =>
    simp only [Router.step] at hs
    split at hs <;> cases hs
    exacts [hmove rfl rfl rfl (by simp), h]
  | completeStart succeeded =>
    cases succeeded with
    | true =>
      simp only [Router.step] at hs
      split at hs <;> cases hs
      exacts [hmove rfl rfl rfl (by simp), h]
    | false =>
      cases hs
      unfold publishStartFailureAndTakeTarget
      split
      exacts [hmove rfl rfl rfl (by simp), h]
  | publishTarget expected target =>
    simp only [Router.step] at hs
    split at hs <;> cases hs
    · exact hrecord (e := .published target) rfl (by simp [hopen]) (by simp [hopen])
        (by simp [hopen]) (by simp [hopen])
    · exact h
  | beginTerminalShutdown sink =>
    simp only [Router.step] at hs
    split at hs <;> cases hs
    · exact hrecord (e := .published sink) rfl (by simp [hopen]) (by simp [hopen])
        (by simp [hopen]) (by simp [hopen])
    · exact h
  | tryAcquireApi =>
    simp only [Router.step] at hs
    split at hs <;> cases hs
    · exact hrecord (e := .leased) rfl (by simp [hopen]) (by simp [hopen]) (by simp [hopen])
        (by simp [hopen])
    · exact h

/-- SHUTDOWN_COMPLETE comes to a target at most once. After its publication only events arrive
that were routed before; every other action leaves the owner as it is. A publication with a stale
generation changes nothing. -/
theorem terminal_routing (actions : List Action) (t : Router)
    (hrun : Machine.run step {} actions = some t) :
    t.before.countP ends + t.after.countP ends ≤ 1 ∧
    (∀ e ∈ t.after, ∃ event, e = .delivered event ∧ .routed event ∈ t.before) ∧
    (t.phase = .terminalPublished → ∀ a, a.delivers = false →
      ∃ dispatches, t.step a = some { t with dispatches }) ∧
    ∀ expected target, expected ≠ t.routeGeneration →
      t.step (.publishTarget expected target) = some t := by
  have hstart : Routed {} := ⟨Nat.zero_le _, nofun, nofun, nofun⟩
  have h : Routed t := Machine.invariant (fun _ _ _ h hs => h.step hs) hstart hrun
  refine ⟨?_, h.after, fun hphase a ha => step_terminal hphase (h.empty hphase) ha,
    fun expected target hstale => ?_⟩
  · have honce := h.once
    unfold terminals at honce
    split at honce <;> omega
  · simp [hstale]

/-- A buffered event is replayed while the stream ends. -/
def lateReplay : List Action :=
  [.beginStart, .completeStart true, .publishTarget 1 4, .dispatch .other,
    .dispatch .shutdownComplete, .deliver 1, .deliver 0]

def lateReplayEnd : Router where
  phase := .terminalPublished
  target := none
  routeGeneration := 2
  dispatches := 2
  before := [.published 4, .routed ⟨0, .other, 4, 2⟩, .routed ⟨1, .shutdownComplete, 4, 2⟩]
  after := [.delivered ⟨1, .shutdownComplete, 4, 2⟩, .delivered ⟨0, .other, 4, 2⟩]

theorem lateReplay_routed : Machine.run step {} lateReplay = some lateReplayEnd ∧
    lateReplayEnd.before.countP ends + lateReplayEnd.after.countP ends ≤ 1 := by
  have hrun : Machine.run step {} lateReplay = some lateReplayEnd := by decide
  exact ⟨hrun, (terminal_routing lateReplay lateReplayEnd hrun).1⟩

/-- The target gets the replayed event after SHUTDOWN_COMPLETE. -/
theorem replay_reaches_target_late : ¬∀ actions t, Machine.run step {} actions = some t →
    ∀ event, .delivered event ∈ t.after → event.kind = .shutdownComplete := by
  intro hnone
  have hkind := hnone lateReplay lateReplayEnd (by decide) ⟨0, .other, 4, 2⟩ (by decide)
  cases hkind

end Router
end TcpQuicProxy.StreamLifetime
