import TcpQuicProxy.Machine.TwoLane
import TcpQuicProxy.LinuxRelay.SendSide
import TcpQuicProxy.LinuxRelay.Steps

/-!
# The order of the receive queue

Received views reach the relay through the worker's event queue or, when that
queue is full, through the callback-pending lane. The two lanes behave like one
first-in first-out queue as long as a view enters the event queue only when the
lane is empty, and the lane is drained only when no view is left in the event
queue. The source checks neither.
-/

namespace TcpQuicProxy.LinuxRelay

open Machine List

/-- What the relay is given of a RECEIVE event: its bytes and its FIN flag. -/
abbrev Payload := Bytes × Bool

def ReceiveView.payload (view : ReceiveView) : Payload := (view.slices.flatten, view.fin)

def Effect.deliveredPayloads : Effect → List Payload
  | .receiveIndicated bytes fin => [(bytes, fin)]
  | _ => []

def Effect.appendedPayloads : Effect → List Payload
  | .receiveAppended bytes fin => [(bytes, fin)]
  | _ => []

/-- The RECEIVE events in the order of their delivery. -/
def receivesDelivered (log : List Effect) : List Payload := log.flatMap Effect.deliveredPayloads

/-- The views in the order in which they were appended to the receive queue. -/
def receivesAppended (log : List Effect) : List Payload := log.flatMap Effect.appendedPayloads

/-- An effect that is neither the delivery nor the queueing of a view. -/
def Effect.Silent (e : Effect) : Prop := e.deliveredPayloads = [] ∧ e.appendedPayloads = []

theorem Effect.silent_of_kind {e : Effect}
    (h : e.kind = .upload ∨ e.kind = .control ∨ e.kind = .credit) : e.Silent := by
  cases e <;> first | exact ⟨rfl, rfl⟩ | simp [Effect.kind] at h

theorem receives_silent {log es : List Effect} (h : ∀ e ∈ es, e.Silent) :
    receivesDelivered (log ++ es) = receivesDelivered log ∧
      receivesAppended (log ++ es) = receivesAppended log := by
  constructor
  · rw [receivesDelivered, flatMap_append,
      flatMap_eq_nil_iff.mpr fun e he => (h e he).1, append_nil]
    rfl
  · rw [receivesAppended, flatMap_append, flatMap_eq_nil_iff.mpr fun e he => (h e he).2, append_nil]
    rfl

variable {r r' : Relay} {strict : Prop} {c : Call}

theorem silent_of_keeps (h : KeepsDownload r r') :
    ∃ es, r'.log = r.log ++ es ∧ ∀ e ∈ es, e.Silent := by
  obtain ⟨es, hlog, hes⟩ := h.grown
  refine ⟨es, hlog, fun e he => Effect.silent_of_kind ?_⟩
  rcases hes e he with hk | hk
  · exact .inl hk
  · exact .inr (.inl hk)

attribute [local simp] Effect.deliveredPayloads Effect.appendedPayloads

/-- No move of the download direction delivers or appends a view. -/
theorem Move.silent (h : Move KeepsDownload strict r r') :
    ∃ es, r'.log = r.log ++ es ∧ ∀ e ∈ es, e.Silent := by
  have hcredit {es : List Effect} (hes : ∀ e ∈ es, e.kind = .credit) : ∀ e ∈ es, e.Silent :=
    fun e he => Effect.silent_of_kind (.inr (.inr (hes e he)))
  cases h with
  | quiet hk => exact silent_of_keeps hk
  | shut hs =>
    obtain ⟨es, hlog, hes⟩ := hs.grown
    exact ⟨es, hlog, fun e he => Effect.silent_of_kind (.inr (hes e he))⟩
  | trim => exact ⟨[], (append_nil _).symm, by simp⟩
  | returnCredit _ _ hes | retire _ _ _ _ hes | swallow _ _ _ hes => exact ⟨_, rfl, hcredit hes⟩
  | halfClose _ _ _ hes =>
    refine ⟨_, rfl, ?_⟩
    rcases hes with rfl | rfl <;> simp [Effect.Silent]
  | _ => exact ⟨[_], rfl, by simp [Effect.Silent]⟩

theorem Moves.silent (h : Moves KeepsDownload strict r r') :
    receivesDelivered r'.log = receivesDelivered r.log ∧
      receivesAppended r'.log = receivesAppended r.log := by
  induction h with
  | refl => exact ⟨rfl, rfl⟩
  | tail _ hm ih =>
    obtain ⟨es, hlog, hes⟩ := hm.silent
    rw [hlog]
    exact ⟨(receives_silent hes).1.trans ih.1, (receives_silent hes).2.trans ih.2⟩

theorem KeepsDownload.receives (h : KeepsDownload r r') :
    receivesDelivered r'.log = receivesDelivered r.log ∧
      receivesAppended r'.log = receivesAppended r.log :=
  have hmoves : Moves KeepsDownload True r r' := .of_quiet h
  hmoves.silent

/-- Behind a call that fetches views there is none that appends one. -/
def LoadsLast (calls : List Call) : Prop :=
  calls.Pairwise fun c c' => c.loads = true → c'.views = []

namespace LoadsLast

variable {rest : List Call}

theorem of_front {front : List Call} (hfront : ∀ c ∈ front, c.loads = false) (h : LoadsLast rest) :
    LoadsLast (front ++ rest) := by
  refine pairwise_append.mpr
    ⟨pairwise_of_forall_mem_list fun c hc c' _ hl => ?_, h, fun c hc c' _ hl => ?_⟩
  · rw [hfront c hc] at hl
    cases hl
  · rw [hfront c hc] at hl
    cases hl

theorem of_viewless {calls : List Call} (h : calls.flatMap Call.views = []) : LoadsLast calls :=
  pairwise_of_forall_mem_list fun _ _ c' hc' _ => flatMap_eq_nil_iff.mp h c' hc'

theorem hand (h : LoadsLast (c :: rest)) (hc : c.loads = true) :
    rest.flatMap Call.views = [] :=
  flatMap_eq_nil_iff.mpr fun c' hc' => (pairwise_cons.mp h).1 c' hc' hc

end LoadsLast

theorem Call.views_of_loads (h : c.loads = true) : c.views = [] := by
  cases c <;> first | rfl | cases h

theorem Call.loads_of_serves (h : c.serves = true) : c.loads = false := by
  cases c <;> first | rfl | cases h

namespace Worker

variable {w w' : Worker} {a : Action} {cfg : Config}

theorem loadsLast_step (cfg : Config) (h : LoadsLast w.calls)
    (hs : w.step cfg a = some w') : LoadsLast w'.calls := by
  cases a with
  | drainEvents =>
    obtain ⟨-, rfl⟩ := guarded_iff.mp hs
    exact .of_viewless rfl
  | epoll e =>
    obtain ⟨-, rfl⟩ := guarded_iff.mp hs
    exact .of_viewless (w.processTcpEvents_views e)
  | call io =>
    obtain ⟨c, rest, hcalls, rfl⟩ := step_call cfg hs
    rw [hcalls] at h
    have hrest : LoadsLast rest := (pairwise_cons.mp h).2
    obtain ⟨front, hfront, heq | ⟨hc, n, heq⟩⟩ | ⟨-, n, heq⟩ :=
      execute_calls cfg { w with relay := w.relay.answering io, calls := rest } c
    · rw [heq]
      exact .of_front (fun c' hc' => Call.loads_of_serves (hfront c' hc')) hrest
    · rw [heq]
      exact .of_front (fun c' hc' => Call.loads_of_serves (hfront c' hc')) (pairwise_cons.mpr
        ⟨fun c' hc' _ => flatMap_eq_nil_iff.mp (LoadsLast.hand h hc) c' hc', hrest⟩)
    · rw [heq]
      change LoadsLast ([_] ++ rest)
      exact .of_front (by simp [Call.loads]) hrest
  | _ => exact (delivers_step cfg rfl hs).calls ▸ h

/-! ### The two lanes as one queue -/

/-- The step uses the two lanes like one queue: a RECEIVE event does not find
room in the event queue while the lane holds a view, and the lane is not
drained while the event queue holds one. -/
def lanesInOrder (cfg : Config) (w : Worker) : Action → Bool
  | .receive _ _ _ => w.laneViews.isEmpty || cfg.eventQueueCapacity ≤ w.eventQueue.length
  | .call _ =>
    match w.calls with
    | .drainCallbackPendingQuicReceives :: _ => w.laneViews.isEmpty || w.queueViews.isEmpty
    | _ => true
  | _ => true

/-- The views of the worker's two lanes as an abstract two-lane queue. The
event queue is the main lane and the callback-pending list the overflow lane. -/
structure Represents (w : Worker) (q : TwoLane Payload) : Prop where
  delivered : q.delivered = receivesDelivered w.relay.log
  consumed : q.consumed = receivesAppended w.relay.log
  hand : q.hand = w.handViews.map ReceiveView.payload
  main : q.main = w.queueViews.map ReceiveView.payload
  overflow : q.overflow = w.laneViews.map ReceiveView.payload
  dropped : w.relay.callbackSide.shutOff = false → q.dropped = []

section Refinement

variable {cfg : Config} {strict : Prop} {a : Action} {w w' : Worker} {q : TwoLane Payload}
  {bytes : Bytes} {fin : Bool}

/-- An accepted RECEIVE event is recorded, and nothing is appended. -/
theorem Accepted.receives {view : ReceiveView} (h : Accepted w w' bytes fin view) :
    receivesDelivered w'.relay.log = receivesDelivered w.relay.log ++ [view.payload] ∧
      receivesAppended w'.relay.log = receivesAppended w.relay.log := by
  obtain ⟨m, hflows, hm⟩ := h.relay
  obtain ⟨es, hlog, hes⟩ := hflows.grown
  have hpayload : view.payload = (bytes, fin) := Prod.ext h.payload.1 h.payload.2
  have hsilent : ∃ es', w'.relay.log = (w.relay.emit (.receiveIndicated bytes fin)).log ++ es' ∧
      ∀ e ∈ es', e.Silent := by
    have hcontrol : ∀ e ∈ es, e.Silent := fun e he => Effect.silent_of_kind (.inr (.inl (hes e he)))
    rcases hm with hm | hm
    · exact ⟨es, by rw [hm, hlog], hcontrol⟩
    · refine ⟨es ++ [.receiveConsumed 0], by rw [hm, ← append_assoc, ← hlog]; rfl, ?_⟩
      simpa [or_imp, forall_and] using ⟨hcontrol, ⟨rfl, rfl⟩⟩
  obtain ⟨es', hlog', hes'⟩ := hsilent
  rw [hlog', (receives_silent hes').1, (receives_silent hes').2, hpayload]
  simp [receivesDelivered, receivesAppended, Relay.emit]

/-- A RECEIVE event that no view is made of is dropped, and the binding is sealed. -/
theorem Represents.drop (h : Represents w q) {es : List Effect}
    (hlog : w'.relay.log = w.relay.log ++ [.receiveIndicated bytes fin] ++ es)
    (hes : ∀ e ∈ es, e.Silent) (hhand : w'.handViews = w.handViews)
    (hqueue : w'.queueViews = w.queueViews) (hlane : w'.laneViews = w.laneViews)
    (hoff : w'.relay.callbackSide.shutOff = true) :
    ∃ q', Relation.ReflTransGen TwoLane.Step q q' ∧ Represents w' q' := by
  refine ⟨_, .single (.drop (bytes, fin)), ?_, ?_, ?_, ?_, ?_, fun hc => ?_⟩
  · rw [hlog, (receives_silent hes).1]
    simp [h.delivered, receivesDelivered]
  · rw [hlog, (receives_silent hes).2]
    simp [h.consumed, receivesAppended]
  · rw [hhand]
    exact h.hand
  · rw [hqueue]
    exact h.main
  · rw [hlane]
    exact h.overflow
  · rw [hoff] at hc
    cases hc

/-- **Refinement.** A step that leaves the relay open and uses the lanes in
order is a step of the abstract queue, or leaves it as it is. -/
theorem Represents.stepped (h : Represents w q) (hloads : LoadsLast w.calls)
    (hcond : w.lanesInOrder cfg a = true) (hs : Stepped cfg strict a w w')
    (hopen : w'.relay.closing = false) :
    ∃ q', Relation.ReflTransGen TwoLane.Step q q' ∧ Represents w' q' := by
  have hnohand {c : Call} {rest : List Call} (hcalls : w.calls = c :: rest) (hc : c.loads = true) :
      q.hand = [] := by
    rw [hcalls] at hloads
    rw [h.hand, handViews, hcalls, flatMap_cons, Call.views_of_loads hc, hloads.hand hc]
    rfl
  cases hs with
  | moved hrelay hhand hqueue =>
    obtain ⟨-, -, hside⟩ := hrelay.kept hopen
    exact ⟨q, .refl, h.delivered.trans hrelay.silent.1.symm, h.consumed.trans hrelay.silent.2.symm,
      hhand ▸ h.hand,
      hqueue ▸ h.main, (laneViews_of_callbackSide hside) ▸ h.overflow,
        fun hc => h.dropped (hside ▸ hc)⟩
  | loaded batch hcall hrelay hhand hqueue =>
    obtain ⟨c, rest, hcalls, hc⟩ := hcall
    have hempty := hnohand hcalls hc
    have hside : w'.relay.callbackSide = w.relay.callbackSide := congrArg Prod.snd hrelay.kept
    have hmain := h.main
    rw [hqueue, map_append] at hmain
    refine ⟨_, .single (.loadMain hempty hmain), h.delivered.trans hrelay.receives.1.symm,
      h.consumed.trans hrelay.receives.2.symm, ?_, rfl,
        (laneViews_of_callbackSide hside) ▸ h.overflow,
      fun hc => h.dropped (hside ▸ hc)⟩
    rw [hhand, map_append, ← h.hand, hempty, append_nil]
  | laneLoaded hcall _ hrelay hhand hqueue =>
    obtain ⟨ha, rest, hcalls⟩ := hcall
    have hempty := hnohand hcalls rfl
    have hmain : q.overflow = [] ∨ q.main = [] := by
      cases a <;> simp only [Action.isCall, Bool.false_eq_true] at ha
      simp only [lanesInOrder, hcalls, Bool.or_eq_true, List.isEmpty_iff] at hcond
      rcases hcond with hlane | hq
      · exact .inl (by rw [h.overflow, hlane]; rfl)
      · exact .inr (by rw [h.main, hq]; rfl)
    refine ⟨_, .single (.loadOverflow hempty hmain), h.delivered.trans hrelay.receives.1.symm,
      h.consumed.trans hrelay.receives.2.symm, ?_, hqueue ▸ h.main, ?_, fun hc => h.dropped ?_⟩
    · rw [hhand, map_append, ← h.hand, hempty, append_nil]
      exact h.overflow
    · rw [show w'.laneViews = [] from
        congrArg (fun c : DownloadSide × CallbackSide => c.2.callbackPendingQuicReceives)
          hrelay.kept]
      rfl
    · rw [← hc]
      exact (congrArg (fun c : DownloadSide × CallbackSide => c.2.shutOff) hrelay.kept).symm
  | @appended view _ hrelay hhand hqueue =>
    have hq := h.hand
    rw [hhand, map_cons] at hq
    have hside : w'.relay.callbackSide = w.relay.callbackSide := congrArg Prod.snd hrelay.kept
    refine ⟨_, .single (.consume hq), ?_, ?_, rfl, hqueue ▸ h.main,
      (laneViews_of_callbackSide hside) ▸ h.overflow,
      fun hc => h.dropped (hside ▸ hc)⟩
    · rw [hrelay.receives.1]
      simp [h.delivered, receivesDelivered, Relay.queueQuicReceive, Relay.emit]
    · rw [hrelay.receives.2]
      simp [h.consumed, receivesAppended, Relay.queueQuicReceive, Relay.emit, ReceiveView.payload]
  | discarded hclosed _ _ hrelay =>
    rw [hrelay.closing] at hopen
    exact absurd hopen (by simp [Relay.record, hclosed])
  | @received _ _ view hacc hroom hqueue hlane =>
    have hover : q.overflow = [] := by
      obtain ⟨ha, hroom⟩ := hroom
      cases a <;> simp only [Action.isReceive, Bool.false_eq_true] at ha
      simp only [lanesInOrder, Bool.or_eq_true, List.isEmpty_iff, decide_eq_true_eq] at hcond
      have hempty : w.laneViews = [] := by
        rcases hroom with hlt | hempty
        · rcases hcond with hempty | hfull
          · exact hempty
          · omega
        · exact hempty
      rw [h.overflow, hempty]
      rfl
    refine ⟨_, .single (.enterMain view.payload (h.dropped hacc.opened) hover), ?_, ?_, ?_, ?_,
      hlane ▸ h.overflow,
      fun _ => h.dropped hacc.opened⟩
    · rw [hacc.receives.1, h.delivered]
    · rw [hacc.receives.2, h.consumed]
    · rw [hacc.hand, h.hand]
    · rw [hqueue, h.main, map_append]
      rfl
  | @receivedLane _ _ view hacc _ hqueue hlane =>
    refine ⟨_, .single (.enterOverflow view.payload (h.dropped hacc.opened)), ?_, ?_, ?_,
      hqueue ▸ h.main, ?_,
      fun _ => h.dropped hacc.opened⟩
    · rw [hacc.receives.1, h.delivered]
    · rw [hacc.receives.2, h.consumed]
    · rw [hacc.hand, h.hand]
    · rw [hlane, h.overflow, map_append]
      rfl
  | @ignored bytes fin hoff hrelay hhand hqueue =>
    have hlog : w'.relay.log =
        w.relay.log ++ [.receiveIndicated bytes fin] ++ [.receiveConsumed bytes.length] := by
      rw [hrelay]
      rfl
    refine h.drop hlog (by simp [Effect.Silent]) hhand hqueue ?_ ?_
    · rw [laneViews, hrelay]; rfl
    · rw [hrelay]; exact hoff
  | @refused bytes fin hrelay hhand hqueue =>
    have hlog : w'.relay.log = w.relay.log ++ [.receiveIndicated bytes fin] ++ [] := by
      rw [hrelay, append_nil]
      rfl
    refine h.drop hlog (by simp) hhand hqueue ?_ ?_
    · rw [laneViews, hrelay]; rfl
    · rw [hrelay]; rfl
  | shutOff hstop hrelay hhand hqueue =>
    have hlog := hstop.download.receives
    have hlane : w'.laneViews = w.laneViews := by
      rw [laneViews, hrelay]
      exact congrArg (fun c : UploadSide × DownloadSide × CallbackSide =>
        c.2.2.callbackPendingQuicReceives) hstop.kept
    have hoff : w'.relay.callbackSide.shutOff = true := by
      rw [hrelay]
      rfl
    have hno : ∀ {P : Prop}, w'.relay.callbackSide.shutOff = false → P :=
      fun hc => by rw [hoff] at hc; cases hc
    have hdelivered : q.delivered = receivesDelivered w'.relay.log := by
      rw [hrelay]
      exact h.delivered.trans hlog.1.symm
    have hconsumed : q.consumed = receivesAppended w'.relay.log := by
      rw [hrelay]
      exact h.consumed.trans hlog.2.symm
    rcases hqueue with hqueue | ⟨hqueue, hempty, -⟩
    · exact ⟨q, .refl, hdelivered, hconsumed, hhand ▸ h.hand, hqueue ▸ h.main, hlane ▸ h.overflow,
        fun hc => hno hc⟩
    · refine ⟨_, .single (.abandon ?_), hdelivered, hconsumed, hhand ▸ h.hand, ?_,
        hlane ▸ h.overflow, fun hc => hno hc⟩
      · rw [h.overflow, hempty]
        rfl
      · rw [hqueue]
        rfl
  | erased hrelay =>
    rw [hrelay.closed] at hopen
    cases hopen

end Refinement

/-- A relay that a step leaves open was open before it. -/
theorem Stepped.open_before (hs : Stepped cfg strict a w w')
    (hopen : w'.relay.closing = false) : w.relay.closing = false := by
  cases hs with
  | moved hrelay => exact (hrelay.kept hopen).1
  | loaded _ _ hrelay | discarded _ _ _ hrelay => exact hrelay.closing ▸ hopen
  | laneLoaded _ h | appended h => exact h
  | received hacc | receivedLane hacc => exact hacc.open
  | ignored _ hrelay | refused hrelay => rw [hrelay] at hopen; exact hopen
  | shutOff hstop hrelay =>
    rw [hrelay] at hopen
    exact hstop.closing ▸ hopen
  | erased hrelay =>
    rw [hrelay.closed] at hopen
    cases hopen

/-- The views that the callback has accepted and the worker not appended yet. -/
def waitingReceives (w : Worker) : List Payload :=
  (w.handViews ++ w.queueViews ++ w.laneViews).map ReceiveView.payload

/-- Views are appended in the order of their delivery and none twice; while the
stream callback accepts events, none is lost. -/
structure ReceiveOrder (w : Worker) : Prop where
  inOrder : w.relay.closing = false → receivesAppended w.relay.log <+: receivesDelivered w.relay.log
  noneLost : w.relay.callbackSide.shutOff = false →
    receivesAppended w.relay.log ++ w.waitingReceives = receivesDelivered w.relay.log

/-- What every run with lanes in order keeps. -/
structure LanesInv (w : Worker) : Prop where
  sound : w.Sound
  loads : LoadsLast w.calls
  fifo : w.relay.closing = false → ∃ q : TwoLane Payload, q.Fifo ∧ Represents w q

theorem LanesInv.step (h : LanesInv w)
    (hcond : w.lanesInOrder cfg a = true) (hs : w.step cfg a = some w') : LanesInv w' := by
  refine ⟨sound_step cfg h.sound hs, loadsLast_step cfg h.loads hs, fun hopen => ?_⟩
  have hstep : Stepped cfg False a w w' := stepped_step cfg h.sound False.elim hs
  obtain ⟨q, hfifo, hq⟩ := h.fifo (hstep.open_before hopen)
  obtain ⟨q', hsteps, hq'⟩ := hq.stepped h.loads hcond hstep hopen
  exact ⟨q', hfifo.steps hsteps, hq'⟩

theorem lanesInv_start (cfg : Config) (reg : Registration) (tcpInput : Bytes) :
    LanesInv (start cfg reg tcpInput) :=
  ⟨sound_start cfg reg tcpInput, .of_viewless rfl,
    fun _ => ⟨.empty, TwoLane.fifo_empty, rfl, rfl, rfl, rfl, rfl, fun _ => rfl⟩⟩

theorem LanesInv.receiveOrder (h : LanesInv w) : ReceiveOrder w := by
  refine ⟨fun hopen => ?_, fun hon => ?_⟩
  · obtain ⟨q, hfifo, hq⟩ := h.fifo hopen
    rw [← hq.consumed, ← hq.delivered]
    exact hfifo.consumed_in_order
  · obtain ⟨q, hfifo, hq⟩ := h.fifo (Relay.open_of_accepting hon)
    have hwaiting : w.waitingReceives = q.waiting := by
      rw [waitingReceives, TwoLane.waiting, hq.hand, hq.main, hq.overflow, map_append, map_append]
    rw [hwaiting, ← hq.consumed, ← hq.delivered]
    exact hfifo.none_lost (hq.dropped hon)

/-- **Download order.** In every run that uses the two lanes in order, the
views are appended in the order of their delivery, none twice and, while the
relay is open, none lost. -/
theorem receives_in_order_of_ordered_lanes (cfg : Config) (reg : Registration) (tcpInput : Bytes)
    (as : List Action) (w : Worker)
    (hlanes : Meets (step cfg) (fun w a => w.lanesInOrder cfg a = true) (start cfg reg tcpInput) as)
    (hrun : run (step cfg) (start cfg reg tcpInput) as = some w) : ReceiveOrder w :=
  (invariant_of_meets (fun _ _ _ h hr hs => LanesInv.step h hr hs)
    (lanesInv_start cfg reg tcpInput) hlanes
    hrun).receiveOrder

/-- A worker whose event queue holds two events. -/
def smallQueue : Config := { eventQueueCapacity := 2, maxIov_pos := by decide }

/-- The second view finds the event queue full and takes the lane. The worker
appends the first view and its flush resumes the paused stream. -/
def resumedBehindLane : List Action :=
  registration ++
    [.receive [[0]] false {}, .enqueue .foreign, .receive [[1]] false {}, .drainEvents,
    .call {}, .call {}, .call {}, .call {}, .call { writes := [.sent 1] }]

/-- Both views are appended before a third one is delivered. -/
def drainedLane : List Action :=
  resumedBehindLane ++ [.call {}, .call {}, .call {}, .call {}, .call {}, .receive [[2]] true {}]

theorem drainedLane_in_order :
    ∃ w, run (step smallQueue) (start smallQueue {} []) drainedLane = some w ∧
      receivesAppended w.relay.log = [([0], false), ([1], false)] ∧
        w.waitingReceives = [([2], true)] ∧
      ReceiveOrder w := by
  refine run_observed (f := fun w => (receivesAppended w.relay.log, w.waitingReceives))
    (o := ([([0], false), ([1], false)], [([2], true)])) (by decide +kernel) fun w hw hobs => ?_
  obtain ⟨happended, hwaiting⟩ := Prod.mk.inj hobs
  exact ⟨happended, hwaiting,
    receives_in_order_of_ordered_lanes smallQueue {} [] drainedLane w (by decide +kernel) hw⟩

/-- The third view is delivered while the second one still waits in the lane.
It enters the event queue and is appended first. -/
def overtakenLane : List Action :=
  resumedBehindLane ++ [.receive [[2]] false {}, .call {}, .call {}, .call {}]

theorem overtakenLane_out_of_order :
    ∃ w, run (step smallQueue) (start smallQueue {} []) overtakenLane = some w ∧
      w.relay.callbackSide.shutOff = false ∧
      receivesDelivered w.relay.log = [([0], false), ([1], false), ([2], false)] ∧
      receivesAppended w.relay.log = [([0], false), ([2], false)] ∧ ¬ ReceiveOrder w := by
  refine run_observed
    (f := fun w =>
    (w.relay.callbackSide.shutOff, receivesDelivered w.relay.log, receivesAppended w.relay.log))
    (o := (false, [([0], false), ([1], false), ([2], false)], [([0], false), ([2], false)]))
    (by decide +kernel) fun w hw hobs => ?_
  simp only [Prod.mk.injEq] at hobs
  obtain ⟨hon, hdelivered, happended⟩ := hobs
  refine ⟨hon, hdelivered, happended, fun h => ?_⟩
  have hinOrder := h.inOrder (Relay.open_of_accepting hon)
  rw [hdelivered, happended] at hinOrder
  exact absurd hinOrder (by decide)

end Worker
end TcpQuicProxy.LinuxRelay
