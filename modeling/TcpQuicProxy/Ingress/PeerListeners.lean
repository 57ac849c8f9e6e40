import TcpQuicProxy.Machine.Run

/-!
# The listeners of a peer

The runtime of a peer keeps whether its listeners are open and whether they should be;
the ingress reactor keeps whether the peer is registered. Both are changed in separate
sections by admin threads, by notifications of connection counts and by delayed updates.
`ListenerPc.serves` says which of them still has to bring the listeners to where they should be.
-/

namespace TcpQuicProxy.Ingress

open Machine

/-- The next section of an operation. -/
inductive ListenerPc where
  /-- `EnableAcceptingAndApplyCurrentConnectionState`; it will read the count. -/
  | enable (connectedCount : Nat)
  | applyCurrent (connectedCount : Nat)
  | apply (connectedCount : Nat)
  /-- `ScheduleConnectionStateApply`, and the hand-over of its delayed update. -/
  | schedule (connectedCount : Nat)
  | enqueue
  | flush
  | applyDesired
  | close
  | remove
  /-- `OpenListeners`, which may wait for another one. -/
  | open (waitForInFlight : Bool)
  | add
  | refused
  | added
  | retract
  | clear
  | disable
  deriving DecidableEq

structure ListenerOp where
  pc : ListenerPc
  /-- For `EnableAccepting...`, whether it requires a connection. -/
  requireConnected : Option Bool := none
  deriving DecidableEq

structure PeerListeners where
  acceptingEnabled : Bool := false
  listenersOpen : Bool := false
  listenersOpening : Bool := false
  desiredListenersOpen : Bool := false
  pendingListenerUpdate : Bool := false
  /-- The peer is in the table of the ingress reactor. -/
  registered : Bool := false
  /-- Delayed updates that the reactor has not run. -/
  delayed : Nat := 0
  ops : List ListenerOp := []
  deriving DecidableEq

/-- An operation goes on, or returns whether it has done what it was asked for. -/
inductive ListenerNext where
  | goto (pc : ListenerPc)
  | done (applied : Bool)

/-- An enabling operation that fails disables again. -/
def ListenerOp.next (op : ListenerOp) : ListenerNext → Option ListenerOp
  | .goto pc => some { op with pc }
  | .done applied =>
    if !applied && op.requireConnected.isSome then some { pc := .disable } else none

/-! ### What an operation still has to do -/

/-- The sum of a weight over operations. -/
def weighOps (weight : ListenerPc → Nat) (ops : List ListenerOp) : Nat :=
  total (fun op => weight op.pc) ops

/-- The operation is about to record or to take back the registration. -/
def ListenerPc.holds : ListenerPc → Nat
  | .added | .remove | .retract => 1
  | _ => 0

def ListenerPc.opens : ListenerPc → Nat
  | .add | .added => 1
  | _ => 0

def ListenerPc.refuses : ListenerPc → Nat
  | .refused => 1
  | _ => 0

def ListenerPc.updates : ListenerPc → Nat
  | .enqueue | .flush => 1
  | _ => 0

/-- The operation will close open listeners, or open closed ones, if need be. -/
def ListenerPc.serves (isOpen : Bool) : ListenerPc → Nat
  | .applyCurrent _ | .apply _ | .enqueue | .flush | .applyDesired => 1
  | .close => isOpen.toNat
  | .open _ | .add | .added => (!isOpen).toNat
  | _ => 0

/-- What an operation weighs after a section; one that disables again has no weight. -/
def ListenerNext.weigh (weight : ListenerPc → Nat) : ListenerNext → Nat
  | .goto pc => weight pc
  | .done _ => 0

namespace PeerListeners

inductive Action where
  | enableAccepting (connectedCount : Nat) (requireConnected : Bool)
  | applyConnectionState (connectedCount : Nat)
  | scheduleConnectionStateApply (connectedCount : Nat)
  | disableAccepting
  | runDelayed
  /-- An operation makes its next section; `ok` is the answer of `EnqueueDelayed`. -/
  | advance (op : Nat) (ok : Bool)
  deriving DecidableEq

variable (s : PeerListeners)

def wanted : Bool := s.acceptingEnabled && s.desiredListenersOpen

/-- A close ends an operation that requires a connection without success. -/
def closed (op : ListenerOp) : ListenerNext := .done (op.requireConnected ≠ some true)

def advance (ok : Bool) (op : ListenerOp) : Option (PeerListeners × ListenerNext) :=
  match op.pc with
  | .enable count => some ({ s with acceptingEnabled := true }, .goto (.applyCurrent count))
  | .applyCurrent count =>
    if s.acceptingEnabled then some (s, .goto (.apply count))
    else some ({ s with desiredListenersOpen := false }, .goto .close)
  | .apply count =>
    let desired := s.acceptingEnabled && 0 < count
    some ({ s with desiredListenersOpen := desired },
      .goto (if desired then .open true else .close))
  | .schedule count =>
    let t := { s with desiredListenersOpen := s.acceptingEnabled && 0 < count }
    if s.pendingListenerUpdate then some (t, .done true)
    else some ({ t with pendingListenerUpdate := true }, .goto .enqueue)
  | .enqueue => if ok then some ({ s with delayed := s.delayed + 1 }, .done true)
      else some ({ s with pendingListenerUpdate := false }, .done true)
  | .flush => some ({ s with pendingListenerUpdate := false }, .goto .applyDesired)
  | .applyDesired => some (s, .goto (if s.wanted then .open false else .close))
  | .close =>
    some ({ s with listenersOpen := false }, if s.listenersOpen then .goto .remove else closed op)
  | .remove => some ({ s with registered := false }, closed op)
  | .open waitForInFlight =>
    if s.listenersOpen || !s.wanted then some (s, .done true)
    else if !s.listenersOpening then some ({ s with listenersOpening := true }, .goto .add)
    else if waitForInFlight then none else some (s, .done true)
  | .add => if s.registered then
      some (s, .goto .refused) else some ({ s with registered := true }, .goto .added)
  | .refused => some ({ s with listenersOpening := false }, .done s.listenersOpen)
  | .added =>
    if s.wanted then some ({ s with listenersOpening := false, listenersOpen := true }, .done true)
    else some ({ s with listenersOpening := false }, .goto .retract)
  | .retract => some ({ s with registered := false }, .goto .clear)
  | .clear => some ({ s with listenersOpen := false }, .done true)
  | .disable =>
    some ({ s with
      acceptingEnabled := false, desiredListenersOpen := false
      pendingListenerUpdate := false }, .goto .close)

def enter (pc : ListenerPc) (requireConnected : Option Bool) : PeerListeners :=
  { s with ops := s.ops ++ [{ pc, requireConnected }] }

def step (s : PeerListeners) : Action → Option PeerListeners
  | .enableAccepting count requireConnected =>
    some (s.enter (.enable count) (some requireConnected))
  | .applyConnectionState count => some (s.enter (.apply count) none)
  | .scheduleConnectionStateApply count => some (s.enter (.schedule count) none)
  | .disableAccepting => some (s.enter .disable none)
  | .runDelayed =>
    if s.delayed = 0 then none else some ({ s with delayed := s.delayed - 1 }.enter .flush none)
  | .advance index ok => s.ops[index]?.bind fun op =>
      (s.advance ok op).map fun r => { r.1 with ops := replaceIdx s.ops index (op.next r.2) }

/-! ### Who brings the listeners where they should be -/

/-- Updates are handed over, the reactor has let go of the peer when it is added again, listeners
are closed only while they are not wanted, and the end of an open does not undo another one. -/
def undisturbed (s : PeerListeners) : Action → Bool
  | .advance index ok => s.ops[index]?.all fun op =>
      match op.pc with
      | .enqueue => ok
      | .add => !s.registered
      | .close => !s.wanted
      | .clear => !s.listenersOpen
      | _ => true
  | _ => true

/-- The flag and the operations account for the registration, and listeners that are not as wanted
are served. -/
structure Sound (s : PeerListeners) : Prop where
  registered : s.listenersOpen.toNat + weighOps ListenerPc.holds s.ops = s.registered.toNat
  opening : weighOps ListenerPc.opens s.ops = s.listenersOpening.toNat
  unrefused : weighOps ListenerPc.refuses s.ops = 0
  pending : s.pendingListenerUpdate = true → 0 < s.delayed + weighOps ListenerPc.updates s.ops
  served : s.listenersOpen = s.wanted ∨
    0 < s.delayed + weighOps (ListenerPc.serves s.listenersOpen) s.ops

/-- What a section has to do for the others: it settles what it changes, or goes on to settle it,
or leaves it to a pending update or to the operation that is opening. -/
structure Goes (s u : PeerListeners) (pc : ListenerPc) (next : ListenerNext) : Prop where
  registered : u.listenersOpen.toNat + next.weigh ListenerPc.holds + s.registered.toNat =
    s.listenersOpen.toNat + pc.holds + u.registered.toNat
  opening :
    next.weigh ListenerPc.opens + s.listenersOpening.toNat = pc.opens + u.listenersOpening.toNat
  unrefused : next.weigh ListenerPc.refuses = 0
  pending : u.pendingListenerUpdate = true → 0 < u.delayed + next.weigh ListenerPc.updates ∨
    s.pendingListenerUpdate = true ∧ u.delayed = s.delayed ∧
      pc.updates ≤ next.weigh ListenerPc.updates
  served : u.listenersOpen = u.wanted ∨
    0 < u.delayed + next.weigh (ListenerPc.serves u.listenersOpen) ∨
    u.pendingListenerUpdate = true ∨ u.listenersOpening = true ∧ u.listenersOpen = false ∨
    u.listenersOpen = s.listenersOpen ∧ u.wanted = s.wanted ∧ u.delayed = s.delayed ∧
      pc.serves s.listenersOpen ≤ next.weigh (ListenerPc.serves s.listenersOpen)

variable {s t u : PeerListeners} {op : ListenerOp} {index : Nat} {ok : Bool} {next : ListenerNext}

theorem weight_le_weighOps (weight : ListenerPc → Nat) (hop : s.ops[index]? = some op) :
    weight op.pc ≤ weighOps weight s.ops :=
  le_total_of_mem (f := fun op => weight op.pc) (List.mem_of_getElem? hop)

theorem weighOps_next (hop : s.ops[index]? = some op) {weight : ListenerPc → Nat}
    (hdisable : weight .disable = 0) :
    weighOps weight (replaceIdx s.ops index (op.next next)) + weight op.pc =
      weighOps weight s.ops + next.weigh weight := by
  have hnext : (op.next next).elim 0 (fun op => weight op.pc) = next.weigh weight := by
    cases next with
    | goto pc => rfl
    | done applied =>
      rw [ListenerOp.next]
      split
      · exact hdisable
      · rfl
  rw [weighOps, weighOps, total_replaceIdx (op.next next) hop, hnext]

theorem weighOps_mono {weight weight' : ListenerPc → Nat} (h : ∀ pc, weight pc ≤ weight' pc)
    (ops : List ListenerOp) :
    weighOps weight ops ≤ weighOps weight' ops :=
  total_mono fun op => h op.pc

theorem updates_le_serves (isOpen : Bool) (pc : ListenerPc) : pc.updates ≤ pc.serves isOpen := by
  cases pc <;> simp [ListenerPc.updates, ListenerPc.serves]

theorem Sound.goes (h : s.Sound) (hop : s.ops[index]? = some op) (hgoes : Goes s u op.pc next) :
    { u with ops := replaceIdx s.ops index (op.next next) }.Sound := by
  have hholds := @weighOps_next s op index next hop ListenerPc.holds rfl
  have hopens := @weighOps_next s op index next hop ListenerPc.opens rfl
  have hrefuses := @weighOps_next s op index next hop ListenerPc.refuses rfl
  have hupdates := @weighOps_next s op index next hop ListenerPc.updates rfl
  have hserves := @weighOps_next s op index next hop (ListenerPc.serves u.listenersOpen) rfl
  have hupdating := weight_le_weighOps ListenerPc.updates hop
  have hserving := weight_le_weighOps (ListenerPc.serves u.listenersOpen) hop
  generalize replaceIdx s.ops index (op.next next) = ops at *
  obtain ⟨hregistered, hopening, hunrefused, hpending, hserved⟩ := h
  have hopening' : weighOps ListenerPc.opens ops = u.listenersOpening.toNat := by
    have := hgoes.opening
    omega
  have hpending' : u.pendingListenerUpdate = true →
      0 < u.delayed + weighOps ListenerPc.updates ops := by
    intro hu
    rcases hgoes.pending hu with hpos | ⟨hs, hdelayed, hle⟩
    · omega
    · have := hpending hs
      omega
  refine ⟨?_, hopening', ?_, hpending', ?_⟩
  · have := hgoes.registered
    dsimp only
    omega
  · have := hgoes.unrefused
    dsimp only
    omega
  dsimp only [wanted] at hserved ⊢
  rcases hgoes.served with hagree | hpos | hupdate | ⟨hin, hclosed⟩ | ⟨hopen, hwanted,
    hdelayed, hle⟩
  · exact .inl hagree
  · exact .inr (by omega)
  · have hle := weighOps_mono (updates_le_serves u.listenersOpen) ops
    have := hpending' hupdate
    exact .inr (by omega)
  · have hle := @weighOps_mono ListenerPc.opens (ListenerPc.serves u.listenersOpen)
      (fun pc => by cases pc <;> simp [ListenerPc.opens, ListenerPc.serves, hclosed]) ops
    rw [hin, Bool.toNat_true] at hopening'
    exact .inr (by omega)
  · rw [← hopen] at hserved hle
    rcases hserved with hagree | hpos
    · exact .inl (hagree.trans hwanted.symm)
    · exact .inr (by omega)

theorem toNat_eq_one_or_zero (b : Bool) : b = true ∧ b.toNat = 1 ∨ b = false ∧ b.toNat = 0 := by
  cases b <;> simp

theorem Sound.advance (h : s.Sound) (hop : s.ops[index]? = some op)
    (hcond : s.undisturbed (.advance index ok) = true) (hnext : s.advance ok op = some (u, next)) :
    Goes s u op.pc next := by
  have hholds : s.listenersOpen.toNat + op.pc.holds ≤ s.registered.toNat := by
    have := weight_le_weighOps ListenerPc.holds hop
    have := h.registered
    omega
  have hopens : op.pc.opens ≤ s.listenersOpening.toNat :=
    h.opening ▸ weight_le_weighOps ListenerPc.opens hop
  have hrefuses : op.pc.refuses ≤ 0 := h.unrefused ▸ weight_le_weighOps ListenerPc.refuses hop
  simp only [undisturbed, hop, Option.all_some] at hcond
  clear h hop
  obtain ⟨accepting, isOpen, opening, desired, pending, registered, delayed, ops⟩ := s
  obtain ⟨pc, required⟩ := op
  dsimp only at *
  cases pc with
  | enable count | applyCurrent count | apply count | schedule count | enqueue | flush
  | applyDesired | disable =>
    -- nothing is registered or taken down here
    simp only [PeerListeners.advance] at hnext
    (repeat' split at hnext) <;> cases hnext <;> constructor <;>
      simp only [ListenerPc.holds, ListenerPc.opens, ListenerPc.refuses, ListenerPc.updates,
        ListenerPc.serves, ListenerNext.weigh, wanted] at * <;>
      grind [toNat_eq_one_or_zero]
  | «open» waitForInFlight | add | refused | added | retract =>
    simp only [PeerListeners.advance] at hnext
    (repeat' split at hnext) <;> cases hnext <;> constructor <;>
      simp only [ListenerPc.holds, ListenerPc.opens, ListenerPc.refuses, ListenerPc.updates,
        ListenerPc.serves, ListenerNext.weigh, wanted] at * <;>
      grind [toNat_eq_one_or_zero]
  | close | remove | clear =>
    simp only [PeerListeners.advance, closed] at hnext
    (repeat' split at hnext) <;> cases hnext <;> constructor <;>
      simp only [ListenerPc.holds, ListenerPc.opens, ListenerPc.refuses, ListenerPc.updates,
        ListenerPc.serves, ListenerNext.weigh, wanted] at * <;>
      grind [toNat_eq_one_or_zero]

theorem weighOps_enter (weight : ListenerPc → Nat) (pc : ListenerPc) (required : Option Bool) :
    weighOps weight (s.enter pc required).ops = weighOps weight s.ops + weight pc := by
  simp [weighOps, enter, total_append, total]

/-- An operation that begins has no part in what is under way; an update takes over from the
reactor. -/
theorem Sound.enter {pc : ListenerPc} {required : Option Bool} {delayed : Nat} (h : s.Sound)
    (hweight : pc.holds + pc.opens + pc.refuses = 0) (hdelayed : s.delayed ≤ delayed + pc.updates) :
    ({ s with delayed }.enter pc required).Sound := by
  have hserves : pc.updates ≤ pc.serves s.listenersOpen := updates_le_serves _ pc
  obtain ⟨hregistered, hopening, hunrefused, hpending, hserved⟩ := h
  constructor
  all_goals simp only [weighOps_enter]
  all_goals dsimp only [PeerListeners.enter, wanted] at *
  · omega
  · omega
  · omega
  · intro hp
    have := hpending hp
    omega
  · exact hserved.imp id fun hpos => by omega

theorem Sound.step (s : PeerListeners) (a : Action) (t : PeerListeners) (h : s.Sound)
    (hcond : s.undisturbed a = true) (hstep : step s a = some t) : t.Sound := by
  cases a with
  | advance index ok =>
    simp only [PeerListeners.step, Option.bind_eq_some_iff, Option.map_eq_some_iff] at hstep
    obtain ⟨op, hop, ⟨u, next⟩, hnext, rfl⟩ := hstep
    exact h.goes hop (h.advance hop hcond hnext)
  | runDelayed =>
    rw [PeerListeners.step] at hstep
    split at hstep
    · cases hstep
    · cases hstep
      exact h.enter rfl (show s.delayed ≤ s.delayed - 1 + 1 by omega)
  | _ =>
    cases hstep
    exact h.enter rfl (Nat.le_refl _)

theorem sound_start : Sound {} where
  registered := rfl
  opening := rfl
  unrefused := rfl
  pending := nofun
  served := .inl rfl

/-- Once nothing is under way, the listeners are where they should be. -/
theorem listeners_converge {as : List Action}
    (hmeets : Meets step (fun s a => s.undisturbed a = true) {} as) (hrun : run step {} as = some t)
    (hops : t.ops = []) (hdelayed : t.delayed = 0) :
    (t.registered = true ↔ t.listenersOpen = true) ∧
      (t.listenersOpen = true ↔ t.acceptingEnabled = true ∧ t.desiredListenersOpen = true) := by
  have h := invariant_of_meets Sound.step sound_start hmeets hrun
  obtain ⟨hregistered, -, -, -, hserved⟩ := h
  rw [hops] at hregistered hserved
  constructor
  · revert hregistered
    cases t.registered <;> cases t.listenersOpen <;> simp [weighOps]
  · rw [hserved.resolve_right (by rw [hdelayed]; exact Nat.lt_irrefl 0), wanted, Bool.and_eq_true]

/-- A peer is enabled with a connection and closed when it loses it. -/
def openedAndClosed : List Action :=
  [.enableAccepting 1 true, .advance 0 true, .advance 0 true, .advance 0 true, .advance 0 true,
    .advance 0 true, .advance 0 true,
   .scheduleConnectionStateApply 0, .advance 0 true, .advance 0 true, .runDelayed, .advance 0 true,
     .advance 0 true,
   .advance 0 true, .advance 0 true]

theorem openedAndClosed_converges :
    ∃ t, run step {} openedAndClosed = some t ∧ t.acceptingEnabled = true ∧
    (t.registered = true ↔ t.listenersOpen = true) ∧
      (t.listenersOpen = true ↔ t.acceptingEnabled = true ∧ t.desiredListenersOpen = true) :=
  ⟨_, rfl, rfl, @listeners_converge _ openedAndClosed (by decide) rfl rfl rfl⟩

/-- A close has cleared the flag and has not reached the reactor when the connection is back; the
peer is refused there, removed after that, and no listener is open although accepting is enabled
and a connection is up. -/
theorem refusedOpen_lost :
    (run step {} [.enableAccepting 1 true, .advance 0 true, .advance 0 true, .advance 0 true,
      .advance 0 true, .advance 0 true,
      .advance 0 true, .applyConnectionState 0, .advance 0 true, .advance 0 true,
      .applyConnectionState 1, .advance 1 true, .advance 1 true, .advance 1 true, .advance 1 true,
        .advance 0 true]) =
      some { acceptingEnabled := true, desiredListenersOpen := true } := by
  decide

end PeerListeners
end TcpQuicProxy.Ingress
