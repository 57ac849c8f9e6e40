import TcpQuicProxy.Machine.Run

/-!
# The connection slots of a client session

Every call and every callback of a session is a sequence of sections under one lock. The
sections are taken here in any order, also in orders that no call makes. What a call keeps
between two sections is in the state: a connection that has been taken out of its slot and
is not an orphan yet, a count that the handler has not been told, a callback that has
still to drop its connection.
-/

namespace TcpQuicProxy.Quic

open Machine Option

structure SlotKey where
  numericConnectionId : Nat
  generation : Nat
  deriving DecidableEq

structure Slot where
  key : SlotKey
  connection : Option Nat := none
  connected : Bool := false
  activeRetryToken : Nat := 0
  activeStartClaim : Nat := 0
  retrySchedulingFailed : Bool := false

structure RetryTicket where
  slotIndex : Nat
  key : SlotKey
  token : Nat

/-- Who calls `StartSlot`: a request, the timer of a ticket, or `EnsureConnected`. -/
inductive StartMode where
  | request
  | retry (ticket : RetryTicket)
  | idle

inductive ConnEvent where
  | connected
  | shutdownInitiated
  | shutdownComplete
  deriving DecidableEq

/-- A context and the last event of its connection. -/
structure ClientConnContext where
  slotIndex : Nat
  key : SlotKey
  last : Option ConnEvent := none

def uint64Max : Nat := 18446744073709551615

/-! ### Sections on one slot -/

namespace Slot

variable (slot : Slot)

/-- The slot is connected and its connection valid. -/
def isConnected (closed : List Nat) : Bool :=
  slot.connected && slot.connection.any fun connection => !closed.contains connection

/-- `PickableConnectionLocked`. -/
def pickable (closed : List Nat) : Bool := slot.activeRetryToken = 0 && slot.isConnected closed

/-- `RetryTicketMatchesLocked`. -/
def matchesTicket (ticket : RetryTicket) : Bool :=
  ticket.token ≠ 0 && slot.activeRetryToken = ticket.token && slot.key = ticket.key

def refuses : StartMode → Bool
  | .request => false
  | .retry ticket => !slot.matchesTicket ticket
  | .idle => slot.connection.isSome || slot.activeRetryToken ≠ 0 || slot.activeStartClaim ≠ 0 ||
      slot.retrySchedulingFailed

/-- No claim is left. A stale ticket is dropped before that is seen. -/
def exhaust : StartMode → Slot
  | .retry ticket =>
    if slot.matchesTicket ticket then
      { slot with activeRetryToken := 0, retrySchedulingFailed := true } else slot
  | _ => { slot with retrySchedulingFailed := true }

/-- The first section of `StartSlot`: the connection is taken out unless it is connected. -/
def claim (closed : List Nat) (claim : Nat) (mode : StartMode) : Slot :=
  if claim = uint64Max then slot.exhaust mode
  else if slot.refuses mode then slot
  else if slot.isConnected closed then
    { slot with activeStartClaim := claim, activeRetryToken := 0 }
  else
    { slot with
      activeStartClaim := claim, activeRetryToken := 0, connection := none, connected := false }

/-- The connection has refused to start and is deleted. -/
def failStart (connection : Nat) : Slot :=
  if slot.connection = some connection then { slot with connection := none } else slot

def release (claim : Nat) : Slot :=
  if claim ≠ 0 && slot.activeStartClaim = claim then { slot with activeStartClaim := 0 } else slot

def mayRetry (key : SlotKey) : Bool :=
  slot.key = key && slot.activeRetryToken = 0 && !slot.retrySchedulingFailed

/-- `ReserveRetryLocked`. -/
def reserveRetry (key : SlotKey) (token : Nat) : Slot :=
  if !slot.mayRetry key then slot
  else if token = uint64Max then { slot with retrySchedulingFailed := true }
  else { slot with activeRetryToken := token }

/-- The end of `SubmitRetry` if the scheduler has not taken the ticket. -/
def refuseRetry (ticket : RetryTicket) : Slot :=
  if slot.matchesTicket ticket then
    { slot with activeRetryToken := 0, retrySchedulingFailed := true } else slot

def reconnect (numericConnectionId : Nat) : Slot :=
  if slot.retrySchedulingFailed then slot
  else
    { slot with
      key := ⟨numericConnectionId, slot.key.generation + 1⟩
      connected := false, activeRetryToken := 0 }

def isCurrent (connection : Nat) (key : SlotKey) : Bool :=
  slot.connection = some connection && slot.key = key

def onConnected (connection : Nat) (key : SlotKey) : Slot :=
  if slot.isCurrent connection key then
    { slot with connected := true, activeRetryToken := 0 } else slot

def onDisconnected (connection : Nat) : Slot :=
  if slot.connection = some connection then { slot with connected := false } else slot

def complete (connection : Nat) (key : SlotKey) : Slot :=
  if slot.isCurrent connection key then
    { slot with connection := none, connected := false } else slot

end Slot

/-- Connections are numbered as they are published. -/
structure ClientSession where
  stopped : Bool := false
  slots : List Slot := []
  contexts : List ClientConnContext := []
  taken : List Nat := []
  orphans : List Nat := []
  /-- The callbacks of `SHUTDOWN_COMPLETE` that have not dropped their connection. -/
  dropping : List Nat := []
  closed : List Nat := []
  /-- The counts that have been computed and not told. -/
  untold : List Nat := []
  /-- The most recent count that the handler has been told. -/
  handled : Option Nat := none
  nextNumericConnectionId : Nat := 1
  nextStartClaim : Nat := 1
  nextRetryToken : Nat := 1

inductive ClientSession.Action where
  | setDesiredConnectionCount (desired : Nat)
  | stopHighestConnection
  | reconnectSlot (index : Nat)
  | stop
  | claim (index : Nat) (mode : StartMode)
  | orphan (i : Nat)
  | publish (index : Nat) (key : SlotKey)
  | failStart (index connection : Nat)
  | release (index claim : Nat)
  | scheduleStartRetry (index : Nat) (key : SlotKey)
  | refuseRetry (ticket : RetryTicket)
  | event (connection : Nat) (e : ConnEvent)
  | notify (i : Nat)
  | close (i : Nat)
  | drop (i : Nat)

namespace ClientSession

variable (s : ClientSession)

def connectedCount : Nat := s.slots.countP (·.pickable s.closed)

def connections : List Nat := s.slots.flatMap (·.connection.toList)

/-- A section on a slot; it does nothing if the slot is gone. -/
def onSlot (index : Nat) (body : Slot → Slot) : ClientSession :=
  { s with slots := s.slots.modify index body }

/-- `Start` fills the slots in the same way. -/
def grow (n : Nat) : ClientSession :=
  { s with
    slots := s.slots ++ (List.range n).map fun i => { key := ⟨s.nextNumericConnectionId + i, 1⟩ }
    nextNumericConnectionId := s.nextNumericConnectionId + n }

def claim (index : Nat) (mode : StartMode) : ClientSession :=
  let claims (slot : Slot) := s.nextStartClaim ≠ uint64Max && !slot.refuses mode
  { s.onSlot index (·.claim s.closed s.nextStartClaim mode) with
    nextStartClaim := if s.slots[index]?.any claims then s.nextStartClaim + 1 else s.nextStartClaim
    taken := s.taken ++ (s.slots[index]?.bind fun slot =>
      if claims slot && !slot.isConnected s.closed then slot.connection else none).toList }

def publish (index : Nat) (key : SlotKey) : ClientSession :=
  { s.onSlot index ({ · with connection := some s.contexts.length }) with
    contexts := s.contexts ++ [{ slotIndex := index, key }] }

def reserveRetry (index : Nat) (key : SlotKey) : ClientSession :=
  let reserves (slot : Slot) := slot.mayRetry key && s.nextRetryToken ≠ uint64Max
  { s.onSlot index (·.reserveRetry key s.nextRetryToken) with
    nextRetryToken :=
      if s.slots[index]?.any reserves then s.nextRetryToken + 1 else s.nextRetryToken }

/-! ### Callbacks -/

def tell (changed : Bool) : ClientSession :=
  { s with untold := s.untold ++ if changed then [s.connectedCount] else [] }

/-- A change of whether the slot is connected is told. -/
def tellChange (index : Nat) (body : Slot → Slot) : ClientSession :=
  (s.onSlot index body).tell
  (s.slots[index]?.any fun slot => slot.isConnected s.closed ≠ (body slot).isConnected s.closed)

/-- The section of the callback of an event. -/
def callback (connection : Nat) (context : ClientConnContext) (e : ConnEvent) : ClientSession :=
  let t := { s with contexts := s.contexts.set connection { context with last := some e } }
  match e with
  | .connected => t.tellChange context.slotIndex (·.onConnected connection context.key)
  | .shutdownInitiated => t.tellChange context.slotIndex (·.onDisconnected connection)
  | .shutdownComplete =>
    let slot := s.slots[context.slotIndex]?.filter (·.isCurrent connection context.key)
    let u :=
      { t.onSlot context.slotIndex (·.complete connection context.key) with
        dropping := s.dropping ++ [connection] }
    slot.elim u fun slot => (u.tell slot.connected).reserveRetry context.slotIndex context.key

/-- A connection is connected once and first of all, and ends once. -/
def mayFollow (last : Option ConnEvent) : ConnEvent → Bool
  | .connected => last = none
  | _ => last ≠ some .shutdownComplete

/-- A start publishes its connection with a key that a slot has had, and deletes it if the slot
has another generation. -/
def step (s : ClientSession) : Action → Option ClientSession
  | .setDesiredConnectionCount desired =>
    if s.stopped then none else some (s.grow (desired - s.slots.length))
  | .stopHighestConnection => s.slots.getLast?.map fun slot =>
      { s with slots := s.slots.dropLast, taken := s.taken ++ slot.connection.toList }
  | .reconnectSlot index => some
      { s.onSlot index (·.reconnect s.nextNumericConnectionId) with
        nextNumericConnectionId :=
          s.nextNumericConnectionId +
            if s.slots[index]?.any (!·.retrySchedulingFailed) then 1 else 0 }
  | .stop => some { s with stopped := true, slots := [], orphans := s.orphans ++ s.connections }
  | .claim index mode => some (s.claim index mode)
  | .orphan i => s.taken[i]?.map fun connection =>
      { s with taken := s.taken.eraseIdx i, orphans := s.orphans ++ [connection] }
  | .publish index key =>
    if key.numericConnectionId < s.nextNumericConnectionId &&
      s.slots[index]?.any (·.key.generation = key.generation) then
      some (s.publish index key)
    else none
  | .failStart index connection => some (s.onSlot index (·.failStart connection))
  | .release index claim => some (s.onSlot index (·.release claim))
  | .scheduleStartRetry index key => some (s.reserveRetry index key)
  | .refuseRetry ticket => some (s.onSlot ticket.slotIndex (·.refuseRetry ticket))
  | .event connection e =>
    s.contexts[connection]?.bind fun context =>
      if mayFollow context.last e then some (s.callback connection context e) else none
  | .notify i =>
    s.untold[i]?.map fun count => { s with untold := s.untold.eraseIdx i, handled := some count }
  | .close i => s.dropping[i]?.map fun connection => { s with closed := connection :: s.closed }
  | .drop i =>
    s.dropping[i]?.map fun connection =>
      { s with dropping := s.dropping.eraseIdx i, orphans := s.orphans.erase connection }

/-! ### Counts that are told -/

/-- Slot `index` is the only one that can be picked, and the section applies to it. -/
def hitsOnly (index : Nat) (applies : Slot → Bool) : Bool :=
  s.connectedCount = 1 &&
    s.slots[index]?.any fun slot => slot.pickable s.closed && applies slot

/-- No slot can be picked, and the section applies to slot `index`. -/
def hitsFirst (index : Nat) (applies : Slot → Bool) : Bool :=
  s.connectedCount = 0 && s.slots[index]?.any applies

/-- A count is told out of order; or a section that computes none applies to the only slot that
can be picked, or to a connected one that its retry token keeps from being the first. -/
def silent : Action → Bool
  | .notify i => i ≠ 0
  | .stopHighestConnection => s.hitsOnly (s.slots.length - 1) fun _ => true
  | .reconnectSlot index => s.hitsOnly index fun slot => !slot.retrySchedulingFailed
  | .stop => s.connectedCount ≠ 0
  | .claim index mode =>
    s.hitsFirst index fun slot => slot.isConnected s.closed && !slot.refuses mode
  | .publish index _ =>
    s.hitsOnly index (fun _ => true) ||
      s.hitsFirst index fun slot => slot.connected && slot.activeRetryToken = 0
  | .failStart index connection => s.hitsOnly index fun slot => slot.connection = some connection
  | .scheduleStartRetry index key => s.hitsOnly index fun slot => slot.mayRetry key
  | .refuseRetry ticket =>
    s.hitsFirst ticket.slotIndex fun slot =>
      slot.isConnected s.closed && slot.matchesTicket ticket
  | .event connection .connected =>
    s.contexts[connection]?.any fun context =>
      s.hitsFirst context.slotIndex fun slot =>
        slot.isConnected s.closed && slot.isCurrent connection context.key
  | .close i =>
    s.dropping[i]?.any fun connection =>
      s.slots.any fun slot => slot.pickable s.closed && slot.connection = some connection
  | _ => false

/-- A section computes no count or the count of the slots as it leaves them. -/
def Tells (s t : ClientSession) : Prop :=
  t.handled = s.handled ∧ (t.untold = s.untold ∨ t.untold = s.untold ++ [t.connectedCount])

variable {s} {t u : ClientSession} {a : Action}

theorem tells_tell (changed : Bool) (hhandled : t.handled = s.handled)
    (huntold : t.untold = s.untold) : Tells s (t.tell changed) := by
  cases changed with
  | true => exact ⟨hhandled, .inr (congrArg (· ++ [t.connectedCount]) huntold)⟩
  | false => exact ⟨hhandled, .inl ((List.append_nil _).trans huntold)⟩

/-- The retry of a slot that is not connected does not touch the count. -/
theorem connectedCount_reserveRetry {index : Nat}
    (hnot : ∀ slot, u.slots[index]? = some slot → slot.connected = false) (key : SlotKey) :
    (u.reserveRetry index key).connectedCount = u.connectedCount := by
  change (u.slots.modify index _).countP (·.pickable u.closed) =
    u.slots.countP (·.pickable u.closed)
  rw [List.modify_eq_set_getElem?]
  cases hslot : u.slots[index]? with
  | none => rfl
  | some slot =>
    obtain ⟨hindex, hget⟩ := List.getElem?_eq_some_iff.mp hslot
    have hoff := hnot slot hslot
    have hoff' : (slot.reserveRetry key u.nextRetryToken).connected = false := by
      unfold Slot.reserveRetry
      split
      · exact hoff
      · split <;> exact hoff
    change (u.slots.set index _).countP _ = u.slots.countP _
    rw [List.countP_set hindex, hget]
    simp [Slot.pickable, Slot.isConnected, hoff, hoff']

theorem Tells.reserveRetry (h : Tells s u) {index : Nat}
    (hnot : ∀ slot, u.slots[index]? = some slot → slot.connected = false) (key : SlotKey) :
    Tells s (u.reserveRetry index key) := by
  refine ⟨h.1, h.2.imp_right fun huntold => huntold.trans ?_⟩
  rw [connectedCount_reserveRetry hnot]

/-- A slot whose connection has ended is not connected. -/
theorem complete_not_connected {connection index : Nat} {key : SlotKey} {slot ended : Slot}
    (hslot : s.slots[index]? = some slot) (hcurrent : slot.isCurrent connection key = true)
    (hended : (s.slots.modify index (·.complete connection key))[index]? = some ended) :
    ended.connected = false := by
  rw [List.getElem?_modify, hslot] at hended
  rw [← some.inj hended]
  simp [Slot.complete, hcurrent]

theorem tells_callback {connection : Nat} {context : ClientConnContext} {e : ConnEvent} :
    Tells s (s.callback connection context e) := by
  cases e with
  | connected | shutdownInitiated => exact tells_tell _ rfl rfl
  | shutdownComplete =>
    dsimp only [callback]
    cases hslot : s.slots[context.slotIndex]?.filter (·.isCurrent connection context.key) with
    | none => exact ⟨rfl, .inl rfl⟩
    | some slot =>
      obtain ⟨hslot, hcurrent⟩ := filter_eq_some_iff.mp hslot
      exact (tells_tell slot.connected rfl rfl).reserveRetry
        (fun _ => complete_not_connected hslot hcurrent) context.key

theorem tells_step (hs : s.step a = some t) (ha : ∀ i, a ≠ .notify i) : Tells s t := by
  cases a with
  | notify i => exact absurd rfl (ha i)
  | setDesiredConnectionCount desired =>
    obtain ⟨-, hs⟩ := ite_none_left_eq_some.mp hs
    cases hs
    exact ⟨rfl, .inl rfl⟩
  | publish index key =>
    obtain ⟨-, hs⟩ := ite_none_right_eq_some.mp hs
    cases hs
    exact ⟨rfl, .inl rfl⟩
  | event connection e =>
    obtain ⟨context, -, hs⟩ := bind_eq_some_iff.mp hs
    obtain ⟨-, hs⟩ := ite_none_right_eq_some.mp hs
    cases hs
    exact tells_callback
  | stopHighestConnection | orphan | close | drop =>
    obtain ⟨_, -, rfl⟩ := map_eq_some_iff.mp hs
    exact ⟨rfl, .inl rfl⟩
  | _ =>
    cases hs
    exact ⟨rfl, .inl rfl⟩

/-- A section on a slot that leaves whether it can be picked, or whether another one can. -/
theorem zero_onSlot {index : Nat} {body : Slot → Slot}
    (hslots : t.slots = s.slots.modify index body) (hclosed : t.closed = s.closed)
    (h : ∀ slot, s.slots[index]? = some slot →
      (body slot).pickable s.closed = slot.pickable s.closed ∨
        (slot.pickable s.closed = true ∧ s.connectedCount ≠ 1) ∨
        (slot.pickable s.closed = false ∧ s.connectedCount ≠ 0)) :
    t.connectedCount = 0 ↔ s.connectedCount = 0 := by
  rw [connectedCount, hslots, hclosed, List.modify_eq_set_getElem?]
  cases hslot : s.slots[index]? with
  | none => rfl
  | some slot =>
    obtain ⟨hindex, hget⟩ := List.getElem?_eq_some_iff.mp hslot
    have hpicked : slot.pickable s.closed = true → 0 < s.connectedCount := fun hpick =>
      List.countP_pos_iff.mpr ⟨slot, List.mem_of_getElem? hslot, hpick⟩
    change (s.slots.set index (body slot)).countP _ = 0 ↔ _
    rw [List.countP_set hindex, hget, ← connectedCount]
    rcases h slot hslot with hsame | ⟨hpick, hother⟩ | ⟨hpick, hother⟩
    · rw [hsame]
      cases hpick : slot.pickable s.closed with
      | true =>
        have hpos := hpicked hpick
        simp only [if_true]
        omega
      | false => simp
    · have hpos := hpicked hpick
      rw [if_pos hpick]
      omega
    · simp [hpick, hother]

theorem unchanged_of_tell {changed : Bool} (hu : u.untold = s.untold)
    (htold : (u.tell changed).untold = s.untold) : changed = false := by
  cases changed with
  | false => rfl
  | true => simp [tell, hu] at htold

theorem zero_callback {connection : Nat} {context : ClientConnContext} {e : ConnEvent}
    (hcontext : s.contexts[connection]? = some context)
    (hsilent : s.silent (.event connection e) = false)
    (huntold : (s.callback connection context e).untold = s.untold) :
    (s.callback connection context e).connectedCount = 0 ↔ s.connectedCount = 0 := by
  cases e with
  | connected =>
    simp only [callback, tellChange] at huntold ⊢
    have hsame := unchanged_of_tell rfl huntold
    simp only [silent, hcontext, any_some, hitsFirst] at hsilent
    refine zero_onSlot rfl rfl fun slot hslot => ?_
    simp only [hslot, any_some] at hsame hsilent
    by_cases hcurrent : slot.isCurrent connection context.key = true
    · grind [Slot.onConnected, Slot.pickable]
    · simp [Slot.onConnected, hcurrent]
  | shutdownInitiated =>
    simp only [callback, tellChange] at huntold ⊢
    have hsame := unchanged_of_tell rfl huntold
    refine zero_onSlot rfl rfl fun slot hslot => .inl ?_
    simp only [hslot, any_some] at hsame
    grind [Slot.onDisconnected, Slot.pickable]
  | shutdownComplete =>
    simp only [callback] at huntold ⊢
    cases hslot : s.slots[context.slotIndex]?.filter (·.isCurrent connection context.key) with
    | none =>
      refine zero_onSlot rfl rfl fun slot hget => .inl ?_
      have hnot : slot.isCurrent connection context.key = false := by
        simpa [hget, Option.filter] using hslot
      simp [Slot.complete, hnot]
    | some slot =>
      rw [hslot] at huntold
      obtain ⟨hslot, hcurrent⟩ := filter_eq_some_iff.mp hslot
      have hoff : slot.connected = false := unchanged_of_tell rfl huntold
      rw [elim_some, connectedCount_reserveRetry fun _ => complete_not_connected hslot hcurrent]
      refine zero_onSlot rfl rfl fun other hother => .inl ?_
      obtain rfl : slot = other := some.inj (hslot.symm.trans hother)
      simp [Slot.complete, Slot.pickable, Slot.isConnected, hcurrent, hoff]

theorem zero_step (hs : s.step a = some t) (ha : ∀ i, a ≠ .notify i) (hsilent : s.silent a = false)
    (huntold : t.untold = s.untold) : t.connectedCount = 0 ↔ s.connectedCount = 0 := by
  cases a with
  | notify i => exact absurd rfl (ha i)
  | setDesiredConnectionCount desired =>
    obtain ⟨-, hs⟩ := ite_none_left_eq_some.mp hs
    cases hs
    simp [grow, connectedCount, Slot.pickable, Slot.isConnected]
  | stopHighestConnection =>
    obtain ⟨slot, hslot, rfl⟩ := map_eq_some_iff.mp hs
    obtain ⟨rest, hrest⟩ := List.getLast?_eq_some_iff.mp hslot
    simp only [silent, hitsOnly, connectedCount, hrest] at hsilent ⊢
    cases hpick : slot.pickable s.closed <;> simp_all
  | reconnectSlot index =>
    cases hs
    refine zero_onSlot rfl rfl fun slot hslot => ?_
    simp only [silent, hitsOnly, hslot, any_some] at hsilent
    grind [Slot.reconnect, Slot.pickable, Slot.isConnected]
  | stop =>
    cases hs
    simpa [silent, connectedCount] using hsilent
  | claim index mode =>
    cases hs
    refine zero_onSlot rfl rfl fun slot hslot => ?_
    simp only [silent, hitsFirst, hslot, any_some] at hsilent
    cases mode <;> grind [Slot.claim, Slot.exhaust, Slot.refuses, Slot.pickable, Slot.isConnected]
  | publish index key =>
    obtain ⟨-, hs⟩ := ite_none_right_eq_some.mp hs
    cases hs
    refine zero_onSlot rfl rfl fun slot hslot => ?_
    simp only [silent, hitsOnly, hitsFirst, hslot, any_some] at hsilent
    grind [Slot.pickable, Slot.isConnected]
  | failStart index connection =>
    cases hs
    refine zero_onSlot rfl rfl fun slot hslot => ?_
    simp only [silent, hitsOnly, hslot, any_some] at hsilent
    grind [Slot.failStart, Slot.pickable, Slot.isConnected]
  | release index claim =>
    cases hs
    refine zero_onSlot rfl rfl fun slot _ => .inl ?_
    unfold Slot.release
    split <;> rfl
  | scheduleStartRetry index key =>
    cases hs
    refine zero_onSlot rfl rfl fun slot hslot => ?_
    simp only [silent, hitsOnly, hslot, any_some] at hsilent
    grind [Slot.reserveRetry, Slot.mayRetry, Slot.pickable, Slot.isConnected]
  | refuseRetry ticket =>
    cases hs
    refine zero_onSlot rfl rfl fun slot hslot => ?_
    simp only [silent, hitsFirst, hslot, any_some] at hsilent
    grind [Slot.refuseRetry, Slot.pickable, Slot.isConnected]
  | event connection e =>
    obtain ⟨context, hcontext, hs⟩ := bind_eq_some_iff.mp hs
    obtain ⟨-, hs⟩ := ite_none_right_eq_some.mp hs
    cases hs
    exact zero_callback hcontext hsilent huntold
  | close i =>
    obtain ⟨connection, hconnection, rfl⟩ := map_eq_some_iff.mp hs
    simp only [silent, hconnection, any_some, List.any_eq_false] at hsilent
    have hsame :
        ∀ slot ∈ s.slots, slot.pickable (connection :: s.closed) = slot.pickable s.closed := by
      intro slot hslot
      have hother := hsilent slot hslot
      unfold Slot.pickable Slot.isConnected at hother ⊢
      cases hheld : slot.connection with
      | none => rfl
      | some held => grind
    rw [connectedCount, List.countP_congr fun slot hslot => by rw [hsame slot hslot],
      ← connectedCount]
  | orphan i | drop i =>
    obtain ⟨_, -, rfl⟩ := map_eq_some_iff.mp hs
    rfl

/-- The last count, told or not, says whether a slot is connected. -/
def Current (s : ClientSession) : Prop :=
  ∀ n, (s.handled.toList ++ s.untold).getLast? = some n → (n = 0 ↔ s.connectedCount = 0)

theorem Current.step (h : Current s) (hsilent : s.silent a = false) (hs : s.step a = some t) :
    Current t := by
  intro n hn
  by_cases ha : ∃ i, a = .notify i
  · obtain ⟨i, rfl⟩ := ha
    obtain rfl : i = 0 := by simpa [silent] using hsilent
    obtain ⟨count, hcount, rfl⟩ := map_eq_some_iff.mp hs
    refine h n ?_
    cases huntold : s.untold with
    | nil => simp [huntold] at hcount
    | cons first rest =>
      obtain rfl : first = count := by simpa [huntold] using hcount
      simpa [huntold] using hn
  · obtain ⟨hhandled, hsame | htold⟩ := tells_step hs (not_exists.mp ha)
    · rw [zero_step hs (not_exists.mp ha) hsilent hsame]
      exact h n (hhandled ▸ hsame ▸ hn)
    · rw [htold, ← List.append_assoc, List.getLast?_concat] at hn
      rw [← some.inj hn]

/-- **The last count.** In every run in which counts are told in order and no section silently
clears the only slot that can be picked or makes one the first, when all counts have been told the
last one is zero exactly if no slot is connected. -/
theorem last_count_correct (actions : List Action) (t : ClientSession)
    (hsilent : Meets step (fun s a => s.silent a = false) {} actions)
    (hrun : run step {} actions = some t) (htold : t.untold = []) (n : Nat)
    (hn : t.handled = some n) : n = 0 ↔ t.connectedCount = 0 := by
  have hcurrent : Current t :=
    invariant_of_meets (fun _ _ _ h hi hs => h.step hi hs) (fun n hn => by cases hn) hsilent hrun
  exact hcurrent n (by rw [htold, hn]; rfl)

/-- The session grows to one slot, whose connection is published and connected. -/
def connectOne : List Action :=
  [.setDesiredConnectionCount 1, .claim 0 .request, .publish 0 ⟨1, 1⟩, .release 0 1,
    .event 0 .connected, .notify 0]

theorem disconnected_count_correct :
    ∃ t, run step {} (connectOne ++ [.event 0 .shutdownInitiated, .notify 0]) = some t ∧
      t.handled = some 0 ∧
      (0 = 0 ↔ t.connectedCount = 0) := by
  have hsilent : Meets step (fun s a => s.silent a = false) {}
      (connectOne ++ [.event 0 .shutdownInitiated, .notify 0]) := by
    decide +kernel
  exact ⟨_, rfl, rfl, last_count_correct _ _ hsilent rfl rfl 0 rfl⟩

/-- An admin reconnect of the only connection is not told. -/
theorem reconnect_not_told :
    (run step {} (connectOne ++
      [.reconnectSlot 0, .claim 0 .request, .orphan 0, .publish 0 ⟨2, 2⟩, .release 0 2,
      .event 0 .shutdownComplete, .close 0, .drop 0])).map
        (fun t => (t.taken ++ t.orphans ++ t.dropping, t.untold, t.handled,
      t.connectedCount)) = some ([], [], some 1, 0) := by
  decide +kernel

end ClientSession
end TcpQuicProxy.Quic
