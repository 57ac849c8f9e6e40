import Mathlib.Data.List.Nodup
import TcpQuicProxy.Machine.Run

/-!
# Send completions of all streams

A send is registered under the address of an envelope that its stream owns, in a table
that all streams share. The stream's SEND_COMPLETE claims it, or the sender cancels it;
delivery and cleanup follow without the lock. An address is not used again before its
envelope is freed, and envelopes are freed with their stream.
-/

namespace TcpQuicProxy.StreamLifetime

open List Option

inductive CompletionStage where
  /-- The envelope is made, the table does not have the send yet. -/
  | reserved
  | registered
  /-- The table had the key already. -/
  | refused
  | cancelled
  | claimed
  | delivered
  | finished
  deriving DecidableEq

inductive CompletionEvent where
  | cancelled
  | claimed
  | delivered (target generation context : Nat)
  | cleanedUp
  deriving DecidableEq

/-- A registered send with its key, the route at its registration, and what happened to it. -/
structure SendOperation where
  owner : Nat
  key : Nat
  target : Nat
  generation : Nat
  deliveredContext : Nat
  stage : CompletionStage := .reserved
  events : List CompletionEvent := []
  deriving DecidableEq

/-- The operation holds its stream. -/
def SendOperation.pending (op : SendOperation) : Bool :=
  op.stage != .finished && op.stage != .refused

structure SendOwner where
  /-- In phase `Starting` or `Started`. -/
  usable : Bool := true
  alive : Bool := true
  target : Option Nat := some 0
  routeGeneration : Nat := 1
  sendKeyEnvelopes : List Nat := []
  deriving DecidableEq

/-- `g_sendCompletions` maps keys to operations, `g_claimedSendCompletions` maps them to streams. -/
structure Completions where
  owners : List SendOwner := []
  operations : List SendOperation := []
  sendCompletions : List (Nat × Nat) := []
  claimedSendCompletions : List (Nat × Nat) := []
  duplicateClaims : Nat := 0
  unknownClaims : Nat := 0
  deriving DecidableEq

inductive Completions.Action where
  | open
  | publishTarget (owner target : Nat)
  /-- `RegisterSendCompletion` up to the envelope at a free address, and its insertion. -/
  | registerSendCompletion (owner address deliveredContext : Nat)
  | insert (operation : Nat)
  | cancelSendCompletion (owner key : Nat)
  | sendComplete (owner key : Nat)
  | deliver (operation : Nat)
  | cleanup (operation : Nat)
  /-- The stream leaves the phases `Starting` and `Started`. -/
  | leave (owner : Nat)
  | destroy (owner : Nat)
  deriving DecidableEq

namespace Completions

open Machine

variable (s : Completions)

def setOwner (o : Nat) (x : SendOwner) : Completions := { s with owners := s.owners.set o x }

/-- The operation comes to a stage, with an event. -/
def move (i : Nat) (op : SendOperation) (stage : CompletionStage) (events : List CompletionEvent) :
    Completions :=
  { s with operations := s.operations.set i { op with stage, events := op.events ++ events } }

/-- The address belongs to an envelope of a stream. -/
def allocated (address : Nat) : Bool := s.owners.any fun x => x.sendKeyEnvelopes.any (· == address)

/-- The operation that the table has under the key, if it is one of the stream. -/
def find (owner key : Nat) : Option (Nat × SendOperation) := do
  let (_, i) ← s.sendCompletions.find? (·.1 == key)
  let op ← s.operations[i]?
  if op.owner = owner then some (i, op) else none

def erase (key : Nat) : Completions :=
  { s with sendCompletions := s.sendCompletions.filter (·.1 != key) }

/-- `Dispatch` of SEND_COMPLETE under the lock. -/
def sendComplete (owner key : Nat) : Completions :=
  match s.find owner key with
  | some (i, op) =>
    { (s.erase key).move i op .claimed [.claimed] with
      claimedSendCompletions := s.claimedSendCompletions.filter (·.1 != key) ++ [(key, owner)] }
  | none =>
    if s.claimedSendCompletions.any (· == (key, owner)) then
      { s with duplicateClaims := s.duplicateClaims + 1 }
    else { s with unknownClaims := s.unknownClaims + 1 }

def cancelSendCompletion (owner key : Nat) : Completions :=
  match s.find owner key with
  | some (i, op) => (s.erase key).move i op .cancelled [.cancelled]
  | none => s

def lives (owner : Nat) : Bool := (s.owners[owner]?.map SendOwner.alive).getD false

def envelopes (owner : Nat) : List Nat := (s.owners[owner]?.map SendOwner.sendKeyEnvelopes).getD []

/-- A stream is held by its operations until they are cleaned up. -/
def held (owner : Nat) : Bool := s.operations.any fun op => op.owner == owner && op.pending

def step (s : Completions) : Action → Option Completions
  | .open => some { s with owners := s.owners ++ [{}] }
  | .publishTarget o target => s.owners[o]?.bind fun x =>
      if x.alive && x.usable then
        some (s.setOwner o
        { x with target := some target, routeGeneration := x.routeGeneration + 1 })
      else none
  | .registerSendCompletion o address context =>
    s.owners[o]?.bind fun x => x.target.bind fun target =>
      if x.alive && x.usable && !s.allocated address then
        some { s.setOwner o { x with sendKeyEnvelopes := x.sendKeyEnvelopes ++ [address] } with
          operations :=
            s.operations ++ [⟨o, address, target, x.routeGeneration, context, .reserved, []⟩] }
      else none
  | .insert i => s.operations[i]?.bind fun op =>
      if op.stage ≠ .reserved then none
      else if s.sendCompletions.any (·.1 == op.key) then some (s.move i op .refused [])
      else some
        { s.move i op .registered [] with sendCompletions := s.sendCompletions ++ [(op.key, i)] }
  | .cancelSendCompletion o key => if s.lives o then some (s.cancelSendCompletion o key) else none
  | .sendComplete o key => if s.lives o then some (s.sendComplete o key) else none
  | .deliver i => s.operations[i]?.bind fun op =>
      if op.stage = .claimed then
        some (s.move i op .delivered [.delivered op.target op.generation op.deliveredContext])
      else none
  | .cleanup i => s.operations[i]?.bind fun op =>
      if op.stage = .cancelled || op.stage = .delivered then
        some (s.move i op .finished [.cleanedUp])
      else none
  | .leave o => s.owners[o]?.map fun x => s.setOwner o { x with usable := false, target := none }
  | .destroy o => s.owners[o]?.bind fun x =>
      if x.alive && !s.held o then
        some { s.setOwner o
          { x with alive := false, usable := false, target := none, sendKeyEnvelopes := [] } with
          claimedSendCompletions :=
            s.claimedSendCompletions.filter fun e => !x.sendKeyEnvelopes.any (· == e.1) }
      else none

/-! ### Exactly once -/

/-- What happened to an operation is told by its stage. -/
def Lawful (op : SendOperation) : Prop :=
  match op.stage with
  | .reserved | .registered | .refused => op.events = []
  | .cancelled => op.events = [.cancelled]
  | .claimed => op.events = [.claimed]
  | .delivered => op.events = [.claimed, .delivered op.target op.generation op.deliveredContext]
  | .finished => op.events = [.cancelled, .cleanedUp] ∨
      op.events = [.claimed, .delivered op.target op.generation op.deliveredContext, .cleanedUp]

structure Exact (s : Completions) : Prop where
  owned : ∀ {i : Nat} {op : SendOperation}, s.operations[i]? = some op → op.owner < s.owners.length
  separate : ∀ {k o o' : Nat}, k ∈ s.envelopes o → k ∈ s.envelopes o' → o = o'
  lawful : ∀ {i : Nat} {op : SendOperation}, s.operations[i]? = some op → Lawful op
  alive : ∀ {i : Nat} {op : SendOperation}, s.operations[i]? = some op → op.pending = true →
    s.lives op.owner = true
  enveloped : ∀ {i : Nat} {op : SendOperation}, s.operations[i]? = some op →
    s.lives op.owner = true → op.key ∈ s.envelopes op.owner
  distinct : ∀ {i j : Nat} {op op' : SendOperation}, s.operations[i]? = some op →
    s.operations[j]? = some op' → s.lives op.owner = true →
    s.lives op'.owner = true → op.key = op'.key → i = j
  table : ∀ {k i : Nat}, (k, i) ∈ s.sendCompletions →
    ∃ op, s.operations[i]? = some op ∧ op.stage = .registered ∧ op.key = k
  claimed : ∀ {i : Nat} {op : SendOperation}, s.operations[i]? = some op → s.lives op.owner = true →
    op.events.head? = some .claimed →
    (op.key, op.owner) ∈ s.claimedSendCompletions

variable {s t : Completions} {a : Action} {o key i : Nat} {op : SendOperation} {x y : SendOwner}

theorem find_eq_some {o key : Nat} (h : s.find o key = some (i, op)) :
    (key, i) ∈ s.sendCompletions ∧ s.operations[i]? = some op ∧ op.owner = o := by
  simp only [find, bind_eq_bind, bind_eq_some_iff] at h
  obtain ⟨⟨k, j⟩, hfind, op', hop, heq⟩ := h
  split at heq
  · cases heq
    have hkey : k = key := by simpa using find?_some hfind
    exact ⟨hkey ▸ mem_of_find?_eq_some hfind, hop, ‹_›⟩
  · cases heq

/-- An operation moves on; the rest of the table stays. -/
theorem Exact.move (h : Exact s) (hop : s.operations[i]? = some op) {stage : CompletionStage}
    {events : List CompletionEvent} {table claimed : List (Nat × Nat)}
    (hlawful : Lawful { op with stage, events := op.events ++ events })
    (hpending : op.pending = true)
    (htable : ∀ e ∈ table, e ∈ s.sendCompletions ∧ e.2 ≠ i ∨ e = (op.key, i) ∧ stage = .registered)
    (hclaimed : ∀ e ∈ s.claimedSendCompletions, e.1 ≠ op.key → e ∈ claimed)
    (hself : (op.events ++ events).head? = some .claimed → (op.key, op.owner) ∈ claimed) :
    Exact { s.move i op stage events with
      sendCompletions := table, claimedSendCompletions := claimed } := by
  obtain ⟨hlt, -⟩ := List.getElem?_eq_some_iff.mp hop
  have hget {j : Nat} {x : SendOperation}
      (hx : (s.operations.set i { op with stage, events := op.events ++ events })[j]? = some x) :
      (j = i ∧ x = { op with stage, events := op.events ++ events }) ∨
        (j ≠ i ∧ s.operations[j]? = some x) := by
    by_cases hj : j = i
    · subst hj
      rw [getElem?_set_self hlt] at hx
      exact .inl ⟨rfl, (some.inj hx).symm⟩
    · rw [getElem?_set_ne (Ne.symm hj)] at hx
      exact .inr ⟨hj, hx⟩
  -- the operation keeps its identity, so everything said of it before the move still holds
  have hold {j : Nat} {x : SendOperation}
      (hx : (s.operations.set i { op with stage, events := op.events ++ events })[j]? = some x) :
      ∃ y, s.operations[j]? = some y ∧ y.owner = x.owner ∧ y.key = x.key := by
    rcases hget hx with ⟨rfl, rfl⟩ | ⟨-, hx⟩
    · exact ⟨op, hop, rfl, rfl⟩
    · exact ⟨x, hx, rfl, rfl⟩
  refine ⟨fun hx => ?_, h.separate, fun hx => ?_, fun hx hp => ?_, fun hx hl => ?_,
    fun hx hx' hl hl' hk => ?_, fun he => ?_,
    fun hx hl hhead => ?_⟩
  · obtain ⟨y, hy, howner, -⟩ := hold hx
    exact howner ▸ h.owned hy
  · rcases hget hx with ⟨-, rfl⟩ | ⟨-, hx⟩
    · exact hlawful
    · exact h.lawful hx
  · rcases hget hx with ⟨-, rfl⟩ | ⟨-, hx⟩
    · exact (h.alive hop hpending :)
    · exact h.alive hx hp
  · obtain ⟨y, hy, howner, hkey⟩ := hold hx
    rw [← hkey, ← howner]
    exact h.enveloped hy (howner ▸ hl)
  · obtain ⟨y, hy, howner, hkey⟩ := hold hx
    obtain ⟨y', hy', howner', hkey'⟩ := hold hx'
    exact h.distinct hy hy' (howner ▸ hl) (howner' ▸ hl') (by rw [hkey, hkey', hk])
  · rcases htable _ he with ⟨he, hne⟩ | ⟨heq, hstage⟩
    · obtain ⟨x, hx, hregistered⟩ := h.table he
      exact ⟨x, (getElem?_set_ne (Ne.symm hne)).trans hx, hregistered⟩
    · cases heq
      exact ⟨_, getElem?_set_self hlt, hstage, rfl⟩
  · rcases hget hx with ⟨-, rfl⟩ | ⟨hne, hx⟩
    · exact hself hhead
    · refine hclaimed _ (h.claimed hx hl hhead) fun hkey => hne ?_
      exact h.distinct hx hop hl (h.alive hop hpending) hkey

/-- The streams change: one that lives on keeps its envelopes and what is known of its claimed
sends. -/
theorem Exact.owners (h : Exact s) {owners : List SendOwner} {claimed : List (Nat × Nat)}
    (hlen : s.owners.length ≤ owners.length)
    (hseparate : ∀ {k o o' : Nat}, k ∈ ({ s with owners } : Completions).envelopes o →
      k ∈ ({ s with owners } : Completions).envelopes o' → o = o')
    (hlives : ∀ o < s.owners.length, ({ s with owners } : Completions).lives o = true →
      s.lives o = true ∧ s.envelopes o ⊆ ({ s with owners } : Completions).envelopes o ∧
        ∀ k ∈ s.envelopes o, (k, o) ∈ s.claimedSendCompletions → (k, o) ∈ claimed)
    (hpending : ∀ {i : Nat} {op : SendOperation}, s.operations[i]? = some op → op.pending = true →
      ({ s with owners } : Completions).lives op.owner = true) :
    Exact { s with owners, claimedSendCompletions := claimed } := by
  refine ⟨fun hx => (h.owned hx).trans_le hlen, hseparate, h.lawful, hpending, fun hx hl => ?_,
    fun hx hx' hl hl' hk => ?_,
    h.table, fun hx hl hhead => ?_⟩
  · obtain ⟨hold, hsub, -⟩ := hlives _ (h.owned hx) hl
    exact hsub (h.enveloped hx hold)
  · exact h.distinct hx hx' (hlives _ (h.owned hx) hl).1 (hlives _ (h.owned hx') hl').1 hk
  · obtain ⟨hold, -, hkept⟩ := hlives _ (h.owned hx) hl
    exact hkept _ (h.enveloped hx hold) (h.claimed hx hold hhead)

theorem Exact.append (h : Exact s) (hstage : op.stage = .reserved) (hevents : op.events = [])
    (howner : s.lives op.owner = true) (hkey : op.key ∈ s.envelopes op.owner)
    (hfresh : ∀ {i : Nat} {x : SendOperation}, s.operations[i]? = some x → s.lives x.owner = true →
      x.key ≠ op.key) :
    Exact { s with operations := s.operations ++ [op] } := by
  have hget {j : Nat} {x : SendOperation} (hx : (s.operations ++ [op])[j]? = some x) :
      (s.operations[j]? = some x) ∨ (j = s.operations.length ∧ x = op) := by
    rcases Nat.lt_trichotomy j s.operations.length with hj | hj | hj
    · exact .inl ((getElem?_append_left hj) ▸ hx)
    · rw [hj, getElem?_concat_length] at hx
      exact .inr ⟨hj, (some.inj hx).symm⟩
    · rw [getElem?_eq_none (by simpa using Nat.succ_le_of_lt hj)] at hx
      cases hx
  have hlt : op.owner < s.owners.length := by
    by_contra hge
    rw [lives, getElem?_eq_none (Nat.le_of_not_lt hge)] at howner
    cases howner
  refine ⟨fun hx => ?_, h.separate, fun hx => ?_, fun hx hp => ?_, fun hx hl => ?_,
    fun hx hx' hl hl' hk => ?_, fun he => ?_,
    fun hx hl hhead => ?_⟩
  · rcases hget hx with hx | ⟨-, rfl⟩
    exacts [h.owned hx, hlt]
  · rcases hget hx with hx | ⟨-, rfl⟩
    · exact h.lawful hx
    · rw [Lawful, hstage]
      exact hevents
  · rcases hget hx with hx | ⟨-, rfl⟩
    exacts [h.alive hx hp, howner]
  · rcases hget hx with hx | ⟨-, rfl⟩
    exacts [h.enveloped hx hl, hkey]
  · rcases hget hx with hold | ⟨hj, rfl⟩ <;> rcases hget hx' with hold' | ⟨hj', rfl⟩
    · exact h.distinct hold hold' hl hl' hk
    · exact absurd hk (hfresh hold hl)
    · exact absurd hk.symm (hfresh hold' hl')
    · rw [hj, hj']
  · obtain ⟨x, hx, hregistered⟩ := h.table he
    obtain ⟨hi, -⟩ := List.getElem?_eq_some_iff.mp hx
    exact ⟨x, (getElem?_append_left hi).trans hx, hregistered⟩
  · rcases hget hx with hx | ⟨-, rfl⟩
    · exact h.claimed hx hl hhead
    · rw [hevents] at hhead
      cases hhead

attribute [local simp] envelopes setOwner lives

theorem owners_setOwner {o : Nat} (hx : s.owners[o]? = some x) (o' : Nat) :
    (s.setOwner o y).owners[o']? = if o' = o then some y else s.owners[o']? := by
  obtain ⟨hlt, -⟩ := List.getElem?_eq_some_iff.mp hx
  split
  · subst o'
    exact getElem?_set_self hlt
  · exact getElem?_set_ne (Ne.symm ‹¬o' = o›)

theorem lives_setOwner {o : Nat} (hx : s.owners[o]? = some x) (o' : Nat) :
    (s.setOwner o y).lives o' = if o' = o then y.alive else s.lives o' := by
  rw [lives, owners_setOwner hx]
  split <;> rfl

theorem envelopes_setOwner {o : Nat} (hx : s.owners[o]? = some x) (o' : Nat) :
    (s.setOwner o y).envelopes o' = if o' = o then y.sendKeyEnvelopes else s.envelopes o' := by
  rw [envelopes, owners_setOwner hx]
  split <;> rfl

theorem lives_of_get {o : Nat} (hx : s.owners[o]? = some x) : s.lives o = x.alive := by
  simp [hx]

theorem envelopes_of_get {o : Nat} (hx : s.owners[o]? = some x) :
    s.envelopes o = x.sendKeyEnvelopes := by
  simp [hx]

theorem not_mem_envelopes {address : Nat} (h : s.allocated address = false) (o : Nat) :
    address ∉ s.envelopes o := by
  intro hmem
  cases hx : s.owners[o]? with
  | none => simp [hx] at hmem
  | some x =>
    rw [envelopes_of_get hx] at hmem
    have hany : s.allocated address = true :=
      List.any_eq_true.mpr
        ⟨x, mem_of_getElem? hx, List.any_eq_true.mpr ⟨address, hmem, beq_self_eq_true _⟩⟩
    cases h.symm.trans hany

/-- A stream that lives on gets a new route, or a new envelope. -/
theorem Exact.setOwner (h : Exact s) {o : Nat} (hx : s.owners[o]? = some x)
    (halive : y.alive = x.alive) (hsub : x.sendKeyEnvelopes ⊆ y.sendKeyEnvelopes)
    (hnew : ∀ k ∈ y.sendKeyEnvelopes, k ∈ x.sendKeyEnvelopes ∨ s.allocated k = false) :
    Exact (s.setOwner o y) := by
  have hlives (o' : Nat) : (s.setOwner o y).lives o' = s.lives o' := by
    rw [lives_setOwner hx]
    split
    · rw [‹o' = o›, lives_of_get hx, halive]
    · rfl
  have hback {k o' : Nat} (hk : k ∈ (s.setOwner o y).envelopes o') :
      k ∈ s.envelopes o' ∨ o' = o ∧ s.allocated k = false := by
    rw [envelopes_setOwner hx] at hk
    split at hk
    · rcases hnew k hk with hold | hfresh
      · exact .inl (by rwa [‹o' = o›, envelopes_of_get hx])
      · exact .inr ⟨‹_›, hfresh⟩
    · exact .inl hk
  refine h.owners (by simp) (fun {k} _ _ hk hk' => ?_)
    (fun o' _ hl => ⟨(hlives o').symm.trans hl, ?_, fun _ _ hk => hk⟩)
    (fun hop hp => (hlives _).trans (h.alive hop hp))
  · rcases hback hk with hold | ⟨ho, hfresh⟩ <;> rcases hback hk' with hold' | ⟨ho', hfresh'⟩
    · exact h.separate hold hold'
    · exact absurd hold (not_mem_envelopes hfresh' _)
    · exact absurd hold' (not_mem_envelopes hfresh _)
    · exact ho.trans ho'.symm
  · intro k hk
    refine (envelopes_setOwner hx o').symm ▸ ?_
    split
    · rw [‹o' = o›, envelopes_of_get hx] at hk
      exact hsub hk
    · exact hk

theorem envelopes_opened (o : Nat) :
    ({ s with owners := s.owners ++ [{}] } : Completions).envelopes o = s.envelopes o := by
  rcases Nat.lt_trichotomy o s.owners.length with ho | ho | ho
  · simp [getElem?_append_left ho]
  · simp [ho]
  · have hnone : (s.owners ++ [({} : SendOwner)])[o]? = none :=
      getElem?_eq_none (by simpa using Nat.succ_le_of_lt ho)
    simp [hnone, getElem?_eq_none (Nat.le_of_lt ho)]

theorem exact_opened (h : Exact s) : Exact { s with owners := s.owners ++ [{}] } := by
  have hlives {o : Nat} (ho : o < s.owners.length) :
      ({ s with owners := s.owners ++ [{}] } : Completions).lives o = s.lives o := by
    simp [getElem?_append_left ho]
  refine h.owners (by simp)
    (fun hk hk' => h.separate ((envelopes_opened _) ▸ hk) ((envelopes_opened _) ▸ hk'))
    (fun o ho hl => ?_)
    (fun hop hp => (hlives (h.owned hop)).trans (h.alive hop hp))
  exact ⟨(hlives ho).symm.trans hl, (envelopes_opened o).symm ▸ List.Subset.refl _,
    fun _ _ hk => hk⟩

theorem exact_destroyed (h : Exact s) {o : Nat} (hx : s.owners[o]? = some x)
    (hheld : s.held o = false) (hdead : y.alive = false) (hkeys : y.sendKeyEnvelopes = []) :
    Exact { s.setOwner o y with
      claimedSendCompletions :=
        s.claimedSendCompletions.filter fun e => !x.sendKeyEnvelopes.any (· == e.1) } := by
  have hother {k o' : Nat} (hk : k ∈ (s.setOwner o y).envelopes o') : k ∈ s.envelopes o' := by
    rw [envelopes_setOwner hx, hkeys] at hk
    split at hk
    · cases hk
    · exact hk
  refine h.owners (length_set ..).ge (fun hk hk' => h.separate (hother hk) (hother hk'))
    (fun o' _ hl => ?_) (fun hop hp => ?_)
  · have hne : o' ≠ o := by
      rintro rfl
      have := (lives_setOwner hx o').symm.trans hl
      rw [if_pos rfl, hdead] at this
      cases this
    have hlives := (lives_setOwner (y := y) hx o').symm.trans hl
    have henvelopes := envelopes_setOwner (y := y) hx o'
    rw [if_neg hne] at hlives henvelopes
    refine ⟨hlives,
      (henvelopes.symm ▸ List.Subset.refl _ : s.envelopes o' ⊆ (s.setOwner o y).envelopes o'),
      fun k hk hmem => ?_⟩
    -- the key is an envelope of another stream
    refine mem_filter.mpr ⟨hmem, ?_⟩
    rw [Bool.not_eq_true', List.any_eq_false]
    intro k' hk' hsame
    rw [← envelopes_of_get hx] at hk'
    obtain rfl : k' = k := beq_iff_eq.mp hsame
    exact hne (h.separate hk hk')
  · refine (lives_setOwner hx _).trans ?_
    split
    · have hany : s.held o = true :=
        List.any_eq_true.mpr ⟨_, mem_of_getElem? hop, by simp [‹_ = o›, hp]⟩
      cases hheld.symm.trans hany
    · exact h.alive hop hp

theorem exact_erased (h : Exact s) {o key : Nat} (hfind : s.find o key = some (i, op)) :
    op.key = key ∧ op.stage = .registered ∧ op.events = [] ∧
      ∀ e ∈ s.sendCompletions.filter (·.1 != key), e ∈ s.sendCompletions ∧ e.2 ≠ i := by
  obtain ⟨hmem, hop, -⟩ := find_eq_some hfind
  obtain ⟨x, hx, hstage, hkey⟩ := h.table hmem
  obtain rfl : x = op := some.inj (hx.symm.trans hop)
  have hevents := h.lawful hop
  rw [Lawful, hstage] at hevents
  refine ⟨hkey, hstage, hevents, fun e he => ?_⟩
  obtain ⟨he, hne⟩ := mem_filter.mp he
  refine ⟨he, fun hi => ?_⟩
  -- two entries for one operation have its key
  obtain ⟨y, hy, -, hkey'⟩ := h.table (k := e.1) (i := e.2) he
  obtain rfl : y = x := some.inj (hy.symm.trans (hi ▸ hop))
  simp [← hkey', hkey] at hne

attribute [local simp] SendOperation.pending Lawful

section

variable (h : Exact s)
include h

theorem Exact.sendComplete (o key : Nat) : Exact (s.sendComplete o key) := by
  unfold Completions.sendComplete
  split
  · obtain ⟨-, hop, rfl⟩ := find_eq_some ‹_›
    obtain ⟨rfl, hstage, hevents, herased⟩ := exact_erased h ‹_›
    refine h.move hop ?_ (by simp [hstage]) (fun e he => .inl (herased e he)) (fun e he hne => ?_)
      (fun _ => ?_)
    · simp [hevents]
    · exact mem_append_left _ (mem_filter.mpr ⟨he, by simpa using hne⟩)
    · exact mem_append_right _ (mem_singleton_self _)
  · split
    all_goals exact ⟨h.owned, h.separate, h.lawful, h.alive, h.enveloped, h.distinct,
      h.table, h.claimed⟩

theorem Exact.cancelSendCompletion (o key : Nat) : Exact (s.cancelSendCompletion o key) := by
  unfold Completions.cancelSendCompletion
  split
  · obtain ⟨-, hop, rfl⟩ := find_eq_some ‹_›
    obtain ⟨rfl, hstage, hevents, herased⟩ := exact_erased h ‹_›
    refine h.move hop ?_ (by simp [hstage]) (fun e he => .inl (herased e he)) (fun e he _ => he)
      (fun hhead => ?_)
    · simp [hevents]
    · simp [hevents] at hhead
  · exact h

/-- A step without the table: the operation is not in it before and after. -/
theorem Exact.unlisted (hop : s.operations[i]? = some op) {stage : CompletionStage}
    {events : List CompletionEvent}
    (hlawful : Lawful { op with stage, events := op.events ++ events })
    (hpending : op.pending = true) (hstage : op.stage ≠ .registered)
    (hhead : (op.events ++ events).head? = some .claimed → op.events.head? = some .claimed) :
    Exact (s.move i op stage events) := by
  refine h.move hop hlawful hpending (fun e he => .inl ⟨he, fun hi => ?_⟩) (fun e he _ => he)
    (fun hclaimed => ?_)
  · obtain ⟨x, hx, hregistered, -⟩ := h.table (k := e.1) (i := e.2) he
    obtain rfl : x = op := some.inj (hx.symm.trans (hi ▸ hop))
    exact hstage hregistered
  · exact h.claimed hop (h.alive hop hpending) (hhead hclaimed)

theorem Exact.insert (hop : s.operations[i]? = some op) (hstage : op.stage = .reserved) :
    Exact (s.move i op .refused []) ∧
      Exact { s.move i op .registered [] with
        sendCompletions := s.sendCompletions ++ [(op.key, i)] } := by
  have hevents := h.lawful hop
  rw [Lawful, hstage] at hevents
  have hpending : op.pending = true := by simp [hstage]
  constructor
  · exact h.unlisted hop (by simp [hevents]) hpending (by simp [hstage]) (by simp)
  · refine h.move hop (by simp [hevents]) hpending (fun e he => ?_) (fun e he _ => he)
      (fun hhead => ?_)
    · rcases mem_append.mp he with he | he
      · refine .inl ⟨he, fun hi => ?_⟩
        obtain ⟨x, hx, hregistered, -⟩ := h.table (k := e.1) (i := e.2) he
        obtain rfl : x = op := some.inj (hx.symm.trans (hi ▸ hop))
        cases hstage.symm.trans hregistered
      · exact .inr ⟨mem_singleton.mp he, rfl⟩
    · simp [hevents] at hhead

theorem Exact.step (hs : s.step a = some t) : Exact t := by
  cases a with
  | «open» =>
    cases hs
    exact exact_opened h
  | publishTarget o target =>
    obtain ⟨x, hx, -, rfl⟩ := bind_guarded_iff.mp hs
    exact h.setOwner hx rfl (List.Subset.refl _) (fun k hk => .inl hk)
  | registerSendCompletion o address context =>
    simp only [Completions.step, bind_eq_some_iff, guarded_iff, Bool.and_eq_true,
      Bool.not_eq_true'] at hs
    obtain ⟨x, hx, target, -, ⟨⟨halive, -⟩, hfresh⟩, rfl⟩ := hs
    have hnew :
        Exact (s.setOwner o { x with sendKeyEnvelopes := x.sendKeyEnvelopes ++ [address] }) := by
      refine h.setOwner hx rfl (subset_append_left _ _) (fun k hk => ?_)
      exact (mem_append.mp hk).imp_right fun hk => by rwa [mem_singleton.mp hk]
    refine hnew.append rfl rfl ?_ ?_ (fun {i y} hy hl hkey => ?_)
    · exact (lives_setOwner hx o).trans (by simp [halive])
    · exact (envelopes_setOwner hx o).symm ▸ by simp
    · rw [lives_setOwner hx] at hl
      have hold : s.lives y.owner = true := by
        split at hl
        · rwa [‹y.owner = o›, lives_of_get hx]
        · exact hl
      exact not_mem_envelopes hfresh _ (hkey ▸ h.enveloped hy hold)
  | insert i =>
    simp only [Completions.step, bind_eq_some_iff] at hs
    obtain ⟨op, hop, hs⟩ := hs
    split at hs
    · cases hs
    · obtain ⟨hrefused, hregistered⟩ := h.insert hop (not_not.mp ‹_›)
      split at hs
      · exact some.inj hs ▸ hrefused
      · exact some.inj hs ▸ hregistered
  | cancelSendCompletion o key =>
    exact (guarded_iff.mp hs).2 ▸ h.cancelSendCompletion o key
  | sendComplete o key =>
    exact (guarded_iff.mp hs).2 ▸ h.sendComplete o key
  | deliver i =>
    obtain ⟨op, hop, hstage, rfl⟩ := bind_guarded_iff.mp hs
    have hevents := h.lawful hop
    rw [Lawful, hstage] at hevents
    exact h.unlisted hop (by simp [hevents]) (by simp [hstage]) (by simp [hstage])
      (by simp [hevents])
  | cleanup i =>
    simp only [Completions.step, bind_eq_some_iff, guarded_iff, Bool.or_eq_true,
      decide_eq_true_eq] at hs
    obtain ⟨op, hop, hstage, rfl⟩ := hs
    have hevents := h.lawful hop
    rcases hstage with hstage | hstage <;> rw [Lawful, hstage] at hevents
    all_goals
      exact h.unlisted hop (by simp [hevents]) (by simp [hstage]) (by simp [hstage])
        (by simp [hevents])
  | leave o =>
    simp only [Completions.step, map_eq_some_iff] at hs
    obtain ⟨x, hx, rfl⟩ := hs
    exact h.setOwner hx rfl (List.Subset.refl _) (fun k hk => .inl hk)
  | destroy o =>
    simp only [Completions.step, bind_eq_some_iff, guarded_iff, Bool.and_eq_true,
      Bool.not_eq_true'] at hs
    obtain ⟨x, hx, ⟨-, hheld⟩, rfl⟩ := hs
    exact exact_destroyed h hx hheld rfl rfl

end

theorem exact_start : Exact {} := by
  constructor <;> simp

/-- Reported again by its stream, a claimed key is counted and nothing else happens. -/
theorem sendComplete_claimed (h : Exact s) (hop : s.operations[i]? = some op)
    (hhead : op.events.head? = some .claimed) (halive : s.lives op.owner = true) :
    s.sendComplete op.owner op.key = { s with duplicateClaims := s.duplicateClaims + 1 } := by
  have hnone : s.find op.owner op.key = none := by
    by_contra hsome
    obtain ⟨⟨j, x⟩, hfind⟩ := ne_none_iff_exists'.mp hsome
    obtain ⟨-, hx, howner⟩ := find_eq_some hfind
    obtain ⟨hkey, -, hevents, -⟩ := exact_erased h hfind
    obtain rfl := h.distinct hx hop (howner ▸ halive) halive hkey
    obtain rfl : x = op := some.inj (hx.symm.trans hop)
    rw [hevents] at hhead
    cases hhead
  have hmem : s.claimedSendCompletions.any (· == (op.key, op.owner)) = true :=
    List.any_eq_true.mpr ⟨_, h.claimed hop halive hhead, beq_self_eq_true _⟩
  simp only [sendComplete, hnone, hmem, if_true]

theorem Lawful.events (h : Lawful op) : op.events <+: [.cancelled, .cleanedUp] ∨
    op.events <+:
    [.claimed, .delivered op.target op.generation op.deliveredContext, .cleanedUp] := by
  unfold Lawful at h
  cases hstage : op.stage <;> simp only [hstage] at h
  case finished =>
    rcases h with h | h <;> rw [h]
    exacts [.inl (prefix_refl _), .inr (prefix_refl _)]
  all_goals simp [h]

/-- An operation that is neither to be delivered nor to be cleaned up has not begun, or is
through. -/
theorem Lawful.through (h : Lawful op) (hop : s.operations[i]? = some op)
    (hdeliver : s.step (.deliver i) = none) (hcleanup : s.step (.cleanup i) = none) :
    op.events = [] ∨ op.events = [.cancelled, .cleanedUp] ∨
      op.events =
        [.claimed, .delivered op.target op.generation op.deliveredContext, .cleanedUp] := by
  unfold Lawful at h
  cases hstage : op.stage <;> simp only [hstage] at h
  case reserved | registered | refused => exact .inl h
  case finished => exact .inr h
  case cancelled | delivered => simp [Completions.step, hop, hstage] at hcleanup
  case claimed => simp [Completions.step, hop, hstage] at hdeliver

section

variable (h : Exact s) (hop : s.operations[i]? = some op)
  (hlisted : (op.key, i) ∈ s.sendCompletions)
include h hop hlisted

theorem Exact.listed : op.stage = .registered ∧ s.lives op.owner = true := by
  obtain ⟨x, hx, hstage, -⟩ := h.table hlisted
  obtain rfl : x = op := some.inj (hx.symm.trans hop)
  exact ⟨hstage, h.alive hop (by simp [hstage])⟩

/-- A key stands for one operation, whoever looks for it. -/
theorem Exact.eq_of_find {x : SendOperation} {j : Nat} (hfind : s.find o op.key = some (j, x)) :
    j = i ∧ x = op := by
  obtain ⟨-, hx, -⟩ := find_eq_some hfind
  obtain ⟨hkey, hstage, -⟩ := exact_erased h hfind
  obtain rfl : j = i :=
    h.distinct hx hop (h.alive hx (by simp [hstage])) (h.listed hop hlisted).2 hkey
  exact ⟨rfl, some.inj (hx.symm.trans hop)⟩

/-- The completion of a send that is in the table claims it. -/
theorem Exact.claims : ∃ t, s.step (.sendComplete op.owner op.key) = some t ∧
    t.operations = s.operations.set i { op with stage := .claimed, events := [.claimed] } := by
  obtain ⟨hstage, halive⟩ := h.listed hop hlisted
  have hevents := h.lawful hop
  rw [Lawful, hstage] at hevents
  have hfind : s.find op.owner op.key = some (i, op) := by
    have hsome : (s.sendCompletions.find? (·.1 == op.key)).isSome = true :=
      find?_isSome.mpr ⟨_, hlisted, beq_self_eq_true op.key⟩
    obtain ⟨⟨k, j⟩, hentry⟩ := isSome_iff_exists.mp hsome
    obtain rfl : k = op.key := by simpa using find?_some hentry
    obtain ⟨x, hx, hregistered, hkey⟩ := h.table (mem_of_find?_eq_some hentry)
    obtain rfl : j = i := h.distinct hx hop (h.alive hx (by simp [hregistered])) halive hkey
    simp [find, hentry, hop]
  refine ⟨_, by rw [Completions.step, if_pos halive], ?_⟩
  simp [Completions.sendComplete, hfind, Completions.move, erase, hevents]

/-- Nothing else takes a send out of the table but its cancellation. -/
theorem Exact.stays (hs : s.step a = some t) : (op.key, i) ∈ t.sendCompletions ∨
    a = .cancelSendCompletion op.owner op.key ∨ a = .sendComplete op.owner op.key := by
  have herased {o key j : Nat} {x : SendOperation} (hfind : s.find o key = some (j, x)) :
      (op.key, i) ∈ s.sendCompletions.filter (·.1 != key) ∨ o = op.owner ∧ key = op.key := by
    by_cases hkey : op.key = key
    · subst hkey
      obtain ⟨-, rfl⟩ := h.eq_of_find hop hlisted hfind
      exact .inr ⟨(find_eq_some hfind).2.2.symm, rfl⟩
    · exact .inl (mem_filter.mpr ⟨hlisted, by simpa using hkey⟩)
  cases a with
  | «open» =>
    cases hs
    exact .inl hlisted
  | publishTarget o target =>
    obtain ⟨x, -, -, rfl⟩ := bind_guarded_iff.mp hs
    exact .inl hlisted
  | registerSendCompletion o address context =>
    simp only [Completions.step, bind_eq_some_iff, guarded_iff] at hs
    obtain ⟨x, -, target, -, -, rfl⟩ := hs
    exact .inl hlisted
  | insert j =>
    simp only [Completions.step, bind_eq_some_iff] at hs
    obtain ⟨x, -, hs⟩ := hs
    split at hs
    · cases hs
    · split at hs <;> cases hs
      exacts [.inl hlisted, .inl (mem_append_left _ hlisted)]
  | cancelSendCompletion o key =>
    obtain ⟨-, rfl⟩ := guarded_iff.mp hs
    unfold Completions.cancelSendCompletion
    split
    next hfind => exact (herased hfind).imp_right fun ⟨ho, hkey⟩ => .inl (by rw [ho, hkey])
    · exact .inl hlisted
  | sendComplete o key =>
    obtain ⟨-, rfl⟩ := guarded_iff.mp hs
    unfold Completions.sendComplete
    split
    next hfind => exact (herased hfind).imp_right fun ⟨ho, hkey⟩ => .inr (by rw [ho, hkey])
    · split <;> exact .inl hlisted
  | deliver j | cleanup j =>
    obtain ⟨x, -, -, rfl⟩ := bind_guarded_iff.mp hs
    exact .inl hlisted
  | leave o =>
    simp only [Completions.step, map_eq_some_iff] at hs
    obtain ⟨x, -, rfl⟩ := hs
    exact .inl hlisted
  | destroy o =>
    obtain ⟨x, -, -, rfl⟩ := bind_guarded_iff.mp hs
    exact .inl hlisted

end

/-- The key of an envelope is not in the table before its insertion, which therefore succeeds. -/
theorem Exact.inserted (h : Exact s) (hop : s.operations[i]? = some op)
    (hs : s.step (.insert i) = some t) : (op.key, i) ∈ t.sendCompletions := by
  simp only [Completions.step, hop, bind_some] at hs
  split at hs
  · cases hs
  next hreserved =>
    have hstage : op.stage = .reserved := not_not.mp hreserved
    split at hs
    next htaken =>
      obtain ⟨⟨k, j⟩, hmem, hkey⟩ := List.any_eq_true.mp htaken
      obtain ⟨x, hx, hregistered, hxkey⟩ := h.table hmem
      obtain rfl : j = i := h.distinct hx hop (h.alive hx (by simp [hregistered]))
        (h.alive hop (by simp [hstage])) (hxkey.trans (by simpa using hkey))
      obtain rfl : x = op := some.inj (hx.symm.trans hop)
      cases hstage.symm.trans hregistered
    · cases hs
      exact mem_append_right _ (mem_singleton_self _)

/-- Every send that is registered stays in the table until it is cancelled or its stream's
SEND_COMPLETE claims it, which a send in the table never refuses. It is cancelled and cleaned up,
or claimed, delivered to the route it was registered with and cleaned up, each once and in this
order; a claimed key that its stream reports again is only counted. -/
theorem completions_exactly_once (actions : List Action) (t : Completions)
    (hrun : run step {} actions = some t) :
    (∀ o address context t', t.step (.registerSendCompletion o address context) = some t' →
      ∃ x target, t.owners[o]? = some x ∧ x.target = some target ∧
        t'.operations = t.operations ++
          [⟨o, address, target, x.routeGeneration, context, .reserved, []⟩]) ∧
    ∀ i op, t.operations[i]? = some op →
      (∀ t', t.step (.insert i) = some t' → (op.key, i) ∈ t'.sendCompletions) ∧
      ((op.key, i) ∈ t.sendCompletions →
        (∃ t', t.step (.sendComplete op.owner op.key) = some t' ∧
          t'.operations = t.operations.set i { op with stage := .claimed, events := [.claimed] }) ∧
        ∀ a t', t.step a = some t' → (op.key, i) ∈ t'.sendCompletions ∨
          a = .cancelSendCompletion op.owner op.key ∨ a = .sendComplete op.owner op.key) ∧
      (op.events <+: [.cancelled, .cleanedUp] ∨
        op.events <+:
        [.claimed, .delivered op.target op.generation op.deliveredContext, .cleanedUp]) ∧
      (t.step (.deliver i) = none → t.step (.cleanup i) = none →
        op.events = [] ∨ op.events = [.cancelled, .cleanedUp] ∨
          op.events =
            [.claimed, .delivered op.target op.generation op.deliveredContext, .cleanedUp]) ∧
      (op.events.head? = some .claimed → t.lives op.owner = true →
        t.step (.sendComplete op.owner op.key) =
          some { t with duplicateClaims := t.duplicateClaims + 1 }) := by
  have h : Exact t := Machine.invariant (fun _ _ _ h hs => h.step hs) exact_start hrun
  refine ⟨fun o address context t' hs => ?_, fun i op hop => ⟨fun t' => h.inserted hop,
    fun hlisted => ⟨h.claims hop hlisted, fun a t' => h.stays hop hlisted⟩, (h.lawful hop).events,
    (h.lawful hop).through hop, fun hhead halive => ?_⟩⟩
  · simp only [step, bind_eq_some_iff, guarded_iff] at hs
    obtain ⟨x, hx, target, htarget, -, rfl⟩ := hs
    exact ⟨x, target, hx, htarget, rfl⟩
  · simp only [step, halive, if_true, sendComplete_claimed h hop hhead halive]

/-- Two streams send at one time: one send is cancelled, the other is claimed after its stream has
got another target. -/
def twoStreams : List Action :=
  [.open, .open, .registerSendCompletion 0 7 1, .registerSendCompletion 1 8 2, .insert 1, .insert 0,
    .cancelSendCompletion 0 7,
    .publishTarget 1 5, .sendComplete 1 8, .deliver 1, .cleanup 1, .cleanup 0]

def twoStreamsEnd : Completions where
  owners :=
    [{ sendKeyEnvelopes := [7] },
      { target := some 5, routeGeneration := 2, sendKeyEnvelopes := [8] }]
  operations := [⟨0, 7, 0, 1, 1, .finished, [.cancelled, .cleanedUp]⟩,
    ⟨1, 8, 0, 1, 2, .finished, [.claimed, .delivered 0 1 2, .cleanedUp]⟩]
  claimedSendCompletions := [(8, 1)]

theorem twoStreams_exactly_once : run step {} twoStreams = some twoStreamsEnd ∧
    twoStreamsEnd.step (.sendComplete 1 8) = some { twoStreamsEnd with duplicateClaims := 1 } := by
  have hrun : run step {} twoStreams = some twoStreamsEnd := by decide
  refine ⟨hrun, ?_⟩
  obtain ⟨-, -, -, -, htwice⟩ := (completions_exactly_once twoStreams twoStreamsEnd hrun).2 1
    ⟨1, 8, 0, 1, 2, .finished, [.claimed, .delivered 0 1 2, .cleanedUp]⟩ rfl
  exact htwice rfl rfl

/-! ### What is retained -/

/-- The sends of the stream in `g_sendCompletions`. -/
def outstanding (owner : Nat) : Nat :=
  (s.sendCompletions.filter fun e => s.operations[e.2]?.any (·.owner == owner)).length

/-- Envelopes and table entries kept for the stream. -/
def retained (owner : Nat) : Nat :=
  (s.envelopes owner).length + s.outstanding owner +
    (s.claimedSendCompletions.filter (·.2 == owner)).length

/-- A claimed key is kept once, and its stream has the envelope. -/
structure Remembered (s : Completions) : Prop where
  nodup : (s.claimedSendCompletions.map Prod.fst).Nodup
  enveloped : ∀ e ∈ s.claimedSendCompletions, e.1 ∈ s.envelopes e.2

theorem claimed_le_envelopes (h : Remembered s) (o : Nat) :
    (s.claimedSendCompletions.filter (·.2 == o)).length ≤ (s.envelopes o).length := by
  have hnodup : ((s.claimedSendCompletions.filter (·.2 == o)).map Prod.fst).Nodup :=
    h.nodup.sublist (filter_sublist.map _)
  have hsub : (s.claimedSendCompletions.filter (·.2 == o)).map Prod.fst ⊆ s.envelopes o := by
    intro k hk
    obtain ⟨e, he, rfl⟩ := List.mem_map.mp hk
    obtain ⟨hmem, howner⟩ := mem_filter.mp he
    exact beq_iff_eq.mp howner ▸ h.enveloped e hmem
  rw [← length_map Prod.fst]
  exact (subperm_of_subset hnodup hsub).length_le

theorem Remembered.sendComplete (h : Remembered s) (hexact : Exact s) (o key : Nat) :
    Remembered (s.sendComplete o key) := by
  unfold Completions.sendComplete
  split
  · obtain ⟨-, hop, rfl⟩ := find_eq_some ‹_›
    obtain ⟨rfl, hstage, -⟩ := exact_erased hexact ‹_›
    constructor
    · rw [map_append, nodup_append']
      refine ⟨h.nodup.sublist (filter_sublist.map _), nodup_singleton _, fun k hk hk' => ?_⟩
      obtain ⟨e, he, rfl⟩ := List.mem_map.mp hk
      have hne : e.1 ≠ _ := bne_iff_ne.mp (mem_filter.mp he).2
      exact hne (mem_singleton.mp hk')
    · refine forall_mem_append.mpr ⟨fun e he => h.enveloped e (mem_filter.mp he).1, ?_⟩
      refine forall_mem_singleton.mpr (hexact.enveloped hop (hexact.alive hop ?_))
      simp [hstage]
  · split
    all_goals exact ⟨h.nodup, h.enveloped⟩

theorem Remembered.destroyed (h : Remembered s) {o : Nat} (hx : s.owners[o]? = some x) :
    Remembered { s.setOwner o y with
      claimedSendCompletions :=
        s.claimedSendCompletions.filter fun e => !x.sendKeyEnvelopes.any (· == e.1) } := by
  refine ⟨h.nodup.sublist (filter_sublist.map _), fun e he => ?_⟩
  obtain ⟨hmem, hother⟩ := mem_filter.mp he
  have henveloped := h.enveloped e hmem
  refine (envelopes_setOwner hx e.2).symm ▸ ?_
  split
  · rw [‹e.2 = o›, envelopes_of_get hx] at henveloped
    rw [Bool.not_eq_true', List.any_eq_false] at hother
    exact absurd (beq_self_eq_true _) (hother _ henveloped)
  · exact henveloped

/-- The sends that the stream has had. -/
def registered (owner : Nat) : Nat :=
  total (fun op => if op.owner = owner then 1 else 0) s.operations

structure Retains (s : Completions) : Prop where
  exact : Exact s
  remembered : Remembered s
  /-- One envelope for each send. -/
  few : ∀ o, (s.envelopes o).length ≤ s.registered o
  dead : ∀ o, s.lives o = false → s.envelopes o = []

/-- A step that leaves the streams and the claimed keys. -/
theorem Retains.keep (h : Retains s) (hexact : Exact t) (howners : t.owners = s.owners)
    (hclaimed : t.claimedSendCompletions = s.claimedSendCompletions)
    (hregistered : ∀ o, t.registered o = s.registered o) : Retains t := by
  have henvelopes (o : Nat) : t.envelopes o = s.envelopes o := by rw [envelopes, envelopes, howners]
  refine ⟨hexact, ⟨hclaimed ▸ h.remembered.nodup, fun e he => ?_⟩, fun o => ?_, fun o hdead => ?_⟩
  · rw [henvelopes]
    exact h.remembered.enveloped e (hclaimed ▸ he)
  · rw [henvelopes, hregistered]
    exact h.few o
  · rw [lives, howners] at hdead
    rw [henvelopes]
    exact h.dead o hdead

theorem registered_move (hop : s.operations[i]? = some op) (stage : CompletionStage)
    (events : List CompletionEvent) (o : Nat) :
    (s.move i op stage events).registered o = s.registered o := by
  have hset :=
    Machine.total_set (f := fun op => if op.owner = o then 1 else 0)
      { op with stage, events := op.events ++ events } hop
  exact Nat.add_right_cancel hset

/-- A stream changes and stays alive if it was. -/
theorem Retains.setOwner (h : Retains s) {o : Nat} {operations : List SendOperation}
    (hx : s.owners[o]? = some x) (hexact : Exact { s.setOwner o y with operations })
    (halive : y.alive = x.alive) (hsub : x.sendKeyEnvelopes ⊆ y.sendKeyEnvelopes)
    (hdead : x.alive = false → y.sendKeyEnvelopes = x.sendKeyEnvelopes)
    (hself : y.sendKeyEnvelopes.length ≤ ({ s with operations } : Completions).registered o)
    (hother : ∀ o', s.registered o' ≤ ({ s with operations } : Completions).registered o') :
    Retains { s.setOwner o y with operations } := by
  refine ⟨hexact, ⟨h.remembered.nodup, fun e he => (envelopes_setOwner hx e.2).symm ▸ ?_⟩,
    fun o' => ?_, fun o' hd => ?_⟩
  · have henveloped := h.remembered.enveloped e he
    split
    · rw [‹e.2 = o›, envelopes_of_get hx] at henveloped
      exact hsub henveloped
    · exact henveloped
  · refine Nat.le_trans (Nat.le_of_eq (congrArg length (envelopes_setOwner hx o'))) ?_
    split
    · exact ‹o' = o› ▸ hself
    · exact (h.few o').trans (hother o')
  · have hd := (lives_setOwner hx o').symm.trans hd
    refine (envelopes_setOwner hx o').trans ?_
    split
    · have hd : y.alive = false := by simpa [‹o' = o›] using hd
      rw [hdead (halive ▸ hd), ← envelopes_of_get hx]
      exact h.dead o (by rw [lives_of_get hx, ← halive, hd])
    · exact h.dead o' (by simpa [‹¬o' = o›] using hd)

theorem sendComplete_frame :
    (s.sendComplete o key).owners = s.owners ∧
      ∀ o', (s.sendComplete o key).registered o' = s.registered o' := by
  unfold sendComplete
  split
  · obtain ⟨-, hop, -⟩ := find_eq_some ‹_›
    exact ⟨rfl, @registered_move s _ _ hop _ _⟩
  · split <;> exact ⟨rfl, fun _ => rfl⟩

theorem cancelSendCompletion_frame : (s.cancelSendCompletion o key).owners = s.owners ∧
    (s.cancelSendCompletion o key).claimedSendCompletions = s.claimedSendCompletions ∧
    ∀ o', (s.cancelSendCompletion o key).registered o' = s.registered o' := by
  unfold cancelSendCompletion
  split
  · obtain ⟨-, hop, -⟩ := find_eq_some ‹_›
    exact ⟨rfl, rfl, @registered_move s _ _ hop _ _⟩
  · exact ⟨rfl, rfl, fun _ => rfl⟩

theorem Retains.step (h : Retains s) (hs : s.step a = some t) : Retains t := by
  have hexact := h.exact.step hs
  cases a with
  | «open» =>
    cases hs
    refine ⟨hexact, ⟨h.remembered.nodup, fun e he => ?_⟩, fun o => ?_, fun o hdead => ?_⟩
    · exact (envelopes_opened e.2).symm ▸ h.remembered.enveloped e he
    · exact (envelopes_opened o).symm ▸ h.few o
    · refine (envelopes_opened o).trans ?_
      by_cases ho : o < s.owners.length
      · exact h.dead o (by simpa [lives, getElem?_append_left ho] using hdead)
      · simp [getElem?_eq_none (Nat.le_of_not_lt ho)]
  | publishTarget o target =>
    obtain ⟨x, hx, -, rfl⟩ := bind_guarded_iff.mp hs
    exact h.setOwner hx hexact rfl (List.Subset.refl _) (fun _ => rfl)
      (envelopes_of_get hx ▸ h.few o) (fun _ => Nat.le_refl _)
  | registerSendCompletion o address context =>
    simp only [Completions.step, bind_eq_some_iff, guarded_iff, Bool.and_eq_true] at hs
    obtain ⟨x, hx, target, -, ⟨⟨halive, -⟩, -⟩, rfl⟩ := hs
    have hfew := h.few o
    rw [envelopes_of_get hx] at hfew
    refine h.setOwner hx hexact rfl (subset_append_left _ _) (fun hdead => ?_) ?_ (fun o' => ?_)
    · cases halive.symm.trans hdead
    · simpa [registered] using hfew
    · simp [registered]
  | insert i =>
    simp only [Completions.step, bind_eq_some_iff] at hs
    obtain ⟨op, hop, hs⟩ := hs
    split at hs
    · cases hs
    · split at hs <;> cases hs
      all_goals exact h.keep hexact rfl rfl (registered_move hop _ _)
  | cancelSendCompletion o key =>
    obtain ⟨-, rfl⟩ := guarded_iff.mp hs
    obtain ⟨howners, hclaimed, hregistered⟩ := @cancelSendCompletion_frame s o key
    exact h.keep hexact howners hclaimed hregistered
  | sendComplete o key =>
    obtain ⟨-, rfl⟩ := guarded_iff.mp hs
    obtain ⟨howners, hregistered⟩ := @sendComplete_frame s o key
    refine ⟨hexact, h.remembered.sendComplete h.exact o key, fun o' => ?_, fun o' hdead => ?_⟩
    · rw [envelopes, howners, hregistered]
      exact h.few o'
    · rw [lives, howners] at hdead
      rw [envelopes, howners]
      exact h.dead o' hdead
  | deliver i | cleanup i =>
    obtain ⟨op, hop, -, rfl⟩ := bind_guarded_iff.mp hs
    exact h.keep hexact rfl rfl (registered_move hop _ _)
  | leave o =>
    simp only [Completions.step, map_eq_some_iff] at hs
    obtain ⟨x, hx, rfl⟩ := hs
    exact h.setOwner hx hexact rfl (List.Subset.refl _) (fun _ => rfl)
      (envelopes_of_get hx ▸ h.few o) (fun _ => Nat.le_refl _)
  | destroy o =>
    obtain ⟨x, hx, -, rfl⟩ := bind_guarded_iff.mp hs
    refine ⟨hexact, h.remembered.destroyed hx, fun o' => (envelopes_setOwner hx o').symm ▸ ?_,
      fun o' hdead => ?_⟩
    · split
      · exact Nat.zero_le _
      · exact h.few o'
    · have hdead := (lives_setOwner hx o').symm.trans hdead
      refine (envelopes_setOwner hx o').trans ?_
      split
      · rfl
      · exact h.dead o' (by simpa [‹¬o' = o›] using hdead)

/-- Nothing is outstanding for a stream that is gone. -/
theorem Exact.outstanding_eq_zero (h : Exact s) {o : Nat} (hdead : s.lives o = false) :
    s.outstanding o = 0 := by
  rw [outstanding, length_eq_zero_iff, filter_eq_nil_iff]
  intro e he
  obtain ⟨op, hop, hstage, -⟩ := h.table (k := e.1) (i := e.2) he
  have halive := h.alive hop (by simp [hstage])
  rw [hop]
  intro howner
  obtain rfl : op.owner = o := by simpa using howner
  cases hdead.symm.trans halive

/-- Two keys at most are kept for each send that the stream has had, besides the outstanding ones,
and none when it is gone. -/
theorem retained_le_registered (actions : List Action) (t : Completions)
    (hrun : run step {} actions = some t) (o : Nat) :
    t.retained o ≤ 2 * t.registered o + t.outstanding o ∧
      (t.lives o = false → t.retained o = 0) := by
  have hstart : Retains {} :=
    ⟨exact_start, ⟨nodup_nil, nofun⟩, fun _ => Nat.zero_le _, fun _ _ => rfl⟩
  have h : Retains t := Machine.invariant (fun _ _ _ h hs => h.step hs) hstart hrun
  have hclaimed := claimed_le_envelopes h.remembered o
  have henvelopes := h.few o
  unfold retained
  refine ⟨by omega, fun hdead => ?_⟩
  rw [h.dead o hdead] at hclaimed ⊢
  rw [h.exact.outstanding_eq_zero hdead, Nat.le_zero.mp hclaimed]
  rfl

theorem twoStreams_retained : run step {} twoStreams = some twoStreamsEnd ∧
    twoStreamsEnd.retained 1 ≤ 2 * twoStreamsEnd.registered 1 + twoStreamsEnd.outstanding 1 := by
  have hrun : run step {} twoStreams = some twoStreamsEnd := by decide
  exact ⟨hrun, (retained_le_registered twoStreams twoStreamsEnd hrun 1).1⟩

/-- One send of the only stream, from its registration to its cleanup. -/
theorem run_send {target address : Nat} (howners : s.owners = [x]) (halive : x.alive = true)
    (husable : x.usable = true) (htarget : x.target = some target) (hempty : s.sendCompletions = [])
    (hfresh : ∀ k ∈ x.sendKeyEnvelopes, ¬k = address) :
    ∃ actions t, run step s actions = some t ∧
      t.owners = [{ x with sendKeyEnvelopes := x.sendKeyEnvelopes ++ [address] }] ∧
      t.sendCompletions = [] := by
  refine ⟨[.registerSendCompletion 0 address 0, .insert s.operations.length,
    .sendComplete 0 address, .deliver s.operations.length,
    .cleanup s.operations.length], ?_⟩
  simp [run, step, howners, halive, husable, htarget, hempty, if_pos hfresh, allocated, move,
    sendComplete, find, erase]

theorem run_sends (n : Nat) : ∃ actions t, run step {} actions = some t ∧
    t.owners = [{ sendKeyEnvelopes := List.range n }] ∧ t.sendCompletions = [] := by
  induction n with
  | zero => exact ⟨[.open], _, rfl, rfl, rfl⟩
  | succ n ih =>
    obtain ⟨actions, s, hrun, howners, hempty⟩ := ih
    obtain ⟨send, t, hsend, howners', hempty'⟩ :=
      run_send howners rfl rfl rfl hempty (fun k hk => Nat.ne_of_lt (mem_range.mp hk))
    exact ⟨actions ++ send, t, run_append.mpr ⟨s, hrun, hsend⟩,
      by rw [howners', range_succ], hempty'⟩

/-- Every send of a stream is completed, and the keys kept for it grow beyond any such bound. -/
theorem completed_sends_retained :
    ¬∃ constant factor : Nat, ∀ actions t, run step {} actions = some t →
    t.retained 0 ≤ constant + factor * t.outstanding 0 := by
  rintro ⟨constant, factor, hbound⟩
  obtain ⟨actions, t, hrun, howners, hempty⟩ := run_sends (constant + 1)
  have hnone : t.outstanding 0 = 0 := by simp [outstanding, hempty]
  have hkept : (t.envelopes 0).length = constant + 1 := by simp [howners]
  have hle := hbound actions t hrun
  rw [hnone, Nat.mul_zero, retained, hkept] at hle
  omega

end Completions
end TcpQuicProxy.StreamLifetime
