import Mathlib.Data.Nat.Bitwise
import TcpQuicProxy.Config.MemoryCap

/-!
# A budget of relay buffers, shared by threads

`TqAllocateRelayBuffer` reserves bytes of the budget with a compare-and-swap loop, allocates the
storage and the buffer, and gives the reservation back if either fails. The handle that it
returns carries the reservation through moves, until a reset frees the storage and gives it back.
-/

namespace TcpQuicProxy.LinuxRelay

open Machine

/-- `TqRelayBuffer`, its storage as the number of a block of the allocator. -/
structure RelayBuffer where
  storage : Nat
  storageCapacity : Nat
  deriving DecidableEq

/-- `TqBufferHandle`: it has reserved the size of its buffer, from a budget. -/
structure BufferHandle where
  buffer : Option RelayBuffer
  budget : Bool
  reservedBytes : Nat
  reserved_eq : reservedBytes = buffer.elim 0 RelayBuffer.storageCapacity
  budget_of_buffer : buffer.isSome = true → budget = true
  deriving DecidableEq

def BufferHandle.empty : BufferHandle := ⟨none, false, 0, rfl, nofun⟩

/-- A call of `TqAllocateRelayBuffer` or a handle. -/
inductive BufferSlot where
  /-- Before the compare-and-swap, which expects the value that was read. -/
  | loaded (bytes current : Nat)
  /-- Before the allocation of the storage. -/
  | reserved (bytes : Nat)
  /-- Before the allocation of the buffer. -/
  | stored (bytes storage : Nat)
  | handle (h : BufferHandle)
  /-- A handle between the two effects of its reset. -/
  | releasing (h : BufferHandle)
  deriving DecidableEq

namespace BufferSlot

/-- The bytes that a call has reserved or a handle has not given back. -/
def size : BufferSlot → Nat
  | loaded _ _ => 0
  | reserved bytes | stored bytes _ => bytes
  | handle h | releasing h => h.buffer.elim 0 RelayBuffer.storageCapacity

/-- How often a block is held that is not freed. -/
def holds (storage : Nat) : BufferSlot → Nat
  | loaded _ _ | reserved _ | releasing _ => 0
  | stored _ block => if block = storage then 1 else 0
  | handle h => h.buffer.elim 0 fun b => if b.storage = storage then 1 else 0

/-- The value that was read keeps to the maximum, and the request on top of it to 64 bits. -/
def Fits (max : Nat) : BufferSlot → Prop
  | loaded bytes current => max + bytes < 2 ^ 64 ∧ current ≤ max
  | _ => True

end BufferSlot

/-- A budget with the calls and handles that share it, what the calls that have ended reported,
how many blocks there have been and which were freed. -/
structure SharedBudget extends BufferBudget where
  slots : List BufferSlot := []
  failures : List BufferAcquireFailure := []
  blocks : Nat := 0
  freed : List Nat := []
  deriving DecidableEq

namespace SharedBudget

inductive Action where
  /-- A call begins; one for no bytes also stands for a handle that is declared. -/
  | allocate (bytes : Nat)
  /-- The next effect of a call, or of `reset`, with which the destructor and a move-assignment
  begin; `ok` is the answer of the allocator, or that the compare-and-swap does not fail
  spuriously. -/
  | advance (index : Nat) (ok : Bool)
  /-- A move, behind the reset of its target. -/
  | move (target source : Nat)
  deriving DecidableEq

/-- `fetch_sub` on the 64-bit counter. -/
def fetchSub (pending bytes : Nat) : Nat :=
  if bytes ≤ pending then pending - bytes else pending + 2 ^ 64 - bytes

/-- A call ends without a buffer. -/
def fail (s : SharedBudget) (failure : BufferAcquireFailure) : SharedBudget × BufferSlot :=
  ({ s with failures := s.failures ++ [failure] }, .handle .empty)

def allocate (s : SharedBudget) (bytes : Nat) : SharedBudget × BufferSlot :=
  if bytes = 0 then s.fail .none else (s, .loaded bytes s.pendingBufferBytes)

def advance (s : SharedBudget) (ok : Bool) : BufferSlot → SharedBudget × BufferSlot
  | .loaded bytes current =>
    if s.maxPendingBufferBytes < (current + bytes) % 2 ^ 64 then s.fail .pendingBytesLimit
    else if ok && s.pendingBufferBytes = current then
      ({ s with pendingBufferBytes := (current + bytes) % 2 ^ 64 }, .reserved bytes)
    else (s, .loaded bytes s.pendingBufferBytes)
  | .reserved bytes =>
    if ok then ({ s with blocks := s.blocks + 1 }, .stored bytes s.blocks)
    else
      { s with pendingBufferBytes := fetchSub s.pendingBufferBytes bytes }.fail .allocationFailure
  | .stored bytes storage =>
    if ok then
      ({ s with allocateCount := s.allocateCount + 1, failures := s.failures ++ [.none] },
        .handle ⟨some ⟨storage, bytes⟩, true, bytes, rfl, fun _ => rfl⟩)
    else
      { s with
        freed := s.freed ++ [storage]
        pendingBufferBytes := fetchSub s.pendingBufferBytes bytes }.fail .allocationFailure
  | .handle h =>
    match h.buffer with
    | none => (s, .handle .empty)
    | some b => ({ s with freed := s.freed ++ [b.storage] }, .releasing h)
  | .releasing h =>
    let pendingBufferBytes :=
      if h.budget && 0 < h.reservedBytes then fetchSub s.pendingBufferBytes h.reservedBytes
      else s.pendingBufferBytes
    ({ s with pendingBufferBytes }, .handle .empty)

def setSlot (r : SharedBudget × BufferSlot) (index : Nat) : SharedBudget :=
  { r.1 with slots := r.1.slots.set index r.2 }

def step (s : SharedBudget) : Action → Option SharedBudget
  | .allocate bytes =>
    some { (s.allocate bytes).1 with slots := s.slots ++ [(s.allocate bytes).2] }
  | .advance index ok => s.slots[index]?.map fun slot => setSlot (s.advance ok slot) index
  | .move target source =>
    match s.slots[target]?, s.slots[source]? with
    | some (.handle t), some (.handle h) =>
      if target ≠ source ∧ t = .empty then
        some { s with slots := (s.slots.set source (.handle .empty)).set target (.handle h) }
      else none
    | _, _ => none

/-- The request and the maximum fit in 64 bits together. -/
def fits (s : SharedBudget) : Action → Bool
  | .allocate bytes => s.maxPendingBufferBytes + bytes < 2 ^ 64
  | _ => true

structure Exact (s : SharedBudget) : Prop where
  pending : s.pendingBufferBytes = total BufferSlot.size s.slots
  le : s.pendingBufferBytes ≤ s.maxPendingBufferBytes
  slots : ∀ slot ∈ s.slots, slot.Fits s.maxPendingBufferBytes
  placed : ∀ block, total (BufferSlot.holds block) s.slots + s.freed.count block =
    if block < s.blocks then 1 else 0

variable {s t : SharedBudget} {index : Nat} {slot next : BufferSlot}

/-- What a slot has reserved is taken from the counter without a wrap. -/
theorem Exact.fetchSub (h : Exact s) (hslot : s.slots[index]? = some slot) :
    fetchSub s.pendingBufferBytes slot.size ≤ s.maxPendingBufferBytes ∧
      fetchSub s.pendingBufferBytes slot.size + slot.size = s.pendingBufferBytes := by
  have hcovers : slot.size ≤ s.pendingBufferBytes :=
    h.pending ▸ le_total_of_mem (List.mem_of_getElem? hslot)
  have hle := h.le
  rw [SharedBudget.fetchSub, if_pos hcovers]
  omega

/-- One slot changes, the counter with its size and the freed blocks with what it holds. -/
theorem Exact.setSlot (h : Exact s) (hslot : s.slots[index]? = some slot)
    (hslots : t.slots = s.slots) (hmax : t.maxPendingBufferBytes = s.maxPendingBufferBytes)
    (hle : t.pendingBufferBytes ≤ s.maxPendingBufferBytes)
    (hpending : t.pendingBufferBytes + slot.size = s.pendingBufferBytes + next.size)
    (hnext : next.Fits s.maxPendingBufferBytes)
    (hplaced : ∀ b, next.holds b + t.freed.count b + (if b < s.blocks then 1 else 0) =
      slot.holds b + s.freed.count b + if b < t.blocks then 1 else 0) :
    Exact (SharedBudget.setSlot (t, next) index) := by
  obtain ⟨hold, -, hfits, hplace⟩ := h
  have hset {f : BufferSlot → Nat} := total_set (f := f) next hslot
  dsimp only [SharedBudget.setSlot]
  rw [hslots]
  refine ⟨?_, hmax ▸ hle, fun x hx => hmax ▸ ?_, fun b => ?_⟩
  · have := hset (f := BufferSlot.size)
    dsimp only
    omega
  · rcases List.mem_or_eq_of_mem_set hx with hx | rfl
    · exact hfits x hx
    · exact hnext
  · have := hset (f := BufferSlot.holds b)
    have := hplace b
    have := hplaced b
    dsimp only at *
    omega

theorem Exact.advance (h : Exact s) (hslot : s.slots[index]? = some slot) (ok : Bool) :
    Exact (SharedBudget.setSlot (s.advance ok slot) index) := by
  have hle := h.le
  obtain ⟨hsubLe, hsub⟩ := h.fetchSub hslot
  have hfits := h.slots slot (List.mem_of_getElem? hslot)
  cases slot with
  | loaded bytes current =>
    -- the check of the limit does not wrap
    have hsum : (current + bytes) % 2 ^ 64 = current + bytes :=
      Nat.mod_eq_of_lt (by have := hfits.1; have := hfits.2; omega)
    dsimp only [SharedBudget.advance, fail]
    rw [hsum]
    split
    · exact h.setSlot hslot rfl rfl hle rfl trivial fun b => rfl
    · split
      next hroom hsame =>
        simp only [Bool.and_eq_true, decide_eq_true_eq] at hsame
        refine h.setSlot hslot rfl rfl (Nat.not_lt.mp hroom) ?_ trivial fun b => rfl
        rw [hsame.2]
        rfl
      next => exact h.setSlot hslot rfl rfl hle rfl ⟨hfits.1, hle⟩ fun b => rfl
  | reserved bytes =>
    dsimp only [SharedBudget.advance, fail]
    split
    · refine h.setSlot hslot rfl rfl hle rfl trivial fun b => ?_
      simp only [BufferSlot.holds]
      split <;> split <;> split <;> omega
    · exact h.setSlot hslot rfl rfl hsubLe hsub trivial fun b => rfl
  | stored bytes storage =>
    dsimp only [SharedBudget.advance, fail]
    split
    · exact h.setSlot hslot rfl rfl hle rfl trivial fun b => rfl
    · refine h.setSlot hslot rfl rfl hsubLe hsub trivial fun b => ?_
      simp only [BufferSlot.holds, BufferHandle.empty, List.count_append, List.count_singleton,
        beq_iff_eq, Option.elim_none]
      omega
  | handle r =>
    dsimp only [SharedBudget.advance, fail]
    split
    next hnone =>
      refine h.setSlot hslot rfl rfl hle ?_ trivial fun b => ?_
      · simp only [BufferSlot.size, hnone, BufferHandle.empty]
      · simp only [BufferSlot.holds, hnone, BufferHandle.empty]
    next b hbuffer =>
      refine h.setSlot hslot rfl rfl hle rfl trivial fun block => ?_
      simp only [BufferSlot.holds, hbuffer, List.count_append, List.count_singleton, beq_iff_eq,
        Option.elim_some]
      omega
  | releasing r =>
    have hsize : BufferSlot.size (.releasing r) = r.reservedBytes := r.reserved_eq.symm
    rw [hsize] at hsubLe hsub
    dsimp only [SharedBudget.advance, fail]
    split
    · exact h.setSlot hslot rfl rfl hsubLe (hsize ▸ hsub) trivial fun b => rfl
    next hnone =>
      -- a handle with a buffer has a budget, so this one has reserved nothing
      have hzero : r.reservedBytes = 0 := by
        have heq := r.reserved_eq
        have hbudget := r.budget_of_buffer
        cases hbuffer : r.buffer with
        | none => rw [heq, hbuffer, Option.elim_none]
        | some b =>
          rw [hbuffer] at hbudget
          simpa [hbudget] using hnone
      exact h.setSlot hslot rfl rfl hle (by rw [hsize, hzero]; rfl) trivial fun b => rfl

theorem Exact.move (h : Exact s) {target source : Nat} {r : BufferHandle}
    (htarget : s.slots[target]? = some (.handle .empty))
    (hsource : s.slots[source]? = some (.handle r)) (hne : target ≠ source) :
    Exact { s with slots := (s.slots.set source (.handle .empty)).set target (.handle r) } := by
  have htotal (f : BufferSlot → Nat) :
      total f ((s.slots.set source (.handle .empty)).set target (.handle r)) = total f s.slots := by
    have hfirst := total_set (f := f) (.handle .empty) hsource
    have hsecond := total_set (f := f) (l := s.slots.set source (.handle .empty)) (.handle r)
      ((List.getElem?_set_ne hne.symm).trans htarget)
    omega
  refine ⟨?_, h.le, fun x hx => ?_, fun b => ?_⟩
  · rw [htotal]
    exact h.pending
  · rcases List.mem_or_eq_of_mem_set hx with hx | rfl
    · rcases List.mem_or_eq_of_mem_set hx with hx | rfl
      · exact h.slots x hx
      · trivial
    · trivial
  · rw [htotal]
    exact h.placed b

/-- A call begins and has reserved nothing. -/
theorem Exact.append (h : Exact s) (slot : BufferSlot) (hfits : slot.Fits s.maxPendingBufferBytes)
    (hsize : slot.size = 0) (hholds : ∀ b, slot.holds b = 0)
    {failures : List BufferAcquireFailure} :
    Exact { s with slots := s.slots ++ [slot], failures } where
  pending := by simpa [hsize] using h.pending
  le := h.le
  slots := List.forall_mem_append.mpr ⟨h.slots, List.forall_mem_singleton.mpr hfits⟩
  placed b := by simpa [hholds] using h.placed b

theorem Exact.step (h : Exact s) {a : Action} (hfits : s.fits a = true)
    (hs : s.step a = some t) : Exact t := by
  cases a with
  | allocate bytes =>
    cases hs
    unfold SharedBudget.allocate
    split
    · exact h.append (.handle .empty) trivial rfl fun b => rfl
    · exact h.append (.loaded ..) ⟨of_decide_eq_true hfits, h.le⟩ rfl fun b => rfl
  | advance index ok =>
    obtain ⟨slot, hslot, rfl⟩ := Option.map_eq_some_iff.mp hs
    exact h.advance hslot ok
  | move target source =>
    dsimp only [SharedBudget.step] at hs
    split at hs
    next htarget hsource =>
      obtain ⟨⟨hne, rfl⟩, rfl⟩ := guarded_iff.mp hs
      exact h.move htarget hsource hne
    next => cases hs

attribute [local simp] run step SharedBudget.allocate SharedBudget.advance fail SharedBudget.setSlot
  SharedBudget.fetchSub BufferBudget.allocateRelayBuffer BufferHandle.empty

/-- A call that no other one interrupts is `allocateRelayBuffer`. -/
theorem run_alone (s : SharedBudget) (bytes : Nat) (allocated : Bool)
    (hle : s.pendingBufferBytes ≤ s.maxPendingBufferBytes)
    (hfits : s.fits (.allocate bytes) = true) :
    (run step s [.allocate bytes, .advance s.slots.length true, .advance s.slots.length allocated,
      .advance s.slots.length true]).map toBufferBudget =
    some (s.toBufferBudget.allocateRelayBuffer bytes allocated).1 := by
  -- with the literal that simp makes of 2 ^ 64
  have hsum : (s.pendingBufferBytes + bytes) % 18446744073709551616 =
      s.pendingBufferBytes + bytes :=
    Nat.mod_eq_of_lt (by have := of_decide_eq_true hfits; omega)
  by_cases hzero : bytes = 0
  · simp [hzero]
  by_cases hlimit : s.maxPendingBufferBytes < s.pendingBufferBytes + bytes
  · simp [hzero, hsum, hlimit]
  · cases allocated <;> simp [hzero, hsum, hlimit]

end SharedBudget

end TcpQuicProxy.LinuxRelay
