import Mathlib.Data.List.Nodup
import TcpQuicProxy.Machine.Run

/-!
# The accounting of terminal sinks

A `TqTerminalSink` is counted in `g_terminalSinkPending` from its creation until its
pending mark is taken, by a terminal event, by `CompleteAlreadyTerminal` or by its
destructor. These race with each other: a completion is a frame that advances by one
atomic operation at a time, and any number of them may be under way.
-/

namespace TcpQuicProxy.StreamLifetime

open List Option

/-- `Pending_` and what became of it: set behind the increment of the counter, taken by
an exchange, and given back to the counter. -/
inductive SinkMark where
  | arming
  | pending
  | releasing
  | released
  deriving DecidableEq

structure Sink where
  ledger : Nat
  mark : SinkMark := .arming
  terminalCallbackInvoked : Bool := false
  /-- How often `OnTerminal_` was run. -/
  runs : Nat := 0
  alive : Bool := true
  deriving DecidableEq

/-- The next operation of `CompleteTerminalOnce`, or of the destructor. -/
inductive SinkPc where
  | completeAccounting
  | releasePending
  | decrement
  | invokeCallback
  | returned
  deriving DecidableEq

/-- A call of `CompleteTerminalOnce`, or the destructor. -/
structure SinkFrame where
  sink : Nat
  destroying : Bool
  pc : SinkPc
  deriving DecidableEq

structure Sinks where
  terminalSinkPending : Nat := 0
  /-- How often the loop of `ReleaseTerminalSinkPending` found the counter at zero. -/
  underflows : Nat := 0
  sinks : List Sink := []
  /-- The ledgers whose accounting is complete, each with the sink that completed it. -/
  accounted : List (Nat × Nat) := []
  frames : List SinkFrame := []
  deriving DecidableEq

inductive Sinks.Action where
  /-- `TqTerminalSink::Create`; a failed one deletes a sink that was never counted. -/
  | create (ledger : Nat) (allocated : Bool)
  | armPending (sink : Nat)
  /-- A terminal event or `CompleteAlreadyTerminal`. -/
  | completeTerminalOnce (sink : Nat)
  | destroy (sink : Nat)
  | advance (frame : Nat)
  deriving DecidableEq

def SinkPc.decrements : SinkPc → Nat
  | .decrement => 1
  | _ => 0

/-- The exchange of `Pending_` has been made. -/
def SinkPc.released : SinkPc → Bool
  | .completeAccounting | .releasePending => false
  | _ => true

def SinkMark.releases : SinkMark → Nat
  | .releasing => 1
  | _ => 0

def SinkMark.taken : SinkMark → Bool
  | .arming | .pending => false
  | _ => true

/-- What a sink stands for in the counter. -/
def SinkMark.counts : SinkMark → Nat
  | .released => 0
  | _ => 1

/-- Where a call goes on behind `ReleasePendingOnce`. -/
def SinkFrame.afterRelease (f : SinkFrame) : SinkPc :=
  if f.destroying then .returned else .invokeCallback

namespace Sinks

variable (s : Sinks)

def setSink (i : Nat) (x : Sink) : Sinks := { s with sinks := s.sinks.set i x }

/-- Frame `k` goes on at `pc` and leaves its sink as `x`. -/
def goOn (k : Nat) (f : SinkFrame) (pc : SinkPc) (x : Sink) : Sinks :=
  { s with sinks := s.sinks.set f.sink x, frames := s.frames.set k { f with pc } }

/-- One atomic operation of frame `k` on its sink. -/
def advance (k : Nat) (f : SinkFrame) (x : Sink) : Option Sinks :=
  match f.pc with
  | .completeAccounting =>
    let accounted :=
      if s.accounted.any (·.1 == x.ledger) then s.accounted
      else s.accounted ++ [(x.ledger, f.sink)]
    some ({ s with accounted }.goOn k f .releasePending x)
  | .releasePending =>
    some (if x.mark = .pending then s.goOn k f .decrement { x with mark := .releasing }
      else s.goOn k f f.afterRelease x)
  | .decrement =>
    let counted : Sinks :=
      if s.terminalSinkPending = 0 then { s with underflows := s.underflows + 1 }
      else { s with terminalSinkPending := s.terminalSinkPending - 1 }
    some (counted.goOn k f f.afterRelease { x with mark := .released })
  | .invokeCallback =>
    let runs := if x.terminalCallbackInvoked then x.runs else x.runs + 1
    some (s.goOn k f .returned { x with terminalCallbackInvoked := true, runs })
  | .returned => none

/-- A sink is referenced by the frames that work on it. -/
def referenced (i : Nat) : Bool := s.frames.any fun f => f.sink == i && f.pc != .returned

def step (s : Sinks) : Action → Option Sinks
  | .create ledger allocated =>
    some (if allocated then
      { s with
        terminalSinkPending := s.terminalSinkPending + 1
        sinks := s.sinks ++ [{ ledger }] }
      else s)
  | .armPending i => s.sinks[i]?.bind fun x =>
      if x.mark = .arming then some (s.setSink i { x with mark := .pending }) else none
  | .completeTerminalOnce i => s.sinks[i]?.bind fun x =>
      if x.alive && x.mark != .arming then
        some { s with frames := s.frames ++ [⟨i, false, .completeAccounting⟩] }
      else none
  | .destroy i => s.sinks[i]?.bind fun x =>
      if x.alive && x.mark != .arming && !s.referenced i then
        some { s.setSink i { x with alive := false } with
          frames := s.frames ++ [⟨i, true, .releasePending⟩] }
      else none
  | .advance k => s.frames[k]?.bind fun f => s.sinks[f.sink]?.bind fun x => s.advance k f x

/-- Sink `i` is counted: no call has made its release, or the one that took the mark has
still to decrement. -/
def counted (i : Nat) : Bool :=
  s.frames.all (fun f => f.sink != i || !f.pc.released) ||
    s.frames.any fun f => f.sink == i && f.pc == .decrement

/-- `CompleteTerminalOnce` has returned for sink `i`. -/
def completed (i : Nat) : Bool :=
  s.frames.any fun f => f.sink == i && !f.destroying && f.pc == .returned

def countedSinks : Nat :=
  Machine.total (fun p : Sink × Nat => if s.counted p.2 then 1 else 0) s.sinks.zipIdx

/-- The live sinks that have not completed. -/
def uncompleted : Nat :=
  Machine.total (fun p : Sink × Nat => if p.1.alive && !s.completed p.2 then 1 else 0)
    s.sinks.zipIdx

/-- What the frames of sink `i` weigh together. -/
def load (frames : List SinkFrame) (weight : SinkFrame → Nat) (i : Nat) : Nat :=
  Machine.total (fun f : SinkFrame => if f.sink = i then weight f else 0) frames

/-- A sink is as its frames have left it. -/
structure Fits (frames : List SinkFrame) (i : Nat) (x : Sink) : Prop where
  decrementing : load frames (·.pc.decrements) i = x.mark.releases
  released : 0 < load frames (·.pc.released.toNat) i ↔ x.mark.taken
  destroyed : 0 < load frames (·.destroying.toNat) i ↔ x.alive = false
  armed : 0 < load frames (fun _ => 1) i → x.mark ≠ .arming
  runs : x.runs = if x.terminalCallbackInvoked then 1 else 0

structure Counted (s : Sinks) : Prop where
  pending : s.terminalSinkPending = Machine.total (fun x : Sink => x.mark.counts) s.sinks
  underflows : s.underflows = 0
  fits : ∀ i x, s.sinks[i]? = some x → Fits s.frames i x
  bounded : ∀ f ∈ s.frames, f.sink < s.sinks.length
  ledgers : (s.accounted.map Prod.fst).Nodup
  owners : ∀ e ∈ s.accounted, s.sinks[e.2]?.map Sink.ledger = some e.1

variable {s t : Sinks} {a : Action} {i j k : Nat} {x y : Sink} {f : SinkFrame} {pc : SinkPc}
  {frames : List SinkFrame} {weight : SinkFrame → Nat}

theorem load_pos_iff : 0 < load frames weight i ↔ ∃ f ∈ frames, f.sink = i ∧ 0 < weight f := by
  refine ⟨fun hpos => ?_, fun ⟨f, hf, hi, hw⟩ => ?_⟩
  · by_contra hnone
    refine hpos.ne' (Machine.total_eq_zero fun f hf => ?_)
    by_cases hi : f.sink = i
    · rw [if_pos hi]
      exact Nat.eq_zero_of_not_pos fun hw => hnone ⟨f, hf, hi, hw⟩
    · exact if_neg hi
  · refine lt_of_lt_of_le ?_ (Machine.le_total_of_mem hf)
    rwa [if_pos hi]

theorem toNat_pos_iff {b : Bool} : 0 < b.toNat ↔ b = true := by
  cases b <;> simp

theorem load_append : load (frames ++ [f]) weight i =
    load frames weight i + if f.sink = i then weight f else 0 := by
  rw [load, Machine.total_append, Machine.total_cons, Machine.total_nil, Nat.add_zero, load]

/-- Frame `k` goes on: its sink's load changes by what the frame weighs. -/
theorem load_set (hf : frames[k]? = some f) (pc : SinkPc) (weight : SinkFrame → Nat) (i : Nat) :
    load (frames.set k { f with pc }) weight i + (if f.sink = i then weight f else 0) =
      load frames weight i + if f.sink = i then weight { f with pc } else 0 :=
  Machine.total_set _ hf

theorem Fits.of_load (h : Fits s.frames i x)
    (hload : ∀ weight, load frames weight i = load s.frames weight i) : Fits frames i x := by
  refine ⟨?_, ?_, ?_, ?_, h.runs⟩
  · rw [hload, h.decrementing]
  · rw [hload, h.released]
  · rw [hload, h.destroyed]
  · rw [hload]
    exact h.armed

section

variable (h : Counted s)
include h

/-- Sink `i` and its frames change, and the counter with the mark of the sink. -/
theorem Counted.replace {pending : Nat} (hx : s.sinks[i]? = some x) (hfits : Fits frames i y)
    (hothers : ∀ weight j, i ≠ j → load frames weight j = load s.frames weight j)
    (hbounded : ∀ f ∈ frames, f.sink < s.sinks.length)
    (hpending : pending + x.mark.counts = s.terminalSinkPending + y.mark.counts)
    (hledger : y.ledger = x.ledger) :
    Counted { s with terminalSinkPending := pending, sinks := s.sinks.set i y, frames } := by
  obtain ⟨hlt, -⟩ := List.getElem?_eq_some_iff.mp hx
  refine ⟨?_, h.underflows, fun j z hz => ?_, fun f hf => ?_, h.ledgers, fun e he => ?_⟩
  · have hsinks := Machine.total_set (f := fun x : Sink => x.mark.counts) y hx
    have hold := h.pending
    dsimp only at hsinks ⊢
    omega
  · by_cases hi : i = j
    · subst hi
      rw [getElem?_set_self hlt] at hz
      cases hz
      exact hfits
    · rw [getElem?_set_ne hi] at hz
      exact (h.fits j z hz).of_load fun weight => hothers weight j hi
  · rw [length_set]
    exact hbounded f hf
  · have howner := h.owners e he
    by_cases hi : i = e.2
    · subst hi
      rw [getElem?_set_self hlt, map_some, hledger, ← howner, hx, map_some]
    · rw [getElem?_set_ne hi, howner]

/-- One operation of a frame. -/
theorem Counted.goOn {pending : Nat} (hf : s.frames[k]? = some f) (hx : s.sinks[f.sink]? = some x)
    (hpending : pending + x.mark.counts = s.terminalSinkPending + y.mark.counts)
    (hdecrements : pc.decrements + x.mark.releases = f.pc.decrements + y.mark.releases)
    (hreleased : f.pc.released → pc.released)
    (htaken : y.mark.taken = (x.mark.taken || pc.released)) (harmed : y.mark ≠ .arming)
    (hledger : y.ledger = x.ledger) (halive : y.alive = x.alive)
    (hruns : y.runs = if y.terminalCallbackInvoked then 1 else 0) :
    Counted ({ s with terminalSinkPending := pending }.goOn k f pc y) := by
  have hfits := h.fits _ x hx
  have hset (weight : SinkFrame → Nat) := load_set hf pc weight f.sink
  simp only [↓reduceIte] at hset
  refine h.replace hx ⟨?_, ?_, ?_, fun _ => harmed, hruns⟩ (fun weight j hj => ?_) (fun g hg => ?_)
    hpending hledger
  · have hload := hset (·.pc.decrements)
    have hold := hfits.decrementing
    dsimp only at hload ⊢
    omega
  · have hload := hset (·.pc.released.toNat)
    have hold := hfits.released
    have hweight : f.pc.released.toNat ≤ load s.frames (·.pc.released.toNat) f.sink := by
      have hle := Machine.le_total_of_mem (mem_of_getElem? hf)
        (f := fun g : SinkFrame => if g.sink = f.sink then g.pc.released.toNat else 0)
      rwa [if_pos rfl] at hle
    rw [htaken, Bool.or_eq_true, ← hold]
    revert hreleased hload hweight
    cases f.pc.released <;> cases pc.released <;> simp <;> omega
  · have hload := hset (·.destroying.toNat)
    rw [halive, ← hfits.destroyed]
    dsimp only at hload ⊢
    omega
  · have hload := load_set hf pc weight j
    rwa [if_neg hj, if_neg hj] at hload
  · rcases mem_or_eq_of_mem_set hg with hg | rfl
    · exact h.bounded g hg
    · exact h.bounded f (mem_of_getElem? hf)

theorem Counted.account (hx : s.sinks[i]? = some x) :
    Counted { s with
      accounted :=
        if s.accounted.any (·.1 == x.ledger) then s.accounted
        else s.accounted ++ [(x.ledger, i)] } := by
  split
  · exact ⟨h.pending, h.underflows, h.fits, h.bounded, h.ledgers, h.owners⟩
  · rename_i hnew
    refine ⟨h.pending, h.underflows, h.fits, h.bounded, ?_, ?_⟩
    · rw [map_append, map_singleton, nodup_append]
      refine ⟨h.ledgers, by simp, fun l hl m hm heq => hnew ?_⟩
      obtain ⟨e, he, rfl⟩ := List.mem_map.mp hl
      rw [mem_singleton] at hm
      exact List.any_eq_true.mpr ⟨e, he, by simp [heq, hm]⟩
    · rw [forall_mem_append, forall_mem_singleton]
      exact ⟨h.owners, by rw [hx, map_some]⟩

theorem Counted.advance (hf : s.frames[k]? = some f) (hx : s.sinks[f.sink]? = some x)
    (hadvance : s.advance k f x = some t) : Counted t := by
  have hfits := h.fits _ x hx
  have harmed := hfits.armed (load_pos_iff.mpr ⟨f, mem_of_getElem? hf, rfl, Nat.one_pos⟩)
  have hafter : f.afterRelease.decrements = 0 ∧ f.afterRelease.released = true := by
    unfold SinkFrame.afterRelease
    split <;> exact ⟨rfl, rfl⟩
  cases hpc : f.pc with
  | completeAccounting =>
    rw [Sinks.advance, hpc] at hadvance
    cases hadvance
    exact (h.account hx).goOn hf hx rfl (by rw [hpc]; rfl) (by simp [hpc, SinkPc.released])
      (by simp [SinkPc.released]) harmed rfl rfl hfits.runs
  | releasePending =>
    rw [Sinks.advance, hpc] at hadvance
    cases hadvance
    split
    · rename_i hmark
      exact h.goOn hf hx (by simp [hmark, SinkMark.counts]) (by rw [hpc, hmark]; rfl)
        (by simp [SinkPc.released]) (by simp [hmark, SinkMark.taken, SinkPc.released]) nofun rfl
        rfl hfits.runs
    · rename_i hmark
      have htaken : x.mark.taken := by
        cases hx : x.mark with
        | arming => exact absurd hx harmed
        | pending => exact absurd hx hmark
        | releasing => rfl
        | released => rfl
      exact h.goOn hf hx rfl (by rw [hpc, hafter.1]; rfl) (fun _ => hafter.2)
        (by simp [htaken]) harmed rfl rfl hfits.runs
  | decrement =>
    -- the sink is counted until this operation, so the counter is not zero
    have hmark : x.mark = .releasing := by
      have hpos : 0 < load s.frames (·.pc.decrements) f.sink :=
        load_pos_iff.mpr ⟨f, mem_of_getElem? hf, rfl, by simp [hpc, SinkPc.decrements]⟩
      rw [hfits.decrementing] at hpos
      revert hpos
      cases x.mark <;> simp [SinkMark.releases]
    have hcounted : 1 ≤ s.terminalSinkPending := by
      have hle := Machine.le_total_of_mem (f := fun x : Sink => x.mark.counts)
        (mem_of_getElem? hx)
      rwa [← h.pending, hmark] at hle
    simp only [Sinks.advance, hpc, if_neg (show s.terminalSinkPending ≠ 0 by omega),
      some.injEq] at hadvance
    obtain rfl := hadvance
    refine h.goOn hf hx ?_ (by rw [hpc, hmark, hafter.1]; rfl) (fun _ => hafter.2)
      (by simp [hafter.2, SinkMark.taken]) nofun rfl rfl hfits.runs
    simp only [hmark, SinkMark.counts]
    omega
  | invokeCallback =>
    rw [Sinks.advance, hpc] at hadvance
    cases hadvance
    have htaken : x.mark.taken :=
      hfits.released.mp
        (load_pos_iff.mpr ⟨f, mem_of_getElem? hf, rfl, by simp [hpc, SinkPc.released]⟩)
    refine h.goOn hf hx rfl (by rw [hpc]; rfl) (fun _ => rfl) (by simp [htaken]) harmed rfl rfl ?_
    cases hinvoked : x.terminalCallbackInvoked <;> simp [hfits.runs, hinvoked]
  | returned =>
    rw [Sinks.advance, hpc] at hadvance
    cases hadvance

/-- A call that has not come to its release yet; a destructor leaves its sink dead. -/
theorem Counted.enter (hx : s.sinks[f.sink]? = some x) (hpc : f.pc.released = false)
    (harmed : x.mark ≠ .arming) :
    Counted { s with
      sinks := s.sinks.set f.sink { x with alive := x.alive && !f.destroying }
      frames := s.frames ++ [f] } := by
  have hfits := h.fits _ x hx
  have hdecrements : f.pc.decrements = 0 := by
    revert hpc
    cases f.pc <;> simp [SinkPc.released, SinkPc.decrements]
  refine h.replace hx ⟨?_, ?_, ?_, fun _ => harmed, hfits.runs⟩ (fun weight j hj => ?_) ?_ rfl rfl
  · rw [load_append, hdecrements, ite_self, hfits.decrementing]
    rfl
  · rw [load_append, hpc, Bool.toNat_false, ite_self]
    exact hfits.released
  · rw [load_append, if_pos rfl, Nat.add_pos_iff_pos_or_pos, hfits.destroyed]
    cases f.destroying <;> simp
  · rw [load_append, if_neg hj, Nat.add_zero]
  · rw [forall_mem_append, forall_mem_singleton]
    exact ⟨h.bounded, (List.getElem?_eq_some_iff.mp hx).1⟩

theorem Counted.create (ledger : Nat) :
    Counted { s with
      terminalSinkPending := s.terminalSinkPending + 1
      sinks := s.sinks ++ [{ ledger }] } := by
  refine ⟨by simp [h.pending, SinkMark.counts], h.underflows, fun i x hx => ?_, fun f hf => ?_,
    h.ledgers, fun e he => ?_⟩
  · rcases lt_or_ge i s.sinks.length with hlt | hge
    · rw [getElem?_append_left hlt] at hx
      exact h.fits i x hx
    · rw [getElem?_append_right hge, getElem?_singleton] at hx
      split at hx
      · cases hx
        -- no frame works on a sink before it exists
        have hnone : ∀ weight, load s.frames weight i = 0 := fun weight => by
          refine Machine.total_eq_zero fun f hf => if_neg ?_
          have hlt := h.bounded f hf
          omega
        exact ⟨hnone _, by simp [hnone, SinkMark.taken], by simp [hnone], by simp [hnone], rfl⟩
      · cases hx
  · rw [length_append]
    exact Nat.lt_add_right _ (h.bounded f hf)
  · have howner := h.owners e he
    obtain ⟨x, hx, -⟩ := map_eq_some_iff.mp howner
    obtain ⟨hlt, -⟩ := List.getElem?_eq_some_iff.mp hx
    rwa [getElem?_append_left hlt]

theorem Counted.step (hstep : s.step a = some t) : Counted t := by
  cases a with
  | create ledger allocated =>
    cases hstep
    cases allocated with
    | false => exact h
    | true => exact h.create ledger
  | armPending i =>
    obtain ⟨x, hx, hstep⟩ := bind_eq_some_iff.mp hstep
    split at hstep
    · rename_i hmark
      cases hstep
      have hfits := h.fits i x hx
      refine h.replace hx ⟨?_, ?_, hfits.destroyed, nofun, hfits.runs⟩ (fun _ _ _ => rfl) h.bounded
        (by rw [hmark]; rfl) rfl
      · rw [hfits.decrementing, hmark]
        rfl
      · rw [hfits.released, hmark]
        rfl
    · cases hstep
  | completeTerminalOnce i =>
    obtain ⟨x, hx, hstep⟩ := bind_eq_some_iff.mp hstep
    split at hstep
    · rename_i hguard
      cases hstep
      have hentered := h.enter (f := ⟨i, false, .completeAccounting⟩) hx rfl (by simp_all)
      simp only [Bool.not_false, Bool.and_true] at hentered
      obtain ⟨hlt, rfl⟩ := List.getElem?_eq_some_iff.mp hx
      rwa [set_getElem_self] at hentered
    · cases hstep
  | destroy i =>
    obtain ⟨x, hx, hstep⟩ := bind_eq_some_iff.mp hstep
    split at hstep
    · rename_i hguard
      cases hstep
      have hentered := h.enter (f := ⟨i, true, .releasePending⟩) hx rfl (by simp_all)
      simp only [Bool.not_true, Bool.and_false] at hentered
      exact hentered
    · cases hstep
  | advance k =>
    obtain ⟨f, hf, hstep⟩ := bind_eq_some_iff.mp hstep
    obtain ⟨x, hx, hstep⟩ := bind_eq_some_iff.mp hstep
    exact h.advance hf hx hstep

/-- What a sink counts for can be read off the calls that were made on it. -/
theorem Counted.counts (hx : s.sinks[i]? = some x) :
    (if s.counted i then 1 else 0) = x.mark.counts := by
  have hfits := h.fits i x hx
  have hdecrementing : s.frames.any (fun f => f.sink == i && f.pc == .decrement) ↔
      x.mark = .releasing := by
    have hpos : 0 < load s.frames (·.pc.decrements) i ↔ x.mark = .releasing := by
      rw [hfits.decrementing]
      cases x.mark <;> simp [SinkMark.releases]
    rw [← hpos, load_pos_iff]
    have hpc : ∀ pc : SinkPc, 0 < pc.decrements ↔ pc = .decrement := by
      rintro (_ | _ | _ | _ | _) <;> simp [SinkPc.decrements]
    simp [hpc]
  have hunreleased : s.frames.all (fun f => f.sink != i || !f.pc.released) ↔ ¬x.mark.taken := by
    rw [← hfits.released, load_pos_iff]
    simp [toNat_pos_iff, imp_iff_not_or]
  have hcounted : s.counted i ↔ ¬x.mark.taken ∨ x.mark = .releasing := by
    rw [counted, Bool.or_eq_true, hunreleased, hdecrementing]
  simp only [hcounted]
  cases x.mark <;> simp [SinkMark.taken, SinkMark.counts]

/-- Once all calls have returned, a sink counts if it lives and has not completed. -/
theorem Counted.counted_iff (hidle : ∀ f ∈ s.frames, f.pc = .returned)
    (hx : s.sinks[i]? = some x) : s.counted i ↔ x.alive && !s.completed i := by
  have hnone : s.counted i ↔ ∀ f ∈ s.frames, f.sink ≠ i := by
    simp only [counted, Bool.or_eq_true, List.all_eq_true, List.any_eq_true]
    grind [SinkPc.released]
  have hcompleted : s.completed i ↔ ∃ f ∈ s.frames, f.sink = i ∧ f.destroying = false := by
    simp only [completed, List.any_eq_true]
    grind
  have hdestroyed : x.alive = false ↔ ∃ f ∈ s.frames, f.sink = i ∧ f.destroying = true := by
    rw [← (h.fits i x hx).destroyed, load_pos_iff]
    simp only [toNat_pos_iff]
  rw [hnone, Bool.and_eq_true, Bool.not_eq_true', ← Bool.not_eq_false, hdestroyed,
    ← Bool.not_eq_true, hcompleted]
  grind

end

/-- **Sink accounting.** A sink counts from its creation until a call has given its mark
back, so that, between calls, the counter is the number of live sinks that have not
completed; it never underflows. Each sink runs its action at most once and completes an
accounting at most once. -/
theorem sink_accounting (actions : List Action) (hrun : Machine.run step {} actions = some s) :
    s.terminalSinkPending = s.countedSinks ∧
      ((∀ f ∈ s.frames, f.pc = .returned) → s.terminalSinkPending = s.uncompleted) ∧
      (∀ f ∈ s.frames, f.pc.released → ∃ x, s.sinks[f.sink]? = some x ∧ x.mark.taken) ∧
      s.underflows = 0 ∧ (∀ x ∈ s.sinks, x.runs ≤ 1) ∧
      (s.accounted.map Prod.fst).Nodup ∧ (s.accounted.map Prod.snd).Nodup := by
  have hstart : Counted {} := ⟨rfl, rfl, by simp, by simp, nodup_nil, by simp⟩
  have h : Counted s := Machine.invariant (fun _ _ _ h hstep => h.step hstep) hstart hrun
  refine ⟨?_, fun hidle => ?_, fun f hf hreleased => ?_, h.underflows, fun x hx => ?_,
    h.ledgers, ?_⟩
  · rw [h.pending]
    refine (Machine.total_zipIdx fun i x hx => ?_).symm
    rw [Nat.zero_add, h.counts hx]
  · rw [h.pending]
    refine (Machine.total_zipIdx fun i x hx => ?_).symm
    rw [Nat.zero_add, ← h.counts hx]
    exact if_congr (h.counted_iff hidle hx).symm rfl rfl
  · have hlt := h.bounded f hf
    refine ⟨s.sinks[f.sink], getElem?_eq_getElem hlt, ?_⟩
    refine (h.fits f.sink _ (getElem?_eq_getElem hlt)).released.mp (load_pos_iff.mpr ?_)
    exact ⟨f, hf, rfl, by rw [hreleased]; exact Nat.one_pos⟩
  · obtain ⟨i, hi⟩ := getElem?_of_mem hx
    rw [(h.fits i x hi).runs]
    split <;> omega
  · -- a sink has one ledger, so two accountings of it would be two of its ledger
    refine Nodup.of_map (fun i => (s.sinks[i]?.map Sink.ledger).getD 0) ?_
    have hledgers : (s.accounted.map Prod.snd).map (fun i => (s.sinks[i]?.map Sink.ledger).getD 0) =
        s.accounted.map Prod.fst := by
      rw [List.map_map]
      refine map_congr_left fun e he => ?_
      rw [Function.comp_apply, h.owners e he, getD_some]
    rw [hledgers]
    exact h.ledgers

/-- A terminal event races with `CompleteAlreadyTerminal`, another sink is destroyed
without either, and a third one lives on. -/
theorem racingCompletions_accounted :
    ∃ s, Machine.run step {} [.create 7 true, .armPending 0, .create 8 false, .create 8 true,
        .armPending 1, .create 9 true, .armPending 2, .completeTerminalOnce 0,
        .completeTerminalOnce 0, .destroy 1, .advance 0, .advance 1, .advance 1, .advance 0,
        .advance 2, .advance 2, .advance 0, .advance 1, .advance 1] = some s ∧
      s.sinks.map Sink.alive = [true, false, true] ∧ s.terminalSinkPending = 1 ∧
      s.terminalSinkPending = s.uncompleted := by
  refine Machine.run_observed
    (f := fun s => (s.sinks.map Sink.alive, s.terminalSinkPending, s.frames.map SinkFrame.pc))
    (o := ([true, false, true], 1, replicate 3 .returned)) (by decide) fun s hs hobs => ?_
  obtain ⟨halive, hrest⟩ := Prod.mk.inj hobs
  obtain ⟨hpending, hframes⟩ := Prod.mk.inj hrest
  refine ⟨halive, hpending, (sink_accounting _ hs).2.1 fun f hf => ?_⟩
  exact eq_of_mem_replicate (hframes ▸ mem_map_of_mem hf)

end Sinks
end TcpQuicProxy.StreamLifetime
