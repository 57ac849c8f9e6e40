import Mathlib.Logic.Relation

/-!
# A queue with an overflow lane

Items go into the main lane while it has room and into the overflow lane
otherwise; one consumer takes them from both by way of its hand. The queue is
first-in first-out as long as an item only enters the main lane when the
overflow lane is empty, and the overflow lane is only emptied when the main
lane is. Behind an item that was dropped nothing enters any more, and the main
lane may be given up with it.
-/

namespace Machine

structure TwoLane (α : Type) where
  delivered : List α
  consumed : List α
  hand : List α
  main : List α
  overflow : List α
  dropped : List α

namespace TwoLane

variable {α : Type}

def empty : TwoLane α := ⟨[], [], [], [], [], []⟩

inductive Step (q : TwoLane α) : TwoLane α → Prop
  | enterMain (a : α) (hdropped : q.dropped = []) (hoverflow : q.overflow = []) :
      Step q { q with delivered := q.delivered ++ [a], main := q.main ++ [a] }
  | enterOverflow (a : α) (hdropped : q.dropped = []) :
      Step q { q with delivered := q.delivered ++ [a], overflow := q.overflow ++ [a] }
  | drop (a : α) : Step q { q with delivered := q.delivered ++ [a], dropped := q.dropped ++ [a] }
  | loadMain {batch rest : List α} (hhand : q.hand = []) (hmain : q.main = batch ++ rest) :
      Step q { q with hand := batch, main := rest }
  | loadOverflow (hhand : q.hand = []) (hmain : q.overflow = [] ∨ q.main = []) :
      Step q { q with hand := q.overflow, overflow := [] }
  | abandon (hoverflow : q.overflow = []) :
      Step q { q with main := [], dropped := q.main ++ q.dropped }
  | consume {a : α} {rest : List α} (hhand : q.hand = a :: rest) :
      Step q { q with consumed := q.consumed ++ [a], hand := rest }

/-- The items that were accepted and not consumed yet, in their order. -/
def waiting (q : TwoLane α) : List α := q.hand ++ q.main ++ q.overflow

/-- First in, first out: consumed, waiting and dropped items are the delivered ones. -/
def Fifo (q : TwoLane α) : Prop := q.consumed ++ q.waiting ++ q.dropped = q.delivered

theorem fifo_empty : (empty : TwoLane α).Fifo := rfl

theorem Fifo.step {q q' : TwoLane α} (h : q.Fifo) (hs : Step q q') : q'.Fifo := by
  unfold Fifo waiting at h ⊢
  cases hs with
  | enterMain a hdropped hoverflow => simp [← h, hdropped, hoverflow]
  | enterOverflow a hdropped => simp [← h, hdropped]
  | drop a => simp [← h]
  | loadMain hhand hmain => simpa [hhand, hmain] using h
  | loadOverflow hhand hmain =>
    rcases hmain with hmain | hmain
    · simpa [hhand, hmain] using h
    · simpa [hhand, hmain] using h
  | abandon hoverflow => simpa [hoverflow] using h
  | consume hhand => simpa [hhand] using h

theorem Fifo.steps {q q' : TwoLane α} (h : q.Fifo) (hs : Relation.ReflTransGen Step q q') :
    q'.Fifo := by
  induction hs with
  | refl => exact h
  | tail _ hs ih => exact ih.step hs

theorem Fifo.consumed_in_order {q : TwoLane α} (h : q.Fifo) : q.consumed <+: q.delivered :=
  ⟨q.waiting ++ q.dropped, by rw [← List.append_assoc]; exact h⟩

theorem Fifo.none_lost {q : TwoLane α} (h : q.Fifo) (hdropped : q.dropped = []) :
    q.consumed ++ q.waiting = q.delivered := by
  rw [← h, hdropped, List.append_nil]

end TwoLane
end Machine
