import Mathlib.Data.List.Basic

/-!
# Consumers of a stream that arrives in pieces

A consumer buffers what arrives and advances on what it has buffered. When an
advance is not changed by bytes that arrive after it was possible, the order of
arrivals and advances does not matter: `Path.settle_eq` says that a consumer
that cannot advance is in the state it reaches by buffering everything first.
-/

namespace Machine

/-- `advance` takes one step on what is buffered and is `none` when there is
none; `rank` bounds the number of steps that are left. -/
structure Incremental (σ α : Type*) where
  append : σ → List α → σ
  advance : σ → Option σ
  rank : σ → Nat
  append_nil : ∀ s, append s [] = s
  append_append : ∀ s d e, append (append s d) e = append s (d ++ e)
  advance_append : ∀ {s t} d, advance s = some t → advance (append s d) = some (append t d)
  rank_lt : ∀ {s t}, advance s = some t → rank t < rank s

namespace Incremental

variable {σ α : Type*} (m : Incremental σ α)

def settleFor : Nat → σ → σ
  | 0, s => s
  | n + 1, s => (m.advance s).elim s (settleFor n)

/-- Advance as often as possible. -/
def settle (s : σ) : σ := m.settleFor (m.rank s) s

theorem settleFor_of_none {s : σ} (h : m.advance s = none) : ∀ n, m.settleFor n s = s
  | 0 => rfl
  | n + 1 => by rw [settleFor, h, Option.elim_none]

/-- More turns than the rank make no difference. -/
theorem settleFor_eq :
    ∀ {n k : Nat} {s : σ}, m.rank s ≤ n → m.rank s ≤ k → m.settleFor n s = m.settleFor k s := by
  intro n
  induction n with
  | zero =>
    intro k s hn _
    cases hs : m.advance s with
    | none => rw [m.settleFor_of_none hs, m.settleFor_of_none hs]
    | some t => exact absurd (m.rank_lt hs) (by omega)
  | succ n ih =>
    intro k s hn hk
    cases hs : m.advance s with
    | none => rw [m.settleFor_of_none hs, m.settleFor_of_none hs]
    | some t =>
      have hlt := m.rank_lt hs
      cases k with
      | zero => omega
      | succ k =>
        rw [settleFor, settleFor, hs, Option.elim_some, Option.elim_some]
        exact ih (by omega) (by omega)

theorem settle_of_none {s : σ} (h : m.advance s = none) : m.settle s = s := m.settleFor_of_none h _

theorem settle_of_some {s t : σ} (h : m.advance s = some t) : m.settle s = m.settle t := by
  have hlt := m.rank_lt h
  unfold settle
  rw [m.settleFor_eq (Nat.le_refl _) (show m.rank s ≤ m.rank t + 1 + m.rank s by omega),
    show m.rank t + 1 + m.rank s = (m.rank t + m.rank s) + 1 by
      omega, settleFor, h, Option.elim_some]
  exact m.settleFor_eq (by omega) (Nat.le_refl _)

/-- The states in which everything of `d` has arrived since `s`, with advances
at any time in between. -/
inductive Path (s : σ) : List α → σ → Prop
  | refl : Path s [] s
  | arrive {d : List α} {t : σ} (e : List α) : Path s d t → Path s (d ++ e) (m.append t e)
  | advance {d : List α} {t u : σ} : Path s d t → m.advance t = some u → Path s d u

variable {m}

theorem Path.trans {s t u : σ} {d e : List α} (h : m.Path s d t) (h' : m.Path t e u) :
    m.Path s (d ++ e) u := by
  induction h' with
  | refl => rwa [List.append_nil]
  | arrive e _ ih =>
    rw [← List.append_assoc]
    exact .arrive e ih
  | advance _ hadv ih => exact .advance ih hadv

/-- Advancing before an arrival changes nothing that advancing after it does not. -/
theorem settle_append_congr {s t : σ} (e : List α) :
    m.settle s = m.settle t → m.settle (m.append s e) = m.settle (m.append t e) := by
  have key : ∀ n (s : σ), m.rank s ≤ n →
      m.settle (m.append s e) = m.settle (m.append (m.settle s) e) := by
    intro n
    induction n with
    | zero =>
      intro s hs
      cases hadv : m.advance s with
      | none => rw [m.settle_of_none hadv]
      | some t => exact absurd (m.rank_lt hadv) (by omega)
    | succ n ih =>
      intro s hs
      cases hadv : m.advance s with
      | none => rw [m.settle_of_none hadv]
      | some t =>
        have hlt := m.rank_lt hadv
        rw [m.settle_of_some (m.advance_append e hadv), m.settle_of_some hadv, ih t (by omega)]
  intro h
  rw [key _ s (Nat.le_refl _), key _ t (Nat.le_refl _), h]

/-- The order of arrivals and advances does not matter for where they settle. -/
theorem Path.settle_eq {s t : σ} {d : List α} (h : m.Path s d t) :
    m.settle t = m.settle (m.append s d) := by
  induction h with
  | refl => rw [m.append_nil]
  | arrive e _ ih => rw [settle_append_congr e ih, m.append_append]
  | advance _ hadv ih => rw [← m.settle_of_some hadv, ih]

/-- Two states that cannot advance and have seen the same input are equal. -/
theorem Path.eq_of_settled {s t u : σ} {d : List α} (h : m.Path s d t) (h' : m.Path s d u)
    (ht : m.advance t = none) (hu : m.advance u = none) : t = u := by
  rw [← m.settle_of_none ht, ← m.settle_of_none hu, h.settle_eq, h'.settle_eq]

end Incremental
end Machine
