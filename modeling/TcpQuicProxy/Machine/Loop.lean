import Mathlib.Data.List.Basic

/-!
# Loops with a step budget

A loop body either goes on with new local variables or leaves the loop with a
result. `loop` runs it for at most a given number of turns, and `loopMeets`
checks a condition at the beginning of each turn. The rule `loop_rule` carries
an invariant through every turn, and `loop_rule_of_meets` may use the condition
on the way.
-/

namespace Machine

variable {σ τ : Type*}

/-- At most `n` turns of `body`; `cut` gives the result of a loop cut short. -/
def loop (body : σ → σ ⊕ τ) (cut : σ → τ) : Nat → σ → τ
  | 0, s => cut s
  | n + 1, s =>
    match body s with
    | .inl s' => loop body cut n s'
    | .inr t => t

variable {body : σ → σ ⊕ τ} {cut : σ → τ}

theorem loop_next {n : Nat} {s s' : σ} (h : body s = .inl s') :
    loop body cut (n + 1) s = loop body cut n s' := by
  simp only [loop, h]

theorem loop_leave {n : Nat} {s : σ} {t : τ} (h : body s = .inr t) :
    loop body cut (n + 1) s = t := by
  simp only [loop, h]

/-- Every turn of the loop begins with variables that pass `cond`. -/
def loopMeets (cond : σ → Bool) (body : σ → σ ⊕ τ) : Nat → σ → Bool
  | 0, _ => true
  | n + 1, s =>
    cond s &&
      match body s with
      | .inl s' => loopMeets cond body n s'
      | .inr _ => true

theorem loop_rule_of_meets {cond : σ → Bool} (inv : σ → Prop) (post : τ → Prop)
    (hnext : ∀ s s', inv s → cond s = true → body s = .inl s' → inv s')
    (hleave : ∀ s t, inv s → cond s = true → body s = .inr t → post t)
    (hcut : ∀ s, inv s → post (cut s)) :
    ∀ (n : Nat) {s : σ}, inv s → loopMeets cond body n s = true → post (loop body cut n s) := by
  intro n
  induction n with
  | zero =>
    intro s hs _
    exact hcut s hs
  | succ n ih =>
    intro s hs hmeets
    rw [loopMeets, Bool.and_eq_true] at hmeets
    cases hb : body s with
    | inl s' =>
      rw [loop_next hb]
      rw [hb] at hmeets
      exact ih (hnext s s' hs hmeets.1 hb) hmeets.2
    | inr t =>
      rw [loop_leave hb]
      exact hleave s t hs hmeets.1 hb

theorem loopMeets_true (n : Nat) (s : σ) : loopMeets (fun _ => true) body n s = true := by
  induction n generalizing s with
  | zero => rfl
  | succ n ih =>
    rw [loopMeets, Bool.true_and]
    split
    · exact ih _
    · rfl

theorem loop_rule (inv : σ → Prop) (post : τ → Prop)
    (hnext : ∀ s s', inv s → body s = .inl s' → inv s')
    (hleave : ∀ s t, inv s → body s = .inr t → post t)
    (hcut : ∀ s, inv s → post (cut s)) (n : Nat) {s : σ} (hs : inv s) : post (loop body cut n s) :=
  loop_rule_of_meets inv post (fun s s' hinv _ => hnext s s' hinv)
    (fun s t hinv _ => hleave s t hinv) hcut n hs
    (loopMeets_true n s)

end Machine
