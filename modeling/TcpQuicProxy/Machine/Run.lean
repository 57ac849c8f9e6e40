import Mathlib.Data.List.Infix
import Mathlib.Data.List.Perm.Basic

/-!
# Runs of a step function and logs of effects

A machine is a partial step function. A run takes the actions of a list in
order, and `Meets` says that every action of a run is taken in a state that
satisfies a condition on the state before the step. A machine may record its
effects in a log that only grows; `Throughout P log` says that `P` held of the
log at every moment, that is of every prefix.
-/

namespace Machine

open List

variable {σ α : Type*}

/-- Take the actions of a list in order; a disabled action ends the run. -/
def run (step : σ → α → Option σ) : σ → List α → Option σ
  | s, [] => some s
  | s, a :: as => (step s a).bind (run step · as)

/-- Every action of the list is taken in a state that meets `cond`. -/
def Meets (step : σ → α → Option σ) (cond : σ → α → Prop) : σ → List α → Prop
  | _, [] => True
  | s, a :: as => cond s a ∧ ∀ t, step s a = some t → Meets step cond t as

variable {step : σ → α → Option σ} {cond cond' : σ → α → Prop}

/-- A step that is taken under a condition. -/
theorem guarded_iff {c : Prop} [Decidable c] {s t : σ} :
    (if c then some s else none) = some t ↔ c ∧ s = t := by
  rw [Option.ite_none_right_eq_some, Option.some.injEq]

/-- A step on an entry that is there, taken under a condition on it. -/
theorem bind_guarded_iff {β : Type*} {o : Option β} {c : β → Prop} [∀ x, Decidable (c x)]
    {f : β → σ} {t : σ} :
    (o.bind fun x => if c x then some (f x) else none) = some t ↔
      ∃ x, o = some x ∧ c x ∧ f x = t := by
  simp only [Option.bind_eq_some_iff, guarded_iff]

theorem run_cons {s t : σ} {a : α} {as : List α} :
    run step s (a :: as) = some t ↔ ∃ u, step s a = some u ∧ run step u as = some t := by
  simp only [run, Option.bind_eq_some_iff]

theorem run_append {s t : σ} {as bs : List α} :
    run step s (as ++ bs) = some t ↔ ∃ u, run step s as = some u ∧ run step u bs = some t := by
  induction as generalizing s with
  | nil => simp [run]
  | cons a as ih =>
    rw [cons_append, run_cons]
    constructor
    · rintro ⟨v, hv, hr⟩
      obtain ⟨u, hu, ht⟩ := ih.mp hr
      exact ⟨u, run_cons.mpr ⟨v, hv, hu⟩, ht⟩
    · rintro ⟨u, hu, ht⟩
      obtain ⟨v, hv, hr⟩ := run_cons.mp hu
      exact ⟨v, hv, ih.mpr ⟨u, hr, ht⟩⟩

/-- A run whose observation has been computed ends in a state with what follows from it. -/
theorem run_observed {β : Type*} {P : σ → Prop} {f : σ → β} {o : β} {s : σ} {as : List α}
    (hobserved : (run step s as).map f = some o) (h : ∀ t, run step s as = some t → f t = o → P t) :
    ∃ t, run step s as = some t ∧ P t := by
  obtain ⟨t, hrun, hf⟩ := Option.map_eq_some_iff.mp hobserved
  exact ⟨t, hrun, h t hrun hf⟩

/-- A state predicate kept by every step that meets `cond` holds at the end of
every run all of whose steps meet it. -/
theorem invariant_of_meets {inv : σ → Prop}
    (hstep : ∀ s a t, inv s → cond s a → step s a = some t → inv t) :
    ∀ {as : List α} {s t : σ}, inv s → Meets step cond s as → run step s as = some t → inv t := by
  intro as
  induction as with
  | nil =>
    intro s t hs _ hr
    cases hr
    exact hs
  | cons a as ih =>
    intro s t hs hm hr
    obtain ⟨u, hu, hrest⟩ := run_cons.mp hr
    exact ih (hstep s a u hs hm.1 hu) (hm.2 u hu) hrest

theorem meets_of_forall (h : ∀ s a, cond s a) :
    ∀ (as : List α) (s : σ), Meets step cond s as
  | [], _ => trivial
  | a :: as, s => ⟨h s a, fun t _ => meets_of_forall h as t⟩

/-- The unconditional form: an inductive state predicate holds after every run. -/
theorem invariant {inv : σ → Prop} (hstep : ∀ s a t, inv s → step s a = some t → inv t)
    {as : List α} {s t : σ} (hs : inv s) (hr : run step s as = some t) : inv t :=
  @invariant_of_meets σ α step (fun _ _ => True) inv (fun s a t h _ => hstep s a t h) as s t hs
    (meets_of_forall (fun _ _ => trivial) as s) hr

/-- A decidable condition can be checked along a run by executing it. -/
instance decidableMeets [∀ s a, Decidable (cond s a)] :
    ∀ (as : List α) (s : σ), Decidable (Meets step cond s as)
  | [], _ => isTrue trivial
  | a :: as, s =>
    match hs : step s a with
    | none => decidable_of_iff (cond s a) (by simp [Meets, hs])
    | some t =>
      haveI : Decidable (Meets step cond t as) := decidableMeets as t
      decidable_of_iff (cond s a ∧ Meets step cond t as) (by simp [Meets, hs])

/-- A condition on the actions alone can be added to one that a run meets. -/
theorem Meets.and_forall_mem {P : α → Prop} :
    ∀ {as : List α} {s : σ}, Meets step cond s as → (∀ a ∈ as, P a) →
      Meets step (fun s a => P a ∧ cond s a) s as
  | [], _, _, _ => trivial
  | a :: _, _, h, hP =>
    ⟨⟨hP a mem_cons_self, h.1⟩,
      fun t ht => (h.2 t ht).and_forall_mem fun b hb => hP b (mem_cons_of_mem a hb)⟩

theorem Meets.and :
    ∀ {as : List α} {s : σ}, Meets step cond s as → Meets step cond' s as →
      Meets step (fun s a => cond s a ∧ cond' s a) s as
  | [], _, _, _ => trivial
  | _ :: _, _, h, h' => ⟨⟨h.1, h'.1⟩, fun t ht => (h.2 t ht).and (h'.2 t ht)⟩

/-- A condition met along a run is met along each initial part of it. -/
theorem Meets.left :
    ∀ {as bs : List α} {s : σ}, Meets step cond s (as ++ bs) → Meets step cond s as
  | [], _, _, _ => trivial
  | _ :: _, _, _, h => ⟨h.1, fun t ht => Meets.left (h.2 t ht)⟩

/-- The rest of a run meets what the whole run meets. -/
theorem Meets.right :
    ∀ {as bs : List α} {s t : σ}, Meets step cond s (as ++ bs) → run step s as = some t →
      Meets step cond t bs
  | [], _, _, _, h, hr => Option.some.inj hr ▸ h
  | _ :: _, _, _, _, h, hr => by
    obtain ⟨u, hu, hr⟩ := run_cons.mp hr
    exact Meets.right (h.2 u hu) hr

section Log

variable {ε : Type*} {P : List ε → Prop} {log : List ε}

/-- `P` held of the log at every moment at which something had been recorded. -/
def Throughout (P : List ε → Prop) (log : List ε) : Prop := ∀ p, p <+: log → P p

theorem throughout_nil : Throughout P [] ↔ P [] := by
  constructor
  · intro h
    exact h [] nil_prefix
  · intro h p hp
    rwa [prefix_nil.mp hp]

theorem throughout_concat {e : ε} :
    Throughout P (log ++ [e]) ↔ Throughout P log ∧ P (log ++ [e]) := by
  constructor
  · intro h
    exact ⟨fun p hp => h p (hp.trans (prefix_append _ _)), h _ prefix_rfl⟩
  · rintro ⟨hlog, hlast⟩ p hp
    rcases prefix_concat_iff.mp hp with rfl | hp
    · exact hlast
    · exact hlog p hp

theorem Throughout.now (h : Throughout P log) : P log :=
  h log prefix_rfl

/-- If a step ends well exactly when it starts well and meets `cond`, then a run ends well
exactly when it starts well and meets it throughout. -/
theorem good_iff_meets (inv good : σ → Prop) (hinv : ∀ s a t, inv s → step s a = some t → inv t)
    (hstep : ∀ s a t, inv s → step s a = some t → (good t ↔ good s ∧ cond s a)) :
    ∀ {as : List α} {s t : σ}, inv s → run step s as = some t →
      (good t ↔ good s ∧ Meets step cond s as) := by
  intro as
  induction as with
  | nil =>
    intro s t _ hr
    cases hr
    simp [Meets]
  | cons a as ih =>
    intro s t hs hr
    obtain ⟨u, hu, hrest⟩ := run_cons.mp hr
    rw [ih (hinv s a u hs hu) hrest, hstep s a u hs hu, and_assoc]
    have hmeets : Meets step cond s (a :: as) ↔ cond s a ∧ Meets step cond u as := by
      simp only [Meets, hu, Option.some.injEq, forall_eq']
    rw [hmeets]

end Log

/-! ### Totals -/

/-- The sum of a measure over a log or a queue. -/
def total {α : Type} (f : α → Nat) : List α → Nat
  | [] => 0
  | a :: rest => f a + total f rest

section Total

variable {α : Type} {f g : α → Nat} {l l' : List α} {i : Nat} {a : α}

@[simp] theorem total_nil (f : α → Nat) : total f [] = 0 := rfl

@[simp] theorem total_cons (f : α → Nat) (a : α) (rest : List α) :
    total f (a :: rest) = f a + total f rest := rfl

@[simp] theorem total_append (f : α → Nat) (l l' : List α) :
    total f (l ++ l') = total f l + total f l' := by
  induction l with
  | nil => simp
  | cons a rest ih =>
    rw [cons_append, total_cons, total_cons, ih]
    omega

theorem total_mono (h : ∀ a, f a ≤ g a) : total f l ≤ total g l := by
  induction l with
  | nil => exact Nat.le_refl 0
  | cons a rest ih => exact Nat.add_le_add (h a) ih

theorem total_le_length_mul {n : Nat} (h : ∀ a ∈ l, f a ≤ n) : total f l ≤ l.length * n := by
  induction l with
  | nil => simp
  | cons a rest ih =>
    obtain ⟨ha, hrest⟩ := forall_mem_cons.mp h
    rw [total_cons, length_cons, Nat.succ_mul, Nat.add_comm]
    exact Nat.add_le_add (ih hrest) ha

/-- One entry gives way to another. -/
theorem total_set (b : α) (h : l[i]? = some a) :
    total f (l.set i b) + f a = total f l + f b := by
  induction l generalizing i with
  | nil => simp at h
  | cons x rest ih =>
    cases i with
    | zero =>
      cases h
      simp only [set_cons_zero, total_cons]
      omega
    | succ i =>
      have := ih h
      simp only [set_cons_succ, total_cons]
      omega

theorem le_total_of_mem (h : a ∈ l) : f a ≤ total f l := by
  induction l with
  | nil => cases h
  | cons b rest ih =>
    rw [total_cons]
    rcases mem_cons.mp h with rfl | h
    · omega
    · exact le_trans (ih h) (Nat.le_add_left ..)

theorem total_perm (h : l.Perm l') : total f l = total f l' := by
  induction h with
  | nil => rfl
  | cons a _ ih => rw [total_cons, total_cons, ih]
  | swap a b l =>
    simp only [total_cons]
    omega
  | trans _ _ ih ih' => exact ih.trans ih'

theorem total_eraseIdx (h : l[i]? = some a) :
    f a + total f (l.eraseIdx i) = total f l := by
  obtain ⟨hi, rfl⟩ := List.getElem?_eq_some_iff.mp h
  exact total_perm (getElem_cons_eraseIdx_perm hi)

/-- The entry gives way to another one, or is gone. -/
def replaceIdx {α : Type} (l : List α) (i : Nat) : Option α → List α
  | some b => l.set i b
  | none => l.eraseIdx i

theorem total_replaceIdx (next : Option α) (h : l[i]? = some a) :
    total f (replaceIdx l i next) + f a = total f l + next.elim 0 f := by
  cases next with
  | none =>
    rw [Nat.add_comm]
    exact total_eraseIdx h
  | some b => exact total_set b h

theorem total_eq_zero (h : ∀ a ∈ l, f a = 0) : total f l = 0 := by
  induction l with
  | nil => rfl
  | cons a rest ih =>
    obtain ⟨ha, hrest⟩ := forall_mem_cons.mp h
    rw [total_cons, ha, ih hrest]

theorem total_zipIdx {g : α × Nat → Nat} {n : Nat}
    (h : ∀ i a, l[i]? = some a → g (a, n + i) = f a) : total g (l.zipIdx n) = total f l := by
  induction l generalizing n with
  | nil => rfl
  | cons a rest ih =>
    have ha : g (a, n) = f a := h 0 a rfl
    rw [zipIdx_cons, total_cons, total_cons, ha, ih fun i b hb => ?_]
    rw [Nat.add_right_comm]
    exact h (i + 1) b hb

end Total

/-- An entry of a list in which one was replaced. -/
theorem getElem?_set_cases {l : List α} {i j : Nat} {a b : α} (h : (l.set i a)[j]? = some b) :
    j = i ∧ b = a ∨ j ≠ i ∧ l[j]? = some b := by
  rw [getElem?_set] at h
  split at h
  next heq =>
    split at h
    · exact .inl ⟨heq.symm, (Option.some.inj h).symm⟩
    · cases h
  next hne => exact .inr ⟨Ne.symm hne, h⟩

end Machine
