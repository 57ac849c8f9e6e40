import Mathlib.Data.List.Infix

/-!
# Searching a byte string

`find` gives the first position at which a pattern stands in a list, as
`std::string::find` does, and `find_eq_some_iff` says so. What has been found
stays found when the list grows at its end, and nothing new is found before its
old end.
-/

namespace Wire

open List Option

variable {α : Type*} [DecidableEq α]

def find (pat : List α) : List α → Option Nat
  | [] => if pat = [] then some 0 else none
  | a :: l => if pat <+: a :: l then some 0 else (find pat l).map (· + 1)

/-- The search from a position on. -/
def findFrom (pat : List α) (pos : Nat) (l : List α) : Option Nat :=
  (find pat (l.drop pos)).map (pos + ·)

/-- The last position of an element. -/
def findLast (a : α) : List α → Option Nat
  | [] => none
  | b :: l =>
    match findLast a l with
    | some i => some (i + 1)
    | none => if b = a then some 0 else none

theorem find_eq_some_iff {pat l : List α} {i : Nat} :
    find pat l = some i ↔ i ≤ l.length ∧ pat <+: l.drop i ∧ ∀ j < i, ¬pat <+: l.drop j := by
  induction l generalizing i with
  | nil =>
    unfold find
    by_cases hp : pat = []
    · subst hp
      simp only [if_pos, some.injEq, length_nil, Nat.le_zero, drop_nil, prefix_rfl]
      constructor
      · rintro rfl
        exact ⟨rfl, trivial, fun j hj => absurd hj (by omega)⟩
      · exact fun h => h.1.symm
    · simp [hp]
  | cons a l ih =>
    unfold find
    split_ifs with hp
    · constructor
      · intro h
        cases h
        exact ⟨Nat.zero_le _, hp, fun j hj => absurd hj (by omega)⟩
      · rintro ⟨-, -, hfirst⟩
        rcases Nat.eq_zero_or_pos i with rfl | hi
        · rfl
        · exact absurd hp (hfirst 0 hi)
    · cases i with
      | zero =>
        constructor
        · intro h
          obtain ⟨k, -, hk⟩ := map_eq_some_iff.mp h
          omega
        · exact fun h => absurd h.2.1 hp
      | succ i =>
        rw [show (Option.map (· + 1) (find pat l) = some (i + 1)) ↔ find pat l = some i by
          simp [map_eq_some_iff], ih]
        constructor
        · rintro ⟨hle, hpre, hfirst⟩
          refine ⟨by simpa using hle, hpre, ?_⟩
          intro j hj
          cases j with
          | zero => exact hp
          | succ j => exact hfirst j (by omega)
        · rintro ⟨hle, hpre, hfirst⟩
          exact ⟨by simpa using hle, hpre, fun j hj => hfirst (j + 1) (by omega)⟩

variable {pat l : List α} {i : Nat}

theorem find_add_length_le (h : find pat l = some i) : i + pat.length ≤ l.length := by
  obtain ⟨hle, hpre, -⟩ := find_eq_some_iff.mp h
  have hlen := hpre.length_le
  rw [length_drop] at hlen
  omega

/-- The parts of the list before, at and after the place where the pattern was found. -/
theorem find_split (h : find pat l = some i) : l = l.take i ++ pat ++ l.drop (i + pat.length) := by
  obtain ⟨-, ⟨rest, hrest⟩, -⟩ := find_eq_some_iff.mp h
  have hdrop : l.drop (i + pat.length) = rest := by
    rw [← drop_drop, ← hrest, drop_left]
  rw [hdrop, append_assoc, hrest, take_append_drop]

theorem find_append (h : find pat l = some i) (c : List α) : find pat (l ++ c) = some i := by
  have hlen := find_add_length_le h
  obtain ⟨hle, hpre, hfirst⟩ := find_eq_some_iff.mp h
  refine find_eq_some_iff.mpr ⟨by rw [length_append]; omega, ?_, ?_⟩
  · rw [drop_append_of_le_length hle]
    exact hpre.trans (prefix_append _ _)
  · intro j hj hpj
    rw [drop_append_of_le_length (by omega)] at hpj
    refine hfirst j hj (prefix_of_prefix_length_le hpj (prefix_append _ _) ?_)
    rw [length_drop]
    omega

/-- A pattern found in a longer list within the old part was found there before. -/
theorem find_of_append {c : List α} (h : find pat (l ++ c) = some i)
    (hi : i + pat.length ≤ l.length) :
    find pat l = some i := by
  obtain ⟨-, hpre, hfirst⟩ := find_eq_some_iff.mp h
  refine find_eq_some_iff.mpr ⟨by omega, ?_, ?_⟩
  · rw [drop_append_of_le_length (by omega)] at hpre
    refine prefix_of_prefix_length_le hpre (prefix_append _ _) ?_
    rw [length_drop]
    omega
  · intro j hj hpj
    refine hfirst j hj ?_
    rw [drop_append_of_le_length (by omega)]
    exact hpj.trans (prefix_append _ _)

/-- A pattern that stands somewhere is found there or earlier. -/
theorem exists_find_le (pat : List α) {j : Nat} (hj : j ≤ l.length) (hpre : pat <+: l.drop j) :
    ∃ i ≤ j, find pat l = some i := by
  induction l generalizing j with
  | nil =>
    obtain rfl : pat = [] := prefix_nil.mp (by simpa using hpre)
    exact ⟨0, Nat.zero_le j, rfl⟩
  | cons a l ih =>
    by_cases hhere : pat <+: a :: l
    · exact ⟨0, Nat.zero_le j, by rw [find, if_pos hhere]⟩
    · cases j with
      | zero => exact absurd hpre hhere
      | succ j =>
        obtain ⟨i, hi, hfind⟩ := ih (by simpa using hj) hpre
        exact ⟨i + 1, by omega, by rw [find, if_neg hhere, hfind, map_some]⟩

/-! ### Single elements -/

variable {a : α}

theorem find_singleton (h : find [a] l = some i) :
    l = l.take i ++ a :: l.drop (i + 1) ∧ a ∉ l.take i := by
  refine ⟨by simpa [append_assoc] using find_split h, ?_⟩
  intro hmem
  obtain ⟨j, hj, ha⟩ := mem_iff_getElem.mp hmem
  rw [length_take] at hj
  rw [getElem_take] at ha
  obtain ⟨-, -, hfirst⟩ := find_eq_some_iff.mp h
  refine hfirst j (by omega) ⟨l.drop (j + 1), ?_⟩
  rw [drop_eq_getElem_cons (show j < l.length by omega), ha]
  rfl

theorem find_singleton_of_not_mem {pre : List α} (h : a ∉ pre) (post : List α) :
    find [a] (pre ++ a :: post) = some pre.length := by
  induction pre with
  | nil => rw [nil_append, find, if_pos ⟨post, rfl⟩, length_nil]
  | cons b pre ih =>
    obtain ⟨hne, hpre⟩ := not_or.mp (mt mem_cons.mpr h)
    rw [cons_append, find, ih hpre, if_neg, map_some, length_cons]
    rintro ⟨t, ht⟩
    exact hne (cons.inj ht).1

theorem not_mem_of_find_eq_none (h : find [a] l = none) : a ∉ l := by
  intro hmem
  obtain ⟨pre, post, rfl⟩ := append_of_mem hmem
  obtain ⟨i, -, hi⟩ := exists_find_le [a] (l := pre ++ a :: post) (j := pre.length) (by simp)
    ⟨post, by simp⟩
  rw [h] at hi
  cases hi

theorem findLast_split (h : findLast a l = some i) : l = l.take i ++ a :: l.drop (i + 1) := by
  induction l generalizing i with
  | nil => cases h
  | cons b l ih =>
    unfold findLast at h
    cases hlast : findLast a l with
    | some j =>
      simp only [hlast, some.injEq] at h
      subst h
      exact congrArg (b :: ·) (ih hlast)
    | none =>
      simp only [hlast] at h
      split_ifs at h with hb
      cases h
      rw [hb]
      rfl

end Wire
