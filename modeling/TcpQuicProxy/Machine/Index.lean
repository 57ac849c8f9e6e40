import Mathlib.Data.List.Perm.Lattice

/-!
# A list of entries with an index by key

A table keeps its entries in a list and, next to it, a map from the key of an
entry to the entry. `Agrees` says that list and map hold the same entries, each
key once. Insertion at the end, removal by key and purging keep it, and under it
a lookup in the map is a search in the list.
-/

namespace Machine

open List

/-- Entries in the order of insertion, and the map from their keys. -/
structure Indexed (κ ρ : Type) where
  entries : List ρ
  index : List (κ × ρ)

namespace Indexed

variable {κ ρ : Type} {key : ρ → κ} {t : Indexed κ ρ} {k : κ} {r s : ρ}

def empty : Indexed κ ρ := ⟨[], []⟩

/-- List and map hold the same entries, under their keys and each key once. -/
structure Agrees (key : ρ → κ) (t : Indexed κ ρ) : Prop where
  mem_index : ∀ k r, (k, r) ∈ t.index ↔ r ∈ t.entries ∧ key r = k
  nodup_entries : (t.entries.map key).Nodup
  nodup_index : (t.index.map Prod.fst).Nodup

theorem agrees_empty : Agrees key (empty : Indexed κ ρ) :=
  ⟨by simp [empty], by simp [empty], by simp [empty]⟩

theorem eq_of_key_eq (h : Agrees key t) (hr : r ∈ t.entries) (hs : s ∈ t.entries)
    (hk : key r = key s) : r = s :=
  inj_on_of_nodup_map h.nodup_entries hr hs hk

/-- Both sides have as many entries. -/
theorem length_eq (h : Agrees key t) : t.entries.length = t.index.length := by
  have hperm : (t.entries.map fun r => (key r, r)).Perm t.index := by
    rw [perm_ext_iff_of_nodup
      (Nodup.of_map Prod.fst (by simpa [Function.comp_def] using h.nodup_entries))
      (Nodup.of_map Prod.fst h.nodup_index)]
    rintro ⟨k, r⟩
    rw [h.mem_index, mem_map]
    constructor
    · rintro ⟨s, hs, heq⟩
      cases heq
      exact ⟨hs, rfl⟩
    · rintro ⟨hr, rfl⟩
      exact ⟨r, hr, rfl⟩
  simpa using hperm.length_eq

section

variable [DecidableEq κ]

/-- Look a key up in the map. -/
def find (t : Indexed κ ρ) (k : κ) : Option ρ := (t.index.find? fun e => e.1 = k).map Prod.snd

/-- Append an entry; the map takes it unless it has an entry of that key. -/
def insert (key : ρ → κ) (t : Indexed κ ρ) (r : ρ) : Indexed κ ρ :=
  ⟨t.entries ++ [r], if (t.find (key r)).isSome then t.index else t.index ++ [(key r, r)]⟩

/-- Drop the first entry of a key from the list and the key from the map. -/
def remove (key : ρ → κ) (t : Indexed κ ρ) (k : κ) : Indexed κ ρ :=
  ⟨t.entries.eraseP fun r => key r = k, t.index.filter fun e => e.1 ≠ k⟩

/-- Drop every entry that `idle` selects, from the list and by its key from the map. -/
def purge (key : ρ → κ) (idle : ρ → Bool) (t : Indexed κ ρ) : Indexed κ ρ :=
  ⟨t.entries.filter fun r => !idle r,
    t.index.filter fun e => !t.entries.any fun r => idle r && key r = e.1⟩

theorem find_eq_some (h : Agrees key t) : t.find k = some r ↔ r ∈ t.entries ∧ key r = k := by
  rw [← h.mem_index, find, Option.map_eq_some_iff]
  constructor
  · rintro ⟨⟨k', r'⟩, hfind, rfl⟩
    have hk : k' = k := by simpa using find?_some hfind
    exact hk ▸ mem_of_find?_eq_some hfind
  · intro hmem
    obtain ⟨e, he⟩ : ∃ e, t.index.find? (fun e => e.1 = k) = some e := by
      rw [← Option.isSome_iff_exists, find?_isSome]
      exact ⟨(k, r), hmem, by simp⟩
    refine ⟨e, he, ?_⟩
    have hk : e.1 = k := by simpa using find?_some he
    have heq : e = (k, r) :=
      inj_on_of_nodup_map h.nodup_index (mem_of_find?_eq_some he) hmem hk
    rw [heq]

theorem find_eq_none (h : Agrees key t) : t.find k = none ↔ ∀ r ∈ t.entries, key r ≠ k := by
  rw [Option.eq_none_iff_forall_ne_some]
  constructor
  · intro hnone r hr hk
    exact hnone r ((find_eq_some h).mpr ⟨hr, hk⟩)
  · intro hall r hr
    obtain ⟨hmem, hk⟩ := (find_eq_some h).mp hr
    exact hall r hmem hk

/-! ### Insertion -/

@[simp] theorem entries_insert : (t.insert key r).entries = t.entries ++ [r] := rfl

theorem index_insert (hfree : t.find (key r) = none) :
    (t.insert key r).index = t.index ++ [(key r, r)] := by
  simp [insert, hfree]

theorem agrees_insert (h : Agrees key t) (hfree : t.find (key r) = none) :
    Agrees key (t.insert key r) := by
  have hnew := (find_eq_none h).mp hfree
  refine ⟨?_, ?_, ?_⟩
  · intro k s
    rw [index_insert hfree, entries_insert, mem_append, mem_append, h.mem_index]
    constructor
    · rintro (⟨hs, hk⟩ | hs)
      · exact ⟨.inl hs, hk⟩
      · obtain ⟨rfl, rfl⟩ := Prod.mk.inj (mem_singleton.mp hs)
        exact ⟨.inr mem_cons_self, rfl⟩
    · rintro ⟨hs | hs, hk⟩
      · exact .inl ⟨hs, hk⟩
      · obtain rfl := mem_singleton.mp hs
        exact .inr (by rw [hk]; exact mem_cons_self)
  · rw [entries_insert, map_append, nodup_append]
    refine ⟨h.nodup_entries, nodup_singleton _, ?_⟩
    intro a ha b hb
    obtain ⟨s, hs, rfl⟩ := mem_map.mp ha
    obtain rfl := mem_singleton.mp hb
    exact hnew s hs
  · rw [index_insert hfree, map_append, nodup_append]
    refine ⟨h.nodup_index, nodup_singleton _, ?_⟩
    intro a ha b hb
    obtain ⟨⟨k, s⟩, hs, rfl⟩ := mem_map.mp ha
    obtain rfl := mem_singleton.mp hb
    obtain ⟨hmem, rfl⟩ := (h.mem_index k s).mp hs
    exact hnew s hmem

/-! ### Removal -/

theorem mem_entries_remove (h : Agrees key t) :
    r ∈ (t.remove key k).entries ↔ r ∈ t.entries ∧ key r ≠ k := by
  have hnodup : t.entries.Nodup := Nodup.of_map key h.nodup_entries
  constructor
  · intro hr
    refine ⟨mem_of_mem_eraseP hr, ?_⟩
    rintro rfl
    obtain ⟨a, l₁, l₂, -, ha, heq, herase⟩ :=
      exists_of_eraseP (p := fun s => decide (key s = key r)) (mem_of_mem_eraseP hr)
        (decide_eq_true rfl)
    have hmem : r ∈ l₁ ++ l₂ := herase ▸ hr
    have har : a = r := by
      refine eq_of_key_eq h (heq ▸ by simp) (mem_of_mem_eraseP hr) (of_decide_eq_true ha)
    rw [heq, har] at hnodup
    exact (nodup_middle.mp hnodup).notMem hmem
  · rintro ⟨hr, hk⟩
    exact (mem_eraseP_of_neg (by simpa using hk)).mpr hr

theorem agrees_remove (h : Agrees key t) : Agrees key (t.remove key k) := by
  refine ⟨?_, ?_, ?_⟩
  · intro k' r
    rw [mem_entries_remove h]
    simp only [remove, mem_filter, h.mem_index, decide_eq_true_eq]
    constructor
    · rintro ⟨⟨hr, rfl⟩, hk⟩
      exact ⟨⟨hr, hk⟩, rfl⟩
    · rintro ⟨⟨hr, hk⟩, rfl⟩
      exact ⟨⟨hr, rfl⟩, hk⟩
  · exact h.nodup_entries.sublist ((eraseP_sublist).map key)
  · exact h.nodup_index.sublist ((filter_sublist).map Prod.fst)

/-- An entry whose key was free is gone without a trace when it is removed again. -/
theorem remove_insert (h : Agrees key t) (hfree : t.find (key r) = none) :
    (t.insert key r).remove key (key r) = t := by
  have hnew := (find_eq_none h).mp hfree
  have hentries : (t.entries ++ [r]).eraseP (fun s => key s = key r) = t.entries := by
    rw [eraseP_append_right _ (fun s hs => by simpa using hnew s hs)]
    simp
  have hindex : (t.index ++ [(key r, r)]).filter (fun e => e.1 ≠ key r) = t.index := by
    rw [filter_append, filter_eq_self.mpr]
    · simp
    · rintro ⟨k, s⟩ hs
      obtain ⟨hmem, rfl⟩ := (h.mem_index k s).mp hs
      simpa using hnew s hmem
  rw [remove, index_insert hfree, entries_insert, hentries, hindex]

/-! ### Purging -/

theorem mem_entries_purge {idle : ρ → Bool} :
    r ∈ (t.purge key idle).entries ↔ r ∈ t.entries ∧ idle r = false := by
  simp [purge]

theorem agrees_purge {idle : ρ → Bool} (h : Agrees key t) : Agrees key (t.purge key idle) := by
  refine ⟨?_, ?_, ?_⟩
  · intro k r
    rw [mem_entries_purge]
    simp only [purge, mem_filter, h.mem_index, Bool.not_eq_true', any_eq_false, Bool.and_eq_true,
      decide_eq_true_eq, not_and]
    constructor
    · rintro ⟨⟨hr, rfl⟩, hidle⟩
      exact ⟨⟨hr, by_contra fun hne => hidle r hr (by simpa using hne) rfl⟩, rfl⟩
    · rintro ⟨⟨hr, hidle⟩, rfl⟩
      refine ⟨⟨hr, rfl⟩, fun s hs hsidle hk => ?_⟩
      rw [eq_of_key_eq h hs hr hk, hidle] at hsidle
      cases hsidle
  · exact h.nodup_entries.sublist ((filter_sublist).map key)
  · exact h.nodup_index.sublist ((filter_sublist).map Prod.fst)

end
end Indexed

/-! ### One entry of a list changes where a projection does not look -/

section

variable {α β : Type} {f : β → α}

theorem map_modify_eq (l : List β) (i : Nat) {g : β → β} (hg : ∀ x, f (g x) = f x) :
    (l.modify i g).map f = l.map f := by
  apply ext_getElem?
  intro j
  rw [getElem?_map, getElem?_map, getElem?_modify]
  by_cases hij : i = j
  · subst hij
    cases l[i]? with
    | none => rfl
    | some x => simp [hg x]
  · cases l[j]? <;> simp [hij]

theorem map_set_eq {l : List β} {i : Nat} {x y : β} (hx : l[i]? = some x) (hy : f y = f x) :
    (l.set i y).map f = l.map f := by
  apply ext_getElem?
  intro j
  rw [getElem?_map, getElem?_map, getElem?_set]
  by_cases hij : i = j
  · subst hij
    obtain ⟨hlt, rfl⟩ := List.getElem?_eq_some_iff.mp hx
    simp [hlt, hy]
  · simp [hij]

end
end Machine
