/-!
# JSON documents

A document is a tree; the text of it, and with it the choice of white space and
escapes, is left to the library that reads and writes it. The members of an
object are kept in the order of their keys, which is the order in which a
program that goes through them sees them, and a key occurs once.

`readMembers` goes through an object with a reader for its members. Two rules
say what such a loop does to one part of the state: nothing, when no member
touches it (`readMembers_keeps`), and what the one member that does left there
(`readMembers_sets`).
-/

namespace Wire

open List

inductive Json where
  | null
  | bool (value : Bool)
  | integer (value : Int)
  /-- A number that is not an integer of 64 bits, by its bits. -/
  | float (bits : UInt64)
  | string (value : List UInt8)
  | array (items : List Json)
  | object (members : List (List UInt8 × Json))

abbrev Members := List (List UInt8 × Json)

namespace Members

/-- Keys of an object are in increasing order. -/
def Ordered (members : Members) : Prop := members.Pairwise fun a b => a.1 < b.1

def set (key : List UInt8) (value : Json) : Members → Members
  | [] => [(key, value)]
  | (k, v) :: rest =>
    if key = k then (k, value) :: rest
    else if key < k then (key, value) :: (k, v) :: rest
    else (k, v) :: set key value rest

/-- The object with the given members; a later one replaces an earlier one. -/
def ofList (members : Members) : Members := members.foldl (fun out m => out.set m.1 m.2) []

end Members

/-- The object of a list of members. -/
def Json.ofList (members : Members) : Json := .object (Members.ofList members)

namespace Members

theorem lookup_set_self (key : List UInt8) (value : Json) (members : Members) :
    (members.set key value).lookup key = some value := by
  induction members with
  | nil => simp [set]
  | cons m rest ih =>
    obtain ⟨k, v⟩ := m
    rw [set]
    split
    · rename_i heq
      simp [heq]
    · rename_i hne
      split
      · simp
      · rw [lookup_cons, ih, beq_eq_false_iff_ne.mpr hne]

variable {key : List UInt8} {members : Members}

theorem lookup_set_of_ne {other : List UInt8} (hne : other ≠ key) (value : Json)
    (members : Members) :
    (members.set key value).lookup other = members.lookup other := by
  have hother : (other == key) = false := beq_eq_false_iff_ne.mpr hne
  induction members with
  | nil => simpa [set] using hne
  | cons m rest ih =>
    obtain ⟨k, v⟩ := m
    rw [set]
    split
    · rename_i heq
      subst heq
      simp [lookup_cons, hother]
    · split
      · simp [lookup_cons, hother]
      · simp only [lookup_cons, ih]

theorem mem_set {value : Json} {m : List UInt8 × Json}
    (h : m ∈ members.set key value) : m = (key, value) ∨ m ∈ members := by
  induction members with
  | nil => exact .inl (by simpa [set] using h)
  | cons n rest ih =>
    obtain ⟨k, v⟩ := n
    rw [set] at h
    split at h
    · rename_i heq
      subst heq
      rcases mem_cons.mp h with rfl | h
      · exact .inl rfl
      · exact .inr (mem_cons_of_mem _ h)
    · split at h
      · exact mem_cons.mp h
      · rcases mem_cons.mp h with rfl | h
        · exact .inr mem_cons_self
        · exact (ih h).imp_right (mem_cons_of_mem _)

theorem ordered_set (key : List UInt8) (value : Json) (h : members.Ordered) :
    (members.set key value).Ordered := by
  induction members with
  | nil => exact pairwise_singleton _ _
  | cons m rest ih =>
    obtain ⟨k, v⟩ := m
    obtain ⟨hfirst, hrest⟩ := pairwise_cons.mp h
    rw [set]
    split
    · exact pairwise_cons.mpr ⟨hfirst, hrest⟩
    · rename_i hne
      split
      · rename_i hlt
        refine pairwise_cons.mpr ⟨fun n hn => ?_, h⟩
        rcases mem_cons.mp hn with rfl | hn
        · exact hlt
        · exact List.lt_trans hlt (hfirst n hn)
      · rename_i hnot
        refine pairwise_cons.mpr ⟨fun n hn => ?_, ih hrest⟩
        rcases mem_set hn with rfl | hn
        · exact (List.le_iff_lt_or_eq.mp (List.not_lt.mp hnot)).resolve_right (Ne.symm hne)
        · exact hfirst n hn

/-- Setting a key replaces its member or puts a new one in between. -/
theorem set_split (key : List UInt8) (value : Json) (members : Members) :
    ∃ before after, members.set key value = before ++ (key, value) :: after ∧
      (members = before ++ after ∨
        ∃ old, members.lookup key = some old ∧ members = before ++ (key, old) :: after) := by
  induction members with
  | nil => exact ⟨[], [], rfl, .inl rfl⟩
  | cons m rest ih =>
    obtain ⟨k, v⟩ := m
    rw [set]
    split
    · rename_i heq
      subst heq
      exact ⟨[], rest, rfl, .inr ⟨v, by rw [lookup_cons, beq_self_eq_true], rfl⟩⟩
    · rename_i hne
      split
      · exact ⟨[], (k, v) :: rest, rfl, .inl rfl⟩
      · obtain ⟨before, after, hset, hold⟩ := ih
        refine ⟨(k, v) :: before, after, by rw [hset]; rfl, ?_⟩
        rcases hold with hold | ⟨old, hlookup, hold⟩
        · exact .inl (by rw [hold]; rfl)
        · refine .inr ⟨old, ?_, by rw [cons_append, ← hold]⟩
          rwa [lookup_cons, beq_eq_false_iff_ne.mpr hne]

end Members

/-! ### Reading an object member by member -/

section Reading

variable {σ ε β : Type}

/-- The members are read in their order; the first refusal ends the reading. -/
def readMembers (read : List UInt8 → Json → σ → Except ε σ) : Members → σ → Except ε σ
  | [], s => .ok s
  | (key, value) :: rest, s =>
    match read key value s with
    | .error e => .error e
    | .ok s' => readMembers read rest s'

variable {read : List UInt8 → Json → σ → Except ε σ} {members : Members} {s s' : σ}

/-- The reading of a value leaves a part of the state as it is. -/
def Keeps (get : σ → β) (f : σ → Except ε σ) : Prop := ∀ s s', f s = .ok s' → get s' = get s

variable {key : List UInt8} {value : Json} {get : σ → β}

theorem readMembers_cons_ok {rest : Members}
    (h : readMembers read ((key, value) :: rest) s = .ok s') :
    ∃ next, read key value s = .ok next ∧ readMembers read rest next = .ok s' := by
  rw [readMembers] at h
  cases hread : read key value s with
  | error e => simp [hread] at h
  | ok next => exact ⟨next, rfl, by simpa [hread] using h⟩

theorem readMembers_keeps (hkeeps : ∀ m ∈ members, Keeps get (read m.1 m.2))
    (h : readMembers read members s = .ok s') : get s' = get s := by
  induction members generalizing s with
  | nil =>
    cases h
    rfl
  | cons m rest ih =>
    obtain ⟨next, hnext, hrest⟩ := readMembers_cons_ok h
    rw [ih (fun n hn => hkeeps n (mem_cons_of_mem _ hn)) hrest,
      hkeeps m mem_cons_self _ _ hnext]

/-- Of a part of the state that one key sets and no other key touches, the
member of that key decides. -/
theorem readMembers_sets {b : β} (hordered : members.Ordered)
    (hlookup : members.lookup key = some value)
    (hsets : ∀ s s', read key value s = .ok s' → get s' = b)
    (hkeeps : ∀ m ∈ members, m.1 ≠ key → Keeps get (read m.1 m.2))
    (h : readMembers read members s = .ok s') : get s' = b := by
  induction members generalizing s with
  | nil => simp at hlookup
  | cons m rest ih =>
    obtain ⟨k, v⟩ := m
    obtain ⟨hfirst, hrest⟩ := pairwise_cons.mp hordered
    obtain ⟨next, hnext, hread⟩ := readMembers_cons_ok h
    by_cases hk : k = key
    · subst hk
      have hv : v = value := by simpa [lookup_cons] using hlookup
      subst hv
      have hothers : ∀ n ∈ rest, n.1 ≠ k := fun n hn heq => List.lt_irrefl _ (heq ▸ hfirst n hn)
      rw [readMembers_keeps (fun n hn => hkeeps n (mem_cons_of_mem _ hn) (hothers n hn)) hread]
      exact hsets _ _ hnext
    · have hrestLookup : lookup key rest = some value := by
        rwa [lookup_cons, beq_eq_false_iff_ne.mpr (Ne.symm hk)] at hlookup
      exact ih hrest hrestLookup (fun n hn => hkeeps n (mem_cons_of_mem _ hn)) hread

/-- Two readings from states that look alike both succeed, and the states they
lead to look alike again. -/
def Follows (view : σ → β) (f g : σ → Except ε σ) : Prop :=
  ∀ s t s', view t = view s → f s = .ok s' → ∃ t', g t = .ok t' ∧ view t' = view s'

theorem readMembers_follows {view : σ → β}
    (hfollows : ∀ m ∈ members, Follows view (read m.1 m.2) (read m.1 m.2)) :
    Follows view (readMembers read members) (readMembers read members) := by
  induction members with
  | nil =>
    intro s t s' hview h
    cases h
    exact ⟨t, rfl, hview⟩
  | cons m rest ih =>
    intro s t s' hview h
    obtain ⟨k, v⟩ := m
    obtain ⟨next, hnext, hrest⟩ := readMembers_cons_ok h
    obtain ⟨next', hnext', hview'⟩ := hfollows (k, v) mem_cons_self s t next hview hnext
    obtain ⟨t', ht', hlast⟩ :=
      ih (fun n hn => hfollows n (mem_cons_of_mem _ hn)) next next' s' hview' hrest
    refine ⟨t', ?_, hlast⟩
    rw [readMembers, hnext']
    exact ht'

theorem readMembers_append_ok {before after : Members} :
    readMembers read (before ++ after) s = .ok s' ↔
      ∃ next, readMembers read before s = .ok next ∧ readMembers read after next = .ok s' := by
  induction before generalizing s with
  | nil => simp [readMembers]
  | cons m before ih =>
    rw [cons_append, readMembers, readMembers]
    cases read m.1 m.2 s with
    | error e => simp
    | ok next => exact ih

/-- Members that can each be read in any state can be read together. -/
theorem readMembers_total (h : ∀ m ∈ members, ∀ s, ∃ s', read m.1 m.2 s = .ok s') (s : σ) :
    ∃ s', readMembers read members s = .ok s' := by
  induction members generalizing s with
  | nil => exact ⟨s, rfl⟩
  | cons m rest ih =>
    obtain ⟨next, hnext⟩ := h m mem_cons_self s
    obtain ⟨s', hs'⟩ := ih (fun n hn => h n (mem_cons_of_mem _ hn)) next
    exact ⟨s', by rw [readMembers, hnext]; exact hs'⟩

/-- In a reading that succeeded every member was read. -/
theorem read_of_readMembers (h : readMembers read members s = .ok s') :
    ∀ m ∈ members, ∃ t t', read m.1 m.2 t = .ok t' := by
  induction members generalizing s with
  | nil => simp
  | cons m rest ih =>
    obtain ⟨next, hnext, hrest⟩ := readMembers_cons_ok h
    exact forall_mem_cons.mpr ⟨⟨s, next, hnext⟩, ih hrest⟩

end Reading
end Wire
