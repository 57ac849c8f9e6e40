import TcpQuicProxy.Machine.Run

/-!
# Threads over a shared state

A pool has one shared state and, for each thread, the calls that the thread
still has to make. A call is one critical section: it changes the shared state
and says which calls follow it. A weight on the calls counts tokens, and since
only one thread moves in a step, the count changes by what that call is worth
and what its successors are worth.
-/

namespace Machine

structure Pool (θ σ κ : Type) where
  shared : σ
  calls : θ → List κ

namespace Pool

variable {θ σ κ : Type} [DecidableEq θ] {exec : σ → κ → σ × List κ} {p p' : Pool θ σ κ} {t : θ}

def setCalls (p : Pool θ σ κ) (t : θ) (cs : List κ) : Pool θ σ κ :=
  { p with calls := Function.update p.calls t cs }

/-- The thread makes its next call. -/
def advance (exec : σ → κ → σ × List κ) (p : Pool θ σ κ) (t : θ) : Option (Pool θ σ κ) :=
  match p.calls t with
  | [] => none
  | c :: rest =>
    some ({ p with shared := (exec p.shared c).1 }.setCalls t ((exec p.shared c).2 ++ rest))

/-- An idle thread enters a handler. -/
def enter (p : Pool θ σ κ) (t : θ) (cs : List κ) : Option (Pool θ σ κ) :=
  if (p.calls t).isEmpty then some (p.setCalls t cs) else none

@[simp] theorem setCalls_shared (cs : List κ) : (p.setCalls t cs).shared = p.shared := rfl

@[simp] theorem setCalls_calls_self (cs : List κ) : (p.setCalls t cs).calls t = cs :=
  Function.update_self ..

theorem setCalls_calls_of_ne {u : θ} (h : u ≠ t) (cs : List κ) :
    (p.setCalls t cs).calls u = p.calls u :=
  Function.update_of_ne h ..

theorem advance_eq_some (h : p.advance exec t = some p') :
    ∃ c rest, p.calls t = c :: rest ∧
      p' = { p with shared := (exec p.shared c).1 }.setCalls t ((exec p.shared c).2 ++ rest) := by
  unfold advance at h
  split at h
  · cases h
  next c rest hcalls => exact ⟨c, rest, hcalls, (Option.some.inj h).symm⟩

theorem enter_eq_some {cs : List κ} (h : p.enter t cs = some p') :
    p.calls t = [] ∧ p' = p.setCalls t cs := by
  unfold enter at h
  split at h
  next hidle => exact ⟨List.isEmpty_iff.mp hidle, (Option.some.inj h).symm⟩
  · cases h

/-! ### Outstanding calls -/

/-- Every outstanding call satisfies `P`. -/
def All (P : κ → Prop) (p : Pool θ σ κ) : Prop := ∀ t, ∀ c ∈ p.calls t, P c

/-- Some thread still has to make a call that satisfies `P`. -/
def Outstanding (P : κ → Prop) (p : Pool θ σ κ) : Prop := ∃ t, ∃ c ∈ p.calls t, P c

variable {P : κ → Prop} {s : σ} {cs : List κ}

theorem All.setCalls (h : p.All P) (hcs : ∀ c ∈ cs, P c) :
    ({ p with shared := s }.setCalls t cs).All P := by
  intro u c hc
  by_cases hu : u = t
  · subst hu
    rw [setCalls_calls_self] at hc
    exact hcs c hc
  · rw [setCalls_calls_of_ne hu] at hc
    exact h u c hc

variable {c : κ} {rest : List κ}

/-- The successors of a call satisfy `P` and the others did before. -/
theorem All.advance (h : p.All P) (hcalls : p.calls t = c :: rest) (hcs : ∀ c ∈ cs, P c) :
    ({ p with shared := s }.setCalls t (cs ++ rest)).All P := by
  apply h.setCalls
  intro d hd
  rcases List.mem_append.mp hd with hd | hd
  · exact hcs d hd
  · exact h t d (hcalls ▸ List.mem_cons_of_mem c hd)

theorem Outstanding.setCalls (h : p.Outstanding P) (hidle : p.calls t = []) :
    ({ p with shared := s }.setCalls t cs).Outstanding P := by
  obtain ⟨u, c, hc, hP⟩ := h
  have hu : u ≠ t := by
    rintro rfl
    rw [hidle] at hc
    cases hc
  exact ⟨u, c, by rwa [setCalls_calls_of_ne hu], hP⟩

/-- A call that is outstanding stays so until it is made. -/
theorem Outstanding.advance (h : p.Outstanding P) (hcalls : p.calls t = c :: rest)
    (hc : ¬ P c) : ({ p with shared := s }.setCalls t (cs ++ rest)).Outstanding P := by
  obtain ⟨u, d, hd, hP⟩ := h
  by_cases hu : u = t
  · subst hu
    rw [hcalls] at hd
    rcases List.mem_cons.mp hd with rfl | hd
    · exact absurd hP hc
    · refine ⟨u, d, ?_, hP⟩
      rw [setCalls_calls_self]
      exact List.mem_append_right cs hd
  · exact ⟨u, d, by rwa [setCalls_calls_of_ne hu], hP⟩

theorem outstanding_of_mem {d : κ} (hd : d ∈ cs) (hP : P d) :
    ({ p with shared := s }.setCalls t (cs ++ rest)).Outstanding P :=
  ⟨t, d, by rw [setCalls_calls_self]; exact List.mem_append_left rest hd, hP⟩

/-- What is outstanding after a step was so before or has come in with it. -/
theorem Outstanding.of_setCalls {new : List κ}
    (h : ({ p with shared := s }.setCalls t cs).Outstanding P)
    (hcs : ∀ c ∈ cs, c ∈ new ∨ c ∈ p.calls t) : (∃ c ∈ new, P c) ∨ p.Outstanding P := by
  obtain ⟨u, c, hc, hP⟩ := h
  by_cases hu : u = t
  · subst hu
    rw [setCalls_calls_self] at hc
    rcases hcs c hc with hnew | hold
    · exact .inl ⟨c, hnew, hP⟩
    · exact .inr ⟨u, c, hold, hP⟩
  · rw [setCalls_calls_of_ne hu] at hc
    exact .inr ⟨u, c, hc, hP⟩

/-! ### Tokens -/

/-- What the outstanding calls of the listed threads are worth. -/
def tokens (threads : List θ) (weight : κ → Nat) (p : Pool θ σ κ) : Nat :=
  total (fun t => total weight (p.calls t)) threads

variable {threads : List θ} {weight : κ → Nat}

omit [DecidableEq θ] in
theorem tokens_congr {q : Pool θ σ κ} (h : ∀ u ∈ threads, q.calls u = p.calls u) :
    q.tokens threads weight = p.tokens threads weight := by
  unfold tokens
  induction threads with
  | nil => rfl
  | cons u us ih =>
    obtain ⟨hu, hus⟩ := List.forall_mem_cons.mp h
    rw [total_cons, total_cons, hu, ih hus]

theorem tokens_setCalls (hnodup : threads.Nodup) (ht : t ∈ threads) (cs : List κ) :
    (p.setCalls t cs).tokens threads weight + total weight (p.calls t) =
      p.tokens threads weight + total weight cs := by
  induction threads with
  | nil => cases ht
  | cons u us ih =>
    obtain ⟨hu, hus⟩ := List.nodup_cons.mp hnodup
    by_cases htu : u = t
    · subst htu
      have hrest : (p.setCalls u cs).tokens us weight = p.tokens us weight := by
        apply tokens_congr
        rintro v hv
        exact setCalls_calls_of_ne (ne_of_mem_of_not_mem hv hu) cs
      unfold tokens at hrest ⊢
      rw [total_cons, total_cons, hrest, setCalls_calls_self]
      omega
    · have hrest := ih hus ((List.mem_cons.mp ht).resolve_left fun h => htu h.symm)
      unfold tokens at hrest ⊢
      rw [total_cons, total_cons, setCalls_calls_of_ne htu]
      omega

/-- A call gives up its own tokens and brings in those of its successors. -/
theorem tokens_advance (hnodup : threads.Nodup) (ht : t ∈ threads) (hcalls : p.calls t = c :: rest)
    (s : σ) (cs : List κ) :
    ({ p with shared := s }.setCalls t (cs ++ rest)).tokens threads weight + weight c =
      p.tokens threads weight + total weight cs := by
  have htokens :
      (({ p with shared := s } : Pool θ σ κ).setCalls t (cs ++ rest)).tokens threads weight +
      total weight (p.calls t) = p.tokens threads weight + total weight (cs ++ rest) :=
    @tokens_setCalls θ σ κ _ { p with shared := s } t threads weight hnodup ht (cs ++ rest)
  rw [hcalls, total_cons, total_append] at htokens
  omega

/-- A thread that enters a handler brings in the tokens of its calls. -/
theorem tokens_enter (hnodup : threads.Nodup) (ht : t ∈ threads) (hidle : p.calls t = []) (s : σ)
    (cs : List κ) :
    ({ p with shared := s }.setCalls t cs).tokens threads weight =
      p.tokens threads weight + total weight cs := by
  have htokens : (({ p with shared := s } : Pool θ σ κ).setCalls t cs).tokens threads weight +
      total weight (p.calls t) = p.tokens threads weight + total weight cs :=
    @tokens_setCalls θ σ κ _ { p with shared := s } t threads weight hnodup ht cs
  rwa [hidle, total_nil] at htokens

/-- A measure of the shared state together with the tokens of the calls. -/
def potential (threads : List θ) (measure : σ → Nat) (weight : κ → Nat) (p : Pool θ σ κ) : Nat :=
  measure p.shared + p.tokens threads weight

variable {measure : σ → Nat}

theorem potential_advance (hnodup : threads.Nodup) (ht : t ∈ threads)
    (hcalls : p.calls t = c :: rest) (s : σ) (cs : List κ) :
    ({ p with shared := s }.setCalls t (cs ++ rest)).potential threads measure weight +
        (measure p.shared + weight c) =
      p.potential threads measure weight + (measure s + total weight cs) := by
  have htokens := @tokens_advance θ σ κ _ p t c rest threads weight hnodup ht hcalls s cs
  show measure s + _ + _ = measure p.shared + _ + _
  omega

theorem potential_enter (hnodup : threads.Nodup) (ht : t ∈ threads) (hidle : p.calls t = []) (s : σ)
    (cs : List κ) :
    ({ p with shared := s }.setCalls t cs).potential threads measure weight + measure p.shared =
      p.potential threads measure weight + (measure s + total weight cs) := by
  have htokens := @tokens_enter θ σ κ _ p t threads weight hnodup ht hidle s cs
  show measure s + _ + _ = measure p.shared + _ + _
  omega

omit [DecidableEq θ] in
theorem tokens_mono {weight' : κ → Nat} (h : ∀ c, weight c ≤ weight' c) :
    p.tokens threads weight ≤ p.tokens threads weight' :=
  total_mono fun t => total_mono (l := p.calls t) h

omit [DecidableEq θ] in
theorem weight_le_tokens (ht : t ∈ threads) (hc : c ∈ p.calls t) :
    weight c ≤ p.tokens threads weight := by
  unfold tokens
  exact le_trans (le_total_of_mem hc)
    (@le_total_of_mem θ (fun t => total weight (p.calls t)) threads t ht)

/-! ### One thread at a time -/

/-- At most one thread has calls to make, and `inv` holds of the shared state
and of those calls. -/
def Solo (inv : σ → List κ → Prop) (p : Pool θ σ κ) : Prop :=
  (∀ t, p.calls t = []) ∧ inv p.shared [] ∨
    ∃ t, (∀ u, u ≠ t → p.calls u = []) ∧ inv p.shared (p.calls t)

variable {inv : σ → List κ → Prop}

omit [DecidableEq θ] in
theorem Solo.quiet (h : p.Solo inv) (hquiet : ∀ t, p.calls t = []) : inv p.shared [] := by
  rcases h with ⟨-, hinv⟩ | ⟨t, -, hinv⟩
  · exact hinv
  · exact hquiet t ▸ hinv

theorem Solo.enter (h : p.Solo inv) (hquiet : ∀ t, p.calls t = [])
    (hinv : inv p.shared [] → inv p.shared cs) (hp : p.enter t cs = some p') : p'.Solo inv := by
  obtain ⟨-, rfl⟩ := enter_eq_some hp
  refine .inr ⟨t, fun u hu => ?_, ?_⟩
  · rw [setCalls_calls_of_ne hu, hquiet u]
  · rw [setCalls_calls_self]
    exact hinv (h.quiet hquiet)

/-- If each call keeps `inv` for the thread that makes it, a step of a pool in
which no other thread has calls keeps it. -/
theorem Solo.advance (h : p.Solo inv)
    (hexec : ∀ s c rest, inv s (c :: rest) → inv (exec s c).1 ((exec s c).2 ++ rest))
    (hp : p.advance exec t = some p') : p'.Solo inv := by
  obtain ⟨c, rest, hcalls, rfl⟩ := advance_eq_some hp
  rcases h with ⟨hquiet, -⟩ | ⟨u, hothers, hinv⟩
  · rw [hquiet t] at hcalls
    cases hcalls
  · have htu : t = u := by
      by_contra hne
      rw [hothers t hne] at hcalls
      cases hcalls
    subst htu
    rw [hcalls] at hinv
    refine .inr ⟨t, fun u hu => ?_, ?_⟩
    · rw [setCalls_calls_of_ne hu]
      exact hothers u hu
    · rw [setCalls_calls_self]
      exact hexec _ _ _ hinv

end Pool
end Machine
