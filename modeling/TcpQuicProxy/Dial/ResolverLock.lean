import TcpQuicProxy.Dial.Cancel

/-!
# Who is in the resolver

The tables of the resolver have no lock of their own. Every section of the reactor that calls the
resolver holds the reactor's lock, but `Submit` gives the lock up before it calls `Resolve`. A
section has a beginning and an end here, so that two threads can be in the resolver at once.
-/

namespace TcpQuicProxy.Dial

open Machine Platform Option

/-- The call runs under the lock of the reactor. -/
def Call.locks : Call → Bool
  | .resolve _ | .runCompletion _ => false
  | _ => true

/-- `Resolve`, the one call of the resolver without the lock. -/
def Call.isResolve : Call → Bool
  | .resolve _ => true
  | _ => false

/-- The call may call `Resolve`, `Cancel`, `RunOnce` or `Stop` of the resolver. The section of
`Submit` behind `Resolve` does not: a dial that it completes has the id 0, for which `CancelResolve`
returns at once. -/
def Call.resolves : Call → Bool
  | .resolve _ | .cancel _ | .runOnce | .stop => true
  | _ => false

theorem Call.locks_of_resolves {c : Call} (h : c.resolves = true) (hnot : c.isResolve = false) :
    c.locks = true := by
  cases c with
  | cancel token | runOnce | stop => rfl
  | resolve token => cases hnot
  | _ => cases h

/-- The reactor, the thread that has its lock and the calls that threads are in. -/
structure Guarded (θ : Type) where
  system : System θ
  holder : Option θ := none
  inside : θ → Option Call := fun _ => none

inductive Guarded.Action (θ : Type) where
  | enter (thread : θ) (call : Call)
  | begins (thread : θ)
  | ends (thread : θ) (io : Io)
  deriving DecidableEq

namespace Guarded

variable {θ : Type} [DecidableEq θ]

/-- A call has its effect when it ends. -/
def step (g : Guarded θ) : Action θ → Option (Guarded θ)
  | .enter thread call =>
    (Dial.step g.system (.enter thread call)).map fun s => { g with system := s }
  | .begins thread =>
    (g.system.calls thread).head?.bind fun c =>
      if (g.inside thread).isSome || c.locks && g.holder.isSome then none
      else
        some { g with
          holder := if c.locks then some thread else g.holder
          inside := Function.update g.inside thread (some c) }
  | .ends thread io =>
    if (g.inside thread).isSome then
      (Dial.step g.system (.call thread io)).map fun s =>
        ⟨s, if g.holder = some thread then none else g.holder, Function.update g.inside thread none⟩
    else none

/-- A `Resolve` does not begin while the other thread is in the resolver, and no call of the
resolver begins while the other thread is in `Resolve`. -/
def apart (g : Guarded θ) (thread other : θ) : Bool :=
  (g.system.calls thread).head?.all fun c => (g.inside other).all fun d =>
    !(c.isResolve && d.resolves) && !(c.resolves && d.isResolve)

/-- One thread at most is in the resolver. -/
def Exclusive (g : Guarded θ) : Prop :=
  ∀ t u c d, g.inside t = some c → g.inside u = some d → c.resolves = true →
    d.resolves = true → t = u

def Locked (g : Guarded θ) : Prop := ∀ t c, g.inside t = some c → c.locks = true → g.holder = some t

variable {g g' : Guarded θ} {a : Action θ}

theorem Locked.step (h : Locked g) (hs : g.step a = some g') : Locked g' := by
  intro t c hc hlocks
  cases a with
  | enter thread call =>
    obtain ⟨s, -, rfl⟩ := map_eq_some_iff.mp hs
    exact h t c hc hlocks
  | begins thread =>
    obtain ⟨d, -, hs⟩ := bind_eq_some_iff.mp hs
    obtain ⟨hfree, hs⟩ := ite_none_left_eq_some.mp hs
    cases hs
    by_cases hne : t = thread
    · subst hne
      obtain rfl : d = c := by simpa using hc
      exact if_pos hlocks
    · have hheld := h t c (by simpa [hne] using hc) hlocks
      have hd : d.locks ≠ true := fun hd => hfree (by simp [hd, hheld])
      simpa [hd] using hheld
  | ends thread io =>
    obtain ⟨-, hs⟩ := ite_none_right_eq_some.mp hs
    obtain ⟨s, -, rfl⟩ := map_eq_some_iff.mp hs
    have hne : t ≠ thread := by
      rintro rfl
      simp at hc
    have hheld := h t c (by simpa [hne] using hc) hlocks
    simp [hheld, hne]

theorem Exclusive.step (hlocked : Locked g) (h : Exclusive g)
    (hapart : ∀ t u, a = .begins t → u ≠ t → g.apart t u = true) (hs : g.step a = some g') :
    Exclusive g' := by
  cases a with
  | enter thread call =>
    obtain ⟨s, -, rfl⟩ := map_eq_some_iff.mp hs
    exact h
  | begins thread =>
    obtain ⟨c, hc, hs⟩ := bind_eq_some_iff.mp hs
    obtain ⟨hfree, hs⟩ := ite_none_left_eq_some.mp hs
    cases hs
    -- `Resolve` is kept apart, and a call that begins with the lock finds no other holder.
    have hnew : ∀ u d, u ≠ thread → g.inside u = some d → c.resolves = true →
        d.resolves = true → False := by
      intro u d hne hd hcr hdr
      have hnot : c.isResolve = false ∧ d.isResolve = false := by
        simpa [apart, hc, hd, hcr, hdr] using hapart thread u rfl hne
      have hlocks := Call.locks_of_resolves hdr hnot.2
      exact hfree (by simp [Call.locks_of_resolves hcr hnot.1, hlocked u d hd hlocks])
    intro t u d e hd he hdr her
    by_cases ht : t = thread
    · by_cases hu : u = thread
      · rw [ht, hu]
      · subst ht
        obtain rfl : c = d := by simpa using hd
        exact (hnew u e hu (by simpa [hu] using he) hdr her).elim
    · by_cases hu : u = thread
      · subst hu
        obtain rfl : c = e := by simpa using he
        exact (hnew t d ht (by simpa [ht] using hd) her hdr).elim
      · exact h t u d e (by simpa [ht] using hd) (by simpa [hu] using he) hdr her
  | ends thread io =>
    obtain ⟨-, hs⟩ := ite_none_right_eq_some.mp hs
    obtain ⟨s, -, rfl⟩ := map_eq_some_iff.mp hs
    have hold : ∀ t d, Function.update g.inside thread none t = some d → g.inside t = some d := by
      intro t d hd
      by_cases ht : t = thread
      · subst ht
        simp at hd
      · simpa [ht] using hd
    exact fun t u d e hd he => h t u d e (hold t d hd) (hold u e he)

/-- **The resolver.** In every run in which no `Resolve` begins while another thread is in the
resolver, and no other call of it while another thread is in `Resolve`, one thread at most is in
the resolver. -/
theorem resolver_used_by_one (θ : Type) [DecidableEq θ] (inet : Inet) (acl : Acl.Rules)
    (actions : List (Action θ)) (g : Guarded θ)
    (hapart : Meets step (fun g a => ∀ t u, a = .begins t → u ≠ t → g.apart t u = true)
      { system := start θ inet acl } actions)
    (hrun : run step { system := start θ inet acl } actions = some g) : g.Exclusive := by
  have hstep : ∀ (g : Guarded θ) a g', Locked g ∧ Exclusive g →
      (∀ t u, a = .begins t → u ≠ t → g.apart t u = true) →
      g.step a = some g' → Locked g' ∧ Exclusive g' :=
        fun g a g' h ha hs => ⟨h.1.step hs, h.2.step h.1 ha hs⟩
  refine (invariant_of_meets hstep ⟨?_, ?_⟩ hapart hrun).2
  · exact fun t c hc => by cases hc
  · exact fun t u c d hc => by cases hc

/-- Two threads submit dials by name. -/
def twoSubmits : List (Action Bool) :=
  let submit := Call.submit (ascii "a") 80 false true
  [.enter false .start, .begins false, .ends false idleIo, .enter false submit, .begins false,
    .ends false idleIo, .enter true submit,
    .begins true, .ends true idleIo, .begins false]

theorem oneResolve_exclusive :
    ∃ g, run step { system := start Bool plainInet.toInet loopbackRules } twoSubmits = some g ∧
      g.inside false = some (.resolve 1) ∧ g.Exclusive := by
  have hapart : Meets step (fun g a => ∀ t u, a = .begins t → u ≠ t → g.apart t u = true)
      { system := start Bool plainInet.toInet loopbackRules } twoSubmits := by
    decide
  exact ⟨_, rfl, rfl, resolver_used_by_one Bool _ _ _ _ hapart rfl⟩

theorem twoResolves_together :
    (run step { system := start Bool plainInet.toInet loopbackRules }
      (twoSubmits ++ [.begins true])).map
      (fun g => (g.inside false, g.inside true)) = some (some (.resolve 1), some (.resolve 2)) := by
  decide

end Guarded
end TcpQuicProxy.Dial
