/-!
# Streaming coders

A streaming coder takes its input piece by piece. After each piece it may have
emitted the code of less than it was given: the rest is `held`. `Reaches` counts
what a coder has taken and emitted on the way to a state, and a lawful coder
has emitted the code of exactly what it does not hold.
-/

namespace Wire

/-- A coder with its state; an operation that fails gives `none`. -/
structure StreamCoder (α : Type) where
  State : Type
  start : State
  held : State → List α
  compress : State → List α → Option (List α × State)
  flush : State → Option (List α × State)
  finish : State → Option (List α × State)

namespace StreamCoder

variable {α : Type} (c : StreamCoder α) {s s' : c.State} {taken emitted out : List α}

/-- The coder has come to a state by taking some input and emitting some output
in pieces and flushes. -/
inductive Reaches : c.State → List α → List α → Prop
  | start : Reaches c.start [] []
  | compress {s s' : c.State} {taken emitted input out : List α} (h : Reaches s taken emitted)
      (hs : c.compress s input = some (out, s')) : Reaches s' (taken ++ input) (emitted ++ out)
  | flush {s s' : c.State} {taken emitted out : List α} (h : Reaches s taken emitted)
      (hs : c.flush s = some (out, s')) : Reaches s' taken (emitted ++ out)

/-- The decoder gives back what was taken up to what is held, and a flush lets
go of everything. -/
structure Lawful (decompress : List α → List α) : Prop where
  decoded : ∀ {s taken emitted}, c.Reaches s taken emitted → decompress emitted ++ c.held s = taken
  flushed : ∀ {s s' out}, c.flush s = some (out, s') → c.held s' = []

/-- Some input pieces one after the other. -/
def compressAll : c.State → List (List α) → Option (List α × c.State)
  | s, [] => some ([], s)
  | s, input :: inputs =>
    (c.compress s input).bind fun p => (compressAll p.2 inputs).map fun q => (p.1 ++ q.1, q.2)

variable {c}

theorem Reaches.compressAll {inputs : List (List α)} (h : c.Reaches s taken emitted)
    (hs : c.compressAll s inputs = some (out, s')) :
    c.Reaches s' (taken ++ inputs.flatten) (emitted ++ out) := by
  induction inputs generalizing s taken emitted out with
  | nil =>
    cases hs
    simpa using h
  | cons input inputs ih =>
    obtain ⟨⟨first, m⟩, hfirst, hs⟩ := Option.bind_eq_some_iff.mp hs
    obtain ⟨⟨rest, t⟩, hrest, heq⟩ := Option.map_eq_some_iff.mp hs
    cases heq
    have hall := ih (h.compress hfirst) hrest
    rwa [List.flatten_cons, ← List.append_assoc, ← List.append_assoc]

/-- Everything taken is decoded exactly if nothing is held. -/
theorem Lawful.decoded_eq_iff {decompress : List α → List α} (hc : c.Lawful decompress)
    (h : c.Reaches s taken emitted) :
    decompress emitted = taken ↔ c.held s = [] := by
  rw [← hc.decoded h]
  exact List.self_eq_append_right

end StreamCoder
end Wire
