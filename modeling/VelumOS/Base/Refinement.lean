import VelumOS.Base.Runs

/-!
# Refinement of runs

A concrete step relation refines an abstract one when each of its steps, seen through
an abstraction of the state and of the actions, is an abstract step or cannot be seen.
A run of the concrete relation is then a run of the abstract one with the same visible
actions, and what holds in every run of the abstract one carries over.
-/
namespace VelumOS.Base.Refinement
open Runs

variable {σ ε α τ δ β : Type}

/-- Each concrete step from a state with the invariant is unseen or an abstract step. -/
def Refines (Concrete : σ → ε → List α → σ → Prop) (Abstract : τ → δ → List β → τ → Prop)
    (view : σ → τ) (visible : List α → List β) (Inv : σ → Prop) : Prop :=
  ∀ {before event actions after}, Inv before → Concrete before event actions after →
    (view after = view before ∧ visible actions = []) ∨
      ∃ seen, Abstract (view before) seen (visible actions) (view after)

/-- The actions of a run, in their order. -/
def actionsOf (steps : List (Transition σ ε α)) : List α := steps.flatMap Transition.actions

@[simp] theorem actionsOf_nil : actionsOf ([] : List (Transition σ ε α)) = [] := rfl

@[simp] theorem actionsOf_append (front back : List (Transition σ ε α)) :
    actionsOf (front ++ back) = actionsOf front ++ actionsOf back := by
  simp [actionsOf]

@[simp] theorem actionsOf_single (t : Transition σ ε α) : actionsOf [t] = t.actions := by
  simp [actionsOf]

section Lift
variable {Concrete : σ → ε → List α → σ → Prop} {Abstract : τ → δ → List β → τ → Prop}
  {view : σ → τ} {visible : List α → List β} {Inv : σ → Prop}

/-- Each run of the concrete relation is seen as a run of the abstract one. -/
theorem Refines.lift (refines : Refines Concrete Abstract view visible Inv)
    (spread : ∀ front back, visible (front ++ back) = visible front ++ visible back)
    (nothing : visible [] = [])
    (keeps : ∀ t : Transition σ ε α, t.Valid Concrete → Inv t.before → Inv t.after)
    {start last : σ} {steps : List (Transition σ ε α)} (run : Run Concrete start steps last)
    (initial : Inv start) :
    ∃ seen, Run Abstract (view start) seen (view last) ∧
      actionsOf seen = visible (actionsOf steps) := by
  induction run with
  | nil => exact ⟨[], .nil _, nothing.symm⟩
  | @snoc mid last steps event actions earlier step ih =>
    obtain ⟨seen, abstract, same⟩ := ih
    have reached := (earlier.invariant Inv keeps initial).1
    rw [actionsOf_append, actionsOf_single, spread, ← same]
    rcases refines reached step with ⟨view_eq, unseen⟩ | ⟨label, found⟩
    · refine ⟨seen, ?_, ?_⟩
      · rw [view_eq]
        exact abstract
      · rw [unseen, List.append_nil]
    · refine ⟨seen ++ [⟨_, label, _, _⟩], abstract.snoc found, ?_⟩
      rw [actionsOf_append, actionsOf_single]

end Lift

/-- Two runs put together. -/
theorem Run.append {Step : σ → ε → List α → σ → Prop} {start mid last : σ}
    {first second : List (Transition σ ε α)} (front : Run Step start first mid)
    (back : Run Step mid second last) : Run Step start (first ++ second) last := by
  induction back with
  | nil => rwa [List.append_nil]
  | snoc _ step ih =>
    rw [← List.append_assoc]
    exact ih.snoc step

end VelumOS.Base.Refinement
