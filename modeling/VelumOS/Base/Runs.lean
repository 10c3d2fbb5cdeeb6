import Mathlib

/-!
# Runs of a labelled step relation, and histories kept beside them

A step takes a state to a state under an event and performs a list of observable
actions. A run records every step it made, so that a statement can quantify over
the steps as well as over the states reached. `withHistory` adds a history value
that only reads the actions; it never restricts which steps are possible.
-/
namespace VelumOS.Base.Runs

/-- One step as a run records it. -/
structure Transition (σ ε α : Type) where
  before : σ
  event : ε
  actions : List α
  after : σ

variable {σ ε α γ : Type}

/-- `Run Step start steps last`: the recorded steps lead from `start` to `last`. -/
inductive Run (Step : σ → ε → List α → σ → Prop) : σ → List (Transition σ ε α) → σ → Prop
  | nil (start : σ) : Run Step start [] start
  | snoc {start mid last : σ} {steps : List (Transition σ ε α)} {event : ε} {actions : List α}
      (earlier : Run Step start steps mid) (step : Step mid event actions last) :
      Run Step start (steps ++ [⟨mid, event, actions, last⟩]) last

/-- A transition is a step of the relation. -/
def Transition.Valid (Step : σ → ε → List α → σ → Prop) (t : Transition σ ε α) : Prop :=
  Step t.before t.event t.actions t.after

/-- Keep a history of the actions beside the state. -/
def withHistory (Step : σ → ε → List α → σ → Prop) (observe : γ → α → γ) :
    σ × γ → ε → List α → σ × γ → Prop :=
  fun before event actions after =>
    Step before.1 event actions after.1 ∧ after.2 = actions.foldl observe before.2

namespace Run
variable {Step : σ → ε → List α → σ → Prop} {start last : σ} {steps : List (Transition σ ε α)}

theorem valid (run : Run Step start steps last) : ∀ t ∈ steps, t.Valid Step := by
  induction run with
  | nil => simp
  | snoc earlier step ih =>
    intro t member
    rcases List.mem_append.mp member with old | new
    · exact ih t old
    · rw [List.mem_singleton.mp new]
      exact step

/-- A run of one step. -/
theorem single {before after : σ} {event : ε} {actions : List α}
    (step : Step before event actions after) :
    Run Step before [⟨before, event, actions, after⟩] after :=
  .snoc (.nil before) step

/-- An invariant that every step keeps, given what the run's steps satisfy,
holds before and after each of them and at the end. -/
theorem guarded_invariant (Inv : σ → Prop) (Cond : Transition σ ε α → Prop)
    (keeps : ∀ t : Transition σ ε α, t.Valid Step → Inv t.before → Cond t → Inv t.after)
    (run : Run Step start steps last) (initial : Inv start) (cond : ∀ t ∈ steps, Cond t) :
    Inv last ∧ ∀ t ∈ steps, Inv t.before ∧ Inv t.after := by
  induction run with
  | nil => exact ⟨initial, by simp⟩
  | snoc earlier step ih =>
    obtain ⟨reached, all⟩ := ih (fun t member => cond t (List.mem_append_left _ member))
    have next := keeps ⟨_, _, _, _⟩ step reached (cond _ List.mem_concat_self)
    refine ⟨next, fun t member => ?_⟩
    rcases List.mem_append.mp member with old | new
    · exact all t old
    · rw [List.mem_singleton.mp new]
      exact ⟨reached, next⟩

/-- An invariant that every step keeps holds throughout. -/
theorem invariant (Inv : σ → Prop)
    (keeps : ∀ t : Transition σ ε α, t.Valid Step → Inv t.before → Inv t.after)
    (run : Run Step start steps last) (initial : Inv start) :
    Inv last ∧ ∀ t ∈ steps, Inv t.before ∧ Inv t.after :=
  guarded_invariant Inv (fun _ => True) (fun t valid inv _ => keeps t valid inv) run initial
    (by simp)

/-- When, given the invariant, a step keeps a property exactly under a condition,
a whole run keeps it exactly when all its steps meet the condition. -/
theorem holds_iff (Inv Good : σ → Prop) (Cond : Transition σ ε α → Prop)
    (keeps : ∀ t : Transition σ ε α, t.Valid Step → Inv t.before → Inv t.after)
    (exact : ∀ t : Transition σ ε α, t.Valid Step → Inv t.before → Good t.before →
      (Good t.after ↔ Cond t))
    (run : Run Step start steps last) (initial : Inv start) (good : Good start) :
    (∀ t ∈ steps, Good t.after) ↔ ∀ t ∈ steps, Cond t := by
  constructor
  · intro always
    have reached : (Good last) ∧ ∀ t ∈ steps, Cond t := by
      induction run with
      | nil => exact ⟨good, by simp⟩
      | snoc earlier step ih =>
        obtain ⟨before, all⟩ := ih (fun t member => always t (List.mem_append_left _ member))
        have after := always _ List.mem_concat_self
        have inv := (invariant Inv keeps earlier initial).1
        have cond := (exact ⟨_, _, _, _⟩ step inv before).mp after
        refine ⟨after, fun t member => ?_⟩
        rcases List.mem_append.mp member with old | new
        · exact all t old
        · rw [List.mem_singleton.mp new]
          exact cond
    exact reached.2
  · intro cond t member
    have both := guarded_invariant (fun s => Inv s ∧ Good s) Cond
      (fun t valid inv met => ⟨keeps t valid inv.1, (exact t valid inv.1 inv.2).mpr met⟩)
      run ⟨initial, good⟩ cond
    exact (both.2 t member).2.2

end Run

/-! ## Runs with a history -/

/-- The transition without its history. -/
def Transition.forget (t : Transition (σ × γ) ε α) : Transition σ ε α :=
  ⟨t.before.1, t.event, t.actions, t.after.1⟩

section History
variable {Step : σ → ε → List α → σ → Prop} {observe : γ → α → γ}

/-- A step of the plain relation, observed. -/
theorem observed {before after : σ} {event : ε} {actions : List α}
    (step : Step before event actions after) (observe : γ → α → γ) (seen : γ) :
    withHistory Step observe (before, seen) event actions (after, actions.foldl observe seen) :=
  ⟨step, rfl⟩

/-- Actions that a history ignores leave it as it was. -/
theorem foldl_ignored (observe : γ → α → γ) (actions : List α) (seen : γ)
    (ignored : ∀ a ∈ actions, ∀ seen, observe seen a = seen) :
    actions.foldl observe seen = seen := by
  induction actions with
  | nil => rfl
  | cons a rest ih =>
    rw [List.foldl_cons, ignored a List.mem_cons_self]
    exact ih fun b member => ignored b (List.mem_cons_of_mem a member)

theorem Transition.Valid.forget {t : Transition (σ × γ) ε α}
    (valid : t.Valid (withHistory Step observe)) : t.forget.Valid Step := valid.1

theorem Transition.Valid.history {t : Transition (σ × γ) ε α}
    (valid : t.Valid (withHistory Step observe)) :
    t.after.2 = t.actions.foldl observe t.before.2 := valid.2

end History
end VelumOS.Base.Runs
