import VelumOS.Base.Runs

/-!
# Timers that remember when they fired last

A timer fires when the clock is more than a period past its mark, and then the mark is
the clock. The clock is not assumed to advance, and a timer may fire without being seen.
However the steps of a run are made, the times at which it is seen to fire are more than
a period apart.
-/
namespace VelumOS.Base.Timers
open Runs

/-- Times in a list follow each other by more than a period. -/
def Spaced (period : Int) (times : List Int) : Prop :=
  times.IsChain fun earlier later => period < later - earlier

variable {σ ε α : Type} {Step : σ → ε → List α → σ → Prop}

/-- The steps do not take the mark back, or they are seen to fire and set it. -/
def Keeps (Step : σ → ε → List α → σ → Prop) (mark : σ → Int)
    (fires : Transition σ ε α → Option Int) (period : Int) : Prop :=
  ∀ t : Transition σ ε α, t.Valid Step →
    (fires t = none ∧ mark t.before ≤ mark t.after) ∨
      ∃ now, fires t = some now ∧ period < now - mark t.before ∧ mark t.after = now

theorem Spaced.snoc {period last now : Int} {times : List Int} (spaced : Spaced period times)
    (ends : times.getLast? = some last) (due : period < now - last) :
    Spaced period (times ++ [now]) := by
  apply List.IsChain.append spaced (.singleton now)
  intro x final y first
  rw [ends] at final
  cases final
  cases first
  exact due

/-- The marks seen in a run, from its start on, are spaced, and the last one is no later
than the mark now. -/
theorem Keeps.spaced {mark : σ → Int} {fires : Transition σ ε α → Option Int} {period : Int}
    (keeps : Keeps Step mark fires period) {start last : σ} {steps : List (Transition σ ε α)}
    (run : Run Step start steps last) :
    Spaced period (mark start :: steps.filterMap fires) ∧
      ∃ final, (mark start :: steps.filterMap fires).getLast? = some final ∧ final ≤ mark last := by
  induction run with
  | nil => exact ⟨.singleton _, _, rfl, le_rfl⟩
  | snoc earlier step ih =>
    obtain ⟨spaced, final, ends, past⟩ := ih
    rw [List.filterMap_append, ← List.cons_append]
    rcases keeps ⟨_, _, _, _⟩ step with ⟨silent, onward⟩ | ⟨now, fired, due, stored⟩
    · rw [List.filterMap_cons_none silent, List.filterMap_nil, List.append_nil]
      exact ⟨spaced, final, ends, past.trans onward⟩
    · rw [List.filterMap_cons_some fired, List.filterMap_nil]
      dsimp only at due
      refine ⟨spaced.snoc ends (by omega), now, List.getLast?_concat .., ?_⟩
      exact stored.ge

/-- Spaced times take time. -/
theorem Spaced.length_le {period first last : Int} {times : List Int}
    (spaced : Spaced period (first :: times)) (ends : (first :: times).getLast? = some last) :
    (times.length : Int) * (period + 1) ≤ last - first := by
  induction times generalizing first with
  | nil =>
    simp only [List.getLast?_singleton, Option.some.injEq] at ends
    simp [ends]
  | cons next rest ih =>
    rw [Spaced, List.isChain_cons_cons] at spaced
    rw [List.getLast?_cons_cons] at ends
    have later := ih spaced.2 ends
    rw [List.length_cons]
    push_cast
    linarith [spaced.1]

/-- How often a timer is seen to fire is bounded by the way of its mark. -/
theorem Keeps.length_le {mark : σ → Int} {fires : Transition σ ε α → Option Int} {period : Int}
    (keeps : Keeps Step mark fires period) {start last : σ} {steps : List (Transition σ ε α)}
    (run : Run Step start steps last) :
    ((steps.filterMap fires).length : Int) * (period + 1) ≤ mark last - mark start := by
  obtain ⟨spaced, final, ends, past⟩ := keeps.spaced run
  have bound := spaced.length_le ends
  omega

end VelumOS.Base.Timers
