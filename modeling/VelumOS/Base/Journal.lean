import Mathlib

/-!
# What a sequence of actions leaves in one entry

An action overwrites the entry, changes what is there, or does not concern it. After
any sequence the entry holds what the last overwriting action wrote, changed once for
each change since.
-/
namespace VelumOS.Base.Journal

/-- How actions concern one entry. -/
structure Effects (α γ : Type) where
  writes : α → Option γ
  bumps : α → Bool
  bump : γ → γ

variable {α γ : Type} (effects : Effects α γ)

namespace Effects

/-- The entry after an action. -/
def apply (value : γ) (a : α) : γ :=
  match effects.writes a with
  | some written => written
  | none => if effects.bumps a then effects.bump value else value

/-- No action of the list overwrites the entry. -/
def Untouched (actions : List α) : Prop := ∀ a ∈ actions, effects.writes a = none

variable {effects}

theorem apply_of_none {a : α} (value : γ) (silent : effects.writes a = none) :
    effects.apply value a = if effects.bumps a then effects.bump value else value := by
  rw [apply, silent]

/-- Without an overwrite the changes are counted from the start. -/
theorem foldl_of_untouched {actions : List α} (value : γ) (untouched : effects.Untouched actions) :
    actions.foldl effects.apply value = effects.bump^[actions.countP effects.bumps] value := by
  induction actions generalizing value with
  | nil => rfl
  | cons a rest ih =>
    have later : effects.Untouched rest := fun b member => untouched b (List.mem_cons_of_mem a member)
    rw [List.foldl_cons, ih _ later, apply_of_none value (untouched a List.mem_cons_self)]
    split
    · next hit => rw [List.countP_cons_of_pos hit, Function.iterate_succ_apply]
    · next miss => rw [List.countP_cons_of_neg miss]

/-- After an overwrite nothing before it matters. -/
theorem foldl_of_written {front back : List α} {a : α} {written : γ} (value : γ)
    (wrote : effects.writes a = some written) (since : effects.Untouched back) :
    (front ++ a :: back).foldl effects.apply value =
      effects.bump^[back.countP effects.bumps] written := by
  rw [List.foldl_append, List.foldl_cons, foldl_of_untouched _ since]
  simp only [apply, wrote]

/-- There is a last overwrite, or none. -/
theorem untouched_or_written (actions : List α) : effects.Untouched actions ∨
    ∃ front a written back, actions = front ++ a :: back ∧ effects.writes a = some written ∧
      effects.Untouched back := by
  induction actions with
  | nil => exact .inl fun _ member => absurd member List.not_mem_nil
  | cons a rest ih =>
    rcases ih with untouched | ⟨front, b, written, back, rfl, wrote, since⟩
    · cases wrote : effects.writes a with
      | none =>
        refine .inl fun b member => ?_
        rcases List.mem_cons.mp member with rfl | later
        · exact wrote
        · exact untouched b later
      | some written => exact .inr ⟨[], a, written, rest, rfl, wrote, untouched⟩
    · exact .inr ⟨a :: front, b, written, back, rfl, wrote, since⟩

end Effects
end VelumOS.Base.Journal
