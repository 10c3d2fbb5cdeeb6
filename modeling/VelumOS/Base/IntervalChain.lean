import Mathlib

/-!
# Consecutive intervals

A chain from `a` to `b` is a list of half-open intervals, each starting where the
one before it ends. It holds every point between `a` and `b` exactly once, and an
interval-additive measure sums over it to the measure of the whole.
-/
namespace VelumOS.Base.IntervalChain

variable {α : Type} [LinearOrder α]

/-- Intervals that lead from one point to another without gap or overlap. -/
inductive Chain : α → α → List (α × α) → Prop
  | nil (a : α) : Chain a a []
  | cons {a m b : α} {rest : List (α × α)} (ordered : a ≤ m) (tail : Chain m b rest) :
      Chain a b ((a, m) :: rest)

/-- `x` lies in the half-open interval. -/
def Inside (x : α) (interval : α × α) : Prop := interval.1 ≤ x ∧ x < interval.2

instance (x : α) (interval : α × α) : Decidable (Inside x interval) :=
  inferInstanceAs (Decidable (_ ∧ _))

theorem Chain.le {a b : α} {intervals : List (α × α)} (chain : Chain a b intervals) : a ≤ b := by
  induction chain with
  | nil => exact le_refl _
  | cons ordered tail ih => exact le_trans ordered ih

/-- A point is inside as many of the intervals as of the whole: one or none. -/
theorem Chain.count_inside {a b : α} {intervals : List (α × α)} (chain : Chain a b intervals)
    (x : α) : intervals.countP (fun interval => Inside x interval) =
      if Inside x (a, b) then 1 else 0 := by
  induction chain with
  | nil a =>
    have empty : ¬ Inside x (a, a) := fun inside => absurd (lt_of_le_of_lt inside.1 inside.2)
      (lt_irrefl a)
    rw [if_neg empty, List.countP_nil]
  | @cons a m b rest ordered tail ih =>
    have reach := tail.le
    rw [List.countP_cons, ih]
    by_cases first : Inside x (a, m)
    · have whole : Inside x (a, b) := ⟨first.1, lt_of_lt_of_le first.2 reach⟩
      have later : ¬ Inside x (m, b) := fun inside => absurd first.2 (not_lt.mpr inside.1)
      simp [first, whole, later]
    · by_cases later : Inside x (m, b)
      · have whole : Inside x (a, b) := ⟨le_trans ordered later.1, later.2⟩
        simp [first, whole, later]
      · have whole : ¬ Inside x (a, b) := by
          intro inside
          rcases lt_or_ge x m with before | after
          · exact first ⟨inside.1, before⟩
          · exact later ⟨after, inside.2⟩
        simp [first, whole, later]

/-- Sum of an interval-additive measure over a nonempty chain. -/
theorem Chain.sum_additive {M : Type} [AddMonoid M] {a b : α} {intervals : List (α × α)}
    (chain : Chain a b intervals) (nonempty : intervals ≠ []) (f : α → α → M)
    (additive : ∀ x y z, x ≤ y → y ≤ z → f x z = f x y + f y z) :
    (intervals.map fun interval => f interval.1 interval.2).sum = f a b := by
  induction chain with
  | nil => exact absurd rfl nonempty
  | @cons a m b rest ordered tail ih =>
    cases tail with
    | nil => simp
    | cons next further =>
      have rest_sum := ih (by simp)
      rw [List.map_cons, List.sum_cons, rest_sum]
      exact (additive a m b ordered (Chain.cons next further).le).symm

end VelumOS.Base.IntervalChain
