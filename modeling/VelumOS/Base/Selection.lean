import Mathlib

/-!
# Selecting the best, and lowering it

`improve` is one round of a scan that keeps the first best element beside its score and
starts from a floor below all scores; such a scan is `List.argmax`. Whoever always
selects a best element and lowers its score by a constant keeps the scores together: no
element is ever more than that constant ahead of one that was selected.
-/
namespace VelumOS.Base.Selection

section Scan
variable {ι α : Type} [LinearOrder α]

/-- One round of the scan: the best element so far, and its score. -/
def improve (score : ι → α) (best : Option ι × α) (i : ι) : Option ι × α :=
  if best.2 < score i then (some i, score i) else best

/-- From a floor below all scores, the scan finds the first of the best elements. -/
theorem foldl_improve (score : ι → α) (floor : α) (is : List ι)
    (above : ∀ i ∈ is, floor < score i) :
    is.foldl (improve score) (none, floor) =
      (is.argmax score).elim (none, floor) fun i => (some i, score i) := by
  induction is using List.reverseRecOn with
  | nil => rfl
  | append_singleton is i ih =>
    have earlier := ih fun j member => above j (List.mem_append_left _ member)
    rw [List.foldl_append, earlier, List.argmax_concat]
    cases List.argmax score is with
    | none => exact if_pos (above i List.mem_concat_self)
    | some best =>
      simp only [Option.elim_some, List.foldl_cons, List.foldl_nil, improve]
      split <;> rfl

variable [LinearOrder ι]

/-- In an ascending list the first of the best elements is the least of them. -/
theorem least_of_argmax (score : ι → α) {is : List ι} (ascending : is.Pairwise (· < ·)) {m : ι}
    (best : is.argmax score = some m) : ∀ j ∈ is, score m ≤ score j → m ≤ j := by
  induction is with
  | nil => cases best
  | cons i rest ih =>
    obtain ⟨first, later⟩ := List.pairwise_cons.mp ascending
    rw [List.argmax_cons] at best
    intro j member reaches
    cases found : rest.argmax score with
    | none =>
      rw [List.argmax_eq_none] at found
      simp only [found, List.argmax_nil, Option.some.injEq] at best
      rw [found, List.mem_singleton] at member
      exact (best.symm.trans member.symm).le
    | some c =>
      simp only [found] at best
      split at best
      · next ahead =>
        cases best
        rcases List.mem_cons.mp member with rfl | inside
        · exact absurd ahead reaches.not_gt
        · exact ih later found j inside reaches
      · cases best
        rcases List.mem_cons.mp member with rfl | inside
        · exact le_rfl
        · exact (first j inside).le

/-- What `List.argmax` selects from an ascending list. -/
theorem argmax_eq_some_iff_least (score : ι → α) {is : List ι} (ascending : is.Pairwise (· < ·))
    (m : ι) : is.argmax score = some m ↔
      m ∈ is ∧ ∀ j ∈ is, score j ≤ score m ∧ (score j = score m → m ≤ j) := by
  constructor
  · intro best
    refine ⟨List.argmax_mem best, fun j member => ⟨List.le_of_mem_argmax member best, ?_⟩⟩
    exact fun same => least_of_argmax score ascending best j member same.ge
  · rintro ⟨member, bounds⟩
    cases found : is.argmax score with
    | none =>
      rw [List.argmax_eq_none.mp found] at member
      cases member
    | some c =>
      have inside := List.argmax_mem found
      have same : score c = score m :=
        le_antisymm (bounds c inside).1 (List.le_of_mem_argmax member found)
      have first := least_of_argmax score ascending found m member same.le
      rw [le_antisymm first ((bounds c inside).2 same)]

end Scan

section Greedy
variable {ι α : Type} [DecidableEq ι] [AddCommGroup α] [LinearOrder α] [IsOrderedAddMonoid α]

/-- Lower the score of one element by `c`. -/
def lower (c : α) (score : ι → α) (i : ι) : ι → α := Function.update score i (score i - c)

/-- No eligible element is more than `c` ahead of one that was selected. -/
def Balanced (eligible : ι → Prop) (c : α) (score : ι → α) (selected : ι → Prop) : Prop :=
  ∀ i, selected i → ∀ j, eligible j → score j ≤ score i + c

omit [DecidableEq ι] [IsOrderedAddMonoid α] in
/-- Before anything is selected there is nothing to balance. -/
theorem balanced_none (eligible : ι → Prop) (c : α) (score : ι → α) :
    Balanced eligible c score fun _ => False := fun _ absent => absurd absent id

theorem lower_le {c : α} (nonneg : 0 ≤ c) (score : ι → α) (i j : ι) :
    lower c score i j ≤ score j := by
  rw [lower, Function.update_apply]
  split
  · next same =>
    rw [same]
    exact sub_le_self _ nonneg
  · exact le_rfl

/-- Selecting a best element and lowering it keeps the balance. -/
theorem Balanced.lower {eligible selected : ι → Prop} {c : α} {score : ι → α} {w : ι}
    (balanced : Balanced eligible c score selected) (nonneg : 0 ≤ c)
    (best : ∀ j, eligible j → score j ≤ score w) :
    Balanced eligible c (lower c score w) fun i => selected i ∨ i = w := by
  intro i either j other
  have below := lower_le nonneg score w j
  by_cases same : i = w
  · rw [same, Selection.lower, Function.update_self, sub_add_cancel]
    exact below.trans (best j other)
  · have earlier := either.resolve_right same
    have kept : Selection.lower c score w i = score i := Function.update_of_ne same ..
    rw [kept]
    exact below.trans (balanced i earlier j other)

end Greedy
end VelumOS.Base.Selection
