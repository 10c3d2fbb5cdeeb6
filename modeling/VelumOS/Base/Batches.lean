import Mathlib

/-!
# Work cut into batches

`batches size n` are the sizes of the batches that a loop takes `n` units in, `size`
units at a time and the rest last. A count over the units is the sum of the counts
over the batches when each batch goes on where the one before it ended. A count that
starts over in each batch sums to something else.
-/
namespace VelumOS.Base.Batches

def batches (size n : Nat) : List Nat :=
  List.replicate (n / size) size ++ if n % size = 0 then [] else [n % size]

@[simp] theorem batches_zero (size : Nat) : batches size 0 = [] := by simp [batches]

/-- The loop: one batch, then the batches of what is left. -/
theorem batches_cons {size n : Nat} (positive : 0 < size) (left : 0 < n) :
    batches size n = min size n :: batches size (n - min size n) := by
  unfold batches
  rcases lt_or_ge n size with small | large
  · have last : n % size ≠ 0 := by
      rw [Nat.mod_eq_of_lt small]
      omega
    rw [Nat.min_eq_right small.le, Nat.sub_self, Nat.div_eq_of_lt small, if_neg last,
      Nat.mod_eq_of_lt small]
    simp
  · have quotient : n / size = (n - size) / size + 1 := Nat.div_eq_sub_div positive large
    have rest : n % size = (n - size) % size := Nat.mod_eq_sub_mod large
    rw [Nat.min_eq_left large, quotient, List.replicate_succ, rest, List.cons_append]

/-- The batches hold all units. -/
theorem batches_sum (size n : Nat) : (batches size n).sum = n := by
  have whole := Nat.div_add_mod n size
  rw [Nat.mul_comm] at whole
  unfold batches
  split
  · next none =>
    rw [none] at whole
    simpa using whole
  · simpa using whole

theorem batches_le {size n batch : Nat} (positive : 0 < size) (member : batch ∈ batches size n) :
    batch ≤ size := by
  have last := Nat.mod_lt n positive
  unfold batches at member
  rcases List.mem_append.mp member with full | rest
  · exact (List.eq_of_mem_replicate full).le
  · split at rest
    · cases rest
    · rw [List.mem_singleton.mp rest]
      exact last.le

/-- There are as many batches as units, rounded up. -/
theorem batches_length {size : Nat} (positive : 0 < size) (n : Nat) :
    (batches size n).length = n ⌈/⌉ size := by
  have whole := Nat.div_add_mod n size
  have last := Nat.mod_lt n positive
  rw [Nat.ceilDiv_eq_add_pred_div]
  unfold batches
  split
  · next none =>
    have quotient : (n + size - 1) / size = n / size := by
      rw [Nat.div_eq_iff positive, Nat.mul_comm]
      omega
    simp [quotient]
  · next some =>
    have quotient : (n + size - 1) / size = n / size + 1 := by
      rw [Nat.div_eq_iff positive, Nat.add_mul, Nat.mul_comm]
      omega
    simp [quotient]

/-- The batches taken before one hold `size` units each, and it takes `size` of what is
left, or all. -/
theorem batches_getElem? {size n k : Nat} (positive : 0 < size) (left : size * k < n) :
    (batches size n)[k]? = some (min size (n - size * k)) := by
  induction k generalizing n with
  | zero =>
    rw [batches_cons positive (by omega), List.getElem?_cons_zero, Nat.mul_zero, Nat.sub_zero]
  | succ k ih =>
    rw [Nat.mul_succ] at left ⊢
    have full : min size n = size := Nat.min_eq_left (by omega)
    rw [batches_cons positive (by omega), List.getElem?_cons_succ, full, ih (by omega),
      Nat.sub_sub, Nat.add_comm size]

/-- Only an index below the number of batches has a batch with units in it. -/
theorem batches_before {size n k : Nat} (positive : 0 < size) (member : k < n ⌈/⌉ size) :
    size * k < n := by
  by_contra past
  have bound : n ⌈/⌉ size ≤ k := (ceilDiv_le_iff_le_mul positive).mpr (by omega)
  omega

/-- The sum of a count that starts over in each batch. -/
theorem sum_map_batches (size n : Nat) (f : Nat → Nat) (empty : f 0 = 0) :
    ((batches size n).map f).sum = n / size * f size + f (n % size) := by
  unfold batches
  split
  · next none => simp [none, empty]
  · simp

theorem count_congr {p q : Nat → Prop} [DecidablePred p] [DecidablePred q] (n : Nat)
    (same : ∀ k, p k ↔ q k) : Nat.count p n = Nat.count q n :=
  le_antisymm (Nat.count_mono_left fun k _ => (same k).mp)
    (Nat.count_mono_left fun k _ => (same k).mpr)

/-- A count that goes on from batch to batch, the first starting at `start`. -/
def countBatches (p : Nat → Prop) [DecidablePred p] : Nat → List Nat → List Nat
  | _, [] => []
  | start, batch :: rest =>
    Nat.count (fun k => p (start + k)) batch :: countBatches p (start + batch) rest

/-- It sums to the count over all units. -/
theorem sum_countBatches (p : Nat → Prop) [DecidablePred p] (start : Nat) (sizes : List Nat) :
    (countBatches p start sizes).sum = Nat.count (fun k => p (start + k)) sizes.sum := by
  induction sizes generalizing start with
  | nil => rfl
  | cons batch rest ih =>
    rw [countBatches, List.sum_cons, ih, List.sum_cons, Nat.count_add]
    simp only [Nat.add_assoc]

/-- No batch counts more than it has units. -/
theorem countBatches_le (p : Nat → Prop) [DecidablePred p] (sizes : List Nat) (bound : Nat)
    (small : ∀ batch ∈ sizes, batch ≤ bound) (start : Nat) :
    ∀ n ∈ countBatches p start sizes, n ≤ bound := by
  induction sizes generalizing start with
  | nil => simp [countBatches]
  | cons batch rest ih =>
    intro n member
    rcases List.mem_cons.mp member with rfl | later
    · exact (Nat.count_le _).trans (small batch List.mem_cons_self)
    · exact ih (fun b inside => small b (List.mem_cons_of_mem _ inside)) _ n later

end VelumOS.Base.Batches
