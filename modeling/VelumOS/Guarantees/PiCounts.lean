import VelumOS.Spec.ChunkedTasks

/-!
# Chunked Monte Carlo agrees with the plain one

Each batch of a `COMPUTE_PI` request goes on with the draws the batch before it left,
so the hits of the batches add up to the hits of one long run. The counter of a call
stays below 2 ^ 31, since no call gets more than 50,000,000 iterations.
-/
namespace VelumOS.Guarantees.PiCounts
open VelumOS.Source VelumOS.Spec Base.Batches

/-- The `i`-th pair of draws is inside the circle. -/
def Hit (inCircle : Nat → Nat → Bool) (rand : Rand) (i : Nat) : Prop :=
  inCircle (rand (2 * i)) (rand (2 * i + 1)) = true

instance (inCircle : Nat → Nat → Bool) (rand : Rand) : DecidablePred (Hit inCircle rand) :=
  fun _ => inferInstanceAs (Decidable (_ = true))

/-- The hits among the first `n` pairs. -/
def hits (inCircle : Nat → Nat → Bool) (rand : Rand) (n : Nat) : Nat :=
  Nat.count (Hit inCircle rand) n

theorem hit_drop (inCircle : Nat → Nat → Bool) (rand : Rand) (start i : Nat) :
    Hit inCircle (rand.drop (2 * start)) i ↔ Hit inCircle rand (start + i) := by
  unfold Hit Rand.drop
  rw [Nat.mul_add, Nat.add_assoc]

theorem hits_le (inCircle : Nat → Nat → Bool) (rand : Rand) (n : Nat) :
    hits inCircle rand n ≤ n := Nat.count_le _

/-- The first pair, and the pairs behind it. -/
theorem hits_succ (inCircle : Nat → Nat → Bool) (rand : Rand) (n : Nat) :
    hits inCircle rand (n + 1) =
      hits inCircle (rand.drop 2) n + if inCircle (rand 0) (rand 1) then 1 else 0 := by
  have behind : ∀ i, Hit inCircle rand (i + 1) ↔ Hit inCircle (rand.drop 2) i := by
    intro i
    rw [Nat.add_comm]
    exact (hit_drop inCircle rand 1 i).symm
  rw [hits, Nat.count_succ', hits, count_congr n behind]
  rfl

/-- The loop adds the hits to its counter and leaves the rest of the stream. -/
theorem computePiLoop_eq (inCircle : Nat → Nat → Bool) (n : Nat) (inside : Int32) (rand : Rand) :
    computePiLoop inCircle n inside rand =
      (inside + Int32.ofNat (hits inCircle rand n), rand.drop (2 * n)) := by
  induction n generalizing inside rand with
  | zero =>
    have whole : rand.drop 0 = rand := by
      funext i
      rw [Rand.drop, Nat.zero_add]
    simp [computePiLoop, hits, whole]
  | succ n ih =>
    have further : (rand.drop 2).drop (2 * n) = rand.drop (2 * (n + 1)) := by
      funext i
      simp only [Rand.drop]
      congr 1
      omega
    rw [computePiLoop, ih, further, hits_succ]
    split
    · rw [Int32.ofNat_add, Int32.add_assoc, Int32.add_comm 1]
      rfl
    · rfl

/-- The counter after `k` iterations of a call is the number of hits so far. -/
theorem counter_exact (inCircle : Nat → Nat → Bool) (rand : Rand) (k : Nat) (few : k ≤ 50000000) :
    (computePiLoop inCircle k 0 rand).1.toInt = hits inCircle rand k := by
  have bound := hits_le inCircle rand k
  rw [computePiLoop_eq, Int32.zero_add]
  exact Int32.toInt_ofNat_of_lt (by omega)

/-- The batches of a request count their own stretch of the stream. -/
theorem runBatches_computePi (ctx : TaskContext) (sizes : List UInt32) (start : Nat) :
    runBatches ctx .computePi sizes (ctx.rand.drop (2 * start)) =
      .ok ((countBatches (Hit ctx.inCircle ctx.rand) start (sizes.map UInt32.toNat)).map
        Int32.ofNat) := by
  induction sizes generalizing start with
  | nil => rfl
  | cons batch rest ih =>
    have stretch : hits ctx.inCircle (ctx.rand.drop (2 * start)) batch.toNat =
        Nat.count (fun k => Hit ctx.inCircle ctx.rand (start + k)) batch.toNat :=
      count_congr _ (hit_drop ctx.inCircle ctx.rand start)
    have further : (ctx.rand.drop (2 * start)).drop (2 * batch.toNat) =
        ctx.rand.drop (2 * (start + batch.toNat)) := by
      funext i
      simp only [Rand.drop]
      congr 1
      omega
    have ran : runBatch ctx .computePi batch (ctx.rand.drop (2 * start)) =
        .ok (Int32.ofNat (Nat.count (fun k => Hit ctx.inCircle ctx.rand (start + k)) batch.toNat),
          ctx.rand.drop (2 * (start + batch.toNat))) := by
      rw [runBatch, taskComputePi, computePiLoop_eq, Int32.zero_add, stretch, further]
    rw [runBatches]
    apply (bind_of_ok ran _).trans
    exact bind_of_ok (ih (start + batch.toNat)) _

/-- Every `COMPUTE_PI` request is answered, and the values sent for it sum to the hits
among the first `n` pairs of the stream, a number between 0 and `n`. The argument of
each call is the `currentBatch` of some remainder; no counter of it ever differs from
the number it stands for. -/
theorem pi_values_sum (ctx : TaskContext) (myId : Int) (status : ClusterStatus) (msg : Message)
    (request : msg.type = .taskRequest)
    (op : (TaskHeader.view msg.payload).opCode = .computePi) :
    ∃ sent, handleMessage ctx myId status msg = .ok (status, sent) ∧
      total sent = hits ctx.inCircle ctx.rand (ComputeArgs.view msg.payload).iterations.toNat ∧
      0 ≤ total sent ∧ total sent ≤ (ComputeArgs.view msg.payload).iterations.toNat ∧
      ∀ batch ∈ pieces (ComputeArgs.view msg.payload).iterations, ∀ (rand : Rand) (k : Nat),
        k ≤ batch.toNat →
          (computePiLoop ctx.inCircle k 0 rand).1.toInt = hits ctx.inCircle rand k := by
  set n := (ComputeArgs.view msg.payload).iterations
  have ran := runBatches_computePi ctx (pieces n) 0
  have whole : ctx.rand.drop (2 * 0) = ctx.rand := by
    funext i
    rw [Rand.drop, Nat.mul_zero, Nat.zero_add]
  rw [whole, ← op] at ran
  obtain ⟨sent, answered, sentCounts⟩ := handleMessage_values ctx myId status msg request (.inl op)
    _ ran
  have fits := countBatches_le (Hit ctx.inCircle ctx.rand) _ 50000000 (pieces_le n) 0
  have sum : total sent = hits ctx.inCircle ctx.rand n.toNat := by
    rw [total_of_counts sent _ sentCounts fun k member => by
      have small := fits k member
      omega, sum_countBatches, pieces_sum]
    simp only [hits, Nat.zero_add]
  have bound := hits_le ctx.inCircle ctx.rand n.toNat
  refine ⟨sent, answered, sum, by omega, by omega, ?_⟩
  intro batch member rand k within
  apply counter_exact
  exact within.trans (pieces_le n _ (List.mem_map_of_mem member))

/-- A node where every pair of draws is a hit. -/
def alwaysInside : TaskContext := ⟨fun _ => .zeroed, fun _ => 0, fun _ _ => true⟩

theorem pi_values_sum_chunked : ∃ sent,
    handleMessage alwaysInside 2 (fun _ => .zero) (countRequest .computePi 120000001) =
      .ok (fun _ => .zero, sent) ∧ total sent = 120000001 := by
  obtain ⟨sent, answered, sum, _⟩ := pi_values_sum alwaysInside 2 (fun _ => .zero)
    (countRequest .computePi 120000001) rfl (by rw [countRequest_header])
  refine ⟨sent, answered, ?_⟩
  have all : hits alwaysInside.inCircle alwaysInside.rand 120000001 = 120000001 :=
    Nat.count_of_forall fun _ _ => rfl
  rw [sum, countRequest_iterations]
  exact congrArg Nat.cast all

end VelumOS.Guarantees.PiCounts
