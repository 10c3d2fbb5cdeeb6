import VelumOS.Spec.Answers
import VelumOS.Source.Engine

/-!
# The reply protocol of `handle_message`

A requester can rely on one `TASK_RESULT` for each request, behind any number of
`TASK_PROGRESS`. For the counting tasks the number of messages is that of the batches,
also where the iterations are a multiple of the batch size, and the loop takes from the
remainder what is in it and no more.
-/
namespace VelumOS.Guarantees.ReplyProtocol
open VelumOS.Source VelumOS.Spec Base.Batches

/-- The answer to a request of more than 50,000,000 iterations reports the batches. -/
theorem reportedCounts_batches (op : TaskOp) (n : UInt32) (large : 50000000 < n.toNat) :
    (reportedCounts op n).map UInt32.toNat = batches 50000000 n.toNat := by
  have chunked : n > chunkSize := UInt32.lt_iff_toNat_lt.mpr large
  have sizes := pieces_toNat n
  rw [pieces, if_pos chunked, if_pos chunked] at sizes
  rw [reportedCounts, if_pos chunked, sizes]

/-- There is one message for each batch, and one for a request without iterations. -/
theorem reportedCounts_length_eq (op : TaskOp) (n : UInt32) :
    (reportedCounts op n).length = max 1 (n.toNat ⌈/⌉ 50000000) := by
  rcases Nat.lt_or_ge 50000000 n.toNat with large | small
  · have sizes := congrArg List.length (reportedCounts_batches op n large)
    rw [List.length_map, batches_length (by decide)] at sizes
    rw [sizes, Nat.ceilDiv_eq_add_pred_div]
    omega
  · have single : ¬ n > chunkSize := fun more =>
      absurd (UInt32.lt_iff_toNat_lt.mp more) (Nat.not_lt.mpr small)
    rw [reportedCounts, if_neg single, List.length_singleton, Nat.ceilDiv_eq_add_pred_div]
    omega

/-- The remainder after a batch is what the loop has not done yet. -/
theorem remainder_exact (remain : UInt32) :
    (remain - currentBatch remain).toNat = remain.toNat - (currentBatch remain).toNat ∧
      (currentBatch remain).toNat ≤ remain.toNat :=
  ⟨UInt32.toNat_sub_of_le _ _ (currentBatch_le remain),
    UInt32.le_iff_toNat_le.mp (currentBatch_le remain)⟩

/-- Every `TASK_REQUEST` is answered on its socket by progress messages and one result
behind them, all for its job. For a counting task of `n` iterations they are as many as
batches, and one at least; beyond 50,000,000 iterations the `k`-th reports what the
batches before it left, up to a whole batch. No remainder of the loop underflows. -/
theorem request_answered (ctx : TaskContext) (myId : Int) (status : ClusterStatus) (msg : Message)
    (n : Nat) (request : msg.type = .taskRequest)
    (iterations : (ComputeArgs.view msg.payload).iterations.toNat = n) :
    ∃ sent, handleMessage ctx myId status msg = .ok (status, sent) ∧
      Answer (TaskHeader.view msg.payload).jobId sent ∧
      (Counting (TaskHeader.view msg.payload).opCode →
        sent.length = max 1 (n ⌈/⌉ 50000000) ∧
        (50000000 < n → ∀ k, 1 ≤ k → k ≤ sent.length → 50000000 * (k - 1) < n ∧
          (counts sent)[k - 1]? = some (min 50000000 (n - 50000000 * (k - 1))))) ∧
      ∀ remain : UInt32,
        (remain - currentBatch remain).toNat = remain.toNat - (currentBatch remain).toNat ∧
          (currentBatch remain).toNat ≤ remain.toNat := by
  obtain ⟨sent, answered, answer, reported⟩ := handleMessage_answered ctx myId status msg request
  refine ⟨sent, answered, answer, fun counting => ?_, remainder_exact⟩
  have counted := reported counting
  have length : sent.length = max 1 (n ⌈/⌉ 50000000) := by
    have sizes := congrArg List.length counted
    rwa [counts, List.length_map, List.length_map, reportedCounts_length_eq, iterations] at sizes
  refine ⟨length, fun large k first last => ?_⟩
  rw [reportedCounts_batches _ _ (by omega), iterations] at counted
  have left : 50000000 * (k - 1) < n := by
    apply batches_before (by decide)
    rw [length] at last
    have some : 1 ≤ n ⌈/⌉ 50000000 := by
      rw [Nat.ceilDiv_eq_add_pred_div]
      omega
    omega
  exact ⟨left, by rw [counted, batches_getElem? (by decide) left]⟩

/-- Two full batches: one progress message and the result. -/
theorem request_answered_two : ∃ sent,
    handleMessage ReadContext.refusing.task 2 (fun _ => .zero) (countRequest .findPrimes 100000000) =
      .ok (fun _ => .zero, sent) ∧ Answer 7 sent ∧ sent.length = 2 ∧
      (counts sent)[1]? = some 50000000 := by
  have header := countRequest_header .findPrimes 100000000
  obtain ⟨sent, answered, answer, counting, _⟩ := request_answered ReadContext.refusing.task 2
    (fun _ => .zero) (countRequest .findPrimes 100000000) 100000000 rfl
    (by rw [countRequest_iterations]; rfl)
  rw [header] at answer counting
  obtain ⟨length, batch⟩ := counting (.inr rfl)
  have two : max 1 (100000000 ⌈/⌉ 50000000) = 2 := by decide
  rw [two] at length
  exact ⟨sent, answered, answer, length, (batch (by decide) 2 (by decide) length.ge).2⟩

end VelumOS.Guarantees.ReplyProtocol
