import VelumOS.Spec.Answers
import VelumOS.Source.Engine

/-!
# Work counts in the answers

The count fields of an answer sum to the iterations asked for in the chunk loop and in
`COMPUTE_PI`. `FIND_PRIMES` in one piece never sets the field, so such an answer reports
that nothing was done.
-/
namespace VelumOS.Guarantees.WorkCounts
open VelumOS.Source VelumOS.Spec Base.Batches

theorem reportedCounts_sum (op : TaskOp) (n : UInt32) :
    ((reportedCounts op n).map UInt32.toNat).sum =
      if op = .computePi ∨ 50000000 < n.toNat then n.toNat else 0 := by
  have sizes := pieces_sum n
  unfold reportedCounts
  unfold pieces at sizes
  split
  · next chunked =>
    have large : 50000000 < n.toNat := UInt32.lt_iff_toNat_lt.mp chunked
    rw [if_pos chunked] at sizes
    rw [sizes, if_pos (.inr large)]
  · next single =>
    have small : ¬ 50000000 < n.toNat := fun large => single (UInt32.lt_iff_toNat_lt.mpr large)
    rw [List.map_singleton, List.sum_singleton]
    by_cases pi : op = .computePi
    · rw [if_pos pi, if_pos (.inl pi)]
    · rw [if_neg pi, if_neg (by simp [pi, small])]
      rfl

/-- Every request to count is answered. The counts of the answer sum to the iterations
if and only if the request is for `COMPUTE_PI`, has none, or has more than one batch. -/
theorem counts_sum_iff (ctx : TaskContext) (myId : Int) (status : ClusterStatus) (msg : Message)
    (n : Nat) (request : msg.type = .taskRequest)
    (counting : Counting (TaskHeader.view msg.payload).opCode)
    (iterations : (ComputeArgs.view msg.payload).iterations.toNat = n) :
    ∃ sent, handleMessage ctx myId status msg = .ok (status, sent) ∧
      ((counts sent).sum = n ↔
        (TaskHeader.view msg.payload).opCode = .computePi ∨ n = 0 ∨ 50000000 < n) := by
  obtain ⟨sent, answered, _, reported⟩ := handleMessage_answered ctx myId status msg request
  refine ⟨sent, answered, ?_⟩
  rw [reported counting, reportedCounts_sum, iterations]
  by_cases set : (TaskHeader.view msg.payload).opCode = .computePi ∨ 50000000 < n
  · rw [if_pos set]
    exact iff_of_true rfl (set.imp_right .inr)
  · rw [if_neg set]
    rw [not_or] at set
    constructor
    · exact fun none => .inr (.inl none.symm)
    · rintro (pi | none | large)
      · exact absurd pi set.1
      · exact none.symm
      · exact absurd large set.2

/-- The chunk loop reports all of 50,000,001 iterations. -/
theorem counts_sum_chunked : ∃ sent,
    handleMessage ReadContext.refusing.task 2 (fun _ => .zero) (countRequest .findPrimes 50000001) =
      .ok (fun _ => .zero, sent) ∧ (counts sent).sum = 50000001 := by
  obtain ⟨sent, answered, sum⟩ := counts_sum_iff ReadContext.refusing.task 2 (fun _ => .zero)
    (countRequest .findPrimes 50000001) 50000001 rfl (by rw [countRequest_header]; exact .inr rfl)
    (by rw [countRequest_iterations]; rfl)
  exact ⟨sent, answered, sum.mpr (.inr (.inr (by decide)))⟩

/-- Ten iterations of `FIND_PRIMES` are reported as none. -/
theorem counts_missing : ¬ ∀ (ctx : TaskContext) (myId : Int) (status : ClusterStatus)
    (msg : Message), msg.type = .taskRequest → Counting (TaskHeader.view msg.payload).opCode →
    ∃ sent, handleMessage ctx myId status msg = .ok (status, sent) ∧
      (counts sent).sum = (ComputeArgs.view msg.payload).iterations.toNat := by
  intro always
  have header := countRequest_header .findPrimes 10
  have iterations := countRequest_iterations .findPrimes 10
  obtain ⟨sent, answered, complete⟩ := always ReadContext.refusing.task 2 (fun _ => .zero)
    (countRequest .findPrimes 10) rfl (by rw [header]; exact .inr rfl)
  obtain ⟨other, again, _, reported⟩ := handleMessage_answered ReadContext.refusing.task 2
    (fun _ => .zero) (countRequest .findPrimes 10) rfl
  rw [answered] at again
  cases again
  rw [reported (by rw [header]; exact .inr rfl), reportedCounts_sum, header, iterations] at complete
  exact absurd complete (by decide)

end VelumOS.Guarantees.WorkCounts
