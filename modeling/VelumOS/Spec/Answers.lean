import VelumOS.Spec.ChunkedTasks
import VelumOS.Spec.TrialDivision

/-!
# Answers to task requests

Every `TASK_REQUEST` that reaches `handle_message` is answered: the counting tasks end on
the at most 50,000,000 iterations of a piece, and the other op codes count nothing. The
answer is a sequence of progress messages behind which one result closes the job.
-/
namespace VelumOS.Spec
open VelumOS.Source Base.Octets Base.Batches
open Nat (primeCounting')

/-- The messages of one job: progress, and one result as the last of them. -/
structure Answer (jobId : UInt32) (sent : List Message) : Prop where
  closed : ∃ progress last, sent = progress ++ [last] ∧ last.type = .taskResult ∧
    ∀ m ∈ progress, m.type = .taskProgress
  job : ∀ m ∈ sent, (TaskResult.view m.payload).jobId = jobId

/-- A result alone is an answer. -/
theorem Answer.single (old : Message) (myId : Int) (res : TaskResult) :
    Answer res.jobId [resultMessage old myId .taskResult res] where
  closed := ⟨[], _, rfl, rfl, by simp⟩
  job m member := by rw [List.mem_singleton.mp member, view_resultMessage]

/-- Progress in front of an answer is an answer. -/
theorem Answer.cons (res : TaskResult) {sent : List Message} (answer : Answer res.jobId sent)
    (old : Message) (myId : Int) :
    Answer res.jobId (resultMessage old myId .taskProgress res :: sent) where
  closed := by
    obtain ⟨progress, last, rfl, type, others⟩ := answer.closed
    exact ⟨_ :: progress, last, rfl, type, List.forall_mem_cons.mpr ⟨rfl, others⟩⟩
  job := List.forall_mem_cons.mpr ⟨by rw [view_resultMessage], answer.job⟩

/-- The messages for a list of batches that is not empty. -/
theorem chunkMessages_answer (ctx : TaskContext) (myId : Int) (header : TaskHeader) (round : Nat)
    (batches : List (UInt32 × Int32)) (some : batches ≠ []) :
    Answer header.jobId (chunkMessages ctx myId header round batches) := by
  induction batches generalizing round with
  | nil => exact absurd rfl some
  | cons batch rest ih =>
    obtain ⟨size, result⟩ := batch
    rw [chunkMessages]
    by_cases final : rest = []
    · rw [if_pos final, final]
      exact .single _ _ ⟨header.jobId, result, size⟩
    · rw [if_neg final]
      exact .cons ⟨header.jobId, result, size⟩ (ih (round + 1) final) _ _

/-- A batch of at most 50,000,000 iterations ends. -/
theorem runBatch_returns (ctx : TaskContext) (op : TaskOp) (batch : UInt32) (rand : Rand)
    (small : batch.toNat ≤ 50000000) : ∃ done, runBatch ctx op batch rand = .ok done := by
  cases op with
  | findPrimes => exact ⟨_, bind_of_ok (taskFindPrimes_eq batch (by omega)) _⟩
  | _ => exact ⟨_, rfl⟩

theorem runBatches_returns (ctx : TaskContext) (op : TaskOp) (sizes : List UInt32) (rand : Rand)
    (small : ∀ batch ∈ sizes.map UInt32.toNat, batch ≤ 50000000) :
    ∃ results, runBatches ctx op sizes rand = .ok results := by
  induction sizes generalizing rand with
  | nil => exact ⟨[], rfl⟩
  | cons batch rest ih =>
    obtain ⟨⟨result, left⟩, ran⟩ := runBatch_returns ctx op batch rand
      (small batch.toNat List.mem_cons_self)
    obtain ⟨later, loop⟩ := ih left fun b member => small b (List.mem_cons_of_mem _ member)
    exact ⟨result :: later, (bind_of_ok ran _).trans (bind_of_ok loop _)⟩

theorem pieces_ne_nil (n : UInt32) : pieces n ≠ [] := by
  unfold pieces
  split
  · next chunked =>
    intro none
    rw [(chunkBatches_eq_nil n).mp none] at chunked
    exact absurd chunked (by decide)
  · exact List.cons_ne_nil _ _

/-- An op code that counts nothing is answered in one piece, with a count of 0. -/
theorem handleTaskRequest_plain (ctx : TaskContext) (myId : Int) (payload : Payload)
    (plain : ¬ Counting (TaskHeader.view payload).opCode) :
    ∃ value, handleTaskRequest ctx myId payload = .ok [resultMessage (ctx.stack 0) myId .taskResult
      ⟨(TaskHeader.view payload).jobId, value, 0⟩] := by
  have work : handleTaskRequest ctx myId payload =
      singleTask ctx (TaskHeader.view payload) payload >>= fun res =>
        .ok [resultMessage (ctx.stack 0) myId .taskResult res] := by
    cases op : (TaskHeader.view payload).opCode with
    | computePi => exact absurd (.inl op) plain
    | findPrimes => exact absurd (.inr op) plain
    | _ => simp only [handleTaskRequest, op, if_neg (by decide : ¬ (0 : UInt32) > chunkSize)]
  rw [work]
  unfold singleTask
  split
  · exact ⟨_, rfl⟩
  · exact ⟨_, rfl⟩
  · next op => exact absurd (.inl op) plain
  · next op => exact absurd (.inr op) plain
  · exact ⟨_, rfl⟩

/-- Every task request is answered; the answer to a counting request reports the counts
of its pieces. -/
theorem handleMessage_answered (ctx : TaskContext) (myId : Int) (status : ClusterStatus)
    (msg : Message) (request : msg.type = .taskRequest) :
    ∃ sent, handleMessage ctx myId status msg = .ok (status, sent) ∧
      Answer (TaskHeader.view msg.payload).jobId sent ∧
      (Counting (TaskHeader.view msg.payload).opCode → counts sent =
        (reportedCounts (TaskHeader.view msg.payload).opCode
          (ComputeArgs.view msg.payload).iterations).map UInt32.toNat) := by
  by_cases counting : Counting (TaskHeader.view msg.payload).opCode
  · obtain ⟨results, ran⟩ := runBatches_returns ctx (TaskHeader.view msg.payload).opCode _ ctx.rand
      (pieces_le (ComputeArgs.view msg.payload).iterations)
    have paired := results_paired ran
    refine ⟨_, handleMessage_counting ctx myId status msg request counting results ran, ?_,
      fun _ => chunkMessages_counts ctx myId _ 0 _ results paired⟩
    apply chunkMessages_answer
    rw [← List.length_pos_iff, List.length_zip, paired, Nat.min_self, reportedCounts_length]
    exact List.length_pos_iff.mpr (pieces_ne_nil _)
  · obtain ⟨value, answered⟩ := handleTaskRequest_plain ctx myId msg.payload counting
    refine ⟨_, ?_, .single (ctx.stack 0) myId ⟨_, value, 0⟩, fun other => absurd other counting⟩
    simp only [handleMessage, request]
    exact bind_of_ok answered _

/-! ## Prime counts -/

theorem primeCounting'_le (n : Nat) : primeCounting' n ≤ n := Nat.count_le _

/-- Every batch counts the primes below its own size. -/
theorem runBatches_findPrimes (ctx : TaskContext) (sizes : List UInt32) (rand : Rand)
    (small : ∀ batch ∈ sizes.map UInt32.toNat, batch ≤ 50000000) :
    runBatches ctx .findPrimes sizes rand =
      .ok (((sizes.map UInt32.toNat).map primeCounting').map Int32.ofNat) := by
  induction sizes with
  | nil => rfl
  | cons batch rest ih =>
    have bound := small batch.toNat List.mem_cons_self
    have counted := taskFindPrimes_eq batch (by omega)
    have ran : runBatch ctx .findPrimes batch rand =
        .ok (Int32.ofNat (primeCounting' batch.toNat), rand) := bind_of_ok counted _
    have later := ih fun b member => small b (List.mem_cons_of_mem _ member)
    rw [runBatches]
    apply (bind_of_ok ran _).trans
    exact bind_of_ok later _

/-- A `FIND_PRIMES` request is answered with the prime counts of its pieces. -/
theorem findPrimes_values (ctx : TaskContext) (myId : Int) (status : ClusterStatus) (msg : Message)
    (request : msg.type = .taskRequest)
    (op : (TaskHeader.view msg.payload).opCode = .findPrimes) :
    ∃ sent, handleMessage ctx myId status msg = .ok (status, sent) ∧ values sent =
      (((pieces (ComputeArgs.view msg.payload).iterations).map UInt32.toNat).map
        primeCounting').map Int32.ofNat := by
  have small := pieces_le (ComputeArgs.view msg.payload).iterations
  have ran := runBatches_findPrimes ctx _ ctx.rand small
  rw [← op] at ran
  exact handleMessage_values ctx myId status msg request (.inr op) _ ran

end VelumOS.Spec
