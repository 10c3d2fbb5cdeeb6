import VelumOS.Source.NodeLogic
import VelumOS.Base.Batches

/-!
# Requests answered in pieces

The loop of `handle_message` over a request of more than 50,000,000 iterations,
read as lists: the batches, the result of each, and one message for each result.
A shorter request is a single batch.
-/
namespace VelumOS.Spec
open VelumOS.Source Base.Octets Base.Batches

/-- The batches of the chunk loop. -/
def chunkBatches (remain : UInt32) : List UInt32 :=
  (batches 50000000 remain.toNat).map UInt32.ofNat

/-- The arguments that a counting task is called with for `n` iterations. -/
def pieces (n : UInt32) : List UInt32 := if n > chunkSize then chunkBatches n else [n]

/-- The results of the batches, each run on the draws the ones before it left. -/
def runBatches (ctx : TaskContext) (op : TaskOp) : List UInt32 → Rand → Except Fault (List Int32)
  | [], _ => .ok []
  | batch :: rest, rand => do
    let (result, rand) ← runBatch ctx op batch rand
    let later ← runBatches ctx op rest rand
    .ok (result :: later)

/-- The messages of the chunk loop from round `round` on; the last one is final. -/
def chunkMessages (ctx : TaskContext) (myId : Int) (header : TaskHeader) :
    Nat → List (UInt32 × Int32) → List Message
  | _, [] => []
  | round, (batch, result) :: rest =>
    resultMessage (ctx.stack round) myId (if rest = [] then .taskResult else .taskProgress)
      { jobId := header.jobId, value := result, count := batch } ::
      chunkMessages ctx myId header (round + 1) rest

/-- The `value` fields of a list of results. -/
def values (sent : List Message) : List Int32 := sent.map fun m => (TaskResult.view m.payload).value

/-- The `count` fields of a list of results. -/
def counts (sent : List Message) : List Nat :=
  sent.map fun m => (TaskResult.view m.payload).count.toNat

/-- What a requester that adds them up gets. -/
def total (sent : List Message) : Int := ((values sent).map Int32.toInt).sum

theorem chunkSize_toNat : chunkSize.toNat = 50000000 := rfl

theorem toNat_currentBatch (remain : UInt32) :
    (currentBatch remain).toNat = min 50000000 remain.toNat := by
  unfold currentBatch
  split
  · next more =>
    have above : chunkSize.toNat < remain.toNat := UInt32.lt_iff_toNat_lt.mp more
    rw [chunkSize_toNat] at above ⊢
    omega
  · next most =>
    have below : remain.toNat ≤ chunkSize.toNat := UInt32.le_iff_toNat_le.mp (UInt32.not_lt.mp most)
    rw [chunkSize_toNat] at below
    omega

/-- The batches of what is left follow one batch. -/
theorem chunkBatches_cons (remain : UInt32) (going : 0 < remain) :
    chunkBatches remain = currentBatch remain :: chunkBatches (remain - currentBatch remain) := by
  have positive : 0 < remain.toNat := UInt32.lt_iff_toNat_lt.mp going
  rw [chunkBatches, batches_cons (by decide) positive, List.map_cons, ← toNat_currentBatch,
    UInt32.ofNat_toNat, ← UInt32.toNat_sub_of_le _ _ (currentBatch_le remain)]
  rfl

theorem chunkBatches_eq_nil (remain : UInt32) : chunkBatches remain = [] ↔ remain = 0 := by
  constructor
  · intro none
    by_contra nonzero
    rw [chunkBatches_cons remain (UInt32.pos_iff_ne_zero.mpr nonzero)] at none
    cases none
  · intro done
    rw [done]
    rfl

theorem runBatches_length (ctx : TaskContext) (op : TaskOp) (sizes : List UInt32) (rand : Rand)
    (results : List Int32) (success : runBatches ctx op sizes rand = .ok results) :
    results.length = sizes.length := by
  induction sizes generalizing rand results with
  | nil =>
    cases success
    rfl
  | cons batch rest ih =>
    obtain ⟨⟨result, left⟩, _, success⟩ := bind_success success
    obtain ⟨later, loop, success⟩ := bind_success success
    cases success
    rw [List.length_cons, List.length_cons, ih left later loop]

/-- Each message carries its batch and the result of it. -/
theorem chunkMessages_results (ctx : TaskContext) (myId : Int) (header : TaskHeader) (round : Nat)
    (pairs : List (UInt32 × Int32)) :
    (chunkMessages ctx myId header round pairs).map (fun m => TaskResult.view m.payload) =
      pairs.map fun pair => ⟨header.jobId, pair.2, pair.1⟩ := by
  induction pairs generalizing round with
  | nil => rfl
  | cons pair rest ih =>
    rw [chunkMessages, List.map_cons, List.map_cons, view_resultMessage, ih (round + 1)]

theorem chunkMessages_values (ctx : TaskContext) (myId : Int) (header : TaskHeader) (round : Nat)
    (sizes : List UInt32) (results : List Int32) (paired : results.length = sizes.length) :
    values (chunkMessages ctx myId header round (sizes.zip results)) = results := by
  have sent := congrArg (List.map TaskResult.value)
    (chunkMessages_results ctx myId header round (sizes.zip results))
  rw [List.map_map, List.map_map] at sent
  exact sent.trans (List.map_snd_zip paired.le)

theorem chunkMessages_counts (ctx : TaskContext) (myId : Int) (header : TaskHeader) (round : Nat)
    (sizes : List UInt32) (results : List Int32) (paired : results.length = sizes.length) :
    counts (chunkMessages ctx myId header round (sizes.zip results)) =
      sizes.map UInt32.toNat := by
  have sent := congrArg (List.map fun r : TaskResult => r.count.toNat)
    (chunkMessages_results ctx myId header round (sizes.zip results))
  rw [List.map_map, List.map_map] at sent
  calc counts (chunkMessages ctx myId header round (sizes.zip results))
      = (sizes.zip results).map fun pair => pair.1.toNat := sent
    _ = ((sizes.zip results).map Prod.fst).map UInt32.toNat := by
      rw [List.map_map]
      rfl
    _ = sizes.map UInt32.toNat := by rw [List.map_fst_zip paired.ge]

/-- The chunk loop runs the batches and sends one message for each. -/
theorem chunkLoop_eq (ctx : TaskContext) (myId : Int) (header : TaskHeader) (round : Nat)
    (rand : Rand) (remain : UInt32) :
    chunkLoop ctx myId header round rand remain =
      (runBatches ctx header.opCode (chunkBatches remain) rand).map fun results =>
        chunkMessages ctx myId header round ((chunkBatches remain).zip results) := by
  generalize size : remain.toNat = n
  induction n using Nat.strongRecOn generalizing round rand remain with
  | ind n ih =>
    unfold chunkLoop
    split
    · next going =>
      have positive := currentBatch_pos remain going
      have bound := UInt32.le_iff_toNat_le.mp (currentBatch_le remain)
      have left := UInt32.toNat_sub_of_le _ _ (currentBatch_le remain)
      have later := ih (remain - currentBatch remain).toNat (by omega)
      rw [chunkBatches_cons remain going]
      cases ran : runBatch ctx header.opCode (currentBatch remain) rand with
      | error fault => simp [runBatches, ran, bind, Except.bind, Except.map]
      | ok pair =>
        obtain ⟨result, rest⟩ := pair
        cases loop : runBatches ctx header.opCode (chunkBatches (remain - currentBatch remain))
          rest with
        | error fault =>
          simp [runBatches, ran, bind, Except.bind, Except.map, later (round + 1) rest _ rfl, loop]
        | ok results =>
          have paired := runBatches_length ctx _ _ _ _ loop
          have final : (chunkBatches (remain - currentBatch remain)).zip results = [] ↔
              remain - currentBatch remain = 0 := by
            rw [← chunkBatches_eq_nil, ← List.length_eq_zero_iff, List.length_zip, paired,
              Nat.min_self, List.length_eq_zero_iff]
          simp only [runBatches, ran, bind, Except.bind, Except.map, later (round + 1) rest _ rfl,
            loop, List.zip_cons_cons, chunkMessages, final]
    · next done =>
      have zero : remain = 0 := by
        by_contra nonzero
        exact done (UInt32.pos_iff_ne_zero.mpr nonzero)
      rw [(chunkBatches_eq_nil remain).mpr zero]
      rfl

theorem pieces_toNat (n : UInt32) : (pieces n).map UInt32.toNat =
    if n > chunkSize then batches 50000000 n.toNat else [n.toNat] := by
  unfold pieces
  split
  · have whole : ∀ batch ∈ batches 50000000 n.toNat, (UInt32.ofNat batch).toNat = batch := by
      intro batch member
      have bound := batches_le (by decide) member
      exact UInt32.toNat_ofNat_of_lt' (by norm_num [UInt32.size]; omega)
    rw [chunkBatches, List.map_map]
    exact (List.map_congr_left whole).trans (List.map_id _)
  · rfl

/-- The pieces hold all iterations. -/
theorem pieces_sum (n : UInt32) : ((pieces n).map UInt32.toNat).sum = n.toNat := by
  rw [pieces_toNat]
  split
  · exact batches_sum 50000000 n.toNat
  · exact List.sum_singleton

/-- No counting task is called with more than 50,000,000 iterations. -/
theorem pieces_le (n : UInt32) : ∀ batch ∈ (pieces n).map UInt32.toNat, batch ≤ 50000000 := by
  intro batch member
  rw [pieces_toNat] at member
  split at member
  · exact batches_le (by decide) member
  · next most =>
    rw [List.mem_singleton.mp member]
    exact UInt32.le_iff_toNat_le.mp (UInt32.not_lt.mp most)

/-- The op codes of the tasks that count over iterations. -/
def Counting (op : TaskOp) : Prop := op = .computePi ∨ op = .findPrimes

/-- The total work of a counting task is its iterations. -/
theorem handleTaskRequest_counting (ctx : TaskContext) (myId : Int) (payload : Payload)
    (counting : Counting (TaskHeader.view payload).opCode) :
    handleTaskRequest ctx myId payload =
      if (ComputeArgs.view payload).iterations > chunkSize then
        chunkLoop ctx myId (TaskHeader.view payload) 0 ctx.rand (ComputeArgs.view payload).iterations
      else singleTask ctx (TaskHeader.view payload) payload >>= fun res =>
        .ok [resultMessage (ctx.stack 0) myId .taskResult res] := by
  rcases counting with op | op
  · simp only [handleTaskRequest, op]
  · simp only [handleTaskRequest, op]

/-- The `count` fields of the answer to a counting request. In one piece, only
`COMPUTE_PI` sets the field. -/
def reportedCounts (op : TaskOp) (n : UInt32) : List UInt32 :=
  if n > chunkSize then chunkBatches n else [if op = .computePi then n else 0]

theorem reportedCounts_length (op : TaskOp) (n : UInt32) :
    (reportedCounts op n).length = (pieces n).length := by
  unfold reportedCounts pieces
  split <;> rfl

/-- In one piece, the result is that of the only batch. -/
theorem singleTask_counting (ctx : TaskContext) (payload : Payload)
    (counting : Counting (TaskHeader.view payload).opCode) (result : Int32) (left : Rand)
    (ran : runBatch ctx (TaskHeader.view payload).opCode (ComputeArgs.view payload).iterations
      ctx.rand = .ok (result, left)) :
    singleTask ctx (TaskHeader.view payload) payload =
      .ok ⟨(TaskHeader.view payload).jobId, result, if (TaskHeader.view payload).opCode = .computePi
        then (ComputeArgs.view payload).iterations else 0⟩ := by
  rcases counting with op | op
  · simp only [op, runBatch, Except.ok.injEq] at ran
    simp only [singleTask, op, ran, if_true]
  · simp only [op, runBatch] at ran
    obtain ⟨count, found, ran⟩ := bind_success ran
    cases ran
    simp only [singleTask, op, reduceCtorEq, if_false]
    exact bind_of_ok found _

/-- A request to count is answered with one message for each of its pieces. -/
theorem handleMessage_counting (ctx : TaskContext) (myId : Int) (status : ClusterStatus)
    (msg : Message) (request : msg.type = .taskRequest)
    (counting : Counting (TaskHeader.view msg.payload).opCode) (results : List Int32)
    (success : runBatches ctx (TaskHeader.view msg.payload).opCode
      (pieces (ComputeArgs.view msg.payload).iterations) ctx.rand = .ok results) :
    handleMessage ctx myId status msg =
      .ok (status, chunkMessages ctx myId (TaskHeader.view msg.payload) 0
        ((reportedCounts (TaskHeader.view msg.payload).opCode
          (ComputeArgs.view msg.payload).iterations).zip results)) := by
  have answered : handleTaskRequest ctx myId msg.payload =
      .ok (chunkMessages ctx myId (TaskHeader.view msg.payload) 0
        ((reportedCounts (TaskHeader.view msg.payload).opCode
          (ComputeArgs.view msg.payload).iterations).zip results)) := by
    rw [handleTaskRequest_counting ctx myId msg.payload counting]
    unfold pieces at success
    unfold reportedCounts
    split at success
    · next chunked =>
      rw [if_pos chunked, if_pos chunked, chunkLoop_eq, success]
      rfl
    · next single =>
      rw [if_neg single, if_neg single]
      obtain ⟨⟨result, left⟩, ran, success⟩ := bind_success success
      cases success
      exact bind_of_ok (singleTask_counting ctx msg.payload counting result left ran) _
  simp only [handleMessage, request]
  exact bind_of_ok answered _

/-- There is one result for each reported count. -/
theorem results_paired {ctx : TaskContext} {op : TaskOp} {n : UInt32} {rand : Rand}
    {results : List Int32} (success : runBatches ctx op (pieces n) rand = .ok results) :
    results.length = (reportedCounts op n).length := by
  rw [runBatches_length ctx op _ rand results success, reportedCounts_length]

/-- A request to count sends the results of its pieces. -/
theorem handleMessage_values (ctx : TaskContext) (myId : Int) (status : ClusterStatus)
    (msg : Message) (request : msg.type = .taskRequest)
    (counting : Counting (TaskHeader.view msg.payload).opCode) (results : List Int32)
    (success : runBatches ctx (TaskHeader.view msg.payload).opCode
      (pieces (ComputeArgs.view msg.payload).iterations) ctx.rand = .ok results) :
    ∃ sent, handleMessage ctx myId status msg = .ok (status, sent) ∧ values sent = results :=
  ⟨_, handleMessage_counting ctx myId status msg request counting results success,
    chunkMessages_values ctx myId _ 0 _ results (results_paired success)⟩

/-- Counts that fit an `int` add up to themselves. -/
theorem total_of_counts (sent : List Message) (counts : List Nat)
    (sentCounts : values sent = counts.map Int32.ofNat) (fits : ∀ n ∈ counts, n < 2 ^ 31) :
    total sent = counts.sum := by
  unfold total
  rw [sentCounts]
  clear sentCounts
  induction counts with
  | nil => rfl
  | cons n rest ih =>
    rw [List.map_cons, List.map_cons, List.sum_cons, List.sum_cons,
      Int32.toInt_ofNat_of_lt (fits n List.mem_cons_self),
      ih fun k member => fits k (List.mem_cons_of_mem n member)]
    rfl

/-- A request to count over `n` iterations, as job 7 of node 1. -/
def countRequest (op : TaskOp) (n : UInt32) : Message where
  senderId := 1
  type := .taskRequest
  payload := (Block.fill 4096 0).overlay (TaskHeader.octets ⟨op, 7⟩ ++ encodeLE 4 n.toNat)
    (by simp)

theorem countRequest_header (op : TaskOp) (n : UInt32) :
    TaskHeader.view (countRequest op n).payload = ⟨op, 7⟩ :=
  TaskHeader.view_front _ _ (encodeLE 4 n.toNat ++ _) (List.append_assoc _ _ _)

theorem countRequest_iterations (op : TaskOp) (n : UInt32) :
    (ComputeArgs.view (countRequest op n).payload).iterations = n := by
  apply word_encodeLE
  apply Block.slice_of_append _ 5 4 _ (TaskHeader.octets ⟨op, 7⟩) _ _ (List.append_assoc _ _ _)
  · exact TaskHeader.octets_length _
  · exact encodeLE_length 4 _

end VelumOS.Spec
