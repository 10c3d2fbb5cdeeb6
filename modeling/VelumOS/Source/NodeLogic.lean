import VelumOS.Source.UserTasks

/-!
# Node logic

`src/node_logic.cpp`: the status table, the built-in task requests, node selection
and the reset of a dead node. `handleMessage` returns the messages it sends on
`src_socket` in order. A local `Message` is filled over whatever its memory held
before, given by `stack`.
-/
namespace VelumOS.Source
open Base.Octets

/-- `NodeStatus cluster_status[MAX_PEERS + 1]`. -/
abbrev ClusterStatus := Fin 17 → NodeStatus

/-- `MAX_PEERS + 1` is not zero, so a numeral names an entry of the table. -/
instance statusEntries_ne_zero : NeZero 17 := ⟨by decide⟩

/-- What a thread's stack and library state hold when a message is handled: the
old contents of the local `Message` objects, the draws of `rand()` and the
floating-point test of `task_compute_pi`. -/
structure TaskContext where
  stack : Nat → Message
  rand : Rand
  inCircle : Nat → Nat → Bool

def markNodeBusy (status : ClusterStatus) (nodeId : Int) : Except Fault ClusterStatus :=
  if 0 < nodeId ∧ nodeId ≤ 16 then do
    let node ← readEntry status nodeId
    writeEntry status nodeId { node with taskQueueLen := node.taskQueueLen + 1 }
  else .ok status

/-- A local message with a result in it: `sender_id`, `type` and the first twelve
octets of the payload are set. -/
def resultMessage (old : Message) (myId : Int) (type : MsgType) (res : TaskResult) : Message where
  senderId := UInt16.ofInt myId
  type := type
  payload := old.payload.overlay res.octets (by simp)

/-- The result is read back. -/
theorem view_resultMessage (old : Message) (myId : Int) (type : MsgType) (res : TaskResult) :
    TaskResult.view (resultMessage old myId type res).payload = res :=
  TaskResult.view_front _ res _ rfl

def chunkSize : UInt32 := 50000000

/-- `current_batch`. -/
def currentBatch (remain : UInt32) : UInt32 := if remain > chunkSize then chunkSize else remain

theorem currentBatch_le (remain : UInt32) : currentBatch remain ≤ remain := by
  unfold currentBatch
  split
  · next more => exact UInt32.le_of_lt more
  · exact UInt32.le_refl _

theorem currentBatch_pos (remain : UInt32) (going : 0 < remain) :
    0 < (currentBatch remain).toNat := by
  unfold currentBatch
  split
  · decide
  · simpa [UInt32.lt_iff_toNat_lt] using going

/-- One batch of the chunk loop. -/
def runBatch (ctx : TaskContext) (op : TaskOp) (batch : UInt32) (rand : Rand) :
    Except Fault (Int32 × Rand) :=
  match op with
  | .computePi => .ok (taskComputePi ctx.inCircle rand batch)
  | .findPrimes => do
    let count ← taskFindPrimes batch
    .ok (count, rand)
  | _ => .ok (0, rand)

/-- `while (remain > 0)` of the chunked tasks; `round` numbers the iterations. -/
def chunkLoop (ctx : TaskContext) (myId : Int) (header : TaskHeader) (round : Nat) (rand : Rand)
    (remain : UInt32) : Except Fault (List Message) :=
  if _going : 0 < remain then do
    let (chunkResult, rand) ← runBatch ctx header.opCode (currentBatch remain) rand
    let progress : TaskResult :=
      { jobId := header.jobId, value := chunkResult, count := currentBatch remain }
    let left := remain - currentBatch remain
    let update := resultMessage (ctx.stack round) myId
      (if left = 0 then .taskResult else .taskProgress) progress
    let later ← chunkLoop ctx myId header (round + 1) rand left
    .ok (update :: later)
  else .ok []
termination_by remain.toNat
decreasing_by
  have positive := currentBatch_pos remain _going
  have bound := UInt32.le_iff_toNat_le.mp (currentBatch_le remain)
  rw [UInt32.toNat_sub_of_le _ _ (currentBatch_le remain)]
  omega

/-- The task requests that are answered in one piece. -/
def singleTask (ctx : TaskContext) (header : TaskHeader) (payload : Payload) :
    Except Fault TaskResult :=
  let args := MathArgs.view payload
  let iterations := (ComputeArgs.view payload).iterations
  match header.opCode with
  | .mathAdd => .ok { jobId := header.jobId, value := args.a + args.b, count := 0 }
  | .mathSub => .ok { jobId := header.jobId, value := args.a - args.b, count := 0 }
  | .computePi =>
    .ok { jobId := header.jobId, value := (taskComputePi ctx.inCircle ctx.rand iterations).1,
          count := iterations }
  | .findPrimes => do
    let count ← taskFindPrimes iterations
    .ok { jobId := header.jobId, value := count, count := 0 }
  | _ => .ok { jobId := header.jobId, value := 0, count := 0 }

/-- `case MsgType::TASK_REQUEST` of `handle_message`. -/
def handleTaskRequest (ctx : TaskContext) (myId : Int) (payload : Payload) :
    Except Fault (List Message) :=
  let header := TaskHeader.view payload
  let totalWork := match header.opCode with
    | .computePi | .findPrimes => (ComputeArgs.view payload).iterations
    | _ => 0
  if totalWork > chunkSize then chunkLoop ctx myId header 0 ctx.rand totalWork
  else do
    let res ← singleTask ctx header payload
    .ok [resultMessage (ctx.stack 0) myId .taskResult res]

/-- `handle_message`: the status table after it and the messages it sends on
`src_socket`. -/
def handleMessage (ctx : TaskContext) (myId : Int) (status : ClusterStatus) (msg : Message) :
    Except Fault (ClusterStatus × List Message) :=
  match msg.type with
  | .statusReport =>
    if msg.senderId.toNat ≤ 16 then do
      let status ← writeEntry status msg.senderId.toNat (NodeStatus.view msg.payload)
      .ok (status, [])
    else .ok (status, [])
  | .taskRequest => do
    let sent ← handleTaskRequest ctx myId msg.payload
    .ok (status, sent)
  | _ => .ok (status, [])

/-- One entry of the scan in `find_best_node`: the best id and its score so far. -/
def considerNode (status : ClusterStatus) (myId : Int) (best : Option Nat × Int) (i : Fin 17) :
    Option Nat × Int :=
  if i.val = 0 ∨ (i.val : Int) = myId then best
  else if 0 < (status i).ramFreeKb.toNat then
    if best.2 < (status i).calculateScore then (some i.val, (status i).calculateScore) else best
  else best

/-- `find_best_node`; `none` is the return value -1. -/
def findBestNode (status : ClusterStatus) (myId : Int) : Option Nat :=
  ((List.finRange 17).foldl (considerNode status myId) (none, -10000)).1

/-- The `memset` of a status entry to zero. -/
def NodeStatus.zero : NodeStatus := ⟨0, 0, 0⟩

def handleDisconnect (status : ClusterStatus) (nodeId : Int) : Except Fault ClusterStatus :=
  if 0 < nodeId ∧ nodeId ≤ 16 then writeEntry status nodeId .zero else .ok status

/-! ## Which entries of the status table change -/

/-- The table after a report of the sender. Only the ids 0 to 16 have an entry. -/
def reported (status : ClusterStatus) (senderId : UInt16) (node : NodeStatus) : ClusterStatus :=
  fun i => if senderId.toNat = i.val then node else status i

/-- The table with one task more for a node. Entry 0 is no node's. -/
def markedBusy (status : ClusterStatus) (nodeId : Int) : ClusterStatus := fun i =>
  if i.val ≠ 0 ∧ nodeId = i.val then
    { status i with taskQueueLen := (status i).taskQueueLen + 1 }
  else status i

/-- The table without a node. -/
def withoutNode (status : ClusterStatus) (nodeId : Int) : ClusterStatus := fun i =>
  if i.val ≠ 0 ∧ nodeId = i.val then .zero else status i

/-- `handle_message` on a report: its bound check keeps the index inside the table. -/
theorem handleMessage_report (ctx : TaskContext) (myId : Int) (status : ClusterStatus)
    {msg : Message} (report : msg.type = .statusReport) :
    handleMessage ctx myId status msg =
      .ok (reported status msg.senderId (NodeStatus.view msg.payload), []) := by
  simp only [handleMessage, report]
  split
  · next bound =>
    obtain ⟨i, same⟩ : ∃ i : Fin 17, i.val = msg.senderId.toNat :=
      ⟨⟨msg.senderId.toNat, by omega⟩, rfl⟩
    rw [← same]
    apply (bind_of_ok (writeEntry_val status i _) _).trans
    congr 2
    funext j
    simp only [reported, Function.update_apply, ← same, Fin.ext_iff, eq_comm]
  · next beyond =>
    congr 2
    funext j
    have bound := j.isLt
    rw [reported, if_neg (by omega)]

/-- The two bounds of `mark_node_busy` keep the index inside the table. -/
theorem markNodeBusy_ok (status : ClusterStatus) (nodeId : Int) :
    markNodeBusy status nodeId = .ok (markedBusy status nodeId) := by
  unfold markNodeBusy
  split
  · next bounds =>
    obtain ⟨i, rfl⟩ : ∃ i : Fin 17, (i.val : Int) = nodeId :=
      ⟨⟨nodeId.toNat, by omega⟩, by simp; omega⟩
    apply (bind_of_ok (readEntry_val status i) _).trans
    rw [writeEntry_val]
    congr 1
    funext j
    rw [markedBusy, Function.update_apply]
    by_cases same : j = i
    · subst same
      rw [if_pos rfl, if_pos ⟨by omega, rfl⟩]
    · rw [if_neg same, if_neg (by omega)]
  · next outside =>
    congr 1
    funext j
    have bound := j.isLt
    rw [markedBusy, if_neg (by omega)]

/-- The two bounds of `handle_disconnect` keep the index inside the table. -/
theorem handleDisconnect_ok (status : ClusterStatus) (nodeId : Int) :
    handleDisconnect status nodeId = .ok (withoutNode status nodeId) := by
  unfold handleDisconnect
  split
  · next bounds =>
    obtain ⟨i, rfl⟩ : ∃ i : Fin 17, (i.val : Int) = nodeId :=
      ⟨⟨nodeId.toNat, by omega⟩, by simp; omega⟩
    rw [writeEntry_val]
    congr 1
    funext j
    rw [withoutNode, Function.update_apply]
    apply if_congr _ rfl rfl
    omega
  · next outside =>
    congr 1
    funext j
    have bound := j.isLt
    rw [withoutNode, if_neg (by omega)]

/-- A message changes the entry of its sender at most, and only with a report. -/
theorem handleMessage_changes {ctx : TaskContext} {myId : Int} {status after : ClusterStatus}
    {msg : Message} {sent : List Message}
    (success : handleMessage ctx myId status msg = .ok (after, sent)) {i : Fin 17}
    (changed : after i ≠ status i) : msg.type = .statusReport ∧ i.val = msg.senderId.toNat := by
  by_cases report : msg.type = .statusReport
  · rw [handleMessage_report ctx myId status report] at success
    cases success
    refine ⟨report, ?_⟩
    by_contra other
    exact changed (if_neg (Ne.symm other))
  · unfold handleMessage at success
    split at success
    · next same => exact absurd same report
    · obtain ⟨_, _, success⟩ := bind_success success
      cases success
      exact absurd rfl changed
    · cases success
      exact absurd rfl changed

/-- A node is marked in its own entry, and entry 0 is none. -/
theorem markedBusy_apply (status : ClusterStatus) (nodeId : Int) (i : Fin 17) :
    markedBusy status nodeId i =
      if i.val ≠ 0 ∧ nodeId = i.val then
        { status i with taskQueueLen := (status i).taskQueueLen + 1 }
      else status i := rfl

/-- A disconnect resets the entry of the dead node, and entry 0 is none. -/
theorem withoutNode_apply (status : ClusterStatus) (nodeId : Int) (i : Fin 17) :
    withoutNode status nodeId i = if i.val ≠ 0 ∧ nodeId = i.val then .zero else status i := rfl

end VelumOS.Source
