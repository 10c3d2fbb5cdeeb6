import VelumOS.Guarantees.ScatterCoverage
import VelumOS.Guarantees.RequestReplies
import VelumOS.Spec.Requests

/-!
# Units of progress

`total_needed` of a scattered job is the length of its range, while each worker reports
a count of 1 for its whole chunk. The counts of all replies sum to the number of workers,
which is the recorded total exactly when every chunk has length one.
-/
namespace VelumOS.Guarantees.ProgressCounts
open VelumOS.Source VelumOS.Spec Base.Octets Base.CString Base.Runs ScatterCoverage RequestReplies

/-- A worker read the request of the task, ran it and sent the reply. -/
def Replied (task : Dispatch) (reply : Message) : Prop :=
  ∃ t : Transition Node Event Action, t.Valid Node.Step ∧ Requested t task.msg ∧
    ∃ fd, sentMessages t.actions = [(fd, reply)]

/-- The `count` fields of the replies, added up. -/
def countSum (replies : List Message) : Nat :=
  (replies.map fun reply => (TaskResult.view reply.payload).count.toNat).sum

/-- A reply is a result for the job of its request and counts 1. -/
theorem replied_result {myNodeId : Int} {jobId : UInt32} {func : List UInt8} {task : Dispatch}
    {reply : Message} (request : RequestFor myNodeId jobId func task.msg) (replied : Replied task reply) :
    reply.type = .taskResult ∧ (TaskResult.view reply.payload).jobId = jobId ∧
      (TaskResult.view reply.payload).count = 1 := by
  obtain ⟨t, valid, requested, fd, sent⟩ := replied
  obtain ⟨_, resVal, answer, _, type, result, replies⟩ := requested_cases t task.msg valid requested
  rw [sent] at replies
  cases chosen : t.before.replyTarget task.msg.senderId with
  | none => simp [chosen] at replies
  | some target =>
    simp only [chosen, List.cons.injEq, Prod.mk.injEq, and_true] at replies
    rw [replies.2, type, result, request.header]
    exact ⟨rfl, rfl, rfl⟩

/-- All replies are results for the job. -/
theorem replies_results {myNodeId : Int} {jobId : UInt32} {func : List UInt8} {tasks : List Dispatch}
    {replies : List Message} (requests : ∀ task ∈ tasks, RequestFor myNodeId jobId func task.msg)
    (replied : List.Forall₂ Replied tasks replies) : ∀ reply ∈ replies,
      reply.type = .taskResult ∧ (TaskResult.view reply.payload).jobId = jobId := by
  induction replied with
  | nil => simp
  | @cons task reply tasks replies first rest ih =>
    obtain ⟨type, job, _⟩ := replied_result (requests task List.mem_cons_self) first
    have later := ih fun other member => requests other (List.mem_cons_of_mem _ member)
    exact List.forall_mem_cons.mpr ⟨⟨type, job⟩, later⟩

/-- The replies count the tasks. -/
theorem countSum_replies {myNodeId : Int} {jobId : UInt32} {func : List UInt8} {tasks : List Dispatch}
    {replies : List Message} (requests : ∀ task ∈ tasks, RequestFor myNodeId jobId func task.msg)
    (replied : List.Forall₂ Replied tasks replies) : countSum replies = tasks.length := by
  induction replied with
  | nil => rfl
  | @cons task reply tasks replies first rest ih =>
    have one := (replied_result (requests task List.mem_cons_self) first).2.2
    have later := ih fun other member => requests other (List.mem_cons_of_mem _ member)
    unfold countSum at later ⊢
    rw [List.map_cons, List.sum_cons, later, one, List.length_cons, Nat.add_comm]
    rfl

/-- A range whose length is an `int` is recorded with that length. -/
theorem totalNeeded_eq (start stop : Int32) (ordered : start.toInt ≤ stop.toInt)
    (representable : stop.toInt - start.toInt < 2 ^ 31) :
    ((stop - start).toUInt32.toNat : Int) = stop.toInt - start.toInt := by
  rw [toNat_toUInt32_sub]
  exact Int.emod_eq_of_lt (by omega) (by omega)

/-- A scattered job over a range whose length is an `int` is recorded with that length
and nothing done. If every worker executes its chunk and replies, the replies are
results for the job, and their counts sum to the recorded total if and only if the
range is as long as there are workers. -/
theorem progress_adds_up_iff (ctx : SpawnContext) (file : Option File) (func : List UInt8)
    (start stop : Int32) (s after : Node) (actions : List Action)
    (success : velumSpawnWasmDistributed ctx file func start stop s = .ok (after, actions))
    (scatters : Scatters s file) (ordered : start.toInt ≤ stop.toInt)
    (representable : stop.toInt - start.toInt < 2 ^ 31) :
    ∃ (jobId : UInt32) (tasks : List Dispatch) (job : JobState),
      actions = .recorded jobId :: tasks.map (.dispatched .distributed) ∧
      tasks.map Dispatch.worker = s.findAllWorkers s.myNodeId ∧
      after.activeJobs jobId = some job ∧
      ∀ replies, List.Forall₂ Replied tasks replies →
        (∀ reply ∈ replies, reply.type = .taskResult ∧
          (TaskResult.view reply.payload).jobId = jobId) ∧
        (countSum replies = job.totalNeeded.toNat ↔
          stop.toInt - start.toInt = (s.findAllWorkers s.myNodeId).length) := by
  obtain ⟨tasks, sent, listed, requests, rfl⟩ := distributed_requests success scatters
  refine ⟨jobIdOf ctx, tasks, ⟨(stop - start).toUInt32, 0, 0⟩, sent, listed, ?_, ?_⟩
  · rw [scatter_activeJobs, Function.update_self]
  · intro replies replied
    have total := totalNeeded_eq start stop ordered representable
    have length : tasks.length = (s.findAllWorkers s.myNodeId).length := by
      rw [← listed, List.length_map]
    refine ⟨replies_results requests replied, ?_⟩
    rw [countSum_replies requests replied, ← total, length, Nat.cast_inj]
    exact eq_comm

/-- Node 2 with an outgoing connection to node 1. -/
def workerTwo : Node := afterConnect (.boot 2 .zeroed) 1 fd5

/-- It answers every request of node 1 whose function name is terminated, if only with
the failure of its interpreter. -/
theorem replied_of_request (task : Dispatch) (jobId : UInt32) (func : List UInt8)
    (request : RequestFor 1 jobId func task.msg) (clean : 0 ∉ func) (short : func.length ≤ 30) :
    ∃ reply, Replied task reply := by
  have op : (TaskHeader.view task.msg.payload).opCode = .executeWasm := by rw [request.header]
  have ran : runWasmRequest noEnvironment task.msg.payload = .ok (-1) :=
    request.runs clean short rfl
  have live : 0 < (workerTwo.sock (.peer 1)).val := by decide
  obtain ⟨actions, step⟩ := step_request workerTwo (.peer 1) task.msg noEnvironment (-1) rfl live
    request.type op ran
  obtain ⟨t, valid, before, event⟩ : ∃ t : Transition Node Event Action, t.Valid Node.Step ∧
      t.before = workerTwo ∧ t.event = readWhole (.peer 1) task.msg noEnvironment :=
    ⟨⟨_, _, actions, _⟩, step, rfl, rfl⟩
  have requested := requested_of_readWhole (.peer 1) task.msg noEnvironment event rfl
    (before ▸ live) request.type op
  have outgoing : HasOutgoing t.before task.msg.senderId.toNat := by
    rw [request.sender, before]
    exact ⟨1, rfl, live⟩
  obtain ⟨fd, reply, sent, _⟩ := (answered_iff t task.msg valid requested).mpr outgoing
  exact ⟨reply, t, valid, requested, fd, sent⟩

/-- Node 1 scatters a range from 0 over its only worker, which answers. -/
theorem scatter_replied (stop : Int32) : ∃ after jobId task reply,
    velumSpawnWasmDistributed .zeroed (some ⟨(0 : Nat), []⟩) [102] 0 stop connectedTwo =
      .ok (after, [.recorded jobId, .dispatched .distributed task]) ∧
    after.activeJobs jobId = some ⟨(stop - 0).toUInt32, 0, 0⟩ ∧
    List.Forall₂ Replied [task] [reply] ∧ countSum [reply] = 1 := by
  have workers : connectedTwo.findAllWorkers connectedTwo.myNodeId = [2] := by decide
  obtain ⟨fd, msg, _, request, sent⟩ := distributed_single .zeroed [102] 0 stop connectedTwo 2 workers
  have requests : ∀ task ∈ [Dispatch.mk 2 fd msg], RequestFor 1 0 [102] task.msg :=
    List.forall_mem_singleton.mpr request
  obtain ⟨reply, replied⟩ := replied_of_request ⟨2, fd, msg⟩ 0 [102] request (by decide) (by decide)
  have all := List.Forall₂.cons replied .nil
  refine ⟨_, 0, ⟨2, fd, msg⟩, reply, sent, ?_, all, countSum_replies requests all⟩
  have jobs := scatter_activeJobs connectedTwo 0 (stop - 0) [⟨2, fd, msg⟩]
  exact (congrFun jobs 0).trans (Function.update_self ..)

/-- The recorded total of the job is the count of its only reply. -/
theorem progress_adds_up_single : ∃ (after : Node) (jobId : UInt32) (job : JobState)
    (task : Dispatch) (reply : Message),
    velumSpawnWasmDistributed .zeroed (some ⟨(0 : Nat), []⟩) [102] 0 1 connectedTwo =
      .ok (after, [.recorded jobId, .dispatched .distributed task]) ∧
    after.activeJobs jobId = some job ∧ Replied task reply ∧
    countSum [reply] = job.totalNeeded.toNat := by
  obtain ⟨after, jobId, task, reply, sent, _, replied, _⟩ := scatter_replied 1
  have workers : connectedTwo.findAllWorkers connectedTwo.myNodeId = [2] := by decide
  obtain ⟨_, tasks, job, actions, _, recorded, adds⟩ := progress_adds_up_iff .zeroed _ [102] 0 1
    connectedTwo after _ sent ⟨⟨_, rfl, by decide⟩, by rw [workers]; decide⟩ (by decide) (by decide)
  obtain ⟨first, rest⟩ := List.cons.inj actions
  obtain ⟨other, rfl, same⟩ := List.map_eq_singleton_iff.mp rest.symm
  cases same
  refine ⟨after, _, job, task, reply, sent, ?_, (List.forall₂_cons.mp replied).1, ?_⟩
  · rw [Action.recorded.inj first]
    exact recorded
  · apply (adds [reply] replied).2.mpr
    rw [workers]
    decide

/-- A range of ten numbers over one worker: one reply of count 1 for a total of 10. -/
theorem progress_short : ¬ ∀ (ctx : SpawnContext) (file : Option File) (func : List UInt8)
    (start stop : Int32) (s after : Node) (jobId : UInt32) (tasks : List Dispatch) (job : JobState)
    (replies : List Message),
    velumSpawnWasmDistributed ctx file func start stop s =
      .ok (after, .recorded jobId :: tasks.map (.dispatched .distributed)) →
    start.toInt ≤ stop.toInt → stop.toInt - start.toInt < 2 ^ 31 →
    after.activeJobs jobId = some job → List.Forall₂ Replied tasks replies →
      countSum replies = job.totalNeeded.toNat := by
  intro always
  obtain ⟨after, jobId, task, reply, sent, recorded, replied, one⟩ := scatter_replied 10
  have total := always .zeroed _ [102] 0 10 connectedTwo after jobId [task] _ [reply] sent (by decide)
    (by decide) recorded replied
  rw [one] at total
  exact absurd total (by decide)

end VelumOS.Guarantees.ProgressCounts
