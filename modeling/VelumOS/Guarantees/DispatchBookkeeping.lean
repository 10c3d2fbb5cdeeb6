import VelumOS.Guarantees.WireRoundTrip
import VelumOS.Spec.Connections
import VelumOS.Spec.Requests
import VelumOS.Spec.Scheduling

/-!
# Bookkeeping of the dispatch calls

Scatter records its job before it sends anything, and books each worker inside the loop
under the condition that a target was found. The call is all or nothing for two reasons:
the worker list is complete before the job is recorded, and every listed worker has a
target. The list has no duplicates, so each worker is booked once.
-/
namespace VelumOS.Guarantees.DispatchBookkeeping
open VelumOS.Source VelumOS.Spec Base.CString Base.KeyedStore WireRoundTrip

/-- The three stores of a dispatch are as before. -/
structure Unbooked (s after : Node) : Prop where
  clusterStatus : after.clusterStatus = s.clusterStatus
  pendingTasks : after.pendingTasks = s.pendingTasks
  activeJobs : after.activeJobs = s.activeJobs

/-- The entries of the nodes have one more task in their queue. All else is as before. -/
def OneMore (before after : ClusterStatus) (nodes : List Nat) : Prop :=
  ∀ i : Fin 17, after i =
    if i.val ∈ nodes then { before i with taskQueueLen := (before i).taskQueueLen + 1 }
    else before i

/-- One request left for the winner, and only its queue length changed. -/
structure SpawnBooked (s after : Node) (task : Dispatch) : Prop where
  winner : findBestNode s.clusterStatus s.myNodeId = some task.worker
  target : s.findTarget task.worker = some task.fd
  clusterStatus : OneMore s.clusterStatus after.clusterStatus [task.worker]
  pendingTasks : after.pendingTasks = s.pendingTasks
  activeJobs : after.activeJobs = s.activeJobs

/-- The requests left for distinct workers. One job was recorded, each worker's ledger entry
is its request, and the queue lengths of the workers grew by one. -/
structure ScatterBooked (s after : Node) (jobId : UInt32) (range : Int32) (tasks : List Dispatch) :
    Prop where
  nonempty : tasks ≠ []
  workers : (tasks.map Dispatch.worker).Nodup
  activeJobs : after.activeJobs =
    Function.update s.activeJobs jobId (some ⟨range.toUInt32, 0, 0⟩)
  pending : ∀ task ∈ tasks, after.pendingTasks task.worker = some task.msg
  others : ∀ key, (∀ task ∈ tasks, (task.worker : Int) ≠ key) →
    after.pendingTasks key = s.pendingTasks key
  clusterStatus : OneMore s.clusterStatus after.clusterStatus (tasks.map Dispatch.worker)

/-- Marks of distinct positive nodes add one task to each. -/
theorem oneMore_markAll (status : ClusterStatus) (nodes : List Nat) (unique : nodes.Nodup)
    (positive : ∀ node ∈ nodes, 0 < node) : OneMore status (markAll status nodes) nodes := by
  intro i
  rw [markAll_apply, unique.count]
  by_cases marked : i.val ∈ nodes
  · have nonzero : i.val ≠ 0 := (positive i.val marked).ne'
    simp only [marked, nonzero, ne_eq, not_false_eq_true, if_true, UInt8.ofNat_one]
  · simp [marked]

/-! ## Calls that return -/

/-- Two printed numbers always fit behind a file that passes, so no round fails. -/
theorem scatterLoop_returns (job : Scatter) (small : sizeT job.fsize ≤ 2000) (i : Nat)
    (workers : List Nat) (currentStart : Int32) (s : Node) :
    ∃ last actions, scatterLoop job i workers currentStart s = .ok (last, actions) := by
  induction workers generalizing i currentStart s with
  | nil => exact ⟨s, [], rfl⟩
  | cons worker rest ih =>
    obtain ⟨myEnd, sum⟩ : ∃ myEnd, currentStart +
        (job.chunkSize + if rest.isEmpty then job.remainder else 0) = myEnd := ⟨_, rfl⟩
    have blob := rangeArgs_length_le currentStart myEnd
    obtain ⟨msg, built⟩ := (wasmRequest_ok_iff (job.ctx.wasmArgs i) (job.ctx.msg i) s.myNodeId
      job.jobId job.buffer job.fsize job.func 2
      (pack [sprintfInt currentStart, sprintfInt myEnd])).mpr ⟨by omega, by omega⟩
    obtain ⟨between, first, sent⟩ := sendScattered_ok s worker msg
    obtain ⟨last, later, loop⟩ := ih (i + 1) myEnd between
    refine ⟨last, first ++ later, ?_⟩
    simp only [scatterLoop, sum]
    apply (bind_of_ok built _).trans
    apply (bind_of_ok sent _).trans
    exact bind_of_ok loop _

theorem distributed_returns (ctx : SpawnContext) (file : Option File) (func : List UInt8)
    (start stop : Int32) (s : Node) (natural : ∀ f ∈ file, 0 ≤ f.fsize) :
    ∃ after actions,
      velumSpawnWasmDistributed ctx file func start stop s = .ok (after, actions) := by
  cases file with
  | none => exact ⟨s, [], rfl⟩
  | some f =>
    by_cases passes : f.fsize ≤ 2000
    · have size := sizeT_of_natural f.fsize (natural f rfl) passes
      have small : sizeT f.fsize ≤ 2000 := by omega
      obtain ⟨buffer, read⟩ := fread_ok ctx.buffer f (natural f rfl) passes
      simp only [velumSpawnWasmDistributed, if_neg (not_lt.mpr passes), ite_self]
      rw [bind_of_ok read]
      split
      · exact ⟨s, [], rfl⟩
      · obtain ⟨last, actions, loop⟩ := scatterLoop_returns ⟨ctx, jobIdOf ctx, buffer, f.fsize, func,
          (stop - start) / Int32.ofNat (s.findAllWorkers s.myNodeId).length,
          (stop - start) % Int32.ofNat (s.findAllWorkers s.myNodeId).length⟩ small 0
          (s.findAllWorkers s.myNodeId) start (s.recordJob (jobIdOf ctx) (stop - start))
        exact ⟨last, _, bind_of_ok loop _⟩
    · exact ⟨s, [], by simp only [velumSpawnWasmDistributed, if_pos (not_le.mp passes)]⟩

theorem spawnWasm_returns (ctx : SpawnContext) (file : Option File) (func : List UInt8)
    (args : List (List UInt8)) (s : Node) (natural : ∀ f ∈ file, 0 ≤ f.fsize)
    (fits : ∀ f ∈ file, f.fsize ≤ 2000 → 49 + f.fsize + (pack args).length ≤ 4096) :
    ∃ after actions, velumSpawnWasm ctx file func args s = .ok (after, actions) := by
  cases file with
  | none => exact ⟨s, [], rfl⟩
  | some f =>
    by_cases passes : f.fsize ≤ 2000
    · exact returns_of_fit f func args passes (natural f rfl) (fits f rfl passes) ctx s
    · exact ⟨s, [], by simp only [velumSpawnWasm, if_pos (not_le.mp passes)]⟩

/-! ## What is booked -/

section Call
variable {ctx : SpawnContext} {file : Option File} {func : List UInt8} {s after : Node}
  {actions : List Action}

theorem spawnWasm_booked {args : List (List UInt8)}
    (success : velumSpawnWasm ctx file func args s = .ok (after, actions)) :
    (actions = [] ∧ Unbooked s after) ∨
      ∃ task, actions = [.dispatched .spawnWasm task] ∧ SpawnBooked s after task := by
  rcases velumSpawnWasm_cases ctx file func args s after actions success with
    ⟨rfl, none⟩ | ⟨winner, target, msg, chosen, found, rfl, sent⟩
  · exact .inl ⟨none, rfl, rfl, rfl⟩
  · obtain ⟨i, rfl, eligible, _⟩ := (findBestNode_eq_some_iff _ _ winner).mp chosen
    have positive : 0 < i.val := Nat.pos_of_ne_zero fun zero => eligible.1 (Fin.ext zero)
    refine .inr ⟨_, sent, chosen, found, ?_, rfl, rfl⟩
    exact oneMore_markAll s.clusterStatus [i.val] (List.nodup_singleton _) (by simpa using positive)

theorem distributed_booked {start stop : Int32}
    (success : velumSpawnWasmDistributed ctx file func start stop s = .ok (after, actions)) :
    (actions = [] ∧ Unbooked s after) ∨
      ∃ jobId tasks, actions = .recorded jobId :: tasks.map (.dispatched .distributed) ∧
        ScatterBooked s after jobId (stop - start) tasks := by
  by_cases scatters : Scatters s file
  · obtain ⟨tasks, sent, listed, _, rfl⟩ := distributed_requests success scatters
    have unique : (tasks.map Dispatch.worker).Nodup := by
      rw [listed]
      exact s.findAllWorkers_nodup s.myNodeId
    have keys : ((ledgerEntries tasks).map Prod.fst).Nodup :=
      ledgerEntries_unique s tasks (listed ▸ List.Sublist.refl _)
    refine .inr ⟨_, tasks, sent, ?_, unique, scatter_activeJobs .., ?_, ?_, ?_⟩
    · intro none
      rw [none] at listed
      exact scatters.2 listed.symm
    · intro task member
      rw [scatter_pendingTasks]
      exact storeAll_of_mem _ _ _ _ keys (List.mem_map_of_mem member)
    · intro key absent
      rw [scatter_pendingTasks]
      apply storeAll_of_absent
      intro listed
      obtain ⟨_, member, same⟩ := List.mem_map.mp listed
      obtain ⟨task, inside, rfl⟩ := List.mem_map.mp member
      exact absent task inside same
    · rw [scatter_clusterStatus]
      apply oneMore_markAll s.clusterStatus _ unique
      intro worker member
      rw [listed] at member
      exact ((s.mem_findAllWorkers s.myNodeId worker).mp member).1
  · obtain ⟨rfl, none⟩ := distributed_idle success scatters
    exact .inl ⟨none, rfl, rfl, rfl⟩

end Call

/-- For every state, a file whose size is not negative, every name and all arguments that
fit: both calls return. If they send nothing, the stores are as before. If
`velum_spawn_wasm` sends, only the queue length of the winner changes, and if
`velum_spawn_wasm_distributed` sends, exactly its job and its workers are booked. -/
theorem dispatch_all_or_nothing (ctx : SpawnContext) (file : Option File) (func : List UInt8)
    (s : Node) (natural : ∀ f ∈ file, 0 ≤ f.fsize) :
    (∀ args, (∀ f ∈ file, f.fsize ≤ 2000 → 49 + f.fsize + (pack args).length ≤ 4096) →
      ∃ after actions, velumSpawnWasm ctx file func args s = .ok (after, actions) ∧
        ((actions = [] ∧ Unbooked s after) ∨
          ∃ task, actions = [.dispatched .spawnWasm task] ∧ SpawnBooked s after task)) ∧
    ∀ start stop, ∃ after actions,
      velumSpawnWasmDistributed ctx file func start stop s = .ok (after, actions) ∧
        ((actions = [] ∧ Unbooked s after) ∨
          ∃ jobId tasks, actions = .recorded jobId :: tasks.map (.dispatched .distributed) ∧
            ScatterBooked s after jobId (stop - start) tasks) := by
  constructor
  · intro args fits
    obtain ⟨after, actions, success⟩ := spawnWasm_returns ctx file func args s natural fits
    exact ⟨after, actions, success, spawnWasm_booked success⟩
  · intro start stop
    obtain ⟨after, actions, success⟩ := distributed_returns ctx file func start stop s natural
    exact ⟨after, actions, success, distributed_booked success⟩

/-- A file of two octets, one argument and a range, from a node with one worker that has
free memory: both calls send and book. -/
theorem dispatch_all_or_nothing_two :
    (∃ after task, velumSpawnWasm .zeroed (some ⟨2, [0, 97]⟩) [102] [[49, 48]] readyTwo =
      .ok (after, [.dispatched .spawnWasm task]) ∧ SpawnBooked readyTwo after task) ∧
    ∃ after jobId tasks,
      velumSpawnWasmDistributed .zeroed (some ⟨2, [0, 97]⟩) [102] 0 10 readyTwo =
        .ok (after, .recorded jobId :: tasks.map (.dispatched .distributed)) ∧
      ScatterBooked readyTwo after jobId 10 tasks := by
  have natural : ∀ f ∈ some (⟨2, [0, 97]⟩ : File), 0 ≤ f.fsize := by
    rintro f ⟨⟩
    decide
  have fits : ∀ f ∈ some (⟨2, [0, 97]⟩ : File), f.fsize ≤ 2000 →
      49 + f.fsize + (pack [[49, 48]]).length ≤ 4096 := by
    rintro f ⟨⟩ _
    decide
  obtain ⟨spawned, scattered⟩ :=
    dispatch_all_or_nothing .zeroed (some ⟨2, [0, 97]⟩) [102] readyTwo natural
  constructor
  · obtain ⟨after, actions, success, booked⟩ := spawned [[49, 48]] fits
    obtain ⟨_, msg, _, sends⟩ :=
      velumSpawnWasm_sends (by decide) readyTwo_winner readyTwo_target success
    rcases booked with ⟨none, _⟩ | ⟨task, rfl, booked⟩
    · cases sends.symm.trans none
    · exact ⟨after, task, success, booked⟩
  · obtain ⟨after, actions, success, booked⟩ := scattered 0 10
    have workers : readyTwo.findAllWorkers readyTwo.myNodeId ≠ [] := by decide
    obtain ⟨tasks, sends, _⟩ := distributed_requests success ⟨⟨_, rfl, by decide⟩, workers⟩
    rcases booked with ⟨none, _⟩ | ⟨jobId, tasks, rfl, booked⟩
    · cases sends.symm.trans none
    · exact ⟨after, jobId, tasks, success, booked⟩

end VelumOS.Guarantees.DispatchBookkeeping
