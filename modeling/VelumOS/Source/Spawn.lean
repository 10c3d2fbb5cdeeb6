import VelumOS.Source.Tables
import VelumOS.Base.KeyedStore

/-!
# Dispatch calls

`velum_spawn_wasm` and `velum_spawn_wasm_distributed` of `src/velum_core.cpp`.
Each runs to its end under `api_mutex`. What leaves the node, and what a log line
of the code tells, is recorded as a list of actions in program order. Signed
arithmetic wraps at 32 bits as on the target machines.
-/
namespace VelumOS.Source
open Base.Octets Base.CString Base.KeyedStore

/-- The API call that dispatched a request. -/
inductive Call where
  | spawnWasm | distributed
  deriving DecidableEq

/-- A request handed to `send_message` on a socket found for a worker. -/
structure Dispatch where
  worker : Nat
  fd : Sock
  msg : Message
  deriving DecidableEq

/-- What a step of the node does that can be seen outside its tables. -/
inductive Action where
  | accepted (fd : Sock)
  | connected (nodeId : Nat) (fd : Sock)
  | received (slot : Slot) (fd : Sock) (msg : Message)
  | sent (fd : Sock) (msg : Message)
  | dispatched (call : Call) (task : Dispatch)
  | recorded (jobId : UInt32)
  | closed (fd : Sock)
  | died (nodeId : Int)

/-- A file that `fopen` found: what `ftell` says at its end and the octets that
`fread` can deliver. -/
structure File where
  fsize : Int
  contents : List UInt8

/-- Old contents of the local objects of a dispatch call, by loop round, and the
draws of `rand()`. -/
structure SpawnContext where
  buffer : Block UInt8 2048
  wasmArgs : Nat → WasmArgs
  msg : Nat → Message
  rand : Rand

/-- A call that finds zeroed memory. -/
def SpawnContext.zeroed : SpawnContext :=
  ⟨.fill 2048 0, fun _ => ⟨0, .fill 32 0, 0, 0⟩, fun _ => .zeroed, fun _ => 0⟩

/-- The request that both calls serialise: header, arguments, binary, string blob. -/
def wasmRequest (oldArgs : WasmArgs) (oldMsg : Message) (myNodeId : Int) (jobId : UInt32)
    (buffer : Block UInt8 2048) (fsize : Int) (func : List UInt8) (argc : Nat)
    (argBlob : List UInt8) : Except Fault Message := do
  let header : TaskHeader := { opCode := .executeWasm, jobId := jobId }
  let wasmArgs : WasmArgs := {
    binarySize := UInt32.ofInt fsize
    funcName := strncpy31 oldArgs.funcName func
    argc := UInt32.ofNat argc
    argsSize := UInt32.ofNat argBlob.length }
  let payload ← memcpy oldMsg.payload 0 header.octets
  let payload ← memcpy payload 5 wasmArgs.octets
  let binary ← readBuffer buffer fsize
  let payload ← memcpy payload 49 binary
  let payload ← memcpy payload (49 + binary.length) argBlob
  .ok { senderId := UInt16.ofInt myNodeId, type := .taskRequest, payload := payload }

/-- `velum_spawn_wasm`; `file` is what `fopen(filepath, "rb")` returns. -/
def velumSpawnWasm (ctx : SpawnContext) (file : Option File) (func : List UInt8)
    (args : List (List UInt8)) (s : Node) : Except Fault (Node × List Action) :=
  match file with
  | none => .ok (s, [])
  | some f =>
    if f.fsize > 2000 then .ok (s, [])
    else do
      let buffer ← fread ctx.buffer f.fsize f.contents
      match findBestNode s.clusterStatus s.myNodeId with
      | none => .ok (s, [])
      | some winner =>
        let jobId := UInt32.ofNat (ctx.rand 0 % 9999)
        let msg ← wasmRequest (ctx.wasmArgs 0) (ctx.msg 0) s.myNodeId jobId buffer f.fsize func
          args.length (pack args)
        match s.findTarget winner with
        | none => .ok (s, [])
        | some target =>
          let status ← markNodeBusy s.clusterStatus winner
          .ok ({ s with clusterStatus := status },
            [.dispatched .spawnWasm ⟨winner, target, msg⟩])

/-- The locals of `velum_spawn_wasm_distributed` that its loop reads. -/
structure Scatter where
  ctx : SpawnContext
  jobId : UInt32
  buffer : Block UInt8 2048
  fsize : Int
  func : List UInt8
  chunkSize : Int32
  remainder : Int32

/-- The message of loop round `i` for the sub-range `[currentStart, myEnd)`. -/
def Scatter.request (job : Scatter) (myNodeId : Int) (i : Nat) (currentStart myEnd : Int32) :
    Except Fault Message :=
  wasmRequest (job.ctx.wasmArgs i) (job.ctx.msg i) myNodeId job.jobId job.buffer job.fsize
    job.func 2 (pack [sprintfInt currentStart, sprintfInt myEnd])

/-- The send of one loop round, if a target is found: the worker is marked busy and the
ledger takes the message. -/
def sendScattered (s : Node) (worker : Nat) (msg : Message) :
    Except Fault (Node × List Action) :=
  match s.findTarget worker with
  | none => .ok (s, [])
  | some target => do
    let status ← markNodeBusy s.clusterStatus worker
    .ok ({ s with
        clusterStatus := status
        pendingTasks := Function.update s.pendingTasks worker (some msg) },
      [.dispatched .distributed ⟨worker, target, msg⟩])

/-- The loop over the workers from round `i` on; the last worker also gets the
remainder, and the cursor moves on whether or not a target was found. -/
def scatterLoop (job : Scatter) : Nat → List Nat → Int32 → Node →
    Except Fault (Node × List Action)
  | _, [], _, s => .ok (s, [])
  | i, worker :: rest, currentStart, s => do
    let myChunk := job.chunkSize + (if rest.isEmpty then job.remainder else 0)
    let myEnd := currentStart + myChunk
    let msg ← job.request s.myNodeId i currentStart myEnd
    let sent ← sendScattered s worker msg
    let (last, later) ← scatterLoop job (i + 1) rest myEnd sent.1
    .ok (last, sent.2 ++ later)

/-- `active_jobs[job_id] = {(uint32_t)range, 0, 0}`. -/
def Node.recordJob (s : Node) (jobId : UInt32) (range : Int32) : Node :=
  { s with activeJobs := Function.update s.activeJobs jobId (some ⟨range.toUInt32, 0, 0⟩) }

/-- `velum_spawn_wasm_distributed`. Up to its second scan for workers the call changes
nothing, so what the engine does during the wait comes before the call in a run. -/
def velumSpawnWasmDistributed (ctx : SpawnContext) (file : Option File) (func : List UInt8)
    (start stop : Int32) (s : Node) : Except Fault (Node × List Action) :=
  match file with
  | none => .ok (s, [])
  | some f =>
    if f.fsize > 2000 then .ok (s, [])
    else do
      let buffer ← fread ctx.buffer f.fsize f.contents
      let workers := s.findAllWorkers s.myNodeId
      let workers := if workers.isEmpty then s.findAllWorkers s.myNodeId else workers
      if workers.isEmpty then .ok (s, [])
      else
        let range := stop - start
        let numWorkers := Int32.ofNat workers.length
        let jobId := UInt32.ofNat (ctx.rand 0 % 9999)
        let job : Scatter := {
          ctx := ctx, jobId := jobId, buffer := buffer, fsize := f.fsize, func := func
          chunkSize := range / numWorkers, remainder := range % numWorkers }
        let (last, actions) ← scatterLoop job 0 workers start (s.recordJob jobId range)
        .ok (last, .recorded jobId :: actions)

/-! ## What the calls do -/

/-- The state after a scattered request was sent. -/
def Node.afterScatterSend (s : Node) (task : Dispatch) : Node :=
  { s with
    clusterStatus := markedBusy s.clusterStatus task.worker
    pendingTasks := Function.update s.pendingTasks task.worker (some task.msg) }

/-- The binary part of a request is the front of the file buffer. -/
theorem readBuffer_ok (buffer : Block UInt8 2048) (fsize : Int) (fits : sizeT fsize ≤ 2048) :
    readBuffer buffer fsize = .ok (buffer.cells.take (sizeT fsize)) := by
  rw [readBuffer, if_pos fits]

/-- A request whose parts fit the payload is built, part behind part; behind them
the payload keeps what the local message held. -/
theorem wasmRequest_ok (oldArgs : WasmArgs) (oldMsg : Message) (myNodeId : Int) (jobId : UInt32)
    (buffer : Block UInt8 2048) (fsize : Int) (func : List UInt8) (argc : Nat)
    (argBlob : List UInt8) (inBuffer : sizeT fsize ≤ 2048)
    (fits : 49 + sizeT fsize + argBlob.length ≤ 4096) :
    ∃ msg, wasmRequest oldArgs oldMsg myNodeId jobId buffer fsize func argc argBlob = .ok msg ∧
      msg.senderId = UInt16.ofInt myNodeId ∧ msg.type = .taskRequest ∧
      msg.payload.cells = TaskHeader.octets ⟨.executeWasm, jobId⟩ ++
        (WasmArgs.octets ⟨UInt32.ofInt fsize, strncpy31 oldArgs.funcName func, UInt32.ofNat argc,
            UInt32.ofNat argBlob.length⟩ ++
          (buffer.cells.take (sizeT fsize) ++
            (argBlob ++ oldMsg.payload.cells.drop (49 + sizeT fsize + argBlob.length)))) := by
  set header : TaskHeader := ⟨.executeWasm, jobId⟩
  set wasmArgs : WasmArgs := ⟨UInt32.ofInt fsize, strncpy31 oldArgs.funcName func,
    UInt32.ofNat argc, UInt32.ofNat argBlob.length⟩
  set binary := buffer.cells.take (sizeT fsize)
  have binaryLength : binary.length = sizeT fsize := by
    rw [List.length_take, buffer.size]
    omega
  obtain ⟨first, store₁, _⟩ := memcpy_ok oldMsg.payload 0 header.octets (by simp)
  have chain₂ := memcpy_memcpy oldMsg.payload first 0 header.octets wasmArgs.octets store₁
  obtain ⟨second, store₂, _⟩ := memcpy_ok oldMsg.payload 0 (header.octets ++ wasmArgs.octets)
    (by simp)
  have chain₃ := memcpy_memcpy oldMsg.payload second 0 _ binary store₂
  obtain ⟨third, store₃, _⟩ := memcpy_ok oldMsg.payload 0
    (header.octets ++ wasmArgs.octets ++ binary) (by simp [binaryLength]; omega)
  have chain₄ := memcpy_memcpy oldMsg.payload third 0 _ argBlob store₃
  obtain ⟨fourth, store₄, cells⟩ := memcpy_ok oldMsg.payload 0
    (header.octets ++ wasmArgs.octets ++ binary ++ argBlob) (by simp [binaryLength]; omega)
  simp only [Nat.zero_add, List.length_append, TaskHeader.octets_length, WasmArgs.octets_length,
    Nat.reduceAdd] at chain₂ chain₃ chain₄
  refine ⟨⟨UInt16.ofInt myNodeId, .taskRequest, fourth⟩, ?_, rfl, rfl, ?_⟩
  · unfold wasmRequest
    apply (bind_of_ok store₁ _).trans
    apply (bind_of_ok (chain₂.trans store₂) _).trans
    apply (bind_of_ok (readBuffer_ok buffer fsize inBuffer) _).trans
    apply (bind_of_ok (chain₃.trans store₃) _).trans
    exact bind_of_ok (chain₄.trans store₄) _
  · have total : 0 + (header.octets ++ wasmArgs.octets ++ binary ++ argBlob).length =
        49 + sizeT fsize + argBlob.length := by
      simp only [List.length_append, TaskHeader.octets_length, WasmArgs.octets_length, binaryLength]
      omega
    rw [total] at cells
    simpa only [List.take_zero, List.nil_append, List.append_assoc] using cells

/-- A call of `velum_spawn_wasm` that returns changed nothing, or marked the winner
busy and sent it one request on a socket that leads to it. -/
theorem velumSpawnWasm_cases (ctx : SpawnContext) (file : Option File) (func : List UInt8)
    (args : List (List UInt8)) (s after : Node) (actions : List Action)
    (success : velumSpawnWasm ctx file func args s = .ok (after, actions)) :
    (after = s ∧ actions = []) ∨
    ∃ winner target msg, findBestNode s.clusterStatus s.myNodeId = some winner ∧
      s.findTarget winner = some target ∧
      after = { s with clusterStatus := markedBusy s.clusterStatus winner } ∧
      actions = [.dispatched .spawnWasm ⟨winner, target, msg⟩] := by
  unfold velumSpawnWasm at success
  split at success
  · cases success
    exact Or.inl ⟨rfl, rfl⟩
  · split at success
    · cases success
      exact Or.inl ⟨rfl, rfl⟩
    · next f _ =>
      obtain ⟨buffer, _, success⟩ := bind_success success
      split at success
      · cases success
        exact Or.inl ⟨rfl, rfl⟩
      · next winner chosen =>
        obtain ⟨msg, _, success⟩ := bind_success success
        split at success
        · cases success
          exact Or.inl ⟨rfl, rfl⟩
        · next target found =>
          rw [markNodeBusy_ok] at success
          cases success
          exact Or.inr ⟨winner, target, msg, chosen, found, rfl, rfl⟩

/-- The two states have the same identity and connection tables. -/
structure SameTables (s t : Node) : Prop where
  myNodeId : t.myNodeId = s.myNodeId
  peerSockets : t.peerSockets = s.peerSockets
  inboundSockets : t.inboundSockets = s.inboundSockets
  socketToId : t.socketToId = s.socketToId

namespace SameTables

theorem refl (s : Node) : SameTables s s := ⟨rfl, rfl, rfl, rfl⟩

theorem sock {s t : Node} (same : SameTables s t) (slot : Slot) : t.sock slot = s.sock slot := by
  cases slot <;> simp [same.peerSockets, same.inboundSockets]

theorem findTarget {s t : Node} (same : SameTables s t) (worker : Nat) :
    t.findTarget worker = s.findTarget worker := by
  have scan : t.matchInbound worker = s.matchInbound worker := by
    funext target k
    simp only [Node.matchInbound, same.inboundSockets, same.socketToId]
  simp only [Node.findTarget, Node.inboundTarget, same.peerSockets, scan]

end SameTables

theorem afterScatterSend_sameTables (s : Node) (task : Dispatch) :
    SameTables s (s.afterScatterSend task) := ⟨rfl, rfl, rfl, rfl⟩

theorem sendScattered_of_none {s : Node} {worker : Nat} (msg : Message)
    (found : s.findTarget worker = none) : sendScattered s worker msg = .ok (s, []) := by
  simp only [sendScattered, found]

theorem sendScattered_of_target {s : Node} {worker : Nat} {fd : Sock} (msg : Message)
    (found : s.findTarget worker = some fd) :
    sendScattered s worker msg = .ok (s.afterScatterSend ⟨worker, fd, msg⟩,
      [.dispatched .distributed ⟨worker, fd, msg⟩]) := by
  simp only [sendScattered, found]
  exact bind_of_ok (markNodeBusy_ok s.clusterStatus worker) _

/-- A loop round sends one request to its worker, or nothing where it has no target. -/
theorem sendScattered_ok (s : Node) (worker : Nat) (msg : Message) :
    ∃ after actions, sendScattered s worker msg = .ok (after, actions) := by
  cases found : s.findTarget worker with
  | none => exact ⟨_, _, sendScattered_of_none msg found⟩
  | some target => exact ⟨_, _, sendScattered_of_target msg found⟩

/-- A scatter loop that returned made one send for each worker with a target, in
list order, and did nothing else. -/
theorem scatterLoop_cases (job : Scatter) (i : Nat) (workers : List Nat) (currentStart : Int32)
    (s last : Node) (actions : List Action)
    (success : scatterLoop job i workers currentStart s = .ok (last, actions)) :
    ∃ tasks : List Dispatch, actions = tasks.map (.dispatched .distributed) ∧
      (tasks.map Dispatch.worker).Sublist workers ∧
      (∀ task ∈ tasks, s.findTarget task.worker = some task.fd) ∧
      last = tasks.foldl Node.afterScatterSend s := by
  induction workers generalizing i currentStart s last actions with
  | nil =>
    cases success
    exact ⟨[], rfl, List.Sublist.refl _, by simp, rfl⟩
  | cons worker rest ih =>
    obtain ⟨msg, _, success⟩ := bind_success success
    obtain ⟨⟨between, first⟩, sent, success⟩ := bind_success success
    obtain ⟨⟨deeper, later⟩, loop, success⟩ := bind_success success
    cases success
    obtain ⟨tasks, rfl, sublist, targets, rfl⟩ := ih _ _ _ _ _ loop
    cases found : s.findTarget worker with
    | none =>
      rw [sendScattered_of_none msg found] at sent
      cases sent
      exact ⟨tasks, rfl, sublist.cons worker, targets, rfl⟩
    | some target =>
      rw [sendScattered_of_target msg found] at sent
      cases sent
      refine ⟨⟨worker, target, msg⟩ :: tasks, rfl, sublist.cons_cons worker, ?_, rfl⟩
      intro task member
      rcases List.mem_cons.mp member with rfl | inside
      · exact found
      · rw [← targets task inside, (afterScatterSend_sameTables s _).findTarget]

/-- A call of `velum_spawn_wasm_distributed` that returned changed nothing, or
recorded a job and sent requests to listed workers on sockets that lead to them. -/
theorem velumSpawnWasmDistributed_cases (ctx : SpawnContext) (file : Option File)
    (func : List UInt8) (start stop : Int32) (s after : Node) (actions : List Action)
    (success : velumSpawnWasmDistributed ctx file func start stop s = .ok (after, actions)) :
    (after = s ∧ actions = []) ∨
    ∃ tasks : List Dispatch, ∃ jobId : UInt32,
      (∃ f, file = some f ∧ f.fsize ≤ 2000) ∧
      actions = .recorded jobId :: tasks.map (.dispatched .distributed) ∧
      (tasks.map Dispatch.worker).Sublist (s.findAllWorkers s.myNodeId) ∧
      (∀ task ∈ tasks, s.findTarget task.worker = some task.fd) ∧
      after = tasks.foldl Node.afterScatterSend (s.recordJob jobId (stop - start)) := by
  unfold velumSpawnWasmDistributed at success
  split at success
  · cases success
    exact Or.inl ⟨rfl, rfl⟩
  · next f =>
    split at success
    · cases success
      exact Or.inl ⟨rfl, rfl⟩
    · next small =>
      obtain ⟨buffer, _, success⟩ := bind_success success
      simp only [ite_self] at success
      split at success
      · cases success
        exact Or.inl ⟨rfl, rfl⟩
      · obtain ⟨⟨last, later⟩, loop, success⟩ := bind_success success
        cases success
        obtain ⟨tasks, rfl, sublist, targets, rfl⟩ := scatterLoop_cases _ _ _ _ _ _ _ loop
        exact Or.inr ⟨tasks, _, ⟨f, rfl, by omega⟩, rfl, sublist, targets, rfl⟩

/-- The entries that sending the tasks puts into the ledger. -/
def ledgerEntries (tasks : List Dispatch) : List (Int × Message) :=
  tasks.map fun task => ((task.worker : Int), task.msg)

/-- All the sends of a call: the workers are marked and the ledger takes their requests. -/
theorem foldl_afterScatterSend (tasks : List Dispatch) (s : Node) :
    tasks.foldl Node.afterScatterSend s = { s with
      clusterStatus := tasks.foldl (fun status task => markedBusy status task.worker)
        s.clusterStatus
      pendingTasks := storeAll s.pendingTasks (ledgerEntries tasks) } := by
  induction tasks generalizing s with
  | nil => rfl
  | cons task rest ih => exact ih (s.afterScatterSend task)

/-- The job table after a scatter call: the new job, with nothing done. -/
theorem scatter_activeJobs (s : Node) (jobId : UInt32) (range : Int32) (tasks : List Dispatch) :
    (tasks.foldl Node.afterScatterSend (s.recordJob jobId range)).activeJobs =
      Function.update s.activeJobs jobId (some ⟨range.toUInt32, 0, 0⟩) := by
  rw [foldl_afterScatterSend]
  rfl

/-- The ledger after a scatter call. -/
theorem scatter_pendingTasks (s : Node) (jobId : UInt32) (range : Int32) (tasks : List Dispatch) :
    (tasks.foldl Node.afterScatterSend (s.recordJob jobId range)).pendingTasks =
      storeAll s.pendingTasks (ledgerEntries tasks) := by
  rw [foldl_afterScatterSend]
  rfl

/-- A scatter call leaves identity and tables alone. -/
theorem scatter_sameTables (s : Node) (jobId : UInt32) (range : Int32) (tasks : List Dispatch) :
    SameTables s (tasks.foldl Node.afterScatterSend (s.recordJob jobId range)) := by
  rw [foldl_afterScatterSend]
  exact ⟨rfl, rfl, rfl, rfl⟩

/-- A call sends to no worker twice. -/
theorem ledgerEntries_unique (s : Node) (tasks : List Dispatch)
    (workers : (tasks.map Dispatch.worker).Sublist (s.findAllWorkers s.myNodeId)) :
    ((ledgerEntries tasks).map Prod.fst).Nodup := by
  have unique := (s.findAllWorkers_nodup s.myNodeId).sublist workers
  have keys : (ledgerEntries tasks).map Prod.fst =
      (tasks.map Dispatch.worker).map ((↑) : Nat → Int) := by
    simp [ledgerEntries, Function.comp_def]
  rw [keys]
  exact unique.map fun _ _ same => Int.ofNat.inj same

end VelumOS.Source
