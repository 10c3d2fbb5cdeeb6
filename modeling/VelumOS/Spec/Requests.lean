import VelumOS.Source.Engine

/-!
# Requests that were built

`wasmRequest` fails exactly when a part does not fit. From a request that was built the
layout of its payload can be read off, and a scatter loop over workers that all have a
target sends one such request to each of them.
-/
namespace VelumOS.Spec
open VelumOS.Source Base.Octets Base.CString

/-- The binary is in the file buffer and all parts are in the payload. -/
def PartsFit (fsize : Int) (argBlob : List UInt8) : Prop :=
  sizeT fsize ≤ 2048 ∧ 49 + sizeT fsize + argBlob.length ≤ 4096

/-- What the payload of a request holds, over an old payload. -/
def requestCells (oldArgs : WasmArgs) (oldPayload : Payload) (jobId : UInt32)
    (buffer : Block UInt8 2048) (fsize : Int) (func : List UInt8) (argc : Nat)
    (argBlob : List UInt8) : List UInt8 :=
  TaskHeader.octets ⟨.executeWasm, jobId⟩ ++
    (WasmArgs.octets ⟨UInt32.ofInt fsize, strncpy31 oldArgs.funcName func, UInt32.ofNat argc,
        UInt32.ofNat argBlob.length⟩ ++
      (buffer.cells.take (sizeT fsize) ++
        (argBlob ++ oldPayload.cells.drop (49 + sizeT fsize + argBlob.length))))

theorem memcpy_fits {n : Nat} {object after : Block UInt8 n} {off : Nat} {source : List UInt8}
    (stored : memcpy object off source = .ok after) : off + source.length ≤ n := by
  unfold memcpy at stored
  split at stored
  · next result written => exact (object.write_isSome_iff off source).mp (by rw [written]; rfl)
  · cases stored

theorem readBuffer_fits {buffer : Block UInt8 2048} {fsize : Int} {binary : List UInt8}
    (read : readBuffer buffer fsize = .ok binary) :
    sizeT fsize ≤ 2048 ∧ binary.length = sizeT fsize := by
  unfold readBuffer at read
  split at read
  · next fits =>
    cases read
    refine ⟨fits, ?_⟩
    rw [List.length_take, buffer.size]
    omega
  · cases read

section Built
variable {oldArgs : WasmArgs} {oldMsg msg : Message} {myNodeId : Int} {jobId : UInt32}
  {buffer : Block UInt8 2048} {fsize : Int} {func : List UInt8} {argc : Nat} {argBlob : List UInt8}

theorem partsFit_of_built
    (built : wasmRequest oldArgs oldMsg myNodeId jobId buffer fsize func argc argBlob = .ok msg) :
    PartsFit fsize argBlob := by
  obtain ⟨first, _, built⟩ := bind_success built
  obtain ⟨second, _, built⟩ := bind_success built
  obtain ⟨binary, read, built⟩ := bind_success built
  obtain ⟨third, _, built⟩ := bind_success built
  obtain ⟨fourth, stored, _⟩ := bind_success built
  obtain ⟨inBuffer, length⟩ := readBuffer_fits read
  have fits := memcpy_fits stored
  rw [length] at fits
  exact ⟨inBuffer, fits⟩

/-- A request that was built has its parts in place. -/
theorem wasmRequest_built
    (built : wasmRequest oldArgs oldMsg myNodeId jobId buffer fsize func argc argBlob = .ok msg) :
    msg.senderId = UInt16.ofInt myNodeId ∧ msg.type = .taskRequest ∧
      msg.payload.cells =
        requestCells oldArgs oldMsg.payload jobId buffer fsize func argc argBlob := by
  obtain ⟨inBuffer, fits⟩ := partsFit_of_built built
  obtain ⟨same, again, sender, type, cells⟩ := wasmRequest_ok oldArgs oldMsg myNodeId jobId buffer
    fsize func argc argBlob inBuffer fits
  cases built.symm.trans again
  exact ⟨sender, type, cells⟩

theorem header_of_built
    (built : wasmRequest oldArgs oldMsg myNodeId jobId buffer fsize func argc argBlob = .ok msg) :
    TaskHeader.view msg.payload = ⟨.executeWasm, jobId⟩ :=
  TaskHeader.view_front _ _ _ (wasmRequest_built built).2.2

theorem wasmArgs_of_built
    (built : wasmRequest oldArgs oldMsg myNodeId jobId buffer fsize func argc argBlob = .ok msg) :
    WasmArgs.view msg.payload = ⟨UInt32.ofInt fsize, strncpy31 oldArgs.funcName func,
      UInt32.ofNat argc, UInt32.ofNat argBlob.length⟩ :=
  WasmArgs.view_behind _ _ _ _ (TaskHeader.octets_length _) (wasmRequest_built built).2.2

end Built

/-- A request is built exactly when its parts fit. -/
theorem wasmRequest_ok_iff (oldArgs : WasmArgs) (oldMsg : Message) (myNodeId : Int)
    (jobId : UInt32) (buffer : Block UInt8 2048) (fsize : Int) (func : List UInt8) (argc : Nat)
    (argBlob : List UInt8) :
    (∃ msg, wasmRequest oldArgs oldMsg myNodeId jobId buffer fsize func argc argBlob = .ok msg) ↔
      PartsFit fsize argBlob := by
  constructor
  · intro built
    exact partsFit_of_built built.choose_spec
  · intro fits
    obtain ⟨msg, built, _⟩ := wasmRequest_ok oldArgs oldMsg myNodeId jobId buffer fsize func argc
      argBlob fits.1 fits.2
    exact ⟨msg, built⟩

/-! ## Calls that return -/

theorem sizeT_of_natural (fsize : Int) (natural : 0 ≤ fsize) (passes : fsize ≤ 2000) :
    (sizeT fsize : Int) = fsize := by
  unfold sizeT
  omega

/-- A file that passes and has a size is read. -/
theorem fread_ok (buffer : Block UInt8 2048) (f : File) (natural : 0 ≤ f.fsize)
    (passes : f.fsize ≤ 2000) : ∃ filled, fread buffer f.fsize f.contents = .ok filled := by
  have size := sizeT_of_natural f.fsize natural passes
  have fits : (f.contents.take (sizeT f.fsize)).length ≤ 2048 := by
    rw [List.length_take]
    omega
  exact ⟨_, dif_pos fits⟩

/-- With arguments that fit behind it, every call returns. -/
theorem returns_of_fit (f : File) (func : List UInt8) (args : List (List UInt8))
    (passes : f.fsize ≤ 2000) (natural : 0 ≤ f.fsize)
    (fits : 49 + f.fsize + (pack args).length ≤ 4096) (ctx : SpawnContext) (s : Node) :
    ∃ after actions, velumSpawnWasm ctx (some f) func args s = .ok (after, actions) := by
  have size := sizeT_of_natural f.fsize natural passes
  obtain ⟨buffer, read⟩ := fread_ok ctx.buffer f natural passes
  obtain ⟨msg, built⟩ := (wasmRequest_ok_iff (ctx.wasmArgs 0) (ctx.msg 0) s.myNodeId
    (UInt32.ofNat (ctx.rand 0 % 9999)) buffer f.fsize func args.length (pack args)).mpr
    ⟨by omega, by omega⟩
  simp only [velumSpawnWasm, if_neg (not_lt.mpr passes)]
  rw [bind_of_ok read]
  cases findBestNode s.clusterStatus s.myNodeId with
  | none => exact ⟨_, _, rfl⟩
  | some winner =>
    simp only
    rw [bind_of_ok built]
    cases s.findTarget winner with
    | none => exact ⟨_, _, rfl⟩
    | some target => exact ⟨_, _, bind_of_ok (markNodeBusy_ok s.clusterStatus winner) _⟩

/-! ## What is sent -/

/-- An `EXECUTE_WASM` request of a job, with the name of its function copied in. -/
structure RequestFor (myNodeId : Int) (jobId : UInt32) (func : List UInt8) (msg : Message) :
    Prop where
  sender : msg.senderId = UInt16.ofInt myNodeId
  type : msg.type = .taskRequest
  header : TaskHeader.view msg.payload = ⟨.executeWasm, jobId⟩
  funcName : ∃ old, (WasmArgs.view msg.payload).funcName = strncpy31 old func

/-- Without an interpreter a request whose function name is terminated fails with -1. -/
theorem RequestFor.runs {myNodeId : Int} {jobId : UInt32} {func : List UInt8} {msg : Message}
    {ctx : ReadContext} (request : RequestFor myNodeId jobId func msg) (clean : 0 ∉ func)
    (short : func.length ≤ 30) (none : ctx.wasm3.newEnvironment = false) :
    runWasmRequest ctx msg.payload = .ok (-1) := by
  obtain ⟨old, field⟩ := request.funcName
  have name := scan_strncpy31 old func clean short
  simp only [runWasmRequest, executeWasmInSandbox, field, readCString, name, none, bind,
    Except.bind]
  rfl

/-- A scatter loop that returned, over workers that all have a target, sent each of them
a request of its job. -/
theorem scatterLoop_requests (job : Scatter) (i : Nat) (workers : List Nat) (currentStart : Int32)
    (s last : Node) (actions : List Action)
    (reachable : ∀ worker ∈ workers, (s.findTarget worker).isSome)
    (success : scatterLoop job i workers currentStart s = .ok (last, actions)) :
    ∃ tasks : List Dispatch, actions = tasks.map (.dispatched .distributed) ∧
      tasks.map Dispatch.worker = workers ∧
      (∀ task ∈ tasks, RequestFor s.myNodeId job.jobId job.func task.msg) ∧
      last = tasks.foldl Node.afterScatterSend s := by
  induction workers generalizing i currentStart s last actions with
  | nil =>
    cases success
    exact ⟨[], rfl, rfl, by simp, rfl⟩
  | cons worker rest ih =>
    obtain ⟨msg, built, success⟩ := bind_success success
    obtain ⟨⟨between, first⟩, sent, success⟩ := bind_success success
    obtain ⟨⟨deeper, later⟩, loop, success⟩ := bind_success success
    cases success
    obtain ⟨target, found⟩ := Option.isSome_iff_exists.mp (reachable worker List.mem_cons_self)
    rw [sendScattered_of_target msg found] at sent
    cases sent
    obtain ⟨tasks, rfl, listed, requests, rfl⟩ := ih _ _ _ _ _ (by
      intro other member
      rw [(afterScatterSend_sameTables s _).findTarget]
      exact reachable other (List.mem_cons_of_mem _ member)) loop
    refine ⟨⟨worker, target, msg⟩ :: tasks, rfl, by rw [List.map_cons, listed], ?_, rfl⟩
    intro task member
    rcases List.mem_cons.mp member with rfl | inside
    · obtain ⟨sender, type, _⟩ := wasmRequest_built built
      exact ⟨sender, type, header_of_built built, _,
        congrArg WasmArgs.funcName (wasmArgs_of_built built)⟩
    · exact requests task inside

/-- The call finds a readable file of at most 2000 octets and a worker. -/
def Scatters (s : Node) (file : Option File) : Prop :=
  (∃ f, file = some f ∧ f.fsize ≤ 2000) ∧ s.findAllWorkers s.myNodeId ≠ []

def jobIdOf (ctx : SpawnContext) : UInt32 := UInt32.ofNat (ctx.rand 0 % 9999)

/-- A call that finds zeroed memory and draws a number. -/
def drawing (n : Nat) : SpawnContext := { SpawnContext.zeroed with rand := fun _ => n }

/-- A call that chose a worker and found a target for it has built a request and sent it. -/
theorem velumSpawnWasm_sends {ctx : SpawnContext} {f : File} {func : List UInt8}
    {args : List (List UInt8)} {s after : Node} {actions : List Action} {worker : Nat} {fd : Sock}
    (passes : f.fsize ≤ 2000) (chosen : findBestNode s.clusterStatus s.myNodeId = some worker)
    (found : s.findTarget worker = some fd)
    (success : velumSpawnWasm ctx (some f) func args s = .ok (after, actions)) :
    ∃ buffer msg, wasmRequest (ctx.wasmArgs 0) (ctx.msg 0) s.myNodeId (jobIdOf ctx) buffer f.fsize
        func args.length (pack args) = .ok msg ∧
      actions = [.dispatched .spawnWasm ⟨worker, fd, msg⟩] := by
  simp only [velumSpawnWasm, if_neg (not_lt.mpr passes)] at success
  obtain ⟨buffer, _, success⟩ := bind_success success
  simp only [chosen] at success
  obtain ⟨msg, built, success⟩ := bind_success success
  simp only [found, markNodeBusy_ok] at success
  cases success
  exact ⟨buffer, msg, built, rfl⟩

/-- From a node with a best worker and a target for it, the call for an empty file sends
one request. -/
theorem step_spawn {s : Node} {worker : Nat} {fd : Sock} (ctx : SpawnContext) (func : List UInt8)
    (chosen : findBestNode s.clusterStatus s.myNodeId = some worker)
    (found : s.findTarget worker = some fd) :
    ∃ msg, TaskHeader.view msg.payload = ⟨.executeWasm, jobIdOf ctx⟩ ∧
      s.Step (.spawnWasm ctx (some ⟨(0 : Nat), []⟩) func [])
        [.dispatched .spawnWasm ⟨worker, fd, msg⟩]
        { s with clusterStatus := markedBusy s.clusterStatus worker } := by
  obtain ⟨after, actions, success⟩ := returns_of_fit ⟨(0 : Nat), []⟩ func [] (by decide) (by decide)
    (by decide) ctx s
  obtain ⟨buffer, msg, built, rfl⟩ := velumSpawnWasm_sends (by decide) chosen found success
  rcases velumSpawnWasm_cases _ _ _ _ _ _ _ success with ⟨_, none⟩ | ⟨winner, _, _, again, _, rfl, _⟩
  · cases none
  · cases chosen.symm.trans again
    exact ⟨msg, header_of_built built, trivial, success⟩

/-- What a call sends was built from its arguments. -/
theorem built_of_dispatched {ctx : SpawnContext} {f : File} {func : List UInt8}
    {args : List (List UInt8)} {s after : Node} {actions : List Action}
    (success : velumSpawnWasm ctx (some f) func args s = .ok (after, actions)) (call : Call)
    (task : Dispatch) (member : .dispatched call task ∈ actions) :
    ∃ buffer, wasmRequest (ctx.wasmArgs 0) (ctx.msg 0) s.myNodeId (jobIdOf ctx) buffer f.fsize func
      args.length (pack args) = .ok task.msg := by
  unfold velumSpawnWasm at success
  simp only at success
  split at success
  · cases success
    cases member
  · obtain ⟨buffer, _, success⟩ := bind_success success
    split at success
    · cases success
      cases member
    · obtain ⟨msg, built, success⟩ := bind_success success
      split at success
      · cases success
        cases member
      · rw [markNodeBusy_ok] at success
        cases success
        cases List.mem_singleton.mp member
        exact ⟨buffer, built⟩

section Call
variable {ctx : SpawnContext} {file : Option File} {func : List UInt8} {start stop : Int32}
  {s after : Node} {actions : List Action}

/-- A call that scatters records the job it drew and sends a request of it to each
listed worker. -/
theorem distributed_requests
    (success : velumSpawnWasmDistributed ctx file func start stop s = .ok (after, actions))
    (scatters : Scatters s file) :
    ∃ tasks : List Dispatch,
      actions = .recorded (jobIdOf ctx) :: tasks.map (.dispatched .distributed) ∧
      tasks.map Dispatch.worker = s.findAllWorkers s.myNodeId ∧
      (∀ task ∈ tasks, RequestFor s.myNodeId (jobIdOf ctx) func task.msg) ∧
      after = tasks.foldl Node.afterScatterSend (s.recordJob (jobIdOf ctx) (stop - start)) := by
  obtain ⟨⟨f, rfl, small⟩, connected⟩ := scatters
  have nonempty : (s.findAllWorkers s.myNodeId).isEmpty = false := by simpa using connected
  simp only [velumSpawnWasmDistributed, if_neg (not_lt.mpr small)] at success
  obtain ⟨buffer, _, success⟩ := bind_success success
  simp only [nonempty, Bool.false_eq_true, if_false] at success
  obtain ⟨⟨last, later⟩, loop, success⟩ := bind_success success
  cases success
  obtain ⟨tasks, rfl, listed, requests, rfl⟩ := scatterLoop_requests _ _ _ _ _ _ _ (by
    intro worker member
    obtain ⟨_, _, slot, leads⟩ := (s.mem_findAllWorkers s.myNodeId worker).mp member
    exact s.findTarget_isSome worker slot leads) loop
  exact ⟨tasks, rfl, listed, requests, rfl⟩

/-- Any other call records nothing. -/
theorem distributed_idle
    (success : velumSpawnWasmDistributed ctx file func start stop s = .ok (after, actions))
    (idle : ¬ Scatters s file) : after = s ∧ actions = [] := by
  unfold velumSpawnWasmDistributed at success
  split at success
  · cases success
    exact ⟨rfl, rfl⟩
  · next f =>
    split at success
    · cases success
      exact ⟨rfl, rfl⟩
    · next small =>
      have alone : s.findAllWorkers s.myNodeId = [] := by
        by_contra connected
        exact idle ⟨⟨f, rfl, not_lt.mp small⟩, connected⟩
      obtain ⟨buffer, _, success⟩ := bind_success success
      simp only [alone, List.isEmpty_nil, if_true] at success
      cases success
      exact ⟨rfl, rfl⟩

end Call

end VelumOS.Spec
