import VelumOS.Spec.Connections

/-!
# Wire round trip of a Wasm task

Encoder and decoder are written apart, with offsets computed by hand. The layout of
a request built by `wasmRequest` is read back by the views of the receiver, for any
old content of the local objects: header, fixed arguments, binary of any length and
the run of NUL-terminated strings. `decodeRequest` collects what `handle_sock` and
the argument loop of the sandbox take out of a payload.
-/
namespace VelumOS.Guarantees.WireRoundTrip
open VelumOS.Source VelumOS.Spec Base.Octets Base.CString

/-- The integers that the argument loop reads behind the binary. -/
def decodedArgs (p : Payload) : Except Fault (List Int32) :=
  let args := WasmArgs.view p
  parseArgs args.argc.toNat (p.cells.drop (49 + args.binarySize.toNat))

structure DecodedRequest where
  jobId : UInt32
  binary : List UInt8
  funcName : List UInt8
  argc : UInt32
  intArgs : List Int32
  deriving DecidableEq

/-- What the receiver takes out of an `EXECUTE_WASM` payload. -/
def decodeRequest (p : Payload) : Except Fault DecodedRequest := do
  let args := WasmArgs.view p
  let funcName ← readCString .funcName args.funcName.cells
  let binary ← readBinary (p.cells.drop 49) args.binarySize
  let intArgs ← decodedArgs p
  .ok ⟨(TaskHeader.view p).jobId, binary, funcName, args.argc, intArgs⟩

/-- The interpreter starts, takes the module and finds the function in it. -/
structure Accepts (wasm3 : Wasm3) (binary name : List UInt8) (type : FuncType) : Prop where
  newEnvironment : wasm3.newEnvironment = true
  newRuntime : wasm3.newRuntime = true
  parseModule : wasm3.parseModule binary = true
  loadModule : wasm3.loadModule binary = true
  findFunction : wasm3.findFunction binary name = some type

/-- The receiver takes `d` out of the message: it is a task request for `EXECUTE_WASM`,
`handle_sock` enters that branch, and the function is called on the decoded parts in
every interpreter that accepts them. -/
structure DecodesTo (msg : Message) (d : DecodedRequest) : Prop where
  type : msg.type = .taskRequest
  opCode : (TaskHeader.view msg.payload).opCode = .executeWasm
  entered : ∀ (ctx : ReadContext) (s : Node) (fd : Sock),
    s.processMessage ctx fd msg = (s.executeWasm ctx msg).map fun actions => (s, actions)
  decoded : decodeRequest msg.payload = .ok d
  called : ∀ (ctx : ReadContext) (type : FuncType), Accepts ctx.wasm3 d.binary d.funcName type →
    runWasmRequest ctx msg.payload = sandboxResult type
      (m3Call ctx.wasm3 d.binary d.funcName type d.argc.toNat d.intArgs ctx.beyond)

section Started
variable {ctx : ReadContext} {p : Payload} {name slice : List UInt8}
  (named : readCString .funcName (WasmArgs.view p).funcName.cells = .ok name)
  (binary : readBinary (p.cells.drop 49) (WasmArgs.view p).binarySize = .ok slice)

include named binary

/-- In an interpreter that starts, a request is parsed, loaded, looked up and called. -/
theorem runWasmRequest_started (environment : ctx.wasm3.newEnvironment = true)
    (runtime : ctx.wasm3.newRuntime = true) :
    runWasmRequest ctx p =
      if ctx.wasm3.parseModule slice = false then .ok (-2)
      else if ctx.wasm3.loadModule slice = false then .ok (-3)
      else match ctx.wasm3.findFunction slice name with
        | none => .ok (-4)
        | some type => decodedArgs p >>= fun intArgs => sandboxResult type
            (m3Call ctx.wasm3 slice name type (WasmArgs.view p).argc.toNat intArgs ctx.beyond) := by
  simp only [runWasmRequest, executeWasmInSandbox, named, binary, environment, runtime, bind,
    Except.bind, Bool.not_true, Bool.false_eq_true, if_false, Bool.not_eq_true']
  rfl

/-- An accepted request is run on its binary, its name and its arguments. -/
theorem ran_of_accepts {intArgs : List Int32} {type : FuncType} (ints : decodedArgs p = .ok intArgs)
    (accepts : Accepts ctx.wasm3 slice name type) :
    runWasmRequest ctx p = sandboxResult type
      (m3Call ctx.wasm3 slice name type (WasmArgs.view p).argc.toNat intArgs ctx.beyond) := by
  rw [runWasmRequest_started named binary accepts.newEnvironment accepts.newRuntime,
    accepts.parseModule, accepts.loadModule, accepts.findFunction, if_neg (by decide),
    if_neg (by decide)]
  exact bind_of_ok ints _

end Started

/-- A request that decodes is run on exactly the decoded parts. -/
theorem decodesTo_of_decodeRequest (msg : Message) (d : DecodedRequest)
    (type : msg.type = .taskRequest) (opCode : (TaskHeader.view msg.payload).opCode = .executeWasm)
    (decoded : decodeRequest msg.payload = .ok d) : DecodesTo msg d := by
  refine ⟨type, opCode, fun ctx s fd => ?_, decoded, fun ctx type accepts => ?_⟩
  · simp only [Node.processMessage, type, opCode, if_true]
    cases s.executeWasm ctx msg <;> rfl
  obtain ⟨funcName, name, decoded⟩ := bind_success decoded
  obtain ⟨binary, slice, decoded⟩ := bind_success decoded
  obtain ⟨intArgs, ints, decoded⟩ := bind_success decoded
  cases decoded
  exact ran_of_accepts name slice ints accepts

/-- Every part of a built request is where the receiver looks for it. -/
theorem wasmRequest_views (oldArgs : WasmArgs) (oldMsg : Message) (myNodeId : Int) (jobId : UInt32)
    (buffer : Block UInt8 2048) (size : Nat) (func : List UInt8) (argc : Nat)
    (argBlob : List UInt8) (small : size ≤ 2000) (fits : 49 + size + argBlob.length ≤ 4096) :
    ∃ msg rest, wasmRequest oldArgs oldMsg myNodeId jobId buffer size func argc argBlob = .ok msg ∧
      msg.senderId = UInt16.ofInt myNodeId ∧ msg.type = .taskRequest ∧
      TaskHeader.view msg.payload = ⟨.executeWasm, jobId⟩ ∧
      WasmArgs.view msg.payload = ⟨UInt32.ofNat size, strncpy31 oldArgs.funcName func,
        UInt32.ofNat argc, UInt32.ofNat argBlob.length⟩ ∧
      msg.payload.cells.drop 49 = buffer.cells.take size ++ (argBlob ++ rest) := by
  have exactSize : sizeT size = size := sizeT_natCast size (by omega)
  obtain ⟨msg, built, sender, type, cells⟩ := wasmRequest_ok oldArgs oldMsg myNodeId jobId buffer
    size func argc argBlob (by omega) (by omega)
  rw [exactSize] at cells
  have word : UInt32.ofInt size = UInt32.ofNat size := by
    apply UInt32.toNat_inj.mp
    simp only [UInt32.ofInt, UInt32.toNat_ofNat']
    omega
  rw [word] at cells
  refine ⟨msg, oldMsg.payload.cells.drop (49 + size + argBlob.length), built, sender, type,
    TaskHeader.view_front _ _ _ cells,
    WasmArgs.view_behind _ _ _ _ (TaskHeader.octets_length _) cells, ?_⟩
  rw [cells, ← List.append_assoc, List.drop_left']
  simp

/-- The argument strings of a built request are walked back to their values. -/
theorem decodedArgs_wasmRequest (oldArgs : WasmArgs) (oldMsg : Message) (myNodeId : Int)
    (jobId : UInt32) (buffer : Block UInt8 2048) (size : Nat) (func : List UInt8)
    (args : List (List UInt8)) (small : size ≤ 2000)
    (fits : 49 + size + (pack args).length ≤ 4096) (clean : ∀ text ∈ args, 0 ∉ text) :
    ∃ msg, wasmRequest oldArgs oldMsg myNodeId jobId buffer size func args.length (pack args) =
        .ok msg ∧ msg.senderId = UInt16.ofInt myNodeId ∧ msg.type = .taskRequest ∧
      TaskHeader.view msg.payload = ⟨.executeWasm, jobId⟩ ∧
      WasmArgs.view msg.payload = ⟨UInt32.ofNat size, strncpy31 oldArgs.funcName func,
        UInt32.ofNat args.length, UInt32.ofNat (pack args).length⟩ ∧
      readBinary (msg.payload.cells.drop 49) (UInt32.ofNat size) =
        .ok (buffer.cells.take size) ∧
      decodedArgs msg.payload = .ok (args.map atoi) := by
  obtain ⟨msg, rest, built, sender, type, header, wasmArgs, body⟩ := wasmRequest_views oldArgs
    oldMsg myNodeId jobId buffer size func args.length (pack args) small fits
  have sliceLength : (buffer.cells.take size).length = size := by
    rw [List.length_take, buffer.size]
    omega
  have sizeWord : (UInt32.ofNat size).toNat = size := by
    rw [UInt32.toNat_ofNat']
    omega
  have countBound : args.length ≤ (pack args).length := by
    rw [pack_length]
    omega
  have countWord : (UInt32.ofNat args.length).toNat = args.length := by
    rw [UInt32.toNat_ofNat']
    omega
  have behind : msg.payload.cells.drop (49 + size) = pack args ++ rest := by
    rw [← List.drop_drop, body, List.drop_left' sliceLength]
  refine ⟨msg, built, sender, type, header, wasmArgs, ?_, ?_⟩
  · have inside : size ≤ (msg.payload.cells.drop 49).length := by
      rw [body, List.length_append, sliceLength]
      omega
    rw [readBinary, sizeWord, if_pos inside, body, List.take_left' sliceLength]
  · simp only [decodedArgs, wasmArgs, sizeWord, countWord, behind]
    rw [parseArgs_eq, scanMany_pack args rest clean]

/-- `fread` of a file that fits leaves its content at the front of the buffer. -/
theorem fread_contents (buffer : Block UInt8 2048) (contents : List UInt8)
    (small : contents.length ≤ 2000) :
    ∃ filled, fread buffer contents.length contents = .ok filled ∧
      filled.cells.take contents.length = contents := by
  have exactSize : sizeT contents.length = contents.length := sizeT_natCast _ (by omega)
  have fits : (contents.take contents.length).length ≤ 2048 := by
    rw [List.take_length]
    omega
  refine ⟨buffer.overlay (contents.take contents.length) fits, ?_, ?_⟩
  · simp only [fread, exactSize]
    rw [dif_pos fits]
  · simp [Block.overlay]

/-- Encoder and decoder of a single task agree on all parts. -/
theorem decodeRequest_wasmRequest (oldArgs : WasmArgs) (oldMsg : Message) (myNodeId : Int)
    (jobId : UInt32) (buffer : Block UInt8 2048) (binary func : List UInt8)
    (args : List (List UInt8)) (loaded : buffer.cells.take binary.length = binary)
    (small : binary.length ≤ 2000) (short : func.length ≤ 30) (name : 0 ∉ func)
    (clean : ∀ text ∈ args, 0 ∉ text) (fits : 49 + binary.length + (pack args).length ≤ 4096) :
    ∃ msg, wasmRequest oldArgs oldMsg myNodeId jobId buffer binary.length func args.length
        (pack args) = .ok msg ∧
      DecodesTo msg ⟨jobId, binary, func, UInt32.ofNat args.length, args.map atoi⟩ := by
  obtain ⟨msg, built, _, type, header, wasmArgs, slice, ints⟩ := decodedArgs_wasmRequest oldArgs
    oldMsg myNodeId jobId buffer binary.length func args small fits clean
  refine ⟨msg, built, decodesTo_of_decodeRequest _ _ type (congrArg TaskHeader.opCode header) ?_⟩
  have found := scan_strncpy31 oldArgs.funcName func name short
  simp only [decodeRequest, header, wasmArgs, slice, ints, loaded, readCString, found, bind,
    Except.bind]

/-- The two numbers of a scattered request and their NULs take 24 octets at most. -/
theorem rangeArgs_length_le (currentStart myEnd : Int32) :
    (pack [sprintfInt currentStart, sprintfInt myEnd]).length ≤ 24 := by
  have first := sprintfInt_length_le currentStart
  have second := sprintfInt_length_le myEnd
  simp [pack]
  omega

theorem rangeArgs_clean (currentStart myEnd : Int32) :
    ∀ text ∈ [sprintfInt currentStart, sprintfInt myEnd], 0 ∉ text := by
  intro text member
  rcases List.mem_pair.mp member with rfl | rfl
  · exact sprintfInt_clean currentStart
  · exact sprintfInt_clean myEnd

/-- `velum_spawn_wasm` returns from every state, and what it may send decodes to what it
was given. -/
theorem velumSpawnWasm_decodes (ctx : SpawnContext) (binary func : List UInt8)
    (args : List (List UInt8)) (small : binary.length ≤ 2000) (short : func.length ≤ 30)
    (name : 0 ∉ func) (clean : ∀ text ∈ args, 0 ∉ text)
    (fits : 49 + binary.length + (pack args).length ≤ 4096) (s : Node) :
    ∃ msg, DecodesTo msg ⟨UInt32.ofNat (ctx.rand 0 % 9999), binary, func,
        UInt32.ofNat args.length, args.map atoi⟩ ∧
      velumSpawnWasm ctx (some ⟨binary.length, binary⟩) func args s =
        match findBestNode s.clusterStatus s.myNodeId with
        | none => .ok (s, [])
        | some winner =>
          match s.findTarget winner with
          | none => .ok (s, [])
          | some target =>
            .ok ({ s with clusterStatus := markedBusy s.clusterStatus winner },
              [.dispatched .spawnWasm ⟨winner, target, msg⟩]) := by
  obtain ⟨buffer, read, loaded⟩ := fread_contents ctx.buffer binary small
  obtain ⟨msg, built, decoded⟩ := decodeRequest_wasmRequest (ctx.wasmArgs 0) (ctx.msg 0)
    s.myNodeId (UInt32.ofNat (ctx.rand 0 % 9999)) buffer binary func args loaded small short name
    clean fits
  refine ⟨msg, decoded, ?_⟩
  have size : ¬ (binary.length : Int) > 2000 := by omega
  simp only [velumSpawnWasm, if_neg size]
  apply (bind_of_ok read _).trans
  cases findBestNode s.clusterStatus s.myNodeId with
  | none => rfl
  | some winner =>
    apply (bind_of_ok built _).trans
    dsimp only
    cases s.findTarget winner with
    | none => rfl
    | some target => exact bind_of_ok (markNodeBusy_ok s.clusterStatus winner) _

/-- A scattered request decodes to the two numbers that were printed into it. -/
theorem request_decodes (job : Scatter) (myNodeId : Int) (i : Nat) (currentStart myEnd : Int32)
    (binary : List UInt8) (small : binary.length ≤ 2000) (short : job.func.length ≤ 30)
    (name : 0 ∉ job.func) (size : job.fsize = binary.length)
    (loaded : job.buffer.cells.take binary.length = binary) :
    ∃ msg, job.request myNodeId i currentStart myEnd = .ok msg ∧
      DecodesTo msg ⟨job.jobId, binary, job.func, 2, [currentStart, myEnd]⟩ := by
  have blob := rangeArgs_length_le currentStart myEnd
  obtain ⟨msg, built, decoded⟩ := decodeRequest_wasmRequest (job.ctx.wasmArgs i) (job.ctx.msg i)
    myNodeId job.jobId job.buffer binary job.func [sprintfInt currentStart, sprintfInt myEnd]
    loaded small short name (rangeArgs_clean currentStart myEnd) (by omega)
  refine ⟨msg, ?_, ?_⟩
  · simpa only [Scatter.request, size, List.length_cons, List.length_nil, Nat.reduceAdd] using built
  · simpa using decoded

/-- What `velum_spawn_wasm` sends decodes to what it was given: for every state it
returns, and the one message it may send is an `EXECUTE_WASM` request that decodes to
the job id drawn, the binary, the function name, the argument count and the value of
each argument string. For the two numbers that `velum_spawn_wasm_distributed` prints,
the decoded integers are those numbers, for all pairs of 32-bit integers. -/
theorem wasm_task_round_trip (ctx : SpawnContext) (binary func : List UInt8)
    (args : List (List UInt8)) (small : binary.length ≤ 2000) (short : func.length ≤ 30)
    (name : 0 ∉ func) (clean : ∀ text ∈ args, 0 ∉ text)
    (fits : 49 + binary.length + (pack args).length ≤ 4096) :
    (∀ s : Node, ∃ msg,
      DecodesTo msg ⟨UInt32.ofNat (ctx.rand 0 % 9999), binary, func,
        UInt32.ofNat args.length, args.map atoi⟩ ∧
      velumSpawnWasm ctx (some ⟨binary.length, binary⟩) func args s =
        match findBestNode s.clusterStatus s.myNodeId with
        | none => .ok (s, [])
        | some winner =>
          match s.findTarget winner with
          | none => .ok (s, [])
          | some target =>
            .ok ({ s with clusterStatus := markedBusy s.clusterStatus winner },
              [.dispatched .spawnWasm ⟨winner, target, msg⟩])) ∧
    (∀ (job : Scatter) (myNodeId : Int) (i : Nat) (currentStart myEnd : Int32),
      job.fsize = binary.length → job.func = func →
      job.buffer.cells.take binary.length = binary →
      ∃ msg, job.request myNodeId i currentStart myEnd = .ok msg ∧
        DecodesTo msg ⟨job.jobId, binary, func, 2, [currentStart, myEnd]⟩) := by
  constructor
  · exact velumSpawnWasm_decodes ctx binary func args small short name clean fits
  · intro job myNodeId i currentStart myEnd size named loaded
    subst named
    exact request_decodes job myNodeId i currentStart myEnd binary small short name size loaded

/-- A call `f("10", "-7")` on a two-octet binary, sent to the only worker. -/
theorem wasm_task_round_trip_two_args : ∃ after msg,
    velumSpawnWasm .zeroed (some ⟨2, [0, 97]⟩) [102] [[49, 48], [45, 55]] readyTwo =
      .ok (after, [.dispatched .spawnWasm ⟨2, fd5, msg⟩]) ∧
    DecodesTo msg ⟨0, [0, 97], [102], 2, [10, -7]⟩ := by
  obtain ⟨msg, decoded, sent⟩ := (wasm_task_round_trip .zeroed [0, 97] [102] [[49, 48], [45, 55]]
    (by decide) (by decide) (by decide) (by decide) (by decide)).1 readyTwo
  have values : [[49, 48], [45, 55]].map atoi = [10, -7] := by decide
  rw [values] at decoded
  simp only [readyTwo_winner, readyTwo_target] at sent
  exact ⟨_, msg, sent, decoded⟩

end VelumOS.Guarantees.WireRoundTrip
