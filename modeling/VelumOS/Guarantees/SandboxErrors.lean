import VelumOS.Spec.Interpreter
import VelumOS.Guarantees.WireRoundTrip

/-!
# Failures and results of the sandbox

`execute_wasm_in_sandbox` returns -1 to -5 for the stage that failed and otherwise what
the guest returned, in the same `int`, and the reply has nothing else that tells the two
apart: its count is 1 either way. So a failure can be told from a result exactly when the
guest returned something else than the code of the failure.
-/
namespace VelumOS.Guarantees.SandboxErrors
open VelumOS.Source VelumOS.Spec Base.Octets Base.CString WireRoundTrip

/-- The stages that fail. An argument count that is not the function's is a trap. -/
inductive Failure where
  | environment | parse | load | lookup | trap
  deriving DecidableEq

def Failure.code : Failure → Int32
  | .environment => -1
  | .parse => -2
  | .load => -3
  | .lookup => -4
  | .trap => -5

/-- The function name and the binary of a request. -/
structure Taken (p : Payload) (name slice : List UInt8) : Prop where
  name : readCString .funcName (WasmArgs.view p).funcName.cells = .ok name
  slice : readBinary (p.cells.drop 49) (WasmArgs.view p).binarySize = .ok slice

/-- The request fails in a stage, after it passed the stages before. -/
inductive Fails (ctx : ReadContext) (p : Payload) : Failure → Prop
  | environment {name : List UInt8}
      (named : readCString .funcName (WasmArgs.view p).funcName.cells = .ok name)
      (absent : ctx.wasm3.newEnvironment = false ∨ ctx.wasm3.newRuntime = false) :
      Fails ctx p .environment
  | parse {name slice : List UInt8} (taken : Taken p name slice)
      (environment : ctx.wasm3.newEnvironment = true) (runtime : ctx.wasm3.newRuntime = true)
      (refused : ctx.wasm3.parseModule slice = false) : Fails ctx p .parse
  | load {name slice : List UInt8} (taken : Taken p name slice)
      (environment : ctx.wasm3.newEnvironment = true) (runtime : ctx.wasm3.newRuntime = true)
      (parsed : ctx.wasm3.parseModule slice = true)
      (refused : ctx.wasm3.loadModule slice = false) : Fails ctx p .load
  | lookup {name slice : List UInt8} (taken : Taken p name slice)
      (environment : ctx.wasm3.newEnvironment = true) (runtime : ctx.wasm3.newRuntime = true)
      (parsed : ctx.wasm3.parseModule slice = true) (loaded : ctx.wasm3.loadModule slice = true)
      (absent : ctx.wasm3.findFunction slice name = none) : Fails ctx p .lookup
  | trap {name slice : List UInt8} {type : FuncType} {intArgs : List Int32}
      (taken : Taken p name slice) (accepts : Accepts ctx.wasm3 slice name type)
      (args : decodedArgs p = .ok intArgs)
      (trapped : m3Call ctx.wasm3 slice name type (WasmArgs.view p).argc.toNat intArgs ctx.beyond =
        .trap) : Fails ctx p .trap

/-- The `int` that the guest left in the result slots; a function without results leaves
a zero. -/
def returnedValue (type : FuncType) (slots : List UInt64) : Int32 :=
  match m3GetResults type slots with
  | some val => val.toUInt32.toInt32
  | none => 0

/-- The function was called and returned a value. -/
inductive Returns (ctx : ReadContext) (p : Payload) : Int32 → Prop
  | intro {name slice : List UInt8} {type : FuncType} {intArgs : List Int32} {slots : List UInt64}
      (taken : Taken p name slice) (accepts : Accepts ctx.wasm3 slice name type)
      (args : decodedArgs p = .ok intArgs)
      (ran : m3Call ctx.wasm3 slice name type (WasmArgs.view p).argc.toNat intArgs ctx.beyond =
        .returned slots) : Returns ctx p (returnedValue type slots)

section Request
variable {ctx : ReadContext} {p : Payload}

/-- A failed request yields the code of its stage. -/
theorem ran_of_fails {cause : Failure} (fails : Fails ctx p cause) :
    runWasmRequest ctx p = .ok cause.code := by
  cases fails with
  | environment named absent =>
    cases on : ctx.wasm3.newEnvironment with
    | false =>
      simp [runWasmRequest, executeWasmInSandbox, named, on, bind, Except.bind, pure, Except.pure,
        Failure.code]
    | true =>
      have off : ctx.wasm3.newRuntime = false := by simpa [on] using absent
      simp [runWasmRequest, executeWasmInSandbox, named, on, off, bind, Except.bind, pure,
        Except.pure, Failure.code]
  | parse taken environment runtime refused =>
    rw [runWasmRequest_started taken.name taken.slice environment runtime, if_pos refused]
    rfl
  | load taken environment runtime parsed refused =>
    rw [runWasmRequest_started taken.name taken.slice environment runtime, parsed,
      if_neg (by decide), if_pos refused]
    rfl
  | lookup taken environment runtime parsed loaded absent =>
    rw [runWasmRequest_started taken.name taken.slice environment runtime, parsed, loaded, absent,
      if_neg (by decide), if_neg (by decide)]
    rfl
  | trap taken accepts args trapped =>
    rw [ran_of_accepts taken.name taken.slice args accepts, trapped]
    rfl

/-- A called function yields its value. -/
theorem ran_of_returns {value : Int32} (returns : Returns ctx p value) :
    runWasmRequest ctx p = .ok value := by
  obtain @⟨name, slice, type, intArgs, slots, taken, accepts, args, ran⟩ := returns
  rw [ran_of_accepts taken.name taken.slice args accepts, ran]
  simp only [sandboxResult, returnedValue]
  cases m3GetResults type slots <;> rfl

/-- A request that was executed failed in a stage or returned a value. -/
theorem fails_or_returns {result : Int32} (ran : runWasmRequest ctx p = .ok result) :
    (∃ cause, Fails ctx p cause ∧ result = cause.code) ∨ Returns ctx p result := by
  have failed {cause : Failure} (fails : Fails ctx p cause) :
      (∃ cause, Fails ctx p cause ∧ result = cause.code) ∨ Returns ctx p result :=
    .inl ⟨cause, fails, Except.ok.inj (ran.symm.trans (ran_of_fails fails))⟩
  obtain ⟨name, named, executed⟩ := bind_success ran
  obtain ⟨again, renamed, executed⟩ := bind_success executed
  cases named.symm.trans renamed
  cases environment : ctx.wasm3.newEnvironment with
  | false => exact failed (.environment named (.inl environment))
  | true =>
  cases runtime : ctx.wasm3.newRuntime with
  | false => exact failed (.environment named (.inr runtime))
  | true =>
  simp only [environment, runtime, Bool.not_true, Bool.false_eq_true, if_false] at executed
  obtain ⟨slice, binary, executed⟩ := bind_success executed
  have taken : Taken p name slice := ⟨named, binary⟩
  cases parsed : ctx.wasm3.parseModule slice with
  | false => exact failed (.parse taken environment runtime parsed)
  | true =>
  cases loaded : ctx.wasm3.loadModule slice with
  | false => exact failed (.load taken environment runtime parsed loaded)
  | true =>
  cases found : ctx.wasm3.findFunction slice name with
  | none => exact failed (.lookup taken environment runtime parsed loaded found)
  | some type =>
  have accepts : Accepts ctx.wasm3 slice name type := ⟨environment, runtime, parsed, loaded, found⟩
  simp only [parsed, loaded, found, Bool.not_true, Bool.false_eq_true, if_false] at executed
  obtain ⟨intArgs, args, executed⟩ := bind_success executed
  cases called : m3Call ctx.wasm3 slice name type (WasmArgs.view p).argc.toNat intArgs ctx.beyond with
  | trap => exact failed (.trap taken accepts args called)
  | hang =>
    rw [called] at executed
    cases executed
  | returned slots =>
    have returns : Returns ctx p (returnedValue type slots) := ⟨taken, accepts, args, called⟩
    cases ran.symm.trans (ran_of_returns returns)
    exact .inr returns

end Request

/-- The octets of the result in a reply. -/
def resultOctets (reply : Message) : List UInt8 := reply.payload.cells.take 12

/-- What a reply to a request of a job holds. -/
theorem resultOctets_of_sent {ctx : ReadContext} {s : Node} {msg reply : Message} {fd : Sock}
    {actions : List Action} {result : Int32} (success : s.executeWasm ctx msg = .ok actions)
    (sent : .sent fd reply ∈ actions) (ran : runWasmRequest ctx msg.payload = .ok result) :
    resultOctets reply = TaskResult.octets ⟨(TaskHeader.view msg.payload).jobId, result, 1⟩ := by
  obtain ⟨resVal, executed, rfl⟩ := executeWasm_cases ctx s msg actions success
  cases ran.symm.trans executed
  split at sent
  · cases sent
  · cases List.mem_singleton.mp sent
    exact List.take_left' (TaskResult.octets_length _)

/-- For all nodes, interpreters and requests of one job: the results sent for a request
that failed and for one whose function returned a value differ if and only if that value
is not the code of the failure. -/
theorem replies_differ_iff {s₁ s₂ : Node} {ctx₁ ctx₂ : ReadContext} {msg₁ msg₂ reply₁ reply₂ : Message}
    {fd₁ fd₂ : Sock} {actions₁ actions₂ : List Action} {cause : Failure} {value : Int32}
    (success₁ : s₁.executeWasm ctx₁ msg₁ = .ok actions₁) (sent₁ : .sent fd₁ reply₁ ∈ actions₁)
    (success₂ : s₂.executeWasm ctx₂ msg₂ = .ok actions₂) (sent₂ : .sent fd₂ reply₂ ∈ actions₂)
    (job : (TaskHeader.view msg₁.payload).jobId = (TaskHeader.view msg₂.payload).jobId)
    (fails : Fails ctx₁ msg₁.payload cause) (returns : Returns ctx₂ msg₂.payload value) :
    resultOctets reply₁ ≠ resultOctets reply₂ ↔ value ≠ cause.code := by
  rw [resultOctets_of_sent success₁ sent₁ (ran_of_fails fails),
    resultOctets_of_sent success₂ sent₂ (ran_of_returns returns), job, ne_eq,
    TaskResult.octets_injective.eq_iff]
  simp only [TaskResult.mk.injEq, true_and, and_true]
  exact not_congr eq_comm

/-! ## Requests for a function that adds -/

/-- The context of a node with the modelled interpreter. -/
def modelledContext : ReadContext := { ReadContext.refusing with wasm3 := modelled }

theorem accepts_addOctets : Accepts modelledContext.wasm3 addOctets [102] addType.funcType :=
  ⟨rfl, rfl, rfl, rfl, rfl⟩

/-- Node 2 asks for job 0, the function `f` of `addOctets` with these integers. -/
structure AsksToAdd (msg : Message) (ints : List Int32) : Prop where
  sender : msg.senderId = 2
  job : (TaskHeader.view msg.payload).jobId = 0
  taken : Taken msg.payload [102] addOctets
  argc : (WasmArgs.view msg.payload).argc = UInt32.ofNat ints.length
  args : decodedArgs msg.payload = .ok ints

/-- Such a request is what the encoder builds on node 2. -/
theorem asksToAdd_built (args : List (List UInt8)) (clean : ∀ text ∈ args, 0 ∉ text)
    (fits : 49 + addOctets.length + (pack args).length ≤ 4096) :
    ∃ msg, AsksToAdd msg (args.map atoi) := by
  obtain ⟨buffer, _, loaded⟩ := fread_contents (.fill 2048 0) addOctets (by decide)
  obtain ⟨msg, _, sender, _, header, wasmArgs, slice, ints⟩ := decodedArgs_wasmRequest
    ⟨0, .fill 32 0, 0, 0⟩ .zeroed 2 0 buffer addOctets.length [102] args (by decide) fits clean
  rw [loaded] at slice
  refine ⟨msg, sender, by rw [header], ⟨?_, by rw [wasmArgs]; exact slice⟩, ?_, ints⟩
  · rw [wasmArgs]
    exact congrArg (fun scanned => Except.ok scanned) rfl
  · rw [wasmArgs, List.length_map]

/-- Node 1 answers it. -/
theorem answers_toAdd {msg : Message} {ints : List Int32} (asks : AsksToAdd msg ints)
    {result : Int32} (ran : runWasmRequest modelledContext msg.payload = .ok result) :
    connectedTwo.executeWasm modelledContext msg =
      .ok [.sent fd5 (resultMessage .zeroed 1 .taskResult ⟨0, result, 1⟩)] := by
  have target : connectedTwo.replySock msg.senderId = .ok (some fd5) := by
    rw [asks.sender]
    rfl
  simp only [Node.executeWasm, ran, target, asks.job, bind, Except.bind]
  rfl

/-- Without arguments the call fails. -/
theorem fails_toAdd {msg : Message} (asks : AsksToAdd msg []) :
    Fails modelledContext msg.payload .trap :=
  .trap asks.taken accepts_addOctets asks.args (by rw [asks.argc]; rfl)

/-- With integers that the function returns for, it succeeds. -/
theorem returns_toAdd {msg : Message} {ints : List Int32} {slots : List UInt64}
    (asks : AsksToAdd msg ints)
    (ran : m3Call modelled addOctets [102] addType.funcType (UInt32.ofNat ints.length).toNat ints
      0 = .returned slots) :
    Returns modelledContext msg.payload (returnedValue addType.funcType slots) := by
  rw [← asks.argc] at ran
  exact .intro asks.taken accepts_addOctets asks.args ran

/-- A returned 7 differs from a trap. -/
theorem replies_differ_seven : ∃ msg₁ msg₂ reply₁ reply₂,
    connectedTwo.executeWasm modelledContext msg₁ = .ok [.sent fd5 reply₁] ∧
    Fails modelledContext msg₁.payload .trap ∧
    connectedTwo.executeWasm modelledContext msg₂ = .ok [.sent fd5 reply₂] ∧
    Returns modelledContext msg₂.payload 7 ∧ resultOctets reply₁ ≠ resultOctets reply₂ := by
  obtain ⟨msg₁, asks₁⟩ := asksToAdd_built [] (by simp) (by decide)
  obtain ⟨msg₂, asks₂⟩ := asksToAdd_built [[51], [52]] (by decide) (by decide)
  have fails := fails_toAdd asks₁
  have seven : m3Call modelled addOctets [102] addType.funcType 2 [3, 4] 0 = .returned [7] := rfl
  have returns : Returns modelledContext msg₂.payload 7 := returns_toAdd asks₂ seven
  have trapped := answers_toAdd asks₁ (ran_of_fails fails)
  have returned := answers_toAdd asks₂ (ran_of_returns returns)
  refine ⟨msg₁, msg₂, _, _, trapped, fails, returned, returns, ?_⟩
  exact (replies_differ_iff trapped (List.mem_singleton_self _) returned (List.mem_singleton_self _)
    (asks₁.job.trans asks₂.job.symm) fails returns).mpr (by decide)

/-- A function that returns -5 gets the reply of a trap. -/
theorem trap_replies_minus_five : ∃ msg₁ msg₂ reply,
    (TaskHeader.view msg₁.payload).jobId = (TaskHeader.view msg₂.payload).jobId ∧
    connectedTwo.executeWasm modelledContext msg₁ = .ok [.sent fd5 reply] ∧
    Fails modelledContext msg₁.payload .trap ∧
    connectedTwo.executeWasm modelledContext msg₂ = .ok [.sent fd5 reply] ∧
    Returns modelledContext msg₂.payload (-5) := by
  obtain ⟨msg₁, asks₁⟩ := asksToAdd_built [] (by simp) (by decide)
  obtain ⟨msg₂, asks₂⟩ := asksToAdd_built [[48], [45, 53]] (by decide) (by decide)
  have fails := fails_toAdd asks₁
  have minus_five : m3Call modelled addOctets [102] addType.funcType 2 [0, -5] 0 =
      .returned [4294967291] := rfl
  have returns : Returns modelledContext msg₂.payload (-5) := returns_toAdd asks₂ minus_five
  exact ⟨msg₁, msg₂, _, asks₁.job.trans asks₂.job.symm, answers_toAdd asks₁ (ran_of_fails fails),
    fails, answers_toAdd asks₂ (ran_of_returns returns), returns⟩

end VelumOS.Guarantees.SandboxErrors
