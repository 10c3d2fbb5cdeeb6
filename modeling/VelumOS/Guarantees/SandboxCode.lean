import VelumOS.Spec.Interpreter
import VelumOS.Guarantees.ModuleParsing

/-!
# Compiled code in the sandbox

From the request to the answer: the strings of a spawn request become the arguments of
the function that the guest's module exports, and the answer is what the body of that
function means for them. The stack of the sandbox is large enough for any compiled frame.
-/
namespace VelumOS.Guarantees.SandboxCode
open Base.Octets Base.CString Base.Wasm Base.WasmModule Source Source.M3 Source.M3.Compilation
open Spec Spec.Compiler Spec.Parser CompiledCode ModuleParsing

/-! ## Arguments -/

/-- The arguments that the integers of a request stand for. An argument of 64 bits takes
the integer behind its own as its upper half. -/
def requestArgs (intArgs : List Int32) (beyond : UInt32) : Nat → List ValType → List Base.Wasm.Value
  | _, [] => []
  | i, .i32 :: types =>
    ⟨.i32, (intAt intArgs beyond i).toBitVec⟩ :: requestArgs intArgs beyond (i + 1) types
  | i, .i64 :: types =>
    ⟨.i64, (intAt intArgs beyond (i + 1)).toBitVec ++ (intAt intArgs beyond i).toBitVec⟩ ::
      requestArgs intArgs beyond (i + 1) types

theorem requestArgs_types (intArgs : List Int32) (beyond : UInt32) (i : Nat)
    (types : List ValType) : (requestArgs intArgs beyond i types).map Value.type = types := by
  induction types generalizing i with
  | nil => rfl
  | cons type types ih =>
    cases type
    all_goals rw [requestArgs, List.map_cons, ih]

theorem two_halves (low high : UInt32) :
    (low.toUInt64 + high.toUInt64 * 4294967296).toBitVec = high.toBitVec ++ low.toBitVec := by
  apply BitVec.eq_of_toNat_eq
  have small := low.toNat_lt
  have small' := high.toNat_lt
  rw [BitVec.toNat_append, ← Nat.shiftLeft_add_eq_or_of_lt low.toBitVec.isLt, Nat.shiftLeft_eq,
    UInt64.toNat_toBitVec, UInt64.toNat_add, UInt64.toNat_mul, UInt32.toNat_toUInt64,
    UInt32.toNat_toUInt64, UInt32.toNat_toBitVec, UInt32.toNat_toBitVec]
  show (low.toNat + high.toNat * 4294967296 % 2 ^ 64) % 2 ^ 64 = _
  omega

theorem loadArgs_request (intArgs : List Int32) (beyond : UInt32) (i : Nat)
    (types : List ValType) :
    ∃ values, loadArgs intArgs beyond i (types.map valueType) = some values ∧
      values.mapM guestValue = some (requestArgs intArgs beyond i types) := by
  induction types generalizing i with
  | nil => exact ⟨[], rfl, rfl⟩
  | cons type types ih =>
    obtain ⟨values, loaded, guests⟩ := ih (i + 1)
    cases type with
    | i32 =>
      refine ⟨.i32 (intAt intArgs beyond i) :: values, ?_, ?_⟩
      · rw [List.map_cons, loadArgs, loaded]
        rfl
      · rw [List.mapM_cons, guests]
        rfl
    | i64 =>
      refine ⟨.i64 ((intAt intArgs beyond i).toUInt64 +
        (intAt intArgs beyond (i + 1)).toUInt64 * 4294967296) :: values, ?_, ?_⟩
      · rw [List.map_cons, loadArgs, loaded]
        rfl
      · rw [List.mapM_cons, guests]
        simp only [guestValue, two_halves]
        rfl

theorem storeArgs_room (s : Nat) (args : List Base.Wasm.Value) (m : Machine) :
    (storeArgs s args m).room = m.room := by
  induction args generalizing s m with
  | nil => rfl
  | cons value args ih => rw [storeArgs, ih, write_room]

/-- The arguments lie where the function looks for them. -/
theorem storeArgs_spec (s : Nat) (args : List Base.Wasm.Value) (m : Machine) :
    ArgsAt (storeArgs s args m) s args ∧
    ∀ slot < s, (storeArgs s args m).slots slot = m.slots slot := by
  induction args generalizing s m with
  | nil => exact ⟨fun i value found => (nomatch found), fun _ _ => rfl⟩
  | cons value args ih =>
    obtain ⟨placed, frame⟩ := ih (s + ioSlotCount) (m.write value.type s value.word)
    have few := numSlots_le value.type
    refine ⟨fun i other found => ?_, fun slot below => ?_⟩
    · rw [storeArgs]
      cases i with
      | zero =>
        obtain rfl := Option.some.inj found
        rw [Nat.zero_mul, Nat.add_zero]
        refine (word_congr fun slot covered => frame slot ?_).trans
          (write_word m _ s _)
        have upper := covered.2
        simp only [ioSlotCount] at upper ⊢
        omega
      | succ i =>
        have at_ := placed i other found
        rwa [Nat.succ_mul, Nat.add_comm (i * ioSlotCount), ← Nat.add_assoc]
    · rw [storeArgs, frame slot (by omega)]
      refine write_slots m _ ?_
      rintro ⟨above, -⟩
      exact absurd below (Nat.not_lt.mpr above)

/-! ## Results -/

/-- The answer for the results of a call: the low half of the only one. -/
def answer : List Base.Wasm.Value → Int32
  | [value] => ⟨⟨value.word.setWidth 32⟩⟩
  | _ => 0

theorem sandboxResult_returned {type : FunctionType} {m : Machine}
    {results : List Base.Wasm.Value} (at_ : ResultsAt m results)
    (types : results.map Value.type = type.rets) :
    sandboxResult type.funcType (.returned (resultSlots type.rets.length m)) =
      .ok (answer results) := by
  obtain ⟨args, rets⟩ := type
  dsimp only at types
  match rets, results, types with
  | [], [], _ => rfl
  | type :: _ :: _, _ :: _ :: _, _ => cases type <;> rfl
  | [type], [value], types =>
    obtain rfl : value.type = type := (List.cons.inj types).1
    have word := at_ 0 value rfl
    rw [Nat.zero_mul] at word
    obtain ⟨kind, bits⟩ := value
    dsimp only at word
    subst word
    have low : (m.word .i64 0).setWidth 32 = m.word .i32 0 := low_half (m.slots 1) (m.slots 0)
    cases kind with
    | i32 =>
      refine congrArg Except.ok (Int32.toBitVec_inj.mp ?_)
      exact (modulo (m.word .i64 0)).trans (low.trans (BitVec.setWidth_eq _).symm)
    | i64 => rfl
where
  modulo (w : BitVec 64) : (w % 4294967296#64).setWidth 32 = w.setWidth 32 := by
    apply BitVec.eq_of_toNat_eq
    rw [BitVec.toNat_setWidth, BitVec.toNat_setWidth, BitVec.toNat_umod]
    exact Nat.mod_mod _ _
  low_half (high low : BitVec 32) : (high ++ low).setWidth 32 = low := by
    apply BitVec.eq_of_toNat_eq
    rw [BitVec.toNat_setWidth, BitVec.toNat_append, ← Nat.shiftLeft_add_eq_or_of_lt low.isLt,
      Nat.shiftLeft_eq]
    omega

/-! ## Requests -/

/-- A request whose pieces can be read: the module, the name and as many strings as the
function takes arguments. -/
structure Request (binary : List UInt8) (binSize : UInt32) (funcName : Block UInt8 32)
    (argc : UInt32) (rawArgs : List UInt8) (type : FunctionType) (slice name : List UInt8)
    (texts : List (List UInt8)) : Prop where
  name : readCString .funcName funcName.cells = .ok name
  slice : readBinary binary binSize = .ok slice
  count : argc.toNat = type.args.length
  texts : scanMany argc.toNat rawArgs = some texts

/-- What a call answers is what the body means for the arguments, and `-5` where it traps. -/
structure Answers (body : Body) (type : FunctionType) (args : List Base.Wasm.Value)
    (answered : Except Fault Int32) : Prop where
  results : ∀ results, body.call type.rets args = some (.ok results) →
    answered = .ok (answer results)
  traps : ∀ trap, body.call type.rets args = some (.error trap) → answered = .ok (-5)

/-- Where the function is compiled code, the sandbox returns what its body means for the
integers in the request's strings. -/
theorem answers_compiled {others : Others} {type : FunctionType} {body : Body}
    {code : List UInt8} {f : M3Function} {stack : Machine} {wasm3 : Wasm3}
    {binary : List UInt8} {binSize : UInt32} {funcName : Block UInt8 32} {argc : UInt32}
    {rawArgs slice name : List UInt8} {texts : List (List UInt8)} (beyond : UInt32)
    (encodes : EncodesBody body code)
    (unshared : allUnshared (type.args ++ body.locals) [] body.instrs = true)
    (compiled : compileFunction others type code = .ok f) (room : stack.room = numStackSlots)
    (runs : Compiled wasm3 slice name type f stack)
    (request : Request binary binSize funcName argc rawArgs type slice name texts) :
    Answers body type (requestArgs (texts.map atoi) beyond 0 type.args)
      (executeWasmInSandbox wasm3 beyond binary binSize funcName argc rawArgs) := by
  obtain ⟨values, loaded, guests⟩ := loadArgs_request (texts.map atoi) beyond 0 type.args
  obtain ⟨slots, started⟩ := runs.runStart
  have parsed : parseArgs argc.toNat rawArgs = .ok (texts.map atoi) := by
    rw [parseArgs_eq, request.texts]
  have called : executeWasmInSandbox wasm3 beyond binary binSize funcName argc rawArgs =
      sandboxResult type.funcType (f.runCode type stack values) := by
    have size : argc.toNat = type.funcType.args.length := by
      rw [request.count, FunctionType.funcType, List.length_map]
    have whole : m3Call wasm3 slice name type.funcType argc.toNat (texts.map atoi) beyond =
        f.runCode type stack values := by
      rw [m3Call, if_neg (not_not.mpr size), started]
      dsimp only
      rw [FunctionType.funcType, loaded]
      exact runs.runCode values
    simp only [executeWasmInSandbox, request.name, request.slice, parsed, whole,
      runs.newEnvironment, runs.newRuntime, runs.parseModule, runs.loadModule, runs.findFunction,
      bind, Except.bind, Bool.not_true, Bool.false_eq_true, if_false]
  have args := requestArgs_types (texts.map atoi) beyond 0 type.args
  obtain ⟨placed, -⟩ := storeArgs_spec type.stackPointerForArgs
    (requestArgs (texts.map atoi) beyond 0 type.args) stack
  have means := compileFunction_means encodes unshared compiled
  have enough : f.maxStackSlots < (storeArgs type.stackPointerForArgs
      (requestArgs (texts.map atoi) beyond 0 type.args) stack).room := by
    rw [storeArgs_room, room]
    exact Nat.lt_of_le_of_lt means.small (by decide)
  obtain ⟨returns, traps⟩ := (means.run args placed).2 enough
  rw [called, M3Function.runCode, guests]
  refine ⟨fun results meant => ?_, fun trap meant => ?_⟩
  · obtain ⟨m', run, at_⟩ := returns results meant
    obtain ⟨-, -, -, types⟩ := Body.call_ok meant
    dsimp only
    rw [run]
    exact sandboxResult_returned at_ types
  · dsimp only
    rw [traps trap meant]
    rfl

theorem integers_funcTypeOf (type : Signature) :
    (funcTypeOf type).integers = some ⟨type.args, type.rets⟩ := by
  have codes (types : List ValType) : (types.map typeCode).mapM integerType = some types := by
    induction types with
    | nil => rfl
    | cons type types ih =>
      rw [List.map_cons, List.mapM_cons, ih]
      cases type <;> rfl
  simp only [M3FuncType.integers, funcTypeOf, codes]
  rfl

/-- The sandbox finds each function of a module of integer functions under the names that
it keeps. -/
theorem provides_function {rest : Wasm3} {fm : FuncModule} {slice : List UInt8} {e : FuncExport}
    {func : Func} {type : Signature} (environment : rest.newEnvironment = true)
    (runtime : rest.newRuntime = true) (sane : Sane fm)
    (apart : ∀ e ∈ fm.exports, ∀ e' ∈ fm.exports, cstr e.name = cstr e'.name →
      e.index = e'.index)
    (encodes : funcModule fm slice) (present : fm.funcs[e.index]? = some func)
    (kept : e.name ∈ (namesOf fm.exports e.index).take maxDuplicateFunctionImpl)
    (typed : fm.types[func.type]? = some type) (initExpr : InitExpr) :
    ∃ wasm, code func.body wasm ∧
      Provides rest initExpr slice e.name ⟨type.args, type.rets⟩ wasm := by
  obtain ⟨m, parsed, holds⟩ := parseFuncModule_complete sane encodes initExpr newEnvironment
  obtain ⟨wasm, placed, at_⟩ := holds.functions e.index func present
  have found := (holds.findFunction_iff apart).mpr ⟨e.index, at_, e.name, kept, rfl⟩
  refine ⟨wasm, placed, environment, runtime, m, _, parsed, .inl holds.bare, .inl holds.started,
    found, ?_, rfl⟩
  rw [parsedFunc_type typed]
  exact integers_funcTypeOf type

/-- So it answers with what the body means that was written into the module. -/
theorem module_answers {rest : Wasm3} {fm : FuncModule} {slice : List UInt8} {e : FuncExport}
    {func : Func} {type : Signature} {body : Body} {others : Others} {stack : Machine}
    {binary : List UInt8} {binSize : UInt32} {funcName : Block UInt8 32} {argc : UInt32}
    {rawArgs : List UInt8} {texts : List (List UInt8)} (environment : rest.newEnvironment = true)
    (runtime : rest.newRuntime = true) (sane : Sane fm)
    (apart : ∀ e ∈ fm.exports, ∀ e' ∈ fm.exports, cstr e.name = cstr e'.name →
      e.index = e'.index)
    (encodes : funcModule fm slice) (present : fm.funcs[e.index]? = some func)
    (kept : e.name ∈ (namesOf fm.exports e.index).take maxDuplicateFunctionImpl)
    (typed : fm.types[func.type]? = some type) (is : bodyOctets body func.body)
    (unshared : allUnshared (type.args ++ body.locals) [] body.instrs = true)
    (room : stack.room = numStackSlots) (initExpr : InitExpr) (beyond : UInt32)
    (request : Request binary binSize funcName argc rawArgs ⟨type.args, type.rets⟩ slice e.name
      texts) :
    ∃ wasm, code func.body wasm ∧
      ∀ f, compileFunction others ⟨type.args, type.rets⟩ wasm = .ok f →
        Answers body ⟨type.args, type.rets⟩ (requestArgs (texts.map atoi) beyond 0 type.args)
          (executeWasmInSandbox (interpreter rest initExpr others stack) beyond binary binSize
            funcName argc rawArgs) := by
  obtain ⟨wasm, placed, provides⟩ := provides_function environment runtime sane apart encodes
    present kept typed initExpr
  refine ⟨wasm, placed, fun f compiled => ?_⟩
  exact answers_compiled beyond (encodesBody_of is placed) unshared compiled room
    (provides.compiled compiled) request

end VelumOS.Guarantees.SandboxCode
