import VelumOS.Source.Libc

/-!
# Wasm sandbox

`execute_wasm_in_sandbox` of `src/velum_core.cpp`, with `m3_Call` and
`m3_GetResults` of `src/m3_env.c`. The rest of the interpreter is the parameter
`Wasm3`: whether allocation, parsing, loading and lookup succeed and what the
guest's code does. Pointers into the request become the memory behind them, as far
as the payload goes; a read past that is a fault.
-/
namespace VelumOS.Source
open Base.Octets Base.CString

/-- `M3ValueType`. -/
inductive ValueType where
  | i32 | i64 | f32 | f64 | unknown
  deriving DecidableEq

/-- What the guest finds in the stack slot of a parameter. -/
inductive Value where
  | i32 (bits : UInt32)
  | i64 (bits : UInt64)
  | f32 (bits : UInt32)
  | f64 (bits : UInt64)
  deriving DecidableEq

structure FuncType where
  args : List ValueType
  rets : List ValueType
  deriving DecidableEq

/-- `RunCode`: a trap, no return, or the result slots of the stack. -/
inductive RunResult where
  | trap | hang
  | returned (slots : List UInt64)
  deriving DecidableEq

/-- The interpreter as one sandbox call finds it. A module stands for its binary
and a function for its module and name. -/
structure Wasm3 where
  newEnvironment : Bool
  newRuntime : Bool
  parseModule : List UInt8 → Bool
  loadModule : List UInt8 → Bool
  findFunction : List UInt8 → List UInt8 → Option FuncType
  runStart : List UInt8 → RunResult
  runCode : List UInt8 → List UInt8 → List Value → RunResult

/-- An interpreter that starts and refuses every module. -/
def Wasm3.refusing : Wasm3 where
  newEnvironment := true
  newRuntime := true
  parseModule := fun _ => false
  loadModule := fun _ => false
  findFunction := fun _ _ => none
  runStart := fun _ => .trap
  runCode := fun _ _ _ => .trap

/-- The four octets at `&int_args[i]`; `beyond` is what the heap holds behind the
last element. -/
def intAt (intArgs : List Int32) (beyond : UInt32) (i : Nat) : UInt32 :=
  match intArgs[i]? with
  | some n => n.toUInt32
  | none => beyond

/-- One round of the argument loop of `m3_Call`: the octets read through
`i_argptrs[i]` depend on the declared type. -/
def loadArg (intArgs : List Int32) (beyond : UInt32) (i : Nat) : ValueType → Option Value
  | .i32 => some (.i32 (intAt intArgs beyond i))
  | .i64 => some (.i64 ((intAt intArgs beyond i).toUInt64 +
      (intAt intArgs beyond (i + 1)).toUInt64 * 4294967296))
  | .f32 => some (.f32 (intAt intArgs beyond i))
  | .f64 => some (.f64 ((intAt intArgs beyond i).toUInt64 +
      (intAt intArgs beyond (i + 1)).toUInt64 * 4294967296))
  | .unknown => none

/-- The argument loop of `m3_Call` from index `i` on. -/
def loadArgs (intArgs : List Int32) (beyond : UInt32) : Nat → List ValueType → Option (List Value)
  | _, [] => some []
  | i, type :: rest =>
    match loadArg intArgs beyond i type with
    | none => none
    | some value => (loadArgs intArgs beyond (i + 1) rest).map (value :: ·)

/-- `m3_Call(func, argc, ptrs.data())`. The function found is compiled. -/
def m3Call (wasm3 : Wasm3) (binary name : List UInt8) (type : FuncType) (argc : Nat)
    (intArgs : List Int32) (beyond : UInt32) : RunResult :=
  if argc ≠ type.args.length then .trap
  else
    match wasm3.runStart binary with
    | .returned _ =>
      match loadArgs intArgs beyond 0 type.args with
      | none => .trap
      | some values => wasm3.runCode binary name values
    | other => other

/-- `m3_GetResults(func, 1, rets)` into a zeroed 64-bit `val`. -/
def m3GetResults (type : FuncType) (slots : List UInt64) : Option UInt64 :=
  match type.rets with
  | [.i32] | [.f32] => some (slots.headD 0 % 4294967296)
  | [.i64] | [.f64] => some (slots.headD 0)
  | _ => none

/-- The slice handed to `m3_ParseModule`, which may read all of it. -/
def readBinary (memory : List UInt8) (binSize : UInt32) : Except Fault (List UInt8) :=
  if binSize.toNat ≤ memory.length then .ok (memory.take binSize.toNat)
  else .error (.outOfBounds .binary)

/-- The argument loop: `atoi(ptr)` and then `ptr += strlen(ptr) + 1`. Both scan as
far as the NUL. -/
def parseArgs : Nat → List UInt8 → Except Fault (List Int32)
  | 0, _ => .ok []
  | argc + 1, memory => do
    let text ← readCString .arguments memory
    let rest ← parseArgs argc (memory.drop (text.length + 1))
    .ok (atoi text :: rest)

/-- What the sandbox returns for the outcome of the call. -/
def sandboxResult (type : FuncType) : RunResult → Except Fault Int32
  | .hang => .error .hang
  | .trap => .ok (-5)
  | .returned slots =>
    match m3GetResults type slots with
    | some val => .ok val.toUInt32.toInt32
    | none => .ok 0

/-- `execute_wasm_in_sandbox`. `binary` and `rawArgs` are the memory behind the
two pointers. -/
def executeWasmInSandbox (wasm3 : Wasm3) (beyond : UInt32) (binary : List UInt8)
    (binSize : UInt32) (funcName : Block UInt8 32) (argc : UInt32) (rawArgs : List UInt8) :
    Except Fault Int32 := do
  let name ← readCString .funcName funcName.cells
  if !wasm3.newEnvironment then return -1
  if !wasm3.newRuntime then return -1
  let slice ← readBinary binary binSize
  if !wasm3.parseModule slice then return -2
  if !wasm3.loadModule slice then return -3
  match wasm3.findFunction slice name with
  | none => return -4
  | some type =>
    let intArgs ← parseArgs argc.toNat rawArgs
    sandboxResult type (m3Call wasm3 slice name type argc.toNat intArgs beyond)

/-- The argument loop stays inside exactly when the walk over the strings does,
and then yields the value of each string. -/
theorem parseArgs_eq (argc : Nat) (memory : List UInt8) :
    parseArgs argc memory =
      match scanMany argc memory with
      | some texts => .ok (texts.map atoi)
      | none => .error (.outOfBounds .arguments) := by
  induction argc generalizing memory with
  | zero => rfl
  | succ argc ih =>
    rw [parseArgs, scanMany]
    cases found : scan memory with
    | none => simp [readCString, found, bind, Except.bind]
    | some text =>
      simp only [readCString, found, bind, Except.bind, ih]
      cases scanMany argc (memory.drop (text.length + 1)) <;> rfl

end VelumOS.Source
