import VelumOS.Source.M3.Compile
import VelumOS.Source.M3.Parse
import VelumOS.Source.Sandbox

/-!
# Calls of compiled functions

`src/m3_env.c`, as far as the sandbox calls into it: `m3_FindFunction` compiles what it
finds, `m3_Call` puts the arguments of a compiled function on the stack of the runtime, 64
bits each, and `m3_GetResults` finds the results at its bottom.
-/
namespace VelumOS.Source.M3
open Base.Wasm

/-- `numStackSlots` of the runtime that the sandbox asks for. -/
def numStackSlots : Nat := 64 * 1024 / 4

def valueType : ValType → ValueType
  | .i32 => .i32
  | .i64 => .i64

/-- `funcType`, as the sandbox sees it. -/
def FunctionType.funcType (type : FunctionType) : FuncType :=
  ⟨type.args.map valueType, type.rets.map valueType⟩

/-- An integer among the guest's arguments. -/
def guestValue : Source.Value → Option Base.Wasm.Value
  | .i32 bits => some ⟨.i32, bits.toBitVec⟩
  | .i64 bits => some ⟨.i64, bits.toBitVec⟩
  | .f32 _ | .f64 _ => none

/-- `GetStackPointerForArgs`. -/
def FunctionType.stackPointerForArgs (type : FunctionType) : Nat :=
  type.rets.length * ioSlotCount

/-- The argument loop of `m3_Call`, from the stack pointer `s`. -/
def storeArgs : Nat → List Base.Wasm.Value → Machine → Machine
  | _, [], m => m
  | s, value :: args, m => storeArgs (s + ioSlotCount) args (m.write value.type s value.word)

/-- What `m3_GetResults` can read of the stack. -/
def resultSlots (count : Nat) (m : Machine) : List UInt64 :=
  (List.range count).map fun i => ⟨m.word .i64 (i * ioSlotCount)⟩

/-- `m3_Call` behind its checks: a function that does what it should not is told apart
from one that traps. -/
def M3Function.runCode (f : M3Function) (type : FunctionType) (stack : Machine)
    (values : List Source.Value) : RunResult :=
  match values.mapM guestValue with
  | none => .hang
  | some args =>
    match f.run (storeArgs type.stackPointerForArgs args stack) with
    | .returned m => .returned (resultSlots type.rets.length m)
    | .trapped _ | .stackOverflow => .trap
    | .stuck => .hang

/-! ## The interpreter -/

/-- The integer type with this code. -/
def integerType (code : UInt8) : Option ValType :=
  if code = 1 then some .i32 else if code = 2 then some .i64 else none

/-- The arguments and results of a function, if all are integers. -/
def M3FuncType.integers (type : M3FuncType) : Option FunctionType := do
  let args ← type.args.mapM integerType
  let rets ← type.rets.mapM integerType
  some ⟨args, rets⟩

/-- A function of a module with its code, if the compiler takes it. -/
def ParsedFunction.compile (others : Others) (found : ParsedFunction) :
    Option (FunctionType × M3Function) := do
  let type ← found.funcType.integers
  let wasm ← found.wasm
  let f ← (compileFunction others type wasm).toOption
  some (type, f)

/-- The interpreter, as far as it is modelled: parser, lookup, compiler and compiled code.
`rest` stands for the other parts: allocation, modules that have something to initialize or
to start, and functions that the compiler does not take. -/
def interpreter (rest : Wasm3) (initExpr : InitExpr) (others : Others) (stack : Machine) :
    Wasm3 where
  newEnvironment := rest.newEnvironment
  newRuntime := rest.newRuntime
  parseModule := fun slice => (m3ParseModule initExpr newEnvironment slice).isOk
  loadModule := fun slice =>
    match m3ParseModule initExpr newEnvironment slice with
    | .ok m => m.bare || rest.loadModule slice
    | .error _ => rest.loadModule slice
  findFunction := fun slice name =>
    match m3ParseModule initExpr newEnvironment slice with
    | .ok m =>
      match m.findFunction name with
      | none => none
      | some found =>
        match found.compile others with
        | some (type, _) => some type.funcType
        | none => rest.findFunction slice name
    | .error _ => rest.findFunction slice name
  runStart := fun slice =>
    match m3ParseModule initExpr newEnvironment slice with
    | .ok m => if m.startFunction = none then .returned [] else rest.runStart slice
    | .error _ => rest.runStart slice
  runCode := fun slice name values =>
    match m3ParseModule initExpr newEnvironment slice with
    | .ok m =>
      match (m.findFunction name).bind (ParsedFunction.compile others) with
      | some (type, f) => f.runCode type stack values
      | none => rest.runCode slice name values
    | .error _ => rest.runCode slice name values

end VelumOS.Source.M3
