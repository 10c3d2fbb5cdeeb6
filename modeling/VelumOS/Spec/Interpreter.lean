import VelumOS.Source.M3.Env
import VelumOS.Base.WasmModule

/-!
# The interpreter on a module

Where a slice is a module with a function that the compiler takes, the interpreter parses
and loads it, finds the function with its type, and runs the compiled code when it is
called.
-/
namespace VelumOS.Spec
open Base.WasmModule Source Source.M3

/-- The interpreter starts, and the slice is a module that needs nothing else than what is
modelled and has a function of this type and body under the name. -/
structure Provides (rest : Wasm3) (initExpr : InitExpr) (slice name : List UInt8)
    (type : FunctionType) (code : List UInt8) : Prop where
  environment : rest.newEnvironment = true
  runtime : rest.newRuntime = true
  function : ∃ m found, m3ParseModule initExpr newEnvironment slice = .ok m ∧
    (m.bare = true ∨ rest.loadModule slice = true) ∧
    (m.startFunction = none ∨ ∃ slots, rest.runStart slice = .returned slots) ∧
    m.findFunction name = some found ∧ found.funcType.integers = some type ∧
    found.wasm = some code

/-- In this interpreter the function of that name in the slice is compiled code. -/
structure Compiled (wasm3 : Wasm3) (slice name : List UInt8) (type : FunctionType)
    (f : M3Function) (stack : Machine) : Prop where
  newEnvironment : wasm3.newEnvironment = true
  newRuntime : wasm3.newRuntime = true
  parseModule : wasm3.parseModule slice = true
  loadModule : wasm3.loadModule slice = true
  findFunction : wasm3.findFunction slice name = some type.funcType
  runStart : ∃ slots, wasm3.runStart slice = .returned slots
  runCode : ∀ values, wasm3.runCode slice name values = f.runCode type stack values

/-- What the compiler takes is what the interpreter runs. -/
theorem Provides.compiled {rest : Wasm3} {initExpr : InitExpr} {others : Others} {stack : Machine}
    {slice name code : List UInt8} {type : FunctionType} {f : M3Function}
    (provides : Provides rest initExpr slice name type code)
    (compiled : compileFunction others type code = .ok f) :
    Compiled (interpreter rest initExpr others stack) slice name type f stack := by
  obtain ⟨environment, runtime, m, found, parsed, loads, starts, named, typed, body⟩ := provides
  have taken : found.compile others = some (type, f) := by
    rw [ParsedFunction.compile, typed, body]
    simp only [Option.bind_eq_bind, Option.bind_some, compiled]
    rfl
  refine ⟨environment, runtime, ?_, ?_, ?_, ?_, fun values => ?_⟩
  · simp only [interpreter, parsed]
    rfl
  · simp only [interpreter, parsed]
    rcases loads with bare | loaded
    · rw [bare, Bool.true_or]
    · rw [loaded, Bool.or_true]
  · simp only [interpreter, parsed, named, taken]
  · simp only [interpreter, parsed]
    rcases starts with none | ⟨slots, started⟩
    · exact ⟨[], if_pos none⟩
    · rw [started]
      split
      · exact ⟨[], rfl⟩
      · exact ⟨slots, rfl⟩
  · simp only [interpreter, parsed, named, Option.bind_some, taken]

/-! ## A module that adds -/

/-- A function of two integers that adds them, exported as `f`. -/
def addOctets : List UInt8 :=
  header ++ [1, 7, 1, 0x60, 2, 0x7f, 0x7f, 1, 0x7f] ++ [3, 2, 1, 0] ++ [7, 5, 1, 1, 0x66, 0, 0] ++
    [10, 9, 1, 7, 0, 0x20, 0, 0x20, 1, 0x6a, 0x0b]

def addType : FunctionType := ⟨[.i32, .i32], [.i32]⟩

/-- An empty stack of the sandbox. -/
def emptyStack : Machine := ⟨fun _ => 0, numStackSlots, 0⟩

/-- The interpreter without anything that is not modelled. -/
def modelled : Wasm3 :=
  interpreter .refusing (fun _ _ => .error .unknownOpcode)
    ⟨fun _ _ => .error .noOperation, fun _ _ => .error .invalidTypeId⟩ emptyStack

end VelumOS.Spec
