import VelumOS.Source.M3.Core

/-!
# Modules

`src/m3_module.c`, with the types of `m3_env.h` and `m3_function.h` that the parser fills
and, of `src/m3_env.c`, `Environment_AddFuncType` and the lookup by name. A pointer into
the binary is the octets from there to its end, a string its octets as far as its length,
and a pointer to a function type the type: the environment keeps one of each. Allocation
succeeds.
-/
namespace VelumOS.Source.M3

/-- `M3FuncType`: the codes of its types, the results first. -/
structure M3FuncType where
  rets : List UInt8
  args : List UInt8
  deriving DecidableEq

structure M3ImportInfo where
  moduleUtf8 : List UInt8
  fieldUtf8 : List UInt8
  deriving DecidableEq

structure M3MemoryInfo where
  initPages : BitVec 32 := 0
  maxPages : BitVec 32 := 0
  pageSize : BitVec 32 := 0
  deriving DecidableEq

structure M3DataSegment where
  memoryRegion : BitVec 32
  initExpr : List UInt8
  data : List UInt8
  deriving DecidableEq

/-- `M3Global`, without its value. -/
structure M3Global where
  type : UInt8
  imported : Bool
  isMutable : Bool
  importInfo : Option M3ImportInfo := none
  name : Option (List UInt8) := none
  initExpr : Option (List UInt8) := none
  deriving DecidableEq

/-- `M3Function`, as the parser fills it. -/
structure ParsedFunction where
  funcType : M3FuncType
  importInfo : Option M3ImportInfo := none
  names : List (List UInt8) := []
  exportName : Option (List UInt8) := none
  wasm : Option (List UInt8) := none
  deriving DecidableEq

/-- `M3Module`, with the function types of its environment. -/
structure M3Module where
  environment : List M3FuncType
  funcTypes : List M3FuncType := []
  numFuncImports : Nat := 0
  functions : List ParsedFunction := []
  startFunction : Option Nat := none
  dataSegments : List M3DataSegment := []
  globals : List M3Global := []
  numElementSegments : Nat := 0
  elementSection : List UInt8 := []
  memoryInfo : M3MemoryInfo := {}
  memoryImport : Option M3ImportInfo := none
  memoryExportName : Option (List UInt8) := none
  table0ExportName : Option (List UInt8) := none
  deriving DecidableEq

/-- `d_m3MaxDuplicateFunctionImpl`. -/
def maxDuplicateFunctionImpl : Nat := 3

/-! ## The environment -/

/-- `Environment_AddFuncType`: a type that is there already is not added again. -/
def addFuncType (environment : List M3FuncType) (addType : M3FuncType) : List M3FuncType :=
  if addType ∈ environment then environment else addType :: environment

/-- The types of `m3_NewEnvironment`: no result, or one of each type. -/
def newEnvironment : List M3FuncType :=
  ([[], [1], [2], [3], [4]] : List (List UInt8)).foldl
    (fun environment rets => addFuncType environment ⟨rets, []⟩) []

/-! ## Functions and globals -/

namespace M3Module

/-- `Module_AddFunction`. An import has the name of its field. -/
def addFunction (m : M3Module) (typeIndex : Nat) (importInfo : Option M3ImportInfo) :
    Except M3Err M3Module :=
  match m.funcTypes[typeIndex]? with
  | none => .error .typeSigOutOfBounds
  | some funcType =>
    let func : ParsedFunction :=
      { funcType := funcType
        importInfo := importInfo
        names := (importInfo.map M3ImportInfo.fieldUtf8).toList }
    .ok { m with functions := m.functions ++ [func] }

/-- `Module_AddGlobal`. -/
def addGlobal (m : M3Module) (global : M3Global) : M3Module :=
  { m with globals := m.globals ++ [global] }

end M3Module

/-- `m3_LoadModule` finds nothing to initialize: no memory, globals, data or elements. -/
def M3Module.bare (m : M3Module) : Bool :=
  m.memoryInfo = {} && m.memoryImport.isNone && m.globals.isEmpty && m.dataSegments.isEmpty &&
    m.numElementSegments = 0

/-! ## Lookup -/

/-- The string as `strcmp` sees it, which stops at a NUL. -/
def cstr (utf8 : List UInt8) : List UInt8 := utf8.takeWhile (· ≠ 0)

/-- `strcmp` finds no difference. -/
def sameString (utf8 name : List UInt8) : Bool := cstr utf8 == cstr name

/-- `v_FindFunction`: exported names go before the other names of functions. -/
def M3Module.findFunction (m : M3Module) (name : List UInt8) : Option ParsedFunction :=
  (m.functions.find? fun f => f.exportName.any (sameString · name)).or
    (m.functions.find? fun f => f.importInfo.isNone && f.names.any (sameString · name))

end VelumOS.Source.M3
