import VelumOS.Source.M3.Exec

/-!
# The compiler

`src/m3_compile.c`, for function bodies without control flow, calls, globals, memory
and floats: the rows of `c_operations` that stand for them, and locals of another type,
are the parameter `Others`. A code page is the list of the emitted words, so the bridges
from page to page do not show. The stack keeps its top first; `wasmStack` and
`typeStack` are the two fields of its entries.
-/
namespace VelumOS.Source.M3
open Base.Wasm

/-- `d_m3MaxFunctionStackHeight`. -/
def maxFunctionStackHeight : Nat := 2000

/-- `d_m3MaxFunctionSlots`. -/
def maxFunctionSlots : Nat := 4000

/-- `d_m3MaxConstantTableSize`. -/
def maxConstantTableSize : Nat := 120

/-- `d_m3Reg0SlotAlias`. -/
def reg0SlotAlias : Nat := 60000

/-- `c_slotUnused`. -/
def slotUnused : Nat := 0xffff

/-- `c_ioSlotCount`. -/
def ioSlotCount : Nat := 2

/-- A value of the Wasm stack: its slot, or the alias of `_r0`, and its type. -/
structure Entry where
  slot : Nat
  type : ValType
  deriving DecidableEq

/-- `M3Compilation`, where the compiled fragment uses it. -/
structure Compilation where
  wasm : List UInt8 := []
  stack : List Entry := []
  blockStackIndex : Nat := 0
  stackFirstDynamicIndex : Nat := 0
  slotFirstConstIndex : Nat := 0
  slotMaxConstIndex : Nat := 0
  slotFirstLocalIndex : Nat := 0
  slotFirstDynamicIndex : Nat := 0
  maxStackSlots : Nat := 0
  constants : Nat → BitVec 32 := fun _ => 0
  m3Slots : Nat → Nat := fun _ => 0
  slotMaxAllocatedIndexPlusOne : Nat := 0
  regStackIndex : Option Nat := none
  previousOpcode : UInt8 := 0
  page : List CodeWord := []

namespace Compilation

/-- `EmitOp`, `EmitSlotOffset` and the other words. -/
def emit (o : Compilation) (words : List CodeWord) : Compilation :=
  { o with page := o.page ++ words }

/-! ## Slots -/

/-- `AlignSlotToType`. -/
def alignSlotToType (slot : Nat) (type : ValType) : Nat :=
  let mask := getTypeNumSlots type - 1
  (slot + mask) / (mask + 1) * (mask + 1)

def isSlotAllocated (o : Compilation) (slot : Nat) : Bool := o.m3Slots slot ≠ 0

/-- `MarkSlotAllocated`, with `TouchSlot`. -/
def markSlotAllocated (o : Compilation) (slot : Nat) : Compilation :=
  { o with
    m3Slots := Function.update o.m3Slots slot 1
    slotMaxAllocatedIndexPlusOne := max o.slotMaxAllocatedIndexPlusOne (slot + 1)
    maxStackSlots := max o.maxStackSlots (slot + 1) }

/-- `MarkSlotsAllocated`. -/
def markSlotsAllocated (o : Compilation) (slot : Nat) : Nat → Compilation
  | 0 => o
  | numSlots + 1 => (o.markSlotAllocated slot).markSlotsAllocated (slot + 1) numSlots

/-- The loop of `AllocateSlotsWithinRange`; it runs at most `fuel` times. -/
def findSlots (o : Compilation) (numSlots endSlot : Nat) : Nat → Nat → Option Nat
  | 0, _ => none
  | fuel + 1, i =>
    if i + (numSlots - 1) < endSlot then
      if o.m3Slots i = 0 ∧ o.m3Slots (i + (numSlots - 1)) = 0 then some i
      else findSlots o numSlots endSlot fuel (i + numSlots)
    else none

def allocateSlotsWithinRange (o : Compilation) (type : ValType) (startSlot endSlot : Nat) :
    Except M3Err (Nat × Compilation) :=
  let numSlots := getTypeNumSlots type
  match o.findSlots numSlots endSlot endSlot (alignSlotToType startSlot type) with
  | some slot => .ok (slot, o.markSlotsAllocated slot numSlots)
  | none => .error .functionStackOverflow

def allocateSlots (o : Compilation) (type : ValType) : Except M3Err (Nat × Compilation) :=
  o.allocateSlotsWithinRange type o.slotFirstDynamicIndex maxFunctionSlots

def allocateConstantSlots (o : Compilation) (type : ValType) :
    Except M3Err (Nat × Compilation) :=
  o.allocateSlotsWithinRange type o.slotFirstConstIndex
    (min o.slotFirstDynamicIndex (o.slotFirstConstIndex + maxConstantTableSize))

/-- `IncrementSlotUsageCount`: one slot, whatever the type of the value in it. -/
def incrementSlotUsageCount (o : Compilation) (slot : Nat) : Except M3Err Compilation :=
  if o.m3Slots slot < 0xFF then
    .ok { o with m3Slots := Function.update o.m3Slots slot (o.m3Slots slot + 1) }
  else .error .slotUsageCountOverflow

/-- `-- o->m3Slots [i_slot]` on a `u8`. -/
def decrementSlot (m3Slots : Nat → Nat) (slot : Nat) : Nat → Nat :=
  Function.update m3Slots slot ((m3Slots slot + 255) % 256)

/-- `DeallocateSlot`: every slot of the value. -/
def deallocateSlot (o : Compilation) (slot : Nat) : ValType → Compilation
  | .i32 => { o with m3Slots := decrementSlot o.m3Slots slot }
  | .i64 => { o with m3Slots := decrementSlot (decrementSlot o.m3Slots slot) (slot + 1) }

/-- `GetMaxUsedSlotPlusOne`, from the slot that the loop has reached. -/
def maxUsedSlotPlusOne (o : Compilation) : Nat → Nat
  | 0 => 0
  | slot + 1 =>
    if o.slotFirstDynamicIndex < slot + 1 then
      if o.isSlotAllocated slot then slot + 1 else o.maxUsedSlotPlusOne slot
    else slot + 1

/-! ## The stack -/

/-- `IsStackIndexInRegister`, for an entry of the stack. -/
def inRegister (e : Entry) : Bool := reg0SlotAlias ≤ e.slot

def isStackTopInRegister (o : Compilation) : Bool := (o.stack[0]?).any inRegister

def isStackTopMinus1InRegister (o : Compilation) : Bool := (o.stack[1]?).any inRegister

def isStackTopMinus2InRegister (o : Compilation) : Bool := (o.stack[2]?).any inRegister

def getStackTopSlotNumber (o : Compilation) : Nat :=
  match o.stack with
  | [] => slotUnused
  | top :: _ => top.slot

/-- `GetStackTypeFromTop`: arguments and locals are hidden. -/
def getStackTypeFromTop (o : Compilation) (offset : Nat) : Option ValType :=
  if o.stackFirstDynamicIndex + offset < o.stack.length then
    (o.stack[offset]?).map Entry.type
  else none

/-- `GetSlotForStackIndex` and `GetStackTypeFromBottom`. -/
def entryFromBottom (o : Compilation) (stackIndex : Nat) : Option Entry :=
  if stackIndex < o.stack.length then o.stack[o.stack.length - 1 - stackIndex]? else none

/-- `o->wasmStack [stackIndex] = slot`. -/
def setSlotFromBottom (o : Compilation) (stackIndex slot : Nat) : Compilation :=
  { o with
    stack := o.stack.modify (o.stack.length - 1 - stackIndex) fun e => { e with slot := slot } }

/-- `IsRegisterSlotAlias`. -/
def isRegisterSlotAlias (slot : Nat) : Bool := reg0SlotAlias ≤ slot && slot ≠ slotUnused

def push (o : Compilation) (type : ValType) (slot : Nat) : Except M3Err Compilation :=
  if o.stack.length < maxFunctionStackHeight then
    .ok { o with
      stack := ⟨slot, type⟩ :: o.stack
      regStackIndex := if isRegisterSlotAlias slot then some o.stack.length else o.regStackIndex }
  else .error .functionStackOverflow

def pushRegister (o : Compilation) (type : ValType) : Except M3Err Compilation :=
  o.push type reg0SlotAlias

def pop (o : Compilation) : Except M3Err Compilation :=
  if o.blockStackIndex < o.stack.length then
    match o.stack with
    | [] => .error .functionStackUnderrun
    | top :: below =>
      let o := { o with stack := below }
      if isRegisterSlotAlias top.slot then .ok { o with regStackIndex := none }
      else if o.slotFirstDynamicIndex ≤ top.slot then .ok (o.deallocateSlot top.slot top.type)
      else .ok o
  else .error .functionStackUnderrun

/-- `PushAllocatedSlot`. -/
def pushAllocatedSlot (o : Compilation) (type : ValType) : Except M3Err (Nat × Compilation) := do
  let (slot, o) ← o.allocateSlots type
  let o ← o.push type slot
  .ok (slot, o)

def preserveRegisterIfOccupied (o : Compilation) : Except M3Err Compilation :=
  match o.regStackIndex with
  | none => .ok o
  | some stackIndex =>
    match o.entryFromBottom stackIndex with
    | none => .ok o
    | some e => do
      let (slot, o) ← { o with regStackIndex := none }.allocateSlots e.type
      .ok ((o.setSlotFromBottom stackIndex slot).emit [.op (.SetSlot e.type), .slot slot])

/-- `EmitSlotNumOfStackTopAndPop`. -/
def emitSlotNumOfStackTopAndPop (o : Compilation) : Except M3Err Compilation :=
  if o.isStackTopInRegister then o.pop else (o.emit [.slot o.getStackTopSlotNumber]).pop

/-! ## Constants -/

/-- The slots where `PushConst` looks for the constant, and what it compares there. -/
def matchingSlot (o : Compilation) (word : BitVec 64) : ValType → Option Nat
  | .i64 =>
    let firstConstSlot := alignSlotToType o.slotFirstConstIndex .i64
    if 2 ≤ o.slotMaxConstIndex - o.slotFirstConstIndex then
      (List.range' firstConstSlot ((o.slotMaxConstIndex - firstConstSlot) / 2) 2).find?
        fun slot => o.isSlotAllocated slot && o.isSlotAllocated (slot + 1) &&
          o.constants (slot + 1 - o.slotFirstConstIndex) ++
            o.constants (slot - o.slotFirstConstIndex) == word
    else none
  | .i32 =>
    (List.range' o.slotFirstConstIndex (o.slotMaxConstIndex - o.slotFirstConstIndex)).find?
      fun slot => o.isSlotAllocated slot &&
        (o.constants (slot - o.slotFirstConstIndex)).setWidth 64 == word

/-- The copy of a constant into the table. -/
def setConstant (o : Compilation) (index : Nat) (word : BitVec 64) : ValType → Compilation
  | .i32 => { o with constants := Function.update o.constants index (word.setWidth 32) }
  | .i64 =>
    { o with
      constants := Function.update (Function.update o.constants index (word.setWidth 32))
        (index + 1) ((word >>> 32).setWidth 32) }

/-- The operation and the immediate that load a constant. -/
def constWords (word : BitVec 64) : ValType → List CodeWord
  | .i32 => [.op .Const32, .word32 (word.setWidth 32)]
  | .i64 => [.op .Const64, .word64 word]

def pushConst (o : Compilation) (word : BitVec 64) (type : ValType) :
    Except M3Err Compilation :=
  match o.matchingSlot word type with
  | some slot => o.push type slot
  | none =>
    match o.allocateConstantSlots type with
    | .error _ => do
      -- no more constant table space; use inline constants
      let (slot, o) ← (o.emit (constWords word type)).pushAllocatedSlot type
      .ok (o.emit [.slot slot])
    | .ok (slot, o) => do
      let o ← (o.setConstant (slot - o.slotFirstConstIndex) word type).push type slot
      .ok { o with slotMaxConstIndex := max (slot + getTypeNumSlots type) o.slotMaxConstIndex }

/-! ## Copies -/

/-- `CopyStackIndexToSlot`, for an entry of the stack. -/
def copyEntryToSlot (o : Compilation) (destSlot : Nat) (e : Entry) : Compilation :=
  if inRegister e then o.emit [.op (.SetSlot e.type), .slot destSlot]
  else o.emit [.op (.CopySlot e.type), .slot destSlot, .slot e.slot]

/-- `PreservedCopyTopSlot`, for the entry on top. -/
def preservedCopyTopSlot (o : Compilation) (destSlot preserveSlot : Nat) (top : Entry) :
    Compilation :=
  if inRegister top then
    o.emit [.op (.PreserveSetSlot top.type), .slot destSlot, .slot preserveSlot]
  else
    o.emit [.op (.PreserveCopySlot top.type), .slot destSlot, .slot top.slot, .slot preserveSlot]

/-- The loop of `FindReferencedLocalWithinCurrentBlock`, from the oldest value up: every
reference to the local moves to one slot that keeps its value. -/
def moveReferences (localSlot : Nat) : List Entry → Compilation →
    Except M3Err (List Entry × Nat × Compilation)
  | [], o => .ok ([], localSlot, o)
  | e :: below, o => do
    let (below, preservedSlot, o) ← moveReferences localSlot below o
    if e.slot = localSlot then
      if preservedSlot = localSlot then
        let (slot, o) ← o.allocateSlots e.type
        .ok ({ e with slot := slot } :: below, slot, o)
      else
        let o ← o.incrementSlotUsageCount preservedSlot
        .ok ({ e with slot := preservedSlot } :: below, preservedSlot, o)
    else .ok (e :: below, preservedSlot, o)

def findReferencedLocalWithinCurrentBlock (o : Compilation) (localSlot : Nat) :
    Except M3Err (Nat × Compilation) := do
  let dynamic := o.stack.length - o.blockStackIndex
  let (entries, preservedSlot, o') ← moveReferences localSlot (o.stack.take dynamic) o
  .ok (preservedSlot, { o' with stack := entries ++ o.stack.drop dynamic })

/-! ## Instructions -/

/-- `GetFunctionNumArgsAndLocals`. -/
def numArgsAndLocals (o : Compilation) : Nat := o.stackFirstDynamicIndex

def compileConst_i32 (o : Compilation) : Except M3Err Compilation := do
  let (value, wasm) ← readLEB_i32 o.wasm
  { o with wasm := wasm }.pushConst (value.signExtend 64) .i32

def compileConst_i64 (o : Compilation) : Except M3Err Compilation := do
  let (value, wasm) ← readLEB_i64 o.wasm
  { o with wasm := wasm }.pushConst value .i64

def getLocal (o : Compilation) (localIndex : Nat) : Except M3Err Compilation :=
  if o.numArgsAndLocals ≤ localIndex then .error .localIndexOutOfBounds
  else
    match o.entryFromBottom localIndex with
    | some e => o.push e.type e.slot
    | none => .error .localIndexOutOfBounds

/-- `Compile_GetLocal`. -/
def compileGetLocal (o : Compilation) : Except M3Err Compilation := do
  let (localIndex, wasm) ← readLEB_u32 o.wasm
  { o with wasm := wasm }.getLocal localIndex.toNat

def setLocal (o : Compilation) (tee : Bool) (localIndex : Nat) : Except M3Err Compilation :=
  if localIndex < o.numArgsAndLocals then
    match o.entryFromBottom localIndex with
    | none => .error .localIndexOutOfBounds
    | some e => do
      let (preserveSlot, o) ← o.findReferencedLocalWithinCurrentBlock e.slot
      match o.stack with
      | [] => .error .functionStackUnderrun
      | top :: _ =>
        let o := if preserveSlot = e.slot then o.copyEntryToSlot e.slot top
          else o.preservedCopyTopSlot e.slot preserveSlot top
        if tee then .ok o else o.pop
  else .error .localIndexOutOfBounds

/-- `Compile_SetLocal`, for `local.set` and for `local.tee`. -/
def compileSetLocal (o : Compilation) (tee : Bool) : Except M3Err Compilation := do
  let (localIndex, wasm) ← readLEB_u32 o.wasm
  { o with wasm := wasm }.setLocal tee localIndex.toNat

/-- The operands of `Compile_Select`, the selector first: their slots, and which of them
is in the register. -/
def selectOperands (o : Compilation) : Nat → Nat →
    Except M3Err (List CodeWord × Option Nat × Compilation)
  | 0, _ => .ok ([], none, o)
  | n + 1, i => do
    let o' ← o.pop
    let (words, index, o'') ← o'.selectOperands n (i + 1)
    if o.isStackTopInRegister then .ok (words, some (index.getD i), o'')
    else .ok (.slot o.getStackTopSlotNumber :: words, index, o'')

/-- `c_intSelectOps`. -/
def intSelectOp : Option Nat → SelForm
  | some 0 => .rss
  | some 1 => .srs
  | some 2 => .ssr
  | _ => .sss

def compileSelect (o : Compilation) : Except M3Err Compilation :=
  match o.getStackTypeFromTop 1 with
  | none => .error .functionStackUnderrun
  | some type => do
    -- the 'sss' operation doesn't consume a register, so its contents are protected
    let o ← (if o.isStackTopInRegister || o.isStackTopMinus1InRegister ||
        o.isStackTopMinus2InRegister then .ok o else o.preserveRegisterIfOccupied)
    let (words, index, o) ← o.selectOperands 3 0
    (o.emit (.op (.Select type (intSelectOp index)) :: words)).pushRegister type

/-- `M3OpInfo`. -/
structure OpInfo where
  stackOffset : Int
  type : ValType
  operations : List (Option Operation)

/-- The operation of `Compile_Operator`, by where the operands are. -/
def chooseOperation (o : Compilation) (opInfo : OpInfo) :
    Except M3Err (Option Operation × Compilation) :=
  let operation := fun index => (opInfo.operations[index]?).join
  if opInfo.stackOffset = 0 then
    if o.isStackTopInRegister then .ok (operation 0, o)
    else o.preserveRegisterIfOccupied.map fun o => (operation 1, o)
  else if o.isStackTopInRegister then
    if o.isStackTopMinus1InRegister then .ok (operation 3, o) else .ok (operation 0, o)
  else if o.isStackTopMinus1InRegister then
    -- a commutative operator has no operation of its own for this order
    .ok ((operation 1).orElse fun _ => operation 0, o)
  else o.preserveRegisterIfOccupied.map fun o => (operation 2, o)

/-- `Compile_Operator`. -/
def compileOperator (o : Compilation) (opInfo : OpInfo) : Except M3Err Compilation := do
  let (op, o) ← o.chooseOperation opInfo
  match op with
  | none => .error .noOperation
  | some op =>
    let o ← (o.emit [.op op]).emitSlotNumOfStackTopAndPop
    let o ← (if opInfo.stackOffset < 0 then o.emitSlotNumOfStackTopAndPop else .ok o)
    o.pushRegister opInfo.type

end Compilation

/-! ## The table of operations -/

/-- `d_unaryOpList`. -/
def unaryOpList (t : CType) (name : UnName) : List (Option Operation) :=
  [some (.Unary t name .r), some (.Unary t name .s), none, none]

/-- `d_binOpList`. -/
def binOpList (t : CType) (name : BinName) : List (Option Operation) :=
  [some (.Binary t name .rs), some (.Binary t name .sr), some (.Binary t name .ss), none]

/-- `d_commutativeBinOpList`. -/
def commutativeBinOpList (t : CType) (name : BinName) : List (Option Operation) :=
  [some (.Binary t name .rs), none, some (.Binary t name .ss), none]

/-- The rows of `c_operations` that `Compile_Operator` compiles, for integers. -/
def getOpInfo (opcode : UInt8) : Option Compilation.OpInfo :=
  match opcode.toNat with
  | 0x45 => some ⟨0, .i32, unaryOpList .i32 .EqualToZero⟩
  | 0x46 => some ⟨-1, .i32, commutativeBinOpList .i32 .Equal⟩
  | 0x47 => some ⟨-1, .i32, commutativeBinOpList .i32 .NotEqual⟩
  | 0x48 => some ⟨-1, .i32, binOpList .i32 .LessThan⟩
  | 0x49 => some ⟨-1, .i32, binOpList .u32 .LessThan⟩
  | 0x4a => some ⟨-1, .i32, binOpList .i32 .GreaterThan⟩
  | 0x4b => some ⟨-1, .i32, binOpList .u32 .GreaterThan⟩
  | 0x4c => some ⟨-1, .i32, binOpList .i32 .LessThanOrEqual⟩
  | 0x4d => some ⟨-1, .i32, binOpList .u32 .LessThanOrEqual⟩
  | 0x4e => some ⟨-1, .i32, binOpList .i32 .GreaterThanOrEqual⟩
  | 0x4f => some ⟨-1, .i32, binOpList .u32 .GreaterThanOrEqual⟩
  | 0x50 => some ⟨0, .i32, unaryOpList .i64 .EqualToZero⟩
  | 0x51 => some ⟨-1, .i32, commutativeBinOpList .i64 .Equal⟩
  | 0x52 => some ⟨-1, .i32, commutativeBinOpList .i64 .NotEqual⟩
  | 0x53 => some ⟨-1, .i32, binOpList .i64 .LessThan⟩
  | 0x54 => some ⟨-1, .i32, binOpList .u64 .LessThan⟩
  | 0x55 => some ⟨-1, .i32, binOpList .i64 .GreaterThan⟩
  | 0x56 => some ⟨-1, .i32, binOpList .u64 .GreaterThan⟩
  | 0x57 => some ⟨-1, .i32, binOpList .i64 .LessThanOrEqual⟩
  | 0x58 => some ⟨-1, .i32, binOpList .u64 .LessThanOrEqual⟩
  | 0x59 => some ⟨-1, .i32, binOpList .i64 .GreaterThanOrEqual⟩
  | 0x5a => some ⟨-1, .i32, binOpList .u64 .GreaterThanOrEqual⟩
  | 0x67 => some ⟨0, .i32, unaryOpList .u32 .Clz⟩
  | 0x68 => some ⟨0, .i32, unaryOpList .u32 .Ctz⟩
  | 0x69 => some ⟨0, .i32, unaryOpList .u32 .Popcnt⟩
  | 0x6a => some ⟨-1, .i32, commutativeBinOpList .i32 .Add⟩
  | 0x6b => some ⟨-1, .i32, binOpList .i32 .Subtract⟩
  | 0x6c => some ⟨-1, .i32, commutativeBinOpList .i32 .Multiply⟩
  | 0x6d => some ⟨-1, .i32, binOpList .i32 .Divide⟩
  | 0x6e => some ⟨-1, .i32, binOpList .u32 .Divide⟩
  | 0x6f => some ⟨-1, .i32, binOpList .i32 .Remainder⟩
  | 0x70 => some ⟨-1, .i32, binOpList .u32 .Remainder⟩
  | 0x71 => some ⟨-1, .i32, commutativeBinOpList .u32 .And⟩
  | 0x72 => some ⟨-1, .i32, commutativeBinOpList .u32 .Or⟩
  | 0x73 => some ⟨-1, .i32, commutativeBinOpList .u32 .Xor⟩
  | 0x74 => some ⟨-1, .i32, binOpList .u32 .ShiftLeft⟩
  | 0x75 => some ⟨-1, .i32, binOpList .i32 .ShiftRight⟩
  | 0x76 => some ⟨-1, .i32, binOpList .u32 .ShiftRight⟩
  | 0x77 => some ⟨-1, .i32, binOpList .u32 .Rotl⟩
  | 0x78 => some ⟨-1, .i32, binOpList .u32 .Rotr⟩
  | 0x79 => some ⟨0, .i64, unaryOpList .u64 .Clz⟩
  | 0x7a => some ⟨0, .i64, unaryOpList .u64 .Ctz⟩
  | 0x7b => some ⟨0, .i64, unaryOpList .u64 .Popcnt⟩
  | 0x7c => some ⟨-1, .i64, commutativeBinOpList .i64 .Add⟩
  | 0x7d => some ⟨-1, .i64, binOpList .i64 .Subtract⟩
  | 0x7e => some ⟨-1, .i64, commutativeBinOpList .i64 .Multiply⟩
  | 0x7f => some ⟨-1, .i64, binOpList .i64 .Divide⟩
  | 0x80 => some ⟨-1, .i64, binOpList .u64 .Divide⟩
  | 0x81 => some ⟨-1, .i64, binOpList .i64 .Remainder⟩
  | 0x82 => some ⟨-1, .i64, binOpList .u64 .Remainder⟩
  | 0x83 => some ⟨-1, .i64, commutativeBinOpList .u64 .And⟩
  | 0x84 => some ⟨-1, .i64, commutativeBinOpList .u64 .Or⟩
  | 0x85 => some ⟨-1, .i64, commutativeBinOpList .u64 .Xor⟩
  | 0x86 => some ⟨-1, .i64, binOpList .u64 .ShiftLeft⟩
  | 0x87 => some ⟨-1, .i64, binOpList .i64 .ShiftRight⟩
  | 0x88 => some ⟨-1, .i64, binOpList .u64 .ShiftRight⟩
  | 0x89 => some ⟨-1, .i64, binOpList .u64 .Rotl⟩
  | 0x8a => some ⟨-1, .i64, binOpList .u64 .Rotr⟩
  | 0xa7 => some ⟨0, .i32, unaryOpList .i64 .Wrap⟩
  | 0xac => some ⟨0, .i64, unaryOpList .i32 .Extend⟩
  | 0xad => some ⟨0, .i64, unaryOpList .u32 .Extend⟩
  | 0xc0 => some ⟨0, .i32, unaryOpList .i32 .Extend8_s⟩
  | 0xc1 => some ⟨0, .i32, unaryOpList .i32 .Extend16_s⟩
  | 0xc2 => some ⟨0, .i64, unaryOpList .i64 .Extend8_s⟩
  | 0xc3 => some ⟨0, .i64, unaryOpList .i64 .Extend16_s⟩
  | 0xc4 => some ⟨0, .i64, unaryOpList .i64 .Extend32_s⟩
  | _ => none

/-- What the model leaves out: the other rows of the table, and locals that are no
integers, by the code of their type. -/
structure Others where
  row : UInt8 → Compilation → Except M3Err Compilation
  pushLocal : UInt8 → Compilation → Except M3Err Compilation

/-! ## Functions -/

/-- The integers of `IM3FuncType`. -/
structure FunctionType where
  args : List ValType
  rets : List ValType
  deriving DecidableEq

/-- `IM3Function`, where a call uses it. -/
structure M3Function where
  compiled : List CodeWord
  maxStackSlots : Nat
  numRetSlots : Nat
  numRetAndArgSlots : Nat
  numLocalSlots : Nat
  constants : List (BitVec 32)

namespace Compilation

/-- The loop of `ReturnValues`: results to their slots, the last one first. -/
def returnValues : List ValType → Nat → List Entry → Compilation → Except M3Err Compilation
  | [], _, _, o => .ok o
  | returnType :: rets, returnSlot, stack, o =>
    match stack with
    | [] => .error .typeMismatch
    | e :: below =>
      if returnType = e.type then
        returnValues rets (returnSlot - ioSlotCount) below
          (o.copyEntryToSlot (returnSlot - ioSlotCount) e)
      else .error .typeMismatch

def popTimes (o : Compilation) : Nat → Except M3Err Compilation
  | 0 => .ok o
  | n + 1 => do
    let o ← o.pop
    o.popTimes n

/-- `Compile_End` where the function ends. -/
def compileEnd (o : Compilation) (rets : List ValType) : Except M3Err Compilation := do
  if o.stack.length - o.blockStackIndex ≠ rets.length then .error .typeCountMismatch
  else
    let o ← returnValues rets.reverse (rets.length * ioSlotCount) o.stack o
    let o ← o.popTimes rets.length
    .ok (o.emit [.op .Return])

/-- One row of `c_operations`, behind its opcode. -/
def compileOpcode (others : Others) (rets : List ValType) (o : Compilation) (opcode : UInt8) :
    Except M3Err Compilation :=
  match opcode.toNat with
  | 0x01 | 0x05 => .ok o
  | 0x0b => o.compileEnd rets
  | 0x1a => o.pop
  | 0x1b => o.compileSelect
  | 0x20 => o.compileGetLocal
  | 0x21 => o.compileSetLocal false
  | 0x22 => o.compileSetLocal true
  | 0x41 => o.compileConst_i32
  | 0x42 => o.compileConst_i64
  | _ =>
    match getOpInfo opcode with
    | some opInfo => o.compileOperator opInfo
    | none => others.row opcode o

/-- `CompileBlockStatements`, for the block of the function. -/
def compileBlockStatements (others : Others) (rets : List ValType) :
    Nat → Compilation → Except M3Err Compilation
  | 0, _ => .error .wasmMalformed
  | fuel + 1, o =>
    match o.wasm with
    | [] => .error .wasmMalformed
    | opcode :: wasm => do
      let o ← compileOpcode others rets { o with wasm := wasm } opcode
      let o := { o with previousOpcode := opcode }
      if opcode = 0x05 then .error .wasmMalformed
      else if opcode = 0x0b then .ok o
      else compileBlockStatements others rets fuel o

/-- `PushAllocatedSlot` for a local of the type with this code. -/
def pushLocal (others : Others) (o : Compilation) (type : UInt8) : Except M3Err Compilation :=
  if type = 1 then (o.pushAllocatedSlot .i32).map Prod.snd
  else if type = 2 then (o.pushAllocatedSlot .i64).map Prod.snd
  else others.pushLocal type o

def pushLocals (others : Others) (type : UInt8) : Nat → Compilation → Except M3Err Compilation
  | 0, o => .ok o
  | varCount + 1, o => do
    let o ← o.pushLocal others type
    pushLocals others type varCount o

/-- The loop of `CompileLocals`. -/
def compileLocalBlocks (others : Others) : Nat → Compilation → Except M3Err Compilation
  | 0, o => .ok o
  | numLocalBlocks + 1, o => do
    let (varCount, wasm) ← readLEB_u32 o.wasm
    let (waType, wasm) ← readLEB_i7 wasm
    let localType ← normalizeType waType
    let o ← pushLocals others localType varCount.toNat { o with wasm := wasm }
    compileLocalBlocks others numLocalBlocks o

def compileLocals (others : Others) (o : Compilation) : Except M3Err Compilation := do
  let (numLocalBlocks, wasm) ← readLEB_u32 o.wasm
  compileLocalBlocks others numLocalBlocks.toNat { o with wasm := wasm }

/-- The scan of `ReserveConstants`: any octet that looks like a `const` opcode. -/
def countConstantSlots : List UInt8 → Nat → Nat
  | [], numConstantSlots => numConstantSlots
  | code :: wa, numConstantSlots =>
    let addSlots := if code = 0x41 ∨ code = 0x43 then 1
      else if code = 0x42 ∨ code = 0x44 then 2 else 0
    if maxConstantTableSize ≤ numConstantSlots + addSlots then numConstantSlots
    else countConstantSlots wa (numConstantSlots + addSlots)

def reserveConstants (o : Compilation) : Except M3Err Compilation :=
  let numConstantSlots := alignSlotToType (countConstantSlots o.wasm 0) .i64
  if maxFunctionSlots ≤ o.slotFirstConstIndex + numConstantSlots then
    .error .functionStackOverflow
  else .ok { o with slotFirstDynamicIndex := o.slotFirstConstIndex + numConstantSlots }

/-- The arguments of `CompileFunction`; the index moves on so that no later value fills
the gaps between them. -/
def pushArgs : List ValType → Compilation → Except M3Err Compilation
  | [], o => .ok o
  | type :: args, o => do
    let (_, o) ← o.pushAllocatedSlot type
    pushArgs args { o with slotFirstDynamicIndex := o.slotFirstDynamicIndex + ioSlotCount }

end Compilation

open Compilation in
/-- `CompileFunction` up to `op_Entry`. -/
def compilePrologue (others : Others) (type : FunctionType) (wasm : List UInt8) :
    Except M3Err (Nat × Compilation) := do
  let (_, wasm) ← readLEB_u32 wasm
  let numRetSlots := type.rets.length * ioSlotCount
  let o : Compilation := { wasm := wasm }
  let o := { o.markSlotsAllocated 0 numRetSlots with slotFirstDynamicIndex := numRetSlots }
  let o ← pushArgs type.args o
  let o := { o with
    slotMaxAllocatedIndexPlusOne := o.slotFirstDynamicIndex
    slotFirstLocalIndex := o.slotFirstDynamicIndex }
  let o ← compileLocals others o
  let maxSlot := o.maxUsedSlotPlusOne o.slotMaxAllocatedIndexPlusOne
  let o ← { o with slotFirstConstIndex := maxSlot, slotMaxConstIndex := maxSlot }.reserveConstants
  .ok (maxSlot - o.slotFirstLocalIndex, { o with
    maxStackSlots := o.slotFirstDynamicIndex
    slotMaxAllocatedIndexPlusOne := o.slotFirstDynamicIndex
    blockStackIndex := o.stack.length
    stackFirstDynamicIndex := o.stack.length })

open Compilation in
def compileFunction (others : Others) (type : FunctionType) (wasm : List UInt8) :
    Except M3Err M3Function := do
  let (numLocalSlots, o) ← compilePrologue others type wasm
  let entry := o.emit [.op .Entry, .function]
  let final ← compileBlockStatements others type.rets entry.wasm.length entry
  if final.previousOpcode ≠ 0x0b then .error .wasmMalformed
  else
    .ok {
      compiled := final.page
      maxStackSlots := final.maxStackSlots
      numRetSlots := type.rets.length * ioSlotCount
      numRetAndArgSlots := o.slotFirstLocalIndex
      numLocalSlots := numLocalSlots
      constants := (List.range (final.slotMaxConstIndex - final.slotFirstConstIndex)).map
        final.constants }

/-! ## Entry -/

/-- The registers and the frame that `op_Entry` leaves: locals are zero, the constants
behind them. -/
def M3Function.frame (f : M3Function) (m : Machine) : Machine :=
  let firstConst := f.numRetAndArgSlots + f.numLocalSlots
  { m with
    r0 := 0
    slots := fun slot =>
      if slot < f.numRetAndArgSlots then m.slots slot
      else if slot < firstConst then 0
      else (f.constants[slot - firstConst]?).getD (m.slots slot) }

/-- `op_Entry` and the code behind it. -/
def M3Function.run (f : M3Function) (m : Machine) : Outcome :=
  match f.compiled with
  | .op .Entry :: .function :: pc =>
    if f.maxStackSlots < m.room then exec pc (f.frame m) else .stackOverflow
  | _ => .stuck

end VelumOS.Source.M3
