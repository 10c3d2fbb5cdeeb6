import Mathlib

/-!
# Integer instructions of WebAssembly

Values carry their type, so an instruction that meets the wrong operands has no step.
A trap ends a run and is part of its meaning. `run` is for straight-line code: every
instruction of this fragment passes control to the next.
-/
namespace VelumOS.Base.Wasm

inductive ValType where
  | i32 | i64
  deriving DecidableEq

def ValType.width : ValType → Nat
  | .i32 => 32
  | .i64 => 64

theorem ValType.width_pos (type : ValType) : 0 < type.width := by
  cases type <;> decide

structure Value where
  type : ValType
  word : BitVec type.width
  deriving DecidableEq

/-- The word of a value of this type. -/
def Value.asWord (type : ValType) (value : Value) : Option (BitVec type.width) :=
  if same : value.type = type then some (same ▸ value.word) else none

theorem Value.asWord_eq_some {type : ValType} {value : Value} {word : BitVec type.width} :
    value.asWord type = some word ↔ value = ⟨type, word⟩ := by
  obtain ⟨own, bits⟩ := value
  unfold Value.asWord
  constructor
  · intro found
    split at found
    · next same =>
      subst same
      simpa using found
    · cases found
  · intro same
    cases same
    simp

inductive Trap where
  | divideByZero | integerOverflow
  deriving DecidableEq

/-! ## Numeric operators -/

inductive Arith where
  | add | sub | mul | div_s | div_u | rem_s | rem_u | and | or | xor
  | shl | shr_s | shr_u | rotl | rotr
  deriving DecidableEq

inductive Relation where
  | eq | ne | lt_s | lt_u | gt_s | gt_u | le_s | le_u | ge_s | ge_u
  deriving DecidableEq

def Arith.apply {w : Nat} : Arith → BitVec w → BitVec w → Except Trap (BitVec w)
  | .add, a, b => .ok (a + b)
  | .sub, a, b => .ok (a - b)
  | .mul, a, b => .ok (a * b)
  | .div_s, a, b =>
    if b = 0 then .error .divideByZero
    else if a = BitVec.intMin w ∧ b = -1 then .error .integerOverflow
    else .ok (a.sdiv b)
  | .div_u, a, b => if b = 0 then .error .divideByZero else .ok (a / b)
  | .rem_s, a, b => if b = 0 then .error .divideByZero else .ok (a.srem b)
  | .rem_u, a, b => if b = 0 then .error .divideByZero else .ok (a % b)
  | .and, a, b => .ok (a &&& b)
  | .or, a, b => .ok (a ||| b)
  | .xor, a, b => .ok (a ^^^ b)
  | .shl, a, b => .ok (a <<< (b.toNat % w))
  | .shr_s, a, b => .ok (a.sshiftRight (b.toNat % w))
  | .shr_u, a, b => .ok (a >>> (b.toNat % w))
  | .rotl, a, b => .ok (a.rotateLeft b.toNat)
  | .rotr, a, b => .ok (a.rotateRight b.toNat)

def Relation.holds {w : Nat} : Relation → BitVec w → BitVec w → Bool
  | .eq, a, b => a = b
  | .ne, a, b => a ≠ b
  | .lt_s, a, b => a.toInt < b.toInt
  | .lt_u, a, b => a.toNat < b.toNat
  | .gt_s, a, b => b.toInt < a.toInt
  | .gt_u, a, b => b.toNat < a.toNat
  | .le_s, a, b => a.toInt ≤ b.toInt
  | .le_u, a, b => a.toNat ≤ b.toNat
  | .ge_s, a, b => b.toInt ≤ a.toInt
  | .ge_u, a, b => b.toNat ≤ a.toNat

/-- Operators of one operand. -/
inductive Unary where
  | eqz (type : ValType) | clz (type : ValType) | ctz (type : ValType) | popcnt (type : ValType)
  | extend8_s (type : ValType) | extend16_s (type : ValType) | extend32_s
  | wrap | extend_s | extend_u
  deriving DecidableEq

def Unary.source : Unary → ValType
  | .eqz type | .clz type | .ctz type | .popcnt type => type
  | .extend8_s type | .extend16_s type => type
  | .extend32_s | .wrap => .i64
  | .extend_s | .extend_u => .i32

def Unary.target : Unary → ValType
  | .clz type | .ctz type | .popcnt type | .extend8_s type | .extend16_s type => type
  | .eqz _ | .wrap => .i32
  | .extend32_s | .extend_s | .extend_u => .i64

def Unary.apply : (op : Unary) → BitVec op.source.width → BitVec op.target.width
  | .eqz _, a => if a = 0 then 1#32 else 0#32
  | .clz _, a => a.clz
  | .ctz _, a => a.ctz
  | .popcnt _, a => a.cpop
  | .extend8_s type, a => (a.setWidth 8).signExtend type.width
  | .extend16_s type, a => (a.setWidth 16).signExtend type.width
  | .extend32_s, a => (a.setWidth 32).signExtend 64
  | .wrap, a => a.setWidth 32
  | .extend_s, a => a.signExtend 64
  | .extend_u, a => a.setWidth 64

/-- Operators of two operands of one type. -/
inductive Binary where
  | arith (type : ValType) (op : Arith)
  | relation (type : ValType) (op : Relation)
  deriving DecidableEq

def Binary.source : Binary → ValType
  | .arith type _ | .relation type _ => type

def Binary.target : Binary → ValType
  | .arith type _ => type
  | .relation _ _ => .i32

def Binary.apply : (op : Binary) → BitVec op.source.width → BitVec op.source.width →
    Except Trap (BitVec op.target.width)
  | .arith _ op, a, b => op.apply a b
  | .relation _ op, a, b => .ok (if op.holds a b then 1#32 else 0#32)

/-! ## Instructions -/

inductive Instr where
  | const (value : Value)
  | localGet (index : Nat)
  | localSet (index : Nat)
  | localTee (index : Nat)
  | drop
  | select
  | nop
  | unary (op : Unary)
  | binary (op : Binary)
  deriving DecidableEq

structure State where
  locals : List Value
  stack : List Value

/-- One instruction; `none` where an operand is missing or of the wrong type. -/
def step : Instr → State → Option (Except Trap State)
  | .const value, s => some (.ok { s with stack := value :: s.stack })
  | .localGet index, s => do
    let value ← s.locals[index]?
    some (.ok { s with stack := value :: s.stack })
  | .localSet index, ⟨locals, value :: below⟩ => do
    let held ← locals[index]?
    if held.type = value.type then some (.ok ⟨locals.set index value, below⟩) else none
  | .localTee index, ⟨locals, value :: below⟩ => do
    let held ← locals[index]?
    if held.type = value.type then some (.ok ⟨locals.set index value, value :: below⟩) else none
  | .drop, ⟨locals, _ :: below⟩ => some (.ok ⟨locals, below⟩)
  | .select, ⟨locals, condition :: second :: first :: below⟩ => do
    let chosen ← condition.asWord .i32
    if first.type = second.type then
      some (.ok ⟨locals, (if chosen = 0 then second else first) :: below⟩)
    else none
  | .nop, s => some (.ok s)
  | .unary op, ⟨locals, value :: below⟩ => do
    let a ← value.asWord op.source
    some (.ok ⟨locals, ⟨op.target, op.apply a⟩ :: below⟩)
  | .binary op, ⟨locals, second :: first :: below⟩ => do
    let b ← second.asWord op.source
    let a ← first.asWord op.source
    some ((op.apply a b).map fun word => ⟨locals, ⟨op.target, word⟩ :: below⟩)
  | _, _ => none

/-- A step needs its operands, of the right types. -/
theorem step_unary {op : Unary} {s : State} {r : Except Trap State}
    (steps : step (.unary op) s = some r) :
    ∃ a below, s.stack = ⟨op.source, a⟩ :: below ∧
      r = .ok { s with stack := ⟨op.target, op.apply a⟩ :: below } := by
  obtain ⟨locals, stack⟩ := s
  cases stack with
  | nil => cases steps
  | cons value below =>
    simp only [step, bind, Option.bind_eq_some_iff, Option.some.injEq] at steps
    obtain ⟨a, typed, rfl⟩ := steps
    obtain rfl := Value.asWord_eq_some.mp typed
    exact ⟨a, below, rfl, rfl⟩

theorem step_binary {op : Binary} {s : State} {r : Except Trap State}
    (steps : step (.binary op) s = some r) :
    ∃ a b below, s.stack = ⟨op.source, b⟩ :: ⟨op.source, a⟩ :: below ∧
      r = (op.apply a b).map fun word => { s with stack := ⟨op.target, word⟩ :: below } := by
  obtain ⟨locals, stack⟩ := s
  match stack with
  | [] => cases steps
  | [_] => cases steps
  | second :: first :: below =>
    simp only [step, bind, Option.bind_eq_some_iff, Option.some.injEq] at steps
    obtain ⟨b, typedB, a, typedA, rfl⟩ := steps
    obtain rfl := Value.asWord_eq_some.mp typedB
    obtain rfl := Value.asWord_eq_some.mp typedA
    exact ⟨a, b, below, rfl, rfl⟩

theorem step_select {s : State} {r : Except Trap State} (steps : step .select s = some r) :
    ∃ (c : BitVec ValType.i32.width) (type : ValType) (second first : BitVec type.width)
      (below : List Value),
      s.stack = ⟨.i32, c⟩ :: ⟨type, second⟩ :: ⟨type, first⟩ :: below ∧
      r = .ok { s with stack := ⟨type, if c = 0 then second else first⟩ :: below } := by
  obtain ⟨locals, stack⟩ := s
  match stack with
  | [] => cases steps
  | [_] => cases steps
  | [_, _] => cases steps
  | condition :: ⟨type, second⟩ :: ⟨type', first⟩ :: below =>
    simp only [step, bind, Option.bind_eq_some_iff] at steps
    obtain ⟨c, typed, steps⟩ := steps
    obtain rfl := Value.asWord_eq_some.mp typed
    split at steps
    · next same =>
      obtain rfl : type' = type := same
      obtain rfl := Option.some.inj steps
      refine ⟨c, type', second, first, below, rfl, ?_⟩
      by_cases zero : c = 0
      · rw [if_pos zero, if_pos zero]
      · rw [if_neg zero, if_neg zero]
    · cases steps

def run : List Instr → State → Option (Except Trap State)
  | [], s => some (.ok s)
  | instr :: rest, s =>
    match step instr s with
    | none => none
    | some (.error trap) => some (.error trap)
    | some (.ok next) => run rest next

end VelumOS.Base.Wasm
