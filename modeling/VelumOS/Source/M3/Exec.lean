import VelumOS.Source.M3.Core
import VelumOS.Base.Wasm

/-!
# Operations of the interpreter

`include/m3_exec.h` and `include/m3_math_utils.h`, for integers. A code page is the
list of its words; an operation takes its immediates from the words behind it. `_sp`
points to slots of 32 bits, `_r0` is a register of 64. An access past the end of the
stack, or a word that is not what the operation takes it for, is `stuck`.
-/
namespace VelumOS.Source.M3
open Base.Wasm

/-- `GetTypeNumSlots`. -/
def getTypeNumSlots : ValType → Nat
  | .i32 => 1
  | .i64 => 2

/-! ## Arithmetic -/

/-- The C type that a macro is expanded for. -/
structure CType where
  type : ValType
  isSigned : Bool
  deriving DecidableEq

namespace CType

def i32 : CType := ⟨.i32, true⟩

def u32 : CType := ⟨.i32, false⟩

def i64 : CType := ⟨.i64, true⟩

def u64 : CType := ⟨.i64, false⟩

abbrev width (t : CType) : Nat := t.type.width

end CType

/-- The conversion of a result to `m3reg_t`, which is `i64`. -/
def CType.toReg (t : CType) (value : BitVec t.width) : BitVec 64 :=
  if t.isSigned then value.signExtend 64 else value.setWidth 64

/-- Binary operations, as the macros of `m3_exec.h` name them. -/
inductive BinName where
  | Equal | NotEqual | LessThan | GreaterThan | LessThanOrEqual | GreaterThanOrEqual
  | Add | Multiply | Subtract | ShiftLeft | ShiftRight | And | Or | Xor | Rotl | Rotr
  | Divide | Remainder
  deriving DecidableEq

/-- `rotl32` and `rotl64`; the count is an `unsigned`. -/
def rotl {w : Nat} (n : BitVec w) (count : BitVec 32) : BitVec w :=
  let mask := BitVec.ofNat 32 (w - 1)
  let c := count &&& mask
  (n <<< c.toNat) ||| (n >>> (-c &&& mask).toNat)

/-- `rotr32` and `rotr64`. -/
def rotr {w : Nat} (n : BitVec w) (count : BitVec 32) : BitVec w :=
  let mask := BitVec.ofNat 32 (w - 1)
  let c := count &&& mask
  (n >>> c.toNat) ||| (n <<< (-c &&& mask).toNat)

/-- `<`, as C compares two operands of the type. -/
def CType.less (t : CType) (a b : BitVec t.width) : Bool :=
  if t.isSigned then a.toInt < b.toInt else a.toNat < b.toNat

def ofBool (condition : Bool) : BitVec 64 := if condition then 1 else 0

/-- `OP_DIV_U` and `OP_DIV_S`: C's quotient, rounded towards zero. -/
def opDivide (t : CType) (a b : BitVec t.width) : Except Trap (BitVec t.width) :=
  if b = 0 then .error .divideByZero
  else if t.isSigned then
    if b = -1 ∧ a = BitVec.intMin t.width then .error .integerOverflow
    else .ok (BitVec.ofInt t.width (a.toInt.tdiv b.toInt))
  else .ok (BitVec.ofNat t.width (a.toNat / b.toNat))

/-- `OP_REM_U` and `OP_REM_S`: C's remainder has the sign of the dividend. -/
def opRemainder (t : CType) (a b : BitVec t.width) : Except Trap (BitVec t.width) :=
  if b = 0 then .error .divideByZero
  else if t.isSigned then
    if b = -1 ∧ a = BitVec.intMin t.width then .ok 0
    else .ok (BitVec.ofInt t.width (a.toInt.tmod b.toInt))
  else .ok (BitVec.ofNat t.width (a.toNat % b.toNat))

/-- What a binary operation leaves in `_r0`. -/
def opBinary (t : CType) : BinName → BitVec t.width → BitVec t.width → Except Trap (BitVec 64)
  | .Equal, a, b => .ok (ofBool (a = b))
  | .NotEqual, a, b => .ok (ofBool (a ≠ b))
  | .LessThan, a, b => .ok (ofBool (t.less a b))
  | .GreaterThan, a, b => .ok (ofBool (t.less b a))
  | .LessThanOrEqual, a, b => .ok (ofBool (!t.less b a))
  | .GreaterThanOrEqual, a, b => .ok (ofBool (!t.less a b))
  | .Add, a, b => .ok (t.toReg (a + b))
  | .Multiply, a, b => .ok (t.toReg (a * b))
  | .Subtract, a, b => .ok (t.toReg (a - b))
  | .ShiftLeft, a, b => .ok (t.toReg (a <<< (b.toNat % t.width)))
  | .ShiftRight, a, b =>
    .ok (t.toReg (if t.isSigned then a.sshiftRight (b.toNat % t.width)
      else a >>> (b.toNat % t.width)))
  | .And, a, b => .ok (t.toReg (a &&& b))
  | .Or, a, b => .ok (t.toReg (a ||| b))
  | .Xor, a, b => .ok (t.toReg (a ^^^ b))
  | .Rotl, a, b => .ok (t.toReg (rotl a (b.setWidth 32)))
  | .Rotr, a, b => .ok (t.toReg (rotr a (b.setWidth 32)))
  | .Divide, a, b => (opDivide t a b).map t.toReg
  | .Remainder, a, b => (opRemainder t a b).map t.toReg

/-- Unary operations and the conversions between integers. -/
inductive UnName where
  | EqualToZero | Clz | Ctz | Popcnt | Extend8_s | Extend16_s | Extend32_s | Wrap | Extend
  deriving DecidableEq

/-- `OP_CLZ_32`; `__builtin_clz` has no value at zero. -/
def opClz32 (x : BitVec 32) : BitVec 64 := if x = 0 then 32 else x.clz.setWidth 64

def opClz64 (x : BitVec 64) : BitVec 64 := (x ||| 1).clz + ofBool (x = 0)

def opCtz32 (x : BitVec 32) : BitVec 64 := if x = 0 then 32 else x.ctz.setWidth 64

def opCtz64 (x : BitVec 64) : BitVec 64 := (x ||| 1 <<< 63).ctz + ofBool (x = 0)

def opClz : (t : ValType) → BitVec t.width → BitVec 64
  | .i32, x => opClz32 x
  | .i64, x => opClz64 x

def opCtz : (t : ValType) → BitVec t.width → BitVec 64
  | .i32, x => opCtz32 x
  | .i64, x => opCtz64 x

/-- What a unary operation leaves in `_r0`. -/
def opUnary (t : CType) : UnName → BitVec t.width → BitVec 64
  | .EqualToZero, x => ofBool (x = 0)
  | .Clz, x => opClz t.type x
  | .Ctz, x => opCtz t.type x
  | .Popcnt, x => x.cpop.setWidth 64
  | .Extend8_s, x => t.toReg ((x.setWidth 8).signExtend t.width)
  | .Extend16_s, x => t.toReg ((x.setWidth 16).signExtend t.width)
  | .Extend32_s, x => t.toReg ((x.setWidth 32).signExtend t.width)
  | .Wrap, x => x.setWidth 64 &&& 0x00000000ffffffff
  | .Extend, x => t.toReg x

/-! ## Code -/

/-- Where the operand of a unary operation is. -/
inductive UnForm where
  | r | s
  deriving DecidableEq

/-- Where the operands of a binary operation are, the top of the stack first. -/
inductive BinForm where
  | rs | sr | ss
  deriving DecidableEq

/-- Where the operands of a selection are. -/
inductive SelForm where
  | rss | srs | ssr | sss
  deriving DecidableEq

inductive Operation where
  | Entry
  | Return
  | Unary (t : CType) (name : UnName) (form : UnForm)
  | Binary (t : CType) (name : BinName) (form : BinForm)
  | SetRegister (t : ValType)
  | SetSlot (t : ValType)
  | PreserveSetSlot (t : ValType)
  | CopySlot (t : ValType)
  | PreserveCopySlot (t : ValType)
  | Select (t : ValType) (form : SelForm)
  | Const32
  | Const64
  deriving DecidableEq

/-- A word of a code page. -/
inductive CodeWord where
  | op (operation : Operation)
  | slot (offset : Nat)
  | word32 (word : BitVec 32)
  | word64 (word : BitVec 64)
  | function
  deriving DecidableEq

/-! ## Execution -/

/-- `_r0`, and the `room` slots from `_sp` to the end of the stack. -/
structure Machine where
  slots : Nat → BitVec 32
  room : Nat
  r0 : BitVec 64

/-- `* (TYPE *) (_sp + offset)`, lower slot first. -/
def Machine.word (m : Machine) : (t : ValType) → Nat → BitVec t.width
  | .i32, offset => m.slots offset
  | .i64, offset => m.slots (offset + 1) ++ m.slots offset

def Machine.write (m : Machine) : (t : ValType) → Nat → BitVec t.width → Machine
  | .i32, offset, value => { m with slots := Function.update m.slots offset value }
  | .i64, offset, value =>
    { m with
      slots := Function.update (Function.update m.slots offset (value.setWidth 32))
        (offset + 1) ((value >>> 32).setWidth 32) }

/-- A read of a slot that the stack has. -/
def Machine.load (m : Machine) (t : ValType) (offset : Nat) : Option (BitVec t.width) :=
  if offset + getTypeNumSlots t ≤ m.room then some (m.word t offset) else none

def Machine.store (m : Machine) (t : ValType) (offset : Nat) (value : BitVec t.width) :
    Option Machine :=
  if offset + getTypeNumSlots t ≤ m.room then some (m.write t offset value) else none

/-- `(TYPE) _r0`. -/
def Machine.reg (m : Machine) (t : ValType) : BitVec t.width := m.r0.setWidth t.width

/-- `REG = value`, for a value of the type. -/
def Machine.setReg (m : Machine) (t : ValType) (value : BitVec t.width) : Machine :=
  { m with r0 := value.signExtend 64 }

inductive Outcome where
  | returned (m : Machine)
  | trapped (trap : Trap)
  | stackOverflow
  | stuck

/-- `REG = (condition) ? operand1 : operand2`. -/
def selectOp (t : ValType) (m : Machine) (condition : BitVec 32)
    (operand2 operand1 : BitVec t.width) : Machine :=
  m.setReg t (if condition ≠ 0 then operand1 else operand2)

/-- The operations from `_pc` on. -/
def exec : List CodeWord → Machine → Outcome
  | .op .Return :: _, m => .returned m
  | .op (.Unary t name .r) :: pc, m => exec pc { m with r0 := opUnary t name (m.reg t.type) }
  | .op (.Unary t name .s) :: .slot a :: pc, m =>
    match m.load t.type a with
    | some operand => exec pc { m with r0 := opUnary t name operand }
    | none => .stuck
  | .op (.Binary t name .rs) :: .slot a :: pc, m =>
    match m.load t.type a with
    | some operand =>
      match opBinary t name operand (m.reg t.type) with
      | .ok r0 => exec pc { m with r0 := r0 }
      | .error trap => .trapped trap
    | none => .stuck
  | .op (.Binary t name .sr) :: .slot a :: pc, m =>
    match m.load t.type a with
    | some operand =>
      match opBinary t name (m.reg t.type) operand with
      | .ok r0 => exec pc { m with r0 := r0 }
      | .error trap => .trapped trap
    | none => .stuck
  | .op (.Binary t name .ss) :: .slot a :: .slot b :: pc, m =>
    match m.load t.type a, m.load t.type b with
    | some operand2, some operand1 =>
      match opBinary t name operand1 operand2 with
      | .ok r0 => exec pc { m with r0 := r0 }
      | .error trap => .trapped trap
    | _, _ => .stuck
  | .op (.SetRegister t) :: .slot a :: pc, m =>
    match m.load t a with
    | some value => exec pc (m.setReg t value)
    | none => .stuck
  | .op (.SetSlot t) :: .slot a :: pc, m =>
    match m.store t a (m.reg t) with
    | some m => exec pc m
    | none => .stuck
  | .op (.PreserveSetSlot t) :: .slot stack :: .slot preserve :: pc, m =>
    match m.load t stack with
    | some old =>
      match m.store t preserve old with
      | some m =>
        match m.store t stack (m.reg t) with
        | some m => exec pc m
        | none => .stuck
      | none => .stuck
    | none => .stuck
  | .op (.CopySlot t) :: .slot dst :: .slot src :: pc, m =>
    match m.load t src with
    | some value =>
      match m.store t dst value with
      | some m => exec pc m
      | none => .stuck
    | none => .stuck
  | .op (.PreserveCopySlot t) :: .slot dest :: .slot src :: .slot preserve :: pc, m =>
    match m.load t dest with
    | some old =>
      match m.store t preserve old with
      | some m =>
        match m.load t src with
        | some value =>
          match m.store t dest value with
          | some m => exec pc m
          | none => .stuck
        | none => .stuck
      | none => .stuck
    | none => .stuck
  | .op (.Select t .rss) :: .slot a :: .slot b :: pc, m =>
    match m.load t a, m.load t b with
    | some operand2, some operand1 => exec pc (selectOp t m (m.reg .i32) operand2 operand1)
    | _, _ => .stuck
  | .op (.Select t .srs) :: .slot c :: .slot b :: pc, m =>
    match m.load .i32 c, m.load t b with
    | some condition, some operand1 => exec pc (selectOp t m condition (m.reg t) operand1)
    | _, _ => .stuck
  | .op (.Select t .ssr) :: .slot c :: .slot a :: pc, m =>
    match m.load .i32 c, m.load t a with
    | some condition, some operand2 => exec pc (selectOp t m condition operand2 (m.reg t))
    | _, _ => .stuck
  | .op (.Select t .sss) :: .slot c :: .slot a :: .slot b :: pc, m =>
    match m.load .i32 c, m.load t a, m.load t b with
    | some condition, some operand2, some operand1 =>
      exec pc (selectOp t m condition operand2 operand1)
    | _, _, _ => .stuck
  | .op .Const32 :: .word32 value :: .slot a :: pc, m =>
    match m.store .i32 a value with
    | some m => exec pc m
    | none => .stuck
  | .op .Const64 :: .word64 value :: .slot a :: pc, m =>
    match m.store .i64 a value with
    | some m => exec pc m
    | none => .stuck
  | _, _ => .stuck

end VelumOS.Source.M3
