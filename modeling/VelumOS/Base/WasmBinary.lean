import VelumOS.Base.Leb128
import VelumOS.Base.Wasm

/-!
# Function bodies in WebAssembly's binary format

An instruction is an opcode and its immediate, whose number may have any of its LEB128
forms. A body declares its locals in blocks of one type and ends with the opcode `end`.
-/
namespace VelumOS.Base.Wasm
open Leb128

/-! ## Opcodes -/

def Arith.offset : Arith → Nat
  | .add => 0
  | .sub => 1
  | .mul => 2
  | .div_s => 3
  | .div_u => 4
  | .rem_s => 5
  | .rem_u => 6
  | .and => 7
  | .or => 8
  | .xor => 9
  | .shl => 10
  | .shr_s => 11
  | .shr_u => 12
  | .rotl => 13
  | .rotr => 14

def Relation.offset : Relation → Nat
  | .eq => 0
  | .ne => 1
  | .lt_s => 2
  | .lt_u => 3
  | .gt_s => 4
  | .gt_u => 5
  | .le_s => 6
  | .le_u => 7
  | .ge_s => 8
  | .ge_u => 9

def Binary.opcode : Binary → UInt8
  | .arith .i32 op => UInt8.ofNat (0x6a + op.offset)
  | .arith .i64 op => UInt8.ofNat (0x7c + op.offset)
  | .relation .i32 op => UInt8.ofNat (0x46 + op.offset)
  | .relation .i64 op => UInt8.ofNat (0x51 + op.offset)

def Unary.opcode : Unary → UInt8
  | .eqz .i32 => 0x45
  | .eqz .i64 => 0x50
  | .clz .i32 => 0x67
  | .clz .i64 => 0x79
  | .ctz .i32 => 0x68
  | .ctz .i64 => 0x7a
  | .popcnt .i32 => 0x69
  | .popcnt .i64 => 0x7b
  | .extend8_s .i32 => 0xc0
  | .extend8_s .i64 => 0xc2
  | .extend16_s .i32 => 0xc1
  | .extend16_s .i64 => 0xc3
  | .extend32_s => 0xc4
  | .wrap => 0xa7
  | .extend_s => 0xac
  | .extend_u => 0xad

/-! ## Instructions -/

/-- A number in at most this many octets. -/
def NumberIn (limit : Nat) (octets : List UInt8) : Prop :=
  IsNumber octets ∧ octets.length ≤ limit

inductive Encodes : Instr → List UInt8 → Prop
  | const32 {octets : List UInt8} (number : NumberIn 5 octets) :
    Encodes (.const ⟨.i32, BitVec.ofInt 32 (signed octets)⟩) (0x41 :: octets)
  | const64 {octets : List UInt8} (number : NumberIn 10 octets) :
    Encodes (.const ⟨.i64, BitVec.ofInt 64 (signed octets)⟩) (0x42 :: octets)
  | localGet {octets : List UInt8} (number : NumberIn 5 octets) :
    Encodes (.localGet (BitVec.ofNat 32 (unsigned octets)).toNat) (0x20 :: octets)
  | localSet {octets : List UInt8} (number : NumberIn 5 octets) :
    Encodes (.localSet (BitVec.ofNat 32 (unsigned octets)).toNat) (0x21 :: octets)
  | localTee {octets : List UInt8} (number : NumberIn 5 octets) :
    Encodes (.localTee (BitVec.ofNat 32 (unsigned octets)).toNat) (0x22 :: octets)
  | drop : Encodes .drop [0x1a]
  | select : Encodes .select [0x1b]
  | nop : Encodes .nop [0x01]
  | unary (op : Unary) : Encodes (.unary op) [op.opcode]
  | binary (op : Binary) : Encodes (.binary op) [op.opcode]

/-- Octets that are a sequence of instructions. -/
inductive EncodesAll : List Instr → List UInt8 → Prop
  | nil : EncodesAll [] []
  | cons {instr : Instr} {instrs : List Instr} {octets rest : List UInt8}
    (first : Encodes instr octets) (others : EncodesAll instrs rest) :
    EncodesAll (instr :: instrs) (octets ++ rest)

/-! ## Bodies -/

/-- Locals of one type. -/
structure LocalBlock where
  count : BitVec 32
  type : ValType

/-- A function body: the locals behind the arguments, and the code. -/
structure Body where
  blocks : List LocalBlock
  instrs : List Instr

def ValType.code : ValType → UInt8
  | .i32 => 0x7f
  | .i64 => 0x7e

def Body.locals (body : Body) : List ValType :=
  body.blocks.flatMap fun block => List.replicate block.count.toNat block.type

inductive EncodesBlocks : List LocalBlock → List UInt8 → Prop
  | nil : EncodesBlocks [] []
  | cons {type : ValType} {blocks : List LocalBlock} {count rest : List UInt8}
    (number : NumberIn 5 count) (others : EncodesBlocks blocks rest) :
    EncodesBlocks (⟨BitVec.ofNat 32 (unsigned count), type⟩ :: blocks)
      (count ++ type.code :: rest)

/-- A body as it stands in the code section, behind its size. -/
inductive EncodesBody : Body → List UInt8 → Prop
  | intro {body : Body} {size number blocks code : List UInt8} (sized : NumberIn 5 size)
    (counted : NumberIn 5 number)
    (same : (BitVec.ofNat 32 (unsigned number)).toNat = body.blocks.length)
    (locals : EncodesBlocks body.blocks blocks) (instrs : EncodesAll body.instrs code) :
    EncodesBody body (size ++ (number ++ (blocks ++ (code ++ [0x0b]))))

/-! ## Calls -/

/-- A call on these arguments: the results, the first one first. -/
def Body.call (body : Body) (rets : List ValType) (args : List Value) :
    Option (Except Trap (List Value)) :=
  let zeros := body.locals.map fun type => ⟨type, 0⟩
  match run body.instrs ⟨args ++ zeros, []⟩ with
  | none => none
  | some (.error trap) => some (.error trap)
  | some (.ok s) =>
    if s.stack.reverse.map Value.type = rets then some (.ok s.stack.reverse) else none

/-- A call that returns is a run that ends with the results on the stack. -/
theorem Body.call_ok {body : Body} {rets : List ValType} {args results : List Value}
    (called : body.call rets args = some (.ok results)) :
    ∃ s, run body.instrs ⟨args ++ body.locals.map fun type => ⟨type, 0⟩, []⟩ = some (.ok s) ∧
      results = s.stack.reverse ∧ results.map Value.type = rets := by
  unfold Body.call at called
  dsimp only at called
  split at called
  · cases called
  · exact nomatch Option.some.inj called
  · next s ran =>
    split at called
    · next types =>
      obtain rfl := Except.ok.inj (Option.some.inj called)
      exact ⟨s, ran, rfl, types⟩
    · cases called

theorem Body.call_error {body : Body} {rets : List ValType} {args : List Value} {trap : Trap}
    (called : body.call rets args = some (.error trap)) :
    run body.instrs ⟨args ++ body.locals.map fun type => ⟨type, 0⟩, []⟩ = some (.error trap) := by
  unfold Body.call at called
  dsimp only at called
  split at called
  · cases called
  · next fault ran =>
    obtain rfl := Except.error.inj (Option.some.inj called)
    exact ran
  · split at called
    · exact nomatch Option.some.inj called
    · cases called

end VelumOS.Base.Wasm
