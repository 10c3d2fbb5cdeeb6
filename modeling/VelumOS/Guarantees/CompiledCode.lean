import VelumOS.Spec.CompilerFunctions

/-!
# Compiled code

A function of the fragment that the compiler takes computes what its body means, on any
machine with room for its frame: the same results, in the slots of the results, and the
same traps. It reads and writes no slot outside that room.
-/
namespace VelumOS.Guarantees.CompiledCode
open Base.Wasm Source.M3 Source.M3.Compilation Spec.Compiler

/-- The compiled function means its body: the same results, the same traps, and no
overflow of the stack where there is room for its frame, which is never large. -/
theorem compiled_function_exact {others : Others} {type : FunctionType} {body : Body}
    {wasm : List UInt8} {f : M3Function} (encodes : EncodesBody body wasm)
    (unshared : allUnshared (type.args ++ body.locals) [] body.instrs = true)
    (compiled : compileFunction others type wasm = .ok f) {m : Machine} {args : List Value}
    (typed : args.map Value.type = type.args)
    (placed : ArgsAt m (type.rets.length * ioSlotCount) args) :
    f.maxStackSlots ≤ maxFunctionSlots ∧
    (m.room ≤ f.maxStackSlots → f.run m = .stackOverflow) ∧
    (f.maxStackSlots < m.room →
      (∀ results, body.call type.rets args = some (.ok results) →
        ∃ m', f.run m = .returned m' ∧ ResultsAt m' results) ∧
      ∀ trap, body.call type.rets args = some (.error trap) → f.run m = .trapped trap) := by
  have means := compileFunction_means encodes unshared compiled
  exact ⟨means.small, means.run typed placed⟩

/-! ## A function with two arguments -/

/-- No other opcodes and no other locals. -/
def noOthers : Others := ⟨fun _ _ => .error .noOperation, fun _ _ => .error .invalidTypeId⟩

/-- `(x + y) * 3`, where the slot of `x` is set while its old value is on the stack. -/
def scaledSum : Body :=
  ⟨[], [.localGet 0, .localGet 1, .localSet 0, .localGet 0, .binary (.arith .i32 .add),
    .const ⟨.i32, 3⟩, .binary (.arith .i32 .mul)]⟩

def scaledSumWasm : List UInt8 :=
  [14, 0, 0x20, 0, 0x20, 1, 0x21, 0, 0x20, 0, 0x6a, 0x41, 3, 0x6c, 0x0b]

theorem encodes_scaledSum : EncodesBody scaledSum scaledSumWasm := by
  have one : ∀ n : UInt8, n.toNat < 128 → NumberIn 5 [n] := fun n small =>
    ⟨decide_eq_false (Nat.not_le.mpr small), Nat.le_of_ble_eq_true rfl⟩
  have code : EncodesAll scaledSum.instrs
      ([0x20, 0, 0x20, 1, 0x21, 0, 0x20, 0, 0x6a, 0x41, 3, 0x6c] : List UInt8) :=
    .cons (.localGet (one 0 (by decide))) (.cons (.localGet (one 1 (by decide)))
      (.cons (.localSet (one 0 (by decide))) (.cons (.localGet (one 0 (by decide)))
        (.cons (.binary (.arith .i32 .add)) (.cons (.const32 (one 3 (by decide)))
          (.cons (.binary (.arith .i32 .mul)) .nil))))))
  have whole : EncodesBody scaledSum ([14] ++ ([0] ++ ([] ++ (_ ++ [0x0b])))) :=
    .intro (one 14 (by decide)) (one 0 (by decide)) rfl .nil code
  exact whole

/-- A stack with `4` and `5` behind one result. -/
def fourAndFive : Machine :=
  ⟨fun slot => if slot = 2 then 4 else if slot = 4 then 5 else 0, 100, 0⟩

theorem compiled_function_exact_scaledSum :
    ∃ f m', compileFunction noOthers ⟨[.i32, .i32], [.i32]⟩ scaledSumWasm = .ok f ∧
      f.run fourAndFive = .returned m' ∧ m'.word .i32 0 = 27#32 := by
  obtain ⟨f, compiled, room⟩ : ∃ f, compileFunction noOthers ⟨[.i32, .i32], [.i32]⟩
      scaledSumWasm = .ok f ∧ f.maxStackSlots < 100 := ⟨_, rfl, by decide⟩
  have placed : ArgsAt fourAndFive (1 * ioSlotCount) [⟨.i32, 4⟩, ⟨.i32, 5⟩] := by
    intro i value found
    match i, found with
    | 0, found =>
      obtain rfl := Option.some.inj found
      rfl
    | 1, found =>
      obtain rfl := Option.some.inj found
      rfl
  obtain ⟨m', returned, results⟩ := ((compiled_function_exact encodes_scaledSum (by decide)
    compiled rfl placed).2.2 room).1 [⟨.i32, 27⟩] (by decide)
  exact ⟨f, m', compiled, returned, results 0 _ rfl⟩

/-! ## A local that two values refer to

The condition is needed: the second slot of a kept 64-bit value is counted once for all
its references, so it is free again when the first of them is popped. -/

def keptTwice : Body :=
  ⟨[], [.localGet 0, .localGet 0, .const ⟨.i64, 0⟩, .localSet 0, .drop, .localGet 1,
    .unary (.eqz .i32), .localGet 1, .unary (.eqz .i32), .drop, .drop]⟩

def keptTwiceWasm : List UInt8 :=
  [18, 0, 0x20, 0, 0x20, 0, 0x42, 0, 0x21, 0, 0x1a, 0x20, 1, 0x45, 0x20, 1, 0x45, 0x1a, 0x1a,
    0x0b]

/-- A stack with `7 * 2 ^ 32 + 5` and `0` behind one result. -/
def sevenAndFive : Machine :=
  ⟨fun slot => if slot = 2 then 5 else if slot = 3 then 7 else 0, 100, 0⟩

/-- The first result of a run that returns. -/
def firstResult (type : ValType) : Outcome → Option (BitVec type.width)
  | .returned m => some (m.word type 0)
  | _ => none

/-- The first argument is to be returned, and comes back with another upper half. -/
theorem shared_local_overwritten :
    allUnshared [.i64, .i32] [] keptTwice.instrs = false ∧
    keptTwice.call [.i64] [⟨.i64, 0x700000005⟩, ⟨.i32, 0⟩] = some (.ok [⟨.i64, 0x700000005⟩]) ∧
    ((compileFunction noOthers ⟨[.i64, .i32], [.i64]⟩ keptTwiceWasm).toOption.bind fun f =>
      firstResult .i64 (f.run sevenAndFive)) = some 0x100000005#64 :=
  ⟨by decide, by decide, by rfl⟩

end VelumOS.Guarantees.CompiledCode
