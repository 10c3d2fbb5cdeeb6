import VelumOS.Spec.CompilerOperators
import VelumOS.Base.WasmBinary

/-!
# Instructions

What the compiler emits for an instruction does to the machine what the instruction does
to the state of the language, and traps where it traps. For this no 64-bit local may be
set while two values of the stack refer to it, which `track` follows.
-/
namespace VelumOS.Spec.Compiler
open Base.Leb128 Base.Wasm Source.M3 Source.M3.Compilation WasmArithmetic

/-! ## References to locals -/

/-- The references to a local end where it is set. -/
def forget (index : Nat) (refs : List (Option Nat)) : List (Option Nat) :=
  refs.map fun ref => if ref = some index then none else ref

/-- Which local each value of the stack refers to, if any, behind an instruction. -/
def track : Instr → List (Option Nat) → List (Option Nat)
  | .const _, refs => none :: refs
  | .localGet index, refs => some index :: refs
  | .localSet index, refs => (forget index refs).tail
  | .localTee index, refs => forget index refs
  | .drop, refs => refs.tail
  | .select, refs => none :: refs.drop 3
  | .nop, refs => refs
  | .unary _, refs => none :: refs.drop 1
  | .binary _, refs => none :: refs.drop 2

/-- An instruction sets no 64-bit local that two values refer to. -/
def setsUnshared (types : List ValType) (refs : List (Option Nat)) : Instr → Bool
  | .localSet index | .localTee index =>
    types[index]? ≠ some .i64 || refs.count (some index) ≤ 1
  | _ => true

/-- No instruction of the code does. -/
def allUnshared (types : List ValType) : List (Option Nat) → List Instr → Bool
  | _, [] => true
  | refs, instr :: rest =>
    setsUnshared types refs instr && allUnshared types (track instr refs) rest

/-- The entry of a value, by the local that it refers to. -/
def Refers (base : List Entry) (ref : Option Nat) (e : Entry) : Prop :=
  match ref with
  | some index => base[index]? = some e
  | none => e ∉ base

def Tracks (base : List Entry) (refs : List (Option Nat)) (dyn : List Entry) : Prop :=
  List.Forall₂ (Refers base) refs dyn

/-! ## Simulation -/

/-- Words that do to the machine what the instruction does to the state. -/
def Simulates (final : Compilation) (base : List Entry) (instr : Instr)
    (words : List CodeWord) (dyn : List Entry) (w : State) (dyn' : List Entry) : Prop :=
  (∀ w', step instr w = some (.ok w') → Runs final base words dyn w dyn' w') ∧
  (∀ trap, step instr w = some (.error trap) → Traps final base words dyn w trap)

/-- The compiler takes an instruction to words that simulate it. -/
def Compiles (floor : Nat) (base : List Entry) (instr : Instr) (dyn : List Entry)
    (o o' : Compilation) : Prop :=
  ∃ words dyn', Passes floor base o words dyn' o' ∧
    (∀ refs, Tracks base refs dyn → Tracks base (track instr refs) dyn') ∧
    ∀ final w, Extends o' final → Simulates final base instr words dyn w dyn'

section Instrs
variable {floor : Nat} {base dyn : List Entry} {o o' final : Compilation} {w : State}
  {m : Machine}

theorem Tracks.drop {refs : List (Option Nat)} (above : List Entry) {below : List Entry}
    (tracks : Tracks base refs (above ++ below)) :
    Tracks base (refs.drop above.length) below := by
  have rest := List.forall₂_drop above.length tracks
  rwa [List.drop_left] at rest

theorem Tracks.moved {refs : List (Option Nat)} {dyn' : List Entry}
    (tracks : Tracks base refs dyn) (moved : Moved base dyn dyn') : Tracks base refs dyn' := by
  induction tracks generalizing dyn' with
  | nil =>
    cases moved
    exact .nil
  | @cons ref e refs dyn first _ ih =>
    cases moved with
    | cons same rest =>
      refine .cons ?_ (ih rest)
      rcases same with rfl | ⟨-, before, after⟩
      · exact first
      · cases ref with
        | none => exact after
        | some index => exact absurd (List.mem_of_getElem? first) before

/-- The references that the compiler finds are those that are tracked. -/
theorem Tracks.references_le {refs : List (Option Nat)} {index : Nat} {held : Entry}
    (tracks : Tracks base refs dyn) (valid : Valid floor base dyn o)
    (found : base[index]? = some held) :
    references held.slot dyn ≤ refs.count (some index) := by
  have all : ∀ e ∈ dyn, e.slot = held.slot → e = held :=
    fun e inside same => valid.reference_eq found inside same
  have only : ∀ j, base[j]? = some held → j = index := by
    intro j at_j
    by_contra other
    exact valid.base_apart at_j found other held.slot ⟨covers_self held, covers_self held⟩
  clear valid
  induction tracks with
  | nil => exact Nat.le_refl _
  | @cons ref e refs dyn first _ ih =>
    have rest := ih fun other inside => all other (by simp [inside])
    rw [references, List.countP_cons, List.count_cons]
    by_cases isRef : e.slot = held.slot
    · have same := all e (by simp) isRef
      subst same
      have which : ref = some index := by
        cases ref with
        | none => exact absurd (List.mem_of_getElem? found) first
        | some j => rw [only j first]
      simp only [which, decide_true, if_true, beq_self_eq_true]
      exact Nat.succ_le_succ rest
    · simp only [isRef, decide_false, Bool.false_eq_true, if_false, Nat.add_zero]
      exact Nat.le_add_right_of_le rest

theorem Tracks.forget {refs : List (Option Nat)} {index slot : Nat} {held : Entry}
    (tracks : Tracks base refs dyn) (valid : Valid floor base dyn o)
    (found : base[index]? = some held) (low : o.slotFirstDynamicIndex ≤ slot) :
    Tracks base (forget index refs) (dyn.map (moveTo held.slot slot)) := by
  have all : ∀ e ∈ dyn, e.slot = held.slot → e = held :=
    fun e inside same => valid.reference_eq found inside same
  have apart : ∀ j e, base[j]? = some e → e.slot = held.slot → j = index := by
    intro j e at_j same
    by_contra other
    refine valid.base_apart at_j found other held.slot ⟨?_, covers_self held⟩
    rw [← same]
    exact covers_self e
  have outside : ∀ type, (⟨slot, type⟩ : Entry) ∉ base :=
    fun type => valid.not_base (e := ⟨slot, type⟩) (.inr low)
  clear valid
  induction tracks with
  | nil => exact .nil
  | @cons ref e refs dyn first _ ih =>
    refine .cons ?_ (ih fun other inside => all other (by simp [inside]))
    unfold moveTo
    by_cases isRef : e.slot = held.slot
    · rw [if_pos isRef]
      cases ref with
      | none =>
        have same := all e (by simp) isRef
        subst same
        exact absurd (List.mem_of_getElem? found) first
      | some j =>
        dsimp only
        rw [apart j e first isRef, if_pos rfl]
        exact outside e.type
    · rw [if_neg isRef]
      cases ref with
      | none => exact first
      | some j =>
        have other : some j ≠ some index := by
          intro same
          cases same
          exact isRef (congrArg Entry.slot (Option.some.inj (first.symm.trans found)))
        dsimp only
        rw [if_neg other]
        exact first

/-! ## Operators -/

/-- The register is no local. -/
theorem Valid.register_not_base (valid : Valid floor base dyn o) (type : ValType) :
    (⟨reg0SlotAlias, type⟩ : Entry) ∉ base :=
  valid.not_base (e := ⟨reg0SlotAlias, type⟩) (.inl (Nat.le_refl _))

/-- The part of a simulation behind the words that prepare for it. -/
theorem Prepares.simulates {words later : List CodeWord} {dyn₁ dyn' : List Entry}
    {o₁ : Compilation} {instr : Instr} (prepares : Prepares floor base dyn o words dyn₁ o₁)
    (extends_ : Extends o₁ final)
    (simulates : Simulates final base instr later dyn₁ w dyn') :
    Simulates final base instr (words ++ later) dyn w dyn' :=
  ⟨fun w' steps => (prepares.runs final w extends_).trans (simulates.1 w' steps),
    fun trap steps => (simulates.2 trap steps).after (prepares.runs final w extends_)⟩

theorem getOpInfo_unary (op : Unary) : getOpInfo op.opcode = some
    ⟨0, op.target, unaryOpList ⟨op.source, (unaryMacro op).1⟩ (unaryMacro op).2⟩ := by
  rcases op with type | type | type | type | type | type | _ | _ | _ | _
  all_goals first | rfl | (cases type <;> rfl)

theorem getOpInfo_binary (op : Binary) : ∃ list, getOpInfo op.opcode = some
    ⟨-1, op.target, list⟩ ∧
    (list = binOpList ⟨op.source, (binaryMacro op).1⟩ (binaryMacro op).2 ∨
      list = commutativeBinOpList ⟨op.source, (binaryMacro op).1⟩ (binaryMacro op).2 ∧
        Commutes (binaryMacro op).2) := by
  rcases op with ⟨type, op⟩ | ⟨type, op⟩
  all_goals
    cases type <;> cases op
    all_goals first
      | exact ⟨_, rfl, .inl rfl⟩
      | exact ⟨_, rfl, .inr ⟨rfl, by simp [Commutes, binaryMacro, arithMacro, relationMacro]⟩⟩

theorem compiles_unary {op : Unary} (valid : Valid floor base dyn o)
    (done : o.compileOperator ⟨0, op.target,
      unaryOpList ⟨op.source, (unaryMacro op).1⟩ (unaryMacro op).2⟩ = .ok o') :
    Compiles floor base (.unary op) dyn o o' := by
  obtain ⟨words, dyn₁, o₁, top, below, prepares, rfl, free, passes⟩ :=
    compileUnary_spec valid done
  refine ⟨_, _, prepares.passes.trans passes, fun refs tracks => ?_, fun final w later => ?_⟩
  · exact .cons (valid.register_not_base op.target)
      (Tracks.drop [top] (tracks.moved prepares.moved))
  · have later₁ := passes.keeps.trans later
    have valid₁ := prepares.passes.valid
    refine prepares.simulates later₁ ⟨fun w' steps m pc holds => ?_, fun trap steps => ?_⟩
    · obtain ⟨a, rest, stack, same⟩ := step_unary steps
      cases same
      have both := holds.stack
      rw [stack, List.map_cons] at both
      obtain ⟨value, values⟩ := List.cons.inj both
      obtain ⟨slot, rfl, word⟩ := valueOf_eq value
      have run := exec_unary ⟨op.source, (unaryMacro op).1⟩ (unaryMacro op).2 slot pc
        (fun inSlot => holds.operand valid₁ later₁ (by simp) inSlot)
      refine ⟨_, run, ?_⟩
      rw [word, ← opUnary_exact op a]
      exact holds.result valid₁ (fun e inside => by simp [inside]) free values op.target _
    · obtain ⟨a, rest, -, same⟩ := step_unary steps
      cases same

theorem compiles_binary {op : Binary} {list : List (Option Operation)}
    (listed : list = binOpList ⟨op.source, (binaryMacro op).1⟩ (binaryMacro op).2 ∨
      list = commutativeBinOpList ⟨op.source, (binaryMacro op).1⟩ (binaryMacro op).2 ∧
        Commutes (binaryMacro op).2)
    (valid : Valid floor base dyn o)
    (done : o.compileOperator ⟨-1, op.target, list⟩ = .ok o') :
    Compiles floor base (.binary op) dyn o o' := by
  obtain ⟨words, dyn₁, o₁, top, second, below, form, prepares, rfl, free, fits, passes⟩ :=
    compileBinary_spec listed valid done
  refine ⟨_, _, prepares.passes.trans passes, fun refs tracks => ?_, fun final w later => ?_⟩
  · exact .cons (valid.register_not_base op.target)
      (Tracks.drop [top, second] (tracks.moved prepares.moved))
  · have later₁ := passes.keeps.trans later
    have valid₁ := prepares.passes.valid
    -- one run of the operation, whether it traps or not
    have runs : ∀ m pc r, Holds final base (top :: second :: below) w m →
        step (.binary op) w = some r → ∃ a b rest,
          below.map (valueOf m) = rest ∧
          r = (op.apply a b).map (fun word => { w with stack := ⟨op.target, word⟩ :: rest }) ∧
          exec (.op (.Binary ⟨op.source, (binaryMacro op).1⟩ (binaryMacro op).2 form) ::
              (operandWords top ++ operandWords second) ++ pc) m =
            binaryOutcome pc m
              (opBinary ⟨op.source, (binaryMacro op).1⟩ (binaryMacro op).2 a b) := by
      intro m pc r holds steps
      obtain ⟨a, b, rest, stack, rfl⟩ := step_binary steps
      have both := holds.stack
      rw [stack, List.map_cons, List.map_cons] at both
      obtain ⟨valueB, both⟩ := List.cons.inj both
      obtain ⟨valueA, values⟩ := List.cons.inj both
      obtain ⟨slot, rfl, wordB⟩ := valueOf_eq valueB
      obtain ⟨slot', rfl, wordA⟩ := valueOf_eq valueA
      have run := exec_binary ⟨op.source, (binaryMacro op).1⟩ pc fits
        (fun inSlot => holds.operand valid₁ later₁ (by simp) inSlot)
        (fun inSlot => holds.operand valid₁ later₁ (by simp) inSlot)
      rw [wordA, wordB] at run
      exact ⟨a, b, rest, values, rfl, run⟩
    refine prepares.simulates later₁ ⟨fun w' steps m pc holds => ?_,
      fun trap steps m pc holds => ?_⟩
    · obtain ⟨a, b, rest, values, result, run⟩ := runs m pc _ holds steps
      have exact_ := opBinary_exact op a b
      cases computed : opBinary ⟨op.source, (binaryMacro op).1⟩ (binaryMacro op).2 a b with
      | error trap =>
        rw [computed] at exact_
        rw [← exact_] at result
        cases result
      | ok r0 =>
        rw [computed] at exact_ run
        rw [← exact_] at result
        obtain rfl := Except.ok.inj result
        exact ⟨_, run, holds.result valid₁ (fun e inside => by simp [inside]) free values
          op.target r0⟩
    · obtain ⟨a, b, rest, values, result, run⟩ := runs m pc _ holds steps
      have exact_ := opBinary_exact op a b
      cases computed : opBinary ⟨op.source, (binaryMacro op).1⟩ (binaryMacro op).2 a b with
      | error fault =>
        rw [computed] at exact_ run
        rw [← exact_] at result
        obtain rfl := Except.error.inj result
        exact run
      | ok r0 =>
        rw [computed] at exact_
        rw [← exact_] at result
        cases result

theorem compiles_select (valid : Valid floor base dyn o) (done : o.compileSelect = .ok o') :
    Compiles floor base .select dyn o o' := by
  obtain ⟨words, dyn₁, o₁, c, s, f, below, prepares, rfl, free, one, passes⟩ :=
    compileSelect_spec valid done
  refine ⟨_, _, prepares.passes.trans passes, fun refs tracks => ?_, fun final w later => ?_⟩
  · exact .cons (valid.register_not_base s.type)
      (Tracks.drop [c, s, f] (tracks.moved prepares.moved))
  · have later₁ := passes.keeps.trans later
    have valid₁ := prepares.passes.valid
    refine prepares.simulates later₁ ⟨fun w' steps m pc holds => ?_, fun trap steps => ?_⟩
    · obtain ⟨condition, type, second, first, rest, stack, same⟩ := step_select steps
      cases same
      have both := holds.stack
      rw [stack, List.map_cons, List.map_cons, List.map_cons] at both
      obtain ⟨valueC, both⟩ := List.cons.inj both
      obtain ⟨valueS, both⟩ := List.cons.inj both
      obtain ⟨valueF, values⟩ := List.cons.inj both
      obtain ⟨slotC, rfl, wordC⟩ := valueOf_eq valueC
      obtain ⟨slotS, rfl, wordS⟩ := valueOf_eq valueS
      obtain ⟨slotF, rfl, wordF⟩ := valueOf_eq valueF
      have run := exec_select pc one
        (fun inSlot => holds.operand valid₁ later₁ (by simp) inSlot)
        (fun inSlot => holds.operand valid₁ later₁ (by simp) inSlot)
        (fun inSlot => holds.operand valid₁ later₁ (by simp) inSlot)
      refine ⟨_, run, ?_⟩
      rw [wordC, wordS, wordF]
      have after := holds.result valid₁ (fun e inside => by simp [inside]) free values type
        ((if condition ≠ 0 then first else second).signExtend 64)
      have low := toReg_low ⟨type, true⟩ (if condition ≠ 0 then first else second)
      simp only [CType.toReg, if_true, CType.width] at low
      rw [low] at after
      have chosen : (if condition = 0 then second else first) =
          if condition ≠ 0 then first else second := (ite_not _ _ _).symm
      rw [chosen]
      exact after
    · obtain ⟨condition, type, second, first, rest, -, same⟩ := step_select steps
      cases same

/-! ## The other instructions -/

theorem compiles_drop (valid : Valid floor base dyn o) (done : o.pop = .ok o') :
    Compiles floor base .drop dyn o o' := by
  obtain ⟨e, below, rfl⟩ := valid.of_pop done
  refine ⟨[], below, valid.pop done, fun refs tracks => ?_, fun final w later =>
    ⟨fun w' steps => Runs.nil fun m holds => ?_, fun trap steps => ?_⟩⟩
  · have rest := Tracks.drop [e] tracks
    rwa [List.length_singleton, List.drop_one] at rest
  · obtain ⟨locals, stack⟩ := w
    cases stack with
    | nil => cases steps
    | cons value rest =>
      simp only [step, Option.some.injEq, Except.ok.injEq] at steps
      subst steps
      have both := holds.stack
      rw [List.map_cons] at both
      exact ⟨holds.room, holds.locals, (List.cons.inj both).2, holds.table⟩
  · obtain ⟨locals, stack⟩ := w
    cases stack <;> simp [step] at steps

theorem compiles_const {type : ValType} {value : BitVec 64} (valid : Valid floor base dyn o)
    (done : o.pushConst value type = .ok o') :
    Compiles floor base (.const ⟨type, value.setWidth type.width⟩) dyn o o' := by
  obtain ⟨words, slot, passes, outside, runs⟩ := pushConst_spec valid done
  refine ⟨words, _, passes, fun refs tracks => .cons outside tracks, fun final w later =>
    ⟨fun w' steps => ?_, fun trap steps => ?_⟩⟩
  · simp only [step, Option.some.injEq, Except.ok.injEq] at steps
    subst steps
    exact runs final w later
  · simp [step] at steps

theorem compiles_localGet {index : Nat} (valid : Valid floor base dyn o)
    (done : o.getLocal index = .ok o') : Compiles floor base (.localGet index) dyn o o' := by
  obtain ⟨held, found, passes, runs⟩ := getLocal_spec valid done
  refine ⟨[], _, passes, fun refs tracks => .cons found tracks, fun final w later =>
    ⟨fun w' steps => runs final w w' later steps, fun trap steps => ?_⟩⟩
  simp only [step, bind, Option.bind_eq_some_iff] at steps
  obtain ⟨value, -, steps⟩ := steps
  simp at steps

theorem compiles_setLocal {index : Nat} (tee : Bool) (valid : Valid floor base dyn o)
    (unshared : ∀ held, base[index]? = some held → Unshared held dyn)
    (done : o.setLocal tee index = .ok o') :
    Compiles floor base (if tee then .localTee index else .localSet index) dyn o o' := by
  obtain ⟨held, words, slot, found, low, passes, runs⟩ := setLocal_spec valid unshared done
  refine ⟨words, _, passes, fun refs tracks => ?_, fun final w later =>
    ⟨fun w' steps => runs final w w' later steps, fun trap steps => ?_⟩⟩
  · have moved := tracks.forget valid found low
    cases tee with
    | true => exact moved
    | false =>
      have rest := List.forall₂_drop 1 moved
      rw [List.drop_one, List.drop_one] at rest
      exact rest
  · obtain ⟨locals, stack⟩ := w
    cases stack with
    | nil => cases tee <;> cases steps
    | cons value rest =>
      cases tee
      all_goals
        simp only [step, if_true, Bool.false_eq_true, if_false, bind,
          Option.bind_eq_some_iff] at steps
        obtain ⟨held, -, steps⟩ := steps
        split at steps <;> simp at steps

/-! ## Opcodes -/

theorem unary_opcode (others : Others) (rets : List ValType) (op : Unary) :
    compileOpcode others rets o op.opcode = o.compileOperator
      ⟨0, op.target, unaryOpList ⟨op.source, (unaryMacro op).1⟩ (unaryMacro op).2⟩ ∧
    op.opcode ≠ 0x05 ∧ op.opcode ≠ 0x0b := by
  refine ⟨?_, ?_⟩
  · have row := getOpInfo_unary op
    have other : compileOpcode others rets o op.opcode =
        (getOpInfo op.opcode).elim (others.row op.opcode o) o.compileOperator := by
      rcases op with type | type | type | type | type | type | _ | _ | _ | _
      all_goals first | rfl | (cases type <;> rfl)
    rw [other, row, Option.elim_some]
  · rcases op with type | type | type | type | type | type | _ | _ | _ | _
    all_goals first | decide | (cases type <;> decide)

theorem binary_opcode (others : Others) (rets : List ValType) (op : Binary) :
    compileOpcode others rets o op.opcode =
      (getOpInfo op.opcode).elim (others.row op.opcode o) o.compileOperator ∧
    op.opcode ≠ 0x05 ∧ op.opcode ≠ 0x0b := by
  rcases op with ⟨type, op⟩ | ⟨type, op⟩
  all_goals
    cases type <;> cases op
    all_goals exact ⟨rfl, by decide⟩

/-- An opcode with its immediate, as the compiler's table has it. -/
theorem compileOpcode_spec {others : Others} {rets : List ValType} {instr : Instr}
    {octets rest tail : List UInt8} {opcode : UInt8} {refs : List (Option Nat)}
    (encodes : Encodes instr octets) (split : octets = opcode :: tail)
    (valid : Valid floor base dyn o) (tracks : Tracks base refs dyn)
    (unshared : setsUnshared (base.map Entry.type) refs instr = true)
    (done : compileOpcode others rets { o with wasm := tail ++ rest } opcode = .ok o') :
    opcode ≠ 0x05 ∧ opcode ≠ 0x0b ∧ Compiles floor base instr dyn { o with wasm := rest } o' := by
  have valid' : Valid floor base dyn { o with wasm := rest } := valid.read rest o.previousOpcode
  have index : ∀ {octets}, NumberIn 5 octets → readLEB_u32 (octets ++ rest) =
      .ok (BitVec.ofNat 32 (unsigned octets), rest) :=
    fun number => readLebU_number (by decide) number.1 number.2
  have sets : ∀ {index}, setsUnshared (base.map Entry.type) refs (.localSet index) = true →
      ∀ held, base[index]? = some held → Unshared held dyn := by
    intro index test held found wide
    simp only [setsUnshared, List.getElem?_map, found, Option.map_some, wide, ne_eq,
      not_true_eq_false, decide_false, Bool.false_or, decide_eq_true_eq] at test
    exact Nat.le_trans (tracks.references_le valid found) test
  cases encodes with
  | @const32 digits number =>
    obtain ⟨rfl, rfl⟩ := List.cons.inj split
    have read : readLEB_i32 (digits ++ rest) = .ok (BitVec.ofInt 32 (signed digits), rest) :=
      readLebI_number (by decide) number.1 number.2
    obtain ⟨⟨value, wasm⟩, first, push⟩ := ok_of_bind done
    change readLEB_i32 (digits ++ rest) = _ at first
    rw [read] at first
    obtain ⟨rfl, rfl⟩ := Prod.mk.inj (Except.ok.inj first)
    refine ⟨by decide, by decide, ?_⟩
    have low := toReg_low .i32 (BitVec.ofInt 32 (signed digits))
    have compiles := compiles_const valid' push
    rw [show ((BitVec.ofInt 32 (signed digits)).signExtend 64).setWidth (ValType.width .i32) =
      BitVec.ofInt 32 (signed digits) from low] at compiles
    exact compiles
  | @const64 digits number =>
    obtain ⟨rfl, rfl⟩ := List.cons.inj split
    have read : readLEB_i64 (digits ++ rest) = .ok (BitVec.ofInt 64 (signed digits), rest) :=
      readLebI_number (by decide) number.1 number.2
    obtain ⟨⟨value, wasm⟩, first, push⟩ := ok_of_bind done
    change readLEB_i64 (digits ++ rest) = _ at first
    rw [read] at first
    obtain ⟨rfl, rfl⟩ := Prod.mk.inj (Except.ok.inj first)
    refine ⟨by decide, by decide, ?_⟩
    have compiles := compiles_const valid' push
    rw [show (BitVec.ofInt 64 (signed digits)).setWidth (ValType.width .i64) =
      BitVec.ofInt 64 (signed digits) from BitVec.setWidth_eq _] at compiles
    exact compiles
  | @localGet digits number =>
    obtain ⟨rfl, rfl⟩ := List.cons.inj split
    obtain ⟨⟨value, wasm⟩, first, get⟩ := ok_of_bind done
    change readLEB_u32 (digits ++ rest) = _ at first
    rw [index number] at first
    obtain ⟨rfl, rfl⟩ := Prod.mk.inj (Except.ok.inj first)
    exact ⟨by decide, by decide, compiles_localGet valid' get⟩
  | @localSet digits number =>
    obtain ⟨rfl, rfl⟩ := List.cons.inj split
    obtain ⟨⟨value, wasm⟩, first, set⟩ := ok_of_bind done
    change readLEB_u32 (digits ++ rest) = _ at first
    rw [index number] at first
    obtain ⟨rfl, rfl⟩ := Prod.mk.inj (Except.ok.inj first)
    exact ⟨by decide, by decide, compiles_setLocal false valid' (sets unshared) set⟩
  | @localTee digits number =>
    obtain ⟨rfl, rfl⟩ := List.cons.inj split
    obtain ⟨⟨value, wasm⟩, first, set⟩ := ok_of_bind done
    change readLEB_u32 (digits ++ rest) = _ at first
    rw [index number] at first
    obtain ⟨rfl, rfl⟩ := Prod.mk.inj (Except.ok.inj first)
    exact ⟨by decide, by decide, compiles_setLocal true valid' (sets unshared) set⟩
  | drop =>
    obtain ⟨rfl, rfl⟩ := List.cons.inj split
    exact ⟨by decide, by decide, compiles_drop valid' done⟩
  | select =>
    obtain ⟨rfl, rfl⟩ := List.cons.inj split
    exact ⟨by decide, by decide, compiles_select valid' done⟩
  | nop =>
    obtain ⟨rfl, rfl⟩ := List.cons.inj split
    obtain rfl := Except.ok.inj done
    refine ⟨by decide, by decide, [], dyn, valid'.passes, fun refs tracks => tracks,
      fun final w later => ⟨fun w' steps => Runs.nil fun m holds => ?_, fun trap steps => ?_⟩⟩
    · obtain rfl := Except.ok.inj (Option.some.inj steps)
      exact holds
    · exact nomatch Option.some.inj steps
  | unary op =>
    obtain ⟨rfl, rfl⟩ := List.cons.inj split
    obtain ⟨row, ne⟩ := unary_opcode (o := { o with wasm := rest }) others rets op
    exact ⟨ne.1, ne.2, compiles_unary valid' (row.symm.trans done)⟩
  | binary op =>
    obtain ⟨rfl, rfl⟩ := List.cons.inj split
    obtain ⟨row, ne⟩ := binary_opcode (o := { o with wasm := rest }) others rets op
    obtain ⟨list, info, listed⟩ := getOpInfo_binary op
    rw [info] at row
    exact ⟨ne.1, ne.2, compiles_binary listed valid' (row.symm.trans done)⟩

end Instrs

end VelumOS.Spec.Compiler
