import VelumOS.Spec.CompilerInstrs

/-!
# Bodies

The words of a sequence of instructions simulate its run, by induction on the sequence.
Behind them the results are copied to the slots where the caller looks for them, below
all the slots that the body uses.
-/
namespace VelumOS.Spec.Compiler
open Base.Wasm Source.M3 Source.M3.Compilation

/-! ## Sequences -/

/-- Words that do to the machine what a run does to the state. -/
def SimulatesRun (final : Compilation) (base : List Entry) (instrs : List Instr)
    (words : List CodeWord) (dyn : List Entry) (w : State) (dyn' : List Entry) : Prop :=
  (∀ w', run instrs w = some (.ok w') → Runs final base words dyn w dyn' w') ∧
  (∀ trap, run instrs w = some (.error trap) → Traps final base words dyn w trap)

section Blocks
variable {floor : Nat} {base dyn dyn' : List Entry} {o o' final : Compilation} {w : State}
  {m : Machine} {words later : List CodeWord}

theorem Traps.append {trap : Trap} (traps : Traps final base words dyn w trap) :
    Traps final base (words ++ later) dyn w trap := by
  intro m pc holds
  rw [List.append_assoc]
  exact traps m (later ++ pc) holds

theorem SimulatesRun.nil : SimulatesRun final base [] [] dyn w dyn := by
  refine ⟨fun w' steps => Runs.nil fun m holds => ?_, fun trap steps => ?_⟩
  · obtain rfl := Except.ok.inj (Option.some.inj steps)
    exact holds
  · exact nomatch Option.some.inj steps

theorem SimulatesRun.cons {instr : Instr} {instrs : List Instr} {dyn₁ : List Entry}
    (first : Simulates final base instr words dyn w dyn₁)
    (others : ∀ w₁, SimulatesRun final base instrs later dyn₁ w₁ dyn') :
    SimulatesRun final base (instr :: instrs) (words ++ later) dyn w dyn' := by
  unfold SimulatesRun
  rw [run]
  cases steps : step instr w with
  | none => exact ⟨fun w' ends => (nomatch ends), fun trap ends => (nomatch ends)⟩
  | some result =>
    cases result with
    | error fault =>
      refine ⟨fun w' ends => (nomatch Option.some.inj ends), fun trap ends => ?_⟩
      obtain rfl := Except.error.inj (Option.some.inj ends)
      exact (first.2 fault steps).append
    | ok w₁ =>
      have runs := first.1 w₁ steps
      exact ⟨fun w' ends => runs.trans ((others w₁).1 w' ends),
        fun trap ends => ((others w₁).2 trap ends).after runs⟩

/-- The compiler's state between two instructions. -/
theorem Passes.next {o₁ : Compilation} {wasm behind : List UInt8} {opcode : UInt8}
    (before : Passes floor base { o with wasm := wasm } words dyn o')
    (after : Passes floor base { o' with previousOpcode := opcode, wasm := behind } later dyn' o₁) :
    Passes floor base { o with wasm := behind } (words ++ later) dyn' o₁ := by
  have keeps : Extends o o' :=
    ⟨before.keeps.firstConst, before.keeps.firstDynamic, before.keeps.maxStack,
      before.keeps.table⟩
  have keeps' : Extends o' o₁ :=
    ⟨after.keeps.firstConst, after.keeps.firstDynamic, after.keeps.maxStack, after.keeps.table⟩
  have whole := keeps.trans keeps'
  refine ⟨after.valid, ⟨whole.firstConst, whole.firstDynamic, whole.maxStack, whole.table⟩, ?_,
    after.wasm⟩
  rw [after.page, ← List.append_assoc]
  exact congrArg (· ++ later) before.page

theorem encodes_ne_nil {instr : Instr} {octets : List UInt8} (encodes : Encodes instr octets) :
    ∃ opcode tail, octets = opcode :: tail := by
  cases encodes <;> exact ⟨_, _, rfl⟩

/-- The statements of a body up to its `end`. -/
theorem compileBlock_spec {others : Others} {rets : List ValType} {instrs : List Instr}
    {octets behind : List UInt8} {refs : List (Option Nat)} {fuel : Nat}
    (encodes : EncodesAll instrs octets) (valid : Valid floor base dyn o)
    (tracks : Tracks base refs dyn)
    (unshared : allUnshared (base.map Entry.type) refs instrs = true)
    (source : o.wasm = octets ++ 0x0b :: behind)
    (done : compileBlockStatements others rets fuel o = .ok o') :
    ∃ words dyn' o₁ last, Passes floor base { o with wasm := behind } words dyn' o₁ ∧
      o₁.compileEnd rets = .ok last ∧ o' = { last with previousOpcode := 0x0b } ∧
      ∀ final w, Extends o₁ final → SimulatesRun final base instrs words dyn w dyn' := by
  induction encodes generalizing o dyn refs fuel with
  | nil =>
    cases fuel with
    | zero => cases done
    | succ fuel =>
      rw [compileBlockStatements, source] at done
      obtain ⟨last, ends, rest⟩ := ok_of_bind done
      rw [if_neg (by decide), if_pos rfl] at rest
      have valid' : Valid floor base dyn { o with wasm := behind } :=
        valid.read behind o.previousOpcode
      exact ⟨[], dyn, _, last, valid'.passes, ends, (Except.ok.inj rest).symm,
        fun final w later => SimulatesRun.nil⟩
  | @cons instr instrs octets rest encodes others ih =>
    cases fuel with
    | zero => cases done
    | succ fuel =>
      obtain ⟨opcode, tail, split⟩ := encodes_ne_nil encodes
      rw [List.append_assoc] at source
      rw [allUnshared, Bool.and_eq_true] at unshared
      rw [compileBlockStatements, source, split, List.cons_append] at done
      obtain ⟨o₂, first, next⟩ := ok_of_bind done
      obtain ⟨notElse, notEnd, words, dyn₁, passes, tracked, simulates⟩ :=
        compileOpcode_spec encodes split valid tracks unshared.1 first
      rw [if_neg notElse, if_neg notEnd] at next
      obtain ⟨later, dyn', o₁, last, passes', ends, same, simulates'⟩ :=
        ih (passes.valid.read o₂.wasm opcode) (tracked refs tracks) unshared.2 passes.wasm next
      refine ⟨words ++ later, dyn', o₁, last, passes.next passes', ends, same,
        fun final w extends_ => ?_⟩
      have keeps : Extends o₂ o₁ := ⟨passes'.keeps.firstConst, passes'.keeps.firstDynamic,
        passes'.keeps.maxStack, passes'.keeps.table⟩
      exact SimulatesRun.cons (simulates final w (keeps.trans extends_))
        fun w₁ => simulates' final w₁ extends_

/-! ## Results -/

/-- The words of `ReturnValues`. -/
def resultWords : Nat → List Entry → List CodeWord
  | _, [] => []
  | slot, e :: below =>
    copyWords (slot - ioSlotCount) e ++ resultWords (slot - ioSlotCount) below

theorem emit_emit (o : Compilation) (words later : List CodeWord) :
    (o.emit words).emit later = o.emit (words ++ later) := by
  simp [Compilation.emit]

theorem returnValues_spec {rets : List ValType} {slot : Nat} {stack : List Entry}
    (done : returnValues rets slot stack o = .ok o') :
    ∃ taken rest, stack = taken ++ rest ∧ taken.map Entry.type = rets ∧
      o' = o.emit (resultWords slot taken) := by
  induction rets generalizing slot stack o with
  | nil =>
    obtain rfl := Except.ok.inj done
    exact ⟨[], stack, rfl, rfl, by simp [Compilation.emit, resultWords]⟩
  | cons type rets ih =>
    cases stack with
    | nil => cases done
    | cons e below =>
      rw [returnValues] at done
      split at done
      · next same =>
        obtain ⟨taken, rest, rfl, types, rfl⟩ := ih done
        refine ⟨e :: taken, rest, rfl, by rw [List.map_cons, types, same], ?_⟩
        rw [copyEntryToSlot_eq, emit_emit]
        rfl
      · cases done

/-- A write below the slots of the body changes no value. -/
theorem Holds.writeResult (holds : Holds final base dyn w m) (valid : Valid floor base dyn o)
    (later : Extends o final) {slot : Nat} {t : ValType}
    (low : slot + getTypeNumSlots t ≤ floor) (v : BitVec t.width) :
    Holds final base dyn w (m.write t slot v) := by
  have constHigh := Nat.le_trans valid.constLow valid.constHigh
  have floorLow := valid.floorLow
  have outside : ∀ s, floor ≤ s → (m.write t slot v).slots s = m.slots s := by
    intro s above
    refine write_slots m v ?_
    rintro ⟨-, below⟩
    dsimp only at below
    omega
  refine ⟨by rw [write_room]; exact holds.room, ?_, ?_, ?_⟩
  · rw [← holds.locals]
    refine List.map_congr_left fun e inside =>
      valueOf_congr (fun _ => write_r0 _ _ _ _) fun s covered => outside s ?_
    exact Nat.le_trans (valid.locals e inside).1 covered.1
  · rw [← holds.stack]
    refine List.map_congr_left fun e inside =>
      valueOf_congr (fun _ => write_r0 _ _ _ _) fun s covered => outside s ?_
    have above := covered.1
    rcases valid.placed e inside with inReg | isLocal | ⟨constant, -⟩ | ⟨own, -⟩
    · have high : o.slotFirstDynamicIndex < reg0SlotAlias :=
        Nat.lt_trans valid.dynamicHigh (by decide)
      omega
    · exact Nat.le_trans (valid.locals e isLocal).1 above
    · omega
    · omega
  · intro s constant below used
    rw [outside s]
    · exact holds.table s constant below used
    · rw [later.firstConst] at constant
      omega

/-- The values in the slots of the results, the last one first. -/
def InSlots (m : Machine) : Nat → List Value → Prop
  | _, [] => True
  | slot, value :: below =>
    m.word value.type (slot - ioSlotCount) = value.word ∧ InSlots m (slot - ioSlotCount) below

/-- The copies put every value where the caller looks for it. -/
theorem exec_resultWords (valid : Valid floor base dyn o) (extends_ : Extends o final)
    {taken : List Entry} (slot : Nat) (pc : List CodeWord) (part : ∀ e ∈ taken, e ∈ dyn)
    (low : slot ≤ floor) (enough : taken.length * ioSlotCount ≤ slot)
    (holds : Holds final base dyn w m) :
    ∃ m', exec (resultWords slot taken ++ pc) m = exec pc m' ∧ Holds final base dyn w m' ∧
      InSlots m' slot (taken.map (valueOf m)) ∧ ∀ s, slot ≤ s → m'.slots s = m.slots s := by
  induction taken generalizing slot m with
  | nil => exact ⟨m, rfl, holds, trivial, fun _ _ => rfl⟩
  | cons e below ih =>
    have some := numSlots_le e.type
    rw [List.length_cons] at enough
    simp only [ioSlotCount] at enough ⊢
    have dest : slot - 2 + getTypeNumSlots e.type ≤ slot := by omega
    have room : slot ≤ m.room := by
      have floorLow := valid.floorLow
      have constHigh := Nat.le_trans valid.constLow valid.constHigh
      have dynamic := valid.dynamicLow
      have high := Nat.le_trans extends_.maxStack holds.room
      omega
    have copied : exec (copyWords (slot - 2) e ++ (resultWords (slot - 2) below ++ pc)) m = _ :=
      exec_copyWords (Nat.le_trans dest room) fun inSlot => by
        have ne : e.slot ≠ reg0SlotAlias := fun inReg => by
          rw [(valid.inRegister_iff (part e (by simp))).mpr inReg] at inSlot
          cases inSlot
        exact holds.inside extends_ (valid.slot_of_ne (part e (by simp)) ne).1
    have kept := holds.writeResult valid extends_ (Nat.le_trans dest low) (wordOf m e)
    obtain ⟨m', run, holds', inSlots, frame⟩ := ih (slot - 2)
      (fun other inside => part other (by simp [inside])) (by omega)
      (by simp only [ioSlotCount]; omega) kept
    have same : ∀ other ∈ dyn, valueOf (m.write e.type (slot - 2) (wordOf m e)) other =
        valueOf m other := List.map_inj_left.mp (kept.stack.trans holds.stack.symm)
    have values : below.map (valueOf (m.write e.type (slot - 2) (wordOf m e))) =
        below.map (valueOf m) :=
      List.map_congr_left fun other inside => same other (part other (by simp [inside]))
    rw [values] at inSlots
    refine ⟨m', ?_, holds', ⟨?_, inSlots⟩, fun s above => ?_⟩
    · rw [resultWords, List.append_assoc]
      exact copied.trans run
    · show m'.word e.type (slot - 2) = wordOf m e
      rw [word_congr (m := m.write e.type (slot - 2) (wordOf m e)) fun s covered =>
        frame s covered.1, write_word]
    · rw [frame s (by omega), write_slots]
      rintro ⟨-, below⟩
      dsimp only at below
      omega

/-- The results, where the caller looks for them. -/
def ResultsAt (m : Machine) (values : List Value) : Prop :=
  ∀ (i : Nat) (value : Value), values[i]? = some value →
    m.word value.type (i * ioSlotCount) = value.word

theorem resultsAt_of_inSlots {values : List Value}
    (inSlots : InSlots m (values.length * ioSlotCount) values) : ResultsAt m values.reverse := by
  induction values with
  | nil =>
    intro i value found
    simp at found
  | cons top below ih =>
    have slot : (top :: below).length * ioSlotCount - ioSlotCount = below.length * ioSlotCount := by
      rw [List.length_cons, Nat.succ_mul, Nat.add_sub_cancel]
    rw [InSlots, slot] at inSlots
    intro i value found
    rw [List.reverse_cons, List.getElem?_append] at found
    split at found
    · exact ih inSlots.2 i value found
    · next above =>
      rw [List.length_reverse, not_lt] at above
      obtain ⟨inside, same⟩ := List.getElem?_eq_some_iff.mp found
      simp only [List.length_singleton, List.length_reverse] at inside
      obtain rfl : i = below.length := by omega
      simp at same
      subst same
      exact inSlots.1

theorem popTimes_spec (valid : Valid floor base dyn o)
    (done : o.popTimes dyn.length = .ok o') : Passes floor base o [] [] o' := by
  induction dyn generalizing o with
  | nil =>
    obtain rfl := Except.ok.inj done
    exact valid.passes
  | cons e below ih =>
    rw [List.length_cons, popTimes] at done
    obtain ⟨o₁, popped, rest⟩ := ok_of_bind done
    have passes := valid.pop popped
    exact passes.trans (ih passes.valid rest)

/-- The end of the function: the results in their slots, and the return. -/
theorem compileEnd_spec {rets : List ValType} (valid : Valid floor base dyn o)
    (enough : rets.length * ioSlotCount ≤ floor) (done : o.compileEnd rets = .ok o') :
    dyn.map Entry.type = rets.reverse ∧ ∃ words, Passes floor base o words [] o' ∧
      ∀ final w m pc, Extends o' final → Holds final base dyn w m →
        ∃ m', exec (words ++ pc) m = .returned m' ∧ ResultsAt m' w.stack.reverse := by
  unfold compileEnd at done
  split at done
  · cases done
  · next count =>
    obtain ⟨o₁, returned, rest⟩ := ok_of_bind done
    obtain ⟨o₂, popped, rest⟩ := ok_of_bind rest
    obtain rfl := Except.ok.inj rest
    have length : dyn.length = rets.length := by
      rw [valid.stack, valid.block] at count
      simpa using count
    obtain ⟨taken, behind, split, types, rfl⟩ := returnValues_spec returned
    rw [valid.stack] at split
    have size : dyn.length = taken.length := by
      have both := congrArg List.length types
      rw [List.length_map, List.length_reverse] at both
      rw [length, both]
    obtain ⟨rfl, -⟩ := List.append_inj split size
    have emitted := valid.passes.emit (resultWords (rets.length * ioSlotCount) dyn)
    rw [← length] at emitted popped
    have whole := (emitted.trans (popTimes_spec emitted.valid popped)).emit [.op .Return]
    simp only [List.nil_append, List.append_nil] at whole
    refine ⟨types, _, whole, fun final w m pc later holds => ?_⟩
    obtain ⟨m', run, holds', inSlots, -⟩ := exec_resultWords valid
      (whole.keeps.trans later) _ (.op .Return :: pc) (fun e inside => inside) (by rw [length]; exact enough)
      (Nat.le_refl _) holds
    refine ⟨m', ?_, ?_⟩
    · rw [List.append_assoc]
      exact run.trans (by rw [exec])
    · have size : w.stack.length = dyn.length := by
        rw [← holds.stack, List.length_map]
      rw [holds.stack, ← size] at inSlots
      exact resultsAt_of_inSlots inSlots

end Blocks

end VelumOS.Spec.Compiler
