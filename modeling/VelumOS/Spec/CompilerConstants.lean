import VelumOS.Spec.CompilerRuns

/-!
# Constants

A constant is found in the table, joins it, or is loaded into slots of its own where the
table is full. The three ways put the same value on the stack.
-/
namespace VelumOS.Spec.Compiler
open Base.Wasm Source.M3 Source.M3.Compilation

section Constants
variable {floor : Nat} {base dyn : List Entry} {o o' final : Compilation} {w : State}
  {type : ValType} {word : BitVec 64}

/-- The table of a state holds the word of a type at a slot. -/
def InTable (o : Compilation) (slot : Nat) : (type : ValType) → BitVec 64 → Prop
  | .i32, word => (o.constants (slot - o.slotFirstConstIndex)) = word.setWidth 32
  | .i64, word => o.constants (slot + 1 - o.slotFirstConstIndex) ++
      o.constants (slot - o.slotFirstConstIndex) = word

/-- The slots of a constant: in the table, and in use. -/
structure Constant (o : Compilation) (slot : Nat) (type : ValType) (word : BitVec 64) :
    Prop where
  low : o.slotFirstConstIndex ≤ slot
  used : ∀ s, Covers ⟨slot, type⟩ s → o.m3Slots s ≠ 0 ∧ s < o.slotFirstDynamicIndex
  held : InTable o slot type word

theorem matchingSlot_spec (valid : Valid floor base dyn o) {slot : Nat}
    (found : o.matchingSlot word type = some slot) : Constant o slot type word := by
  have high := valid.constHigh
  cases type with
  | i32 =>
    have test := List.find?_some found
    have inside := List.mem_of_find?_eq_some found
    simp only [Bool.and_eq_true, isSlotAllocated, decide_eq_true_eq, beq_iff_eq] at test
    rw [List.mem_range'_1] at inside
    refine ⟨inside.1, fun s covered => ?_, ?_⟩
    · obtain ⟨below, above⟩ := covered
      simp only [getTypeNumSlots] at below above
      obtain rfl : s = slot := by omega
      exact ⟨test.1, by omega⟩
    · show o.constants (slot - o.slotFirstConstIndex) = word.setWidth 32
      rw [← test.2, BitVec.setWidth_setWidth_of_le _ (by decide), BitVec.setWidth_eq]
  | i64 =>
    have aligned := le_alignSlotToType o.slotFirstConstIndex .i64
    simp only [matchingSlot] at found
    split at found
    · have test := List.find?_some found
      have inside := List.mem_of_find?_eq_some found
      simp only [Bool.and_eq_true, isSlotAllocated, decide_eq_true_eq, beq_iff_eq] at test
      rw [List.mem_range'] at inside
      obtain ⟨k, small, rfl⟩ := inside
      refine ⟨by omega, fun s covered => ?_, test.2⟩
      obtain ⟨below, above⟩ := covered
      simp only [getTypeNumSlots] at below above
      have either : s = alignSlotToType o.slotFirstConstIndex .i64 + 2 * k ∨
          s = alignSlotToType o.slotFirstConstIndex .i64 + 2 * k + 1 := by omega
      rcases either with rfl | rfl
      · exact ⟨test.1.1, by omega⟩
      · exact ⟨test.1.2, by omega⟩
    · cases found

theorem Constant.later (constant : Constant o slot type word) (later : Extends o o') :
    Constant o' slot type word := by
  have low := constant.low
  refine ⟨by rw [later.firstConst]; exact low, fun s covered => ?_, ?_⟩
  · obtain ⟨used, high⟩ := constant.used s covered
    rw [later.firstDynamic]
    exact ⟨(later.table s (Nat.le_trans low covered.1) high used).1, high⟩
  · have held := constant.held
    cases type with
    | i32 =>
      obtain ⟨used, high⟩ := constant.used slot ⟨Nat.le_refl _, Nat.lt_succ_self _⟩
      have same := (later.table slot low high used).2
      simp only [InTable] at held ⊢
      rw [later.firstConst, same, held]
    | i64 =>
      obtain ⟨used, high⟩ := constant.used slot ⟨Nat.le_refl _, by simp [getTypeNumSlots]⟩
      obtain ⟨used', high'⟩ := constant.used (slot + 1)
        ⟨Nat.le_succ _, by simp [getTypeNumSlots]⟩
      have same := (later.table slot low high used).2
      have same' := (later.table (slot + 1) (by omega) high' used').2
      simp only [InTable] at held ⊢
      rw [later.firstConst, same, same', held]

/-- A constant of the final table is in its slots. -/
theorem valueOf_constant {m : Machine} {slot : Nat} (holds : Holds final base dyn w m)
    (high : final.slotFirstDynamicIndex < maxFunctionSlots)
    (constant : Constant final slot type word) :
    valueOf m ⟨slot, type⟩ = ⟨type, word.setWidth type.width⟩ := by
  have first := constant.used slot ⟨Nat.le_refl _, Nat.lt_add_of_pos_right (numSlots_pos type)⟩
  have inSlot : slot < reg0SlotAlias :=
    Nat.lt_trans (Nat.lt_trans first.2 high) (by decide)
  rw [valueOf_slot inSlot]
  congr 1
  have held := constant.held
  have low := holds.table slot constant.low first.2 first.1
  cases type with
  | i32 => exact low.trans held
  | i64 =>
    have second := constant.used (slot + 1) ⟨Nat.le_succ _, by simp [getTypeNumSlots]⟩
    have upper := holds.table (slot + 1) (Nat.le_succ_of_le constant.low) second.2 second.1
    show m.slots (slot + 1) ++ m.slots slot = word.setWidth 64
    rw [low, upper, BitVec.setWidth_eq]
    exact held

/-! ## A new constant -/

theorem setConstant_eq (o : Compilation) (index : Nat) (word : BitVec 64) (type : ValType) :
    ∃ constants, o.setConstant index word type = { o with constants := constants } ∧
      (∀ i, ¬ Covers ⟨index, type⟩ i → constants i = o.constants i) ∧
      match type with
      | .i32 => constants index = word.setWidth 32
      | .i64 => constants (index + 1) ++ constants index = word := by
  cases type with
  | i32 =>
    refine ⟨_, rfl, fun i outside => ?_, Function.update_self _ _ _⟩
    refine Function.update_of_ne (fun same => outside ?_) _ _
    subst same
    exact ⟨Nat.le_refl _, Nat.lt_succ_self _⟩
  | i64 =>
    refine ⟨_, rfl, fun i outside => ?_, ?_⟩
    · have first : i ≠ index := fun same => outside (by
        subst same
        exact ⟨Nat.le_refl _, by simp [getTypeNumSlots]⟩)
      have second : i ≠ index + 1 := fun same => outside (by
        subst same
        exact ⟨Nat.le_succ _, by simp [getTypeNumSlots]⟩)
      exact (Function.update_of_ne second _ _).trans (Function.update_of_ne first _ _)
    · exact write_word ⟨o.constants, 0, 0⟩ .i64 index word

/-- A constant that joins the table takes free slots of it. -/
theorem pass_newConstant (valid : Valid floor base dyn o) {slot : Nat} {marked pushed : Compilation}
    (allocated : o.allocateConstantSlots type = .ok (slot, marked))
    (push : (marked.setConstant (slot - marked.slotFirstConstIndex) word type).push type slot =
      .ok pushed)
    (done : o' = { pushed with
      slotMaxConstIndex := max (slot + getTypeNumSlots type) pushed.slotMaxConstIndex }) :
    Passes floor base o [] (⟨slot, type⟩ :: dyn) o' ∧ Constant o' slot type word := by
  obtain ⟨low, high, free, rfl⟩ := allocate_spec allocated
  obtain ⟨constants, set, others, held⟩ := setConstant_eq
    (o.markSlotsAllocated slot (getTypeNumSlots type))
    (slot - (o.markSlotsAllocated slot (getTypeNumSlots type)).slotFirstConstIndex) word type
  have dynamicHigh := valid.dynamicHigh
  have constLow := valid.constLow
  have ends : slot + getTypeNumSlots type ≤ o.slotFirstDynamicIndex :=
    Nat.le_trans high (Nat.min_le_left _ _)
  have inSlot : slot < reg0SlotAlias :=
    below_alias (e := ⟨slot, type⟩) (by dsimp only; omega)
  rw [set] at push
  have same := push_slot inSlot push
  rw [mark_eq] at same others held
  dsimp only at same others held
  subst same
  dsimp only at done
  have static : ∀ s, Covers ⟨slot, type⟩ s → s < o.slotFirstDynamicIndex :=
    fun s covered => Nat.lt_of_lt_of_le covered.2 ends
  have indexOf : ∀ s, o.slotFirstConstIndex ≤ s → ¬ Covers ⟨slot, type⟩ s →
      ¬ Covers ⟨slot - o.slotFirstConstIndex, type⟩ (s - o.slotFirstConstIndex) := by
    rintro s above outside ⟨below, upper⟩
    apply outside
    dsimp only at below upper
    exact ⟨by dsimp only; omega, by dsimp only; omega⟩
  subst done
  refine ⟨⟨⟨?_, valid.block, valid.first, valid.locals, valid.apart, valid.floorLow, ?_, ?_, ?_,
    valid.dynamicHigh, Nat.max_le.mpr ⟨valid.maxHigh, by omega⟩, ?_, ?_, ?_, ?_,
    valid.register.slot_cons (Nat.ne_of_lt inSlot)⟩,
    ⟨rfl, rfl, Nat.le_max_left _ _, ?_⟩, (List.append_nil _).symm, rfl⟩, ⟨low, ?_, ?_⟩⟩
  · rw [valid.stack]
    rfl
  · exact Nat.le_trans valid.constLow (Nat.le_max_right _ _)
  · exact Nat.max_le.mpr ⟨ends, valid.constHigh⟩
  · exact Nat.le_trans valid.dynamicLow (Nat.le_max_left _ _)
  · intro s above below used
    dsimp only at used ⊢
    by_cases covered : Covers ⟨slot, type⟩ s
    · exact Nat.lt_of_lt_of_le covered.2 (Nat.le_max_left _ _)
    · rw [if_neg covered] at used
      exact Nat.lt_of_lt_of_le (valid.table s above below used) (Nat.le_max_right _ _)
  · intro s above below
    have outside : ¬ Covers ⟨slot, type⟩ s := fun covered =>
      absurd (static s covered) (Nat.not_lt.mpr above)
    dsimp only
    rw [if_neg outside, users_cons, if_neg outside]
    exact valid.counts s above below
  · intro s
    dsimp only
    split
    · decide
    · exact valid.small s
  · intro e inside
    rcases List.mem_cons.mp inside with rfl | inside
    · refine .inr (.inr (.inl ⟨low, fun s covered => ⟨?_, static s covered⟩⟩))
      dsimp only
      rw [if_pos covered]
      exact Nat.one_ne_zero
    · rcases valid.placed e inside with inReg | isLocal | ⟨above, all⟩ | ⟨above, below, max⟩
      · exact .inl inReg
      · exact .inr (.inl isLocal)
      · refine .inr (.inr (.inl ⟨above, fun s covered => ⟨?_, (all s covered).2⟩⟩))
        dsimp only
        split
        · exact Nat.one_ne_zero
        · exact (all s covered).1
      · exact .inr (.inr (.inr ⟨above, below, Nat.le_trans max (Nat.le_max_left _ _)⟩))
  · intro s above below used
    have outside : ¬ Covers ⟨slot, type⟩ s := fun covered => used (free s covered)
    refine ⟨?_, others _ (indexOf s above outside)⟩
    dsimp only
    rwa [if_neg outside]
  · intro s covered
    refine ⟨?_, static s covered⟩
    dsimp only
    rw [if_pos covered]
    exact Nat.one_ne_zero
  · cases type with
    | i32 => exact held
    | i64 =>
      have next : slot + 1 - o.slotFirstConstIndex = slot - o.slotFirstConstIndex + 1 := by
        have above : o.slotFirstConstIndex ≤ slot := low
        omega
      show constants (slot + 1 - o.slotFirstConstIndex) ++
        constants (slot - o.slotFirstConstIndex) = word
      rw [next]
      exact held

/-- The inline form of a constant. -/
theorem exec_constWords {m : Machine} {slot : Nat} {pc : List CodeWord}
    (inside : slot + getTypeNumSlots type ≤ m.room) :
    exec (constWords word type ++ [.slot slot] ++ pc) m =
      exec pc (m.write type slot (word.setWidth type.width)) := by
  cases type with
  | i32 =>
    have stored := store_eq (t := .i32) (v := word.setWidth 32) inside
    show exec (.op .Const32 :: .word32 (word.setWidth 32) :: .slot slot :: pc) m = _
    rw [exec, stored]
    rfl
  | i64 =>
    have stored := store_eq (t := .i64) (v := word) inside
    show exec (.op .Const64 :: .word64 word :: .slot slot :: pc) m = _
    rw [exec, stored]
    exact congrArg (fun value => exec pc (m.write .i64 slot value)) (BitVec.setWidth_eq word).symm

/-- Every way of `PushConst` puts the constant on the stack. -/
theorem pushConst_spec (valid : Valid floor base dyn o)
    (done : o.pushConst word type = .ok o') :
    ∃ words slot, Passes floor base o words (⟨slot, type⟩ :: dyn) o' ∧
      ⟨slot, type⟩ ∉ base ∧
      ∀ final w, Extends o' final → Runs final base words dyn w (⟨slot, type⟩ :: dyn)
        { w with stack := ⟨type, word.setWidth type.width⟩ :: w.stack } := by
  have fromTable : ∀ {slot : Nat}, Passes floor base o [] (⟨slot, type⟩ :: dyn) o' →
      Constant o' slot type word → ⟨slot, type⟩ ∉ base ∧
      ∀ final w, Extends o' final → Runs final base [] dyn w (⟨slot, type⟩ :: dyn)
        { w with stack := ⟨type, word.setWidth type.width⟩ :: w.stack } := by
    intro slot passes constant
    refine ⟨fun isLocal => ?_, fun final w later => Runs.nil fun m holds => ?_⟩
    · have ends := (passes.valid.locals _ isLocal).2
      have low := constant.low
      have some := numSlots_pos type
      dsimp only at ends
      omega
    · have value := valueOf_constant holds (by
        rw [later.firstDynamic]
        exact passes.valid.dynamicHigh) (constant.later later)
      exact ⟨holds.room, holds.locals, by rw [List.map_cons, value, holds.stack], holds.table⟩
  unfold pushConst at done
  split at done
  · next slot found =>
    have constant := matchingSlot_spec valid found
    have static : ∀ s, Covers ⟨slot, type⟩ s → s < o.slotFirstDynamicIndex :=
      fun s covered => (constant.used s covered).2
    have first := static slot ⟨Nat.le_refl _, Nat.lt_add_of_pos_right (numSlots_pos type)⟩
    have inSlot : slot < reg0SlotAlias :=
      Nat.lt_trans (Nat.lt_trans first valid.dynamicHigh) (by decide)
    have passes := valid.push (e := ⟨slot, type⟩) (.inr (.inr (.inl ⟨constant.low, constant.used⟩)))
      static inSlot done
    exact ⟨[], slot, passes, fromTable passes (constant.later passes.keeps)⟩
  · split at done
    · obtain ⟨⟨slot, pushed⟩, push, rest⟩ := ok_of_bind done
      obtain rfl := Except.ok.inj rest
      obtain ⟨fresh, passes⟩ := (valid.emit (constWords word type)).pushAllocatedSlot push
      have fresh : Fresh dyn o slot type := ⟨fresh.low, fresh.high, fresh.unused⟩
      have whole := (Passes.trans (valid.passes.emit (constWords word type)) passes).emit
        [.slot slot]
      simp only [List.nil_append, List.append_nil] at whole
      refine ⟨_, slot, whole, fun isLocal => ?_, fun final w later m pc holds => ?_⟩
      · have ends := (valid.locals _ isLocal).2
        have low : o.slotFirstDynamicIndex ≤ slot := fresh.low
        have high := Nat.le_trans valid.constLow valid.constHigh
        have some := numSlots_pos type
        dsimp only at ends
        omega
      · have ne := Nat.ne_of_lt (below_alias (e := ⟨slot, type⟩) fresh.high)
        have own := (whole.valid.slot_of_ne (e := ⟨slot, type⟩) (by simp) ne).1
        have kept := holds.write valid (whole.keeps.trans later) fresh
          (word.setWidth type.width)
        refine ⟨_, exec_constWords (holds.inside later own), kept.room, kept.locals, ?_,
          kept.table⟩
        rw [List.map_cons, valueOf_write fresh, kept.stack]
    · next slot marked allocated =>
      obtain ⟨pushed, push, rest⟩ := ok_of_bind done
      obtain ⟨passes, constant⟩ := pass_newConstant valid allocated push
        (Except.ok.inj rest).symm
      exact ⟨[], slot, passes, fromTable passes constant⟩

end Constants

end VelumOS.Spec.Compiler
