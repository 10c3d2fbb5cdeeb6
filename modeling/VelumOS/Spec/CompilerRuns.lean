import VelumOS.Spec.CompilerState

/-!
# Runs of compiled code

The machine stands for a state of the language where every local and every value of the
stack is what its place holds. The constants of the whole function lie in their slots
from the start, also those that the compiler has not met yet: `final` is its last state.
-/
namespace VelumOS.Spec.Compiler
open Base.Wasm Source.M3 Source.M3.Compilation

/-! ## Words of the stack -/

/-- What the place of an entry holds. -/
def wordOf (m : Machine) (e : Entry) : BitVec e.type.width :=
  if inRegister e then m.reg e.type else m.word e.type e.slot

def valueOf (m : Machine) (e : Entry) : Value := ⟨e.type, wordOf m e⟩

theorem write_slots (m : Machine) {t : ValType} {slot s : Nat} (v : BitVec t.width)
    (outside : ¬ Covers ⟨slot, t⟩ s) : (m.write t slot v).slots s = m.slots s := by
  cases t with
  | i32 =>
    have other : s ≠ slot := by
      rintro rfl
      exact outside ⟨Nat.le_refl _, Nat.lt_succ_self _⟩
    exact Function.update_of_ne other _ _
  | i64 =>
    have first : s ≠ slot := by
      rintro rfl
      exact outside ⟨Nat.le_refl _, by simp [getTypeNumSlots]⟩
    have second : s ≠ slot + 1 := by
      rintro rfl
      exact outside ⟨Nat.le_succ _, by simp [getTypeNumSlots]⟩
    exact (Function.update_of_ne second _ _).trans (Function.update_of_ne first _ _)

theorem write_word (m : Machine) (t : ValType) (slot : Nat) (v : BitVec t.width) :
    (m.write t slot v).word t slot = v := by
  cases t with
  | i32 => exact Function.update_self _ _ _
  | i64 =>
    have low : (m.write .i64 slot v).slots slot = v.setWidth 32 :=
      (Function.update_of_ne (Nat.ne_of_lt (Nat.lt_succ_self slot)) _ _).trans
        (Function.update_self _ _ _)
    have high : (m.write .i64 slot v).slots (slot + 1) = (v >>> 32).setWidth 32 :=
      Function.update_self _ _ _
    show (m.write .i64 slot v).slots (slot + 1) ++ (m.write .i64 slot v).slots slot = v
    rw [low, high]
    exact halves v
where
  halves (v : BitVec 64) : (v >>> 32).setWidth 32 ++ v.setWidth 32 = v := by
    ext bit inside
    rw [BitVec.getElem_append]
    split
    · rw [BitVec.getElem_setWidth, BitVec.getLsbD_eq_getElem]
    · next upper =>
      have back : 32 + (bit - 32) = bit := by omega
      simp [back, inside]

@[simp] theorem write_r0 (m : Machine) (t : ValType) (slot : Nat) (v : BitVec t.width) :
    (m.write t slot v).r0 = m.r0 := by
  cases t <;> rfl

@[simp] theorem write_room (m : Machine) (t : ValType) (slot : Nat) (v : BitVec t.width) :
    (m.write t slot v).room = m.room := by
  cases t <;> rfl

theorem word_congr {m m' : Machine} {t : ValType} {slot : Nat}
    (same : ∀ s, Covers ⟨slot, t⟩ s → m'.slots s = m.slots s) :
    m'.word t slot = m.word t slot := by
  cases t with
  | i32 => exact same slot ⟨Nat.le_refl _, Nat.lt_succ_self _⟩
  | i64 =>
    have low := same slot ⟨Nat.le_refl _, by simp [getTypeNumSlots]⟩
    have high := same (slot + 1) ⟨Nat.le_succ _, by simp [getTypeNumSlots]⟩
    show m'.slots (slot + 1) ++ m'.slots slot = m.slots (slot + 1) ++ m.slots slot
    rw [low, high]

theorem wordOf_of_inRegister {m : Machine} {e : Entry} (inReg : inRegister e = true) :
    wordOf m e = m.reg e.type := if_pos inReg

theorem wordOf_of_not {m : Machine} {e : Entry} (inSlot : inRegister e = false) :
    wordOf m e = m.word e.type e.slot := if_neg (by rw [inSlot]; exact Bool.false_ne_true)

theorem valueOf_congr {m m' : Machine} {e : Entry} (register : inRegister e → m'.r0 = m.r0)
    (same : ∀ s, Covers e s → m'.slots s = m.slots s) : valueOf m' e = valueOf m e := by
  unfold valueOf wordOf
  congr 1
  split
  · next inReg => rw [Machine.reg, register inReg, Machine.reg]
  · exact word_congr same

theorem valueOf_entry {m : Machine} {e : Entry} (low : e.slot < reg0SlotAlias) :
    valueOf m e = ⟨e.type, m.word e.type e.slot⟩ :=
  congrArg (Value.mk e.type) (wordOf_of_not (decide_eq_false (Nat.not_le.mpr low)))

theorem valueOf_slot {m : Machine} {slot : Nat} {t : ValType} (low : slot < reg0SlotAlias) :
    valueOf m ⟨slot, t⟩ = ⟨t, m.word t slot⟩ :=
  valueOf_entry (e := ⟨slot, t⟩) low

theorem valueOf_register {m : Machine} {t : ValType} :
    valueOf m ⟨reg0SlotAlias, t⟩ = ⟨t, m.reg t⟩ :=
  congrArg (Value.mk t) (wordOf_of_inRegister (e := ⟨reg0SlotAlias, t⟩)
    (decide_eq_true (Nat.le_refl _)))

theorem load_eq {m : Machine} {t : ValType} {slot : Nat}
    (inside : slot + getTypeNumSlots t ≤ m.room) : m.load t slot = some (m.word t slot) :=
  if_pos inside

theorem store_eq {m : Machine} {t : ValType} {slot : Nat} {v : BitVec t.width}
    (inside : slot + getTypeNumSlots t ≤ m.room) :
    m.store t slot v = some (m.write t slot v) :=
  if_pos inside

/-! ## The machine and the language -/

structure Holds (final : Compilation) (base dyn : List Entry) (w : State) (m : Machine) :
    Prop where
  room : final.maxStackSlots ≤ m.room
  locals : base.map (valueOf m) = w.locals
  stack : dyn.map (valueOf m) = w.stack
  table : ∀ slot, final.slotFirstConstIndex ≤ slot → slot < final.slotFirstDynamicIndex →
    final.m3Slots slot ≠ 0 →
    m.slots slot = final.constants (slot - final.slotFirstConstIndex)

/-- Code that takes the machine from one state of the language to another. -/
def Runs (final : Compilation) (base : List Entry) (words : List CodeWord)
    (dyn : List Entry) (w : State) (dyn' : List Entry) (w' : State) : Prop :=
  ∀ m pc, Holds final base dyn w m →
    ∃ m', exec (words ++ pc) m = exec pc m' ∧ Holds final base dyn' w' m'

theorem Runs.trans {final : Compilation} {base dyn dyn' dyn'' : List Entry}
    {words later : List CodeWord} {w w' w'' : State}
    (before : Runs final base words dyn w dyn' w')
    (after : Runs final base later dyn' w' dyn'' w'') :
    Runs final base (words ++ later) dyn w dyn'' w'' := by
  intro m pc holds
  obtain ⟨m', run, holds'⟩ := before m (later ++ pc) holds
  obtain ⟨m'', run', holds''⟩ := after m' pc holds'
  refine ⟨m'', ?_, holds''⟩
  rw [List.append_assoc, run, run']

/-- No word emitted, and the same values. -/
theorem Runs.nil {final : Compilation} {base dyn dyn' : List Entry} {w w' : State}
    (same : ∀ m, Holds final base dyn w m → Holds final base dyn' w' m) :
    Runs final base [] dyn w dyn' w' :=
  fun m _ holds => ⟨m, rfl, same m holds⟩

section Slots
variable {floor : Nat} {base dyn : List Entry} {o o' final : Compilation} {w : State}
  {m : Machine}

/-- A value in the frame can be read. -/
theorem Holds.inside (holds : Holds final base dyn w m) (later : Extends o final)
    {slot : Nat} {t : ValType} (low : slot + getTypeNumSlots t ≤ o.maxStackSlots) :
    slot + getTypeNumSlots t ≤ m.room :=
  Nat.le_trans low (Nat.le_trans later.maxStack holds.room)

/-- A write to fresh slots changes no value. -/
theorem Holds.write (holds : Holds final base dyn w m) (valid : Valid floor base dyn o)
    (later : Extends o final) {slot : Nat} {t : ValType} (fresh : Fresh dyn o slot t)
    (v : BitVec t.width) : Holds final base dyn w (m.write t slot v) := by
  have constHigh := Nat.le_trans valid.constLow valid.constHigh
  have low := fresh.low
  refine ⟨by rw [write_room]; exact holds.room, ?_, ?_, ?_⟩
  · rw [← holds.locals]
    apply List.map_congr_left
    intro e inside
    refine valueOf_congr (fun _ => write_r0 _ _ _ _) fun s covered => write_slots m v ?_
    rintro ⟨below, -⟩
    have ends := (valid.locals e inside).2
    have := covered.2
    dsimp only at below
    omega
  · rw [← holds.stack]
    apply List.map_congr_left
    intro e inside
    refine valueOf_congr (fun _ => write_r0 _ _ _ _) fun s covered => write_slots m v ?_
    intro own
    exact not_covers_of_users (fresh.unused s own) inside covered
  · intro s constant below allocated
    rw [write_slots m v]
    · exact holds.table s constant below allocated
    · rintro ⟨above, -⟩
      rw [later.firstDynamic] at below
      dsimp only at above
      omega

/-- The value of an entry that is written is the one written. -/
theorem valueOf_write {slot : Nat} {t : ValType} (fresh : Fresh dyn o slot t)
    (v : BitVec t.width) : valueOf (m.write t slot v) ⟨slot, t⟩ = ⟨t, v⟩ := by
  rw [valueOf_slot (below_alias (e := ⟨slot, t⟩) fresh.high), write_word]

/-- The code that empties the register keeps every value. -/
theorem runs_preserveRegister {above below : List Entry} {e : Entry} {slot : Nat}
    (valid : Valid floor base (above ++ e :: below) o) (inReg : e.slot = reg0SlotAlias)
    (fresh : Fresh (above ++ e :: below) o slot e.type)
    (after : Valid floor base (above ++ ⟨slot, e.type⟩ :: below) o') (before : Extends o o')
    (later : Extends o' final) :
    Runs final base [.op (.SetSlot e.type), .slot slot] (above ++ e :: below) w
      (above ++ ⟨slot, e.type⟩ :: below) w := by
  intro m pc holds
  have own := (after.slot_of_ne (e := ⟨slot, e.type⟩) (by simp)
    (Nat.ne_of_lt (below_alias (e := ⟨slot, e.type⟩) fresh.high))).1
  have stored := store_eq (v := m.reg e.type) (holds.inside later own)
  refine ⟨m.write e.type slot (m.reg e.type), ?_, ?_⟩
  · show exec (.op (.SetSlot e.type) :: .slot slot :: pc) m = _
    rw [exec, stored]
  · have kept := holds.write valid (before.trans later) fresh (m.reg e.type)
    refine ⟨kept.room, kept.locals, ?_, kept.table⟩
    have value : valueOf (m.write e.type slot (m.reg e.type)) e = ⟨e.type, m.reg e.type⟩ := by
      obtain ⟨own, type⟩ := e
      dsimp only at inReg
      subst inReg
      rw [valueOf_register, Machine.reg, write_r0, Machine.reg]
    have stack := kept.stack
    rw [List.map_append, List.map_cons] at stack ⊢
    rw [valueOf_write fresh, ← value]
    exact stack

end Slots

end VelumOS.Spec.Compiler
