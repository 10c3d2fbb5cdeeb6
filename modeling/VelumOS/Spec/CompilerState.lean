import VelumOS.Source.M3.Compile

/-!
# The compiler's state

While a body is compiled, every value of the stack has its place: the register, a local,
a constant of the table or slots of its own. The usage count of a slot beyond the
constants is the number of the values that lie in it, so a slot that is free holds none.
-/
namespace VelumOS.Spec.Compiler
open Base.Wasm Source.M3 Source.M3.Compilation

/-! ## Slots of a value -/

/-- The slots from the first of an entry. -/
def Covers (e : Entry) (slot : Nat) : Prop :=
  e.slot ≤ slot ∧ slot < e.slot + getTypeNumSlots e.type

instance (e : Entry) (slot : Nat) : Decidable (Covers e slot) :=
  inferInstanceAs (Decidable (_ ∧ _))

theorem numSlots_pos (type : ValType) : 0 < getTypeNumSlots type := by
  cases type <;> decide

theorem numSlots_le (type : ValType) : getTypeNumSlots type ≤ 2 := by
  cases type <;> decide

/-- The values that lie in a slot. -/
def users (entries : List Entry) (slot : Nat) : Nat :=
  entries.countP fun e => Covers e slot

theorem users_cons (e : Entry) (entries : List Entry) (slot : Nat) :
    users (e :: entries) slot = users entries slot + if Covers e slot then 1 else 0 := by
  simp [users, List.countP_cons]

theorem users_append (above below : List Entry) (slot : Nat) :
    users (above ++ below) slot = users above slot + users below slot :=
  List.countP_append

theorem not_covers_of_users {entries : List Entry} {slot : Nat} (none : users entries slot = 0)
    {e : Entry} (inside : e ∈ entries) : ¬ Covers e slot := by
  have all := List.countP_eq_zero.mp none e inside
  simpa using all

/-- The register holds the entry at the index that the compiler keeps, and no other. -/
def RegisterAt (height : Nat) (dyn : List Entry) : Option Nat → Prop
  | none => ∀ e ∈ dyn, e.slot ≠ reg0SlotAlias
  | some stackIndex => ∃ above e below, dyn = above ++ e :: below ∧
      stackIndex = height + below.length ∧ e.slot = reg0SlotAlias ∧
      ∀ other ∈ above ++ below, other.slot ≠ reg0SlotAlias

/-- Where a value is. -/
def Placed (base : List Entry) (o : Compilation) (e : Entry) : Prop :=
  e.slot = reg0SlotAlias ∨
  e ∈ base ∨
  (o.slotFirstConstIndex ≤ e.slot ∧
    ∀ slot, Covers e slot → o.m3Slots slot ≠ 0 ∧ slot < o.slotFirstDynamicIndex) ∨
  (o.slotFirstDynamicIndex ≤ e.slot ∧ e.slot + getTypeNumSlots e.type ≤ maxFunctionSlots ∧
    e.slot + getTypeNumSlots e.type ≤ o.maxStackSlots)

/-- The state of the compiler inside a body. `floor` is the end of the result slots,
`base` are the arguments and locals, the first one first, and `dyn` the Wasm stack, its
top first. -/
structure Valid (floor : Nat) (base dyn : List Entry) (o : Compilation) : Prop where
  stack : o.stack = dyn ++ base.reverse
  block : o.blockStackIndex = base.length
  first : o.stackFirstDynamicIndex = base.length
  locals : ∀ e ∈ base, floor ≤ e.slot ∧
    e.slot + getTypeNumSlots e.type ≤ o.slotFirstConstIndex
  apart : base.Pairwise fun e other => ∀ slot, ¬ (Covers e slot ∧ Covers other slot)
  floorLow : floor ≤ o.slotFirstConstIndex
  constLow : o.slotFirstConstIndex ≤ o.slotMaxConstIndex
  constHigh : o.slotMaxConstIndex ≤ o.slotFirstDynamicIndex
  dynamicLow : o.slotFirstDynamicIndex ≤ o.maxStackSlots
  dynamicHigh : o.slotFirstDynamicIndex < maxFunctionSlots
  maxHigh : o.maxStackSlots ≤ maxFunctionSlots
  table : ∀ slot, o.slotFirstConstIndex ≤ slot → slot < o.slotFirstDynamicIndex →
    o.m3Slots slot ≠ 0 → slot < o.slotMaxConstIndex
  counts : ∀ slot, o.slotFirstDynamicIndex ≤ slot → slot < maxFunctionSlots →
    o.m3Slots slot = users dyn slot
  small : ∀ slot, o.m3Slots slot ≤ 255
  placed : ∀ e ∈ dyn, Placed base o e
  register : RegisterAt base.length dyn o.regStackIndex

/-- What later steps keep of an earlier state. -/
structure Extends (o o' : Compilation) : Prop where
  firstConst : o'.slotFirstConstIndex = o.slotFirstConstIndex
  firstDynamic : o'.slotFirstDynamicIndex = o.slotFirstDynamicIndex
  maxStack : o.maxStackSlots ≤ o'.maxStackSlots
  table : ∀ slot, o.slotFirstConstIndex ≤ slot → slot < o.slotFirstDynamicIndex →
    o.m3Slots slot ≠ 0 → o'.m3Slots slot ≠ 0 ∧
      o'.constants (slot - o.slotFirstConstIndex) = o.constants (slot - o.slotFirstConstIndex)

theorem Extends.refl (o : Compilation) : Extends o o :=
  ⟨rfl, rfl, Nat.le_refl _, fun _ _ _ allocated => ⟨allocated, rfl⟩⟩

theorem Extends.trans {o o' o'' : Compilation} (before : Extends o o')
    (after : Extends o' o'') : Extends o o'' where
  firstConst := after.firstConst.trans before.firstConst
  firstDynamic := after.firstDynamic.trans before.firstDynamic
  maxStack := Nat.le_trans before.maxStack after.maxStack
  table := by
    intro slot low high allocated
    obtain ⟨still, same⟩ := before.table slot low high allocated
    rw [← before.firstConst] at low same
    rw [← before.firstDynamic] at high
    obtain ⟨stays, later⟩ := after.table slot low high still
    rw [before.firstConst] at later
    refine ⟨stays, later.trans ?_⟩
    rw [before.firstConst] at same
    exact same

section Unread
variable {floor : Nat} {base dyn : List Entry} {o : Compilation}

/-- Emitted words and read octets are no part of the state that is valid. -/
theorem Valid.emit (valid : Valid floor base dyn o) (words : List CodeWord) :
    Valid floor base dyn (o.emit words) :=
  ⟨valid.stack, valid.block, valid.first, valid.locals, valid.apart, valid.floorLow,
    valid.constLow, valid.constHigh, valid.dynamicLow, valid.dynamicHigh, valid.maxHigh,
    valid.table, valid.counts, valid.small, valid.placed, valid.register⟩

theorem Valid.read (valid : Valid floor base dyn o) (wasm : List UInt8) (opcode : UInt8) :
    Valid floor base dyn { o with wasm := wasm, previousOpcode := opcode } :=
  ⟨valid.stack, valid.block, valid.first, valid.locals, valid.apart, valid.floorLow,
    valid.constLow, valid.constHigh, valid.dynamicLow, valid.dynamicHigh, valid.maxHigh,
    valid.table, valid.counts, valid.small, valid.placed, valid.register⟩

theorem Extends.emit (o : Compilation) (words : List CodeWord) : Extends o (o.emit words) :=
  ⟨rfl, rfl, Nat.le_refl _, fun _ _ _ allocated => ⟨allocated, rfl⟩⟩

theorem Extends.read (o : Compilation) (wasm : List UInt8) (opcode : UInt8) :
    Extends o { o with wasm := wasm, previousOpcode := opcode } :=
  ⟨rfl, rfl, Nat.le_refl _, fun _ _ _ allocated => ⟨allocated, rfl⟩⟩

end Unread

/-! ## Allocation -/

/-- The slots that a mark covers are in use once, the others as before. -/
theorem markSlotsAllocated_eq (o : Compilation) (slot numSlots : Nat) :
    o.markSlotsAllocated slot numSlots =
      { o with
        m3Slots := fun s => if slot ≤ s ∧ s < slot + numSlots then 1 else o.m3Slots s
        slotMaxAllocatedIndexPlusOne :=
          if numSlots = 0 then o.slotMaxAllocatedIndexPlusOne
          else max o.slotMaxAllocatedIndexPlusOne (slot + numSlots)
        maxStackSlots := if numSlots = 0 then o.maxStackSlots
          else max o.maxStackSlots (slot + numSlots) } := by
  induction numSlots generalizing o slot with
  | zero =>
    have none : (fun s => if slot ≤ s ∧ s < slot + 0 then 1 else o.m3Slots s) = o.m3Slots := by
      funext s
      exact if_neg (by omega)
    rw [none]
    rfl
  | succ numSlots ih =>
    rw [markSlotsAllocated, ih, markSlotAllocated]
    congr 1
    · simp only
      split <;> simp <;> omega
    · funext s
      simp only [Function.update_apply]
      by_cases first : s = slot
      · rw [if_neg (by omega), if_pos first, if_pos (by omega)]
      · rw [if_neg first]
        exact if_congr (by omega) rfl rfl
    · simp only
      split <;> simp <;> omega

theorem findSlots_spec {o : Compilation} {numSlots endSlot fuel i slot : Nat}
    (found : o.findSlots numSlots endSlot fuel i = some slot) :
    i ≤ slot ∧ slot + (numSlots - 1) < endSlot ∧ o.m3Slots slot = 0 ∧
      o.m3Slots (slot + (numSlots - 1)) = 0 := by
  induction fuel generalizing i with
  | zero => cases found
  | succ fuel ih =>
    rw [findSlots] at found
    split at found
    · next inside =>
      split at found
      · next free =>
        obtain rfl := Option.some.inj found
        exact ⟨Nat.le_refl _, inside, free.1, free.2⟩
      · obtain ⟨low, rest⟩ := ih found
        exact ⟨by omega, rest⟩
    · cases found

theorem le_alignSlotToType (slot : Nat) (type : ValType) :
    slot ≤ alignSlotToType slot type := by
  unfold alignSlotToType
  cases type with
  | i32 => simp [getTypeNumSlots]
  | i64 =>
    simp only [getTypeNumSlots]
    omega

/-- An allocation finds free slots in the range and marks them. -/
theorem allocate_spec {o o' : Compilation} {type : ValType} {startSlot endSlot slot : Nat}
    (done : o.allocateSlotsWithinRange type startSlot endSlot = .ok (slot, o')) :
    startSlot ≤ slot ∧ slot + getTypeNumSlots type ≤ endSlot ∧
    (∀ s, Covers ⟨slot, type⟩ s → o.m3Slots s = 0) ∧
    o' = o.markSlotsAllocated slot (getTypeNumSlots type) := by
  simp only [allocateSlotsWithinRange] at done
  split at done
  · next found search =>
    obtain ⟨rfl, rfl⟩ := Prod.mk.inj (Except.ok.inj done)
    obtain ⟨low, high, free, freeLast⟩ := findSlots_spec search
    have some := numSlots_pos type
    have few := numSlots_le type
    refine ⟨Nat.le_trans (le_alignSlotToType _ _) low, by omega, fun s inside => ?_, rfl⟩
    obtain ⟨below, above⟩ := inside
    simp only at below above
    have ends : s = found ∨ s = found + (getTypeNumSlots type - 1) := by omega
    rcases ends with rfl | rfl
    · exact free
    · exact freeLast
  · cases done

/-- A mark, said of the entry that it makes room for. -/
theorem mark_eq (o : Compilation) (slot : Nat) (type : ValType) :
    o.markSlotsAllocated slot (getTypeNumSlots type) =
      { o with
        m3Slots := fun s => if Covers ⟨slot, type⟩ s then 1 else o.m3Slots s
        slotMaxAllocatedIndexPlusOne :=
          max o.slotMaxAllocatedIndexPlusOne (slot + getTypeNumSlots type)
        maxStackSlots := max o.maxStackSlots (slot + getTypeNumSlots type) } := by
  have some : getTypeNumSlots type ≠ 0 := Nat.ne_of_gt (numSlots_pos type)
  rw [markSlotsAllocated_eq, if_neg some, if_neg some]
  rfl

theorem deallocateSlot_eq (o : Compilation) (slot : Nat) (type : ValType) :
    o.deallocateSlot slot type =
      { o with m3Slots := fun s =>
          if Covers ⟨slot, type⟩ s then (o.m3Slots s + 255) % 256 else o.m3Slots s } := by
  cases type with
  | i32 =>
    simp only [deallocateSlot, decrementSlot]
    congr 1
    funext s
    rw [Function.update_apply]
    by_cases first : s = slot
    · rw [if_pos first, if_pos (by simp [Covers, getTypeNumSlots, first]), first]
    · rw [if_neg first, if_neg (by simp only [Covers, getTypeNumSlots]; omega)]
  | i64 =>
    simp only [deallocateSlot, decrementSlot]
    congr 1
    funext s
    rw [Function.update_apply, Function.update_apply, Function.update_apply]
    by_cases second : s = slot + 1
    · rw [if_pos second, if_neg (by omega), if_pos (by simp only [Covers, getTypeNumSlots]; omega),
        second]
    · by_cases first : s = slot
      · rw [if_neg second, if_pos first, if_pos (by simp only [Covers, getTypeNumSlots]; omega),
          first]
      · rw [if_neg second, if_neg first, if_neg (by simp only [Covers, getTypeNumSlots]; omega)]

/-! ## The register -/

section Register
variable {height : Nat} {dyn : List Entry} {e : Entry} {reg : Option Nat}

theorem RegisterAt.of_top (at_ : RegisterAt height (e :: dyn) reg)
    (inReg : e.slot = reg0SlotAlias) : ∀ other ∈ dyn, other.slot ≠ reg0SlotAlias := by
  cases reg with
  | none => exact absurd inReg (at_ e (by simp))
  | some stackIndex =>
    obtain ⟨above, found, below, split, -, -, others⟩ := at_
    cases above with
    | nil =>
      obtain ⟨rfl, rfl⟩ := List.cons.inj split
      simpa using others
    | cons first above =>
      obtain ⟨rfl, -⟩ := List.cons.inj split
      exact absurd inReg (others e (by simp))

theorem RegisterAt.of_slot (at_ : RegisterAt height (e :: dyn) reg)
    (inSlot : e.slot ≠ reg0SlotAlias) : RegisterAt height dyn reg := by
  cases reg with
  | none => exact fun other inside => at_ other (by simp [inside])
  | some stackIndex =>
    obtain ⟨above, found, below, split, index, inReg, others⟩ := at_
    cases above with
    | nil =>
      obtain ⟨rfl, rfl⟩ := List.cons.inj split
      exact absurd inReg inSlot
    | cons first above =>
      obtain ⟨rfl, rfl⟩ := List.cons.inj split
      exact ⟨above, found, below, rfl, index, inReg, fun other inside => others other (by
        simp only [List.cons_append, List.mem_cons]
        exact .inr inside)⟩

theorem RegisterAt.slot_cons (at_ : RegisterAt height dyn reg)
    (inSlot : e.slot ≠ reg0SlotAlias) : RegisterAt height (e :: dyn) reg := by
  cases reg with
  | none =>
    intro other inside
    rcases List.mem_cons.mp inside with rfl | inside
    · exact inSlot
    · exact at_ other inside
  | some stackIndex =>
    obtain ⟨above, found, below, rfl, index, inReg, others⟩ := at_
    refine ⟨e :: above, found, below, rfl, index, inReg, fun other inside => ?_⟩
    rcases List.mem_cons.mp inside with rfl | inside
    · exact inSlot
    · exact others other inside

theorem RegisterAt.register_cons (free : ∀ other ∈ dyn, other.slot ≠ reg0SlotAlias)
    (inReg : e.slot = reg0SlotAlias) :
    RegisterAt height (e :: dyn) (some (height + dyn.length)) :=
  ⟨[], e, dyn, rfl, rfl, inReg, free⟩

end Register

/-! ## Places -/

section Slots
variable {floor : Nat} {base dyn : List Entry} {o o' : Compilation}

/-- A value that is not in the register lies below the end of the frame. -/
theorem Valid.slot_of_ne (valid : Valid floor base dyn o) {e : Entry} (inside : e ∈ dyn)
    (inSlot : e.slot ≠ reg0SlotAlias) :
    e.slot + getTypeNumSlots e.type ≤ o.maxStackSlots ∧
    e.slot + getTypeNumSlots e.type ≤ maxFunctionSlots := by
  have constHigh := Nat.le_trans valid.constLow valid.constHigh
  have dynamicLow := valid.dynamicLow
  have dynamicHigh := valid.dynamicHigh
  rcases valid.placed e inside with inReg | isLocal | ⟨-, all⟩ | ⟨-, high, max⟩
  · exact absurd inReg inSlot
  · obtain ⟨-, high⟩ := valid.locals e isLocal
    constructor <;> omega
  · have some := numSlots_pos e.type
    have last := (all (e.slot + getTypeNumSlots e.type - 1) (by unfold Covers; omega)).2
    constructor <;> omega
  · exact ⟨max, high⟩

theorem below_alias {e : Entry} (low : e.slot + getTypeNumSlots e.type ≤ maxFunctionSlots) :
    e.slot < reg0SlotAlias :=
  calc e.slot ≤ e.slot + getTypeNumSlots e.type := Nat.le_add_right _ _
    _ ≤ maxFunctionSlots := low
    _ < reg0SlotAlias := by decide

/-- The test of the alias finds the value that is in the register. -/
theorem Valid.isRegisterSlotAlias_iff (valid : Valid floor base dyn o) {e : Entry}
    (inside : e ∈ dyn) : isRegisterSlotAlias e.slot = true ↔ e.slot = reg0SlotAlias := by
  constructor
  · intro test
    by_contra inSlot
    have low := (valid.slot_of_ne inside inSlot).2
    have high := (Bool.and_eq_true _ _ ▸ test).1
    exact absurd (of_decide_eq_true high) (not_le.mpr (below_alias low))
  · intro inReg
    simp [isRegisterSlotAlias, inReg, reg0SlotAlias, slotUnused]

theorem Valid.inRegister_iff (valid : Valid floor base dyn o) {e : Entry} (inside : e ∈ dyn) :
    inRegister e = true ↔ e.slot = reg0SlotAlias := by
  constructor
  · intro test
    by_contra inSlot
    have low := (valid.slot_of_ne inside inSlot).2
    exact absurd (of_decide_eq_true test) (not_le.mpr (below_alias low))
  · intro inReg
    simp [inRegister, inReg]

/-! ## Values of their own -/

/-- Slots beyond the constants that hold no value. -/
structure Fresh (dyn : List Entry) (o : Compilation) (slot : Nat) (type : ValType) : Prop where
  low : o.slotFirstDynamicIndex ≤ slot
  high : slot + getTypeNumSlots type ≤ maxFunctionSlots
  unused : ∀ s, Covers ⟨slot, type⟩ s → users dyn s = 0

theorem Valid.fresh_of (valid : Valid floor base dyn o) {type : ValType} {slot : Nat}
    (low : o.slotFirstDynamicIndex ≤ slot)
    (high : slot + getTypeNumSlots type ≤ maxFunctionSlots)
    (free : ∀ s, Covers ⟨slot, type⟩ s → o.m3Slots s = 0) : Fresh dyn o slot type := by
  refine ⟨low, high, fun s inside => ?_⟩
  have unused := free s inside
  obtain ⟨below, above⟩ := inside
  simp only at below above
  rw [← valid.counts s (by omega) (by omega)]
  exact unused

theorem Valid.fresh (valid : Valid floor base dyn o) {type : ValType} {slot : Nat}
    (done : o.allocateSlots type = .ok (slot, o')) :
    Fresh dyn o slot type ∧ o' = o.markSlotsAllocated slot (getTypeNumSlots type) := by
  obtain ⟨low, high, free, same⟩ := allocate_spec done
  exact ⟨valid.fresh_of low high free, same⟩

theorem Placed.mark {slot : Nat} {type : ValType} {e : Entry} (placed : Placed base o e) :
    Placed base (o.markSlotsAllocated slot (getTypeNumSlots type)) e := by
  rw [mark_eq]
  rcases placed with inReg | isLocal | ⟨low, all⟩ | ⟨low, high, max⟩
  · exact .inl inReg
  · exact .inr (.inl isLocal)
  · refine .inr (.inr (.inl ⟨low, fun s inside => ⟨?_, (all s inside).2⟩⟩))
    simp only
    split
    · exact Nat.one_ne_zero
    · exact (all s inside).1
  · exact .inr (.inr (.inr ⟨low, high, Nat.le_trans max (Nat.le_max_left _ _)⟩))

theorem Extends.mark (slot : Nat) (type : ValType) :
    Extends o (o.markSlotsAllocated slot (getTypeNumSlots type)) := by
  rw [mark_eq]
  refine ⟨rfl, rfl, Nat.le_max_left _ _, fun s _ _ allocated => ⟨?_, rfl⟩⟩
  simp only
  split
  · exact Nat.one_ne_zero
  · exact allocated

/-- Fresh slots take a value: on top of the stack, or one that leaves the register. -/
theorem Valid.mark (valid : Valid floor base dyn o) {slot : Nat} {type : ValType}
    (fresh : Fresh dyn o slot type) (dyn' : List Entry) (reg : Option Nat)
    (counted : ∀ s < maxFunctionSlots,
      users dyn' s = users dyn s + if Covers ⟨slot, type⟩ s then 1 else 0)
    (from_ : ∀ e ∈ dyn', e ∈ dyn ∨ e = ⟨slot, type⟩)
    (registered : RegisterAt base.length dyn' reg) :
    Valid floor base dyn'
      { o.markSlotsAllocated slot (getTypeNumSlots type) with
        stack := dyn' ++ base.reverse, regStackIndex := reg } := by
  have moved : ∀ e ∈ dyn', Placed base (o.markSlotsAllocated slot (getTypeNumSlots type)) e := by
    intro e inside
    rcases from_ e inside with old | rfl
    · exact (valid.placed e old).mark
    · rw [mark_eq]
      exact .inr (.inr (.inr ⟨fresh.low, fresh.high, Nat.le_max_right _ _⟩))
  rw [mark_eq] at moved ⊢
  refine ⟨rfl, valid.block, valid.first, valid.locals, valid.apart, valid.floorLow,
    valid.constLow, valid.constHigh, Nat.le_trans valid.dynamicLow (Nat.le_max_left _ _),
    valid.dynamicHigh, Nat.max_le.mpr ⟨valid.maxHigh, fresh.high⟩, ?_, ?_, ?_, moved, registered⟩
  · intro s low high allocated
    refine valid.table s low high ?_
    dsimp only at allocated
    rwa [if_neg] at allocated
    rintro ⟨below, -⟩
    exact absurd (Nat.lt_of_lt_of_le high fresh.low) (Nat.not_lt.mpr below)
  · intro s low high
    rw [counted s high]
    by_cases inside : Covers ⟨slot, type⟩ s
    · simp only [if_pos inside, fresh.unused s inside]
    · simp only [if_neg inside, valid.counts s low high, Nat.add_zero]
  · intro s
    simp only
    split
    · decide
    · exact valid.small s

/-! ## Steps of the compiler -/

/-- A part of the compiler that leaves a valid state, having emitted `words`. -/
structure Passes (floor : Nat) (base : List Entry) (o : Compilation) (words : List CodeWord)
    (dyn' : List Entry) (o' : Compilation) : Prop where
  valid : Valid floor base dyn' o'
  keeps : Extends o o'
  page : o'.page = o.page ++ words
  wasm : o'.wasm = o.wasm

theorem Passes.trans {dyn'' : List Entry} {o'' : Compilation} {words later : List CodeWord}
    (before : Passes floor base o words dyn o') (after : Passes floor base o' later dyn'' o'') :
    Passes floor base o (words ++ later) dyn'' o'' where
  valid := after.valid
  keeps := before.keeps.trans after.keeps
  page := by rw [after.page, before.page, List.append_assoc]
  wasm := after.wasm.trans before.wasm

theorem Passes.emit {words : List CodeWord} (before : Passes floor base o words dyn o')
    (later : List CodeWord) : Passes floor base o (words ++ later) dyn (o'.emit later) where
  valid := before.valid.emit later
  keeps := before.keeps.trans (Extends.emit o' later)
  page := by
    rw [← List.append_assoc, ← before.page]
    rfl
  wasm := before.wasm

theorem Valid.passes (valid : Valid floor base dyn o) : Passes floor base o [] dyn o :=
  ⟨valid, Extends.refl o, (List.append_nil _).symm, rfl⟩

/-- Only a value of the body can be popped. -/
theorem Valid.of_pop (valid : Valid floor base dyn o) (done : o.pop = .ok o') :
    ∃ e below, dyn = e :: below := by
  cases dyn with
  | nil =>
    have none : ¬ o.blockStackIndex < o.stack.length := by
      rw [valid.block, valid.stack]
      simp
    rw [Compilation.pop, if_neg none] at done
    cases done
  | cons e below => exact ⟨e, below, rfl⟩

/-- The users of a slot that is popped, but for the value itself. -/
theorem Valid.counts_pop {e : Entry} (valid : Valid floor base (e :: dyn) o) {s : Nat}
    (low : o.slotFirstDynamicIndex ≤ s) (high : s < maxFunctionSlots) :
    o.m3Slots s = users dyn s + if Covers e s then 1 else 0 := by
  rw [valid.counts s low high, users_cons]

theorem Valid.pop {e : Entry} (valid : Valid floor base (e :: dyn) o) (done : o.pop = .ok o') :
    Passes floor base o [] dyn o' := by
  have enough : o.blockStackIndex < o.stack.length := by
    rw [valid.block, valid.stack]
    simp
  have rest : ∀ other ∈ dyn, Placed base o other :=
    fun other inside => valid.placed other (by simp [inside])
  have test := valid.isRegisterSlotAlias_iff (e := e) (by simp)
  rw [Compilation.pop, if_pos enough] at done
  simp only [valid.stack, List.cons_append] at done
  split at done
  · next found =>
    -- the value was in the register, which covers no slot
    have inReg := test.mp found
    obtain rfl := Except.ok.inj done
    refine ⟨⟨rfl, valid.block, valid.first, valid.locals, valid.apart, valid.floorLow,
      valid.constLow, valid.constHigh, valid.dynamicLow, valid.dynamicHigh, valid.maxHigh,
      valid.table, ?_, valid.small, rest, valid.register.of_top inReg⟩,
      ⟨rfl, rfl, Nat.le_refl _, fun _ _ _ allocated => ⟨allocated, rfl⟩⟩,
      (List.append_nil _).symm, rfl⟩
    intro s low high
    have outside : ¬ Covers e s := by
      rintro ⟨below, -⟩
      rw [inReg] at below
      exact absurd (Nat.lt_of_le_of_lt below high) (by decide)
    exact (valid.counts_pop low high).trans (by rw [if_neg outside, Nat.add_zero])
  · next other =>
    have inSlot : e.slot ≠ reg0SlotAlias := fun inReg => other (test.mpr inReg)
    split at done
    · next dynamic =>
      obtain rfl := Except.ok.inj done
      rw [deallocateSlot_eq]
      refine ⟨⟨rfl, valid.block, valid.first, valid.locals, valid.apart, valid.floorLow,
        valid.constLow, valid.constHigh, valid.dynamicLow, valid.dynamicHigh, valid.maxHigh, ?_, ?_, ?_,
        ?_, valid.register.of_slot inSlot⟩, ⟨rfl, rfl, Nat.le_refl _, ?_⟩,
        (List.append_nil _).symm, rfl⟩
      · intro s low high allocated
        refine valid.table s low high ?_
        dsimp only at allocated
        rwa [if_neg] at allocated
        rintro ⟨below, -⟩
        exact absurd (Nat.lt_of_lt_of_le high dynamic) (Nat.not_lt.mpr below)
      · intro s low high
        have before := valid.counts_pop low high
        have bound := valid.small s
        dsimp only
        split
        · next inside =>
          rw [if_pos inside] at before
          omega
        · next outside =>
          rw [if_neg outside] at before
          omega
      · intro s
        have bound := valid.small s
        dsimp only
        split
        · omega
        · exact bound
      · intro value inside
        rcases rest value inside with inReg | isLocal | ⟨low, all⟩ | own
        · exact .inl inReg
        · exact .inr (.inl isLocal)
        · refine .inr (.inr (.inl ⟨low, fun s covered => ⟨?_, (all s covered).2⟩⟩))
          dsimp only
          rw [if_neg]
          · exact (all s covered).1
          · rintro ⟨below, -⟩
            exact absurd (Nat.lt_of_lt_of_le (all s covered).2 dynamic) (Nat.not_lt.mpr below)
        · exact .inr (.inr (.inr own))
      · intro s _ high allocated
        refine ⟨?_, rfl⟩
        dsimp only
        rwa [if_neg]
        rintro ⟨below, -⟩
        exact absurd (Nat.lt_of_lt_of_le high dynamic) (Nat.not_lt.mpr below)
    · next static =>
      -- a local or a constant: its slots are not counted
      obtain rfl := Except.ok.inj done
      refine ⟨⟨rfl, valid.block, valid.first, valid.locals, valid.apart, valid.floorLow,
        valid.constLow, valid.constHigh, valid.dynamicLow, valid.dynamicHigh, valid.maxHigh,
        valid.table, ?_, valid.small, rest, valid.register.of_slot inSlot⟩,
        ⟨rfl, rfl, Nat.le_refl _, fun _ _ _ allocated => ⟨allocated, rfl⟩⟩,
        (List.append_nil _).symm, rfl⟩
      intro s low high
      have outside : ¬ Covers e s := by
        intro covered
        have constHigh := Nat.le_trans valid.constLow valid.constHigh
        rcases valid.placed e (by simp) with inReg | isLocal | ⟨-, all⟩ | ⟨own, -⟩
        · exact inSlot inReg
        · have ends := (valid.locals e isLocal).2
          have := covered.2
          dsimp only at low
          omega
        · exact absurd low (Nat.not_le.mpr (all s covered).2)
        · exact static own
      exact (valid.counts_pop low high).trans (by rw [if_neg outside, Nat.add_zero])

theorem push_eq {type : ValType} {slot : Nat} (done : o.push type slot = .ok o') :
    o' = { o with
      stack := ⟨slot, type⟩ :: o.stack
      regStackIndex :=
        if isRegisterSlotAlias slot then some o.stack.length else o.regStackIndex } := by
  unfold Compilation.push at done
  split at done
  · exact (Except.ok.inj done).symm
  · cases done

theorem push_slot {type : ValType} {slot : Nat} (low : slot < reg0SlotAlias)
    (done : o.push type slot = .ok o') : o' = { o with stack := ⟨slot, type⟩ :: o.stack } := by
  have test : isRegisterSlotAlias slot = false := by
    simp [isRegisterSlotAlias, low]
  rw [push_eq done, test]
  rfl

/-- A local or a constant is only pushed. -/
theorem Valid.push (valid : Valid floor base dyn o) {e : Entry} (placed : Placed base o e)
    (static : ∀ s, Covers e s → s < o.slotFirstDynamicIndex) (inSlot : e.slot < reg0SlotAlias)
    (done : o.push e.type e.slot = .ok o') : Passes floor base o [] (e :: dyn) o' := by
  obtain rfl := push_slot inSlot done
  refine ⟨⟨?_, valid.block, valid.first, valid.locals, valid.apart, valid.floorLow,
    valid.constLow, valid.constHigh, valid.dynamicLow, valid.dynamicHigh, valid.maxHigh,
    valid.table, ?_, valid.small, ?_, valid.register.slot_cons (Nat.ne_of_lt inSlot)⟩,
    ⟨rfl, rfl, Nat.le_refl _, fun _ _ _ allocated => ⟨allocated, rfl⟩⟩,
    (List.append_nil _).symm, rfl⟩
  · rw [valid.stack]
    rfl
  · intro s low high
    have outside : ¬ Covers e s := fun covered => absurd (static s covered) (Nat.not_lt.mpr low)
    rw [users_cons, if_neg outside]
    exact valid.counts s low high
  · intro other inside
    rcases List.mem_cons.mp inside with rfl | inside
    · exact placed
    · exact valid.placed other inside

theorem Valid.pushRegister (valid : Valid floor base dyn o) {type : ValType}
    (free : ∀ e ∈ dyn, e.slot ≠ reg0SlotAlias) (done : o.pushRegister type = .ok o') :
    Passes floor base o [] (⟨reg0SlotAlias, type⟩ :: dyn) o' := by
  have test : isRegisterSlotAlias reg0SlotAlias = true := by decide
  obtain rfl := push_eq done
  rw [test, if_pos rfl, valid.stack]
  refine ⟨⟨rfl, valid.block, valid.first, valid.locals, valid.apart, valid.floorLow,
    valid.constLow, valid.constHigh, valid.dynamicLow, valid.dynamicHigh, valid.maxHigh,
    valid.table, ?_, valid.small, ?_, ?_⟩,
    ⟨rfl, rfl, Nat.le_refl _, fun _ _ _ allocated => ⟨allocated, rfl⟩⟩,
    (List.append_nil _).symm, rfl⟩
  · intro s low high
    have outside : ¬ Covers ⟨reg0SlotAlias, type⟩ s := fun covered =>
      absurd (Nat.lt_of_le_of_lt covered.1 high) (by dsimp only; decide)
    rw [users_cons, if_neg outside]
    exact valid.counts s low high
  · intro other inside
    rcases List.mem_cons.mp inside with rfl | inside
    · exact .inl rfl
    · exact valid.placed other inside
  · have height : (dyn ++ base.reverse).length = base.length + dyn.length := by
      simp [Nat.add_comm]
    rw [height]
    exact RegisterAt.register_cons free rfl

/-- A value in fresh slots on top of the stack. -/
theorem Valid.pushAllocatedSlot (valid : Valid floor base dyn o) {type : ValType} {slot : Nat}
    (done : o.pushAllocatedSlot type = .ok (slot, o')) :
    Fresh dyn o slot type ∧ Passes floor base o [] (⟨slot, type⟩ :: dyn) o' := by
  obtain ⟨⟨found, marked⟩, allocated, rest⟩ := ok_of_bind done
  obtain ⟨pushed, push, rest⟩ := ok_of_bind rest
  obtain ⟨rfl, rfl⟩ := Prod.mk.inj (Except.ok.inj rest)
  obtain ⟨fresh, rfl⟩ := valid.fresh allocated
  have inSlot : found < reg0SlotAlias := below_alias (e := ⟨found, type⟩) fresh.high
  have after := valid.mark fresh (⟨found, type⟩ :: dyn) o.regStackIndex
    (fun s _ => users_cons _ _ _)
    (fun e inside => (List.mem_cons.mp inside).symm.imp id id)
    (valid.register.slot_cons (Nat.ne_of_lt inSlot))
  have same := push_slot inSlot push
  have kept : (o.markSlotsAllocated found (getTypeNumSlots type)).stack = o.stack ∧
      (o.markSlotsAllocated found (getTypeNumSlots type)).regStackIndex = o.regStackIndex := by
    rw [mark_eq]
    exact ⟨rfl, rfl⟩
  rw [kept.1, valid.stack] at same
  refine ⟨fresh, ⟨?_, ?_, ?_, ?_⟩⟩
  · rw [same]
    rw [← kept.2] at after
    exact after
  · rw [same]
    have marks := Extends.mark (o := o) found type
    exact ⟨marks.firstConst, marks.firstDynamic, marks.maxStack, marks.table⟩
  · rw [same, mark_eq, List.append_nil]
  · rw [same, mark_eq]

theorem modify_at_length {α : Type} (f : α → α) (above below : List α) (a : α) :
    (above ++ a :: below).modify above.length f = above ++ f a :: below := by
  induction above with
  | nil => rfl
  | cons first above ih =>
    rw [List.cons_append, List.length_cons, List.modify_succ_cons, ih, List.cons_append]

/-- What the register holds, if anything, moves to fresh slots. -/
theorem Valid.preserveRegister (valid : Valid floor base dyn o)
    (done : o.preserveRegisterIfOccupied = .ok o') :
    (o' = o ∧ ∀ e ∈ dyn, e.slot ≠ reg0SlotAlias) ∨
    ∃ above e below slot, dyn = above ++ e :: below ∧ e.slot = reg0SlotAlias ∧
      Fresh dyn o slot e.type ∧
      Passes floor base o [.op (.SetSlot e.type), .slot slot]
        (above ++ ⟨slot, e.type⟩ :: below) o' ∧
      ∀ other ∈ above ++ ⟨slot, e.type⟩ :: below, other.slot ≠ reg0SlotAlias := by
  have register := valid.register
  unfold preserveRegisterIfOccupied at done
  split at done
  · next none =>
    rw [none] at register
    exact .inl ⟨(Except.ok.inj done).symm, register⟩
  · next stackIndex found =>
    rw [found] at register
    obtain ⟨above, e, below, rfl, rfl, inReg, others⟩ := register
    have position : o.stack.length - 1 - (base.length + below.length) = above.length := by
      rw [valid.stack]
      simp
      omega
    have entry : o.entryFromBottom (base.length + below.length) = some e := by
      rw [entryFromBottom, if_pos (by rw [valid.stack]; simp; omega), position, valid.stack]
      simp
    rw [entry] at done
    obtain ⟨⟨slot, marked⟩, allocated, rest⟩ := ok_of_bind done
    obtain rfl := Except.ok.inj rest
    obtain ⟨low, high, free, rfl⟩ := allocate_spec allocated
    have fresh : Fresh (above ++ e :: below) o slot e.type := valid.fresh_of low high free
    have moved : ∀ other ∈ above ++ ⟨slot, e.type⟩ :: below, other.slot ≠ reg0SlotAlias := by
      intro other inside
      rcases List.mem_append.mp inside with inside | inside
      · exact others other (by simp [inside])
      · rcases List.mem_cons.mp inside with rfl | inside
        · exact Nat.ne_of_lt (below_alias (e := ⟨slot, e.type⟩) high)
        · exact others other (by simp [inside])
    have after := valid.mark fresh (above ++ ⟨slot, e.type⟩ :: below) none
      (fun s inside => by
        have outside : ¬ Covers e s := by
          rintro ⟨covered, -⟩
          rw [inReg] at covered
          exact absurd (Nat.lt_of_le_of_lt covered inside) (by decide)
        rw [users_append, users_append, users_cons, users_cons, if_neg outside]
        omega)
      (fun other inside => by
        rcases List.mem_append.mp inside with inside | inside
        · exact .inl (by simp [inside])
        · rcases List.mem_cons.mp inside with rfl | inside
          · exact .inr rfl
          · exact .inl (by simp [inside]))
      moved
    have marks := Extends.mark (o := o) slot e.type
    rw [mark_eq] at after marks ⊢
    refine .inr ⟨above, e, below, slot, rfl, inReg, fresh, ⟨?_, ?_, rfl, rfl⟩, moved⟩
    · have stack : o.stack.modify (o.stack.length - 1 - (base.length + below.length))
          (fun e => { e with slot := slot }) =
          (above ++ ⟨slot, e.type⟩ :: below) ++ base.reverse := by
        rw [position, valid.stack, List.append_assoc, List.cons_append, modify_at_length,
          List.append_assoc, List.cons_append]
      simp only [setSlotFromBottom, stack]
      exact after.emit _
    · exact ⟨marks.firstConst, marks.firstDynamic, marks.maxStack, marks.table⟩

end Slots

end VelumOS.Spec.Compiler
