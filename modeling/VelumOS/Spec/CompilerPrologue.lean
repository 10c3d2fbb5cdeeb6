import VelumOS.Spec.CompilerBlocks

/-!
# Frames

Before the code the compiler lays out the frame: the results, the arguments two slots
apart, the locals wherever they fit behind them, and the constants. No two of these
overlap, and that is the state which the compilation of the body starts in.
-/
namespace VelumOS.Spec.Compiler
open Base.Leb128 Base.Wasm Source.M3 Source.M3.Compilation

/-! ## Entries -/

/-- A frame that is laid out as far as these entries. -/
structure Laid (floor : Nat) (entries : List Entry) (o : Compilation) : Prop where
  stack : o.stack = entries.reverse
  low : ∀ e ∈ entries, floor ≤ e.slot
  floorLow : floor ≤ o.slotFirstDynamicIndex
  used : ∀ e ∈ entries, ∀ s, Covers e s → o.m3Slots s ≠ 0
  high : ∀ s, o.m3Slots s ≠ 0 → s < o.slotMaxAllocatedIndexPlusOne
  small : ∀ s, o.m3Slots s ≤ 255
  apart : entries.Pairwise fun e other => ∀ slot, ¬ (Covers e slot ∧ Covers other slot)
  register : o.regStackIndex = none
  page : o.page = []

/-- What a push leaves of the compiler's state. -/
structure Keeps (o o' : Compilation) : Prop where
  firstDynamic : o'.slotFirstDynamicIndex = o.slotFirstDynamicIndex
  firstLocal : o'.slotFirstLocalIndex = o.slotFirstLocalIndex
  wasm : o'.wasm = o.wasm
  maxAllocated : o.slotMaxAllocatedIndexPlusOne ≤ o'.slotMaxAllocatedIndexPlusOne

theorem Keeps.refl (o : Compilation) : Keeps o o := ⟨rfl, rfl, rfl, Nat.le_refl _⟩

theorem Keeps.trans {o o' o'' : Compilation} (before : Keeps o o') (after : Keeps o' o'') :
    Keeps o o'' :=
  ⟨after.firstDynamic.trans before.firstDynamic, after.firstLocal.trans before.firstLocal,
    after.wasm.trans before.wasm, Nat.le_trans before.maxAllocated after.maxAllocated⟩

section Entries
variable {floor : Nat} {entries : List Entry} {o o' : Compilation} {type : ValType} {slot : Nat}

/-- An allocated entry: free slots, marked and pushed. -/
theorem pushAllocatedSlot_eq (done : o.pushAllocatedSlot type = .ok (slot, o')) :
    o.slotFirstDynamicIndex ≤ slot ∧ (∀ s, Covers ⟨slot, type⟩ s → o.m3Slots s = 0) ∧
    o.allocateSlots type = .ok (slot, o.markSlotsAllocated slot (getTypeNumSlots type)) ∧
    o' = { o with
      m3Slots := fun s => if Covers ⟨slot, type⟩ s then 1 else o.m3Slots s
      slotMaxAllocatedIndexPlusOne :=
        max o.slotMaxAllocatedIndexPlusOne (slot + getTypeNumSlots type)
      maxStackSlots := max o.maxStackSlots (slot + getTypeNumSlots type)
      stack := ⟨slot, type⟩ :: o.stack } := by
  obtain ⟨⟨found, marked⟩, allocated, rest⟩ := ok_of_bind done
  obtain ⟨pushed, push, rest⟩ := ok_of_bind rest
  obtain ⟨rfl, rfl⟩ := Prod.mk.inj (Except.ok.inj rest)
  obtain ⟨low, high, free, rfl⟩ := allocate_spec allocated
  have inSlot : found < reg0SlotAlias := below_alias (e := ⟨found, type⟩) high
  have same := push_slot inSlot push
  rw [mark_eq] at same
  exact ⟨low, free, allocated, same⟩

theorem Laid.push (laid : Laid floor entries o)
    (done : o.pushAllocatedSlot type = .ok (slot, o')) :
    Laid floor (entries ++ [⟨slot, type⟩]) o' ∧ Keeps o o' ∧ o.slotFirstDynamicIndex ≤ slot := by
  obtain ⟨low, free, -, rfl⟩ := pushAllocatedSlot_eq done
  refine ⟨⟨?_, ?_, laid.floorLow, ?_, ?_, ?_, ?_, laid.register, laid.page⟩,
    ⟨rfl, rfl, rfl, Nat.le_max_left _ _⟩, low⟩
  · rw [List.reverse_append, laid.stack]
    rfl
  · intro e inside
    rcases List.mem_append.mp inside with inside | inside
    · exact laid.low e inside
    · obtain rfl := List.mem_singleton.mp inside
      exact Nat.le_trans laid.floorLow low
  · intro e inside s covered
    dsimp only
    split
    · exact Nat.one_ne_zero
    · next outside =>
      rcases List.mem_append.mp inside with inside | inside
      · exact laid.used e inside s covered
      · obtain rfl := List.mem_singleton.mp inside
        exact absurd covered outside
  · intro s used
    dsimp only at used ⊢
    split at used
    · next covered => exact Nat.lt_of_lt_of_le covered.2 (Nat.le_max_right _ _)
    · exact Nat.lt_of_lt_of_le (laid.high s used) (Nat.le_max_left _ _)
  · intro s
    dsimp only
    split
    · decide
    · exact laid.small s
  · rw [List.pairwise_append]
    refine ⟨laid.apart, List.pairwise_singleton _ _, fun e inside other last s both => ?_⟩
    obtain rfl := List.mem_singleton.mp last
    exact laid.used e inside s both.1 (free s both.2)

/-! ## Arguments -/

/-- The entries of the arguments, from the first slot. -/
def argEntries : Nat → List ValType → List Entry
  | _, [] => []
  | slot, type :: args => ⟨slot, type⟩ :: argEntries (slot + ioSlotCount) args

/-- Where all slots are free the first is taken. -/
theorem allocateSlots_first {marked : Compilation} (even : o.slotFirstDynamicIndex % 2 = 0)
    (free : ∀ s, o.slotFirstDynamicIndex ≤ s → o.m3Slots s = 0)
    (done : o.allocateSlots type = .ok (slot, marked)) : slot = o.slotFirstDynamicIndex := by
  have aligned : alignSlotToType o.slotFirstDynamicIndex type = o.slotFirstDynamicIndex := by
    unfold alignSlotToType
    cases type with
    | i32 => simp [getTypeNumSlots]
    | i64 =>
      simp only [getTypeNumSlots]
      omega
  have fuel : maxFunctionSlots = 3999 + 1 := rfl
  simp only [allocateSlots, allocateSlotsWithinRange, aligned] at done
  rw [fuel, findSlots] at done
  split at done
  · next found search =>
    obtain ⟨rfl, -⟩ := Prod.mk.inj (Except.ok.inj done)
    split at search
    · rw [if_pos ⟨free _ (Nat.le_refl _), free _ (Nat.le_add_right _ _)⟩] at search
      exact (Option.some.inj search).symm
    · cases search
  · cases done

theorem pushArgs_spec {args : List ValType} (laid : Laid floor entries o)
    (even : o.slotFirstDynamicIndex % 2 = 0)
    (free : ∀ s, o.slotFirstDynamicIndex ≤ s → o.m3Slots s = 0)
    (done : pushArgs args o = .ok o') :
    Laid floor (entries ++ argEntries o.slotFirstDynamicIndex args) o' ∧
    o'.slotFirstDynamicIndex = o.slotFirstDynamicIndex + args.length * ioSlotCount ∧
    o'.wasm = o.wasm ∧ ∀ s, o'.slotFirstDynamicIndex ≤ s → o'.m3Slots s = 0 := by
  induction args generalizing entries o with
  | nil =>
    obtain rfl := Except.ok.inj done
    exact ⟨by simpa [argEntries] using laid, by simp, rfl, free⟩
  | cons type args ih =>
    rw [pushArgs] at done
    obtain ⟨⟨slot, o₁⟩, push, rest⟩ := ok_of_bind done
    obtain ⟨laid₁, keeps, low⟩ := laid.push push
    obtain ⟨-, -, allocated, same⟩ := pushAllocatedSlot_eq push
    obtain rfl := allocateSlots_first even free allocated
    have next : Laid floor (entries ++ [⟨o.slotFirstDynamicIndex, type⟩])
        { o₁ with slotFirstDynamicIndex := o₁.slotFirstDynamicIndex + ioSlotCount } :=
      ⟨laid₁.stack, laid₁.low, Nat.le_add_right_of_le laid₁.floorLow, laid₁.used, laid₁.high,
        laid₁.small, laid₁.apart, laid₁.register, laid₁.page⟩
    have few := numSlots_le type
    have free₁ : ∀ s, o₁.slotFirstDynamicIndex + ioSlotCount ≤ s → o₁.m3Slots s = 0 := by
      intro s above
      rw [keeps.firstDynamic, ioSlotCount] at above
      rw [same]
      dsimp only
      rw [if_neg]
      · exact free s (by omega)
      · rintro ⟨-, below⟩
        dsimp only at below
        omega
    have even₁ : (o₁.slotFirstDynamicIndex + ioSlotCount) % 2 = 0 := by
      rw [keeps.firstDynamic, ioSlotCount]
      omega
    obtain ⟨laid₂, first, wasm, free₂⟩ := ih next even₁ free₁ rest
    dsimp only at laid₂ first wasm
    rw [keeps.firstDynamic] at laid₂ first
    refine ⟨?_, ?_, wasm.trans keeps.wasm, free₂⟩
    · rw [List.append_assoc] at laid₂
      exact laid₂
    · rw [first, List.length_cons, Nat.succ_mul, Nat.add_assoc, Nat.add_comm ioSlotCount]

/-! ## Locals -/

/-- Locals behind the arguments. -/
structure Pushes (floor : Nat) (entries : List Entry) (o : Compilation)
    (types : List ValType) (new : List Entry) (o' : Compilation) : Prop where
  laid : Laid floor (entries ++ new) o'
  types : new.map Entry.type = types
  low : ∀ e ∈ new, o.slotFirstDynamicIndex ≤ e.slot
  firstDynamic : o'.slotFirstDynamicIndex = o.slotFirstDynamicIndex
  firstLocal : o'.slotFirstLocalIndex = o.slotFirstLocalIndex
  maxAllocated : o.slotMaxAllocatedIndexPlusOne ≤ o'.slotMaxAllocatedIndexPlusOne

theorem Pushes.trans {o₁ : Compilation} {types types' : List ValType} {new new' : List Entry}
    (before : Pushes floor entries o types new o')
    (after : Pushes floor (entries ++ new) o' types' new' o₁) :
    Pushes floor entries o (types ++ types') (new ++ new') o₁ where
  laid := by
    rw [← List.append_assoc]
    exact after.laid
  types := by rw [List.map_append, before.types, after.types]
  low := by
    intro e inside
    rcases List.mem_append.mp inside with inside | inside
    · exact before.low e inside
    · have low := after.low e inside
      rwa [before.firstDynamic] at low
  firstDynamic := after.firstDynamic.trans before.firstDynamic
  firstLocal := after.firstLocal.trans before.firstLocal
  maxAllocated := Nat.le_trans before.maxAllocated after.maxAllocated

theorem Laid.pushes (laid : Laid floor entries o) : Pushes floor entries o [] [] o :=
  ⟨by rwa [List.append_nil], rfl, by simp, rfl, rfl, Nat.le_refl _⟩

/-- The compiler's code of a type. -/
def typeCode : ValType → UInt8
  | .i32 => 1
  | .i64 => 2

theorem pushLocal_eq (others : Others) :
    o.pushLocal others (typeCode type) = (o.pushAllocatedSlot type).map Prod.snd := by
  cases type <;> rfl

theorem pushLocals_spec {others : Others} {varCount : Nat} (laid : Laid floor entries o)
    (done : pushLocals others (typeCode type) varCount o = .ok o') :
    (∃ new, Pushes floor entries o (List.replicate varCount type) new o') ∧ o'.wasm = o.wasm := by
  induction varCount generalizing entries o with
  | zero =>
    obtain rfl := Except.ok.inj done
    exact ⟨⟨[], laid.pushes⟩, rfl⟩
  | succ varCount ih =>
    rw [pushLocals] at done
    obtain ⟨o₁, first, rest⟩ := ok_of_bind done
    rw [pushLocal_eq] at first
    obtain ⟨⟨slot, pushed⟩, push, rfl⟩ := ok_of_map first
    obtain ⟨laid₁, keeps, low⟩ := laid.push push
    obtain ⟨⟨new, pushes⟩, wasm⟩ := ih laid₁ rest
    have one : Pushes floor entries o [type] [⟨slot, type⟩] pushed :=
      ⟨laid₁, rfl, fun e inside => by
        obtain rfl := List.mem_singleton.mp inside
        exact low, keeps.firstDynamic, keeps.firstLocal, keeps.maxAllocated⟩
    exact ⟨⟨_, one.trans pushes⟩, wasm.trans keeps.wasm⟩

theorem readType (type : ValType) (rest : List UInt8) : ∃ value, readLEB_i7 (type.code :: rest) =
    .ok (value, rest) ∧ normalizeType value = .ok (typeCode type) := by
  cases type with
  | i32 =>
    exact ⟨_, readLebI_number (by decide) (show IsNumber [0x7f] from rfl) (by decide), by rfl⟩
  | i64 =>
    exact ⟨_, readLebI_number (by decide) (show IsNumber [0x7e] from rfl) (by decide), by rfl⟩

theorem compileLocalBlocks_spec {others : Others} {blocks : List LocalBlock}
    {octets behind : List UInt8} (encodes : EncodesBlocks blocks octets)
    (laid : Laid floor entries o) (source : o.wasm = octets ++ behind)
    (done : compileLocalBlocks others blocks.length o = .ok o') :
    (∃ new, Pushes floor entries o
      (blocks.flatMap fun block => List.replicate block.count.toNat block.type) new o') ∧
    o'.wasm = behind := by
  induction encodes generalizing entries o with
  | nil =>
    obtain rfl := Except.ok.inj done
    exact ⟨⟨[], laid.pushes⟩, source⟩
  | @cons type blocks count rest number others_ ih =>
    rw [List.append_assoc, List.cons_append] at source
    rw [List.length_cons, compileLocalBlocks, source] at done
    obtain ⟨⟨varCount, wasm⟩, first, next⟩ := ok_of_bind done
    have read : readLEB_u32 (count ++ (type.code :: (rest ++ behind))) =
        .ok (BitVec.ofNat 32 (unsigned count), type.code :: (rest ++ behind)) :=
      readLEB_u32_number number.1 number.2
    rw [read] at first
    obtain ⟨rfl, rfl⟩ := Prod.mk.inj (Except.ok.inj first)
    obtain ⟨value, readType, normal⟩ := readType type (rest ++ behind)
    obtain ⟨⟨waType, wasm⟩, second, next⟩ := ok_of_bind next
    rw [readType] at second
    obtain ⟨rfl, rfl⟩ := Prod.mk.inj (Except.ok.inj second)
    obtain ⟨localType, third, next⟩ := ok_of_bind next
    rw [normal] at third
    obtain rfl := Except.ok.inj third
    obtain ⟨o₁, pushed, next⟩ := ok_of_bind next
    have laid' : Laid floor entries { o with wasm := rest ++ behind } :=
      ⟨laid.stack, laid.low, laid.floorLow, laid.used, laid.high, laid.small, laid.apart,
        laid.register, laid.page⟩
    obtain ⟨⟨new, pushes⟩, wasm⟩ := pushLocals_spec laid' pushed
    obtain ⟨⟨new', pushes'⟩, ends⟩ := ih pushes.laid wasm next
    have before : Pushes floor entries o _ new o₁ :=
      ⟨pushes.laid, pushes.types, pushes.low, pushes.firstDynamic, pushes.firstLocal,
        pushes.maxAllocated⟩
    exact ⟨⟨_, before.trans pushes'⟩, ends⟩

/-! ## The end of the locals -/

/-- The search stops above every slot in use. -/
theorem lt_maxUsedSlotPlusOne {n s : Nat} (used : o.m3Slots s ≠ 0) (below : s < n) :
    s < o.maxUsedSlotPlusOne n := by
  induction n with
  | zero => omega
  | succ slot ih =>
    rw [maxUsedSlotPlusOne]
    split
    · split
      · exact below
      · next unused =>
        refine ih ?_
        rcases Nat.lt_or_eq_of_le (Nat.le_of_lt_succ below) with less | rfl
        · exact less
        · exact absurd (by simpa [isSlotAllocated] using used) unused
    · exact below

theorem le_maxUsedSlotPlusOne {n : Nat} (above : o.slotFirstDynamicIndex ≤ n) :
    o.slotFirstDynamicIndex ≤ o.maxUsedSlotPlusOne n := by
  induction n with
  | zero => exact above
  | succ slot ih =>
    rw [maxUsedSlotPlusOne]
    split
    · split
      · exact above
      · next less _ => exact ih (Nat.le_of_lt_succ less)
    · exact above

end Entries

/-! ## The frame of a body -/

/-- Where the compilation of the code starts. -/
structure Started (type : FunctionType) (body : Body) (behind : List UInt8)
    (locals : List Entry) (numLocalSlots : Nat) (o : Compilation) : Prop where
  valid : Valid (type.rets.length * ioSlotCount)
    (argEntries (type.rets.length * ioSlotCount) type.args ++ locals) [] o
  wasm : o.wasm = behind
  page : o.page = []
  types : locals.map Entry.type = body.locals
  low : ∀ e ∈ locals, o.slotFirstLocalIndex ≤ e.slot
  firstLocal : o.slotFirstLocalIndex =
    type.rets.length * ioSlotCount + type.args.length * ioSlotCount
  firstConst : o.slotFirstConstIndex = o.slotFirstLocalIndex + numLocalSlots

/-- The table of constants behind the locals. -/
theorem Laid.start {floor maxSlot : Nat} {entries : List Entry} {o o' : Compilation}
    (laid : Laid floor entries o) (max : o.maxUsedSlotPlusOne o.slotMaxAllocatedIndexPlusOne = maxSlot)
    (above : o.slotFirstDynamicIndex ≤ maxSlot)
    (done : { o with slotFirstConstIndex := maxSlot, slotMaxConstIndex := maxSlot }.reserveConstants
      = .ok o') :
    Valid floor entries [] { o' with
      maxStackSlots := o'.slotFirstDynamicIndex
      slotMaxAllocatedIndexPlusOne := o'.slotFirstDynamicIndex
      blockStackIndex := o'.stack.length
      stackFirstDynamicIndex := o'.stack.length } ∧
    o'.wasm = o.wasm ∧ o'.page = [] ∧ o'.slotFirstLocalIndex = o.slotFirstLocalIndex ∧
    o'.slotFirstConstIndex = maxSlot := by
  have below : ∀ s, o.m3Slots s ≠ 0 → s < maxSlot := by
    intro s used
    rw [← max]
    exact lt_maxUsedSlotPlusOne used (laid.high s used)
  have unused : ∀ s, maxSlot ≤ s → o.m3Slots s = 0 := by
    intro s beyond
    by_contra used
    exact absurd (below s used) (Nat.not_lt.mpr beyond)
  simp only [reserveConstants] at done
  split at done
  · cases done
  · next enough =>
    obtain rfl := Except.ok.inj done
    rw [not_le] at enough
    have height : o.stack.length = entries.length := by rw [laid.stack, List.length_reverse]
    refine ⟨⟨laid.stack, height, height, fun e inside => ⟨laid.low e inside, ?_⟩, laid.apart,
      Nat.le_trans laid.floorLow above, Nat.le_refl _, Nat.le_add_right _ _, Nat.le_refl _,
      enough, Nat.le_of_lt enough, ?_, ?_, laid.small, by simp, ?_⟩, rfl, laid.page, rfl, rfl⟩
    · have some := numSlots_pos e.type
      have last := below (e.slot + getTypeNumSlots e.type - 1)
        (laid.used e inside _ ⟨by omega, by omega⟩)
      show e.slot + getTypeNumSlots e.type ≤ maxSlot
      omega
    · intro s low _ used
      exact absurd (unused s low) used
    · intro s low _
      exact (unused s (Nat.le_trans (Nat.le_add_right _ _) low)).trans rfl
    · show RegisterAt entries.length [] o.regStackIndex
      rw [laid.register]
      simp [RegisterAt]

/-- The slots of the results, which are in use from the start. -/
theorem laid_results (wasm : List UInt8) (floor : Nat) :
    Laid floor [] { ({ wasm := wasm } : Compilation).markSlotsAllocated 0 floor with
      slotFirstDynamicIndex := floor } ∧
    (∀ s, floor ≤ s → (({ wasm := wasm } : Compilation).markSlotsAllocated 0 floor).m3Slots s = 0) ∧
    (({ wasm := wasm } : Compilation).markSlotsAllocated 0 floor).wasm = wasm := by
  rw [markSlotsAllocated_eq]
  refine ⟨⟨rfl, by simp, Nat.le_refl _, by simp, ?_, ?_, .nil, rfl, rfl⟩, ?_, rfl⟩
  · intro s used
    dsimp only at used ⊢
    split at used
    · next inside =>
      rw [if_neg (by omega)]
      omega
    · exact absurd rfl used
  · intro s
    dsimp only
    split <;> decide
  · intro s above
    dsimp only
    rw [if_neg (by omega)]

theorem compilePrologue_spec {others : Others} {type : FunctionType} {body : Body}
    {wasm : List UInt8} {numLocalSlots : Nat} {o : Compilation} (encodes : EncodesBody body wasm)
    (done : compilePrologue others type wasm = .ok (numLocalSlots, o)) :
    ∃ code locals, EncodesAll body.instrs code ∧
      Started type body (code ++ [0x0b]) locals numLocalSlots o := by
  cases encodes with
  | @intro size number blocks code sized counted same encodesBlocks encodesCode =>
    obtain ⟨⟨skipped, wasm⟩, first, rest⟩ := ok_of_bind done
    have readSize : readLEB_u32 (size ++ (number ++ (blocks ++ (code ++ [0x0b])))) =
        .ok (BitVec.ofNat 32 (unsigned size), number ++ (blocks ++ (code ++ [0x0b]))) :=
      readLEB_u32_number sized.1 sized.2
    rw [readSize] at first
    obtain ⟨rfl, rfl⟩ := Prod.mk.inj (Except.ok.inj first)
    obtain ⟨o₁, args, rest⟩ := ok_of_bind rest
    obtain ⟨o₂, locals, rest⟩ := ok_of_bind rest
    obtain ⟨o₃, reserved, rest⟩ := ok_of_bind rest
    obtain ⟨rfl, rfl⟩ := Prod.mk.inj (Except.ok.inj rest)
    obtain ⟨laid, free, unread⟩ := laid_results (number ++ (blocks ++ (code ++ [0x0b])))
      (type.rets.length * ioSlotCount)
    obtain ⟨laid₁, first₁, wasm₁, free₁⟩ := pushArgs_spec laid (Nat.mul_mod_left _ 2) free args
    -- behind the arguments the locals are allocated
    have laid₁' : Laid (type.rets.length * ioSlotCount)
        (argEntries (type.rets.length * ioSlotCount) type.args) { o₁ with
          slotMaxAllocatedIndexPlusOne := o₁.slotFirstDynamicIndex
          slotFirstLocalIndex := o₁.slotFirstDynamicIndex } := by
      refine ⟨laid₁.stack, laid₁.low, laid₁.floorLow, laid₁.used, fun s used => ?_, laid₁.small,
        laid₁.apart, laid₁.register, laid₁.page⟩
      by_contra beyond
      exact used (free₁ s (Nat.not_lt.mp beyond))
    obtain ⟨⟨numLocalBlocks, wasm⟩, second, blocks_⟩ := ok_of_bind locals
    have readNumber : readLEB_u32 (number ++ (blocks ++ (code ++ [0x0b]))) =
        .ok (BitVec.ofNat 32 (unsigned number), blocks ++ (code ++ [0x0b])) :=
      readLEB_u32_number counted.1 counted.2
    dsimp only at second
    rw [wasm₁, unread, readNumber] at second
    obtain ⟨rfl, rfl⟩ := Prod.mk.inj (Except.ok.inj second)
    dsimp only at blocks_
    rw [same] at blocks_
    have laid₁'' : Laid (type.rets.length * ioSlotCount)
        (argEntries (type.rets.length * ioSlotCount) type.args) { o₁ with
          wasm := blocks ++ (code ++ [0x0b])
          slotMaxAllocatedIndexPlusOne := o₁.slotFirstDynamicIndex
          slotFirstLocalIndex := o₁.slotFirstDynamicIndex } :=
      ⟨laid₁'.stack, laid₁'.low, laid₁'.floorLow, laid₁'.used, laid₁'.high, laid₁'.small,
        laid₁'.apart, laid₁'.register, laid₁'.page⟩
    obtain ⟨⟨new, pushes⟩, wasm₂⟩ := compileLocalBlocks_spec encodesBlocks laid₁'' rfl blocks_
    have above : o₂.slotFirstDynamicIndex ≤
        o₂.maxUsedSlotPlusOne o₂.slotMaxAllocatedIndexPlusOne := by
      apply le_maxUsedSlotPlusOne
      rw [pushes.firstDynamic]
      exact pushes.maxAllocated
    obtain ⟨valid, wasm₃, page, firstLocal, firstConst⟩ := pushes.laid.start rfl above reserved
    have local_ : o₃.slotFirstLocalIndex = o₁.slotFirstDynamicIndex :=
      firstLocal.trans pushes.firstLocal
    refine ⟨code, new, encodesCode, valid, wasm₃.trans wasm₂, page, pushes.types, ?_, ?_, ?_⟩
    · intro e inside
      show o₃.slotFirstLocalIndex ≤ e.slot
      rw [local_]
      exact pushes.low e inside
    · exact local_.trans first₁
    · have low := above
      rw [pushes.firstDynamic] at low
      show o₃.slotFirstConstIndex = o₃.slotFirstLocalIndex +
        (o₂.maxUsedSlotPlusOne o₂.slotMaxAllocatedIndexPlusOne - o₃.slotFirstLocalIndex)
      rw [firstConst, local_, Nat.add_sub_cancel' low]

end VelumOS.Spec.Compiler
