import VelumOS.Spec.CompilerConstants

/-!
# Locals

`local.get` pushes a reference to the slot of the local. Before the local is set, every
such reference moves to a slot that keeps the old value. The count of that slot is the
number of references; the second slot of a 64-bit value is counted once, so there the
count is right for a single reference only.
-/
namespace VelumOS.Spec.Compiler
open Base.Wasm Source.M3 Source.M3.Compilation

/-- A reference to the slot of a local, moved to another slot. -/
def moveTo (localSlot slot : Nat) (e : Entry) : Entry :=
  if e.slot = localSlot then { e with slot := slot } else e

/-- The references to the slot of a local. -/
def references (localSlot : Nat) (dyn : List Entry) : Nat :=
  dyn.countP fun e => e.slot = localSlot

theorem map_moveTo_of_none {localSlot slot : Nat} {dyn : List Entry}
    (none : ∀ e ∈ dyn, e.slot ≠ localSlot) : dyn.map (moveTo localSlot slot) = dyn :=
  calc dyn.map (moveTo localSlot slot)
    _ = dyn.map id := List.map_congr_left fun e inside => if_neg (none e inside)
    _ = dyn := List.map_id dyn

/-- The count that a slot has after the move of all references. -/
def movedCount (o : Compilation) (localSlot slot : Nat) (t : ValType) (dyn : List Entry)
    (s : Nat) : Nat :=
  if s = slot then references localSlot dyn
  else if Covers ⟨slot, t⟩ s then 1 else o.m3Slots s

/-- What the loop does: nothing where there is no reference, else one allocation. -/
theorem moveReferences_spec {localSlot : Nat} {o o' : Compilation} {dyn dyn' : List Entry}
    {preserved : Nat} {t : ValType} (static : localSlot < o.slotFirstDynamicIndex)
    (typed : ∀ e ∈ dyn, e.slot = localSlot → e.type = t)
    (done : moveReferences localSlot dyn o = .ok (dyn', preserved, o')) :
    ((∀ e ∈ dyn, e.slot ≠ localSlot) ∧ dyn' = dyn ∧ preserved = localSlot ∧ o' = o) ∨
    (preserved ≠ localSlot ∧ o.slotFirstDynamicIndex ≤ preserved ∧
      preserved + getTypeNumSlots t ≤ maxFunctionSlots ∧
      (∀ s, Covers ⟨preserved, t⟩ s → o.m3Slots s = 0) ∧
      0 < references localSlot dyn ∧ references localSlot dyn ≤ 255 ∧
      dyn' = dyn.map (moveTo localSlot preserved) ∧
      ∃ top, o' = { o with
        m3Slots := movedCount o localSlot preserved t dyn
        slotMaxAllocatedIndexPlusOne := top
        maxStackSlots := max o.maxStackSlots (preserved + getTypeNumSlots t) }) := by
  induction dyn generalizing dyn' preserved o' with
  | nil =>
    simp only [moveReferences, Except.ok.injEq, Prod.mk.injEq] at done
    obtain ⟨rfl, rfl, rfl⟩ := done
    exact .inl ⟨by simp, rfl, rfl, rfl⟩
  | cons e below ih =>
    rw [moveReferences] at done
    obtain ⟨⟨below', slot, o₁⟩, before, rest⟩ := ok_of_bind done
    dsimp only at rest
    rcases ih (fun other inside => typed other (by simp [inside])) before with
      ⟨none, rfl, rfl, rfl⟩ | ⟨other, low, high, free, some, few, rfl, top, same⟩
    · split at rest
      · next isRef =>
        rw [if_pos rfl] at rest
        obtain ⟨⟨found, marked⟩, allocated, rest⟩ := ok_of_bind rest
        simp only [Except.ok.injEq, Prod.mk.injEq] at rest
        obtain ⟨rfl, rfl, rfl⟩ := rest
        obtain ⟨low, high, free, rfl⟩ := allocate_spec allocated
        obtain rfl := typed e (by simp) isRef
        have one : references slot (e :: below') = 1 := by
          have rest : references slot below' = 0 := List.countP_eq_zero.mpr fun e inside => by
            simpa using none e inside
          simp only [references] at rest ⊢
          rw [List.countP_cons, rest]
          simp [isRef]
        refine .inr ⟨fun same => ?_, low, high, free, by omega, by omega, ?_,
          max o₁.slotMaxAllocatedIndexPlusOne (found + getTypeNumSlots e.type), ?_⟩
        · rw [same] at low
          exact absurd static (Nat.not_lt.mpr low)
        · rw [List.map_cons, map_moveTo_of_none none, moveTo, if_pos isRef]
        · rw [mark_eq]
          congr 1
          funext s
          rw [movedCount, one]
          by_cases first : s = found
          · rw [if_pos first, if_pos]
            exact ⟨Nat.le_of_eq first.symm, by
              have some := numSlots_pos e.type
              dsimp only
              omega⟩
          · rw [if_neg first]
      · next noRef =>
        simp only [Except.ok.injEq, Prod.mk.injEq] at rest
        obtain ⟨rfl, rfl, rfl⟩ := rest
        refine .inl ⟨fun other inside => ?_, rfl, rfl, rfl⟩
        rcases List.mem_cons.mp inside with rfl | inside
        · exact noRef
        · exact none other inside
    · split at rest
      · next isRef =>
        obtain ⟨counted, increment, rest⟩ := ok_of_bind rest
        simp only [Except.ok.injEq, Prod.mk.injEq] at rest
        obtain ⟨rfl, rfl, rfl⟩ := rest
        unfold incrementSlotUsageCount at increment
        split at increment
        · next small =>
          obtain rfl := Except.ok.inj increment
          have more : references localSlot (e :: below) = references localSlot below + 1 := by
            simp only [references, List.countP_cons]
            simp [isRef]
          subst same
          have count : movedCount o localSlot slot t below slot = references localSlot below :=
            if_pos rfl
          dsimp only at small ⊢
          rw [count] at small
          refine .inr ⟨other, low, high, free, by omega, by omega, ?_, top, ?_⟩
          · rw [List.map_cons, moveTo, if_pos isRef]
          · congr 1
            funext s
            rw [Function.update_apply, count]
            simp only [movedCount, more]
            by_cases first : s = slot
            · rw [if_pos first, if_pos first]
            · rw [if_neg first, if_neg first, if_neg first]
        · cases increment
      · next noRef =>
        simp only [Except.ok.injEq, Prod.mk.injEq] at rest
        obtain ⟨rfl, rfl, rfl⟩ := rest
        have same' : references localSlot (e :: below) = references localSlot below := by
          simp only [references, List.countP_cons]
          simp [noRef]
        refine .inr ⟨other, low, high, free, by omega, by omega, ?_, top, ?_⟩
        · rw [List.map_cons, moveTo, if_neg noRef]
        · rw [same]
          congr 1
          funext s
          simp only [movedCount, same']

section Locals
variable {floor : Nat} {base dyn : List Entry} {o o' final : Compilation} {w : State}
  {m : Machine} {index : Nat} {held : Entry}

/-! ## The slot of a local -/

theorem Valid.base_slot (valid : Valid floor base dyn o) {e : Entry} (inside : e ∈ base) :
    e.slot < reg0SlotAlias := by
  have ends := (valid.locals e inside).2
  have high := Nat.le_trans valid.constLow valid.constHigh
  have bound := valid.dynamicHigh
  exact below_alias (by omega)

theorem Valid.base_apart (valid : Valid floor base dyn o) {i j : Nat} {e other : Entry}
    (at_i : base[i]? = some e) (at_j : base[j]? = some other) (ne : i ≠ j) (s : Nat) :
    ¬ (Covers e s ∧ Covers other s) := by
  obtain ⟨ilt, rfl⟩ := List.getElem?_eq_some_iff.mp at_i
  obtain ⟨jlt, rfl⟩ := List.getElem?_eq_some_iff.mp at_j
  have all := List.pairwise_iff_getElem.mp valid.apart
  rcases Nat.lt_or_gt_of_ne ne with less | more
  · exact all i j ilt jlt less s
  · exact fun both => all j i jlt ilt more s both.symm

theorem Valid.local_high (valid : Valid floor base dyn o) (found : base[index]? = some held)
    {s : Nat} (covered : Covers held s) : s < o.slotFirstDynamicIndex := by
  have ends := (valid.locals held (List.mem_of_getElem? found)).2
  have high := Nat.le_trans valid.constLow valid.constHigh
  have := covered.2
  omega

theorem covers_self (e : Entry) : Covers e e.slot :=
  ⟨Nat.le_refl _, Nat.lt_add_of_pos_right (numSlots_pos e.type)⟩

/-- A value at the slot of a local refers to the local. -/
theorem Valid.reference_eq (valid : Valid floor base dyn o) (found : base[index]? = some held)
    {e : Entry} (inside : e ∈ dyn) (same : e.slot = held.slot) : e = held := by
  have isLocal := List.mem_of_getElem? found
  have ends := (valid.locals held isLocal).2
  have some := numSlots_pos held.type
  rcases valid.placed e inside with inReg | own | ⟨low, -⟩ | ⟨low, -⟩
  · exact absurd (same.symm.trans inReg) (Nat.ne_of_lt (valid.base_slot isLocal))
  · obtain ⟨j, at_j⟩ := List.mem_iff_getElem?.mp own
    by_cases ne : index = j
    · subst ne
      exact Option.some.inj (at_j.symm.trans found)
    · have covered : Covers e held.slot := by
        rw [← same]
        exact covers_self e
      exact absurd ⟨covers_self held, covered⟩ (valid.base_apart found at_j ne held.slot)
  · omega
  · have high := Nat.le_trans valid.constLow valid.constHigh
    omega

theorem Valid.entry_local (valid : Valid floor base dyn o) (found : base[index]? = some held) :
    o.entryFromBottom index = some held := by
  obtain ⟨inside, rfl⟩ := List.getElem?_eq_some_iff.mp found
  have length : o.stack.length = dyn.length + base.length := by
    rw [valid.stack]
    simp
  rw [entryFromBottom, if_pos (by omega), valid.stack, List.getElem?_append_right (by
    simp only [List.length_append, List.length_reverse]; omega), List.getElem?_reverse (by
    simp only [List.length_append, List.length_reverse]; omega)]
  simp only [List.length_append, List.length_reverse]
  rw [List.getElem?_eq_some_iff]
  refine ⟨by omega, ?_⟩
  congr 1
  omega

/-! ## The move -/

theorem users_map_moveTo {localSlot slot s : Nat} {t : ValType}
    (typed : ∀ e ∈ dyn, e.slot = localSlot → e.type = t)
    (outside : ¬ Covers ⟨localSlot, t⟩ s) :
    users (dyn.map (moveTo localSlot slot)) s =
      users dyn s + if Covers ⟨slot, t⟩ s then references localSlot dyn else 0 := by
  induction dyn with
  | nil => simp [users, references]
  | cons e below ih =>
    have rest := ih fun other inside => typed other (by simp [inside])
    have head : references localSlot (e :: below) =
        references localSlot below + if e.slot = localSlot then 1 else 0 := by
      simp [references, List.countP_cons]
    rw [List.map_cons, users_cons, users_cons, rest, head]
    by_cases isRef : e.slot = localSlot
    · have type := typed e (by simp) isRef
      obtain ⟨own, kind⟩ := e
      dsimp only at isRef type
      subst isRef type
      rw [if_neg outside, if_pos rfl, moveTo, if_pos rfl]
      dsimp only
      split <;> omega
    · rw [if_neg isRef, moveTo, if_neg isRef, Nat.add_zero]
      split <;> split <;> omega

theorem RegisterAt.map {height : Nat} {reg : Option Nat} {f : Entry → Entry}
    (at_ : RegisterAt height dyn reg)
    (kept : ∀ e, (f e).slot = reg0SlotAlias ↔ e.slot = reg0SlotAlias) :
    RegisterAt height (dyn.map f) reg := by
  cases reg with
  | none =>
    intro e inside
    obtain ⟨before, was, rfl⟩ := List.mem_map.mp inside
    exact fun inReg => at_ before was ((kept before).mp inReg)
  | some stackIndex =>
    obtain ⟨above, e, below, rfl, index, inReg, others⟩ := at_
    refine ⟨above.map f, f e, below.map f, by simp, by simpa using index, (kept e).mpr inReg, ?_⟩
    intro other inside
    rw [← List.map_append] at inside
    obtain ⟨before, was, rfl⟩ := List.mem_map.mp inside
    exact fun inReg => others before was ((kept before).mp inReg)

/-- One reference of a 64-bit local at most, so that its count is right. -/
def Unshared (held : Entry) (dyn : List Entry) : Prop :=
  held.type = .i64 → references held.slot dyn ≤ 1

theorem Valid.move (valid : Valid floor base dyn o) (found : base[index]? = some held)
    (unshared : Unshared held dyn) {preserved : Nat}
    (low : o.slotFirstDynamicIndex ≤ preserved)
    (high : preserved + getTypeNumSlots held.type ≤ maxFunctionSlots)
    (free : ∀ s, Covers ⟨preserved, held.type⟩ s → o.m3Slots s = 0)
    (some : 0 < references held.slot dyn) (few : references held.slot dyn ≤ 255) (top : Nat) :
    Passes floor base o [] (dyn.map (moveTo held.slot preserved)) { o with
      stack := dyn.map (moveTo held.slot preserved) ++ base.reverse
      m3Slots := movedCount o held.slot preserved held.type dyn
      slotMaxAllocatedIndexPlusOne := top
      maxStackSlots := max o.maxStackSlots (preserved + getTypeNumSlots held.type) } := by
  have isLocal := List.mem_of_getElem? found
  have typed : ∀ e ∈ dyn, e.slot = held.slot → e.type = held.type := fun e inside same =>
    congrArg Entry.type (valid.reference_eq found inside same)
  have fresh : Fresh dyn o preserved held.type := valid.fresh_of low high free
  have own : preserved < reg0SlotAlias := below_alias (e := ⟨preserved, held.type⟩) high
  have static : ∀ s, s < o.slotFirstDynamicIndex →
      movedCount o held.slot preserved held.type dyn s = o.m3Slots s := by
    intro s below
    have first : s ≠ preserved := by
      rintro rfl
      exact absurd below (Nat.not_lt.mpr low)
    rw [movedCount, if_neg first, if_neg]
    rintro ⟨above, -⟩
    exact absurd (Nat.lt_of_lt_of_le below low) (Nat.not_lt.mpr above)
  have kept : ∀ e, (moveTo held.slot preserved e).slot = reg0SlotAlias ↔
      e.slot = reg0SlotAlias := by
    intro e
    unfold moveTo
    split
    · next isRef =>
      have local_ := valid.base_slot isLocal
      exact ⟨fun inReg => absurd inReg (Nat.ne_of_lt own),
        fun inReg => absurd (isRef.symm.trans inReg) (Nat.ne_of_lt local_)⟩
    · exact Iff.rfl
  refine ⟨⟨rfl, valid.block, valid.first, valid.locals, valid.apart, valid.floorLow,
    valid.constLow, valid.constHigh, Nat.le_trans valid.dynamicLow (Nat.le_max_left _ _),
    valid.dynamicHigh, Nat.max_le.mpr ⟨valid.maxHigh, high⟩, ?_, ?_, ?_, ?_,
    valid.register.map kept⟩,
    ⟨rfl, rfl, Nat.le_max_left _ _, ?_⟩, (List.append_nil _).symm, rfl⟩
  · intro s above below used
    dsimp only at used
    rw [static s below] at used
    exact valid.table s above below used
  · intro s above below
    have outside : ¬ Covers ⟨held.slot, held.type⟩ s := fun covered =>
      absurd (valid.local_high found covered) (Nat.not_lt.mpr above)
    rw [users_map_moveTo typed outside]
    dsimp only [movedCount]
    by_cases covered : Covers ⟨preserved, held.type⟩ s
    · rw [fresh.unused s covered, if_pos covered, Nat.zero_add]
      split
      · rfl
      · next second =>
        -- only a value of 64 bits has a second slot
        have wide : held.type = .i64 := by
          obtain ⟨above, below⟩ := covered
          cases type : held.type with
          | i32 =>
            rw [type] at below
            simp only [getTypeNumSlots] at above below
            omega
          | i64 => rfl
        have one := unshared wide
        omega
    · have first : s ≠ preserved := by
        rintro rfl
        exact covered (covers_self ⟨s, held.type⟩)
      rw [if_neg first, if_neg covered, if_neg covered, Nat.add_zero]
      exact valid.counts s above below
  · intro s
    dsimp only [movedCount]
    split
    · exact few
    · split
      · decide
      · exact valid.small s
  · intro e inside
    obtain ⟨before, was, rfl⟩ := List.mem_map.mp inside
    unfold moveTo
    split
    · next isRef =>
      rw [typed before was isRef]
      exact .inr (.inr (.inr ⟨low, high, Nat.le_max_right _ _⟩))
    · rcases valid.placed before was with inReg | isLocal | ⟨above, all⟩ | ⟨above, ends, max⟩
      · exact .inl inReg
      · exact .inr (.inl isLocal)
      · refine .inr (.inr (.inl ⟨above, fun s covered => ⟨?_, (all s covered).2⟩⟩))
        dsimp only
        rw [static s (all s covered).2]
        exact (all s covered).1
      · exact .inr (.inr (.inr ⟨above, ends, Nat.le_trans max (Nat.le_max_left _ _)⟩))
  · intro s _ below used
    refine ⟨?_, rfl⟩
    dsimp only
    rw [static s below]
    exact used

/-- The copy that keeps the old value of a local, as the references see it. -/
theorem Holds.move (holds : Holds final base dyn w m) (valid : Valid floor base dyn o)
    (later : Extends o final) (found : base[index]? = some held) {preserved : Nat}
    (fresh : Fresh dyn o preserved held.type) :
    Holds final base (dyn.map (moveTo held.slot preserved)) w
      (m.write held.type preserved (m.word held.type held.slot)) := by
  have kept := holds.write valid later fresh (m.word held.type held.slot)
  refine ⟨kept.room, kept.locals, ?_, kept.table⟩
  rw [← holds.stack, List.map_map]
  have stack := kept.stack
  rw [← holds.stack] at stack
  apply List.map_congr_left
  intro e inside
  simp only [Function.comp_apply]
  unfold moveTo
  split
  · next isRef =>
    obtain rfl := valid.reference_eq found inside isRef
    rw [valueOf_write fresh, valueOf_entry (valid.base_slot (List.mem_of_getElem? found))]
  · exact List.map_inj_left.mp stack e inside

/-- A write to a local that nothing refers to sets that local only. -/
theorem Holds.writeLocal (holds : Holds final base dyn w m) (valid : Valid floor base dyn o)
    (later : Extends o final) (found : base[index]? = some held)
    (none : ∀ e ∈ dyn, e.slot ≠ held.slot) (v : BitVec held.type.width) :
    Holds final base dyn { w with locals := w.locals.set index ⟨held.type, v⟩ }
      (m.write held.type held.slot v) := by
  have isLocal := List.mem_of_getElem? found
  refine ⟨by rw [write_room]; exact holds.room, ?_, ?_, ?_⟩
  · apply List.ext_getElem?
    intro i
    dsimp only
    rw [← holds.locals, List.getElem?_set, List.getElem?_map, List.length_map, List.getElem?_map]
    by_cases same : index = i
    · subst same
      obtain ⟨inside, -⟩ := List.getElem?_eq_some_iff.mp found
      rw [if_pos rfl, if_pos inside, found, Option.map_some]
      rw [valueOf_entry (valid.base_slot isLocal), write_word]
    · rw [if_neg same]
      cases other : base[i]? with
      | none => rfl
      | some e =>
        refine congrArg some (valueOf_congr (fun _ => write_r0 _ _ _ _) fun s covered => ?_)
        exact write_slots m v fun both => valid.base_apart found other same s ⟨both, covered⟩
  · rw [← holds.stack]
    apply List.map_congr_left
    intro e inside
    refine valueOf_congr (fun _ => write_r0 _ _ _ _) fun s covered => write_slots m v fun both => ?_
    have high := valid.local_high found both
    have ends := (valid.locals held isLocal).2
    have upper := both.2
    dsimp only at upper
    rcases valid.placed e inside with inReg | base_ | ⟨low, -⟩ | ⟨low, -⟩
    · have below := covered.1
      rw [inReg] at below
      exact absurd (Nat.lt_trans (Nat.lt_of_le_of_lt below high) valid.dynamicHigh) (by decide)
    · obtain ⟨j, at_j⟩ := List.mem_iff_getElem?.mp base_
      by_cases same : index = j
      · subst same
        exact none e inside (congrArg Entry.slot (Option.some.inj (at_j.symm.trans found)))
      · exact valid.base_apart found at_j same s ⟨both, covered⟩
    · have below := covered.1
      omega
    · have below := covered.1
      omega
  · intro s low below used
    rw [write_slots m v]
    · exact holds.table s low below used
    · intro both
      rw [later.firstConst] at low
      have ends := (valid.locals held isLocal).2
      have upper := both.2
      dsimp only at upper
      omega

/-! ## The instructions -/

/-- `local.get` pushes the entry of the local. -/
theorem getLocal_spec (valid : Valid floor base dyn o) (done : o.getLocal index = .ok o') :
    ∃ held, base[index]? = some held ∧ Passes floor base o [] (held :: dyn) o' ∧
      ∀ final w w', Extends o' final → step (.localGet index) w = some (.ok w') →
        Runs final base [] dyn w (held :: dyn) w' := by
  unfold getLocal at done
  split at done
  · cases done
  · next inside =>
    rw [numArgsAndLocals, valid.first, not_le] at inside
    obtain ⟨held, found⟩ : ∃ held, base[index]? = some held := ⟨_, List.getElem?_eq_getElem inside⟩
    rw [valid.entry_local found] at done
    have isLocal := List.mem_of_getElem? found
    refine ⟨held, found, valid.push (.inr (.inl isLocal))
      (fun s covered => valid.local_high found covered) (valid.base_slot isLocal) done,
      fun final w w' _ steps => Runs.nil fun m holds => ?_⟩
    have value : w.locals[index]? = some (valueOf m held) := by
      rw [← holds.locals, List.getElem?_map, found]
      rfl
    simp only [step, value, bind, Option.bind, Option.some.injEq, Except.ok.injEq] at steps
    subst steps
    exact ⟨holds.room, holds.locals, by rw [List.map_cons, holds.stack], holds.table⟩

/-- The words of `CopyStackIndexToSlot`. -/
def copyWords (destSlot : Nat) (e : Entry) : List CodeWord :=
  if inRegister e then [.op (.SetSlot e.type), .slot destSlot]
  else [.op (.CopySlot e.type), .slot destSlot, .slot e.slot]

theorem copyEntryToSlot_eq (o : Compilation) (destSlot : Nat) (e : Entry) :
    o.copyEntryToSlot destSlot e = o.emit (copyWords destSlot e) := by
  unfold copyEntryToSlot copyWords
  split <;> rfl

/-- A copy writes the value of its entry. -/
theorem exec_copyWords {destSlot : Nat} {e : Entry} {pc : List CodeWord}
    (dest : destSlot + getTypeNumSlots e.type ≤ m.room)
    (source : inRegister e = false → e.slot + getTypeNumSlots e.type ≤ m.room) :
    exec (copyWords destSlot e ++ pc) m =
      exec pc (m.write e.type destSlot (wordOf m e)) := by
  unfold copyWords
  cases inReg : inRegister e with
  | true =>
    have stored := store_eq (v := m.reg e.type) dest
    rw [wordOf_of_inRegister inReg, if_pos rfl]
    show exec (.op (.SetSlot e.type) :: .slot destSlot :: pc) m = _
    rw [exec, stored]
  | false =>
    have stored := store_eq (v := m.word e.type e.slot) dest
    rw [wordOf_of_not inReg, if_neg Bool.false_ne_true]
    show exec (.op (.CopySlot e.type) :: .slot destSlot :: .slot e.slot :: pc) m = _
    rw [exec, load_eq (source inReg)]
    dsimp only
    rw [stored]

/-- The words of `PreservedCopyTopSlot`. -/
def preservedCopyWords (destSlot preserveSlot : Nat) (top : Entry) : List CodeWord :=
  if inRegister top then [.op (.PreserveSetSlot top.type), .slot destSlot, .slot preserveSlot]
  else [.op (.PreserveCopySlot top.type), .slot destSlot, .slot top.slot, .slot preserveSlot]

theorem preservedCopyTopSlot_eq (o : Compilation) (destSlot preserveSlot : Nat) (top : Entry) :
    o.preservedCopyTopSlot destSlot preserveSlot top =
      o.emit (preservedCopyWords destSlot preserveSlot top) := by
  unfold preservedCopyTopSlot preservedCopyWords
  split <;> rfl

/-- First the old value is kept, then the value of the entry, as it is by then, is written. -/
theorem exec_preservedCopyWords {destSlot preserveSlot : Nat} {e : Entry} {pc : List CodeWord}
    (dest : destSlot + getTypeNumSlots e.type ≤ m.room)
    (preserve : preserveSlot + getTypeNumSlots e.type ≤ m.room)
    (source : inRegister e = false → e.slot + getTypeNumSlots e.type ≤ m.room) :
    exec (preservedCopyWords destSlot preserveSlot e ++ pc) m =
      exec pc ((m.write e.type preserveSlot (m.word e.type destSlot)).write e.type destSlot
        (wordOf (m.write e.type preserveSlot (m.word e.type destSlot)) e)) := by
  have kept := store_eq (v := m.word e.type destSlot) preserve
  have dest' : destSlot + getTypeNumSlots e.type ≤
      (m.write e.type preserveSlot (m.word e.type destSlot)).room := by
    rw [write_room]
    exact dest
  unfold preservedCopyWords
  cases inReg : inRegister e with
  | true =>
    rw [wordOf_of_inRegister inReg, if_pos rfl]
    show exec (.op (.PreserveSetSlot e.type) :: .slot destSlot :: .slot preserveSlot :: pc) m = _
    rw [exec, load_eq dest]
    dsimp only
    rw [kept]
    dsimp only
    rw [store_eq dest']
  | false =>
    have source' : e.slot + getTypeNumSlots e.type ≤
        (m.write e.type preserveSlot (m.word e.type destSlot)).room := by
      rw [write_room]
      exact source inReg
    rw [wordOf_of_not inReg, if_neg Bool.false_ne_true]
    show exec (.op (.PreserveCopySlot e.type) :: .slot destSlot :: .slot e.slot ::
      .slot preserveSlot :: pc) m = _
    rw [exec, load_eq dest]
    dsimp only
    rw [kept]
    dsimp only
    rw [load_eq source']
    dsimp only
    rw [store_eq dest']

/-- The references after the move: none to the local. -/
theorem moved_ne {localSlot slot : Nat} (other : slot ≠ localSlot) :
    ∀ e ∈ dyn.map (moveTo localSlot slot), e.slot ≠ localSlot := by
  intro e inside
  obtain ⟨before, -, rfl⟩ := List.mem_map.mp inside
  unfold moveTo
  split
  · exact other
  · next noRef => exact noRef

/-- `FindReferencedLocalWithinCurrentBlock`: no reference to the local is left. -/
theorem findReferenced_spec (valid : Valid floor base dyn o) (found : base[index]? = some held)
    (unshared : Unshared held dyn) {preserved : Nat}
    (done : o.findReferencedLocalWithinCurrentBlock held.slot = .ok (preserved, o')) :
    ((∀ e ∈ dyn, e.slot ≠ held.slot) ∧ preserved = held.slot ∧ o' = o) ∨
    (preserved ≠ held.slot ∧ Fresh dyn o preserved held.type ∧
      Passes floor base o [] (dyn.map (moveTo held.slot preserved)) o' ∧
      preserved + getTypeNumSlots held.type ≤ o'.maxStackSlots) := by
  have typed : ∀ e ∈ dyn, e.slot = held.slot → e.type = held.type := fun e inside same =>
    congrArg Entry.type (valid.reference_eq found inside same)
  have height : o.stack.length - o.blockStackIndex = dyn.length := by
    rw [valid.stack, valid.block]
    simp
  have taken : o.stack.take dyn.length = dyn := by
    rw [valid.stack, List.take_left]
  have dropped : o.stack.drop dyn.length = base.reverse := by
    rw [valid.stack, List.drop_left]
  simp only [findReferencedLocalWithinCurrentBlock, height, taken, dropped] at done
  obtain ⟨⟨entries, slot, o₁⟩, moved, rest⟩ := ok_of_bind done
  simp only [Except.ok.injEq, Prod.mk.injEq] at rest
  obtain ⟨rfl, rfl⟩ := rest
  have static := valid.local_high found (covers_self held)
  rcases moveReferences_spec static typed moved with
    ⟨none, rfl, rfl, rfl⟩ | ⟨other, low, high, free, some, few, rfl, top, rfl⟩
  · refine .inl ⟨none, rfl, ?_⟩
    rw [← valid.stack]
  · exact .inr ⟨other, valid.fresh_of low high free,
      valid.move found unshared low high free some few top, Nat.le_max_right _ _⟩

/-- `local.set` and `local.tee` on values of the right type. -/
theorem step_setLocal {tee : Bool} {w w' : State}
    (steps : step (if tee then .localTee index else .localSet index) w = some (.ok w')) :
    ∃ old value below, w.locals[index]? = some old ∧ w.stack = value :: below ∧
      old.type = value.type ∧ w' = ⟨w.locals.set index value,
        if tee then value :: below else below⟩ := by
  obtain ⟨locals, stack⟩ := w
  cases stack with
  | nil => cases tee <;> cases steps
  | cons value below =>
    cases held : locals[index]? with
    | none => cases tee <;> simp [step, held] at steps
    | some old =>
      cases tee <;>
      · simp only [step, held, if_true, Bool.false_eq_true, if_false, bind, Option.bind] at steps
        split at steps
        · next same =>
          simp only [Option.some.injEq, Except.ok.injEq] at steps
          exact ⟨old, value, below, rfl, rfl, same, by simp [← steps]⟩
        · cases steps

/-- The words that set a local, by whether there was a reference to it. -/
theorem setLocal_runs {tee : Bool} {w w' : State} {words : List CodeWord} {dyn₁ : List Entry}
    {o₁ : Compilation} {top : Entry} {below : List Entry}
    (valid : Valid floor base dyn o) (found : base[index]? = some held)
    (after : Valid floor base dyn₁ o₁) (later : Extends o₁ final) (before : Extends o o₁)
    (split : dyn₁ = top :: below)
    (cases_ : ((∀ e ∈ dyn, e.slot ≠ held.slot) ∧ dyn₁ = dyn ∧ words = copyWords held.slot top) ∨
      ∃ preserved, preserved ≠ held.slot ∧ Fresh dyn o preserved held.type ∧
        dyn₁ = dyn.map (moveTo held.slot preserved) ∧
        preserved + getTypeNumSlots held.type ≤ o₁.maxStackSlots ∧
        words = preservedCopyWords held.slot preserved top)
    (steps : step (if tee then .localTee index else .localSet index) w = some (.ok w')) :
    Runs final base words dyn w (if tee then dyn₁ else dyn₁.tail) w' := by
  intro m pc holds
  obtain ⟨old, value, rest, locals, stack, typed, rfl⟩ := step_setLocal steps
  have isLocal := List.mem_of_getElem? found
  have heldValue : valueOf m held = old := by
    have both := locals
    rw [← holds.locals, List.getElem?_map, found] at both
    exact Option.some.inj both
  have dest : held.slot + getTypeNumSlots held.type ≤ m.room := by
    have ends := (valid.locals held isLocal).2
    have high := Nat.le_trans valid.constLow valid.constHigh
    have low := valid.dynamicLow
    exact holds.inside (before.trans later) (by omega)
  have source : ∀ m' : Machine, m'.room = m.room → inRegister top = false →
      top.slot + getTypeNumSlots top.type ≤ m'.room := by
    intro m' same inSlot
    have inside : top ∈ dyn₁ := by simp [split]
    have ne : top.slot ≠ reg0SlotAlias := fun inReg => by
      rw [(after.inRegister_iff inside).mpr inReg] at inSlot
      cases inSlot
    have own := (after.slot_of_ne inside ne).1
    rw [same]
    exact holds.inside later own
  -- whatever machine holds the moved stack, its top is the value, of the type of the local
  have topValue : ∀ m', Holds final base dyn₁ w m' → valueOf m' top = value ∧
      below.map (valueOf m') = rest := by
    intro m' moved
    have both := moved.stack
    rw [split, stack, List.map_cons] at both
    exact ⟨(List.cons.inj both).1, (List.cons.inj both).2⟩
  have topType : ∀ m', Holds final base dyn₁ w m' → top.type = held.type := by
    intro m' moved
    have same := congrArg Value.type (topValue m' moved).1
    have own := congrArg Value.type heldValue
    exact same.trans (typed.symm.trans own.symm)
  have finish : ∀ m', Holds final base dyn₁ w m' → m'.room = m.room →
      (∀ e ∈ dyn₁, e.slot ≠ held.slot) →
      Holds final base (if tee then dyn₁ else dyn₁.tail)
        ⟨w.locals.set index value, if tee then value :: rest else rest⟩
        (m'.write top.type held.slot (wordOf m' top)) := by
    intro m' moved room none
    have type := topType m' moved
    have final_ : Holds final base dyn₁ { w with locals := w.locals.set index value }
        (m'.write top.type held.slot (wordOf m' top)) := by
      obtain ⟨slot, kind⟩ := held
      dsimp only at type
      subst type
      have set := moved.writeLocal after later found none (wordOf m' top)
      have same : (⟨top.type, wordOf m' top⟩ : Value) = value := (topValue m' moved).1
      rw [same] at set
      exact set
    cases tee with
    | true => exact ⟨final_.room, final_.locals, final_.stack.trans stack, final_.table⟩
    | false =>
      have both := final_.stack
      rw [split, stack, List.map_cons] at both
      refine ⟨final_.room, final_.locals, ?_, final_.table⟩
      rw [split]
      exact (List.cons.inj both).2
  rcases cases_ with ⟨none, same, rfl⟩ | ⟨preserved, other, fresh, same, high, rfl⟩
  · have moved : Holds final base dyn₁ w m := by
      rw [same]
      exact holds
    have type := topType m moved
    refine ⟨_, exec_copyWords (by rw [type]; exact dest) (source m rfl), finish m moved rfl ?_⟩
    rw [same]
    exact none
  · have moved : Holds final base dyn₁ w
        (m.write held.type preserved (m.word held.type held.slot)) := by
      rw [same]
      exact holds.move valid (before.trans later) found fresh
    have type := topType _ moved
    have preserve := holds.inside later high
    have run : exec (preservedCopyWords held.slot preserved top ++ pc) m = _ :=
      exec_preservedCopyWords (by rw [type]; exact dest) (by rw [type]; exact preserve)
        (source m rfl)
    refine ⟨_, run, ?_⟩
    rw [← type] at moved
    refine finish _ moved (write_room _ _ _ _) ?_
    rw [same]
    exact moved_ne other

theorem setLocal_spec {tee : Bool} (valid : Valid floor base dyn o)
    (unshared : ∀ held, base[index]? = some held → Unshared held dyn)
    (done : o.setLocal tee index = .ok o') :
    ∃ held words slot, base[index]? = some held ∧ o.slotFirstDynamicIndex ≤ slot ∧
      Passes floor base o words
        (if tee then dyn.map (moveTo held.slot slot)
          else (dyn.map (moveTo held.slot slot)).tail) o' ∧
      ∀ final w w', Extends o' final →
        step (if tee then .localTee index else .localSet index) w = some (.ok w') →
        Runs final base words dyn w
          (if tee then dyn.map (moveTo held.slot slot)
            else (dyn.map (moveTo held.slot slot)).tail) w' := by
  unfold setLocal at done
  split at done
  · next inside =>
    rw [numArgsAndLocals, valid.first] at inside
    obtain ⟨held, found⟩ : ∃ held, base[index]? = some held := ⟨_, List.getElem?_eq_getElem inside⟩
    rw [valid.entry_local found] at done
    obtain ⟨⟨preserved, o₁⟩, search, rest⟩ := ok_of_bind done
    dsimp only at rest
    -- the state after the search, and a slot that the references may be said to move to
    obtain ⟨slot, words, low, passes, emitted⟩ : ∃ (slot : Nat) (words : Entry → List CodeWord),
        o.slotFirstDynamicIndex ≤ slot ∧
        Passes floor base o [] (dyn.map (moveTo held.slot slot)) o₁ ∧
        ∀ top, (if preserved = held.slot then o₁.copyEntryToSlot held.slot top
            else o₁.preservedCopyTopSlot held.slot preserved top) = o₁.emit (words top) ∧
          (((∀ e ∈ dyn, e.slot ≠ held.slot) ∧ dyn.map (moveTo held.slot slot) = dyn ∧
              words top = copyWords held.slot top) ∨
            ∃ preserved, preserved ≠ held.slot ∧ Fresh dyn o preserved held.type ∧
              dyn.map (moveTo held.slot slot) = dyn.map (moveTo held.slot preserved) ∧
              preserved + getTypeNumSlots held.type ≤ o₁.maxStackSlots ∧
              words top = preservedCopyWords held.slot preserved top) := by
      rcases findReferenced_spec valid found (unshared held found) search with
        ⟨none, same, same'⟩ | ⟨other, fresh, passes, high⟩
      · have kept : dyn.map (moveTo held.slot o.slotFirstDynamicIndex) = dyn :=
          map_moveTo_of_none none
        refine ⟨o.slotFirstDynamicIndex, copyWords held.slot, Nat.le_refl _, ?_, fun top => ?_⟩
        · rw [kept, same']
          exact valid.passes
        · rw [if_pos same, copyEntryToSlot_eq]
          exact ⟨rfl, .inl ⟨none, kept, rfl⟩⟩
      · refine ⟨preserved, preservedCopyWords held.slot preserved, fresh.low, passes,
          fun top => ?_⟩
        rw [if_neg other, preservedCopyTopSlot_eq]
        exact ⟨rfl, .inr ⟨preserved, other, fresh, rfl, high, rfl⟩⟩
    have after := passes.valid
    refine ⟨held, ?_⟩
    cases split : dyn.map (moveTo held.slot slot) with
    | nil =>
      -- a tee of nothing is compiled, but the language has no step there
      cases stack : o₁.stack with
      | nil =>
        rw [stack] at rest
        cases rest
      | cons top tail =>
        rw [stack] at rest
        dsimp only at rest
        rw [(emitted top).1] at rest
        have whole := passes.emit (words top)
        rw [split, List.nil_append] at whole
        cases tee with
        | false =>
          obtain ⟨e, below, some⟩ := whole.valid.of_pop rest
          cases some
        | true =>
          obtain rfl := Except.ok.inj rest
          refine ⟨words top, slot, found, low, by simpa [split] using whole,
            fun final w w' later steps m pc holds => ?_⟩
          obtain ⟨old, value, below, -, some, -⟩ := step_setLocal steps
          rw [List.map_eq_nil_iff.mp split] at holds
          have none := holds.stack
          rw [some] at none
          cases none
    | cons top below =>
      have stack := after.stack
      rw [split, List.cons_append] at stack
      rw [stack] at rest
      dsimp only at rest
      obtain ⟨emits, how⟩ := emitted top
      rw [emits] at rest
      have whole := passes.emit (words top)
      rw [split, List.nil_append] at whole
      have kept : Passes floor base o (words top)
          (if tee then top :: below else below) o' := by
        cases tee with
        | true =>
          obtain rfl := Except.ok.inj rest
          exact whole
        | false =>
          have popped := whole.trans (whole.valid.pop rest)
          rw [List.append_nil] at popped
          exact popped
      have later₁ : Extends o₁ o' := by
        have emit := Extends.emit o₁ (words top)
        cases tee with
        | true =>
          obtain rfl := Except.ok.inj rest
          exact emit
        | false => exact emit.trans (whole.valid.pop rest).keeps
      refine ⟨words top, slot, found, low, by rw [split]; exact kept,
        fun final w w' later steps => ?_⟩
      have runs := setLocal_runs valid found after (later₁.trans later) passes.keeps split how steps
      rw [split] at runs ⊢
      exact runs
  · cases done

end Locals

end VelumOS.Spec.Compiler
