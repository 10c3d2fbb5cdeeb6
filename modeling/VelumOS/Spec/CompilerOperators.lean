import VelumOS.Spec.CompilerLocals
import VelumOS.Spec.WasmArithmetic

/-!
# Operators

An operator takes its operands from the register and from slots, whichever they are in,
and leaves its result in the register. Where none of them is in the register, what the
register holds for a deeper value first moves to a slot.
-/
namespace VelumOS.Spec.Compiler
open Base.Wasm Source.M3 Source.M3.Compilation WasmArithmetic

section Operators
variable {floor : Nat} {base dyn : List Entry} {o o' final : Compilation} {w : State}
  {m : Machine}

/-! ## The register made free -/

/-- The same values, some of them in another place that is no local. -/
def Moved (base dyn dyn' : List Entry) : Prop :=
  List.Forall₂ (fun e e' => e = e' ∨ e.type = e'.type ∧ e ∉ base ∧ e' ∉ base) dyn dyn'

theorem Moved.refl (base dyn : List Entry) : Moved base dyn dyn :=
  List.forall₂_same.mpr fun _ _ => .inl rfl

/-- Code before an operator that moves values and changes none. -/
structure Prepares (floor : Nat) (base : List Entry) (dyn : List Entry) (o : Compilation)
    (words : List CodeWord) (dyn' : List Entry) (o' : Compilation) : Prop where
  passes : Passes floor base o words dyn' o'
  moved : Moved base dyn dyn'
  runs : ∀ final w, Extends o' final → Runs final base words dyn w dyn' w

theorem Valid.prepares (valid : Valid floor base dyn o) :
    Prepares floor base dyn o [] dyn o :=
  ⟨valid.passes, Moved.refl base dyn, fun _ _ _ => Runs.nil fun _ holds => holds⟩

theorem Valid.not_base (valid : Valid floor base dyn o) {e : Entry}
    (outside : reg0SlotAlias ≤ e.slot ∨ o.slotFirstDynamicIndex ≤ e.slot) : e ∉ base := by
  intro isLocal
  have some := numSlots_pos e.type
  have ends := (valid.locals e isLocal).2
  have high := Nat.le_trans valid.constLow valid.constHigh
  have low := valid.base_slot isLocal
  omega

/-- Whatever the register holds is moved out. -/
theorem preserve_spec (valid : Valid floor base dyn o)
    (done : o.preserveRegisterIfOccupied = .ok o') :
    ∃ words dyn', Prepares floor base dyn o words dyn' o' ∧
      ∀ e ∈ dyn', e.slot ≠ reg0SlotAlias := by
  rcases valid.preserveRegister done with ⟨rfl, free⟩ |
    ⟨above, e, below, slot, rfl, inReg, fresh, passes, free⟩
  · exact ⟨[], dyn, valid.prepares, free⟩
  · refine ⟨_, _, ⟨passes, ?_, fun final w later =>
      runs_preserveRegister valid inReg fresh passes.valid passes.keeps later⟩, free⟩
    refine List.rel_append (Moved.refl base above) (.cons (.inr ⟨rfl, ?_, ?_⟩) (Moved.refl base below))
    · exact valid.not_base (.inl (Nat.le_of_eq inReg.symm))
    · exact valid.not_base (.inr fresh.low)

/-! ## Operands -/

/-- The words that tell an operation where an operand is. -/
def operandWords (e : Entry) : List CodeWord :=
  if inRegister e then [] else [.slot e.slot]

theorem top_inRegister {top : Entry} {below : List Entry}
    (valid : Valid floor base (top :: below) o) : o.isStackTopInRegister = inRegister top := by
  simp [isStackTopInRegister, valid.stack]

theorem emitSlot_spec (valid : Valid floor base dyn o)
    (done : o.emitSlotNumOfStackTopAndPop = .ok o') :
    ∃ top below, dyn = top :: below ∧ Passes floor base o (operandWords top) below o' := by
  unfold emitSlotNumOfStackTopAndPop at done
  split at done
  · next inReg =>
    obtain ⟨top, below, rfl⟩ := valid.of_pop done
    rw [top_inRegister valid] at inReg
    refine ⟨top, below, rfl, ?_⟩
    rw [operandWords, if_pos inReg]
    exact valid.pop done
  · next inSlot =>
    have after := valid.emit [.slot o.getStackTopSlotNumber]
    obtain ⟨top, below, rfl⟩ := after.of_pop done
    rw [top_inRegister valid] at inSlot
    have number : o.getStackTopSlotNumber = top.slot := by
      simp [getStackTopSlotNumber, valid.stack]
    refine ⟨top, below, rfl, ?_⟩
    have whole := (valid.passes.emit [.slot o.getStackTopSlotNumber]).trans (after.pop done)
    rw [List.nil_append, List.append_nil, number] at whole
    rw [operandWords, if_neg inSlot]
    exact whole

/-- An operand can be read where it is. -/
theorem Holds.operand (holds : Holds final base dyn w m) (valid : Valid floor base dyn o)
    (later : Extends o final) {e : Entry} (inside : e ∈ dyn) (inSlot : inRegister e = false) :
    m.load e.type e.slot = some (wordOf m e) := by
  have ne : e.slot ≠ reg0SlotAlias := fun inReg => by
    rw [(valid.inRegister_iff inside).mpr inReg] at inSlot
    cases inSlot
  rw [load_eq (holds.inside later (valid.slot_of_ne inside ne).1), wordOf_of_not inSlot]

/-- The value of an entry, by its type and its word. -/
theorem valueOf_eq {e : Entry} {type : ValType} {word : BitVec type.width}
    (value : valueOf m e = ⟨type, word⟩) : ∃ slot, e = ⟨slot, type⟩ ∧
      wordOf m ⟨slot, type⟩ = word := by
  obtain ⟨slot, own⟩ := e
  obtain rfl : own = type := congrArg Value.type value
  exact ⟨slot, rfl, eq_of_heq (Value.mk.inj value).2⟩

/-- A result in the register stands for the value on top, where the rest of the stack is
in slots. -/
theorem Holds.result (holds : Holds final base dyn w m) (valid : Valid floor base dyn o)
    {below : List Entry} (part : ∀ e ∈ below, e ∈ dyn)
    (free : ∀ e ∈ below, e.slot ≠ reg0SlotAlias) {rest : List Value}
    (values : below.map (valueOf m) = rest) (type : ValType) (r0 : BitVec 64) :
    Holds final base (⟨reg0SlotAlias, type⟩ :: below)
      { w with stack := ⟨type, r0.setWidth type.width⟩ :: rest } { m with r0 := r0 } := by
  refine ⟨holds.room, ?_, ?_, holds.table⟩
  · rw [← holds.locals]
    refine List.map_congr_left fun e inside => valueOf_congr (fun inReg => ?_) fun _ _ => rfl
    exact absurd (of_decide_eq_true inReg) (Nat.not_le.mpr (valid.base_slot inside))
  · rw [List.map_cons, valueOf_register, ← values]
    congr 1
    refine List.map_congr_left fun e inside => valueOf_congr (fun inReg => ?_) fun _ _ => rfl
    exact absurd ((valid.inRegister_iff (part e inside)).mp inReg) (free e inside)

/-- Words that end in a trap. -/
def Traps (final : Compilation) (base : List Entry) (words : List CodeWord)
    (dyn : List Entry) (w : State) (trap : Trap) : Prop :=
  ∀ m pc, Holds final base dyn w m → exec (words ++ pc) m = .trapped trap

theorem Traps.after {base dyn' : List Entry} {words later : List CodeWord} {w' : State}
    {trap : Trap} (before : Runs final base words dyn w dyn' w')
    (traps : Traps final base later dyn' w' trap) :
    Traps final base (words ++ later) dyn w trap := by
  intro m pc holds
  obtain ⟨m', run, holds'⟩ := before m (later ++ pc) holds
  rw [List.append_assoc, run]
  exact traps m' pc holds'

/-! ## One operand -/

theorem exec_unary (t : CType) (name : UnName) (slot : Nat) (pc : List CodeWord)
    (read : inRegister ⟨slot, t.type⟩ = false →
      m.load t.type slot = some (wordOf m ⟨slot, t.type⟩)) :
    exec (.op (.Unary t name (if inRegister ⟨slot, t.type⟩ then .r else .s)) ::
        operandWords ⟨slot, t.type⟩ ++ pc) m =
      exec pc { m with r0 := opUnary t name (wordOf m ⟨slot, t.type⟩) } := by
  cases inReg : inRegister ⟨slot, t.type⟩ with
  | true =>
    rw [operandWords, if_pos inReg, if_pos rfl, wordOf_of_inRegister inReg]
    show exec (.op (.Unary t name .r) :: pc) m = _
    rw [exec]
  | false =>
    rw [operandWords, inReg, if_neg Bool.false_ne_true, if_neg Bool.false_ne_true]
    show exec (.op (.Unary t name .s) :: .slot slot :: pc) m = _
    rw [exec, read inReg]

/-- A unary operator as it is compiled: its operand, wherever it is, and the result. -/
theorem compileUnary_spec {t : CType} {name : UnName} {target : ValType}
    (valid : Valid floor base dyn o)
    (done : o.compileOperator ⟨0, target, unaryOpList t name⟩ = .ok o') :
    ∃ words dyn₁ o₁ top below, Prepares floor base dyn o words dyn₁ o₁ ∧
      dyn₁ = top :: below ∧ (∀ e ∈ below, e.slot ≠ reg0SlotAlias) ∧
      Passes floor base o₁
        (.op (.Unary t name (if inRegister top then .r else .s)) :: operandWords top)
        (⟨reg0SlotAlias, target⟩ :: below) o' := by
  unfold compileOperator at done
  obtain ⟨⟨op, o₁⟩, chosen, rest⟩ := ok_of_bind done
  unfold chooseOperation at chosen
  rw [if_pos rfl] at chosen
  dsimp only at rest
  -- the operation is the one for the place of the operand
  obtain ⟨words, dyn₁, prepares, place⟩ : ∃ words dyn₁, Prepares floor base dyn o words dyn₁ o₁ ∧
      ((op = some (.Unary t name .r) ∧ o₁ = o ∧ dyn₁ = dyn ∧ o.isStackTopInRegister = true) ∨
        (op = some (.Unary t name .s) ∧ ∀ e ∈ dyn₁, e.slot ≠ reg0SlotAlias)) := by
    split at chosen
    · next inReg =>
      obtain ⟨rfl, rfl⟩ := Prod.mk.inj (Except.ok.inj chosen)
      exact ⟨[], dyn, valid.prepares, .inl ⟨rfl, rfl, rfl, inReg⟩⟩
    · obtain ⟨found, preserved, chosen⟩ := ok_of_map chosen
      obtain ⟨rfl, rfl⟩ := Prod.mk.inj chosen
      obtain ⟨words, dyn₁, prepares, free⟩ := preserve_spec valid preserved
      exact ⟨words, dyn₁, prepares, .inr ⟨rfl, free⟩⟩
  obtain ⟨form, rfl⟩ : ∃ form, op = some (.Unary t name form) := by
    rcases place with ⟨same, -⟩ | ⟨same, -⟩
    · exact ⟨_, same⟩
    · exact ⟨_, same⟩
  dsimp only at rest
  obtain ⟨o₂, first, rest⟩ := ok_of_bind rest
  obtain ⟨o₃, none, push⟩ := ok_of_bind rest
  rw [if_neg (by decide)] at none
  obtain rfl := Except.ok.inj none
  have valid₁ := prepares.passes.valid
  obtain ⟨top, below, rfl, taken⟩ := emitSlot_spec (valid₁.emit _) first
  have placed : form = (if inRegister top then .r else .s) ∧
      ∀ e ∈ below, e.slot ≠ reg0SlotAlias := by
    rcases place with ⟨same, rfl, rfl, inReg⟩ | ⟨same, free⟩
    · rw [top_inRegister valid] at inReg
      rw [if_pos inReg]
      cases same
      exact ⟨rfl, valid.register.of_top ((valid.inRegister_iff (by simp)).mp inReg)⟩
    · have inSlot : ¬ inRegister top = true := fun inReg =>
        free top (by simp) ((valid₁.inRegister_iff (by simp)).mp inReg)
      rw [if_neg inSlot]
      cases same
      exact ⟨rfl, fun e inside => free e (by simp [inside])⟩
  obtain ⟨rfl, free⟩ := placed
  refine ⟨words, _, o₁, top, below, prepares, rfl, free, ?_⟩
  have whole := ((valid₁.passes.emit _).trans taken).trans (taken.valid.pushRegister free push)
  rw [List.nil_append, List.append_nil] at whole
  exact whole

/-! ## Two operands -/

/-- The operations whose result does not depend on the order of their operands. -/
def Commutes (name : BinName) : Prop :=
  name = .Equal ∨ name = .NotEqual ∨ name = .Add ∨ name = .Multiply ∨ name = .And ∨
    name = .Or ∨ name = .Xor

/-- The form of an operation fits the places of its operands. -/
def Fits (name : BinName) (top second : Entry) : BinForm → Prop
  | .rs => inRegister top = true ∧ inRegister second = false ∨
      inRegister top = false ∧ inRegister second = true ∧ Commutes name
  | .sr => inRegister top = false ∧ inRegister second = true
  | .ss => inRegister top = false ∧ inRegister second = false

/-- Where a binary operation ends. -/
def binaryOutcome (pc : List CodeWord) (m : Machine) : Except Trap (BitVec 64) → Outcome
  | .ok r0 => exec pc { m with r0 := r0 }
  | .error trap => .trapped trap

theorem exec_binary (t : CType) {name : BinName} {form : BinForm} {slot slot' : Nat}
    (pc : List CodeWord) (fits : Fits name ⟨slot, t.type⟩ ⟨slot', t.type⟩ form)
    (read : inRegister ⟨slot, t.type⟩ = false →
      m.load t.type slot = some (wordOf m ⟨slot, t.type⟩))
    (read' : inRegister ⟨slot', t.type⟩ = false →
      m.load t.type slot' = some (wordOf m ⟨slot', t.type⟩)) :
    exec (.op (.Binary t name form) ::
        (operandWords ⟨slot, t.type⟩ ++ operandWords ⟨slot', t.type⟩) ++ pc) m =
      binaryOutcome pc m
        (opBinary t name (wordOf m ⟨slot', t.type⟩) (wordOf m ⟨slot, t.type⟩)) := by
  have inReg : ∀ {s}, inRegister ⟨s, t.type⟩ = true →
      operandWords ⟨s, t.type⟩ = [] ∧ wordOf m ⟨s, t.type⟩ = m.reg t.type :=
    fun held => ⟨if_pos held, wordOf_of_inRegister held⟩
  have inSlot : ∀ {s}, inRegister ⟨s, t.type⟩ = false → operandWords ⟨s, t.type⟩ = [.slot s] :=
    fun free => if_neg (by rw [free]; exact Bool.false_ne_true)
  cases form with
  | rs =>
    rcases fits with ⟨top, second⟩ | ⟨top, second, commutes⟩
    · rw [(inReg top).1, (inReg top).2, inSlot second]
      show exec (.op (.Binary t name .rs) :: .slot slot' :: pc) m = _
      rw [exec, read' second]
      dsimp only
      cases opBinary t name (wordOf m ⟨slot', t.type⟩) (m.reg t.type) <;> rfl
    · rw [(inReg second).1, (inReg second).2, inSlot top, opBinary_comm t commutes]
      show exec (.op (.Binary t name .rs) :: .slot slot :: pc) m = _
      rw [exec, read top]
      dsimp only
      cases opBinary t name (wordOf m ⟨slot, t.type⟩) (m.reg t.type) <;> rfl
  | sr =>
    obtain ⟨top, second⟩ := fits
    rw [(inReg second).1, (inReg second).2, inSlot top]
    show exec (.op (.Binary t name .sr) :: .slot slot :: pc) m = _
    rw [exec, read top]
    dsimp only
    cases opBinary t name (m.reg t.type) (wordOf m ⟨slot, t.type⟩) <;> rfl
  | ss =>
    obtain ⟨top, second⟩ := fits
    rw [inSlot top, inSlot second]
    show exec (.op (.Binary t name .ss) :: .slot slot :: .slot slot' :: pc) m = _
    rw [exec, read top, read' second]
    dsimp only
    cases opBinary t name (wordOf m ⟨slot', t.type⟩) (wordOf m ⟨slot, t.type⟩) <;> rfl

theorem second_inRegister {top second : Entry} {below : List Entry}
    (valid : Valid floor base (top :: second :: below) o) :
    o.isStackTopMinus1InRegister = inRegister second := by
  simp [isStackTopMinus1InRegister, valid.stack]

/-- A binary operator as it is compiled: its operands, wherever they are, and the result. -/
theorem compileBinary_spec {t : CType} {name : BinName} {target : ValType}
    {list : List (Option Operation)}
    (listed : list = binOpList t name ∨ list = commutativeBinOpList t name ∧ Commutes name)
    (valid : Valid floor base dyn o)
    (done : o.compileOperator ⟨-1, target, list⟩ = .ok o') :
    ∃ words dyn₁ o₁ top second below form, Prepares floor base dyn o words dyn₁ o₁ ∧
      dyn₁ = top :: second :: below ∧ (∀ e ∈ below, e.slot ≠ reg0SlotAlias) ∧
      Fits name top second form ∧
      Passes floor base o₁
        (.op (.Binary t name form) :: (operandWords top ++ operandWords second))
        (⟨reg0SlotAlias, target⟩ :: below) o' := by
  unfold compileOperator at done
  obtain ⟨⟨op, o₁⟩, chosen, rest⟩ := ok_of_bind done
  unfold chooseOperation at chosen
  rw [if_neg (show ¬ (-1 : Int) = 0 by decide)] at chosen
  dsimp only at rest
  -- which operation stands for which places, where there is one
  obtain ⟨words, dyn₁, prepares, place⟩ : ∃ words dyn₁, Prepares floor base dyn o words dyn₁ o₁ ∧
      (op = none ∨
        ∃ form, op = some (.Binary t name form) ∧
          ((o₁ = o ∧ dyn₁ = dyn ∧ form = .rs ∧ o.isStackTopInRegister = true ∧
              o.isStackTopMinus1InRegister = false) ∨
            (o₁ = o ∧ dyn₁ = dyn ∧ (form = .sr ∨ form = .rs ∧ Commutes name) ∧
              o.isStackTopInRegister = false ∧ o.isStackTopMinus1InRegister = true) ∨
            (form = .ss ∧ ∀ e ∈ dyn₁, e.slot ≠ reg0SlotAlias))) := by
    have third : (list[3]?).join = none := by rcases listed with rfl | ⟨rfl, -⟩ <;> rfl
    have zeroth : (list[0]?).join = some (.Binary t name .rs) := by
      rcases listed with rfl | ⟨rfl, -⟩ <;> rfl
    have second : (list[2]?).join = some (.Binary t name .ss) := by
      rcases listed with rfl | ⟨rfl, -⟩ <;> rfl
    dsimp only at chosen
    split at chosen
    · next inReg =>
      split at chosen
      · obtain ⟨rfl, rfl⟩ := Prod.mk.inj (Except.ok.inj chosen)
        exact ⟨[], dyn, valid.prepares, .inl third⟩
      · next inSlot =>
        obtain ⟨rfl, rfl⟩ := Prod.mk.inj (Except.ok.inj chosen)
        exact ⟨[], dyn, valid.prepares, .inr ⟨.rs, zeroth,
          .inl ⟨rfl, rfl, rfl, inReg, Bool.eq_false_iff.mpr inSlot⟩⟩⟩
    · next inSlot =>
      split at chosen
      · next inReg =>
        obtain ⟨rfl, rfl⟩ := Prod.mk.inj (Except.ok.inj chosen)
        have free := Bool.eq_false_iff.mpr inSlot
        rcases listed with rfl | ⟨rfl, commutes⟩
        · exact ⟨[], dyn, valid.prepares, .inr ⟨.sr, rfl,
            .inr (.inl ⟨rfl, rfl, .inl rfl, free, inReg⟩)⟩⟩
        · exact ⟨[], dyn, valid.prepares, .inr ⟨.rs, rfl,
            .inr (.inl ⟨rfl, rfl, .inr ⟨rfl, commutes⟩, free, inReg⟩)⟩⟩
      · obtain ⟨found, preserved, chosen⟩ := ok_of_map chosen
        obtain ⟨rfl, rfl⟩ := Prod.mk.inj chosen
        obtain ⟨words, dyn₁, prepares, free⟩ := preserve_spec valid preserved
        exact ⟨words, dyn₁, prepares, .inr ⟨.ss, second, .inr (.inr ⟨rfl, free⟩)⟩⟩
  rcases place with rfl | ⟨form, rfl, place⟩
  · cases rest
  dsimp only at rest
  obtain ⟨o₂, first, rest⟩ := ok_of_bind rest
  obtain ⟨o₃, next, push⟩ := ok_of_bind rest
  rw [if_pos (show (-1 : Int) < 0 by decide)] at next
  have valid₁ := prepares.passes.valid
  obtain ⟨top, under, rfl, taken⟩ := emitSlot_spec (valid₁.emit _) first
  obtain ⟨second, below, rfl, taken'⟩ := emitSlot_spec taken.valid next
  have inReg : ∀ {e}, e ∈ top :: second :: below → e.slot ≠ reg0SlotAlias →
      inRegister e = false := fun inside ne => Bool.eq_false_iff.mpr fun held =>
    ne ((valid₁.inRegister_iff inside).mp held)
  have placed : Fits name top second form ∧ ∀ e ∈ below, e.slot ≠ reg0SlotAlias := by
    rcases place with ⟨rfl, rfl, rfl, held, free⟩ | ⟨rfl, rfl, forms, free, held⟩ | ⟨rfl, free⟩
    · rw [top_inRegister valid] at held
      rw [second_inRegister valid] at free
      have others := valid.register.of_top ((valid.inRegister_iff (by simp)).mp held)
      exact ⟨.inl ⟨held, free⟩, fun e inside => others e (by simp [inside])⟩
    · rw [top_inRegister valid] at free
      rw [second_inRegister valid] at held
      have ne : top.slot ≠ reg0SlotAlias := fun same => by
        rw [(valid.inRegister_iff (by simp)).mpr same] at free
        cases free
      refine ⟨?_, (valid.register.of_slot ne).of_top ((valid.inRegister_iff (by simp)).mp held)⟩
      rcases forms with rfl | ⟨rfl, commutes⟩
      · exact ⟨free, held⟩
      · exact .inr ⟨free, held, commutes⟩
    · exact ⟨⟨inReg (by simp) (free top (by simp)), inReg (by simp) (free second (by simp))⟩,
        fun e inside => free e (by simp [inside])⟩
  obtain ⟨fits, free⟩ := placed
  refine ⟨words, _, o₁, top, second, below, form, prepares, rfl, free, fits, ?_⟩
  have whole := (((valid₁.passes.emit _).trans taken).trans taken').trans
    (taken'.valid.pushRegister free push)
  rw [List.nil_append, List.append_nil, List.append_assoc] at whole
  exact whole

/-! ## A selection -/

/-- Which of the entries is in the register, counted from `i`. -/
def registerIndex : Nat → List Entry → Option Nat
  | _, [] => none
  | i, e :: rest =>
    if inRegister e then some ((registerIndex (i + 1) rest).getD i) else registerIndex (i + 1) rest

theorem selectOperands_spec {n i : Nat} {words : List CodeWord} {index : Option Nat}
    (valid : Valid floor base dyn o)
    (done : o.selectOperands n i = .ok (words, index, o')) :
    ∃ taken below, dyn = taken ++ below ∧ taken.length = n ∧
      words = taken.flatMap operandWords ∧ index = registerIndex i taken ∧
      Passes floor base o [] below o' := by
  induction n generalizing i dyn o o' words index with
  | zero =>
    simp only [selectOperands, Except.ok.injEq, Prod.mk.injEq] at done
    obtain ⟨rfl, rfl, rfl⟩ := done
    exact ⟨[], dyn, rfl, rfl, rfl, rfl, valid.passes⟩
  | succ n ih =>
    rw [selectOperands] at done
    obtain ⟨o₁, popped, rest⟩ := ok_of_bind done
    obtain ⟨⟨later, index', o₂⟩, others, rest⟩ := ok_of_bind rest
    obtain ⟨top, under, rfl⟩ := valid.of_pop popped
    have passes := valid.pop popped
    obtain ⟨taken, below, rfl, length, rfl, rfl, passes'⟩ := ih passes.valid others
    have whole := passes.trans passes'
    dsimp only at rest
    rw [top_inRegister valid] at rest
    refine ⟨top :: taken, below, rfl, by rw [List.length_cons, length], ?_⟩
    rw [List.flatMap_cons, registerIndex]
    split at rest
    · next inReg =>
      simp only [Except.ok.injEq, Prod.mk.injEq] at rest
      obtain ⟨rfl, rfl, rfl⟩ := rest
      rw [operandWords, if_pos inReg, if_pos inReg]
      exact ⟨rfl, rfl, whole⟩
    · next inSlot =>
      simp only [Except.ok.injEq, Prod.mk.injEq] at rest
      obtain ⟨rfl, rfl, rfl⟩ := rest
      have number : o.getStackTopSlotNumber = top.slot := by
        simp [getStackTopSlotNumber, valid.stack]
      rw [operandWords, if_neg inSlot, if_neg inSlot, number]
      exact ⟨rfl, rfl, whole⟩

/-- One of three entries is in the register at most. -/
def AtMostOne (first second third : Entry) : Prop :=
  (inRegister first = true → inRegister second = false ∧ inRegister third = false) ∧
  (inRegister second = true → inRegister third = false)

theorem exec_select {type : ValType} {c s f : Nat} (pc : List CodeWord)
    (one : AtMostOne ⟨c, .i32⟩ ⟨s, type⟩ ⟨f, type⟩)
    (readC : inRegister ⟨c, .i32⟩ = false → m.load .i32 c = some (wordOf m ⟨c, .i32⟩))
    (readS : inRegister ⟨s, type⟩ = false → m.load type s = some (wordOf m ⟨s, type⟩))
    (readF : inRegister ⟨f, type⟩ = false → m.load type f = some (wordOf m ⟨f, type⟩)) :
    exec (.op (.Select type (intSelectOp (registerIndex 0 [⟨c, .i32⟩, ⟨s, type⟩, ⟨f, type⟩]))) ::
        [⟨c, .i32⟩, ⟨s, type⟩, ⟨f, type⟩].flatMap operandWords ++ pc) m =
      exec pc (selectOp type m (wordOf m ⟨c, .i32⟩) (wordOf m ⟨s, type⟩)
        (wordOf m ⟨f, type⟩)) := by
  simp only [List.flatMap_cons, List.flatMap_nil, registerIndex, operandWords, List.append_nil]
  cases regC : inRegister ⟨c, .i32⟩ with
  | true =>
    obtain ⟨regS, regF⟩ := one.1 regC
    rw [regS, regF, wordOf_of_inRegister regC]
    show exec (.op (.Select type .rss) :: .slot s :: .slot f :: pc) m = _
    rw [exec, readS regS, readF regF]
  | false =>
    cases regS : inRegister ⟨s, type⟩ with
    | true =>
      have regF := one.2 regS
      rw [regF, wordOf_of_inRegister regS]
      show exec (.op (.Select type .srs) :: .slot c :: .slot f :: pc) m = _
      rw [exec, readC regC, readF regF]
    | false =>
      cases regF : inRegister ⟨f, type⟩ with
      | true =>
        rw [wordOf_of_inRegister regF]
        show exec (.op (.Select type .ssr) :: .slot c :: .slot s :: pc) m = _
        rw [exec, readC regC, readS regS]
      | false =>
        show exec (.op (.Select type .sss) :: .slot c :: .slot s :: .slot f :: pc) m = _
        rw [exec, readC regC, readS regS, readF regF]

/-- A selection as it is compiled: the selector, the operands and the result. -/
theorem compileSelect_spec (valid : Valid floor base dyn o) (done : o.compileSelect = .ok o') :
    ∃ words dyn₁ o₁ c s f below, Prepares floor base dyn o words dyn₁ o₁ ∧
      dyn₁ = c :: s :: f :: below ∧ (∀ e ∈ below, e.slot ≠ reg0SlotAlias) ∧ AtMostOne c s f ∧
      Passes floor base o₁
        (.op (.Select s.type (intSelectOp (registerIndex 0 [c, s, f]))) ::
          [c, s, f].flatMap operandWords)
        (⟨reg0SlotAlias, s.type⟩ :: below) o' := by
  unfold compileSelect at done
  split at done
  · cases done
  · next type typed =>
    obtain ⟨o₁, kept, rest⟩ := ok_of_bind done
    obtain ⟨⟨slots, index, o₂⟩, taken, push⟩ := ok_of_bind rest
    dsimp only at push
    obtain ⟨words, dyn₁, prepares, place⟩ : ∃ words dyn₁, Prepares floor base dyn o words dyn₁ o₁ ∧
        ((o₁ = o ∧ dyn₁ = dyn ∧ (o.isStackTopInRegister || o.isStackTopMinus1InRegister ||
            o.isStackTopMinus2InRegister) = true) ∨ ∀ e ∈ dyn₁, e.slot ≠ reg0SlotAlias) := by
      split at kept
      · next some =>
        obtain rfl := Except.ok.inj kept
        exact ⟨[], dyn, valid.prepares, .inl ⟨rfl, rfl, some⟩⟩
      · obtain ⟨words, dyn₁, prepares, free⟩ := preserve_spec valid kept
        exact ⟨words, dyn₁, prepares, .inr free⟩
    have valid₁ := prepares.passes.valid
    obtain ⟨entries, below, rfl, three, rfl, rfl, passes⟩ := selectOperands_spec valid₁ taken
    obtain ⟨c, s, f, rfl⟩ := List.length_eq_three.mp three
    have register := valid₁.register
    have inReg : ∀ {e}, e ∈ c :: s :: f :: below → (inRegister e = true ↔ e.slot = reg0SlotAlias) :=
      fun inside => valid₁.inRegister_iff inside
    have inSlot : ∀ {e}, e ∈ c :: s :: f :: below → e.slot ≠ reg0SlotAlias →
        inRegister e = false := fun inside ne => Bool.eq_false_iff.mpr fun held =>
      ne ((inReg inside).mp held)
    -- the entries from the one in the register on
    have afterC : inRegister c = true → ∀ e ∈ s :: f :: below, e.slot ≠ reg0SlotAlias :=
      fun held => register.of_top ((inReg (by simp)).mp held)
    have afterS : inRegister s = true → ∀ e ∈ f :: below, e.slot ≠ reg0SlotAlias := by
      intro held
      by_cases first : inRegister c = true
      · exact fun e inside => afterC first e (by simp [List.mem_cons.mp inside])
      · exact (register.of_slot fun same => first ((inReg (by simp)).mpr same)).of_top
          ((inReg (by simp)).mp held)
    have afterF : inRegister f = true → ∀ e ∈ below, e.slot ≠ reg0SlotAlias := by
      intro held
      by_cases second : inRegister s = true
      · exact fun e inside => afterS second e (by simp [inside])
      · by_cases first : inRegister c = true
        · exact fun e inside => afterC first e (by simp [inside])
        · exact ((register.of_slot fun same => first ((inReg (by simp)).mpr same)).of_slot
            fun same => second ((inReg (by simp)).mpr same)).of_top ((inReg (by simp)).mp held)
    have free : ∀ e ∈ below, e.slot ≠ reg0SlotAlias := by
      rcases place with ⟨rfl, rfl, some⟩ | free
      · simp only [isStackTopInRegister, isStackTopMinus1InRegister, isStackTopMinus2InRegister,
          valid.stack, List.cons_append, List.getElem?_cons_zero, List.getElem?_cons_succ,
          Option.any_some, Bool.or_eq_true] at some
        rcases some with (held | held) | held
        · exact fun e inside => afterC held e (by simp [inside])
        · exact fun e inside => afterS held e (by simp [inside])
        · exact afterF held
      · exact fun e inside => free e (by simp [inside])
    obtain rfl : type = s.type := by
      obtain ⟨c', under, -, under₁, rfl⟩ := List.forall₂_cons_right_iff.mp prepares.moved
      obtain ⟨s', under', same, -, rfl⟩ := List.forall₂_cons_right_iff.mp under₁
      rw [getStackTypeFromTop, valid.stack] at typed
      split at typed
      · rcases same with rfl | ⟨same, -⟩
        · exact (Option.some.inj typed).symm
        · exact (Option.some.inj typed).symm.trans same
      · cases typed
    refine ⟨words, _, o₁, c, s, f, below, prepares, rfl, free, ⟨fun held => ?_, fun held => ?_⟩, ?_⟩
    · exact ⟨inSlot (by simp) (afterC held s (by simp)), inSlot (by simp) (afterC held f (by simp))⟩
    · exact inSlot (by simp) (afterS held f (by simp))
    · have emitted := passes.emit (.op (.Select s.type (intSelectOp (registerIndex 0 [c, s, f]))) ::
        [c, s, f].flatMap operandWords)
      have whole := emitted.trans (emitted.valid.pushRegister free push)
      rw [List.nil_append, List.append_nil] at whole
      exact whole

end Operators

end VelumOS.Spec.Compiler
