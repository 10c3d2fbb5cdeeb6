import VelumOS.Source.M3.Exec

/-!
# The arithmetic of the operations

Each macro of the interpreter computes, in the low bits of the register, the operator of
the language that it is expanded for, and traps where that does.
-/
namespace VelumOS.Spec.WasmArithmetic
open Base.Wasm Source.M3

/-! ## The register -/

theorem toReg_low (t : CType) (value : BitVec t.width) :
    (t.toReg value).setWidth t.width = value := by
  unfold CType.toReg
  have narrow : t.width ≤ 64 := by
    unfold CType.width
    cases t.type <;> decide
  split
  · ext bit inside
    simp only [BitVec.getElem_setWidth, BitVec.getLsbD_signExtend]
    simp [inside]
    omega
  · rw [BitVec.setWidth_setWidth_of_le _ narrow, BitVec.setWidth_eq]

theorem ofBool_low (condition : Bool) :
    (ofBool condition).setWidth 32 = if condition then 1#32 else 0#32 := by
  cases condition <;> rfl

/-! ## Rotations -/

/-- A count under the mask, and the shift the other way. -/
theorem masked_counts {k : Nat} (small : k ≤ 6) (count : BitVec 32) :
    (count &&& BitVec.ofNat 32 (2 ^ k - 1)).toNat = count.toNat % 2 ^ k ∧
    (-(count &&& BitVec.ofNat 32 (2 ^ k - 1)) &&& BitVec.ofNat 32 (2 ^ k - 1)).toNat =
      (2 ^ k - count.toNat % 2 ^ k) % 2 ^ k := by
  have bound : 2 ^ k ≤ 2 ^ 6 := Nat.pow_le_pow_right (by decide) small
  have divides : 2 ^ k ∣ 2 ^ 32 := pow_dvd_pow 2 (by omega)
  have mask : (BitVec.ofNat 32 (2 ^ k - 1)).toNat = 2 ^ k - 1 := by
    rw [BitVec.toNat_ofNat, Nat.mod_eq_of_lt (by omega)]
  have low : (count &&& BitVec.ofNat 32 (2 ^ k - 1)).toNat = count.toNat % 2 ^ k := by
    rw [BitVec.toNat_and, mask, Nat.and_two_pow_sub_one_eq_mod]
  refine ⟨low, ?_⟩
  rw [BitVec.toNat_and, mask, Nat.and_two_pow_sub_one_eq_mod, BitVec.toNat_neg, low,
    Nat.mod_mod_of_dvd _ divides]
  have less := Nat.mod_lt count.toNat (Nat.two_pow_pos k)
  obtain ⟨q, whole⟩ := divides
  have positive : 1 ≤ q := by
    rcases Nat.eq_zero_or_pos q with rfl | positive
    · simp at whole
    · exact positive
  have split : 2 ^ 32 - count.toNat % 2 ^ k =
      (2 ^ k - count.toNat % 2 ^ k) + 2 ^ k * (q - 1) := by
    have back : 2 ^ k * q = 2 ^ k * (q - 1) + 2 ^ k := by
      rw [← Nat.mul_succ, Nat.succ_eq_add_one, Nat.sub_add_cancel positive]
    omega
  rw [split, Nat.add_mul_mod_self_left]

theorem rotl_eq {w k : Nat} (size : w = 2 ^ k) (small : k ≤ 6) (n : BitVec w)
    (count : BitVec 32) : rotl n count = n.rotateLeft count.toNat := by
  subst size
  obtain ⟨low, back⟩ := masked_counts small count
  have less := Nat.mod_lt count.toNat (Nat.two_pow_pos k)
  simp only [rotl, low, back, BitVec.rotateLeft_def]
  rcases Nat.eq_zero_or_pos (count.toNat % 2 ^ k) with none | some
  · have gone : n >>> (2 ^ k - 0) = 0#(2 ^ k) := BitVec.ushiftRight_eq_zero (by omega)
    rw [none, gone, Nat.sub_zero, Nat.mod_self]
    simp
  · rw [Nat.mod_eq_of_lt (by omega : 2 ^ k - count.toNat % 2 ^ k < 2 ^ k)]

theorem rotr_eq {w k : Nat} (size : w = 2 ^ k) (small : k ≤ 6) (n : BitVec w)
    (count : BitVec 32) : rotr n count = n.rotateRight count.toNat := by
  subst size
  obtain ⟨low, back⟩ := masked_counts small count
  have less := Nat.mod_lt count.toNat (Nat.two_pow_pos k)
  simp only [rotr, low, back, BitVec.rotateRight_def]
  rcases Nat.eq_zero_or_pos (count.toNat % 2 ^ k) with none | some
  · have gone : n <<< (2 ^ k - 0) = 0#(2 ^ k) := BitVec.shiftLeft_eq_zero (by omega)
    rw [none, gone, Nat.sub_zero, Nat.mod_self]
    simp
  · rw [Nat.mod_eq_of_lt (by omega : 2 ^ k - count.toNat % 2 ^ k < 2 ^ k)]

/-! ## Counting zeros -/

/-- Bit 0 set changes no leading zero of a word that has another bit. -/
theorem clzAuxRec_or_one {w : Nat} (x : BitVec w) (n : Nat)
    (bit : ∃ j ≤ n, x.getLsbD j = true) : (x ||| 1#w).clzAuxRec n = x.clzAuxRec n := by
  induction n with
  | zero =>
    obtain ⟨j, below, isSet⟩ := bit
    obtain rfl : j = 0 := by omega
    rw [BitVec.clzAuxRec_zero, BitVec.clzAuxRec_zero, BitVec.getLsbD_or, isSet, Bool.true_or]
  | succ n ih =>
    have high : (1#w).getLsbD (n + 1) = false := by simp [BitVec.getLsbD_one]
    rw [BitVec.clzAuxRec_succ, BitVec.clzAuxRec_succ, BitVec.getLsbD_or, high, Bool.or_false]
    split
    · rfl
    · next clear =>
      obtain ⟨j, below, isSet⟩ := bit
      refine ih ⟨j, ?_, isSet⟩
      have other : j ≠ n + 1 := by
        rintro rfl
        exact clear isSet
      omega

theorem clz_or_one {x : BitVec 64} (some : x ≠ 0) : (x ||| 1).clz = x.clz := by
  refine clzAuxRec_or_one x 63 ?_
  by_contra none
  push Not at none
  apply some
  apply BitVec.eq_of_getLsbD_eq
  intro j inside
  rw [Bool.eq_false_iff.mpr (none j (by omega))]
  exact BitVec.getLsbD_zero.symm

theorem opClz64_eq (x : BitVec 64) : opClz64 x = x.clz := by
  unfold opClz64
  by_cases zero : x = 0#64
  · subst zero
    rfl
  · rw [clz_or_one zero]
    simp [ofBool, zero]

theorem reverse_or_high (x : BitVec 64) : (x ||| 1 <<< 63).reverse = x.reverse ||| 1 := by
  apply BitVec.eq_of_getLsbD_eq
  intro j inside
  have high : (1#64 <<< 63).getMsbD j = (1#64).getLsbD j := by
    rw [BitVec.getMsbD, BitVec.getLsbD_shiftLeft, BitVec.getLsbD_one, BitVec.getLsbD_one]
    by_cases first : j = 0
    · subst first
      decide
    · simp only [inside, decide_true, Bool.true_and]
      have below : 64 - 1 - j < 63 := by omega
      simp [below, first]
  rw [BitVec.getLsbD_reverse, BitVec.getMsbD_or, BitVec.getLsbD_or, BitVec.getLsbD_reverse]
  exact congrArg _ high

theorem reverse_zero (w : Nat) : (0#w).reverse = 0#w := BitVec.reverse_eq_zero_iff.mpr rfl

theorem opCtz64_eq (x : BitVec 64) : opCtz64 x = x.ctz := by
  unfold opCtz64
  by_cases zero : x = 0#64
  · subst zero
    rw [BitVec.ctz_eq_reverse_clz, BitVec.ctz_eq_reverse_clz, reverse_or_high, reverse_zero]
    rfl
  · have other : x.reverse ≠ 0 := fun same => zero (BitVec.reverse_eq_zero_iff.mp same)
    rw [BitVec.ctz_eq_reverse_clz, reverse_or_high, clz_or_one other,
      ← BitVec.ctz_eq_reverse_clz]
    simp [ofBool, zero]

theorem opClz32_eq (x : BitVec 32) : (opClz32 x).setWidth 32 = x.clz := by
  unfold opClz32
  split
  · next zero =>
    subst zero
    rfl
  · rw [BitVec.setWidth_setWidth_of_le _ (by decide), BitVec.setWidth_eq]

theorem opCtz32_eq (x : BitVec 32) : (opCtz32 x).setWidth 32 = x.ctz := by
  unfold opCtz32
  split
  · next zero =>
    subst zero
    have none := reverse_zero 32
    rw [BitVec.ctz_eq_reverse_clz]
    exact congrArg BitVec.clz none.symm
  · rw [BitVec.setWidth_setWidth_of_le _ (by decide), BitVec.setWidth_eq]

/-! ## Division -/

theorem opDivide_signed {t : CType} (signed : t.isSigned = true) (a b : BitVec t.width) :
    opDivide t a b = Arith.apply .div_s a b := by
  simp only [opDivide, Arith.apply, signed, if_true]
  split
  · rfl
  · split
    · next both => rw [if_pos ⟨both.2, both.1⟩]
    · next other =>
      rw [if_neg (fun both => other ⟨both.2, both.1⟩)]
      congr 1
      apply BitVec.eq_of_toInt_eq
      rw [BitVec.toInt_ofInt, BitVec.toInt_sdiv]

theorem opDivide_unsigned {t : CType} (unsigned : t.isSigned = false) (a b : BitVec t.width) :
    opDivide t a b = Arith.apply .div_u a b := by
  simp only [opDivide, Arith.apply, unsigned]
  split
  · rfl
  · rw [if_neg (by decide), BitVec.udiv_def]

theorem opRemainder_signed {t : CType} (signed : t.isSigned = true) (a b : BitVec t.width) :
    opRemainder t a b = Arith.apply .rem_s a b := by
  simp only [opRemainder, Arith.apply, signed, if_true]
  split
  · rfl
  · split
    · next both =>
      have minusOne : b.toInt = -1 := by
        rw [both.1]
        exact (congrArg BitVec.toInt BitVec.neg_one_eq_allOnes).trans
          (BitVec.toInt_allOnes.trans (if_pos t.type.width_pos))
      congr 1
      rw [← BitVec.toInt_inj, BitVec.toInt_srem, minusOne, Int.tmod_neg, Int.tmod_one]
      exact BitVec.toInt_zero
    · next other =>
      congr 1
      rw [← BitVec.toInt_srem, BitVec.ofInt_toInt]

theorem opRemainder_unsigned {t : CType} (unsigned : t.isSigned = false)
    (a b : BitVec t.width) : opRemainder t a b = Arith.apply .rem_u a b := by
  simp only [opRemainder, Arith.apply, unsigned]
  split
  · rfl
  · rw [if_neg (by decide), BitVec.umod_def]

/-! ## The operators -/

/-- The macro that computes an operator: its signedness and name. -/
def arithMacro : Arith → Bool × BinName
  | .add => (true, .Add)
  | .sub => (true, .Subtract)
  | .mul => (true, .Multiply)
  | .div_s => (true, .Divide)
  | .div_u => (false, .Divide)
  | .rem_s => (true, .Remainder)
  | .rem_u => (false, .Remainder)
  | .and => (false, .And)
  | .or => (false, .Or)
  | .xor => (false, .Xor)
  | .shl => (false, .ShiftLeft)
  | .shr_s => (true, .ShiftRight)
  | .shr_u => (false, .ShiftRight)
  | .rotl => (false, .Rotl)
  | .rotr => (false, .Rotr)

def relationMacro : Relation → Bool × BinName
  | .eq => (true, .Equal)
  | .ne => (true, .NotEqual)
  | .lt_s => (true, .LessThan)
  | .lt_u => (false, .LessThan)
  | .gt_s => (true, .GreaterThan)
  | .gt_u => (false, .GreaterThan)
  | .le_s => (true, .LessThanOrEqual)
  | .le_u => (false, .LessThanOrEqual)
  | .ge_s => (true, .GreaterThanOrEqual)
  | .ge_u => (false, .GreaterThanOrEqual)

def binaryMacro : Binary → Bool × BinName
  | .arith _ op => arithMacro op
  | .relation _ op => relationMacro op

def unaryMacro : Unary → Bool × UnName
  | .eqz _ => (true, .EqualToZero)
  | .clz _ => (false, .Clz)
  | .ctz _ => (false, .Ctz)
  | .popcnt _ => (false, .Popcnt)
  | .extend8_s _ => (true, .Extend8_s)
  | .extend16_s _ => (true, .Extend16_s)
  | .extend32_s => (true, .Extend32_s)
  | .wrap => (true, .Wrap)
  | .extend_s => (true, .Extend)
  | .extend_u => (false, .Extend)

theorem map_toReg {t : CType} (result : Except Trap (BitVec t.width)) :
    (result.map t.toReg).map (fun r0 => r0.setWidth t.width) = result := by
  cases result with
  | error trap => rfl
  | ok value => exact congrArg Except.ok (toReg_low t value)

theorem width_eq_pow (type : ValType) : ∃ k ≤ 6, type.width = 2 ^ k := by
  cases type with
  | i32 => exact ⟨5, by decide, rfl⟩
  | i64 => exact ⟨6, by decide, rfl⟩

theorem rot_exact (type : ValType) (a b : BitVec type.width) :
    rotl a (b.setWidth 32) = a.rotateLeft b.toNat ∧
    rotr a (b.setWidth 32) = a.rotateRight b.toNat := by
  obtain ⟨k, small, size⟩ := width_eq_pow type
  have divides : type.width ∣ 2 ^ 32 := size ▸ pow_dvd_pow 2 (by omega)
  have count : (b.setWidth 32).toNat % type.width = b.toNat % type.width := by
    rw [BitVec.toNat_setWidth, Nat.mod_mod_of_dvd _ divides]
  constructor
  · rw [rotl_eq size small, BitVec.rotateLeft_def, BitVec.rotateLeft_def, count]
  · rw [rotr_eq size small, BitVec.rotateRight_def, BitVec.rotateRight_def, count]

theorem not_decide_lt {α : Type} [LinearOrder α] (x y : α) :
    (!decide (x < y)) = decide (y ≤ x) := by
  rw [← decide_not, decide_eq_decide, not_lt]

theorem wrap_low (x : BitVec 64) :
    (x.setWidth 64 &&& 0x00000000ffffffff).setWidth 32 = x.setWidth 32 := by
  have ones : (0x00000000ffffffff : BitVec 64).setWidth 32 = BitVec.allOnes 32 := rfl
  rw [BitVec.setWidth_and, BitVec.setWidth_eq, ones, BitVec.and_allOnes]

/-- A comparison leaves the truth of its relation. -/
theorem opBinary_relation (type : ValType) (op : Relation) (a b : BitVec type.width) :
    opBinary ⟨type, (relationMacro op).1⟩ (relationMacro op).2 a b =
      .ok (ofBool (op.holds a b)) := by
  cases op
  case le_s => exact congrArg (fun c => Except.ok (ofBool c)) (not_decide_lt b.toInt a.toInt)
  case le_u => exact congrArg (fun c => Except.ok (ofBool c)) (not_decide_lt b.toNat a.toNat)
  case ge_s => exact congrArg (fun c => Except.ok (ofBool c)) (not_decide_lt a.toInt b.toInt)
  case ge_u => exact congrArg (fun c => Except.ok (ofBool c)) (not_decide_lt a.toNat b.toNat)
  all_goals rfl

/-- A binary operation leaves the result of its operator, or its trap. -/
theorem opBinary_exact (op : Binary) (a b : BitVec op.source.width) :
    (opBinary ⟨op.source, (binaryMacro op).1⟩ (binaryMacro op).2 a b).map
      (fun r0 => r0.setWidth op.target.width) = op.apply a b := by
  cases op with
  | arith type op =>
    have low : ∀ signed value, (CType.toReg ⟨type, signed⟩ value).setWidth type.width = value :=
      fun signed value => toReg_low ⟨type, signed⟩ value
    cases op
    case div_s =>
      exact (map_toReg _).trans (opDivide_signed (t := ⟨type, true⟩) rfl a b)
    case div_u =>
      exact (map_toReg _).trans (opDivide_unsigned (t := ⟨type, false⟩) rfl a b)
    case rem_s =>
      exact (map_toReg _).trans (opRemainder_signed (t := ⟨type, true⟩) rfl a b)
    case rem_u =>
      exact (map_toReg _).trans (opRemainder_unsigned (t := ⟨type, false⟩) rfl a b)
    case rotl =>
      exact congrArg Except.ok ((low _ _).trans (rot_exact type a b).1)
    case rotr =>
      exact congrArg Except.ok ((low _ _).trans (rot_exact type a b).2)
    all_goals exact congrArg Except.ok (low _ _)
  | relation type op =>
    refine (congrArg (Except.map _) (opBinary_relation type op a b)).trans ?_
    exact congrArg Except.ok (ofBool_low _)

/-- A unary operation leaves the result of its operator. -/
theorem opUnary_exact (op : Unary) (a : BitVec op.source.width) :
    (opUnary ⟨op.source, (unaryMacro op).1⟩ (unaryMacro op).2 a).setWidth op.target.width =
      op.apply a := by
  cases op with
  | eqz type => exact (ofBool_low _).trans (if_congr decide_eq_true_iff rfl rfl)
  | clz type =>
    cases type with
    | i32 => exact opClz32_eq a
    | i64 => exact (BitVec.setWidth_eq _).trans (opClz64_eq a)
  | ctz type =>
    cases type with
    | i32 => exact opCtz32_eq a
    | i64 => exact (BitVec.setWidth_eq _).trans (opCtz64_eq a)
  | popcnt type =>
    cases type with
    | i32 => exact (BitVec.setWidth_setWidth_of_le _ (by decide)).trans (BitVec.setWidth_eq _)
    | i64 => exact (BitVec.setWidth_setWidth_of_le _ (by decide)).trans (BitVec.setWidth_eq _)
  | extend8_s type => exact toReg_low ⟨type, true⟩ _
  | extend16_s type => exact toReg_low ⟨type, true⟩ _
  | extend32_s => exact toReg_low .i64 _
  | wrap => exact wrap_low a
  | extend_s => exact BitVec.setWidth_eq _
  | extend_u => exact BitVec.setWidth_eq _

/-- The operations that have no form with the top in a slot alone compute either order. -/
theorem opBinary_comm (t : CType) {name : BinName}
    (commutes : name = .Equal ∨ name = .NotEqual ∨ name = .Add ∨ name = .Multiply ∨
      name = .And ∨ name = .Or ∨ name = .Xor) (a b : BitVec t.width) :
    opBinary t name a b = opBinary t name b a := by
  rcases commutes with rfl | rfl | rfl | rfl | rfl | rfl | rfl <;>
    simp only [opBinary, eq_comm (a := a), ne_comm (a := a), BitVec.add_comm a, BitVec.mul_comm a,
      BitVec.and_comm a, BitVec.or_comm a, BitVec.xor_comm a]

end VelumOS.Spec.WasmArithmetic
