import VelumOS.Base.Leb128
import VelumOS.Base.Octets

/-!
# Readers of the Wasm binary

`src/m3_core.c`: every reader takes the octets from `*io_bytes` up to `i_end` and
returns its value and what is left, or the `M3Result` that its callers pass on.
-/
namespace VelumOS.Source.M3
open Base.Leb128 Base.Octets

/-- The results that the modelled functions return instead of `m3Err_none`. -/
inductive M3Err where
  | mallocFailed | incompatibleWasmVersion | wasmMalformed | misorderedWasmSection
  | wasmUnderrun | wasmOverrun | lebOverflow | missingUTF8 | invalidTypeId
  | tooManyMemorySections | tooManyArgsRets
  | wasmMissingInitExpr | wasmSectionUnderrun | wasmSectionOverrun
  | tooManyTypes | tooManyFunctions | tooManyImports | tooManyExports | tooManyGlobals
  | tooManyElementSegments | tooManyDataSegments | tooManyNames
  | typeSigOutOfBounds | startFunctionOutOfBounds | mismatchedFunctionCount
  | dataSegmentUnderflow
  | wasmMemoryOverflow | linearMemoryExceeded | unallocatedLinearMemory
  | dataSegmentOutOfBounds | tableUnderflow | tableOverflow | functionIndexOutOfRange
  | elementTableIndex | functionLookupFailed | functionBodyMissing
  | unknownOpcode | functionStackOverflow | functionStackUnderrun | typeMismatch
  | typeCountMismatch | slotUsageCountOverflow | localIndexOutOfBounds | noOperation
  deriving DecidableEq

/-- The texts of `wasm3.h`, and those that the source writes out where it fails. -/
def M3Err.text : M3Err → String
  | .mallocFailed => "memory allocation failed"
  | .incompatibleWasmVersion => "incompatible Wasm binary version"
  | .wasmMalformed => "malformed Wasm binary"
  | .misorderedWasmSection => "out of order Wasm section"
  | .wasmUnderrun => "underrun while parsing Wasm binary"
  | .wasmOverrun => "overrun while parsing Wasm binary"
  | .lebOverflow => "LEB encoded value overflow"
  | .missingUTF8 => "invalid length UTF-8 string"
  | .invalidTypeId => "unknown value_type"
  | .tooManyMemorySections => "only one memory per module is supported"
  | .tooManyArgsRets => "too many arguments or return values"
  | .wasmMissingInitExpr => "missing init_expr in Wasm binary"
  | .wasmSectionUnderrun => "section underrun while parsing Wasm binary"
  | .wasmSectionOverrun => "section overrun while parsing Wasm binary"
  | .tooManyTypes => "too many types"
  | .tooManyFunctions => "too many functions"
  | .tooManyImports => "too many imports"
  | .tooManyExports => "too many exports"
  | .tooManyGlobals => "too many globals"
  | .tooManyElementSegments => "too many element segments"
  | .tooManyDataSegments => "too many data segments"
  | .tooManyNames => "too many names"
  | .typeSigOutOfBounds => "type sig index out of bounds"
  | .startFunctionOutOfBounds => "start function index out of bounds"
  | .mismatchedFunctionCount => "mismatched function count in code section"
  | .dataSegmentUnderflow => "data segment underflow"
  | .wasmMemoryOverflow => "runtime ran out of memory"
  | .linearMemoryExceeded => "linear memory limitation exceeded"
  | .unallocatedLinearMemory => "unallocated linear memory"
  | .dataSegmentOutOfBounds => "data segment out of bounds"
  | .tableUnderflow => "table underflow"
  | .tableOverflow => "table overflow"
  | .functionIndexOutOfRange => "function index out of range"
  | .elementTableIndex => "element table index must be zero for MVP"
  | .functionLookupFailed => "function lookup failed"
  | .functionBodyMissing => "function body is missing"
  | .unknownOpcode => "unknown opcode"
  | .functionStackOverflow => "compiling function overran its stack height limit"
  | .functionStackUnderrun => "compiling function underran the stack"
  | .typeMismatch => "incorrect type on stack"
  | .typeCountMismatch => "incorrect value count on stack"
  | .slotUsageCountOverflow => "slot usage count overflow"
  | .localIndexOutOfBounds => "local index out of bounds"
  | .noOperation => "no operation found for opcode"

/-- `_` of the source: what follows a call that did not fail. -/
theorem ok_of_bind {α β : Type} {first : Except M3Err α} {next : α → Except M3Err β} {b : β}
    (done : (first >>= next) = .ok b) : ∃ a, first = .ok a ∧ next a = .ok b := by
  cases first with
  | error fault => cases done
  | ok a => exact ⟨a, rfl, done⟩

theorem ok_of_map {α β : Type} {first : Except M3Err α} {f : α → β} {b : β}
    (done : first.map f = .ok b) : ∃ a, first = .ok a ∧ f a = b := by
  cases first with
  | error fault => cases done
  | ok a => exact ⟨a, rfl, Except.ok.inj done⟩

/-- A reader: the value and the octets behind it. -/
abbrev Reader (α : Type) := List UInt8 → Except M3Err (α × List UInt8)

/-- `Read_u8` and `Read_opcode`. -/
def readU8 : Reader UInt8
  | [] => .error .wasmUnderrun
  | byte :: ptr => .ok (byte, ptr)

/-- `Read_u32`. -/
def readU32 : Reader UInt32 := fun bytes =>
  if 4 ≤ bytes.length then .ok (UInt32.ofNat (decodeLE (bytes.take 4)), bytes.drop 4)
  else .error .wasmUnderrun

/-- The loop of `ReadLebUnsigned`. -/
def lebUnsigned (maxNumBits shift : Nat) (value : BitVec 64) : Reader (BitVec 64)
  | [] => .error .wasmUnderrun
  | byte :: ptr =>
    let value := value ||| BitVec.ofNat 64 (byte &&& 0x7f).toNat <<< shift
    let shift := shift + 7
    if byte &&& 0x80 = 0 then .ok (value, ptr)
    else if maxNumBits ≤ shift then .error .lebOverflow
    else lebUnsigned maxNumBits shift value ptr

/-- What `ReadLebUnsigned` leaves in `*o_value`, also where it fails. -/
def lebUnsignedValue (maxNumBits shift : Nat) (value : BitVec 64) : List UInt8 → BitVec 64
  | [] => value
  | byte :: ptr =>
    let value := value ||| BitVec.ofNat 64 (byte &&& 0x7f).toNat <<< shift
    let shift := shift + 7
    if byte &&& 0x80 = 0 ∨ maxNumBits ≤ shift then value
    else lebUnsignedValue maxNumBits shift value ptr

/-- The loop of `ReadLebSigned`. -/
def lebSigned (maxNumBits shift : Nat) (value : BitVec 64) : Reader (BitVec 64)
  | [] => .error .wasmUnderrun
  | byte :: ptr =>
    let value := value ||| BitVec.ofNat 64 (byte &&& 0x7f).toNat <<< shift
    let shift := shift + 7
    if byte &&& 0x80 = 0 then
      if byte &&& 0x40 ≠ 0 ∧ shift < 64 then .ok (value ||| (~~~ 0#64) <<< shift, ptr)
      else .ok (value, ptr)
    else if maxNumBits ≤ shift then .error .lebOverflow
    else lebSigned maxNumBits shift value ptr

def readLebUnsigned (maxNumBits : Nat) : Reader (BitVec 64) := lebUnsigned maxNumBits 0 0#64

def readLebSigned (maxNumBits : Nat) : Reader (BitVec 64) := lebSigned maxNumBits 0 0#64

/-- `ReadLEB_u32` and `ReadLEB_u7`: the value is cut to the width of the result. -/
def readLebU (maxNumBits width : Nat) : Reader (BitVec width) := fun bytes => do
  let (value, rest) ← readLebUnsigned maxNumBits bytes
  .ok (value.setWidth width, rest)

/-- `ReadLEB_i7`, `ReadLEB_i32` and `ReadLEB_i64`. -/
def readLebI (maxNumBits width : Nat) : Reader (BitVec width) := fun bytes => do
  let (value, rest) ← readLebSigned maxNumBits bytes
  .ok (value.setWidth width, rest)

def readLEB_u32 : Reader (BitVec 32) := readLebU 32 32

/-- What `ReadLEB_u32` leaves in `*o_value`. -/
def writtenLEB_u32 (bytes : List UInt8) : BitVec 32 :=
  (lebUnsignedValue 32 0 0#64 bytes).setWidth 32

def readLEB_u7 : Reader (BitVec 8) := readLebU 7 8

def readLEB_i7 : Reader (BitVec 8) := readLebI 7 8

def readLEB_i32 : Reader (BitVec 32) := readLebI 32 32

def readLEB_i64 : Reader (BitVec 64) := readLebI 64 64

/-- `NormalizeType`, as the code of the type. -/
def normalizeType (convolutedWasmType : BitVec 8) : Except M3Err UInt8 :=
  let type : UInt8 := ⟨-convolutedWasmType⟩
  if type = 0x40 then .ok 0
  else if type < 1 ∨ 4 < type then .error .invalidTypeId
  else .ok type

/-- `Read_utf8`, where the copy of the octets is made. -/
def readUtf8 : Reader (List UInt8) := fun bytes => do
  let (utf8Length, ptr) ← readLEB_u32 bytes
  if utf8Length.toNat ≤ 10000 then
    if utf8Length.toNat ≤ ptr.length then
      .ok (ptr.take utf8Length.toNat, ptr.drop utf8Length.toNat)
    else .error .wasmUnderrun
  else .error .missingUTF8

/-! ## What the LEB readers accept -/

theorem and_group (byte : UInt8) : (byte &&& 0x7f).toNat = group byte := by
  rw [UInt8.toNat_and]
  exact Nat.and_two_pow_sub_one_eq_mod byte.toNat 7

theorem and_high (byte : UInt8) : byte &&& 0x80 = 0 ↔ continues byte = false := by
  have bits : ∀ low : BitVec 8, low &&& 0x80#8 = 0#8 ↔ low.toNat < 128 := by
    set_option maxRecDepth 4000 in decide
  rw [continues, decide_eq_false_iff_not, not_le, ← UInt8.toBitVec_inj]
  exact bits byte.toBitVec

theorem and_sign (byte : UInt8) : byte &&& 0x40 = 0 ↔ group byte < 64 := by
  have bits : ∀ low : BitVec 8, low &&& 0x40#8 = 0#8 ↔ low.toNat % 128 < 64 := by
    set_option maxRecDepth 4000 in decide
  rw [← UInt8.toBitVec_inj]
  exact bits byte.toBitVec

/-- The loops join their groups with `|=`; that is addition. -/
theorem or_group {low : Nat} (small : low < 128) (high : BitVec 64) :
    BitVec.ofNat 64 low ||| high <<< 7 = BitVec.ofNat 64 low + high * 128#64 := by
  have apart : BitVec.ofNat 64 low &&& high <<< 7 = 0#64 := by
    ext bit inside
    simp only [BitVec.getElem_and, BitVec.getElem_shiftLeft, BitVec.getElem_zero]
    rw [Bool.and_eq_false_iff]
    by_cases below : bit < 7
    · exact .inr (by simp [below])
    · left
      rw [← BitVec.getLsbD_eq_getElem, BitVec.getLsbD_ofNat,
        Nat.testBit_lt_two_pow (Nat.lt_of_lt_of_le small
          (Nat.pow_le_pow_right (by decide) (Nat.le_of_not_lt below) : 2 ^ 7 ≤ 2 ^ bit))]
      exact Bool.and_false _
  rw [← BitVec.add_eq_or_of_and_eq_zero _ _ apart, BitVec.shiftLeft_eq_mul_twoPow]
  rfl

theorem ofNat_group {low : Nat} (small : low < 128) (high : Nat) :
    BitVec.ofNat 64 (low + 128 * high) =
      BitVec.ofNat 64 low ||| BitVec.ofNat 64 high <<< 7 := by
  rw [or_group small, BitVec.ofNat_add, Nat.mul_comm, BitVec.ofNat_mul]

theorem ofInt_group {low : Nat} (small : low < 128) (high : Int) :
    BitVec.ofInt 64 (low + 128 * high) =
      BitVec.ofNat 64 low ||| BitVec.ofInt 64 high <<< 7 := by
  rw [or_group small, BitVec.ofInt_add, Int.mul_comm, BitVec.ofInt_mul, BitVec.ofInt_natCast]
  rfl

/-- The sign octet: `~0` shifted up behind its seven bits. -/
theorem ofInt_sign {low : Nat} (small : low < 128) :
    BitVec.ofInt 64 ((low : Int) - 128) = BitVec.ofNat 64 low ||| (~~~ 0#64) <<< 7 := by
  have split : (low : Int) - 128 = low + 128 * (-1) := by omega
  rw [split, ofInt_group small]
  rfl

/-- A number whose last octet is read in time is read to its end. -/
theorem lebUnsigned_number {maxNumBits shift : Nat} {value : BitVec 64}
    {octets rest : List UInt8} (number : IsNumber octets)
    (within : shift + 7 * (octets.length - 1) < maxNumBits ∨ octets.length = 1) :
    lebUnsigned maxNumBits shift value (octets ++ rest) =
      .ok (value ||| BitVec.ofNat 64 (unsigned octets) <<< shift, rest) := by
  induction octets generalizing shift value with
  | nil => exact number.elim
  | cons octet tail ih =>
    rw [List.cons_append, lebUnsigned, and_group]
    cases tail with
    | nil =>
      rw [if_pos ((and_high octet).mpr number)]
      simp [unsigned]
    | cons next tail =>
      obtain ⟨more, number⟩ := number
      simp only [List.length_cons] at within
      rw [if_neg (by rw [and_high, more]; decide), if_neg (by omega),
        ih number (by simp only [List.length_cons]; omega)]
      rw [unsigned.eq_2 octet (next :: tail), ofNat_group (group_lt octet),
        BitVec.shiftLeft_or_distrib, ← BitVec.shiftLeft_add, Nat.add_comm shift 7, BitVec.or_assoc]

theorem lebSigned_number {maxNumBits shift : Nat} {value : BitVec 64}
    {octets rest : List UInt8} (number : IsNumber octets)
    (within : shift + 7 * (octets.length - 1) < maxNumBits ∨ octets.length = 1) :
    lebSigned maxNumBits shift value (octets ++ rest) =
      .ok (value ||| BitVec.ofInt 64 (signed octets) <<< shift, rest) := by
  induction octets generalizing shift value with
  | nil => exact number.elim
  | cons octet tail ih =>
    rw [List.cons_append, lebSigned, and_group]
    cases tail with
    | nil =>
      rw [if_pos ((and_high octet).mpr number), signed]
      simp only [ne_eq, and_sign, not_lt]
      split
      · next sign =>
        rw [if_pos sign.1, ofInt_sign (group_lt octet), BitVec.shiftLeft_or_distrib,
          ← BitVec.shiftLeft_add, Nat.add_comm 7 shift, BitVec.or_assoc]
        rfl
      · next plain =>
        by_cases sign : 64 ≤ group octet
        · have beyond : (~~~ 0#64) <<< (7 + shift) = 0#64 :=
            BitVec.shiftLeft_eq_zero (by omega)
          rw [if_pos sign, ofInt_sign (group_lt octet), BitVec.shiftLeft_or_distrib,
            ← BitVec.shiftLeft_add, beyond, BitVec.or_zero]
          rfl
        · rw [if_neg sign, BitVec.ofInt_natCast]
          rfl
    | cons next tail =>
      obtain ⟨more, number⟩ := number
      simp only [List.length_cons] at within
      rw [if_neg (by rw [and_high, more]; decide), if_neg (by omega),
        ih number (by simp only [List.length_cons]; omega)]
      rw [signed_cons number, ofInt_group (group_lt octet), BitVec.shiftLeft_or_distrib,
        ← BitVec.shiftLeft_add, Nat.add_comm shift 7, BitVec.or_assoc]

/-- Octets that all continue end the loop at the first that is not asked for, or where the
input ends. -/
theorem lebUnsigned_endless {maxNumBits shift : Nat} {value : BitVec 64} {bytes : List UInt8}
    (endless : ∀ octet ∈ bytes, continues octet = true)
    (within : shift + 7 * bytes.length < maxNumBits ∨ bytes = []) :
    lebUnsigned maxNumBits shift value bytes = .error .wasmUnderrun := by
  induction bytes generalizing shift value with
  | nil => rfl
  | cons octet tail ih =>
    simp only [List.length_cons] at within
    rw [lebUnsigned, if_neg (by rw [and_high, endless octet (by simp)]; decide),
      if_neg (by simp at within; omega)]
    exact ih (fun next inside => endless next (by simp [inside])) (by simp at within; omega)

theorem lebSigned_endless {maxNumBits shift : Nat} {value : BitVec 64} {bytes : List UInt8}
    (endless : ∀ octet ∈ bytes, continues octet = true)
    (within : shift + 7 * bytes.length < maxNumBits ∨ bytes = []) :
    lebSigned maxNumBits shift value bytes = .error .wasmUnderrun := by
  induction bytes generalizing shift value with
  | nil => rfl
  | cons octet tail ih =>
    simp only [List.length_cons] at within
    rw [lebSigned, if_neg (by rw [and_high, endless octet (by simp)]; decide),
      if_neg (by simp at within; omega)]
    exact ih (fun next inside => endless next (by simp [inside])) (by simp at within; omega)

theorem lebUnsigned_overflow {maxNumBits shift : Nat} {value : BitVec 64}
    {octets rest : List UInt8} (endless : ∀ octet ∈ octets, continues octet = true)
    (filled : octets ≠ [] ∧ maxNumBits ≤ shift + 7 * octets.length) :
    lebUnsigned maxNumBits shift value (octets ++ rest) = .error .lebOverflow := by
  induction octets generalizing shift value with
  | nil => exact absurd rfl filled.1
  | cons octet tail ih =>
    simp only [List.length_cons] at filled
    rw [List.cons_append, lebUnsigned,
      if_neg (by rw [and_high, endless octet (by simp)]; decide)]
    split
    · rfl
    · next more =>
      refine ih (fun next inside => endless next (by simp [inside])) ⟨?_, by omega⟩
      rintro rfl
      simp at filled
      omega

theorem lebSigned_overflow {maxNumBits shift : Nat} {value : BitVec 64}
    {octets rest : List UInt8} (endless : ∀ octet ∈ octets, continues octet = true)
    (filled : octets ≠ [] ∧ maxNumBits ≤ shift + 7 * octets.length) :
    lebSigned maxNumBits shift value (octets ++ rest) = .error .lebOverflow := by
  induction octets generalizing shift value with
  | nil => exact absurd rfl filled.1
  | cons octet tail ih =>
    simp only [List.length_cons] at filled
    rw [List.cons_append, lebSigned,
      if_neg (by rw [and_high, endless octet (by simp)]; decide)]
    split
    · rfl
    · next more =>
      refine ih (fun next inside => endless next (by simp [inside])) ⟨?_, by omega⟩
      rintro rfl
      simp at filled
      omega

/-! ## Numbers -/

/-- The octets that a number of `maxNumBits` bits may take. -/
def octetsOf (maxNumBits : Nat) : Nat := (maxNumBits + 6) / 7

section Readers
variable {maxNumBits width : Nat}

theorem readLebU_number (narrow : width ≤ 64) {octets rest : List UInt8}
    (number : IsNumber octets) (short : octets.length ≤ octetsOf maxNumBits) :
    readLebU maxNumBits width (octets ++ rest) =
      .ok (BitVec.ofNat width (unsigned octets), rest) := by
  have some := List.length_pos_of_ne_nil number.ne_nil
  unfold octetsOf at short
  have read : lebUnsigned maxNumBits 0 0#64 (octets ++ rest) = _ :=
    lebUnsigned_number number (by omega)
  simp only [readLebU, readLebUnsigned, read, bind, Except.bind]
  congr 2
  simp [BitVec.setWidth_ofNat_of_le narrow]

theorem setWidth_ofInt (narrow : width ≤ 64) (n : Int) :
    (BitVec.ofInt 64 n).setWidth width = BitVec.ofInt width n := by
  have divides : (2 ^ width : Int) ∣ 2 ^ 64 := pow_dvd_pow 2 narrow
  have cut := Int.emod_emod_of_dvd n divides
  apply BitVec.eq_of_toNat_eq
  rw [BitVec.toNat_setWidth, BitVec.toNat_ofInt, BitVec.toNat_ofInt]
  zify
  rw [Int.toNat_of_nonneg (Int.emod_nonneg n (by positivity)),
    Int.toNat_of_nonneg (Int.emod_nonneg n (by positivity))]
  exact_mod_cast cut

theorem readLebI_number (narrow : width ≤ 64) {octets rest : List UInt8}
    (number : IsNumber octets) (short : octets.length ≤ octetsOf maxNumBits) :
    readLebI maxNumBits width (octets ++ rest) =
      .ok (BitVec.ofInt width (signed octets), rest) := by
  have some := List.length_pos_of_ne_nil number.ne_nil
  unfold octetsOf at short
  have read : lebSigned maxNumBits 0 0#64 (octets ++ rest) = _ :=
    lebSigned_number number (by omega)
  simp only [readLebI, readLebSigned, read, bind, Except.bind]
  congr 2
  rw [BitVec.shiftLeft_zero, BitVec.zero_or, setWidth_ofInt narrow]

end Readers

/-- An index or a count, in at most five octets. -/
theorem readLEB_u32_number {octets rest : List UInt8} (number : IsNumber octets)
    (short : octets.length ≤ 5) :
    readLEB_u32 (octets ++ rest) = .ok (BitVec.ofNat 32 (unsigned octets), rest) :=
  readLebU_number (by decide) number short

end VelumOS.Source.M3
