import VelumOS.Spec.WasmReaders

/-!
# The numbers of a Wasm binary

A reader of `n` bits takes the first octet string that ends within `⌈n/7⌉` octets and
gives its value, cut to the width of the result. It refuses an input for one of two
reasons only, and what the shortest encoding of a number of the type wrote is read back.
-/
namespace VelumOS.Guarantees.WasmNumbers
open Base.Leb128 Source.M3 Spec.Readers

/-- What the shortest encoding wrote is read back, whatever follows it. -/
theorem readLEB_u32_encode (n : BitVec 32) (rest : List UInt8) :
    readLEB_u32 (encode n.toNat ++ rest) = .ok (n, rest) := by
  obtain ⟨number, value⟩ := encode_spec n.toNat
  have bound := n.isLt
  have short : (encode n.toNat).length ≤ octetsOf 32 :=
    encode_length_le n.toNat 5 (by decide) (by omega)
  rw [readLEB_u32, readLebU_number (by decide) number short, value, BitVec.ofNat_toNat,
    BitVec.setWidth_eq]

theorem readLEB_u7_encode (n : BitVec 7) (rest : List UInt8) :
    readLEB_u7 (encode n.toNat ++ rest) = .ok (n.setWidth 8, rest) := by
  obtain ⟨number, value⟩ := encode_spec n.toNat
  have bound := n.isLt
  have short : (encode n.toNat).length ≤ octetsOf 7 :=
    encode_length_le n.toNat 1 (by decide) (by omega)
  rw [readLEB_u7, readLebU_number (by decide) number short, value, BitVec.ofNat_toNat]

theorem readLEB_i7_encode (n : BitVec 7) (rest : List UInt8) :
    readLEB_i7 (encodeSigned n.toInt ++ rest) = .ok (n.signExtend 8, rest) := by
  obtain ⟨number, value⟩ := encodeSigned_spec n.toInt
  have low := n.le_toInt
  have high := n.toInt_lt
  have short : (encodeSigned n.toInt).length ≤ octetsOf 7 :=
    encodeSigned_length_le n.toInt 1 (by decide) (by omega)
  rw [readLEB_i7, readLebI_number (by decide) number short, value, BitVec.signExtend]

theorem readLEB_i32_encode (n : BitVec 32) (rest : List UInt8) :
    readLEB_i32 (encodeSigned n.toInt ++ rest) = .ok (n, rest) := by
  obtain ⟨number, value⟩ := encodeSigned_spec n.toInt
  have low := n.le_toInt
  have high := n.toInt_lt
  have short : (encodeSigned n.toInt).length ≤ octetsOf 32 :=
    encodeSigned_length_le n.toInt 5 (by decide) (by omega)
  rw [readLEB_i32, readLebI_number (by decide) number short, value, BitVec.ofInt_toInt]

theorem readLEB_i64_encode (n : BitVec 64) (rest : List UInt8) :
    readLEB_i64 (encodeSigned n.toInt ++ rest) = .ok (n, rest) := by
  obtain ⟨number, value⟩ := encodeSigned_spec n.toInt
  have low := n.le_toInt
  have high := n.toInt_lt
  have short : (encodeSigned n.toInt).length ≤ octetsOf 64 :=
    encodeSigned_length_le n.toInt 10 (by decide) (by omega)
  rw [readLEB_i64, readLebI_number (by decide) number short, value, BitVec.ofInt_toInt]

/-- Every reader of a number accepts exactly the numbers of its octets, with their value,
and reads back what the shortest encoding wrote. -/
theorem numbers_exact :
    ReadsNumbers readLEB_u32 32 (fun octets => BitVec.ofNat 32 (unsigned octets)) ∧
    ReadsNumbers readLEB_u7 7 (fun octets => BitVec.ofNat 8 (unsigned octets)) ∧
    ReadsNumbers readLEB_i7 7 (fun octets => BitVec.ofInt 8 (signed octets)) ∧
    ReadsNumbers readLEB_i32 32 (fun octets => BitVec.ofInt 32 (signed octets)) ∧
    ReadsNumbers readLEB_i64 64 (fun octets => BitVec.ofInt 64 (signed octets)) ∧
    (∀ n rest, readLEB_u32 (encode n.toNat ++ rest) = .ok (n, rest)) ∧
    (∀ (n : BitVec 7) rest, readLEB_u7 (encode n.toNat ++ rest) = .ok (n.setWidth 8, rest)) ∧
    (∀ (n : BitVec 7) rest,
      readLEB_i7 (encodeSigned n.toInt ++ rest) = .ok (n.signExtend 8, rest)) ∧
    (∀ n rest, readLEB_i32 (encodeSigned n.toInt ++ rest) = .ok (n, rest)) ∧
    (∀ n rest, readLEB_i64 (encodeSigned n.toInt ++ rest) = .ok (n, rest)) :=
  ⟨readLebU_exact (by decide) (by decide), readLebU_exact (by decide) (by decide),
    readLebI_exact (by decide) (by decide), readLebI_exact (by decide) (by decide),
    readLebI_exact (by decide) (by decide), readLEB_u32_encode, readLEB_u7_encode,
    readLEB_i7_encode, readLEB_i32_encode, readLEB_i64_encode⟩

end VelumOS.Guarantees.WasmNumbers
