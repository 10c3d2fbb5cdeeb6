import VelumOS.Source.M3.Parse
import VelumOS.Base.WasmModule

/-!
# What the readers accept

Each reader of the parser reads a format: it succeeds exactly on the octets of a value.
-/
namespace VelumOS.Spec.Readers
open Base.Leb128 Base.Formats Base.Wasm Base.WasmModule Source.M3

/-! ## Numbers -/

/-- A reader takes exactly the numbers of `octetsOf maxNumBits` octets that its input
starts with; it tells an endless number from an input that ends too soon. -/
def ReadsNumbers {width : Nat} (reader : Reader (BitVec width)) (maxNumBits : Nat)
    (valueOf : List UInt8 → BitVec width) : Prop :=
  ∀ bytes,
    (∀ value rest, reader bytes = .ok (value, rest) ↔
      ∃ octets, bytes = octets ++ rest ∧ IsNumber octets ∧
        octets.length ≤ octetsOf maxNumBits ∧ value = valueOf octets) ∧
    (reader bytes = .error .lebOverflow ↔ octetsOf maxNumBits ≤ bytes.length ∧
      ∀ octet ∈ bytes.take (octetsOf maxNumBits), continues octet = true) ∧
    (reader bytes = .error .wasmUnderrun ↔ bytes.length < octetsOf maxNumBits ∧
      ∀ octet ∈ bytes, continues octet = true)

section Readers
variable {maxNumBits width : Nat}

/-- Three facts that hold of inputs apart from each other decide a reader. -/
theorem readsNumbers_of {reader : Reader (BitVec width)} {valueOf : List UInt8 → BitVec width}
    (some : 0 < maxNumBits)
    (reads : ∀ octets rest, IsNumber octets → octets.length ≤ octetsOf maxNumBits →
      reader (octets ++ rest) = .ok (valueOf octets, rest))
    (overflow : ∀ bytes, octetsOf maxNumBits ≤ bytes.length →
      (∀ octet ∈ bytes.take (octetsOf maxNumBits), continues octet = true) →
      reader bytes = .error .lebOverflow)
    (underrun : ∀ bytes, bytes.length < octetsOf maxNumBits →
      (∀ octet ∈ bytes, continues octet = true) → reader bytes = .error .wasmUnderrun) :
    ReadsNumbers reader maxNumBits valueOf := by
  intro bytes
  have positive : 0 < octetsOf maxNumBits := by
    unfold octetsOf
    omega
  rcases number_or_endless bytes _ positive with ⟨octets, rest, rfl, number, short⟩ |
    ⟨long, all⟩ | ⟨ends, all⟩
  · have read := reads octets rest number short
    refine ⟨fun value left => ⟨fun found => ?_, ?_⟩, ⟨fun found => ?_, fun ⟨long, all⟩ => ?_⟩,
      ⟨fun found => ?_, fun ⟨ends, all⟩ => ?_⟩⟩
    · rw [read] at found
      obtain ⟨rfl, rfl⟩ := Prod.mk.injEq _ _ _ _ ▸ Except.ok.inj found
      exact ⟨octets, rfl, number, short, rfl⟩
    · rintro ⟨other, same, otherNumber, otherShort, rfl⟩
      rw [same]
      exact reads other left otherNumber otherShort
    · rw [read] at found
      cases found
    · exact overflow _ long all
    · rw [read] at found
      cases found
    · exact underrun _ ends all
  · have refused := overflow bytes long all
    refine ⟨fun value left => ⟨fun found => ?_, ?_⟩, ⟨fun _ => ⟨long, all⟩, fun _ => refused⟩,
      ⟨fun found => ?_, fun ⟨ends, _⟩ => absurd ends (Nat.not_lt.mpr long)⟩⟩
    · rw [refused] at found
      cases found
    · rintro ⟨other, rfl, number, short, rfl⟩
      exact reads other left number short
    · rw [refused] at found
      cases found
  · have refused := underrun bytes ends all
    refine ⟨fun value left => ⟨fun found => ?_, ?_⟩,
      ⟨fun found => ?_, fun ⟨long, _⟩ => absurd ends (Nat.not_lt.mpr long)⟩,
      ⟨fun _ => ⟨ends, all⟩, fun _ => refused⟩⟩
    · rw [refused] at found
      cases found
    · rintro ⟨other, rfl, number, short, rfl⟩
      exact reads other left number short
    · rw [refused] at found
      cases found

theorem readLebU_exact (some : 0 < maxNumBits) (narrow : width ≤ 64) :
    ReadsNumbers (readLebU maxNumBits width) maxNumBits
      (fun octets => BitVec.ofNat width (unsigned octets)) := by
  refine readsNumbers_of some (fun _ _ number short => readLebU_number narrow number short)
    (fun bytes long all => ?_) (fun bytes ends all => ?_)
  · have split := List.take_append_drop (octetsOf maxNumBits) bytes
    have taken := List.length_take_of_le long
    have refused : lebUnsigned maxNumBits 0 0#64
        (bytes.take (octetsOf maxNumBits) ++ bytes.drop (octetsOf maxNumBits)) = _ :=
      lebUnsigned_overflow all
      ⟨List.ne_nil_of_length_pos (by unfold octetsOf at *; omega), by unfold octetsOf at *; omega⟩
    rw [split] at refused
    simp only [readLebU, readLebUnsigned, refused, bind, Except.bind]
  · have refused : lebUnsigned maxNumBits 0 0#64 bytes = _ := lebUnsigned_endless all
      (by unfold octetsOf at ends; omega)
    simp only [readLebU, readLebUnsigned, refused, bind, Except.bind]

theorem readLebI_exact (some : 0 < maxNumBits) (narrow : width ≤ 64) :
    ReadsNumbers (readLebI maxNumBits width) maxNumBits
      (fun octets => BitVec.ofInt width (signed octets)) := by
  refine readsNumbers_of some (fun _ _ number short => readLebI_number narrow number short)
    (fun bytes long all => ?_) (fun bytes ends all => ?_)
  · have split := List.take_append_drop (octetsOf maxNumBits) bytes
    have taken := List.length_take_of_le long
    have refused : lebSigned maxNumBits 0 0#64
        (bytes.take (octetsOf maxNumBits) ++ bytes.drop (octetsOf maxNumBits)) = _ :=
      lebSigned_overflow all
      ⟨List.ne_nil_of_length_pos (by unfold octetsOf at *; omega), by unfold octetsOf at *; omega⟩
    rw [split] at refused
    simp only [readLebI, readLebSigned, refused, bind, Except.bind]
  · have refused : lebSigned maxNumBits 0 0#64 bytes = _ := lebSigned_endless all
      (by unfold octetsOf at ends; omega)
    simp only [readLebI, readLebSigned, refused, bind, Except.bind]

end Readers

/-- `ReadLEB_u32`: a count, an index or a length. -/
theorem readLEB_u32_reads : Reads readLEB_u32 fun value octets =>
    NumberIn 5 octets ∧ value = BitVec.ofNat 32 (unsigned octets) := by
  intro bytes value rest
  have exact_ : ReadsNumbers readLEB_u32 32 _ := readLebU_exact (by decide) (by decide)
  rw [(exact_ bytes).1 value rest]
  constructor
  · rintro ⟨octets, split, number, short, same⟩
    exact ⟨octets, ⟨⟨number, short⟩, same⟩, split⟩
  · rintro ⟨octets, ⟨⟨number, short⟩, same⟩, split⟩
    exact ⟨octets, split, number, short, same⟩

/-- What is read as a number stands for it. -/
theorem u32_of_read {bytes rest : List UInt8} {value : BitVec 32}
    (done : readLEB_u32 bytes = .ok (value, rest)) :
    ∃ octets, u32 value.toNat octets ∧ bytes = octets ++ rest := by
  obtain ⟨octets, ⟨number, rfl⟩, split⟩ := readLEB_u32_reads.sound done
  exact ⟨octets, ⟨number, rfl⟩, split⟩

/-- Octets that stand for a number are read as it. -/
theorem read_u32 {n : Nat} {octets : List UInt8} (encodes : u32 n octets) (rest : List UInt8) :
    ∃ value : BitVec 32, readLEB_u32 (octets ++ rest) = .ok (value, rest) ∧ value.toNat = n :=
  ⟨_, readLEB_u32_reads.complete ⟨encodes.1, rfl⟩ rest, encodes.2⟩

/-- A number of seven bits is one octet. -/
theorem one_octet {octets : List UInt8} (number : IsNumber octets) (short : octets.length ≤ 1) :
    ∃ octet : UInt8, octets = [octet] ∧ octet.toNat < 128 := by
  match octets, number, short with
  | [octet], number, _ => exact ⟨octet, rfl, Nat.not_le.mp (of_decide_eq_false number)⟩

theorem readLEB_u7_reads : Reads readLEB_u7 fun value octets =>
    ∃ octet : UInt8, octets = [octet] ∧ octet.toNat < 128 ∧ value = octet.toBitVec := by
  intro bytes value rest
  have exact_ : ReadsNumbers readLEB_u7 7 _ := readLebU_exact (by decide) (by decide)
  have plain : ∀ octet : UInt8, octet.toNat < 128 →
      BitVec.ofNat 8 (unsigned [octet]) = octet.toBitVec := by
    intro octet small
    have value : unsigned [octet] = octet.toNat := Nat.mod_eq_of_lt small
    rw [value]
    exact BitVec.ofNat_toNat 8 octet.toBitVec
  rw [(exact_ bytes).1 value rest]
  constructor
  · rintro ⟨octets, split, number, short, same⟩
    obtain ⟨octet, rfl, small⟩ := one_octet number short
    exact ⟨[octet], ⟨octet, rfl, small, same.trans (plain octet small)⟩, split⟩
  · rintro ⟨_, ⟨octet, rfl, small, same⟩, split⟩
    exact ⟨[octet], split, decide_eq_false (Nat.not_le.mpr small), Nat.le_refl _,
      same.trans (plain octet small).symm⟩

theorem readLEB_i7_reads : Reads readLEB_i7 fun value octets =>
    ∃ octet : UInt8, octets = [octet] ∧ octet.toNat < 128 ∧
      value = BitVec.ofInt 8 (signed [octet]) := by
  intro bytes value rest
  have exact_ : ReadsNumbers readLEB_i7 7 _ := readLebI_exact (by decide) (by decide)
  rw [(exact_ bytes).1 value rest]
  constructor
  · rintro ⟨octets, split, number, short, same⟩
    obtain ⟨octet, rfl, small⟩ := one_octet number short
    exact ⟨[octet], ⟨octet, rfl, small, same⟩, split⟩
  · rintro ⟨_, ⟨octet, rfl, small, same⟩, split⟩
    exact ⟨[octet], split, decide_eq_false (Nat.not_le.mpr small), Nat.le_refl _, same⟩

/-! ## Octets, names and types -/

theorem readU8_reads : Reads readU8 fun value octets => octets = [value] := by
  intro bytes value rest
  constructor
  · intro done
    cases bytes with
    | nil => cases done
    | cons octet bytes =>
      obtain ⟨rfl, rfl⟩ := Prod.mk.inj (Except.ok.inj done)
      exact ⟨[octet], rfl, rfl⟩
  · rintro ⟨_, rfl, rfl⟩
    rfl

theorem readUtf8_reads : Reads readUtf8 fun utf8 octets =>
    name utf8 octets ∧ utf8.length ≤ 10000 := by
  intro bytes utf8 rest
  constructor
  · intro done
    obtain ⟨⟨length, ptr⟩, first, step⟩ := ok_of_bind done
    obtain ⟨size, sized, rfl⟩ := u32_of_read first
    dsimp only at step
    split at step
    · next sane =>
      split at step
      · next inside =>
        obtain ⟨rfl, rfl⟩ := Prod.mk.inj (Except.ok.inj step)
        have taken : (ptr.take length.toNat).length = length.toNat :=
          List.length_take_of_le inside
        refine ⟨size ++ ptr.take length.toNat, ⟨⟨size, ?_, rfl⟩, ?_⟩, ?_⟩
        · rw [taken]
          exact sized
        · rw [taken]
          exact sane
        · rw [List.append_assoc, List.take_append_drop]
      · cases step
    · cases step
  · rintro ⟨_, ⟨⟨size, sized, rfl⟩, sane⟩, rfl⟩
    obtain ⟨value, first, length⟩ := read_u32 sized (utf8 ++ rest)
    rw [List.append_assoc]
    refine ok_bind.mpr ⟨_, first, ?_⟩
    dsimp only
    rw [length, if_pos sane, if_pos (by simp), List.take_left, List.drop_left]

/-- One round of `readTypes`. -/
def readType : Reader UInt8 := fun bytes => do
  let (wasmType, bytes) ← readLEB_i7 bytes
  let type ← normalizeType wasmType
  .ok (type, bytes)

/-- The octet of a type. -/
def typeOctet : Format UInt8 := fun type octets =>
  ∃ octet : UInt8, octets = [octet] ∧ octet.toNat < 128 ∧
    normalizeType (BitVec.ofInt 8 (signed [octet])) = .ok type

theorem readType_reads : Reads readType typeOctet := by
  intro bytes type rest
  constructor
  · intro done
    obtain ⟨⟨wasmType, bytes₁⟩, first, step₁⟩ := ok_of_bind done
    obtain ⟨_, ⟨octet, rfl, small, rfl⟩, rfl⟩ := readLEB_i7_reads.sound first
    obtain ⟨type₁, normal, step₂⟩ := ok_of_bind step₁
    obtain ⟨rfl, rfl⟩ := Prod.mk.inj (Except.ok.inj step₂)
    exact ⟨[octet], ⟨octet, rfl, small, normal⟩, rfl⟩
  · rintro ⟨_, ⟨octet, rfl, small, normal⟩, rfl⟩
    have first := readLEB_i7_reads.complete ⟨octet, rfl, small, rfl⟩ rest
    exact ok_bind.mpr ⟨_, first, ok_bind.mpr ⟨_, normal, rfl⟩⟩

theorem readTypes_eq (count : Nat) : readTypes count = readEach readType count := by
  induction count with
  | zero => rfl
  | succ count ih =>
    funext bytes
    rw [readTypes, readEach, readType, ih]
    cases readLEB_i7 bytes with
    | error fault => rfl
    | ok first =>
      obtain ⟨wasmType, rest⟩ := first
      simp only [bind, Except.bind]
      cases normalizeType wasmType with
      | error fault => rfl
      | ok type => rfl

theorem readTypes_reads (count : Nat) : Reads (readTypes count) fun types octets =>
    types.length = count ∧ Each typeOctet types octets := by
  rw [readTypes_eq]
  exact readType_reads.each count

/-- The code of a type that is accepted. -/
theorem normalizeType_le {wasmType : BitVec 8} {type : UInt8}
    (normal : normalizeType wasmType = .ok type) : type ≤ 4 := by
  unfold normalizeType at normal
  dsimp only at normal
  split at normal
  · obtain rfl := Except.ok.inj normal
    decide
  · split at normal
    · cases normal
    · next inRange =>
      obtain rfl := Except.ok.inj normal
      exact UInt8.not_lt.mp fun above => inRange (.inr above)

theorem types_le {types octets : List UInt8} (each : Each typeOctet types octets) :
    ∀ type ∈ types, type ≤ 4 := by
  induction each with
  | nil =>
    intro type inside
    cases inside
  | cons first others ih =>
    intro type inside
    rcases List.mem_cons.mp inside with rfl | inside
    · obtain ⟨octet, -, -, normal⟩ := first
      exact normalizeType_le normal
    · exact ih type inside

end VelumOS.Spec.Readers
