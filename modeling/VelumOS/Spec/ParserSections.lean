import VelumOS.Spec.WasmReaders

/-!
# The loop over the sections

The loop of `m3_ParseModule` accepts the octets of sections that stand in order, and
builds the module by their parsers in turn.
-/
namespace VelumOS.Spec.Parser
open Base.Octets Base.Leb128 Base.Formats Base.Wasm Base.WasmModule Source.M3 Spec.Readers

/-! ## The order -/

theorem sectionsOrder_drop {expected : Nat} (within : expected ≤ 12) :
    sectionsOrder.drop expected = sectionNumbers.drop expected ++ [0] := by
  have split : sectionsOrder = sectionNumbers ++ [0] := rfl
  rw [split, List.drop_append_of_le_length within]

/-- The search stops at the first section with the number, and does not reach the end. -/
theorem expectSection_iff {sectionType found : Nat} (plain : sectionType ≠ 0)
    {order : List Nat} {expected : Nat} (size : expected + order.length = 12) :
    expectSection sectionType (order ++ [0]) expected = .ok found ↔
      ∃ skipped rest, order = skipped ++ sectionType :: rest ∧ sectionType ∉ skipped ∧
        found = expected + skipped.length + 1 := by
  induction order generalizing expected with
  | nil =>
    rw [List.nil_append, expectSection, if_neg plain.symm, if_pos (by
      rw [List.length_nil] at size
      omega)]
    constructor
    · intro done
      cases done
    · rintro ⟨skipped, rest, split, -⟩
      simp at split
  | cons next order ih =>
    rw [List.length_cons] at size
    rw [List.cons_append, expectSection]
    by_cases here : next = sectionType
    · subst here
      rw [if_pos rfl]
      constructor
      · intro done
        exact ⟨[], order, rfl, List.not_mem_nil, (Except.ok.inj done).symm⟩
      · rintro ⟨skipped, rest, split, first, rfl⟩
        cases skipped with
        | nil => rfl
        | cons other skipped =>
          obtain ⟨rfl, -⟩ := List.cons.inj split
          exact absurd List.mem_cons_self first
    · rw [if_neg here]
      have shift : (∃ skipped rest, next :: order = skipped ++ sectionType :: rest ∧
          sectionType ∉ skipped ∧ found = expected + skipped.length + 1) ↔
          ∃ skipped rest, order = skipped ++ sectionType :: rest ∧ sectionType ∉ skipped ∧
            found = expected + 1 + skipped.length + 1 := by
        constructor
        · rintro ⟨skipped, rest, split, first, rfl⟩
          cases skipped with
          | nil => exact absurd (List.cons.inj split).1 here
          | cons other skipped =>
            refine ⟨skipped, rest, (List.cons.inj split).2,
              fun inside => first (List.mem_cons_of_mem _ inside), ?_⟩
            rw [List.length_cons]
            omega
        · rintro ⟨skipped, rest, rfl, first, rfl⟩
          refine ⟨next :: skipped, rest, rfl, ?_, ?_⟩
          · rintro (_ | ⟨_, inside⟩)
            · exact here rfl
            · exact first inside
          · rw [List.length_cons]
            omega
      rw [shift]
      split
      · next last =>
        have none : order = [] := List.eq_nil_of_length_eq_zero (by omega)
        subst none
        constructor
        · intro done
          cases done
        · rintro ⟨skipped, rest, split, -⟩
          simp at split
      · exact ih (by omega)

/-- In a list without repetitions, what follows an element follows its first place. -/
theorem split_of_sublist {sectionType : Nat} {numbers order : List Nat}
    (inside : (sectionType :: numbers).Sublist order) :
    ∃ skipped rest, order = skipped ++ sectionType :: rest ∧ sectionType ∉ skipped ∧
      numbers.Sublist rest := by
  induction order with
  | nil => cases inside
  | cons next order ih =>
    by_cases here : next = sectionType
    · subst here
      exact ⟨[], order, rfl, List.not_mem_nil, inside.of_cons_cons⟩
    · cases inside with
      | cons _ inside =>
        obtain ⟨skipped, rest, rfl, first, behind⟩ := ih inside
        refine ⟨next :: skipped, rest, rfl, ?_, behind⟩
        rintro (_ | ⟨_, inside⟩)
        · exact here rfl
        · exact first inside
      | cons_cons _ _ => exact absurd rfl here

/-- Where a section may stand, and what may follow it. -/
def Follows (number : Nat) (order behind : List Nat) : Prop :=
  (number = 0 ∧ behind = order) ∨
    (number ≠ 0 ∧ ∃ skipped, order = skipped ++ number :: behind ∧ number ∉ skipped)

/-- Sections that may follow each other stand in order. -/
theorem sublist_iff_follows {number : Nat} {numbers order : List Nat} :
    ((number :: numbers).filter (· ≠ 0)).Sublist order ↔
      ∃ behind, Follows number order behind ∧ (numbers.filter (· ≠ 0)).Sublist behind := by
  by_cases custom : number = 0
  · rw [List.filter_cons_of_neg (by simpa using custom)]
    constructor
    · intro inside
      exact ⟨order, .inl ⟨custom, rfl⟩, inside⟩
    · rintro ⟨behind, ⟨-, rfl⟩ | ⟨plain, -⟩, inside⟩
      · exact inside
      · exact absurd custom plain
  · rw [List.filter_cons_of_pos (by simpa using custom)]
    constructor
    · intro inside
      obtain ⟨skipped, behind, split, first, rest⟩ := split_of_sublist inside
      exact ⟨behind, .inr ⟨custom, skipped, split, first⟩, rest⟩
    · rintro ⟨behind, ⟨zero, -⟩ | ⟨-, skipped, rfl, -⟩, inside⟩
      · exact absurd zero custom
      · exact (inside.cons_cons number).trans (List.sublist_append_right _ _)

theorem drop_length (n : Nat) : (sectionNumbers.drop n).length = 12 - n := List.length_drop

theorem placeSection_iff {sectionType : BitVec 8} {expected found : Nat}
    (within : expected ≤ 12) :
    placeSection sectionType expected = .ok found ↔ found ≤ 12 ∧ Follows sectionType.toNat
      (sectionNumbers.drop expected) (sectionNumbers.drop found) := by
  unfold placeSection
  split
  · next custom =>
    subst custom
    constructor
    · intro done
      obtain rfl := Except.ok.inj done
      exact ⟨within, .inl ⟨rfl, rfl⟩⟩
    · rintro ⟨within', ⟨-, same⟩ | ⟨plain, -⟩⟩
      · have lengths := congrArg List.length same
        rw [drop_length, drop_length] at lengths
        exact congrArg Except.ok (by omega)
      · exact absurd rfl plain
  · next plain =>
    have plain' : sectionType.toNat ≠ 0 := fun zero => plain (BitVec.eq_of_toNat_eq zero)
    have size : expected + (sectionNumbers.drop expected).length = 12 := by
      rw [drop_length]
      omega
    rw [sectionsOrder_drop within, expectSection_iff plain' size]
    constructor
    · rintro ⟨skipped, rest, split, first, rfl⟩
      have lengths := congrArg List.length split
      rw [drop_length, List.length_append, List.length_cons] at lengths
      have behind : sectionNumbers.drop (expected + skipped.length + 1) = rest := by
        rw [Nat.add_assoc, ← List.drop_drop, split, ← List.drop_drop, List.drop_left]
        rfl
      exact ⟨by omega, .inr ⟨plain', skipped, by rw [behind]; exact split, first⟩⟩
    · rintro ⟨within', ⟨zero, -⟩ | ⟨-, skipped, split, first⟩⟩
      · exact absurd zero plain'
      · have lengths := congrArg List.length split
        rw [drop_length, List.length_append, List.length_cons, drop_length] at lengths
        exact ⟨skipped, _, split, first, by omega⟩

/-- What may follow a section is the end of the order. -/
theorem behind_drop {number expected : Nat} {behind : List Nat} (within : expected ≤ 12)
    (follows : Follows number (sectionNumbers.drop expected) behind) :
    ∃ found, found ≤ 12 ∧ sectionNumbers.drop found = behind := by
  rcases follows with ⟨-, rfl⟩ | ⟨-, skipped, split, -⟩
  · exact ⟨expected, within, rfl⟩
  · have lengths := congrArg List.length split
    rw [drop_length, List.length_append, List.length_cons] at lengths
    refine ⟨expected + (skipped.length + 1), by omega, ?_⟩
    rw [← List.drop_drop, split, ← List.drop_drop, List.drop_left]
    rfl

/-! ## The loop -/

/-- The sections, each parsed into what the ones before it left. -/
def parseEach (initExpr : InitExpr) (sections : List Section) (m : M3Module) :
    Except M3Err M3Module :=
  sections.foldlM (fun m s => parseModuleSection initExpr s.id m s.payload) m

/-- A round takes the octets of one section and parses it in its place. -/
theorem parseSection_iff {initExpr : InitExpr} {m m' : M3Module} {expected expected' : Nat}
    {pos rest : List UInt8} (within : expected ≤ 12) :
    parseSection initExpr m expected pos = .ok (m', expected', rest) ↔
      ∃ s octets, sectionOctets s octets ∧ pos = octets ++ rest ∧ expected' ≤ 12 ∧
        Follows s.id (sectionNumbers.drop expected) (sectionNumbers.drop expected') ∧
        parseModuleSection initExpr s.id m s.payload = .ok m' := by
  constructor
  · intro done
    obtain ⟨⟨sectionType, pos₁⟩, first, step₁⟩ := ok_of_bind done
    obtain ⟨_, ⟨id, rfl, small, rfl⟩, rfl⟩ := readLEB_u7_reads.sound first
    obtain ⟨found, place, step₂⟩ := ok_of_bind step₁
    obtain ⟨within', follows⟩ := (placeSection_iff within).mp place
    obtain ⟨⟨sectionLength, pos₂⟩, second, step₃⟩ := ok_of_bind step₂
    obtain ⟨size, sized, rfl⟩ := u32_of_read second
    dsimp only at step₃
    split at step₃
    · cases step₃
    · next long =>
      obtain ⟨m₁, parsed, step₄⟩ := ok_of_bind step₃
      obtain ⟨rfl, rest⟩ := Prod.mk.inj (Except.ok.inj step₄)
      obtain ⟨rfl, rfl⟩ := Prod.mk.inj rest
      have length : (pos₂.take sectionLength.toNat).length = sectionLength.toNat :=
        List.length_take_of_le (Nat.not_lt.mp long)
      refine ⟨⟨id.toNat, pos₂.take sectionLength.toNat⟩, _,
        ⟨id, size, small, rfl, by rw [length]; exact sized, rfl⟩, ?_, within', follows, parsed⟩
      show id :: (size ++ pos₂) =
        id :: ((size ++ pos₂.take sectionLength.toNat) ++ pos₂.drop sectionLength.toNat)
      rw [List.append_assoc, List.take_append_drop]
  · rintro ⟨⟨number, payload⟩, _, ⟨id, size, small, same, sized, rfl⟩, rfl, within', follows,
      parsed⟩
    dsimp only at same sized follows parsed
    subst same
    obtain ⟨value, second, length⟩ := read_u32 sized (payload ++ rest)
    have first := readLEB_u7_reads.complete ⟨id, rfl, small, rfl⟩ (size ++ (payload ++ rest))
    have split : id :: (size ++ payload) ++ rest = [id] ++ (size ++ (payload ++ rest)) := by
      rw [List.cons_append, List.append_assoc]
      rfl
    have place : placeSection id.toBitVec expected = .ok expected' :=
      (placeSection_iff within).mpr ⟨within', follows⟩
    have fits : ¬ (payload ++ rest).length < value.toNat := by
      rw [length, List.length_append]
      omega
    rw [split, parseSection, first]
    refine ok_bind.mpr ⟨_, rfl, ok_bind.mpr ⟨_, place, ok_bind.mpr ⟨_, second, ?_⟩⟩⟩
    dsimp only
    rw [if_neg fits, length, List.take_left, List.drop_left]
    exact ok_bind.mpr ⟨_, parsed, rfl⟩

theorem sections_nil {sections : List Section} (each : Each sectionOctets sections []) :
    sections = [] := by
  generalize none : ([] : List UInt8) = octets at each
  cases each with
  | nil => rfl
  | cons first others =>
    obtain ⟨id, size, -, -, -, rfl⟩ := first
    cases none

theorem section_some {s : Section} {octets : List UInt8} (first : sectionOctets s octets) :
    0 < octets.length := by
  obtain ⟨id, size, -, -, -, rfl⟩ := first
  exact Nat.succ_pos _

/-- The loop accepts the octets of sections in order. -/
theorem parseSections_iff (initExpr : InitExpr) {fuel expected : Nat} {m m' : M3Module}
    {pos : List UInt8} (within : expected ≤ 12) (enough : pos.length ≤ fuel) :
    parseSections initExpr fuel m expected pos = .ok m' ↔
      ∃ sections, Each sectionOctets sections pos ∧
        ((sections.map Section.id).filter (· ≠ 0)).Sublist (sectionNumbers.drop expected) ∧
        parseEach initExpr sections m = .ok m' := by
  induction fuel generalizing expected m pos with
  | zero =>
    obtain rfl := List.eq_nil_of_length_eq_zero (Nat.le_zero.mp enough)
    constructor
    · intro done
      exact ⟨[], .nil, List.nil_sublist _, done⟩
    · rintro ⟨sections, each, -, done⟩
      obtain rfl := sections_nil each
      exact done
  | succ fuel ih =>
    rw [parseSections]
    split
    · next none =>
      subst none
      constructor
      · intro done
        exact ⟨[], .nil, List.nil_sublist _, done⟩
      · rintro ⟨sections, each, -, done⟩
        obtain rfl := sections_nil each
        exact done
    · next some =>
      constructor
      · intro done
        obtain ⟨⟨m₁, found, rest⟩, round, next⟩ := ok_of_bind done
        obtain ⟨s, octets, first, rfl, within', follows, parsed⟩ :=
          (parseSection_iff within).mp round
        have positive := section_some first
        rw [List.length_append] at enough
        obtain ⟨sections, each, inOrder, built⟩ := (ih within' (by omega)).mp next
        refine ⟨s :: sections, .cons first each, ?_, ?_⟩
        · exact sublist_iff_follows.mpr ⟨_, follows, inOrder⟩
        · rw [parseEach, List.foldlM_cons]
          exact ok_bind.mpr ⟨m₁, parsed, built⟩
      · rintro ⟨sections, each, inOrder, built⟩
        cases each with
        | nil => exact absurd rfl some
        | @cons s sections octets rest first others =>
          rw [parseEach, List.foldlM_cons] at built
          obtain ⟨m₁, parsed, built⟩ := ok_of_bind built
          obtain ⟨behind, follows, inOrder⟩ := sublist_iff_follows.mp inOrder
          obtain ⟨found, within', rfl⟩ := behind_drop within follows
          have positive := section_some first
          rw [List.length_append] at enough
          have round : parseSection initExpr m expected (octets ++ rest) = .ok (m₁, found, rest) :=
            (parseSection_iff within).mpr ⟨s, octets, first, rfl, within', follows, parsed⟩
          rw [round]
          exact (ih within' (by omega)).mpr ⟨sections, others, inOrder, built⟩

/-! ## The header -/

theorem readU32_reads : Reads readU32 fun value octets =>
    octets = encodeLE 4 value.toNat := by
  intro bytes value rest
  unfold readU32
  constructor
  · intro done
    split at done
    · next long =>
      obtain ⟨rfl, rfl⟩ := Prod.mk.inj (Except.ok.inj done)
      have size : (bytes.take 4).length = 4 := List.length_take_of_le long
      refine ⟨bytes.take 4, ?_, (List.take_append_drop 4 bytes).symm⟩
      have whole := encodeLE_decodeLE (bytes.take 4)
      rw [size] at whole
      have small : decodeLE (bytes.take 4) < 2 ^ 32 := by
        have bound := decodeLE_lt (bytes.take 4)
        rwa [size] at bound
      show bytes.take 4 = encodeLE 4 (UInt32.ofNat (decodeLE (bytes.take 4))).toNat
      rw [UInt32.toNat_ofNat_of_lt' small]
      exact whole.symm
    · cases done
  · rintro ⟨octets, rfl, rfl⟩
    have size : (encodeLE 4 value.toNat).length = 4 := encodeLE_length 4 value.toNat
    have back := decodeLE_encodeLE_of_lt 4 value.toNat value.toNat_lt
    rw [if_pos (by rw [List.length_append, size]; omega), List.take_left' size,
      List.drop_left' size, back, UInt32.ofNat_toNat]

/-- The parser accepts a header and the octets of sections in order. -/
theorem m3ParseModule_iff {initExpr : InitExpr} {environment : List M3FuncType}
    {binary : List UInt8} {m : M3Module} :
    m3ParseModule initExpr environment binary = .ok m ↔
      ∃ sections, moduleOctets sections binary ∧ InOrder sections ∧
        parseEach initExpr sections { environment := environment } = .ok m := by
  have magicOctets : encodeLE 4 (0x6d736100 : UInt32).toNat = [0x00, 0x61, 0x73, 0x6d] := by
    decide
  have versionOctets : encodeLE 4 (1 : UInt32).toNat = [0x01, 0x00, 0x00, 0x00] := by
    decide
  constructor
  · intro done
    obtain ⟨⟨magic, pos₁⟩, first, step₁⟩ := ok_of_bind done
    obtain ⟨⟨version, pos₂⟩, second, step₂⟩ := ok_of_bind step₁
    obtain ⟨_, rfl, rfl⟩ := readU32_reads.sound first
    obtain ⟨_, rfl, rfl⟩ := readU32_reads.sound second
    dsimp only at step₂
    split at step₂
    · cases step₂
    · next isMagic =>
      split at step₂
      · cases step₂
      · next isVersion =>
        obtain rfl := not_not.mp isMagic
        obtain rfl := not_not.mp isVersion
        obtain ⟨sections, each, inOrder, built⟩ :=
          (parseSections_iff initExpr (Nat.zero_le 12) (Nat.le_refl _)).mp step₂
        refine ⟨sections, ⟨pos₂, each, ?_⟩, inOrder, built⟩
        rw [magicOctets, versionOctets]
        rfl
  · rintro ⟨sections, ⟨octets, each, rfl⟩, inOrder, built⟩
    have second : readU32 (encodeLE 4 (1 : UInt32).toNat ++ octets) = .ok (1, octets) :=
      readU32_reads.complete rfl octets
    have first : readU32 (encodeLE 4 (0x6d736100 : UInt32).toNat ++
        (encodeLE 4 (1 : UInt32).toNat ++ octets)) =
        .ok (0x6d736100, encodeLE 4 (1 : UInt32).toNat ++ octets) :=
      readU32_reads.complete rfl _
    have split : header ++ octets = encodeLE 4 (0x6d736100 : UInt32).toNat ++
        (encodeLE 4 (1 : UInt32).toNat ++ octets) := by
      rw [magicOctets, versionOctets]
      rfl
    rw [split]
    refine ok_bind.mpr ⟨_, first, ok_bind.mpr ⟨_, second, ?_⟩⟩
    dsimp only
    rw [if_neg (by decide), if_neg (by decide)]
    exact (parseSections_iff initExpr (Nat.zero_le 12) (Nat.le_refl _)).mpr
      ⟨sections, each, inOrder, built⟩

end VelumOS.Spec.Parser
