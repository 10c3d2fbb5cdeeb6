import Mathlib

/-!
# NUL-terminated strings and decimal numerals

A C string is read out of the memory that follows its pointer: `scan` returns
the octets in front of the first NUL, or nothing when the memory ends first,
which is where `strlen` would run out of its object. `scanMany` walks a run of
such strings. `strtol` follows the C library (white space, one sign, digits,
saturation at 64 bits); `decimal` is what `printf("%d")` writes.
-/
namespace VelumOS.Base.CString

/-- The string at the start of `memory`, if its NUL is inside. -/
def scan : List UInt8 → Option (List UInt8)
  | [] => none
  | octet :: rest => if octet = 0 then some [] else (scan rest).map (octet :: ·)

/-- `count` consecutive strings, each behind the NUL of the one before it. -/
def scanMany : Nat → List UInt8 → Option (List (List UInt8))
  | 0, _ => some []
  | count + 1, memory =>
    match scan memory with
    | none => none
    | some text => (scanMany count (memory.drop (text.length + 1))).map (text :: ·)

/-- Strings as they lie in memory, each followed by its NUL. -/
def pack (texts : List (List UInt8)) : List UInt8 :=
  texts.flatMap fun text => text ++ [0]

/-- A terminated string is found again, whatever memory follows its NUL. -/
theorem scan_terminated (text memory : List UInt8) (clean : 0 ∉ text) :
    scan (text ++ 0 :: memory) = some text := by
  induction text with
  | nil => simp [scan]
  | cons octet rest ih =>
    have nonzero : octet ≠ 0 := fun zero => clean (by simp [zero])
    have tail := ih (fun member => clean (List.mem_cons_of_mem _ member))
    simp [scan, nonzero, tail]

/-- What is found is in front of a NUL and holds none itself. -/
theorem scan_some (memory text : List UInt8) (found : scan memory = some text) :
    0 ∉ text ∧ memory = text ++ 0 :: memory.drop (text.length + 1) := by
  induction memory generalizing text with
  | nil => cases found
  | cons octet rest ih =>
    rw [scan] at found
    by_cases zero : octet = 0
    · rw [if_pos zero] at found
      cases found
      simp [zero]
    · rw [if_neg zero] at found
      cases deeper : scan rest with
      | none => simp [deeper] at found
      | some tail =>
        simp only [deeper, Option.map_some, Option.some.injEq] at found
        subst found
        obtain ⟨clean, split⟩ := ih tail deeper
        refine ⟨by simp [clean, Ne.symm zero], ?_⟩
        simpa using split

/-- A scan fails exactly where the memory holds no NUL. -/
theorem scan_isSome_iff (memory : List UInt8) : (scan memory).isSome ↔ 0 ∈ memory := by
  induction memory with
  | nil => simp [scan]
  | cons octet rest ih =>
    rw [scan]
    by_cases zero : octet = 0
    · simp [zero]
    · simp [zero, Ne.symm zero, ih]

/-- One scan consumes exactly one NUL of the memory. -/
theorem count_zero_of_scan (memory text : List UInt8) (found : scan memory = some text) :
    memory.count 0 = (memory.drop (text.length + 1)).count 0 + 1 := by
  obtain ⟨clean, split⟩ := scan_some memory text found
  rw [split, List.count_append, List.count_eq_zero_of_not_mem clean]
  simp

/-- Walking `count` strings stays inside the memory exactly when it holds at
least `count` NULs. -/
theorem scanMany_isSome_iff (count : Nat) (memory : List UInt8) :
    (scanMany count memory).isSome ↔ count ≤ memory.count 0 := by
  induction count generalizing memory with
  | zero => simp [scanMany]
  | succ count ih =>
    rw [scanMany]
    cases found : scan memory with
    | none =>
      have absent : 0 ∉ memory := by
        rw [← scan_isSome_iff, found]
        simp
      simp [List.count_eq_zero_of_not_mem absent]
    | some text =>
      simp [ih, count_zero_of_scan memory text found]

/-- Packed strings are walked back to the same list. -/
theorem scanMany_pack (texts : List (List UInt8)) (memory : List UInt8)
    (clean : ∀ text ∈ texts, 0 ∉ text) :
    scanMany texts.length (pack texts ++ memory) = some texts := by
  induction texts with
  | nil => rfl
  | cons text rest ih =>
    have layout : pack (text :: rest) ++ memory = text ++ 0 :: (pack rest ++ memory) := by
      simp [pack]
    have tail := ih (fun other member => clean other (List.mem_cons_of_mem _ member))
    have skipped : (text ++ 0 :: (pack rest ++ memory)).drop (text.length + 1) =
        pack rest ++ memory := by
      rw [← List.drop_drop, List.drop_left]
      rfl
    rw [List.length_cons, scanMany, layout, scan_terminated text _ (clean text (by simp))]
    simp only [skipped, tail, Option.map_some]

theorem pack_length (texts : List (List UInt8)) :
    (pack texts).length = (texts.map List.length).sum + texts.length := by
  induction texts with
  | nil => rfl
  | cons text rest ih =>
    have split : pack (text :: rest) = text ++ [0] ++ pack rest := by simp [pack]
    rw [split]
    simp only [List.length_append, List.length_cons, List.length_nil, List.map_cons,
      List.sum_cons, ih]
    omega

/-- A run of octets that pass a test ends where the first one behind it fails. -/
theorem span_run (test : UInt8 → Bool) (run rest : List UInt8)
    (pass : ∀ octet ∈ run, test octet = true) (ends : ∀ octet ∈ rest.head?, test octet = false) :
    (run ++ rest).takeWhile test = run ∧ (run ++ rest).dropWhile test = rest := by
  rw [List.takeWhile_append_of_pos pass, List.dropWhile_append_of_pos pass]
  cases rest with
  | nil => simp
  | cons octet rest =>
    have fail : ¬ test octet = true := by simp [ends octet rfl]
    rw [List.takeWhile_cons_of_neg fail, List.dropWhile_cons_of_neg fail, List.append_nil]
    exact ⟨rfl, rfl⟩

/-! ## Decimal numerals -/

def isSpace (octet : UInt8) : Bool := octet = 32 || (9 ≤ octet && octet ≤ 13)

def isDigit (octet : UInt8) : Bool := 48 ≤ octet && octet ≤ 57

/-- Value of a run of digits, most significant first. -/
def digitsValue (digits : List UInt8) : Nat :=
  digits.foldl (fun value octet => 10 * value + (octet.toNat - 48)) 0

/-- `strtol(text, NULL, 10)` for a 64-bit `long`. -/
def strtol (text : List UInt8) : Int :=
  match text.dropWhile isSpace with
  | 45 :: rest => max (-2 ^ 63) (-(digitsValue (rest.takeWhile isDigit) : Int))
  | 43 :: rest => min (2 ^ 63 - 1) (digitsValue (rest.takeWhile isDigit) : Int)
  | rest => min (2 ^ 63 - 1) (digitsValue (rest.takeWhile isDigit) : Int)

/-- Decimal digits of a natural number. -/
def digitsOf (n : Nat) : List UInt8 :=
  (Nat.toDigits 10 n).map fun c => UInt8.ofNat c.toNat

/-- What `printf("%d")` writes. -/
def decimal (n : Int) : List UInt8 :=
  if n < 0 then 45 :: digitsOf n.natAbs else digitsOf n.natAbs

theorem digitsOf_isDigit (n : Nat) : ∀ octet ∈ digitsOf n, isDigit octet = true := by
  intro octet member
  obtain ⟨c, inside, rfl⟩ := List.mem_map.mp member
  have digit := Nat.isDigit_of_mem_toDigits (by decide) (by decide) inside
  simp only [Char.isDigit, Bool.and_eq_true, decide_eq_true_eq] at digit
  have low : 48 ≤ c.toNat := digit.1
  have high : c.toNat ≤ 57 := digit.2
  simp only [isDigit, Bool.and_eq_true, decide_eq_true_eq, UInt8.le_iff_toNat_le]
  simp
  omega

theorem digitsOf_ne_nil (n : Nat) : digitsOf n ≠ [] := by
  simp [digitsOf, Nat.toDigits_ne_nil]

/-- Parsing the digits of a number gives the number. -/
theorem digitsValue_digitsOf (n : Nat) : digitsValue (digitsOf n) = n := by
  have same : ∀ (cs : List Char), (∀ c ∈ cs, c.isDigit = true) → ∀ start,
      (cs.map fun c => UInt8.ofNat c.toNat).foldl
        (fun value octet => 10 * value + (octet.toNat - 48)) start =
      Nat.ofDigitChars 10 cs start := by
    intro cs
    induction cs with
    | nil => simp
    | cons c rest ih =>
      intro digits start
      have digit := digits c (by simp)
      simp only [Char.isDigit, Bool.and_eq_true, decide_eq_true_eq] at digit
      have high : c.toNat ≤ 57 := digit.2
      have octet : (UInt8.ofNat c.toNat).toNat = c.toNat := by
        rw [UInt8.toNat_ofNat']
        omega
      rw [List.map_cons, List.foldl_cons, octet, Nat.ofDigitChars_cons,
        ih (fun other member => digits other (List.mem_cons_of_mem _ member))]
      rfl
  have digits := fun c inside => Nat.isDigit_of_mem_toDigits (b := 10) (n := n) (c := c)
    (by decide) (by decide) inside
  rw [digitsValue, digitsOf, same _ digits, Nat.ofDigitChars_ten_toDigits]

/-- A digit is neither white space nor a sign. -/
theorem digit_plain (octet : UInt8) (digit : isDigit octet = true) :
    isSpace octet = false ∧ octet ≠ 45 ∧ octet ≠ 43 := by
  simp only [isDigit, Bool.and_eq_true, decide_eq_true_eq, UInt8.le_iff_toNat_le] at digit
  have low : 48 ≤ octet.toNat := digit.1
  refine ⟨?_, ?_, ?_⟩
  · simp only [isSpace, Bool.or_eq_false_iff, Bool.and_eq_false_iff, decide_eq_false_iff_not,
      UInt8.le_iff_toNat_le, ← UInt8.toNat_inj]
    simp
    omega
  · intro minus
    rw [minus] at low
    simp at low
  · intro plus
    rw [plus] at low
    simp at low

/-- So `strtol` starts on it. -/
theorem strtol_digits (digits : List UInt8) (nonempty : digits ≠ [])
    (all : ∀ octet ∈ digits, isDigit octet = true) :
    strtol digits = min (2 ^ 63 - 1) (digitsValue digits : Int) := by
  cases digits with
  | nil => exact absurd rfl nonempty
  | cons octet rest =>
    obtain ⟨space, notMinus, notPlus⟩ := digit_plain octet (all octet (by simp))
    have run : (octet :: rest).takeWhile isDigit = octet :: rest :=
      List.takeWhile_eq_self_iff.mpr all
    unfold strtol
    rw [List.dropWhile_cons_of_neg (by simp [space])]
    split
    · next eq => exact absurd (List.cons.inj eq).1 notMinus
    · next eq => exact absurd (List.cons.inj eq).1 notPlus
    · rw [run]

/-- Printing a number that fits 64 bits and parsing it back gives the number. -/
theorem strtol_decimal (n : Int) (low : -2 ^ 63 ≤ n) (high : n < 2 ^ 63) :
    strtol (decimal n) = n := by
  unfold decimal
  split
  · next negative =>
    have skip : (45 :: digitsOf n.natAbs : List UInt8).dropWhile isSpace =
        45 :: digitsOf n.natAbs := by
      rw [List.dropWhile_cons_of_neg (by decide)]
    have run : (digitsOf n.natAbs).takeWhile isDigit = digitsOf n.natAbs :=
      List.takeWhile_eq_self_iff.mpr (digitsOf_isDigit _)
    simp only [strtol, skip, run, digitsValue_digitsOf]
    omega
  · next nonnegative =>
    rw [strtol_digits _ (digitsOf_ne_nil _) (digitsOf_isDigit _), digitsValue_digitsOf]
    omega

/-- Numerals hold no NUL, so they survive being packed. -/
theorem decimal_clean (n : Int) : 0 ∉ decimal n := by
  have digits : 0 ∉ digitsOf n.natAbs := by
    intro member
    have digit := digitsOf_isDigit _ 0 member
    exact absurd digit (by decide)
  unfold decimal
  split <;> simp [digits]

/-- A numeral is a word. -/
theorem decimal_plain (n : Int) : decimal n ≠ [] ∧ ∀ octet ∈ decimal n, isSpace octet = false := by
  have digits : ∀ octet ∈ digitsOf n.natAbs, isSpace octet = false := fun octet member =>
    (digit_plain octet (digitsOf_isDigit _ octet member)).1
  unfold decimal
  split
  · refine ⟨List.cons_ne_nil _ _, fun octet member => ?_⟩
    rcases List.mem_cons.mp member with rfl | inside
    · rfl
    · exact digits octet inside
  · exact ⟨digitsOf_ne_nil _, digits⟩

/-- A number of `k` decimal digits takes at most `k + 1` octets, sign included. -/
theorem decimal_length_le (n : Int) (k : Nat) (positive : 0 < k) (bound : n.natAbs < 10 ^ k) :
    (decimal n).length ≤ k + 1 := by
  have digits : (digitsOf n.natAbs).length ≤ k := by
    rw [digitsOf, List.length_map]
    exact (Nat.length_toDigits_le_iff (by decide) positive).mpr bound
  unfold decimal
  split
  · simpa using digits
  · omega

end VelumOS.Base.CString
