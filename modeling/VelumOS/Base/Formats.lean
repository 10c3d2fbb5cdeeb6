import Mathlib

/-!
# Formats and readers

A format relates values to the octets that stand for them. A reader takes a value off the
front of its input; it reads a format where it succeeds exactly on the octets of a value,
whatever follows them. Readers of formats compose: one after another, and in loops.
-/
namespace VelumOS.Base.Formats

abbrev Format (α : Type) := α → List UInt8 → Prop

variable {ε α β : Type}

/-- The reader accepts exactly the inputs that start with octets of the format. -/
def Reads (read : List UInt8 → Except ε (α × List UInt8)) (format : Format α) : Prop :=
  ∀ bytes value rest, read bytes = .ok (value, rest) ↔
    ∃ octets, format value octets ∧ bytes = octets ++ rest

section Reads
variable {read : List UInt8 → Except ε (α × List UInt8)} {format : Format α}

theorem Reads.complete (reads : Reads read format) {value : α} {octets : List UInt8}
    (encodes : format value octets) (rest : List UInt8) :
    read (octets ++ rest) = .ok (value, rest) :=
  (reads _ value rest).mpr ⟨octets, encodes, rfl⟩

theorem Reads.sound (reads : Reads read format) {bytes rest : List UInt8} {value : α}
    (done : read bytes = .ok (value, rest)) :
    ∃ octets, format value octets ∧ bytes = octets ++ rest :=
  (reads bytes value rest).mp done

theorem Reads.suffix (reads : Reads read format) {bytes rest : List UInt8} {value : α}
    (done : read bytes = .ok (value, rest)) : rest <:+ bytes := by
  obtain ⟨octets, -, split⟩ := reads.sound done
  exact ⟨octets, split.symm⟩

end Reads

/-! ## Values one after another -/

inductive Each (format : Format α) : Format (List α)
  | nil : Each format [] []
  | cons {value : α} {values : List α} {octets rest : List UInt8}
    (first : format value octets) (others : Each format values rest) :
    Each format (value :: values) (octets ++ rest)

/-- The loop that reads one value after another. -/
def readEach (read : List UInt8 → Except ε (α × List UInt8)) :
    Nat → List UInt8 → Except ε (List α × List UInt8)
  | 0, bytes => .ok ([], bytes)
  | count + 1, bytes => do
    let (value, bytes) ← read bytes
    let (values, bytes) ← readEach read count bytes
    .ok (value :: values, bytes)

/-- What a computation that succeeded did first. -/
theorem ok_bind {first : Except ε α} {next : α → Except ε β} {b : β} :
    (first >>= next) = .ok b ↔ ∃ a, first = .ok a ∧ next a = .ok b := by
  cases first with
  | error fault =>
    constructor
    · intro done
      cases done
    · rintro ⟨a, done, -⟩
      cases done
  | ok a =>
    refine ⟨fun done => ⟨a, rfl, done⟩, fun ⟨other, same, done⟩ => ?_⟩
    obtain rfl := Except.ok.inj same
    exact done

theorem Reads.each {read : List UInt8 → Except ε (α × List UInt8)} {format : Format α}
    (reads : Reads read format) (count : Nat) :
    Reads (readEach read count) fun values octets =>
      values.length = count ∧ Each format values octets := by
  induction count with
  | zero =>
    intro bytes values rest
    constructor
    · intro done
      obtain ⟨rfl, rfl⟩ := Prod.mk.inj (Except.ok.inj done)
      exact ⟨[], ⟨rfl, .nil⟩, rfl⟩
    · rintro ⟨octets, ⟨none, encodes⟩, rfl⟩
      cases encodes with
      | nil => rfl
      | cons => cases none
  | succ count ih =>
    intro bytes values rest
    constructor
    · intro done
      obtain ⟨⟨value, bytes₁⟩, first, done⟩ := ok_bind.mp done
      obtain ⟨⟨others, bytes₂⟩, next, done⟩ := ok_bind.mp done
      obtain ⟨rfl, rfl⟩ := Prod.mk.inj (Except.ok.inj done)
      obtain ⟨octets, encodes, rfl⟩ := reads.sound first
      obtain ⟨octets', ⟨length, encodes'⟩, rfl⟩ := ih.sound next
      exact ⟨octets ++ octets', ⟨congrArg (· + 1) length, .cons encodes encodes'⟩,
        (List.append_assoc _ _ _).symm⟩
    · rintro ⟨octets, ⟨length, encodes⟩, rfl⟩
      cases encodes with
      | nil => cases length
      | @cons value values first_ rest_ first others =>
        have read₁ := reads.complete first (rest_ ++ rest)
        have read₂ := ih.complete ⟨Nat.succ.inj length, others⟩ rest
        rw [List.append_assoc, readEach, read₁]
        show (readEach read count (rest_ ++ rest) >>= _) = _
        rw [read₂]
        rfl

/-! ## Formats that can be told apart -/

/-- Where a value's octets end, and which value they stand for, follows from the input. -/
def Separates (format : Format α) : Prop :=
  ∀ value value' octets octets' rest rest', format value octets → format value' octets' →
    octets ++ rest = octets' ++ rest' → value = value' ∧ rest = rest'

/-- Octets of no value but one list of them. -/
theorem Each.unique {format : Format α} (separates : Separates format)
    (some : ∀ value, ¬ format value []) {values values' : List α} {octets : List UInt8}
    (each : Each format values octets) (each' : Each format values' octets) :
    values = values' := by
  induction each generalizing values' with
  | nil =>
    generalize none : ([] : List UInt8) = octets at each'
    cases each' with
    | nil => rfl
    | @cons value _ octets rest first others =>
      obtain ⟨rfl, rfl⟩ := List.append_eq_nil_iff.mp none.symm
      exact absurd first (some value)
  | @cons value values octets rest first others ih =>
    generalize whole : octets ++ rest = octets' at each'
    cases each' with
    | nil =>
      obtain ⟨rfl, rfl⟩ := List.append_eq_nil_iff.mp whole
      exact absurd first (some value)
    | cons first' others' =>
      obtain ⟨rfl, rfl⟩ := separates _ _ _ _ _ _ first first' whole
      rw [ih others']

end VelumOS.Base.Formats
