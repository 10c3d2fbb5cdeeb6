import Mathlib

/-!
# Fixed blocks of memory and little-endian words

A packed C object is a block of a fixed number of octets. A block carries its
length as a field, so no copy can grow or shrink it: `overlay` stores a run of
octets at the front, `write` is a bounds-checked copy to an offset and `slice`
reads a sub-object. Words are stored least significant octet first.
-/
namespace VelumOS.Base.Octets

/-- A run of exactly `n` cells, as a packed array or object holds it. -/
structure Block (α : Type) (n : Nat) where
  cells : List α
  size : cells.length = n
  deriving DecidableEq

namespace Block
variable {α : Type} {n : Nat}

theorem ext_cells {a b : Block α n} (h : a.cells = b.cells) : a = b := by
  cases a
  cases b
  simpa using h

/-- `n` copies of one cell. -/
def fill (n : Nat) (value : α) : Block α n :=
  ⟨List.replicate n value, List.length_replicate⟩

/-- The sub-object of `len` cells at offset `off`. -/
def slice (b : Block α n) (off len : Nat) (inside : off + len ≤ n) : Block α len :=
  ⟨(b.cells.drop off).take len, by
    rw [List.length_take, List.length_drop, b.size]
    omega⟩

/-- Store `piece` over the front of the block; the rest keeps its old cells. -/
def overlay (b : Block α n) (piece : List α) (fits : piece.length ≤ n) : Block α n :=
  ⟨piece ++ b.cells.drop piece.length, by
    rw [List.length_append, List.length_drop, b.size]
    omega⟩

/-- Bounds-checked copy of `source` to offset `off`. -/
def write (b : Block α n) (off : Nat) (source : List α) : Option (Block α n) :=
  if h : off + source.length ≤ n then
    some ⟨b.cells.take off ++ (source ++ b.cells.drop (off + source.length)), by
      simp only [List.length_append, List.length_take, List.length_drop, b.size]
      omega⟩
  else none

/-- A store that covers the whole block forgets the old cells. -/
theorem overlay_full (b : Block α n) (piece : List α) (full : piece.length = n) :
    (b.overlay piece (Nat.le_of_eq full)).cells = piece := by
  have gone : b.cells.drop piece.length = [] :=
    List.drop_eq_nil_of_le (Nat.le_of_eq (b.size.trans full.symm))
  simp [overlay, gone]

theorem write_isSome_iff (b : Block α n) (off : Nat) (source : List α) :
    (b.write off source).isSome ↔ off + source.length ≤ n := by
  unfold write
  split <;> simp_all

/-- A copy that fits succeeds, and its cells are the three expected runs. -/
theorem write_fits (b : Block α n) (off : Nat) (source : List α)
    (fits : off + source.length ≤ n) :
    ∃ after, b.write off source = some after ∧
      after.cells = b.cells.take off ++ (source ++ b.cells.drop (off + source.length)) := by
  unfold write
  rw [dif_pos fits]
  exact ⟨_, rfl, rfl⟩

/-- Copying `first` to `off` and `second` right behind it is one copy of both. -/
theorem write_write (b mid : Block α n) (off : Nat) (first second : List α)
    (stored : b.write off first = some mid) :
    mid.write (off + first.length) second = b.write off (first ++ second) := by
  have bound : off + first.length ≤ n :=
    (write_isSome_iff b off first).mp (by simp [stored])
  obtain ⟨mid', eq, cells⟩ := write_fits b off first bound
  rw [stored] at eq
  cases Option.some.inj eq
  have offLength : (b.cells.take off).length = off := by
    rw [List.length_take, b.size]
    omega
  unfold write
  by_cases fits : off + first.length + second.length ≤ n
  · have fits' : off + (first ++ second).length ≤ n := by
      rw [List.length_append]
      omega
    rw [dif_pos fits, dif_pos fits']
    congr 1
    apply ext_cells
    have front : mid.cells.take (off + first.length) = b.cells.take off ++ first := by
      rw [cells, ← List.append_assoc, List.take_left']
      rw [List.length_append, offLength]
    have back : mid.cells.drop (off + first.length + second.length) =
        b.cells.drop (off + (first ++ second).length) := by
      rw [cells, ← List.append_assoc, ← List.drop_drop, List.drop_left', List.drop_drop,
        List.length_append, Nat.add_assoc]
      rw [List.length_append, offLength]
    simp only [front, back, List.append_assoc]
  · have fits' : ¬ off + (first ++ second).length ≤ n := by
      rw [List.length_append]
      omega
    rw [dif_neg fits, dif_neg fits']

/-- Reading back the front of a block of known cells. -/
theorem slice_cells (b : Block α n) (off len : Nat) (inside : off + len ≤ n) :
    (b.slice off len inside).cells = (b.cells.drop off).take len := rfl

/-- A sub-object is found again behind a front of the right length. -/
theorem slice_of_append (b : Block α n) (off len : Nat) (inside : off + len ≤ n)
    (front part back : List α) (whole : b.cells = front ++ (part ++ back))
    (frontLength : front.length = off) (partLength : part.length = len) :
    (b.slice off len inside).cells = part := by
  rw [slice_cells, whole, List.drop_left' frontLength, List.take_left' partLength]

end Block

/-- The `width` little-endian octets of `n`. -/
def encodeLE : Nat → Nat → List UInt8
  | 0, _ => []
  | width + 1, n => UInt8.ofNat n :: encodeLE width (n / 256)

/-- The number stored in little-endian octets. -/
def decodeLE : List UInt8 → Nat
  | [] => 0
  | octet :: rest => octet.toNat + 256 * decodeLE rest

@[simp] theorem encodeLE_length (width n : Nat) : (encodeLE width n).length = width := by
  induction width generalizing n with
  | zero => rfl
  | succ width ih => simp [encodeLE, ih]

theorem decodeLE_encodeLE (width n : Nat) :
    decodeLE (encodeLE width n) = n % 256 ^ width := by
  induction width generalizing n with
  | zero => simp [encodeLE, decodeLE, Nat.mod_one]
  | succ width ih =>
    rw [encodeLE, decodeLE, ih, Nat.pow_succ, Nat.mul_comm (256 ^ width) 256, Nat.mod_mul]
    simp

theorem decodeLE_encodeLE_of_lt (width n : Nat) (bound : n < 256 ^ width) :
    decodeLE (encodeLE width n) = n := by
  rw [decodeLE_encodeLE, Nat.mod_eq_of_lt bound]

theorem decodeLE_lt (octets : List UInt8) : decodeLE octets < 256 ^ octets.length := by
  induction octets with
  | nil => exact Nat.one_pos
  | cons octet rest ih =>
    have bound := octet.toNat_lt
    rw [decodeLE, List.length_cons, Nat.pow_succ]
    omega

/-- Every octet string is the encoding of the number it stores. -/
theorem encodeLE_decodeLE (octets : List UInt8) :
    encodeLE octets.length (decodeLE octets) = octets := by
  induction octets with
  | nil => rfl
  | cons octet rest ih =>
    have bound := octet.toNat_lt
    have quotient : (octet.toNat + 256 * decodeLE rest) / 256 = decodeLE rest := by omega
    have low : UInt8.ofNat (octet.toNat + 256 * decodeLE rest) = octet := by
      apply UInt8.toNat_inj.mp
      rw [UInt8.toNat_ofNat']
      omega
    rw [List.length_cons, decodeLE, encodeLE, quotient, ih, low]

end VelumOS.Base.Octets
