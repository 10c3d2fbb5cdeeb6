import VelumOS.Source.Protocol
import VelumOS.Base.CString

/-!
# Library calls and what can go wrong in them

The C and C++ library calls the sources make on raw memory. A call that would
touch memory outside its object, or that never returns, stops the thread; such a
stop is a `Fault` and nothing after it happens. Descriptors are values of the
socket tables: `0` is a free slot, `-1` a failed call, and the sources index
`socket_to_id[1024]` and an `fd_set` with the others.
-/
namespace VelumOS.Source
open Base.Octets Base.CString

/-- The object a read leaves. -/
inductive Region where
  | binary | funcName | arguments | fileBuffer
  deriving DecidableEq

inductive Fault where
  | outOfBounds (region : Region)
  | bufferOverrun
  | indexOutOfRange
  | divisionByZero
  | hang
  deriving DecidableEq

/-- A value of `peer_sockets`, `inbound_sockets` or `accept`. -/
abbrev Sock := { fd : Int // -1 ≤ fd ∧ fd < 1024 }

def Sock.free : Sock := ⟨0, by decide⟩

def Sock.failed : Sock := ⟨-1, by decide⟩

/-- `rand()` values still to be drawn. -/
abbrev Rand := Nat → Nat

/-- The stream after `n` draws. -/
def Rand.drop (rand : Rand) (n : Nat) : Rand := fun i => rand (n + i)

/-- `table[index]` as a value. An `int` index may lie outside the table. -/
def readEntry {α : Type} {n : Nat} (table : Fin n → α) (index : Int) : Except Fault α :=
  if inside : 0 ≤ index ∧ index < n then .ok (table ⟨index.toNat, by omega⟩)
  else .error .indexOutOfRange

/-- `table[index]` as the target of a store. -/
def writeEntry {α : Type} {n : Nat} (table : Fin n → α) (index : Int) (entry : α) :
    Except Fault (Fin n → α) :=
  if inside : 0 ≤ index ∧ index < n then
    .ok (Function.update table ⟨index.toNat, by omega⟩ entry)
  else .error .indexOutOfRange

/-- `memcpy` into a fixed object at an offset. -/
def memcpy {n : Nat} (object : Block UInt8 n) (off : Nat) (source : List UInt8) :
    Except Fault (Block UInt8 n) :=
  match object.write off source with
  | some after => .ok after
  | none => .error .bufferOverrun

/-- `size_t` argument made from a `long`. -/
def sizeT (n : Int) : Nat := (n % 2 ^ 64).toNat

/-- `fread(buffer, 1, fsize, f)` into `uint8_t buffer[2048]`. -/
def fread (buffer : Block UInt8 2048) (fsize : Int) (contents : List UInt8) :
    Except Fault (Block UInt8 2048) :=
  let got := contents.take (sizeT fsize)
  if fits : got.length ≤ 2048 then .ok (buffer.overlay got fits) else .error .bufferOverrun

/-- The source operand of `memcpy(ptr, buffer, fsize)`. -/
def readBuffer (buffer : Block UInt8 2048) (fsize : Int) : Except Fault (List UInt8) :=
  if sizeT fsize ≤ 2048 then .ok (buffer.cells.take (sizeT fsize))
  else .error (.outOfBounds .fileBuffer)

/-- `strncpy(field, text, 31)`: the text up to its NUL, padded with NULs to 31
octets; the last octet of the field keeps what was there. -/
def strncpy31 (field : Block UInt8 32) (text : List UInt8) : Block UInt8 32 :=
  let copied := (text.takeWhile (· ≠ 0)).take 31
  field.overlay (copied ++ List.replicate (31 - copied.length) 0) (by
    have bound : copied.length ≤ 31 := List.length_take_le 31 _
    rw [List.length_append, List.length_replicate]
    omega)

/-- `atoi`: the low 32 bits of `strtol`. -/
def atoi (text : List UInt8) : Int32 := Int32.ofInt (strtol text)

/-- `sprintf(s, "%d", n)` without its NUL. -/
def sprintfInt (n : Int32) : List UInt8 := decimal n.toInt

/-- The string at a pointer into `memory`, read as far as its NUL. -/
def readCString (region : Region) (memory : List UInt8) : Except Fault (List UInt8) :=
  match scan memory with
  | some text => .ok text
  | none => .error (.outOfBounds region)

/-- An open descriptor is not the mark of a free slot. -/
theorem ne_free_of_live {fd : Sock} (live : 0 < fd.val) : fd ≠ .free := by
  intro same
  rw [same] at live
  exact absurd live (by decide)

/-- A step that returned hands its value on. -/
theorem bind_of_ok {α β : Type} {step : Except Fault α} {value : α} (returned : step = .ok value)
    (next : α → Except Fault β) : (step >>= next) = next value := by
  rw [returned]
  rfl

/-- A sequence that returned did so through its first step. -/
theorem bind_success {α β : Type} {step : Except Fault α} {next : α → Except Fault β} {value : β}
    (success : (step >>= next) = .ok value) : ∃ x, step = .ok x ∧ next x = .ok value := by
  cases step with
  | error fault => cases success
  | ok x => exact ⟨x, rfl, success⟩

section Entries
variable {α : Type} {n : Nat} (table : Fin n → α)

@[simp] theorem readEntry_val (i : Fin n) : readEntry table i.val = .ok (table i) := by
  have bound := i.isLt
  rw [readEntry, dif_pos ⟨by omega, by omega⟩]
  rfl

@[simp] theorem writeEntry_val (i : Fin n) (entry : α) :
    writeEntry table i.val entry = .ok (Function.update table i entry) := by
  have bound := i.isLt
  rw [writeEntry, dif_pos ⟨by omega, by omega⟩]
  rfl

/-- A read faults exactly outside the table. -/
theorem readEntry_fault_iff (index : Int) :
    readEntry table index = .error .indexOutOfRange ↔ ¬ (0 ≤ index ∧ index < n) := by
  unfold readEntry
  split
  · next inside => exact iff_of_false nofun (not_not_intro inside)
  · next outside => exact iff_of_true rfl outside

end Entries

theorem sizeT_natCast (n : Nat) (bound : n < 2 ^ 64) : sizeT n = n := by
  unfold sizeT
  omega

/-- A `memcpy` that fits. -/
theorem memcpy_ok {n : Nat} (object : Block UInt8 n) (off : Nat) (source : List UInt8)
    (fits : off + source.length ≤ n) :
    ∃ after, memcpy object off source = .ok after ∧
      after.cells = object.cells.take off ++
        (source ++ object.cells.drop (off + source.length)) := by
  obtain ⟨after, stored, cells⟩ := object.write_fits off source fits
  exact ⟨after, by simp [memcpy, stored], cells⟩

/-- Copies placed one behind the other are one copy. -/
theorem memcpy_memcpy {n : Nat} (object mid : Block UInt8 n) (off : Nat)
    (first second : List UInt8) (stored : memcpy object off first = .ok mid) :
    memcpy mid (off + first.length) second = memcpy object off (first ++ second) := by
  unfold memcpy at stored
  split at stored
  · next after written =>
    cases stored
    simp only [memcpy, Block.write_write object mid off first second written]
  · cases stored

/-- A name of at most 30 octets without NUL is terminated inside the field,
whatever the field held before. -/
theorem scan_strncpy31 (field : Block UInt8 32) (text : List UInt8) (clean : 0 ∉ text)
    (short : text.length ≤ 30) : scan (strncpy31 field text).cells = some text := by
  have whole : text.takeWhile (· ≠ 0) = text := by
    rw [List.takeWhile_eq_self_iff]
    intro octet member
    simpa using ne_of_mem_of_not_mem member clean
  have padding : List.replicate (31 - text.length) (0 : UInt8) =
      0 :: List.replicate (30 - text.length) 0 := by
    rw [show 31 - text.length = (30 - text.length) + 1 from by omega, List.replicate_succ]
  simp only [strncpy31, Block.overlay, whole, List.take_of_length_le (by omega : text.length ≤ 31),
    padding]
  rw [List.append_assoc, List.cons_append]
  exact scan_terminated text _ clean

/-- Printing an `int` and parsing it back gives the `int`. -/
@[simp] theorem atoi_sprintfInt (n : Int32) : atoi (sprintfInt n) = n := by
  have low := n.le_toInt
  have high := n.toInt_lt
  rw [atoi, sprintfInt, strtol_decimal _ (by omega) (by omega), Int32.ofInt_toInt]

theorem sprintfInt_clean (n : Int32) : 0 ∉ sprintfInt n := decimal_clean _

/-- `char s[16]` is large enough for every `int`. -/
theorem sprintfInt_length_le (n : Int32) : (sprintfInt n).length ≤ 11 := by
  have low := n.le_toInt
  have high := n.toInt_lt
  exact decimal_length_le _ 10 (by decide) (by omega)

end VelumOS.Source
