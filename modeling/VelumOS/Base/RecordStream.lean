import VelumOS.Base.Octets

/-!
# Fixed-size records over a byte stream

A receiver that keeps one block and stores each read over its front takes the
whole block for a record after every read. `Taken` relates the pieces read to the
records taken, for any content the block held before each read. The records taken
are the records sent exactly when every read returned a whole record.
-/
namespace VelumOS.Base.RecordStream
open Octets

variable {α : Type} {n : Nat}

/-- One record is taken per piece: the piece over the front of some old block. -/
inductive Taken : List (List α) → List (Block α n) → Prop
  | nil : Taken [] []
  | snoc {pieces : List (List α)} {records : List (Block α n)} (piece : List α)
      (old : Block α n) (fits : piece.length ≤ n) (earlier : Taken pieces records) :
      Taken (pieces ++ [piece]) (records ++ [old.overlay piece fits])

/-- The stream that sending the records one after the other produces. -/
def stream (records : List (Block α n)) : List α := records.flatMap Block.cells

theorem stream_length (records : List (Block α n)) :
    (stream records).length = records.length * n := by
  induction records with
  | nil => simp [stream]
  | cons record rest ih =>
    have split : stream (record :: rest) = record.cells ++ stream rest := by simp [stream]
    rw [split, List.length_append, record.size, ih, List.length_cons, Nat.succ_mul, Nat.add_comm]

theorem Taken.length {pieces : List (List α)} {records : List (Block α n)}
    (taken : Taken pieces records) : records.length = pieces.length := by
  induction taken with
  | nil => rfl
  | snoc piece old fits earlier ih => simp [ih]

/-- Whole-record reads take the records that lie in the stream, in order. -/
theorem Taken.stream_eq {pieces : List (List α)} {records : List (Block α n)}
    (taken : Taken pieces records) (whole : ∀ piece ∈ pieces, piece.length = n) :
    stream records = pieces.flatten := by
  induction taken with
  | nil => rfl
  | snoc piece old fits earlier ih =>
    have full : piece.length = n := whole piece (by simp)
    have front := ih (fun other member => whole other (List.mem_append_left _ member))
    have last : (old.overlay piece fits).cells = piece := old.overlay_full piece full
    simp [stream] at front ⊢
    rw [front, last]

/-- Records are determined by the stream they make. -/
theorem stream_injective {first second : List (Block α n)} (length : first.length = second.length)
    (same : stream first = stream second) : first = second := by
  induction first generalizing second with
  | nil => exact (List.eq_nil_of_length_eq_zero length.symm).symm
  | cons record rest ih =>
    cases second with
    | nil => simp at length
    | cons other tail =>
      have split : record.cells ++ stream rest = other.cells ++ stream tail := by
        simpa [stream] using same
      obtain ⟨head, tails⟩ := List.append_inj split (record.size.trans other.size.symm)
      rw [Block.ext_cells head, ih (by simpa using length) tails]

theorem flatten_length_le (pieces : List (List α)) (fits : ∀ piece ∈ pieces, piece.length ≤ n) :
    pieces.flatten.length ≤ pieces.length * n := by
  induction pieces with
  | nil => simp
  | cons piece rest ih =>
    have front := fits piece (by simp)
    have tail := ih (fun other member => fits other (List.mem_cons_of_mem _ member))
    rw [List.flatten_cons, List.length_append, List.length_cons, Nat.succ_mul]
    omega

/-- Pieces of at most `n` cells that hold `k` records in `k` reads are all full. -/
theorem all_full_of_length (pieces : List (List α)) (fits : ∀ piece ∈ pieces, piece.length ≤ n)
    (total : pieces.flatten.length = pieces.length * n) :
    ∀ piece ∈ pieces, piece.length = n := by
  induction pieces with
  | nil => simp
  | cons piece rest ih =>
    have front := fits piece (by simp)
    have rest_fits : ∀ other ∈ rest, other.length ≤ n :=
      fun other member => fits other (List.mem_cons_of_mem _ member)
    have bound := flatten_length_le rest rest_fits
    rw [List.flatten_cons, List.length_append, List.length_cons, Nat.succ_mul] at total
    have tail := ih rest_fits (by omega)
    intro other member
    rcases List.mem_cons.mp member with rfl | inside
    · omega
    · exact tail other inside

/-- The receiver takes exactly the records sent if and only if every read
returned one whole record. -/
theorem taken_eq_iff {pieces : List (List α)} {records sent : List (Block α n)}
    (positive : 0 < n) (taken : Taken pieces records)
    (fits : ∀ piece ∈ pieces, piece.length ≤ n) (delivered : pieces.flatten = stream sent) :
    records = sent ↔ ∀ piece ∈ pieces, piece.length = n := by
  constructor
  · intro same
    apply all_full_of_length pieces fits
    rw [delivered, stream_length, ← same, taken.length]
  · intro whole
    have same : stream records = stream sent := (taken.stream_eq whole).trans delivered
    have lengths := congrArg List.length same
    rw [stream_length, stream_length] at lengths
    exact stream_injective (Nat.eq_of_mul_eq_mul_right positive lengths) same

end VelumOS.Base.RecordStream
