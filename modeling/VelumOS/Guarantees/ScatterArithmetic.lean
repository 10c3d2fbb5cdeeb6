import VelumOS.Guarantees.ScatterCoverage
import VelumOS.Source.Main

/-!
# Scatter arithmetic

`velum_spawn_wasm_distributed` subtracts, divides and adds `int`s without a check, and
`main` passes on every pair of them. The arithmetic is exact for the ranges that are in
order and shorter than `2 ^ 31`, and for no others: a reversed range is recorded with
almost `2 ^ 32` units, and the difference of a wide one overflows.
-/
namespace VelumOS.Guarantees.ScatterArithmetic
open VelumOS.Source VelumOS.Spec ScatterCoverage

/-- The values of an `int`. -/
def Fits (x : Int) : Prop := -2 ^ 31 ≤ x ∧ x < 2 ^ 31

/-- Every call that records a job records it with the number of integers of its range. -/
def TotalExact (start stop : Int32) : Prop :=
  ∀ ctx file func s after actions jobId,
    velumSpawnWasmDistributed ctx file func start stop s = .ok (after, actions) →
    .recorded jobId ∈ actions → ∃ job, after.activeJobs jobId = some job ∧
      job.totalNeeded.toNat = (Finset.Ico start.toInt stop.toInt).card

/-- The arithmetic of a call with `n` workers: `end - start`, `chunk_size + remainder` and
the `current_start + my_chunk` of each round fit an `int`, and the total is right. -/
structure Exact (start stop : Int32) (n : Nat) : Prop where
  range : Fits (stop.toInt - start.toInt)
  chunk : Fits (((stop - start) / Int32.ofNat n).toInt + ((stop - start) % Int32.ofNat n).toInt)
  cursor : ∀ i currentStart myEnd,
    (subRanges ((stop - start) / Int32.ofNat n) ((stop - start) % Int32.ofNat n) n start)[i]? =
      some (currentStart, myEnd) →
    Fits (currentStart.toInt + ((stop - start) / Int32.ofNat n +
      if i + 1 = n then (stop - start) % Int32.ofNat n else 0).toInt)
  total : TotalExact start stop

/-- A recorded job has the range, as an unsigned word, as its total. -/
theorem recorded_total {ctx : SpawnContext} {file : Option File} {func : List UInt8}
    {start stop : Int32} {s after : Node} {actions : List Action} {jobId : UInt32}
    (success : velumSpawnWasmDistributed ctx file func start stop s = .ok (after, actions))
    (recorded : .recorded jobId ∈ actions) :
    after.activeJobs jobId = some ⟨(stop - start).toUInt32, 0, 0⟩ := by
  rcases velumSpawnWasmDistributed_cases ctx file func start stop s after actions success with
    ⟨_, rfl⟩ | ⟨tasks, drawn, _, rfl, _, _, rfl⟩
  · cases recorded
  · rcases List.mem_cons.mp recorded with same | sent
    · cases same
      rw [scatter_activeJobs, Function.update_self]
    · obtain ⟨task, _, same⟩ := List.mem_map.mp sent
      cases same

/-- The total is right for all ranges but the reversed ones. -/
theorem totalExact_iff (start stop : Int32) :
    TotalExact start stop ↔ start.toInt ≤ stop.toInt := by
  have startLow := start.le_toInt
  have startHigh := start.toInt_lt
  have stopLow := stop.le_toInt
  have stopHigh := stop.toInt_lt
  have word := toNat_toUInt32_sub start stop
  constructor
  · intro exact_
    obtain ⟨fd, msg, _, _, sent⟩ := distributed_single .zeroed [102] start stop connectedTwo 2 (by decide)
    obtain ⟨job, stored, total⟩ := exact_ _ _ _ _ _ _ _ sent List.mem_cons_self
    rw [recorded_total sent List.mem_cons_self] at stored
    cases stored
    rw [Int.card_Ico] at total
    have stored : (stop - start).toUInt32.toNat = (stop.toInt - start.toInt).toNat := total
    omega
  · intro ordered ctx file func s after actions jobId success recorded
    have stored : (stop - start).toUInt32.toNat = (stop.toInt - start.toInt).toNat := by omega
    exact ⟨_, recorded_total success recorded, stored.trans (Int.card_Ico _ _).symm⟩

/-- No cursor overflows on the way to the end of the range. -/
theorem cursor_fits (chunkSize remainder stop : Int32) (n : Nat) (currentStart : Int32)
    (chunk : 0 ≤ chunkSize.toInt) (left : 0 ≤ remainder.toInt)
    (both : chunkSize.toInt + remainder.toInt < 2 ^ 31)
    (ahead : Ahead chunkSize remainder stop n currentStart) (i : Nat) (cursor myEnd : Int32)
    (entry : (subRanges chunkSize remainder n currentStart)[i]? = some (cursor, myEnd)) :
    Fits (cursor.toInt + (chunkSize + if i + 1 = n then remainder else 0).toInt) := by
  induction n generalizing currentStart i with
  | zero => cases entry
  | succ n ih =>
    obtain ⟨sum, _, rest⟩ :=
      round_exact chunkSize remainder stop n currentStart chunk left both ahead
    cases i with
    | zero =>
      cases entry
      have last : (0 + 1 = n + 1) = (n = 0) := by
        rw [eq_iff_iff]
        omega
      simp only [last, ← sum]
      exact ⟨Int32.le_toInt _, Int32.toInt_lt _⟩
    | succ i =>
      have later := ih _ rest i entry
      simpa only [Nat.add_right_cancel_iff] using later

/-- For all `int`s and every number of workers that is one: the arithmetic is exact if
and only if the range is in order and its length is an `int`. -/
theorem scatter_exact_iff (start stop : Int32) (n : Nat) (positive : 0 < n) (few : n < 2 ^ 31) :
    Exact start stop n ↔ start.toInt ≤ stop.toInt ∧ stop.toInt - start.toInt < 2 ^ 31 := by
  constructor
  · intro exact_
    exact ⟨(totalExact_iff start stop).mp exact_.total, exact_.range.2⟩
  · intro inRange
    obtain ⟨ordered, representable⟩ := inRange
    obtain ⟨chunk, left, both, ahead⟩ :=
      split_exact start stop n positive few ordered representable
    refine ⟨⟨by omega, representable⟩, ⟨by omega, both⟩, ?_, (totalExact_iff start stop).mpr ordered⟩
    exact cursor_fits _ _ stop n start chunk left both ahead

theorem scatter_exact_ten : Exact 0 10 3 :=
  (scatter_exact_iff 0 10 3 (by decide) (by decide)).mpr (by decide)

/-- `scatter m f -2000000000 2000000000` and `scatter m f 0 -5` are accepted. The first
overflows, and the second is recorded with 4294967291 units. -/
theorem scatter_not_exact :
    (∃ line command, scatterCommand line = some command ∧ ¬ Exact command.start command.stop 2) ∧
    ∃ line command, scatterCommand line = some command ∧
      ¬ TotalExact command.start command.stop := by
  constructor
  · refine ⟨_, ⟨[109], [102], -2000000000, 2000000000⟩,
      scatterCommand_line _ (by simp [Base.CString.isSpace]) (by simp [Base.CString.isSpace]), ?_⟩
    intro exact_
    exact absurd exact_.range.2 (by decide)
  · refine ⟨_, ⟨[109], [102], 0, -5⟩,
      scatterCommand_line _ (by simp [Base.CString.isSpace]) (by simp [Base.CString.isSpace]), ?_⟩
    rw [totalExact_iff]
    decide

end VelumOS.Guarantees.ScatterArithmetic
