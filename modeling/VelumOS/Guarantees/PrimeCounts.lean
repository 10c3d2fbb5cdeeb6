import VelumOS.Spec.Answers

/-!
# Chunked prime counting starts over in each batch

A batch of a `FIND_PRIMES` request is only told how many numbers it has, so each batch
counts the primes from 2 on. The values sent are the prime counts of the batch sizes,
which sum to the number of primes below `n` up to 50,000,002 iterations: behind one
full batch the second one finds a prime, 2, from its third number on.
-/
namespace VelumOS.Guarantees.PrimeCounts
open VelumOS.Source VelumOS.Spec Base.Batches
open Nat (primeCounting')

/-- The prime counts of the pieces, added up. -/
theorem sum_pieces (n : UInt32) : (((pieces n).map UInt32.toNat).map primeCounting').sum =
    n.toNat / 50000000 * primeCounting' 50000000 + primeCounting' (n.toNat % 50000000) := by
  have none : primeCounting' 0 = 0 := rfl
  rw [pieces_toNat]
  split
  · exact sum_map_batches 50000000 n.toNat primeCounting' none
  · next most =>
    have bound : n.toNat ≤ 50000000 := UInt32.le_iff_toNat_le.mp (UInt32.not_lt.mp most)
    rw [List.map_singleton, List.sum_singleton]
    rcases bound.lt_or_eq with below | whole
    · rw [Nat.div_eq_of_lt below, Nat.mod_eq_of_lt below, Nat.zero_mul, Nat.zero_add]
    · rw [whole, Nat.div_self (by decide), Nat.mod_self, none, Nat.one_mul, Nat.add_zero]

/-- The primes below `start`, and those from there on. -/
theorem primeCounting'_add (start r : Nat) : primeCounting' (start + r) =
    primeCounting' start + Nat.count (fun k => (start + k).Prime) r := Nat.count_add _ _ _

/-- The numbers behind 50,000,000 without a divisor 2, 3, 5 or 7. -/
def roughBehind (r : Nat) : Nat := Nat.count (fun k => Nat.Coprime (50000000 + k) 210) r

theorem count_behind_le (r : Nat) :
    Nat.count (fun k => (50000000 + k).Prime) r ≤ roughBehind r := by
  apply Nat.count_mono_left
  intro k _ prime
  apply (Nat.Prime.coprime_iff_not_dvd prime).mpr
  intro divides
  have bound := Nat.le_of_dvd (by decide) divides
  omega

/-- 50,000,000 and the two numbers behind it are composite. -/
theorem none_behind (r : Nat) (few : r ≤ 2) :
    Nat.count (fun k => (50000000 + k).Prime) r = primeCounting' r := by
  have rough : ∀ r < 3, roughBehind r = 0 := by decide
  have bound := count_behind_le r
  rw [rough r (by omega)] at bound
  rw [Nat.primeCounting'_eq_zero_iff.mpr few]
  omega

/-- From the third number on there are more primes behind 0. -/
theorem fewer_behind (r : Nat) (several : 3 ≤ r) (few : r ≤ 100) :
    Nat.count (fun k => (50000000 + k).Prime) r < primeCounting' r := by
  have rough : ∀ r < 101, 3 ≤ r → roughBehind r < primeCounting' r := by decide +kernel
  exact (count_behind_le r).trans_lt (rough r (by omega) several)

/-- What the batches of `n` iterations sum to. -/
def batchedCount (n : Nat) : Nat :=
  n / 50000000 * primeCounting' 50000000 + primeCounting' (n % 50000000)

theorem batchedCount_behind (r : Nat) (rest : r < 50000000) :
    batchedCount (50000000 + r) = primeCounting' 50000000 + primeCounting' r := by
  have quotient : (50000000 + r) / 50000000 = 1 := by omega
  have remainder : (50000000 + r) % 50000000 = r := by omega
  rw [batchedCount, quotient, remainder, Nat.one_mul]

theorem batchedCount_exact (n : Nat) (few : n ≤ 50000002) : batchedCount n = primeCounting' n := by
  rcases Nat.lt_or_ge n 50000000 with below | above
  · rw [batchedCount, Nat.div_eq_of_lt below, Nat.mod_eq_of_lt below, Nat.zero_mul, Nat.zero_add]
  · obtain ⟨r, rfl⟩ := Nat.exists_eq_add_of_le above
    rw [batchedCount_behind r (by omega), primeCounting'_add, none_behind r (by omega)]

theorem batchedCount_too_many (n : Nat) (several : 50000002 < n) (few : n ≤ 50000100) :
    primeCounting' n < batchedCount n := by
  obtain ⟨r, rfl⟩ := Nat.exists_eq_add_of_le (by omega : 50000000 ≤ n)
  have fewer := fewer_behind r (by omega) (by omega)
  rw [batchedCount_behind r (by omega), primeCounting'_add]
  omega

/-- Every `FIND_PRIMES` request is answered, with the counts of its batches. -/
theorem handleMessage_findPrimes (ctx : TaskContext) (myId : Int) (status : ClusterStatus)
    (msg : Message) (request : msg.type = .taskRequest)
    (op : (TaskHeader.view msg.payload).opCode = .findPrimes) :
    ∃ sent, handleMessage ctx myId status msg = .ok (status, sent) ∧
      total sent = batchedCount (ComputeArgs.view msg.payload).iterations.toNat := by
  obtain ⟨sent, answered, counted⟩ := findPrimes_values ctx myId status msg request op
  have small := pieces_le (ComputeArgs.view msg.payload).iterations
  refine ⟨sent, answered, ?_⟩
  rw [total_of_counts sent _ counted, sum_pieces, batchedCount]
  intro k member
  obtain ⟨batch, inside, rfl⟩ := List.mem_map.mp member
  have bound := (primeCounting'_le batch).trans (small batch inside)
  omega

/-- Every `FIND_PRIMES` request is answered. The values sent for it sum to the prime counts
of its batches: up to 50,000,002 iterations that is the number of primes below `n`, and in
the first hundred above 50,000,000 for no others. -/
theorem prime_values_sum_iff (ctx : TaskContext) (myId : Int) (status : ClusterStatus)
    (msg : Message) (n : Nat) (request : msg.type = .taskRequest)
    (op : (TaskHeader.view msg.payload).opCode = .findPrimes)
    (iterations : (ComputeArgs.view msg.payload).iterations.toNat = n) :
    ∃ sent, handleMessage ctx myId status msg = .ok (status, sent) ∧
      total sent = batchedCount n ∧
      (n ≤ 50000002 → total sent = primeCounting' n) ∧
      (n ≤ 50000100 → (total sent = primeCounting' n ↔ n ≤ 50000002)) := by
  obtain ⟨sent, answered, sum⟩ := handleMessage_findPrimes ctx myId status msg request op
  rw [iterations] at sum
  refine ⟨sent, answered, sum, ?_, ?_⟩
  · intro few
    rw [sum, batchedCount_exact n few]
  · intro few
    constructor
    · intro same
      by_contra several
      have more := batchedCount_too_many n (by omega) few
      omega
    · intro low
      rw [sum, batchedCount_exact n low]

/-- A context in which nothing depends on memory or draws. -/
def plainContext : TaskContext := ⟨fun _ => .zeroed, fun _ => 0, fun _ _ => false⟩

/-- Two batches of 50,000,000 and 2 numbers. -/
theorem prime_values_sum_threshold : ∃ sent,
    handleMessage plainContext 2 (fun _ => .zero) (countRequest .findPrimes 50000002) =
      .ok (fun _ => .zero, sent) ∧ total sent = primeCounting' 50000002 := by
  obtain ⟨sent, answered, _, enough, _⟩ := prime_values_sum_iff plainContext 2 (fun _ => .zero)
    (countRequest .findPrimes 50000002) 50000002 rfl (by rw [countRequest_header])
    (by rw [countRequest_iterations]; rfl)
  exact ⟨sent, answered, enough (by decide)⟩

/-- With 50,000,003 iterations the values sum to more than there are primes. -/
theorem prime_values_too_many : ¬ ∀ (ctx : TaskContext) (myId : Int) (status : ClusterStatus)
    (msg : Message), msg.type = .taskRequest →
    (TaskHeader.view msg.payload).opCode = .findPrimes → ∃ sent,
      handleMessage ctx myId status msg = .ok (status, sent) ∧
        total sent = primeCounting' (ComputeArgs.view msg.payload).iterations.toNat := by
  intro always
  have op : (TaskHeader.view (countRequest .findPrimes 50000003).payload).opCode = .findPrimes := by
    rw [countRequest_header]
  have iterations : (ComputeArgs.view (countRequest .findPrimes 50000003).payload).iterations.toNat =
      50000003 := by
    rw [countRequest_iterations]
    rfl
  obtain ⟨sent, answered, same⟩ := always plainContext 2 (fun _ => .zero) _ rfl op
  obtain ⟨again, answeredAgain, sum⟩ := handleMessage_findPrimes plainContext 2 (fun _ => .zero)
    _ rfl op
  rw [answered] at answeredAgain
  cases answeredAgain
  rw [iterations] at same sum
  have more := batchedCount_too_many 50000003 (by decide) (by decide)
  omega

end VelumOS.Guarantees.PrimeCounts
