import VelumOS.Source.Engine
import VelumOS.Spec.Answers

/-!
# Prime tests in 32-bit words

`handle_message` never asks `task_find_primes` for more than the numbers below 50,000,000,
where it counts the primes. The function itself takes any `uint32_t`, and its inner loop
has a product that wraps: a prime from 65535 ^ 2 on goes past `div = 65536`, whose square is
0 as a word, and the greatest of them passes for a composite number.
-/
namespace VelumOS.Guarantees.PrimeTests
open VelumOS.Source VelumOS.Spec

/-! ## What the node asks for -/

/-- The call for `limit` returns, and its value is the number of primes below `limit`. -/
def CountsPrimes (limit : UInt32) (value : Int32) : Prop :=
  taskFindPrimes limit = .ok value ∧
    value.toInt = ((Finset.range limit.toNat).filter Nat.Prime).card

theorem countsPrimes {limit : UInt32} (small : limit.toNat ≤ 50000000) :
    CountsPrimes limit (.ofNat (Nat.primeCounting' limit.toNat)) := by
  have bound := primeCounting'_le limit.toNat
  refine ⟨taskFindPrimes_eq limit (by omega), ?_⟩
  rw [Int32.toInt_ofNat_of_lt (by omega), Nat.primeCounting', Nat.count_eq_card_filter_range]

/-- For every limit up to 50,000,000 `task_find_primes` returns the number of primes below
it, and every `FIND_PRIMES` request is answered with the values of calls for such limits. -/
theorem primes_counted :
    (∀ limit : UInt32, limit.toNat ≤ 50000000 → ∃ value, CountsPrimes limit value) ∧
    ∀ (ctx : TaskContext) (myId : Int) (status : ClusterStatus) (msg : Message),
      msg.type = .taskRequest → (TaskHeader.view msg.payload).opCode = .findPrimes →
      ∃ sent, handleMessage ctx myId status msg = .ok (status, sent) ∧
        List.Forall₂ (fun limit value => limit.toNat ≤ 50000000 ∧ CountsPrimes limit value)
          (pieces (ComputeArgs.view msg.payload).iterations) (values sent) := by
  constructor
  · exact fun limit small => ⟨_, countsPrimes small⟩
  · intro ctx myId status msg request op
    obtain ⟨sent, answered, counted⟩ := findPrimes_values ctx myId status msg request op
    refine ⟨sent, answered, ?_⟩
    rw [counted, List.map_map, List.map_map, List.forall₂_map_right_iff, List.forall₂_same]
    intro limit member
    have small : limit.toNat ≤ 50000000 := pieces_le _ _ (List.mem_map_of_mem member)
    exact ⟨small, countsPrimes small⟩

/-- There are 8 primes below 20, and a request for them is answered with that. -/
theorem primes_counted_twenty :
    (∃ value, taskFindPrimes 20 = .ok value ∧ value.toInt = 8) ∧
    ∃ sent, handleMessage ReadContext.refusing.task 2 (fun _ => .zero)
        (countRequest .findPrimes 20) = .ok (fun _ => .zero, sent) ∧
      List.Forall₂ CountsPrimes [20] (values sent) := by
  constructor
  · obtain ⟨value, returned, counted⟩ := primes_counted.1 20 (by decide)
    exact ⟨value, returned, counted.trans (by decide)⟩
  · obtain ⟨sent, answered, calls⟩ := primes_counted.2 ReadContext.refusing.task 2 (fun _ => .zero)
      (countRequest .findPrimes 20) rfl (by rw [countRequest_header])
    rw [countRequest_iterations] at calls
    exact ⟨sent, answered, calls.imp fun _ _ call => call.2⟩

/-! ## What a caller may ask for -/

/-- The outer loop for `limit` tests `num`. -/
inductive Reaches (limit : UInt32) : UInt32 → Prop
  | first (below : 2 < limit) : Reaches limit 2
  | next {num : UInt32} {prime : Bool} (earlier : Reaches limit num)
      (tested : trialDivision num (2 ^ 32) 2 = .ok prime) (below : num + 1 < limit) :
      Reaches limit (num + 1)

/-- Trial division as it is meant: no square wraps at any test of the condition, the loop
ends by 65536, and it flags exactly the primes. -/
structure Exact (num : UInt32) : Prop where
  square : ∀ div, Tests num div → (div * div).toNat = div.toNat * div.toNat
  ends : ∃ div, Tests num div ∧ (∀ next, ¬ Iterates num div next) ∧ div.toNat ≤ 65536
  verdict : trialDivision num (2 ^ 32) 2 = .ok (decide num.toNat.Prime)

/-- Every inner loop ends, so the outer loop tests each number below its limit. -/
theorem reaches_iff (limit num : UInt32) :
    Reaches limit num ↔ 2 ≤ num.toNat ∧ num.toNat < limit.toNat := by
  have bound := limit.toNat_lt
  constructor
  · intro reached
    induction reached with
    | first below => exact ⟨le_rfl, UInt32.lt_iff_toNat_lt.mp below⟩
    | @next num prime _ _ below ih =>
      have inside := UInt32.lt_iff_toNat_lt.mp below
      have next := toNat_succ num (by omega)
      omega
  · rintro ⟨low, inside⟩
    have first : (2 : UInt32) < limit := UInt32.lt_iff_toNat_lt.mpr (low.trans_lt inside)
    apply holds_upTo (limit.toNat - 1) (.first first) _ num low (by omega)
    intro num low before reached
    have next := toNat_succ num (by omega)
    have below : num + 1 < limit := UInt32.lt_iff_toNat_lt.mpr (by omega)
    exact .next reached (trialDivision_eq num low) below

/-- The loop ends before a square wraps, unless it has to find a prime from 65535 ^ 2 on. -/
theorem last_le {num last : Nat} (two : 2 ≤ num) (word : num < 2 ^ 32)
    (least : IsLeast {div | Ends num div} last) (tame : num < 65535 * 65535 ∨ ¬ num.Prime) :
    last ≤ 65535 := by
  by_cases prime : num.Prime
  · have small := tame.resolve_right (not_not_intro prime)
    have root : num.sqrt < 65535 := Nat.sqrt_lt.mpr small
    rw [least.unique (small_prime_last prime small)]
    omega
  · rw [least.unique (composite_last two prime)]
    have root := Nat.minFac_sq_le_self (by omega) prime
    by_contra above
    have square : 65536 * 65536 ≤ num.minFac ^ 2 := by
      rw [Nat.pow_two]
      exact Nat.mul_le_mul (by omega) (by omega)
    omega

/-- A divisor up to 65535 has a square of 32 bits. -/
theorem toNat_square (div : UInt32) (small : div.toNat ≤ 65535) :
    (div * div).toNat = div.toNat * div.toNat := by
  have square : div.toNat * div.toNat ≤ 65535 * 65535 := Nat.mul_le_mul small small
  rw [UInt32.toNat_mul, Nat.mod_eq_of_lt (by omega)]

theorem verdict_of_tame {num : UInt32} (two : 2 ≤ num.toNat)
    (tame : num.toNat < 65535 * 65535 ∨ ¬ num.toNat.Prime) :
    trialDivision num (2 ^ 32) 2 = .ok (decide num.toNat.Prime) := by
  rw [trialDivision_eq num two]
  congr 2
  rcases tame with small | composite
  · rw [flagged_iff_prime small]
  · exact propext (iff_of_false (fun flagged => composite flagged.1) composite)

/-- The divisors of a loop that ends by 65535 are exact. -/
theorem exact_of_tame {num : UInt32} (two : 2 ≤ num.toNat)
    (tame : num.toNat < 65535 * 65535 ∨ ¬ num.toNat.Prime) : Exact num := by
  obtain ⟨last, least⟩ := exists_last two
  have bound := last_le two num.toNat_lt least tame
  obtain ⟨final, rfl⟩ : ∃ final : UInt32, final.toNat = last :=
    ⟨.ofNat last, UInt32.toNat_ofNat_of_lt' (bound.trans_lt (by decide))⟩
  have tested : Tests num final := (tests_iff two least final).mpr ⟨least.1.1, le_rfl⟩
  have stops : ∀ next, ¬ Iterates num final next := fun next iterates =>
    ((iterates_iff num final next least.1.1).mp iterates).1 least.1
  refine ⟨fun div tests => ?_, ⟨final, tested, stops, by omega⟩, verdict_of_tame two tame⟩
  exact toNat_square div (((tests_iff two least div).mp tests).2.trans bound)

/-- For every number that the outer loop reaches: trial division is exact if and only if
the number is below 65535 ^ 2 or composite. -/
theorem trial_division_exact_iff (limit num : UInt32) (reached : Reaches limit num) :
    Exact num ↔ num.toNat < 65535 * 65535 ∨ ¬ num.toNat.Prime := by
  obtain ⟨two, _⟩ := (reaches_iff limit num).mp reached
  constructor
  · intro exact_
    by_contra untamed
    rw [not_or, not_lt, not_not] at untamed
    obtain ⟨last, least⟩ := exists_last two
    have further := large_prime_last untamed.2 untamed.1 least
    have tested : Tests num 65536 := (tests_iff two least 65536).mpr ⟨by decide, further.le⟩
    exact absurd (exact_.square 65536 tested) (by decide)
  · exact exact_of_tame two

/-- The square of 65535 is the greatest square of a word that does not wrap. -/
theorem trial_division_exact_square : Exact 4294836225 :=
  (trial_division_exact_iff 4294836226 4294836225
    ((reaches_iff _ _).mpr ⟨by decide, by decide⟩)).mpr
      (.inr (show ¬ Nat.Prime 4294836225 by norm_num))

/-- No square is among the last four words. -/
theorem not_past_last_words (div : Nat) : ¬ Past 4294967291 div := by
  have squares : ∀ r < 16, r * r % 16 < 12 := by decide
  have low : div * div % 16 < 12 := by
    rw [Nat.mul_mod]
    exact squares (div % 16) (Nat.mod_lt div (by decide))
  unfold Past
  omega

/-- The greatest prime of 32 bits, by the factors of its predecessor. -/
theorem prime_last : Nat.Prime 4294967291 := by
  apply lucas_primality _ (2 : ZMod 4294967291)
  · reduce_mod_char
  · intro q prime divides
    have factors : 4294967291 - 1 = 2 * 5 * 19 * 22605091 := by norm_num
    have nineteen : Nat.Prime 19 := by norm_num
    have greatest : Nat.Prime 22605091 := by norm_num
    rw [factors, prime.dvd_mul, prime.dvd_mul, prime.dvd_mul,
      Nat.prime_dvd_prime_iff_eq prime Nat.prime_two,
      Nat.prime_dvd_prime_iff_eq prime Nat.prime_five,
      Nat.prime_dvd_prime_iff_eq prime nineteen,
      Nat.prime_dvd_prime_iff_eq prime greatest] at divides
    rcases divides with ((rfl | rfl) | rfl) | rfl
    all_goals
      norm_num1
      reduce_mod_char
      decide

/-- So `2 ^ 32 - 5`, a prime, passes for a composite number. -/
theorem trial_division_misses :
    (Nat.Prime 4294967291 ∧ trialDivision 4294967291 (2 ^ 32) 2 = .ok false) ∧
    ¬ ∀ limit num : UInt32, Reaches limit num → Exact num := by
  have missed : trialDivision 4294967291 (2 ^ 32) 2 = .ok false := by
    rw [trialDivision_eq _ (by decide), decide_eq_false]
    rintro ⟨_, div, _, past⟩
    exact not_past_last_words div past
  refine ⟨⟨prime_last, missed⟩, fun always => ?_⟩
  have exact_ := always 4294967292 4294967291 ((reaches_iff _ _).mpr ⟨by decide, by decide⟩)
  have flagged := missed.symm.trans exact_.verdict
  rw [decide_eq_true (show (4294967291 : UInt32).toNat.Prime from prime_last)] at flagged
  cases flagged

end VelumOS.Guarantees.PrimeTests
