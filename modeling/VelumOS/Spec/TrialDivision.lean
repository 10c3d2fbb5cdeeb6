import VelumOS.Source.UserTasks

/-!
# Trial division in 32-bit words

The inner loop of `task_find_primes` ends at the first divisor at which its condition fails
or which divides. The condition compares the square modulo `2 ^ 32`, so for a prime the
loop ends too, at the latest at the prime itself, but it may end there with the wrong
verdict. Below 65535 ^ 2 no square wraps before the loop ends, and a composite number has
a divisor whose square does not wrap either.
-/
namespace VelumOS.Spec
open VelumOS.Source

/-- The condition of the inner loop fails at `div`: its square, as a word, is above. -/
def Past (num div : Nat) : Prop := num < div * div % 2 ^ 32

instance (num div : Nat) : Decidable (Past num div) := inferInstanceAs (Decidable (_ < _))

/-- The inner loop ends at `div`. -/
def Ends (num div : Nat) : Prop := 2 ≤ div ∧ (Past num div ∨ div ∣ num)

/-- What the inner loop decides: a prime is flagged if some word up to it has a square
above it. -/
def Flagged (num : Nat) : Prop := num.Prime ∧ ∃ div ≤ num, Past num div

instance : DecidablePred Flagged := fun _ => inferInstanceAs (Decidable (_ ∧ _))

/-- One iteration of the inner loop that goes on with the next divisor. -/
def Iterates (num div next : UInt32) : Prop :=
  div * div ≤ num ∧ div ≠ 0 ∧ num % div ≠ 0 ∧ next = div + 1

/-- The inner loop for `num` tests its condition at `div`. -/
def Tests (num div : UInt32) : Prop := Relation.ReflTransGen (Iterates num) 2 div

/-! ## Words -/

theorem toNat_succ (word : UInt32) (fits : word.toNat + 1 < 2 ^ 32) :
    (word + 1).toNat = word.toNat + 1 :=
  (UInt32.toNat_add word 1).trans (Nat.mod_eq_of_lt fits)

/-- What holds of 2 and is passed on from word to word up to `last` holds of the words up
to `last`. -/
theorem holds_upTo {P : UInt32 → Prop} (last : Nat) (first : P 2)
    (next : ∀ word, 2 ≤ word.toNat → word.toNat < last → P word → P (word + 1)) (word : UInt32)
    (low : 2 ≤ word.toNat) (high : word.toNat ≤ last) : P word := by
  obtain ⟨gap, far⟩ := Nat.exists_eq_add_of_le low
  induction gap generalizing word with
  | zero =>
    rw [show word = 2 from UInt32.toNat_inj.mp far]
    exact first
  | succ gap ih =>
    have back : (word - 1).toNat = word.toNat - 1 :=
      UInt32.toNat_sub_of_le _ _ (UInt32.le_iff_toNat_le.mpr (show 1 ≤ word.toNat by omega))
    have earlier := ih (word - 1) (by omega) (by omega) (by omega)
    rw [← UInt32.sub_add_cancel word 1]
    exact next (word - 1) (by omega) (by omega) earlier

theorem square_le_iff (num div : UInt32) : div * div ≤ num ↔ ¬ Past num.toNat div.toNat := by
  rw [UInt32.le_iff_toNat_le, UInt32.toNat_mul, Past, Nat.not_lt]

theorem mod_eq_zero_iff (num div : UInt32) : num % div = 0 ↔ div.toNat ∣ num.toNat := by
  rw [← UInt32.toNat_inj, UInt32.toNat_mod, Nat.dvd_iff_mod_eq_zero]
  rfl

theorem iterates_iff (num div next : UInt32) (low : 2 ≤ div.toNat) :
    Iterates num div next ↔ ¬ Ends num.toNat div.toNat ∧ next = div + 1 := by
  have nonzero : div ≠ 0 := by
    rintro rfl
    exact absurd low (by decide)
  simp only [Iterates, Ends, square_le_iff, ne_eq, mod_eq_zero_iff]
  tauto

/-! ## The run of the inner loop -/

theorem trialDivision_iterates {num div next : UInt32} (iterates : Iterates num div next)
    (steps : Nat) : trialDivision num (steps + 1) div = trialDivision num steps next := by
  obtain ⟨within, nonzero, remainder, rfl⟩ := iterates
  rw [trialDivision, if_pos within, if_neg nonzero, if_neg remainder]

theorem trialDivision_ends {num div : UInt32} (ends : Ends num.toNat div.toNat) (steps : Nat) :
    trialDivision num (steps + 1) div = .ok (decide (Past num.toNat div.toNat)) := by
  have nonzero : div ≠ 0 := by
    rintro rfl
    exact absurd ends.1 (by decide)
  rw [trialDivision]
  by_cases past : Past num.toNat div.toNat
  · rw [if_neg (fun within => (square_le_iff num div).mp within past), decide_eq_true past]
  · have divides : num % div = 0 := (mod_eq_zero_iff num div).mpr (ends.2.resolve_left past)
    rw [if_pos ((square_le_iff num div).mpr past), if_neg nonzero, if_pos divides,
      decide_eq_false past]

/-- A number itself ends its loop, if nothing before it does. -/
theorem ends_self {num : Nat} (two : 2 ≤ num) : Ends num num := ⟨two, .inr dvd_rfl⟩

/-- The loop goes on at every divisor before the first at which it ends. -/
theorem goes_on {num last div : Nat} (least : IsLeast {div | Ends num div} last)
    (before : div < last) : ¬ Ends num div := fun ends => (least.2 ends).not_gt before

/-- Every loop ends. -/
theorem exists_last {num : Nat} (two : 2 ≤ num) : ∃ last, IsLeast {div | Ends num div} last :=
  ⟨_, isLeast_csInf ⟨num, ends_self two⟩⟩

section Last
variable {num : UInt32} {last : Nat} (two : 2 ≤ num.toNat)
  (least : IsLeast {div | Ends num.toNat div} last)
include two least

theorem last_lt : last < 2 ^ 32 := (least.2 (ends_self two)).trans_lt num.toNat_lt

/-- From a divisor that is `gap` before its end, the loop runs `gap` more iterations. -/
theorem trialDivision_gap (gap steps : Nat) (div : UInt32) (before : div.toNat + gap = last)
    (low : 2 ≤ div.toNat) :
    trialDivision num (steps + gap + 1) div = .ok (decide (Past num.toNat last)) := by
  induction gap generalizing div with
  | zero =>
    rw [Nat.add_zero] at before
    subst before
    exact trialDivision_ends least.1 steps
  | succ gap ih =>
    have fits := last_lt two least
    have goes : ¬ Ends num.toNat div.toNat := goes_on least (by omega)
    have next := toNat_succ div (by omega)
    rw [trialDivision_iterates ((iterates_iff num div _ low).mpr ⟨goes, rfl⟩)]
    exact ih (div + 1) (by omega) (by omega)

/-- The verdict is that of the first divisor at which the loop ends. -/
theorem trialDivision_last :
    trialDivision num (2 ^ 32) 2 = .ok (decide (Past num.toNat last)) := by
  have fits := last_lt two least
  have low : 2 ≤ last := least.1.1
  have run := trialDivision_gap two least (last - 2) (2 ^ 32 - 1 - (last - 2)) 2
    (Nat.add_sub_cancel' low) le_rfl
  rwa [show 2 ^ 32 - 1 - (last - 2) + (last - 2) + 1 = 2 ^ 32 by omega] at run

/-- The loop tests the divisors up to there. -/
theorem tests_iff (div : UInt32) : Tests num div ↔ 2 ≤ div.toNat ∧ div.toNat ≤ last := by
  have fits := last_lt two least
  constructor
  · intro tests
    induction tests with
    | refl => exact ⟨le_rfl, least.1.1⟩
    | @tail earlier next _ step ih =>
      obtain ⟨low, high⟩ := ih
      obtain ⟨goes, rfl⟩ := (iterates_iff num earlier next low).mp step
      have before : earlier.toNat ≠ last := fun same => goes (same ▸ least.1)
      rw [toNat_succ earlier (by omega)]
      omega
  · rintro ⟨low, high⟩
    refine holds_upTo last .refl (fun div low before tests => tests.tail ?_) div low high
    exact (iterates_iff num div _ low).mpr ⟨goes_on least before, rfl⟩

end Last

/-! ## Verdicts -/

/-- A square that does not wrap is compared as it is. -/
theorem past_iff {num div : Nat} (exact_ : div * div < 2 ^ 32) : Past num div ↔ num < div * div := by
  rw [Past, Nat.mod_eq_of_lt exact_]

theorem not_past {num div : Nat} (root : div * div ≤ num) : ¬ Past num div :=
  Nat.not_lt.mpr ((Nat.mod_le _ _).trans root)

/-- The loop for a composite number ends at its least factor. -/
theorem composite_last {num : Nat} (two : 2 ≤ num) (composite : ¬ num.Prime) :
    IsLeast {div | Ends num div} num.minFac := by
  have root : num.minFac * num.minFac ≤ num := by
    rw [← Nat.pow_two]
    exact Nat.minFac_sq_le_self (by omega) composite
  refine ⟨⟨(Nat.minFac_prime (by omega)).two_le, .inr num.minFac_dvd⟩, ?_⟩
  rintro div ⟨low, past | divides⟩
  · by_contra below
    have square : div * div ≤ num.minFac * num.minFac := Nat.mul_le_mul (by omega) (by omega)
    exact not_past (square.trans root) past
  · exact Nat.minFac_le_of_dvd low divides

/-- The loop for a prime ends where its condition fails, or at the prime. -/
theorem prime_ends_iff {num : Nat} (prime : num.Prime) (div : Nat) :
    Ends num div ↔ 2 ≤ div ∧ (Past num div ∨ div = num) := by
  rw [Ends]
  apply and_congr_right
  intro low
  rw [Nat.dvd_prime prime]
  have one : div ≠ 1 := by omega
  simp only [one, false_or]

/-- Below 65535 ^ 2 the square behind the root does not wrap. -/
theorem past_sqrt {num : Nat} (small : num < 65535 * 65535) : Past num (num.sqrt + 1) := by
  have root : num.sqrt < 65535 := Nat.sqrt_lt.mpr small
  have square : (num.sqrt + 1) * (num.sqrt + 1) ≤ 65535 * 65535 :=
    Nat.mul_le_mul (by omega) (by omega)
  exact (past_iff (by omega)).mpr (Nat.lt_succ_sqrt num)

/-- The loop for such a prime ends there. -/
theorem small_prime_last {num : Nat} (prime : num.Prime) (small : num < 65535 * 65535) :
    IsLeast {div | Ends num div} (num.sqrt + 1) := by
  have positive : 0 < num.sqrt := Nat.sqrt_pos.mpr prime.pos
  refine ⟨⟨by omega, .inl (past_sqrt small)⟩, ?_⟩
  intro div ends
  by_contra below
  have within : div * div ≤ num := Nat.le_sqrt.mp (by omega)
  obtain ⟨low, past | rfl⟩ := (prime_ends_iff prime div).mp ends
  · exact not_past within past
  · have twice : 2 * div ≤ div * div := Nat.mul_le_mul_right _ low
    omega

/-- The loop for a greater prime goes on behind 65536, whose square is 0 as a word. -/
theorem large_prime_last {num last : Nat} (prime : num.Prime) (large : 65535 * 65535 ≤ num)
    (least : IsLeast {div | Ends num div} last) : 65536 < last := by
  by_contra reached
  obtain ⟨_, past | rfl⟩ := (prime_ends_iff prime last).mp least.1
  · rcases (by omega : last ≤ 65535 ∨ last = 65536) with below | rfl
    · have square : last * last ≤ 65535 * 65535 := Nat.mul_le_mul below below
      exact not_past (square.trans large) past
    · exact absurd past (by simp [Past])
  · omega

/-- The loop for a prime flags it if its condition fails anywhere up to the prime. -/
theorem prime_past_iff {num last : Nat} (prime : num.Prime)
    (least : IsLeast {div | Ends num div} last) : Past num last ↔ ∃ div ≤ num, Past num div := by
  have two := prime.two_le
  have inside : last ≤ num := least.2 (ends_self two)
  constructor
  · exact fun past => ⟨last, inside, past⟩
  · rintro ⟨div, upTo, past⟩
    have low : 2 ≤ div := by
      by_contra tiny
      have square : div * div ≤ 1 * 1 := Nat.mul_le_mul (by omega) (by omega)
      exact not_past (square.trans (by omega)) past
    have before : last ≤ div := least.2 ⟨low, .inl past⟩
    obtain ⟨_, ended | self⟩ := (prime_ends_iff prime last).mp least.1
    · exact ended
    · rwa [show last = div by omega]

/-- The inner loop ends on every number, with the verdict of `Flagged`. -/
theorem trialDivision_eq (num : UInt32) (two : 2 ≤ num.toNat) :
    trialDivision num (2 ^ 32) 2 = .ok (decide (Flagged num.toNat)) := by
  obtain ⟨last, least⟩ := exists_last two
  rw [trialDivision_last two least]
  congr 2
  rw [eq_iff_iff]
  by_cases prime : num.toNat.Prime
  · rw [Flagged, and_iff_right prime, prime_past_iff prime least]
  · have factor := (composite_last two prime).unique least
    have root := Nat.minFac_sq_le_self (by omega) prime
    rw [factor, Nat.pow_two] at root
    exact iff_of_false (not_past root) fun flagged => prime flagged.1

/-- Below 65535 ^ 2 the primes are flagged. -/
theorem flagged_iff_prime {num : Nat} (small : num < 65535 * 65535) : Flagged num ↔ num.Prime := by
  apply and_iff_left_of_imp
  intro prime
  exact ⟨num.sqrt + 1, Nat.sqrt_lt_self prime.one_lt, past_sqrt small⟩

/-! ## The outer loop -/

/-- The outer loop counts what is flagged among the next `n` numbers. -/
theorem findPrimesLoop_eq (n : Nat) (num : UInt32) (count : Int32) (two : 2 ≤ num.toNat)
    (fits : num.toNat + n < 2 ^ 32) :
    findPrimesLoop n num count =
      .ok (count + Int32.ofNat (Nat.count (fun k => Flagged (num.toNat + k)) n)) := by
  induction n generalizing num count with
  | zero => simp [findPrimesLoop]
  | succ n ih =>
    have next := toNat_succ num (by omega)
    rw [findPrimesLoop]
    apply (bind_of_ok (trialDivision_eq num two) _).trans
    rw [ih (num + 1) _ (by omega) (by omega), Nat.count_succ', next]
    have shifted : (fun k => Flagged (num.toNat + 1 + k)) = fun k => Flagged (num.toNat + (k + 1)) := by
      funext k
      rw [Nat.add_right_comm, Nat.add_assoc]
    simp only [shifted, Nat.add_zero]
    by_cases flagged : Flagged num.toNat
    · simp only [flagged, decide_true, if_true, Int32.ofNat_add, Int32.add_assoc]
      rw [Int32.add_comm 1]
      rfl
    · simp [flagged]

/-- `task_find_primes` returns for every limit, with the number of flagged numbers below. -/
theorem taskFindPrimes_count (limit : UInt32) :
    taskFindPrimes limit = .ok (Int32.ofNat (Nat.count Flagged limit.toNat)) := by
  have bound := limit.toNat_lt
  rw [taskFindPrimes, findPrimesLoop_eq _ _ _ (by decide) (by simp; omega), Int32.zero_add]
  congr 2
  rcases Nat.lt_or_ge limit.toNat 2 with tiny | counted
  · interval_cases limit.toNat
    · rfl
    · rfl
  · have whole : limit.toNat = 2 + (limit.toNat - 2) := by omega
    conv_rhs => rw [whole, Nat.count_add]
    have none : Nat.count Flagged 2 = 0 := by decide
    rw [none, Nat.zero_add]
    rfl

/-- Up to 65535 ^ 2 that is the number of primes below its limit. -/
theorem taskFindPrimes_eq (limit : UInt32) (small : limit.toNat ≤ 65535 * 65535) :
    taskFindPrimes limit = .ok (Int32.ofNat (Nat.primeCounting' limit.toNat)) := by
  rw [taskFindPrimes_count, Nat.primeCounting', Nat.count_eq_card_filter_range,
    Nat.count_eq_card_filter_range]
  congr 3
  apply Finset.filter_congr
  intro num below
  rw [Finset.mem_range] at below
  exact flagged_iff_prime (by omega)

end VelumOS.Spec
