import Mathlib

/-!
# LEB128 numbers

Little-endian groups of seven bits, one to an octet; the high bit says that another
octet follows. An octet string is a number if all its octets but the last continue.
`unsigned` and `signed` give the value of any such string, the shortest or not;
`encode` and `encodeSigned` give the shortest one.
-/
namespace VelumOS.Base.Leb128

/-- Another octet follows. -/
def continues (octet : UInt8) : Bool := 128 ≤ octet.toNat

/-- The seven bits that an octet carries. -/
def group (octet : UInt8) : Nat := octet.toNat % 128

theorem group_lt (octet : UInt8) : group octet < 128 := Nat.mod_lt _ (by decide)

/-- The value of the groups, lowest first. -/
def unsigned : List UInt8 → Nat
  | [] => 0
  | octet :: rest => group octet + 128 * unsigned rest

/-- The two's complement value: bit 6 of the last octet is the sign. -/
def signed : List UInt8 → Int
  | [] => 0
  | [last] => if 64 ≤ group last then (group last : Int) - 128 else group last
  | octet :: rest => group octet + 128 * signed rest

/-- All octets but the last continue. -/
def IsNumber : List UInt8 → Prop
  | [] => False
  | [last] => continues last = false
  | octet :: rest => continues octet = true ∧ IsNumber rest

def encode (n : Nat) : List UInt8 :=
  if n < 128 then [UInt8.ofNat n] else UInt8.ofNat (n % 128 + 128) :: encode (n / 128)
termination_by n
decreasing_by omega

def encodeSigned (n : Int) : List UInt8 :=
  if -64 ≤ n ∧ n < 64 then [UInt8.ofNat (n % 128).toNat]
  else UInt8.ofNat ((n % 128).toNat + 128) :: encodeSigned (n / 128)
termination_by n.natAbs
decreasing_by omega

/-! ## Octets -/

theorem toNat_ofNat {n : Nat} (small : n < 256) : (UInt8.ofNat n).toNat = n := by
  rw [UInt8.toNat_ofNat', Nat.mod_eq_of_lt small]

theorem last_octet {n : Nat} (small : n < 128) :
    continues (UInt8.ofNat n) = false ∧ group (UInt8.ofNat n) = n := by
  simp only [continues, group, toNat_ofNat (Nat.lt_trans small (by decide : 128 < 256)),
    decide_eq_false_iff_not, Nat.mod_eq_of_lt small, and_true]
  omega

theorem inner_octet {n : Nat} (small : n < 128) :
    continues (UInt8.ofNat (n + 128)) = true ∧ group (UInt8.ofNat (n + 128)) = n := by
  simp only [continues, group, toNat_ofNat (by omega : n + 128 < 256), decide_eq_true_eq]
  omega

theorem isNumber_cons {octet : UInt8} {rest : List UInt8} (more : continues octet = true)
    (number : IsNumber rest) : IsNumber (octet :: rest) := by
  cases rest with
  | nil => exact number.elim
  | cons => exact ⟨more, number⟩

theorem signed_cons {octet : UInt8} {rest : List UInt8} (number : IsNumber rest) :
    signed (octet :: rest) = group octet + 128 * signed rest := by
  cases rest with
  | nil => exact number.elim
  | cons => rfl

theorem IsNumber.ne_nil {octets : List UInt8} (number : IsNumber octets) : octets ≠ [] := by
  rintro rfl
  exact number

/-! ## The shortest strings -/

/-- An encoded number is a number of that value. -/
theorem encode_spec (n : Nat) : IsNumber (encode n) ∧ unsigned (encode n) = n := by
  induction n using encode.induct with
  | case1 n small =>
    rw [encode, if_pos small]
    obtain ⟨ends, value⟩ := last_octet small
    exact ⟨ends, by simp [unsigned, value]⟩
  | case2 n big ih =>
    rw [encode, if_neg big]
    obtain ⟨more, value⟩ := inner_octet (Nat.mod_lt n (by decide : 0 < 128))
    refine ⟨isNumber_cons more ih.1, ?_⟩
    rw [unsigned, value, ih.2]
    omega

theorem encodeSigned_spec (n : Int) :
    IsNumber (encodeSigned n) ∧ signed (encodeSigned n) = n := by
  induction n using encodeSigned.induct with
  | case1 n small =>
    rw [encodeSigned, if_pos small]
    obtain ⟨ends, value⟩ := last_octet (by omega : (n % 128).toNat < 128)
    refine ⟨ends, ?_⟩
    rw [signed, value]
    split <;> omega
  | case2 n big ih =>
    rw [encodeSigned, if_neg big]
    obtain ⟨more, value⟩ := inner_octet (by omega : (n % 128).toNat < 128)
    refine ⟨isNumber_cons more ih.1, ?_⟩
    rw [signed_cons ih.1, value, ih.2]
    omega

/-- A number below `128 ^ k` takes at most `k` octets. -/
theorem encode_length_le (n k : Nat) (positive : 0 < k) (bound : n < 128 ^ k) :
    (encode n).length ≤ k := by
  induction k generalizing n with
  | zero => omega
  | succ k ih =>
    rw [encode]
    split
    · simp
    · next big =>
      have more : k ≠ 0 := by
        rintro rfl
        simp at bound
        omega
      have less : n / 128 < 128 ^ k := Nat.div_lt_of_lt_mul (by rwa [pow_succ, mul_comm] at bound)
      have rest := ih (n / 128) (Nat.pos_of_ne_zero more) less
      rw [List.length_cons]
      omega

/-- A number of `7 * k` bits with its sign takes at most `k` octets. -/
theorem encodeSigned_length_le (n : Int) (k : Nat) (positive : 0 < k)
    (bound : -(64 * 128 ^ (k - 1)) ≤ n ∧ n < 64 * 128 ^ (k - 1)) :
    (encodeSigned n).length ≤ k := by
  induction k generalizing n with
  | zero => omega
  | succ k ih =>
    rw [encodeSigned]
    split
    · simp
    · next big =>
      have more : k ≠ 0 := by
        rintro rfl
        simp at bound
        omega
      obtain ⟨j, rfl⟩ := Nat.exists_eq_succ_of_ne_zero more
      simp only [Nat.succ_eq_add_one, Nat.add_sub_cancel, pow_succ] at bound ih
      have rest := ih (n / 128) (by omega) (by constructor <;> omega)
      rw [List.length_cons]
      omega

/-! ## Every input -/

/-- An input starts with a number of at most `k` octets, or runs on for `k` of them, or ends
before. -/
theorem number_or_endless (bytes : List UInt8) (k : Nat) (positive : 0 < k) :
    (∃ octets rest, bytes = octets ++ rest ∧ IsNumber octets ∧ octets.length ≤ k) ∨
    (k ≤ bytes.length ∧ ∀ octet ∈ bytes.take k, continues octet = true) ∨
    (bytes.length < k ∧ ∀ octet ∈ bytes, continues octet = true) := by
  induction k generalizing bytes with
  | zero => omega
  | succ k ih =>
    cases bytes with
    | nil => exact .inr (.inr ⟨positive, by simp⟩)
    | cons octet tail =>
      cases more : continues octet with
      | false => exact .inl ⟨[octet], tail, rfl, more, by simp⟩
      | true =>
        rcases Nat.eq_zero_or_pos k with rfl | positive
        · exact .inr (.inl ⟨by simp, by simp [more]⟩)
        rcases ih tail positive with ⟨octets, rest, rfl, number, short⟩ | ⟨long, all⟩ |
          ⟨short, all⟩
        · exact .inl ⟨octet :: octets, rest, rfl, isNumber_cons more number, by simp; omega⟩
        · exact .inr (.inl ⟨by simp; omega, by simpa [more] using all⟩)
        · exact .inr (.inr ⟨by simp; omega, by simpa [more] using all⟩)

/-! ## Bounds -/

theorem unsigned_lt (octets : List UInt8) : unsigned octets < 128 ^ octets.length := by
  induction octets with
  | nil => simp [unsigned]
  | cons octet rest ih =>
    have low := group_lt octet
    rw [unsigned, List.length_cons, pow_succ]
    omega

/-- The signed value is the unsigned one, or that less one beyond its bits. -/
theorem signed_eq (octets : List UInt8) (last : UInt8) :
    signed (octets ++ [last]) = (unsigned (octets ++ [last]) : Int) -
      if 64 ≤ group last then 128 ^ (octets.length + 1) else 0 := by
  induction octets with
  | nil =>
    simp only [List.nil_append, signed, unsigned, List.length_nil]
    split <;> simp
  | cons octet rest ih =>
    have step : signed (octet :: (rest ++ [last])) =
        group octet + 128 * signed (rest ++ [last]) := by
      cases rest <;> rfl
    rw [List.cons_append, step, ih, unsigned, List.length_cons]
    split
    · push_cast
      ring
    · push_cast
      ring

end VelumOS.Base.Leb128
