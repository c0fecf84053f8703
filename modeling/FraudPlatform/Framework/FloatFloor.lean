import FraudPlatform.Framework.DoubleRounding
import Mathlib.Algebra.Order.Floor.Semiring
import Mathlib.Data.Nat.Size

namespace Framework.Ieee

namespace Format

variable {fmt : Format} {x : ℚ} {q : Nat}

/-- Where the values are a fraction of one apart, the floor changes only for an argument that is
rounded up to the next integer. -/
theorem floor_round_fine {N : Nat} (even : N % 2 = 0) (positive : 0 < N) (ulp : fmt.ulp x = 1 / N)
    (low : (q : ℚ) ≤ x) : ⌊fmt.round x⌋₊ = q ↔ x < q + 1 - 1 / (2 * N) := by
  have width : (0 : ℚ) < N := by exact_mod_cast positive
  have value : fmt.round x = roundHalfEven (x * N) / N := by
    rw [Format.round, ulp, div_div_eq_mul_div, div_one, mul_one_div]
  have least : ((q * N : Nat) : Int) ≤ roundHalfEven (x * N) := by
    apply le_roundHalfEven
    push_cast
    exact mul_le_mul_of_nonneg_right low width.le
  have reached : (q : ℚ) ≤ roundHalfEven (x * N) / N := by
    rw [le_div_iff₀ width]
    exact_mod_cast least
  have next : (roundHalfEven (x * N) : ℚ) / N < q + 1 ↔
      roundHalfEven (x * N) < (((q + 1) * N : Nat) : Int) := by
    rw [div_lt_iff₀ width]
    exact_mod_cast Iff.rfl
  have whole : ((((q + 1) * N : Nat) : Int)) % 2 = 0 := by
    have : (q + 1) * N % 2 = 0 := by rw [Nat.mul_mod, even, Nat.mul_zero]
    omega
  rw [value, Nat.floor_eq_iff (le_trans (Nat.cast_nonneg q) reached), and_iff_right reached, next,
    roundHalfEven_lt_iff whole]
  have scaled : (((((q + 1) * N : Nat) : Int) : ℚ)) - 1 / 2 = (q + 1 - 1 / (2 * N)) * N := by
    push_cast
    field_simp
  rw [scaled, mul_lt_mul_iff_left₀ width]

/-- Where they are one apart it is rounding to integers. -/
theorem floor_round_unit (ulp : fmt.ulp x = 1) (low : (q : ℚ) ≤ x) (high : x < q + 1) :
    ⌊fmt.round x⌋₊ = q ↔ x < q + 1 / 2 ∨ x = q + 1 / 2 ∧ q % 2 = 0 := by
  have value : fmt.round x = roundHalfEven x := by
    rw [Format.round, ulp, div_one, mul_one]
  have half := roundHalfEven_add_half q
  rw [value]
  rcases lt_trichotomy x (q + 1 / 2) with below | tie | above
  · have near := roundHalfEven_of_lt (q := x) (n := q) (by push_cast; linarith)
      (by push_cast; exact below)
    rw [near, Int.cast_natCast, Nat.floor_natCast]
    exact iff_of_true rfl (Or.inl below)
  · push_cast at half
    rw [tie, half]
    split_ifs with even
    · rw [Int.cast_natCast, Nat.floor_natCast]
      exact iff_of_true rfl (Or.inr ⟨rfl,by omega⟩)
    · have next : (((q : Int) + 1 : Int) : ℚ) = ((q + 1 : Nat) : ℚ) := by push_cast; rfl
      rw [next, Nat.floor_natCast]
      refine iff_of_false (by omega) ?_
      rintro (less | ⟨_, even'⟩)
      · exact lt_irrefl _ less
      · omega
  · have near := roundHalfEven_of_lt (q := x) (n := q + 1) (by push_cast; linarith)
      (by push_cast; linarith)
    have next : (((q : Int) + 1 : Int) : ℚ) = ((q + 1 : Nat) : ℚ) := by push_cast; rfl
    rw [near, next, Nat.floor_natCast]
    refine iff_of_false (by omega) ?_
    rintro (less | ⟨same, _⟩) <;> linarith

/-- Where they are further apart the floor has to be one of them. -/
theorem floor_round_coarse {S : Nat} (wide : 2 ≤ S) (ulp : fmt.ulp x = S) (low : (q : ℚ) ≤ x)
    (high : x < q + 1) : ⌊fmt.round x⌋₊ = q ↔ S ∣ q := by
  have width : (0 : ℚ) < S := by exact_mod_cast Nat.lt_of_lt_of_le Nat.two_pos wide
  have least : 0 ≤ roundHalfEven (x / S) := by
    apply le_roundHalfEven
    rw [Int.cast_zero]
    exact div_nonneg ((Nat.cast_nonneg q).trans low) width.le
  obtain ⟨r, hr⟩ := Int.eq_ofNat_of_zero_le least
  have value : fmt.round x = ((r * S : Nat) : ℚ) := by
    rw [Format.round, ulp, hr]
    push_cast
    rfl
  rw [value, Nat.floor_natCast]
  constructor
  · rintro rfl
    exact Nat.dvd_mul_left S r
  · intro found
    obtain ⟨j, rfl⟩ := found
    have two : (2 : ℚ) ≤ S := by exact_mod_cast wide
    push_cast at low high
    have near := roundHalfEven_of_lt (q := x / S) (n := j)
      (by rw [lt_div_iff₀ width, Int.cast_natCast]; linarith)
      (by rw [div_lt_iff₀ width, Int.cast_natCast]; linarith)
    have same : r = j := by omega
    rw [same, Nat.mul_comm]

end Format

/-- The double nearest to `p / m` has the floor of `p / m`: what is missing to the next integer is
more than half the distance of the doubles there, or the floor is a double itself where these are
more than one apart. -/
def FloorExact (p m : Nat) : Prop :=
  if (p / m).size ≤ 52 then m < (m - p % m) * 2 ^ (54 - (p / m).size)
  else if (p / m).size = 53 then 2 * (p % m) < m ∨ 2 * (p % m) = m ∧ p / m % 2 = 0
  else 2 ^ ((p / m).size - 53) ∣ p / m

instance (p m : Nat) : Decidable (FloorExact p m) := inferInstanceAs (Decidable (ite _ _ _))

section Quotient

variable {p m : Nat}

theorem quotient_eq (positive : 0 < m) : (p / m : ℚ) = (p / m : Nat) + (p % m : Nat) / (m : ℚ) := by
  have split : ((m * (p / m) + p % m : Nat) : ℚ) = p := by rw [Nat.div_add_mod]
  have nonzero : (m : ℚ) ≠ 0 := by exact_mod_cast positive.ne'
  push_cast at split
  field_simp
  linarith

theorem quotient_bounds (positive : 0 < m) :
    ((p / m : Nat) : ℚ) ≤ p / m ∧ (p / m : ℚ) < (p / m : Nat) + 1 := by
  have width : (0 : ℚ) < m := by exact_mod_cast positive
  have rest : ((p % m : Nat) : ℚ) / m < 1 := by
    rw [div_lt_one width]
    exact_mod_cast Nat.mod_lt p positive
  have nonneg : (0 : ℚ) ≤ ((p % m : Nat) : ℚ) / m := by positivity
  rw [quotient_eq positive]
  constructor <;> linarith

/-- The logarithm of a quotient from one up is that of its floor. -/
theorem log_quotient (positive : 0 < m) {b : Nat} (size : (p / m).size = b + 1) :
    Int.log 2 (p / m : ℚ) = b := by
  obtain ⟨low, high⟩ := quotient_bounds (p := p) positive
  have reached : 2 ^ b ≤ p / m := Nat.lt_size.mp (by omega)
  have below : p / m + 1 ≤ 2 ^ (b + 1) := Nat.size_le.mp (by omega)
  apply Format.log_of_bounds
  · have cast : ((2 ^ b : Nat) : ℚ) ≤ (p / m : Nat) := by exact_mod_cast reached
    rw [zpow_natCast]
    push_cast at cast
    exact cast.trans low
  · have cast : (((p / m : Nat) + 1 : Nat) : ℚ) ≤ ((2 ^ (b + 1) : Nat) : ℚ) := by exact_mod_cast below
    have exponent : (b : Int) + 1 = ((b + 1 : Nat) : Int) := by push_cast; rfl
    rw [exponent, zpow_natCast]
    push_cast at cast
    exact high.trans_le cast

theorem ulp_quotient (positive : 0 < m) {b : Nat} (size : (p / m).size = b + 1) :
    binary64.ulp (p / m) = 2 ^ ((b : Int) - 52) := by
  rw [Format.ulp, log_quotient positive size]
  congr 1
  simp only [binary64]
  omega

/-- How far a quotient stays below the next integer, in whole numbers. -/
theorem quotient_lt_iff (positive : 0 < m) {N : Nat} (some : 0 < N) :
    (p / m : ℚ) < (p / m : Nat) + 1 - 1 / (2 * N) ↔ m < (m - p % m) * (2 * N) := by
  have width : (0 : ℚ) < m := by exact_mod_cast positive
  have grid : (0 : ℚ) < N := by exact_mod_cast some
  have below : p % m ≤ m := (Nat.mod_lt p positive).le
  rw [quotient_eq positive, add_sub_assoc, add_lt_add_iff_left]
  have cleared : ((p % m : Nat) : ℚ) / m < 1 - 1 / (2 * N) ↔
      (m : ℚ) < ((m - p % m : Nat) : ℚ) * (2 * N) := by
    have gap : 1 - 1 / (2 * N : ℚ) - ((p % m : Nat) : ℚ) / m =
        (((m - p % m : Nat) : ℚ) * (2 * N) - m) / (m * (2 * N)) := by
      rw [Nat.cast_sub below]
      field_simp
      ring
    rw [← sub_pos, gap, div_pos_iff_of_pos_right (by positivity), sub_pos]
  rw [cleared]
  exact_mod_cast Iff.rfl

/-- Between zero and one the doubles are the finer the smaller they are, but only those next to one
are rounded up to it. -/
theorem floor_of_size_zero (positive : 0 < m) (some : 0 < p) (size : (p / m).size = 0) :
    ⌊binary64.round (p / m)⌋₊ = p / m ↔ m < (m - p % m) * 2 ^ 54 := by
  obtain ⟨low, high⟩ := quotient_bounds (p := p) positive
  have zero : p / m = 0 := Nat.size_eq_zero.mp size
  have value : (0 : ℚ) < p / m := by positivity
  have below : Int.log 2 (p / m : ℚ) < 0 := by
    rw [← Int.lt_zpow_iff_log_lt (by norm_num) value]
    simpa [zero] using high
  obtain ⟨d, hd⟩ := Int.eq_ofNat_of_zero_le
    (a := -max (Int.log 2 (p / m : ℚ) - 52) (-1074)) (by omega)
  have ulp : binary64.ulp (p / m) = 1 / ((2 ^ d : Nat) : ℚ) := by
    have exponent : max (Int.log 2 (p / m : ℚ) - 52) (-1074) = -(d : Int) := by omega
    have unfolded : binary64.ulp (p / m) = 2 ^ max (Int.log 2 (p / m : ℚ) - 52) (-1074) := rfl
    rw [unfolded, exponent, zpow_neg, zpow_natCast, one_div]
    push_cast
    rfl
  have even : 2 ^ d % 2 = 0 := by
    obtain ⟨j, rfl⟩ := Nat.exists_eq_add_of_le (show 1 ≤ d by omega)
    rw [Nat.pow_add, Nat.pow_one, Nat.mul_mod_right]
  have rest : p % m = p := Nat.mod_eq_of_lt ((Nat.div_eq_zero_iff_lt positive).mp zero)
  rw [Format.floor_round_fine even (Nat.two_pow_pos d) ulp low,
    quotient_lt_iff positive (Nat.two_pow_pos d), rest]
  by_cases half : 2 * p < m
  · have twice : m < (m - p) * 2 := by omega
    have grid : 2 ≤ 2 * 2 ^ d := Nat.le_mul_of_pos_right 2 (Nat.two_pow_pos d)
    exact iff_of_true (twice.trans_le (Nat.mul_le_mul_left _ grid))
      (twice.trans_le (Nat.mul_le_mul_left _ (by norm_num)))
  · have log : Int.log 2 (p / m : ℚ) = -1 := by
      apply Format.log_of_bounds
      · have cast : (m : ℚ) ≤ 2 * p := by exact_mod_cast not_lt.mp half
        have width : (0 : ℚ) < m := by exact_mod_cast positive
        rw [zpow_neg_one, le_div_iff₀ width]
        linarith
      · simpa [zero] using high
    obtain rfl : d = 53 := by omega
    exact Iff.rfl

theorem quotient_half (positive : 0 < m) :
    ((p / m : ℚ) < (p / m : Nat) + 1 / 2 ↔ 2 * (p % m) < m) ∧
      ((p / m : ℚ) = (p / m : Nat) + 1 / 2 ↔ 2 * (p % m) = m) := by
  have width : (0 : ℚ) < m := by exact_mod_cast positive
  rw [quotient_eq positive, add_lt_add_iff_left, add_right_inj, div_lt_iff₀ width,
    div_eq_iff width.ne', one_div_mul_eq_div, lt_div_iff₀ two_pos, eq_div_iff two_ne_zero, mul_comm]
  exact ⟨by exact_mod_cast Iff.rfl,by exact_mod_cast Iff.rfl⟩

/-- The floor of a floating quotient of positive integers. -/
theorem floor_round_iff (positive : 0 < m) (some : 0 < p) :
    ⌊binary64.round (p / m)⌋₊ = p / m ↔ FloorExact p m := by
  obtain ⟨low, high⟩ := quotient_bounds (p := p) positive
  unfold FloorExact
  cases size : (p / m).size with
  | zero =>
    rw [if_pos (by decide), floor_of_size_zero positive some size]
  | succ b =>
    have ulp := ulp_quotient positive size
    split_ifs with fine unit
    · have width : (2 : ℚ) ^ ((b : Int) - 52) = 1 / ((2 ^ (52 - b) : Nat) : ℚ) := by
        have exponent : (b : Int) - 52 = -((52 - b : Nat) : Int) := by omega
        rw [exponent, zpow_neg, zpow_natCast, one_div]
        push_cast
        rfl
      have even : 2 ^ (52 - b) % 2 = 0 := by
        obtain ⟨j, hj⟩ := Nat.exists_eq_add_of_le (show 1 ≤ 52 - b by omega)
        rw [hj, Nat.pow_add, Nat.pow_one, Nat.mul_mod_right]
      have double : 2 ^ (54 - (b + 1)) = 2 * 2 ^ (52 - b) := by
        rw [← Nat.pow_succ']
        congr 1
        omega
      rw [Format.floor_round_fine even (Nat.two_pow_pos _) (ulp.trans width) low,
        quotient_lt_iff positive (Nat.two_pow_pos _), double]
    · obtain rfl : b = 52 := by omega
      obtain ⟨less, equal⟩ := quotient_half (p := p) positive
      rw [Format.floor_round_unit (by rw [ulp]; norm_num) low high, less, equal]
    · have width : (2 : ℚ) ^ ((b : Int) - 52) = ((2 ^ (b + 1 - 53) : Nat) : ℚ) := by
        have exponent : (b : Int) - 52 = ((b + 1 - 53 : Nat) : Int) := by omega
        rw [exponent, zpow_natCast]
        push_cast
        rfl
      have wide : 2 ≤ 2 ^ (b + 1 - 53) := by
        obtain ⟨j, hj⟩ := Nat.exists_eq_add_of_le (show 1 ≤ b + 1 - 53 by omega)
        rw [hj, Nat.pow_add, Nat.pow_one]
        exact Nat.le_mul_of_pos_right 2 (Nat.two_pow_pos j)
      exact Format.floor_round_coarse wide (ulp.trans width) low high

end Quotient

section Scaled

variable {a b x k n : Nat}

/-- A value a little above `a / b` scales an integer to the floor and a little more of the rest. -/
theorem div_scaled (positive : 0 < b) (above : a * 2 ^ k ≤ x * b)
    (close : n * (x * b - a * 2 ^ k) < 2 ^ k) :
    n * x / 2 ^ k = n * a / b ∧
      b * (n * x % 2 ^ k) = n * a % b * 2 ^ k + n * (x * b - a * 2 ^ k) := by
  obtain ⟨e, he⟩ := Nat.exists_eq_add_of_le above
  rw [he, Nat.add_sub_cancel_left] at close ⊢
  have split : b * (n * x) = b * (n * a / b * 2 ^ k) + (n * a % b * 2 ^ k + n * e) := by
    have whole : b * (n * x) = n * a * 2 ^ k + n * e := by
      rw [Nat.mul_left_comm, Nat.mul_comm b x, he]
      ring
    rw [whole, ← Nat.add_assoc, ← Nat.mul_assoc, ← Nat.add_mul, Nat.div_add_mod]
  have next : (n * a % b + 1) * 2 ^ k ≤ b * 2 ^ k :=
    Nat.mul_le_mul_right _ (Nat.mod_lt (n * a) positive)
  rw [Nat.add_mul, Nat.one_mul] at next
  have quotient : n * x / 2 ^ k = n * a / b := by
    apply Nat.div_eq_of_lt_le
    · apply Nat.le_of_mul_le_mul_left _ positive
      rw [split]
      exact Nat.le_add_right _ _
    · apply Nat.lt_of_mul_lt_mul_left (a := b)
      rw [split, Nat.add_mul, Nat.one_mul, Nat.mul_add]
      omega
  refine ⟨quotient,?_⟩
  have parts := congrArg (b * ·) (Nat.div_add_mod (n * x) (2 ^ k))
  simp only [quotient, Nat.mul_add, split] at parts
  rw [Nat.mul_comm (2 ^ k)] at parts
  exact Nat.add_left_cancel parts

/-- `int(n * fraction)` in doubles, for a fraction below one whose double lies above it. -/
theorem floor_round_scaled (double : binary64.round (a / b : ℚ) = x / 2 ^ k) (below : a < b)
    (above : a * 2 ^ k ≤ x * b) (small : n ≤ 2 ^ 50)
    (close : b * 2 ^ k < (2 ^ k - n * (x * b - a * 2 ^ k)) * 16) :
    ⌊binary64.round (n * binary64.round (a / b : ℚ))⌋₊ = n * a / b := by
  have positive : 0 < b := Nat.zero_lt_of_lt below
  have width : 0 < 2 ^ k := Nat.two_pow_pos k
  have value : (n * binary64.round (a / b : ℚ) : ℚ) = ((n * x : Nat) : ℚ) / ((2 ^ k : Nat) : ℚ) := by
    rw [double]
    push_cast
    ring
  obtain ⟨quotient, rest⟩ := div_scaled (n := n) positive above (by omega)
  rw [value, ← quotient]
  by_cases zero : n * x = 0
  · have none : binary64.round ((0 : Nat) : ℚ) = (0 : Nat) :=
      Format.round_natCast (by decide) (by decide) (Nat.zero_le _)
    rw [Nat.cast_zero] at none
    rw [zero, Nat.zero_div, Nat.cast_zero, zero_div, none, Nat.floor_zero]
  · have size : (n * a / b).size ≤ 50 := by
      rw [Nat.size_le, Nat.div_lt_iff_lt_mul positive]
      calc n * a ≤ 2 ^ 50 * a := Nat.mul_le_mul_right a small
        _ < 2 ^ 50 * b := Nat.mul_lt_mul_of_pos_left below (by norm_num)
    have digits : 2 ^ 4 ≤ 2 ^ (54 - (n * a / b).size) :=
      Nat.pow_le_pow_right (by decide) (by omega)
    have next : (n * a % b + 1) * 2 ^ k ≤ b * 2 ^ k :=
      Nat.mul_le_mul_right _ (Nat.mod_lt (n * a) positive)
    have missing : 2 ^ k - n * (x * b - a * 2 ^ k) ≤ b * (2 ^ k - n * x % 2 ^ k) := by
      rw [Nat.mul_sub b, rest]
      rw [Nat.add_mul, Nat.one_mul] at next
      omega
    rw [floor_round_iff width (Nat.pos_of_ne_zero zero), FloorExact, quotient, if_pos (by omega)]
    apply Nat.lt_of_mul_lt_mul_left (a := b)
    calc b * 2 ^ k < (2 ^ k - n * (x * b - a * 2 ^ k)) * 16 := close
      _ ≤ b * (2 ^ k - n * x % 2 ^ k) * 16 := Nat.mul_le_mul_right 16 missing
      _ ≤ b * (2 ^ k - n * x % 2 ^ k) * 2 ^ (54 - (n * a / b).size) := Nat.mul_le_mul_left _ digits
      _ = b * ((2 ^ k - n * x % 2 ^ k) * 2 ^ (54 - (n * a / b).size)) := Nat.mul_assoc _ _ _

end Scaled

end Framework.Ieee
