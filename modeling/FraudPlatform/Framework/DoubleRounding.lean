import FraudPlatform.Framework.Ieee
import Mathlib.Algebra.Order.Floor.Ring
import Mathlib.Tactic.FieldSimp
import Mathlib.Tactic.Positivity

namespace Framework.Ieee

theorem roundHalfEven_of_lt {q : ℚ} {n : Int} (low : (n : ℚ) - 1 / 2 < q) (high : q < n + 1 / 2) :
    roundHalfEven q = n := by
  rcases le_or_gt (n : ℚ) q with above | below
  · have floor : ⌊q⌋ = n := Int.floor_eq_iff.mpr ⟨above,by linarith⟩
    rw [roundHalfEven, floor, if_pos (by linarith)]
  · have floor : ⌊q⌋ = n - 1 := Int.floor_eq_iff.mpr ⟨by push_cast; linarith,by push_cast; linarith⟩
    rw [roundHalfEven, floor]
    push_cast
    rw [if_neg (by linarith), if_pos (by linarith), sub_add_cancel]

theorem roundHalfEven_add_half (k : Int) :
    roundHalfEven (k + 1 / 2) = if k % 2 = 0 then k else k + 1 := by
  have floor : ⌊(k : ℚ) + 1 / 2⌋ = k := Int.floor_eq_iff.mpr ⟨by linarith,by linarith⟩
  rw [roundHalfEven, floor, if_neg (by linarith), if_neg (by linarith)]

theorem roundHalfEven_bounds (q : ℚ) : q - 1 / 2 ≤ roundHalfEven q ∧ roundHalfEven q ≤ q + 1 / 2 := by
  have low := Int.floor_le q
  have high := Int.lt_floor_add_one q
  unfold roundHalfEven
  split_ifs <;> push_cast <;> constructor <;> linarith

theorem le_roundHalfEven {q : ℚ} {n : Int} (h : n ≤ q) : n ≤ roundHalfEven q := by
  have bound := (roundHalfEven_bounds q).1
  have close : (n : ℚ) < roundHalfEven q + 1 := by linarith
  have : n < roundHalfEven q + 1 := by exact_mod_cast close
  omega

theorem roundHalfEven_le {q : ℚ} {n : Int} (h : q ≤ n) : roundHalfEven q ≤ n := by
  have bound := (roundHalfEven_bounds q).2
  have close : (roundHalfEven q : ℚ) < n + 1 := by linarith
  have : roundHalfEven q < n + 1 := by exact_mod_cast close
  omega

/-- Rounding does not pass an integer that is a value of the format. -/
theorem Format.round_le_natCast {fmt : Format} (subnormal : fmt.minExponent ≤ 0)
    (some : 1 ≤ fmt.precision) {n : Nat} (hn : n < 2 ^ fmt.precision) {q : ℚ} (h : q ≤ n) :
    fmt.round q ≤ n := by
  have log : Int.log 2 q < fmt.precision := by
    rcases le_or_gt q 0 with none | positive
    · rw [Int.log_of_right_le_zero 2 none]
      omega
    · apply (Int.lt_zpow_iff_log_lt one_lt_two positive).mp
      have cast : (n : ℚ) < 2 ^ fmt.precision := by exact_mod_cast hn
      rw [zpow_natCast]
      exact h.trans_lt cast
  obtain ⟨j, hj⟩ := Int.eq_ofNat_of_zero_le (a := -max (Int.log 2 q - (fmt.precision - 1))
    fmt.minExponent) (by omega)
  have ulp : fmt.ulp q = (2 ^ j)⁻¹ := by
    rw [Format.ulp, ← neg_neg (max _ _), hj, zpow_neg, zpow_natCast]
  have pos : (0 : ℚ) < 2 ^ j := pow_pos two_pos j
  have multiple : q / fmt.ulp q ≤ ((n * 2 ^ j : Nat) : Int) := by
    rw [ulp, div_inv_eq_mul]
    push_cast
    exact mul_le_mul_of_nonneg_right h pos.le
  have rounded : (roundHalfEven (q / fmt.ulp q) : ℚ) ≤ n * 2 ^ j := by
    exact_mod_cast roundHalfEven_le multiple
  rw [Format.round]
  nth_rewrite 2 [ulp]
  calc (roundHalfEven (q / fmt.ulp q) : ℚ) * (2 ^ j)⁻¹ ≤ n * 2 ^ j * (2 ^ j)⁻¹ :=
        mul_le_mul_of_nonneg_right rounded (inv_nonneg.mpr pos.le)
    _ = n := mul_inv_cancel_right₀ pos.ne' (n : ℚ)

/-- An even integer is the rounding of all that is at most a half away. -/
theorem roundHalfEven_of_even {q : ℚ} {n : Int} (even : n % 2 = 0) (low : (n : ℚ) - 1 / 2 ≤ q)
    (high : q ≤ n + 1 / 2) : roundHalfEven q = n := by
  rcases low.lt_or_eq with low | low
  · rcases high.lt_or_eq with high | high
    · exact roundHalfEven_of_lt low high
    · rw [high, roundHalfEven_add_half, if_pos even]
  · have half : q = ((n - 1 : Int) : ℚ) + 1 / 2 := by push_cast; linarith
    rw [half, roundHalfEven_add_half, if_neg (by omega), sub_add_cancel]

theorem roundHalfEven_lt_iff {q : ℚ} {n : Int} (even : n % 2 = 0) :
    roundHalfEven q < n ↔ q < n - 1 / 2 := by
  constructor
  · intro h
    by_contra near
    rw [not_lt] at near
    have reached : n ≤ roundHalfEven q := by
      rcases le_or_gt (n : ℚ) q with above | below
      · exact le_roundHalfEven above
      · exact (roundHalfEven_of_even even near (by linarith)).ge
    omega
  · intro h
    have bound := (roundHalfEven_bounds q).2
    have less : (roundHalfEven q : ℚ) < n := by linarith
    exact_mod_cast less

/-- The first rounding ends halfway between two integers, and the even one is on the other side. -/
def Halfway (x y : ℚ) : Prop :=
  ∃ k : Int, y = k + 1 / 2 ∧ (k % 2 = 0 ∧ y < x ∨ k % 2 = 1 ∧ x < y)

/-- Less than a half away from one integer both values round to it. -/
theorem round_eq_of_inside {x y : ℚ} {n : Int} (left : (n : ℚ) - 1 / 2 < y)
    (right : y < n + 1 / 2) (low : (n : ℚ) - 1 / 2 < x) (high : x < n + 1 / 2) :
    roundHalfEven y = roundHalfEven x ∧ ¬Halfway x y := by
  refine ⟨(roundHalfEven_of_lt left right).trans (roundHalfEven_of_lt low high).symm,?_⟩
  rintro ⟨i, hi, _⟩
  have above : (n : ℚ) < i + 1 := by linarith
  have under : (i : ℚ) < n := by linarith
  have : n < i + 1 := by exact_mod_cast above
  have : i < n := by exact_mod_cast under
  omega

/-- The first rounding puts `x` at the step `t` of the `2 * half` steps after `k`. -/
structure Grid (x y : ℚ) (k t : Int) (half : Nat) : Prop where
  positive : 0 < half
  offset : 0 ≤ t ∧ t < 2 * half
  place : (y - k) * (2 * half) = t
  near : (t : ℚ) - 1 / 2 ≤ (x - k) * (2 * half) ∧ (x - k) * (2 * half) ≤ t + 1 / 2

theorem grid_roundHalfEven (x : ℚ) {half : Nat} (positive : 0 < half) :
    ∃ k t, Grid x ((roundHalfEven (x * (2 * half)) : ℚ) / (2 * half)) k t half := by
  have width : (0 : ℚ) < 2 * half := by positivity
  have bounds := roundHalfEven_bounds (x * (2 * half))
  have parts := Int.emod_add_mul_ediv (roundHalfEven (x * (2 * half))) (2 * half)
  have cast : (roundHalfEven (x * (2 * half)) : ℚ) =
      (roundHalfEven (x * (2 * half)) % (2 * half) : Int) +
        2 * half * (roundHalfEven (x * (2 * half)) / (2 * half) : Int) := by
    exact_mod_cast parts.symm
  refine ⟨roundHalfEven (x * (2 * half)) / (2 * half),roundHalfEven (x * (2 * half)) % (2 * half),
    positive,⟨Int.emod_nonneg _ (by omega),Int.emod_lt_of_pos _ (by omega)⟩,?_,?_⟩
  · rw [sub_mul, div_mul_cancel₀ _ width.ne']
    linarith
  · constructor <;> linarith

namespace Grid

variable {x y c : ℚ} {k t : Int} {half : Nat}

theorem width_pos (g : Grid x y k t half) : (0 : ℚ) < 2 * half := by
  have positive := g.positive
  positivity

theorem y_lt_iff (g : Grid x y k t half) : y < k + c ↔ (t : ℚ) < c * (2 * half) := by
  rw [← g.place, mul_lt_mul_iff_left₀ g.width_pos, sub_lt_iff_lt_add']

theorem lt_y_iff (g : Grid x y k t half) : k + c < y ↔ c * (2 * half) < (t : ℚ) := by
  rw [← g.place, mul_lt_mul_iff_left₀ g.width_pos, lt_sub_iff_add_lt']

theorem x_lt (g : Grid x y k t half) (h : (t : ℚ) + 1 / 2 < c * (2 * half)) : x < k + c := by
  have less := g.near.2.trans_lt h
  rwa [mul_lt_mul_iff_left₀ g.width_pos, sub_lt_iff_lt_add'] at less

theorem lt_x (g : Grid x y k t half) (h : c * (2 * half) < (t : ℚ) - 1 / 2) : k + c < x := by
  have more := h.trans_le g.near.1
  rwa [mul_lt_mul_iff_left₀ g.width_pos, lt_sub_iff_add_lt'] at more

theorem below (g : Grid x y k t half) (h : t < half) :
    roundHalfEven y = roundHalfEven x ∧ ¬Halfway x y := by
  have one : (1 : ℚ) ≤ half := by exact_mod_cast g.positive
  have first : (0 : ℚ) ≤ t := by exact_mod_cast g.offset.1
  have last : (t : ℚ) + 1 ≤ half := by exact_mod_cast h
  apply round_eq_of_inside (n := k)
  · rw [sub_eq_add_neg, g.lt_y_iff]
    linarith
  · rw [g.y_lt_iff]
    linarith
  · rw [sub_eq_add_neg]
    exact g.lt_x (by linarith)
  · exact g.x_lt (by linarith)

theorem above (g : Grid x y k t half) (h : half < t) :
    roundHalfEven y = roundHalfEven x ∧ ¬Halfway x y := by
  have first : (half : ℚ) + 1 ≤ t := by exact_mod_cast h
  have last : (t : ℚ) + 1 ≤ 2 * half := by exact_mod_cast g.offset.2
  have start : ((k + 1 : Int) : ℚ) - 1 / 2 = k + 1 / 2 := by
    push_cast
    ring
  have stop : ((k + 1 : Int) : ℚ) + 1 / 2 = k + 3 / 2 := by
    push_cast
    ring
  apply round_eq_of_inside (n := k + 1)
  · rw [start, g.lt_y_iff]
    linarith
  · rw [stop, g.y_lt_iff]
    linarith
  · rw [start]
    exact g.lt_x (by linarith)
  · rw [stop]
    exact g.x_lt (by linarith)

/-- At the half itself the side decides how the value rounds. -/
theorem at_half (g : Grid x y k t half) (h : t = half) :
    roundHalfEven y = roundHalfEven x ↔ ¬Halfway x y := by
  have one : (1 : ℚ) ≤ half := by exact_mod_cast g.positive
  have cast : (t : ℚ) = half := by exact_mod_cast h
  have hy : y = k + 1 / 2 := by
    apply le_antisymm
    · rw [← not_lt, g.lt_y_iff]
      linarith
    · rw [← not_lt, g.y_lt_iff]
      linarith
  have halfway : Halfway x y ↔ k % 2 = 0 ∧ y < x ∨ k % 2 = 1 ∧ x < y := by
    refine ⟨?_,fun side => ⟨k,hy,side⟩⟩
    rintro ⟨i, hi, side⟩
    have same : (i : ℚ) = k := by linarith
    rwa [Int.cast_injective same] at side
  have tie : roundHalfEven y = if k % 2 = 0 then k else k + 1 := by
    rw [hy]
    exact roundHalfEven_add_half k
  rw [halfway, tie]
  rcases lt_trichotomy x y with less | equal | more
  · have rounded : roundHalfEven x = k := by
      apply roundHalfEven_of_lt
      · rw [sub_eq_add_neg]
        exact g.lt_x (by linarith)
      · exact hy ▸ less
    rw [rounded]
    split_ifs <;> simp [less, less.not_gt] <;> omega
  · rw [equal, tie]
    simp
  · have rounded : roundHalfEven x = k + 1 := by
      apply roundHalfEven_of_lt
      · push_cast
        linarith
      · have limit : x < k + 3 / 2 := g.x_lt (by linarith)
        push_cast
        linarith
    rw [rounded]
    split_ifs <;> simp [more, more.not_gt] <;> omega

end Grid

/-- Rounding to the multiples of an even fraction first changes the rounding only there. -/
theorem roundHalfEven_twice_iff (x : ℚ) {half : Nat} (positive : 0 < half) :
    roundHalfEven ((roundHalfEven (x * (2 * half)) : ℚ) / (2 * half)) = roundHalfEven x ↔
      ¬Halfway x ((roundHalfEven (x * (2 * half)) : ℚ) / (2 * half)) := by
  obtain ⟨k, t, grid⟩ := grid_roundHalfEven x positive
  rcases lt_trichotomy t half with less | equal | more
  · obtain ⟨same, side⟩ := grid.below less
    exact iff_of_true same side
  · exact grid.at_half equal
  · obtain ⟨same, side⟩ := grid.above more
    exact iff_of_true same side

namespace Format

variable {fmt narrow wide : Format} {q : ℚ} {e : Int}

/-- From `2 ^ e` up the values are this far apart, unless that is too little for the format. -/
def step (fmt : Format) (e : Int) : ℚ := 2 ^ (e - (fmt.precision - 1))

/-- The values from `2 ^ e` up have all their bits. -/
def Normal (fmt : Format) (e : Int) : Prop :=
  1 ≤ fmt.precision ∧ fmt.minExponent ≤ e - (fmt.precision - 1)

theorem step_pos (fmt : Format) (e : Int) : 0 < fmt.step e := zpow_pos (by norm_num) _

theorem ulp_of_log (normal : fmt.Normal e) (log : Int.log 2 q = e) : fmt.ulp q = fmt.step e := by
  rw [ulp, log, max_eq_left normal.2, step]

theorem pow_mul_step (normal : fmt.Normal e) :
    ((2 ^ (fmt.precision - 1) : Int) : ℚ) * fmt.step e = 2 ^ e := by
  push_cast
  rw [step, ← zpow_natCast, ← zpow_add₀ two_ne_zero, Nat.cast_sub normal.1]
  congr 1
  push_cast
  ring

theorem log_of_bounds (low : 2 ^ e ≤ q) (high : q < 2 ^ (e + 1)) : Int.log 2 q = e := by
  have positive : 0 < q := lt_of_lt_of_le (zpow_pos (by norm_num) e) low
  apply le_antisymm
  · have below : Int.log 2 q < e + 1 := by
      rw [← Int.lt_zpow_iff_log_lt (by norm_num) positive]
      exact_mod_cast high
    omega
  · rw [← Int.zpow_le_iff_le_log (by norm_num) positive]
    exact_mod_cast low

/-- The rounding between two powers of two, both of them included. -/
theorem round_of_bounds (normal : fmt.Normal e) (low : 2 ^ e ≤ q) (high : q ≤ 2 ^ (e + 1)) :
    fmt.round q = roundHalfEven (q / fmt.step e) * fmt.step e := by
  rcases high.lt_or_eq with below | top
  · rw [round, ulp_of_log normal (log_of_bounds low below)]
  · have log : Int.log 2 q = e + 1 := by
      apply log_of_bounds top.ge
      rw [top]
      exact zpow_lt_zpow_right₀ (by norm_num) (by omega)
    have next : fmt.Normal (e + 1) := ⟨normal.1,by have := normal.2; omega⟩
    have multiple := pow_mul_step normal
    have double : q = ((2 ^ (fmt.precision - 1) * 2 : Int) : ℚ) * fmt.step e := by
      push_cast at multiple ⊢
      rw [top, zpow_add_one₀ two_ne_zero, ← multiple]
      ring
    have quotient : q / fmt.step e = ((2 ^ (fmt.precision - 1) * 2 : Int) : ℚ) := by
      rw [div_eq_iff (fmt.step_pos e).ne']
      exact double
    rw [quotient, roundHalfEven_intCast, ← double]
    apply round_of_multiple (n := 2 ^ (fmt.precision - 1))
    rw [ulp_of_log next log, pow_mul_step next, top]

theorem round_mem (normal : fmt.Normal e) (low : 2 ^ e ≤ q) (high : q ≤ 2 ^ (e + 1)) :
    2 ^ e ≤ fmt.round q ∧ fmt.round q ≤ 2 ^ (e + 1) := by
  have positive := fmt.step_pos e
  have multiple := pow_mul_step normal
  have double : ((2 ^ (fmt.precision - 1) * 2 : Int) : ℚ) * fmt.step e = 2 ^ (e + 1) := by
    push_cast at multiple ⊢
    rw [zpow_add_one₀ two_ne_zero, ← multiple]
    ring
  rw [round_of_bounds normal low high]
  constructor
  · have least : (2 ^ (fmt.precision - 1) : Int) ≤ roundHalfEven (q / fmt.step e) := by
      apply le_roundHalfEven
      rw [le_div_iff₀ positive, multiple]
      exact low
    rw [← multiple]
    exact mul_le_mul_of_nonneg_right (by exact_mod_cast least) positive.le
  · have most : roundHalfEven (q / fmt.step e) ≤ 2 ^ (fmt.precision - 1) * 2 := by
      apply roundHalfEven_le
      rw [div_le_iff₀ positive, double]
      exact high
    rw [← double]
    exact mul_le_mul_of_nonneg_right (by exact_mod_cast most) positive.le

/-- Rounding to a wider format first changes the rounding only where it ends halfway. -/
theorem round_round_iff (narrowNormal : narrow.Normal e) (wideNormal : wide.Normal e) (gap : Nat)
    (wider : wide.precision = narrow.precision + (gap + 1)) (low : 2 ^ e ≤ q)
    (high : q ≤ 2 ^ (e + 1)) :
    narrow.round (wide.round q) = narrow.round q ↔
      ¬Halfway (q / narrow.step e) (wide.round q / narrow.step e) := by
  have positive := narrow.step_pos e
  obtain ⟨wideLow, wideHigh⟩ := round_mem wideNormal low high
  have finer : narrow.step e = wide.step e * (2 * (2 ^ gap : Nat)) := by
    have two : (2 : ℚ) * (2 ^ gap : Nat) = 2 ^ ((gap : Int) + 1) := by
      push_cast
      rw [zpow_add_one₀ two_ne_zero, zpow_natCast, mul_comm]
    rw [two, step, step, ← zpow_add₀ two_ne_zero, wider]
    congr 1
    push_cast
    ring
  have first : wide.round q / narrow.step e =
      (roundHalfEven (q / narrow.step e * (2 * (2 ^ gap : Nat))) : ℚ) / (2 * (2 ^ gap : Nat)) := by
    have widePositive := wide.step_pos e
    have width : (2 : ℚ) * (2 ^ gap : Nat) ≠ 0 := by positivity
    have inner : q / narrow.step e * (2 * (2 ^ gap : Nat)) = q / wide.step e := by
      rw [finer]
      field_simp
    rw [inner, round_of_bounds wideNormal low high, finer]
    field_simp
  rw [round_of_bounds narrowNormal wideLow wideHigh, round_of_bounds narrowNormal low high,
    mul_left_inj' positive.ne', Int.cast_inj, first]
  exact roundHalfEven_twice_iff _ (by positivity)

/-- The least value that is rounded beyond the format lies half a step before the power of two. -/
theorem round_lt_iff (normal : fmt.Normal e) (low : 2 ^ e ≤ q) (high : q < 2 ^ (e + 1))
    (top : fmt.Normal (fmt.maxExponent - 1)) :
    fmt.round q < 2 ^ fmt.maxExponent ↔
      q < 2 ^ fmt.maxExponent - fmt.step (fmt.maxExponent - 1) / 2 := by
  have positive := fmt.step_pos (fmt.maxExponent - 1)
  have multiple := pow_mul_step top
  have double : ((2 ^ (fmt.precision - 1) * 2 : Int) : ℚ) * fmt.step (fmt.maxExponent - 1) =
      2 ^ fmt.maxExponent := by
    push_cast at multiple ⊢
    rw [← sub_add_cancel fmt.maxExponent 1, zpow_add_one₀ two_ne_zero, ← multiple,
      sub_add_cancel]
    ring
  have narrow : fmt.step (fmt.maxExponent - 1) ≤ 2 ^ (fmt.maxExponent - 1) := by
    have one : (1 : ℚ) ≤ ((2 ^ (fmt.precision - 1) : Int) : ℚ) := by
      push_cast
      exact one_le_pow₀ (by norm_num)
    rw [← multiple]
    nlinarith
  have half : (2 : ℚ) ^ fmt.maxExponent = 2 ^ (fmt.maxExponent - 1) * 2 := by
    rw [← zpow_add_one₀ two_ne_zero, sub_add_cancel]
  obtain ⟨roundLow, roundHigh⟩ := round_mem normal low high.le
  rcases lt_trichotomy e (fmt.maxExponent - 1) with less | equal | more
  · have small : (2 : ℚ) ^ (e + 1) ≤ 2 ^ (fmt.maxExponent - 1) :=
      zpow_le_zpow_right₀ (by norm_num) (by omega)
    have power := zpow_pos (two_pos (α := ℚ)) (fmt.maxExponent - 1)
    exact iff_of_true (by linarith) (by linarith)
  · subst equal
    rw [round_of_bounds normal low high.le]
    nth_rewrite 1 [← double]
    rw [mul_lt_mul_iff_left₀ positive, Int.cast_lt, roundHalfEven_lt_iff (by omega),
      div_lt_iff₀ positive, sub_mul, double]
    constructor <;> intro h <;> linarith
  · have large : (2 : ℚ) ^ fmt.maxExponent ≤ 2 ^ e := zpow_le_zpow_right₀ (by norm_num) (by omega)
    exact iff_of_false (by linarith) (by linarith)

theorem ofRat_eq_iff {negative : Bool} {a b : ℚ} :
    fmt.ofRat negative a = fmt.ofRat negative b ↔
      fmt.round a = fmt.round b ∨
        2 ^ fmt.maxExponent ≤ fmt.round a ∧ 2 ^ fmt.maxExponent ≤ fmt.round b := by
  unfold ofRat
  by_cases ha : fmt.round a < 2 ^ fmt.maxExponent
  · by_cases hb : fmt.round b < 2 ^ fmt.maxExponent
    · rw [if_pos ha, if_pos hb, Datum.finite.injEq]
      constructor
      · rintro ⟨_, same⟩
        exact Or.inl same
      · rintro (same | ⟨large, _⟩)
        · exact ⟨rfl,same⟩
        · exact absurd ha large.not_gt
    · rw [if_pos ha, if_neg hb]
      refine iff_of_false (by simp) ?_
      rintro (same | ⟨large, _⟩)
      · exact hb (same ▸ ha)
      · exact absurd ha large.not_gt
  · by_cases hb : fmt.round b < 2 ^ fmt.maxExponent
    · rw [if_neg ha, if_pos hb]
      refine iff_of_false (by simp) ?_
      rintro (same | ⟨_, large⟩)
      · exact ha (same ▸ hb)
      · exact absurd hb large.not_gt
    · rw [if_neg ha, if_neg hb]
      exact iff_of_true rfl (Or.inr ⟨not_lt.mp ha,not_lt.mp hb⟩)

end Format

section Integers

/-- The rounding to a double ends halfway between two values of 32 bits, and the even one of these
lies on the other side: `m` is a little above or below an odd multiple of the half distance. -/
def Misrounded (m : Nat) : Prop :=
  m < 2 ^ 128 ∧ ∃ j d, 0 < d ∧ 2 * d ≤ 2 ^ (Nat.log 2 m - 52) ∧
    (m = (4 * j + 1) * 2 ^ (Nat.log 2 m - 24) + d ∨ m + d = (4 * j + 3) * 2 ^ (Nat.log 2 m - 24))

theorem normal_binary32 {e : Int} (h : 0 ≤ e) : binary32.Normal e :=
  ⟨by decide,by simp only [binary32]; omega⟩

theorem normal_binary64 {e : Int} (h : 0 ≤ e) : binary64.Normal e :=
  ⟨by decide,by simp only [binary64]; omega⟩

theorem step_binary32 (a : Nat) : binary32.step (a + 53) = 2 * ((2 ^ 28 * 2 ^ (a + 1) : Nat) : ℚ) := by
  have exponent : ((a : Int) + 53 - ((24 : Nat) - 1)) = ((a + 30 : Nat) : Int) := by push_cast; ring
  rw [Format.step, binary32, exponent, zpow_natCast]
  push_cast
  ring

theorem step_binary64 (a : Nat) : binary64.step (a + 53) = ((2 ^ (a + 1) : Nat) : ℚ) := by
  have exponent : ((a : Int) + 53 - ((53 : Nat) - 1)) = ((a + 1 : Nat) : Int) := by push_cast; ring
  rw [Format.step, binary64, exponent, zpow_natCast]
  push_cast
  ring

theorem natCast_bounds {m e : Nat} (log : Nat.log 2 m = e) (positive : m ≠ 0) :
    (2 : ℚ) ^ (e : Int) ≤ m ∧ (m : ℚ) < 2 ^ ((e : Int) + 1) := by
  have low := Nat.pow_log_le_self 2 positive
  have high := Nat.lt_pow_succ_log_self (b := 2) (by decide) m
  rw [log] at low high
  have exponent : (e : Int) + 1 = ((e + 1 : Nat) : Int) := by push_cast; rfl
  rw [exponent, zpow_natCast, zpow_natCast]
  exact ⟨by exact_mod_cast low,by exact_mod_cast high⟩

/-- The multiples a double above `2 ^ 53` is rounded to. -/
theorem round_binary64 {m a : Nat} (log : Nat.log 2 m = a + 53) :
    ∃ r : Nat, binary64.round m = ((r * 2 ^ (a + 1) : Nat) : ℚ) ∧
      2 * m ≤ 2 * (r * 2 ^ (a + 1)) + 2 ^ (a + 1) ∧
      2 * (r * 2 ^ (a + 1)) ≤ 2 * m + 2 ^ (a + 1) ∧
      ∀ n : Nat, n % 2 = 0 → 2 * m ≤ 2 * (n * 2 ^ (a + 1)) + 2 ^ (a + 1) →
        2 * (n * 2 ^ (a + 1)) ≤ 2 * m + 2 ^ (a + 1) → r = n := by
  have positive : m ≠ 0 := by
    rintro rfl
    simp at log
  have bounds := natCast_bounds log positive
  push_cast at bounds
  have rounded := Format.round_of_bounds (normal_binary64 (e := a + 53) (by omega)) bounds.1
    bounds.2.le
  rw [step_binary64] at rounded
  have width : (0 : ℚ) < ((2 ^ (a + 1) : Nat) : ℚ) := by positivity
  have least : 0 ≤ roundHalfEven ((m : ℚ) / ((2 ^ (a + 1) : Nat) : ℚ)) :=
    le_roundHalfEven (by push_cast; positivity)
  obtain ⟨r, hr⟩ := Int.eq_ofNat_of_zero_le least
  have near := roundHalfEven_bounds ((m : ℚ) / ((2 ^ (a + 1) : Nat) : ℚ))
  rw [hr, Int.cast_natCast, sub_le_iff_le_add, div_le_iff₀ width] at near
  have near₂ := near.2
  rw [← sub_le_iff_le_add, le_div_iff₀ width] at near₂
  refine ⟨r,by rw [rounded, hr]; push_cast; rfl,?_,?_,?_⟩
  · have : (2 : ℚ) * m ≤ 2 * (r * (2 ^ (a + 1) : Nat)) + (2 ^ (a + 1) : Nat) := by linarith [near.1]
    exact_mod_cast this
  · have : (2 : ℚ) * (r * (2 ^ (a + 1) : Nat)) ≤ 2 * m + (2 ^ (a + 1) : Nat) := by linarith
    exact_mod_cast this
  · intro n even low high
    have castLow : (2 : ℚ) * m ≤ 2 * (n * (2 ^ (a + 1) : Nat)) + (2 ^ (a + 1) : Nat) := by
      exact_mod_cast low
    have castHigh : (2 : ℚ) * (n * (2 ^ (a + 1) : Nat)) ≤ 2 * m + (2 ^ (a + 1) : Nat) := by
      exact_mod_cast high
    have same := roundHalfEven_of_even (q := (m : ℚ) / ((2 ^ (a + 1) : Nat) : ℚ)) (n := n)
      (by omega) (by rw [le_div_iff₀ width, Int.cast_natCast]; linarith)
      (by rw [div_le_iff₀ width, Int.cast_natCast]; linarith)
    omega

theorem halfway_iff {m a : Nat} (log : Nat.log 2 m = a + 53) :
    Halfway ((m : ℚ) / binary32.step (a + 53)) (binary64.round m / binary32.step (a + 53)) ↔
      ∃ j d, 0 < d ∧ 2 * d ≤ 2 ^ (a + 1) ∧
        (m = (4 * j + 1) * (2 ^ 28 * 2 ^ (a + 1)) + d ∨
          m + d = (4 * j + 3) * (2 ^ 28 * 2 ^ (a + 1))) := by
  obtain ⟨r, rounded, low, high, unique⟩ := round_binary64 log
  have width : (0 : ℚ) < 2 * ((2 ^ 28 * 2 ^ (a + 1) : Nat) : ℚ) := by positivity
  have half (k : Int) : binary64.round m / binary32.step (a + 53) = k + 1 / 2 ↔
      (r : Int) = (2 * k + 1) * 2 ^ 28 := by
    have unit : ((2 ^ (a + 1) : Nat) : ℚ) ≠ 0 := by positivity
    have product : ((k : ℚ) + 1 / 2) * (2 * ((2 ^ 28 * 2 ^ (a + 1) : Nat) : ℚ)) =
        (((2 * k + 1) * 2 ^ 28 : Int) : ℚ) * ((2 ^ (a + 1) : Nat) : ℚ) := by
      push_cast
      ring
    rw [rounded, step_binary32, div_eq_iff width.ne', product, Nat.cast_mul, mul_left_inj' unit,
      ← Int.cast_natCast r, Int.cast_inj]
  have side : (binary64.round m / binary32.step (a + 53) < (m : ℚ) / binary32.step (a + 53) ↔
        r * 2 ^ (a + 1) < m) ∧
      ((m : ℚ) / binary32.step (a + 53) < binary64.round m / binary32.step (a + 53) ↔
        m < r * 2 ^ (a + 1)) := by
    rw [rounded, step_binary32, div_lt_div_iff_of_pos_right width,
      div_lt_div_iff_of_pos_right width, Nat.cast_lt, Nat.cast_lt]
    exact ⟨Iff.rfl,Iff.rfl⟩
  have product (j c : Nat) (hr : r = (4 * j + c) * 2 ^ 28) :
      (4 * j + c) * (2 ^ 28 * 2 ^ (a + 1)) = r * 2 ^ (a + 1) := by rw [hr, Nat.mul_assoc]
  simp only [Halfway, half, side]
  constructor
  · rintro ⟨k, hr, ⟨even, less⟩ | ⟨odd, more⟩⟩
    · obtain ⟨j, rfl⟩ : ∃ j : Nat, k = 2 * j := ⟨(k / 2).toNat,by omega⟩
      have place := product j 1 (by omega)
      exact ⟨j,m - r * 2 ^ (a + 1),by omega,by omega,Or.inl (by omega)⟩
    · obtain ⟨j, rfl⟩ : ∃ j : Nat, k = 2 * j + 1 := ⟨(k / 2).toNat,by omega⟩
      have place := product j 3 (by omega)
      exact ⟨j,r * 2 ^ (a + 1) - m,by omega,by omega,Or.inr (by omega)⟩
  · rintro ⟨j, d, positive, small, above | below⟩
    · have precise : r = (4 * j + 1) * 2 ^ 28 := by
        apply unique
        · omega
        · rw [Nat.mul_assoc]; omega
        · rw [Nat.mul_assoc]; omega
      have place := product j 1 precise
      exact ⟨2 * j,by omega,Or.inl ⟨by omega,by omega⟩⟩
    · have precise : r = (4 * j + 3) * 2 ^ 28 := by
        apply unique
        · omega
        · rw [Nat.mul_assoc]; omega
        · rw [Nat.mul_assoc]; omega
      have place := product j 3 precise
      exact ⟨2 * j + 1,by omega,Or.inr ⟨by omega,by omega⟩⟩

/-- Integers that a double holds exactly are not affected. -/
theorem not_misrounded_of_small {m : Nat} (h : Nat.log 2 m < 53) : ¬Misrounded m := by
  rintro ⟨_, j, d, positive, small, _⟩
  have one : 2 ^ (Nat.log 2 m - 52) = 1 := by rw [Nat.sub_eq_zero_of_le (by omega), Nat.pow_zero]
  omega

theorem round_binary64_of_small {m : Nat} (h : Nat.log 2 m < 53) : binary64.round m = m := by
  apply Format.round_natCast (by decide) (by decide)
  have below := Nat.lt_pow_succ_log_self (b := 2) (by decide) m
  have most := Nat.pow_le_pow_right (n := 2) (by decide) (show Nat.log 2 m + 1 ≤ 53 by omega)
  exact below.le.trans most

theorem misrounded_iff {m a : Nat} (log : Nat.log 2 m = a + 53) (small : m < 2 ^ 128) :
    Misrounded m ↔
      Halfway ((m : ℚ) / binary32.step (a + 53)) (binary64.round m / binary32.step (a + 53)) := by
  have double : a + 53 - 52 = a + 1 := by omega
  have half : 2 ^ (a + 53 - 24) = 2 ^ 28 * 2 ^ (a + 1) := by
    rw [← Nat.pow_add]
    congr 1
    omega
  rw [halfway_iff log, Misrounded, log, double, half]
  exact and_iff_right small

/-- The integers that have a double near them. -/
theorem round_binary64_lt_iff (m : Nat) :
    binary64.round m < 2 ^ binary64.maxExponent ↔ m < 2 ^ 1024 - 2 ^ 970 := by
  by_cases zero : m = 0
  · have rounded : binary64.round m = m := round_binary64_of_small (by rw [zero]; decide)
    rw [rounded, zero]
    have order : 2 ^ 970 < 2 ^ 1024 := pow_lt_pow_right₀ (by decide) (by decide)
    rw [Nat.cast_zero, Nat.sub_pos_iff_lt]
    exact iff_of_true (zpow_pos (by norm_num) _) order
  · obtain ⟨low, high⟩ := natCast_bounds rfl zero
    rw [Format.round_lt_iff (normal_binary64 (by omega)) low high (normal_binary64 (by decide))]
    have limit : (2 : ℚ) ^ binary64.maxExponent - binary64.step (binary64.maxExponent - 1) / 2 =
        ((2 ^ 1024 - 2 ^ 970 : Nat) : ℚ) := by
      have last : binary64.step (binary64.maxExponent - 1) = 2 ^ (970 + 1) :=
        zpow_natCast (2 : ℚ) (970 + 1)
      have power : (2 : ℚ) ^ binary64.maxExponent = 2 ^ 1024 := by
        rw [← zpow_natCast]
        rfl
      rw [last, power, Nat.cast_sub (pow_le_pow_right₀ (by decide) (by decide)), Nat.cast_pow,
        Nat.cast_pow, Nat.cast_ofNat, pow_succ (2 : ℚ) 970, mul_div_cancel_right₀ _ two_ne_zero]
    rw [limit, Nat.cast_lt]

/-- An integer in the range of the doubles is rounded to 32 bits as by one rounding, or it is one of
the misrounded. -/
theorem convert_ofInt_iff {n : Int} (fits : n.natAbs < 2 ^ 1024 - 2 ^ 970) :
    binary32.convert (binary64.ofInt n) = binary32.ofInt n ↔ ¬Misrounded n.natAbs := by
  rw [Format.ofInt, Format.ofRat, if_pos ((round_binary64_lt_iff _).mpr fits), Format.convert,
    Format.ofInt, Format.ofRat_eq_iff]
  generalize n.natAbs = m
  by_cases precise : Nat.log 2 m < 53
  · rw [round_binary64_of_small precise]
    exact iff_of_true (Or.inl rfl) (not_misrounded_of_small precise)
  obtain ⟨a, log⟩ := Nat.exists_eq_add_of_le' (Nat.le_of_not_lt precise)
  have zero : m ≠ 0 := by
    rintro rfl
    simp at precise
  have normal64 : binary64.Normal (a + 53) := normal_binary64 (by omega)
  have normal32 : binary32.Normal (a + 53) := normal_binary32 (by omega)
  have bounds := natCast_bounds log zero
  push_cast at bounds
  have wide := Format.round_mem normal64 bounds.1 bounds.2.le
  have once := Format.round_mem normal32 bounds.1 bounds.2.le
  have twice := Format.round_mem normal32 wide.1 wide.2
  by_cases small : m < 2 ^ 128
  · have few : a + 53 < 128 := by
      have below := (Nat.pow_log_le_self 2 zero).trans_lt small
      rw [log] at below
      exact (Nat.pow_lt_pow_iff_right (by decide)).mp below
    have top : (2 : ℚ) ^ ((a : Int) + 53 + 1) ≤ 2 ^ binary32.maxExponent :=
      zpow_le_zpow_right₀ (by norm_num) (by simp only [binary32]; omega)
    have same : binary32.round (binary64.round m) = binary32.round m ∨
          2 ^ binary32.maxExponent ≤ binary32.round (binary64.round m) ∧
            2 ^ binary32.maxExponent ≤ binary32.round m ↔
        binary32.round (binary64.round m) = binary32.round m := by
      refine or_iff_left_of_imp ?_
      rintro ⟨first, second⟩
      linarith
    rw [same, Format.round_round_iff normal32 normal64 28 rfl bounds.1 bounds.2.le,
      misrounded_iff log small]
  · have many : 128 ≤ a + 53 := by
      have above := (Nat.le_of_not_lt small).trans_lt (Nat.lt_pow_succ_log_self (b := 2) (by decide) m)
      rw [log] at above
      have := (Nat.pow_lt_pow_iff_right (by decide)).mp above
      omega
    have top : (2 : ℚ) ^ binary32.maxExponent ≤ 2 ^ ((a : Int) + 53) :=
      zpow_le_zpow_right₀ (by norm_num) (by simp only [binary32]; omega)
    exact iff_of_true (Or.inr ⟨by linarith,by linarith⟩) fun h => small h.1

end Integers

end Framework.Ieee
