import Mathlib.Analysis.SpecialFunctions.BinaryEntropy
import Mathlib.Analysis.SpecialFunctions.Log.Deriv
import Mathlib.LinearAlgebra.AffineSpace.Midpoint

namespace Framework.Divergence

open Real (log binEntropy)

/-- How much less than a fair one a coin surprises, in nats. -/
noncomputable def deficit (x : ℝ) : ℝ := binEntropy (midpoint ℝ 0 1) - binEntropy x

/-- The part of the Jensen-Shannon divergence that two shares of one bucket make up. -/
noncomputable def term (p q : ℝ) : ℝ :=
  midpoint ℝ (p * log (p / midpoint ℝ p q)) (q * log (q / midpoint ℝ p q))

/-- The Jensen-Shannon divergence of two distributions, in nats. -/
noncomputable def divergence (ps qs : List ℝ) : ℝ := (List.zipWith term ps qs).sum

section Terms

variable {p q : ℝ}

theorem midpoint_eq (p q : ℝ) : midpoint ℝ p q = (p + q) / 2 := by
  rw [midpoint_eq_smul_add, invOf_eq_inv, smul_eq_mul, inv_mul_eq_div]

theorem deficit_def (x : ℝ) : deficit x = log 2 - binEntropy x := by
  rw [deficit, midpoint_eq, zero_add, one_div, Real.binEntropy_two_inv]

theorem term_def (p q : ℝ) :
    term p q = (p * log (p / ((p + q) / 2)) + q * log (q / ((p + q) / 2))) / 2 := by
  rw [term, midpoint_eq, midpoint_eq]

theorem term_comm (p q : ℝ) : term p q = term q p := by
  rw [term, term, midpoint_comm (R := ℝ) p q, midpoint_comm]

/-- A bucket is a coin that tells the two distributions apart. -/
theorem term_eq (hp : 0 < p) (hq : 0 < q) : term p q = (p + q) / 2 * deficit (p / (p + q)) := by
  have sum : 0 < p + q := add_pos hp hq
  have other : 1 - p / (p + q) = q / (p + q) := by
    field_simp
    ring
  have split {x : ℝ} (hx : 0 < x) : log (x / ((p + q) / 2)) = log 2 - log (p + q) + log x := by
    rw [Real.log_div hx.ne' (by positivity), Real.log_div sum.ne' two_ne_zero]
    ring
  rw [term_def, deficit_def, binEntropy, other, Real.log_inv, Real.log_inv, Real.log_div hp.ne' sum.ne',
    Real.log_div hq.ne' sum.ne', split hp, split hq]
  field_simp
  ring

theorem ratio_mem (hp : 0 < p) (hq : 0 < q) : 0 < p / (p + q) ∧ p / (p + q) < 1 := by
  have sum : 0 < p + q := add_pos hp hq
  exact ⟨div_pos hp sum,(div_lt_one sum).mpr (by linarith)⟩

theorem deficit_nonneg (x : ℝ) : 0 ≤ deficit x := by
  rw [deficit_def]
  exact sub_nonneg.mpr Real.binEntropy_le_log_two

theorem deficit_eq_zero_iff (x : ℝ) : deficit x = 0 ↔ x = 1 / 2 := by
  rw [deficit_def, sub_eq_zero, eq_comm, Real.binEntropy_eq_log_two, one_div]

theorem deficit_le {x : ℝ} (h0 : 0 ≤ x) (h1 : x ≤ 1) : deficit x ≤ log 2 := by
  have := Real.binEntropy_nonneg h0 h1
  rw [deficit_def]
  linarith

theorem term_nonneg (hp : 0 < p) (hq : 0 < q) : 0 ≤ term p q := by
  rw [term_eq hp hq]
  exact mul_nonneg (by positivity) (deficit_nonneg _)

theorem term_eq_zero_iff (hp : 0 < p) (hq : 0 < q) : term p q = 0 ↔ p = q := by
  have sum : 0 < p + q := add_pos hp hq
  rw [term_eq hp hq, mul_eq_zero, or_iff_right (by positivity), deficit_eq_zero_iff,
    div_eq_div_iff sum.ne' two_ne_zero]
  constructor <;> intro h <;> linarith

theorem term_le (hp : 0 < p) (hq : 0 < q) : term p q ≤ (p + q) / 2 * log 2 := by
  obtain ⟨low, high⟩ := ratio_mem hp hq
  rw [term_eq hp hq]
  exact mul_le_mul_of_nonneg_left (deficit_le low.le high.le) (by positivity)

end Terms

section Series

variable {t : ℝ}

theorem deficit_eq (low : -1 < t) (high : t < 1) :
    deficit ((1 + t) / 2) = t / 2 * (log (1 + t) - log (1 - t)) - 1 / 2 * -log (1 - t ^ 2) := by
  have plus : 0 < 1 + t := by linarith
  have minus : 0 < 1 - t := by linarith
  have square : 1 - t ^ 2 = (1 + t) * (1 - t) := by ring
  have other : 1 - (1 + t) / 2 = (1 - t) / 2 := by ring
  rw [deficit_def, binEntropy, other, Real.log_inv, Real.log_inv, Real.log_div plus.ne' two_ne_zero,
    Real.log_div minus.ne' two_ne_zero, square, Real.log_mul plus.ne' minus.ne']
  ring

/-- The power series of the deficit, around a fair coin. -/
theorem hasSum_deficit (low : -1 < t) (high : t < 1) :
    HasSum (fun k : Nat => t ^ (2 * (k + 1)) / ((2 * k + 1) * (2 * k + 2)))
      (deficit ((1 + t) / 2)) := by
  have odd := Real.hasSum_log_sub_log_of_abs_lt_one (abs_lt.mpr ⟨low,high⟩)
  have small : |t ^ 2| < 1 := by
    rw [abs_pow]
    exact pow_lt_one₀ (abs_nonneg t) (abs_lt.mpr ⟨low,high⟩) two_ne_zero
  have even := Real.hasSum_pow_div_log_of_abs_lt_one small
  have terms : (fun k : Nat => t ^ (2 * (k + 1)) / ((2 * k + 1) * (2 * k + 2))) =
      fun k : Nat => t / 2 * (2 * (1 / (2 * k + 1)) * t ^ (2 * k + 1)) -
        1 / 2 * ((t ^ 2) ^ (k + 1) / (k + 1)) := by
    funext k
    have first : (2 * k + 1 : ℝ) ≠ 0 := by positivity
    have second : (k + 1 : ℝ) ≠ 0 := by positivity
    rw [← pow_mul]
    field_simp
    ring
  rw [deficit_eq low high, terms]
  exact (odd.mul_left _).sub (even.mul_left _)

theorem power_nonneg (t : ℝ) (k : Nat) : 0 ≤ t ^ (2 * (k + 1)) / ((2 * k + 1) * (2 * k + 2)) :=
  div_nonneg ((even_two_mul _).pow_nonneg t) (by positivity)

theorem le_deficit (low : -1 < t) (high : t < 1) : t ^ 2 / 2 ≤ deficit ((1 + t) / 2) := by
  have first := le_hasSum (hasSum_deficit low high) 0 fun k _ => power_nonneg t k
  simpa using first

/-- The coefficients of the series sum up to no more than the greatest deficit. -/
theorem sum_coefficients_le (n : Nat) :
    ∑ k ∈ Finset.range n, 1 / ((2 * k + 1) * (2 * k + 2) : ℝ) ≤ log 2 := by
  have below : ∀ t ∈ Set.Ioo (0 : ℝ) 1,
      ∑ k ∈ Finset.range n, t ^ (2 * (k + 1)) / ((2 * k + 1) * (2 * k + 2)) ≤ log 2 := by
    intro t inside
    obtain ⟨low, high⟩ := inside
    calc ∑ k ∈ Finset.range n, t ^ (2 * (k + 1)) / ((2 * k + 1) * (2 * k + 2))
        ≤ deficit ((1 + t) / 2) := sum_le_hasSum _ (fun k _ => power_nonneg t k)
          (hasSum_deficit (by linarith) high)
      _ ≤ log 2 := deficit_le (by linarith) (by linarith)
  have continuous : Continuous fun t : ℝ =>
      ∑ k ∈ Finset.range n, t ^ (2 * (k + 1)) / ((2 * k + 1) * (2 * k + 2)) := by fun_prop
  have limit := le_of_tendsto ((continuous.tendsto 1).mono_left nhdsWithin_le_nhds)
    (Filter.mem_of_superset (Ioo_mem_nhdsLT zero_lt_one) below)
  simpa using limit

theorem deficit_le_sq (low : -1 < t) (high : t < 1) : deficit ((1 + t) / 2) ≤ t ^ 2 * log 2 := by
  apply le_of_tendsto' (hasSum_deficit low high).tendsto_sum_nat
  intro n
  calc ∑ k ∈ Finset.range n, t ^ (2 * (k + 1)) / ((2 * k + 1) * (2 * k + 2))
      ≤ ∑ k ∈ Finset.range n, t ^ 2 * (1 / ((2 * k + 1) * (2 * k + 2))) := by
        apply Finset.sum_le_sum
        intro k _
        have power : t ^ (2 * (k + 1)) ≤ t ^ 2 := by
          have square : t ^ 2 ≤ 1 := by nlinarith
          rw [pow_mul]
          exact pow_le_of_le_one (sq_nonneg t) square (Nat.succ_ne_zero k)
        rw [mul_one_div]
        gcongr
    _ = t ^ 2 * ∑ k ∈ Finset.range n, 1 / ((2 * k + 1) * (2 * k + 2) : ℝ) := by
        rw [Finset.mul_sum]
    _ ≤ t ^ 2 * log 2 := mul_le_mul_of_nonneg_left (sum_coefficients_le n) (sq_nonneg t)

end Series

section Lists

/-- The triangular discrimination of two distributions. -/
noncomputable def discrimination (ps qs : List ℝ) : ℝ :=
  (List.zipWith (fun p q => (p - q) ^ 2 / (p + q)) ps qs).sum

theorem ratio_eq {p q : ℝ} (hp : 0 < p) (hq : 0 < q) :
    p / (p + q) = (1 + (p - q) / (p + q)) / 2 ∧ -1 < (p - q) / (p + q) ∧ (p - q) / (p + q) < 1 := by
  have sum : 0 < p + q := add_pos hp hq
  refine ⟨?_,?_,?_⟩
  · field_simp
    ring
  · rw [lt_div_iff₀ sum]
    linarith
  · rw [div_lt_one sum]
    linarith

theorem term_bounds {p q : ℝ} (hp : 0 < p) (hq : 0 < q) :
    (p - q) ^ 2 / (p + q) / 4 ≤ term p q ∧ term p q ≤ (p - q) ^ 2 / (p + q) * (log 2 / 2) := by
  have sum : 0 < p + q := add_pos hp hq
  obtain ⟨ratio, low, high⟩ := ratio_eq hp hq
  have square : (p - q) ^ 2 / (p + q) = (p + q) * ((p - q) / (p + q)) ^ 2 := by
    rw [div_pow]
    field_simp
  rw [term_eq hp hq, ratio, square]
  constructor
  · have := mul_le_mul_of_nonneg_left (le_deficit low high) (half_pos sum).le
    linarith
  · have := mul_le_mul_of_nonneg_left (deficit_le_sq low high) (half_pos sum).le
    linarith

theorem divergence_cons (p q : ℝ) (ps qs : List ℝ) :
    divergence (p :: ps) (q :: qs) = term p q + divergence ps qs := by
  rw [divergence, List.zipWith_cons_cons, List.sum_cons]
  rfl

theorem divergence_comm (ps qs : List ℝ) : divergence ps qs = divergence qs ps := by
  rw [divergence, divergence, List.zipWith_comm]
  simp only [term_comm]

/-- Two lists of positive shares of the same buckets. -/
abbrev Shares (ps qs : List ℝ) : Prop := List.Forall₂ (fun p q => 0 < p ∧ 0 < q) ps qs

variable {ps qs : List ℝ}

theorem shares_of (length : ps.length = qs.length) (left : ∀ p ∈ ps, 0 < p)
    (right : ∀ q ∈ qs, 0 < q) : Shares ps qs := by
  refine List.forall₂_iff_get.mpr ⟨length,fun i hp hq => ⟨?_,?_⟩⟩
  · exact left _ (List.get_mem ps ⟨i,hp⟩)
  · exact right _ (List.get_mem qs ⟨i,hq⟩)

theorem divergence_nonneg (h : Shares ps qs) : 0 ≤ divergence ps qs := by
  induction h with
  | nil => exact le_rfl
  | @cons p q ps qs both _ ih =>
    obtain ⟨hp, hq⟩ := both
    rw [divergence_cons]
    exact add_nonneg (term_nonneg hp hq) ih

theorem divergence_le (h : Shares ps qs) : divergence ps qs ≤ (ps.sum + qs.sum) / 2 * log 2 := by
  induction h with
  | nil => simp [divergence]
  | @cons p q ps qs both _ ih =>
    obtain ⟨hp, hq⟩ := both
    rw [divergence_cons, List.sum_cons, List.sum_cons]
    have := term_le hp hq
    linarith

theorem divergence_eq_zero_iff (h : Shares ps qs) : divergence ps qs = 0 ↔ ps = qs := by
  induction h with
  | nil => simp [divergence]
  | @cons p q ps qs both rest ih =>
    obtain ⟨hp, hq⟩ := both
    rw [divergence_cons, add_eq_zero_iff_of_nonneg (term_nonneg hp hq) (divergence_nonneg rest),
      term_eq_zero_iff hp hq, ih, List.cons.injEq]

/-- The discrimination bounds the divergence from both sides. -/
theorem divergence_bounds (h : Shares ps qs) :
    discrimination ps qs / 4 ≤ divergence ps qs ∧
      divergence ps qs ≤ discrimination ps qs * (log 2 / 2) := by
  induction h with
  | nil => simp [discrimination, divergence]
  | @cons p q ps qs both _ ih =>
    obtain ⟨hp, hq⟩ := both
    obtain ⟨low, high⟩ := term_bounds hp hq
    simp only [discrimination, List.zipWith_cons_cons, List.sum_cons] at ih ⊢
    rw [divergence_cons]
    constructor <;> linarith

end Lists

end Framework.Divergence
