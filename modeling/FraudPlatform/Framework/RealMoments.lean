import Mathlib.Algebra.BigOperators.Fin
import Mathlib.Algebra.Order.BigOperators.Group.List
import Mathlib.Algebra.Order.BigOperators.Ring.Finset
import Mathlib.Analysis.Real.Sqrt
import FraudPlatform.Framework.RealArrays

namespace Framework.Reals

open Numpy (mean std cov corrcoef)

@[simp] theorem sum_eq (xs : List ℝ) : Numpy.sum xs = xs.sum := rfl

@[simp] theorem sqrt_eq (x : ℝ) : Numpy.sqrt x = √x := rfl

@[simp] theorem abs_eq (x : ℝ) : Binary64.abs x = |x| := rfl

section Samples

variable {α : Type*} {rows rows' : List α} (f g : α → ℝ)

theorem mean_perm (h : rows.Perm rows') : mean (rows.map f) = mean (rows'.map f) := by
  rw [mean, mean, sum_eq, sum_eq, (h.map f).sum_eq, (h.map f).length_eq]

theorem std_perm (h : rows.Perm rows') : std (rows.map f) = std (rows'.map f) := by
  have m := mean_perm f h
  simp only [std, m, sum_eq, List.map_map]
  rw [(h.map _).sum_eq, (h.map f).length_eq]

theorem cov_eq (rows : List α) :
    cov (rows.map f) (rows.map g) =
      (rows.map fun r => (f r - mean (rows.map f)) * (g r - mean (rows.map g))).sum *
        (1 / ((rows.length - 1 : Int) : ℝ)) := by
  simp [cov, List.zipWith_map, List.zipWith_self]

theorem cov_perm (h : rows.Perm rows') :
    cov (rows.map f) (rows.map g) = cov (rows'.map f) (rows'.map g) := by
  rw [cov_eq, cov_eq, mean_perm f h, mean_perm g h, (h.map _).sum_eq, h.length_eq]

theorem cov_comm (rows : List α) : cov (rows.map f) (rows.map g) = cov (rows.map g) (rows.map f) := by
  rw [cov_eq, cov_eq]
  simp only [mul_comm]

theorem cov_self_nonneg (rows : List α) (some : 1 ≤ rows.length) :
    0 ≤ cov (rows.map f) (rows.map f) := by
  have count : (0 : Int) ≤ rows.length - 1 := by omega
  have size : (0 : ℝ) ≤ ((rows.length - 1 : Int) : ℝ) := by exact_mod_cast count
  rw [cov_eq]
  refine mul_nonneg (List.sum_nonneg ?_) (one_div_nonneg.mpr size)
  intro x hx
  obtain ⟨r, _, rfl⟩ := List.mem_map.mp hx
  exact mul_self_nonneg _

/-- The Cauchy-Schwarz inequality of a sample. -/
theorem sum_mul_sq_le (rows : List α) :
    (rows.map fun r => f r * g r).sum ^ 2 ≤
      (rows.map fun r => f r * f r).sum * (rows.map fun r => g r * g r).sum := by
  have bound := Finset.sum_mul_sq_le_sq_mul_sq Finset.univ
    (fun i : Fin rows.length => f rows[i.1]) (fun i : Fin rows.length => g rows[i.1])
  simp only [sq (f _), sq (g _)] at bound
  rw [Fin.sum_univ_fun_getElem rows fun r => f r * g r,
    Fin.sum_univ_fun_getElem rows fun r => f r * f r,
    Fin.sum_univ_fun_getElem rows fun r => g r * g r] at bound
  exact bound

theorem cov_sq_le (rows : List α) :
    cov (rows.map f) (rows.map g) ^ 2 ≤ cov (rows.map f) (rows.map f) * cov (rows.map g) (rows.map g) := by
  have bound := sum_mul_sq_le (fun r => f r - mean (rows.map f)) (fun r => g r - mean (rows.map g)) rows
  rw [cov_eq, cov_eq, cov_eq, mul_pow, mul_mul_mul_comm, ← sq (1 / _)]
  exact mul_le_mul_of_nonneg_right bound (sq_nonneg _)

theorem corrcoef_bounds (rows : List α) (some : 1 ≤ rows.length) :
    |cov (rows.map f) (rows.map g) / √(cov (rows.map f) (rows.map f)) /
      √(cov (rows.map g) (rows.map g))| ≤ 1 := by
  have root := Real.abs_le_sqrt (cov_sq_le f g rows)
  rw [Real.sqrt_mul (cov_self_nonneg f rows some)] at root
  rw [div_div, abs_div, abs_of_nonneg (mul_nonneg (Real.sqrt_nonneg _) (Real.sqrt_nonneg _))]
  exact div_le_one_of_le₀ root (mul_nonneg (Real.sqrt_nonneg _) (Real.sqrt_nonneg _))

/-- Without rounding the clip of `np.corrcoef` has nothing to do. -/
theorem corrcoef_eq (rows : List α) (some : 1 ≤ rows.length) :
    corrcoef (rows.map f) (rows.map g) = cov (rows.map f) (rows.map g) /
      √(cov (rows.map f) (rows.map f)) / √(cov (rows.map g) (rows.map g)) := by
  obtain ⟨low, high⟩ := abs_le.mp (corrcoef_bounds f g rows some)
  simp only [corrcoef, sqrt_eq, lt_eq, decide_eq_true_eq]
  rw [if_neg (not_lt.mpr low), if_neg (not_lt.mpr high)]

theorem corrcoef_perm (h : rows.Perm rows') :
    corrcoef (rows.map f) (rows.map g) = corrcoef (rows'.map f) (rows'.map g) := by
  simp only [corrcoef, cov_perm f g h, cov_perm f f h, cov_perm g g h]

theorem corrcoef_comm (rows : List α) :
    corrcoef (rows.map f) (rows.map g) = corrcoef (rows.map g) (rows.map f) := by
  simp only [corrcoef, cov_comm f g rows, div_right_comm]

theorem std_eq (rows : List α) :
    std (rows.map f) =
      √((rows.map fun r => (f r - mean (rows.map f)) * (f r - mean (rows.map f))).sum /
        rows.length) := by
  simp [std, Function.comp_def]

/-- Only a constant sample has no spread. -/
theorem std_pos_iff {rows : List α} (some : 1 ≤ rows.length) :
    0 < std (rows.map f) ↔ ∃ r ∈ rows, ∃ s ∈ rows, f r ≠ f s := by
  have size : (0 : ℝ) < rows.length := by exact_mod_cast some
  rw [std_eq]
  constructor
  · intro pos
    by_contra same
    push Not at same
    obtain ⟨r, hr⟩ := List.exists_mem_of_length_pos some
    have const : rows.map f = List.replicate rows.length (f r) := by
      refine List.eq_replicate_iff.mpr ⟨by simp,fun x hx => ?_⟩
      obtain ⟨s, hs, rfl⟩ := List.mem_map.mp hx
      exact same s hs r hr
    have centre : mean (rows.map f) = f r := by
      rw [mean, const]
      simp [size.ne']
    have flat : (rows.map fun s => (f s - mean (rows.map f)) * (f s - mean (rows.map f))).sum = 0 := by
      apply List.sum_eq_zero
      intro x hx
      obtain ⟨s, hs, rfl⟩ := List.mem_map.mp hx
      simp [centre, same s hs r hr]
    rw [flat, zero_div, Real.sqrt_zero] at pos
    exact lt_irrefl 0 pos
  · intro found
    obtain ⟨r, hr, s, hs, ne⟩ := found
    have nonneg : ∀ x ∈ rows.map fun r => (f r - mean (rows.map f)) * (f r - mean (rows.map f)),
        0 ≤ x := by
      intro x hx
      obtain ⟨t, _, rfl⟩ := List.mem_map.mp hx
      exact mul_self_nonneg _
    refine Real.sqrt_pos.mpr (div_pos (lt_of_le_of_ne (List.sum_nonneg nonneg) fun zero => ?_) size)
    have centred : ∀ t ∈ rows, f t = mean (rows.map f) := by
      intro t ht
      have all := List.all_zero_of_le_zero_le_of_sum_eq_zero nonneg zero.symm
        (List.mem_map_of_mem ht)
      exact sub_eq_zero.mp (mul_self_eq_zero.mp all)
    exact ne ((centred r hr).trans (centred s hs).symm)

end Samples

section Percentiles

variable {x y : ℝ} {xs ys : List ℝ}

theorem sort_perm (h : xs.Perm ys) : Numpy.sort xs = Numpy.sort ys :=
  List.Perm.eq_of_pairwise' (pairwise_sort xs) (pairwise_sort ys)
    ((perm_sort xs).trans (h.trans (perm_sort ys).symm))

theorem percentileOf_perm (h : (x :: xs).Perm (y :: ys)) {q : ℝ} (hq : 0 ≤ q) :
    Numpy.percentileOf x xs q = Numpy.percentileOf y ys q := by
  have length : xs.length = ys.length := Nat.succ.inj h.length_eq
  have same : orderStatistic (x :: xs) = orderStatistic (y :: ys) := by
    funext i
    rw [orderStatistic, orderStatistic, sort_perm h]
  rw [percentileOf_eq x xs hq, percentileOf_eq y ys hq, same, length]

theorem interpolate_monotone {f : Nat → ℝ} (mono : Monotone f) {v w : ℝ} (hv : 0 ≤ v) (le : v ≤ w) :
    interpolate f v ≤ interpolate f w := by
  have floors := Nat.floor_le_floor le
  rcases Nat.lt_or_eq_of_le floors with less | same
  · calc interpolate f v ≤ f (⌊v⌋₊ + 1) := (interpolate_mem mono hv).2
      _ ≤ f ⌊w⌋₊ := mono less
      _ ≤ interpolate f w := (interpolate_mem mono (hv.trans le)).1
  · have rise : 0 ≤ f (⌊w⌋₊ + 1) - f ⌊w⌋₊ := sub_nonneg.mpr (mono (Nat.le_succ _))
    rw [interpolate, interpolate, same]
    gcongr

theorem percentileOf_monotone (x : ℝ) (xs : List ℝ) {p q : ℝ} (hp : 0 ≤ p) (le : p ≤ q) :
    Numpy.percentileOf x xs p ≤ Numpy.percentileOf x xs q := by
  rw [percentileOf_eq x xs hp, percentileOf_eq x xs (hp.trans le)]
  exact interpolate_monotone (orderStatistic_monotone (List.cons_ne_nil x xs)) (by positivity)
    (by gcongr)

/-- A percentile lies between two values of the sample. -/
theorem percentileOf_bounds (x : ℝ) (xs : List ℝ) {q : ℝ} (hq : 0 ≤ q) :
    (∃ lo ∈ x :: xs, lo ≤ Numpy.percentileOf x xs q) ∧
      ∃ hi ∈ x :: xs, Numpy.percentileOf x xs q ≤ hi := by
  have nonempty := List.cons_ne_nil x xs
  have between := interpolate_mem (orderStatistic_monotone nonempty)
    (v := xs.length * (q / 100)) (by positivity)
  rw [percentileOf_eq x xs hq]
  exact ⟨⟨_,orderStatistic_mem nonempty _,between.1⟩,⟨_,orderStatistic_mem nonempty _,between.2⟩⟩

end Percentiles

end Framework.Reals
