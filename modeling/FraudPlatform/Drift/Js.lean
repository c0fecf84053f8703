import Mathlib.Algebra.BigOperators.Ring.List
import FraudPlatform.Framework.Divergence
import FraudPlatform.Framework.RealArrays
import FraudPlatform.Drift.Hashes
import FraudPlatform.Drift.Silenced

namespace FraudPlatform.Drift

open Framework Divergence Reals

/-- SciPy's distance is the square root of the divergence. -/
theorem exactJs_eq (ps qs : List ℝ) : exactJs ps qs = √(divergence ps qs) := by
  have two : (Numpy.ofInt 2 : ℝ) = 2 := rfl
  have halves (ps qs : List ℝ) :
      (List.zipWith (fun x m => x * Real.log (x / m)) ps
          (List.zipWith (fun p q => (p + q) / 2) ps qs)).sum +
        (List.zipWith (fun x m => x * Real.log (x / m)) qs
          (List.zipWith (fun p q => (p + q) / 2) ps qs)).sum = divergence ps qs * 2 := by
    induction ps generalizing qs with
    | nil => simp [divergence]
    | cons p ps ih =>
      cases qs with
      | nil => simp [divergence]
      | cons q qs =>
        have rest := ih qs
        simp only [List.zipWith_cons_cons, List.sum_cons, divergence_cons, term_def]
        linarith
  change √(((List.zipWith (fun x m => x * Real.log (x / m)) ps
      (List.zipWith (fun p q => (p + q) / Numpy.ofInt 2) ps qs)).sum +
    (List.zipWith (fun x m => x * Real.log (x / m)) qs
      (List.zipWith (fun p q => (p + q) / Numpy.ofInt 2) ps qs)).sum) / Numpy.ofInt 2) = _
  rw [two, halves, mul_div_assoc, div_self two_ne_zero, mul_one]

/-- A distribution over the buckets that is nowhere zero. -/
structure Distribution (dist : List ℝ) : Prop where
  length : dist.length = nBuckets
  positive : ∀ x ∈ dist, 0 < x
  total : dist.sum = 1

/-- The zeros of a distribution are raised to `eps`, and its sum is back at one. -/
structure Smoothed (dist smoothed : List ℝ) : Prop extends Distribution smoothed where
  raised : ∃ scale, smoothed = dist.map fun x => (if x = 0 then 1 / 1000000 else x) / scale

/-- What SciPy documents of `jensenshannon`, without the rounding. -/
def Scipy.ExactJs (S : Scipy ℝ) : Prop :=
  ∀ p q, Distribution p → Distribution q → S.jensenshannon p q = exactJs p q

section Smooth

variable {dist p q : List ℝ}

theorem eps_eq : (Numpy.decimal 1 6 : ℝ) = 1 / 1000000 := by
  rw [decimal_eq]
  norm_num

theorem Distribution.pair (hp : Distribution p) (hq : Distribution q) : Shares p q :=
  shares_of (hp.length.trans hq.length.symm) hp.positive hq.positive

theorem smooth_eq (dist : List ℝ) :
    smooth dist = (dist.map fun x => if x = 0 then (Numpy.decimal 1 6 : ℝ) else x).map fun x =>
      x / (dist.map fun x => if x = 0 then (Numpy.decimal 1 6 : ℝ) else x).sum := by
  have replaced : Numpy.replaceZero (Numpy.decimal 1 6 : ℝ) dist =
      dist.map fun x => if x = 0 then (Numpy.decimal 1 6 : ℝ) else x := by
    apply List.map_congr_left
    intro x _
    by_cases zero : x = 0
    · simp [Numpy.same, zero]
    · have differ : ¬(x ≤ 0 ∧ 0 ≤ x) := fun both => zero (le_antisymm both.1 both.2)
      simp [Numpy.same, zero, differ]
  rw [smooth, replaced]
  rfl

/-- Smoothing keeps a distribution proper, whatever it was. -/
theorem smooth_distribution (length : dist.length = nBuckets) (nonneg : ∀ x ∈ dist, 0 ≤ x) :
    Distribution (smooth dist) := by
  have raised : ∀ x ∈ dist.map fun x => if x = 0 then (Numpy.decimal 1 6 : ℝ) else x, 0 < x := by
    intro y hy
    obtain ⟨x, hx, rfl⟩ := List.mem_map.mp hy
    split_ifs with zero
    · rw [eps_eq]
      positivity
    · exact lt_of_le_of_ne (nonneg x hx) (Ne.symm zero)
  rw [smooth_eq]
  generalize raise : dist.map (fun x => if x = 0 then (Numpy.decimal 1 6 : ℝ) else x) = xs at raised ⊢
  have same : xs.length = nBuckets := by rw [← raise, List.length_map, length]
  have total : 0 < xs.sum := by
    refine List.sum_pos xs raised fun none => ?_
    rw [none] at same
    cases same
  refine ⟨by rw [List.length_map, same],?_,?_⟩
  · intro y hy
    obtain ⟨x, hx, rfl⟩ := List.mem_map.mp hy
    exact div_pos (raised x hx) total
  · simp only [div_eq_mul_inv]
    rw [List.sum_map_mul_right, List.map_id', mul_inv_cancel₀ total.ne']

theorem smooth_smoothed (length : dist.length = nBuckets) (nonneg : ∀ x ∈ dist, 0 ≤ x) :
    Smoothed dist (smooth dist) := by
  refine ⟨smooth_distribution length nonneg,
    (dist.map fun x => if x = 0 then (Numpy.decimal 1 6 : ℝ) else x).sum,?_⟩
  rw [smooth_eq, List.map_map]
  apply List.map_congr_left
  intro x _
  rw [Function.comp_apply, eps_eq]

theorem shares_length (f : Nat → Nat) : (shares f : List ℝ).length = nBuckets := by
  unfold shares
  split_ifs
  · rw [List.length_replicate]
  · rw [List.length_map, counted, List.length_map, List.length_range]

theorem shares_nonneg (f : Nat → Nat) : ∀ x ∈ (shares f : List ℝ), 0 ≤ x := by
  have cast (n : Nat) : (0 : ℝ) ≤ Numpy.ofInt n := by
    rw [ofInt_eq, Int.cast_natCast]
    exact Nat.cast_nonneg n
  unfold shares
  split_ifs
  · intro x hx
    rw [List.eq_of_mem_replicate hx]
    exact div_nonneg zero_le_one (cast nBuckets)
  · intro x hx
    obtain ⟨n, _, rfl⟩ := List.mem_map.mp hx
    exact div_nonneg (cast n) (cast _)

theorem shares_mul (f : Nat → Nat) {k : Nat} (hk : 1 ≤ k) :
    (shares (fun i => k * f i) : List ℝ) = shares f := by
  have factor : (counted fun i => k * f i).sum = k * (counted f).sum := by
    rw [counted, counted, List.sum_map_mul_left]
  have positive : (k : ℝ) ≠ 0 := by
    rw [Nat.cast_ne_zero]
    omega
  rw [shares, shares, factor]
  by_cases none : (counted f).sum = 0
  · rw [if_pos none, none, Nat.mul_zero, if_pos rfl]
  · rw [if_neg none, if_neg (Nat.mul_ne_zero (by omega) none), counted, counted, List.map_map,
      List.map_map]
    apply List.map_congr_left
    intro i _
    simp only [Function.comp_apply, ofInt_eq]
    push_cast
    exact mul_div_mul_left _ _ positive

end Smooth

section Value

variable {S : Scipy ℝ} {reference recent : List String}

/-- The smoothed distribution of the hashes. -/
noncomputable def smoothed (hashes : List String) : List ℝ := smooth (shares (occurrences hashes))

theorem smoothed_distribution (hashes : List String) : Distribution (smoothed hashes) :=
  smooth_distribution (shares_length _) (shares_nonneg _)

theorem smoothed_perm (h : reference.Perm recent) : smoothed reference = smoothed recent := by
  rw [smoothed, occurrences_perm h, smoothed]

theorem smoothed_repeat (hashes : List String) {k : Nat} (hk : 1 ≤ k) :
    smoothed (List.replicate k hashes).flatten = smoothed hashes := by
  rw [smoothed, occurrences_repeat, shares_mul _ hk, smoothed]

theorem js_eq (hS : S.ExactJs) (validReference : ∀ hash ∈ reference, Hexadecimal hash)
    (validRecent : ∀ hash ∈ recent, Hexadecimal hash) :
    computeJsOnHashes S reference recent =
      .ok √(divergence (smoothed reference) (smoothed recent)) := by
  rw [computeJs_eq S validReference validRecent, ← exactJs_eq]
  exact congrArg Except.ok (hS _ _ (smoothed_distribution _) (smoothed_distribution _))

theorem divergence_le_log_two (hp : Distribution p) (hq : Distribution q) :
    divergence p q ≤ Real.log 2 := by
  have bound := divergence_le (hp.pair hq)
  rw [hp.total, hq.total] at bound
  linarith

theorem js_eq_zero_iff (reference recent : List String) :
    √(divergence (smoothed reference) (smoothed recent)) = 0 ↔
      smoothed reference = smoothed recent := by
  have pair := (smoothed_distribution reference).pair (smoothed_distribution recent)
  rw [Real.sqrt_eq_zero (divergence_nonneg pair), divergence_eq_zero_iff pair]

end Value

/-- The value is a bounded, symmetric distance of what the hashes leave in the buckets, blind
to their order and to how often a whole list is repeated. -/
theorem js_separates (S : Scipy ℝ) (hS : S.ExactJs) (reference recent : List String)
    (validReference : ∀ hash ∈ reference, Hexadecimal hash)
    (validRecent : ∀ hash ∈ recent, Hexadecimal hash) :
    ∃ p q v, p = shares (occurrences reference) ∧ q = shares (occurrences recent) ∧
      bucketCounts reference = .ok p ∧ bucketCounts recent = .ok q ∧
      Smoothed p (smooth p) ∧ Smoothed q (smooth q) ∧
      computeJsOnHashes S reference recent = .ok v ∧ 0 ≤ v ∧ v ≤ √(Real.log 2) ∧
      computeJsOnHashes S recent reference = .ok v ∧
      (∀ reference' recent', reference'.Perm reference → recent'.Perm recent →
        computeJsOnHashes S reference' recent' = .ok v) ∧
      (∀ k l, 1 ≤ k → 1 ≤ l → computeJsOnHashes S (List.replicate k reference).flatten
        (List.replicate l recent).flatten = .ok v) ∧
      (v = 0 ↔ smooth p = smooth q) := by
  have left := smoothed_distribution reference
  have right := smoothed_distribution recent
  refine ⟨shares (occurrences reference),shares (occurrences recent),
    √(divergence (smoothed reference) (smoothed recent)),rfl,rfl,bucketCounts_eq validReference,
    bucketCounts_eq validRecent,smooth_smoothed (shares_length _) (shares_nonneg _),
    smooth_smoothed (shares_length _) (shares_nonneg _),js_eq hS validReference validRecent,
    Real.sqrt_nonneg _,Real.sqrt_le_sqrt (divergence_le_log_two left right),?_,?_,?_,
    js_eq_zero_iff reference recent⟩
  · rw [js_eq hS validRecent validReference, divergence_comm]
  · intro reference' recent' permReference permRecent
    rw [js_eq hS (fun hash hm => validReference hash (permReference.mem_iff.mp hm))
      (fun hash hm => validRecent hash (permRecent.mem_iff.mp hm)),
      smoothed_perm permReference, smoothed_perm permRecent]
  · intro k l hk hl
    rw [js_eq hS (hexadecimal_repeat validReference) (hexadecimal_repeat validRecent),
      smoothed_repeat reference hk, smoothed_repeat recent hl]

theorem exactScipy_exactJs : exactScipy.ExactJs := fun _ _ _ _ => rfl

/-- Two buckets and a missing hash, against three buckets, one of them twice. -/
theorem js_separates_small :
    bucketCounts ["a1","b2c3",""] = .ok (shares (F := ℝ) (occurrences ["a1","b2c3",""])) ∧
    ∃ v, computeJsOnHashes exactScipy ["a1","b2c3",""] ["a1","ff","ff","07"] = .ok v ∧
      0 ≤ v ∧ v ≤ √(Real.log 2) ∧
      computeJsOnHashes exactScipy ["a1","ff","ff","07"] ["a1","b2c3",""] = .ok v := by
  obtain ⟨p, _, v, hp, _, counts, _, _, _, value, nonneg, bound, swapped, _⟩ :=
    js_separates exactScipy exactScipy_exactJs ["a1","b2c3",""] ["a1","ff","ff","07"]
      (by decide) (by decide)
  rw [hp] at counts
  exact ⟨counts,v,value,nonneg,bound,swapped⟩

end FraudPlatform.Drift
