import FraudPlatform.Drift.Weights

namespace FraudPlatform.Drift

open Framework Reals

/-- The recent hashes are further from the reference than the reference from itself. -/
def Moves (S : Scipy ℝ) (reference recent : List String) : Prop :=
  ∃ still moved, computeJsOnHashes S reference reference = .ok still ∧
    computeJsOnHashes S reference recent = .ok moved ∧ still = 0 ∧ still < moved

/-- Every bucket has as many of the hashes as every other. -/
def Even (hashes : List String) : Prop :=
  ∀ i < nBuckets, ∀ j < nBuckets, occurrences hashes i = occurrences hashes j

variable {S : Scipy ℝ} {reference recent : List String}

/-- Without a hash to count, all the buckets are alike. -/
theorem smoothed_missing (missing : ∀ hash ∈ recent, hash = "") :
    smoothed recent = List.replicate nBuckets (1 / 256) := by
  have none : occurrences recent = fun _ => 0 := by
    funext i
    refine List.countP_eq_zero.mpr fun hash hm => ?_
    rw [missing hash hm]
    simp [firstByte]
  have zero : (counted fun _ => 0).sum = 0 :=
    Finset.sum_const_zero (s := Finset.range nBuckets)
  have fallback : shares (occurrences recent) = List.replicate nBuckets (1 / 256 : ℝ) := by
    rw [none, shares, if_pos zero, ofInt_eq, Int.cast_natCast, nBuckets_eq]
  have positive : (1 / 256 : ℝ) ≠ 0 := by norm_num
  rw [smoothed, fallback, smooth_eq, List.map_replicate, if_neg positive, List.sum_replicate,
    List.map_replicate, nsmul_eq_mul, nBuckets_eq]
  norm_num

/-- And the hashes of a window are spread like that when they are spread evenly. -/
theorem smoothed_even_iff (valid : ∀ hash ∈ reference, (firstByte hash).isSome)
    (nonempty : reference ≠ []) :
    smoothed reference = List.replicate nBuckets (1 / 256) ↔ Even reference := by
  have uniform : smoothed reference = List.replicate nBuckets (1 / 256) ↔
      ∀ i < nBuckets, share reference i = 1 / 256 := by
    rw [smoothed_eq valid nonempty, List.eq_replicate_iff, List.length_map, List.length_range]
    simp
  have excess : (0 : ℝ) ≤ empties reference / 1000000 := by positivity
  have length := length_ne_zero nonempty
  constructor
  · intro all
    have weights (i : Nat) (hi : i < nBuckets) :
        weight reference i = 1 / 256 * (1 + empties reference / 1000000) := by
      have same := uniform.mp all i hi
      rwa [share, div_eq_iff (by linarith)] at same
    -- an empty bucket would leave every bucket at `eps`, too little for a sum of one
    have filled (i : Nat) (hi : i < nBuckets) : occurrences reference i ≠ 0 := by
      intro zero
      have tiny := weights i hi
      rw [weight, if_pos zero] at tiny
      norm_num at tiny
      linarith
    intro i hi j hj
    have same := (weights i hi).trans (weights j hj).symm
    rw [weight, weight, if_neg (filled i hi), if_neg (filled j hj), div_left_inj' length] at same
    exact_mod_cast same
  · intro even
    obtain ⟨hash, hm⟩ := List.exists_mem_of_ne_nil reference nonempty
    obtain ⟨b, hb⟩ := Option.isSome_iff_exists.mp (valid hash hm)
    have inside := firstByte_lt hb
    have filled (i : Nat) (hi : i < nBuckets) : occurrences reference i ≠ 0 := by
      rw [even i hi b inside]
      exact (occurrences_pos hm hb).ne'
    have none : empties reference = 0 := by
      rw [empties, Finset.card_eq_zero, Finset.filter_eq_empty_iff]
      exact fun i hi => filled i (Finset.mem_range.mp hi)
    have total : (256 : ℝ) * occurrences reference b = reference.length := by
      have sum := sum_occurrences valid
      rw [Finset.sum_congr rfl fun i hi => even i (Finset.mem_range.mp hi) b inside,
        Finset.sum_const, Finset.card_range, smul_eq_mul] at sum
      exact_mod_cast sum
    apply uniform.mpr
    intro i hi
    rw [share, weight, if_neg (filled i hi), none, even i hi b inside, Nat.cast_zero, zero_div,
      add_zero, div_one, div_eq_div_iff length (by norm_num), one_mul, mul_comm, total]

theorem missing_moves_iff (hS : S.ExactJs) (nonempty : reference ≠ [])
    (valid : ∀ hash ∈ reference, (firstByte hash).isSome)
    (missing : ∀ hash ∈ recent, hash = "") : Moves S reference recent ↔ ¬Even reference := by
  have readable := hexadecimal_of_bucketed valid
  have skipped : ∀ hash ∈ recent, Hexadecimal hash := by
    intro hash hm
    rw [missing hash hm]
    decide
  have still := js_eq hS readable readable
  have moved := js_eq hS readable skipped
  have zero := js_eq_zero_iff reference recent
  rw [(js_eq_zero_iff reference reference).mpr rfl] at still
  rw [smoothed_missing missing, smoothed_even_iff valid nonempty] at zero
  rw [smoothed_missing missing] at moved
  rw [← zero]
  constructor
  · intro found
    obtain ⟨_, v, _, value, rfl, positive⟩ := found
    rw [moved, Except.ok.injEq] at value
    rw [value]
    exact positive.ne'
  · intro apart
    exact ⟨0,_,still,moved,rfl,lt_of_le_of_ne (Real.sqrt_nonneg _) (Ne.symm apart)⟩

section Sample

/-- One hash for each first byte. -/
theorem even_hashesFrom : Even (hashesFrom 0 nBuckets) := by
  have whole : 0 + nBuckets ≤ nBuckets := by omega
  intro i hi j hj
  rw [occurrences_hashesFrom whole, occurrences_hashesFrom whole, if_pos (by omega),
    if_pos (by omega)]

/-- The first three buckets have a hash each, the others none. -/
theorem uneven_few : ¬Even (hashesFrom 0 3) := by
  have inside : 0 + 3 ≤ nBuckets := by decide
  intro even
  have same := even 2 (by decide) 3 (by decide)
  rw [occurrences_hashesFrom inside, occurrences_hashesFrom inside] at same
  simp at same

end Sample

/-- Three hashes of three buckets, against two missing ones. -/
theorem missing_moves_few : Moves exactScipy (hashesFrom 0 3) ["",""] :=
  (missing_moves_iff exactScipy_exactJs (by decide) (valid_hashesFrom (by decide))
    (by decide)).mpr uneven_few

/-- A reference with all the buckets alike, and the missing hash changes nothing. -/
theorem missing_unseen :
    hashesFrom 0 nBuckets ≠ [] ∧ (∀ hash ∈ hashesFrom 0 nBuckets, (firstByte hash).isSome) ∧
      computeJsOnHashes exactScipy (hashesFrom 0 nBuckets) [""] = .ok 0 ∧
      ¬Moves exactScipy (hashesFrom 0 nBuckets) [""] := by
  have nonempty : hashesFrom 0 nBuckets ≠ [] := by
    intro none
    have length := congrArg List.length none
    rw [hashesFrom, List.length_map, List.length_range'] at length
    cases length
  have whole : 0 + nBuckets ≤ nBuckets := by omega
  have valid := valid_hashesFrom whole
  have skipped : ∀ hash ∈ [""], Hexadecimal hash := by decide
  have same : smoothed (hashesFrom 0 nBuckets) = smoothed [""] :=
    ((smoothed_even_iff valid nonempty).mpr even_hashesFrom).trans
      (smoothed_missing (by simp)).symm
  have value := js_eq exactScipy_exactJs (hexadecimal_of_bucketed valid) skipped
  rw [(js_eq_zero_iff _ _).mpr same] at value
  refine ⟨nonempty,valid,value,?_⟩
  intro found
  obtain ⟨_, v, _, moved, rfl, positive⟩ := found
  rw [value, Except.ok.injEq] at moved
  exact absurd positive (by rw [moved]; exact lt_irrefl v)

end FraudPlatform.Drift
