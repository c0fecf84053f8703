import Mathlib.Algebra.BigOperators.Field
import FraudPlatform.Drift.Js

namespace FraudPlatform.Drift

open Framework Reals

/-- What a bucket has before the sum is put back at one. -/
noncomputable def weight (hashes : List String) (i : Nat) : ℝ :=
  if occurrences hashes i = 0 then 1 / 1000000 else occurrences hashes i / hashes.length

/-- The buckets left empty. -/
def empties (hashes : List String) : Nat :=
  ((Finset.range nBuckets).filter fun i => occurrences hashes i = 0).card

/-- What a bucket has in the end. -/
noncomputable def share (hashes : List String) (i : Nat) : ℝ :=
  weight hashes i / (1 + empties hashes / 1000000)

section Shares

variable {hashes : List String}

theorem nBuckets_eq : ((nBuckets : Nat) : ℝ) = 256 := by norm_num [nBuckets]

theorem hexadecimal_of_bucketed (h : ∀ hash ∈ hashes, (firstByte hash).isSome) :
    ∀ hash ∈ hashes, Hexadecimal hash := fun hash hm _ => h hash hm

theorem sum_occurrences (h : ∀ hash ∈ hashes, (firstByte hash).isSome) :
    ∑ i ∈ Finset.range nBuckets, occurrences hashes i = hashes.length := by
  induction hashes with
  | nil => exact Finset.sum_const_zero
  | cons hash hashes ih =>
    obtain ⟨b, hb⟩ := Option.isSome_iff_exists.mp (h hash List.mem_cons_self)
    have rest := ih fun x hx => h x (List.mem_cons_of_mem hash hx)
    have inside := Finset.mem_range.mpr (firstByte_lt hb)
    simp only [occurrences_cons hb]
    rw [Finset.sum_add_distrib, rest, Finset.sum_ite_eq', if_pos inside, List.length_cons]

theorem counted_sum (h : ∀ hash ∈ hashes, (firstByte hash).isSome) :
    (counted (occurrences hashes)).sum = hashes.length := sum_occurrences h

theorem share_nonneg (hashes : List String) (i : Nat) : 0 ≤ share hashes i := by
  unfold share weight
  split_ifs <;> positivity

theorem share_perm {hashes' : List String} (h : hashes.Perm hashes') :
    share hashes = share hashes' := by
  have same := occurrences_perm h
  funext i
  rw [share, share, weight, weight, empties, empties, same, h.length_eq]

variable (valid : ∀ hash ∈ hashes, (firstByte hash).isSome) (nonempty : hashes ≠ [])

include nonempty in
theorem length_ne_zero : (hashes.length : ℝ) ≠ 0 := by
  rw [Nat.cast_ne_zero]
  exact fun none => nonempty (List.eq_nil_of_length_eq_zero none)

include valid nonempty

theorem sum_weight :
    ∑ i ∈ Finset.range nBuckets, weight hashes i = 1 + empties hashes / 1000000 := by
  have split (i : Nat) : weight hashes i = occurrences hashes i / hashes.length +
      ((if occurrences hashes i = 0 then 1 else 0 : Nat) : ℝ) / 1000000 := by
    unfold weight
    split_ifs with zero <;> simp [zero]
  simp only [split]
  rw [Finset.sum_add_distrib, ← Finset.sum_div, ← Finset.sum_div, ← Nat.cast_sum, ← Nat.cast_sum,
    sum_occurrences valid, ← Finset.card_filter, div_self (length_ne_zero nonempty), empties]

theorem smoothed_eq : smoothed hashes = (List.range nBuckets).map (share hashes) := by
  have some : (counted (occurrences hashes)).sum ≠ 0 := by
    rw [counted_sum valid]
    exact fun none => nonempty (List.eq_nil_of_length_eq_zero none)
  have raised : ((shares (occurrences hashes)).map fun x =>
      if x = 0 then (Numpy.decimal 1 6 : ℝ) else x) = (List.range nBuckets).map (weight hashes) := by
    rw [shares, if_neg some, counted_sum valid, counted, List.map_map, List.map_map]
    apply List.map_congr_left
    intro i _
    simp only [Function.comp_apply, ofInt_eq, Int.cast_natCast, weight, eps_eq,
      div_eq_zero_iff, length_ne_zero nonempty, or_false, Nat.cast_eq_zero]
  have total : ((List.range nBuckets).map (weight hashes)).sum = 1 + empties hashes / 1000000 :=
    sum_weight valid nonempty
  rw [smoothed, smooth_eq, raised, total, List.map_map]
  rfl

end Shares

section Sample

/-- A hash of 64 hexadecimal digits, the first two of them the number of its bucket. -/
def hashOf (i : Nat) : String :=
  String.ofList (Nat.digitChar (i / 16) :: Nat.digitChar (i % 16) :: List.replicate 62 '0')

/-- One hash for each of `n` buckets. -/
def hashesFrom (first n : Nat) : List String := (List.range' first n).map hashOf

theorem firstByte_hashOf {i : Nat} (h : i < nBuckets) : firstByte (hashOf i) = some i := by
  have digits : ∀ d < 16, PyInt.digit? (Nat.digitChar d) = some d := by decide
  have whole : i / 16 * 16 + i % 16 = i := by omega
  unfold nBuckets at h
  rw [firstByte, hashOf, String.toList_ofList]
  simp only [digits (i / 16) (by omega), digits (i % 16) (by omega), Option.bind_eq_bind,
    Option.bind_some, whole]

variable {first n : Nat}

theorem valid_hashesFrom (h : first + n ≤ nBuckets) :
    ∀ hash ∈ hashesFrom first n, (firstByte hash).isSome := by
  intro hash hm
  obtain ⟨i, hi, rfl⟩ := List.mem_map.mp hm
  have inside := (List.mem_range'_1.mp hi).2
  rw [firstByte_hashOf (by omega), Option.isSome_some]

theorem nodup_hashesFrom (h : first + n ≤ nBuckets) : (hashesFrom first n).Nodup := by
  refine List.Nodup.map_on ?_ List.nodup_range'
  intro i hi j hj same
  have left := (List.mem_range'_1.mp hi).2
  have right := (List.mem_range'_1.mp hj).2
  have bytes := congrArg firstByte same
  rw [firstByte_hashOf (by omega), firstByte_hashOf (by omega)] at bytes
  exact Option.some.inj bytes

theorem occurrences_hashesFrom (h : first + n ≤ nBuckets) (i : Nat) :
    occurrences (hashesFrom first n) i = if first ≤ i ∧ i < first + n then 1 else 0 := by
  have each : occurrences (hashesFrom first n) i = (List.range' first n).count i := by
    rw [occurrences, hashesFrom, List.countP_map]
    apply List.countP_congr
    intro j hj
    have inside := (List.mem_range'_1.mp hj).2
    simp [firstByte_hashOf (show j < nBuckets by omega)]
  rw [each, List.Nodup.count List.nodup_range']
  simp only [List.mem_range'_1]

theorem length_hashesFrom (first n : Nat) : (hashesFrom first n).length = n := by
  rw [hashesFrom, List.length_map, List.length_range']

theorem empties_hashesFrom (h : first + n ≤ nBuckets) :
    empties (hashesFrom first n) = nBuckets - n := by
  have others : ((Finset.range nBuckets).filter fun i => occurrences (hashesFrom first n) i = 0) =
      Finset.range nBuckets \ Finset.Ico first (first + n) := by
    ext i
    simp only [Finset.mem_filter, Finset.mem_sdiff, Finset.mem_range, Finset.mem_Ico,
      occurrences_hashesFrom h]
    split_ifs with inside <;> simp [inside]
  have subset : Finset.Ico first (first + n) ⊆ Finset.range nBuckets := by
    intro i hi
    rw [Finset.mem_Ico] at hi
    exact Finset.mem_range.mpr (by omega)
  rw [empties, others, Finset.card_sdiff_of_subset subset, Finset.card_range, Nat.card_Ico]
  omega

end Sample

end FraudPlatform.Drift
