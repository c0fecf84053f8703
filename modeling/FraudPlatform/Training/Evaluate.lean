import Mathlib.Algebra.Order.Field.Basic
import Mathlib.Algebra.Order.Field.Rat
import Mathlib.Data.List.Dedup
import Mathlib.Tactic.FieldSimp
import Mathlib.Tactic.Linarith
import Mathlib.Tactic.NormNum
import Mathlib.Tactic.Ring

namespace FraudPlatform.Training

variable {K : Type} [LinearOrder K]

/-- A score with its label. -/
abbrev Row (K : Type) := K × Bool

section Counts

variable (rows : List (Row K)) (t : K)

/-- Positive when the score is at least `t`, and rightly so. -/
def truePositives : Nat := rows.countP fun r => t ≤ r.1 && r.2

def falsePositives : Nat := rows.countP fun r => t ≤ r.1 && !r.2

def falseNegatives : Nat := rows.countP fun r => !decide (t ≤ r.1) && r.2

def positives : Nat := rows.countP Prod.snd

/-- The distinct scores in increasing order. -/
def distinctScores : List K := (rows.map Prod.fst).dedup.mergeSort

end Counts

/-- `np.argmax`: the first place of the maximum. -/
def argmax (xs : List K) : Option Nat := xs.max?.map fun m => xs.idxOf m

section Lemmas

variable {rows : List (Row K)} {t : K}

theorem truePositives_add_falseNegatives :
    truePositives rows t + falseNegatives rows t = positives rows := by
  unfold truePositives falseNegatives positives
  induction rows with
  | nil => rfl
  | cons r rows ih =>
    simp only [List.countP_cons]
    by_cases h : t ≤ r.1 <;> cases r.2 <;> simp [h] <;> omega

theorem mem_distinctScores {x : K} : x ∈ distinctScores rows ↔ ∃ r ∈ rows, r.1 = x := by
  simp [distinctScores]

theorem argmax_spec {xs : List K} (nonempty : xs ≠ []) :
    ∃ i, argmax xs = some i ∧ ∃ h : i < xs.length, ∀ x ∈ xs, x ≤ xs[i] := by
  obtain ⟨m, hm⟩ := Option.isSome_iff_exists.mp (List.isSome_max?_of_ne_nil nonempty)
  obtain ⟨mem, above⟩ := List.max?_eq_some_iff.mp hm
  refine ⟨xs.idxOf m,by rw [argmax, hm]; rfl,List.idxOf_lt_length_of_mem mem,?_⟩
  rw [List.getElem_idxOf]
  exact above

/-- Any threshold that some score reaches selects the same rows as the least score it admits. -/
theorem exists_attained (reached : ∃ r ∈ rows, t ≤ r.1) :
    ∃ s ∈ distinctScores rows, ∀ r ∈ rows, t ≤ r.1 ↔ s ≤ r.1 := by
  have nonempty : (rows.map Prod.fst).filter (fun x => decide (t ≤ x)) ≠ [] := by
    obtain ⟨r, hr, le⟩ := reached
    exact List.ne_nil_of_mem (List.mem_filter.mpr ⟨List.mem_map_of_mem hr,by simpa using le⟩)
  obtain ⟨s, hs⟩ := Option.isSome_iff_exists.mp (List.isSome_min?_of_ne_nil nonempty)
  obtain ⟨mem, below⟩ := List.min?_eq_some_iff.mp hs
  obtain ⟨attained, admitted⟩ := List.mem_filter.mp mem
  refine ⟨s,by simpa [mem_distinctScores] using attained,fun r hr => ⟨fun le => ?_,fun le => ?_⟩⟩
  · exact below r.1 (List.mem_filter.mpr ⟨List.mem_map_of_mem hr,by simpa using le⟩)
  · exact (of_decide_eq_true admitted).trans le

end Lemmas

variable [Field K]

section Scores

variable (rows : List (Row K)) (t : K)

/-- `f1_score(y_true, (y_prob >= t).astype(int), zero_division=0)` -/
def f1Score : K :=
  if 2 * truePositives rows t + falsePositives rows t + falseNegatives rows t = 0 then 0
  else (2 * truePositives rows t : Nat) /
    (2 * truePositives rows t + falsePositives rows t + falseNegatives rows t : Nat)

/-- The precision of the rows at and above `t`; without such rows it is zero. -/
def precisionAt : K := truePositives rows t / (truePositives rows t + falsePositives rows t : Nat)

/-- Without a positive label the recall counts as one. -/
def recallAt : K :=
  if positives rows = 0 then 1 else truePositives rows t / positives rows

end Scores

/-- `precision_recall_curve`: precision, recall and thresholds, the first two with a last point
that has no threshold. -/
def precisionRecallCurve (rows : List (Row K)) : List K × List K × List K :=
  ((distinctScores rows).map (precisionAt rows) ++ [1],
    (distinctScores rows).map (recallAt rows) ++ [0],distinctScores rows)

/-- `2 * precision * recall / np.maximum(precision + recall, 1e-9)` at one point -/
def clampedF1 (p r : K) : K :=
  (2 : Nat) * p * r / max (p + r) (1 / (10 ^ 9 : Nat))

/-- `none` where `np.argmax` raises on no thresholds at all. -/
def findOptimalThreshold (yTrue : List Bool) (yProb : List K) : Option K := do
  let (precisions, recalls, thresholds) := precisionRecallCurve (yProb.zip yTrue)
  let f1s := List.zipWith clampedF1 precisions recalls
  let bestIdx ← argmax f1s.dropLast
  thresholds[bestIdx]?

variable {rows : List (Row K)} {t : K}

theorem f1Score_eq (some : 1 ≤ positives rows) :
    f1Score rows t = 2 * truePositives rows t /
      ((truePositives rows t + falsePositives rows t : Nat) + positives rows : K) := by
  have total : truePositives rows t + falseNegatives rows t = positives rows :=
    truePositives_add_falseNegatives
  rw [f1Score, if_neg (by omega), Nat.cast_mul, Nat.cast_ofNat, ← Nat.cast_add]
  congr 2
  omega

/-- Rows that two thresholds do not tell apart count the same. -/
theorem f1Score_congr {u : K} (same : ∀ r ∈ rows, t ≤ r.1 ↔ u ≤ r.1) :
    f1Score rows t = f1Score rows u := by
  have tp : truePositives rows t = truePositives rows u :=
    List.countP_congr fun r hr => by simp [same r hr]
  have fp : falsePositives rows t = falsePositives rows u :=
    List.countP_congr fun r hr => by simp [same r hr]
  have fn : falseNegatives rows t = falseNegatives rows u :=
    List.countP_congr fun r hr => by simp [same r hr]
  rw [f1Score, f1Score, tp, fp, fn]

theorem f1Score_unreached (none : ∀ r ∈ rows, ¬t ≤ r.1) : f1Score rows t = 0 := by
  have tp : truePositives rows t = 0 :=
    List.countP_eq_zero.mpr fun r hr => by simp [none r hr]
  rw [f1Score, tp]
  simp

/-- The artificial last point has no part in the maximum. -/
theorem f1s_dropLast (rows : List (Row K)) :
    (List.zipWith clampedF1 (precisionRecallCurve rows).1 (precisionRecallCurve rows).2.1).dropLast
      = (distinctScores rows).map fun t => clampedF1 (precisionAt rows t) (recallAt rows t) := by
  rw [precisionRecallCurve, List.zipWith_append (by simp), List.zipWith_cons_cons,
    List.zipWith_nil_left, List.dropLast_concat, List.zipWith_map, List.zipWith_self]

variable [IsStrictOrderedRing K]

theorem f1Score_nonneg : 0 ≤ f1Score rows t := by
  unfold f1Score
  split_ifs
  · exact le_rfl
  · positivity

/-- A true positive keeps the clamp of the denominator away: the recall alone is then at least one
in a thousand million. -/
theorem clampedF1_eq (some : 1 ≤ positives rows) (few : rows.length ≤ 10 ^ 9) :
    clampedF1 (precisionAt rows t) (recallAt rows t) = f1Score rows t := by
  have clamp : ((10 ^ 9 : Nat) : K) = 10 ^ 9 := by rw [Nat.cast_pow, Nat.cast_ofNat]
  rw [clampedF1, f1Score_eq some, recallAt, if_neg (by omega), precisionAt, clamp, Nat.cast_ofNat]
  rcases Nat.eq_zero_or_pos (truePositives rows t) with none | hit
  · simp [none]
  · have p1 : (1 : K) ≤ truePositives rows t := by exact_mod_cast hit
    have pos : (0 : K) < positives rows := by exact_mod_cast some
    have pred : (0 : K) < (truePositives rows t + falsePositives rows t : Nat) := by
      exact_mod_cast Nat.add_pos_left hit _
    have bound : (positives rows : K) ≤ 10 ^ 9 := by
      have le : positives rows ≤ 10 ^ 9 := List.countP_le_length.trans few
      exact_mod_cast le
    have least : (1 / 10 ^ 9 : K) ≤ truePositives rows t / positives rows :=
      div_le_div₀ (by linarith) p1 pos bound
    have nonneg : (0 : K) ≤ truePositives rows t /
        (truePositives rows t + falsePositives rows t : Nat) := by positivity
    rw [max_eq_left (by linarith)]
    field_simp
    ring

/-- Among the attained thresholds the code's is the best. -/
theorem find_best {yTrue : List Bool} {yProb : List K} (positive : 1 ≤ positives (yProb.zip yTrue))
    (few : (yProb.zip yTrue).length ≤ 10 ^ 9) :
    ∃ best, findOptimalThreshold yTrue yProb = some best ∧
      best ∈ distinctScores (yProb.zip yTrue) ∧ ∀ s ∈ distinctScores (yProb.zip yTrue),
        f1Score (yProb.zip yTrue) s ≤ f1Score (yProb.zip yTrue) best := by
  have curve := f1s_dropLast (yProb.zip yTrue)
  simp only [clampedF1_eq positive few] at curve
  have nonempty : (distinctScores (yProb.zip yTrue)).map (f1Score (yProb.zip yTrue)) ≠ [] := by
    obtain ⟨r, hr, _⟩ := List.countP_pos_iff.mp positive
    have mem := mem_distinctScores.mpr ⟨r,hr,rfl⟩
    simpa using List.ne_nil_of_mem mem
  obtain ⟨i, hi, bound, above⟩ := argmax_spec nonempty
  rw [List.length_map] at bound
  rw [List.getElem_map] at above
  refine ⟨(distinctScores (yProb.zip yTrue))[i],?_,List.getElem_mem bound,fun s hs => ?_⟩
  · simp only [findOptimalThreshold, curve, hi]
    exact List.getElem?_eq_getElem bound
  · exact above _ (List.mem_map_of_mem hs)

/-- The threshold is a score, and no threshold at all has a better F1. -/
theorem findOptimalThreshold_optimal (yTrue : List Bool) (yProb : List K)
    (aligned : yTrue.length = yProb.length) (few : yProb.length ≤ 10 ^ 9)
    (positive : true ∈ yTrue) :
    ∃ best, findOptimalThreshold yTrue yProb = some best ∧ best ∈ yProb ∧
      ∀ t, f1Score (yProb.zip yTrue) t ≤ f1Score (yProb.zip yTrue) best := by
  have some : 1 ≤ positives (yProb.zip yTrue) := by
    have labels : (yProb.zip yTrue).map Prod.snd = yTrue := List.map_snd_zip aligned.le
    rw [← labels, List.mem_map] at positive
    exact List.countP_pos_iff.mpr positive
  have size : (yProb.zip yTrue).length ≤ 10 ^ 9 := by
    rw [List.length_zip]
    exact (min_le_left _ _).trans few
  obtain ⟨best, found, attained, top⟩ := find_best some size
  refine ⟨best,found,?_,fun t => ?_⟩
  · obtain ⟨r, hr, rfl⟩ := mem_distinctScores.mp attained
    exact (List.of_mem_zip hr).1
  · by_cases reached : ∃ r ∈ yProb.zip yTrue, t ≤ r.1
    · obtain ⟨s, hs, same⟩ := exists_attained reached
      rw [f1Score_congr same]
      exact top s hs
    · rw [f1Score_unreached fun r hr le => reached ⟨r,hr,le⟩]
      exact f1Score_nonneg

theorem findOptimalThreshold_optimal_small :
    ∃ best, findOptimalThreshold [true,false,true] [(3 / 4 : ℚ),1 / 2,1 / 2] = some best ∧
      best ∈ [(3 / 4 : ℚ),1 / 2,1 / 2] ∧
      ∀ t, f1Score ([(3 / 4 : ℚ),1 / 2,1 / 2].zip [true,false,true]) t ≤
        f1Score ([(3 / 4 : ℚ),1 / 2,1 / 2].zip [true,false,true]) best :=
  findOptimalThreshold_optimal [true,false,true] [3 / 4,1 / 2,1 / 2] rfl (by decide) (by decide)

end FraudPlatform.Training
