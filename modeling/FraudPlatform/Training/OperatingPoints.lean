import FraudPlatform.Training.Evaluate
import Mathlib.Order.Bounds.Basic

namespace FraudPlatform.Training

variable {K : Type}

theorem mem_curve {f g : K → K} {a b : K} {ts : List K} {x : K × K} :
    x ∈ (ts.map f ++ [a]).zip (ts.map g ++ [b]) ↔ (∃ t ∈ ts, x = (f t,g t)) ∨ x = (a,b) := by
  rw [List.zip_append (by simp), List.zip_map', List.mem_append, List.mem_map]
  simp only [List.zip_cons_cons, List.zip_nil_right, List.mem_singleton, eq_comm]

variable [LinearOrder K]

theorem truePositives_congr {rows : List (Row K)} {t u : K}
    (same : ∀ r ∈ rows, t ≤ r.1 ↔ u ≤ r.1) :
    truePositives rows t = truePositives rows u :=
  List.countP_congr fun r hr => by simp [same r hr]

variable [Field K]

/-- `take[keep >= least].max()`, or zero when the mask is empty -/
def maxWhere (keep take : List K) (least : K) : K :=
  (((keep.zip take).filter fun x => least ≤ x.1).map Prod.snd).max?.getD 0

def recallAtPrecision (yTrue : List Bool) (yProb : List K) (minPrecision : K) : K :=
  let (precisions, recalls, _) := precisionRecallCurve (yProb.zip yTrue)
  maxWhere precisions recalls minPrecision

def precisionAtRecall (yTrue : List Bool) (yProb : List K) (minRecall : K) : K :=
  let (precisions, recalls, _) := precisionRecallCurve (yProb.zip yTrue)
  maxWhere recalls precisions minRecall

section MaxWhere

variable {keep take : List K} {least : K}

theorem maxWhere_mem (keep take : List K) (least : K) : maxWhere keep take least = 0 ∨
    ∃ x ∈ keep.zip take, least ≤ x.1 ∧ maxWhere keep take least = x.2 := by
  unfold maxWhere
  cases hm : (((keep.zip take).filter fun x => least ≤ x.1).map Prod.snd).max? with
  | none => exact Or.inl rfl
  | some m =>
    obtain ⟨mem, _⟩ := List.max?_eq_some_iff.mp hm
    obtain ⟨x, hx, rfl⟩ := List.mem_map.mp mem
    obtain ⟨member, kept⟩ := List.mem_filter.mp hx
    exact Or.inr ⟨x,member,of_decide_eq_true kept,rfl⟩

theorem le_maxWhere {x : K × K} (hx : x ∈ keep.zip take) (kept : least ≤ x.1) :
    x.2 ≤ maxWhere keep take least := by
  have mem : x.2 ∈ ((keep.zip take).filter fun x => least ≤ x.1).map Prod.snd :=
    List.mem_map_of_mem (List.mem_filter.mpr ⟨hx,decide_eq_true kept⟩)
  unfold maxWhere
  cases hm : (((keep.zip take).filter fun x => least ≤ x.1).map Prod.snd).max? with
  | none =>
    rw [List.max?_eq_none_iff.mp hm] at mem
    cases mem
  | some m => exact (List.max?_eq_some_iff.mp hm).2 x.2 mem

theorem maxWhere_nonneg (h : ∀ x ∈ keep.zip take, 0 ≤ x.2) : 0 ≤ maxWhere keep take least := by
  obtain zero | ⟨x, hx, _, same⟩ := maxWhere_mem keep take least
  · exact zero.ge
  · rw [same]
    exact h x hx

end MaxWhere

section Curve

variable {rows : List (Row K)} {t u : K}

theorem precisionAt_congr (same : ∀ r ∈ rows, t ≤ r.1 ↔ u ≤ r.1) :
    precisionAt rows t = precisionAt rows u := by
  have fp : falsePositives rows t = falsePositives rows u :=
    List.countP_congr fun r hr => by simp [same r hr]
  rw [precisionAt, precisionAt, truePositives_congr same, fp]

theorem recallAt_congr (same : ∀ r ∈ rows, t ≤ r.1 ↔ u ≤ r.1) :
    recallAt rows t = recallAt rows u := by
  rw [recallAt, recallAt, truePositives_congr same]

theorem precisionAt_unreached (none : ∀ r ∈ rows, ¬t ≤ r.1) : precisionAt rows t = 0 := by
  have tp : truePositives rows t = 0 :=
    List.countP_eq_zero.mpr fun r hr => by simp [none r hr]
  rw [precisionAt, tp, Nat.cast_zero, zero_div]

/-- Beyond the attained thresholds there is nothing but a precision of zero. -/
theorem attained_or_zero (rows : List (Row K)) (t : K) : precisionAt rows t = 0 ∨
    ∃ s ∈ distinctScores rows, precisionAt rows t = precisionAt rows s ∧
      recallAt rows t = recallAt rows s := by
  by_cases reached : ∃ r ∈ rows, t ≤ r.1
  · obtain ⟨s, hs, same⟩ := exists_attained reached
    exact Or.inr ⟨s,hs,precisionAt_congr same,recallAt_congr same⟩
  · exact Or.inl (precisionAt_unreached fun r hr le => reached ⟨r,hr,le⟩)

variable [IsStrictOrderedRing K]

theorem precisionAt_nonneg : 0 ≤ precisionAt rows t := by
  unfold precisionAt
  positivity

theorem recallAt_nonneg : 0 ≤ recallAt rows t := by
  unfold recallAt
  split_ifs
  · exact zero_le_one
  · positivity

end Curve

variable [IsStrictOrderedRing K] (yTrue : List Bool) (yProb : List K)

/-- The last point of the curve adds no more than the zero. -/
theorem recallAtPrecision_isGreatest {p : K} (hp : 0 < p) :
    IsGreatest {v | v = 0 ∨ ∃ t, p ≤ precisionAt (yProb.zip yTrue) t ∧
      v = recallAt (yProb.zip yTrue) t} (recallAtPrecision yTrue yProb p) := by
  constructor
  · obtain zero | ⟨x, hx, kept, same⟩ := maxWhere_mem (precisionRecallCurve (yProb.zip yTrue)).1
      (precisionRecallCurve (yProb.zip yTrue)).2.1 p
    · exact Or.inl zero
    · obtain ⟨t, _, rfl⟩ | rfl := mem_curve.mp hx
      · exact Or.inr ⟨t,kept,same⟩
      · exact Or.inl same
  · intro v hv
    obtain rfl | ⟨t, kept, rfl⟩ := hv
    · apply maxWhere_nonneg
      intro x hx
      obtain ⟨t, _, rfl⟩ | rfl := mem_curve.mp hx
      · exact recallAt_nonneg
      · exact le_rfl
    · obtain zero | ⟨s, hs, precision, caught⟩ := attained_or_zero (yProb.zip yTrue) t
      · exact absurd (kept.trans_eq zero) hp.not_ge
      · rw [precision] at kept
        rw [caught]
        exact le_maxWhere (x := (precisionAt (yProb.zip yTrue) s,recallAt (yProb.zip yTrue) s))
          (mem_curve.mpr (Or.inl ⟨s,hs,rfl⟩)) kept

theorem precisionAtRecall_isGreatest {r : K} (hr : 0 < r) :
    IsGreatest {v | v = 0 ∨ ∃ t, r ≤ recallAt (yProb.zip yTrue) t ∧
      v = precisionAt (yProb.zip yTrue) t} (precisionAtRecall yTrue yProb r) := by
  constructor
  · obtain zero | ⟨x, hx, kept, same⟩ := maxWhere_mem (precisionRecallCurve (yProb.zip yTrue)).2.1
      (precisionRecallCurve (yProb.zip yTrue)).1 r
    · exact Or.inl zero
    · obtain ⟨t, _, rfl⟩ | rfl := mem_curve.mp hx
      · exact Or.inr ⟨t,kept,same⟩
      · exact absurd kept hr.not_ge
  · have nonneg : 0 ≤ precisionAtRecall yTrue yProb r := by
      apply maxWhere_nonneg
      intro x hx
      obtain ⟨t, _, rfl⟩ | rfl := mem_curve.mp hx
      · exact precisionAt_nonneg
      · exact zero_le_one
    intro v hv
    obtain rfl | ⟨t, kept, rfl⟩ := hv
    · exact nonneg
    · obtain zero | ⟨s, hs, precision, caught⟩ := attained_or_zero (yProb.zip yTrue) t
      · rw [zero]
        exact nonneg
      · rw [caught] at kept
        rw [precision]
        exact le_maxWhere (x := (recallAt (yProb.zip yTrue) s,precisionAt (yProb.zip yTrue) s))
          (mem_curve.mpr (Or.inl ⟨s,hs,rfl⟩)) kept

/-- Both figures are optima over all thresholds, and either tells which values of the other can
be had. -/
theorem operatingPoints_optimal {p r : K} (hp : 0 < p) (hr : 0 < r) :
    IsGreatest {v | v = 0 ∨ ∃ t, p ≤ precisionAt (yProb.zip yTrue) t ∧
      v = recallAt (yProb.zip yTrue) t} (recallAtPrecision yTrue yProb p) ∧
    IsGreatest {v | v = 0 ∨ ∃ t, r ≤ recallAt (yProb.zip yTrue) t ∧
      v = precisionAt (yProb.zip yTrue) t} (precisionAtRecall yTrue yProb r) ∧
    (r ≤ recallAtPrecision yTrue yProb p ↔ p ≤ precisionAtRecall yTrue yProb r) := by
  have caught := recallAtPrecision_isGreatest yTrue yProb hp
  have precision := precisionAtRecall_isGreatest yTrue yProb hr
  refine ⟨caught,precision,fun le => ?_,fun le => ?_⟩
  · obtain zero | ⟨t, kept, same⟩ := caught.1
    · exact absurd (le.trans_eq zero) hr.not_ge
    · exact kept.trans (precision.2 (Or.inr ⟨t,le.trans_eq same,rfl⟩))
  · obtain zero | ⟨t, kept, same⟩ := precision.1
    · exact absurd (le.trans_eq zero) hp.not_ge
    · exact kept.trans (caught.2 (Or.inr ⟨t,le.trans_eq same,rfl⟩))

theorem operatingPoints_optimal_small :
    IsGreatest {v | v = 0 ∨ ∃ t, 1 / 2 ≤ precisionAt ([(3 / 4 : ℚ),1 / 4].zip [false,true]) t ∧
      v = recallAt ([(3 / 4 : ℚ),1 / 4].zip [false,true]) t}
      (recallAtPrecision [false,true] [(3 / 4 : ℚ),1 / 4] (1 / 2)) ∧
    IsGreatest {v | v = 0 ∨ ∃ t, 1 ≤ recallAt ([(3 / 4 : ℚ),1 / 4].zip [false,true]) t ∧
      v = precisionAt ([(3 / 4 : ℚ),1 / 4].zip [false,true]) t}
      (precisionAtRecall [false,true] [(3 / 4 : ℚ),1 / 4] 1) ∧
    (1 ≤ recallAtPrecision [false,true] [(3 / 4 : ℚ),1 / 4] (1 / 2) ↔
      1 / 2 ≤ precisionAtRecall [false,true] [(3 / 4 : ℚ),1 / 4] 1) :=
  operatingPoints_optimal [false,true] [3 / 4,1 / 4] (by norm_num) one_pos

end FraudPlatform.Training
