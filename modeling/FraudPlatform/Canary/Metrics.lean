import FraudPlatform.Canary.Evaluator
import FraudPlatform.Framework.Exact
import Mathlib.Data.List.Sort

namespace FraudPlatform.Canary

open Framework

section Documented

variable {F : Type} [Binary64 F]

/-- A sample a metric of scores accepts: one label a score, every score in [0,1]. -/
def Scored (yTrue : List Bool) (yProb : List F) : Prop :=
  yTrue ≠ [] ∧ yTrue.length = yProb.length ∧
    ∀ x ∈ yProb, Binary64.le 0 x = true ∧ Binary64.le x 1 = true

/-- What scikit-learn 1.8 and NumPy document of the metrics: on accepted samples all are
finite, but for the area under a ROC curve that lacks one of the classes. -/
structure Sklearn.Documented (S : Sklearn F) : Prop where
  averagePrecision : ∀ yTrue yProb, Scored yTrue yProb →
    ∃ x, S.averagePrecisionScore yTrue yProb = .ok x ∧ Binary64.isFinite x = true
  rocAuc : ∀ yTrue yProb, Scored yTrue yProb → ∃ x, S.rocAucScore yTrue yProb = .ok x ∧
    (Binary64.isFinite x = true ↔ true ∈ yTrue ∧ false ∈ yTrue)
  rocAuc_empty : ∃ e, S.rocAucScore [] [] = .error e
  brier : ∀ yTrue yProb, Scored yTrue yProb →
    ∃ x, S.brierScoreLoss yTrue yProb = .ok x ∧ Binary64.isFinite x = true
  mean : ∀ flags, flags ≠ [] → ∃ x, S.mean flags = .ok x ∧ Binary64.isFinite x = true
  percentile : ∀ xs q, xs ≠ [] → q ≤ 100 →
    (∀ x ∈ xs, Binary64.isFinite x = true ∧ Binary64.le 0 x = true) →
    ∃ x, S.percentile xs q = .ok x ∧ Binary64.isFinite x = true

/-- A score in [0,1] and the duration of a request. -/
def WindowRow.WellFormed (r : WindowRow F) : Prop :=
  (Binary64.le 0 r.prob = true ∧ Binary64.le r.prob 1 = true) ∧
    Binary64.isFinite r.totalMs = true ∧ Binary64.le 0 r.totalMs = true

def BothClasses (rows : List (WindowRow F)) : Prop :=
  true ∈ rows.map (·.label) ∧ false ∈ rows.map (·.label)

instance (rows : List (WindowRow F)) : Decidable (BothClasses rows) :=
  inferInstanceAs (Decidable (_ ∧ _))

variable {S : Sklearn F} (hS : S.Documented) {rows : List (WindowRow F)}

include hS

theorem computeMetrics_empty : ∃ e, computeMetrics S [] = .error e := by
  obtain ⟨e, he⟩ := hS.rocAuc_empty
  cases hp : S.averagePrecisionScore [] [] with
  | error e' => exact ⟨e',by simp [computeMetrics, hp, bind, Except.bind]⟩
  | ok x => exact ⟨e,by simp [computeMetrics, hp, he, bind, Except.bind]⟩

/-- Metrics exist for every window with rows, and are JSON just when both classes are there. -/
theorem computeMetrics_documented (hne : rows ≠ []) (hr : ∀ r ∈ rows, r.WellFormed) :
    ∃ m, computeMetrics S rows = .ok m ∧ (m.payload.finite = true ↔ BothClasses rows) := by
  have scored : Scored (rows.map (·.label)) (rows.map (·.prob)) := by
    refine ⟨by simpa using hne,by simp,fun x hx => ?_⟩
    obtain ⟨r, hmem, rfl⟩ := List.mem_map.mp hx
    exact (hr r hmem).1
  have timed : ∀ x ∈ rows.map (·.totalMs), Binary64.isFinite x = true ∧ Binary64.le 0 x = true := by
    intro x hx
    obtain ⟨r, hmem, rfl⟩ := List.mem_map.mp hx
    exact (hr r hmem).2
  obtain ⟨prAuc, hpr, fpr⟩ := hS.averagePrecision _ _ scored
  obtain ⟨rocAuc, hroc, froc⟩ := hS.rocAuc _ _ scored
  obtain ⟨brierScore, hbrier, fbrier⟩ := hS.brier _ _ scored
  obtain ⟨flagRate, hflag, fflag⟩ := hS.mean (rows.map (·.flag)) (by simpa using hne)
  obtain ⟨p95, hp95, fp95⟩ := hS.percentile (rows.map (·.totalMs)) 95 (by simpa using hne)
    (by omega) timed
  refine ⟨⟨(rows.map (·.label)).length,prAuc,rocAuc,brierScore,flagRate,p95⟩,?_,?_⟩
  · simp only [computeMetrics, hpr, hroc, hbrier, hflag, hp95, bind, Except.bind, pure, Except.pure]
  · simp only [ModelMetrics.payload, Json.finite_object_cons, Json.finite_object_nil,
      Json.finite_int, Json.finite_float, fpr, fbrier, fflag, fp95, Bool.and_true, Bool.true_and]
    exact froc

end Documented

section ExactMetrics

/-- Labels with their scores; NaN is refused. -/
def samples (yTrue : List Bool) (yProb : List Exact) : Except String (List (Bool × ℚ)) :=
  if yProb.all (·.isSome) then .ok (yTrue.zip (yProb.map (·.getD 0)))
  else .error "Input contains NaN."

/-- The precision at a positive's own score, averaged over the positives. -/
def averagePrecision (xs : List (Bool × ℚ)) : ℚ :=
  let positives := xs.filter (·.1)
  (positives.map fun x => ((positives.filter (x.2 ≤ ·.2)).length : ℚ) /
    (xs.filter (x.2 ≤ ·.2)).length).sum / positives.length

/-- The share of pairs of a positive and a negative in the right order, ties counting half. -/
def rocAuc (xs : List (Bool × ℚ)) : Exact :=
  let positives := xs.filter (·.1)
  let negatives := xs.filter (!·.1)
  if positives = [] ∨ negatives = [] then none
  else some ((positives.map fun x => (negatives.map fun y =>
    if y.2 < x.2 then (1 : ℚ) else if y.2 = x.2 then 1 / 2 else 0).sum).sum /
      (positives.length * negatives.length))

def brierScore (xs : List (Bool × ℚ)) : ℚ :=
  (xs.map fun x => (x.2 - (x.1.toNat : ℚ)) * (x.2 - (x.1.toNat : ℚ))).sum / xs.length

/-- Linear interpolation between the two closest ranks. -/
def percentileOf (xs : List ℚ) (q : Nat) : ℚ :=
  let sorted := xs.insertionSort (· ≤ ·)
  let rank := (xs.length - 1) * q
  let lower := sorted.getD (rank / 100) 0
  let upper := sorted.getD (rank / 100 + 1) lower
  lower + (upper - lower) * ((rank % 100 : Nat) / 100)

/-- The metrics in exact arithmetic. -/
def exactSklearn : Sklearn Exact where
  averagePrecisionScore yTrue yProb :=
    (samples yTrue yProb).map fun xs => some (averagePrecision xs)
  rocAucScore yTrue yProb := do
    let xs ← samples yTrue yProb
    if xs = [] then throw "Found array with 0 sample(s)" else return rocAuc xs
  brierScoreLoss yTrue yProb := do
    let xs ← samples yTrue yProb
    if xs.all (fun x => 0 ≤ x.2 ∧ x.2 ≤ 1) then return some (brierScore xs)
    else throw "y_prob contains values outside [0,1]"
  mean flags :=
    if flags = [] then .ok none else .ok (some ((flags.filter (·)).length / flags.length))
  percentile xs q :=
    if xs = [] then .error "index -1 is out of bounds for axis 0 with size 0"
    else if xs.all (·.isSome) then .ok (some (percentileOf (xs.map (·.getD 0)) q))
    else .ok none

end ExactMetrics

theorem exact_score {x : Exact} (h0 : Binary64.le 0 x = true) (h1 : Binary64.le x 1 = true) :
    ∃ a : ℚ, x = some a ∧ 0 ≤ a ∧ a ≤ 1 := by
  cases x with
  | none => cases h1
  | some a => exact ⟨a,rfl,of_decide_eq_true h0,of_decide_eq_true h1⟩

theorem samples_of_scored {yTrue : List Bool} {yProb : List Exact} (h : Scored yTrue yProb) :
    ∃ xs, samples yTrue yProb = .ok xs ∧ xs.map (·.1) = yTrue ∧ ∀ x ∈ xs, 0 ≤ x.2 ∧ x.2 ≤ 1 := by
  have known : yProb.all (·.isSome) = true := by
    rw [List.all_eq_true]
    intro x hx
    obtain ⟨a, rfl, _⟩ := exact_score (h.2.2 x hx).1 (h.2.2 x hx).2
    rfl
  refine ⟨yTrue.zip (yProb.map (·.getD 0)),by rw [samples, if_pos known],?_,?_⟩
  · exact List.map_fst_zip (by rw [List.length_map, h.2.1])
  · intro x hx
    have second := (List.of_mem_zip hx).2
    obtain ⟨y, hy, hxy⟩ := List.mem_map.mp second
    obtain ⟨a, rfl, ha⟩ := exact_score (h.2.2 y hy).1 (h.2.2 y hy).2
    rw [← hxy]
    exact ha

theorem rocAuc_isSome (xs : List (Bool × ℚ)) :
    (rocAuc xs).isSome = true ↔ true ∈ xs.map (·.1) ∧ false ∈ xs.map (·.1) := by
  have positive : xs.filter (·.1) ≠ [] ↔ true ∈ xs.map (·.1) := by
    simp [List.filter_eq_nil_iff]
  have negative : xs.filter (!·.1) ≠ [] ↔ false ∈ xs.map (·.1) := by
    simp [List.filter_eq_nil_iff]
  rw [← positive, ← negative, rocAuc]
  by_cases hp : xs.filter (·.1) = []
  · simp [hp]
  · by_cases hn : xs.filter (!·.1) = []
    · simp [hn]
    · simp [hp, hn]

/-- Exact arithmetic meets what the libraries document. -/
theorem exactSklearn_documented : exactSklearn.Documented where
  averagePrecision yTrue yProb h := by
    obtain ⟨xs, hx, _⟩ := samples_of_scored h
    exact ⟨some (averagePrecision xs),by simp [exactSklearn, hx, Except.map],rfl⟩
  rocAuc yTrue yProb h := by
    obtain ⟨xs, hx, hl, _⟩ := samples_of_scored h
    have hne : xs ≠ [] := fun hnil => h.1 (by rw [← hl, hnil]; rfl)
    refine ⟨rocAuc xs,by simp [exactSklearn, hx, hne, bind, Except.bind, pure, Except.pure],?_⟩
    rw [← hl]
    exact rocAuc_isSome xs
  rocAuc_empty := ⟨"Found array with 0 sample(s)",by decide⟩
  brier yTrue yProb h := by
    obtain ⟨xs, hx, _, hr⟩ := samples_of_scored h
    have inside : xs.all (fun x => 0 ≤ x.2 ∧ x.2 ≤ 1) = true := by
      rw [List.all_eq_true]
      intro x hm
      exact decide_eq_true (hr x hm)
    refine ⟨some (brierScore xs),?_,rfl⟩
    simp only [exactSklearn, hx, inside, bind, Except.bind, if_true, pure, Except.pure]
  mean flags h := ⟨some ((flags.filter (·)).length / flags.length),by simp [exactSklearn, h],rfl⟩
  percentile xs q hne _ h := by
    have known : xs.all (·.isSome) = true := by
      rw [List.all_eq_true]
      exact fun x hx => (h x hx).1
    refine ⟨some (percentileOf (xs.map (·.getD 0)) q),?_,rfl⟩
    simp only [exactSklearn, if_neg hne, if_pos known]

end FraudPlatform.Canary
