import FraudPlatform.Canary.History

namespace FraudPlatform.Canary

open Framework

variable {F : Type}

structure CanaryConfig (F : Type) where
  challengerModelPath : String
  challengerFeatureOrderPath : String
  adminToken : String
  championVersion : String
  challengerVersion : String
  canaryWindowHours : Int
  canaryMinLabeledPredictions : Int
  canaryPrAucRollbackDelta : F
  canaryBrierRollbackDelta : F
  canaryPrAucPromoteDelta : F
  canaryRequiredConsecutiveRuns : Int
  canaryLatencyP95RollbackRatio : F

/-- The metrics of scikit-learn and NumPy, as functions of labels, scores, flags and
latencies. They raise on samples they do not accept. -/
structure Sklearn (F : Type) where
  averagePrecisionScore : List Bool → List F → Except String F
  rocAucScore : List Bool → List F → Except String F
  brierScoreLoss : List Bool → List F → Except String F
  mean : List Bool → Except String F
  percentile : List F → Nat → Except String F

/-- One labelled prediction of a window, without its version. -/
structure WindowRow (F : Type) where
  prob : F
  flag : Bool
  label : Bool
  totalMs : F

structure ModelMetrics (F : Type) where
  nPredictions : Nat
  prAuc : F
  rocAuc : F
  brierScore : F
  flagRate : F
  p95TotalMs : F

structure CanaryDecision (F : Type) where
  decision : Decision
  outcome : Outcome
  reason : String
  metrics : Json F
  windowStart : Int
  windowEnd : Int
  decisionId : String

def computeMetrics (S : Sklearn F) (rows : List (WindowRow F)) :
    Except String (ModelMetrics F) := do
  let yTrue := rows.map (·.label)
  let yProb := rows.map (·.prob)
  let prAuc ← S.averagePrecisionScore yTrue yProb
  let rocAuc ← S.rocAucScore yTrue yProb
  let brierScore ← S.brierScoreLoss yTrue yProb
  let flagRate ← S.mean (rows.map (·.flag))
  let p95TotalMs ← S.percentile (rows.map (·.totalMs)) 95
  return ⟨yTrue.length,prAuc,rocAuc,brierScore,flagRate,p95TotalMs⟩

def ModelMetrics.payload (m : ModelMetrics F) : Json F :=
  .object [("n",.int m.nPredictions),("pr_auc",.float m.prAuc),("roc_auc",.float m.rocAuc),
    ("brier_score",.float m.brierScore),("flag_rate",.float m.flagRate),
    ("p95_total_ms",.float m.p95TotalMs)]

section Judgement

variable [Binary64 F] (config : CanaryConfig F) (champM challM : ModelMetrics F)

def prDelta : F := challM.prAuc - champM.prAuc

def brierDelta : F := challM.brierScore - champM.brierScore

def latencyRatio : F := challM.p95TotalMs / champM.p95TotalMs

def prAucTripped : Bool := Binary64.lt (prDelta champM challM) (-config.canaryPrAucRollbackDelta)

def brierTripped : Bool := Binary64.lt config.canaryBrierRollbackDelta (brierDelta champM challM)

def latencyTripped : Bool :=
  Binary64.lt 0 champM.p95TotalMs &&
    Binary64.lt config.canaryLatencyP95RollbackRatio (latencyRatio champM challM)

def guardrailTripped : Bool :=
  prAucTripped config champM challM || brierTripped config champM challM ||
    latencyTripped config champM challM

def prAucImproved : Bool := Binary64.lt config.canaryPrAucPromoteDelta (prDelta champM challM)

structure Verdict where
  decision : Decision
  outcome : Outcome
  reason : String

/-- The branches of `evaluate_canary` once both models have metrics. The history is read
only where the improvement is found. -/
def judge (consecutive : Except String Nat) : Except String Verdict :=
  if prAucTripped config champM challM then
    .ok ⟨.rollback,.rollback,"challenger pr_auc worse by " ++
      Binary64.fixed 4 (Binary64.abs (prDelta champM challM)) ++ " (threshold " ++
      Binary64.repr config.canaryPrAucRollbackDelta ++ ")"⟩
  else if brierTripped config champM challM then
    .ok ⟨.rollback,.rollback,"challenger brier_score worse by " ++
      Binary64.fixed 4 (brierDelta champM challM) ++ " (threshold " ++
      Binary64.repr config.canaryBrierRollbackDelta ++ ")"⟩
  else if latencyTripped config champM challM then
    .ok ⟨.rollback,.rollback,"challenger p95 total " ++ Binary64.fixed 1 challM.p95TotalMs ++
      "ms is " ++ Binary64.fixed 1 (latencyRatio champM challM) ++ "x champion (" ++
      Binary64.fixed 1 champM.p95TotalMs ++ "ms)"⟩
  else if prAucImproved config champM challM then
    match consecutive with
    | .error e => .error e
    | .ok consecutive =>
      if config.canaryRequiredConsecutiveRuns - 1 ≤ consecutive then
        .ok ⟨.promote,.promoted,"challenger pr_auc better by " ++
          Binary64.fixed 4 (prDelta champM challM) ++ " for " ++ toString (consecutive + 1) ++
          " consecutive runs"⟩
      else
        .ok ⟨.continue,.improving,"challenger pr_auc better by " ++
          Binary64.fixed 4 (prDelta champM challM) ++ "; " ++ toString (consecutive + 1) ++ "/" ++
          toString config.canaryRequiredConsecutiveRuns ++ " consecutive runs"⟩
  else .ok ⟨.continue,.noSignal,"no_clear_signal"⟩

/-- What a verdict says about the metrics and the history. -/
theorem judge_cases {consecutive : Except String Nat} {v : Verdict}
    (h : judge config champM challM consecutive = .ok v) :
    (v.outcome = .rollback ∧ v.decision = .rollback ∧
      guardrailTripped config champM challM = true) ∨
    (v.outcome = .promoted ∧ v.decision = .promote ∧
      guardrailTripped config champM challM = false ∧ prAucImproved config champM challM = true ∧
      ∃ k : Nat, consecutive = .ok k ∧ config.canaryRequiredConsecutiveRuns - 1 ≤ k) ∨
    (v.outcome = .improving ∧ v.decision = .continue ∧
      guardrailTripped config champM challM = false ∧ prAucImproved config champM challM = true ∧
      ∃ k : Nat, consecutive = .ok k ∧ ¬config.canaryRequiredConsecutiveRuns - 1 ≤ k) ∨
    (v.outcome = .noSignal ∧ v.decision = .continue ∧
      guardrailTripped config champM challM = false ∧
      prAucImproved config champM challM = false) := by
  unfold judge at h
  by_cases hp : prAucTripped config champM challM
  · rw [if_pos hp] at h
    cases h
    exact Or.inl ⟨rfl,rfl,by simp [guardrailTripped, hp]⟩
  rw [if_neg hp] at h
  by_cases hb : brierTripped config champM challM
  · rw [if_pos hb] at h
    cases h
    exact Or.inl ⟨rfl,rfl,by simp [guardrailTripped, hb]⟩
  rw [if_neg hb] at h
  by_cases hl : latencyTripped config champM challM
  · rw [if_pos hl] at h
    cases h
    exact Or.inl ⟨rfl,rfl,by simp [guardrailTripped, hl]⟩
  rw [if_neg hl] at h
  have quiet : guardrailTripped config champM challM = false := by
    simp [guardrailTripped, hp, hb, hl]
  by_cases hi : prAucImproved config champM challM
  · rw [if_pos hi] at h
    cases consecutive with
    | error e => cases h
    | ok k =>
      dsimp only at h
      by_cases hk : config.canaryRequiredConsecutiveRuns - 1 ≤ k
      · rw [if_pos hk] at h
        cases h
        exact Or.inr (Or.inl ⟨rfl,rfl,quiet,hi,k,rfl,hk⟩)
      · rw [if_neg hk] at h
        cases h
        exact Or.inr (Or.inr (Or.inl ⟨rfl,rfl,quiet,hi,k,rfl,hk⟩))
  · rw [if_neg hi] at h
    cases h
    exact Or.inr (Or.inr (Or.inr ⟨rfl,rfl,quiet,by simpa using hi⟩))

/-- With the history at hand every pair of metrics has a verdict. -/
theorem judge_ok (k : Nat) : ∃ v, judge config champM challM (.ok k) = .ok v := by
  unfold judge
  dsimp only
  split_ifs <;> exact ⟨_,rfl⟩

end Judgement

/-- The tables `evaluate_canary` reads. -/
structure Database (F : Type) where
  predictions : List (Prediction F)
  labels : List Label
  decisions : DecisionLog F

/-- The clock, the fresh id and the two queries of one evaluation. -/
structure EvaluateEnv where
  now : Int
  decisionId : String
  windowQuery : Except String Unit
  historyQuery : Except String Unit

/-- The join of predictions with the labels that have arrived by `now`. -/
def labeledRows (predictions : List (Prediction F)) (labels : List Label)
    (windowStart windowEnd now : Int) (championVersion challengerVersion : String) :
    List (String × WindowRow F) :=
  (predictions.filter (fun p => windowStart ≤ p.createdAt ∧ p.createdAt ≤ windowEnd ∧
    (p.modelVersion = championVersion ∨ p.modelVersion = challengerVersion))).flatMap fun p =>
      (labels.filter (fun l => l.transactionId = p.transactionId ∧ l.availableAt ≤ now)).map
        fun l => (p.modelVersion,⟨p.fraudProbability,p.flagged,l.isFraud,p.totalMs⟩)

def rowsOf (rows : List (String × WindowRow F)) (version : String) : List (WindowRow F) :=
  (rows.filter (fun r => r.1 = version)).map (·.2)

def windowStart (now windowHours : Int) : Int := now - windowHours * 3600 * 1000000

/-- The window's rows for one of the two versions. -/
def windowRows (predictions : List (Prediction F)) (labels : List Label) (now windowHours : Int)
    (championVersion challengerVersion version : String) : List (WindowRow F) :=
  rowsOf (labeledRows predictions labels (windowStart now windowHours) now now championVersion
    challengerVersion) version

def insufficient (config : CanaryConfig F) (champRows challRows : List (WindowRow F)) : Bool :=
  (champRows.length : Int) < config.canaryMinLabeledPredictions ∨
    (challRows.length : Int) < config.canaryMinLabeledPredictions

def evaluateCanary [Binary64 F] (S : Sklearn F) (env : EvaluateEnv) (db : Database F)
    (championVersion challengerVersion : String) (windowHours : Int) (config : CanaryConfig F)
    (priorOutcomes : Option (List String)) : Except String (CanaryDecision F) := do
  env.windowQuery
  let champRows := windowRows db.predictions db.labels env.now windowHours championVersion
    challengerVersion championVersion
  let challRows := windowRows db.predictions db.labels env.now windowHours championVersion
    challengerVersion challengerVersion
  if insufficient config champRows challRows then
    return ⟨.continue,.insufficientData,"insufficient_data",
      .object [("champion_n",.int champRows.length),("challenger_n",.int challRows.length),
        ("min_required",.int config.canaryMinLabeledPredictions)],
      windowStart env.now windowHours,env.now,env.decisionId⟩
  else
    let champM ← computeMetrics S champRows
    let challM ← computeMetrics S challRows
    let consecutive :=
      match priorOutcomes with
      | some _ => .ok (countConsecutiveImprovements db.decisions championVersion
          challengerVersion priorOutcomes)
      | none => env.historyQuery.map fun _ => countConsecutiveImprovements db.decisions
          championVersion challengerVersion none
    let v ← judge config champM challM consecutive
    return ⟨v.decision,v.outcome,v.reason,
      .object [("champion",champM.payload),("challenger",challM.payload)],
      windowStart env.now windowHours,env.now,env.decisionId⟩

end FraudPlatform.Canary
