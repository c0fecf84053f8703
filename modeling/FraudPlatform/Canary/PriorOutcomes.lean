import FraudPlatform.Canary.Soundness

namespace FraudPlatform.Canary

open Framework

variable {F : Type}

section History

variable (db : Database F) (champion challenger : String) (config : CanaryConfig F)

/-- The outcomes recorded for the pair, oldest first. -/
def recordedOutcomes : List String := (db.decisions.ofPair champion challenger).map (·.outcome)

/-- The newest `canary_required_consecutive_runs - 1` outcomes of the pair all improve. -/
def Sustained : Prop :=
  config.canaryRequiredConsecutiveRuns - 1 ≤ (recordedOutcomes db champion challenger).length ∧
    ∀ o ∈ (recordedOutcomes db champion challenger).reverse.take
      (config.canaryRequiredConsecutiveRuns - 1).toNat, o = "improving"

instance : Decidable (Sustained db champion challenger config) := by
  unfold Sustained
  infer_instance

/-- The list path promotes after a sustained improvement. -/
theorem sustained_iff :
    Sustained db champion challenger config ↔
      config.canaryRequiredConsecutiveRuns - 1 ≤
        (countConsecutiveImprovements db.decisions champion challenger
          (some (recordedOutcomes db champion challenger)) : Int) := by
  rw [countConsecutiveImprovements_some, ← Int.toNat_le, le_streak_iff, List.length_reverse,
    Int.toNat_le, Sustained]
  simp [isImproving]

/-- The query sees the list's streak up to its limit of ten rows. -/
theorem count_none_eq_min :
    countConsecutiveImprovements db.decisions champion challenger none =
      min 10 (countConsecutiveImprovements db.decisions champion challenger
        (some (recordedOutcomes db champion challenger))) := by
  rw [countConsecutiveImprovements_none, countConsecutiveImprovements_some, recordedOutcomes,
    ← List.map_reverse, streak_map]

end History

variable [Binary64 F]

/-- What the judgement decides once `consecutive` improvements are counted. -/
def decisionAt (config : CanaryConfig F) (champM challM : ModelMetrics F) (consecutive : Nat) :
    Decision :=
  if guardrailTripped config champM challM then .rollback
  else if prAucImproved config champM challM then
    if config.canaryRequiredConsecutiveRuns - 1 ≤ consecutive then .promote else .continue
  else .continue

theorem judge_decision {config : CanaryConfig F} {champM challM : ModelMetrics F} {k : Nat}
    {v : Verdict} (h : judge config champM challM (.ok k) = .ok v) :
    v.decision = decisionAt config champM challM k := by
  unfold decisionAt
  rcases judge_cases config champM challM h with
    ⟨_, hd, hg⟩ | ⟨_, hd, hg, hi, n, hn, hk⟩ | ⟨_, hd, hg, hi, n, hn, hk⟩ | ⟨_, hd, hg, hi⟩
  · rw [hd, if_pos hg]
  · rw [Except.ok.injEq] at hn
    rw [hd, hg, hi, hn, if_neg Bool.false_ne_true, if_pos rfl, if_pos hk]
  · rw [Except.ok.injEq] at hn
    rw [hd, hg, hi, hn, if_neg Bool.false_ne_true, if_pos rfl, if_neg hk]
  · rw [hd, hg, hi, if_neg Bool.false_ne_true, if_neg Bool.false_ne_true]

/-- Two counts lead to one decision unless the runs asked for lie between them. -/
theorem decisionAt_eq_iff {config : CanaryConfig F} {champM challM : ModelMetrics F}
    (quiet : guardrailTripped config champM challM = false)
    (improved : prAucImproved config champM challM = true) (j k : Nat) :
    decisionAt config champM challM j = decisionAt config champM challM k ↔
      (config.canaryRequiredConsecutiveRuns - 1 ≤ j ↔
        config.canaryRequiredConsecutiveRuns - 1 ≤ k) := by
  unfold decisionAt
  rw [quiet, improved, if_neg Bool.false_ne_true, if_neg Bool.false_ne_true, if_pos rfl, if_pos rfl]
  by_cases hj : config.canaryRequiredConsecutiveRuns - 1 ≤ (j : Int)
  · by_cases hk : config.canaryRequiredConsecutiveRuns - 1 ≤ (k : Int)
    · simp [hj, hk]
    · simp [hj, hk]
  · by_cases hk : config.canaryRequiredConsecutiveRuns - 1 ≤ (k : Int)
    · simp [hj, hk]
    · simp [hj, hk]

/-- The window has metrics, and `pr_delta` is above the promotion threshold. -/
def exceedsThreshold (S : Sklearn F) (config : CanaryConfig F)
    (champRows challRows : List (WindowRow F)) : Bool :=
  !insufficient config champRows challRows &&
    match computeMetrics S champRows, computeMetrics S challRows with
    | .ok champM, .ok challM => prAucImproved config champM challM
    | _, _ => false

theorem exceedsThreshold_iff (S : Sklearn F) (config : CanaryConfig F)
    (champRows challRows : List (WindowRow F)) :
    exceedsThreshold S config champRows challRows = true ↔
      insufficient config champRows challRows = false ∧
      ∃ champM challM, computeMetrics S champRows = .ok champM ∧
        computeMetrics S challRows = .ok challM ∧
        prAucImproved config champM challM = true := by
  unfold exceedsThreshold
  cases hc : computeMetrics S champRows with
  | error e => simp
  | ok champM =>
    cases hk : computeMetrics S challRows with
    | error e => simp
    | ok challM => simp

section Evaluation

variable (S : Sklearn F) (env : EvaluateEnv) (db : Database F) (champion challenger : String)
  (hours : Int) (config : CanaryConfig F)

/-- The decision of one evaluation, or the exception that ends it. -/
def decisionOf (priorOutcomes : Option (List String)) : Except String Decision :=
  (evaluateCanary S env db champion challenger hours config priorOutcomes).map (·.decision)

/-- On a window with metrics an evaluation decides by its count, wherever that comes from. -/
theorem decisionOf_eq {champM challM : ModelMetrics F} (hw : env.windowQuery = .ok ())
    (hh : env.historyQuery = .ok ())
    (hn : insufficient config (champWindow env db champion challenger hours)
      (challWindow env db champion challenger hours) = false)
    (hc : computeMetrics S (champWindow env db champion challenger hours) = .ok champM)
    (hk : computeMetrics S (challWindow env db champion challenger hours) = .ok challM)
    (priorOutcomes : Option (List String)) :
    decisionOf S env db champion challenger hours config priorOutcomes =
      .ok (decisionAt config champM challM
        (countConsecutiveImprovements db.decisions champion challenger priorOutcomes)) := by
  obtain ⟨v, hv⟩ := judge_ok config champM challM
    (countConsecutiveImprovements db.decisions champion challenger priorOutcomes)
  have decided := judge_decision hv
  simp only [champWindow, challWindow] at hn hc hk
  unfold decisionOf evaluateCanary
  cases priorOutcomes with
  | none => simp [hw, hh, hn, hc, hk, hv, decided, bind, Except.bind, Except.map, pure, Except.pure]
  | some outcomes => simp [hw, hn, hc, hk, hv, decided, bind, Except.bind, Except.map, pure, Except.pure]

/-- Both ways to count lead to one decision unless more than eleven runs are asked for, the
pair has improved in as many, and no guardrail settles the matter first. -/
theorem counters_agree_iff (hw : env.windowQuery = .ok ()) (hh : env.historyQuery = .ok ())
    (exceeds : exceedsThreshold S config (champWindow env db champion challenger hours)
      (challWindow env db champion challenger hours) = true) :
    decisionOf S env db champion challenger hours config none =
        decisionOf S env db champion challenger hours config
          (some (recordedOutcomes db champion challenger)) ↔
      trips S config (champWindow env db champion challenger hours)
          (challWindow env db champion challenger hours) = true ∨
        config.canaryRequiredConsecutiveRuns ≤ 11 ∨
        ¬Sustained db champion challenger config := by
  obtain ⟨hn, champM, challM, hc, hk, improved⟩ := (exceedsThreshold_iff S config _ _).mp exceeds
  have decided := decisionOf_eq S env db champion challenger hours config hw hh hn hc hk
  rw [decided, decided, Except.ok.injEq]
  cases hg : guardrailTripped config champM challM with
  | true =>
    have tripped := (trips_iff S config (champWindow env db champion challenger hours)
      (challWindow env db champion challenger hours)).mpr ⟨hn,champM,challM,hc,hk,hg⟩
    simp only [decisionAt, hg, if_true, tripped, true_or]
  | false =>
    have quiet : ¬trips S config (champWindow env db champion challenger hours)
        (challWindow env db champion challenger hours) = true := by
      intro tripped
      obtain ⟨_, champM', challM', hc', hk', hg'⟩ := (trips_iff S config _ _).mp tripped
      rw [hc, Except.ok.injEq] at hc'
      rw [hk, Except.ok.injEq] at hk'
      rw [← hc', ← hk', hg] at hg'
      cases hg'
    rw [decisionAt_eq_iff hg improved, or_iff_right quiet, count_none_eq_min, sustained_iff]
    omega

end Evaluation

section Sample

/-- A row of the pair that improved. -/
def improvingRow (createdAt : Int) : DecisionRow Exact :=
  ⟨"d","c1","k1","continue","improving","",.object [],0,0,createdAt⟩

theorem improvingRows_increasing (n : Nat) :
    ((List.range n).map fun i : Nat => improvingRow i).Pairwise fun r s =>
      r.SamePair s → r.createdAt < s.createdAt := by
  rw [List.pairwise_map]
  refine (List.pairwise_lt_range (n := n)).imp ?_
  intro i j hij _
  exact Int.ofNat_lt.mpr hij

/-- `betterPass` after `n` passes that improved. -/
def improvedDatabase (n : Nat) : Database Exact :=
  ⟨betterPass.predictions,betterPass.labels,⟨_,improvingRows_increasing n⟩⟩

def patientConfig (runs : Int) : CanaryConfig Exact :=
  { exactConfig with canaryRequiredConsecutiveRuns := runs }

end Sample

/-- Nine improvements before an evaluation that asks for ten promote on both paths. -/
theorem counters_agree_small :
    decisionOf exactSklearn betterPass.evaluate (improvedDatabase 9) "c1" "k1" 24
        (patientConfig 10) none =
      decisionOf exactSklearn betterPass.evaluate (improvedDatabase 9) "c1" "k1" 24
        (patientConfig 10) (some (recordedOutcomes (improvedDatabase 9) "c1" "k1")) :=
  (counters_agree_iff exactSklearn betterPass.evaluate (improvedDatabase 9) "c1" "k1" 24
    (patientConfig 10) rfl rfl (by decide +kernel)).mpr (Or.inr (Or.inl (by decide +kernel)))

/-- Eleven improvements before an evaluation that asks for twelve: only the list promotes. -/
theorem twelveRuns_disagree :
    decisionOf exactSklearn betterPass.evaluate (improvedDatabase 11) "c1" "k1" 24
        (patientConfig 12) none = .ok .continue ∧
      decisionOf exactSklearn betterPass.evaluate (improvedDatabase 11) "c1" "k1" 24
        (patientConfig 12) (some (recordedOutcomes (improvedDatabase 11) "c1" "k1")) =
          .ok .promote := by
  constructor
  · decide +kernel
  · decide +kernel

end FraudPlatform.Canary
