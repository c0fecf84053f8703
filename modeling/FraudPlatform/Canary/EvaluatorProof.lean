import FraudPlatform.Canary.Evaluator
import FraudPlatform.Framework.Fallible

namespace FraudPlatform.Canary

open Framework

variable {F : Type} [Binary64 F]

def Outcome.decision : Outcome → Decision
  | .promoted => .promote
  | .rollback => .rollback
  | _ => .continue

/-- The window speaks for promotion: enough rows for both models, the promotion threshold
exceeded and no guardrail tripped. -/
def improves (S : Sklearn F) (config : CanaryConfig F) (champRows challRows : List (WindowRow F)) :
    Bool :=
  !insufficient config champRows challRows &&
    match computeMetrics S champRows, computeMetrics S challRows with
    | .ok champM, .ok challM =>
      !guardrailTripped config champM challM && prAucImproved config champM challM
    | _, _ => false

theorem improves_iff (S : Sklearn F) (config : CanaryConfig F)
    (champRows challRows : List (WindowRow F)) :
    improves S config champRows challRows = true ↔
      insufficient config champRows challRows = false ∧
      ∃ champM challM, computeMetrics S champRows = .ok champM ∧
        computeMetrics S challRows = .ok challM ∧
        guardrailTripped config champM challM = false ∧
        prAucImproved config champM challM = true := by
  unfold improves
  cases hc : computeMetrics S champRows with
  | error e => simp
  | ok champM =>
    cases hk : computeMetrics S challRows with
    | error e => simp
    | ok challM => simp

/-- The window trips a guardrail. -/
def trips (S : Sklearn F) (config : CanaryConfig F) (champRows challRows : List (WindowRow F)) :
    Bool :=
  !insufficient config champRows challRows &&
    match computeMetrics S champRows, computeMetrics S challRows with
    | .ok champM, .ok challM => guardrailTripped config champM challM
    | _, _ => false

theorem trips_iff (S : Sklearn F) (config : CanaryConfig F)
    (champRows challRows : List (WindowRow F)) :
    trips S config champRows challRows = true ↔
      insufficient config champRows challRows = false ∧
      ∃ champM challM, computeMetrics S champRows = .ok champM ∧
        computeMetrics S challRows = .ok challM ∧
        guardrailTripped config champM challM = true := by
  unfold trips
  cases hc : computeMetrics S champRows with
  | error e => simp
  | ok champM =>
    cases hk : computeMetrics S challRows with
    | error e => simp
    | ok challM => simp

/-- Every metric of both windows is a finite number. -/
def finiteMetrics (S : Sklearn F) (champRows challRows : List (WindowRow F)) : Bool :=
  match computeMetrics S champRows, computeMetrics S challRows with
  | .ok champM, .ok challM => champM.payload.finite && challM.payload.finite
  | _, _ => false

section Evaluation

variable (S : Sklearn F) (env : EvaluateEnv) (db : Database F) (champion challenger : String)
  (hours : Int) (config : CanaryConfig F)

def champWindow : List (WindowRow F) :=
  windowRows db.predictions db.labels env.now hours champion challenger champion

def challWindow : List (WindowRow F) :=
  windowRows db.predictions db.labels env.now hours champion challenger challenger

/-- An evaluation on the database path that returns: too little data, or a verdict on the
metrics of both windows with the count the history gives. -/
theorem evaluateCanary_cases {d : CanaryDecision F}
    (h : evaluateCanary S env db champion challenger hours config none = .ok d) :
    (insufficient config (champWindow env db champion challenger hours)
        (challWindow env db champion challenger hours) = true ∧
      d.outcome = .insufficientData ∧ d.decision = .continue ∧ d.metrics.finite = true) ∨
    ∃ champM challM v, insufficient config (champWindow env db champion challenger hours)
        (challWindow env db champion challenger hours) = false ∧
      computeMetrics S (champWindow env db champion challenger hours) = .ok champM ∧
      computeMetrics S (challWindow env db champion challenger hours) = .ok challM ∧
      judge config champM challM (env.historyQuery.map fun _ =>
        countConsecutiveImprovements db.decisions champion challenger none) = .ok v ∧
      d.outcome = v.outcome ∧ d.decision = v.decision ∧
      d.metrics = .object [("champion",champM.payload),("challenger",challM.payload)] := by
  obtain ⟨_, _, h⟩ := bind_eq_ok.mp h
  cases hi : insufficient config (champWindow env db champion challenger hours)
      (challWindow env db champion challenger hours) with
  | true =>
    have returned := (if_pos hi).symm.trans h
    cases returned
    exact Or.inl ⟨rfl,rfl,rfl,by simp⟩
  | false =>
    have computed := (if_neg (ne_true_of_eq_false hi)).symm.trans h
    obtain ⟨champM, hc, computed⟩ := bind_eq_ok.mp computed
    obtain ⟨challM, hk, computed⟩ := bind_eq_ok.mp computed
    obtain ⟨v, hv, computed⟩ := bind_eq_ok.mp computed
    cases computed
    exact Or.inr ⟨champM,challM,v,rfl,hc,hk,hv,rfl,rfl,rfl⟩

theorem evaluateCanary_decision {d : CanaryDecision F}
    (h : evaluateCanary S env db champion challenger hours config none = .ok d) :
    d.decision = d.outcome.decision := by
  rcases evaluateCanary_cases S env db champion challenger hours config h with
    ⟨_, ho, hd, _⟩ | ⟨champM, challM, v, _, _, _, hv, ho, hd, _⟩
  · rw [ho, hd]
    rfl
  · rw [ho, hd]
    rcases judge_cases config champM challM hv with
      ⟨hv, hw, _⟩ | ⟨hv, hw, _⟩ | ⟨hv, hw, _⟩ | ⟨hv, hw, _⟩ <;> rw [hv, hw] <;> rfl

/-- The outcomes `improving` and `promoted` are only reached on a window that improves. -/
theorem evaluateCanary_improves {d : CanaryDecision F}
    (h : evaluateCanary S env db champion challenger hours config none = .ok d)
    (ho : d.outcome = .improving ∨ d.outcome = .promoted) :
    improves S config (champWindow env db champion challenger hours)
      (challWindow env db champion challenger hours) = true := by
  rw [improves_iff]
  rcases evaluateCanary_cases S env db champion challenger hours config h with
    ⟨_, hd, _⟩ | ⟨champM, challM, v, hi, hc, hk, hv, hd, _⟩
  · rw [hd] at ho
    simp at ho
  · rw [hd] at ho
    refine ⟨hi,champM,challM,hc,hk,?_⟩
    rcases judge_cases config champM challM hv with
      ⟨hv, _⟩ | ⟨_, _, hg, hp, _⟩ | ⟨_, _, hg, hp, _⟩ | ⟨hv, _⟩
    · rw [hv] at ho
      simp at ho
    · exact ⟨hg,hp⟩
    · exact ⟨hg,hp⟩
    · rw [hv] at ho
      simp at ho

/-- A promotion has `canary_required_consecutive_runs - 1` improvements behind it. -/
theorem evaluateCanary_count {d : CanaryDecision F}
    (h : evaluateCanary S env db champion challenger hours config none = .ok d)
    (hp : d.decision = .promote) :
    config.canaryRequiredConsecutiveRuns - 1 ≤
      countConsecutiveImprovements db.decisions champion challenger none := by
  rcases evaluateCanary_cases S env db champion challenger hours config h with
    ⟨_, _, hd, _⟩ | ⟨champM, challM, v, _, _, _, hv, _, hd, _⟩
  · rw [hd] at hp
    cases hp
  · rw [hd] at hp
    rcases judge_cases config champM challM hv with
      ⟨_, hw, _⟩ | ⟨_, _, _, _, k, hk, hle⟩ | ⟨_, hw, _⟩ | ⟨_, hw, _⟩
    · rw [hw] at hp
      cases hp
    · cases hq : env.historyQuery with
      | error e =>
        rw [hq] at hk
        cases hk
      | ok u =>
        rw [hq] at hk
        cases hk
        exact hle
    · rw [hw] at hp
      cases hp
    · rw [hw] at hp
      cases hp

/-- With enough data and metrics for both models, the evaluation returns the verdict. -/
theorem evaluateCanary_of_metrics {champM challM : ModelMetrics F} {v : Verdict}
    (hw : env.windowQuery = .ok ())
    (hn : insufficient config (champWindow env db champion challenger hours)
      (challWindow env db champion challenger hours) = false)
    (hc : computeMetrics S (champWindow env db champion challenger hours) = .ok champM)
    (hk : computeMetrics S (challWindow env db champion challenger hours) = .ok challM)
    (hv : judge config champM challM (env.historyQuery.map fun _ =>
      countConsecutiveImprovements db.decisions champion challenger none) = .ok v) :
    evaluateCanary S env db champion challenger hours config none =
      .ok ⟨v.decision,v.outcome,v.reason,
        .object [("champion",champM.payload),("challenger",challM.payload)],
        windowStart env.now hours,env.now,env.decisionId⟩ := by
  simp only [champWindow, challWindow] at hn hc hk
  simp [evaluateCanary, hw, hn, hc, hk, hv, bind, Except.bind, pure, Except.pure]

/-- On a window that improves, with both queries answered, only the count decides. -/
theorem evaluateCanary_of_improves
    (hi : improves S config (champWindow env db champion challenger hours)
      (challWindow env db champion challenger hours) = true)
    (hw : env.windowQuery = .ok ()) (hq : env.historyQuery = .ok ()) :
    ∃ d, evaluateCanary S env db champion challenger hours config none = .ok d ∧
      (d.decision = .promote ↔ config.canaryRequiredConsecutiveRuns - 1 ≤
        countConsecutiveImprovements db.decisions champion challenger none) := by
  obtain ⟨hn, champM, challM, hc, hk, hg, hp⟩ := (improves_iff S config _ _).mp hi
  obtain ⟨v, hv⟩ := judge_ok config champM challM
    (countConsecutiveImprovements db.decisions champion challenger none)
  have read : judge config champM challM (env.historyQuery.map fun _ =>
      countConsecutiveImprovements db.decisions champion challenger none) = .ok v := by
    rw [hq]
    exact hv
  refine ⟨_,evaluateCanary_of_metrics S env db champion challenger hours config hw hn hc hk read,?_⟩
  rcases judge_cases config champM challM hv with
    ⟨_, _, ht⟩ | ⟨_, hd, _, _, k, hcount, hle⟩ | ⟨_, hd, _, _, k, hcount, hle⟩ | ⟨_, _, _, hno⟩
  · rw [hg] at ht
    cases ht
  · cases hcount
    simpa [hd] using hle
  · cases hcount
    simpa [hd] using hle
  · rw [hp] at hno
    cases hno

/-- What a decision to act writes is JSON just when the metrics are numbers. -/
theorem evaluateCanary_finite {d : CanaryDecision F}
    (h : evaluateCanary S env db champion challenger hours config none = .ok d)
    (hd : d.decision ≠ .continue) :
    d.metrics.finite = finiteMetrics S (champWindow env db champion challenger hours)
      (challWindow env db champion challenger hours) := by
  rcases evaluateCanary_cases S env db champion challenger hours config h with
    ⟨_, _, hc, _⟩ | ⟨champM, challM, v, _, hc, hk, _, _, _, hm⟩
  · exact absurd hc hd
  · rw [hm, finiteMetrics, hc, hk]
    simp

theorem evaluateCanary_rollback {d : CanaryDecision F}
    (h : evaluateCanary S env db champion challenger hours config none = .ok d)
    (hd : d.decision = .rollback) :
    trips S config (champWindow env db champion challenger hours)
      (challWindow env db champion challenger hours) = true := by
  rcases evaluateCanary_cases S env db champion challenger hours config h with
    ⟨_, _, hc, _⟩ | ⟨champM, challM, v, hi, hc, hk, hv, _, hv', _⟩
  · rw [hc] at hd
    cases hd
  · rw [hv'] at hd
    refine (trips_iff S config _ _).mpr ⟨hi,champM,challM,hc,hk,?_⟩
    rcases judge_cases config champM challM hv with
      ⟨_, _, hg⟩ | ⟨_, hw, _⟩ | ⟨_, hw, _⟩ | ⟨_, hw, _⟩
    · exact hg
    · rw [hw] at hd
      cases hd
    · rw [hw] at hd
      cases hd
    · rw [hw] at hd
      cases hd

/-- A tripped guardrail is a rollback, whatever the history says. -/
theorem evaluateCanary_of_trips
    (ht : trips S config (champWindow env db champion challenger hours)
      (challWindow env db champion challenger hours) = true)
    (hw : env.windowQuery = .ok ()) :
    ∃ d, evaluateCanary S env db champion challenger hours config none = .ok d ∧
      d.decision = .rollback := by
  obtain ⟨hn, champM, challM, hc, hk, hg⟩ := (trips_iff S config _ _).mp ht
  obtain ⟨v, hv, hd⟩ : ∃ v, judge config champM challM (env.historyQuery.map fun _ =>
      countConsecutiveImprovements db.decisions champion challenger none) = .ok v ∧
      v.decision = .rollback := by
    simp only [guardrailTripped, Bool.or_eq_true] at hg
    unfold judge
    split_ifs with hp hb hl
    · exact ⟨_,rfl,rfl⟩
    · exact ⟨_,rfl,rfl⟩
    · exact ⟨_,rfl,rfl⟩
    · simp [hp, hb, hl] at hg
    · simp [hp, hb, hl] at hg
  exact ⟨_,evaluateCanary_of_metrics S env db champion challenger hours config hw hn hc hk hv,hd⟩

end Evaluation

end FraudPlatform.Canary
