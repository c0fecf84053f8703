import FraudPlatform.Canary.Apply
import FraudPlatform.Canary.EvaluatorProof
import FraudPlatform.Framework.Run

namespace FraudPlatform.Canary

open Framework

variable {F V : Type} [Binary64 F]

/-- What one pass of the loop meets: the tables it reads, the clock, and the fates of its
remote calls. -/
structure IterationEnv (F : Type) where
  stateFetch : Fate
  predictions : List (Prediction F)
  labels : List Label
  evaluate : EvaluateEnv
  insert : Fate
  createdGap : Nat
  apply : ApplyEnv

/-- `GET /admin/state`; without an answer the canary is taken to be inactive. -/
def getRouterState (fate : Fate) (router : Router.Handler) : List (String × String) :=
  match Reply.raiseForStatus (fate.call (fun h => (h,Router.handleAdminState h)) router).2 with
  | .ok state => state
  | .error _ => [("canary_enabled","false")]

def lower (s : String) : String := String.ofList (s.toList.map Char.toLower)

def canaryActive (state : List (String × String)) : Bool :=
  lower ((state.lookup "canary_enabled").getD "false") = "true"

def inactiveDecision (now : Int) (decisionId : String) : CanaryDecision F :=
  ⟨.continue,.inactive,"canary_inactive",.object [],now,now,decisionId⟩

section Main

variable (S : Sklearn F) (E : Serving.Engine V) (config : CanaryConfig F)

def database (env : IterationEnv F) (p : Platform F) : Database F :=
  ⟨env.predictions,env.labels,p.decisions⟩

/-- The decision of one pass of the loop. -/
def mainDecision (env : IterationEnv F) (p : Platform F) : Except String (CanaryDecision F) :=
  if canaryActive (getRouterState env.stateFetch p.router) then
    evaluateCanary S env.evaluate (database env p) config.championVersion
      config.challengerVersion config.canaryWindowHours config none
  else .ok (inactiveDecision env.evaluate.now env.evaluate.decisionId)

/-- The row of a decision; `created_at` is left to the column's default. -/
def decisionRow (d : CanaryDecision F) : DecisionRow F :=
  ⟨d.decisionId,config.championVersion,config.challengerVersion,d.decision.text,d.outcome.text,
    d.reason,d.metrics,d.windowStart,d.windowEnd,0⟩

/-- The server's side of the `INSERT`: the column `metrics` is JSONB. -/
def insertDecision (gap : Nat) (d : CanaryDecision F) (log : DecisionLog F) :
    DecisionLog F × Except String Unit :=
  if d.metrics.finite then (log.insert gap (decisionRow config d), .ok ())
  else (log, .error "invalid input syntax for type json")

def writeDecision (fate : Fate) (gap : Nat) (d : CanaryDecision F) (log : DecisionLog F) :
    DecisionLog F × Except String Unit :=
  match fate.call (insertDecision config gap d) log with
  | (log, some answer) => (log, answer)
  | (log, none) => (log, .error "connection failed")

/-- One pass of the loop; whatever is raised ends it and is logged. -/
def iteration (env : IterationEnv F) (p : Platform F) : Platform F :=
  match mainDecision S config env p with
  | .error _ => p
  | .ok d =>
    match writeDecision config env.insert env.createdGap d p.decisions with
    | (decisions, .error _) => { p with decisions }
    | (decisions, .ok ()) => (applyDecision E config env.apply d { p with decisions }).1

/-- A pass of the loop, a row some other evaluator writes for another pair, or a request an
operator sends to the router. -/
inductive Event (config : CanaryConfig F)
  | pass (env : IterationEnv F)
  | otherPair (gap : Nat) (row : DecisionRow F)
      (other : ¬(row.championVersion = config.championVersion ∧
        row.challengerVersion = config.challengerVersion))
  | admin (token : String) (body : Option Router.AdminCanaryRequest)

def loopStep (p : Platform F) : Event config → Platform F
  | .pass env => iteration S E config env p
  | .otherPair gap row _ => { p with decisions := p.decisions.insert gap row }
  | .admin token body => { p with router := (Router.handleAdminCanary token body p.router).1 }

/-- The row a pass leaves in the table, whether or not it learns so. -/
def storedRow (env : IterationEnv F) (p : Platform F) : Option (DecisionRow F) :=
  match mainDecision S config env p with
  | .error _ => none
  | .ok d =>
    if env.insert.acts ∧ d.metrics.finite then
      some { decisionRow config d with createdAt := latest p.decisions.rows + 1 + env.createdGap }
    else none

/-- One pass as an observer of the whole platform sees it. -/
structure IterationRecord (F : Type) where
  active : Bool
  champRows : List (WindowRow F)
  challRows : List (WindowRow F)
  decision : Except String (CanaryDecision F)
  stored : Option (DecisionRow F)

def record (p : Platform F) (env : IterationEnv F) : IterationRecord F where
  active := canaryActive (getRouterState env.stateFetch p.router)
  champRows := champWindow env.evaluate (database env p) config.championVersion
    config.challengerVersion config.canaryWindowHours
  challRows := challWindow env.evaluate (database env p) config.championVersion
    config.challengerVersion config.canaryWindowHours
  decision := mainDecision S config env p
  stored := storedRow S config env p

def observe (p : Platform F) : Event config → Option (IterationRecord F)
  | .pass env => some (record S config p env)
  | _ => none

/-- The passes of a run, oldest first. -/
def records (p : Platform F) (es : List (Event config)) : List (IterationRecord F) :=
  trace (loopStep S E config) (observe S config) p es

/-- The pass evaluated an active canary on a window that improves. -/
def IterationRecord.counts (r : IterationRecord F) : Bool :=
  r.active && improves S config r.champRows r.challRows

/-- In numbers: rows enough for both models, a PR-AUC better by more than the promotion delta and
worse by no more than the rollback delta, a Brier score and a latency within their bounds. -/
theorem IterationRecord.counts_iff (r : IterationRecord F) :
    r.counts S config = true ↔ r.active = true ∧
      config.canaryMinLabeledPredictions ≤ r.champRows.length ∧
      config.canaryMinLabeledPredictions ≤ r.challRows.length ∧
      ∃ champM challM, computeMetrics S r.champRows = .ok champM ∧
        computeMetrics S r.challRows = .ok challM ∧
        Binary64.lt config.canaryPrAucPromoteDelta (challM.prAuc - champM.prAuc) = true ∧
        Binary64.lt (challM.prAuc - champM.prAuc) (-config.canaryPrAucRollbackDelta) = false ∧
        Binary64.lt config.canaryBrierRollbackDelta (challM.brierScore - champM.brierScore) = false ∧
        (Binary64.lt 0 champM.p95TotalMs = true →
          Binary64.lt config.canaryLatencyP95RollbackRatio
            (challM.p95TotalMs / champM.p95TotalMs) = false) := by
  have enough : insufficient config r.champRows r.challRows = false ↔
      config.canaryMinLabeledPredictions ≤ r.champRows.length ∧
        config.canaryMinLabeledPredictions ≤ r.challRows.length := by
    simp [insufficient]
  have quiet (champM challM : ModelMetrics F) : guardrailTripped config champM challM = false ↔
      prAucTripped config champM challM = false ∧ brierTripped config champM challM = false ∧
        latencyTripped config champM challM = false := by
    simp [guardrailTripped, and_assoc]
  have latency (champM challM : ModelMetrics F) : latencyTripped config champM challM = false ↔
      (Binary64.lt 0 champM.p95TotalMs = true →
        Binary64.lt config.canaryLatencyP95RollbackRatio
          (challM.p95TotalMs / champM.p95TotalMs) = false) := by
    rw [latencyTripped, latencyRatio, Bool.and_eq_false_imp]
  rw [IterationRecord.counts, Bool.and_eq_true, improves_iff, enough, and_assoc]
  refine and_congr_right fun _ => and_congr_right fun _ => and_congr_right fun _ => ?_
  refine exists_congr fun champM => exists_congr fun challM => and_congr_right fun _ =>
    and_congr_right fun _ => ?_
  rw [quiet, latency, and_comm]
  rfl

/-- The pass evaluated an active canary on a window that trips a guardrail. -/
def IterationRecord.trips (r : IterationRecord F) : Bool :=
  r.active && Canary.trips S config r.champRows r.challRows

def IterationRecord.Returned (r : IterationRecord F) (decision : Decision) : Prop :=
  ∃ d, r.decision = .ok d ∧ d.decision = decision

instance (r : IterationRecord F) (decision : Decision) : Decidable (r.Returned decision) :=
  decidable_of_iff (r.decision.toOption.map (·.decision) = some decision) <| by
    unfold IterationRecord.Returned
    cases r.decision <;> simp [Except.toOption]

end Main

section Record

variable (S : Sklearn F) (config : CanaryConfig F) (p : Platform F) (env : IterationEnv F)

@[simp] theorem record_active : (record S config p env).active =
    canaryActive (getRouterState env.stateFetch p.router) := by
  simp only [record]

@[simp] theorem record_champRows : (record S config p env).champRows =
    champWindow env.evaluate (database env p) config.championVersion config.challengerVersion
      config.canaryWindowHours := by
  simp only [record]

@[simp] theorem record_challRows : (record S config p env).challRows =
    challWindow env.evaluate (database env p) config.championVersion config.challengerVersion
      config.canaryWindowHours := by
  simp only [record]

@[simp] theorem record_decision : (record S config p env).decision = mainDecision S config env p := by
  simp only [record]

@[simp] theorem record_stored : (record S config p env).stored = storedRow S config env p := by
  simp only [record]

end Record

theorem canaryActive_iff (fate : Fate) (router : Router.Handler) :
    canaryActive (getRouterState fate router) = true ↔
      fate = .delivered ∧ router.state.canaryEnabled = true := by
  have off : lower "false" ≠ "true" := by decide
  have on : lower "true" = "true" := by decide
  cases fate with
  | delivered =>
    cases hb : router.state.canaryEnabled <;>
      simp [canaryActive, getRouterState, Reply.raiseForStatus, Router.handleAdminState,
        Router.formatBool, hb, off, on]
  | lost => simp [canaryActive, getRouterState, Reply.raiseForStatus, off]
  | unanswered => simp [canaryActive, getRouterState, Reply.raiseForStatus, off]

section Spec

variable (S : Sklearn F) (E : Serving.Engine V) (config : CanaryConfig F)

theorem writeDecision_log (fate : Fate) (gap : Nat) (d : CanaryDecision F) (log : DecisionLog F) :
    (writeDecision config fate gap d log).1 =
      if fate.acts ∧ d.metrics.finite then log.insert gap (decisionRow config d) else log := by
  cases hf : d.metrics.finite <;> cases fate <;>
    simp [writeDecision, insertDecision, Fate.acts, hf]

theorem writeDecision_ok (fate : Fate) (gap : Nat) (d : CanaryDecision F) (log : DecisionLog F) :
    (writeDecision config fate gap d log).2 = .ok () ↔
      fate = .delivered ∧ d.metrics.finite = true := by
  cases hf : d.metrics.finite <;> cases fate <;> simp [writeDecision, insertDecision, hf]

/-- A pass in which the evaluation raises, or the write raises, or the decision is applied. -/
theorem iteration_cases (env : IterationEnv F) (p : Platform F) :
    (∃ e, mainDecision S config env p = .error e ∧ iteration S E config env p = p) ∨
    ∃ d, mainDecision S config env p = .ok d ∧
      ((¬(env.insert = .delivered ∧ d.metrics.finite = true) ∧
        iteration S E config env p =
          { p with decisions :=
            (writeDecision config env.insert env.createdGap d p.decisions).1 }) ∨
      ((env.insert = .delivered ∧ d.metrics.finite = true) ∧
        iteration S E config env p = (applyDecision E config env.apply d
          { p with decisions :=
            (writeDecision config env.insert env.createdGap d p.decisions).1 }).1)) := by
  unfold iteration
  cases hm : mainDecision S config env p with
  | error e => exact Or.inl ⟨e,rfl,rfl⟩
  | ok d =>
    refine Or.inr ⟨d,rfl,?_⟩
    have hok := writeDecision_ok config env.insert env.createdGap d p.decisions
    rw [← hok]
    dsimp only
    generalize writeDecision config env.insert env.createdGap d p.decisions = w
    obtain ⟨decisions, answer⟩ := w
    cases answer with
    | error e => exact Or.inl ⟨by simp,rfl⟩
    | ok u =>
      cases u
      exact Or.inr ⟨rfl,rfl⟩

/-- A decision whose row is accepted is applied. -/
theorem iteration_applies {env : IterationEnv F} {p : Platform F} {d : CanaryDecision F}
    (hm : mainDecision S config env p = .ok d)
    (sent : env.insert = .delivered ∧ d.metrics.finite = true) :
    iteration S E config env p = (applyDecision E config env.apply d
      { p with decisions := p.decisions.insert env.createdGap (decisionRow config d) }).1 := by
  obtain ⟨e, he, _⟩ | ⟨d', hd', ⟨unsent, _⟩ | ⟨_, heq⟩⟩ := iteration_cases S E config env p
  · rw [hm] at he
    cases he
  · rw [hm] at hd'
    cases hd'
    exact absurd sent unsent
  · rw [hm] at hd'
    cases hd'
    rw [heq, writeDecision_log, sent.1, if_pos ⟨rfl,sent.2⟩]

theorem iteration_decisions (env : IterationEnv F) (p : Platform F) :
    (iteration S E config env p).decisions =
      match mainDecision S config env p with
      | .error _ => p.decisions
      | .ok d => (writeDecision config env.insert env.createdGap d p.decisions).1 := by
  obtain ⟨e, hm, he⟩ | ⟨d, hm, ⟨_, he⟩ | ⟨_, he⟩⟩ := iteration_cases S E config env p
  · rw [hm, he]
  · rw [hm, he]
  · rw [hm, he, applyDecision_decisions]

/-- A pass adds to the pair's history exactly the row it stores. -/
theorem iteration_ofPair (env : IterationEnv F) (p : Platform F) :
    (iteration S E config env p).decisions.ofPair config.championVersion config.challengerVersion =
      p.decisions.ofPair config.championVersion config.challengerVersion ++
        (storedRow S config env p).toList := by
  rw [iteration_decisions, storedRow]
  cases hm : mainDecision S config env p with
  | error e => simp
  | ok d =>
    dsimp only
    rw [writeDecision_log]
    by_cases h : env.insert.acts = true ∧ d.metrics.finite = true
    · rw [if_pos h, if_pos h]
      exact p.decisions.ofPair_insert_same env.createdGap (decisionRow config d)
    · rw [if_neg h, if_neg h]
      simp

/-- The pair's history after a run: what was there, then the rows the passes stored. -/
theorem run_ofPair (p : Platform F) (es : List (Event config)) :
    (run (loopStep S E config) p es).decisions.ofPair config.championVersion
        config.challengerVersion =
      p.decisions.ofPair config.championVersion config.challengerVersion ++
        (records S E config p es).filterMap (·.stored) := by
  induction es generalizing p with
  | nil => simp [records, trace]
  | cons e es ih =>
    rw [run_cons, ih]
    cases e with
    | pass env =>
      rw [loopStep, iteration_ofPair, List.append_assoc]
      apply congrArg (List.append _)
      simp only [records, trace, observe, Option.toList_some, List.singleton_append, loopStep]
      cases hs : storedRow S config env p <;> simp [record, hs]
    | otherPair gap row other =>
      rw [loopStep, p.decisions.ofPair_insert_other gap row other]
      simp only [records, trace, observe, Option.toList_none, List.nil_append, loopStep]
    | admin token body =>
      rw [loopStep]
      simp only [records, trace, observe, Option.toList_none, List.nil_append, loopStep]

@[simp] theorem loopStep_pass (p : Platform F) (env : IterationEnv F) :
    loopStep S E config p (.pass env) = iteration S E config env p := by rw [loopStep]

@[simp] theorem records_nil (p : Platform F) : records S E config p [] = [] := rfl

@[simp] theorem records_pass (p : Platform F) (env : IterationEnv F) (es : List (Event config)) :
    records S E config p (.pass env :: es) =
      record S config p env :: records S E config (iteration S E config env p) es := rfl

/-- Every pass of the record was one pass of the run, between those before and after it. -/
theorem records_split {p : Platform F} {es : List (Event config)} {r : IterationRecord F}
    {pre rest : List (IterationRecord F)} (h : records S E config p es = pre ++ r :: rest) :
    ∃ es₁ env es₂, es = es₁ ++ .pass env :: es₂ ∧ records S E config p es₁ = pre ∧
      record S config (run (loopStep S E config) p es₁) env = r ∧
      records S E config (iteration S E config env (run (loopStep S E config) p es₁)) es₂ =
        rest := by
  obtain ⟨es₁, e, es₂, hes, before, here, after⟩ := trace_split _ h
  rw [run_concat] at after
  cases e with
  | pass env => exact ⟨es₁,env,es₂,hes,before,Option.some.inj here,after⟩
  | otherPair gap row other => cases here
  | admin token body => cases here

theorem mem_records {p : Platform F} {es : List (Event config)} {r : IterationRecord F}
    (h : r ∈ records S E config p es) : ∃ q env, r = record S config q env := by
  obtain ⟨pre, post, hsplit⟩ := List.append_of_mem h
  obtain ⟨es₁, env, es₂, _, _, hr, _⟩ := records_split S E config hsplit
  exact ⟨_,env,hr.symm⟩

theorem storedRow_eq_some {env : IterationEnv F} {p : Platform F} {row : DecisionRow F}
    (h : storedRow S config env p = some row) :
    ∃ d, mainDecision S config env p = .ok d ∧ row.outcome = d.outcome.text := by
  unfold storedRow at h
  cases hm : mainDecision S config env p with
  | error e => simp [hm] at h
  | ok d =>
    simp only [hm] at h
    by_cases hi : env.insert.acts = true ∧ d.metrics.finite = true
    · rw [if_pos hi] at h
      cases h
      exact ⟨d,rfl,rfl⟩
    · rw [if_neg hi] at h
      cases h

/-- A pass decides by an evaluation if the canary is active, and else not to act. -/
theorem mainDecision_cases {env : IterationEnv F} {p : Platform F} {d : CanaryDecision F}
    (h : mainDecision S config env p = .ok d) :
    (canaryActive (getRouterState env.stateFetch p.router) = true ∧
      evaluateCanary S env.evaluate (database env p) config.championVersion
        config.challengerVersion config.canaryWindowHours config none = .ok d) ∨
    d = inactiveDecision env.evaluate.now env.evaluate.decisionId := by
  unfold mainDecision at h
  by_cases ha : canaryActive (getRouterState env.stateFetch p.router) = true
  · rw [if_pos ha] at h
    exact Or.inl ⟨ha,h⟩
  · rw [if_neg ha] at h
    exact Or.inr (Except.ok.inj h).symm

theorem returned_iff (env : IterationEnv F) (p : Platform F) (decision : Decision) :
    (record S config p env).Returned decision ↔
      ∃ d, mainDecision S config env p = .ok d ∧ d.decision = decision := by
  rw [IterationRecord.Returned, record_decision]

/-- Only an active canary on a window that improves makes a pass improving or promoting. -/
theorem record_counts {env : IterationEnv F} {p : Platform F} {d : CanaryDecision F}
    (h : mainDecision S config env p = .ok d)
    (ho : d.outcome = .improving ∨ d.outcome = .promoted) :
    (record S config p env).counts S config = true := by
  obtain ⟨ha, he⟩ | hd := mainDecision_cases S config h
  · have hi := evaluateCanary_improves S _ _ _ _ _ config he ho
    rw [IterationRecord.counts, record_active, record_champRows, record_challRows, ha, hi]
    rfl
  · rw [hd] at ho
    simp [inactiveDecision] at ho

theorem record_counts_of_stored {env : IterationEnv F} {p : Platform F} {row : DecisionRow F}
    (h : storedRow S config env p = some row) (ho : row.outcome = "improving") :
    (record S config p env).counts S config = true := by
  obtain ⟨d, hm, hd⟩ := storedRow_eq_some S config h
  have improving := (d.outcome.text_eq_improving).mp (hd ▸ ho)
  exact record_counts S config hm (Or.inl improving)

theorem mainDecision_outcome {env : IterationEnv F} {p : Platform F} {d : CanaryDecision F}
    (h : mainDecision S config env p = .ok d) : d.decision = d.outcome.decision := by
  obtain ⟨_, he⟩ | hd := mainDecision_cases S config h
  · exact evaluateCanary_decision S _ _ _ _ _ config he
  · rw [hd]
    rfl

/-- A pass that acts has evaluated an active canary. -/
theorem mainDecision_acts {env : IterationEnv F} {p : Platform F} {d : CanaryDecision F}
    (h : mainDecision S config env p = .ok d) (hd : d.decision ≠ .continue) :
    canaryActive (getRouterState env.stateFetch p.router) = true ∧
      evaluateCanary S env.evaluate (database env p) config.championVersion
        config.challengerVersion config.canaryWindowHours config none = .ok d := by
  obtain he | rfl := mainDecision_cases S config h
  · exact he
  · exact absurd rfl hd

theorem mainDecision_promote {env : IterationEnv F} {p : Platform F} {d : CanaryDecision F}
    (h : mainDecision S config env p = .ok d) (hp : d.decision = .promote) :
    d.outcome = .promoted ∧ config.canaryRequiredConsecutiveRuns - 1 ≤
      countConsecutiveImprovements p.decisions config.championVersion config.challengerVersion
        none := by
  have hd := mainDecision_outcome S config h
  have he := (mainDecision_acts S config h (by simp [hp])).2
  have count := evaluateCanary_count S _ (database env p) _ _ _ config he hp
  refine ⟨?_,count⟩
  rw [hp] at hd
  cases ho : d.outcome <;> rw [ho] at hd <;> first | rfl | cases hd

theorem mainDecision_finite {env : IterationEnv F} {p : Platform F} {d : CanaryDecision F}
    (h : mainDecision S config env p = .ok d) (hd : d.decision ≠ .continue) :
    d.metrics.finite = finiteMetrics S (record S config p env).champRows
      (record S config p env).challRows := by
  rw [record_champRows, record_challRows]
  exact evaluateCanary_finite S _ _ _ _ _ config (mainDecision_acts S config h hd).2 hd

theorem record_trips (env : IterationEnv F) (p : Platform F) :
    (record S config p env).trips S config = true ↔
      canaryActive (getRouterState env.stateFetch p.router) = true ∧
      Canary.trips S config (record S config p env).champRows
        (record S config p env).challRows = true := by
  rw [IterationRecord.trips, Bool.and_eq_true, record_active]

/-- The loop rolls back exactly where the canary is active, the window can be read and it
trips a guardrail. -/
theorem returned_rollback_iff (env : IterationEnv F) (p : Platform F) :
    (record S config p env).Returned .rollback ↔
      (record S config p env).trips S config = true ∧ env.evaluate.windowQuery = .ok () := by
  rw [returned_iff, record_trips, record_champRows, record_challRows]
  refine ⟨?_,?_⟩
  · intro h
    obtain ⟨d, hm, hd⟩ := h
    obtain ⟨ha, he⟩ := mainDecision_acts S config hm (by simp [hd])
    refine ⟨⟨ha,evaluateCanary_rollback S _ _ _ _ _ config he hd⟩,?_⟩
    cases hq : env.evaluate.windowQuery with
    | error e => simp [evaluateCanary, hq, bind, Except.bind] at he
    | ok u => rfl
  · intro h
    obtain ⟨d, he, hd⟩ := evaluateCanary_of_trips S env.evaluate (database env p) _ _ _ config
      h.1.2 h.2
    exact ⟨d,(if_pos h.1.1).trans he,hd⟩

end Spec

end FraudPlatform.Canary
