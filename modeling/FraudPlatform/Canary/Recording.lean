import FraudPlatform.Canary.Soundness

namespace FraudPlatform.Canary

open Framework
open Serving (smallEngine)

variable {F V : Type} [Binary64 F]

section Recording

variable (S : Sklearn F) (E : Serving.Engine V) (config : CanaryConfig F)
  (env : IterationEnv F) (p : Platform F)

/-- The pass writes the row of its decision and applies it; a rollback takes effect in the
registry and in the router. -/
def RecordsAndApplies : Prop :=
  ∃ d, mainDecision S config env p = .ok d ∧
    iteration S E config env p = (applyDecision E config env.apply d
      { p with decisions := p.decisions.insert env.createdGap (decisionRow config d) }).1 ∧
    (d.decision = .rollback →
      (iteration S E config env p).models =
        (retireChallenger env.apply.now config.challengerVersion p.models).1 ∧
      (iteration S E config env p).router.state = ⟨false,0,0⟩)

/-- Router, database and serving container answer every call of the pass. -/
structure HealthyPass : Prop where
  stateFetch : env.stateFetch = .delivered
  windowQuery : env.evaluate.windowQuery = .ok ()
  historyQuery : env.evaluate.historyQuery = .ok ()
  insert : env.insert = .delivered
  reload : env.apply.reload = .delivered
  roles : env.apply.roles = .delivered
  post : env.apply.post = .delivered
  containerToken : config.adminToken = p.container.adminToken
  routerToken : config.adminToken = p.router.adminToken

variable {env p}

theorem recordsAndApplies_of_finite {d : CanaryDecision F} (healthy : HealthyPass config env p)
    (hm : mainDecision S config env p = .ok d) (finite : d.metrics.finite = true) :
    RecordsAndApplies S E config env p := by
  have applies := iteration_applies S E config hm ⟨healthy.insert,finite⟩
  refine ⟨d,hm,applies,fun hd => ?_⟩
  rw [applies, applyDecision_rollback E config env.apply d _ hd]
  dsimp only
  refine ⟨by rw [healthy.roles]; rfl,?_⟩
  rw [if_pos healthy.roles, setRouterCanary_off, healthy.post]
  exact if_pos ⟨rfl,healthy.routerToken⟩

theorem not_recordsAndApplies {d : CanaryDecision F} (hm : mainDecision S config env p = .ok d)
    (infinite : d.metrics.finite = false) : ¬RecordsAndApplies S E config env p := by
  intro h
  obtain ⟨d', hd', applies, _⟩ := h
  have unwritten : (iteration S E config env p).decisions = p.decisions := by
    rw [iteration_decisions, hm]
    dsimp only
    rw [writeDecision_log, infinite]
    simp
  rw [applies, applyDecision_decisions] at unwritten
  have longer := congrArg (·.rows.length) unwritten
  simp [DecisionLog.insert] at longer

/-- Without a threshold an empty window passes as enough data, but it has no metrics. -/
theorem rows_of_returned {d : CanaryDecision F} (documented : S.Documented)
    (main : mainDecision S config env p = evaluateCanary S env.evaluate (database env p)
      config.championVersion config.challengerVersion config.canaryWindowHours config none)
    (hm : mainDecision S config env p = .ok d)
    (enough : insufficient config (record S config p env).champRows
      (record S config p env).challRows = false) :
    (record S config p env).champRows ≠ [] ∧ (record S config p env).challRows ≠ [] := by
  obtain ⟨e, he⟩ := computeMetrics_empty documented
  rcases evaluateCanary_cases S env.evaluate (database env p) config.championVersion
      config.challengerVersion config.canaryWindowHours config (main ▸ hm) with
    ⟨few, _⟩ | ⟨champM, challM, v, _, hc, hk, _⟩
  · have both := few.symm.trans enough
    cases both
  · refine ⟨?_,?_⟩
    · intro hnil
      change champWindow _ _ _ _ _ = [] at hnil
      rw [hnil, he] at hc
      cases hc
    · intro hnil
      change challWindow _ _ _ _ _ = [] at hnil
      rw [hnil, he] at hk
      cases hk

/-- Over two windows with rows a decision is made, and its metrics are finite exactly where
both hold both classes. -/
theorem mainDecision_measured (documented : S.Documented) (healthy : HealthyPass config env p)
    (main : mainDecision S config env p = evaluateCanary S env.evaluate (database env p)
      config.championVersion config.challengerVersion config.canaryWindowHours config none)
    (enough : insufficient config (record S config p env).champRows
      (record S config p env).challRows = false)
    (champRows : (record S config p env).champRows ≠ [])
    (challRows : (record S config p env).challRows ≠ [])
    (champ : ∀ r ∈ (record S config p env).champRows, r.WellFormed)
    (chall : ∀ r ∈ (record S config p env).challRows, r.WellFormed) :
    ∃ d, mainDecision S config env p = .ok d ∧ (d.metrics.finite = true ↔
      BothClasses (record S config p env).champRows ∧
        BothClasses (record S config p env).challRows) := by
  obtain ⟨champM, hc, fc⟩ := computeMetrics_documented documented champRows champ
  obtain ⟨challM, hk, fk⟩ := computeMetrics_documented documented challRows chall
  obtain ⟨v, hv⟩ := judge_ok config champM challM (countConsecutiveImprovements p.decisions
    config.championVersion config.challengerVersion none)
  have read : judge config champM challM (env.evaluate.historyQuery.map fun _ =>
      countConsecutiveImprovements (database env p).decisions config.championVersion
        config.challengerVersion none) = .ok v := by
    rw [healthy.historyQuery]
    exact hv
  have measured := evaluateCanary_of_metrics S env.evaluate (database env p)
    config.championVersion config.challengerVersion config.canaryWindowHours config
    healthy.windowQuery enough hc hk read
  refine ⟨_,main.trans measured,?_⟩
  rw [← fc, ← fk]
  simp

/-- With every call answered and enough rows, a pass writes and applies its decision exactly
where the canary is off or both windows hold both classes. -/
theorem recordsAndApplies_iff (documented : S.Documented) (healthy : HealthyPass config env p)
    (enough : insufficient config (record S config p env).champRows
      (record S config p env).challRows = false)
    (champ : ∀ r ∈ (record S config p env).champRows, r.WellFormed)
    (chall : ∀ r ∈ (record S config p env).challRows, r.WellFormed) :
    RecordsAndApplies S E config env p ↔ p.router.state.canaryEnabled = false ∨
      BothClasses (record S config p env).champRows ∧
        BothClasses (record S config p env).challRows := by
  have active := canaryActive_iff env.stateFetch p.router
  cases on : p.router.state.canaryEnabled with
  | false =>
    have off : ¬canaryActive (getRouterState env.stateFetch p.router) = true := by
      rw [active, on]
      simp
    have hm : mainDecision S config env p =
        .ok (inactiveDecision env.evaluate.now env.evaluate.decisionId) := if_neg off
    exact ⟨fun _ => Or.inl rfl,fun _ => recordsAndApplies_of_finite S E config healthy hm
      (by simp [inactiveDecision])⟩
  | true =>
    have main : mainDecision S config env p = evaluateCanary S env.evaluate (database env p)
        config.championVersion config.challengerVersion config.canaryWindowHours config none :=
      if_pos (active.mpr ⟨healthy.stateFetch,on⟩)
    simp only [Bool.true_eq_false, false_or]
    by_cases rows : (record S config p env).champRows ≠ [] ∧ (record S config p env).challRows ≠ []
    · obtain ⟨d, hm, finite⟩ := mainDecision_measured S config documented healthy main enough
        rows.1 rows.2 champ chall
      rw [← finite]
      constructor
      · intro h
        by_contra infinite
        exact not_recordsAndApplies S E config hm (Bool.eq_false_iff.mpr infinite) h
      · exact recordsAndApplies_of_finite S E config healthy hm
    · refine ⟨fun h => ?_, fun h => absurd ⟨fun hnil => ?_,fun hnil => ?_⟩ rows⟩
      · obtain ⟨d, hm, _⟩ := h
        exact absurd (rows_of_returned S config documented main hm enough) rows
      · rw [hnil] at h
        simp [BothClasses] at h
      · rw [hnil] at h
        simp [BothClasses] at h

end Recording

instance (r : WindowRow F) : Decidable r.WellFormed := inferInstanceAs (Decidable (_ ∧ _))

theorem recordsAndApplies_small :
    RecordsAndApplies exactSklearn smallEngine exactConfig worsePass exactPlatform ↔
      exactPlatform.router.state.canaryEnabled = false ∨
        BothClasses (record exactSklearn exactConfig exactPlatform worsePass).champRows ∧
          BothClasses (record exactSklearn exactConfig exactPlatform worsePass).challRows :=
  recordsAndApplies_iff exactSklearn smallEngine exactConfig exactSklearn_documented
    ⟨rfl,rfl,rfl,rfl,rfl,rfl,rfl,rfl,rfl⟩ (by decide +kernel) (by decide +kernel)
    (by decide +kernel)

/-- A window in which no transaction is a fraud; the challenger's scores are far off. -/
def singleClassPass : IterationEnv Exact :=
  { exactPass (scoredPair "c1" (1/4) (1/4) ++ scoredPair "k1" (3/4) (3/4)) with
    labels := [⟨1,false,"chargeback",0⟩,⟨2,false,"chargeback",0⟩] }

/-- The Brier guardrail rolls back, and the row with the undefined ROC AUC is refused. -/
theorem singleClass_not_recorded :
    HealthyPass exactConfig singleClassPass exactPlatform ∧
    insufficient exactConfig
      (record exactSklearn exactConfig exactPlatform singleClassPass).champRows
      (record exactSklearn exactConfig exactPlatform singleClassPass).challRows = false ∧
    (record exactSklearn exactConfig exactPlatform singleClassPass).Returned .rollback ∧
    ¬RecordsAndApplies exactSklearn smallEngine exactConfig singleClassPass exactPlatform := by
  refine ⟨⟨rfl,rfl,rfl,rfl,rfl,rfl,rfl,rfl,rfl⟩,by decide +kernel,by decide +kernel,fun h => ?_⟩
  obtain ⟨d, _, applies, _⟩ := h
  have unwritten : (iteration exactSklearn smallEngine exactConfig singleClassPass
      exactPlatform).decisions.rows.length = 0 := by decide +kernel
  rw [applies, applyDecision_decisions] at unwritten
  simp [DecisionLog.insert] at unwritten

end FraudPlatform.Canary
