import FraudPlatform.Canary.Soundness

namespace FraudPlatform.Canary

open Framework
open Serving (smallEngine)

variable {F V : Type} [Binary64 F]

section Abort

variable (S : Sklearn F) (E : Serving.Engine V) (config : CanaryConfig F)
  {env : IterationEnv F} {p : Platform F} {d : CanaryDecision F}

/-- A promotion whose reload fails before any swap changes nothing but the history. -/
theorem iteration_of_abort (hm : mainDecision S config env p = .ok d)
    (hd : d.decision = .promote) (sent : env.insert = .delivered ∧ d.metrics.finite = true)
    (aborts : swapTarget E config env.apply p.container = none) :
    iteration S E config env p =
      { p with decisions := p.decisions.insert env.createdGap (decisionRow config d) } := by
  have unconfirmed : ¬confirmed E config env.apply p.container := fun hc => by
    rw [confirmed, aborts] at hc
    cases hc.2
  have container := (reloadServing_spec E config env.apply p.container).2.1 aborts
  rw [iteration_applies S E config hm sent, applyDecision_promote E config env.apply d _ hd]
  dsimp only
  rw [container, if_neg fun h => unconfirmed h.1, if_neg fun h => unconfirmed h.1]

/-- A pass that improves promotes exactly where the rows before it suffice. -/
theorem returned_promote_iff (fetched : env.stateFetch = .delivered)
    (enabled : p.router.state.canaryEnabled = true)
    (window : env.evaluate.windowQuery = .ok ()) (history : env.evaluate.historyQuery = .ok ())
    (better : improves S config (record S config p env).champRows
      (record S config p env).challRows = true) :
    (record S config p env).Returned .promote ↔ config.canaryRequiredConsecutiveRuns - 1 ≤
      countConsecutiveImprovements p.decisions config.championVersion config.challengerVersion
        none := by
  have active := (canaryActive_iff env.stateFetch p.router).mpr ⟨fetched,enabled⟩
  rw [record_champRows, record_challRows] at better
  obtain ⟨d, hd, promotes⟩ := evaluateCanary_of_improves S env.evaluate (database env p)
    config.championVersion config.challengerVersion config.canaryWindowHours config better window
    history
  have main : mainDecision S config env p = .ok d := by
    rw [mainDecision, if_pos active]
    exact hd
  have count : d.decision = .promote ↔ config.canaryRequiredConsecutiveRuns - 1 ≤
      countConsecutiveImprovements p.decisions config.championVersion config.challengerVersion
        none := promotes
  rw [returned_iff, main, ← count]
  constructor
  · rintro ⟨e, he, hpe⟩
    cases he
    exact hpe
  · intro hpd
    exact ⟨d,rfl,hpd⟩

/-- The next pass finds the aborted promotion's row newest, so it promotes again exactly
where no earlier improvement is needed. -/
theorem promotion_retried_iff (env env' : IterationEnv F) (p : Platform F)
    (runs : 1 ≤ config.canaryRequiredConsecutiveRuns)
    (promotes : (record S config p env).Returned .promote) (sent : env.insert = .delivered)
    (finite : finiteMetrics S (record S config p env).champRows
      (record S config p env).challRows = true)
    (aborts : swapTarget E config env.apply p.container = none)
    (fetched : env'.stateFetch = .delivered) (window : env'.evaluate.windowQuery = .ok ())
    (history : env'.evaluate.historyQuery = .ok ())
    (better : improves S config (record S config (iteration S E config env p) env').champRows
      (record S config (iteration S E config env p) env').challRows = true) :
    (record S config (iteration S E config env p) env').Returned .promote ↔
      config.canaryRequiredConsecutiveRuns = 1 := by
  obtain ⟨d, hm, hd⟩ := (returned_iff S config env p .promote).mp promotes
  have acting : d.decision ≠ .continue := by simp [hd]
  have json : d.metrics.finite = true := (mainDecision_finite S config hm acting).trans finite
  have next := iteration_of_abort S E config hm hd ⟨sent,json⟩ aborts
  have enabled := ((canaryActive_iff _ _).mp (mainDecision_acts S config hm acting).1).2
  have router : (iteration S E config env p).router = p.router := by rw [next]
  have promoted := (mainDecision_promote S config hm hd).1
  have none : countConsecutiveImprovements (iteration S E config env p).decisions
      config.championVersion config.challengerVersion none = 0 := by
    rw [next]
    refine countConsecutiveImprovements_insert _ _ (decisionRow config d) ?_
    change isImproving d.outcome.text = false
    rw [promoted]
    decide
  rw [returned_promote_iff S config fetched (router ▸ enabled) window history better, none]
  omega

end Abort

section Sample

/-- The platform after two improvements. -/
def twoImprovements : Platform Exact :=
  run (loopStep exactSklearn smallEngine exactConfig) exactPlatform
    [.pass betterPass,.pass betterPass]

/-- The third improvement, with a reload request that does not arrive. -/
def abortedPass : IterationEnv Exact :=
  { betterPass with apply := { allDelivered with reload := .lost } }

end Sample

theorem promotion_retried_small :
    (record exactSklearn exactConfig (iteration exactSklearn smallEngine exactConfig abortedPass
      twoImprovements) betterPass).Returned .promote ↔
        exactConfig.canaryRequiredConsecutiveRuns = 1 :=
  promotion_retried_iff exactSklearn smallEngine exactConfig abortedPass betterPass twoImprovements
    (by decide) (by decide +kernel) rfl (by decide +kernel) (by decide +kernel) rfl rfl rfl
    (by decide +kernel)

/-- The aborted promotion is not reconsidered: its own row has ended the streak. -/
theorem abortedPromotion_not_retried :
    let next := iteration exactSklearn smallEngine exactConfig abortedPass twoImprovements
    (record exactSklearn exactConfig twoImprovements abortedPass).Returned .promote ∧
    swapTarget smallEngine exactConfig abortedPass.apply twoImprovements.container = none ∧
    next.models.rows = twoImprovements.models.rows ∧
    (record exactSklearn exactConfig next betterPass).counts exactSklearn exactConfig = true ∧
    ¬(record exactSklearn exactConfig next betterPass).Returned .promote := by
  decide +kernel

end FraudPlatform.Canary
