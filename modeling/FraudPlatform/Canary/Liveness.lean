import FraudPlatform.Canary.Recording

namespace FraudPlatform.Canary

open Framework Registry
open Serving (smallEngine)

variable {F V : Type} [Binary64 F]

section Liveness

variable (S : Sklearn F) (E : Serving.Engine V) (config : CanaryConfig F)

/-- Every call of the pass is answered, its windows improve by finite metrics, and the champion
container can load the challenger. -/
structure ImprovingPass (p : Platform F) (env : IterationEnv F) : Prop
    extends HealthyPass config env p where
  improves : improves S config (record S config p env).champRows
    (record S config p env).challRows = true
  finite : finiteMetrics S (record S config p env).champRows
    (record S config p env).challRows = true
  swaps : swapTarget E config env.apply p.container = some config.challengerVersion

/-- An improving pass, or a row of another pair. -/
def ImprovingEvent (p : Platform F) : Event config → Prop
  | .pass env => ImprovingPass S E config p env
  | .otherPair _ _ _ => True
  | .admin _ _ => False

def isPass : Event config → Bool
  | .pass _ => true
  | _ => false

def isAdmin : Event config → Bool
  | .admin _ _ => true
  | _ => false

/-- The challenger serves, the registry says so, and the canary is over. -/
structure Promoted (p q : Platform F) : Prop where
  serves : installed q = config.challengerVersion
  registered : ∃ now, q.models = (promoteRoles now config.challengerVersion p.models).1
  off : q.router.state = ⟨false,0,0⟩

/-- Nothing has happened to the platform yet, and the newest rows of the pair improve. -/
structure Waiting (p : Platform F) (rows : Nat) (q : Platform F) : Prop where
  container : q.container = p.container
  models : q.models = p.models
  router : q.router = p.router
  rows : rows ≤ streak (fun r : DecisionRow F => isImproving r.outcome)
    (q.decisions.ofPair config.championVersion config.challengerVersion).reverse

/-- A window that improves is judged so: a promotion if the rows before it suffice, and else
one more row. -/
theorem mainDecision_of_improves {env : IterationEnv F} {p : Platform F}
    (healthy : HealthyPass config env p) (enabled : p.router.state.canaryEnabled = true)
    (better : improves S config (record S config p env).champRows
      (record S config p env).challRows = true) :
    ∃ d, mainDecision S config env p = .ok d ∧
      d.metrics.finite = finiteMetrics S (record S config p env).champRows
        (record S config p env).challRows ∧
      (d.decision = .promote ∧ config.canaryRequiredConsecutiveRuns - 1 ≤
          countConsecutiveImprovements p.decisions config.championVersion config.challengerVersion
            none ∨
        d.decision = .continue ∧ d.outcome = .improving ∧
          ¬config.canaryRequiredConsecutiveRuns - 1 ≤ countConsecutiveImprovements p.decisions
            config.championVersion config.challengerVersion none) := by
  have active := (canaryActive_iff env.stateFetch p.router).mpr ⟨healthy.stateFetch,enabled⟩
  rw [record_champRows, record_challRows] at better ⊢
  obtain ⟨d, hd, promotes⟩ := evaluateCanary_of_improves S env.evaluate (database env p)
    config.championVersion config.challengerVersion config.canaryWindowHours config better
    healthy.windowQuery healthy.historyQuery
  refine ⟨d,(if_pos active).trans hd,?_⟩
  obtain ⟨enough, champM, challM, hc, hk, quiet, improved⟩ := (improves_iff S config _ _).mp better
  obtain ⟨few, _⟩ | ⟨champM', challM', v, _, hc', hk', hv, outcome, decision, metrics⟩ :=
    evaluateCanary_cases S env.evaluate (database env p) config.championVersion
      config.challengerVersion config.canaryWindowHours config hd
  · rw [enough] at few
    cases few
  · cases hc.symm.trans hc'
    cases hk.symm.trans hk'
    refine ⟨by rw [metrics, finiteMetrics, hc, hk]; simp,?_⟩
    obtain ⟨_, _, tripped⟩ | ⟨_, promote, _⟩ | ⟨improving, waits, _⟩ | ⟨_, _, _, unimproved⟩ :=
      judge_cases config champM challM hv
    · rw [quiet] at tripped
      cases tripped
    · have promote : d.decision = .promote := decision.trans promote
      exact Or.inl ⟨promote,promotes.mp promote⟩
    · have waits : d.decision = .continue := decision.trans waits
      refine Or.inr ⟨waits,outcome.trans improving,fun suffice => ?_⟩
      have promote := promotes.mpr suffice
      rw [waits] at promote
      cases promote
    · rw [improved] at unimproved
      cases unimproved

omit [Binary64 F] in
/-- With every call answered a promotion goes through. -/
theorem promoted_of_applied {env : ApplyEnv} {d : CanaryDecision F} {p q : Platform F}
    (hd : d.decision = .promote) (reload : env.reload = .delivered) (roles : env.roles = .delivered)
    (post : env.post = .delivered) (token : config.adminToken = q.router.adminToken)
    (models : q.models = p.models)
    (swaps : swapTarget E config env q.container = some config.challengerVersion) :
    Promoted config p (applyDecision E config env d q).1 := by
  have sure : confirmed E config env q.container := ⟨reload,swaps⟩
  have version := (reloadServing_spec E config env q.container).1
  rw [swaps] at version
  rw [applyDecision_promote E config env d q hd]
  refine ⟨version,⟨env.now,?_⟩,?_⟩
  · rw [← models]
    exact if_pos ⟨sure,by rw [roles]; rfl⟩
  · dsimp only
    rw [if_pos ⟨sure,roles⟩, setRouterCanary_off, post]
    exact if_pos ⟨rfl,token⟩

variable {S E config} {p q : Platform F} {rows : Nat} {e : Event config}

theorem ImprovingPass.congr {env : IterationEnv F} (improving : ImprovingPass S E config p env)
    (waiting : Waiting config p rows q) : ImprovingPass S E config q env where
  stateFetch := improving.stateFetch
  windowQuery := improving.windowQuery
  historyQuery := improving.historyQuery
  insert := improving.insert
  reload := improving.reload
  roles := improving.roles
  post := improving.post
  containerToken := by rw [waiting.container]; exact improving.containerToken
  routerToken := by rw [waiting.router]; exact improving.routerToken
  improves := improving.improves
  finite := improving.finite
  swaps := by rw [waiting.container]; exact improving.swaps

/-- One improving pass promotes, if the improving rows suffice, or adds one to them. -/
theorem Waiting.pass {env : IterationEnv F} (waiting : Waiting config p rows q)
    (enabled : p.router.state.canaryEnabled = true) (improving : ImprovingPass S E config p env) :
    (config.canaryRequiredConsecutiveRuns ≤ 11 ∧ Promoted config p (iteration S E config env q)) ∨
      ((rows : Int) + 1 < config.canaryRequiredConsecutiveRuns ∨
        11 < config.canaryRequiredConsecutiveRuns) ∧
      Waiting config p (rows + 1) (iteration S E config env q) := by
  have here := improving.congr waiting
  obtain ⟨d, hm, finite, ⟨hd, suffice⟩ | ⟨hd, outcome, few⟩⟩ := mainDecision_of_improves S config
    here.toHealthyPass (by rw [waiting.router]; exact enabled) here.improves
  · rw [countConsecutiveImprovements_none] at suffice
    rw [iteration_applies S E config hm ⟨here.insert,finite.trans here.finite⟩]
    refine Or.inl ⟨by omega,?_⟩
    exact promoted_of_applied E config hd here.reload here.roles here.post here.routerToken
      waiting.models here.swaps
  · rw [countConsecutiveImprovements_none] at few
    rw [iteration_applies S E config hm ⟨here.insert,finite.trans here.finite⟩,
      applyDecision_continue E config env.apply d _ hd]
    have more := waiting.rows
    refine Or.inr ⟨by omega,waiting.container,waiting.models,waiting.router,?_⟩
    have improves : isImproving (decisionRow config d).outcome = true := by
      change isImproving d.outcome.text = true
      rw [outcome]
      decide
    change rows + 1 ≤ streak _ ((q.decisions.insert env.createdGap (decisionRow config d)).ofPair
      (decisionRow config d).championVersion (decisionRow config d).challengerVersion).reverse
    rw [DecisionLog.ofPair_insert_same, List.reverse_append, List.reverse_singleton, List.singleton_append, streak_cons,
      if_pos improves]
    exact Nat.succ_le_succ more

omit [Binary64 F] in
theorem Waiting.otherPair {gap : Nat} {row : DecisionRow F}
    (other : ¬(row.championVersion = config.championVersion ∧
      row.challengerVersion = config.challengerVersion)) (waiting : Waiting config p rows q) :
    Waiting config p rows { q with decisions := q.decisions.insert gap row } := by
  refine ⟨waiting.container,waiting.models,waiting.router,?_⟩
  rw [q.decisions.ofPair_insert_other gap row other]
  exact waiting.rows

/-- Without a request to the router nothing undoes a promotion: its canary is off. -/
theorem Promoted.step (promoted : Promoted config p q) (quiet : isAdmin config e = false) :
    Promoted config p (loopStep S E config q e) := by
  cases e with
  | admin token body => cases quiet
  | otherPair gap row other => exact ⟨promoted.serves,promoted.registered,promoted.off⟩
  | pass env =>
    rw [loopStep_pass]
    have inactive : ¬canaryActive (getRouterState env.stateFetch q.router) = true := by
      rw [canaryActive_iff, promoted.off]
      exact fun h => nomatch h.2
    have hm : mainDecision S config env q =
        .ok (inactiveDecision env.evaluate.now env.evaluate.decisionId) := if_neg inactive
    obtain ⟨_, _, he⟩ | ⟨d, hd, ⟨_, he⟩ | ⟨_, he⟩⟩ := iteration_cases S E config env q
    · rw [he]
      exact promoted
    · rw [he]
      exact ⟨promoted.serves,promoted.registered,promoted.off⟩
    · cases hm.symm.trans hd
      rw [he, applyDecision_continue E config env.apply _ _ rfl]
      exact ⟨promoted.serves,promoted.registered,promoted.off⟩

theorem Promoted.run (promoted : Promoted config p q) {es : List (Event config)}
    (quiet : ∀ e ∈ es, isAdmin config e = false) :
    Promoted config p (run (loopStep S E config) q es) := by
  induction es generalizing q with
  | nil => exact promoted
  | cons e es ih =>
    exact ih (promoted.step (quiet e List.mem_cons_self)) fun f hf =>
      quiet f (List.mem_cons_of_mem e hf)

theorem not_isAdmin_of_improving (improving : ImprovingEvent S E config p e) :
    isAdmin config e = false := by
  cases e with
  | admin token body => exact improving.elim
  | _ => rfl

/-- Improving passes lead to a promotion, or the rows they leave are still waited for. -/
theorem Waiting.run (waiting : Waiting config p rows q)
    (enabled : p.router.state.canaryEnabled = true) {es : List (Event config)}
    (improving : ∀ e ∈ es, ImprovingEvent S E config p e) :
    (config.canaryRequiredConsecutiveRuns ≤ 11 ∧
        Promoted config p (run (loopStep S E config) q es)) ∨
      (es.countP (isPass config) = 0 ∨
        (rows + es.countP (isPass config) : Int) < config.canaryRequiredConsecutiveRuns ∨
          11 < config.canaryRequiredConsecutiveRuns) ∧
      ∃ rows', Waiting config p rows' (run (loopStep S E config) q es) := by
  induction es generalizing q rows with
  | nil => exact Or.inr ⟨Or.inl rfl,rows,waiting⟩
  | cons e es ih =>
    have first := improving e List.mem_cons_self
    have rest : ∀ f ∈ es, ImprovingEvent S E config p f := fun f hf =>
      improving f (List.mem_cons_of_mem e hf)
    cases e with
    | admin token body => exact first.elim
    | otherPair gap row other =>
      rw [List.countP_cons_of_neg (by simp [isPass])]
      exact ih (waiting.otherPair other) rest
    | pass env =>
      rw [List.countP_cons_of_pos rfl, run_cons, loopStep_pass]
      obtain ⟨reach, promoted⟩ | ⟨few, more⟩ := waiting.pass enabled first
      · exact Or.inl ⟨reach,promoted.run fun f hf => not_isAdmin_of_improving (rest f hf)⟩
      · obtain promoted | ⟨short, rows', later⟩ := ih more rest
        · exact Or.inl promoted
        · refine Or.inr ⟨?_,rows',later⟩
          push_cast at short ⊢
          omega

/-- A challenger that improves in enough consecutive passes is promoted for good, exactly if
the history's `LIMIT 10` lets the loop count that far. -/
theorem promotion_live (es : List (Event config))
    (runs : 1 ≤ config.canaryRequiredConsecutiveRuns)
    (enabled : p.router.state.canaryEnabled = true)
    (improving : ∀ e ∈ es, ImprovingEvent S E config p e)
    (enough : config.canaryRequiredConsecutiveRuns ≤ es.countP (isPass config)) :
    (∀ later : List (Event config), (∀ e ∈ later, isAdmin config e = false) →
      Promoted config p (run (loopStep S E config) p (es ++ later))) ↔
    config.canaryRequiredConsecutiveRuns ≤ 11 := by
  have waiting : Waiting config p 0 p := ⟨rfl,rfl,rfl,Nat.zero_le _⟩
  obtain ⟨reach, promoted⟩ | ⟨short, rows, waiting⟩ := waiting.run enabled improving
  · refine ⟨fun _ => reach,fun _ later quiet => ?_⟩
    rw [run_append]
    exact promoted.run quiet
  · constructor
    · intro promotes
      have promoted := promotes [] fun e he => absurd he List.not_mem_nil
      rw [List.append_nil] at promoted
      have off := promoted.off
      rw [waiting.router] at off
      rw [off] at enabled
      cases enabled
    · intro reach
      omega

end Liveness

theorem improvingPass_better :
    ImprovingPass exactSklearn smallEngine exactConfig exactPlatform betterPass :=
  ⟨⟨rfl,rfl,rfl,rfl,rfl,rfl,rfl,rfl,rfl⟩,by decide +kernel,by decide +kernel,by decide +kernel⟩

/-- Three improving passes, with a row of another pair between them. -/
def threeBetter : List (Event exactConfig) :=
  [.pass betterPass,.pass betterPass,
    .otherPair 0 ⟨"d","c0","c1","continue","no_signal","",.object [],0,0,0⟩ (by decide),
    .pass betterPass]

theorem promotion_live_small :
    (∀ later : List (Event exactConfig), (∀ e ∈ later, isAdmin exactConfig e = false) →
      Promoted exactConfig exactPlatform (run (loopStep exactSklearn smallEngine exactConfig)
        exactPlatform (threeBetter ++ later))) ↔
    exactConfig.canaryRequiredConsecutiveRuns ≤ 11 := by
  refine promotion_live threeBetter (by decide) rfl ?_ (by decide)
  intro e he
  simp only [threeBetter, List.mem_cons, List.not_mem_nil, or_false] at he
  obtain rfl | rfl | rfl | rfl := he
  · exact improvingPass_better
  · exact improvingPass_better
  · trivial
  · exact improvingPass_better

end FraudPlatform.Canary
