import FraudPlatform.Canary.Evaluator
import FraudPlatform.Registry.Models
import FraudPlatform.Router.Admin
import FraudPlatform.Serving.Runner

namespace FraudPlatform.Canary

open Framework Registry

variable {F V : Type}

/-- The parties of a promotion: the registry, the champion serving container and the
router, with the evaluator's own table. -/
structure Platform (F : Type) where
  models : Models
  container : Serving.Handler
  router : Router.Handler
  decisions : DecisionLog F

/-- How the remote calls of one `apply_decision` end. A transaction of Postgres is a call
like the others: it commits or not, and its acknowledgement arrives or not. -/
structure ApplyEnv where
  reload : Fate
  load : Serving.LoadEnv
  roles : Fate
  post : Fate
  now : Int

def installed (p : Platform F) : String := p.container.modelRunner.r.modelVersion

/-- `POST /admin/canary`; whatever goes wrong is logged and swallowed. -/
def setRouterCanary (config : CanaryConfig F) (fate : Fate) (enabled : Bool)
    (challengerPct shadowPct : Int) (router : Router.Handler) : Router.Handler :=
  (fate.call (Router.handleAdminCanary config.adminToken
    (some ⟨enabled,challengerPct,shadowPct⟩)) router).1

/-- `POST /admin/reload` and the version it reports, or a raise. -/
def reloadServing (E : Serving.Engine V) (load : Serving.LoadEnv) (fate : Fate)
    (modelPath featureOrderPath adminToken : String) (container : Serving.Handler) :
    Serving.Handler × Except String String :=
  let called := fate.call (Serving.handleReload E load adminToken
    (some ⟨modelPath,featureOrderPath⟩)) container
  (called.1,(Reply.raiseForStatus called.2).map (·.modelVersion))

/-- The two updates of a promotion, in one transaction. -/
def promoteRoles (now : Int) (challengerVersion : String) (t : Models) : Models × Unit :=
  ((t.retireChampions now).makeChampion now challengerVersion,())

def retireChallenger (now : Int) (challengerVersion : String) (t : Models) : Models × Unit :=
  (t.retireVersion now challengerVersion,())

/-- The platform afterwards, and whether the function raised. -/
def applyDecision (E : Serving.Engine V) (config : CanaryConfig F) (env : ApplyEnv)
    (decision : CanaryDecision F) (p : Platform F) : Platform F × Except String Unit :=
  match decision.decision with
  | .promote =>
    match reloadServing E env.load env.reload config.challengerModelPath
        config.challengerFeatureOrderPath config.adminToken p.container with
    | (container, .error _) => ({ p with container }, .ok ())
    | (container, .ok newVer) =>
      if newVer ≠ config.challengerVersion then ({ p with container }, .ok ())
      else
        match env.roles.call (promoteRoles env.now config.challengerVersion) p.models with
        | (models, none) => ({ p with container, models }, .error "role update failed")
        | (models, some ()) =>
          ({ p with container, models,
                    router := setRouterCanary config env.post false 0 0 p.router }, .ok ())
  | .rollback =>
    match env.roles.call (retireChallenger env.now config.challengerVersion) p.models with
    | (models, none) => ({ p with models }, .error "role update failed")
    | (models, some ()) =>
      ({ p with models, router := setRouterCanary config env.post false 0 0 p.router }, .ok ())
  | .continue => (p, .ok ())

section Spec

variable (E : Serving.Engine V) (config : CanaryConfig F) (env : ApplyEnv)

/-- The version the container swaps to when it acts on the reload request of a promotion. -/
def swapTarget (container : Serving.Handler) : Option String :=
  if env.reload.acts then
    match (Serving.handleReload E env.load config.adminToken
      (some ⟨config.challengerModelPath,config.challengerFeatureOrderPath⟩) container).2 with
    | .ok response => some response.modelVersion
    | .error _ _ => none
  else none

/-- The container reports to the evaluator that it now runs the challenger. -/
def confirmed (container : Serving.Handler) : Prop :=
  env.reload = .delivered ∧ swapTarget E config env container = some config.challengerVersion

instance (container : Serving.Handler) : Decidable (confirmed E config env container) :=
  inferInstanceAs (Decidable (_ ∧ _))

theorem reloadServing_spec (container : Serving.Handler) :
    let r := reloadServing E env.load env.reload config.challengerModelPath
      config.challengerFeatureOrderPath config.adminToken container
    r.1.modelRunner.r.modelVersion =
        (swapTarget E config env container).getD container.modelRunner.r.modelVersion ∧
      (swapTarget E config env container = none → r.1 = container) ∧
      ∀ v, r.2 = .ok v ↔ env.reload = .delivered ∧ swapTarget E config env container = some v := by
  rcases Serving.handleReload_cases E env.load config.adminToken
      (some ⟨config.challengerModelPath,config.challengerFeatureOrderPath⟩) container with
    ⟨newR, h⟩ | ⟨status, text, h⟩
  · cases hf : env.reload <;>
      simp [reloadServing, swapTarget, hf, h, Fate.acts, Reply.raiseForStatus, Except.map]
  · cases hf : env.reload <;>
      simp [reloadServing, swapTarget, hf, h, Fate.acts, Reply.raiseForStatus, Except.map]

variable (decision : CanaryDecision F) (p : Platform F)

/-- A promotion step by step: the container is what the reload left, the roles change only
once the container has confirmed the challenger, the router only once the roles did. -/
theorem applyDecision_promote (hd : decision.decision = .promote) :
    (applyDecision E config env decision p).1 =
      { p with
        container := (reloadServing E env.load env.reload config.challengerModelPath
          config.challengerFeatureOrderPath config.adminToken p.container).1
        models := if confirmed E config env p.container ∧ env.roles.acts then
          (promoteRoles env.now config.challengerVersion p.models).1 else p.models
        router := if confirmed E config env p.container ∧ env.roles = .delivered then
          setRouterCanary config env.post false 0 0 p.router else p.router } := by
  have reply := (reloadServing_spec E config env p.container).2.2
  unfold applyDecision
  rw [hd]
  dsimp only at reply ⊢
  generalize reloadServing E env.load env.reload config.challengerModelPath
    config.challengerFeatureOrderPath config.adminToken p.container = r at reply ⊢
  obtain ⟨container, answer⟩ := r
  cases answer with
  | error e =>
    have unconfirmed : ¬confirmed E config env p.container := fun h => by
      have bad := (reply config.challengerVersion).mpr h
      cases bad
    simp [unconfirmed]
  | ok newVer =>
    have got := (reply newVer).mp rfl
    by_cases hv : newVer = config.challengerVersion
    · subst hv
      have sure : confirmed E config env p.container := got
      cases hr : env.roles <;> simp [sure, Fate.acts]
    · have unconfirmed : ¬confirmed E config env p.container := fun h =>
        hv (Option.some.inj (got.2.symm.trans h.2))
      simp [hv, unconfirmed]

theorem applyDecision_rollback (hd : decision.decision = .rollback) :
    (applyDecision E config env decision p).1 =
      { p with
        models := if env.roles.acts then
          (retireChallenger env.now config.challengerVersion p.models).1 else p.models
        router := if env.roles = .delivered then
          setRouterCanary config env.post false 0 0 p.router else p.router } := by
  unfold applyDecision
  rw [hd]
  cases hr : env.roles <;> simp [Fate.acts]

theorem applyDecision_continue (hd : decision.decision = .continue) :
    (applyDecision E config env decision p).1 = p := by
  unfold applyDecision
  rw [hd]

/-- No decision touches the evaluator's own table. -/
theorem applyDecision_decisions :
    (applyDecision E config env decision p).1.decisions = p.decisions := by
  cases hd : decision.decision with
  | promote => rw [applyDecision_promote E config env decision p hd]
  | rollback => rw [applyDecision_rollback E config env decision p hd]
  | «continue» => rw [applyDecision_continue E config env decision p hd]

theorem setRouterCanary_off (fate : Fate) (router : Router.Handler) :
    (setRouterCanary config fate false 0 0 router).state =
      if fate.acts ∧ config.adminToken = router.adminToken then ⟨false,0,0⟩ else router.state := by
  rw [setRouterCanary, Fate.call_state]
  cases fate <;> simp [Fate.acts, Router.handleAdminCanary_off]

/-- No decision turns the canary on. -/
theorem applyDecision_router :
    (applyDecision E config env decision p).1.router.state = p.router.state ∨
      (applyDecision E config env decision p).1.router.state = ⟨false,0,0⟩ := by
  have off (fate : Fate) : (setRouterCanary config fate false 0 0 p.router).state =
      p.router.state ∨ (setRouterCanary config fate false 0 0 p.router).state = ⟨false,0,0⟩ := by
    rw [setRouterCanary_off]
    split_ifs
    · exact Or.inr rfl
    · exact Or.inl rfl
  cases hd : decision.decision with
  | promote =>
    rw [applyDecision_promote E config env decision p hd]
    dsimp only
    split_ifs
    · exact off env.post
    · exact Or.inl rfl
  | rollback =>
    rw [applyDecision_rollback E config env decision p hd]
    dsimp only
    split_ifs
    · exact off env.post
    · exact Or.inl rfl
  | «continue» =>
    rw [applyDecision_continue E config env decision p hd]
    exact Or.inl rfl

end Spec

end FraudPlatform.Canary
