import FraudPlatform.Canary.Loop

namespace FraudPlatform.Canary

open Framework Registry

variable {F V : Type}

/-- What a decision does to the registry. -/
def roleUpdate (config : CanaryConfig F) (decision : Decision) (now : Int) (models : Models) : Models :=
  match decision with
  | .promote => (promoteRoles now config.challengerVersion models).1
  | .rollback => (retireChallenger now config.challengerVersion models).1
  | .continue => models

/-- An applied decision changes the roles at most as it says, and a rollback no container. -/
theorem applyDecision_roles (E : Serving.Engine V) (config : CanaryConfig F) (env : ApplyEnv)
    (decision : CanaryDecision F) (p : Platform F) :
    (decision.decision = .rollback →
      (applyDecision E config env decision p).1.container = p.container) ∧
    ((applyDecision E config env decision p).1.models = p.models ∨
      (applyDecision E config env decision p).1.models =
        roleUpdate config decision.decision env.now p.models) := by
  cases hd : decision.decision with
  | promote =>
    rw [applyDecision_promote E config env decision p hd]
    refine ⟨nofun,?_⟩
    dsimp only
    split_ifs
    · exact Or.inr rfl
    · exact Or.inl rfl
  | rollback =>
    rw [applyDecision_rollback E config env decision p hd]
    refine ⟨fun _ => rfl,?_⟩
    dsimp only
    split_ifs
    · exact Or.inr rfl
    · exact Or.inl rfl
  | «continue» =>
    rw [applyDecision_continue E config env decision p hd]
    exact ⟨fun _ => rfl,Or.inl rfl⟩

section Run

variable [Binary64 F] (S : Sklearn F) (E : Serving.Engine V) (config : CanaryConfig F)

/-- The pair's rows after a run. -/
def history (p : Platform F) (es : List (Event config)) : List (DecisionRow F) :=
  (run (loopStep S E config) p es).decisions.ofPair config.championVersion config.challengerVersion

/-- A pass over an active canary did what its own row in the history says: the row that comes
next after those that stood there before the pass. -/
structure Audited (before after : Platform F) (rows : List (DecisionRow F)) : Prop where
  active : before.router.state.canaryEnabled = true
  recorded : ∃ decision row later, decision ≠ .continue ∧
    rows = before.decisions.ofPair config.championVersion config.challengerVersion ++ row :: later ∧
    row.decision = decision.text ∧
    (decision = .rollback → after.container = before.container) ∧
    (after.models = before.models ∨ ∃ now, after.models = roleUpdate config decision now before.models)

/-- A pass that does more than write a row has written the row of the decision it applies. -/
theorem iteration_acts (env : IterationEnv F) (p : Platform F) :
    ((iteration S E config env p).models = p.models ∧
      (iteration S E config env p).container = p.container ∧
      (iteration S E config env p).router = p.router) ∨
    ∃ d row, mainDecision S config env p = .ok d ∧ d.decision ≠ .continue ∧
      storedRow S config env p = some row ∧ row.decision = d.decision.text ∧
      iteration S E config env p = (applyDecision E config env.apply d
        { p with decisions := p.decisions.insert env.createdGap (decisionRow config d) }).1 := by
  obtain ⟨e, _, he⟩ | ⟨d, hm, ⟨_, he⟩ | ⟨sent, _⟩⟩ := iteration_cases S E config env p
  · rw [he]
    exact Or.inl ⟨rfl,rfl,rfl⟩
  · rw [he]
    exact Or.inl ⟨rfl,rfl,rfl⟩
  · have applied := iteration_applies S E config hm sent
    by_cases hd : d.decision = .continue
    · rw [applied, applyDecision_continue E config env.apply d _ hd]
      exact Or.inl ⟨rfl,rfl,rfl⟩
    · have acts : env.insert.acts = true ∧ d.metrics.finite = true := ⟨by rw [sent.1]; rfl,sent.2⟩
      refine Or.inr ⟨d,{ decisionRow config d with
        createdAt := latest p.decisions.rows + 1 + env.createdGap },hm,hd,?_,rfl,applied⟩
      rw [storedRow, hm]
      exact if_pos acts

/-- The row a pass stores stands in the history ever after, right after the rows it found. -/
theorem history_pass (p : Platform F) (pre post : List (Event config)) {env : IterationEnv F}
    {row : DecisionRow F}
    (stored : storedRow S config env (run (loopStep S E config) p pre) = some row) :
    ∃ later, history S E config p (pre ++ .pass env :: post) =
      history S E config p pre ++ row :: later := by
  rw [history, run_append, run_cons, run_ofPair, loopStep_pass, iteration_ofPair, stored,
    List.append_assoc]
  exact ⟨_,rfl⟩

/-- Whatever changes the registry, the champion container or the routing during a run of the
loop is a pass whose row stands in the history, or, for the routing, a request with the token. -/
theorem changes_audited (p : Platform F) (pre post : List (Event config)) (e : Event config) :
    let before := run (loopStep S E config) p pre
    let after := loopStep S E config before e
    let rows := history S E config p (pre ++ e :: post)
    (after.models ≠ before.models ∨ after.container ≠ before.container →
      Audited config before after rows) ∧
    (after.router.state ≠ before.router.state →
      (∃ body, e = .admin before.router.adminToken body) ∨
        after.router.state = ⟨false,0,0⟩ ∧ Audited config before after rows) := by
  dsimp only
  cases e with
  | otherPair gap row other =>
    refine ⟨fun changed => ?_,fun changed => absurd rfl changed⟩
    obtain changed | changed := changed
    · exact absurd rfl changed
    · exact absurd rfl changed
  | admin token body =>
    refine ⟨fun changed => ?_,fun changed => Or.inl ?_⟩
    · obtain changed | changed := changed
      · exact absurd rfl changed
      · exact absurd rfl changed
    · obtain ⟨req, _, same, _⟩ | ⟨status, text, refused⟩ := Router.handleAdminCanary_cases token body
        (run (loopStep S E config) p pre).router
      · exact ⟨body,by rw [same]⟩
      · rw [loopStep, refused] at changed
        exact absurd rfl changed
  | pass env =>
    rw [loopStep_pass]
    obtain ⟨models, container, router⟩ | ⟨d, row, hm, acts, stored, text, applied⟩ :=
      iteration_acts S E config env (run (loopStep S E config) p pre)
    · refine ⟨fun changed => ?_,fun changed => absurd (congrArg _ router) changed⟩
      obtain changed | changed := changed
      · exact absurd models changed
      · exact absurd container changed
    · have audited : Audited config (run (loopStep S E config) p pre)
          (iteration S E config env (run (loopStep S E config) p pre))
          (history S E config p (pre ++ .pass env :: post)) := by
        refine ⟨((canaryActive_iff _ _).mp (mainDecision_acts S config hm acts).1).2,?_⟩
        obtain ⟨later, split⟩ := history_pass S E config p pre post stored
        refine ⟨d.decision,row,later,acts,split,text,?_,?_⟩
        · rw [applied]
          exact (applyDecision_roles E config env.apply d _).1
        · rw [applied]
          obtain same | updated := (applyDecision_roles E config env.apply d _).2
          · exact Or.inl same
          · exact Or.inr ⟨env.apply.now,updated⟩
      refine ⟨fun _ => audited,fun changed => Or.inr ⟨?_,audited⟩⟩
      rw [applied] at changed ⊢
      exact (applyDecision_router E config env.apply d _).resolve_left changed

end Run

end FraudPlatform.Canary
