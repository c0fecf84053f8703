import FraudPlatform.Canary.Soundness

namespace FraudPlatform.Canary

open Framework Registry Router
open Serving (smallEngine)

variable {F V : Type} [Binary64 F]

def Retired (config : CanaryConfig F) (p : Platform F) : Prop :=
  p.models.roster config.challengerVersion = some .retired

instance (config : CanaryConfig F) (p : Platform F) : Decidable (Retired config p) :=
  inferInstanceAs (Decidable (_ = _))

def Event.isAdmin {config : CanaryConfig F} : Event config → Bool
  | .admin _ _ => true
  | _ => false

section Traffic

variable (S : Sklearn F) (E : Serving.Engine V) (config : CanaryConfig F)

/-- The pass rolls back, its `UPDATE` is carried out and leaves the challenger's row retired. -/
def RetiredByRollback (env : IterationEnv F) (p : Platform F) : Prop :=
  (record S config p env).Returned .rollback ∧
    (env.insert = .delivered ∧ finiteMetrics S (record S config p env).champRows
      (record S config p env).challRows = true) ∧
    env.apply.roles.acts = true ∧ Retired config (iteration S E config env p)

/-- A challenger that a rollback has retired gets no draw, until an operator calls. -/
def RetiredTakesNoTraffic (p : Platform F) (es : List (Event config)) : Prop :=
  ∀ pre env mid post, es = pre ++ .pass env :: (mid ++ post) →
    RetiredByRollback S E config env (run (loopStep S E config) p pre) →
    (∀ e ∈ mid, e.isAdmin = false) →
    Retired config (run (loopStep S E config) p (pre ++ .pass env :: mid)) →
    (run (loopStep S E config) p (pre ++ .pass env :: mid)).router.state.ChampionOnly

/-- A guardrail trips, the row is written and the `UPDATE` reaches a registered challenger,
whatever its role was. -/
def Retires (env : IterationEnv F) (p : Platform F) : Prop :=
  ((record S config p env).trips S config = true ∧ env.evaluate.windowQuery = .ok ()) ∧
    (env.insert = .delivered ∧ finiteMetrics S (record S config p env).champRows
      (record S config p env).challRows = true) ∧
    env.apply.roles.acts = true ∧ p.models.roster config.challengerVersion ≠ none

/-- A pass that retires the challenger also gets through to the router, unless no traffic
goes to the challenger anyway. -/
def RouterFollows (p : Platform F) : Event config → Prop
  | .pass env => Retires S config env p → p.router.state.ChampionOnly ∨
      (env.apply.roles = .delivered ∧ env.apply.post.acts = true ∧
        config.adminToken = p.router.adminToken)
  | _ => True

theorem iteration_rollback {env : IterationEnv F} {p : Platform F}
    (h : (record S config p env).Returned .rollback) :
    (¬(env.insert = .delivered ∧ finiteMetrics S (record S config p env).champRows
        (record S config p env).challRows = true) ∧
      (iteration S E config env p).models = p.models ∧
      (iteration S E config env p).router = p.router) ∨
    ((env.insert = .delivered ∧ finiteMetrics S (record S config p env).champRows
        (record S config p env).challRows = true) ∧
      (iteration S E config env p).models = (if env.apply.roles.acts then
        (retireChallenger env.apply.now config.challengerVersion p.models).1 else p.models) ∧
      (iteration S E config env p).router = if env.apply.roles = .delivered then
        setRouterCanary config env.apply.post false 0 0 p.router else p.router) := by
  obtain ⟨d, hm, hd⟩ := (returned_iff S config env p .rollback).mp h
  have json := mainDecision_finite S config hm (by simp [hd])
  obtain ⟨e, he, _⟩ | ⟨d', hd', ⟨unsent, heq⟩ | ⟨sent, heq⟩⟩ := iteration_cases S E config env p
  · rw [hm] at he
    cases he
  · rw [hm] at hd'
    cases hd'
    rw [json] at unsent
    exact Or.inl ⟨unsent,by rw [heq],by rw [heq]⟩
  · rw [hm] at hd'
    cases hd'
    rw [json] at sent
    rw [heq, applyDecision_rollback E config env.apply d _ hd]
    exact Or.inr ⟨sent,rfl,rfl⟩

theorem retiredByRollback_iff (env : IterationEnv F) (p : Platform F) :
    RetiredByRollback S E config env p ↔ Retires S config env p := by
  rw [RetiredByRollback, Retires, returned_rollback_iff]
  refine and_congr_right fun tripped => and_congr_right fun sent => and_congr_right fun acts => ?_
  have returned := (returned_rollback_iff S config env p).mpr tripped
  obtain ⟨unsent, _⟩ | ⟨_, models, _⟩ := iteration_rollback S E config returned
  · exact absurd sent unsent
  · rw [Retired, models, if_pos acts, retireChallenger_roster, Roster.recast_self]

/-- The router after a rollback that retires: off, or as it was. -/
theorem retires_championOnly {env : IterationEnv F} {p : Platform F}
    (h : Retires S config env p) :
    (iteration S E config env p).router.state.ChampionOnly ↔
      RouterFollows S config p (.pass env) := by
  have returned := (returned_rollback_iff S config env p).mpr h.1
  obtain ⟨unsent, _⟩ | ⟨_, _, router⟩ := iteration_rollback S E config returned
  · exact absurd h.2.1 unsent
  · rw [router]
    refine ⟨?_,?_⟩
    · intro champ _
      by_cases through : env.apply.roles = .delivered ∧ env.apply.post.acts = true ∧
          config.adminToken = p.router.adminToken
      · exact Or.inr through
      · by_cases roles : env.apply.roles = .delivered
        · rw [if_pos roles, setRouterCanary_off, if_neg fun hp => through ⟨roles,hp⟩] at champ
          exact Or.inl champ
        · rw [if_neg roles] at champ
          exact Or.inl champ
    · intro follows
      obtain champ | ⟨roles, post⟩ := follows h
      · by_cases roles : env.apply.roles = .delivered
        · rw [if_pos roles, setRouterCanary_off]
          split_ifs
          · exact State.championOnly_of_disabled rfl
          · exact champ
        · rw [if_neg roles]
          exact champ
      · rw [if_pos roles, setRouterCanary_off, if_pos post]
        exact State.championOnly_of_disabled rfl

theorem loopStep_championOnly {p : Platform F} {e : Event config} (quiet : e.isAdmin = false)
    (h : p.router.state.ChampionOnly) :
    (loopStep S E config p e).router.state.ChampionOnly := by
  cases e with
  | otherPair gap row other => exact h
  | admin token body => cases quiet
  | pass env =>
    rw [loopStep_pass]
    obtain ⟨e, _, heq⟩ | ⟨d, _, ⟨_, heq⟩ | ⟨_, heq⟩⟩ := iteration_cases S E config env p
    · rw [heq]
      exact h
    · rw [heq]
      exact h
    · rw [heq]
      have routed := applyDecision_router E config env.apply d { p with
        decisions := (writeDecision config env.insert env.createdGap d p.decisions).1 }
      obtain same | off := routed
      · rw [same]
        exact h
      · rw [off]
        exact State.championOnly_of_disabled rfl

theorem run_championOnly {p : Platform F} {es : List (Event config)}
    (quiet : ∀ e ∈ es, e.isAdmin = false) (h : p.router.state.ChampionOnly) :
    (run (loopStep S E config) p es).router.state.ChampionOnly := by
  induction es generalizing p with
  | nil => exact h
  | cons e es ih =>
    rw [run_cons]
    exact ih (fun e' he' => quiet e' (List.mem_cons_of_mem e he'))
      (loopStep_championOnly S E config (quiet e List.mem_cons_self) h)

/-- Retired challengers take no traffic in exactly the runs whose retiring passes all get
through to the router. -/
theorem retiredTakesNoTraffic_iff (p : Platform F) (es : List (Event config)) :
    RetiredTakesNoTraffic S E config p es ↔
      Throughout (loopStep S E config) (RouterFollows S config) p es := by
  rw [throughout_iff_split]
  refine ⟨?_,?_⟩
  · intro h pre e post he
    cases e with
    | otherPair gap row other => trivial
    | admin token body => trivial
    | pass env =>
      intro retires
      have retired := (retiredByRollback_iff S E config env _).mpr retires
      have after := h pre env [] post he retired (by simp)
      rw [run_concat, loopStep_pass] at after
      exact (retires_championOnly S E config retires).mp (after retired.2.2.2) retires
  · intro h pre env mid post he retired quiet _
    have follows := h pre (.pass env) (mid ++ post) he
    have retires := (retiredByRollback_iff S E config env _).mp retired
    rw [run_append, run_cons, loopStep_pass]
    exact run_championOnly S E config quiet
      ((retires_championOnly S E config retires).mpr follows)

end Traffic

/-- A rollback whose request to the router is lost: the challenger is retired and still gets
thirty draws in a hundred. -/
theorem lostPost_keeps_traffic :
    ¬Retired exactConfig exactPlatform ∧
    ¬RetiredTakesNoTraffic exactSklearn smallEngine exactConfig exactPlatform
      [.pass { worsePass with apply := lostPost }] := by
  refine ⟨by decide,fun h => ?_⟩
  have retired : RetiredByRollback exactSklearn smallEngine exactConfig
      { worsePass with apply := lostPost } exactPlatform := by
    refine ⟨?_,⟨rfl,?_⟩,rfl,?_⟩ <;> decide +kernel
  have champ := h [] _ [] [] rfl retired (by simp) retired.2.2.2
  revert champ
  decide +kernel

end FraudPlatform.Canary
