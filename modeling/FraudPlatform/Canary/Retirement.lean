import FraudPlatform.Canary.Promotion
import FraudPlatform.Registry.Register

namespace FraudPlatform.Canary

open Framework Registry
open Serving (smallEngine)

variable {F V : Type}

/-- The two programs that write roles. The evaluator may be restarted with another
configuration between two decisions. -/
inductive RegistryEvent (F : Type)
  | register (env : RegisterEnv)
  | apply (config : CanaryConfig F) (env : ApplyEnv) (decision : CanaryDecision F)

def registryStep (E : Serving.Engine V) (p : Platform F) : RegistryEvent F → Platform F
  | .register env => { p with models := (registerMain env p.models).1 }
  | .apply config env decision => (applyDecision E config env decision p).1

/-- No promotion that goes through meets a retired challenger. -/
def NoRevival (E : Serving.Engine V) (p : Platform F) : RegistryEvent F → Prop
  | .register _ => True
  | .apply config env decision =>
    decision.decision = .promote → confirmed E config env p.container → env.roles.acts = true →
      p.models.roster config.challengerVersion ≠ some .retired

theorem registerMain_roster (env : RegisterEnv) (t : Models) :
    (registerMain env t).1 = t ∨
    ∃ a b, t.roster a ≠ some .retired ∧ t.roster b ≠ some .retired ∧
      (registerMain env t).1.roster = t.roster.register a b := by
  unfold registerMain
  cases env.championOnnx with
  | none => exact Or.inl rfl
  | some a =>
    cases env.challengerOnnx with
    | none => exact Or.inl rfl
    | some b =>
      cases env.connect with
      | error e => exact Or.inl rfl
      | ok u =>
        cases u
        obtain ⟨_, e, he⟩ | ⟨hr, u, hu, ru, _⟩ := registerTransaction_cases env.now a b t
        · exact Or.inl (by simp only [he])
        · cases hc : env.commit with
          | lost => exact Or.inl (by simp only [hu, Fate.call_lost])
          | delivered => exact Or.inr ⟨a,b,hr.1,hr.2,by simp only [hu, Fate.call_delivered, ru]⟩
          | unanswered => exact Or.inr ⟨a,b,hr.1,hr.2,by simp only [hu, Fate.call_unanswered, ru]⟩

/-- Registration never touches a retired version. -/
theorem registerMain_keeps_retired (env : RegisterEnv) (t : Models) (v : String)
    (hv : t.roster v = some .retired) : (registerMain env t).1.roster v = some .retired := by
  obtain h | ⟨a, b, ha, hb, h⟩ := registerMain_roster env t
  · rw [h, hv]
  · rw [h]
    apply t.roster.register_retired a b v hv
    · intro hva
      exact ha (hva ▸ hv)
    · intro hvb
      exact hb (hvb ▸ hv)

theorem applyDecision_keeps_retired (E : Serving.Engine V) (config : CanaryConfig F)
    (env : ApplyEnv) (decision : CanaryDecision F) (p : Platform F)
    (h : NoRevival E p (.apply config env decision)) (v : String)
    (hv : p.models.roster v = some .retired) :
    (applyDecision E config env decision p).1.models.roster v = some .retired := by
  cases hd : decision.decision with
  | promote =>
    rw [applyDecision_promote E config env decision p hd]
    dsimp only
    by_cases hc : confirmed E config env p.container ∧ env.roles.acts = true
    · have other : v ≠ config.challengerVersion := fun he => h hd hc.1 hc.2 (he ▸ hv)
      rw [if_pos hc, promoteRoles_roster]
      exact p.models.roster.promote_retired _ v hv other
    · rw [if_neg hc]
      exact hv
  | rollback =>
    rw [applyDecision_rollback E config env decision p hd]
    dsimp only
    by_cases ha : env.roles.acts = true
    · rw [if_pos ha, retireChallenger_roster]
      exact p.models.roster.retire_retired _ v hv
    · rw [if_neg ha]
      exact hv
  | «continue» =>
    rw [applyDecision_continue E config env decision p hd]
    exact hv

/-- A promotion that goes through makes a retired challenger champion again. -/
theorem applyDecision_revives (E : Serving.Engine V) (config : CanaryConfig F)
    (env : ApplyEnv) (decision : CanaryDecision F) (p : Platform F)
    (h : ¬NoRevival E p (.apply config env decision)) :
    p.models.roster config.challengerVersion = some .retired ∧
      (applyDecision E config env decision p).1.models.roster config.challengerVersion =
        some .champion := by
  simp only [NoRevival, not_forall, not_not] at h
  obtain ⟨hd, hc, ha, hv⟩ := h
  refine ⟨hv, ?_⟩
  rw [applyDecision_promote E config env decision p hd]
  dsimp only
  rw [if_pos ⟨hc,ha⟩, promoteRoles_roster, Roster.promote_champion]
  exact ⟨rfl,by rw [hv]; simp⟩

/-- Once retired, a version is never champion or challenger again. -/
def RetirementTerminal (E : Serving.Engine V) (p : Platform F) (es : List (RegistryEvent F)) :
    Prop :=
  ∀ pre mid post, es = pre ++ mid ++ post → ∀ v,
    (run (registryStep E) p pre).models.roster v = some .retired →
      (run (registryStep E) p (pre ++ mid)).models.roster v ≠ some .champion ∧
      (run (registryStep E) p (pre ++ mid)).models.roster v ≠ some .challenger

/-- Retirement is terminal in exactly the runs whose promotions meet no retired challenger.
The registration script cannot break it. -/
theorem retirementTerminal_iff (E : Serving.Engine V) (p : Platform F)
    (es : List (RegistryEvent F)) :
    RetirementTerminal E p es ↔ Throughout (registryStep E) (NoRevival E) p es := by
  refine ⟨?_,?_⟩
  · intro h
    rw [throughout_iff_split]
    intro pre e post he
    by_contra hno
    cases e with
    | register env => exact hno trivial
    | apply config env decision =>
      have revived := applyDecision_revives E config env decision _ hno
      have next := h pre [.apply config env decision] post (by rw [he]; simp)
        config.challengerVersion revived.1
      rw [run_concat] at next
      exact next.1 revived.2
  · intro h pre mid post he v hv
    have kept : (run (registryStep E) p (pre ++ mid)).models.roster v = some .retired := by
      refine persists_of_throughout (registryStep E)
        (Q := fun q => q.models.roster v = some .retired) (fun q e hok hq => ?_) h he hv
      cases e with
      | register env => exact registerMain_keeps_retired env q.models v hq
      | apply config env decision =>
        exact applyDecision_keeps_retired E config env decision q hok v hq
    rw [kept]
    simp

def emptyPlatform : Platform Unit := { smallPlatform with models := Table.empty }

/-- The challenger is rolled back while the router cannot be reached, so the canary stays on
and a later window promotes it. -/
def rollbackThenPromote : List (RegistryEvent Unit) :=
  [.register ⟨"","",some "c1",some "k1",.ok (),.delivered,.ok (),0⟩,
    .apply smallConfig { allDelivered with post := .lost } (smallDecision .rollback),
    .apply smallConfig allDelivered (smallDecision .promote)]

theorem rollbackThenPromote_revives :
    ¬RetirementTerminal smallEngine emptyPlatform rollbackThenPromote := by
  intro h
  have last := h (rollbackThenPromote.take 2) (rollbackThenPromote.drop 2) [] (by simp) "k1"
    (by decide)
  exact last.1 (by decide)

end FraudPlatform.Canary
