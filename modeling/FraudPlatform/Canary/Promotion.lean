import FraudPlatform.Canary.Apply
import FraudPlatform.Framework.Run

namespace FraudPlatform.Canary

open Framework Registry
open Serving (smallEngine smallLoad)

variable {F V : Type}

/-- The registry's champion is the version installed in the champion container. -/
def Agrees (p : Platform F) : Prop := p.models.versions .champion = [installed p]

theorem agrees_iff (p : Platform F) :
    Agrees p ↔ p.models.roster.Sole .champion (installed p) :=
  p.models.versions_eq_singleton .champion (installed p)

section Agreement

variable (E : Serving.Engine V) (config : CanaryConfig F) (env : ApplyEnv)
  (decision : CanaryDecision F) (p : Platform F)

/-- When the halves of a decision stay together: a container that swaps to another version
swaps to a registered challenger, its reply arrives and the roles commit; a rollback does
not reach the installed version. -/
def KeepsTogether : Prop :=
  match decision.decision with
  | .promote => ∀ v, swapTarget E config env p.container = some v →
      v = installed p ∨ (env.reload = .delivered ∧ v = config.challengerVersion ∧
        env.roles.acts = true ∧ p.models.roster v ≠ none)
  | .rollback => env.roles.acts = true → config.challengerVersion ≠ installed p
  | .continue => True

theorem promoteRoles_roster (now : Int) (c : String) (t : Models) :
    (promoteRoles now c t).1.roster = t.roster.promote c := t.roster_promote now c

theorem retireChallenger_roster (now : Int) (c : String) (t : Models) :
    (retireChallenger now c t).1.roster = t.roster.recast .retired c :=
  t.roster_retireVersion now c

private theorem promote_agrees_iff (h : Agrees p) (hd : decision.decision = .promote) :
    Agrees (applyDecision E config env decision p).1 ↔
      ∀ v, swapTarget E config env p.container = some v →
        v = installed p ∨ (env.reload = .delivered ∧ v = config.challengerVersion ∧
          env.roles.acts = true ∧ p.models.roster v ≠ none) := by
  have hs := (agrees_iff p).mp h
  have version := (reloadServing_spec E config env p.container).1
  rw [agrees_iff, applyDecision_promote E config env decision p hd]
  dsimp only [installed] at version ⊢
  rw [version]
  cases ht : swapTarget E config env p.container with
  | none =>
    have unconfirmed : ¬confirmed E config env p.container := fun hc => by
      rw [confirmed, ht] at hc
      cases hc.2
    have kept : ¬(confirmed E config env p.container ∧ env.roles.acts = true) :=
      fun hc => unconfirmed hc.1
    rw [if_neg kept]
    exact ⟨fun _ v hv => absurd hv (by simp),fun _ => hs⟩
  | some v =>
    simp only [Option.getD_some, Option.some.injEq, forall_eq']
    by_cases hc : confirmed E config env p.container ∧ env.roles.acts = true
    · have same : v = config.challengerVersion := by
        have hv := hc.1.2
        rw [ht] at hv
        exact Option.some.inj hv
      rw [if_pos hc, promoteRoles_roster, ← same, p.models.roster.promote_sole v v]
      refine ⟨fun hk => Or.inr ⟨hc.1.1,rfl,hc.2,hk.2⟩, fun hk => ⟨rfl,?_⟩⟩
      obtain hi | hk := hk
      · have champion := (hs v).mpr hi
        rw [champion]
        simp
      · exact hk.2.2.2
    · rw [if_neg hc]
      have other : ¬(env.reload = .delivered ∧ v = config.challengerVersion ∧
          env.roles.acts = true ∧ p.models.roster v ≠ none) := fun hk =>
        hc ⟨⟨hk.1,by rw [ht, hk.2.1]⟩,hk.2.2.1⟩
      refine ⟨fun hk => Or.inl ((hs v).mp ((hk v).mpr rfl)), fun hk => ?_⟩
      rw [hk.resolve_right other]
      exact hs

/-- Agreement survives a decision exactly when its halves stay together. -/
theorem applyDecision_agrees_iff (h : Agrees p) :
    Agrees (applyDecision E config env decision p).1 ↔ KeepsTogether E config env decision p := by
  have hs := (agrees_iff p).mp h
  unfold KeepsTogether
  cases hd : decision.decision with
  | promote => exact promote_agrees_iff E config env decision p h hd
  | rollback =>
    rw [applyDecision_rollback E config env decision p hd, agrees_iff]
    dsimp only [installed] at hs ⊢
    by_cases ha : env.roles.acts = true
    · rw [if_pos ha, retireChallenger_roster,
        p.models.roster.retire_sole config.challengerVersion _ hs]
      exact ⟨fun hv _ => Ne.symm hv,fun hv => Ne.symm (hv ha)⟩
    · rw [if_neg ha]
      exact ⟨fun _ hact => absurd hact ha,fun _ => hs⟩
  | «continue» =>
    rw [applyDecision_continue E config env decision p hd]
    exact ⟨fun _ => trivial,fun _ => h⟩

end Agreement

section Sample

/-- A challenger `k1` behind the champion `c1`. -/
def smallModels : Models :=
  ⟨[⟨"c1","final_model.onnx","c1",.champion,none,none,none⟩,
    ⟨"k1","lgbm_final_model.onnx","k1",.challenger,none,none,none⟩],by decide⟩

def smallConfig : CanaryConfig Unit :=
  ⟨"lgbm_final_model.onnx","lgbm_onnx_feature_order.json","token","c1","k1",24,500,(),(),(),3,()⟩

def smallPlatform : Platform Unit :=
  ⟨smallModels,⟨⟨⟨0,[],"c1"⟩,true⟩,"token"⟩,⟨⟨true,30,0⟩,30,"token"⟩,.empty⟩

def smallDecision : Decision → CanaryDecision Unit
  | .promote => ⟨.promote,.promoted,"",.object [],0,0,""⟩
  | .rollback => ⟨.rollback,.rollback,"",.object [],0,0,""⟩
  | .continue => ⟨.continue,.noSignal,"",.object [],0,0,""⟩

def allDelivered : ApplyEnv := ⟨.delivered,smallLoad,.delivered,.delivered,0⟩

end Sample

instance (p : Platform F) : Decidable (Agrees p) := inferInstanceAs (Decidable (_ = _))

/-- A promotion in which every call is answered. -/
theorem applyDecision_agrees_small :
    Agrees (applyDecision smallEngine smallConfig allDelivered (smallDecision .promote)
        smallPlatform).1 ↔
      KeepsTogether smallEngine smallConfig allDelivered (smallDecision .promote) smallPlatform :=
  applyDecision_agrees_iff smallEngine smallConfig allDelivered (smallDecision .promote)
    smallPlatform (by decide)

/-- The container swaps to the challenger and its reply is late: the promotion is given up
with the registry still naming the old champion. -/
theorem promote_unanswered_disagrees :
    Agrees smallPlatform ∧
    ¬Agrees (applyDecision smallEngine smallConfig { allDelivered with reload := .unanswered }
      (smallDecision .promote) smallPlatform).1 := by
  decide

/-- One application of a decision, with the fates of its calls. -/
structure Application (F : Type) where
  decision : CanaryDecision F
  env : ApplyEnv

def applied (E : Serving.Engine V) (config : CanaryConfig F) (p : Platform F)
    (a : Application F) : Platform F := (applyDecision E config a.env a.decision p).1

/-- The statements succeed, and a promotion's reload reports the challenger. -/
def Healthy (E : Serving.Engine V) (config : CanaryConfig F) (p : Platform F)
    (a : Application F) : Prop :=
  a.env.roles = .delivered ∧
    (a.decision.decision = .promote → confirmed E config a.env p.container)

instance (E : Serving.Engine V) (config : CanaryConfig F) (p : Platform F) (a : Application F) :
    Decidable (Healthy E config p a) := inferInstanceAs (Decidable (_ ∧ _))

def ExactlyOneChampion (t : Models) : Prop := (t.versions .champion).length = 1

instance (t : Models) : Decidable (ExactlyOneChampion t) := inferInstanceAs (Decidable (_ = _))

/-- A decision about challenger `c`, seen from the registry alone. -/
def rosterStep (c : String) (R : Roster String) : Decision → Roster String
  | .promote => R.promote c
  | .rollback => R.recast .retired c
  | .continue => R

theorem applied_roster (E : Serving.Engine V) (config : CanaryConfig F) (p : Platform F)
    (a : Application F) (h : Healthy E config p a) :
    (applied E config p a).models.roster =
      rosterStep config.challengerVersion p.models.roster a.decision.decision := by
  unfold applied
  cases hd : a.decision.decision with
  | promote =>
    rw [applyDecision_promote E config a.env a.decision p hd]
    dsimp only
    have sure : confirmed E config a.env p.container ∧ a.env.roles.acts = true :=
      ⟨h.2 hd,by rw [h.1]; rfl⟩
    rw [if_pos sure, promoteRoles_roster]
    rfl
  | rollback =>
    rw [applyDecision_rollback E config a.env a.decision p hd]
    dsimp only
    have acts : a.env.roles.acts = true := by rw [h.1]; rfl
    rw [if_pos acts, retireChallenger_roster]
    rfl
  | «continue» =>
    rw [applyDecision_continue E config a.env a.decision p hd]
    rfl

/-- The challenger is registered if it is ever promoted, is not the champion to begin with
if it is ever rolled back, and is not rolled back after a promotion. -/
def RollsBackNoChampion (R : Roster String) (c : String) (ds : List Decision) : Prop :=
  (.promote ∈ ds → R c ≠ none) ∧ (.rollback ∈ ds → R c ≠ some .champion) ∧
    ¬[Decision.promote,.rollback].Sublist ds

/-- A promotion leaves one champion exactly when it can find the challenger. -/
theorem promote_one_iff (R : Roster String) (c : String) :
    (∃ v, (R.promote c).Sole .champion v) ↔ R c ≠ none := by
  constructor
  · rintro ⟨v, hv⟩
    exact ((R.promote_sole c v).mp hv).2
  · intro hc
    exact ⟨c,(R.promote_sole c c).mpr ⟨rfl,hc⟩⟩

/-- A rollback leaves one champion exactly when it is not the champion that it retires. -/
theorem retire_one_iff {R : Roster String} (h : ∃ v, R.Sole .champion v) (c : String) :
    (∃ v, (R.recast .retired c).Sole .champion v) ↔ R c ≠ some .champion := by
  obtain ⟨v, hv⟩ := h
  rw [ne_eq, hv c]
  constructor
  · rintro ⟨u, hu⟩ rfl
    exact R.retire_none c hv u ((hu u).mpr rfl)
  · intro hcv
    exact ⟨v,(R.retire_sole c v hv).mpr (Ne.symm hcv)⟩

theorem promoteRollback_cons {d : Decision} (hd : d ≠ .promote) (ds : List Decision) :
    [Decision.promote,.rollback].Sublist (d :: ds) ↔ [Decision.promote,.rollback].Sublist ds := by
  rw [List.sublist_cons_iff]
  constructor
  · rintro (later | ⟨rest, eq, _⟩)
    · exact later
    · exact absurd (List.cons.inj eq).1.symm hd
  · exact Or.inl

/-- After a promotion there must be no rollback. -/
theorem rollsBackNoChampion_promote {R : Roster String} {c : String} {ds : List Decision} :
    RollsBackNoChampion R c (.promote :: ds) ↔
      R c ≠ none ∧ RollsBackNoChampion (R.promote c) c ds := by
  have sub : [Decision.promote,.rollback].Sublist (.promote :: ds) ↔ .rollback ∈ ds := by
    rw [List.cons_sublist_cons, List.singleton_sublist]
  have champion (hc : R c ≠ none) : R.promote c c = some .champion :=
    (R.promote_champion c c).mpr ⟨rfl,hc⟩
  constructor
  · rintro ⟨known, -, never⟩
    have hc := known (List.mem_cons_self)
    rw [sub] at never
    refine ⟨hc,fun _ => ?_,fun hm => absurd hm never,fun hsub => ?_⟩
    · rw [champion hc]
      exact Option.some_ne_none _
    · exact never (hsub.subset (by simp))
  · rintro ⟨hc, -, notChampion, -⟩
    have never : Decision.rollback ∉ ds := fun hm => notChampion hm (champion hc)
    refine ⟨fun _ => hc,fun hm => ?_,fun hsub => never (sub.mp hsub)⟩
    obtain eq | later := List.mem_cons.mp hm
    · cases eq
    · exact absurd later never

/-- After a rollback the challenger is retired, if it is registered at all. -/
theorem rollsBackNoChampion_rollback {R : Roster String} {c : String} {ds : List Decision} :
    RollsBackNoChampion R c (.rollback :: ds) ↔
      R c ≠ some .champion ∧ RollsBackNoChampion (R.recast .retired c) c ds := by
  have known : R.recast .retired c c ≠ none ↔ R c ≠ none :=
    not_congr (R.recast_eq_none .retired c c)
  have lost : R.recast .retired c c ≠ some .champion := fun hm =>
    ((R.retire_champion c c).mp hm).2 rfl
  have skip := promoteRollback_cons (d := .rollback) (by decide) ds
  rw [RollsBackNoChampion, RollsBackNoChampion, known, skip]
  simp [lost, and_left_comm]

theorem rollsBackNoChampion_continue {R : Roster String} {c : String} {ds : List Decision} :
    RollsBackNoChampion R c (.continue :: ds) ↔ RollsBackNoChampion R c ds := by
  have skip := promoteRollback_cons (d := .continue) (by decide) ds
  rw [RollsBackNoChampion, RollsBackNoChampion, skip]
  simp

theorem roster_oneChampion_iff (c : String) (R : Roster String) (ds : List Decision)
    (h : ∃ v, R.Sole .champion v) :
    Always (rosterStep c) (fun R => ∃ v, R.Sole .champion v) R ds ↔
      RollsBackNoChampion R c ds := by
  induction ds generalizing R with
  | nil => simp [Always, RollsBackNoChampion, h]
  | cons d ds ih =>
    rw [Always, and_iff_right h, always_iff_and (rosterStep c) (ih (rosterStep c R d))]
    cases d with
    | promote => rw [rosterStep, promote_one_iff, rollsBackNoChampion_promote]
    | rollback => rw [rosterStep, retire_one_iff h, rollsBackNoChampion_rollback]
    | «continue» => rw [rosterStep, and_iff_right h, rollsBackNoChampion_continue]

/-- Over any sequence of decisions with healthy calls the table keeps exactly one champion
just as long as the registry part alone does. -/
theorem applied_oneChampion_iff (E : Serving.Engine V) (config : CanaryConfig F) (p : Platform F)
    (as : List (Application F)) (h : ExactlyOneChampion p.models)
    (healthy : Throughout (applied E config) (Healthy E config) p as) :
    Always (applied E config) (fun q => ExactlyOneChampion q.models) p as ↔
      RollsBackNoChampion p.models.roster config.challengerVersion
        (as.map (·.decision.decision)) := by
  have one : (fun q : Platform F => ExactlyOneChampion q.models) =
      fun q => ∃ v, q.models.roster.Sole .champion v := by
    funext q
    exact propext (q.models.versions_length_eq_one .champion)
  rw [one, always_refine (applied E config) (P := fun R => ∃ v, R.Sole .champion v)
    (fun q : Platform F => q.models.roster) (·.decision.decision)
    (applied_roster E config) healthy]
  exact roster_oneChampion_iff _ _ _ ((p.models.versions_length_eq_one .champion).mp h)

/-- A promotion whose router update failed, and the rollback of the next evaluation. -/
def promoteThenRollback : List (Application Unit) :=
  [⟨smallDecision .promote,{ allDelivered with post := .lost }⟩,
    ⟨smallDecision .rollback,allDelivered⟩]

theorem applied_oneChampion_small :
    Always (applied smallEngine smallConfig) (fun q => ExactlyOneChampion q.models) smallPlatform
        promoteThenRollback ↔
      RollsBackNoChampion smallPlatform.models.roster smallConfig.challengerVersion
        (promoteThenRollback.map (·.decision.decision)) :=
  applied_oneChampion_iff smallEngine smallConfig smallPlatform promoteThenRollback (by decide)
    ⟨by decide,by decide,trivial⟩

/-- The rollback retires the champion the promotion has just made. -/
theorem promoteThenRollback_no_champion :
    ExactlyOneChampion smallPlatform.models ∧
    Throughout (applied smallEngine smallConfig) (Healthy smallEngine smallConfig) smallPlatform
      promoteThenRollback ∧
    ¬Always (applied smallEngine smallConfig) (fun q => ExactlyOneChampion q.models) smallPlatform
      promoteThenRollback := by
  refine ⟨by decide, ⟨by decide,by decide,trivial⟩, fun h => ?_⟩
  have last := always_last _ h
  have none : (run (applied smallEngine smallConfig) smallPlatform
      promoteThenRollback).models.versions .champion = [] := by decide
  rw [ExactlyOneChampion, none] at last
  cases last

end FraudPlatform.Canary
