import FraudPlatform.Canary.Loop
import FraudPlatform.Canary.Metrics
import FraudPlatform.Canary.Promotion

namespace FraudPlatform.Canary

open Framework
open Serving (smallEngine)

variable {F V : Type} [Binary64 F]

section Soundness

variable (S : Sklearn F) (E : Serving.Engine V) (config : CanaryConfig F)

/-- Started without rows of its pair, a run's history is what its passes stored: the newest
rows are those of the newest passes that left one. -/
theorem newest_of_records (p : Platform F) (es : List (Event config))
    (fresh : p.decisions.ofPair config.championVersion config.challengerVersion = [])
    (k : Nat) :
    (((records S E config p es).filter (·.stored.isSome)).reverse.take k).map (·.stored) =
      (((run (loopStep S E config) p es).decisions.newestFirst config.championVersion
        config.challengerVersion).take k).map some := by
  rw [DecisionLog.newestFirst_eq_reverse, run_ofPair, fresh, List.nil_append, List.map_take,
    List.map_reverse, map_filter_isSome, List.map_take, List.map_reverse]

/-- A promotion of the loop rests on `canary_required_consecutive_runs` passes that count:
the current one, and one behind each of the newest rows of the pair. -/
theorem promotion_sound (p : Platform F) (es : List (Event config)) (env : IterationEnv F)
    (fresh : p.decisions.ofPair config.championVersion config.challengerVersion = [])
    (runs : 1 ≤ config.canaryRequiredConsecutiveRuns)
    (promotes : (record S config (run (loopStep S E config) p es) env).Returned .promote) :
    (record S config (run (loopStep S E config) p es) env).counts S config = true ∧
    ∃ rs : List (IterationRecord F), rs.Sublist (records S E config p es).reverse ∧
      rs.map (·.stored) = (((run (loopStep S E config) p es).decisions.newestFirst
        config.championVersion config.challengerVersion).take
          (config.canaryRequiredConsecutiveRuns - 1).toNat).map some ∧
      (rs.length : Int) = config.canaryRequiredConsecutiveRuns - 1 ∧
      ∀ r ∈ rs, r.counts S config = true := by
  obtain ⟨d, hm, hd⟩ := (returned_iff S config env _ .promote).mp promotes
  obtain ⟨promoted, count⟩ := mainDecision_promote S config hm hd
  refine ⟨record_counts S config hm (Or.inr promoted),?_⟩
  let k := (config.canaryRequiredConsecutiveRuns - 1).toNat
  have enough : k ≤ countConsecutiveImprovements (run (loopStep S E config) p es).decisions
      config.championVersion config.challengerVersion none := by omega
  obtain ⟨long, improving⟩ := newest_improving_of_count enough
  let kept := (records S E config p es).filter (·.stored.isSome)
  have newest := newest_of_records S E config p es fresh k
  have length : kept.length = ((run (loopStep S E config) p es).decisions.ofPair
      config.championVersion config.challengerVersion).length := by
    have mapped := congrArg List.length (map_filter_isSome (·.stored) (records S E config p es))
    rw [List.length_map, List.length_map] at mapped
    rw [run_ofPair, fresh, List.nil_append]
    exact mapped
  refine ⟨kept.reverse.take k,?_,newest,?_,?_⟩
  · exact (List.take_sublist k kept.reverse).trans (List.filter_sublist.reverse)
  · rw [List.length_take, List.length_reverse, length, min_eq_left long]
    omega
  · intro r hr
    have inRecords : r ∈ records S E config p es := by
      have hk := List.mem_of_mem_take hr
      exact (List.mem_filter.mp (List.mem_reverse.mp hk)).1
    obtain ⟨row, hrow, hstored⟩ : ∃ row ∈ ((run (loopStep S E config) p es).decisions.newestFirst
        config.championVersion config.challengerVersion).take k, some row = r.stored := by
      have hmem := List.mem_map_of_mem (f := (·.stored)) hr
      rw [newest] at hmem
      exact List.mem_map.mp hmem
    obtain ⟨q, env', heq⟩ := mem_records S E config inRecords
    rw [heq, record_stored] at hstored
    rw [heq]
    exact record_counts_of_stored S config hstored.symm (improving row hrow)

end Soundness

section Sample

def exactConfig : CanaryConfig Exact :=
  ⟨"lgbm_final_model.onnx","lgbm_onnx_feature_order.json","token","c1","k1",24,2,some (1/64),
    some (1/64),some (1/64),3,some 2⟩

def exactPlatform : Platform Exact :=
  ⟨smallModels,⟨⟨⟨0,[],"c1"⟩,true⟩,"token"⟩,⟨⟨true,30,0⟩,30,"token"⟩,.empty⟩

/-- A fraud and a legitimate transaction, scored by one version. -/
def scoredPair (version : String) (fraud legitimate : ℚ) : List (Prediction Exact) :=
  [⟨"p1",1,version,some fraud,true,"",some 1,some 1,some 8,0⟩,
    ⟨"p2",2,version,some legitimate,true,"",some 1,some 1,some 8,0⟩]

def pairLabels : List Label := [⟨1,true,"chargeback",0⟩,⟨2,false,"chargeback",0⟩]

/-- A healthy pass on a window of the given predictions. -/
def exactPass (predictions : List (Prediction Exact)) : IterationEnv Exact :=
  ⟨.delivered,predictions,pairLabels,⟨0,"d",.ok (),.ok ()⟩,.delivered,0,allDelivered⟩

def betterPass : IterationEnv Exact :=
  exactPass (scoredPair "c1" (1/4) (3/4) ++ scoredPair "k1" (3/4) (1/4))

def worsePass : IterationEnv Exact :=
  exactPass (scoredPair "c1" (3/4) (1/4) ++ scoredPair "k1" (1/4) (3/4))

/-- The router cannot be reached. -/
def lostPost : ApplyEnv := { allDelivered with post := .lost }

end Sample

/-- The third improvement in a row. -/
theorem promotion_sound_small :
    (record exactSklearn exactConfig (run (loopStep exactSklearn smallEngine exactConfig)
      exactPlatform [.pass betterPass,.pass betterPass]) betterPass).counts exactSklearn
        exactConfig = true ∧
    ∃ rs : List (IterationRecord Exact),
      rs.Sublist (records exactSklearn smallEngine exactConfig exactPlatform
        [.pass betterPass,.pass betterPass]).reverse ∧
      rs.map (·.stored) = (((run (loopStep exactSklearn smallEngine exactConfig) exactPlatform
        [.pass betterPass,.pass betterPass]).decisions.newestFirst "c1" "k1").take 2).map some ∧
      (rs.length : Int) = 2 ∧ ∀ r ∈ rs, r.counts exactSklearn exactConfig = true :=
  promotion_sound exactSklearn smallEngine exactConfig exactPlatform
    [.pass betterPass,.pass betterPass] betterPass rfl (by decide) (by decide +kernel)

section Streaks

variable (S : Sklearn F) (E : Serving.Engine V) (config : CanaryConfig F)

/-- After a pass that rolled back, a pass promotes only once
`canary_required_consecutive_runs` passes have counted. -/
def StreakRestarts (rs : List (IterationRecord F)) : Prop :=
  ∀ pre r₁ mid r₂ post, rs = pre ++ r₁ :: (mid ++ r₂ :: post) →
    r₁.Returned .rollback → r₂.Returned .promote →
    config.canaryRequiredConsecutiveRuns ≤ ((mid ++ [r₂]).countP (·.counts S config) : Nat)

/-- A pass that trips a guardrail leaves its row: the statement commits, and the metrics
are JSON. -/
def RollbackStored (p : Platform F) : Event config → Prop
  | .pass env => (record S config p env).trips S config = true →
      env.evaluate.windowQuery = .ok () → env.insert.acts = true ∧
        finiteMetrics S (record S config p env).champRows
          (record S config p env).challRows = true
  | _ => True

instance (p : Platform F) : (e : Event config) → Decidable (RollbackStored S config p e)
  | .pass _ => inferInstanceAs (Decidable (_ → _ → _ ∧ _))
  | .otherPair _ _ _ => inferInstanceAs (Decidable True)
  | .admin _ _ => inferInstanceAs (Decidable True)

theorem storedRow_rollback {env : IterationEnv F} {p : Platform F}
    (h : RollbackStored S config p (.pass env))
    (hr : (record S config p env).Returned .rollback) :
    ∃ row, storedRow S config env p = some row ∧ isImproving row.outcome = false := by
  have tripped := (returned_rollback_iff S config env p).mp hr
  obtain ⟨acts, finite⟩ := h tripped.1 tripped.2
  obtain ⟨d, hm, hd⟩ := (returned_iff S config env p .rollback).mp hr
  have json := mainDecision_finite S config hm (by simp [hd])
  refine ⟨_,by rw [storedRow, hm]; exact if_pos ⟨acts,json.trans finite⟩,?_⟩
  change decide (d.outcome.text = "improving") = false
  rw [decide_eq_false_iff_not, Outcome.text_eq_improving]
  intro ho
  have other := mainDecision_outcome S config hm
  rw [ho, hd] at other
  cases other

/-- The rows of passes hold no more improvements than the passes that counted. -/
theorem stored_improving_le (rs : List (IterationRecord F))
    (h : ∀ r ∈ rs, ∃ q env, r = record S config q env) :
    (rs.filterMap (·.stored)).countP (fun row => isImproving row.outcome) ≤
      rs.countP (·.counts S config) := by
  induction rs with
  | nil => simp
  | cons r rs ih =>
    have tail := ih fun r' hr' => h r' (List.mem_cons_of_mem r hr')
    obtain ⟨q, env, rfl⟩ := h r List.mem_cons_self
    rw [List.countP_cons]
    cases hs : storedRow S config env q with
    | none =>
      rw [List.filterMap_cons, record_stored, hs]
      exact tail.trans (Nat.le_add_right _ _)
    | some row =>
      rw [List.filterMap_cons, record_stored, hs, List.countP_cons]
      by_cases hi : isImproving row.outcome = true
      · have counts := record_counts_of_stored S config hs (by simpa [isImproving] using hi)
        rw [if_pos hi, if_pos counts]
        omega
      · rw [if_neg hi]
        omega

/-- Where every tripped guardrail leaves its row, it breaks the streak. -/
theorem rollback_breaks_streak (p : Platform F) (es : List (Event config))
    (stored : Throughout (loopStep S E config) (RollbackStored S config) p es) :
    StreakRestarts S config (records S E config p es) := by
  intro pre r₁ mid r₂ post hsplit rolledBack promoted
  obtain ⟨es₁, env₁, rest, hes, _, rfl, later⟩ := records_split S E config hsplit
  obtain ⟨es₂, env₂, es₃, _, between, rfl, _⟩ := records_split S E config later
  have permitted : RollbackStored S config (run (loopStep S E config) p es₁) (.pass env₁) :=
    (throughout_iff_split _).mp stored es₁ _ rest hes
  obtain ⟨row, hrow, notImproving⟩ := storedRow_rollback S config permitted rolledBack
  let s₁ := run (loopStep S E config) p es₁
  let s₃ := run (loopStep S E config) (iteration S E config env₁ s₁) es₂
  have history : (s₃.decisions.ofPair config.championVersion config.challengerVersion).reverse =
      (mid.filterMap (·.stored)).reverse ++ row ::
        (s₁.decisions.ofPair config.championVersion config.challengerVersion).reverse := by
    have added := run_ofPair S E config (iteration S E config env₁ s₁) es₂
    rw [between, iteration_ofPair, hrow] at added
    rw [added]
    simp
  obtain ⟨d, hm, hd⟩ := (returned_iff S config env₂ _ .promote).mp promoted
  obtain ⟨outcome, count⟩ := mainDecision_promote S config hm hd
  have current := record_counts S config hm (Or.inr outcome)
  -- The rollback's row ends the scan, so only rows of `mid` are counted.
  have scanned : (config.canaryRequiredConsecutiveRuns - 1 : Int) ≤ streak
      (fun row : DecisionRow F => isImproving row.outcome) (mid.filterMap (·.stored)).reverse := by
    rw [countConsecutiveImprovements_none, history,
      streak_append_cons (fun row : DecisionRow F => isImproving row.outcome) _ _ _ notImproving]
      at count
    omega
  have bounded := streak_le_countP (fun row : DecisionRow F => isImproving row.outcome)
    (mid.filterMap (·.stored)).reverse
  rw [List.countP_reverse] at bounded
  have counted := stored_improving_le S config mid fun r hr =>
    mem_records S E config (between ▸ hr)
  rw [List.countP_append, List.countP_singleton, if_pos current]
  omega

end Streaks

/-- An improvement, a rollback that leaves the canary on, and three improvements. -/
theorem rollback_breaks_streak_small :
    StreakRestarts exactSklearn exactConfig (records exactSklearn smallEngine exactConfig
      exactPlatform [.pass betterPass,.pass { worsePass with apply := lostPost },.pass betterPass,
        .pass betterPass,.pass betterPass]) :=
  rollback_breaks_streak exactSklearn smallEngine exactConfig exactPlatform _
    ⟨by decide +kernel,by decide +kernel,by decide +kernel,by decide +kernel,by decide +kernel,
      trivial⟩

/-- Two improvements, a rollback whose row is lost, and an improvement that is promoted. -/
theorem lostRollback_keeps_streak :
    ¬StreakRestarts exactSklearn exactConfig (records exactSklearn smallEngine exactConfig
      exactPlatform [.pass betterPass,.pass betterPass,.pass { worsePass with insert := .lost },
        .pass betterPass]) := by
  intro h
  let lost : IterationEnv Exact := { worsePass with insert := .lost }
  let s₁ := iteration exactSklearn smallEngine exactConfig betterPass exactPlatform
  let s₂ := iteration exactSklearn smallEngine exactConfig betterPass s₁
  let s₃ := iteration exactSklearn smallEngine exactConfig lost s₂
  have counted := h [record exactSklearn exactConfig exactPlatform betterPass,
    record exactSklearn exactConfig s₁ betterPass] (record exactSklearn exactConfig s₂ lost) []
    (record exactSklearn exactConfig s₃ betterPass) []
    (by simp only [records_pass, records_nil]; rfl) (by decide +kernel) (by decide +kernel)
  revert counted
  decide +kernel

end FraudPlatform.Canary
