import FraudPlatform.Labels.Soundness
import FraudPlatform.Labels.Starvation

namespace FraudPlatform.Labels

open Framework

variable {F : Type}

/-- When a run happens, and what its query answers. -/
structure Scheduled where
  now : Int
  rows : List Candidate

def Simulator.follow (S : Simulator) (labels : LabelTable) (r : Scheduled) : LabelTable :=
  (S.simulateLabelArrivals labels r.now r.rows).1

def Simulator.Permitted (S : Simulator) (predictions : Predictions F) (labels : LabelTable)
    (r : Scheduled) : Prop :=
  S.Selected predictions labels r.rows

/-- Any two schedules that label the transaction give it the same time. -/
def Simulator.TimingAgrees (S : Simulator) (predictions : Predictions F) (labels : LabelTable)
    (transactionId : Int) : Prop :=
  ∀ rs₁ rs₂, Throughout S.follow (S.Permitted predictions) labels rs₁ →
    Throughout S.follow (S.Permitted predictions) labels rs₂ →
    ∀ l₁ ∈ (run S.follow labels rs₁).find? transactionId,
    ∀ l₂ ∈ (run S.follow labels rs₂).find? transactionId, l₁.availableAt = l₂.availableAt

instance (S : Simulator) (predictions : Predictions F) (labels : LabelTable) (r : Scheduled) :
    Decidable (S.Permitted predictions labels r) :=
  inferInstanceAs (Decidable (S.Selected _ _ _))

variable {S : Simulator} {predictions : Predictions F} {labels : LabelTable} {l : Label}
  {transactionId : Int} {rs : List Scheduled}

theorem follow_keeps (S : Simulator) (r : Scheduled) (h : labels.find? transactionId = some l) :
    (S.follow labels r).find? transactionId = some l := by
  rw [Simulator.follow, Simulator.simulateLabelArrivals, Table.find?_insertAll, h, Option.some_or]

theorem run_keeps (S : Simulator) (h : labels.find? transactionId = some l) (rs : List Scheduled) :
    (run S.follow labels rs).find? transactionId = some l :=
  always_last _ (always_of_step S.follow (P := fun t => t.find? transactionId = some l)
    (fun _ r ht => follow_keeps S r ht) h rs)

/-- The time of a label is that of some prediction of its transaction. -/
def Simulator.Timed (S : Simulator) (predictions : Predictions F) (l : Label) : Prop :=
  (S.groundTruth l.transactionId).isSome ∧ ∃ p ∈ predictions.rows,
    p.transactionId = l.transactionId ∧
      l.availableAt = p.createdAt + S.delayDistribution l.transactionId

theorem follow_timed (r : Scheduled) (h : ∀ l ∈ labels.find? transactionId, S.Timed predictions l)
    (permitted : S.Permitted predictions labels r) :
    ∀ l ∈ (S.follow labels r).find? transactionId, S.Timed predictions l := by
  intro l hl
  rw [Simulator.follow, Simulator.simulateLabelArrivals, Table.find?_insertAll] at hl
  obtain old | ⟨_, new⟩ := Option.or_eq_some_iff.mp hl
  · exact h l old
  · have grounded := collect_grounded permitted (List.mem_of_find?_eq_some new)
    exact ⟨Option.isSome_iff_exists.mpr ⟨_,grounded.isFraud⟩,grounded.availableAt⟩

theorem run_timed (free : labels.find? transactionId = none)
    (permitted : Throughout S.follow (S.Permitted predictions) labels rs) :
    ∀ l ∈ (run S.follow labels rs).find? transactionId, S.Timed predictions l := by
  refine always_last _ (always_of_throughout S.follow
    (P := fun t => ∀ l ∈ t.find? transactionId, S.Timed predictions l)
    (fun _ r h ok => follow_timed r h ok) ?_ permitted)
  rw [free]
  nofun

/-- Each prediction of a transaction without a label may be the one that times it. -/
theorem some_schedule (positive : 1 ≤ S.maxInsertsPerRun) {p : Prediction F}
    (hp : p ∈ predictions.rows) (free : labels.find? p.transactionId = none)
    (known : S.groundTruth p.transactionId ≠ none) :
    ∃ rs, Throughout S.follow (S.Permitted predictions) labels rs ∧
      ∃ l ∈ (run S.follow labels rs).find? p.transactionId,
        l.availableAt = p.createdAt + S.delayDistribution p.transactionId := by
  let c : Candidate := ⟨p.transactionId,p.createdAt⟩
  have hc : c ∈ unlabelled predictions labels := mem_unlabelled.mpr ⟨free,p,hp,rfl,rfl⟩
  have limit : 0 < S.maxInsertsPerRun * 5 := by omega
  obtain ⟨rest, selected⟩ := limited_first limit hc
  have due : S.due (S.availableAt c) c := by
    simpa [Simulator.due, Option.isSome_iff_ne_none] using known
  obtain ⟨l, added, of, eq⟩ := collect_first rest due
  refine ⟨[⟨S.availableAt c,c :: rest⟩],⟨selected,trivial⟩,l,?_,of.availableAt⟩
  rw [run_cons, run_nil, Simulator.follow, Simulator.simulateLabelArrivals,
    Table.find?_insertAll, free, Option.none_or, eq]
  exact List.find?_cons_of_pos (by simpa using of.transactionId)

/-- The schedule does not matter exactly when the transaction has its label, never gets one, or
was scored at one time only. -/
theorem timing_agrees_iff (S : Simulator) (predictions : Predictions F) (labels : LabelTable)
    (transactionId : Int) (positive : 1 ≤ S.maxInsertsPerRun) :
    S.TimingAgrees predictions labels transactionId ↔
      labels.find? transactionId ≠ none ∨ S.groundTruth transactionId = none ∨
      ∀ p ∈ predictions.rows, ∀ q ∈ predictions.rows, p.transactionId = transactionId →
        q.transactionId = transactionId → p.createdAt = q.createdAt := by
  constructor
  · intro agrees
    by_contra other
    simp only [not_or, not_forall, ne_eq, not_not] at other
    obtain ⟨free, known, p, hp, q, hq, rfl, same, differ⟩ := other
    obtain ⟨rs₁, ok₁, l₁, h₁, a₁⟩ := some_schedule positive hp free known
    obtain ⟨rs₂, ok₂, l₂, h₂, a₂⟩ :=
      some_schedule positive hq (same ▸ free) (same ▸ known)
    rw [same] at h₂ a₂
    have equal := agrees rs₁ rs₂ ok₁ ok₂ l₁ h₁ l₂ h₂
    rw [a₁, a₂] at equal
    exact differ (add_right_cancel equal)
  · intro condition rs₁ rs₂ ok₁ ok₂ l₁ h₁ l₂ h₂
    cases hf : labels.find? transactionId with
    | some l =>
      obtain rfl : l = l₁ := Option.some.inj ((run_keeps S hf rs₁).symm.trans h₁)
      obtain rfl : l = l₂ := Option.some.inj ((run_keeps S hf rs₂).symm.trans h₂)
      rfl
    | none =>
      have id₁ := (Table.find?_eq_some.mp h₁).2
      have id₂ := (Table.find?_eq_some.mp h₂).2
      obtain ⟨known, p, hp, tp, a₁⟩ := run_timed hf ok₁ l₁ h₁
      obtain ⟨_, q, hq, tq, a₂⟩ := run_timed hf ok₂ l₂ h₂
      rw [id₁] at known tp a₁
      rw [id₂] at tq a₂
      obtain labelled | unknown | once := condition
      · exact absurd hf labelled
      · rw [unknown] at known
        cases known
      · rw [a₁, a₂, once p hp q hq tp tq]

/-- A transaction that the champion and the challenger scored at different times. -/
def twicePredicted : Predictions Exact :=
  ⟨[smallPrediction "p1" 6 0,smallPrediction "p2" 6 1],by decide⟩

theorem timing_agrees_small :
    (sixDelays 1).TimingAgrees sixPredictions .empty 6 ↔
      (Table.empty : LabelTable).find? 6 ≠ none ∨ (sixDelays 1).groundTruth 6 = none ∨
      ∀ p ∈ sixPredictions.rows, ∀ q ∈ sixPredictions.rows, p.transactionId = 6 →
        q.transactionId = 6 → p.createdAt = q.createdAt :=
  timing_agrees_iff (sixDelays 1) sixPredictions .empty 6 (by decide)

theorem rowOrder_changes_timing : ¬(sixDelays 1).TimingAgrees twicePredicted .empty 6 := by
  intro agrees
  have equal := agrees [⟨5,[⟨6,0⟩,⟨6,1⟩]⟩] [⟨5,[⟨6,1⟩,⟨6,0⟩]⟩] ⟨by decide,trivial⟩
    ⟨by decide,trivial⟩ ⟨6,false,"simulator",0⟩ (by decide) ⟨6,false,"simulator",1⟩ (by decide)
  revert equal
  decide

end FraudPlatform.Labels
