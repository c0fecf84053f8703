import FraudPlatform.Framework.Exact
import FraudPlatform.Labels.Simulator

namespace FraudPlatform.Labels

open Framework

variable {F : Type} {S : Simulator} {now : Int} {rows : List Candidate}
  {predictions : Predictions F} {labels : LabelTable}

/-- A run over rows of which one is due inserts a label. -/
theorem grows_of_due (positive : 0 < S.maxInsertsPerRun)
    (selected : S.Selected predictions labels rows) (some : ∃ c ∈ rows, S.due now c) :
    labels.rows.length < (S.simulateLabelArrivals labels now rows).1.rows.length := by
  have room : ([] : List Label).length < S.maxInsertsPerRun := positive
  obtain ⟨added, eq, _, all⟩ := collect_spec now rows room
  have fresh : labels.inserted (S.collect now [] rows) ≠ [] := by
    intro none
    obtain ⟨l, hl⟩ := List.exists_mem_of_ne_nil _ (collect_ne_nil positive some)
    apply Table.inserted_eq_nil.mp none l hl
    rw [eq] at hl
    obtain ⟨c, hc, of⟩ := all l hl
    rw [of.transactionId]
    exact (mem_unlabelled.mp (selected.mem hc)).1
  have grown := List.length_pos_iff.mpr fresh
  simp only [Simulator.simulateLabelArrivals, Table.insertAll_rows, List.length_append]
  omega

/-- A run over rows of which none is due inserts nothing. -/
theorem unchanged_of_none (positive : 0 < S.maxInsertsPerRun)
    (none : ∀ c ∈ rows, S.due now c = false) :
    S.simulateLabelArrivals labels now rows = (labels,0) := by
  have room : ([] : List Label).length < S.maxInsertsPerRun := positive
  rw [Simulator.simulateLabelArrivals, collect_none room none]
  rfl

/-- Some label is due: whatever the query answers, one is inserted, exactly when the rows that
are unknown or not yet due do not fill the answer. -/
theorem labels_flow_iff (S : Simulator) (predictions : Predictions F) (labels : LabelTable)
    (now : Int) (positive : 1 ≤ S.maxInsertsPerRun)
    (some : ∃ c ∈ unlabelled predictions labels, S.due now c) :
    (∀ rows, S.Selected predictions labels rows →
      labels.rows.length < (S.simulateLabelArrivals labels now rows).1.rows.length) ↔
    (unlabelled predictions labels).countP (fun c => !S.due now c) < S.maxInsertsPerRun * 5 := by
  constructor
  · intro flow
    by_contra many
    obtain ⟨rows, selected, none⟩ := limited_misses (Nat.le_of_not_lt many)
    have grown := flow rows selected
    rw [unchanged_of_none positive none] at grown
    exact Nat.lt_irrefl _ grown
  · intro few rows selected
    exact grows_of_due positive selected (selected.meets few some)

section Sample

def smallPrediction (predictionId : String) (transactionId createdAt : Int) : Prediction Exact :=
  ⟨predictionId,transactionId,"c1",some (1/2),true,"",some 1,some 1,some 2,createdAt⟩

/-- One prediction whose label is due at 5, after five whose labels are not. -/
def sixPredictions : Predictions Exact :=
  ⟨[smallPrediction "p1" 1 0,smallPrediction "p2" 2 0,smallPrediction "p3" 3 0,
    smallPrediction "p4" 4 0,smallPrediction "p5" 5 0,smallPrediction "p6" 6 0],by decide⟩

def sixDelays (maxInsertsPerRun : Nat) : Simulator :=
  ⟨fun _ => some false,fun transactionId => if transactionId = 6 then 0 else 10,maxInsertsPerRun⟩

end Sample

theorem labels_flow_small :
    (∀ rows, (sixDelays 2).Selected sixPredictions .empty rows →
      (Table.empty : LabelTable).rows.length <
        ((sixDelays 2).simulateLabelArrivals .empty 5 rows).1.rows.length) ↔
    (unlabelled sixPredictions .empty).countP (fun c => !(sixDelays 2).due 5 c) < 10 :=
  labels_flow_iff (sixDelays 2) sixPredictions .empty 5 (by decide) ⟨⟨6,0⟩,by decide,by decide⟩

/-- The five rows that are not due fill the answer. -/
theorem dueLabel_not_seen :
    (∃ c ∈ unlabelled sixPredictions .empty, (sixDelays 1).due 5 c) ∧
    ¬∀ rows, (sixDelays 1).Selected sixPredictions .empty rows →
      (Table.empty : LabelTable).rows.length <
        ((sixDelays 1).simulateLabelArrivals .empty 5 rows).1.rows.length := by
  refine ⟨⟨⟨6,0⟩,by decide,by decide⟩,fun flow => ?_⟩
  have grown := flow [⟨1,0⟩,⟨2,0⟩,⟨3,0⟩,⟨4,0⟩,⟨5,0⟩] (by decide)
  revert grown
  decide

end FraudPlatform.Labels
