import FraudPlatform.Framework.Limit
import FraudPlatform.Framework.Table
import FraudPlatform.Tables

namespace FraudPlatform.Labels

open Framework

variable {F : Type}

abbrev Predictions (F : Type) := Table (Prediction.predictionId (F := F))

abbrev LabelTable := Table Label.transactionId

/-- A row of the query: the transaction and when it was scored. -/
structure Candidate where
  transactionId : Int
  createdAt : Int
  deriving DecidableEq, Repr

/-- What the simulator is given: the labels of the transactions that have one, and their delays
in microseconds. -/
structure Simulator where
  groundTruth : Int → Option Bool
  delayDistribution : Int → Int
  maxInsertsPerRun : Nat

/-- The query without its LIMIT. -/
def unlabelled (predictions : Predictions F) (labels : LabelTable) : List Candidate :=
  (predictions.rows.filter fun p => labels.find? p.transactionId = none).map
    fun p => ⟨p.transactionId,p.createdAt⟩

/-- What the query may answer. -/
def Simulator.Selected (S : Simulator) (predictions : Predictions F) (labels : LabelTable)
    (rows : List Candidate) : Prop :=
  Limited (S.maxInsertsPerRun * 5) (unlabelled predictions labels) rows

instance (S : Simulator) (predictions : Predictions F) (labels : LabelTable)
    (rows : List Candidate) : Decidable (S.Selected predictions labels rows) :=
  inferInstanceAs (Decidable (Limited _ _ _))

def Simulator.availableAt (S : Simulator) (c : Candidate) : Int :=
  c.createdAt + S.delayDistribution c.transactionId

/-- The loop over the rows, with `to_insert` so far. -/
def Simulator.collect (S : Simulator) (now : Int) (toInsert : List Label) :
    List Candidate → List Label
  | [] => toInsert
  | c :: rows =>
    match S.groundTruth c.transactionId with
    | none => S.collect now toInsert rows
    | some isFraud =>
      let toInsert :=
        if S.availableAt c ≤ now then
          toInsert ++ [⟨c.transactionId,isFraud,"simulator",S.availableAt c⟩]
        else toInsert
      if S.maxInsertsPerRun ≤ toInsert.length then toInsert else S.collect now toInsert rows

/-- One run at the time `now`, over the rows the query answered: the table and the return value. -/
def Simulator.simulateLabelArrivals (S : Simulator) (labels : LabelTable) (now : Int)
    (rows : List Candidate) : LabelTable × Nat :=
  let toInsert := S.collect now [] rows
  (labels.insertAll toInsert,toInsert.length)

/-- Its transaction has a label, and that is due. -/
def Simulator.due (S : Simulator) (now : Int) (c : Candidate) : Bool :=
  (S.groundTruth c.transactionId).isSome && S.availableAt c ≤ now

/-- The label of a row that is due. -/
structure Simulator.LabelOf (S : Simulator) (now : Int) (c : Candidate) (l : Label) : Prop where
  transactionId : l.transactionId = c.transactionId
  isFraud : S.groundTruth c.transactionId = some l.isFraud
  labelSource : l.labelSource = "simulator"
  availableAt : l.availableAt = S.availableAt c
  arrived : l.availableAt ≤ now

variable {S : Simulator} {now : Int} {toInsert : List Label} {rows : List Candidate}
  {predictions : Predictions F} {labels : LabelTable}

theorem mem_unlabelled {c : Candidate} :
    c ∈ unlabelled predictions labels ↔ labels.find? c.transactionId = none ∧
      ∃ p ∈ predictions.rows, p.transactionId = c.transactionId ∧ p.createdAt = c.createdAt := by
  simp only [unlabelled, List.mem_map, List.mem_filter, decide_eq_true_eq]
  constructor
  · rintro ⟨p, ⟨hp, free⟩, rfl⟩
    exact ⟨free,p,hp,rfl,rfl⟩
  · rintro ⟨free, p, hp, ht, hc⟩
    refine ⟨p,⟨hp,?_⟩,?_⟩
    · rw [ht]
      exact free
    · rw [ht, hc]

/-- A step of the loop at a row that is not due. -/
theorem collect_skip {c : Candidate} (h : S.due now c = false)
    (room : toInsert.length < S.maxInsertsPerRun) :
    S.collect now toInsert (c :: rows) = S.collect now toInsert rows := by
  rw [Simulator.collect]
  cases hg : S.groundTruth c.transactionId with
  | none => rfl
  | some isFraud =>
    have late : ¬S.availableAt c ≤ now := by simpa [Simulator.due, hg] using h
    simp only [if_neg late, if_neg (Nat.not_le_of_gt room)]

/-- A step of the loop at a row that is due. -/
theorem collect_take {c : Candidate} (h : S.due now c = true) :
    ∃ l, S.LabelOf now c l ∧ S.collect now toInsert (c :: rows) =
      if S.maxInsertsPerRun ≤ toInsert.length + 1 then toInsert ++ [l]
      else S.collect now (toInsert ++ [l]) rows := by
  rw [Simulator.due, Bool.and_eq_true, decide_eq_true_eq] at h
  obtain ⟨isFraud, hg⟩ := Option.isSome_iff_exists.mp h.1
  refine ⟨⟨c.transactionId,isFraud,"simulator",S.availableAt c⟩,⟨rfl,hg,rfl,rfl,h.2⟩,?_⟩
  rw [Simulator.collect, hg]
  simp only [if_pos h.2, List.length_append, List.length_singleton]

/-- The loop adds labels of rows, at most as many as there is room for. -/
theorem collect_spec (now : Int) (rows : List Candidate)
    (room : toInsert.length < S.maxInsertsPerRun) :
    ∃ added, S.collect now toInsert rows = toInsert ++ added ∧
      (toInsert ++ added).length ≤ S.maxInsertsPerRun ∧
      ∀ l ∈ added, ∃ c ∈ rows, S.LabelOf now c l := by
  induction rows generalizing toInsert with
  | nil =>
    refine ⟨[],(List.append_nil toInsert).symm,?_,nofun⟩
    rw [List.append_nil]
    exact Nat.le_of_lt room
  | cons c rows ih =>
    cases hd : S.due now c with
    | false =>
      obtain ⟨added, eq, bound, all⟩ := ih room
      refine ⟨added,(collect_skip hd room).trans eq,bound,fun l hl => ?_⟩
      obtain ⟨d, hm, of⟩ := all l hl
      exact ⟨d,List.mem_cons_of_mem c hm,of⟩
    | true =>
      obtain ⟨l, of, eq⟩ := collect_take hd
      rw [eq]
      split_ifs with full
      · refine ⟨[l],rfl,?_,fun l' hl => ?_⟩
        · rw [List.length_append, List.length_singleton]
          exact room
        · rw [List.mem_singleton.mp hl]
          exact ⟨c,List.mem_cons_self,of⟩
      · have room' : (toInsert ++ [l]).length < S.maxInsertsPerRun := by
          rw [List.length_append, List.length_singleton]
          omega
        obtain ⟨added, eq', bound, all⟩ := ih room'
        refine ⟨l :: added,?_,?_,?_⟩
        · rw [eq', List.append_assoc, List.singleton_append]
        · rw [List.append_assoc, List.singleton_append] at bound
          exact bound
        · intro l' hl
          obtain rfl | hl := List.mem_cons.mp hl
          · exact ⟨c,List.mem_cons_self,of⟩
          · obtain ⟨d, hm, of'⟩ := all l' hl
            exact ⟨d,List.mem_cons_of_mem c hm,of'⟩

/-- Rows none of which is due leave `to_insert` as it is. -/
theorem collect_none (room : toInsert.length < S.maxInsertsPerRun)
    (none : ∀ c ∈ rows, S.due now c = false) : S.collect now toInsert rows = toInsert := by
  induction rows with
  | nil => rfl
  | cons c rows ih =>
    rw [collect_skip (none c List.mem_cons_self) room]
    exact ih fun d hd => none d (List.mem_cons_of_mem c hd)

/-- The first row that is due is the first to be inserted. -/
theorem collect_first {c : Candidate} (rows : List Candidate) (h : S.due now c = true) :
    ∃ l added, S.LabelOf now c l ∧ S.collect now [] (c :: rows) = l :: added := by
  obtain ⟨l, of, eq⟩ := collect_take h
  rw [eq]
  split_ifs with full
  · exact ⟨l,[],of,rfl⟩
  · have room : [l].length < S.maxInsertsPerRun := Nat.lt_of_not_le full
    obtain ⟨added, eq', _⟩ := collect_spec now rows room
    exact ⟨l,added,of,eq'⟩

theorem collect_ne_nil (positive : 0 < S.maxInsertsPerRun) (some : ∃ c ∈ rows, S.due now c) :
    S.collect now [] rows ≠ [] := by
  induction rows with
  | nil =>
    obtain ⟨c, hc, _⟩ := some
    cases hc
  | cons c rows ih =>
    cases hd : S.due now c with
    | false =>
      have room : ([] : List Label).length < S.maxInsertsPerRun := positive
      rw [collect_skip hd room]
      obtain ⟨d, hm, due⟩ := some
      obtain rfl | hm := List.mem_cons.mp hm
      · rw [hd] at due
        cases due
      · exact ih ⟨d,hm,due⟩
    | true =>
      obtain ⟨l, added, _, eq⟩ := collect_first rows hd
      rw [eq]
      exact List.cons_ne_nil l added

end FraudPlatform.Labels
