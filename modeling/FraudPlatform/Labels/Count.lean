import FraudPlatform.Labels.Schedule

namespace FraudPlatform.Labels

open Framework

variable {F : Type} {S : Simulator} {now : Int} {toInsert : List Label} {rows : List Candidate}
  {predictions : Predictions F} {labels : LabelTable}

/-- The rows of the answer that the loop turns into inserts. -/
def Simulator.batch (S : Simulator) (now : Int) (rows : List Candidate) : List Candidate :=
  (rows.filter (S.due now)).take S.maxInsertsPerRun

/-- The integer the run returns is the growth of the table. -/
def Simulator.CountRight (S : Simulator) (labels : LabelTable) (now : Int)
    (rows : List Candidate) : Prop :=
  (S.simulateLabelArrivals labels now rows).1.rows.length =
    labels.rows.length + (S.simulateLabelArrivals labels now rows).2

/-- The loop appends the due rows in order until it is full. -/
theorem collect_transactions (now : Int) (rows : List Candidate)
    (room : toInsert.length < S.maxInsertsPerRun) :
    (S.collect now toInsert rows).map Label.transactionId =
      toInsert.map Label.transactionId ++
        ((rows.filter (S.due now)).take (S.maxInsertsPerRun - toInsert.length)).map
          Candidate.transactionId := by
  induction rows generalizing toInsert with
  | nil => simp [Simulator.collect]
  | cons c rows ih =>
    cases hd : S.due now c with
    | false =>
      rw [collect_skip hd room, ih room, List.filter_cons_of_neg (by simp [hd])]
    | true =>
      obtain ⟨l, of, eq⟩ := collect_take hd
      rw [eq, List.filter_cons_of_pos hd]
      split_ifs with full
      · have last : S.maxInsertsPerRun - toInsert.length = 1 := by omega
        rw [last, List.take_succ_cons, List.take_zero, List.map_append, List.map_singleton,
          List.map_singleton, of.transactionId]
      · have room' : (toInsert ++ [l]).length < S.maxInsertsPerRun := by
          rw [List.length_append, List.length_singleton]
          omega
        have more : S.maxInsertsPerRun - toInsert.length =
            S.maxInsertsPerRun - (toInsert ++ [l]).length + 1 := by
          rw [List.length_append, List.length_singleton] at room' ⊢
          omega
        rw [ih room', more, List.take_succ_cons, List.map_append, List.map_singleton,
          List.append_assoc, List.singleton_append, List.map_cons, of.transactionId]

theorem collect_batch (now : Int) (selected : S.Selected predictions labels rows) :
    (S.collect now [] rows).map Label.transactionId =
      (S.batch now rows).map Candidate.transactionId := by
  obtain none | positive := Nat.eq_zero_or_pos S.maxInsertsPerRun
  · rw [rows_eq_nil selected none]
    simp [Simulator.collect, Simulator.batch]
  · have room : ([] : List Label).length < S.maxInsertsPerRun := positive
    rw [collect_transactions now rows room, List.map_nil, List.nil_append, List.length_nil,
      Nat.sub_zero, Simulator.batch]

theorem batch_unlabelled (selected : S.Selected predictions labels rows) {c : Candidate}
    (hc : c ∈ S.batch now rows) : labels.find? c.transactionId = none := by
  have answered := (List.mem_filter.mp (List.mem_of_mem_take hc)).1
  exact (mem_unlabelled.mp (selected.mem answered)).1

/-- `ON CONFLICT DO NOTHING` drops exactly the repetitions within the batch. -/
theorem countRight_iff (now : Int) (selected : S.Selected predictions labels rows) :
    S.CountRight labels now rows ↔
      ((S.batch now rows).map Candidate.transactionId).Nodup := by
  have fresh : ∀ l ∈ S.collect now [] rows, labels.find? l.transactionId = none := by
    intro l hl
    have inBatch := List.mem_map_of_mem (f := Label.transactionId) hl
    rw [collect_batch now selected] at inBatch
    obtain ⟨c, hc, same⟩ := List.mem_map.mp inBatch
    rw [← same]
    exact batch_unlabelled selected hc
  simp only [Simulator.CountRight, Simulator.simulateLabelArrivals, Table.insertAll_rows,
    List.length_append, Nat.add_left_cancel_iff]
  rw [Table.length_inserted_iff, collect_batch now selected]
  exact and_iff_left fresh

/-- Two due rows of one transaction can both be in an answer's batch. -/
theorem some_batch_repeats (many : 2 ≤ S.maxInsertsPerRun)
    (repeated : ¬(((unlabelled predictions labels).filter (S.due now)).map
      Candidate.transactionId).Nodup) :
    ∃ rows, S.Selected predictions labels rows ∧
      ¬((S.batch now rows).map Candidate.transactionId).Nodup := by
  rw [List.nodup_iff_pairwise_ne, List.pairwise_map, List.pairwise_iff_forall_sublist] at repeated
  push Not at repeated
  obtain ⟨a, b, both, same⟩ := repeated
  have due : ∀ c ∈ [a,b], S.due now c = true := fun c hc =>
    (List.mem_filter.mp (both.mem hc)).2
  have sub : [a,b].Subperm (unlabelled predictions labels) :=
    (both.trans List.filter_sublist).subperm
  have fits : [a,b].length ≤ S.maxInsertsPerRun * 5 := by
    rw [List.length_cons, List.length_singleton]
    omega
  obtain ⟨rest, selected⟩ := limited_front sub fits
  refine ⟨_,selected,?_⟩
  obtain ⟨k, hk⟩ := Nat.exists_eq_add_of_le' many
  have first : S.batch now ([a,b] ++ rest) = a :: b :: (rest.filter (S.due now)).take k := by
    rw [Simulator.batch, List.filter_append, List.filter_eq_self.mpr due, hk]
    rfl
  rw [first, List.map_cons, List.map_cons, same]
  simp

/-- The count of a run is right exactly when its batch names no transaction twice. Whatever
the query answers, this is so exactly when a run inserts at most one label or no two due
predictions share an unlabelled transaction. -/
theorem label_count_right_iff (S : Simulator) (predictions : Predictions F) (labels : LabelTable)
    (now : Int) :
    (∀ rows, S.Selected predictions labels rows →
      (S.CountRight labels now rows ↔
        ((S.batch now rows).map Candidate.transactionId).Nodup)) ∧
    ((∀ rows, S.Selected predictions labels rows → S.CountRight labels now rows) ↔
      S.maxInsertsPerRun ≤ 1 ∨
        (((unlabelled predictions labels).filter (S.due now)).map
          Candidate.transactionId).Nodup) := by
  refine ⟨fun rows selected => countRight_iff now selected,?_⟩
  constructor
  · intro right
    by_contra wrong
    rw [not_or, Nat.not_le] at wrong
    obtain ⟨rows, selected, repeats⟩ := some_batch_repeats wrong.1 wrong.2
    exact repeats ((countRight_iff now selected).mp (right rows selected))
  · rintro (one | distinct) rows selected
    · rw [countRight_iff now selected]
      have short : ((S.batch now rows).map Candidate.transactionId).length ≤ 1 := by
        rw [List.length_map, Simulator.batch, List.length_take]
        omega
      exact List.nodup_iff_count_le_one.mpr fun a => List.count_le_length.trans short
    · rw [countRight_iff now selected]
      obtain ⟨mid, same, sub⟩ := selected.subperm.filter (S.due now)
      have mid_nodup := distinct.sublist (sub.map Candidate.transactionId)
      have due_nodup := (same.map Candidate.transactionId).nodup_iff.mp mid_nodup
      exact due_nodup.sublist ((List.take_sublist _ _).map _)

/-- The run reports two labels and inserts one. -/
theorem duplicate_counted_twice :
    (sixDelays 100).Selected twicePredicted .empty [⟨6,0⟩,⟨6,1⟩] ∧
      ((sixDelays 100).simulateLabelArrivals .empty 5 [⟨6,0⟩,⟨6,1⟩]).2 = 2 ∧
      ((sixDelays 100).simulateLabelArrivals .empty 5 [⟨6,0⟩,⟨6,1⟩]).1.rows.length = 1 := by
  decide

end FraudPlatform.Labels
