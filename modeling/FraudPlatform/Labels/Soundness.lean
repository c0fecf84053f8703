import FraudPlatform.Framework.Run
import FraudPlatform.Labels.Simulator

namespace FraudPlatform.Labels

open Framework

variable {F : Type}

/-- A run between its query and its transaction. -/
structure Batch where
  now : Int
  toInsert : List Label

/-- The two tables and the simulator at work on them; `written` is a note of each label it wrote,
with the time of its run. -/
structure Joiner (F : Type) where
  predictions : Predictions F
  labels : LabelTable
  running : Option Batch
  written : List (Label × Int)

inductive Event (F : Type)
  /-- The log of the serving process inserts a row, at any time. -/
  | predict (p : Prediction F)
  /-- A run reads the clock and queries. -/
  | select (now : Int) (rows : List Candidate)
  | commit
  /-- The transaction rolls back, or the process dies before it. -/
  | fail

def Joiner.step (S : Simulator) (s : Joiner F) : Event F → Joiner F
  | .predict p => { s with predictions := (s.predictions.insert p).getD s.predictions }
  | .select now rows =>
    if s.running.isNone ∧ S.Selected s.predictions s.labels rows then
      { s with running := some ⟨now,S.collect now [] rows⟩ }
    else s
  | .commit =>
    match s.running with
    | some b =>
      { s with
        labels := s.labels.insertAll b.toInsert
        running := none
        written := s.written ++ (s.labels.inserted b.toInsert).map (·,b.now) }
    | none => s
  | .fail => { s with running := none }

/-- What a label says of its transaction, at the time `now`. -/
structure Simulator.Grounded (S : Simulator) (predictions : Predictions F) (now : Int)
    (l : Label) : Prop where
  isFraud : S.groundTruth l.transactionId = some l.isFraud
  availableAt : ∃ p ∈ predictions.rows, p.transactionId = l.transactionId ∧
    l.availableAt = p.createdAt + S.delayDistribution l.transactionId
  arrived : l.availableAt ≤ now

/-- Every row of `labels` was there at the start, or is grounded at the time of its run. -/
structure Joiner.Sound (S : Simulator) (initial : LabelTable) (s : Joiner F) : Prop where
  rows : s.labels.rows = initial.rows ++ s.written.map Prod.fst
  grounded : ∀ w ∈ s.written, S.Grounded s.predictions w.2 w.1
  unique : (s.labels.rows.map Label.transactionId).Nodup
  attempts : ∀ b ∈ s.running, b.toInsert.length ≤ S.maxInsertsPerRun

structure Joiner.Inv (S : Simulator) (initial : LabelTable) (s : Joiner F) : Prop where
  sound : s.Sound S initial
  running : ∀ b ∈ s.running, ∀ l ∈ b.toInsert, S.Grounded s.predictions b.now l

variable {S : Simulator} {initial : LabelTable} {s : Joiner F} {now : Int} {l : Label}
  {predictions : Predictions F} {labels : LabelTable} {rows : List Candidate}

/-- No answer has rows where nothing may be inserted. -/
theorem rows_eq_nil (selected : S.Selected predictions labels rows) (none : S.maxInsertsPerRun = 0) :
    rows = [] := by
  apply List.eq_nil_of_length_eq_zero
  rw [selected.length, none, Nat.zero_mul, Nat.zero_min]

theorem collect_length (now : Int) (selected : S.Selected predictions labels rows) :
    (S.collect now [] rows).length ≤ S.maxInsertsPerRun := by
  obtain none | positive := Nat.eq_zero_or_pos S.maxInsertsPerRun
  · rw [rows_eq_nil selected none]
    exact Nat.zero_le _
  · have room : ([] : List Label).length < S.maxInsertsPerRun := positive
    obtain ⟨added, eq, bound, _⟩ := collect_spec now rows room
    rw [eq]
    exact bound

theorem collect_grounded (selected : S.Selected predictions labels rows)
    (hl : l ∈ S.collect now [] rows) : S.Grounded predictions now l := by
  obtain none | positive := Nat.eq_zero_or_pos S.maxInsertsPerRun
  · have bound := collect_length now selected
    rw [none, Nat.le_zero, List.length_eq_zero_iff] at bound
    rw [bound] at hl
    cases hl
  · have room : ([] : List Label).length < S.maxInsertsPerRun := positive
    obtain ⟨added, eq, _, all⟩ := collect_spec now rows room
    rw [eq] at hl
    obtain ⟨c, hc, of⟩ := all l hl
    obtain ⟨_, p, hp, ht, hca⟩ := mem_unlabelled.mp (selected.mem hc)
    refine ⟨of.transactionId ▸ of.isFraud,⟨p,hp,ht.trans of.transactionId.symm,?_⟩,of.arrived⟩
    rw [of.availableAt, Simulator.availableAt, hca, of.transactionId]

/-- More predictions leave a label as grounded as it was. -/
theorem grounded_insert (h : S.Grounded predictions now l) (p : Prediction F) :
    S.Grounded ((predictions.insert p).getD predictions) now l := by
  refine ⟨h.isFraud,?_,h.arrived⟩
  obtain ⟨q, hq, ht, ha⟩ := h.availableAt
  refine ⟨q,?_,ht,ha⟩
  cases hi : predictions.insert p with
  | none => exact hq
  | some t =>
    rw [Option.getD_some, Table.insert_rows hi]
    exact List.mem_append_left _ hq

theorem inv_of_idle (idle : s.running = none)
    (rows : s.labels.rows = initial.rows ++ s.written.map Prod.fst)
    (grounded : ∀ w ∈ s.written, S.Grounded s.predictions w.2 w.1) : s.Inv S initial := by
  refine ⟨⟨rows,grounded,s.labels.nodup,fun b hb => ?_⟩,fun b hb => ?_⟩
  · rw [idle] at hb
    cases hb
  · rw [idle] at hb
    cases hb

theorem step_inv (h : s.Inv S initial) (e : Event F) : (s.step S e).Inv S initial := by
  cases e with
  | predict p =>
    exact ⟨⟨h.sound.rows,fun w hw => grounded_insert (h.sound.grounded w hw) p,h.sound.unique,
      h.sound.attempts⟩,fun b hb l hl => grounded_insert (h.running b hb l hl) p⟩
  | select now rows =>
    simp only [Joiner.step]
    split_ifs with hs
    · refine ⟨⟨h.sound.rows,h.sound.grounded,h.sound.unique,?_⟩,?_⟩
      · intro b hb
        obtain rfl := Option.some.inj hb
        exact collect_length now hs.2
      · intro b hb l hl
        obtain rfl := Option.some.inj hb
        exact collect_grounded hs.2 hl
    · exact h
  | commit =>
    simp only [Joiner.step]
    split
    · next b hb =>
      refine inv_of_idle rfl ?_ ?_
      · have same : Prod.fst ∘ (fun l : Label => (l,b.now)) = id := rfl
        rw [Table.insertAll_rows, h.sound.rows, List.map_append, List.append_assoc, List.map_map,
          same, List.map_id]
      · intro w hw
        obtain old | new := List.mem_append.mp hw
        · exact h.sound.grounded w old
        · obtain ⟨l, hl, rfl⟩ := List.mem_map.mp new
          exact h.running b hb l (Table.inserted_sublist.mem hl)
    · exact h
  | fail => exact inv_of_idle rfl h.sound.rows h.sound.grounded

/-- A label stays as it is. -/
theorem step_keeps (S : Simulator) (e : Event F)
    (h : s.labels.find? l.transactionId = some l) :
    (s.step S e).labels.find? l.transactionId = some l := by
  cases e with
  | predict p => exact h
  | select now rows =>
    simp only [Joiner.step]
    split_ifs <;> exact h
  | commit =>
    simp only [Joiner.step]
    split
    · rw [Table.find?_insertAll, h, Option.some_or]
    · exact h
  | fail => exact h

/-- Over whole runs, with predictions arriving at any moment: no label is written that is not
grounded, and none changes. -/
theorem labels_sound (S : Simulator) (predictions : Predictions F) (labels : LabelTable)
    (es : List (Event F)) :
    Always (Joiner.step S) (Joiner.Sound S labels) ⟨predictions,labels,none,[]⟩ es ∧
    ∀ pre mid post, es = pre ++ mid ++ post →
      ∀ l ∈ (run (Joiner.step S) ⟨predictions,labels,none,[]⟩ pre).labels.rows,
        (run (Joiner.step S) ⟨predictions,labels,none,[]⟩ (pre ++ mid)).labels.find?
          l.transactionId = some l := by
  constructor
  · have start : Joiner.Inv S labels (⟨predictions,labels,none,[]⟩ : Joiner F) :=
      inv_of_idle rfl (List.append_nil _).symm nofun
    have always := always_of_step (Joiner.step S) (P := Joiner.Inv S labels)
      (fun s e h => step_inv h e) start es
    exact always_imp _ (fun s inv => inv.sound) always
  · intro pre mid post _ l hl
    rw [run_append]
    exact always_last _ (always_of_step (Joiner.step S)
      (P := fun s => s.labels.find? l.transactionId = some l) (fun s e => step_keeps S e)
      (Table.find?_eq_some.mpr ⟨hl,rfl⟩) mid)

/-- A run with the tables to itself is `simulate_label_arrivals`. -/
theorem select_commit (S : Simulator) (s : Joiner F) (now : Int) (idle : s.running = none)
    (selected : S.Selected s.predictions s.labels rows) :
    (run (Joiner.step S) s [.select now rows,.commit]).labels =
      (S.simulateLabelArrivals s.labels now rows).1 := by
  rw [run_cons, run_cons, run_nil]
  simp only [Joiner.step, idle, selected, Option.isNone_none, and_self, if_true]
  rfl

end FraudPlatform.Labels
