import FraudPlatform.Framework.DoubleRounding
import FraudPlatform.Labels.Count

namespace FraudPlatform.Labels

open Framework

variable {F : Type} {S : Simulator} {now horizon : Int} {rows : List Candidate}
  {predictions : Predictions F} {labels : LabelTable}

/-- The unlabelled rows that are not due at a time. -/
def Simulator.blocked (S : Simulator) (predictions : Predictions F) (labels : LabelTable)
    (now : Int) : Nat :=
  (unlabelled predictions labels).countP fun c => !S.due now c

/-- How many rows a run with so many blocked rows is sure to settle, as long as more are due. -/
def Simulator.pace (S : Simulator) (blocked : Nat) : Nat :=
  min S.maxInsertsPerRun (S.maxInsertsPerRun * 5 - blocked)

/-- The fewer rows are blocked, the faster. -/
theorem Simulator.pace_mono (S : Simulator) {b b' : Nat} (fewer : b ≤ b') :
    S.pace b' ≤ S.pace b := by
  unfold Simulator.pace
  omega

theorem due_later {c : Candidate} (h : S.due horizon c = true) (later : horizon ≤ now) :
    S.due now c = true := by
  rw [Simulator.due, Bool.and_eq_true, decide_eq_true_eq] at h ⊢
  exact ⟨h.1,h.2.trans later⟩

/-- A run takes the rows of the transactions it labels off the query. -/
theorem unlabelled_insertAll (ls : List Label) :
    unlabelled predictions (labels.insertAll ls) =
      (unlabelled predictions labels).filter
        fun c => c.transactionId ∉ ls.map Label.transactionId := by
  have free (p : Prediction F) : (labels.insertAll ls).find? p.transactionId = none ↔
      labels.find? p.transactionId = none ∧ p.transactionId ∉ ls.map Label.transactionId := by
    rw [Table.find?_insertAll, Option.or_eq_none_iff, List.find?_eq_none]
    simp only [decide_eq_true_eq, List.mem_map, not_exists, not_and]
  rw [unlabelled, unlabelled, List.filter_map, List.filter_filter]
  congr 1
  apply List.filter_congr
  intro p _
  simp only [free, Function.comp_apply, Bool.decide_and, Bool.and_comm]

/-- The rows of the batch leave the query. -/
theorem batch_leaves (selected : S.Selected predictions labels rows) :
    (unlabelled predictions (S.follow labels ⟨now,rows⟩)).length + (S.batch now rows).length ≤
      (unlabelled predictions labels).length := by
  have taken : (S.batch now rows).Subperm (unlabelled predictions labels) :=
    ((List.take_sublist _ _).trans List.filter_sublist).subperm.trans selected.subperm
  have all : (S.batch now rows).countP (fun c => c.transactionId ∈
      (S.collect now [] rows).map Label.transactionId) = (S.batch now rows).length := by
    rw [List.countP_eq_length, collect_batch now selected]
    intro c hc
    exact decide_eq_true (List.mem_map_of_mem hc)
  have counted := taken.countP_le fun c => decide (c.transactionId ∈
    (S.collect now [] rows).map Label.transactionId)
  have split := List.length_eq_countP_add_countP
    (fun c : Candidate => decide (c.transactionId ∈
      (S.collect now [] rows).map Label.transactionId)) (l := unlabelled predictions labels)
  rw [Simulator.follow, Simulator.simulateLabelArrivals, unlabelled_insertAll,
    ← List.countP_eq_length_filter]
  dsimp only
  rw [all] at counted
  simp only [Bool.not_eq_true, decide_eq_false_iff_not] at split
  omega

theorem blocked_follow (r : Scheduled) :
    S.blocked predictions (S.follow labels r) horizon ≤ S.blocked predictions labels horizon := by
  rw [Simulator.blocked, Simulator.follow, Simulator.simulateLabelArrivals, unlabelled_insertAll]
  exact List.filter_sublist.countP_le

theorem blocked_later (later : horizon ≤ now) :
    S.blocked predictions labels now ≤ S.blocked predictions labels horizon := by
  apply List.countP_mono_left
  intro c _ late
  rw [Bool.not_eq_true'] at late ⊢
  cases due : S.due horizon c with
  | false => rfl
  | true =>
    rw [due_later due later] at late
    cases late

/-- A run that settles fewer rows than its pace has seen every row and settled all that were
due. -/
theorem all_settled (selected : S.Selected predictions labels rows)
    (slow : (S.batch now rows).length < S.pace (S.blocked predictions labels now)) :
    ∀ c ∈ unlabelled predictions (S.follow labels ⟨now,rows⟩), S.due now c = false := by
  have bound : S.pace (S.blocked predictions labels now) ≤ S.maxInsertsPerRun := min_le_left _ _
  have room : S.pace (S.blocked predictions labels now) ≤
    S.maxInsertsPerRun * 5 - S.blocked predictions labels now := min_le_right _ _
  have short : (rows.filter (S.due now)).length < S.maxInsertsPerRun := by
    rw [Simulator.batch, List.length_take] at slow
    omega
  have whole : S.batch now rows = rows.filter (S.due now) := List.take_of_length_le short.le
  have late : rows.countP (fun c => !S.due now c) ≤ S.blocked predictions labels now :=
    selected.subperm.countP_le _
  have split := List.length_eq_countP_add_countP (S.due now) (l := rows)
  simp only [Bool.not_eq_true, Bool.decide_eq_false] at split
  rw [whole, ← List.countP_eq_length_filter] at slow
  have length := selected.length
  have all : (unlabelled predictions labels).length ≤ rows.length := by omega
  have same : rows.Perm (unlabelled predictions labels) :=
    selected.subperm.perm_of_length_le all
  intro c hc
  rw [Simulator.follow, Simulator.simulateLabelArrivals, unlabelled_insertAll] at hc
  obtain ⟨hm, notTaken⟩ := List.mem_filter.mp hc
  cases due : S.due now c with
  | false => rfl
  | true =>
    have inBatch : c ∈ S.batch now rows := by
      rw [whole]
      exact List.mem_filter.mpr ⟨same.mem_iff.mpr hm,due⟩
    have labelled := List.mem_map_of_mem (f := Candidate.transactionId) inBatch
    rw [← collect_batch now selected] at labelled
    exact absurd labelled (of_decide_eq_true notTaken)

/-- What a run without new predictions leaves: nothing that was due at the horizon, or fewer rows. -/
theorem follow_paces {r : Scheduled} (permitted : S.Permitted predictions labels r)
    (later : horizon ≤ r.now) :
    (∀ c ∈ unlabelled predictions (S.follow labels r), S.due horizon c = false) ∨
      (unlabelled predictions (S.follow labels r)).length +
        S.pace (S.blocked predictions labels horizon) ≤ (unlabelled predictions labels).length := by
  have slower : S.pace (S.blocked predictions labels horizon) ≤
      S.pace (S.blocked predictions labels r.now) := S.pace_mono (blocked_later later)
  by_cases slow : (S.batch r.now r.rows).length < S.pace (S.blocked predictions labels r.now)
  · left
    intro c hc
    have settled := all_settled permitted slow c hc
    cases due : S.due horizon c with
    | false => rfl
    | true =>
      rw [due_later due later] at settled
      cases settled
  · right
    have leaves : (unlabelled predictions (S.follow labels r)).length +
        (S.batch r.now r.rows).length ≤ (unlabelled predictions labels).length :=
      batch_leaves permitted
    omega

/-- The runs come after the horizon, and their queries answer as they may. -/
def Simulator.After (S : Simulator) (predictions : Predictions F) (horizon : Int)
    (labels : LabelTable) (r : Scheduled) : Prop :=
  S.Permitted predictions labels r ∧ horizon ≤ r.now

theorem due_settles {rs : List Scheduled} (none : ∀ c ∈ unlabelled predictions labels,
      S.due horizon c = false) : ∀ c ∈ unlabelled predictions (run S.follow labels rs),
        S.due horizon c = false := by
  refine always_last _ (always_of_step S.follow
    (P := fun t => ∀ c ∈ unlabelled predictions t, S.due horizon c = false) ?_ none rs)
  intro t r h c hc
  rw [Simulator.follow, Simulator.simulateLabelArrivals, unlabelled_insertAll] at hc
  exact h c (List.mem_filter.mp hc).1

theorem runs_pace {rs : List Scheduled}
    (after : Throughout S.follow (S.After predictions horizon) labels rs) :
    (∀ c ∈ unlabelled predictions (run S.follow labels rs), S.due horizon c = false) ∨
      (unlabelled predictions (run S.follow labels rs)).length +
        rs.length * S.pace (S.blocked predictions labels horizon) ≤
          (unlabelled predictions labels).length := by
  induction rs generalizing labels with
  | nil =>
    right
    simp
  | cons r rs ih =>
    obtain ⟨⟨permitted, later⟩, rest⟩ := after
    obtain settled | fewer := follow_paces permitted later
    · left
      rw [run_cons]
      exact due_settles settled
    · obtain settled | paced := ih rest
      · exact Or.inl settled
      · right
        have slower : S.pace (S.blocked predictions labels horizon) ≤
            S.pace (S.blocked predictions (S.follow labels r) horizon) :=
          S.pace_mono (blocked_follow r)
        have more := Nat.mul_le_mul_left rs.length slower
        rw [run_cons, List.length_cons, Nat.succ_mul]
        omega

theorem drained {rs : List Scheduled}
    (after : Throughout S.follow (S.After predictions horizon) labels rs)
    (enough : (unlabelled predictions labels).length ≤
      rs.length * S.pace (S.blocked predictions labels horizon))
    {p : Prediction F} (hp : p ∈ predictions.rows)
    (due : S.due horizon ⟨p.transactionId,p.createdAt⟩ = true) :
    ∃ l, (run S.follow labels rs).find? p.transactionId = some l := by
  apply Option.ne_none_iff_exists'.mp
  intro free
  have left : ⟨p.transactionId,p.createdAt⟩ ∈ unlabelled predictions (run S.follow labels rs) :=
    mem_unlabelled.mpr ⟨free,p,hp,rfl,rfl⟩
  obtain settled | paced := runs_pace after
  · rw [settled _ left] at due
    cases due
  · have some := List.length_pos_of_mem left
    omega

section DefaultDelays

open Ieee

/-- `timedelta(seconds=seconds)` in microseconds: the fraction of a second in a double first. -/
def timedelta (seconds : ℚ) : Int :=
  roundHalfEven (⌊seconds⌋ * 10 ^ 6 + binary64.round ((seconds - ⌊seconds⌋) * 10 ^ 6))

def maxSeconds (maxDays : Int) : Int := maxDays * 86400

/-- `sample` for a draw of the log-normal distribution; one beyond all doubles is `none`. -/
def sampleDelay (maxDays : Int) (draw : Option ℚ) : Int :=
  match draw with
  | some seconds => timedelta (min seconds (maxSeconds maxDays))
  | none => timedelta (maxSeconds maxDays)

/-- `default_delay_distribution`: the generator is seeded with the transaction, so the draw is
a function of it. `default_rng` refuses a negative one; for those nothing is said here. -/
def defaultDelayDistribution (maxDays : Int) (draw : Int → Option ℚ) (transactionId : Int) : Int :=
  sampleDelay maxDays (draw transactionId)

/-- A delay that is capped at whole seconds is not rounded past them. -/
theorem timedelta_le {seconds : ℚ} {n : Int} (h : seconds ≤ n) : timedelta seconds ≤ n * 10 ^ 6 := by
  have below := Int.floor_le seconds
  have above := Int.lt_floor_add_one seconds
  apply roundHalfEven_le
  rcases (Int.floor_le_iff.mpr (by linarith) : ⌊seconds⌋ ≤ n).lt_or_eq with less | whole
  · have fraction : binary64.round ((seconds - ⌊seconds⌋) * 10 ^ 6) ≤ (10 ^ 6 : Nat) := by
      apply Format.round_le_natCast (by decide) (by decide) (by decide)
      push_cast
      linarith
    have step : (⌊seconds⌋ : ℚ) + 1 ≤ n := by exact_mod_cast less
    push_cast at fraction ⊢
    linarith
  · have same : seconds = ⌊seconds⌋ := by
      rw [← whole] at h
      linarith
    have none : (seconds - ⌊seconds⌋) * 10 ^ 6 = ((0 : Nat) : ℚ) := by
      rw [← same]
      norm_num
    rw [none, Format.round_natCast (by decide) (by decide) (Nat.zero_le _), whole]
    push_cast
    linarith

theorem sampleDelay_le (maxDays : Int) (draw : Option ℚ) :
    sampleDelay maxDays draw ≤ maxSeconds maxDays * 10 ^ 6 := by
  cases draw with
  | none => exact timedelta_le le_rfl
  | some seconds => exact timedelta_le (min_le_right _ _)

def defaultSimulator (groundTruth : Int → Option Bool) (maxDays : Int) (draw : Int → Option ℚ)
    (maxInsertsPerRun : Nat) : Simulator :=
  ⟨groundTruth,defaultDelayDistribution maxDays draw,maxInsertsPerRun⟩

/-- With the default delays and labels for all transactions, every prediction that is older than
the longest delay has its label after as many runs as there are full batches. -/
theorem default_labels_drained (groundTruth : Int → Option Bool) (maxDays : Int)
    (draw : Int → Option ℚ) (maxInsertsPerRun : Nat) (predictions : Predictions F)
    (labels : LabelTable) (horizon : Int) (rs : List Scheduled)
    (known : ∀ p ∈ predictions.rows, (groundTruth p.transactionId).isSome)
    (old : ∀ p ∈ predictions.rows, p.createdAt + maxSeconds maxDays * 10 ^ 6 ≤ horizon)
    (after : Throughout (defaultSimulator groundTruth maxDays draw maxInsertsPerRun).follow
      ((defaultSimulator groundTruth maxDays draw maxInsertsPerRun).After predictions horizon)
      labels rs)
    (enough : (unlabelled predictions labels).length ≤ rs.length * maxInsertsPerRun) :
    ∀ p ∈ predictions.rows,
      ∃ l, (run (defaultSimulator groundTruth maxDays draw maxInsertsPerRun).follow labels
        rs).find? p.transactionId = some l := by
  have due : ∀ p ∈ predictions.rows,
      (defaultSimulator groundTruth maxDays draw maxInsertsPerRun).due horizon
        ⟨p.transactionId,p.createdAt⟩ = true := by
    intro p hp
    have delay := sampleDelay_le maxDays (draw p.transactionId)
    have time := old p hp
    rw [Simulator.due, Bool.and_eq_true, decide_eq_true_eq]
    refine ⟨known p hp,?_⟩
    change p.createdAt + sampleDelay maxDays (draw p.transactionId) ≤ horizon
    omega
  have none : (defaultSimulator groundTruth maxDays draw maxInsertsPerRun).blocked predictions
      labels horizon = 0 := by
    apply List.countP_eq_zero.mpr
    intro c hc
    obtain ⟨_, p, hp, ht, hca⟩ := mem_unlabelled.mp hc
    have same : c = ⟨p.transactionId,p.createdAt⟩ := by rw [ht, hca]
    rw [same, due p hp]
    exact Bool.false_ne_true
  have pace : (defaultSimulator groundTruth maxDays draw maxInsertsPerRun).pace 0 =
      maxInsertsPerRun := by
    change min maxInsertsPerRun (maxInsertsPerRun * 5 - 0) = maxInsertsPerRun
    omega
  intro p hp
  refine drained after ?_ hp (due p hp)
  rw [none, pace]
  exact enough

/-- A day after the six predictions, none of which is labelled yet. -/
def nextDay : Scheduled := ⟨86400000000,[⟨6,0⟩,⟨5,0⟩,⟨4,0⟩,⟨3,0⟩,⟨2,0⟩,⟨1,0⟩]⟩

theorem default_labels_drained_small : ∃ l,
    (run (defaultSimulator (fun _ => some true) 1 (fun _ => some (7 / 2)) 6).follow .empty
      [nextDay]).find? 6 = some l :=
  default_labels_drained (fun _ => some true) 1 (fun _ => some (7 / 2)) 6 sixPredictions .empty
    86400000000 [nextDay] (fun _ _ => rfl) (by decide) ⟨⟨by decide,by decide⟩,trivial⟩ (by decide)
    (smallPrediction "p6" 6 0) (List.mem_of_getElem? (i := 5) rfl)

end DefaultDelays

end FraudPlatform.Labels
