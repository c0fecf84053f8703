import FraudPlatform.Framework.Json
import FraudPlatform.Framework.Streak
import FraudPlatform.Tables

namespace FraudPlatform.Canary

open Framework

variable {F : Type}

inductive Decision
  | promote
  | rollback
  | continue
  deriving DecidableEq, Repr

/-- The reason a decision was reached, apart from the decision: `continue` alone would
conflate no data with no signal with improving. -/
inductive Outcome
  | improving
  | noSignal
  | insufficientData
  | inactive
  | rollback
  | promoted
  deriving DecidableEq, Repr

def Decision.text : Decision → String
  | .promote => "promote"
  | .rollback => "rollback"
  | .continue => "continue"

def Outcome.text : Outcome → String
  | .improving => "improving"
  | .noSignal => "no_signal"
  | .insufficientData => "insufficient_data"
  | .inactive => "inactive"
  | .rollback => "rollback"
  | .promoted => "promoted"

theorem Outcome.text_eq_improving (o : Outcome) : o.text = "improving" ↔ o = .improving := by
  cases o <;> decide

/-- A row of `canary_decisions`. Rows older than the column carry the outcome `unknown`. -/
structure DecisionRow (F : Type) where
  decisionId : String
  championVersion : String
  challengerVersion : String
  decision : String
  outcome : String
  reason : String
  metrics : Json F
  windowStart : Int
  windowEnd : Int
  createdAt : Int

/-- Both rows are about one champion and one challenger. -/
def DecisionRow.SamePair (r s : DecisionRow F) : Prop :=
  r.championVersion = s.championVersion ∧ r.challengerVersion = s.challengerVersion

def latest (rows : List (DecisionRow F)) : Int :=
  rows.foldr (fun r t => max r.createdAt t) 0

theorem createdAt_le_latest {rows : List (DecisionRow F)} {r : DecisionRow F} (h : r ∈ rows) :
    r.createdAt ≤ latest rows := by
  induction rows with
  | nil => simp at h
  | cons a rows ih =>
    simp only [latest, List.foldr_cons]
    obtain heq | hmem := List.mem_cons.mp h
    · rw [heq]
      exact le_max_left _ _
    · exact (ih hmem).trans (le_max_right _ _)

/-- The table `canary_decisions`, each pair's rows in order of arrival. -/
structure DecisionLog (F : Type) where
  rows : List (DecisionRow F)
  increasing : rows.Pairwise fun r s => r.SamePair s → r.createdAt < s.createdAt

namespace DecisionLog

def empty : DecisionLog F := ⟨[],List.Pairwise.nil⟩

/-- `INSERT`, at a time `gap` after the first one that is still free. -/
def insert (log : DecisionLog F) (gap : Nat) (r : DecisionRow F) : DecisionLog F where
  rows := log.rows ++ [{ r with createdAt := latest log.rows + 1 + gap }]
  increasing := by
    refine List.pairwise_append.mpr ⟨log.increasing,List.pairwise_singleton _ _,?_⟩
    intro a ha b hb _
    have before : a.createdAt ≤ latest log.rows := createdAt_le_latest ha
    rw [List.mem_singleton.mp hb]
    change a.createdAt < latest log.rows + 1 + gap
    omega

/-- `WHERE champion_version = champion AND challenger_version = challenger`. -/
def ofPair (log : DecisionLog F) (champion challenger : String) : List (DecisionRow F) :=
  log.rows.filter (fun r => r.championVersion = champion ∧ r.challengerVersion = challenger)

/-- `ORDER BY created_at DESC` over the rows of a pair. -/
def newestFirst (log : DecisionLog F) (champion challenger : String) : List (DecisionRow F) :=
  (log.ofPair champion challenger).insertionSort (fun r s => s.createdAt ≤ r.createdAt)

/-- The query of `_count_consecutive_improvements`, with its `LIMIT 10`. -/
def recentOutcomes (log : DecisionLog F) (champion challenger : String) : List String :=
  ((log.newestFirst champion challenger).take 10).map (·.outcome)

theorem newestFirst_eq_reverse (log : DecisionLog F) (champion challenger : String) :
    log.newestFirst champion challenger = (log.ofPair champion challenger).reverse := by
  apply insertionSort_eq_reverse
  apply (log.increasing.sublist List.filter_sublist).imp_of_mem
  intro r s hr hs h
  have first := of_decide_eq_true (List.mem_filter.mp hr).2
  have second := of_decide_eq_true (List.mem_filter.mp hs).2
  exact not_le.mpr (h ⟨first.1.trans second.1.symm,first.2.trans second.2.symm⟩)

theorem ofPair_insert_same (log : DecisionLog F) (gap : Nat) (r : DecisionRow F) :
    (log.insert gap r).ofPair r.championVersion r.challengerVersion =
      log.ofPair r.championVersion r.challengerVersion ++
        [{ r with createdAt := latest log.rows + 1 + gap }] := by
  simp [ofPair, insert]

theorem ofPair_insert_other (log : DecisionLog F) (gap : Nat) (r : DecisionRow F)
    {champion challenger : String}
    (h : ¬(r.championVersion = champion ∧ r.challengerVersion = challenger)) :
    (log.insert gap r).ofPair champion challenger = log.ofPair champion challenger := by
  simp [ofPair, insert, h]

end DecisionLog

/-- Both loops of `_count_consecutive_improvements`: count until the first other outcome. -/
def countLeading : Nat → List String → Nat
  | count, [] => count
  | count, o :: outcomes => if o = "improving" then countLeading (count + 1) outcomes else count

def countConsecutiveImprovements (log : DecisionLog F) (champion challenger : String)
    (priorOutcomes : Option (List String)) : Nat :=
  match priorOutcomes with
  | some outcomes => countLeading 0 outcomes.reverse
  | none => countLeading 0 (log.recentOutcomes champion challenger)

def isImproving (outcome : String) : Bool := outcome = "improving"

theorem countLeading_eq (count : Nat) (outcomes : List String) :
    countLeading count outcomes = count + streak isImproving outcomes := by
  induction outcomes generalizing count with
  | nil => rfl
  | cons o outcomes ih =>
    rw [countLeading, streak_cons, isImproving]
    by_cases h : o = "improving"
    · simp only [h, if_true, decide_true, ih]
      omega
    · simp [h]

/-- The bounded scan of the table is the streak of the pair's history, saturated at ten. -/
theorem countConsecutiveImprovements_none (log : DecisionLog F) (champion challenger : String) :
    countConsecutiveImprovements log champion challenger none =
      min 10 (streak (fun r => isImproving r.outcome)
        (log.ofPair champion challenger).reverse) := by
  rw [countConsecutiveImprovements, countLeading_eq, DecisionLog.recentOutcomes,
    log.newestFirst_eq_reverse, streak_map, streak_take]
  omega

/-- A newest row that is not an improvement leaves nothing to count. -/
theorem countConsecutiveImprovements_insert (log : DecisionLog F) (gap : Nat) (r : DecisionRow F)
    (h : isImproving r.outcome = false) :
    countConsecutiveImprovements (log.insert gap r) r.championVersion r.challengerVersion none =
      0 := by
  rw [countConsecutiveImprovements_none, log.ofPair_insert_same gap r, List.reverse_append,
    List.reverse_singleton, List.singleton_append, streak_cons, h]
  rfl

theorem countConsecutiveImprovements_some (log : DecisionLog F) (champion challenger : String)
    (outcomes : List String) :
    countConsecutiveImprovements log champion challenger (some outcomes) =
      streak isImproving outcomes.reverse := by
  rw [countConsecutiveImprovements, countLeading_eq]
  omega

/-- A count of `k` from the table is `k` newest rows of the pair, all of them improving. -/
theorem newest_improving_of_count {log : DecisionLog F} {champion challenger : String} {k : Nat}
    (h : k ≤ countConsecutiveImprovements log champion challenger none) :
    k ≤ (log.ofPair champion challenger).length ∧
      ∀ r ∈ (log.newestFirst champion challenger).take k, r.outcome = "improving" := by
  rw [countConsecutiveImprovements_none] at h
  have hs := (le_streak_iff _ k _).mp (h.trans (min_le_right _ _))
  rw [List.length_reverse] at hs
  refine ⟨hs.1, fun r hr => ?_⟩
  rw [log.newestFirst_eq_reverse] at hr
  simpa [isImproving] using hs.2 r hr

end FraudPlatform.Canary
