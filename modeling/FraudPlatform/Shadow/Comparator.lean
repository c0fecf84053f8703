import FraudPlatform.Framework.Datetime
import FraudPlatform.Framework.Md5
import FraudPlatform.Framework.Numpy
import FraudPlatform.Framework.Table
import FraudPlatform.Tables

namespace FraudPlatform.Shadow

open Framework

structure Confusion where
  tp : Nat
  fp : Nat
  fn : Nat
  tn : Nat
  deriving DecidableEq, Repr

/-- A summary, and its row in `shadow_summaries`. -/
structure ShadowSummary (F : Type) where
  summaryId : String
  windowStart : Int
  windowEnd : Int
  nComparisons : Nat
  correlation : Option F
  disagreementRate : F
  absDiffP50 : F
  absDiffP95 : F
  absDiffP99 : F
  confusion : Confusion

abbrev SummaryTable (F : Type) := Table (ShadowSummary.summaryId (F := F))

def deterministicSummaryId (windowStart windowEnd : Int) : String :=
  Md5.uuid (Md5.hexdigest (Datetime.isoformat windowStart ++ "|" ++ Datetime.isoformat windowEnd))

variable {F : Type}

def windowStart (windowHours now : Int) : Int := now - windowHours * 3600000000

def window (comparisons : List (ShadowComparisonRow F)) (windowHours now : Int) :
    List (ShadowComparisonRow F) :=
  comparisons.filter fun r => windowStart windowHours now ≤ r.createdAt && r.createdAt ≤ now

def confusion (rows : List (ShadowComparisonRow F)) : Confusion :=
  ⟨rows.countP fun r => r.championFlagged && r.challengerFlagged,
    rows.countP fun r => !r.championFlagged && r.challengerFlagged,
    rows.countP fun r => r.championFlagged && !r.challengerFlagged,
    rows.countP fun r => !r.championFlagged && !r.challengerFlagged⟩

variable [Numpy F]

def absDiff (r : ShadowComparisonRow F) : F :=
  Binary64.abs (r.championProbability - r.challengerProbability)

def disagreementRate (rows : List (ShadowComparisonRow F)) : F :=
  Numpy.ofInt (rows.countP fun r => r.championFlagged != r.challengerFlagged) /
    Numpy.ofInt rows.length

def correlation (rows : List (ShadowComparisonRow F)) : Option F :=
  let champProbs := rows.map (·.championProbability)
  let challProbs := rows.map (·.challengerProbability)
  -- `corrcoef` of a constant column is NaN.
  if 1 < rows.length ∧ Binary64.lt 0 (Numpy.std champProbs) ∧ Binary64.lt 0 (Numpy.std challProbs)
  then some (Numpy.corrcoef champProbs challProbs)
  else none

/-- The summary of a window with the first row `r`. -/
def summarize (windowHours now : Int) (r : ShadowComparisonRow F)
    (rest : List (ShadowComparisonRow F)) : ShadowSummary F :=
  let rows := r :: rest
  let percentile (q : Int) : F :=
    Numpy.percentileOf (absDiff r) (rest.map absDiff)
      (Numpy.ofInt q)
  ⟨deterministicSummaryId (windowStart windowHours now) now,windowStart windowHours now,now,
    rows.length,correlation rows,disagreementRate rows,percentile 50,percentile 95,percentile 99,
    confusion rows⟩

/-- The table after the run at the time `now`, and the summary if there is one. -/
def computeShadowSummary (comparisons : List (ShadowComparisonRow F)) (t : SummaryTable F)
    (windowHours now : Int) : SummaryTable F × Option (ShadowSummary F) :=
  match window comparisons windowHours now with
  | [] => (t,none)
  | r :: rest =>
    let summary := summarize windowHours now r rest
    (t.insertOrIgnore summary,some summary)

/-- What a run inserts, at most one row. -/
def written (comparisons : List (ShadowComparisonRow F)) (windowHours now : Int) :
    List (ShadowSummary F) :=
  match window comparisons windowHours now with
  | [] => []
  | r :: rest => [summarize windowHours now r rest]

theorem computeShadowSummary_table (comparisons : List (ShadowComparisonRow F))
    (t : SummaryTable F) (windowHours now : Int) :
    (computeShadowSummary comparisons t windowHours now).1 =
      t.insertAll (written comparisons windowHours now) := by
  unfold computeShadowSummary written
  split <;> rfl

end FraudPlatform.Shadow
