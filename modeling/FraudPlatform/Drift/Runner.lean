import FraudPlatform.Drift.Detectors
import FraudPlatform.Framework.Datetime
import FraudPlatform.Framework.Json
import FraudPlatform.Framework.Md5
import FraudPlatform.Framework.Table
import FraudPlatform.Tables

namespace FraudPlatform.Drift

open Framework

/-- An alert, and its row in `drift_alerts`. -/
structure DriftAlert (F : Type) where
  alertId : String
  detectorName : String
  metricName : String
  metricValue : F
  threshold : F
  windowStart : Int
  windowEnd : Int
  referenceWindowStart : Int
  referenceWindowEnd : Int
  severity : String
  payload : Json F

abbrev AlertTable (F : Type) := Table (DriftAlert.alertId (F := F))

/-- The arguments of a check. -/
structure DriftCheck (F : Type) where
  referenceStart : Int
  referenceEnd : Int
  recentWindowHours : Int
  minSamples : Int
  psiWarningThreshold : F
  psiCriticalThreshold : F
  ksPvalueThreshold : F
  ksStatisticThreshold : F
  jsThreshold : F

def deterministicAlertId (detectorName : String) (windowStart windowEnd : Int) : String :=
  Md5.uuid (Md5.hexdigest (detectorName ++ "|" ++ Datetime.isoformat windowStart ++ "|" ++
    Datetime.isoformat windowEnd))

variable {F : Type}

def DriftCheck.recentStart (cfg : DriftCheck F) (now : Int) : Int :=
  now - cfg.recentWindowHours * 3600000000

def DriftCheck.inReference (cfg : DriftCheck F) (p : Prediction F) : Bool :=
  cfg.referenceStart ≤ p.createdAt && p.createdAt ≤ cfg.referenceEnd

def DriftCheck.inRecent (cfg : DriftCheck F) (now : Int) (p : Prediction F) : Bool :=
  cfg.recentStart now ≤ p.createdAt && p.createdAt ≤ now

/-- The query; rows of one time come in the order of the table. -/
def DriftCheck.fetch (cfg : DriftCheck F) (predictions : List (Prediction F)) (now : Int) :
    List (Prediction F) :=
  (predictions.filter fun p => cfg.inReference p || cfg.inRecent now p).insertionSort
    fun p q => p.createdAt ≤ q.createdAt

def DriftCheck.reference (cfg : DriftCheck F) (predictions : List (Prediction F)) (now : Int) :
    List (Prediction F) :=
  (cfg.fetch predictions now).filter cfg.inReference

def DriftCheck.recent (cfg : DriftCheck F) (predictions : List (Prediction F)) (now : Int) :
    List (Prediction F) :=
  (cfg.fetch predictions now).filter (cfg.inRecent now)

variable [Numpy F]

def DriftCheck.psiAlert (cfg : DriftCheck F) (now : Int) (nReference nRecent : Nat)
    (psiVal : F) : List (DriftAlert F) :=
  if Binary64.le cfg.psiWarningThreshold psiVal then
    [⟨deterministicAlertId "psi" (cfg.recentStart now) now,"psi","psi",psiVal,
      cfg.psiWarningThreshold,cfg.recentStart now,now,cfg.referenceStart,cfg.referenceEnd,
      if Binary64.le cfg.psiCriticalThreshold psiVal then "critical" else "warning",
      .object [("n_reference",.int nReference),("n_recent",.int nRecent)]⟩]
  else []

def DriftCheck.ksAlert (cfg : DriftCheck F) (now : Int) (ks : KSResult F) : List (DriftAlert F) :=
  if ks.flagged then
    [⟨deterministicAlertId "ks" (cfg.recentStart now) now,"ks","ks_statistic",ks.statistic,
      cfg.ksStatisticThreshold,cfg.recentStart now,now,cfg.referenceStart,cfg.referenceEnd,
      "warning",.object [("ks_statistic",.float ks.statistic),("pvalue",.float ks.pvalue)]⟩]
  else []

def DriftCheck.jsAlert (cfg : DriftCheck F) (now : Int) (nReference nRecent : Nat)
    (jsVal : F) : List (DriftAlert F) :=
  if Binary64.lt cfg.jsThreshold jsVal then
    [⟨deterministicAlertId "js" (cfg.recentStart now) now,"js","js_divergence",jsVal,
      cfg.jsThreshold,cfg.recentStart now,now,cfg.referenceStart,cfg.referenceEnd,"warning",
      .object [("n_reference_hashes",.int nReference),("n_recent_hashes",.int nRecent)]⟩]
  else []

def DriftCheck.psi (cfg : DriftCheck F) (predictions : List (Prediction F)) (now : Int) :
    Except Raised F :=
  computePsi ((cfg.reference predictions now).map (·.fraudProbability))
    ((cfg.recent predictions now).map (·.fraudProbability)) 10

def DriftCheck.ks (cfg : DriftCheck F) (S : Scipy F) (predictions : List (Prediction F))
    (now : Int) : KSResult F :=
  computeKs S ((cfg.reference predictions now).map (·.fraudProbability))
    ((cfg.recent predictions now).map (·.fraudProbability)) cfg.ksPvalueThreshold
    cfg.ksStatisticThreshold

def DriftCheck.js (cfg : DriftCheck F) (S : Scipy F) (predictions : List (Prediction F))
    (now : Int) : Except Raised F :=
  computeJsOnHashes S ((cfg.reference predictions now).map (·.featuresHash))
    ((cfg.recent predictions now).map (·.featuresHash))

/-- The detectors, in turn. -/
def DriftCheck.alerts (cfg : DriftCheck F) (S : Scipy F) (predictions : List (Prediction F))
    (now : Int) : Except Raised (List (DriftAlert F)) := do
  let nReference := (cfg.reference predictions now).length
  let nRecent := (cfg.recent predictions now).length
  let psiVal ← cfg.psi predictions now
  let ks := cfg.ks S predictions now
  let jsVal ← cfg.js S predictions now
  return cfg.psiAlert now nReference nRecent psiVal ++ cfg.ksAlert now ks ++
    cfg.jsAlert now nReference nRecent jsVal

/-- One transaction; `JSONB` takes no NaN and no infinity. -/
def writeAlerts (t : AlertTable F) (alerts : List (DriftAlert F)) :
    Except Raised (AlertTable F) :=
  if alerts.all (·.payload.finite) then .ok (t.insertAll alerts) else .error .dataError

def DriftCheck.skipped (cfg : DriftCheck F) (predictions : List (Prediction F)) (now : Int) :
    Bool :=
  (cfg.reference predictions now).length < cfg.minSamples ||
    (cfg.recent predictions now).length < cfg.minSamples

/-- The table after the check at the time `now`, and what the check returns or raises. -/
def runDriftCheck (S : Scipy F) (cfg : DriftCheck F) (predictions : List (Prediction F))
    (t : AlertTable F) (now : Int) :
    AlertTable F × Except Raised (Option (List (DriftAlert F))) :=
  if cfg.skipped predictions now then (t,.ok none)
  else
    match cfg.alerts S predictions now with
    | .error e => (t,.error e)
    | .ok [] => (t,.ok (some []))
    | .ok alerts =>
      match writeAlerts t alerts with
      | .error e => (t,.error e)
      | .ok t' => (t',.ok (some alerts))

/-- The alerts that get as far as their INSERT. -/
def DriftCheck.written (cfg : DriftCheck F) (S : Scipy F) (predictions : List (Prediction F))
    (now : Int) : List (DriftAlert F) :=
  if cfg.skipped predictions now then []
  else
    match cfg.alerts S predictions now with
    | .error _ => []
    | .ok alerts => if alerts.all (·.payload.finite) then alerts else []

/-- What a check leaves in the table. -/
theorem runDriftCheck_table (S : Scipy F) (cfg : DriftCheck F) (predictions : List (Prediction F))
    (t : AlertTable F) (now : Int) :
    (runDriftCheck S cfg predictions t now).1 = t.insertAll (cfg.written S predictions now) := by
  unfold runDriftCheck DriftCheck.written
  split_ifs
  · rfl
  · cases cfg.alerts S predictions now with
    | error e => rfl
    | ok alerts =>
      cases alerts with
      | nil => rfl
      | cons a rest =>
        simp only [writeAlerts]
        split_ifs <;> rfl

end FraudPlatform.Drift
