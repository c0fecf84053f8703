import FraudPlatform.Features.Client
import FraudPlatform.Framework.JsonStruct
import FraudPlatform.Serving.Score

namespace FraudPlatform.Serving.Server

open Framework Ieee

/-- `fraudProb >= threshold`, as IEEE compares -/
def atLeast : Datum → Datum → Bool
  | .nan, _ | _, .nan => false
  | _, .infinite true | .infinite false, _ => true
  | .infinite true, _ | _, .infinite false => false
  | .finite s m, .finite t n => (if t then -n else n) ≤ (if s then -m else m)

/-- What `Handler.Score` does that others see, in order. -/
inductive Effect
  /-- `metrics.FeatureLookupErrors` -/
  | featureLookupErrors (label : String)
  /-- `metrics.PredictionsTotal` -/
  | predictionsTotal (label : String)
  | reply (r : Reply (ScoreResponse Datum))
  /-- The call of `Log` in the goroutine that `Drain` waits for. -/
  | log (r : Record Datum)

/-- The handler with its feature client and its model. -/
structure Handler where
  featureClient : Int → Except Features.GetError (FeatureMap Datum)
  modelRunner : FeatureMap Datum → Except String (Datum × String)
  threshold : Datum

/-- A request, with what the clock, `uuid.New` and the two calls of `ModelVersion` will answer. -/
structure ScoreCall where
  body : List Char
  durations : Durations Datum
  predictionId : String
  responseVersion : String
  recordVersion : String
  createdAt : Int

/-- The last part of `Handler.Score`, with a probability that is a number. -/
def Handler.finish (h : Handler) (x : ScoreCall) (transactionId : Int) (fraudProb : Datum)
    (featHash : String) : List Effect :=
  let flagged := atLeast fraudProb h.threshold
  [.predictionsTotal (if flagged then "flagged" else "not_flagged"),
    .reply (.ok ⟨transactionId,x.predictionId,fraudProb,flagged,x.responseVersion⟩),
    .log ⟨x.predictionId,transactionId,x.recordVersion,fraudProb,flagged,featHash,
      x.durations.lookupMs,x.durations.inferMs,x.durations.totalMs,x.createdAt⟩]

def Handler.score (h : Handler) (x : ScoreCall) : List Effect :=
  match JsonStruct.decodeInt64 "transaction_id" (JsonStruct.maxBytes 4096 x.body) with
  | none | some 0 => [.reply (.error 400 "invalid request body: transaction_id required")]
  | some transactionId =>
    match h.featureClient transactionId with
    | .error .notFound =>
      [.featureLookupErrors "not_found",.reply (.error 404 "transaction features not found")]
    | .error _ =>
      [.featureLookupErrors "redis_error",.reply (.error 500 "feature lookup failed")]
    | .ok featureMap =>
      match h.modelRunner featureMap with
      | .error _ => [.reply (.error 500 "model inference failed")]
      | .ok (prob, featHash) =>
        -- `float64(prob)`
        match binary64.convert prob with
        | .nan | .infinite _ => [.reply (.error 500 "model returned non-finite probability")]
        | .finite s m => h.finish x transactionId (.finite s m) featHash

def replies (effects : List Effect) : List (Reply (ScoreResponse Datum)) :=
  effects.filterMap fun e => match e with
    | .reply r => some r
    | _ => none

/-- The records handed to `Log`. -/
def logged (effects : List Effect) : List (Record Datum) :=
  effects.filterMap fun e => match e with
    | .log r => some r
    | _ => none

/-- The record says what was answered, and the answer is a number held against the threshold. -/
structure Corresponds (threshold : Datum) (response : ScoreResponse Datum) (record : Record Datum) :
    Prop where
  predictionId : record.predictionId = response.predictionId
  transactionId : record.transactionId = response.transactionId
  fraudProbability : record.fraudProbability = response.fraudProbability
  flagged : record.flagged = response.flagged
  finite : ∃ p, response.fraudProbability.value = some p ∧ (response.flagged = true ↔
    threshold = .infinite true ∨ ∃ t, threshold.value = some t ∧ t ≤ p)

/-- An answer with a record of it, or an error and nothing logged. -/
inductive Audited (threshold : Datum) (effects : List Effect) : Prop
  | answered (response : ScoreResponse Datum) (record : Record Datum)
    (replied : replies effects = [.ok response]) (logs : logged effects = [record])
    (corresponds : Corresponds threshold response record)
  | refused (status : Nat) (text : String) (failed : status ≠ 200)
    (replied : replies effects = [.error status text]) (logs : logged effects = [])

theorem atLeast_finite (s : Bool) (m : ℚ) (threshold : Datum) :
    atLeast (.finite s m) threshold = true ↔
      threshold = .infinite true ∨
        ∃ t, threshold.value = some t ∧ t ≤ (if s then -m else m) := by
  cases threshold with
  | nan => simp [atLeast, Datum.value]
  | infinite negative => cases negative <;> simp [atLeast, Datum.value]
  | finite t n => simp [atLeast, Datum.value]

theorem finish_audited (h : Handler) (x : ScoreCall) (transactionId : Int) (s : Bool) (m : ℚ)
    (featHash : String) :
    Audited h.threshold (h.finish x transactionId (.finite s m) featHash) := by
  refine .answered _ _ rfl rfl ⟨rfl,rfl,rfl,rfl,_,rfl,?_⟩
  exact atLeast_finite s m h.threshold

/-- Each exit of `Handler.Score`. -/
theorem score_audited (h : Handler) (x : ScoreCall) : Audited h.threshold (h.score x) := by
  unfold Handler.score
  split
  · exact .refused 400 _ (by decide) rfl rfl
  · exact .refused 400 _ (by decide) rfl rfl
  · next transactionId _ _ =>
    split
    · exact .refused 404 _ (by decide) rfl rfl
    · exact .refused 500 _ (by decide) rfl rfl
    · split
      · exact .refused 500 _ (by decide) rfl rfl
      · next featHash _ =>
        split
        · exact .refused 500 _ (by decide) rfl rfl
        · exact .refused 500 _ (by decide) rfl rfl
        · next s m _ => exact finish_audited h x transactionId s m featHash

/-- One reply each time; one call of `Log` with a 200, which it repeats, and none otherwise. -/
theorem score_logs_answer (h : Handler) (x : ScoreCall) :
    ∃ reply, replies (h.score x) = [reply] ∧
      (reply.status = 200 → ∃ response record, reply = .ok response ∧
        logged (h.score x) = [record] ∧ Corresponds h.threshold response record) ∧
      (reply.status ≠ 200 → logged (h.score x) = []) := by
  cases score_audited h x with
  | answered response record replied logs corresponds =>
    exact ⟨_,replied,fun _ => ⟨response,record,rfl,logs,corresponds⟩,fun other => absurd rfl other⟩
  | refused status text failed replied logs =>
    exact ⟨_,replied,fun same => absurd same failed,fun _ => logs⟩

end FraudPlatform.Serving.Server
