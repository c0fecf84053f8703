import FraudPlatform.Framework.Binary64
import FraudPlatform.Serving.Runner

namespace FraudPlatform.Serving

open Framework

variable {F V : Type} [Binary64 F]

structure ScoreResponse (F : Type) where
  transactionId : Int
  predictionId : String
  fraudProbability : F
  flagged : Bool
  modelVersion : String
  deriving DecidableEq

/-- What is handed to `Log`. -/
structure Record (F : Type) where
  predictionId : String
  transactionId : Int
  modelVersion : String
  fraudProbability : F
  flagged : Bool
  featuresHash : String
  featureLookupMs : F
  modelInferenceMs : F
  totalMs : F
  createdAt : Int
  deriving DecidableEq

/-- The three durations a request measures. -/
structure Durations (F : Type) where
  lookupMs : F
  inferMs : F
  totalMs : F
  deriving DecidableEq

/-- The service: the engine, the conversion of its `float32` to a double, the threshold. -/
structure Scorer (F V : Type) where
  engine : Engine V
  float64 : V → F
  threshold : F

/-- The handler's use of one runner: its probability and the hash, or the status 500. -/
def Scorer.infer (H : Scorer F V) (r : Runner) (featureMap : FeatureMap V) :
    Reply (F × String) :=
  match r.score H.engine featureMap with
  | .error _ => .error 500 "model inference failed"
  | .ok (prob, featHash) =>
    if Binary64.isFinite (H.float64 prob) then .ok (H.float64 prob,featHash)
    else .error 500 "model returned non-finite probability"

def Scorer.flagged (H : Scorer F V) (fraudProb : F) : Bool := Binary64.le H.threshold fraudProb

/-- What a request has gathered once its inference is done. -/
structure Scored (F : Type) where
  transactionId : Int
  predictionId : String
  fraudProb : F
  featHash : String
  durations : Durations F
  deriving DecidableEq

/-- The answer, with the version `ModelVersion()` returns at that moment. -/
def Scorer.response (H : Scorer F V) (x : Scored F) (modelVersion : String) : ScoreResponse F :=
  ⟨x.transactionId,x.predictionId,x.fraudProb,H.flagged x.fraudProb,modelVersion⟩

/-- The record of the logging goroutine, with the version it reads in turn. -/
def Scorer.record (H : Scorer F V) (x : Scored F) (modelVersion : String) (createdAt : Int) :
    Record F :=
  ⟨x.predictionId,x.transactionId,modelVersion,x.fraudProb,H.flagged x.fraudProb,x.featHash,
    x.durations.lookupMs,x.durations.inferMs,x.durations.totalMs,createdAt⟩

end FraudPlatform.Serving
