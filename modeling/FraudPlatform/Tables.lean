import FraudPlatform.Http

namespace FraudPlatform

/-- A row of `predictions`, over the doubles `F`. Times are microseconds since the epoch. -/
structure Prediction (F : Type) where
  predictionId : String
  transactionId : Int
  modelVersion : String
  fraudProbability : F
  flagged : Bool
  featuresHash : String
  featureLookupMs : F
  modelInferenceMs : F
  totalMs : F
  createdAt : Int
  deriving DecidableEq, Repr

/-- A row of `labels`. -/
structure Label where
  transactionId : Int
  isFraud : Bool
  labelSource : String
  availableAt : Int
  deriving DecidableEq, Repr

/-- A row of `shadow_comparisons`. -/
structure ShadowComparisonRow (F : Type) where
  transactionId : Int
  championPredictionId : String
  challengerPredictionId : String
  championProbability : F
  challengerProbability : F
  championFlagged : Bool
  challengerFlagged : Bool
  createdAt : Int
  deriving DecidableEq, Repr

end FraudPlatform
