import FraudPlatform.Http

namespace FraudPlatform.Serving

open Framework

variable {V : Type}

/-- ONNX Runtime and SHA-256, over the `float32` values `V`. -/
structure Engine (V : Type) where
  zero : V
  /-- Tensor creation and `session.Run`: the fraud probability of one input row. -/
  run : Nat → List V → Except String V
  featureVecHash : List V → String

abbrev FeatureMap (V : Type) := String → Option V

structure Runner where
  session : Nat
  featureOrder : List String
  modelVersion : String
  deriving DecidableEq, Repr

/-- The input vector, in the model's feature order; the first name that is absent fails it. -/
def featureVec (featureMap : FeatureMap V) : List String → Except String (List V)
  | [] => .ok []
  | name :: names =>
    match featureMap name with
    | none => .error ("missing feature \"" ++ name ++ "\" in feature map")
    | some v => (featureVec featureMap names).map (v :: ·)

def Runner.score (E : Engine V) (r : Runner) (featureMap : FeatureMap V) :
    Except String (V × String) := do
  let vec ← featureVec featureMap r.featureOrder
  let prob ← E.run r.session vec
  return (prob,E.featureVecHash vec)

/-- What the disk and the runtime answer while a model is loaded, by path. -/
structure LoadEnv where
  /-- Reading the feature order and, on the data read, `json.Unmarshal`. -/
  featureOrderData : String → Except String (Except String (List String))
  /-- The hex digest of the model file. -/
  modelSha256 : String → Except String String
  initORT : Except String Unit
  newSession : String → Except String Nat
  /-- `SampleFeatureNames`: the names of one arbitrary Redis row. -/
  sampleFeatureNames : Except String (List String)

def newRunner (E : Engine V) (env : LoadEnv) (modelPath featureOrderPath : String) :
    Except String Runner := do
  let data ← (env.featureOrderData featureOrderPath).mapError ("read feature order: " ++ ·)
  let featureOrder ← data.mapError ("parse feature order: " ++ ·)
  let modelVersion ← (env.modelSha256 modelPath).mapError ("read model: " ++ ·)
  env.initORT.mapError ("init onnxruntime: " ++ ·)
  let session ← (env.newSession modelPath).mapError ("create onnx session: " ++ ·)
  let r : Runner := ⟨session,featureOrder,modelVersion⟩
  let zeroMap : FeatureMap V := fun name => if name ∈ featureOrder then some E.zero else none
  let _ ← (r.score E zeroMap).mapError
    (s!"startup validation: model rejected {featureOrder.length}-feature input from " ++
      featureOrderPath ++ ": " ++ ·)
  return r

/-- The loop over the feature order, which stops at the fifth missing name. -/
def missingFeatures (sampleNames : List String) : List String → List String → List String
  | missing, [] => missing
  | missing, name :: names =>
    if name ∈ sampleNames then missingFeatures sampleNames missing names
    else if 5 ≤ missing.length + 1 then missing ++ [name]
    else missingFeatures sampleNames (missing ++ [name]) names

def validateAgainstSample (sample : Except String (List String)) (featureOrder : List String) :
    Except String Unit := do
  let sampleNames ← sample.mapError ("sample redis to validate new model: " ++ ·)
  let missing := missingFeatures sampleNames [] featureOrder
  if missing = [] then return ()
  else throw (s!"redis sample missing features required by new model (first {missing.length} " ++
    "shown): [" ++ " ".intercalate missing ++ "]")

/-- The installed runner, and whether a sampler was given; without one no sample is taken. -/
structure Swappable where
  r : Runner
  sampler : Bool
  deriving DecidableEq, Repr

/-- The part of a reload that runs before the lock is taken: load and validate. -/
def Swappable.candidate (E : Engine V) (env : LoadEnv) (modelPath featureOrderPath : String)
    (s : Swappable) : Except String Runner := do
  let newR ← newRunner E env modelPath featureOrderPath
  if s.sampler then validateAgainstSample env.sampleFeatureNames newR.featureOrder
  return newR

def Swappable.reload (E : Engine V) (env : LoadEnv) (modelPath featureOrderPath : String)
    (s : Swappable) : Swappable × Except String String :=
  match s.candidate E env modelPath featureOrderPath with
  | .error e => (s, .error e)
  | .ok newR => ({ s with r := newR }, .ok newR.modelVersion)

structure ReloadRequest where
  modelPath : String
  featureOrderPath : String
  deriving DecidableEq, Repr

structure ReloadResponse where
  modelVersion : String
  deriving DecidableEq, Repr

/-- The serving process as its admin interface sees it. -/
structure Handler where
  modelRunner : Swappable
  adminToken : String
  deriving DecidableEq, Repr

/-- `POST /admin/reload`; `none` is a body that is too long or does not decode. -/
def handleReload (E : Engine V) (env : LoadEnv) (token : String) (body : Option ReloadRequest)
    (h : Handler) : Handler × Reply ReloadResponse :=
  if token ≠ h.adminToken then (h, .error 401 "unauthorized")
  else
    match body with
    | none => (h, .error 400 "invalid request body")
    | some req =>
      if req.modelPath = "" ∨ req.featureOrderPath = "" then
        (h, .error 400 "model_path and feature_order_path are required")
      else
        match h.modelRunner.reload E env req.modelPath req.featureOrderPath with
        | (s, .error e) => ({ h with modelRunner := s }, .error 500 ("reload failed: " ++ e))
        | (s, .ok newVersion) => ({ h with modelRunner := s }, .ok ⟨newVersion⟩)

/-- A reload is all or nothing: an error keeps the installed runner, and a version that is
returned is the version of the runner it installed. -/
theorem Swappable.reload_cases (E : Engine V) (env : LoadEnv) (modelPath featureOrderPath : String)
    (s : Swappable) :
    (∃ newR, s.candidate E env modelPath featureOrderPath = .ok newR ∧
      s.reload E env modelPath featureOrderPath =
        ({ s with r := newR }, .ok newR.modelVersion)) ∨
    ∃ e, s.reload E env modelPath featureOrderPath = (s, .error e) := by
  unfold Swappable.reload
  cases hn : s.candidate E env modelPath featureOrderPath with
  | error e => exact Or.inr ⟨e,rfl⟩
  | ok newR => exact Or.inl ⟨newR,rfl,rfl⟩

theorem handleReload_cases (E : Engine V) (env : LoadEnv) (token : String)
    (body : Option ReloadRequest) (h : Handler) :
    (∃ newR : Runner, handleReload E env token body h =
      (⟨{ h.modelRunner with r := newR },h.adminToken⟩, .ok ⟨newR.modelVersion⟩)) ∨
    ∃ status text, handleReload E env token body h = (h, .error status text) := by
  unfold handleReload
  split_ifs with ht
  · exact Or.inr ⟨401,_,rfl⟩
  cases body with
  | none => exact Or.inr ⟨400,_,rfl⟩
  | some req =>
    dsimp only
    split_ifs with hp
    · exact Or.inr ⟨400,_,rfl⟩
    have hr := h.modelRunner.reload_cases E env req.modelPath req.featureOrderPath
    obtain ⟨newR, _, he⟩ | ⟨e, he⟩ := hr
    · exact Or.inl ⟨newR,by rw [he]⟩
    · exact Or.inr ⟨500,_,by rw [he]⟩

section Sample

def smallEngine : Engine Unit := ⟨(),fun _ _ => .ok (),fun _ => ""⟩

/-- The file at the challenger's path has the digest `k1`. -/
def smallLoad : LoadEnv :=
  ⟨fun _ => .ok (.ok []),fun _ => .ok "k1",.ok (),fun _ => .ok 1,.ok []⟩

end Sample

end FraudPlatform.Serving
