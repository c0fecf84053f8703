import FraudPlatform.Framework.Exact
import FraudPlatform.Framework.Run
import FraudPlatform.Framework.Slots
import FraudPlatform.Serving.Score

namespace FraudPlatform.Serving

open Framework

variable {F V : Type} [Binary64 F]

/-- A score request past the feature lookup. From `scored` on it remembers the runner that
computed its probability; the program keeps no such note. -/
inductive Request (F V : Type)
  /-- Inside `Swappable.Score`, with the read lock held. -/
  | inferring (transactionId : Int) (featureMap : FeatureMap V)
  | failed (status : Nat) (text : String)
  | scored (runner : Runner) (featureMap : FeatureMap V) (x : Scored F)
  | responded (runner : Runner) (featureMap : FeatureMap V) (x : Scored F)
      (response : ScoreResponse F)
  | logged (runner : Runner) (featureMap : FeatureMap V) (response : ScoreResponse F)
      (record : Record F)

/-- A reload past `NewRunner` and the validation. -/
inductive Reload
  | loaded (newR : Runner)
  | failed (error : String)
  | returned (newVersion : String)
  deriving DecidableEq

/-- The process: the swappable runner, and every request and reload so far. -/
structure Process (F V : Type) where
  modelRunner : Swappable
  requests : List (Request F V)
  reloads : List Reload

def Request.holdsReadLock : Request F V → Bool
  | .inferring _ _ => true
  | _ => false

/-- `ModelVersion()`: its critical section is a single read. -/
def Process.modelVersion (s : Process F V) : String := s.modelRunner.r.modelVersion

def Process.readers (s : Process F V) : Nat := s.requests.countP (·.holdsReadLock)

/-- The steps of all goroutines. A goroutine is named by its place in its list. -/
inductive Action (F V : Type)
  | score (transactionId : Int) (featureMap : FeatureMap V)
  | infer (i : Nat) (predictionId : String) (durations : Durations F)
  | respond (i : Nat)
  | log (i : Nat) (createdAt : Int)
  | load (env : LoadEnv) (modelPath featureOrderPath : String)
  | swap (j : Nat)

/-- One step; a step that is not enabled changes nothing. -/
def Process.step (H : Scorer F V) (s : Process F V) : Action F V → Process F V
  | .score transactionId featureMap =>
    { s with requests := s.requests ++ [.inferring transactionId featureMap] }
  | .infer i predictionId durations =>
    match s.requests[i]? with
    | some (.inferring transactionId featureMap) =>
      match H.infer s.modelRunner.r featureMap with
      | .error status text => { s with requests := s.requests.set i (.failed status text) }
      | .ok (fraudProb, featHash) =>
        { s with requests := s.requests.set i (.scored s.modelRunner.r featureMap
                   ⟨transactionId,predictionId,fraudProb,featHash,durations⟩) }
    | _ => s
  | .respond i =>
    match s.requests[i]? with
    | some (.scored runner featureMap x) =>
      { s with requests := s.requests.set i (.responded runner featureMap x
                 (H.response x s.modelVersion)) }
    | _ => s
  | .log i createdAt =>
    match s.requests[i]? with
    | some (.responded runner featureMap x response) =>
      { s with requests := s.requests.set i (.logged runner featureMap response
                 (H.record x s.modelVersion createdAt)) }
    | _ => s
  | .load env modelPath featureOrderPath =>
    match s.modelRunner.candidate H.engine env modelPath featureOrderPath with
    | .error e => { s with reloads := s.reloads ++ [.failed e] }
    | .ok newR => { s with reloads := s.reloads ++ [.loaded newR] }
  | .swap j =>
    match s.reloads[j]? with
    | some (.loaded newR) =>
      -- The write lock waits for every reader.
      if s.readers = 0 then
        { s with modelRunner := { s.modelRunner with r := newR }
                 reloads := s.reloads.set j (.returned newR.modelVersion) }
      else s
    | _ => s

/-- Response and record carry the version of the runner that computed their numbers. -/
def Request.Attributed (H : Scorer F V) : Request F V → Prop
  | .responded runner featureMap x response =>
    H.infer runner featureMap = .ok (response.fraudProbability,x.featHash) ∧
      response.modelVersion = runner.modelVersion
  | .logged runner featureMap response record =>
    (H.infer runner featureMap = .ok (response.fraudProbability,record.featuresHash) ∧
      response.modelVersion = runner.modelVersion) ∧
    H.infer runner featureMap = .ok (record.fraudProbability,record.featuresHash) ∧
      record.modelVersion = runner.modelVersion
  | _ => True

def Attributed (H : Scorer F V) (s : Process F V) : Prop := ∀ q ∈ s.requests, q.Attributed H

/-- The inference of a request whose versions are not all read yet. -/
def Request.pending : Request F V → Option (Runner × FeatureMap V × Scored F)
  | .scored runner featureMap x => some (runner,featureMap,x)
  | .responded runner featureMap x _ => some (runner,featureMap,x)
  | _ => none

/-- A swap to another version finds no request between its inference and its last version
read. -/
def SwapQuiet (s : Process F V) : Action F V → Prop
  | .swap j => ∀ newR, s.reloads[j]? = some (.loaded newR) → s.readers = 0 →
      ∀ q ∈ s.requests, ∀ runner featureMap x, q.pending = some (runner,featureMap,x) →
        newR.modelVersion = runner.modelVersion
  | _ => True

section Attribution

variable (H : Scorer F V) {version : String}

/-- What a request owes to the installed version: a pending one was scored by it. -/
def Request.Good (version : String) (q : Request F V) : Prop :=
  q.Attributed H ∧ ∀ runner featureMap x, q.pending = some (runner,featureMap,x) →
    runner.modelVersion = version ∧ H.infer runner featureMap = .ok (x.fraudProb,x.featHash)

theorem good_of_settled {q : Request F V} (h : q.pending = none) (ha : q.Attributed H) :
    q.Good H version := by
  refine ⟨ha,fun runner featureMap x hq => ?_⟩
  rw [h] at hq
  cases hq

theorem good_version {q : Request F V} {version' : String} (h : q.Good H version)
    (same : ∀ runner featureMap x, q.pending = some (runner,featureMap,x) →
      version' = runner.modelVersion) : q.Good H version' :=
  ⟨h.1,fun runner featureMap x hq => ⟨(same runner featureMap x hq).symm,
    (h.2 runner featureMap x hq).2⟩⟩

theorem infer_good (r : Runner) (transactionId : Int) (predictionId : String)
    (featureMap : FeatureMap V) (durations : Durations F) {fraudProb : F} {featHash : String}
    (h : H.infer r featureMap = .ok (fraudProb,featHash)) :
    (Request.scored r featureMap ⟨transactionId,predictionId,fraudProb,featHash,durations⟩).Good H
      r.modelVersion := by
  refine ⟨trivial,fun runner featureMap' x hq => ?_⟩
  cases hq
  exact ⟨rfl,h⟩

theorem respond_good {runner : Runner} {featureMap : FeatureMap V} {x : Scored F}
    (h : (Request.scored runner featureMap x).Good H version) :
    (Request.responded runner featureMap x (H.response x version)).Good H version := by
  obtain ⟨same, computed⟩ := h.2 runner featureMap x rfl
  refine ⟨⟨computed,same.symm⟩,fun runner' featureMap' x' hq => ?_⟩
  cases hq
  exact ⟨same,computed⟩

theorem log_good {runner : Runner} {featureMap : FeatureMap V} {x : Scored F}
    {response : ScoreResponse F} (createdAt : Int)
    (h : (Request.responded runner featureMap x response).Good H version) :
    (Request.logged runner featureMap response (H.record x version createdAt)).Good H version := by
  obtain ⟨same, computed⟩ := h.2 runner featureMap x rfl
  exact good_of_settled H rfl ⟨h.1,computed,same.symm⟩

/-- Every request is as it should be for the version now installed. -/
def AllGood (s : Process F V) : Prop := ∀ q ∈ s.requests, q.Good H s.modelVersion

theorem allGood_set {s : Process F V} {i : Nat} {q : Request F V} (h : AllGood H s)
    (hq : q.Good H s.modelVersion) : AllGood H { s with requests := s.requests.set i q } :=
  forall_mem_set h hq

/-- One step of any goroutine keeps the requests in order, unless it swaps under one that
has a version left to read. -/
theorem step_allGood {s : Process F V} {a : Action F V} (h : AllGood H s) (quiet : SwapQuiet s a) :
    AllGood H (s.step H a) := by
  cases a with
  | score transactionId featureMap => exact forall_mem_concat h (good_of_settled H rfl trivial)
  | infer i predictionId durations =>
    simp only [Process.step]
    split
    · next transactionId featureMap _ =>
      cases hi : H.infer s.modelRunner.r featureMap with
      | error status text => exact allGood_set H h (good_of_settled H rfl trivial)
      | ok computed =>
        exact allGood_set H h (infer_good H s.modelRunner.r transactionId predictionId featureMap
          durations hi)
    · exact h
  | respond i =>
    simp only [Process.step]
    split
    · next runner featureMap x hx =>
      exact allGood_set H h (respond_good H (h _ (List.mem_of_getElem? hx)))
    · exact h
  | log i createdAt =>
    simp only [Process.step]
    split
    · next runner featureMap x response hx =>
      exact allGood_set H h (log_good H createdAt (h _ (List.mem_of_getElem? hx)))
    · exact h
  | load env modelPath featureOrderPath =>
    simp only [Process.step]
    split
    · exact h
    · exact h
  | swap j =>
    simp only [Process.step]
    split
    · next newR hj =>
      split_ifs with idle
      · exact fun q hq => good_version H (h q hq) (quiet newR hj idle q hq)
      · exact h
    · exact h

/-- In every run whose swaps are quiet, every response and every record carries the version
of the runner that scored it. -/
theorem attributed_of_quiet (s : Process F V) (as : List (Action F V)) (start : s.requests = [])
    (quiet : Throughout (Process.step H) SwapQuiet s as) :
    Always (Process.step H) (Attributed H) s as := by
  have good : AllGood H s := by
    intro q hq
    rw [start] at hq
    cases hq
  have always := always_of_throughout (Process.step H) (P := AllGood H)
    (fun t a ht ha => step_allGood H ht ha) good quiet
  exact always_imp _ (fun t good q hq => (good q hq).1) always

end Attribution

section Sample

def halfScorer : Scorer Exact Unit := ⟨smallEngine,fun _ => some (1/2),some (1/2)⟩

def smallProcess : Process Exact Unit := ⟨⟨⟨0,[],"c1"⟩,true⟩,[],[]⟩

def smallDurations : Durations Exact := ⟨some 1,some 1,some 2⟩

end Sample

/-- A request that is through before the model changes. -/
theorem attributed_small :
    Always (Process.step halfScorer) (Attributed halfScorer) smallProcess
      [.score 1 (fun _ => none),.infer 0 "p1" smallDurations,.respond 0,.log 0 0,
        .load smallLoad "lgbm_final_model.onnx" "lgbm_onnx_feature_order.json",.swap 0] := by
  refine attributed_of_quiet halfScorer smallProcess _ rfl
    ⟨trivial,trivial,trivial,trivial,trivial,fun newR _ _ q hq runner featureMap x hp => ?_,trivial⟩
  obtain rfl := List.mem_singleton.mp hq
  cases hp

/-- The model changes between the inference and the two version reads. -/
theorem swapped_misattributed :
    ¬Always (Process.step halfScorer) (Attributed halfScorer) smallProcess
      [.score 1 (fun _ => none),.infer 0 "p1" smallDurations,
        .load smallLoad "lgbm_final_model.onnx" "lgbm_onnx_feature_order.json",.swap 0,
        .respond 0,.log 0 0] := by
  intro h
  have last := always_last _ h _ (List.mem_singleton.mpr rfl)
  have wrong : "k1" = "c1" := last.2.2
  revert wrong
  decide

/-- A reload with the process to itself is `Swappable.reload`. -/
theorem load_swap_eq_reload (H : Scorer F V) (s : Process F V) (env : LoadEnv)
    (modelPath featureOrderPath : String) (idle : s.readers = 0) :
    (run (Process.step H) s [.load env modelPath featureOrderPath,
      .swap s.reloads.length]).modelRunner =
        (s.modelRunner.reload H.engine env modelPath featureOrderPath).1 := by
  rw [run_cons, run_cons, run_nil, Swappable.reload]
  cases hc : s.modelRunner.candidate H.engine env modelPath featureOrderPath with
  | error e => simp [Process.step, hc]
  | ok newR =>
    have still : ({ s with reloads := s.reloads ++ [.loaded newR] } : Process F V).readers = 0 :=
      idle
    simp [Process.step, hc, still]

end FraudPlatform.Serving
