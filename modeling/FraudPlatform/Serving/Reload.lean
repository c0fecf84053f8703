import FraudPlatform.Framework.Fallible
import FraudPlatform.Serving.Runner

namespace FraudPlatform.Serving

open Framework

variable {V : Type}

theorem featureVec_ok_iff (featureMap : FeatureMap V) (names : List String) :
    (∃ vec, featureVec featureMap names = .ok vec) ↔
      ∀ name ∈ names, (featureMap name).isSome = true := by
  induction names with
  | nil => simp [featureVec]
  | cons name names ih =>
    rw [List.forall_mem_cons, ← ih]
    cases hv : featureMap name with
    | none => simp [featureVec, hv]
    | some v =>
      constructor
      · rintro ⟨vec, h⟩
        refine ⟨rfl,?_⟩
        cases ht : featureVec featureMap names with
        | error e => simp [featureVec, hv, ht, Except.map] at h
        | ok tail => exact ⟨tail,rfl⟩
      · rintro ⟨_, tail, ht⟩
        exact ⟨v :: tail,by rw [featureVec, hv, ht]; rfl⟩

theorem Runner.score_of_featureVec {E : Engine V} {r : Runner} {featureMap : FeatureMap V}
    {vec : List V} (h : featureVec featureMap r.featureOrder = .ok vec) :
    r.score E featureMap = (E.run r.session vec).map fun prob => (prob,E.featureVecHash vec) := by
  unfold Runner.score
  rw [h]
  cases hr : E.run r.session vec with
  | error e => simp [hr, bind, Except.bind, Except.map]
  | ok prob => simp [hr, bind, Except.bind, Except.map, pure, Except.pure]

/-- The break after the fifth name loses names, never the fact that one is missing. -/
theorem missingFeatures_eq_nil_iff (sampleNames missing names : List String) :
    missingFeatures sampleNames missing names = [] ↔
      missing = [] ∧ ∀ name ∈ names, name ∈ sampleNames := by
  induction names generalizing missing with
  | nil => simp [missingFeatures]
  | cons name names ih =>
    rw [missingFeatures]
    split_ifs with present five
    · simp [ih, present]
    · simp [present]
    · simp [ih, present]

theorem validateAgainstSample_ok (sampleNames featureOrder : List String) :
    validateAgainstSample (.ok sampleNames) featureOrder = .ok () ↔
      ∀ name ∈ featureOrder, name ∈ sampleNames := by
  have none_missing := missingFeatures_eq_nil_iff sampleNames [] featureOrder
  rw [eq_self, true_and] at none_missing
  rw [← none_missing]
  by_cases h : missingFeatures sampleNames [] featureOrder = []
  · simp [validateAgainstSample, h, Except.mapError, bind, Except.bind, pure, Except.pure]
  · simp [validateAgainstSample, h, Except.mapError, bind, Except.bind, throw, throwThe,
      MonadExceptOf.throw]

theorem Swappable.candidate_runner {E : Engine V} {env : LoadEnv}
    {modelPath featureOrderPath : String} {s : Swappable} {newR : Runner}
    (h : s.candidate E env modelPath featureOrderPath = .ok newR) :
    newRunner E env modelPath featureOrderPath = .ok newR := by
  obtain ⟨r, hr, h⟩ := bind_eq_ok.mp h
  by_cases hs : s.sampler = true
  · obtain ⟨_, _, h⟩ := bind_eq_ok.mp ((if_pos hs).symm.trans h)
    cases h
    exact hr
  · cases (if_neg hs).symm.trans h
    exact hr

/-- The candidate of a swappable with a sampler has passed the check on a sample. -/
theorem Swappable.candidate_sampled {E : Engine V} {env : LoadEnv}
    {modelPath featureOrderPath : String} {s : Swappable} {newR : Runner}
    (h : s.candidate E env modelPath featureOrderPath = .ok newR) (hs : s.sampler = true) :
    ∃ sampleNames, env.sampleFeatureNames = .ok sampleNames ∧
      ∀ name ∈ newR.featureOrder, name ∈ sampleNames := by
  obtain ⟨r, _, h⟩ := bind_eq_ok.mp h
  obtain ⟨_, hv, h⟩ := bind_eq_ok.mp ((if_pos hs).symm.trans h)
  cases h
  cases hnames : env.sampleFeatureNames with
  | error e => simp [hnames, validateAgainstSample, Except.mapError, bind, Except.bind] at hv
  | ok sampleNames =>
    rw [hnames] at hv
    exact ⟨sampleNames,rfl,(validateAgainstSample_ok _ _).mp hv⟩

/-- The runner answers from the engine: no name of its feature order is missing. -/
def Runner.Answers (E : Engine V) (r : Runner) (featureMap : FeatureMap V) : Prop :=
  ∃ vec, featureVec featureMap r.featureOrder = .ok vec ∧
    r.score E featureMap = (E.run r.session vec).map fun prob => (prob,E.featureVecHash vec)

/-- A reload installs all of the runner that the files give or nothing of it. With a sampler, what
it installed answers every row that has the sample's names; and the check on the sample refuses
exactly the feature orders with a name that the sample lacks. -/
theorem Swappable.reload_sound (E : Engine V) (env : LoadEnv) (modelPath featureOrderPath : String)
    (s : Swappable) :
    (∀ e, (s.reload E env modelPath featureOrderPath).2 = .error e →
      (s.reload E env modelPath featureOrderPath).1 = s) ∧
    (∀ version, (s.reload E env modelPath featureOrderPath).2 = .ok version →
      (s.reload E env modelPath featureOrderPath).1.r.modelVersion = version ∧
      newRunner E env modelPath featureOrderPath =
        .ok (s.reload E env modelPath featureOrderPath).1.r ∧
      (s.sampler = true → ∃ sampleNames, env.sampleFeatureNames = .ok sampleNames ∧
        ∀ featureMap : FeatureMap V, (∀ name ∈ sampleNames, (featureMap name).isSome = true) →
          (s.reload E env modelPath featureOrderPath).1.r.Answers E featureMap)) ∧
    ∀ sampleNames featureOrder,
      (∃ e, validateAgainstSample (.ok sampleNames) featureOrder = .error e) ↔
        ∃ name ∈ featureOrder, name ∉ sampleNames := by
  refine ⟨?_,?_,?_⟩
  · intro e he
    rcases s.reload_cases E env modelPath featureOrderPath with ⟨newR, _, hr⟩ | ⟨e', hr⟩
    · rw [hr] at he
      cases he
    · rw [hr]
  · intro version hv
    rcases s.reload_cases E env modelPath featureOrderPath with ⟨newR, hc, hr⟩ | ⟨e', hr⟩
    · rw [hr] at hv ⊢
      simp only [Except.ok.injEq] at hv
      refine ⟨hv,Swappable.candidate_runner hc,?_⟩
      intro hs
      obtain ⟨sampleNames, hnames, covered⟩ := Swappable.candidate_sampled hc hs
      refine ⟨sampleNames,hnames,?_⟩
      intro featureMap present
      obtain ⟨vec, hvec⟩ := (featureVec_ok_iff featureMap newR.featureOrder).mpr fun name hname =>
        present name (covered name hname)
      exact ⟨vec,hvec,Runner.score_of_featureVec hvec⟩
    · rw [hr] at hv
      cases hv
  · intro sampleNames featureOrder
    have accepted := validateAgainstSample_ok sampleNames featureOrder
    cases hv : validateAgainstSample (.ok sampleNames) featureOrder with
    | ok u =>
      simp only [reduceCtorEq, exists_false, false_iff, not_exists, not_and, not_not]
      exact accepted.mp hv
    | error e =>
      rw [hv] at accepted
      have refused : ¬∀ name ∈ featureOrder, name ∈ sampleNames := fun all =>
        absurd (accepted.mpr all) (by simp)
      push Not at refused
      simpa using refused

end FraudPlatform.Serving
