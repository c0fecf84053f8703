import FraudPlatform.Drift.Runner
import FraudPlatform.Framework.Reals
import Mathlib.Data.Nat.Choose.Basic

namespace FraudPlatform.Drift

open Framework

variable {F : Type} {S : Scipy F} {cfg : DriftCheck F} {predictions : List (Prediction F)}
  {now : Int}

/-- The hashes of the two windows. -/
def DriftCheck.hashes (cfg : DriftCheck F) (predictions : List (Prediction F)) (now : Int) :
    List String :=
  (cfg.reference predictions now).map (·.featuresHash) ++
    (cfg.recent predictions now).map (·.featuresHash)

theorem mem_fetch {p : Prediction F} : p ∈ cfg.fetch predictions now ↔
    p ∈ predictions ∧ (cfg.inReference p || cfg.inRecent now p) = true := by
  rw [DriftCheck.fetch, List.mem_insertionSort, List.mem_filter]

theorem mem_hashes {hash : String} : hash ∈ cfg.hashes predictions now ↔
    ∃ p ∈ predictions, (cfg.inReference p || cfg.inRecent now p) = true ∧
      p.featuresHash = hash := by
  simp only [DriftCheck.hashes, DriftCheck.reference, DriftCheck.recent, List.mem_append,
    List.mem_map, List.mem_filter, mem_fetch]
  constructor
  · rintro (⟨p, ⟨⟨hp, hw⟩, _⟩, rfl⟩ | ⟨p, ⟨⟨hp, hw⟩, _⟩, rfl⟩)
    · exact ⟨p,hp,hw,rfl⟩
    · exact ⟨p,hp,hw,rfl⟩
  · rintro ⟨p, hp, hw, rfl⟩
    obtain first | second := Bool.or_eq_true_iff.mp hw
    · exact Or.inl ⟨p,⟨⟨hp,hw⟩,first⟩,rfl⟩
    · exact Or.inr ⟨p,⟨⟨hp,hw⟩,second⟩,rfl⟩

variable [Numpy F]

/-- What SciPy documents of `ks_2samp`: its two numbers are in [0,1], or both are NaN. -/
structure Scipy.Documented (S : Scipy F) : Prop where
  ks : ∀ xs ys, (Binary64.isFinite (S.ks2samp xs ys).1 = true ∧
    Binary64.isFinite (S.ks2samp xs ys).2 = true) ∨
    ∀ x, Binary64.lt (S.ks2samp xs ys).2 x = false

/-- The alerts of the two detectors of scores, each left to itself. -/
def DriftCheck.scoreAlerts (cfg : DriftCheck F) (S : Scipy F) (predictions : List (Prediction F))
    (now : Int) : List (DriftAlert F) :=
  (match cfg.psi predictions now with
    | .ok psiVal => cfg.psiAlert now (cfg.reference predictions now).length
        (cfg.recent predictions now).length psiVal
    | .error _ => []) ++
  cfg.ksAlert now (cfg.ks S predictions now)

theorem linspace_length (start stop : F) (num : Nat) :
    (Numpy.linspace start stop num).length = num := by
  unfold Numpy.linspace
  split_ifs with h
  · rw [h]
    rfl
  · rw [List.length_map, List.length_range]

theorem computePsi_nil (recent : List F) (nBins : Nat) :
    computePsi [] recent nBins = .error .indexError := by
  have length := linspace_length (F := F) 0 (Numpy.ofInt 100) (nBins + 1)
  obtain ⟨q, qs, hq⟩ := List.exists_cons_of_length_eq_add_one length
  rw [computePsi, binEdges, hq]
  rfl

theorem computePsi_cons (x : F) (xs recent : List F) (nBins : Nat) :
    ∃ v, computePsi (x :: xs) recent nBins = .ok v := by
  have total (qs : List F) : ∃ vs, qs.mapM (Numpy.percentile (x :: xs)) = some vs := by
    induction qs with
    | nil => exact ⟨[],rfl⟩
    | cons q qs ih =>
      obtain ⟨vs, hvs⟩ := ih
      exact ⟨Numpy.percentileOf x xs q :: vs,by
        rw [List.mapM_cons, hvs]
        rfl⟩
  obtain ⟨quantiles, hq⟩ := total (Numpy.linspace 0 (Numpy.ofInt 100) (nBins + 1))
  have edges : ∃ es, binEdges (x :: xs) nBins = .ok es := by
    unfold binEdges
    rw [hq]
    dsimp only
    split
    · exact ⟨_,rfl⟩
    · exact ⟨_,rfl⟩
  obtain ⟨es, hes⟩ := edges
  refine ⟨psiSum (binFractions (x :: xs) es) (binFractions recent es),?_⟩
  rw [computePsi, hes]
  rfl

theorem psiAlert_finite (nReference nRecent : Nat) (psiVal : F) :
    ∀ a ∈ cfg.psiAlert now nReference nRecent psiVal, a.payload.finite = true := by
  intro a ha
  by_cases fires : Binary64.le cfg.psiWarningThreshold psiVal = true
  · rw [DriftCheck.psiAlert, if_pos fires, List.mem_singleton] at ha
    rw [ha]
    simp
  · rw [DriftCheck.psiAlert, if_neg fires] at ha
    cases ha

theorem jsAlert_finite (nReference nRecent : Nat) (jsVal : F) :
    ∀ a ∈ cfg.jsAlert now nReference nRecent jsVal, a.payload.finite = true := by
  intro a ha
  by_cases fires : Binary64.lt cfg.jsThreshold jsVal = true
  · rw [DriftCheck.jsAlert, if_pos fires, List.mem_singleton] at ha
    rw [ha]
    simp
  · rw [DriftCheck.jsAlert, if_neg fires] at ha
    cases ha

/-- Numbers that exceed their thresholds are no NaN. -/
theorem ksAlert_finite (hS : S.Documented) (xs ys : List F) (pvalueThreshold
    statisticThreshold : F) :
    ∀ a ∈ cfg.ksAlert now (computeKs S xs ys pvalueThreshold statisticThreshold),
      a.payload.finite = true := by
  intro a ha
  by_cases fires : (computeKs S xs ys pvalueThreshold statisticThreshold).flagged = true
  · rw [DriftCheck.ksAlert, if_pos fires, List.mem_singleton] at ha
    rw [ha]
    obtain ⟨statistic, pvalue⟩ | nan := hS.ks xs ys
    · simp [computeKs, statistic, pvalue]
    · simp [computeKs, nan] at fires
  · rw [DriftCheck.ksAlert, if_neg fires] at ha
    cases ha

theorem alerts_of_js {jsVal psiVal : F} (hp : cfg.psi predictions now = .ok psiVal)
    (hj : cfg.js S predictions now = .ok jsVal) :
    cfg.alerts S predictions now = .ok (cfg.scoreAlerts S predictions now ++
      cfg.jsAlert now (cfg.reference predictions now).length
        (cfg.recent predictions now).length jsVal) := by
  rw [DriftCheck.alerts, DriftCheck.scoreAlerts, hp, hj]
  rfl

theorem alerts_error (h : (∃ e, cfg.psi predictions now = .error e) ∨
    ∃ e, cfg.js S predictions now = .error e) : ∃ e, cfg.alerts S predictions now = .error e := by
  cases hp : cfg.psi predictions now with
  | error e =>
    refine ⟨e,?_⟩
    rw [DriftCheck.alerts, hp]
    rfl
  | ok psiVal =>
    obtain ⟨e, he⟩ | ⟨e, he⟩ := h
    · rw [hp] at he
      cases he
    · refine ⟨e,?_⟩
      rw [DriftCheck.alerts, hp, he]
      rfl

/-- With rows in the reference window and hashes that can be read, all the alerts are written. -/
theorem written_of_js (hS : S.Documented) (enough : cfg.skipped predictions now = false)
    (rows : cfg.reference predictions now ≠ []) {jsVal : F}
    (js : cfg.js S predictions now = .ok jsVal) :
    cfg.written S predictions now = cfg.scoreAlerts S predictions now ++
      cfg.jsAlert now (cfg.reference predictions now).length
        (cfg.recent predictions now).length jsVal := by
  obtain ⟨p, ps, hp⟩ := List.exists_cons_of_ne_nil rows
  obtain ⟨psiVal, psi⟩ : ∃ v, cfg.psi predictions now = .ok v := by
    rw [DriftCheck.psi, hp]
    exact computePsi_cons _ _ _ 10
  have alerts := alerts_of_js psi js
  have finite : ∀ a ∈ cfg.scoreAlerts S predictions now ++
      cfg.jsAlert now (cfg.reference predictions now).length
        (cfg.recent predictions now).length jsVal, a.payload.finite = true := by
    intro a ha
    rw [DriftCheck.scoreAlerts, psi] at ha
    obtain score | third := List.mem_append.mp ha
    · obtain first | second := List.mem_append.mp score
      · exact psiAlert_finite _ _ _ a first
      · exact ksAlert_finite hS _ _ _ _ a second
    · exact jsAlert_finite _ _ _ a third
  rw [DriftCheck.written, enough, alerts]
  simp only [List.all_eq_true.mpr finite, if_true]
  rfl

/-- The alerts of the scores are then written, and first. -/
theorem written_eq_append (hS : S.Documented) (enough : cfg.skipped predictions now = false)
    (rows : cfg.reference predictions now ≠ [])
    (readable : ∀ hash ∈ cfg.hashes predictions now, Readable hash) :
    ∃ rest, cfg.written S predictions now = cfg.scoreAlerts S predictions now ++ rest := by
  obtain ⟨jsVal, js⟩ := computeJs_of_readable S readable
  exact ⟨_,written_of_js hS enough rows js⟩

/-- Otherwise the check raises before it writes. -/
theorem written_eq_nil (h : cfg.reference predictions now = [] ∨
    ∃ hash ∈ cfg.hashes predictions now, ¬Readable hash) :
    cfg.written S predictions now = [] := by
  obtain ⟨e, he⟩ : ∃ e, cfg.alerts S predictions now = .error e := by
    apply alerts_error
    obtain empty | ⟨hash, hm, bad⟩ := h
    · left
      rw [DriftCheck.psi, empty]
      exact ⟨_,computePsi_nil _ 10⟩
    · right
      exact ⟨_,computeJs_of_not_readable S hm bad⟩
  rw [DriftCheck.written, he]
  split_ifs <;> rfl

/-- The alerts of the scores are in the table after the check exactly when they were there
before, or the reference window has rows and no hash of the windows is malformed. -/
theorem alerts_written_iff (S : Scipy F) (hS : S.Documented) (cfg : DriftCheck F)
    (predictions : List (Prediction F)) (t : AlertTable F) (now : Int)
    (reference : cfg.minSamples ≤ (cfg.reference predictions now).length)
    (recent : cfg.minSamples ≤ (cfg.recent predictions now).length) :
    (∀ a ∈ cfg.scoreAlerts S predictions now,
      ((runDriftCheck S cfg predictions t now).1.find? a.alertId).isSome) ↔
    (∀ a ∈ cfg.scoreAlerts S predictions now, (t.find? a.alertId).isSome) ∨
      cfg.reference predictions now ≠ [] ∧
      ∀ p ∈ predictions, (cfg.inReference p || cfg.inRecent now p) = true →
        Readable p.featuresHash := by
  have enough : cfg.skipped predictions now = false := by
    simp only [DriftCheck.skipped, Bool.or_eq_false_iff, decide_eq_false_iff_not]
    omega
  rw [runDriftCheck_table]
  constructor
  · intro present
    by_cases ready : cfg.reference predictions now ≠ [] ∧
        ∀ hash ∈ cfg.hashes predictions now, Readable hash
    · right
      exact ⟨ready.1,fun p hp hw => ready.2 _ (mem_hashes.mpr ⟨p,hp,hw,rfl⟩)⟩
    · left
      have blocked : cfg.reference predictions now = [] ∨
          ∃ hash ∈ cfg.hashes predictions now, ¬Readable hash := by
        simpa only [not_and_or, not_not, not_forall, exists_prop, ne_eq] using ready
      rw [written_eq_nil blocked] at present
      exact present
  · intro h a ha
    rw [Table.find?_insertAll, Option.isSome_or, Bool.or_eq_true]
    obtain present | ⟨rows, readable⟩ := h
    · exact Or.inl (present a ha)
    · right
      obtain ⟨rest, written⟩ := written_eq_append hS enough rows fun hash hm => by
        obtain ⟨p, hp, hw, rfl⟩ := mem_hashes.mp hm
        exact readable p hp hw
      rw [written, List.find?_isSome]
      exact ⟨a,List.mem_append_left rest ha,by simp⟩

section Sample

/-- The largest difference of two empirical distributions, in units of one over the product of
the sample sizes. -/
def ksGap (xs ys : List F) : Nat :=
  ((xs ++ ys).map fun x =>
    ((xs.countP (Binary64.le · x) : Int) * ys.length -
      (ys.countP (Binary64.le · x) : Int) * xs.length).natAbs).foldr max 0

/-- The lattice paths to `(i, j)` that stay within a gap of `h`. -/
def insidePaths (n m h : Nat) : Nat → Nat → Nat → Nat
  | 0, _, _ => if 0 < h then 1 else 0
  | steps + 1, i, j =>
    if ((i : Int) * m - j * n).natAbs < h then
      (if 0 < i then insidePaths n m h steps (i - 1) j else 0) +
        (if 0 < j then insidePaths n m h steps i (j - 1) else 0)
    else 0

/-- `ks_2samp` by its exact method. -/
def exactKs (xs ys : List F) : F × F :=
  let n := xs.length
  let m := ys.length
  let h := ksGap xs ys
  (Numpy.ofInt h / Numpy.ofInt (n * m),
    1 - Numpy.ofInt (insidePaths n m h (n + m) n m) / Numpy.ofInt ((n + m).choose n))

/-- The natural-logarithm distance of two distributions. -/
def exactJs (ps qs : List F) : F :=
  let mix := List.zipWith (fun p q => (p + q) / Numpy.ofInt 2) ps qs
  let entropy (xs : List F) := Numpy.sum (List.zipWith (fun x m => x * Numpy.log (x / m)) xs mix)
  Numpy.sqrt ((entropy ps + entropy qs) / Numpy.ofInt 2)

noncomputable def exactScipy : Scipy ℝ := ⟨exactKs,exactJs⟩

theorem exactScipy_documented : exactScipy.Documented := ⟨fun _ _ => Or.inl ⟨rfl,rfl⟩⟩

noncomputable def scoredAt (createdAt : Int) (fraudProbability : ℝ) (featuresHash : String) :
    Prediction ℝ :=
  ⟨"",1,"c1",fraudProbability,true,featuresHash,1,1,2,createdAt⟩

/-- Five scores of 0 in the reference window, five of 1 in the last hour before 7200 s. -/
noncomputable def shifted (lastHash : String) : List (Prediction ℝ) :=
  [scoredAt 1 0 "aa",scoredAt 2 0 "aa",scoredAt 3 0 "aa",scoredAt 4 0 "aa",scoredAt 5 0 "aa",
    scoredAt 4000000000 1 "aa",scoredAt 4000000001 1 "aa",scoredAt 4000000002 1 "aa",
    scoredAt 4000000003 1 "aa",scoredAt 4000000004 1 lastHash]

noncomputable def defaultCheck : DriftCheck ℝ :=
  ⟨0,1000000000,1,5,0.1,0.25,0.01,0.05,0.05⟩

theorem ksGap_shifted : ksGap ([0,0,0,0,0] : List ℝ) [1,1,1,1,1] = 25 := by
  have apart : ¬(1 : ℝ) ≤ 0 := not_le.mpr one_pos
  simp [ksGap, List.countP_cons, apart]

/-- Five scores of 0 against five of 1 exceed both thresholds. -/
theorem shifted_ks {predictions : List (Prediction ℝ)} {now : Int}
    (reference : (defaultCheck.reference predictions now).map (·.fraudProbability) = [0,0,0,0,0])
    (recent : (defaultCheck.recent predictions now).map (·.fraudProbability) = [1,1,1,1,1]) :
    (defaultCheck.ks exactScipy predictions now).flagged = true := by
  have paths : insidePaths 5 5 25 10 5 5 = 250 := by decide
  have all : Nat.choose 10 5 = 252 := by decide
  have ks : exactKs ([0,0,0,0,0] : List ℝ) [1,1,1,1,1] = (1,1 - 250 / 252) := by
    simp only [exactKs, ksGap_shifted, List.length_cons, List.length_nil, paths, all,
      Reals.ofInt_eq]
    norm_num
  rw [DriftCheck.ks, reference, recent]
  simp only [computeKs, exactScipy, ks, defaultCheck, Reals.lt_eq, Bool.and_eq_true,
    decide_eq_true_eq]
  norm_num

end Sample

theorem alerts_written_small :
    (∀ a ∈ defaultCheck.scoreAlerts exactScipy (shifted "aa") 7200000000,
      ((runDriftCheck exactScipy defaultCheck (shifted "aa") .empty 7200000000).1.find?
        a.alertId).isSome) ↔
    (∀ a ∈ defaultCheck.scoreAlerts exactScipy (shifted "aa") 7200000000,
      ((Table.empty : AlertTable ℝ).find? a.alertId).isSome) ∨
      defaultCheck.reference (shifted "aa") 7200000000 ≠ [] ∧
      ∀ p ∈ shifted "aa", (defaultCheck.inReference p || defaultCheck.inRecent 7200000000 p) = true →
        Readable p.featuresHash :=
  alerts_written_iff exactScipy exactScipy_documented defaultCheck (shifted "aa") .empty 7200000000
    (Int.le_refl 5) (Int.le_refl 5)

/-- One hash that is not hexadecimal, and the alert of the scores is lost. -/
theorem malformedHash_silences :
    defaultCheck.minSamples ≤ (defaultCheck.reference (shifted "zz") 7200000000).length ∧
    defaultCheck.minSamples ≤ (defaultCheck.recent (shifted "zz") 7200000000).length ∧
    ¬∀ a ∈ defaultCheck.scoreAlerts exactScipy (shifted "zz") 7200000000,
      ((runDriftCheck exactScipy defaultCheck (shifted "zz") .empty 7200000000).1.find?
        a.alertId).isSome := by
  refine ⟨Int.le_refl 5,Int.le_refl 5,fun present => ?_⟩
  have malformed : "zz" ∈ defaultCheck.hashes (shifted "zz") 7200000000 := by
    refine mem_hashes.mpr ⟨scoredAt 4000000004 1 "zz",?_,rfl,rfl⟩
    simp [shifted]
  rw [runDriftCheck_table, written_eq_nil (Or.inr ⟨"zz",malformed,by decide⟩)] at present
  have fired : (defaultCheck.ks exactScipy (shifted "zz") 7200000000).flagged = true :=
    shifted_ks rfl rfl
  have lost := present _ (List.mem_append_right _ (by
    rw [DriftCheck.ksAlert, if_pos fired]
    exact List.mem_singleton_self _))
  cases lost

end FraudPlatform.Drift
