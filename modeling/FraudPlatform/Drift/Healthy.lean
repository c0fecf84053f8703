import Mathlib.Analysis.Complex.ExponentialBounds
import FraudPlatform.Drift.Weights

namespace FraudPlatform.Drift

open Framework Divergence Reals

/-- Enough different hashes in both windows, and in no bucket do the counts differ by two. -/
structure Healthy (reference recent : List String) : Prop where
  enough : 200 ≤ reference.length ∧ 200 ≤ recent.length
  distinct : reference.Nodup ∧ recent.Nodup
  valid : (∀ hash ∈ reference, (firstByte hash).isSome) ∧ ∀ hash ∈ recent, (firstByte hash).isSome
  close : ∀ i < nBuckets, occurrences reference i ≤ occurrences recent i + 1 ∧
    occurrences recent i ≤ occurrences reference i + 1

/-- How far the shares of two windows are apart. -/
noncomputable def apart (reference recent : List String) : ℝ :=
  ∑ i ∈ Finset.range nBuckets,
    (share reference i - share recent i) ^ 2 / (share reference i + share recent i)

def DriftCheck.refHashes {F : Type} (cfg : DriftCheck F) (predictions : List (Prediction F))
    (now : Int) : List String :=
  (cfg.reference predictions now).map (·.featuresHash)

def DriftCheck.recHashes {F : Type} (cfg : DriftCheck F) (predictions : List (Prediction F))
    (now : Int) : List String :=
  (cfg.recent predictions now).map (·.featuresHash)

/-- The value is within the threshold, and the check writes no alert of it. -/
def DriftCheck.Quiet (cfg : DriftCheck ℝ) (S : Scipy ℝ) (predictions : List (Prediction ℝ))
    (now : Int) : Prop :=
  (∃ v, cfg.js S predictions now = .ok v ∧ v ≤ cfg.jsThreshold) ∧
    ∀ a ∈ cfg.written S predictions now, a.detectorName ≠ "js"

section Value

variable {reference recent : List String}

theorem Healthy.nonempty (h : Healthy reference recent) : reference ≠ [] ∧ recent ≠ [] := by
  obtain ⟨left, right⟩ := h.enough
  constructor
  · rintro rfl
    cases left
  · rintro rfl
    cases right

theorem discrimination_eq (h : Healthy reference recent) :
    discrimination (smoothed reference) (smoothed recent) = apart reference recent := by
  rw [discrimination, smoothed_eq h.valid.1 h.nonempty.1, smoothed_eq h.valid.2 h.nonempty.2,
    List.zipWith_map, List.zipWith_self]
  rfl

theorem sqrt_le_threshold (x : ℝ) : √x ≤ Numpy.decimal 5 2 ↔ 2 * x ≤ 1 / 200 := by
  have threshold : (Numpy.decimal 5 2 : ℝ) = 1 / 20 := by
    rw [decimal_eq]
    norm_num
  rw [threshold, Real.sqrt_le_iff]
  constructor
  · intro both
    obtain ⟨_, le⟩ := both
    linarith
  · intro le
    constructor <;> linarith

/-- Twice the divergence is between a half of it and `log 2` times it. -/
theorem apart_bounds (h : Healthy reference recent) :
    (apart reference recent ≤ 1 / 139 →
      2 * divergence (smoothed reference) (smoothed recent) ≤ 1 / 200) ∧
    (1 / 100 < apart reference recent →
      1 / 200 < 2 * divergence (smoothed reference) (smoothed recent)) := by
  have pair := (smoothed_distribution reference).pair (smoothed_distribution recent)
  obtain ⟨low, high⟩ := divergence_bounds pair
  rw [discrimination_eq h] at low high
  have logTwo := Real.log_two_lt_d9
  have positive : 0 < Real.log 2 := Real.log_pos one_lt_two
  constructor
  · intro near
    have product := mul_le_mul_of_nonneg_right near (half_pos positive).le
    linarith
  · intro far
    linarith

end Value

section Alerts

variable {F : Type} [Numpy F] {S : Scipy F} {cfg : DriftCheck F}
  {predictions : List (Prediction F)} {now : Int}

theorem mem_written {a : DriftAlert F} (ha : a ∈ cfg.written S predictions now) :
    ∃ alerts, cfg.alerts S predictions now = .ok alerts ∧ a ∈ alerts := by
  unfold DriftCheck.written at ha
  split_ifs at ha
  · cases ha
  · cases h : cfg.alerts S predictions now with
    | error e =>
      rw [h] at ha
      cases ha
    | ok alerts =>
      rw [h] at ha
      dsimp only at ha
      split_ifs at ha
      · exact ⟨alerts,rfl,ha⟩
      · cases ha

theorem scoreAlerts_name : ∀ a ∈ cfg.scoreAlerts S predictions now, a.detectorName ≠ "js" := by
  intro a ha
  obtain first | second := List.mem_append.mp ha
  · cases hp : cfg.psi predictions now with
    | error e =>
      rw [hp] at first
      cases first
    | ok psiVal =>
      rw [hp] at first
      change a ∈ cfg.psiAlert now _ _ psiVal at first
      by_cases fires : Binary64.le cfg.psiWarningThreshold psiVal = true
      · rw [DriftCheck.psiAlert, if_pos fires, List.mem_singleton] at first
        rw [first]
        simp
      · rw [DriftCheck.psiAlert, if_neg fires] at first
        cases first
  · unfold DriftCheck.ksAlert at second
    split_ifs at second
    · rw [List.mem_singleton.mp second]
      simp
    · cases second

/-- Below the threshold the alert of the hashes is not written, whatever else happens. -/
theorem js_not_written {jsVal : F} (js : cfg.js S predictions now = .ok jsVal)
    (below : Binary64.lt cfg.jsThreshold jsVal = false) :
    ∀ a ∈ cfg.written S predictions now, a.detectorName ≠ "js" := by
  intro a ha
  obtain ⟨alerts, raised, hm⟩ := mem_written ha
  cases hp : cfg.psi predictions now with
  | error e =>
    obtain ⟨e', he⟩ := alerts_error (S := S) (Or.inl ⟨e,hp⟩)
    rw [he] at raised
    cases raised
  | ok psiVal =>
    have none : cfg.jsAlert now (cfg.reference predictions now).length
        (cfg.recent predictions now).length jsVal = [] := by
      rw [DriftCheck.jsAlert, below]
      rfl
    rw [alerts_of_js hp js, none, List.append_nil, Except.ok.injEq] at raised
    rw [← raised] at hm
    exact scoreAlerts_name a hm

/-- Above it the alert is written, when the windows have the rows the check asks for. -/
theorem js_written (hS : S.Documented) (enough : cfg.skipped predictions now = false)
    (rows : cfg.reference predictions now ≠ []) {jsVal : F}
    (js : cfg.js S predictions now = .ok jsVal)
    (above : Binary64.lt cfg.jsThreshold jsVal = true) :
    ∃ a ∈ cfg.written S predictions now, a.detectorName = "js" := by
  rw [written_of_js hS enough rows js, DriftCheck.jsAlert, if_pos above]
  exact ⟨_,List.mem_append_right _ List.mem_cons_self,rfl⟩

end Alerts

section Check

variable {S : Scipy ℝ} {cfg : DriftCheck ℝ} {predictions : List (Prediction ℝ)} {now : Int}

/-- Exact arithmetic has no NaN to hand out. -/
theorem documented (S : Scipy ℝ) : S.Documented := ⟨fun _ _ => Or.inl ⟨rfl,rfl⟩⟩

theorem not_skipped (minSamples : cfg.minSamples = 200)
    (healthy : Healthy (cfg.refHashes predictions now) (cfg.recHashes predictions now)) :
    cfg.skipped predictions now = false ∧ cfg.reference predictions now ≠ [] := by
  obtain ⟨left, right⟩ := healthy.enough
  rw [DriftCheck.refHashes, List.length_map] at left
  rw [DriftCheck.recHashes, List.length_map] at right
  constructor
  · simp only [DriftCheck.skipped, minSamples, Bool.or_eq_false_iff, decide_eq_false_iff_not]
    omega
  · intro none
    rw [none] at left
    cases left

theorem js_healthy (hS : S.ExactJs)
    (healthy : Healthy (cfg.refHashes predictions now) (cfg.recHashes predictions now)) :
    cfg.js S predictions now = .ok √(divergence (smoothed (cfg.refHashes predictions now))
      (smoothed (cfg.recHashes predictions now))) :=
  js_eq hS (hexadecimal_of_bucketed healthy.valid.1) (hexadecimal_of_bucketed healthy.valid.2)

theorem quiet_iff_divergence (hS : S.ExactJs) (threshold : cfg.jsThreshold = Numpy.decimal 5 2)
    (healthy : Healthy (cfg.refHashes predictions now) (cfg.recHashes predictions now)) :
    cfg.Quiet S predictions now ↔ 2 * divergence (smoothed (cfg.refHashes predictions now))
      (smoothed (cfg.recHashes predictions now)) ≤ 1 / 200 := by
  have value := js_healthy hS healthy
  rw [← sqrt_le_threshold, ← threshold]
  constructor
  · intro found
    obtain ⟨⟨v, js, le⟩, _⟩ := found
    rw [value, Except.ok.injEq] at js
    rwa [js]
  · intro le
    refine ⟨⟨_,value,le⟩,js_not_written value ?_⟩
    rw [lt_eq, decide_eq_false_iff_not]
    exact not_lt.mpr le

theorem alarm_of_divergence (hS : S.ExactJs) (minSamples : cfg.minSamples = 200)
    (threshold : cfg.jsThreshold = Numpy.decimal 5 2)
    (healthy : Healthy (cfg.refHashes predictions now) (cfg.recHashes predictions now))
    (far : 1 / 200 < 2 * divergence (smoothed (cfg.refHashes predictions now))
      (smoothed (cfg.recHashes predictions now))) :
    ∃ a ∈ cfg.written S predictions now, a.detectorName = "js" := by
  obtain ⟨enough, rows⟩ := not_skipped minSamples healthy
  refine js_written (documented S) enough rows (js_healthy hS healthy) ?_
  rw [lt_eq, decide_eq_true_eq, ← not_le, threshold, sqrt_le_threshold]
  exact not_le.mpr far

/-- Healthy windows leave the check quiet as long as their shares are close, and raise the alert
where they are not. -/
theorem healthy_quiet (hS : S.ExactJs) (minSamples : cfg.minSamples = 200)
    (threshold : cfg.jsThreshold = Numpy.decimal 5 2)
    (healthy : Healthy (cfg.refHashes predictions now) (cfg.recHashes predictions now)) :
    (apart (cfg.refHashes predictions now) (cfg.recHashes predictions now) ≤ 1 / 139 →
      cfg.Quiet S predictions now) ∧
    (1 / 100 < apart (cfg.refHashes predictions now) (cfg.recHashes predictions now) →
      ¬cfg.Quiet S predictions now) ∧
    (¬cfg.Quiet S predictions now →
      ∃ a ∈ cfg.written S predictions now, a.detectorName = "js") := by
  obtain ⟨near, far⟩ := apart_bounds healthy
  rw [quiet_iff_divergence hS threshold healthy, not_le]
  exact ⟨near,far,alarm_of_divergence hS minSamples threshold healthy⟩

end Check

section Sample

theorem Healthy.of_perm {reference reference' recent recent' : List String}
    (h : Healthy reference recent) (left : reference'.Perm reference)
    (right : recent'.Perm recent) : Healthy reference' recent' := by
  constructor
  · rw [left.length_eq, right.length_eq]
    exact h.enough
  · rw [left.nodup_iff, right.nodup_iff]
    exact h.distinct
  · exact ⟨fun hash hm => h.valid.1 hash (left.mem_iff.mp hm),
      fun hash hm => h.valid.2 hash (right.mem_iff.mp hm)⟩
  · rw [occurrences_perm left, occurrences_perm right]
    exact h.close

/-- The defaults, after the first quarter of an hour of 1970. -/
noncomputable def hourlyCheck : DriftCheck ℝ :=
  ⟨0,1000000000,1,200,Numpy.decimal 1 1,Numpy.decimal 25 2,Numpy.decimal 1 2,Numpy.decimal 5 2,
    Numpy.decimal 5 2⟩

/-- Rows of hashes of `n` different buckets. -/
noncomputable def rowsFrom (start : Int) (first n : Nat) : List (Prediction ℝ) :=
  (List.range' first n).map fun i : Nat => scoredAt (start + i) 0 (hashOf i)

/-- The reference has the first `m` buckets, the recent window `n` buckets from `first` on. -/
noncomputable def twoWindows (m first n : Nat) : List (Prediction ℝ) :=
  rowsFrom 0 0 m ++ rowsFrom 4000000000 first n

theorem hashes_rowsFrom (start : Int) (first n : Nat) :
    (rowsFrom start first n).map (·.featuresHash) = hashesFrom first n := by
  rw [rowsFrom, List.map_map]
  rfl

theorem filter_rowsFrom {window : Prediction ℝ → Bool} {start : Int} {first n : Nat} {kept : Bool}
    (h : ∀ i < first + n, window (scoredAt (start + i) 0 (hashOf i)) = kept) :
    (rowsFrom start first n).filter window = if kept then rowsFrom start first n else [] := by
  have each : ∀ p ∈ rowsFrom start first n, window p = kept := by
    intro p hp
    obtain ⟨i, hi, rfl⟩ := List.mem_map.mp hp
    exact h i (List.mem_range'_1.mp hi).2
  cases kept with
  | true => exact List.filter_eq_self.mpr each
  | false =>
    apply List.filter_eq_nil_iff.mpr
    intro p hp
    rw [each p hp]
    exact Bool.false_ne_true

theorem filter_fetch_perm (cfg : DriftCheck ℝ) (predictions : List (Prediction ℝ)) (now : Int)
    (window : Prediction ℝ → Bool)
    (fetched : ∀ p, window p = true → (cfg.inReference p || cfg.inRecent now p) = true) :
    ((cfg.fetch predictions now).filter window).Perm (predictions.filter window) := by
  have sorted := (List.perm_insertionSort (fun p q : Prediction ℝ => p.createdAt ≤ q.createdAt)
    (predictions.filter fun p => cfg.inReference p || cfg.inRecent now p)).filter window
  rw [List.filter_filter] at sorted
  refine sorted.trans (List.Perm.of_eq (List.filter_congr fun p _ => ?_))
  cases inside : window p with
  | false => rfl
  | true => rw [fetched p inside, Bool.and_self]

variable {m first n : Nat}

theorem inReference_hourly (createdAt : Int) (hash : String) :
    hourlyCheck.inReference (scoredAt createdAt 0 hash) =
      decide (0 ≤ createdAt ∧ createdAt ≤ 1000000000) := by
  rw [Bool.decide_and]
  rfl

theorem inRecent_hourly (createdAt : Int) (hash : String) :
    hourlyCheck.inRecent 7200000000 (scoredAt createdAt 0 hash) =
      decide (3600000000 ≤ createdAt ∧ createdAt ≤ 7200000000) := by
  rw [Bool.decide_and]
  rfl

theorem refHashes_twoWindows (hm : m ≤ nBuckets) :
    (hourlyCheck.refHashes (twoWindows m first n) 7200000000).Perm (hashesFrom 0 m) := by
  have own : ∀ i < 0 + m,
      hourlyCheck.inReference (scoredAt (0 + (i : Nat)) 0 (hashOf i)) = true := by
    intro i hi
    unfold nBuckets at hm
    rw [inReference_hourly, decide_eq_true_eq]
    omega
  have other : ∀ i < first + n,
      hourlyCheck.inReference (scoredAt (4000000000 + (i : Nat)) 0 (hashOf i)) = false := by
    intro i hi
    rw [inReference_hourly, decide_eq_false_iff_not]
    omega
  have perm := (filter_fetch_perm hourlyCheck (twoWindows m first n) 7200000000
    hourlyCheck.inReference fun p inside => by rw [inside, Bool.true_or]).map (·.featuresHash)
  rw [twoWindows, List.filter_append, filter_rowsFrom own, filter_rowsFrom other, if_pos rfl,
    if_neg Bool.false_ne_true, List.append_nil, hashes_rowsFrom] at perm
  exact perm

theorem recHashes_twoWindows (hm : m ≤ nBuckets) (hn : first + n ≤ nBuckets) :
    (hourlyCheck.recHashes (twoWindows m first n) 7200000000).Perm (hashesFrom first n) := by
  unfold nBuckets at hm hn
  have other : ∀ i < 0 + m,
      hourlyCheck.inRecent 7200000000 (scoredAt (0 + (i : Nat)) 0 (hashOf i)) = false := by
    intro i hi
    rw [inRecent_hourly, decide_eq_false_iff_not]
    omega
  have own : ∀ i < first + n,
      hourlyCheck.inRecent 7200000000 (scoredAt (4000000000 + (i : Nat)) 0 (hashOf i)) = true := by
    intro i hi
    rw [inRecent_hourly, decide_eq_true_eq]
    omega
  have perm := (filter_fetch_perm hourlyCheck (twoWindows m first n) 7200000000
    (hourlyCheck.inRecent 7200000000)
    fun p inside => by rw [inside, Bool.or_true]).map (·.featuresHash)
  rw [twoWindows, List.filter_append, filter_rowsFrom other, filter_rowsFrom own, if_pos rfl,
    if_neg Bool.false_ne_true, List.nil_append, hashes_rowsFrom] at perm
  exact perm

theorem healthy_twoWindows (enough : 200 ≤ m ∧ 200 ≤ n) (hm : m ≤ nBuckets)
    (hn : first + n ≤ nBuckets) :
    Healthy (hourlyCheck.refHashes (twoWindows m first n) 7200000000)
      (hourlyCheck.recHashes (twoWindows m first n) 7200000000) := by
  have left : 0 + m ≤ nBuckets := by rwa [Nat.zero_add]
  refine Healthy.of_perm ?_ (refHashes_twoWindows hm) (recHashes_twoWindows hm hn)
  refine ⟨?_,⟨nodup_hashesFrom left,nodup_hashesFrom hn⟩,
    ⟨valid_hashesFrom left,valid_hashesFrom hn⟩,?_⟩
  · rw [length_hashesFrom, length_hashesFrom]
    exact enough
  · intro i _
    rw [occurrences_hashesFrom left, occurrences_hashesFrom hn]
    constructor <;> split_ifs <;> omega

theorem apart_twoWindows (hm : m ≤ nBuckets) (hn : first + n ≤ nBuckets) :
    apart (hourlyCheck.refHashes (twoWindows m first n) 7200000000)
      (hourlyCheck.recHashes (twoWindows m first n) 7200000000) =
      apart (hashesFrom 0 m) (hashesFrom first n) := by
  rw [apart, share_perm (refHashes_twoWindows hm), share_perm (recHashes_twoWindows hm hn), ← apart]

theorem share_hashesFrom (h : first + n ≤ nBuckets) (i : Nat) :
    share (hashesFrom first n) i = (if first ≤ i ∧ i < first + n then 1 / (n : ℝ) else 1 / 1000000) /
      (1 + (nBuckets - n : Nat) / 1000000) := by
  rw [share, weight, empties_hashesFrom h, occurrences_hashesFrom h, length_hashesFrom]
  by_cases inside : first ≤ i ∧ i < first + n
  · simp [inside]
  · simp [inside]

/-- A window of all the buckets, and one that misses the first of them. -/
theorem apart_close : apart (hashesFrom 0 256) (hashesFrom 1 255) ≤ 1 / 139 := by
  have left : 0 + 256 ≤ nBuckets := by decide
  have right : 1 + 255 ≤ nBuckets := by decide
  have own (i : Nat) (hi : i < 256) : share (hashesFrom 0 256) i = 1 / 256 := by
    rw [share_hashesFrom left, if_pos (by omega)]
    norm_num [nBuckets]
  have others (i : Nat) (hi : i < 255) :
      share (hashesFrom 1 255) (i + 1) = 1 / 255 / (1 + 1 / 1000000) := by
    rw [share_hashesFrom right, if_pos (by omega)]
    norm_num [nBuckets]
  have first : share (hashesFrom 1 255) 0 = 1 / 1000000 / (1 + 1 / 1000000) := by
    rw [share_hashesFrom right, if_neg (by omega)]
    norm_num [nBuckets]
  rw [apart, nBuckets, Finset.sum_range_succ', first, own 0 (by decide),
    Finset.sum_congr rfl fun i hi => by
      have inside := Finset.mem_range.mp hi
      rw [own (i + 1) (by omega), others i inside],
    Finset.sum_const, Finset.card_range]
  norm_num

/-- The 56 buckets that only the reference has are enough. -/
theorem apart_far : 1 / 100 < apart (hashesFrom 0 200) (hashesFrom 56 200) := by
  have left : 0 + 200 ≤ nBuckets := by decide
  have right : 56 + 200 ≤ nBuckets := by decide
  have own (i : Nat) (hi : i < 56) : share (hashesFrom 0 200) i = 1 / 200 / (1 + 56 / 1000000) := by
    rw [share_hashesFrom left, if_pos (by omega)]
    norm_num [nBuckets]
  have other (i : Nat) (hi : i < 56) :
      share (hashesFrom 56 200) i = 1 / 1000000 / (1 + 56 / 1000000) := by
    rw [share_hashesFrom right, if_neg (by omega)]
    norm_num [nBuckets]
  have nonneg (i : Nat) : 0 ≤ (share (hashesFrom 0 200) i - share (hashesFrom 56 200) i) ^ 2 /
      (share (hashesFrom 0 200) i + share (hashesFrom 56 200) i) :=
    div_nonneg (sq_nonneg _) (add_nonneg (share_nonneg _ i) (share_nonneg _ i))
  have subset : Finset.range 56 ⊆ Finset.range nBuckets :=
    Finset.range_subset_range.mpr (by decide)
  refine lt_of_lt_of_le ?_ (Finset.sum_le_sum_of_subset_of_nonneg subset fun i _ _ => nonneg i)
  rw [Finset.sum_congr rfl fun i hi => by
    rw [own i (Finset.mem_range.mp hi), other i (Finset.mem_range.mp hi)], Finset.sum_const,
    Finset.card_range]
  norm_num

end Sample

/-- One bucket of 256 empty in the recent window only leaves the check quiet. -/
theorem healthy_quiet_close :
    Healthy (hourlyCheck.refHashes (twoWindows 256 1 255) 7200000000)
      (hourlyCheck.recHashes (twoWindows 256 1 255) 7200000000) ∧
    hourlyCheck.Quiet exactScipy (twoWindows 256 1 255) 7200000000 := by
  have whole : 256 ≤ nBuckets := by decide
  have room : 1 + 255 ≤ nBuckets := by decide
  have minSamples : hourlyCheck.minSamples = 200 := rfl
  have healthy := healthy_twoWindows (by decide) whole room
  obtain ⟨quiet, _⟩ := healthy_quiet exactScipy_exactJs minSamples rfl healthy
  refine ⟨healthy,quiet ?_⟩
  rw [apart_twoWindows whole room]
  exact apart_close

/-- Two windows of 200 different hashes each, no bucket with more than one of them, and the alert
is written. -/
theorem healthy_alarm :
    Healthy (hourlyCheck.refHashes (twoWindows 200 56 200) 7200000000)
      (hourlyCheck.recHashes (twoWindows 200 56 200) 7200000000) ∧
    ¬hourlyCheck.Quiet exactScipy (twoWindows 200 56 200) 7200000000 ∧
    ∃ a ∈ hourlyCheck.written exactScipy (twoWindows 200 56 200) 7200000000,
      a.detectorName = "js" := by
  have enough : 200 ≤ nBuckets := by decide
  have room : 56 + 200 ≤ nBuckets := by decide
  have healthy := healthy_twoWindows (by decide) enough room
  have far := (apart_bounds healthy).2
  rw [apart_twoWindows enough room] at far
  refine ⟨healthy,?_,alarm_of_divergence exactScipy_exactJs rfl rfl healthy (far apart_far)⟩
  rw [quiet_iff_divergence exactScipy_exactJs rfl healthy]
  exact not_le.mpr (far apart_far)

end FraudPlatform.Drift
