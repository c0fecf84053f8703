import FraudPlatform.Framework.RealMoments
import FraudPlatform.Shadow.Comparator

namespace FraudPlatform.Shadow

open Framework Reals

/-- How the numbers of a summary fit each other and the rows they sum up. -/
structure Consistent (rows : List (ShadowComparisonRow ℝ)) (s : ShadowSummary ℝ) : Prop where
  count : s.nComparisons = rows.length
  confusion : s.confusion.tp + s.confusion.fp + s.confusion.fn + s.confusion.tn = s.nComparisons
  disagreement : s.disagreementRate * s.nComparisons = (s.confusion.fp + s.confusion.fn : Nat)
  percentiles : 0 ≤ s.absDiffP50 ∧ s.absDiffP50 ≤ s.absDiffP95 ∧ s.absDiffP95 ≤ s.absDiffP99
  largest : ∃ r ∈ rows, (∀ x ∈ rows, absDiff x ≤ absDiff r) ∧ s.absDiffP99 ≤ absDiff r
  undefined : s.correlation = none ↔ rows.length = 1 ∨
    (∀ x ∈ rows, ∀ y ∈ rows, x.championProbability = y.championProbability) ∨
    (∀ x ∈ rows, ∀ y ∈ rows, x.challengerProbability = y.challengerProbability)
  range : ∀ c, s.correlation = some c → -1 ≤ c ∧ c ≤ 1

/-- The row with its two sides exchanged. -/
def exchange {F : Type} (r : ShadowComparisonRow F) : ShadowComparisonRow F :=
  { r with
    championPredictionId := r.challengerPredictionId
    challengerPredictionId := r.championPredictionId
    championProbability := r.challengerProbability
    challengerProbability := r.championProbability
    championFlagged := r.challengerFlagged
    challengerFlagged := r.championFlagged }

/-- The summary with `fp` and `fn` exchanged. -/
def ShadowSummary.exchange {F : Type} (s : ShadowSummary F) : ShadowSummary F :=
  { s with confusion := ⟨s.confusion.tp,s.confusion.fn,s.confusion.fp,s.confusion.tn⟩ }

section Counts

variable {F : Type} (rows : List (ShadowComparisonRow F))

/-- Every row falls in one cell of the matrix, a disagreement in one of two. -/
theorem confusion_total :
    (confusion rows).tp + (confusion rows).fp + (confusion rows).fn + (confusion rows).tn =
        rows.length ∧
      (confusion rows).fp + (confusion rows).fn =
        rows.countP fun r => r.championFlagged != r.challengerFlagged := by
  simp only [confusion]
  induction rows with
  | nil => simp
  | cons r rows ih =>
    simp only [List.countP_cons, List.length_cons]
    cases r.championFlagged <;> cases r.challengerFlagged <;> simp <;> omega

theorem confusion_exchange :
    confusion (rows.map exchange) = ⟨(confusion rows).tp,(confusion rows).fn,(confusion rows).fp,
      (confusion rows).tn⟩ := by
  simp [confusion, exchange, List.countP_map, Function.comp_def, Bool.and_comm]

theorem confusion_perm {rows rows' : List (ShadowComparisonRow F)} (h : rows.Perm rows') :
    confusion rows = confusion rows' := by
  simp only [confusion, h.countP_eq]

end Counts

section Columns

variable {rows rows' : List (ShadowComparisonRow ℝ)}

theorem correlation_eq_none (some : 1 ≤ rows.length) :
    correlation rows = none ↔ rows.length = 1 ∨
      (∀ x ∈ rows, ∀ y ∈ rows, x.championProbability = y.championProbability) ∨
      (∀ x ∈ rows, ∀ y ∈ rows, x.challengerProbability = y.challengerProbability) := by
  have spread (f : ShadowComparisonRow ℝ → ℝ) : 0 < Numpy.std (rows.map f) ↔
      ¬∀ x ∈ rows, ∀ y ∈ rows, f x = f y := by
    rw [std_pos_iff f some]
    push Not
    rfl
  have single : ¬1 < rows.length ↔ rows.length = 1 := by omega
  simp only [correlation, lt_eq, decide_eq_true_eq, spread]
  split_ifs with h
  · have more : rows.length ≠ 1 := by omega
    simp [h, more]
  · rw [not_and_or, not_and_or, not_not, not_not, single] at h
    simpa using h

theorem correlation_range (some : 1 ≤ rows.length) {c : ℝ} (hc : correlation rows = .some c) :
    -1 ≤ c ∧ c ≤ 1 := by
  simp only [correlation] at hc
  split_ifs at hc
  cases hc
  rw [corrcoef_eq _ _ rows some]
  exact abs_le.mp (corrcoef_bounds _ _ rows some)

theorem correlation_perm (h : rows.Perm rows') : correlation rows = correlation rows' := by
  simp only [correlation, h.length_eq, std_perm _ h, corrcoef_perm _ _ h]

theorem correlation_exchange (rows : List (ShadowComparisonRow ℝ)) :
    correlation (rows.map exchange) = correlation rows := by
  have champ : (rows.map exchange).map (·.championProbability) =
      rows.map (·.challengerProbability) := by simp [exchange]
  have chall : (rows.map exchange).map (·.challengerProbability) =
      rows.map (·.championProbability) := by simp [exchange]
  have comm := corrcoef_comm (·.challengerProbability) (·.championProbability) rows
  simp only [correlation, champ, chall, comm, List.length_map]
  congr 1
  rw [and_comm (a := Binary64.lt 0 (Numpy.std (rows.map (·.challengerProbability))) = true)]

theorem absDiff_exchange (r : ShadowComparisonRow ℝ) : absDiff (exchange r) = absDiff r :=
  abs_sub_comm _ _

theorem disagreementRate_perm (h : rows.Perm rows') :
    disagreementRate rows = disagreementRate rows' := by
  rw [disagreementRate, disagreementRate, h.countP_eq, h.length_eq]

theorem disagreementRate_exchange (rows : List (ShadowComparisonRow ℝ)) :
    disagreementRate (rows.map exchange) = disagreementRate rows := by
  simp [disagreementRate, exchange, List.countP_map, Function.comp_def, Bool.bne_eq_xor,
    Bool.xor_comm]

end Columns

section Summary

variable (windowHours now : Int) (r : ShadowComparisonRow ℝ) (rest : List (ShadowComparisonRow ℝ))

theorem summarize_consistent : Consistent (r :: rest) (summarize windowHours now r rest) := by
  have some : 1 ≤ (r :: rest).length := Nat.succ_le_succ (Nat.zero_le _)
  have size : ((r :: rest).length : ℝ) ≠ 0 := Nat.cast_ne_zero.mpr (Nat.one_le_iff_ne_zero.mp some)
  have nonempty : (r :: rest).map absDiff ≠ [] := List.cons_ne_nil _ _
  obtain ⟨total, disagree⟩ := confusion_total (r :: rest)
  refine ⟨rfl,total,?_,⟨?_,?_,?_⟩,?_,correlation_eq_none some,fun c hc => correlation_range some hc⟩
  · change disagreementRate (r :: rest) * ((r :: rest).length : ℝ) =
      (((confusion (r :: rest)).fp + (confusion (r :: rest)).fn : Nat) : ℝ)
    rw [disagreementRate, disagree, ofInt_eq, ofInt_eq, Int.cast_natCast, Int.cast_natCast,
      div_mul_cancel₀ _ size]
  · obtain ⟨lo, hlo, le⟩ := (percentileOf_bounds (absDiff r) (rest.map absDiff)
      (q := Numpy.ofInt 50) (by simp)).1
    obtain ⟨x, _, rfl⟩ := List.mem_map.mp (show lo ∈ (r :: rest).map absDiff from hlo)
    exact (abs_nonneg _).trans le
  · exact percentileOf_monotone _ _ (by simp) (by norm_num)
  · exact percentileOf_monotone _ _ (by simp) (by norm_num)
  · obtain ⟨hi, hhi, le⟩ := (percentileOf_bounds (absDiff r) (rest.map absDiff)
      (q := Numpy.ofInt 99) (by simp)).2
    obtain ⟨mem, top⟩ := greatest_spec nonempty
    obtain ⟨x, hx, eq⟩ := List.mem_map.mp mem
    rw [← eq] at top
    exact ⟨x,hx,fun y hy => top _ (List.mem_map_of_mem hy),le.trans (top hi hhi)⟩

theorem summarize_perm {r' : ShadowComparisonRow ℝ} {rest' : List (ShadowComparisonRow ℝ)}
    (h : (r :: rest).Perm (r' :: rest')) :
    summarize windowHours now r rest = summarize windowHours now r' rest' := by
  have diffs : (absDiff r :: rest.map absDiff).Perm (absDiff r' :: rest'.map absDiff) :=
    h.map absDiff
  have percentile (q : Int) (hq : 0 ≤ q) :
      Numpy.percentileOf (absDiff r) (rest.map absDiff) (Numpy.ofInt q) =
        Numpy.percentileOf (absDiff r') (rest'.map absDiff) (Numpy.ofInt q) :=
    percentileOf_perm diffs (by simpa using hq)
  simp only [summarize, h.length_eq, correlation_perm h, disagreementRate_perm h, confusion_perm h,
    percentile 50 (by decide), percentile 95 (by decide), percentile 99 (by decide)]

theorem summarize_exchange :
    summarize windowHours now (exchange r) (rest.map exchange) =
      (summarize windowHours now r rest).exchange := by
  have map : exchange r :: rest.map exchange = (r :: rest).map exchange := rfl
  simp only [summarize, ShadowSummary.exchange, absDiff_exchange, map, correlation_exchange,
    disagreementRate_exchange, confusion_exchange, List.length_map, List.map_map,
    Function.comp_def]

end Summary

section Windows

variable {comparisons comparisons' : List (ShadowComparisonRow ℝ)} (t : SummaryTable ℝ)
  (windowHours now : Int)

/-- The rows may come in any order. -/
theorem computeShadowSummary_perm (h : comparisons.Perm comparisons') :
    (computeShadowSummary comparisons t windowHours now).2 =
      (computeShadowSummary comparisons' t windowHours now).2 := by
  have windows : (window comparisons windowHours now).Perm (window comparisons' windowHours now) :=
    h.filter _
  unfold computeShadowSummary
  cases hw : window comparisons windowHours now with
  | nil =>
    rw [hw, List.nil_perm] at windows
    rw [windows]
  | cons r rest =>
    cases hw' : window comparisons' windowHours now with
    | nil =>
      rw [hw, hw', List.perm_nil] at windows
      cases windows
    | cons r' rest' =>
      rw [hw, hw'] at windows
      exact congrArg some (summarize_perm windowHours now r rest windows)

theorem computeShadowSummary_exchange (comparisons : List (ShadowComparisonRow ℝ)) :
    (computeShadowSummary (comparisons.map exchange) t windowHours now).2 =
      (computeShadowSummary comparisons t windowHours now).2.map ShadowSummary.exchange := by
  have windows : window (comparisons.map exchange) windowHours now =
      (window comparisons windowHours now).map exchange := by
    rw [window, List.filter_map]
    rfl
  unfold computeShadowSummary
  rw [windows]
  cases window comparisons windowHours now with
  | nil => rfl
  | cons r rest => exact congrArg some (summarize_exchange windowHours now r rest)

/-- A window with rows has a summary that fits them, whatever their order, and both sides are
treated alike. -/
theorem shadow_summary_consistent (comparisons : List (ShadowComparisonRow ℝ))
    (rows : window comparisons windowHours now ≠ []) :
    ∃ s, (computeShadowSummary comparisons t windowHours now).2 = some s ∧
      Consistent (window comparisons windowHours now) s ∧
      (∀ comparisons', comparisons.Perm comparisons' →
        (computeShadowSummary comparisons' t windowHours now).2 = some s) ∧
      (computeShadowSummary (comparisons.map exchange) t windowHours now).2 = some s.exchange := by
  obtain ⟨r, rest, hw⟩ := List.exists_cons_of_ne_nil rows
  have summary : (computeShadowSummary comparisons t windowHours now).2 =
      some (summarize windowHours now r rest) := by
    rw [computeShadowSummary, hw]
  refine ⟨_,summary,?_,fun comparisons' perm => ?_,?_⟩
  · rw [hw]
    exact summarize_consistent windowHours now r rest
  · rw [← summary, computeShadowSummary_perm t windowHours now perm]
  · rw [computeShadowSummary_exchange, summary]
    rfl

/-- Two rows inside the hour before time zero. -/
noncomputable def smallRows : List (ShadowComparisonRow ℝ) :=
  [⟨1,"p1","q1",Numpy.decimal 5 1,Numpy.decimal 25 2,true,false,-1⟩,
    ⟨2,"p2","q2",Numpy.decimal 3 1,Numpy.decimal 2 1,false,false,0⟩]

theorem window_smallRows : window smallRows 1 0 = smallRows := rfl

theorem shadow_summary_consistent_small :
    ∃ s, (computeShadowSummary smallRows Table.empty 1 0).2 = some s ∧ Consistent smallRows s := by
  obtain ⟨s, summary, fits, _⟩ := shadow_summary_consistent Table.empty 1 0 smallRows
    (by rw [window_smallRows]; exact List.cons_ne_nil _ _)
  exact ⟨s,summary,fits⟩

end Windows

end FraudPlatform.Shadow
