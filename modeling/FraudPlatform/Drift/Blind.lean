import FraudPlatform.Drift.Psi

namespace FraudPlatform.Drift

open Framework Reals

/-- The least and the greatest of the scores. -/
structure Spread (reference : List ℝ) (lo hi : ℝ) : Prop where
  least : lo ∈ reference
  greatest : hi ∈ reference
  bounds : ∀ x ∈ reference, lo ≤ x ∧ x ≤ hi

/-- Among the sorted scores the place of the quantile, in steps of `1 / nBins`, is within the
run of the least score or within that of the greatest. -/
def OnRun (reference : List ℝ) (lo hi : ℝ) (nBins j : Nat) : Prop :=
  (reference.length - 1) * j ≤ nBins * (reference.count lo - 1) ∨
    nBins * reference.countP (fun x => decide (x < hi)) ≤ (reference.length - 1) * j

/-- The scores differ, but every quantile is the least or the greatest of them. -/
def Blind (reference : List ℝ) (nBins : Nat) : Prop :=
  ∃ lo hi, Spread reference lo hi ∧ lo < hi ∧ ∀ j ≤ nBins, OnRun reference lo hi nBins j

/-- Some recent scores have a positive index. -/
def Sighted (reference : List ℝ) (nBins : Nat) : Prop :=
  ∃ recent, Scores recent ∧ ∃ psi, computePsi reference recent nBins = .ok psi ∧ 0 < psi

variable {reference recent edges : List ℝ} {nBins : Nat}

/-- With two bins, scores at the two ends of the unit interval give different fractions. -/
theorem fractions_differ (h : Covers edges) (two : 3 ≤ edges.length) :
    binFractions [(0 : ℝ)] edges ≠ binFractions [(1 : ℝ)] edges := by
  obtain ⟨b, rest, rfl, last⟩ := h.shape
  cases rest with
  | nil => simp at two
  | cons c rest =>
    have zeroFirst : InBin (0 :: b :: c :: rest) 0 0 :=
      inBin_zero.mpr ⟨le_rfl,List.rel_of_pairwise_cons h.increasing List.mem_cons_self⟩
    have oneNotFirst : ¬InBin (0 :: b :: c :: rest) 0 1 := by
      intro inFirst
      have below := (inBin_zero.mp inFirst).2
      have upper : b ≤ 1 := h.le_one (List.mem_cons_of_mem 0 List.mem_cons_self)
      exact absurd below (not_lt.mpr upper)
    intro same
    rw [binFractions_eq h (List.cons_ne_nil _ _), binFractions_eq h (List.cons_ne_nil _ _)] at same
    have first := List.map_inj_left.mp same 0 (List.mem_range.mpr (by simp))
    rw [fraction, fraction, countWhere_cons_pos zeroFirst, countWhere_cons_neg oneNotFirst] at first
    norm_num [decimal_eq] at first

theorem sighted_of_two_bins (ref : Scores reference) (ok : binEdges reference nBins = .ok edges)
    (h : Covers edges) (two : 3 ≤ edges.length) : Sighted reference nBins := by
  have low : Scores [(0 : ℝ)] := scores_singleton le_rfl zero_le_one
  have high : Scores [(1 : ℝ)] := scores_singleton zero_le_one le_rfl
  by_cases same : binFractions reference edges = binFractions [(0 : ℝ)] edges
  · obtain ⟨nonneg, zero⟩ := psiSum_fractions h ref high
    refine ⟨[1],high,_,computePsi_of_edges ok,lt_of_le_of_ne nonneg ?_⟩
    intro none
    exact fractions_differ h two (same.symm.trans (zero.mp none.symm))
  · obtain ⟨nonneg, zero⟩ := psiSum_fractions h ref low
    refine ⟨[0],low,_,computePsi_of_edges ok,lt_of_le_of_ne nonneg ?_⟩
    intro none
    exact same (zero.mp none.symm)

/-- In a single bin every sample has the fraction one. -/
theorem not_sighted_of_one_bin (ref : Scores reference) (ok : binEdges reference nBins = .ok edges)
    (h : Covers edges) (one : edges.length = 2) : ¬Sighted reference nBins := by
  rintro ⟨recent, rec, psi, hpsi, positive⟩
  have whole {sample : List ℝ} (scores : Scores sample) : binFractions sample edges = [1] := by
    have length : (sample.length : ℝ) ≠ 0 := by
      rw [ne_eq, Nat.cast_eq_zero, List.length_eq_zero_iff]
      exact scores.nonempty
    have total := (binned h scores).total
    rw [(binned h scores).counted, one] at total
    have count : countWhere (InBin edges 0) sample = sample.length := by
      simpa using total
    have range : List.range (2 - 1) = [0] := rfl
    rw [binFractions_eq h scores.nonempty, one, range, List.map_singleton, fraction, count,
      div_self length, if_neg (by simpa using scores.nonempty)]
  have zero := (psiSum_fractions h ref rec).2.mpr ((whole ref).trans (whole rec).symm)
  rw [computePsi_of_edges ok, zero, Except.ok.injEq] at hpsi
  exact absurd positive (by rw [← hpsi]; exact lt_irrefl 0)

section Quantiles

variable {lo hi : ℝ}

/-- The place of a quantile, as far as the run of the least score goes. -/
theorem quantile_eq_least (hne : reference ≠ []) (bound : ∀ x ∈ reference, lo ≤ x)
    (mem : lo ∈ reference) (spread : lo < greatest reference) (positive : 1 ≤ nBins) (j : Nat) :
    interpolate (orderStatistic reference) (((reference.length - 1 : Nat) : ℝ) * j / nBins) = lo ↔
      (reference.length - 1) * j ≤ nBins * (reference.count lo - 1) := by
  have hn : (0 : ℝ) < nBins := by exact_mod_cast positive
  have some : 1 ≤ reference.count lo := List.count_pos_iff.mpr mem
  have place : (0 : ℝ) ≤ ((reference.length - 1 : Nat) : ℝ) * j / nBins := by positivity
  rw [interpolate_eq_least (orderStatistic_monotone hne) place some
    (orderStatistic_eq_least hne bound spread), div_le_iff₀ hn]
  have cast : ((reference.count lo : ℝ) - 1) = ((reference.count lo - 1 : Nat) : ℝ) := by
    rw [Nat.cast_sub some, Nat.cast_one]
  rw [cast, mul_comm _ (nBins : ℝ)]
  exact_mod_cast Iff.rfl

theorem quantile_eq_greatest (hne : reference ≠ []) (positive : 1 ≤ nBins) (j : Nat) :
    interpolate (orderStatistic reference) (((reference.length - 1 : Nat) : ℝ) * j / nBins) =
        greatest reference ↔
      nBins * reference.countP (fun x => decide (x < greatest reference)) ≤
        (reference.length - 1) * j := by
  have hn : (0 : ℝ) < nBins := by exact_mod_cast positive
  have place : (0 : ℝ) ≤ ((reference.length - 1 : Nat) : ℝ) * j / nBins := by positivity
  have bound (i : Nat) := (greatest_spec hne).2 _ (orderStatistic_mem hne i)
  rw [interpolate_eq_greatest place bound (orderStatistic_eq_greatest hne), le_div_iff₀ hn,
    mul_comm _ (nBins : ℝ)]
  exact_mod_cast Iff.rfl

theorem spread_exists (hne : reference ≠ []) : ∃ lo hi, Spread reference lo hi :=
  ⟨orderStatistic reference 0,greatest reference,orderStatistic_mem hne 0,(greatest_spec hne).1,
    fun x hx => ⟨orderStatistic_zero_le hx,(greatest_spec hne).2 x hx⟩⟩

theorem Spread.greatest_eq (h : Spread reference lo hi) : Reals.greatest reference = hi :=
  Reals.greatest_eq (List.ne_nil_of_mem h.least) h.greatest fun x hx => (h.bounds x hx).2

theorem quantile_on_run (h : Spread reference lo hi) (wide : lo < hi) (positive : 1 ≤ nBins)
    (j : Nat) :
    (interpolate (orderStatistic reference) (((reference.length - 1 : Nat) : ℝ) * j / nBins) = lo ∨
      interpolate (orderStatistic reference) (((reference.length - 1 : Nat) : ℝ) * j / nBins) = hi) ↔
      OnRun reference lo hi nBins j := by
  have hne : reference ≠ [] := List.ne_nil_of_mem h.least
  have low := quantile_eq_least hne (fun x hx => (h.bounds x hx).1) h.least
    (by rw [h.greatest_eq]; exact wide) positive j
  have high := quantile_eq_greatest hne positive j
  rw [h.greatest_eq] at high
  rw [low, high, OnRun]

theorem quantiles_on_run (h : Spread reference lo hi) (wide : lo < hi) (positive : 1 ≤ nBins) :
    (∀ q ∈ quantiles reference nBins, q = lo ∨ q = hi) ↔ ∀ j ≤ nBins, OnRun reference lo hi nBins j := by
  constructor
  · intro all j hj
    have member := List.mem_map_of_mem (f := fun j : Nat => interpolate (orderStatistic reference)
      (((reference.length - 1 : Nat) : ℝ) * j / nBins)) (List.mem_range.mpr (Nat.lt_succ_of_le hj))
    exact (quantile_on_run h wide positive j).mp (all _ member)
  · intro all q hq
    obtain ⟨j, hj, rfl⟩ := List.mem_map.mp hq
    exact (quantile_on_run h wide positive j).mpr
      (all j (Nat.le_of_lt_succ (List.mem_range.mp hj)))

/-- The first quantile is the least score and the last one the greatest. -/
theorem ends_mem_quantiles (h : Spread reference lo hi) (wide : lo < hi) (positive : 1 ≤ nBins) :
    lo ∈ quantiles reference nBins ∧ hi ∈ quantiles reference nBins := by
  have hne : reference ≠ [] := List.ne_nil_of_mem h.least
  constructor
  · refine List.mem_map.mpr ⟨0,List.mem_range.mpr (Nat.succ_pos nBins),?_⟩
    rw [quantile_eq_least hne (fun x hx => (h.bounds x hx).1) h.least
      (by rw [h.greatest_eq]; exact wide) positive]
    omega
  · refine List.mem_map.mpr ⟨nBins,List.mem_range.mpr (Nat.lt_succ_self nBins),?_⟩
    have high := quantile_eq_greatest hne positive nBins
    rw [h.greatest_eq] at high
    rw [high, Nat.mul_comm]
    apply Nat.mul_le_mul_right
    have fewer : reference.countP (fun x => decide (x < hi)) < reference.length := by
      rw [List.countP_lt_length_iff]
      exact ⟨hi,h.greatest,by simp⟩
    omega

end Quantiles

/-- Two different quantiles, the least and the greatest score, leave a single bin. -/
theorem one_bin_of_blind (ref : Scores reference) (positive : 1 ≤ nBins)
    (ok : binEdges reference nBins = .ok edges) (blind : Blind reference nBins) :
    edges.length = 2 := by
  obtain ⟨lo, hi, spread, wide, onRun⟩ := blind
  have two := (quantiles_on_run spread wide positive).mpr onRun
  obtain ⟨low, high⟩ := ends_mem_quantiles spread wide positive
  obtain ⟨increasing, members⟩ := unique_spec (quantiles reference nBins)
  rcases binEdges_cases ref positive with ⟨u, single, _⟩ | ⟨first, second, rest, many, _, _, ok'⟩
  · have lowIs := (members lo).mpr low
    have highIs := (members hi).mpr high
    rw [single, List.mem_singleton] at lowIs highIs
    exact absurd (lowIs.trans highIs.symm) wide.ne
  · rw [ok, Except.ok.injEq] at ok'
    cases rest with
    | nil =>
      rw [ok']
      rfl
    | cons third rest =>
      rw [many] at increasing members
      have one := two first ((members first).mp (by simp))
      have other := two second ((members second).mp (by simp))
      have another := two third ((members third).mp (by simp))
      simp only [List.pairwise_cons, List.mem_cons, forall_eq_or_imp] at increasing
      obtain ⟨⟨lt₁, lt₂, _⟩, ⟨lt₃, _⟩, _⟩ := increasing
      rcases one with rfl | rfl
      · rcases other with rfl | rfl
        · exact absurd lt₁ (lt_irrefl _)
        · rcases another with rfl | rfl
          · exact absurd lt₂ (lt_irrefl _)
          · exact absurd lt₃ (lt_irrefl _)
      · rcases other with rfl | rfl
        · exact absurd (lt₁.trans wide) (lt_irrefl _)
        · exact absurd lt₁ (lt_irrefl _)

/-- A single bin comes of two different quantiles only. -/
theorem blind_of_one_bin (ref : Scores reference) (positive : 2 ≤ nBins)
    (ok : binEdges reference nBins = .ok edges) (one : edges.length = 2) :
    Blind reference nBins := by
  have some : 1 ≤ nBins := by omega
  obtain ⟨lo, hi, spread⟩ := spread_exists ref.nonempty
  obtain ⟨increasing, members⟩ := unique_spec (quantiles reference nBins)
  rcases binEdges_cases ref some with ⟨u, _, ok'⟩ | ⟨first, second, rest, many, _, _, ok'⟩
  · rw [ok, Except.ok.injEq] at ok'
    rw [ok', linspace_eq _ _ some, List.length_map, List.length_range] at one
    omega
  · rw [ok, Except.ok.injEq] at ok'
    have single : rest = [] := by
      rw [ok', List.length_append, List.length_dropLast] at one
      simp only [List.length_cons, List.length_nil] at one
      apply List.eq_nil_of_length_eq_zero
      omega
    rw [many, single] at increasing members
    have apart : first < second := List.rel_of_pairwise_cons increasing List.mem_cons_self
    have bounds (q : ℝ) (hq : q ∈ [first,second]) : lo ≤ q ∧ q ≤ hi :=
      quantiles_bounds ref.nonempty spread.bounds q ((members q).mp hq)
    have firstIn := bounds first (by simp)
    have secondIn := bounds second (by simp)
    have wide : lo < hi := firstIn.1.trans_lt (apart.trans_le secondIn.2)
    obtain ⟨low, high⟩ := ends_mem_quantiles spread wide some
    have lowIs := (members lo).mpr low
    have highIs := (members hi).mpr high
    simp only [List.mem_cons, List.not_mem_nil, or_false] at lowIs highIs
    have loFirst : lo = first := by
      rcases lowIs with same | same
      · exact same
      · linarith
    have hiSecond : hi = second := by
      rcases highIs with same | same
      · linarith
      · exact same
    refine ⟨lo,hi,spread,wide,(quantiles_on_run spread wide some).mp ?_⟩
    intro q hq
    have known := (members q).mpr hq
    simpa [loFirst, hiSecond] using known

/-- The index sees some change, and there are two bins to see it with, exactly when the
quantiles of the reference are not all at its two ends. -/
theorem psi_sighted_iff (reference : List ℝ) (nBins : Nat) (ref : Scores reference)
    (positive : 2 ≤ nBins) :
    ((∃ edges, binEdges reference nBins = .ok edges ∧ 3 ≤ edges.length) ∧
      Sighted reference nBins) ↔ ¬Blind reference nBins := by
  have some : 1 ≤ nBins := by omega
  obtain ⟨edges, ok, covers⟩ := binEdges_covers ref some
  constructor
  · rintro ⟨_, sighted⟩ blind
    exact not_sighted_of_one_bin ref ok covers (one_bin_of_blind ref some ok blind) sighted
  · intro seeing
    have two : 3 ≤ edges.length := by
      obtain ⟨b, rest, rfl, _⟩ := covers.shape
      by_contra few
      apply seeing
      apply blind_of_one_bin ref positive ok
      simp only [List.length_cons] at few ⊢
      omega
    exact ⟨⟨edges,ok,two⟩,sighted_of_two_bins ref ok covers two⟩

section Sample

/-- Ten transactions scored zero and one scored one. -/
def rareFraud : List ℝ := List.replicate 10 0 ++ [1]

theorem rareFraud_scores : Scores rareFraud := by
  refine ⟨by simp [rareFraud],?_⟩
  intro x hx
  simp only [rareFraud, List.mem_append, List.mem_replicate, List.mem_singleton] at hx
  rcases hx with ⟨_, rfl⟩ | rfl
  · exact ⟨le_rfl,zero_le_one⟩
  · exact ⟨zero_le_one,le_rfl⟩

theorem rareFraud_blind : Blind rareFraud 10 := by
  refine ⟨0,1,⟨by simp [rareFraud],by simp [rareFraud],rareFraud_scores.unit⟩,zero_lt_one,?_⟩
  have length : rareFraud.length = 11 := by simp [rareFraud]
  have zeros : rareFraud.count 0 = 10 := by simp [rareFraud]
  have below : rareFraud.countP (fun x => decide (x < 1)) = 10 := by simp [rareFraud]
  intro j hj
  rw [OnRun, length, zeros, below]
  omega

end Sample

/-- Half of four scores without ties lie between the least and the greatest. -/
theorem psi_sighted_small :
    (∃ edges, binEdges [(0 : ℝ),1/4,1/2,1] 4 = .ok edges ∧ 3 ≤ edges.length) ∧
      Sighted [(0 : ℝ),1/4,1/2,1] 4 := by
  have scores : Scores [(0 : ℝ),1/4,1/2,1] := ⟨by simp,by norm_num⟩
  have seeing : ¬Blind [(0 : ℝ),1/4,1/2,1] 4 := by
    rintro ⟨lo, hi, spread, wide, onRun⟩
    have least : lo = 0 := le_antisymm (spread.bounds 0 (by simp)).1 (scores.unit lo spread.least).1
    have most : hi = 1 :=
      le_antisymm (scores.unit hi spread.greatest).2 (spread.bounds 1 (by simp)).2
    have middle := onRun 2 (by decide)
    rw [OnRun, least, most] at middle
    norm_num [List.count_cons, List.countP_cons] at middle
  exact (psi_sighted_iff [0,1/4,1/2,1] 4 scores (by decide)).mpr seeing

/-- The ten zeros and the one leave a single bin, and no recent sample has a positive index. -/
theorem rareFraud_unseen :
    Scores rareFraud ∧ (∃ edges, binEdges rareFraud 10 = .ok edges ∧ edges.length = 2) ∧
      ¬Sighted rareFraud 10 := by
  obtain ⟨edges, ok, covers⟩ := binEdges_covers rareFraud_scores (by decide : 1 ≤ 10)
  have one := one_bin_of_blind rareFraud_scores (by decide) ok rareFraud_blind
  exact ⟨rareFraud_scores,⟨edges,ok,one⟩,not_sighted_of_one_bin rareFraud_scores ok covers one⟩

end FraudPlatform.Drift
