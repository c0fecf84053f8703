import FraudPlatform.Framework.RealBins
import FraudPlatform.Drift.Detectors

namespace FraudPlatform.Drift

open Framework Reals

/-- A sample of scores: not empty, and within the unit interval. -/
structure Scores (sample : List ℝ) : Prop where
  nonempty : sample ≠ []
  unit : ∀ x ∈ sample, 0 ≤ x ∧ x ≤ 1

/-- Increasing edges from 0 to 1. -/
structure Covers (edges : List ℝ) : Prop where
  increasing : edges.Pairwise (· < ·)
  first : edges.head? = some 0
  last : edges.getLast? = some 1

/-- The fraction of a sample in a bin, after the substitution. -/
noncomputable def fraction (edges sample : List ℝ) (i : Nat) : ℝ :=
  if countWhere (InBin edges i) sample = 0 then Numpy.decimal 1 6
  else countWhere (InBin edges i) sample / sample.length

/-- Every value falls in exactly one bin, the histogram counts the values of each, and the
fractions are these counts over the size of the sample, none of them zero. -/
structure Binned (edges sample : List ℝ) : Prop where
  once : ∀ x ∈ sample, ∃! i, InBin edges i x
  counted : Numpy.histogram sample edges = (List.range (edges.length - 1)).map fun i =>
    (countWhere (InBin edges i) sample : Int)
  total : (Numpy.histogram sample edges).sum = sample.length
  fractions : binFractions sample edges = (List.range (edges.length - 1)).map (fraction edges sample)
  positive : ∀ p ∈ binFractions sample edges, 0 < p

/-- The quantiles the edges are made of. -/
noncomputable def quantiles (reference : List ℝ) (nBins : Nat) : List ℝ :=
  (List.range (nBins + 1)).map fun j : Nat =>
    interpolate (orderStatistic reference) (((reference.length - 1 : Nat) : ℝ) * j / nBins)

variable {reference recent edges : List ℝ} {nBins : Nat}

theorem Covers.shape (h : Covers edges) :
    ∃ b rest, edges = 0 :: b :: rest ∧ (b :: rest).getLastD 0 = 1 := by
  obtain ⟨_, first, last⟩ := h
  match edges with
  | [] => simp at first
  | [a] =>
    simp only [List.head?_cons, Option.some.injEq, List.getLast?_singleton] at first last
    rw [first] at last
    exact absurd last zero_ne_one
  | a :: b :: rest =>
    simp only [List.head?_cons, Option.some.injEq] at first
    refine ⟨b,rest,by rw [first],?_⟩
    rw [List.getLast?_cons_cons] at last
    rw [List.getLastD_eq_getLast?, last, Option.getD_some]

theorem Covers.le_one (h : Covers edges) {x : ℝ} (hx : x ∈ edges) : x ≤ 1 := by
  have split := List.dropLast_append_getLast? 1 h.last
  have increasing := h.increasing
  rw [← split, List.pairwise_append] at increasing
  rw [← split, List.mem_append, List.mem_singleton] at hx
  rcases hx with before | rfl
  · exact (increasing.2.2 x before 1 (List.mem_singleton_self 1)).le
  · exact le_rfl

theorem mapM_percentile (hne : reference ≠ []) (positive : 1 ≤ nBins) :
    (Numpy.linspace 0 (Numpy.ofInt 100) (nBins + 1)).mapM (Numpy.percentile reference) =
      some (quantiles reference nBins) := by
  obtain ⟨x, xs, rfl⟩ := List.exists_cons_of_ne_nil hne
  have total : Numpy.percentile (x :: xs) = fun q => pure (Numpy.percentileOf x xs q) := rfl
  rw [total, linspace_eq _ _ positive, List.mapM_pure, List.map_map]
  congr 1
  apply List.map_congr_left
  intro j _
  have place : (0 + ((100 : Int) - 0) * (j : ℝ) / nBins) / 100 = (j : ℝ) / nBins := by
    push_cast
    ring
  rw [Function.comp_apply, percentileOf_eq x xs (by rw [ofInt_eq]; push_cast; positivity),
    ofInt_eq, place, ← mul_div_assoc]
  rfl

/-- The quantiles lie among the values of the sample. -/
theorem quantiles_bounds {lo hi : ℝ} (hne : reference ≠ [])
    (bound : ∀ x ∈ reference, lo ≤ x ∧ x ≤ hi) : ∀ q ∈ quantiles reference nBins, lo ≤ q ∧ q ≤ hi := by
  intro q hq
  obtain ⟨j, _, rfl⟩ := List.mem_map.mp hq
  have place : (0 : ℝ) ≤ ((reference.length - 1 : Nat) : ℝ) * j / nBins := by positivity
  have between := interpolate_mem (orderStatistic_monotone hne) place
  have inside (i : Nat) := bound _ (orderStatistic_mem hne i)
  exact ⟨(inside _).1.trans between.1,between.2.trans (inside _).2⟩

/-- Moving the last edge up keeps the edges increasing. -/
theorem covers_widen {b : ℝ} {rest : List ℝ} (increasing : (0 :: b :: rest).Pairwise (· < ·))
    (bound : ∀ x ∈ b :: rest, x ≤ 1) : Covers ((0 :: b :: rest).dropLast ++ [1]) := by
  have nonempty : (0 :: b :: rest : List ℝ) ≠ [] := by simp
  have split := List.dropLast_append_getLast nonempty
  have last_le : (0 :: b :: rest : List ℝ).getLast nonempty ≤ 1 := by
    rw [List.getLast_cons (by simp)]
    exact bound _ (List.getLast_mem _)
  refine ⟨?_,by simp,List.getLast?_concat⟩
  rw [← split, List.pairwise_append] at increasing
  obtain ⟨before, _, below⟩ := increasing
  refine List.pairwise_append.mpr ⟨before,List.pairwise_singleton _ _,?_⟩
  intro x hx y hy
  rw [List.mem_singleton.mp hy]
  exact (below x hx _ (List.mem_singleton_self _)).trans_le last_le

theorem covers_linspace (positive : 1 ≤ nBins) : Covers (Numpy.linspace 0 1 (nBins + 1)) := by
  have hn : (0 : ℝ) < nBins := by exact_mod_cast positive
  rw [linspace_eq _ _ positive]
  refine ⟨?_,?_,?_⟩
  · rw [List.pairwise_map]
    refine (List.pairwise_lt_range (n := nBins + 1)).imp ?_
    intro i j hij
    have : (i : ℝ) < j := by exact_mod_cast hij
    simp only [sub_zero, one_mul, zero_add]
    exact div_lt_div_of_pos_right this hn
  · simp [List.range_succ_eq_map]
  · rw [List.range_succ, List.map_append, List.map_singleton, List.getLast?_concat]
    simp [hn.ne']

/-- The edges: the quantiles with both ends moved out, or equal widths when all quantiles agree. -/
theorem binEdges_cases (h : Scores reference) (positive : 1 ≤ nBins) :
    (∃ u, Numpy.unique (quantiles reference nBins) = [u] ∧
      binEdges reference nBins = .ok (Numpy.linspace 0 1 (nBins + 1))) ∨
    ∃ first second rest, Numpy.unique (quantiles reference nBins) = first :: second :: rest ∧
      (0 :: second :: rest).Pairwise (· < ·) ∧ (∀ x ∈ second :: rest, x ≤ 1) ∧
      binEdges reference nBins = .ok ((0 :: second :: rest).dropLast ++ [1]) := by
  obtain ⟨increasing, members⟩ := unique_spec (quantiles reference nBins)
  have bounds : ∀ x ∈ Numpy.unique (quantiles reference nBins), 0 ≤ x ∧ x ≤ 1 := fun x hx =>
    quantiles_bounds h.nonempty h.unit x ((members x).mp hx)
  unfold binEdges
  rw [mapM_percentile h.nonempty positive]
  dsimp only
  match hu : Numpy.unique (quantiles reference nBins) with
  | [] =>
    have some := (members _).mpr (List.mem_map_of_mem (List.mem_range.mpr (Nat.succ_pos nBins)))
    rw [hu] at some
    cases some
  | [u] => exact Or.inl ⟨u,rfl,rfl⟩
  | first :: second :: rest =>
    rw [hu] at increasing bounds
    rw [List.pairwise_cons] at increasing
    have low : 0 ≤ first := (bounds first List.mem_cons_self).1
    have start : (if Binary64.lt 0 first then 0 else first) = 0 := by
      rw [lt_eq]
      split_ifs with moved
      · rfl
      · rw [decide_eq_true_eq] at moved
        exact le_antisymm (not_lt.mp moved) low
    have above : ∀ x ∈ second :: rest, (0 : ℝ) < x := fun x hx =>
      low.trans_lt (increasing.1 x hx)
    have upper : ∀ x ∈ second :: rest, x ≤ 1 := fun x hx => (bounds x (List.mem_cons_of_mem _ hx)).2
    have last : (0 :: second :: rest).getLastD 0 ≤ 1 := by
      change (second :: rest).getLast _ ≤ 1
      exact upper _ (List.getLast_mem _)
    refine Or.inr ⟨first,second,rest,rfl,List.pairwise_cons.mpr ⟨above,increasing.2⟩,upper,?_⟩
    dsimp only
    rw [start]
    congr 3
    rw [lt_eq]
    split_ifs with moved
    · rfl
    · rw [decide_eq_true_eq] at moved
      exact le_antisymm last (not_lt.mp moved)

theorem binEdges_covers (h : Scores reference) (positive : 1 ≤ nBins) :
    ∃ edges, binEdges reference nBins = .ok edges ∧ Covers edges := by
  rcases binEdges_cases h positive with ⟨_, _, ok⟩ | ⟨first, second, rest, _, increasing, upper, ok⟩
  · exact ⟨_,ok,covers_linspace positive⟩
  · exact ⟨_,ok,covers_widen increasing upper⟩

theorem binFractions_eq (h : Covers edges) {sample : List ℝ} (hne : sample ≠ []) :
    binFractions sample edges = (List.range (edges.length - 1)).map (fraction edges sample) := by
  obtain ⟨b, rest, rfl, _⟩ := h.shape
  have length : (sample.length : ℝ) ≠ 0 := by
    rw [ne_eq, Nat.cast_eq_zero, List.length_eq_zero_iff]
    exact hne
  unfold binFractions Numpy.replaceZero
  rw [histogram_eq sample h.increasing, List.map_map, List.map_map]
  apply List.map_congr_left
  intro i _
  simp only [Function.comp_apply, same_eq, ofInt_eq, Int.cast_natCast, decide_eq_true_eq,
    div_eq_zero_iff, Nat.cast_eq_zero, length, or_false, fraction]

theorem fraction_pos {sample : List ℝ} (hne : sample ≠ []) (i : Nat) :
    0 < fraction edges sample i := by
  have length := List.length_pos_iff.mpr hne
  unfold fraction
  split_ifs with empty
  · rw [decimal_eq]
    positivity
  · have count : 0 < countWhere (InBin edges i) sample := Nat.pos_of_ne_zero empty
    positivity

theorem binned (h : Covers edges) {sample : List ℝ} (scores : Scores sample) :
    Binned edges sample := by
  obtain ⟨b, rest, rfl, last⟩ := h.shape
  have high (x : ℝ) (hx : x ≤ 1) : x ≤ (b :: rest).getLastD 0 := by rwa [last]
  refine ⟨?_,histogram_eq sample h.increasing,?_,binFractions_eq h scores.nonempty,?_⟩
  · intro x hx
    exact existsUnique_inBin h.increasing (scores.unit x hx).1 (high x (scores.unit x hx).2)
  · exact sum_histogram sample fun x hx => ⟨(scores.unit x hx).1,high x (scores.unit x hx).2⟩
  · intro p hp
    rw [binFractions_eq h scores.nonempty] at hp
    obtain ⟨i, _, rfl⟩ := List.mem_map.mp hp
    exact fraction_pos scores.nonempty i

section PsiSum

/-- A term of the index is positive unless both fractions agree. -/
theorem psi_term {p q : ℝ} (hp : 0 < p) (hq : 0 < q) :
    0 ≤ (q - p) * Real.log (q / p) ∧ ((q - p) * Real.log (q / p) = 0 ↔ p = q) := by
  have ratio : 0 < q / p := div_pos hq hp
  rcases lt_trichotomy p q with less | equal | more
  · have log : 0 < Real.log (q / p) := Real.log_pos ((one_lt_div hp).mpr less)
    have product := mul_pos (sub_pos.mpr less) log
    exact ⟨product.le,⟨fun h => absurd h product.ne',fun h => absurd h less.ne⟩⟩
  · subst equal
    simp
  · have log : Real.log (q / p) < 0 := Real.log_neg ratio ((div_lt_one hp).mpr more)
    have product := mul_pos_of_neg_of_neg (sub_neg.mpr more) log
    exact ⟨product.le,⟨fun h => absurd h product.ne',fun h => absurd h more.ne'⟩⟩

theorem psiSum_cons (p q : ℝ) (ps qs : List ℝ) :
    psiSum (p :: ps) (q :: qs) = (q - p) * Real.log (q / p) + psiSum ps qs := rfl

/-- The index of two vectors of positive fractions is not negative, and zero only for equal
vectors. -/
theorem psiSum_spec {ps qs : List ℝ} (length : ps.length = qs.length) (hp : ∀ p ∈ ps, 0 < p)
    (hq : ∀ q ∈ qs, 0 < q) : 0 ≤ psiSum ps qs ∧ (psiSum ps qs = 0 ↔ ps = qs) := by
  induction ps generalizing qs with
  | nil =>
    cases qs with
    | nil => exact ⟨le_refl (0 : ℝ),⟨fun _ => rfl,fun _ => rfl⟩⟩
    | cons q qs => simp at length
  | cons p ps ih =>
    cases qs with
    | nil => simp at length
    | cons q qs =>
      rw [List.forall_mem_cons] at hp hq
      obtain ⟨rest, restZero⟩ := ih (by simpa using length) hp.2 hq.2
      obtain ⟨term, termZero⟩ := psi_term hp.1 hq.1
      rw [psiSum_cons, List.cons.injEq, ← termZero, ← restZero]
      refine ⟨add_nonneg term rest,?_⟩
      constructor
      · intro sum
        constructor
        · linarith
        · linarith
      · rintro ⟨first, others⟩
        rw [first, others, add_zero]

end PsiSum

theorem computePsi_of_edges {edges : List ℝ} (h : binEdges reference nBins = .ok edges) :
    computePsi reference recent nBins =
      .ok (psiSum (binFractions reference edges) (binFractions recent edges)) := by
  rw [computePsi, h]
  rfl

theorem psiSum_fractions (h : Covers edges) (ref : Scores reference) (rec : Scores recent) :
    0 ≤ psiSum (binFractions reference edges) (binFractions recent edges) ∧
      (psiSum (binFractions reference edges) (binFractions recent edges) = 0 ↔
        binFractions reference edges = binFractions recent edges) := by
  refine psiSum_spec ?_ (binned h ref).positive (binned h rec).positive
  rw [binFractions_eq h ref.nonempty, binFractions_eq h rec.nonempty, List.length_map,
    List.length_map]

/-- In exact arithmetic the index is well formed: its edges cover the unit interval, each score
falls in one bin, no fraction is zero, and it is positive unless the fractions agree. -/
theorem psi_wellFormed (reference recent : List ℝ) (nBins : Nat) (ref : Scores reference)
    (rec : Scores recent) (positive : 1 ≤ nBins) :
    ∃ edges psi, binEdges reference nBins = .ok edges ∧
      computePsi reference recent nBins = .ok psi ∧ Covers edges ∧ Binned edges reference ∧
      Binned edges recent ∧ 0 ≤ psi ∧
      (psi = 0 ↔ binFractions reference edges = binFractions recent edges) := by
  obtain ⟨edges, ok, covers⟩ := binEdges_covers ref positive
  obtain ⟨nonneg, zero⟩ := psiSum_fractions covers ref rec
  exact ⟨edges,_,ok,computePsi_of_edges ok,covers,binned covers ref,binned covers rec,nonneg,zero⟩

theorem scores_singleton {x : ℝ} (low : 0 ≤ x) (high : x ≤ 1) : Scores [x] := by
  refine ⟨List.cons_ne_nil x [],?_⟩
  intro y hy
  rw [List.mem_singleton.mp hy]
  exact ⟨low,high⟩

/-- Five scores without ties, and one later score in each of the four bins they make. -/
theorem psi_wellFormed_small :
    ∃ edges psi, binEdges [(0 : ℝ),1/8,1/4,1/2,3/4] 4 = .ok edges ∧
      computePsi [(0 : ℝ),1/8,1/4,1/2,3/4] [1/16,3/16,1/3,1] 4 = .ok psi ∧ Covers edges ∧
      Binned edges [0,1/8,1/4,1/2,3/4] ∧ Binned edges [1/16,3/16,1/3,1] ∧ 0 ≤ psi ∧
      (psi = 0 ↔ binFractions [0,1/8,1/4,1/2,3/4] edges = binFractions [1/16,3/16,1/3,1] edges) := by
  refine psi_wellFormed [0,1/8,1/4,1/2,3/4] [1/16,3/16,1/3,1] 4 ⟨by simp,?_⟩ ⟨by simp,?_⟩ (by decide)
  · norm_num
  · norm_num

end FraudPlatform.Drift
