import FraudPlatform.Framework.RealArrays

namespace Framework.Reals

open scoped Classical in
/-- How many values of a sample satisfy `p`. -/
noncomputable def countWhere (p : ℝ → Prop) (xs : List ℝ) : Nat := xs.countP fun x => decide (p x)

/-- The bins of `np.histogram`: half open, and the last one closed. -/
def InBin (edges : List ℝ) (i : Nat) (x : ℝ) : Prop :=
  i + 1 < edges.length ∧ edges.getD i 0 ≤ x ∧
    (x < edges.getD (i + 1) 0 ∨ (i + 2 = edges.length ∧ x = edges.getD (i + 1) 0))

section CountWhere

variable {p q r : ℝ → Prop} {xs : List ℝ}

@[simp] theorem countWhere_nil : countWhere p [] = 0 := rfl

theorem countWhere_cons_pos {x : ℝ} (h : p x) : countWhere p (x :: xs) = countWhere p xs + 1 := by
  classical
  exact List.countP_cons_of_pos (decide_eq_true h)

theorem countWhere_cons_neg {x : ℝ} (h : ¬p x) : countWhere p (x :: xs) = countWhere p xs := by
  classical
  exact List.countP_cons_of_neg (by simpa using h)

theorem countWhere_congr (h : ∀ x, p x ↔ q x) : countWhere p xs = countWhere q xs := by
  have same : p = q := funext fun x => propext (h x)
  rw [same]

/-- A sample is split by two conditions of which no value satisfies both. -/
theorem countWhere_add (apart : ∀ x, p x → ¬q x) (all : ∀ x, r x ↔ p x ∨ q x) :
    countWhere p xs + countWhere q xs = countWhere r xs := by
  induction xs with
  | nil => rfl
  | cons x xs ih =>
    by_cases hp : p x
    · rw [countWhere_cons_pos hp, countWhere_cons_neg (apart x hp),
        countWhere_cons_pos ((all x).mpr (Or.inl hp))]
      omega
    · by_cases hq : q x
      · rw [countWhere_cons_neg hp, countWhere_cons_pos hq,
          countWhere_cons_pos ((all x).mpr (Or.inr hq))]
        omega
      · have hr : ¬r x := by
          rw [all x]
          exact not_or.mpr ⟨hp,hq⟩
        rw [countWhere_cons_neg hp, countWhere_cons_neg hq, countWhere_cons_neg hr]
        exact ih

theorem countWhere_eq_length (h : ∀ x ∈ xs, p x) : countWhere p xs = xs.length := by
  classical
  exact List.countP_eq_length.mpr fun x hx => decide_eq_true (h x hx)

theorem countWhere_eq_zero (h : ∀ x ∈ xs, ¬p x) : countWhere p xs = 0 := by
  classical
  exact List.countP_eq_zero.mpr fun x hx => by simpa using h x hx

end CountWhere

section Bins

variable {a b c x : ℝ} {rest edges : List ℝ}

theorem inBin_pair {i : Nat} : InBin [a,b] i x ↔ i = 0 ∧ a ≤ x ∧ x ≤ b := by
  unfold InBin
  constructor
  · rintro ⟨inside, low, high⟩
    have first : i = 0 := by
      simp only [List.length_cons, List.length_nil] at inside
      omega
    subst first
    simp only [List.getD_cons_zero, List.getD_cons_succ] at low high
    rcases high with below | ⟨_, edge⟩
    · exact ⟨rfl,low,below.le⟩
    · exact ⟨rfl,low,edge.le⟩
  · rintro ⟨rfl, low, high⟩
    simp only [List.length_cons, List.length_nil, List.getD_cons_zero, List.getD_cons_succ]
    refine ⟨by omega,low,?_⟩
    rcases lt_or_eq_of_le high with below | edge
    · exact Or.inl below
    · exact Or.inr ⟨trivial,edge⟩

theorem inBin_zero : InBin (a :: b :: c :: rest) 0 x ↔ a ≤ x ∧ x < b := by
  simp [InBin]

theorem inBin_succ {i : Nat} : InBin (a :: b :: rest) (i + 1) x ↔ InBin (b :: rest) i x := by
  simp only [InBin, List.length_cons, List.getD_cons_succ, Nat.add_lt_add_iff_right,
    Nat.add_right_cancel_iff, show i + 1 + 2 = i + 2 + 1 from rfl]

/-- No value of a later bin lies below the first edge. -/
theorem le_of_inBin (increasing : (a :: rest).Pairwise (· < ·)) {i : Nat}
    (h : InBin (a :: rest) i x) : a ≤ x := by
  induction rest generalizing a i with
  | nil =>
    have inside := h.1
    simp at inside
  | cons b rest ih =>
    cases i with
    | zero => simpa using h.2.1
    | succ i =>
      rw [List.pairwise_cons] at increasing
      have later := ih increasing.2 (inBin_succ.mp h)
      exact (increasing.1 b List.mem_cons_self).le.trans later

/-- Each value between the first and the last edge falls in exactly one bin. -/
theorem existsUnique_inBin (increasing : (a :: b :: rest).Pairwise (· < ·)) (low : a ≤ x)
    (high : x ≤ (b :: rest).getLastD a) : ∃! i, InBin (a :: b :: rest) i x := by
  induction rest generalizing a b with
  | nil =>
    refine ⟨0,inBin_pair.mpr ⟨rfl,low,by simpa using high⟩,?_⟩
    intro i hi
    exact (inBin_pair.mp hi).1
  | cons c rest ih =>
    rw [List.pairwise_cons] at increasing
    by_cases below : x < b
    · refine ⟨0,inBin_zero.mpr ⟨low,below⟩,?_⟩
      intro i hi
      cases i with
      | zero => rfl
      | succ i =>
        have above := le_of_inBin increasing.2 (inBin_succ.mp hi)
        exact absurd below (not_lt.mpr above)
    · obtain ⟨i, hi, unique⟩ := ih increasing.2 (not_lt.mp below) high
      refine ⟨i + 1,inBin_succ.mpr hi,?_⟩
      intro j hj
      cases j with
      | zero => exact absurd (inBin_zero.mp hj).2 below
      | succ j => rw [unique j (inBin_succ.mp hj)]

end Bins

section Histogram

variable {a b : ℝ} {rest : List ℝ} (xs : List ℝ)

theorem countP_lt (e : ℝ) :
    xs.countP (fun x => Numpy.before x e) = countWhere (· < e) xs := by
  unfold countWhere
  apply List.countP_congr
  intro x _
  simp

theorem countP_le (e : ℝ) :
    xs.countP (fun x => !Numpy.before e x) = countWhere (· ≤ e) xs := by
  unfold countWhere
  apply List.countP_congr
  intro x _
  simp

theorem histogram_pair :
    Numpy.histogram xs [a,b] = [(countWhere (· ≤ b) xs : Int) - countWhere (· < a) xs] := by
  rw [← countP_lt, ← countP_le]
  rfl

theorem histogram_cons (c : ℝ) :
    Numpy.histogram xs (a :: b :: c :: rest) =
      ((countWhere (· < b) xs : Int) - countWhere (· < a) xs) ::
        Numpy.histogram xs (b :: c :: rest) := by
  rw [← countP_lt, ← countP_lt]
  simp only [Numpy.histogram, List.getLast?_cons_cons]
  cases hl : (c :: rest).getLast? with
  | none => simp at hl
  | some last => rfl

/-- The histogram counts the values of each bin. -/
theorem histogram_eq (increasing : (a :: b :: rest).Pairwise (· < ·)) :
    Numpy.histogram xs (a :: b :: rest) = (List.range (b :: rest).length).map fun i =>
      (countWhere (InBin (a :: b :: rest) i) xs : Int) := by
  induction rest generalizing a b with
  | nil =>
    have split : countWhere (· < a) xs + countWhere (InBin [a,b] 0) xs =
        countWhere (· ≤ b) xs := by
      apply countWhere_add
      · intro x hx hin
        exact absurd hx (not_lt.mpr (inBin_pair.mp hin).2.1)
      · intro x
        have hab : a < b := List.rel_of_pairwise_cons increasing List.mem_cons_self
        rw [inBin_pair]
        constructor
        · intro hx
          by_cases low : a ≤ x
          · exact Or.inr ⟨rfl,low,hx⟩
          · exact Or.inl (not_le.mp low)
        · rintro (hx | ⟨_, _, hx⟩)
          · exact (hx.trans hab).le
          · exact hx
    rw [histogram_pair, ← split]
    simp
  | cons c rest ih =>
    have split : countWhere (· < a) xs + countWhere (InBin (a :: b :: c :: rest) 0) xs =
        countWhere (· < b) xs := by
      apply countWhere_add
      · intro x hx hin
        exact absurd hx (not_lt.mpr (inBin_zero.mp hin).1)
      · intro x
        have hab : a < b := List.rel_of_pairwise_cons increasing List.mem_cons_self
        rw [inBin_zero]
        constructor
        · intro hx
          by_cases low : a ≤ x
          · exact Or.inr ⟨low,hx⟩
          · exact Or.inl (not_le.mp low)
        · rintro (hx | ⟨_, hx⟩)
          · exact hx.trans hab
          · exact hx
    have range : List.range (b :: c :: rest).length =
        0 :: (List.range (c :: rest).length).map Nat.succ := List.range_succ_eq_map
    rw [histogram_cons, ih (List.pairwise_cons.mp increasing).2, ← split, range, List.map_cons,
      List.map_map]
    congr 1
    · push_cast
      ring
    · apply List.map_congr_left
      intro i _
      rw [Function.comp_apply, countWhere_congr fun x => inBin_succ (a := a)]

theorem sum_histogram_eq :
    (Numpy.histogram xs (a :: b :: rest)).sum =
      (countWhere (· ≤ (b :: rest).getLastD a) xs : Int) - countWhere (· < a) xs := by
  induction rest generalizing a b with
  | nil => simp [histogram_pair]
  | cons c rest ih =>
    have last : (b :: c :: rest).getLastD a = (c :: rest).getLastD b := rfl
    rw [histogram_cons, List.sum_cons, ih, last]
    ring

/-- No value is lost: the bins of a sample between the first and the last edge sum to it. -/
theorem sum_histogram (inside : ∀ x ∈ xs, a ≤ x ∧ x ≤ (b :: rest).getLastD a) :
    (Numpy.histogram xs (a :: b :: rest)).sum = xs.length := by
  rw [sum_histogram_eq, countWhere_eq_length fun x hx => (inside x hx).2,
    countWhere_eq_zero fun x hx => not_lt.mpr (inside x hx).1]
  simp

end Histogram

end Framework.Reals
