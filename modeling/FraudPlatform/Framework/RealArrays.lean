import Mathlib.Algebra.Order.Floor.Semiring
import Mathlib.Tactic.Linarith
import FraudPlatform.Framework.Reals

namespace Framework.Reals

theorem decimal_eq (m n : Nat) : (Numpy.decimal m n : ℝ) = m / 10 ^ n := rfl

@[simp] theorem isNaN_eq (x : ℝ) : Numpy.isNaN x = false := by
  simp [Numpy.isNaN]

@[simp] theorem before_eq (x y : ℝ) : Numpy.before x y = decide (x < y) := by
  simp [Numpy.before]

@[simp] theorem same_eq (x y : ℝ) : Numpy.same x y = decide (x = y) := by
  simp [Numpy.same, le_antisymm_iff]

theorem perm_sort (xs : List ℝ) : (Numpy.sort xs).Perm xs := List.perm_insertionSort _ xs

theorem pairwise_sort (xs : List ℝ) : (Numpy.sort xs).Pairwise (· ≤ ·) := by
  have order : (fun x y : ℝ => Numpy.before y x = false) = (· ≤ ·) := by
    funext x y
    simp
  have total : Std.Total fun x y : ℝ => Numpy.before y x = false := by
    rw [order]
    infer_instance
  have trans : IsTrans ℝ fun x y : ℝ => Numpy.before y x = false := by
    rw [order]
    infer_instance
  have sorted := List.pairwise_insertionSort (fun x y : ℝ => Numpy.before y x = false) xs
  exact sorted.imp fun {x y} h => by simpa using h

/-- Repetitions of a sorted list stand together, so one look back is enough. -/
theorem dropRepeats_spec {p : ℝ} {xs : List ℝ} (sorted : (p :: xs).Pairwise (· ≤ ·)) :
    (p :: Numpy.dropRepeats p xs).Pairwise (· < ·) ∧
      ∀ x, x ∈ p :: Numpy.dropRepeats p xs ↔ x ∈ p :: xs := by
  induction xs generalizing p with
  | nil => simp [Numpy.dropRepeats]
  | cons y ys ih =>
    rw [List.pairwise_cons] at sorted
    obtain ⟨least, rest⟩ := sorted
    by_cases hp : p = y
    · subst hp
      obtain ⟨increasing, members⟩ := ih rest
      simp only [Numpy.dropRepeats, same_eq, decide_true, Bool.true_or, if_true]
      refine ⟨increasing,fun x => ?_⟩
      rw [members x]
      simp
    · obtain ⟨increasing, members⟩ := ih rest
      have below : p < y := lt_of_le_of_ne (least y List.mem_cons_self) hp
      simp only [Numpy.dropRepeats, same_eq, hp, decide_false, isNaN_eq, Bool.and_false,
        Bool.or_false, Bool.false_eq_true, if_false]
      refine ⟨List.pairwise_cons.mpr ⟨?_,increasing⟩,fun x => ?_⟩
      · intro x hx
        obtain rfl | later := List.mem_cons.mp hx
        · exact below
        · exact below.trans (List.rel_of_pairwise_cons increasing later)
      · rw [List.mem_cons, members x, List.mem_cons (a := x) (b := p)]

theorem unique_spec (xs : List ℝ) :
    (Numpy.unique xs).Pairwise (· < ·) ∧ ∀ x, x ∈ Numpy.unique xs ↔ x ∈ xs := by
  have sorted := pairwise_sort xs
  have perm := perm_sort xs
  unfold Numpy.unique
  cases hs : Numpy.sort xs with
  | nil =>
    rw [hs] at perm
    rw [List.nil_perm.mp perm]
    simp
  | cons y ys =>
    rw [hs] at sorted perm
    obtain ⟨increasing, members⟩ := dropRepeats_spec sorted
    exact ⟨increasing,fun x => (members x).trans perm.mem_iff⟩

theorem linspace_eq (start stop : ℝ) {n : Nat} (positive : 1 ≤ n) :
    Numpy.linspace start stop (n + 1) =
      (List.range (n + 1)).map fun i : Nat => start + (stop - start) * i / n := by
  have notOne : n + 1 ≠ 1 := by omega
  have hn : (n : ℝ) ≠ 0 := by
    have : n ≠ 0 := by omega
    exact_mod_cast this
  unfold Numpy.linspace
  rw [if_neg notOne]
  apply List.map_congr_left
  intro i _
  have count : ((((n + 1 : Nat) : Int) - 1 : Int) : ℝ) = n := by
    push_cast
    ring
  split_ifs with last
  · have hi : (i : ℝ) = n := by
      have : i = n := by omega
      exact_mod_cast this
    rw [hi, mul_div_assoc, div_self hn]
    ring
  · rw [ofInt_eq, ofInt_eq, count, Int.cast_natCast]
    ring

theorem lerp_eq (a b t : ℝ) : Numpy.lerp a b t = a + (b - a) * t := by
  unfold Numpy.lerp
  split_ifs
  · ring
  · rfl

/-- Linear interpolation of a sequence at a place between its indices. -/
noncomputable def interpolate (f : Nat → ℝ) (v : ℝ) : ℝ :=
  f ⌊v⌋₊ + (f (⌊v⌋₊ + 1) - f ⌊v⌋₊) * (v - ⌊v⌋₊)

section Interpolate

variable {f : Nat → ℝ} {v : ℝ}

theorem interpolate_mem (mono : Monotone f) (hv : 0 ≤ v) :
    f ⌊v⌋₊ ≤ interpolate f v ∧ interpolate f v ≤ f (⌊v⌋₊ + 1) := by
  have low : 0 ≤ v - ⌊v⌋₊ := sub_nonneg.mpr (Nat.floor_le hv)
  have high : v - ⌊v⌋₊ ≤ 1 := by
    have := Nat.lt_floor_add_one v
    linarith
  have rise : 0 ≤ f (⌊v⌋₊ + 1) - f ⌊v⌋₊ := sub_nonneg.mpr (mono (Nat.le_succ _))
  unfold interpolate
  constructor
  · have := mul_nonneg rise low
    linarith
  · have := mul_le_of_le_one_right rise high
    linarith

/-- The interpolation is at the least value as far as the run of that value goes. -/
theorem interpolate_eq_least (mono : Monotone f) (hv : 0 ≤ v) {lo : ℝ} {c : Nat} (hc : 1 ≤ c)
    (run : ∀ i, f i = lo ↔ i < c) : interpolate f v = lo ↔ v ≤ c - 1 := by
  have least : f 0 = lo := (run 0).mpr hc
  have floor_le := Nat.floor_le hv
  have lt_floor := Nat.lt_floor_add_one v
  have step : (1 : ℝ) ≤ c := by exact_mod_cast hc
  constructor
  · intro h
    have bounds := interpolate_mem mono hv
    have first : f ⌊v⌋₊ = lo := by
      have := mono (Nat.zero_le ⌊v⌋₊)
      linarith
    have inside := (run _).mp first
    unfold interpolate at h
    have product : (f (⌊v⌋₊ + 1) - f ⌊v⌋₊) * (v - ⌊v⌋₊) = 0 := by linarith
    rcases mul_eq_zero.mp product with flat | whole
    · have next := (run (⌊v⌋₊ + 1)).mp (by linarith)
      have : ((⌊v⌋₊ + 1 + 1 : Nat) : ℝ) ≤ c := by exact_mod_cast next
      push_cast at this
      linarith
    · have : ((⌊v⌋₊ + 1 : Nat) : ℝ) ≤ c := by exact_mod_cast inside
      push_cast at this
      linarith
  · intro h
    have inside : ⌊v⌋₊ < c := by
      have : (⌊v⌋₊ : ℝ) < c := by linarith
      exact_mod_cast this
    have first := (run _).mpr inside
    unfold interpolate
    by_cases whole : v = ⌊v⌋₊
    · rw [← whole, sub_self, mul_zero, add_zero]
      exact first
    · have further : (⌊v⌋₊ : ℝ) + 1 < c := by
        have := lt_of_le_of_ne floor_le (Ne.symm whole)
        linarith
      have next := (run (⌊v⌋₊ + 1)).mpr (by exact_mod_cast further)
      rw [first, next, sub_self, zero_mul, add_zero]

/-- The interpolation is at the greatest value from the start of the run of that value. -/
theorem interpolate_eq_greatest (hv : 0 ≤ v) {hi : ℝ} {b : Nat}
    (bound : ∀ i, f i ≤ hi) (run : ∀ i, f i = hi ↔ b ≤ i) : interpolate f v = hi ↔ b ≤ v := by
  have floor_le := Nat.floor_le hv
  have lt_floor := Nat.lt_floor_add_one v
  constructor
  · intro h
    by_contra outside
    have before : ¬b ≤ ⌊v⌋₊ := by
      intro reached
      have : (b : ℝ) ≤ ⌊v⌋₊ := by exact_mod_cast reached
      exact outside (this.trans floor_le)
    have below : f ⌊v⌋₊ < hi := lt_of_le_of_ne (bound _) (fun h => before ((run _).mp h))
    have part : (f (⌊v⌋₊ + 1) - f ⌊v⌋₊) * (v - ⌊v⌋₊) ≤ (hi - f ⌊v⌋₊) * (v - ⌊v⌋₊) := by
      have rise : f (⌊v⌋₊ + 1) - f ⌊v⌋₊ ≤ hi - f ⌊v⌋₊ := by
        have := bound (⌊v⌋₊ + 1)
        linarith
      exact mul_le_mul_of_nonneg_right rise (by linarith)
    have short : (hi - f ⌊v⌋₊) * (v - ⌊v⌋₊) < (hi - f ⌊v⌋₊) * 1 :=
      mul_lt_mul_of_pos_left (by linarith) (by linarith)
    unfold interpolate at h
    linarith
  · intro h
    have reached : b ≤ ⌊v⌋₊ := Nat.le_floor h
    have first := (run _).mpr reached
    have next := (run (⌊v⌋₊ + 1)).mpr (reached.trans (Nat.le_succ _))
    unfold interpolate
    rw [first, next, sub_self, zero_mul, add_zero]

end Interpolate

/-- The values of a sample in order; the greatest goes on for ever. -/
noncomputable def orderStatistic (xs : List ℝ) (i : Nat) : ℝ :=
  (Numpy.sort xs).getD i ((Numpy.sort xs).getLastD 0)

/-- In a sorted list the members that satisfy a lower bound's complement come first. -/
theorem getD_iff_lt_countP {s : List ℝ} {p : ℝ → Bool} {last : ℝ}
    (sorted : s.Pairwise (· ≤ ·)) (down : ∀ x y, x ≤ y → p y → p x) (hlast : p last = false)
    (i : Nat) : p (s.getD i last) = true ↔ i < s.countP p := by
  induction s generalizing i with
  | nil => simp [hlast]
  | cons a s ih =>
    rw [List.pairwise_cons] at sorted
    obtain ⟨least, rest⟩ := sorted
    cases ha : p a with
    | true =>
      rw [List.countP_cons_of_pos ha]
      cases i with
      | zero => simp [ha]
      | succ i =>
        rw [List.getD_cons_succ, ih rest i]
        omega
    | false =>
      have none : ∀ y ∈ s, p y = false := by
        intro y hy
        by_contra h
        have := down a y (least y hy) (by simpa using h)
        rw [ha] at this
        cases this
      have count : (a :: s).countP p = 0 := by
        rw [List.countP_eq_zero]
        intro y hy
        obtain rfl | later := List.mem_cons.mp hy
        · simp [ha]
        · simp [none y later]
      have out : p ((a :: s).getD i last) = false := by
        rw [List.getD_eq_getElem?_getD]
        cases hi : (a :: s)[i]? with
        | none => exact hlast
        | some y =>
          have member := List.mem_of_getElem? hi
          obtain rfl | later := List.mem_cons.mp member
          · exact ha
          · exact none y later
      rw [count, out]
      simp

section OrderStatistic

variable {xs : List ℝ}

/-- The greatest value of a sample. -/
noncomputable def greatest (xs : List ℝ) : ℝ := (Numpy.sort xs).getLastD 0

theorem greatest_spec (hne : xs ≠ []) : greatest xs ∈ xs ∧ ∀ x ∈ xs, x ≤ greatest xs := by
  have nonempty : Numpy.sort xs ≠ [] := by
    intro h
    have perm := perm_sort xs
    rw [h, List.nil_perm] at perm
    exact hne perm
  have split := List.dropLast_append_getLast nonempty
  have last : greatest xs = (Numpy.sort xs).getLast nonempty := by
    rw [greatest, List.getLastD_eq_getLast?, List.getLast?_eq_some_getLast nonempty,
      Option.getD_some]
  rw [last]
  refine ⟨(perm_sort xs).mem_iff.mp (List.getLast_mem nonempty),?_⟩
  intro x hx
  have sorted := pairwise_sort xs
  have member := (perm_sort xs).mem_iff.mpr hx
  rw [← split, List.pairwise_append] at sorted
  rw [← split, List.mem_append, List.mem_singleton] at member
  rcases member with before | rfl
  · exact sorted.2.2 x before _ (List.mem_singleton_self _)
  · exact le_rfl

theorem orderStatistic_mem (hne : xs ≠ []) (i : Nat) : orderStatistic xs i ∈ xs := by
  change (Numpy.sort xs).getD i (greatest xs) ∈ xs
  rw [List.getD_eq_getElem?_getD]
  cases hi : (Numpy.sort xs)[i]? with
  | none => exact (greatest_spec hne).1
  | some y => exact (perm_sort xs).mem_iff.mp (List.mem_of_getElem? hi)

/-- Below the greatest value, the order statistics are the runs that counting gives. -/
theorem orderStatistic_iff (p : ℝ → Bool) (down : ∀ x y, x ≤ y → p y → p x)
    (top : p (greatest xs) = false) (i : Nat) :
    p (orderStatistic xs i) = true ↔ i < xs.countP p := by
  have counted := getD_iff_lt_countP (pairwise_sort xs) down top i
  rw [(perm_sort xs).countP_eq] at counted
  exact counted

theorem orderStatistic_monotone (hne : xs ≠ []) : Monotone (orderStatistic xs) := by
  intro i j hij
  by_cases top : greatest xs ≤ orderStatistic xs j
  · exact ((greatest_spec hne).2 _ (orderStatistic_mem hne i)).trans top
  · have counted := @orderStatistic_iff xs (fun x => decide (x ≤ orderStatistic xs j))
      (fun x y hxy hy => by
        rw [decide_eq_true_eq] at hy ⊢
        exact hxy.trans hy) (decide_eq_false top)
    have here := (counted j).mp (decide_eq_true le_rfl)
    exact of_decide_eq_true ((counted i).mpr (by omega))

variable {lo hi : ℝ}

theorem greatest_eq (hne : xs ≠ []) (mem : hi ∈ xs) (bound : ∀ x ∈ xs, x ≤ hi) :
    greatest xs = hi :=
  le_antisymm (bound _ (greatest_spec hne).1) ((greatest_spec hne).2 _ mem)

/-- The first order statistic is the least value. -/
theorem orderStatistic_zero_le {x : ℝ} (hx : x ∈ xs) : orderStatistic xs 0 ≤ x := by
  have sorted := pairwise_sort xs
  have member := (perm_sort xs).mem_iff.mpr hx
  unfold orderStatistic
  cases hs : Numpy.sort xs with
  | nil =>
    rw [hs] at member
    cases member
  | cons y ys =>
    rw [hs] at sorted member
    rw [List.getD_cons_zero]
    rcases List.mem_cons.mp member with rfl | later
    · exact le_rfl
    · exact List.rel_of_pairwise_cons sorted later

theorem orderStatistic_eq_least (hne : xs ≠ []) (bound : ∀ x ∈ xs, lo ≤ x)
    (spread : lo < greatest xs) (i : Nat) :
    orderStatistic xs i = lo ↔ i < xs.count lo := by
  have counted := @orderStatistic_iff xs (fun x => decide (x ≤ lo))
    (fun x y hxy hy => by
      rw [decide_eq_true_eq] at hy ⊢
      exact hxy.trans hy) (decide_eq_false (not_le.mpr spread)) i
  have count : xs.countP (fun x => decide (x ≤ lo)) = xs.count lo := by
    rw [List.count]
    apply List.countP_congr
    intro x hx
    have := bound x hx
    simp only [decide_eq_true_eq, beq_iff_eq]
    constructor
    · intro h
      exact le_antisymm h this
    · intro h
      exact h.le
  rw [count, decide_eq_true_eq] at counted
  rw [← counted]
  constructor
  · intro h
    exact h.le
  · intro h
    exact le_antisymm h (bound _ (orderStatistic_mem hne i))

theorem orderStatistic_eq_greatest (hne : xs ≠ []) (i : Nat) :
    orderStatistic xs i = greatest xs ↔ xs.countP (fun x => decide (x < greatest xs)) ≤ i := by
  have counted := @orderStatistic_iff xs (fun x => decide (x < greatest xs))
    (fun x y hxy hy => by
      rw [decide_eq_true_eq] at hy ⊢
      exact hxy.trans_lt hy) (decide_eq_false (lt_irrefl _)) i
  rw [decide_eq_true_eq] at counted
  rw [← Nat.not_lt, ← counted, not_lt]
  have upper := (greatest_spec hne).2 _ (orderStatistic_mem hne i)
  constructor
  · intro h
    exact h.ge
  · intro h
    exact le_antisymm upper h

end OrderStatistic

theorem getD_getLastD {s : List ℝ} {i : Nat} (hi : s.length ≤ i + 1) (d : ℝ) :
    s.getD i (s.getLastD d) = s.getLastD d := by
  by_cases short : s.length ≤ i
  · rw [List.getD_eq_getElem?_getD, List.getElem?_eq_none short, Option.getD_none]
  · have inside : i < s.length := by omega
    have last : s.length - 1 = i := by omega
    rw [List.getD_eq_getElem?_getD, List.getLastD_eq_getLast?, List.getLast?_eq_getElem?, last,
      List.getElem?_eq_getElem inside, Option.getD_some]
    rfl

/-- A percentile interpolates the order statistics. -/
theorem percentileOf_eq (x : ℝ) (xs : List ℝ) {q : ℝ} (hq : 0 ≤ q) :
    Numpy.percentileOf x xs q = interpolate (orderStatistic (x :: xs)) (xs.length * (q / 100)) := by
  have length : (Numpy.sort (x :: xs)).length = xs.length + 1 := (perm_sort (x :: xs)).length_eq
  have same : (Numpy.sort (x :: xs)).getLastD x = (Numpy.sort (x :: xs)).getLastD 0 := by
    cases hs : Numpy.sort (x :: xs) with
    | nil => simp [hs] at length
    | cons y ys => rfl
  have hv : 0 ≤ (xs.length : ℝ) * (q / 100) := by positivity
  have floor : Numpy.floor ((xs.length : ℝ) * (q / 100)) = ⌊(xs.length : ℝ) * (q / 100)⌋ := rfl
  have nat : ⌊(xs.length : ℝ) * (q / 100)⌋.toNat = ⌊(xs.length : ℝ) * (q / 100)⌋₊ := Int.floor_toNat _
  have cast : ((⌊(xs.length : ℝ) * (q / 100)⌋ : Int) : ℝ) = ⌊(xs.length : ℝ) * (q / 100)⌋₊ :=
    (natCast_floor_eq_intCast_floor hv).symm
  unfold Numpy.percentileOf
  simp only [ofInt_eq, Int.cast_natCast, isNaN_eq, Bool.false_or, decide_eq_true_eq, floor, nat,
    same, lerp_eq, Int.cast_ofNat, cast]
  split_ifs with reached
  · have far : xs.length ≤ ⌊(xs.length : ℝ) * (q / 100)⌋₊ := by
      rw [← nat]
      omega
    unfold interpolate orderStatistic
    rw [getD_getLastD (by omega), getD_getLastD (by omega), sub_self, zero_mul, add_zero]
  · rfl

end Framework.Reals
