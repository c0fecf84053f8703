import FraudPlatform.Framework.FloatFloor

namespace FraudPlatform.Training

open Framework Ieee

variable {ρ K : Type} [LinearOrder K]

/-- `int(n * fraction)` -/
def cut (fraction : ℚ) (n : Nat) : Nat :=
  ⌊binary64.round (binary64.round n * binary64.round fraction)⌋₊

/-- What `df.sort_values("TransactionDT")` may return: quicksort keeps no order among equals. -/
structure SortValues (dt : ρ → K) (df sorted : List ρ) : Prop where
  perm : sorted.Perm df
  ordered : sorted.Pairwise fun a b => dt a ≤ dt b

/-- The end of `preprocess.main`, on the sorted frame. The extremum of no rows is NaN, which is
below nothing. -/
def temporalSplit (dt : ρ → K) (df : List ρ) : Except String (List ρ × List ρ) :=
  let trainEnd := cut (4 / 5) df.length
  match ((df.take trainEnd).map dt).max?, ((df.drop trainEnd).map dt).min? with
  | some last, some first =>
    if last < first then .ok (df.take trainEnd,df.drop trainEnd)
    else .error "Temporal split leakage detected"
  | _, _ => .error "Temporal split leakage detected"

/-- The rows to fit on and the rows to choose the threshold on, for both models. -/
def validationSplit (trainDf : List ρ) : List ρ × List ρ :=
  let valStart := cut (9 / 10) trainDf.length
  (trainDf.take valStart,trainDf.drop valStart)

theorem cut_eq {fraction : ℚ} {n : Nat} (small : n ≤ 2 ^ 50) :
    cut fraction n = ⌊binary64.round (n * binary64.round fraction)⌋₊ := by
  have whole : binary64.round n = n := Format.round_natCast (by decide) (by decide)
    (small.trans (Nat.pow_le_pow_right (by decide) (by decide)))
  rw [cut, whole]

/-- No frame that fits in memory is cut beside the place the fraction means. -/
theorem cut_train {n : Nat} (small : n ≤ 2 ^ 50) : cut (4 / 5) n = n * 4 / 5 := by
  have double : binary64.round ((4 : Nat) / (5 : Nat) : ℚ) = (3602879701896397 : Nat) / 2 ^ 52 := by
    decide +kernel
  have close : 5 * 2 ^ 52 < (2 ^ 52 - n * (3602879701896397 * 5 - 4 * 2 ^ 52)) * 16 := by
    norm_num
    omega
  rw [cut_eq small]
  exact floor_round_scaled double (by decide) (by norm_num) small close

theorem cut_val {n : Nat} (small : n ≤ 2 ^ 50) : cut (9 / 10) n = n * 9 / 10 := by
  have double : binary64.round ((9 : Nat) / (10 : Nat) : ℚ) = (8106479329266893 : Nat) / 2 ^ 53 := by
    decide +kernel
  have close : 10 * 2 ^ 53 < (2 ^ 53 - n * (8106479329266893 * 10 - 9 * 2 ^ 53)) * 16 := by
    norm_num
    omega
  rw [cut_eq small]
  exact floor_round_scaled double (by decide) (by norm_num) small close

section Sorted

variable {dt : ρ → K} {rows : List ρ}

theorem take_countP (ordered : rows.Pairwise fun a b => dt a ≤ dt b) (c : K) :
    rows.take (rows.countP (dt · ≤ c)) = rows.filter (dt · ≤ c) ∧
      rows.drop (rows.countP (dt · ≤ c)) = rows.filter (c < dt ·) := by
  induction rows with
  | nil => exact ⟨rfl,rfl⟩
  | cons r rows ih =>
    obtain ⟨first, rest⟩ := List.pairwise_cons.mp ordered
    by_cases early : dt r ≤ c
    · obtain ⟨taken, dropped⟩ := ih rest
      have not_late : ¬c < dt r := not_lt.mpr early
      rw [List.countP_cons_of_pos (by simpa using early), List.take_succ_cons,
        List.drop_succ_cons, taken, dropped, List.filter_cons_of_pos (by simpa using early),
        List.filter_cons_of_neg (by simpa using not_late)]
      exact ⟨rfl,rfl⟩
    · have late : ∀ a ∈ r :: rows, c < dt a := by
        intro a ha
        obtain rfl | later := List.mem_cons.mp ha
        · exact not_le.mp early
        · exact (not_le.mp early).trans_le (first a later)
      have none : (r :: rows).countP (dt · ≤ c) = 0 := by
        rw [List.countP_eq_zero]
        intro a ha
        simpa using late a ha
      rw [none, List.take_zero, List.drop_zero]
      refine ⟨(List.filter_eq_nil_iff.mpr fun a ha => ?_).symm,
        (List.filter_eq_self.mpr fun a ha => ?_).symm⟩
      · simpa using late a ha
      · simpa using late a ha

/-- A cut is strict in time exactly if some moment has that many rows up to it, and more after. -/
theorem strict_cut_iff (ordered : rows.Pairwise fun a b => dt a ≤ dt b) (k : Nat) :
    (∃ last first, ((rows.take k).map dt).max? = some last ∧
        ((rows.drop k).map dt).min? = some first ∧ last < first) ↔
      (0 < k ∧ k < rows.length) ∧ ∃ c, rows.countP (dt · ≤ c) = k := by
  constructor
  · intro strict
    obtain ⟨last, first, hlast, hfirst, less⟩ := strict
    obtain ⟨lastIn, upper⟩ := List.max?_eq_some_iff.mp hlast
    obtain ⟨firstIn, lower⟩ := List.min?_eq_some_iff.mp hfirst
    have inside : 0 < k ∧ k < rows.length := by
      have some := List.length_pos_of_mem lastIn
      have more := List.length_pos_of_mem firstIn
      rw [List.length_map, List.length_take] at some
      rw [List.length_map, List.length_drop] at more
      omega
    refine ⟨inside,last,?_⟩
    have before : (rows.take k).countP (dt · ≤ last) = (rows.take k).length := by
      rw [List.countP_eq_length]
      intro a ha
      simpa using upper (dt a) (List.mem_map_of_mem ha)
    have after : (rows.drop k).countP (dt · ≤ last) = 0 := by
      rw [List.countP_eq_zero]
      intro a ha
      simpa using less.trans_le (lower (dt a) (List.mem_map_of_mem ha))
    have whole := congrArg (List.countP (dt · ≤ last)) (List.take_append_drop k rows)
    rw [List.countP_append, before, after, List.length_take] at whole
    omega
  · intro moment
    obtain ⟨⟨some, more⟩, c, rfl⟩ := moment
    obtain ⟨taken, dropped⟩ := take_countP ordered c
    have left : (rows.take (rows.countP (dt · ≤ c))).map dt ≠ [] := by
      intro empty
      have length := congrArg List.length empty
      rw [List.length_map, List.length_take, List.length_nil] at length
      omega
    have right : (rows.drop (rows.countP (dt · ≤ c))).map dt ≠ [] := by
      intro empty
      have length := congrArg List.length empty
      rw [List.length_map, List.length_drop, List.length_nil] at length
      omega
    obtain ⟨last, hlast⟩ := Option.isSome_iff_exists.mp (List.isSome_max?_of_ne_nil left)
    obtain ⟨first, hfirst⟩ := Option.isSome_iff_exists.mp (List.isSome_min?_of_ne_nil right)
    refine ⟨last,first,hlast,hfirst,?_⟩
    have lastIn := (List.max?_eq_some_iff.mp hlast).1
    have firstIn := (List.min?_eq_some_iff.mp hfirst).1
    rw [taken] at lastIn
    rw [dropped] at firstIn
    obtain ⟨a, ha, rfl⟩ := List.mem_map.mp lastIn
    obtain ⟨b, hb, rfl⟩ := List.mem_map.mp firstIn
    have early : dt a ≤ c := by simpa using (List.mem_filter.mp ha).2
    have late : c < dt b := by simpa using (List.mem_filter.mp hb).2
    exact early.trans_lt late

end Sorted

/-- What a split owes to time: the past trains, of which the end chooses the threshold, and the
future tests. -/
structure Chronological (dt : ρ → K) (df train test : List ρ) : Prop where
  rows : (train ++ test).Perm df
  share : train.length = df.length * 4 / 5
  past : ∀ a ∈ train, ∀ b ∈ test, dt a < dt b
  validation : (validationSplit train).1 ++ (validationSplit train).2 = train ∧
    (validationSplit train).1.length = train.length * 9 / 10
  chosen : (validationSplit train).2 ≠ [] ∧
    ∀ a ∈ (validationSplit train).1, ∀ b ∈ (validationSplit train).2, dt a ≤ dt b

section Split

variable {dt : ρ → K} {df sorted train test : List ρ}

theorem temporalSplit_eq_ok (small : df.length ≤ 2 ^ 50) :
    temporalSplit dt df = .ok (train,test) ↔
      (train = df.take (df.length * 4 / 5) ∧ test = df.drop (df.length * 4 / 5)) ∧
      ∃ last first, (train.map dt).max? = some last ∧ (test.map dt).min? = some first ∧
        last < first := by
  simp only [temporalSplit, cut_train small]
  constructor
  · intro ok
    cases hlast : ((df.take (df.length * 4 / 5)).map dt).max? with
    | none =>
      rw [hlast] at ok
      cases ok
    | some last =>
      cases hfirst : ((df.drop (df.length * 4 / 5)).map dt).min? with
      | none =>
        rw [hlast, hfirst] at ok
        cases ok
      | some first =>
        simp only [hlast, hfirst] at ok
        split_ifs at ok with less
        cases ok
        exact ⟨⟨rfl,rfl⟩,last,first,hlast,hfirst,less⟩
  · intro parts
    obtain ⟨⟨rfl, rfl⟩, last, first, hlast, hfirst, less⟩ := parts
    simp only [hlast, hfirst, if_pos less]

/-- The assertion holds exactly if some moment of the data has the share of the rows before it. -/
theorem temporalSplit_passes_iff (sorts : SortValues dt df sorted) (small : df.length ≤ 2 ^ 50) :
    (∃ train test, temporalSplit dt sorted = .ok (train,test)) ↔
      2 ≤ df.length ∧ ∃ c, df.countP (dt · ≤ c) = df.length * 4 / 5 := by
  have length := sorts.perm.length_eq
  have count (c : K) := sorts.perm.countP_eq (dt · ≤ c)
  simp only [temporalSplit_eq_ok (length ▸ small), ← count]
  rw [← length]
  constructor
  · intro passes
    obtain ⟨train, test, ⟨rfl, rfl⟩, strict⟩ := passes
    obtain ⟨inside, moment⟩ := (strict_cut_iff sorts.ordered _).mp strict
    exact ⟨by omega,moment⟩
  · intro moment
    exact ⟨_,_,⟨rfl,rfl⟩,(strict_cut_iff sorts.ordered _).mpr ⟨by omega,moment.2⟩⟩

/-- Then the two parts hold the rows up to that moment and the rows after it. -/
theorem temporalSplit_rows (sorts : SortValues dt df sorted) (small : df.length ≤ 2 ^ 50)
    (ok : temporalSplit dt sorted = .ok (train,test)) {c : K}
    (moment : df.countP (dt · ≤ c) = df.length * 4 / 5) :
    train.Perm (df.filter (dt · ≤ c)) ∧ test.Perm (df.filter (c < dt ·)) := by
  have length := sorts.perm.length_eq
  obtain ⟨⟨rfl, rfl⟩, _⟩ := (temporalSplit_eq_ok (length ▸ small)).mp ok
  rw [length, ← moment, ← sorts.perm.countP_eq]
  obtain ⟨taken, dropped⟩ := take_countP sorts.ordered c
  rw [taken, dropped]
  exact ⟨sorts.perm.filter _,sorts.perm.filter _⟩

theorem temporalSplit_chronological (sorts : SortValues dt df sorted)
    (small : df.length ≤ 2 ^ 50) (ok : temporalSplit dt sorted = .ok (train,test)) :
    Chronological dt df train test := by
  have length := sorts.perm.length_eq
  obtain ⟨⟨htrain, htest⟩, last, first, hlast, hfirst, less⟩ :=
    (temporalSplit_eq_ok (length ▸ small)).mp ok
  have share : train.length = df.length * 4 / 5 := by
    rw [htrain, List.length_take, length]
    omega
  have few : train.length ≤ 2 ^ 50 := by omega
  have ordered : train.Pairwise fun a b => dt a ≤ dt b := by
    rw [htrain]
    exact sorts.ordered.sublist (List.take_sublist _ _)
  have nonempty := List.length_pos_of_mem (List.max?_eq_some_iff.mp hlast).1
  rw [List.length_map] at nonempty
  refine ⟨?_,share,?_,?_,?_,?_⟩
  · rw [htrain, htest, List.take_append_drop]
    exact sorts.perm
  · intro a ha b hb
    have before := (List.max?_eq_some_iff.mp hlast).2 (dt a) (List.mem_map_of_mem ha)
    have after := (List.min?_eq_some_iff.mp hfirst).2 (dt b) (List.mem_map_of_mem hb)
    exact before.trans_lt (less.trans_le after)
  · refine ⟨List.take_append_drop _ _,?_⟩
    rw [validationSplit, List.length_take, cut_val few]
    omega
  · intro empty
    have gone := congrArg List.length empty
    rw [validationSplit, List.length_drop, cut_val few, List.length_nil] at gone
    omega
  · rw [← List.take_append_drop (cut (9 / 10) train.length) train] at ordered
    exact (List.pairwise_append.mp ordered).2.2

/-- Whether preprocessing succeeds, and which rows train and which test, is decided by the times
alone, however the sort orders rows of one time. -/
theorem split_temporal (sorts : SortValues dt df sorted) (small : df.length ≤ 2 ^ 50) :
    ((∃ train test, temporalSplit dt sorted = .ok (train,test)) ↔
      2 ≤ df.length ∧ ∃ c, df.countP (dt · ≤ c) = df.length * 4 / 5) ∧
    ∀ train test, temporalSplit dt sorted = .ok (train,test) →
      Chronological dt df train test ∧ ∀ sorted', SortValues dt df sorted' →
        ∃ train' test', temporalSplit dt sorted' = .ok (train',test') ∧
          train'.Perm train ∧ test'.Perm test := by
  refine ⟨temporalSplit_passes_iff sorts small,fun train test ok => ?_⟩
  refine ⟨temporalSplit_chronological sorts small ok,fun sorted' sorts' => ?_⟩
  have passes := (temporalSplit_passes_iff sorts small).mp ⟨train,test,ok⟩
  obtain ⟨train', test', ok'⟩ := (temporalSplit_passes_iff sorts' small).mpr passes
  obtain ⟨_, c, moment⟩ := passes
  obtain ⟨trained, tested⟩ := temporalSplit_rows sorts small ok moment
  obtain ⟨trained', tested'⟩ := temporalSplit_rows sorts' small ok' moment
  exact ⟨train',test',ok',trained'.trans trained.symm,tested'.trans tested.symm⟩

end Split

/-- Four rows of three times, the equal ones in one part. -/
def fourRows : List (Nat × Int) := [(1,20),(2,10),(3,30),(4,20)]

def fourSorted : List (Nat × Int) := [(2,10),(4,20),(1,20),(3,30)]

theorem sortValues_fourSorted : SortValues Prod.snd fourRows fourSorted := ⟨by decide,by decide⟩

theorem split_temporal_small :
    ((∃ train test, temporalSplit Prod.snd fourSorted = .ok (train,test)) ↔
      2 ≤ fourRows.length ∧ ∃ c, fourRows.countP (Prod.snd · ≤ c) = fourRows.length * 4 / 5) ∧
    ∀ train test, temporalSplit Prod.snd fourSorted = .ok (train,test) →
      Chronological Prod.snd fourRows train test ∧
        ∀ sorted', SortValues Prod.snd fourRows sorted' →
          ∃ train' test', temporalSplit Prod.snd sorted' = .ok (train',test') ∧
            train'.Perm train ∧ test'.Perm test :=
  split_temporal sortValues_fourSorted (by decide)

end FraudPlatform.Training
