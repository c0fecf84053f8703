import Mathlib.Algebra.Order.Ring.Defs
import Mathlib.Algebra.Order.Ring.Int
import Mathlib.Data.Fin.VecNotation
import Mathlib.Data.List.FinRange
import Mathlib.Data.List.Range

namespace FraudPlatform.Training

variable {K : Type} [CommRing K] [LinearOrder K] {n : Nat}

/-- The rows of a training and of a validation set, by position. -/
abbrev Fold (n : Nat) := List (Fin n) × List (Fin n)

/-- `TimeSeriesSplit(n_splits).split(indices)`: the last `n_splits` blocks of equal size, each with
all rows before it. -/
def timeSeriesSplit (nSplits n : Nat) : Except String (List (Fold n)) :=
  if nSplits ≤ 1 then
    .error s!"k-fold cross-validation requires at least one train/test split by setting n_splits=2 or more, got n_splits={nSplits}."
  else if n < nSplits + 1 then
    .error s!"Cannot have number of folds={nSplits + 1} greater than the number of samples={n}."
  else
    let testSize := n / (nSplits + 1)
    let testStarts := List.range' (n - nSplits * testSize) nSplits testSize
    .ok (testStarts.map fun testStart =>
      ((List.finRange n).take testStart,((List.finRange n).drop testStart).take testSize))

/-- `val_idx[val_mask.values]`; the maximum of no rows is NaN, which no row is past. -/
def purge (dt : Fin n → K) (gapSeconds : K) (fold : Fold n) : List (Fin n) :=
  match (fold.1.map dt).max? with
  | none => []
  | some trainDtMax => fold.2.filter fun i => decide (trainDtMax + gapSeconds ≤ dt i)

/-- The pairs a split yields, and the numbers of the folds it drops. -/
structure Splits (n : Nat) where
  yielded : List (Fold n)
  skipped : List Nat

/-- The loop of `split`, from the fold `fold_i` on. -/
def splitFrom (dt : Fin n → K) (gapSeconds : K) : Nat → List (Fold n) → Splits n
  | _, [] => ⟨[],[]⟩
  | foldI, fold :: folds =>
    let rest := splitFrom dt gapSeconds (foldI + 1) folds
    if (purge dt gapSeconds fold).length = 0 then { rest with skipped := foldI :: rest.skipped }
    else { rest with yielded := (fold.1,purge dt gapSeconds fold) :: rest.yielded }

/-- `PurgedTimeSeriesSplit(n_splits, gap_days).split(X, y, transaction_dt)` -/
def split (nSplits : Nat) (gapDays : K) (dt : Fin n → K) : Except String (Splits n) := do
  let folds ← timeSeriesSplit nSplits n
  return splitFrom dt (gapDays * 86400) 0 folds

/-- The warnings, one for each dropped fold and one if none is left. -/
def Splits.warnings (s : Splits n) (nSplits : Nat) : List String :=
  s.skipped.map (fun foldI => s!"PurgedTimeSeriesSplit: fold {foldI} dropped (gap purged all validation rows); effective fold count is reduced") ++
    if s.skipped.length = nSplits then
      ["PurgedTimeSeriesSplit: every fold was dropped; consider reducing gap_days or increasing the data window"]
    else []

theorem mem_take_finRange {a : Fin n} {k : Nat} : a ∈ (List.finRange n).take k ↔ a.val < k := by
  rw [List.mem_take_iff_getElem]
  constructor
  · intro found
    obtain ⟨i, hi, rfl⟩ := found
    simp only [List.getElem_finRange, Fin.val_cast]
    omega
  · intro h
    exact ⟨a.val,by simp [h],by simp⟩

theorem mem_block_finRange {a : Fin n} {start size : Nat} :
    a ∈ ((List.finRange n).drop start).take size ↔ start ≤ a.val ∧ a.val < start + size := by
  rw [List.mem_take_iff_getElem]
  constructor
  · intro found
    obtain ⟨i, hi, rfl⟩ := found
    simp only [List.getElem_drop, List.getElem_finRange, Fin.val_cast]
    omega
  · intro both
    obtain ⟨low, high⟩ := both
    refine ⟨a.val - start,?_,?_⟩
    · simp only [List.length_drop, List.length_finRange]
      omega
    · simp only [List.getElem_drop, List.getElem_finRange]
      apply Fin.ext
      simp only [Fin.val_cast]
      omega

/-- What a fold is before the gap is purged. -/
structure Raw (fold : Fold n) : Prop where
  isPrefix : fold.1 <+: List.finRange n
  nonempty : fold.1 ≠ []
  before : ∀ a ∈ fold.1, ∀ b ∈ fold.2, a < b

/-- The `i`-th of the last `n_splits` blocks of `n / (n_splits + 1)` rows, and all rows before it. -/
structure LastBlock (nSplits i : Nat) (fold : Fold n) : Prop where
  train : ∀ a : Fin n, a ∈ fold.1 ↔ a.val + (nSplits - i) * (n / (nSplits + 1)) < n
  test : ∀ b : Fin n, b ∈ fold.2 ↔ n ≤ b.val + (nSplits - i) * (n / (nSplits + 1)) ∧
    b.val + (nSplits - i - 1) * (n / (nSplits + 1)) < n

theorem timeSeriesSplit_blocks {nSplits i : Nat} {folds : List (Fold n)} {fold : Fold n}
    (h : timeSeriesSplit nSplits n = .ok folds) (hi : folds[i]? = some fold) :
    LastBlock nSplits i fold := by
  unfold timeSeriesSplit at h
  split_ifs at h with one few
  cases h
  obtain ⟨bound, rfl⟩ := List.getElem?_eq_some_iff.mp hi
  rw [List.length_map, List.length_range'] at bound
  have room : nSplits * (n / (nSplits + 1)) ≤ n := by
    have whole := Nat.mul_div_le n (nSplits + 1)
    rw [Nat.add_mul] at whole
    omega
  -- the blocks before the `i`-th, and what is left from it on
  have split : nSplits * (n / (nSplits + 1)) =
      n / (nSplits + 1) * i + (nSplits - i) * (n / (nSplits + 1)) := by
    rw [Nat.mul_comm _ i, ← Nat.add_mul, Nat.add_sub_cancel' bound.le]
  have next : (nSplits - i) * (n / (nSplits + 1)) =
      (nSplits - i - 1) * (n / (nSplits + 1)) + n / (nSplits + 1) := by
    rw [← Nat.succ_mul, Nat.succ_eq_add_one, Nat.sub_add_cancel (Nat.sub_pos_of_lt bound)]
  rw [List.getElem_map, List.getElem_range']
  constructor
  · intro a
    rw [mem_take_finRange]
    omega
  · intro b
    rw [mem_block_finRange]
    omega

theorem timeSeriesSplit_length {nSplits : Nat} {folds : List (Fold n)}
    (h : timeSeriesSplit nSplits n = .ok folds) : folds.length = nSplits := by
  unfold timeSeriesSplit at h
  split_ifs at h
  cases h
  rw [List.length_map, List.length_range']

/-- The folds of `TimeSeriesSplit`: each is raw, and trains on the blocks of all before it. -/
theorem timeSeriesSplit_spec {nSplits : Nat} (two : 2 ≤ nSplits) (more : nSplits < n) :
    ∃ folds, timeSeriesSplit nSplits n = .ok folds ∧ (∀ fold ∈ folds, Raw fold) ∧ folds.Pairwise fun f g => f.2 ⊆ g.1 := by
  have size : 1 ≤ n / (nSplits + 1) := (Nat.one_le_div_iff (by omega)).mpr more
  have room : (nSplits + 1) * (n / (nSplits + 1)) ≤ n := Nat.mul_div_le n (nSplits + 1)
  have first : 1 ≤ n - nSplits * (n / (nSplits + 1)) := by
    rw [Nat.add_mul, Nat.one_mul] at room
    omega
  refine ⟨_,by rw [timeSeriesSplit, if_neg (by omega), if_neg (by omega)],?_,?_⟩
  · intro fold hf
    obtain ⟨start, hs, rfl⟩ := List.mem_map.mp hf
    obtain ⟨k, _, rfl⟩ := List.mem_range'.mp hs
    refine ⟨List.take_prefix _ _,?_,?_⟩
    · apply List.ne_nil_of_mem (a := ⟨0,by omega⟩)
      rw [mem_take_finRange]
      exact Nat.lt_of_lt_of_le first (Nat.le_add_right _ _)
    · intro a ha b hb
      have low := mem_take_finRange.mp ha
      have high := (mem_block_finRange.mp hb).1
      exact Fin.lt_def.mpr (by omega)
  · rw [List.pairwise_map]
    apply (List.pairwise_lt_range' _ (by omega)).imp_of_mem
    intro s t hs ht lt a ha
    rw [mem_take_finRange]
    obtain ⟨i, _, rfl⟩ := List.mem_range'.mp hs
    obtain ⟨j, _, rfl⟩ := List.mem_range'.mp ht
    have ij : i < j := Nat.lt_of_mul_lt_mul_left (Nat.lt_of_add_lt_add_left lt)
    have next := Nat.mul_le_mul_left (n / (nSplits + 1)) (Nat.succ_le_of_lt ij)
    rw [Nat.mul_succ] at next
    have high := (mem_block_finRange.mp ha).2
    omega

section Gap

variable [IsOrderedRing K] {dt : Fin n → K} {gap : K} {fold : Fold n}

theorem mem_purge (nonempty : fold.1 ≠ []) (b : Fin n) :
    b ∈ purge dt gap fold ↔ b ∈ fold.2 ∧ ∀ a ∈ fold.1, dt a + gap ≤ dt b := by
  have some : (fold.1.map dt).max?.isSome := List.isSome_max?_of_ne_nil (by simpa using nonempty)
  obtain ⟨m, hm⟩ := Option.isSome_iff_exists.mp some
  obtain ⟨attained, above⟩ := List.max?_eq_some_iff.mp hm
  obtain ⟨last, hl, rfl⟩ := List.mem_map.mp attained
  rw [purge, hm]
  simp only [List.mem_filter, decide_eq_true_eq]
  constructor
  · intro both
    obtain ⟨hb, past⟩ := both
    refine ⟨hb,fun a ha => ?_⟩
    have le := above (dt a) (List.mem_map_of_mem ha)
    exact (add_le_add_left le gap).trans past
  · intro both
    obtain ⟨hb, past⟩ := both
    exact ⟨hb,past last hl⟩

theorem purge_eq_nil (nonempty : fold.1 ≠ []) :
    purge dt gap fold = [] ↔ ∀ b ∈ fold.2, ∃ a ∈ fold.1, dt b < dt a + gap := by
  simp only [List.eq_nil_iff_forall_not_mem, mem_purge nonempty, not_and, not_forall, not_le,
    exists_prop]

end Gap

variable (dt : Fin n → K) (gap : K)

theorem splitFrom_yielded (foldI : Nat) (folds : List (Fold n)) :
    (splitFrom dt gap foldI folds).yielded =
      (folds.map fun fold => (fold.1,purge dt gap fold)).filter fun fold => fold.2 ≠ [] := by
  induction folds generalizing foldI with
  | nil => rfl
  | cons fold folds ih =>
    by_cases empty : purge dt gap fold = []
    · simp [splitFrom, empty, ih]
    · simp [splitFrom, empty, ih]

theorem splitFrom_skipped (foldI : Nat) (folds : List (Fold n)) :
    (splitFrom dt gap foldI folds).skipped =
      ((folds.zipIdx foldI).filter fun x => purge dt gap x.1 = []).map Prod.snd := by
  induction folds generalizing foldI with
  | nil => rfl
  | cons fold folds ih =>
    by_cases empty : purge dt gap fold = []
    · simp [splitFrom, empty, ih]
    · simp [splitFrom, empty, ih]

theorem mem_skipped {folds : List (Fold n)} {i : Nat} {fold : Fold n}
    (hi : folds[i]? = some fold) :
    i ∈ (splitFrom dt gap 0 folds).skipped ↔ purge dt gap fold = [] := by
  rw [splitFrom_skipped, List.mem_map]
  constructor
  · intro found
    obtain ⟨⟨other, j⟩, hx, rfl⟩ := found
    obtain ⟨mem, empty⟩ := List.mem_filter.mp hx
    rw [List.mem_zipIdx_iff_getElem?, hi] at mem
    cases mem
    simpa using empty
  · intro empty
    refine ⟨(fold,i),List.mem_filter.mpr ⟨?_,by simpa using empty⟩,rfl⟩
    rw [List.mem_zipIdx_iff_getElem?, hi]

theorem splitFrom_length (foldI : Nat) (folds : List (Fold n)) :
    (splitFrom dt gap foldI folds).yielded.length + (splitFrom dt gap foldI folds).skipped.length =
      folds.length := by
  induction folds generalizing foldI with
  | nil => rfl
  | cons fold folds ih =>
    have rest := ih (foldI + 1)
    simp only [splitFrom]
    split_ifs <;> simp only [List.length_cons] <;> omega

/-- What the folds of a split owe to time. -/
structure Purged (folds : List (Fold n)) (s : Splits n) : Prop where
  train : ∀ f ∈ s.yielded, f.1 ≠ [] ∧ f.1 <+: List.finRange n
  validation : ∀ f ∈ s.yielded, f.2 ≠ [] ∧ ∀ a ∈ f.1, ∀ b ∈ f.2, a < b
  origin : ∀ f ∈ s.yielded, ∃ fold ∈ folds, f.1 = fold.1 ∧
    ∀ b, b ∈ f.2 ↔ b ∈ fold.2 ∧ ∀ a ∈ fold.1, dt a + gap ≤ dt b
  past : ∀ f ∈ s.yielded, ∀ a ∈ f.1, ∀ b ∈ f.2, dt a + gap ≤ dt b
  disjoint : s.yielded.Pairwise fun f g => f.2.Disjoint g.2
  later : s.yielded.Pairwise fun f g => ∀ a ∈ f.2, ∀ b ∈ g.2, dt a + gap ≤ dt b
  dropped : ∀ i f, folds[i]? = some f →
    (i ∈ s.skipped ↔ ∀ b ∈ f.2, ∃ a ∈ f.1, dt b < dt a + gap)
  complete : s.yielded.length + s.skipped.length = folds.length

variable {dt gap}

theorem mem_yielded {folds : List (Fold n)} {f : Fold n}
    (hf : f ∈ (splitFrom dt gap 0 folds).yielded) :
    f.2 ≠ [] ∧ ∃ fold ∈ folds, fold.1 = f.1 ∧ purge dt gap fold = f.2 := by
  rw [splitFrom_yielded, List.mem_filter, List.mem_map] at hf
  obtain ⟨⟨fold, hfold, rfl⟩, nonempty⟩ := hf
  exact ⟨by simpa using nonempty,fold,hfold,rfl,rfl⟩

variable [IsOrderedRing K]

/-- A validation row lies in the training set of every later fold, which is what orders the
folds whatever the times are. -/
theorem yielded_nested {folds : List (Fold n)} (raw : ∀ fold ∈ folds, Raw fold)
    (nested : folds.Pairwise fun f g => f.2 ⊆ g.1) :
    (splitFrom dt gap 0 folds).yielded.Pairwise fun f g => f.2 ⊆ g.1 := by
  rw [splitFrom_yielded]
  apply List.Pairwise.filter
  rw [List.pairwise_map]
  apply nested.imp_of_mem
  intro f g hf _ sub a ha
  exact sub ((mem_purge (raw f hf).nonempty a).mp ha).1

theorem splitFrom_purged {folds : List (Fold n)} (raw : ∀ fold ∈ folds, Raw fold)
    (nested : folds.Pairwise fun f g => f.2 ⊆ g.1) :
    Purged dt gap folds (splitFrom dt gap 0 folds) := by
  have fold_of : ∀ f ∈ (splitFrom dt gap 0 folds).yielded, f.2 ≠ [] ∧ f.1 ≠ [] ∧
      f.1 <+: List.finRange n ∧ ∀ a ∈ f.1, ∀ b ∈ f.2, a < b ∧ dt a + gap ≤ dt b := by
    intro f hf
    obtain ⟨nonempty, fold, hfold, train, val⟩ := mem_yielded hf
    have h := raw fold hfold
    refine ⟨nonempty,train ▸ h.nonempty,train ▸ h.isPrefix,fun a ha b hb => ?_⟩
    rw [← val] at hb
    rw [← train] at ha
    obtain ⟨mem, past⟩ := (mem_purge h.nonempty b).mp hb
    exact ⟨h.before a ha b mem,past a ha⟩
  have order : (splitFrom dt gap 0 folds).yielded.Pairwise fun f g => f.2 ⊆ g.1 :=
    yielded_nested raw nested
  refine ⟨?_,?_,?_,?_,?_,?_,?_,splitFrom_length dt gap 0 folds⟩
  · intro f hf
    exact ⟨(fold_of f hf).2.1,(fold_of f hf).2.2.1⟩
  · intro f hf
    exact ⟨(fold_of f hf).1,fun a ha b hb => ((fold_of f hf).2.2.2 a ha b hb).1⟩
  · intro f hf
    obtain ⟨_, fold, hfold, train, val⟩ := mem_yielded hf
    refine ⟨fold,hfold,train.symm,fun b => ?_⟩
    rw [← val]
    exact mem_purge (raw fold hfold).nonempty b
  · intro f hf a ha b hb
    exact ((fold_of f hf).2.2.2 a ha b hb).2
  · apply order.imp_of_mem
    intro f g _ hg sub a ha hb
    exact lt_irrefl a ((fold_of g hg).2.2.2 a (sub ha) a hb).1
  · apply order.imp_of_mem
    intro f g _ hg sub a ha b hb
    exact ((fold_of g hg).2.2.2 a (sub ha) b hb).2
  · intro i f hi
    rw [mem_skipped dt gap hi]
    exact purge_eq_nil (raw f (List.mem_of_getElem? hi)).nonempty

/-- The split of any times, sorted or not, with any gap. -/
theorem split_purged {nSplits : Nat} (two : 2 ≤ nSplits) (more : nSplits < n) (gapDays : K)
    (dt : Fin n → K) :
    ∃ folds s, timeSeriesSplit nSplits n = .ok folds ∧ folds.length = nSplits ∧
      (∀ i fold, folds[i]? = some fold → LastBlock nSplits i fold) ∧
      split nSplits gapDays dt = .ok s ∧ Purged dt (gapDays * 86400) folds s := by
  obtain ⟨folds, eq, raw, nested⟩ := timeSeriesSplit_spec two more
  refine ⟨folds,_,eq,timeSeriesSplit_length eq,fun i fold hi => timeSeriesSplit_blocks eq hi,?_,
    splitFrom_purged raw nested⟩
  rw [split, eq]
  rfl

omit [IsOrderedRing K] in
/-- Every fold is yielded or warned of, and one warning more tells that none was yielded. -/
theorem split_warns {nSplits : Nat} {gapDays : K} {dt : Fin n → K} {s : Splits n}
    (h : split nSplits gapDays dt = .ok s) :
    (s.warnings nSplits).length + s.yielded.length =
      nSplits + if s.yielded = [] then 1 else 0 := by
  unfold split at h
  cases hf : timeSeriesSplit nSplits n with
  | error e =>
    rw [hf] at h
    cases h
  | ok folds =>
    rw [hf] at h
    obtain rfl := Except.ok.inj h
    have total := splitFrom_length dt (gapDays * 86400) 0 folds
    rw [timeSeriesSplit_length hf] at total
    rw [Splits.warnings, List.length_append, List.length_map]
    by_cases none : (splitFrom dt (gapDays * 86400) 0 folds).yielded = []
    · rw [none, List.length_nil] at total
      rw [if_pos none, none, if_pos (by omega), List.length_singleton, List.length_nil]
      omega
    · have some := List.length_pos_iff.mpr none
      rw [if_neg none, if_neg (by omega), List.length_nil]
      omega

/-- Four rows, the third out of order. -/
def unsortedTimes : Fin 4 → Int := ![0,100000,50000,190000]

theorem split_purged_unsorted : ∃ folds s, timeSeriesSplit 2 4 = .ok folds ∧ folds.length = 2 ∧
    (∀ i fold, folds[i]? = some fold → LastBlock 2 i fold) ∧
    split 2 1 unsortedTimes = .ok s ∧ Purged unsortedTimes (1 * 86400) folds s :=
  split_purged (by decide) (by decide) 1 unsortedTimes

example : (split 2 1 unsortedTimes).toOption.map (fun s => (s.yielded,s.skipped)) =
    some ([([0,1,2],[3])],[0]) := by decide

end FraudPlatform.Training
