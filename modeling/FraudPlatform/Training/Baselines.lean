import FraudPlatform.Framework.FloatFloor
import Mathlib.Algebra.BigOperators.Group.List.Lemmas
import Mathlib.Algebra.BigOperators.Ring.List
import Mathlib.Data.List.Dedup
import Mathlib.Data.List.Sort

namespace FraudPlatform.Training

open Framework Ieee

variable {α κ τ : Type} [DecidableEq κ]

/-- The positions of one class: a group of `y.reset_index(drop=True).groupby(y.values)`. -/
def group (y : List κ) (c : κ) : List Nat :=
  (List.range y.length).filter fun i => decide (y[i]? = some c)

/-- `int(n * len(g) / len(y))`: the quotient is a double, which `int` truncates. -/
def share (n size m : Nat) : Nat := ⌊binary64.round ((n * size : Nat) / m)⌋₊

/-- `g.sample(k)`, whichever members it picks. -/
abbrev Sampler := List Nat → Nat → List Nat

/-- As many distinct members of the group as were asked for. -/
def Sampler.Picks (sample : Sampler) : Prop :=
  ∀ g k, k ≤ g.length → (sample g k).Subperm g ∧ (sample g k).length = k

/-- What is drawn from one class. -/
def drawn (sample : Sampler) (y : List κ) (n : Nat) (c : κ) : List Nat :=
  sample (group y c) (min (group y c).length (share n (group y c).length y.length))

/-- `idx` once it is sorted. -/
def sampledPositions (sample : Sampler) (y : List κ) (n : Nat) : List Nat :=
  (y.dedup.flatMap (drawn sample y n)).mergeSort

/-- `xs.iloc[idx]` for positions that exist. -/
def iloc {β : Type} (xs : List β) (idx : List Nat) : List β := idx.filterMap (xs[·]?)

/-- `_stratified_sample(X, y, transaction_dt, n)` -/
def stratifiedSample (sample : Sampler) (X : List α) (y : List κ) (transactionDt : List τ) (n : Nat) :
    List α × List κ × List τ :=
  if X.length ≤ n then (X,y,transactionDt)
  else
    let idx := sampledPositions sample y n
    (iloc X idx,iloc y idx,iloc transactionDt idx)

section Groups

variable {y : List κ} {c : κ}

theorem mem_group {i : Nat} : i ∈ group y c ↔ y[i]? = some c := by
  rw [group, List.mem_filter, List.mem_range, decide_eq_true_eq]
  exact ⟨fun h => h.2,fun h => ⟨(List.getElem?_eq_some_iff.mp h).1,h⟩⟩

theorem nodup_group : (group y c).Nodup := List.nodup_range.filter _

theorem length_group : (group y c).length = y.count c := by
  have listed : (List.range y.length).map (y[·]?) = y.map some := by
    apply List.ext_getElem?
    intro i
    by_cases h : i < y.length
    · simp [h]
    · simp [h]
  have counted := congrArg (List.count (some c)) listed
  rw [List.count_map_of_injective _ _ (Option.some_injective κ), List.count, List.countP_map] at counted
  rw [← counted, group, ← List.countP_eq_length_filter]
  apply List.countP_congr
  simp

end Groups

section Blocks

variable {β : Type} {f : β → List Nat} {label : Nat → Option β}

theorem countP_flatMap [DecidableEq β] {cs : List β} (nodup : cs.Nodup)
    (labelled : ∀ c ∈ cs, ∀ i ∈ f c, label i = some c) {c : β} (hc : c ∈ cs) :
    (cs.flatMap f).countP (fun i => decide (label i = some c)) = (f c).length := by
  induction cs with
  | nil => cases hc
  | cons d cs ih =>
    obtain ⟨fresh, rest⟩ := List.nodup_cons.mp nodup
    rw [List.flatMap_cons, List.countP_append]
    by_cases same : c = d
    · subst same
      have own : (f c).countP (fun i => decide (label i = some c)) = (f c).length :=
        List.countP_eq_length.mpr fun i hi =>
          decide_eq_true (labelled c List.mem_cons_self i hi)
      have others : (cs.flatMap f).countP (fun i => decide (label i = some c)) = 0 := by
        apply List.countP_eq_zero.mpr
        intro i hi
        obtain ⟨d, hd, mem⟩ := List.mem_flatMap.mp hi
        rw [labelled d (List.mem_cons_of_mem c hd) i mem, decide_eq_true_eq, Option.some.injEq]
        rintro rfl
        exact fresh hd
      rw [own, others, Nat.add_zero]
    · have other : (f d).countP (fun i => decide (label i = some c)) = 0 := by
        apply List.countP_eq_zero.mpr
        intro i hi
        rw [labelled d List.mem_cons_self i hi, decide_eq_true_eq, Option.some.injEq]
        exact Ne.symm same
      rw [other, Nat.zero_add]
      exact ih rest (fun x hx => labelled x (List.mem_cons_of_mem d hx))
        ((List.mem_cons.mp hc).resolve_left same)

/-- Floors of shares lose less than one each. -/
theorem sum_div_bounds (cs : List β) (w : β → Nat) {m : Nat} (positive : 0 < m) :
    m * (cs.map fun c => w c / m).sum ≤ (cs.map w).sum ∧
      (cs.map w).sum + cs.length ≤ m * (cs.map fun c => w c / m).sum + m * cs.length := by
  induction cs with
  | nil => simp
  | cons c cs ih =>
    have split := Nat.div_add_mod (w c) m
    have rest := Nat.mod_lt (w c) positive
    simp only [List.map_cons, List.sum_cons, List.length_cons, Nat.mul_add, Nat.mul_one]
    omega

end Blocks

section Rows

variable {β : Type} {xs : List β} {idx : List Nat}

theorem iloc_getElem? (inside : ∀ i ∈ idx, i < xs.length) (k : Nat) :
    (iloc xs idx)[k]? = idx[k]?.bind (xs[·]?) := by
  induction idx generalizing k with
  | nil => rfl
  | cons i idx ih =>
    have here := List.getElem?_eq_getElem (inside i List.mem_cons_self)
    rw [iloc, List.filterMap_cons_some here]
    cases k with
    | zero => exact here.symm
    | succ k => exact ih (fun j hj => inside j (List.mem_cons_of_mem i hj)) k

/-- Increasing positions keep any order the rows have. -/
theorem iloc_pairwise {r : β → β → Prop} (increasing : idx.Pairwise (· < ·)) (h : xs.Pairwise r) :
    (iloc xs idx).Pairwise r := by
  rw [iloc, List.pairwise_filterMap]
  apply increasing.imp
  intro i j lt x hx y hy
  obtain ⟨hi, rfl⟩ := List.getElem?_eq_some_iff.mp hx
  obtain ⟨hj, rfl⟩ := List.getElem?_eq_some_iff.mp hy
  exact List.pairwise_iff_getElem.mp h i j hi hj lt

end Rows

/-- What a stratified sample is: the rows of all three objects at the same increasing positions,
and from each class the floor of its share. -/
structure Stratified (X : List α) (y : List κ) (transactionDt : List τ) (n : Nat) (idx : List Nat)
    (out : List α × List κ × List τ) : Prop where
  increasing : idx.Pairwise (· < ·)
  inside : ∀ i ∈ idx, i < y.length
  aligned : ∀ k : Nat, out.1[k]? = idx[k]?.bind (fun i => X[i]?) ∧
    out.2.1[k]? = idx[k]?.bind (fun i => y[i]?) ∧
    out.2.2[k]? = idx[k]?.bind (fun i => transactionDt[i]?)
  ordered : ∀ r : τ → τ → Prop, transactionDt.Pairwise r → out.2.2.Pairwise r
  share : ∀ c ∈ y, idx.countP (fun i => decide (y[i]? = some c)) = n * y.count c / y.length
  total : n ≤ idx.length + (y.dedup.length - 1) ∧ idx.length ≤ n

section Sampled

variable {sample : Sampler} {y : List κ} {n : Nat} (picks : sample.Picks)

include picks

theorem drawn_spec (c : κ) :
    (drawn sample y n c).Nodup ∧ (∀ i ∈ drawn sample y n c, y[i]? = some c) ∧
      (drawn sample y n c).length = min (y.count c) (share n (y.count c) y.length) := by
  obtain ⟨part, size⟩ := picks (group y c)
    (min (group y c).length (share n (group y c).length y.length)) (min_le_left _ _)
  rw [length_group] at part size
  obtain ⟨part', perm, sub⟩ := part
  rw [drawn, length_group]
  refine ⟨?_,?_,size⟩
  · exact perm.nodup_iff.mp (sub.nodup nodup_group)
  · intro i hi
    exact mem_group.mp (sub.subset (perm.mem_iff.mpr hi))

theorem sampled_spec :
    (sampledPositions sample y n).Pairwise (· < ·) ∧
      (∀ i ∈ sampledPositions sample y n, i < y.length) ∧
      (∀ c ∈ y, (sampledPositions sample y n).countP (fun i => decide (y[i]? = some c)) =
        min (y.count c) (share n (y.count c) y.length)) ∧
      (sampledPositions sample y n).length =
        (y.dedup.map fun c => min (y.count c) (share n (y.count c) y.length)).sum := by
  have perm : (sampledPositions sample y n).Perm (y.dedup.flatMap (drawn sample y n)) :=
    List.mergeSort_perm _ _
  have labelled : ∀ c ∈ y.dedup, ∀ i ∈ drawn sample y n c, y[i]? = some c :=
    fun c _ => (drawn_spec picks c).2.1
  have nodup : (y.dedup.flatMap (drawn sample y n)).Nodup := by
    refine List.nodup_flatMap.mpr ⟨fun c _ => (drawn_spec picks c).1,?_⟩
    apply y.nodup_dedup.imp
    intro c d ne i hc hd
    have same := ((drawn_spec picks c).2.1 i hc).symm.trans ((drawn_spec picks d).2.1 i hd)
    exact ne (Option.some.inj same)
  refine ⟨?_,?_,?_,?_⟩
  · have sorted : (sampledPositions sample y n).Pairwise (· ≤ ·) := List.pairwise_mergeSort' _ _
    exact (sorted.and (perm.nodup_iff.mpr nodup)).imp fun h => lt_of_le_of_ne h.1 h.2
  · intro i hi
    obtain ⟨c, hc, mem⟩ := List.mem_flatMap.mp (perm.mem_iff.mp hi)
    exact (List.getElem?_eq_some_iff.mp (labelled c hc i mem)).1
  · intro c hc
    rw [perm.countP_eq, countP_flatMap y.nodup_dedup labelled (List.mem_dedup.mpr hc)]
    exact (drawn_spec picks c).2.2
  · rw [perm.length_eq, List.length_flatMap]
    congr 1
    exact List.map_congr_left fun c _ => (drawn_spec picks c).2.2

end Sampled

/-- The sample size of a class is the floor of its share where the floating quotient has it. -/
theorem share_eq_iff {n c m : Nat} (some : 0 < n) (less : n < m) (member : 0 < c) :
    min c (share n c m) = n * c / m ↔ FloorExact (n * c) m := by
  have below : n * c / m < c := by
    rw [Nat.div_lt_iff_lt_mul (some.trans less), Nat.mul_comm]
    exact Nat.mul_lt_mul_of_pos_left less member
  rw [← floor_round_iff (some.trans less) (Nat.mul_pos some member), share]
  omega

/-- The shares of all classes miss less than one row a class. -/
theorem total_of_shares {y : List κ} {n total : Nat} (some : 0 < n) (less : n < y.length)
    (eq : total = (y.dedup.map fun c => n * y.count c / y.length).sum) :
    n ≤ total + (y.dedup.length - 1) ∧ total ≤ n := by
  have positive : 0 < y.length := some.trans less
  obtain ⟨low, high⟩ := sum_div_bounds y.dedup (fun c => n * y.count c) positive
  have whole : (y.dedup.map fun c => n * y.count c).sum = n * y.length := by
    rw [List.sum_map_mul_left, List.sum_map_count_dedup_eq_length]
  have classes : 0 < y.dedup.length := by
    obtain ⟨c, hc⟩ := List.exists_mem_of_length_pos positive
    exact List.length_pos_of_mem (List.mem_dedup.mpr hc)
  rw [whole, ← eq] at low high
  refine ⟨?_,?_⟩
  · have room : n * y.length < (total + y.dedup.length) * y.length := by
      rw [Nat.add_mul, Nat.mul_comm total, Nat.mul_comm y.dedup.length]
      omega
    have := Nat.lt_of_mul_lt_mul_right room
    omega
  · rw [Nat.mul_comm] at low
    exact Nat.le_of_mul_le_mul_right low positive

section Exact

variable {sample : Sampler} (picks : sample.Picks) {X : List α} {y : List κ} {transactionDt : List τ}
  {n : Nat}

include picks

theorem floors_of_stratified (some : 0 < n) (less : n < y.length)
    {out : List α × List κ × List τ}
    (h : Stratified X y transactionDt n (sampledPositions sample y n) out) :
    ∀ c ∈ y, FloorExact (n * y.count c) y.length := by
  intro c hc
  obtain ⟨_, _, counts, _⟩ := sampled_spec (y := y) (n := n) picks
  rw [← share_eq_iff some less (List.count_pos_iff.mpr hc), ← counts c hc]
  exact h.share c hc

theorem stratified_of_floors (rows : X.length = y.length) (times : transactionDt.length = y.length)
    (some : 0 < n) (less : n < y.length)
    (floors : ∀ c ∈ y, FloorExact (n * y.count c) y.length) :
    Stratified X y transactionDt n (sampledPositions sample y n)
      (stratifiedSample sample X y transactionDt n) := by
  obtain ⟨increasing, inside, counts, length⟩ := sampled_spec (y := y) (n := n) picks
  have out : stratifiedSample sample X y transactionDt n =
      (iloc X (sampledPositions sample y n),iloc y (sampledPositions sample y n),
        iloc transactionDt (sampledPositions sample y n)) := by
    rw [stratifiedSample, if_neg (by omega)]
  have shares : ∀ c ∈ y, min (y.count c) (share n (y.count c) y.length) =
      n * y.count c / y.length :=
    fun c hc => (share_eq_iff some less (List.count_pos_iff.mpr hc)).mpr (floors c hc)
  have total : (sampledPositions sample y n).length =
      (y.dedup.map fun c => n * y.count c / y.length).sum := by
    rw [length]
    congr 1
    exact List.map_congr_left fun c hc => shares c (List.mem_dedup.mp hc)
  rw [out]
  refine ⟨increasing,inside,fun k => ⟨?_,?_,?_⟩,fun r sorted => iloc_pairwise increasing sorted,
    fun c hc => (counts c hc).trans (shares c hc),total_of_shares some less total⟩
  · exact iloc_getElem? (fun i hi => rows ▸ inside i hi) k
  · exact iloc_getElem? inside k
  · exact iloc_getElem? (fun i hi => times ▸ inside i hi) k

end Exact

/-- The sample is stratified exactly when no floating quotient misses its floor. -/
theorem stratifiedSample_iff (sample : Sampler) (picks : sample.Picks) (X : List α) (y : List κ)
    (transactionDt : List τ) (n : Nat) (rows : X.length = y.length)
    (times : transactionDt.length = y.length) (some : 0 < n) (less : n < y.length) :
    Stratified X y transactionDt n (sampledPositions sample y n)
        (stratifiedSample sample X y transactionDt n) ↔
      ∀ c ∈ y, FloorExact (n * y.count c) y.length :=
  ⟨floors_of_stratified picks some less,stratified_of_floors picks rows times some less⟩

/-- The sampler that takes the first members. -/
def firstMembers : Sampler := fun g k => g.take k

theorem firstMembers_picks : firstMembers.Picks := fun g k hk =>
  ⟨(List.take_sublist k g).subperm,by rw [firstMembers, List.length_take, min_eq_left hk]⟩

theorem stratifiedSample_small :
    Stratified [10,20,30,40] [true,false,true,true] [1,2,3,4] 2
      (sampledPositions firstMembers [true,false,true,true] 2)
      (stratifiedSample firstMembers [10,20,30,40] [true,false,true,true] [1,2,3,4] 2) :=
  (stratifiedSample_iff firstMembers firstMembers_picks ([10,20,30,40] : List Nat)
    [true,false,true,true] ([1,2,3,4] : List Nat) 2 rfl rfl (by decide) (by decide)).mpr (by decide)

theorem not_stratified_blocks {a b n : Nat} (X : List α) (transactionDt : List τ)
    (out : List α × List Bool × List τ) (some : 0 < n) (less : n < a + b) (member : 0 < a)
    (inexact : ¬FloorExact (n * a) (a + b)) :
    ¬Stratified X (List.replicate a true ++ List.replicate b false) transactionDt n
      (sampledPositions firstMembers (List.replicate a true ++ List.replicate b false) n) out := by
  have length : (List.replicate a true ++ List.replicate b false).length = a + b := by simp
  have count : (List.replicate a true ++ List.replicate b false).count true = a := by
    simp [List.count_replicate]
  intro h
  have floors := floors_of_stratified firstMembers_picks some (by rw [length]; exact less) h true
    (List.mem_append_left _ (List.mem_replicate.mpr ⟨member.ne',rfl⟩))
  rw [count, length] at floors
  exact inexact floors

/-- `134223811 * 134223811` is one less than a multiple of the number of rows, too little for the
quotient to stay below it. -/
theorem overshoot_not_stratified :
    ¬Stratified (List.replicate (134223811 + 11586) ())
      (List.replicate 134223811 true ++ List.replicate 11586 false)
      (List.range (134223811 + 11586)) 134223811
      (sampledPositions firstMembers
        (List.replicate 134223811 true ++ List.replicate 11586 false) 134223811)
      (stratifiedSample firstMembers (List.replicate (134223811 + 11586) ())
        (List.replicate 134223811 true ++ List.replicate 11586 false)
        (List.range (134223811 + 11586)) 134223811) := by
  apply not_stratified_blocks
  · norm_num
  · norm_num
  · norm_num
  · have quotient : 134223811 * 134223811 / (134223811 + 11586) = 134212225 := by norm_num
    have rest : 134223811 * 134223811 % (134223811 + 11586) = 134235396 := by norm_num
    have size : Nat.size 134212225 = 27 :=
      le_antisymm (Nat.size_le.mpr (by norm_num)) (Nat.lt_size.mpr (by norm_num))
    rw [FloorExact, quotient, rest, size, if_pos (by decide)]
    norm_num

end FraudPlatform.Training
