import FraudPlatform.Framework.Ieee
import FraudPlatform.Framework.Ranking
import Mathlib.Data.String.Basic

namespace FraudPlatform.Features

open Framework Ieee

/-- A categorical column of strings and missing values, with its list of categories. -/
structure Categorical where
  categories : List String
  values : List (Option String)

/-- `df[col].dropna()` -/
def dropna (values : List (Option String)) : List String := values.filterMap id

/-- The category list `preprocess` builds of a whole column. -/
def categoriesOf (column : List (Option String)) : List String := sortedDistinct (dropna column)

/-- A dict from categories to codes. -/
abbrev Encoder := List (String × Nat)

def buildCategoricalEncoder (df : Categorical) : Encoder :=
  (sortedDistinct (dropna df.values)).zipIdx

/-- `.map(mapping).fillna(-1)` on one value. -/
def Encoder.code (mapping : Encoder) : Option String → Int
  | none => -1
  | some s =>
    match mapping.lookup s with
    | none => -1
    | some i => i

/-- The champion's `*_encoded` column, of integers. -/
def applyCategoricalEncoder (encoder : Encoder) (df : Categorical) : List Int :=
  df.values.map encoder.code

/-- The challenger's column, of `float32`. Without mappings they are built from the categories. -/
def encodeCategoricals (df : Categorical) (mappings : Option Encoder) : List Datum × Encoder :=
  let mapping := mappings.getD df.categories.zipIdx
  (df.values.map fun v => binary32.ofInt (mapping.code v),mapping)

/-- The place of a value among the categories; pandas has -1 for one that is not there. -/
def rank (categories : List String) : Option String → Int
  | none => -1
  | some s => if s ∈ categories then categories.idxOf s else -1

/-- `df[col].cat.codes` -/
def Categorical.codes (df : Categorical) : List Int := df.values.map (rank df.categories)

/-- What the loader stores, of `float64`. -/
def storedCodes (df : Categorical) : List Datum := df.codes.map binary64.ofInt

/-- The numbers of a column of floats. -/
def numbers (xs : List Datum) : List (Option ℚ) := xs.map Datum.value

/-- The challenger's codes of a frame in training and in serving are the champion's. -/
def FrameAgrees (champion : Encoder) (df : Categorical) (challenger : List Datum) : Prop :=
  numbers challenger = (applyCategoricalEncoder champion df).map (fun n : Int => some (n : ℚ)) ∧
    numbers (storedCodes df) = (applyCategoricalEncoder champion df).map (fun n : Int => some (n : ℚ))

/-- For both frames of a split the three encodings agree. -/
def EncodingsAgree (column train test : List (Option String)) : Prop :=
  let categories := categoriesOf column
  let champion := buildCategoricalEncoder ⟨categories,column⟩
  let trained := encodeCategoricals ⟨categories,train⟩ none
  FrameAgrees champion ⟨categories,train⟩ trained.1 ∧
    FrameAgrees champion ⟨categories,test⟩
      (encodeCategoricals ⟨categories,test⟩ (some trained.2)).1

/-- The codes of a mapping over a column: `0..k-1` in the order of the strings, and -1. -/
structure CodesRank (mapping : Encoder) (column : List (Option String)) : Prop where
  range : ∀ s, some s ∈ column → 0 ≤ mapping.code (some s) ∧
    mapping.code (some s) < (categoriesOf column).length
  order : ∀ s t, some s ∈ column → some t ∈ column →
    (mapping.code (some s) < mapping.code (some t) ↔ s < t)
  missing : mapping.code none = -1
  outside : ∀ s, some s ∉ column → mapping.code (some s) = -1

variable {column train test : List (Option String)}

theorem mem_categoriesOf {s : String} : s ∈ categoriesOf column ↔ some s ∈ column := by
  simp [categoriesOf, mem_sortedDistinct, dropna]

theorem lookup_zipIdx (cats : List String) (s : String) (start : Nat) :
    (cats.zipIdx start).lookup s = if s ∈ cats then some (start + cats.idxOf s) else none := by
  induction cats generalizing start with
  | nil => rfl
  | cons c cats ih =>
    rw [List.zipIdx_cons, List.lookup_cons, ih]
    by_cases h : s = c
    · subst h
      simp
    · have ne : (s == c) = false := by simpa using h
      have shift : (c :: cats).idxOf s = cats.idxOf s + 1 := List.idxOf_cons_ne _ (Ne.symm h)
      rw [ne, shift]
      by_cases later : s ∈ cats
      · rw [if_pos later, if_pos (List.mem_cons_of_mem c later), Nat.add_right_comm, Nat.add_assoc]
      · have nowhere : s ∉ c :: cats := by simp [h, later]
        rw [if_neg later, if_neg nowhere]

/-- The dict of an enumeration gives each value its place. -/
theorem code_zipIdx (cats : List String) (v : Option String) :
    Encoder.code cats.zipIdx v = rank cats v := by
  cases v with
  | none => rfl
  | some s =>
    rw [Encoder.code, lookup_zipIdx, rank]
    by_cases h : s ∈ cats
    · rw [if_pos h, if_pos h, Nat.zero_add]
    · rw [if_neg h, if_neg h]

theorem rank_of_mem {cats : List String} {s : String} (h : s ∈ cats) :
    rank cats (some s) = cats.idxOf s := if_pos h

theorem rank_natAbs_le (cats : List String) (v : Option String) {n : Nat} (positive : 1 ≤ n)
    (few : cats.length ≤ n + 1) : (rank cats v).natAbs ≤ n := by
  cases v with
  | none => exact positive
  | some s =>
    by_cases h : s ∈ cats
    · have place := List.idxOf_lt_length_iff.mpr h
      rw [rank_of_mem h, Int.natAbs_natCast]
      omega
    · have outside : rank cats (some s) = -1 := if_neg h
      rw [outside]
      exact positive

/-- One value of a frame has the same code in all three encodings. -/
def CodeExact (cats : List String) (v : Option String) : Prop :=
  (binary32.ofInt (rank cats v)).value = some (rank cats v : ℚ) ∧
    (binary64.ofInt (rank cats v)).value = some (rank cats v : ℚ)

theorem frameAgrees_iff (cats : List String) (values : List (Option String)) :
    FrameAgrees cats.zipIdx ⟨cats,values⟩
        (values.map fun v => binary32.ofInt (Encoder.code cats.zipIdx v)) ↔
      ∀ v ∈ values, CodeExact cats v := by
  simp only [FrameAgrees, numbers, storedCodes, Categorical.codes, applyCategoricalEncoder,
    List.map_map, List.map_inj_left, Function.comp_apply, code_zipIdx]
  constructor
  · rintro ⟨challenger, stored⟩ v hv
    exact ⟨challenger v hv,stored v hv⟩
  · intro each
    exact ⟨fun v hv => (each v hv).1,fun v hv => (each v hv).2⟩

/-- A `float32` holds the codes up to `2 ^ 24`. -/
theorem codeExact_of_few {cats : List String} (few : cats.length ≤ 2 ^ 24 + 1)
    (v : Option String) : CodeExact cats v := by
  have small := rank_natAbs_le cats v (by norm_num) few
  constructor
  · exact Format.value_ofInt (by decide) (by decide) (by decide) small
  · exact Format.value_ofInt (by decide) (by decide) (by decide)
      (small.trans (Nat.pow_le_pow_right (by decide) (by decide)))

/-- The code after them is not a `float32`. -/
theorem binary32_ofInt_tie : (binary32.ofInt (2 ^ 24 + 1)).value = some (2 ^ 24 : ℚ) := by
  decide +kernel

theorem encodingsAgree_iff (split : (train ++ test).Perm column) :
    EncodingsAgree column train test ↔ ∀ v ∈ column, CodeExact (categoriesOf column) v := by
  have parts : (∀ v ∈ column, CodeExact (categoriesOf column) v) ↔
      (∀ v ∈ train, CodeExact (categoriesOf column) v) ∧
        ∀ v ∈ test, CodeExact (categoriesOf column) v := by
    rw [← List.forall_mem_append]
    exact forall_congr' fun v => imp_congr_left split.mem_iff.symm
  rw [parts, ← frameAgrees_iff, ← frameAgrees_iff]
  exact Iff.rfl

theorem codesRank (column : List (Option String)) :
    CodesRank (buildCategoricalEncoder ⟨categoriesOf column,column⟩) column := by
  have code (v : Option String) :
      (buildCategoricalEncoder ⟨categoriesOf column,column⟩).code v =
        rank (categoriesOf column) v := code_zipIdx _ v
  constructor
  · intro s hs
    have member := mem_categoriesOf.mpr hs
    have place := List.idxOf_lt_length_iff.mpr member
    rw [code, rank_of_mem member]
    omega
  · intro s t hs ht
    have memberS := mem_categoriesOf.mpr hs
    have memberT := mem_categoriesOf.mpr ht
    rw [code, code, rank_of_mem memberS, rank_of_mem memberT, Int.ofNat_lt]
    exact idxOf_lt_idxOf_iff (pairwise_sortedDistinct _) memberS memberT
  · rfl
  · intro s hs
    rw [code]
    exact if_neg fun h => hs (mem_categoriesOf.mp h)

/-- The category at the place that no `float32` has is encoded as the one before it. -/
theorem not_codeExact_of_many {cats : List String} (increasing : cats.Pairwise (· < ·))
    (many : 2 ^ 24 + 1 < cats.length) : ∃ s ∈ cats, ¬CodeExact cats (some s) := by
  refine ⟨cats[2 ^ 24 + 1],List.getElem_mem many,?_⟩
  rintro ⟨challenger, _⟩
  have nodup : cats.Nodup := increasing.imp fun {a b} h => h.ne
  have place : rank cats (some cats[2 ^ 24 + 1]) = 2 ^ 24 + 1 := by
    rw [rank_of_mem (List.getElem_mem many), nodup.idxOf_getElem]
    norm_num
  rw [place, binary32_ofInt_tie] at challenger
  norm_num at challenger

theorem categoriesOf_few_of_agree (split : (train ++ test).Perm column)
    (agree : EncodingsAgree column train test) : (categoriesOf column).length ≤ 2 ^ 24 + 1 := by
  by_contra many
  obtain ⟨s, hs, wrong⟩ := not_codeExact_of_many (pairwise_sortedDistinct (dropna column))
    (Nat.lt_of_not_le many)
  exact wrong ((encodingsAgree_iff split).mp agree _ (mem_categoriesOf.mp hs))

/-- Over a split of a column the three encodings agree exactly when it has at most `2 ^ 24 + 1`
categories; the codes are the ranks of the strings, and -1 for what is not among them. -/
theorem encodings_agree_iff (column train test : List (Option String))
    (split : (train ++ test).Perm column) :
    (EncodingsAgree column train test ↔ (categoriesOf column).length ≤ 2 ^ 24 + 1) ∧
      CodesRank (buildCategoricalEncoder ⟨categoriesOf column,column⟩) column := by
  refine ⟨⟨categoriesOf_few_of_agree split,?_⟩,codesRank column⟩
  intro few
  exact (encodingsAgree_iff split).mpr fun v _ => codeExact_of_few few v

/-- A missing value, a string that looks like one and the empty string are three things. -/
theorem encodings_agree_small :
    EncodingsAgree [some "nan",none,some "",some "b",some "nan"] [some "nan",none,some ""]
      [some "b",some "nan"] :=
  (encodings_agree_iff _ [some "nan",none,some ""] [some "b",some "nan"] (List.Perm.refl _)).1.mpr
    (by decide +kernel)

/-- As many strings as asked for, of different lengths. -/
def distinctStrings (n : Nat) : List (Option String) :=
  (List.range n).map fun i => some (String.ofList (List.replicate i 'a'))

theorem categoriesOf_distinctStrings (n : Nat) : (categoriesOf (distinctStrings n)).length = n := by
  have values : dropna (distinctStrings n) =
      (List.range n).map fun i => String.ofList (List.replicate i 'a') := by
    unfold dropna distinctStrings
    rw [List.filterMap_map]
    exact congrFun List.filterMap_eq_map (List.range n)
  have injective : Function.Injective fun i => String.ofList (List.replicate i 'a') := by
    intro i j h
    have lengths := congrArg List.length (String.ofList_injective h)
    simpa using lengths
  rw [categoriesOf, values, length_sortedDistinct_of_nodup (List.nodup_range.map injective),
    List.length_map, List.length_range]

/-- Among `2 ^ 24 + 2` categories the two last ones share a code in training. -/
theorem manyCategories_disagree :
    ¬EncodingsAgree (distinctStrings (2 ^ 24 + 2)) (distinctStrings (2 ^ 24 + 2)) [] := by
  intro agree
  have few := categoriesOf_few_of_agree (by rw [List.append_nil]) agree
  rw [categoriesOf_distinctStrings] at few
  omega

end FraudPlatform.Features
