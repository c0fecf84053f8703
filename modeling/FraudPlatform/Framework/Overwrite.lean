import Mathlib.Data.List.Induction

namespace Framework.Overwrite

variable {κ ν : Type*} [DecidableEq κ] {s : κ → ν} {es fs : List (κ × ν)} {k : κ}

/-- A store in which a later value of a key replaces the earlier one. -/
def putAll (s : κ → ν) (es : List (κ × ν)) : κ → ν := es.foldl (fun s e => Function.update s e.1 e.2) s

/-- The value that is put last for a key. -/
def last (es : List (κ × ν)) (k : κ) : Option ν := (es.reverse.find? fun e => e.1 = k).map Prod.snd

theorem putAll_append : putAll s (es ++ fs) = putAll (putAll s es) fs := List.foldl_append

theorem last_concat (e : κ × ν) :
    last (es ++ [e]) k = if e.1 = k then some e.2 else last es k := by
  rw [last, List.reverse_concat, List.find?_cons]
  by_cases same : e.1 = k
  · simp [same]
  · simp [same, last]

theorem putAll_apply (s : κ → ν) (es : List (κ × ν)) (k : κ) :
    putAll s es k = (last es k).getD (s k) := by
  induction es using List.reverseRecOn with
  | nil => rfl
  | append_singleton es e ih =>
    rw [putAll_append, last_concat]
    change Function.update (putAll s es) e.1 e.2 k = _
    by_cases same : e.1 = k
    · rw [← same, Function.update_self, if_pos rfl, Option.getD_some]
    · rw [Function.update_of_ne (Ne.symm same), if_neg same, ih]

theorem mem_of_last {v : ν} (h : last es k = some v) : (k,v) ∈ es := by
  obtain ⟨e, found, rfl⟩ := Option.map_eq_some_iff.mp h
  have key : e.1 = k := by simpa using List.find?_some found
  rw [← key]
  exact List.mem_reverse.mp (List.mem_of_find?_eq_some found)

theorem last_eq_none : last es k = none ↔ k ∉ es.map Prod.fst := by
  rw [last, Option.map_eq_none_iff, List.find?_eq_none]
  simp only [List.mem_reverse, decide_eq_true_eq, List.mem_map, not_exists, not_and]

/-- Renaming the keys apart from each other renames what was put last. -/
theorem last_map {κ' ν' : Type*} [DecidableEq κ'] {f : κ → κ'} (injective : Function.Injective f)
    (g : ν → ν') (es : List (κ × ν)) (k : κ) :
    last (es.map fun e => (f e.1,g e.2)) (f k) = (last es k).map g := by
  induction es using List.reverseRecOn with
  | nil => rfl
  | append_singleton es e ih =>
    rw [List.map_append, List.map_singleton, last_concat, last_concat, ih]
    by_cases same : e.1 = k
    · rw [if_pos same, if_pos (congrArg f same), Option.map_some]
    · rw [if_neg same, if_neg fun equal => same (injective equal)]

/-- What was put before for keys that are put again makes no difference. -/
theorem putAll_again (covered : ∀ e ∈ fs, e.1 ∈ es.map Prod.fst) :
    putAll (putAll s fs) es = putAll s es := by
  funext k
  rw [putAll_apply, putAll_apply s es k]
  cases hk : last es k with
  | some v => rfl
  | none =>
    have absent := last_eq_none.mp hk
    have other : last fs k = none := by
      apply last_eq_none.mpr
      intro put
      obtain ⟨e, he, rfl⟩ := List.mem_map.mp put
      exact absent (covered e he)
    rw [Option.getD_none, Option.getD_none, putAll_apply, other, Option.getD_none]

end Framework.Overwrite
