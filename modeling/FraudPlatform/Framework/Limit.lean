import Mathlib.Data.List.Basic
import Mathlib.Data.List.Count
import Mathlib.Data.List.Perm.Subperm

namespace Framework

variable {α : Type*}

/-- What `SELECT .. LIMIT n` may answer over `rows` when nothing orders them. -/
structure Limited (n : Nat) (rows out : List α) : Prop where
  subperm : out.Subperm rows
  length : out.length = min n rows.length

instance [DecidableEq α] (n : Nat) (rows out : List α) : Decidable (Limited n rows out) :=
  decidable_of_iff (out.Subperm rows ∧ out.length = min n rows.length)
    ⟨fun h => ⟨h.1,h.2⟩,fun h => ⟨h.subperm,h.length⟩⟩

variable {n : Nat} {rows out : List α} {p : α → Bool}

theorem Limited.mem (h : Limited n rows out) {r : α} (hr : r ∈ out) : r ∈ rows :=
  h.subperm.subset hr

/-- With fewer rows against `p` than the limit, every answer holds a row that satisfies it. -/
theorem Limited.meets (h : Limited n rows out) (few : rows.countP (fun r => !p r) < n)
    (some : ∃ r ∈ rows, p r) : ∃ r ∈ out, p r := by
  by_contra none
  have against : ∀ r ∈ out, (fun r => !p r) r = true := by
    intro r hr
    have not : ¬p r := fun hp => none ⟨r,hr,hp⟩
    simpa using not
  have bound : out.length ≤ rows.countP (fun r => !p r) := by
    rw [← List.countP_eq_length.mpr against]
    exact h.subperm.countP_le _
  have all : out.length = rows.length := by
    have length := h.length
    omega
  obtain ⟨r, hr, hp⟩ := some
  have same : out.Perm rows := h.subperm.perm_of_length_le (Nat.le_of_eq all.symm)
  exact none ⟨r,same.mem_iff.mpr hr,hp⟩

/-- With as many rows against `p` as the limit, some answer holds no other. -/
theorem limited_misses (many : n ≤ rows.countP (fun r => !p r)) :
    ∃ out, Limited n rows out ∧ ∀ r ∈ out, p r = false := by
  refine ⟨(rows.filter (fun r => !p r)).take n,⟨?_,?_⟩,fun r hr => ?_⟩
  · exact ((List.take_sublist n _).trans List.filter_sublist).subperm
  · have bound : rows.countP (fun r => !p r) ≤ rows.length := List.countP_le_length
    rw [List.length_take, ← List.countP_eq_length_filter]
    omega
  · have hp := (List.mem_filter.mp (List.mem_of_mem_take hr)).2
    simpa using hp

/-- Any rows that fit the limit may come first. -/
theorem limited_front {front : List α} (sub : front.Subperm rows) (fits : front.length ≤ n) :
    ∃ rest, Limited n rows (front ++ rest) := by
  obtain ⟨mid, same, sublist⟩ := sub
  obtain ⟨rest, split⟩ := sublist.exists_perm_append
  have total : rows.length = front.length + rest.length := by
    rw [split.length_eq, List.length_append, same.length_eq]
  refine ⟨rest.take (n - front.length),⟨?_,?_⟩⟩
  · have all : (front ++ rest).Perm rows := (same.symm.append_right rest).trans split.symm
    exact ((List.take_sublist _ rest).append_left front).subperm.trans all.subperm
  · simp only [List.length_append, List.length_take]
    omega

theorem limited_first (positive : 0 < n) {r : α} (hr : r ∈ rows) :
    ∃ rest, Limited n rows (r :: rest) :=
  limited_front (List.singleton_subperm_iff.mpr hr) positive

end Framework
