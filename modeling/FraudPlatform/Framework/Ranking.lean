import Mathlib.Data.List.Dedup
import Mathlib.Data.List.Sort

namespace Framework

variable {α : Type*} [LinearOrder α]

/-- The values of a list, each once and in order. -/
def sortedDistinct (xs : List α) : List α := xs.dedup.insertionSort (· ≤ ·)

theorem mem_sortedDistinct {xs : List α} {a : α} : a ∈ sortedDistinct xs ↔ a ∈ xs := by
  rw [sortedDistinct, List.mem_insertionSort, List.mem_dedup]

theorem pairwise_sortedDistinct (xs : List α) : (sortedDistinct xs).Pairwise (· < ·) := by
  have sorted := List.pairwise_insertionSort (· ≤ ·) xs.dedup
  have nodup : (sortedDistinct xs).Nodup :=
    (List.perm_insertionSort (· ≤ ·) xs.dedup).nodup_iff.mpr xs.nodup_dedup
  exact (sorted.and nodup).imp fun {a b} h => lt_of_le_of_ne h.1 h.2

theorem length_sortedDistinct_of_nodup {xs : List α} (h : xs.Nodup) :
    (sortedDistinct xs).length = xs.length := by
  rw [sortedDistinct, List.length_insertionSort, h.dedup]

/-- In an increasing list the places of two members are ordered as the members are. -/
theorem idxOf_lt_idxOf_iff {xs : List α} (increasing : xs.Pairwise (· < ·)) {a b : α}
    (ha : a ∈ xs) (hb : b ∈ xs) : xs.idxOf a < xs.idxOf b ↔ a < b := by
  have placeA := List.idxOf_lt_length_iff.mpr ha
  have placeB := List.idxOf_lt_length_iff.mpr hb
  have before {c d : α} (hc : xs.idxOf c < xs.length) (hd : xs.idxOf d < xs.length)
      (h : xs.idxOf c < xs.idxOf d) : c < d := by
    have := List.pairwise_iff_getElem.mp increasing _ _ hc hd h
    rwa [List.getElem_idxOf, List.getElem_idxOf] at this
  constructor
  · exact before placeA placeB
  · intro h
    rcases lt_trichotomy (xs.idxOf a) (xs.idxOf b) with less | equal | more
    · exact less
    · have same := List.getElem_idxOf placeA
      simp only [equal, List.getElem_idxOf placeB] at same
      exact absurd h (by rw [same]; exact lt_irrefl _)
    · exact absurd (h.trans (before placeB placeA more)) (lt_irrefl _)

end Framework
