import Mathlib.Data.List.Sort
import Mathlib.Data.List.TakeWhile

namespace Framework

variable {α β : Type*}

/-- The number of leading elements that satisfy `p`: the streak of a newest-first log. -/
def streak (p : α → Bool) (l : List α) : Nat := (l.takeWhile p).length

@[simp] theorem streak_nil (p : α → Bool) : streak p [] = 0 := rfl

theorem streak_cons (p : α → Bool) (a : α) (l : List α) :
    streak p (a :: l) = if p a then streak p l + 1 else 0 := by
  by_cases h : p a <;> simp [streak, List.takeWhile, h]

theorem streak_le_countP (p : α → Bool) (l : List α) : streak p l ≤ l.countP p := by
  rw [streak, ← List.countP_eq_length.mpr fun a => List.mem_takeWhile_imp]
  exact (List.takeWhile_sublist p).countP_le

theorem streak_map (p : β → Bool) (f : α → β) (l : List α) :
    streak p (l.map f) = streak (fun a => p (f a)) l := by
  induction l with
  | nil => rfl
  | cons a l ih => simp only [List.map_cons, streak_cons, ih]

/-- A streak of `k` is `k` newest elements, all of which satisfy `p`. -/
theorem le_streak_iff (p : α → Bool) (k : Nat) (l : List α) :
    k ≤ streak p l ↔ k ≤ l.length ∧ ∀ a ∈ l.take k, p a := by
  induction l generalizing k with
  | nil => simp
  | cons a l ih =>
    cases k with
    | zero => simp
    | succ k =>
      rw [streak_cons]
      by_cases h : p a
      · simp [h, ih]
      · simp [h]

/-- A bounded scan sees the streak up to its bound. -/
theorem streak_take (p : α → Bool) (n : Nat) (l : List α) :
    streak p (l.take n) = min n (streak p l) := by
  induction l generalizing n with
  | nil => simp
  | cons a l ih =>
    cases n with
    | zero => simp
    | succ n =>
      rw [List.take_succ_cons, streak_cons, streak_cons, ih]
      by_cases h : p a
      · simp only [h, if_true]
        omega
      · simp [h]

/-- An element that fails `p` ends the streak, whatever is older. -/
theorem streak_append_cons (p : α → Bool) (l m : List α) (a : α) (ha : p a = false) :
    streak p (l ++ a :: m) = streak p l := by
  induction l with
  | nil => simp [streak_cons, ha]
  | cons b l ih => simp only [List.cons_append, streak_cons, ih]

/-- The entries a log keeps of its sources, with the sources that left one. -/
theorem map_filter_isSome (f : α → Option β) (l : List α) :
    (l.filter fun a => (f a).isSome).map f = (l.filterMap f).map some := by
  induction l with
  | nil => rfl
  | cons a l ih =>
    cases h : f a with
    | none => simp [h, ih]
    | some b => simp [h, ih]

/-- Sorting a list by a relation that no earlier element has to a later one reverses it:
the newest-first view of a log kept in order of arrival. -/
theorem insertionSort_eq_reverse (r : α → α → Prop) [DecidableRel r] (l : List α)
    (h : l.Pairwise fun a b => ¬r a b) :
    l.insertionSort r = l.reverse := by
  have place (a : α) (ys : List α) (hy : ∀ b ∈ ys, ¬r a b) :
      ys.orderedInsert r a = ys ++ [a] := by
    induction ys with
    | nil => rfl
    | cons b ys ih =>
      rw [List.orderedInsert, if_neg (hy b (by simp)), ih (fun c hc => hy c (by simp [hc]))]
      rfl
  induction l with
  | nil => rfl
  | cons a l ih =>
    rw [List.pairwise_cons] at h
    rw [List.insertionSort_cons, ih h.2, List.reverse_cons]
    exact place a l.reverse (fun b hb => h.1 b (List.mem_reverse.mp hb))

end Framework
