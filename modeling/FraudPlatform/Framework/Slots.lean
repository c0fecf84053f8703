import Mathlib.Data.List.Perm.Basic

namespace Framework

variable {α β : Type*}

/-- A goroutine that changes its state gives back what it held and takes what it holds now;
the holdings of the others stay. -/
theorem filterMap_set_perm (f : α → Option β) {l : List α} {i : Nat} {x : α} (h : l[i]? = some x)
    (y : α) :
    ((f x).toList ++ (l.set i y).filterMap f).Perm ((f y).toList ++ l.filterMap f) := by
  induction l generalizing i with
  | nil => cases h
  | cons a l ih =>
    have cons (b : α) (m : List α) : (b :: m).filterMap f = (f b).toList ++ m.filterMap f := by
      cases hb : f b <;> simp [hb]
    cases i with
    | zero =>
      obtain rfl : a = x := Option.some.inj h
      rw [List.set_cons_zero, cons, cons]
      exact List.perm_append_comm_assoc _ _ _
    | succ i =>
      rw [List.set_cons_succ, cons, cons]
      have rest := (ih h).append_left (f a).toList
      exact (List.perm_append_comm_assoc _ _ _).trans
        (rest.trans (List.perm_append_comm_assoc _ _ _))

theorem filterMap_set_of_eq (f : α → Option β) {l : List α} {i : Nat} {x : α}
    (h : l[i]? = some x) {y : α} (same : f y = f x) :
    ((l.set i y).filterMap f).Perm (l.filterMap f) := by
  have swap := filterMap_set_perm f h y
  rw [same] at swap
  exact (List.perm_append_left_iff _).mp swap

theorem filterMap_set_take (f : α → Option β) {l : List α} {i : Nat} {x : α}
    (h : l[i]? = some x) {y : α} {b : β} (hx : f x = none) (hy : f y = some b) :
    ((l.set i y).filterMap f).Perm (b :: l.filterMap f) := by
  have swap := filterMap_set_perm f h y
  rw [hx, hy] at swap
  exact swap

theorem filterMap_set_drop (f : α → Option β) {l : List α} {i : Nat} {x : α}
    (h : l[i]? = some x) {y : α} {b : β} (hx : f x = some b) (hy : f y = none) :
    (b :: (l.set i y).filterMap f).Perm (l.filterMap f) := by
  have swap := filterMap_set_perm f h y
  rw [hx, hy] at swap
  exact swap

/-- What one goroutine holds stays when another one moves. -/
theorem mem_set_of_ne {l : List α} {i : Nat} {x y q : α} (hi : l[i]? = some x)
    (hq : q ∈ l) (ne : q ≠ x) : q ∈ l.set i y := by
  obtain ⟨j, hj⟩ := List.mem_iff_getElem?.mp hq
  have other : i ≠ j := by
    intro same
    rw [same] at hi
    exact ne (Option.some.inj (hj.symm.trans hi))
  exact List.mem_iff_getElem?.mpr ⟨j,by rw [List.getElem?_set_ne other, hj]⟩

/-- The places at which `p` holds, read off, are what the filter keeps. -/
theorem map_places (p : α → Bool) (l : List α) :
    ((List.range l.length).filter fun i => l[i]?.any p).map (l[·]?) = (l.filter p).map some := by
  have whole : (List.range l.length).map (l[·]?) = l.map some := by
    apply List.ext_getElem (by simp)
    intro i hi _
    simp only [List.length_map, List.length_range] at hi
    simp [hi]
  have places := List.filter_map (f := (l[·]?)) (p := fun x => x.any p) (l := List.range l.length)
  have kept := List.filter_map (f := some) (p := fun x => x.any p) (l := l)
  rw [whole, kept] at places
  exact places.symm

/-- A step of one goroutine keeps a property of all, if it gives the property to its new state. -/
theorem forall_mem_set {P : α → Prop} {l : List α} {i : Nat} {y : α} (h : ∀ a ∈ l, P a)
    (hy : P y) : ∀ a ∈ l.set i y, P a := by
  intro a ha
  obtain old | new := List.mem_or_eq_of_mem_set ha
  · exact h a old
  · rw [new]
    exact hy

/-- So does a goroutine that joins with it. -/
theorem forall_mem_concat {P : α → Prop} {l : List α} {y : α} (h : ∀ a ∈ l, P a) (hy : P y) :
    ∀ a ∈ l ++ [y], P a :=
  List.forall_mem_append.mpr ⟨h,List.forall_mem_singleton.mpr hy⟩

end Framework
