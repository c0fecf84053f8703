import Mathlib.Data.List.Nodup

namespace Framework.Dict

variable {K α β : Type}

/-- The dict whose values are read one by one, if all of them can be. -/
def mapValues? (read : α → Option β) (xs : List (K × α)) : Option (List (K × β)) :=
  xs.mapM fun m => (read m.2).map fun y => (m.1,y)

def mapValues (f : α → β) (xs : List (K × α)) : List (K × β) := xs.map fun m => (m.1,f m.2)

section Read

variable {read : α → Option β} {xs : List (K × α)} {ys : List (K × β)}

theorem mapValues?_cons {m : K × α} {ms : List (K × α)} :
    mapValues? read (m :: ms) = some ys ↔
      ∃ y zs, read m.2 = some y ∧ mapValues? read ms = some zs ∧ (m.1,y) :: zs = ys := by
  simp [mapValues?, List.mapM_cons, Option.bind_eq_some_iff]

theorem keys_of_mapValues? (h : mapValues? read xs = some ys) :
    ys.map Prod.fst = xs.map Prod.fst := by
  induction xs generalizing ys with
  | nil =>
    cases h
    rfl
  | cons m ms ih =>
    obtain ⟨y, zs, _, hz, rfl⟩ := mapValues?_cons.mp h
    rw [List.map_cons, List.map_cons, ih hz]

theorem read_of_mem (h : mapValues? read xs = some ys) {m : K × β} (hm : m ∈ ys) :
    ∃ x, read x = some m.2 := by
  induction xs generalizing ys with
  | nil =>
    cases h
    cases hm
  | cons n ns ih =>
    obtain ⟨y, zs, hy, hz, rfl⟩ := mapValues?_cons.mp h
    rcases List.mem_cons.mp hm with rfl | hm
    · exact ⟨n.2,hy⟩
    · exact ih hz hm

theorem exists_mapValues?_iff :
    (∃ ys, mapValues? read xs = some ys) ↔ ∀ m ∈ xs, ∃ y, read m.2 = some y := by
  induction xs with
  | nil => exact iff_of_true ⟨[],rfl⟩ (fun m hm => absurd hm List.not_mem_nil)
  | cons m ms ih =>
    rw [List.forall_mem_cons, ← ih]
    constructor
    · rintro ⟨ys, h⟩
      obtain ⟨y, zs, hy, hz, _⟩ := mapValues?_cons.mp h
      exact ⟨⟨y,hy⟩,⟨zs,hz⟩⟩
    · rintro ⟨⟨y, hy⟩, ⟨zs, hz⟩⟩
      exact ⟨(m.1,y) :: zs,mapValues?_cons.mpr ⟨y,zs,hy,hz,rfl⟩⟩

end Read

variable [DecidableEq K]

/-- The dict of members in which a later one replaces those of its key. -/
def lastWins : List (K × α) → List (K × α)
  | [] => []
  | m :: ms => if m.1 ∈ ms.map Prod.fst then lastWins ms else m :: lastWins ms

theorem lastWins_of_nodup {xs : List (K × α)} (h : (xs.map Prod.fst).Nodup) : lastWins xs = xs := by
  induction xs with
  | nil => rfl
  | cons m ms ih =>
    obtain ⟨fresh, later⟩ := List.nodup_cons.mp h
    rw [lastWins, if_neg fresh, ih later]

theorem lookup_mapValues (f : α → β) (xs : List (K × α)) (key : K) :
    (mapValues f xs).lookup key = (xs.lookup key).map f := by
  induction xs with
  | nil => rfl
  | cons m ms ih =>
    rw [mapValues, List.map_cons, List.lookup_cons, List.lookup_cons]
    cases key == m.1
    · exact ih
    · rfl

theorem lookup_of_mapValues? {read : α → Option β} {xs : List (K × α)} {ys : List (K × β)}
    (h : mapValues? read xs = some ys) (key : K) :
    ys.lookup key = (xs.lookup key).bind read := by
  induction xs generalizing ys with
  | nil =>
    cases h
    rfl
  | cons m ms ih =>
    obtain ⟨y, zs, hy, hz, rfl⟩ := mapValues?_cons.mp h
    rw [List.lookup_cons, List.lookup_cons]
    cases key == m.1
    · exact ih hz
    · exact hy.symm

theorem lookup_of_mem {xs : List (K × α)} (h : (xs.map Prod.fst).Nodup) {m : K × α}
    (hm : m ∈ xs) : xs.lookup m.1 = some m.2 := by
  induction xs with
  | nil => cases hm
  | cons n ns ih =>
    obtain ⟨fresh, later⟩ := List.nodup_cons.mp h
    rcases List.mem_cons.mp hm with rfl | hm
    · exact List.lookup_cons_self
    · have ne : (m.1 == n.1) = false := by
        rw [beq_eq_false_iff_ne]
        intro same
        exact fresh (same ▸ List.mem_map_of_mem hm)
      rw [List.lookup_cons, ne]
      exact ih later hm

theorem mem_of_lookup {xs : List (K × α)} {key : K} {x : α} (h : xs.lookup key = some x) :
    (key,x) ∈ xs := by
  obtain ⟨before, after, rfl, _⟩ := List.lookup_eq_some_iff.mp h
  simp

end Framework.Dict
