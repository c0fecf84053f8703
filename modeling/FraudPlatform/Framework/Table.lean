import Mathlib.Data.List.Nodup

namespace Framework

/-- A table with a primary key: no two rows agree on it. -/
@[ext] structure Table {κ ρ : Type*} (key : ρ → κ) where
  rows : List ρ
  nodup : (rows.map key).Nodup

namespace Table

variable {κ ρ : Type*} {key : ρ → κ}

def empty : Table key := ⟨[],List.nodup_nil⟩

instance : Inhabited (Table key) := ⟨empty⟩

/-- `UPDATE .. SET f WHERE p`, for an assignment that leaves the key alone. -/
def update (t : Table key) (p : ρ → Bool) (f : ρ → ρ) (hf : ∀ r, key (f r) = key r) :
    Table key where
  rows := t.rows.map (fun r => if p r then f r else r)
  nodup := by
    have same : (t.rows.map (fun r => if p r then f r else r)).map key = t.rows.map key := by
      rw [List.map_map]
      apply List.map_congr_left
      intro r _
      by_cases h : p r <;> simp [h, hf]
    rw [same]
    exact t.nodup

theorem mem_update {t : Table key} {p : ρ → Bool} {f : ρ → ρ} {hf : ∀ r, key (f r) = key r}
    {r : ρ} (hr : r ∈ t.rows) (hp : p r = false) : r ∈ (t.update p f hf).rows :=
  List.mem_map.mpr ⟨r,hr,by simp [hp]⟩

/-- The keys of the rows that satisfy `p`, in the order of the table. -/
def keysWhere (t : Table key) (p : ρ → Bool) : List κ := (t.rows.filter p).map key

theorem keysWhere_nodup (t : Table key) (p : ρ → Bool) : (t.keysWhere p).Nodup :=
  t.nodup.sublist ((List.filter_sublist).map key)

/-- A duplicate-free list has one element exactly when one value is all its members. -/
theorem keysWhere_eq_singleton (t : Table key) (p : ρ → Bool) (k : κ) :
    t.keysWhere p = [k] ↔ ∀ j, j ∈ t.keysWhere p ↔ j = k := by
  constructor
  · intro h j
    rw [h, List.mem_singleton]
  · intro h
    apply List.perm_singleton.mp
    apply (List.perm_ext_iff_of_nodup (t.keysWhere_nodup p) (List.nodup_singleton k)).mpr
    intro j
    rw [h, List.mem_singleton]

variable [DecidableEq κ]

/-- `SELECT .. WHERE key = k`. -/
def find? (t : Table key) (k : κ) : Option ρ := t.rows.find? (fun r => key r = k)

/-- `INSERT`, which fails on a key the table has. -/
def insert (t : Table key) (r : ρ) : Option (Table key) :=
  if h : key r ∈ t.rows.map key then none
  else some ⟨t.rows ++ [r],by
    rw [List.map_append, List.map_singleton]
    exact List.nodup_append_comm.mp (List.nodup_cons.mpr ⟨h,t.nodup⟩)⟩

theorem find?_eq_some {t : Table key} {k : κ} {r : ρ} :
    t.find? k = some r ↔ r ∈ t.rows ∧ key r = k := by
  constructor
  · intro h
    exact ⟨List.mem_of_find?_eq_some h,by simpa using List.find?_some h⟩
  · rintro ⟨hm, rfl⟩
    obtain ⟨rows, nd⟩ := t
    simp only [find?] at hm ⊢
    induction rows with
    | nil => simp at hm
    | cons a rows ih =>
      rw [List.map_cons, List.nodup_cons] at nd
      obtain rfl | hm := List.mem_cons.mp hm
      · simp
      · have ne : key a ≠ key r := fun h => nd.1 (h ▸ List.mem_map_of_mem hm)
        rw [List.find?_cons_of_neg (by simpa using ne)]
        exact ih nd.2 hm

/-- A join on the key meets at most one row. -/
theorem filter_key (t : Table key) (k : κ) :
    t.rows.filter (fun r => key r = k) = (t.find? k).toList := by
  obtain ⟨rows, nd⟩ := t
  simp only [find?]
  induction rows with
  | nil => rfl
  | cons a rows ih =>
    rw [List.map_cons, List.nodup_cons] at nd
    by_cases h : key a = k
    · have none : rows.filter (fun r => key r = k) = [] := by
        rw [List.filter_eq_nil_iff]
        intro r hr
        have ne : key r ≠ k := fun hk => nd.1 (h.trans hk.symm ▸ List.mem_map_of_mem hr)
        simpa using ne
      rw [List.filter_cons_of_pos (by simpa using h), List.find?_cons_of_pos (by simpa using h), none]
      rfl
    · rw [List.filter_cons_of_neg (by simpa using h), List.find?_cons_of_neg (by simpa using h)]
      exact ih nd.2

theorem find?_eq_none {t : Table key} {k : κ} : t.find? k = none ↔ k ∉ t.rows.map key := by
  simp only [find?, List.find?_eq_none, decide_eq_true_eq, List.mem_map, not_exists, not_and]

theorem find?_update (t : Table key) (p : ρ → Bool) (f : ρ → ρ) (hf : ∀ r, key (f r) = key r)
    (k : κ) : (t.update p f hf).find? k = (t.find? k).map (fun r => if p r then f r else r) := by
  have keep (r : ρ) : key (if p r then f r else r) = key r := by
    by_cases h : p r <;> simp [h, hf]
  simp only [find?, update, List.find?_map, Function.comp_def, keep]

theorem insert_isSome (t : Table key) (r : ρ) : (t.insert r).isSome ↔ t.find? (key r) = none := by
  rw [find?_eq_none]
  unfold insert
  split_ifs with h
  · simp [h]
  · simpa using h

theorem insert_rows {t u : Table key} {r : ρ} (h : t.insert r = some u) :
    u.rows = t.rows ++ [r] := by
  unfold insert at h
  split_ifs at h
  cases h
  rfl

theorem find?_insert {t u : Table key} {r : ρ} (h : t.insert r = some u) (k : κ) :
    u.find? k = if k = key r then some r else t.find? k := by
  have fresh := (insert_isSome t r).mp (by rw [h]; rfl)
  rw [find?, insert_rows h, List.find?_append]
  change (t.find? k).or _ = _
  by_cases hk : k = key r
  · subst hk
    simp [fresh]
  · have hne : key r ≠ k := Ne.symm hk
    simp [hk, hne]

theorem mem_keysWhere (t : Table key) (p : ρ → Bool) (k : κ) :
    k ∈ t.keysWhere p ↔ ∃ r, t.find? k = some r ∧ p r := by
  simp only [keysWhere, List.mem_map, List.mem_filter, find?_eq_some]
  constructor
  · rintro ⟨r, ⟨hr, hp⟩, hk⟩
    exact ⟨r,⟨hr,hk⟩,hp⟩
  · rintro ⟨r, ⟨hr, hk⟩, hp⟩
    exact ⟨r,⟨hr,hp⟩,hk⟩

/-- `INSERT .. ON CONFLICT (key) DO NOTHING`. -/
def insertOrIgnore (t : Table key) (r : ρ) : Table key := (t.insert r).getD t

/-- The same for a list of rows, in order. -/
def insertAll (t : Table key) (rs : List ρ) : Table key := rs.foldl insertOrIgnore t

/-- The rows of the list that the table takes. -/
def inserted (t : Table key) : List ρ → List ρ
  | [] => []
  | r :: rs =>
    match t.insert r with
    | some u => r :: u.inserted rs
    | none => t.inserted rs

@[simp] theorem insertAll_nil (t : Table key) : t.insertAll [] = t := rfl

@[simp] theorem insertAll_cons (t : Table key) (r : ρ) (rs : List ρ) :
    t.insertAll (r :: rs) = (t.insertOrIgnore r).insertAll rs := rfl

theorem insert_eq_none {t : Table key} {r : ρ} (h : t.find? (key r) ≠ none) :
    t.insert r = none := by
  cases hi : t.insert r with
  | none => rfl
  | some u =>
    have fresh := (insert_isSome t r).mp (by rw [hi]; rfl)
    exact absurd fresh h

theorem insertOrIgnore_taken {t : Table key} {r : ρ} (h : t.find? (key r) ≠ none) :
    t.insertOrIgnore r = t := by
  rw [insertOrIgnore, insert_eq_none h, Option.getD_none]

/-- A row stays, and nothing joins it under its key. -/
theorem find?_insertOrIgnore (t : Table key) (r : ρ) (k : κ) :
    (t.insertOrIgnore r).find? k = (t.find? k).or (if key r = k then some r else none) := by
  by_cases free : t.find? (key r) = none
  · obtain ⟨u, hu⟩ := Option.isSome_iff_exists.mp ((insert_isSome t r).mpr free)
    rw [insertOrIgnore, hu, Option.getD_some, find?_insert hu]
    by_cases hk : k = key r
    · rw [if_pos hk, if_pos hk.symm, hk, free, Option.none_or]
    · rw [if_neg hk, if_neg (Ne.symm hk), Option.or_none]
  · rw [insertOrIgnore_taken free]
    split_ifs with hk
    · obtain ⟨q, hq⟩ := Option.ne_none_iff_exists'.mp free
      rw [← hk, hq, Option.some_or]
    · rw [Option.or_none]

/-- The first row of the list with a key wins it, unless the table has the key. -/
theorem find?_insertAll (t : Table key) (rs : List ρ) (k : κ) :
    (t.insertAll rs).find? k = (t.find? k).or (rs.find? (fun r => key r = k)) := by
  induction rs generalizing t with
  | nil => rw [insertAll_nil, List.find?_nil, Option.or_none]
  | cons r rs ih =>
    rw [insertAll_cons, ih, find?_insertOrIgnore, Option.or_assoc]
    congr 1
    by_cases hk : key r = k
    · rw [if_pos hk, Option.some_or, List.find?_cons_of_pos (by simpa using hk)]
    · rw [if_neg hk, Option.none_or, List.find?_cons_of_neg (by simpa using hk)]

theorem insertAll_rows (t : Table key) (rs : List ρ) :
    (t.insertAll rs).rows = t.rows ++ t.inserted rs := by
  induction rs generalizing t with
  | nil => exact (List.append_nil t.rows).symm
  | cons r rs ih =>
    rw [insertAll_cons, ih, inserted, insertOrIgnore]
    cases hi : t.insert r with
    | none => rfl
    | some u => rw [Option.getD_some, insert_rows hi, List.append_assoc, List.singleton_append]

theorem inserted_cons_absorbed {t : Table key} {q : ρ} {rs : List ρ}
    (h : t.find? (key q) ≠ none) : t.inserted (q :: rs) = (t.insertOrIgnore q).inserted rs := by
  rw [inserted, insert_eq_none h, insertOrIgnore_taken h]

theorem inserted_cons_fresh {t : Table key} {q : ρ} {rs : List ρ} (h : t.find? (key q) = none) :
    t.inserted (q :: rs) = q :: (t.insertOrIgnore q).inserted rs := by
  obtain ⟨u, hu⟩ := Option.isSome_iff_exists.mp ((insert_isSome t q).mpr h)
  rw [inserted, insertOrIgnore, hu, Option.getD_some]

theorem inserted_sublist {t : Table key} {rs : List ρ} : (t.inserted rs).Sublist rs := by
  induction rs generalizing t with
  | nil => exact List.Sublist.refl []
  | cons q rs ih =>
    by_cases free : t.find? (key q) = none
    · rw [inserted_cons_fresh free]
      exact ih.cons_cons q
    · rw [inserted_cons_absorbed free]
      exact ih.cons q

/-- Nothing is inserted exactly when the table has every key of the list. -/
theorem inserted_eq_nil {t : Table key} {rs : List ρ} :
    t.inserted rs = [] ↔ ∀ r ∈ rs, t.find? (key r) ≠ none := by
  induction rs with
  | nil => simp [inserted]
  | cons r rs ih =>
    rw [List.forall_mem_cons]
    by_cases free : t.find? (key r) = none
    · rw [inserted_cons_fresh free]
      simp [free]
    · rw [inserted_cons_absorbed free, insertOrIgnore_taken free, ih]
      exact ⟨fun h => ⟨free,h⟩,fun h => h.2⟩

/-- The whole list is inserted exactly when its keys are new and differ from each other. -/
theorem length_inserted_iff {t : Table key} {rs : List ρ} :
    (t.inserted rs).length = rs.length ↔
      (rs.map key).Nodup ∧ ∀ r ∈ rs, t.find? (key r) = none := by
  induction rs generalizing t with
  | nil => simp [inserted]
  | cons r rs ih =>
    rw [List.map_cons, List.nodup_cons, List.forall_mem_cons]
    by_cases free : t.find? (key r) = none
    · rw [inserted_cons_fresh free, List.length_cons, List.length_cons, Nat.add_right_cancel_iff, ih]
      have later (q : ρ) : (t.insertOrIgnore r).find? (key q) = none ↔
          t.find? (key q) = none ∧ key r ≠ key q := by
        rw [find?_insertOrIgnore]
        by_cases hk : key r = key q <;> simp [hk]
      have apart : (∀ q ∈ rs, key r ≠ key q) ↔ key r ∉ rs.map key := by
        simp [List.mem_map, eq_comm]
      simp only [later, forall_and, apart, free, true_and]
      constructor
      · rintro ⟨nodup, fresh, new⟩
        exact ⟨⟨new,nodup⟩,fresh⟩
      · rintro ⟨⟨new, nodup⟩, fresh⟩
        exact ⟨nodup,fresh,new⟩
    · have short : (t.inserted (r :: rs)).length ≤ rs.length := by
        rw [inserted_cons_absorbed free]
        exact inserted_sublist.length_le
      constructor
      · intro full
        rw [full, List.length_cons] at short
        exact absurd short (Nat.not_succ_le_self _)
      · rintro ⟨_, first, _⟩
        exact absurd first free

/-- `COPY`: the rows all together, or none of them. -/
def insertEach (t : Table key) (rs : List ρ) : Option (Table key) := rs.foldlM insert t

theorem insertEach_rows {t u : Table key} {rs : List ρ} (h : t.insertEach rs = some u) :
    u.rows = t.rows ++ rs := by
  induction rs generalizing t with
  | nil => rw [List.append_nil, Option.some.inj h]
  | cons r rs ih =>
    rw [insertEach, List.foldlM_cons, Option.bind_eq_bind, Option.bind_eq_some_iff] at h
    obtain ⟨v, hv, rest⟩ := h
    rw [ih rest, insert_rows hv, List.append_assoc, List.singleton_append]

/-- Rows that are there already are refused. -/
theorem insertEach_again {t : Table key} {rs : List ρ} (some : rs ≠ []) (there : rs ⊆ t.rows) :
    t.insertEach rs = none := by
  cases rs with
  | nil => exact absurd rfl some
  | cons r rs =>
    have taken : t.find? (key r) ≠ none := by
      rw [find?_eq_some.mpr ⟨there List.mem_cons_self,rfl⟩]
      exact Option.some_ne_none r
    rw [insertEach, List.foldlM_cons, insert_eq_none taken]
    rfl

end Table

end Framework
