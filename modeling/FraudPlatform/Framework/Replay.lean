import FraudPlatform.Framework.Table
import Mathlib.Data.List.Count

namespace Framework

namespace Table

variable {κ ρ : Type*} {key : ρ → κ} [DecidableEq κ]

/-- The row meets its key in the table, or in a row of the batch before it. -/
def Absorbed (t : Table key) (before : List ρ) (r : ρ) : Prop :=
  t.find? (key r) ≠ none ∨ key r ∈ before.map key

variable {t : Table key} {q r : ρ} {rs before : List ρ}

theorem absorbed_nil : t.Absorbed [] r ↔ t.find? (key r) ≠ none := by simp [Absorbed]

theorem absorbed_cons : t.Absorbed (q :: before) r ↔ (t.insertOrIgnore q).Absorbed before r := by
  simp only [Absorbed, find?_insertOrIgnore, List.map_cons, List.mem_cons]
  by_cases hk : key q = key r
  · simp [hk]
  · simp [hk, Ne.symm hk]

/-- A batch already in the table and one before the row absorb alike. -/
theorem absorbed_append (as : List ρ) :
    t.Absorbed (as ++ before) r ↔ (t.insertAll as).Absorbed before r := by
  induction as generalizing t with
  | nil => exact Iff.rfl
  | cons a as ih => rw [List.cons_append, absorbed_cons, ih, insertAll_cons]

/-- A row goes in exactly when nothing absorbs it at its place in the batch. -/
theorem exists_inserted (t : Table key) (rs : List ρ) (p : ρ → Prop) : (∃ r ∈ t.inserted rs, p r) ↔
    ∃ before r after, rs = before ++ r :: after ∧ p r ∧ ¬t.Absorbed before r := by
  induction rs generalizing t with
  | nil => simp [inserted]
  | cons q rs ih =>
    have later : (∃ r ∈ (t.insertOrIgnore q).inserted rs, p r) ↔
        ∃ before r after, rs = before ++ r :: after ∧ p r ∧ ¬t.Absorbed (q :: before) r := by
      simp only [absorbed_cons]
      exact ih (t.insertOrIgnore q)
    have split : (∃ before r after, q :: rs = before ++ r :: after ∧ p r ∧ ¬t.Absorbed before r) ↔
        (p q ∧ ¬t.Absorbed [] q) ∨
          ∃ before r after, rs = before ++ r :: after ∧ p r ∧ ¬t.Absorbed (q :: before) r := by
      constructor
      · rintro ⟨before, r, after, eq, hp, fresh⟩
        cases before with
        | nil =>
          obtain ⟨rfl, _⟩ := List.cons.inj eq
          exact Or.inl ⟨hp,fresh⟩
        | cons b before =>
          obtain ⟨rfl, rest⟩ := List.cons.inj eq
          exact Or.inr ⟨before,r,after,rest,hp,fresh⟩
      · rintro (⟨hp, fresh⟩ | ⟨before, r, after, rfl, hp, fresh⟩)
        · exact ⟨[],q,rs,rfl,hp,fresh⟩
        · exact ⟨q :: before,r,after,rfl,hp,fresh⟩
    rw [split, ← later, absorbed_nil]
    by_cases free : t.find? (key q) = none
    · rw [inserted_cons_fresh free]
      simp [free]
    · rw [inserted_cons_absorbed free]
      simp [free]

/-- Two batches with at most one row of a kind each leave at most one of it exactly when the
first or the second is absorbed. -/
theorem twice_gains_one (t : Table key) (as bs : List ρ) (p : ρ → Bool) (ha : as.countP p ≤ 1)
    (hb : bs.countP p ≤ 1) :
    ((t.insertAll as).insertAll bs).rows.countP p ≤ t.rows.countP p + 1 ↔
      ∀ before a after before' b after', as = before ++ a :: after → bs = before' ++ b :: after' →
        p a → p b → t.Absorbed before a ∨ t.Absorbed (as ++ before') b := by
  have first : (t.inserted as).countP p ≤ 1 := Nat.le_trans inserted_sublist.countP_le ha
  have second : ((t.insertAll as).inserted bs).countP p ≤ 1 :=
    Nat.le_trans inserted_sublist.countP_le hb
  have one (rs : List ρ) : 0 < rs.countP p ↔ ∃ r ∈ rs, p r = true := List.countP_pos_iff
  have inserted₁ := exists_inserted t as (fun r => p r = true)
  have inserted₂ := exists_inserted (t.insertAll as) bs (fun r => p r = true)
  rw [← one] at inserted₁ inserted₂
  rw [insertAll_rows, insertAll_rows, List.countP_append, List.countP_append]
  constructor
  · intro bound before a after before' b after' eq₁ eq₂ pa pb
    by_contra fresh
    rw [not_or, absorbed_append] at fresh
    have some₁ := inserted₁.mpr ⟨before,a,after,eq₁,pa,fresh.1⟩
    have some₂ := inserted₂.mpr ⟨before',b,after',eq₂,pb,fresh.2⟩
    omega
  · intro absorbed
    by_contra more
    have some₁ : 0 < (t.inserted as).countP p := by omega
    have some₂ : 0 < ((t.insertAll as).inserted bs).countP p := by omega
    obtain ⟨before, a, after, eq₁, pa, fresh₁⟩ := inserted₁.mp some₁
    obtain ⟨before', b, after', eq₂, pb, fresh₂⟩ := inserted₂.mp some₂
    obtain old | old := absorbed before a after before' b after' eq₁ eq₂ pa pb
    · exact fresh₁ old
    · exact fresh₂ ((absorbed_append as).mp old)

end Table

end Framework
