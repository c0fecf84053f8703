import Mathlib.Logic.Basic
import Mathlib.Tactic.SplitIfs
import Mathlib.Tactic.Tauto

namespace FraudPlatform.Registry

inductive Role
  | champion
  | challenger
  | retired
  deriving DecidableEq, Repr

/-- What the registry is for: which of the versions plays which role. -/
abbrev Roster (α : Type*) := α → Option Role

namespace Roster

variable {α : Type*} [DecidableEq α] (R : Roster α)

/-- `v` and no other version has the role. -/
def Sole (role : Role) (v : α) : Prop := ∀ u, R u = some role ↔ u = v

/-- Retire every holder of a role but `v`. -/
def retireOthers (role : Role) (v : α) : Roster α :=
  fun u => if R u = some role ∧ u ≠ v then some .retired else R u

/-- Give a version that is on the roster a role. -/
def recast (role : Role) (v : α) : Roster α :=
  fun u => if u = v then (R u).map (fun _ => role) else R u

/-- Give a version a role, known or not. -/
def assign (role : Role) (v : α) : Roster α := fun u => if u = v then some role else R u

def retireAll (role : Role) : Roster α :=
  fun u => if R u = some role then some .retired else R u

/-- Promotion retires every champion and then recasts the challenger. -/
def promote (c : α) : Roster α := (R.retireAll .champion).recast .champion c

theorem recast_self (role : Role) (c : α) : R.recast role c c = some role ↔ R c ≠ none := by
  cases hr : R c <;> simp [recast, hr]

theorem recast_eq_none (role : Role) (c u : α) : R.recast role c u = none ↔ R u = none := by
  by_cases hu : u = c <;> simp [recast, hu]

omit [DecidableEq α] in
theorem retireAll_eq_none (role : Role) (u : α) : R.retireAll role u = none ↔ R u = none := by
  by_cases h : R u = some role <;> simp [retireAll, h]

theorem promote_champion (c u : α) :
    R.promote c u = some .champion ↔ u = c ∧ R c ≠ none := by
  by_cases hu : u = c
  · subst u
    rw [promote, recast_self, ne_eq, retireAll_eq_none]
    tauto
  · by_cases hc : R u = some .champion <;> simp [promote, recast, retireAll, hu, hc]

theorem promote_sole (c v : α) :
    (R.promote c).Sole .champion v ↔ v = c ∧ R c ≠ none := by
  refine ⟨fun h => (R.promote_champion c v).mp ((h v).mpr rfl), fun h u => ?_⟩
  rw [R.promote_champion c u, h.1]
  exact and_iff_left h.2

theorem promote_retired (c u : α) (hu : R u = some .retired) (hc : u ≠ c) :
    R.promote c u = some .retired := by
  simp [promote, recast, retireAll, hc, hu]

theorem retire_champion (c u : α) :
    R.recast .retired c u = some .champion ↔ R u = some .champion ∧ u ≠ c := by
  by_cases hu : u = c <;> simp [recast, hu]

theorem retire_retired (c u : α) (hu : R u = some .retired) :
    R.recast .retired c u = some .retired := by
  by_cases hc : u = c
  · subst u
    simp [recast, hu]
  · simp [recast, hc, hu]

/-- A rollback keeps the champion exactly when it is not the version rolled back. -/
theorem retire_sole (c v : α) (h : R.Sole .champion v) :
    (R.recast .retired c).Sole .champion v ↔ v ≠ c := by
  refine ⟨fun hs => ((R.retire_champion c v).mp ((hs v).mpr rfl)).2, fun hv u => ?_⟩
  rw [R.retire_champion c u, h u]
  refine ⟨fun hu => hu.1, fun hu => ⟨hu,?_⟩⟩
  rw [hu]
  exact hv

/-- The rolled-back version was the champion, so nobody is. -/
theorem retire_none (v : α) (h : R.Sole .champion v) (u : α) :
    R.recast .retired v u ≠ some .champion := by
  rw [ne_eq, R.retire_champion v u, h u]
  tauto

/-- Registration: `a` becomes champion, other challengers retire, `b` becomes challenger. -/
def register (a b : α) : Roster α :=
  (((R.assign .champion a).retireOthers .challenger b).assign .challenger b)

theorem register_apply (a b u : α) :
    R.register a b u = if u = b then some .challenger else if u = a then some .champion
      else if R u = some .challenger then some .retired else R u := by
  by_cases hb : u = b
  · simp [register, assign, hb]
  · by_cases ha : u = a
    · simp [register, assign, retireOthers, ha]
    · simp [register, assign, retireOthers, hb, ha]

theorem register_champion (a b u : α) :
    R.register a b u = some .champion ↔ u ≠ b ∧ (u = a ∨ R u = some .champion) := by
  rw [register_apply]
  split_ifs with hb ha hc
  · simp [hb]
  · exact iff_of_true rfl ⟨hb,Or.inl ha⟩
  · simp [ha, hc]
  · simp [hb, ha]

theorem register_challenger (a b : α) : (R.register a b).Sole .challenger b := by
  intro u
  rw [register_apply]
  split_ifs with hb ha hc
  · simp [hb]
  · simp [hb]
  · simp [hb]
  · simp [hb, hc]

theorem register_retired (a b u : α) (hu : R u = some .retired) (ha : u ≠ a) (hb : u ≠ b) :
    R.register a b u = some .retired := by
  rw [register_apply, if_neg hb, if_neg ha, hu, if_neg (by decide)]

/-- Registration ends with `a` as the only champion exactly when `a` is not also the
challenger and no third version was champion. -/
theorem register_sole (a b : α) :
    (R.register a b).Sole .champion a ↔
      a ≠ b ∧ ∀ v, R v = some .champion → v = a ∨ v = b := by
  refine ⟨?_,?_⟩
  · intro h
    have hab := ((R.register_champion a b a).mp ((h a).mpr rfl)).1
    refine ⟨hab, fun v hv => ?_⟩
    by_cases hb : v = b
    · exact Or.inr hb
    · exact Or.inl ((h v).mp ((R.register_champion a b v).mpr ⟨hb,Or.inr hv⟩))
  · intro h u
    rw [R.register_champion a b u]
    refine ⟨?_,?_⟩
    · intro hu
      obtain ha | hc := hu.2
      · exact ha
      · exact (h.2 u hc).resolve_right hu.1
    · intro hu
      subst u
      exact ⟨h.1,Or.inl rfl⟩

end Roster

end FraudPlatform.Registry
