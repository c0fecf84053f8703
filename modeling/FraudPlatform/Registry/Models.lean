import FraudPlatform.Framework.Table
import FraudPlatform.Http
import FraudPlatform.Registry.Roster

namespace FraudPlatform.Registry

open Framework

structure ModelRow where
  modelVersion : String
  modelPath : String
  onnxSha256 : String
  role : Role
  notes : Option String
  promotedAt : Option Int
  retiredAt : Option Int
  deriving DecidableEq, Repr

/-- The `models` table; `model_version` is its primary key. -/
abbrev Models := Table ModelRow.modelVersion

namespace Models

variable (t : Models)

/-- `UPDATE models SET role='retired', retired_at=NOW() WHERE role='champion'`. -/
def retireChampions (now : Int) : Models :=
  t.update (fun r => r.role = .champion)
    (fun r => { r with role := .retired, retiredAt := some now }) (fun _ => rfl)

/-- `UPDATE models SET role='champion', promoted_at=NOW() WHERE model_version=version`. -/
def makeChampion (now : Int) (version : String) : Models :=
  t.update (fun r => r.modelVersion = version)
    (fun r => { r with role := .champion, promotedAt := some now }) (fun _ => rfl)

/-- `UPDATE models SET role='retired', retired_at=NOW() WHERE model_version=version`. -/
def retireVersion (now : Int) (version : String) : Models :=
  t.update (fun r => r.modelVersion = version)
    (fun r => { r with role := .retired, retiredAt := some now }) (fun _ => rfl)

/-- `UPDATE models SET role='retired', retired_at=NOW()
WHERE role='challenger' AND model_version != version`. -/
def retireOtherChallengers (now : Int) (version : String) : Models :=
  t.update (fun r => r.role = .challenger ∧ r.modelVersion ≠ version)
    (fun r => { r with role := .retired, retiredAt := some now }) (fun _ => rfl)

/-- `UPDATE models SET role=.., model_path=.., onnx_sha256=.., notes=.. WHERE model_version=..`. -/
def setRole (version path sha : String) (role : Role) (notes : String) : Models :=
  t.update (fun r => r.modelVersion = version)
    (fun r => { r with role := role, modelPath := path, onnxSha256 := sha, notes := some notes })
    (fun _ => rfl)

/-- The versions in a role, in the order of the table. -/
def versions (role : Role) : List String := t.keysWhere (fun r => r.role = role)

def roster : Roster String := fun v => (t.find? v).map (·.role)

theorem roster_eq_some (v : String) (role : Role) :
    t.roster v = some role ↔ ∃ r ∈ t.rows, r.modelVersion = v ∧ r.role = role := by
  simp only [roster, Option.map_eq_some_iff, Table.find?_eq_some, and_assoc]

theorem mem_versions (role : Role) (v : String) : v ∈ t.versions role ↔ t.roster v = some role := by
  simp only [versions, Table.mem_keysWhere, roster, Option.map_eq_some_iff, decide_eq_true_eq]

theorem versions_eq_singleton (role : Role) (v : String) :
    t.versions role = [v] ↔ t.roster.Sole role v := by
  rw [versions, Table.keysWhere_eq_singleton]
  exact forall_congr' (fun u => by rw [← t.mem_versions role u, versions])

theorem versions_length_eq_one (role : Role) :
    (t.versions role).length = 1 ↔ ∃ v, t.roster.Sole role v := by
  rw [List.length_eq_one_iff]
  exact exists_congr (t.versions_eq_singleton role)

theorem find?_cases (v : String) : (t.find? v = none ∧ t.roster v = none) ∨
    ∃ r, t.find? v = some r ∧ r.modelVersion = v ∧ t.roster v = some r.role := by
  cases hf : t.find? v with
  | none => exact Or.inl ⟨rfl,by simp [roster, hf]⟩
  | some r => exact Or.inr ⟨r,rfl,(Table.find?_eq_some.mp hf).2,by simp [roster, hf]⟩

theorem roster_update (p : ModelRow → Bool) (f : ModelRow → ModelRow)
    (hf : ∀ r, (f r).modelVersion = r.modelVersion) (v : String) :
    roster (Table.update t p f hf) v =
      (t.find? v).map (fun r => if p r then (f r).role else r.role) := by
  rw [roster, Table.find?_update, Option.map_map]
  apply congrArg (Option.map · _)
  funext r
  cases hp : p r <;> simp [hp]

theorem roster_retireChampions (now : Int) :
    (t.retireChampions now).roster = t.roster.retireAll .champion := by
  funext v
  rw [retireChampions, roster_update, Roster.retireAll]
  obtain ⟨hf, hr⟩ | ⟨r, hf, hv, hr⟩ := t.find?_cases v
  · simp [hf, hr]
  · by_cases hc : r.role = .champion <;> simp [hf, hr, hc]

/-- An update that casts the row of one version, and no other, in a role. -/
theorem roster_update_version (version : String) (f : ModelRow → ModelRow)
    (hf : ∀ r, (f r).modelVersion = r.modelVersion) (role : Role) (hr : ∀ r, (f r).role = role) :
    roster (Table.update t (fun r => r.modelVersion = version) f hf) =
      t.roster.recast role version := by
  funext v
  rw [roster_update, Roster.recast]
  obtain ⟨hf, hn⟩ | ⟨r, hf, hv, hn⟩ := t.find?_cases v
  · simp [hf, hn]
  · simp only [hf, hn, hv, hr, Option.map_some]
    by_cases hc : v = version <;> simp [hc]

theorem roster_makeChampion (now : Int) (version : String) :
    (t.makeChampion now version).roster = t.roster.recast .champion version :=
  t.roster_update_version version _ _ .champion fun _ => rfl

/-- The two statements of a promotion are the promotion of the roster. -/
theorem roster_promote (now : Int) (version : String) :
    ((t.retireChampions now).makeChampion now version).roster = t.roster.promote version := by
  rw [roster_makeChampion, roster_retireChampions, Roster.promote]

theorem roster_retireVersion (now : Int) (version : String) :
    (t.retireVersion now version).roster = t.roster.recast .retired version :=
  t.roster_update_version version _ _ .retired fun _ => rfl

theorem roster_retireOtherChallengers (now : Int) (version : String) :
    (t.retireOtherChallengers now version).roster =
      t.roster.retireOthers .challenger version := by
  funext v
  rw [retireOtherChallengers, roster_update, Roster.retireOthers]
  obtain ⟨hf, hr⟩ | ⟨r, hf, hv, hr⟩ := t.find?_cases v
  · simp [hf, hr]
  · simp only [hf, hr, hv, Option.map_some]
    by_cases hc : v = version <;> by_cases hk : r.role = .challenger <;> simp [hc, hk]

theorem roster_setRole (version path sha : String) (role : Role) (notes : String) :
    (t.setRole version path sha role notes).roster = t.roster.recast role version :=
  t.roster_update_version version _ _ role fun _ => rfl

theorem roster_insert {t u : Models} {r : ModelRow} (h : t.insert r = some u) :
    u.roster = t.roster.assign r.role r.modelVersion := by
  funext v
  simp only [roster, Table.find?_insert h, Roster.assign]
  by_cases hv : v = r.modelVersion <;> simp [hv]

end Models

end FraudPlatform.Registry
