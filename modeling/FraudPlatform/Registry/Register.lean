import FraudPlatform.Registry.Models

namespace FraudPlatform.Registry

open Framework

def Role.text : Role → String
  | .champion => "champion"
  | .challenger => "challenger"
  | .retired => "retired"

def upsertModel (version path sha : String) (role : Role) (notes : String) (t : Models) :
    Except String Models :=
  match t.find? version with
  | none =>
    match t.insert ⟨version,path,sha,role,some notes,none,none⟩ with
    | some u => .ok u
    | none => .error "duplicate key value violates unique constraint"
  | some row =>
    if row.role = role then .ok t
    else if row.role = .retired then
      .error ("refusing to promote retired model " ++ String.ofList (version.toList.take 16) ++
        " to " ++ role.text ++ "; to re-promote, run an explicit UPDATE on the models table")
    else .ok (t.setRole version path sha role notes)

/-- `model_versions.json`. -/
structure ModelVersions where
  championVersion : String
  challengerVersion : String
  deriving DecidableEq, Repr

/-- The body of `with conn.transaction()`. -/
def registerTransaction (now : Int) (champSha challSha : String) (t : Models) :
    Except String Models := do
  let t ← upsertModel champSha "/app/artifacts/final_model.onnx" champSha .champion
    "XGBoost v1, phase 1 baseline" t
  let t := t.retireOtherChallengers now challSha
  upsertModel challSha "/app/artifacts/challenger/lgbm_final_model.onnx" challSha .challenger
    "LightGBM v1, 200 Optuna trials" t

structure RegisterEnv where
  dsn : String
  /-- The directory `ARTIFACTS`. -/
  artifacts : String
  /-- The digests of the two ONNX files, `none` for one that does not exist. -/
  championOnnx : Option String
  challengerOnnx : Option String
  connect : Except String Unit
  /-- The transaction as one call of the server. -/
  commit : Fate
  /-- `out.write_text`, after the commit. -/
  writeText : Except String Unit
  now : Int

/-- A run of the script. A raise inside the transaction rolls it back. -/
def registerMain (env : RegisterEnv) (t : Models) : Models × Except String ModelVersions :=
  match env.championOnnx, env.challengerOnnx with
  | none, _ => (t, .error ("champion ONNX not found: " ++ env.artifacts ++ "/final_model.onnx"))
  | some _, none =>
    (t, .error ("challenger ONNX not found: " ++ env.artifacts ++
      "/challenger/lgbm_final_model.onnx"))
  | some champSha, some challSha =>
    match env.connect with
    | .error _ =>
      (t, .error ("Cannot connect to Postgres (" ++ env.dsn ++
        "). Start it first: docker compose up -d postgres"))
    | .ok () =>
      match registerTransaction env.now champSha challSha t with
      | .error e => (t, .error e)
      | .ok u =>
        match env.commit.call (fun _ => (u, ())) t with
        | (t, none) => (t, .error "connection failed")
        | (t, some ()) => (t, env.writeText.map fun _ => ⟨champSha,challSha⟩)

/-- An upsert is refused exactly for a retired version, and otherwise assigns the role. -/
theorem upsertModel_cases (version path sha : String) (role : Role) (notes : String)
    (hr : role ≠ .retired) (t : Models) :
    (t.roster version = some .retired ∧ ∃ e, upsertModel version path sha role notes t = .error e) ∨
    (t.roster version ≠ some .retired ∧ ∃ u, upsertModel version path sha role notes t = .ok u ∧
      u.roster = t.roster.assign role version ∧
      ∀ row ∈ t.rows, row.modelVersion ≠ version → row ∈ u.rows) := by
  obtain ⟨hf, hv⟩ | ⟨row, hf, hk, hv⟩ := t.find?_cases version
  · have room := (Table.insert_isSome t ⟨version,path,sha,role,some notes,none,none⟩).mpr hf
    obtain ⟨u, hu⟩ := Option.isSome_iff_exists.mp room
    refine Or.inr ⟨by simp [hv], u, by simp [upsertModel, hf, hu], Models.roster_insert hu, ?_⟩
    intro row hrow _
    rw [Table.insert_rows hu]
    exact List.mem_append_left _ hrow
  · by_cases hc : row.role = role
    · refine Or.inr ⟨by rw [hv, hc]; simpa using hr, t, by simp [upsertModel, hf, hc], ?_, ?_⟩
      · funext v
        by_cases h : v = version
        · subst v
          rw [hv, hc, Roster.assign, if_pos rfl]
        · rw [Roster.assign, if_neg h]
      · exact fun row hrow _ => hrow
    · by_cases hd : row.role = .retired
      · have hn : ¬Role.retired = role := Ne.symm hr
        exact Or.inl ⟨by rw [hv, hd],_,by simp only [upsertModel, hf, hd, if_neg hn, if_true]; rfl⟩
      · refine Or.inr ⟨by rw [hv]; simpa using hd, t.setRole version path sha role notes,
          by simp [upsertModel, hf, hc, hd], ?_, ?_⟩
        · funext v
          rw [Models.roster_setRole, Roster.recast, Roster.assign]
          by_cases h : v = version
          · subst v
            simp [hv]
          · simp [h]
        · intro row hrow hne
          exact Table.mem_update hrow (by simpa using hne)

/-- Registration commits exactly when neither digest is retired, and then it is the
registration of the roster. -/
theorem registerTransaction_cases (now : Int) (a b : String) (t : Models) :
    ((t.roster a = some .retired ∨ t.roster b = some .retired) ∧
      ∃ e, registerTransaction now a b t = .error e) ∨
    ((t.roster a ≠ some .retired ∧ t.roster b ≠ some .retired) ∧
      ∃ u, registerTransaction now a b t = .ok u ∧ u.roster = t.roster.register a b ∧
      ∀ row ∈ t.rows, row.role = .retired → row ∈ u.rows) := by
  have first := upsertModel_cases a "/app/artifacts/final_model.onnx" a .champion
    "XGBoost v1, phase 1 baseline" (by decide) t
  obtain ⟨ha, e, he⟩ | ⟨ha, t₁, h₁, r₁, keep₁⟩ := first
  · exact Or.inl ⟨Or.inl ha,e,by simp [registerTransaction, he, bind, Except.bind]⟩
  have second := upsertModel_cases b "/app/artifacts/challenger/lgbm_final_model.onnx" b
    .challenger "LightGBM v1, 200 Optuna trials" (by decide) (t₁.retireOtherChallengers now b)
  have middle : (t₁.retireOtherChallengers now b).roster b = some .retired ↔
      t.roster b = some .retired := by
    rw [Models.roster_retireOtherChallengers, r₁]
    by_cases hab : b = a
    · subst b
      simpa [Roster.retireOthers, Roster.assign] using ha
    · simp [Roster.retireOthers, Roster.assign, hab]
  obtain ⟨hb, e, he⟩ | ⟨hb, t₂, h₂, r₂, keep₂⟩ := second
  · exact Or.inl ⟨Or.inr (middle.mp hb),e,by
      simp [registerTransaction, h₁, he, bind, Except.bind]⟩
  refine Or.inr ⟨⟨ha,fun h => hb (middle.mpr h)⟩,t₂,?_,?_,?_⟩
  · simp [registerTransaction, h₁, h₂, bind, Except.bind]
  · rw [r₂, Models.roster_retireOtherChallengers, r₁, Roster.register]
  · intro row hrow hret
    have hv : t.roster row.modelVersion = some .retired :=
      (t.roster_eq_some _ _).mpr ⟨row,hrow,rfl,hret⟩
    have na : row.modelVersion ≠ a := fun h => ha (h ▸ hv)
    have nb : row.modelVersion ≠ b := fun h => hb (middle.mpr (h ▸ hv))
    apply keep₂ row _ nb
    exact Table.mem_update (keep₁ row hrow na) (by simp [hret])

/-- The row of the challenger as the script writes it. -/
def challengerRow (b : String) (r : ModelRow) : ModelRow :=
  { r with role := .challenger, modelPath := "/app/artifacts/challenger/lgbm_final_model.onnx",
           onnxSha256 := b, notes := some "LightGBM v1, 200 Optuna trials" }

/-- The script has no row to change: `b` is the only challenger, and `a` is champion or, if it
is the same version, the row is already as written. -/
def Registered (a b : String) (t : Models) : Prop :=
  (∀ v ∈ t.versions .challenger, v = b) ∧ ∃ r, t.find? b = some r ∧ r.role = .challenger ∧
    (a ≠ b → t.roster a = some .champion) ∧ (a = b → challengerRow b r = r)

/-- The transaction when one version, a challenger so far, is given for both roles. -/
private theorem registerTransaction_same (now : Int) (b : String) (t : Models) {r : ModelRow}
    (hf : t.find? b = some r) (hr : r.role = .challenger) :
    ∃ u, registerTransaction now b b t = .ok u ∧ u.rows = t.rows.map fun s =>
      if s.modelVersion = b then challengerRow b s
      else if s.role = .challenger then { s with role := .retired, retiredAt := some now }
      else s := by
  let t₁ := t.setRole b "/app/artifacts/final_model.onnx" b .champion "XGBoost v1, phase 1 baseline"
  let t₂ := t₁.retireOtherChallengers now b
  let t₃ := t₂.setRole b "/app/artifacts/challenger/lgbm_final_model.onnx" b .challenger
    "LightGBM v1, 200 Optuna trials"
  have key := (Table.find?_eq_some.mp hf).2
  obtain ⟨r₁, first, champion⟩ : ∃ r₁, t₁.find? b = some r₁ ∧ r₁.role = .champion := by
    simp [t₁, Models.setRole, Table.find?_update, hf, key]
  have second : t₂.find? b = some r₁ := by
    simp [t₂, Models.retireOtherChallengers, Table.find?_update, first, champion]
  have step₁ : upsertModel b "/app/artifacts/final_model.onnx" b .champion
      "XGBoost v1, phase 1 baseline" t = .ok t₁ := by
    simp [upsertModel, hf, hr, t₁]
  have step₃ : upsertModel b "/app/artifacts/challenger/lgbm_final_model.onnx" b .challenger
      "LightGBM v1, 200 Optuna trials" t₂ = .ok t₃ := by
    simp [upsertModel, second, champion, t₃]
  refine ⟨t₃,?_,?_⟩
  · simp only [registerTransaction, step₁, bind, Except.bind]
    exact step₃
  · simp only [t₃, t₂, t₁, Models.setRole, Models.retireOtherChallengers, Table.update,
      List.map_map]
    apply List.map_congr_left
    intro s _
    by_cases hs : s.modelVersion = b <;> by_cases hc : s.role = .challenger <;>
      simp [challengerRow, hs, hc]

private theorem unchanged_same {now : Int} {a : String} {t u : Models}
    (h : registerTransaction now a a t = .ok u) (roster : u.roster = t.roster.register a a) :
    u = t ↔ Registered a a t := by
  refine ⟨?_,?_⟩
  · intro hut
    have sole := t.roster.register_challenger a a
    rw [← roster, hut] at sole
    have known := (sole a).mpr rfl
    rw [Models.roster, Option.map_eq_some_iff] at known
    obtain ⟨r, hf, hr⟩ := known
    obtain ⟨u', hu', rows⟩ := registerTransaction_same now a t hf hr
    rw [h] at hu'
    cases hu'
    rw [hut] at rows
    have fixed := List.map_inj_left.mp (rows.symm.trans (List.map_id t.rows).symm)
    obtain ⟨hmem, hkey⟩ := Table.find?_eq_some.mp hf
    have written := fixed r hmem
    rw [if_pos hkey] at written
    exact ⟨fun v hv => (sole v).mp ((t.mem_versions .challenger v).mp hv),r,hf,hr,
      fun hne => absurd rfl hne,fun _ => written⟩
  · intro hreg
    obtain ⟨sole, r, hf, hr, _, written⟩ := hreg
    obtain ⟨u', hu', rows⟩ := registerTransaction_same now a t hf hr
    rw [h] at hu'
    cases hu'
    apply Table.ext
    rw [rows]
    conv_rhs => rw [← List.map_id t.rows]
    apply List.map_congr_left
    intro s hs
    by_cases hk : s.modelVersion = a
    · have same : t.find? a = some s := Table.find?_eq_some.mpr ⟨hs,hk⟩
      rw [hf] at same
      cases same
      rw [if_pos hk]
      exact written rfl
    · have other : s.role ≠ .challenger := by
        intro hc
        have cast := (t.roster_eq_some s.modelVersion .challenger).mpr ⟨s,hs,rfl,hc⟩
        exact hk (sole _ ((t.mem_versions .challenger _).mpr cast))
      rw [if_neg hk, if_neg other]
      rfl

private theorem unchanged_distinct {now : Int} {a b : String} {t u : Models} (hab : a ≠ b)
    (h : registerTransaction now a b t = .ok u) (roster : u.roster = t.roster.register a b) :
    u = t ↔ Registered a b t := by
  refine ⟨?_,?_⟩
  · intro hut
    rw [hut] at roster
    have sole := t.roster.register_challenger a b
    have champion := (t.roster.register_champion a b a).mpr ⟨hab,Or.inl rfl⟩
    rw [← roster] at sole champion
    have known := (sole b).mpr rfl
    rw [Models.roster, Option.map_eq_some_iff] at known
    obtain ⟨r, hf, hr⟩ := known
    exact ⟨fun v hv => (sole v).mp ((t.mem_versions .challenger v).mp hv),r,hf,hr,
      fun _ => champion,fun hsame => absurd hsame hab⟩
  · intro hreg
    obtain ⟨sole, r, hf, hr, champion, _⟩ := hreg
    have known := champion hab
    rw [Models.roster, Option.map_eq_some_iff] at known
    obtain ⟨ra, hfa, hra⟩ := known
    have quiet : t.retireOtherChallengers now b = t := by
      apply Table.ext
      conv_rhs => rw [← List.map_id t.rows]
      apply List.map_congr_left
      intro s hs
      by_cases hc : s.role = .challenger
      · have cast := (t.roster_eq_some s.modelVersion .challenger).mpr ⟨s,hs,rfl,hc⟩
        have same := sole s.modelVersion ((t.mem_versions .challenger _).mpr cast)
        simp [same]
      · simp [hc]
    have stays : registerTransaction now a b t = .ok t := by
      simp [registerTransaction, upsertModel, hfa, hra, quiet, hf, hr, bind, Except.bind]
    rw [h] at stays
    exact Except.ok.inj stays

/-- The transaction changes nothing just where it has no row to change. -/
theorem registerTransaction_unchanged {now : Int} {a b : String} {t u : Models}
    (h : registerTransaction now a b t = .ok u) : u = t ↔ Registered a b t := by
  obtain ⟨_, e, he⟩ | ⟨_, u', hu, roster, _⟩ := registerTransaction_cases now a b t
  · rw [h] at he
    cases he
  · rw [h] at hu
    cases hu
    by_cases hab : a = b
    · subst hab
      exact unchanged_same h roster
    · exact unchanged_distinct hab h roster

/-- What a run of the script promises: it raises and changes nothing, or the two digests
are the only champion and the only challenger and no retired row has changed. -/
def KeepsRegistry (a b : String) (t : Models) (r : Models × Except String ModelVersions) : Prop :=
  (r.1 = t ∧ ∃ e, r.2 = .error e) ∨
  (r.2 = .ok ⟨a,b⟩ ∧ r.1.versions .champion = [a] ∧ r.1.versions .challenger = [b] ∧
    ∀ row ∈ t.rows, row.role = .retired → row ∈ r.1.rows)

/-- The script retires an older challenger but no older champion, lets one digest be
registered as both, and may raise after its commit. -/
theorem registerMain_keeps_iff (env : RegisterEnv) (a b : String) (t : Models) :
    KeepsRegistry a b t
        (registerMain { env with championOnnx := some a, challengerOnnx := some b } t) ↔
      (env.connect ≠ .ok () ∨ t.roster a = some .retired ∨ t.roster b = some .retired ∨
        env.commit = .lost) ∨
      (¬(env.commit = .delivered ∧ env.writeText = .ok ()) ∧ Registered a b t) ∨
      ((env.commit = .delivered ∧ env.writeText = .ok ()) ∧ a ≠ b ∧
        ∀ v ∈ t.versions .champion, v = a ∨ v = b) := by
  obtain ⟨dsn, artifacts, _, _, connect, commit, writeText, now⟩ := env
  cases connect with
  | error e => simp [registerMain, KeepsRegistry]
  | ok done =>
    obtain ⟨hr, e, he⟩ | ⟨hr, u, hu, ru, keep⟩ := registerTransaction_cases now a b t
    · have raised : registerMain ⟨dsn,artifacts,some a,some b,.ok (),commit,writeText,now⟩ t =
          (t, .error e) := by
        simp [registerMain, he]
      rw [raised]
      refine ⟨fun _ => Or.inl (Or.inr ?_), fun _ => Or.inl ⟨rfl,e,rfl⟩⟩
      tauto
    · have challengerOnly : u.versions .challenger = [b] := by
        rw [u.versions_eq_singleton .challenger b, ru]
        exact t.roster.register_challenger a b
      have championOnly : u.versions .champion = [a] ↔
          a ≠ b ∧ ∀ v ∈ t.versions .champion, v = a ∨ v = b := by
        rw [u.versions_eq_singleton .champion a, ru, t.roster.register_sole a b]
        simp only [t.mem_versions .champion]
      rw [← championOnly, ← registerTransaction_unchanged hu]
      cases commit with
      | lost => simp [registerMain, hu, KeepsRegistry]
      | unanswered => simp [registerMain, hu, KeepsRegistry, hr.1, hr.2]
      | delivered =>
        cases writeText with
        | error e => simp [registerMain, hu, KeepsRegistry, hr.1, hr.2, Except.map]
        | ok written =>
          simp only [registerMain, hu, KeepsRegistry, challengerOnly, hr.1, hr.2, Except.map,
            Fate.call_delivered, ne_eq, not_true_eq_false, false_or, reduceCtorEq, exists_false,
            and_false, true_and, and_self, false_and]
          exact and_iff_left keep

def oneChampion : Models :=
  ⟨[⟨"c1","/app/artifacts/final_model.onnx","c1",.champion,none,none,none⟩,
    ⟨"k1","/app/artifacts/challenger/lgbm_final_model.onnx","k1",.challenger,none,none,none⟩],
    by decide⟩

/-- The champion was retrained: the run succeeds and leaves two champions. -/
theorem registerMain_two_champions :
    (oneChampion.versions .champion).length ≤ 1 ∧ (oneChampion.versions .challenger).length ≤ 1 ∧
    (registerMain ⟨"","",some "c2",some "k1",.ok (),.delivered,.ok (),0⟩ oneChampion).1.versions .champion =
      ["c1","c2"] ∧
    ¬KeepsRegistry "c2" "k1" oneChampion
      (registerMain ⟨"","",some "c2",some "k1",.ok (),.delivered,.ok (),0⟩ oneChampion) := by
  refine ⟨by decide, by decide, by decide, ?_⟩
  intro h
  obtain ⟨hkept, _⟩ | ⟨_, hc, _⟩ := h
  · exact absurd (congrArg (fun u => u.versions .champion) hkept) (by decide)
  · exact absurd hc (by decide)

end FraudPlatform.Registry
