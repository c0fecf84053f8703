import FraudPlatform.Framework.Run
import FraudPlatform.Framework.Table

namespace FraudPlatform.Migrations

open Framework

variable {D : Type}

/-- The list of migrations, their texts, and what the server makes of a text: `none` is an
SQL error. -/
structure Migrator (D : Type) where
  migrations : List String
  distinct : migrations.Nodup
  readText : String → String
  execute : String → D → Option D

def monitoringMigrations : List String :=
  ["001_predictions_table.sql","002_labels_table.sql","003_models_table.sql",
    "004_drift_alerts_table.sql","005_canary_decisions_table.sql",
    "006_shadow_comparisons_table.sql","007_shadow_summaries_table.sql",
    "008_canary_decisions_outcome.sql"]

/-- The migrator of the repository, of the texts in its directory. -/
def monitoringMigrator (readText : String → String) (execute : String → D → Option D) :
    Migrator D :=
  ⟨monitoringMigrations,by decide,readText,execute⟩

/-- `schema_migrations`, by `filename`. -/
abbrev SchemaMigrations := Table (fun filename : String => filename)

/-- The database: `schema_migrations` once it is there, and all the rest. -/
structure Database (D : Type) where
  schemaMigrations : Option SchemaMigrations
  content : D

/-- Where a run of `main` stands. Inside `conn.transaction()` it works on a copy. -/
inductive Phase (D : Type)
  /-- No run, or one that raised or died. -/
  | closed
  | connected
  /-- Before the SELECT of the next file. -/
  | next (rest : List String)
  /-- The file is not recorded. -/
  | pending (filename : String) (rest : List String)
  | begun (filename sql : String) (rest : List String) (work : Database D)
  | executed (filename : String) (rest : List String) (work : Database D)
  /-- Before the COMMIT. -/
  | inserted (filename : String) (rest : List String) (work : Database D)
  | finished

inductive Event
  | start
  /-- The next statement of the run; a file may be missing from the directory. -/
  | advance (exists_ : Bool)
  /-- A crash, a lost connection or any other exception. -/
  | stop
  deriving DecidableEq, Repr

structure Process (D : Type) where
  db : Database D
  phase : Phase D

/-- `CREATE TABLE IF NOT EXISTS`. -/
def Database.createTable (db : Database D) : Database D :=
  { db with schemaMigrations := some (db.schemaMigrations.getD .empty) }

def Process.advance (M : Migrator D) (exists_ : Bool) (s : Process D) : Process D :=
  match s.phase with
  | .closed => s
  | .connected => ⟨s.db.createTable,.next M.migrations⟩
  | .next [] => ⟨s.db,.finished⟩
  | .next (filename :: rest) =>
    match s.db.schemaMigrations with
    | none => ⟨s.db,.closed⟩
    | some t =>
      if (t.find? filename).isSome then ⟨s.db,.next rest⟩ else ⟨s.db,.pending filename rest⟩
  | .pending filename rest =>
    if exists_ then ⟨s.db,.begun filename (M.readText filename) rest s.db⟩ else ⟨s.db,.closed⟩
  | .begun filename sql rest work =>
    match M.execute sql work.content with
    | none => ⟨s.db,.closed⟩
    | some content => ⟨s.db,.executed filename rest { work with content := content }⟩
  | .executed filename rest work =>
    match work.schemaMigrations.bind (·.insert filename) with
    | none => ⟨s.db,.closed⟩
    | some t => ⟨s.db,.inserted filename rest { work with schemaMigrations := some t }⟩
  | .inserted _ rest work => ⟨work,.next rest⟩
  | .finished => s

def Process.step (M : Migrator D) (s : Process D) : Event → Process D
  | .start =>
    match s.phase with
    | .closed => ⟨s.db,.connected⟩
    | .finished => ⟨s.db,.connected⟩
    | _ => s
  | .advance exists_ => s.advance M exists_
  | .stop =>
    match s.phase with
    | .finished => s
    | _ => ⟨s.db,.closed⟩

/-- The filenames recorded, in the order of their records. -/
def Database.recorded (db : Database D) : List String :=
  (db.schemaMigrations.map (·.rows)).getD []

/-- The content after each of the files has been executed once, in order. -/
def Migrator.executeAll (M : Migrator D) (content : D) : List String → Option D
  | [] => some content
  | filename :: files =>
    (M.execute (M.readText filename) content).bind fun content => M.executeAll content files

/-- The records are a prefix of the list, exactly their files have been executed, each once and
in order, and a run that has finished has recorded all. -/
structure Process.Sound (M : Migrator D) (initial : D) (s : Process D) : Prop where
  prefixed : s.db.recorded <+: M.migrations
  executed : M.executeAll initial s.db.recorded = some s.db.content
  complete : s.phase = .finished → s.db.recorded = M.migrations

/-- The records are what comes before the file in the list. -/
def Migrator.UpTo (M : Migrator D) (db : Database D) (filename : String) (rest : List String) :
    Prop :=
  ∃ t, db.schemaMigrations = some t ∧ M.migrations = t.rows ++ filename :: rest

/-- What a run knows where it stands. -/
def Phase.Holds (M : Migrator D) (db : Database D) : Phase D → Prop
  | .closed => True
  | .connected => True
  | .next rest => ∃ t done, db.schemaMigrations = some t ∧ M.migrations = done ++ rest ∧
      done <+: t.rows
  | .pending filename rest => M.UpTo db filename rest
  | .begun filename sql rest work =>
    M.UpTo db filename rest ∧ sql = M.readText filename ∧ work = db
  | .executed filename rest work =>
    M.UpTo db filename rest ∧ work.schemaMigrations = db.schemaMigrations ∧
      M.execute (M.readText filename) db.content = some work.content
  | .inserted filename rest work =>
    M.UpTo db filename rest ∧ work.schemaMigrations.isSome = true ∧
      work.recorded = db.recorded ++ [filename] ∧
      M.execute (M.readText filename) db.content = some work.content
  | .finished => db.recorded = M.migrations

structure Process.Inv (M : Migrator D) (initial : D) (s : Process D) : Prop where
  prefixed : s.db.recorded <+: M.migrations
  executed : M.executeAll initial s.db.recorded = some s.db.content
  phase : s.phase.Holds M s.db

variable {M : Migrator D} {initial : D} {s : Process D} {db : Database D}

theorem recorded_of_some {t : SchemaMigrations} (h : db.schemaMigrations = some t) :
    db.recorded = t.rows := by
  rw [Database.recorded, h, Option.map_some, Option.getD_some]

@[simp] theorem createTable_recorded (db : Database D) : db.createTable.recorded = db.recorded := by
  unfold Database.createTable Database.recorded
  cases db.schemaMigrations <;> rfl

theorem executeAll_append (content : D) (done rest : List String) :
    M.executeAll content (done ++ rest) =
      (M.executeAll content done).bind fun content => M.executeAll content rest := by
  induction done generalizing content with
  | nil => rfl
  | cons file done ih =>
    rw [List.cons_append, Migrator.executeAll, Migrator.executeAll]
    cases M.execute (M.readText file) content with
    | none => rfl
    | some content => exact ih content

theorem executeAll_singleton (content : D) (filename : String) :
    M.executeAll content [filename] = M.execute (M.readText filename) content := by
  rw [Migrator.executeAll]
  cases M.execute (M.readText filename) content <;> rfl

/-- The records that go beyond the files before this one go on with this one. -/
theorem recorded_next {t : SchemaMigrations} {done rest : List String} {filename : String}
    (list : M.migrations = done ++ filename :: rest) (before : done <+: t.rows)
    (prefixed : t.rows <+: M.migrations) :
    t.rows = done ∨ done ++ [filename] <+: t.rows := by
  obtain ⟨more, hmore⟩ := before
  rw [list, ← hmore, List.prefix_append_right_inj, List.prefix_cons_iff] at prefixed
  obtain rfl | ⟨more', rfl, _⟩ := prefixed
  · rw [List.append_nil] at hmore
    exact Or.inl hmore.symm
  · rw [← hmore, List.prefix_append_right_inj]
    exact Or.inr ⟨more',rfl⟩

theorem notMem_done {done rest : List String} {filename : String}
    (list : M.migrations = done ++ filename :: rest) : filename ∉ done := by
  have distinct := M.distinct
  rw [list, List.nodup_append] at distinct
  intro h
  exact distinct.2.2 filename h filename List.mem_cons_self rfl

/-- A run that ends here leaves what was committed. -/
theorem inv_closed (h : s.Inv M initial) : (⟨s.db,.closed⟩ : Process D).Inv M initial :=
  ⟨h.prefixed,h.executed,trivial⟩

/-- The SELECT tells whether the next file is the first that is not recorded. -/
theorem select_inv {filename : String} {rest : List String} {t : SchemaMigrations}
    (h : s.Inv M initial) (phase : s.phase = .next (filename :: rest))
    (ht : s.db.schemaMigrations = some t) :
    (if (t.find? filename).isSome then (⟨s.db,.next rest⟩ : Process D)
      else ⟨s.db,.pending filename rest⟩).Inv M initial := by
  have known := h.phase
  rw [phase] at known
  obtain ⟨t', done, ht', list, before⟩ := known
  rw [ht, Option.some.injEq] at ht'
  subst ht'
  have prefixed := h.prefixed
  rw [recorded_of_some ht] at prefixed
  have present : (t.find? filename).isSome = true ↔ filename ∈ t.rows := by
    rw [Option.isSome_iff_ne_none, ne_eq, Table.find?_eq_none, List.map_id', not_not]
  split_ifs with hf
  · refine ⟨h.prefixed,h.executed,t,done ++ [filename],ht,?_,?_⟩
    · rw [list, List.append_assoc, List.singleton_append]
    · rcases recorded_next list before prefixed with same | further
      · rw [present, same] at hf
        exact absurd hf (notMem_done list)
      · exact further
  · refine ⟨h.prefixed,h.executed,t,ht,?_⟩
    rcases recorded_next list before prefixed with same | further
    · rw [same]
      exact list
    · exact absurd (present.mpr (further.mem (by simp))) hf

/-- The COMMIT records the file whose text it commits. -/
theorem commit_inv {filename : String} {rest : List String} {work : Database D}
    (h : s.Inv M initial) (phase : s.phase = .inserted filename rest work) :
    (⟨work,.next rest⟩ : Process D).Inv M initial := by
  have known := h.phase
  rw [phase] at known
  obtain ⟨⟨t, ht, list⟩, hsome, recorded, executed⟩ := known
  obtain ⟨u, hu⟩ := Option.isSome_iff_exists.mp hsome
  have split : M.migrations = work.recorded ++ rest := by
    rw [recorded, recorded_of_some ht, list, List.append_assoc, List.singleton_append]
  refine ⟨?_,?_,?_⟩
  · rw [split]
    exact List.prefix_append _ _
  · change M.executeAll initial work.recorded = some work.content
    rw [recorded, executeAll_append, h.executed, Option.bind_some, executeAll_singleton, executed]
  · refine ⟨u,work.recorded,hu,split,[],?_⟩
    rw [List.append_nil, recorded_of_some hu]

theorem advance_inv (h : s.Inv M initial) (exists_ : Bool) : (s.advance M exists_).Inv M initial := by
  have known := h.phase
  unfold Process.advance
  split
  · exact h
  · next hp =>
    refine ⟨?_,?_,_,[],rfl,rfl,List.nil_prefix⟩
    · rw [createTable_recorded]
      exact h.prefixed
    · rw [createTable_recorded]
      exact h.executed
  · next hp =>
    rw [hp] at known
    obtain ⟨t, done, ht, list, before⟩ := known
    refine ⟨h.prefixed,h.executed,?_⟩
    rw [List.append_nil] at list
    rw [← recorded_of_some ht, ← list] at before
    exact h.prefixed.eq_of_length_le before.length_le
  · next filename rest hp =>
    split
    · exact inv_closed h
    · next t ht => exact select_inv h hp ht
  · next filename rest hp =>
    rw [hp] at known
    split
    · exact ⟨h.prefixed,h.executed,known,rfl,rfl⟩
    · exact inv_closed h
  · next filename sql rest work hp =>
    rw [hp] at known
    obtain ⟨upTo, rfl, rfl⟩ := known
    split
    · exact inv_closed h
    · next content hc => exact ⟨h.prefixed,h.executed,upTo,rfl,hc⟩
  · next filename rest work hp =>
    rw [hp] at known
    obtain ⟨upTo, same, executed⟩ := known
    split
    · exact inv_closed h
    · next t ht =>
      obtain ⟨u, hu, hi⟩ := Option.bind_eq_some_iff.mp ht
      refine ⟨h.prefixed,h.executed,upTo,rfl,?_,executed⟩
      change t.rows = _
      rw [Table.insert_rows hi, recorded_of_some (same ▸ hu)]
  · next filename rest work hp => exact commit_inv h hp
  · exact h

theorem step_inv (h : s.Inv M initial) (e : Event) : (s.step M e).Inv M initial := by
  cases e with
  | start =>
    simp only [Process.step]
    split
    · exact ⟨h.prefixed,h.executed,trivial⟩
    · exact ⟨h.prefixed,h.executed,trivial⟩
    · exact h
  | advance exists_ => exact advance_inv h exists_
  | stop =>
    simp only [Process.step]
    split
    · exact h
    · exact inv_closed h

theorem sound_of_inv (h : s.Inv M initial) : s.Sound M initial := by
  refine ⟨h.prefixed,h.executed,?_⟩
  intro finished
  have known := h.phase
  rw [finished] at known
  exact known

/-- From a database without `schema_migrations`, over any sequence of runs that may stop at any
statement, the migrations are applied exactly once and in order. -/
theorem migrations_exactly_once (M : Migrator D) (initial : D) (es : List Event) :
    Always (Process.step M) (Process.Sound M initial) ⟨⟨none,initial⟩,.closed⟩ es := by
  have start : Process.Inv M initial ⟨⟨none,initial⟩,.closed⟩ :=
    ⟨List.nil_prefix,rfl,trivial⟩
  have always := always_of_step (Process.step M) (P := Process.Inv M initial)
    (fun s e h => step_inv h e) start es
  exact always_imp (Process.step M) (fun s inv => sound_of_inv inv) always

section Finishing

/-- The run is past `CREATE TABLE` and has not failed. -/
def Phase.UnderWay : Phase D → Prop
  | .closed | .connected => False
  | _ => True

/-- At most so many statements are left of the run. -/
def Phase.left : Phase D → Nat
  | .next rest => 5 * rest.length + 1
  | .pending _ rest => 5 * rest.length + 5
  | .begun _ _ rest _ => 5 * rest.length + 4
  | .executed _ rest _ => 5 * rest.length + 3
  | .inserted _ rest _ => 5 * rest.length + 2
  | _ => 0

/-- The file after the records executes, when all the files do, and is not yet recorded. -/
theorem next_executes (executable : (M.executeAll initial M.migrations).isSome = true)
    (h : s.Inv M initial) {filename : String} {rest : List String} (upTo : M.UpTo s.db filename rest) :
    (∃ content, M.execute (M.readText filename) s.db.content = some content) ∧
      ∃ t u, s.db.schemaMigrations = some t ∧ t.insert filename = some u := by
  obtain ⟨t, ht, list⟩ := upTo
  have executed := h.executed
  rw [recorded_of_some ht] at executed
  constructor
  · rw [list, executeAll_append, executed, Option.bind_some, Migrator.executeAll] at executable
    cases hc : M.execute (M.readText filename) s.db.content with
    | some content => exact ⟨content,rfl⟩
    | none =>
      rw [hc] at executable
      cases executable
  · have fresh : (t.insert filename).isSome = true := by
      rw [Table.insert_isSome, Table.find?_eq_none, List.map_id']
      exact notMem_done list
    obtain ⟨u, hu⟩ := Option.isSome_iff_exists.mp fresh
    exact ⟨t,u,ht,hu⟩

theorem advance_progress (executable : (M.executeAll initial M.migrations).isSome = true)
    (h : s.Inv M initial) (underWay : s.phase.UnderWay) :
    (s.advance M true).phase.UnderWay ∧
      (s.phase = .finished ∧ (s.advance M true).phase = .finished ∨
        (s.advance M true).phase.left < s.phase.left) := by
  have known := h.phase
  unfold Process.advance
  cases hp : s.phase with
  | closed => rw [hp] at underWay; cases underWay
  | connected => rw [hp] at underWay; cases underWay
  | next rest =>
    rw [hp] at known
    cases rest with
    | nil => exact ⟨trivial,Or.inr (Nat.zero_lt_succ _)⟩
    | cons filename rest =>
      obtain ⟨t, _, ht, _⟩ := known
      simp only [ht]
      split_ifs
      · exact ⟨trivial,Or.inr (by simp only [Phase.left, List.length_cons]; omega)⟩
      · exact ⟨trivial,Or.inr (by simp only [Phase.left, List.length_cons]; omega)⟩
  | pending filename rest => exact ⟨trivial,Or.inr (Nat.lt_succ_self _)⟩
  | begun filename sql rest work =>
    rw [hp] at known
    obtain ⟨upTo, rfl, rfl⟩ := known
    obtain ⟨⟨content, hc⟩, _⟩ := next_executes executable h upTo
    simp only [hc]
    exact ⟨trivial,Or.inr (Nat.lt_succ_self _)⟩
  | executed filename rest work =>
    rw [hp] at known
    obtain ⟨upTo, same, _⟩ := known
    obtain ⟨_, t, u, ht, hu⟩ := next_executes executable h upTo
    simp only [same, ht, Option.bind_some, hu]
    exact ⟨trivial,Or.inr (Nat.lt_succ_self _)⟩
  | inserted filename rest work => exact ⟨trivial,Or.inr (Nat.lt_succ_self _)⟩
  | finished => exact ⟨by rw [hp]; trivial,Or.inl ⟨rfl,hp⟩⟩

theorem run_finishes (executable : (M.executeAll initial M.migrations).isSome = true)
    (h : s.Inv M initial) (underWay : s.phase.UnderWay) {n : Nat} (enough : s.phase.left ≤ n) :
    (run (Process.step M) s (List.replicate n (.advance true))).phase = .finished := by
  induction n generalizing s with
  | zero =>
    change s.phase = .finished
    cases hp : s.phase with
    | finished => rfl
    | closed => rw [hp] at underWay; cases underWay
    | connected => rw [hp] at underWay; cases underWay
    | _ => rw [hp] at enough; cases enough
  | succ n ih =>
    rw [List.replicate_succ, run_cons]
    obtain ⟨still, progress⟩ := advance_progress executable h underWay
    refine ih (advance_inv h true) still ?_
    obtain ⟨_, finished⟩ | fewer := progress
    · change (s.advance M true).phase.left ≤ n
      rw [finished]
      exact Nat.zero_le n
    · change (s.advance M true).phase.left ≤ n
      omega

/-- Whatever became of the runs before, a run that nothing stops finishes, when every file is there
and the server accepts them in turn. -/
theorem migrations_finish (M : Migrator D) (initial : D)
    (executable : (M.executeAll initial M.migrations).isSome = true) (es : List Event) :
    (run (Process.step M) ⟨⟨none,initial⟩,.closed⟩ (es ++ .stop :: .start :: .advance true ::
      List.replicate (5 * M.migrations.length + 1) (.advance true))).phase = .finished := by
  have start : Process.Inv M initial ⟨⟨none,initial⟩,.closed⟩ := ⟨List.nil_prefix,rfl,trivial⟩
  have before := always_last (Process.step M) (always_of_step (Process.step M)
    (P := Process.Inv M initial) (fun s e h => step_inv h e) start es)
  rw [run_append, run_cons, run_cons, run_cons]
  generalize run (Process.step M) ⟨⟨none,initial⟩,.closed⟩ es = s at before ⊢
  have connected : (((s.step M .stop).step M .start)).phase = .connected := by
    cases hp : s.phase <;> simp [Process.step, hp]
  have inv := step_inv (step_inv before .stop) .start
  have next : (((s.step M .stop).step M .start).step M (.advance true)).phase =
      .next M.migrations := by
    simp only [Process.step, Process.advance] at connected ⊢
    rw [connected]
  refine run_finishes executable (step_inv inv (.advance true)) ?_ ?_
  · rw [next]
    trivial
  · rw [next]
    exact Nat.le_refl _

end Finishing

/-- A server that dies in the transaction of the second file, and a second run. -/
example :
    let M := monitoringMigrator id fun sql (content : List String) => some (content ++ [sql])
    let s := run (Process.step M) ⟨⟨none,[]⟩,.closed⟩
      ([.start] ++ List.replicate 9 (.advance true) ++ [.stop,.start] ++
        List.replicate 39 (.advance true))
    s.db.recorded = monitoringMigrations ∧ s.db.content = monitoringMigrations := by
  decide +kernel

end FraudPlatform.Migrations
