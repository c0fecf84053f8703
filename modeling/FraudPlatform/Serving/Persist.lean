import Mathlib.Data.List.Flatten
import FraudPlatform.Framework.Remote
import FraudPlatform.Framework.Table
import FraudPlatform.Serving.StoreProof
import FraudPlatform.Tables

namespace FraudPlatform.Serving

open Framework

variable {F : Type}

abbrev PredictionTable (F : Type) := Table (Prediction.predictionId (F := F))

/-- The columns of a record. -/
def Record.row (r : Record F) : Prediction F :=
  ⟨r.predictionId,r.transactionId,r.modelVersion,r.fraudProbability,r.flagged,r.featuresHash,
    r.featureLookupMs,r.modelInferenceMs,r.totalMs,r.createdAt⟩

def rowsOf (batch : List (Posted (Record F))) : List (Prediction F) :=
  batch.map fun p => p.item.row

/-- The server's side of `CopyFrom`, one transaction; `refused` is an error of its own. -/
def copyFrom (refused : Bool) (batch : List (Posted (Record F))) (t : PredictionTable F) :
    PredictionTable F × Except String Unit :=
  if refused then (t,.error "could not write")
  else
    match t.insertEach (rowsOf batch) with
    | some u => (u,.ok ())
    | none => (t,.error "duplicate key value violates unique constraint")

/-- `flushPostgres`: the table afterwards, and whether it returns nil. -/
def flushPostgres (refused : Bool) (fate : Fate) (batch : List (Posted (Record F)))
    (t : PredictionTable F) : PredictionTable F × Bool :=
  match fate.call (copyFrom refused batch) t with
  | (u, some (.ok ())) => (u,true)
  | (u, _) => (u,false)

/-- The server takes the batch, whatever `flushPostgres` learns of it. -/
def commits (refused : Bool) (fate : Fate) (batch : List (Posted (Record F)))
    (t : PredictionTable F) : Bool :=
  fate.acts && !refused && (t.insertEach (rowsOf batch)).isSome

/-- The prediction log and its table; `committed` is a note of the batches the server took. -/
structure Persisted (F : Type) where
  store : Store F
  predictions : PredictionTable F
  committed : List (List (Posted (Record F)))

inductive PersistAction (F : Type)
  /-- A step of the log that is not the end of a `flushFn`. -/
  | log (a : StoreAction F) (other : ∀ ok, a ≠ .flush ok)
  | flush (refused : Bool) (fate : Fate)

def Persisted.step (s : Persisted F) : PersistAction F → Persisted F
  | .log a _ => { s with store := s.store.step a }
  | .flush refused fate =>
    match s.store.flusher with
    | .flushing _ _ =>
      let (predictions, ok) := flushPostgres refused fate s.store.batch s.predictions
      ⟨s.store.step (.flush ok),predictions,s.committed ++
        if commits refused fate s.store.batch s.predictions then [s.store.batch] else []⟩
    | _ => s

/-- The batches whose call of `flushWithRetry` found no error, or one of them only. -/
def Store.reported (s : Store F) : List (List (Posted (Record F))) :=
  (s.flushed.filter (·.2.succeeded)).map Prod.fst

variable {initial : PredictionTable F} {s : Persisted F} {batch : List (Posted (Record F))}
  {t : PredictionTable F} {refused : Bool} {fate : Fate}

theorem rowsOf_append (xs ys : List (Posted (Record F))) :
    rowsOf (xs ++ ys) = rowsOf xs ++ rowsOf ys := List.map_append

theorem flushPostgres_committed (h : commits refused fate batch t = true) :
    (flushPostgres refused fate batch t).1.rows = t.rows ++ rowsOf batch := by
  simp only [commits, Bool.and_eq_true, Bool.not_eq_true', Option.isSome_iff_exists] at h
  obtain ⟨⟨acts, fair⟩, u, hu⟩ := h
  have rows := Table.insertEach_rows hu
  cases fate with
  | lost => cases acts
  | delivered => simpa [flushPostgres, copyFrom, fair, hu] using rows
  | unanswered => simpa [flushPostgres, copyFrom, fair, hu] using rows

/-- Without a commit the table stays, and the error is reported. -/
theorem flushPostgres_failed (h : commits refused fate batch t = false) :
    flushPostgres refused fate batch t = (t,false) := by
  cases fate with
  | lost => rfl
  | delivered =>
    cases refused with
    | true => rfl
    | false =>
      have none : t.insertEach (rowsOf batch) = none := by simpa [commits, Fate.acts] using h
      simp [flushPostgres, copyFrom, none]
  | unanswered =>
    cases refused with
    | true => rfl
    | false =>
      have none : t.insertEach (rowsOf batch) = none := by simpa [commits, Fate.acts] using h
      simp [flushPostgres, copyFrom, none]

/-- A batch that the server has is refused when it comes again. -/
theorem commits_again (some : batch ≠ []) (there : rowsOf batch ⊆ t.rows) :
    commits refused fate batch t = false := by
  have rows : rowsOf batch ≠ [] := by simpa [rowsOf] using some
  rw [commits, Table.insertEach_again rows there]
  simp

/-- What a log knows of the batches that its table took, when it is not at one of them. -/
structure Store.Covered (s : Store F) (committed : List (List (Posted (Record F)))) : Prop where
  once : committed.Sublist (s.flushed.map Prod.fst)
  reported : s.reported.Sublist committed
  missing : s.flushed.length ≤ committed.length + s.predictionLogFlushErrors

/-- The log at a batch that its table may have already. -/
structure Store.AtRetry (s : Store F) (committed taken : List (List (Posted (Record F)))) :
    Prop where
  flusher : ∃ next, s.flusher = .flushing true next
  taken : taken = committed ++ [s.batch]

/-- What holds between any two steps, whoever else writes to the table. -/
structure Persisted.Working (s : Persisted F) : Prop where
  there : rowsOf s.committed.flatten ⊆ s.predictions.rows
  busy : ∀ retry next, s.store.flusher = .flushing retry next → s.store.batch ≠ []
  covered : ∃ done, s.store.Covered done ∧
    (s.committed = done ∨ s.store.AtRetry done s.committed)

theorem Store.Covered.stored {s : Store F} {done : List (List (Posted (Record F)))}
    (h : s.Covered done) (stored : List (Posted (Record F))) (result : FlushResult) (next : After)
    (errors : Nat) (he : errors = s.predictionLogFlushErrors + if result = .dropped then 1 else 0) :
    ({ s with stored, predictionLogFlushErrors := errors }.endFlush result next).Covered
      (done ++ [s.batch]) := by
  refine ⟨?_,?_,?_⟩
  · change (done ++ [s.batch]).Sublist ((s.flushed ++ [(s.batch,result)]).map Prod.fst)
    rw [List.map_append]
    exact h.once.append (List.Sublist.refl [s.batch])
  · change (((s.flushed ++ [(s.batch,result)]).filter _).map Prod.fst).Sublist (done ++ [s.batch])
    rw [List.filter_append, List.map_append]
    apply h.reported.append
    cases result with
    | dropped => exact List.nil_sublist [s.batch]
    | stored => exact List.Sublist.refl [s.batch]
    | storedOnRetry => exact List.Sublist.refl [s.batch]
  · have missing := h.missing
    change (s.flushed ++ [(s.batch,result)]).length ≤ (done ++ [s.batch]).length + errors
    rw [List.length_append, List.length_append, List.length_singleton, List.length_singleton]
    omega

theorem Store.Covered.dropped {s : Store F} {done : List (List (Posted (Record F)))}
    (h : s.Covered done) (next : After) :
    ({ s with predictionLogFlushErrors := s.predictionLogFlushErrors + 1 }.endFlush
      .dropped next).Covered done := by
  refine ⟨?_,?_,?_⟩
  · change done.Sublist ((s.flushed ++ [(s.batch,FlushResult.dropped)]).map Prod.fst)
    rw [List.map_append]
    exact h.once.trans (List.sublist_append_left _ _)
  · change (((s.flushed ++ [(s.batch,FlushResult.dropped)]).filter _).map Prod.fst).Sublist done
    rw [List.filter_append, List.map_append]
    exact (List.append_nil _).symm ▸ h.reported
  · have missing := h.missing
    change (s.flushed ++ [(s.batch,FlushResult.dropped)]).length ≤ done.length +
      (s.predictionLogFlushErrors + 1)
    rw [List.length_append, List.length_singleton]
    omega

theorem startFlush_busy {s : Store F} {retry : Bool} {next next' : After}
    (h : (s.startFlush next).flusher = .flushing retry next') : (s.startFlush next).batch ≠ [] := by
  unfold Store.startFlush at h ⊢
  split_ifs at h ⊢ with some
  · exact List.ne_nil_of_length_pos some
  · cases next <;> cases h

/-- A step that is not the end of a `flushFn` leaves the notes alone, and the batch under way. -/
structure Store.Beside (s s' : Store F) : Prop where
  flushed : s'.flushed = s.flushed
  errors : s'.predictionLogFlushErrors = s.predictionLogFlushErrors
  working : ∀ retry next, s.flusher = .flushing retry next →
    s'.flusher = s.flusher ∧ s'.batch = s.batch
  busy : (∀ retry next, s.flusher = .flushing retry next → s.batch ≠ []) →
    ∀ retry next, s'.flusher = .flushing retry next → s'.batch ≠ []

theorem Store.beside_startFlush {s : Store F} {next : After}
    (idle : ∀ retry next', s.flusher ≠ .flushing retry next') : s.Beside (s.startFlush next) := by
  have flushed : (s.startFlush next).flushed = s.flushed := by
    unfold Store.startFlush
    split_ifs <;> rfl
  have errors : (s.startFlush next).predictionLogFlushErrors = s.predictionLogFlushErrors := by
    unfold Store.startFlush
    split_ifs <;> rfl
  exact ⟨flushed,errors,fun retry next' h => absurd h (idle retry next'),
    fun _ retry next' h => startFlush_busy h⟩

theorem Store.Stepped.beside {s s' : Store F} {a : StoreAction F} (stepped : s.Stepped a s')
    (other : ∀ ok, a ≠ .flush ok) : s.Beside s' := by
  cases stepped with
  | handed hs _ _ => exact ⟨rfl,rfl,by simp [hs],by simp [hs]⟩
  | received hs _ => exact ⟨rfl,rfl,by simp [hs],by simp [hs]⟩
  | observed hs _ => exact ⟨rfl,rfl,by simp [hs],by simp⟩
  | drained hs _ _ => exact ⟨rfl,rfl,by simp [hs],by simp [hs]⟩
  | chunked hs _ _ => exact ⟨rfl,rfl,by simp [hs],by simp⟩
  | ticked hs => exact beside_startFlush (by simp [hs])
  | emptied hs _ => exact beside_startFlush (by simp [hs])
  | stored _ => exact absurd rfl (other true)
  | lost _ => exact absurd rfl (other false)
  | retried _ => exact absurd rfl (other false)
  | _ => exact ⟨rfl,rfl,fun _ _ _ => ⟨rfl,rfl⟩,id⟩

theorem Store.Beside.covered {s s' : Store F} {done : List (List (Posted (Record F)))}
    (h : s.Beside s') (covered : s.Covered done) : s'.Covered done := by
  refine ⟨?_,?_,?_⟩
  · rw [h.flushed]
    exact covered.once
  · rw [Store.reported, h.flushed]
    exact covered.reported
  · rw [h.flushed, h.errors]
    exact covered.missing

theorem working_log {a : StoreAction F} (other : ∀ ok, a ≠ .flush ok) (h : s.Working) :
    (s.step (.log a other)).Working := by
  have beside := (step_stepped s.store a).beside other
  obtain ⟨done, covered, here⟩ := h.covered
  refine ⟨h.there,beside.busy h.busy,done,beside.covered covered,?_⟩
  obtain same | retry := here
  · exact Or.inl same
  · obtain ⟨next, hf⟩ := retry.flusher
    obtain ⟨flusher, batch⟩ := beside.working true next hf
    refine Or.inr ⟨⟨next,flusher.trans hf⟩,?_⟩
    change s.committed = done ++ [(s.store.step a).batch]
    rw [batch]
    exact retry.taken

/-- The server's part of a step: the rows of what it commits, at the end. -/
theorem rows_flush : (flushPostgres refused fate batch t).1.rows =
    t.rows ++ rowsOf (if commits refused fate batch t then [batch] else []).flatten := by
  cases hc : commits refused fate batch t with
  | true => rw [flushPostgres_committed hc, if_pos rfl, List.flatten_singleton]
  | false =>
    rw [flushPostgres_failed hc, if_neg Bool.false_ne_true]
    exact (List.append_nil t.rows).symm

theorem step_added (s : Persisted F) (a : PersistAction F) :
    ∃ added, (s.step a).committed = s.committed ++ added ∧
      (s.step a).predictions.rows = s.predictions.rows ++ rowsOf added.flatten := by
  cases a with
  | log a other => exact ⟨[],(List.append_nil _).symm,(List.append_nil _).symm⟩
  | flush refused fate =>
    simp only [Persisted.step]
    split
    · exact ⟨_,rfl,rows_flush⟩
    · exact ⟨[],(List.append_nil _).symm,(List.append_nil _).symm⟩

/-- A batch that was committed at the first attempt is not committed at the second. -/
theorem commits_atRetry {done : List (List (Posted (Record F)))} (h : s.Working)
    (retry : s.store.AtRetry done s.committed) :
    commits refused fate s.store.batch s.predictions = false := by
  obtain ⟨next, hf⟩ := retry.flusher
  apply commits_again (h.busy true next hf)
  intro r hr
  apply h.there
  rw [retry.taken, List.flatten_append, rowsOf_append, List.flatten_singleton]
  exact List.mem_append_right _ hr

theorem After.not_flushing {next : After} {retry : Bool} {next' : After} :
    next.flusher ≠ .flushing retry next' := by
  cases next <;> exact nofun

section Flush

variable {store : Store F} {retry : Bool} {next : After}
  {done : List (List (Posted (Record F)))}

theorem flush_stored (hf : store.flusher = .flushing retry next) (covered : store.Covered done) :
    (store.step (.flush true)).Covered (done ++ [store.batch]) ∧
      (store.step (.flush true)).flusher = next.flusher := by
  simp only [Store.step, hf, if_true]
  cases retry with
  | true => exact ⟨covered.stored _ .storedOnRetry next _ rfl,rfl⟩
  | false => exact ⟨covered.stored _ .stored next _ rfl,rfl⟩

/-- After two errors the batch may be in the table or not. -/
theorem flush_dropped (hf : store.flusher = .flushing true next) (covered : store.Covered done) :
    (store.step (.flush false)).Covered done ∧
      (store.step (.flush false)).Covered (done ++ [store.batch]) ∧
      (store.step (.flush false)).flusher = next.flusher := by
  simp only [Store.step, hf, Bool.false_eq_true, if_false, if_true]
  exact ⟨covered.dropped next,covered.stored store.stored .dropped next _ rfl,rfl⟩

theorem flush_retried (hf : store.flusher = .flushing false next) :
    store.step (.flush false) = { store with flusher := .flushing true next } := by
  simp [Store.step, hf]

end Flush

/-- The call of `flushWithRetry` is over. -/
theorem working_end {next : After} {e : Store F} {predictions : PredictionTable F}
    {committed done : List (List (Posted (Record F)))} (he : e.flusher = next.flusher)
    (covered : e.Covered done) (there : rowsOf committed.flatten ⊆ predictions.rows)
    (same : committed = done) : (⟨e,predictions,committed⟩ : Persisted F).Working :=
  ⟨there,fun _ _ hf => absurd (he.symm.trans hf) After.not_flushing,done,covered,Or.inl same⟩

/-- The first attempt has failed. -/
theorem working_again {next : After} {e : Store F} {predictions : PredictionTable F}
    {committed done : List (List (Posted (Record F)))} (some : e.batch ≠ [])
    (covered : e.Covered done) (there : rowsOf committed.flatten ⊆ predictions.rows)
    (here : committed = done ∨ committed = done ++ [e.batch]) :
    (⟨{ e with flusher := .flushing true next },predictions,committed⟩ : Persisted F).Working := by
  refine ⟨there,fun _ _ _ => some,done,⟨covered.once,covered.reported,covered.missing⟩,?_⟩
  exact here.imp_right fun taken => ⟨⟨next,rfl⟩,taken⟩

theorem working_flush (h : s.Working) (refused : Bool) (fate : Fate) :
    (s.step (.flush refused fate)).Working := by
  simp only [Persisted.step]
  split
  · next retry next hf =>
    have there : rowsOf (s.committed ++
        if commits refused fate s.store.batch s.predictions then [s.store.batch] else []).flatten ⊆
        (flushPostgres refused fate s.store.batch s.predictions).1.rows := by
      rw [rows_flush, List.flatten_append, rowsOf_append]
      exact List.append_subset.mpr ⟨List.subset_append_of_subset_left _ h.there,
        List.subset_append_right _ _⟩
    obtain ⟨done, covered, here⟩ := h.covered
    cases hc : commits refused fate s.store.batch s.predictions with
    | true =>
      have same : s.committed = done := by
        obtain same | again := here
        · exact same
        · rw [commits_atRetry h again] at hc
          cases hc
      rw [hc, if_pos rfl] at there
      rw [if_pos rfl]
      cases ok : (flushPostgres refused fate s.store.batch s.predictions).2 with
      | true =>
        obtain ⟨covered, left⟩ := flush_stored hf covered
        exact working_end left covered there (by rw [same])
      | false =>
        -- The server has the batch, and its reply did not come.
        cases retry with
        | true =>
          obtain ⟨_, covered, left⟩ := flush_dropped hf covered
          exact working_end left covered there (by rw [same])
        | false =>
          rw [flush_retried hf]
          exact working_again (h.busy false next hf) covered there (Or.inr (by rw [same]))
    | false =>
      rw [hc, if_neg Bool.false_ne_true, List.append_nil] at there
      rw [if_neg Bool.false_ne_true, List.append_nil]
      rw [flushPostgres_failed hc] at there ⊢
      cases retry with
      | true =>
        obtain ⟨without, taken, left⟩ := flush_dropped hf covered
        obtain same | again := here
        · exact working_end left without there same
        · exact working_end left taken there again.taken
      | false =>
        rw [flush_retried hf]
        refine working_again (h.busy false next hf) covered there (Or.inl ?_)
        obtain same | again := here
        · exact same
        · obtain ⟨next', second⟩ := again.flusher
          cases hf.symm.trans second
  · exact h

theorem persisted_working (h : s.Working) (a : PersistAction F) : (s.step a).Working := by
  cases a with
  | log a other => exact working_log other h
  | flush refused fate => exact working_flush h refused fate

theorem persisted_ledger (h : s.store.Ledger) (a : PersistAction F) : (s.step a).store.Ledger := by
  cases a with
  | log a _ => exact step_ledger h a
  | flush refused fate =>
    simp only [Persisted.step]
    split
    · next retry next _ =>
      exact step_ledger h (.flush (flushPostgres refused fate s.store.batch s.predictions).2)
    · exact h

/-- What the table holds of the log, between any two steps. -/
structure Persisted.CopiedOnce (initial : PredictionTable F) (s : Persisted F) : Prop where
  rows : s.predictions.rows = initial.rows ++ rowsOf s.committed.flatten
  accepted : s.committed.flatten.Sublist s.store.ch.accepted
  once : (s.store.ch.accepted.map (·.caller)).Nodup
  stored : s.store.stored.Sublist s.committed.flatten
  batches : s.store.flushed.length ≤ s.committed.length + s.store.predictionLogFlushErrors

theorem Persisted.Working.committed_sublist (h : s.Working) :
    s.committed.Sublist (s.store.flushed.map Prod.fst ++ [s.store.batch]) := by
  obtain ⟨done, covered, here⟩ := h.covered
  obtain same | retry := here
  · rw [same]
    exact covered.once.trans (List.sublist_append_left _ _)
  · rw [retry.taken]
    exact covered.once.append (List.Sublist.refl [s.store.batch])

theorem Persisted.Working.accepted (h : s.Working) (ledger : s.store.Ledger) :
    s.committed.flatten.Sublist s.store.ch.accepted := by
  rw [s.store.ch.ledger, ledger.taken]
  have taken := h.committed_sublist.flatten
  rw [List.flatten_append, List.flatten_singleton] at taken
  exact taken.trans (List.sublist_append_left _ _)

theorem Persisted.Working.copiedOnce (h : s.Working) (ledger : s.store.Ledger)
    (rows : s.predictions.rows = initial.rows ++ rowsOf s.committed.flatten) :
    s.CopiedOnce initial := by
  obtain ⟨done, covered, here⟩ := h.covered
  have more : done.Sublist s.committed ∧ done.length ≤ s.committed.length := by
    obtain same | retry := here
    · rw [same]
      exact ⟨List.Sublist.refl done,le_rfl⟩
    · rw [retry.taken]
      exact ⟨List.sublist_append_left _ _,(List.sublist_append_left _ _).length_le⟩
  refine ⟨rows,h.accepted ledger,s.store.ch.matched.once,?_,?_⟩
  · rw [ledger.stored]
    exact (covered.reported.trans more.1).flatten
  · have missing := covered.missing
    have length := more.2
    omega

theorem persisted_rows (h : s.predictions.rows = initial.rows ++ rowsOf s.committed.flatten)
    (a : PersistAction F) :
    (s.step a).predictions.rows = initial.rows ++ rowsOf (s.step a).committed.flatten := by
  obtain ⟨added, committed, rows⟩ := step_added s a
  rw [rows, committed, h, List.flatten_append, rowsOf_append, List.append_assoc]

def Persisted.new (bufferSize : Nat) (initial : PredictionTable F) : Persisted F :=
  ⟨NewStore bufferSize,initial,[]⟩

theorem working_new (bufferSize : Nat) (initial : PredictionTable F) :
    (Persisted.new bufferSize initial).Working :=
  ⟨List.nil_subset _,nofun,[],⟨List.nil_sublist _,List.nil_sublist _,Nat.zero_le _⟩,Or.inl rfl⟩

/-- A batch that is sent again after its reply was lost is not in the table twice. -/
theorem copy_once (bufferSize : Nat) (initial : PredictionTable F) (as : List (PersistAction F)) :
    Always Persisted.step (Persisted.CopiedOnce initial) (Persisted.new bufferSize initial) as := by
  have start : (Persisted.new bufferSize initial).predictions.rows =
      initial.rows ++ rowsOf (Persisted.new bufferSize initial).committed.flatten :=
    (List.append_nil initial.rows).symm
  have always := always_of_step Persisted.step
    (P := fun s => s.Working ∧ s.store.Ledger ∧
      s.predictions.rows = initial.rows ++ rowsOf s.committed.flatten)
    (fun s a h => ⟨persisted_working h.1 a,persisted_ledger h.2.1 a,persisted_rows h.2.2 a⟩)
    ⟨working_new bufferSize initial,ledger_new bufferSize,start⟩ as
  exact always_imp Persisted.step (fun s h => h.1.copiedOnce h.2.1 h.2.2) always

end FraudPlatform.Serving
