import FraudPlatform.Serving.StoreProof

namespace FraudPlatform.Serving

open Framework

variable {F : Type}

/-- A batch passed to `flushFn` after `done` was observed is at most one chunk. -/
def Store.ChunkBounded (s : Store F) : Prop :=
  ∀ retry next, s.flusher = .flushing retry next → s.flusher.sawDone →
    s.batch.length ≤ drainChunkSize

/-- At most one chunk is carried into the drain loop, and nothing comes on top of a full one. -/
def Store.CarriesChunk (s : Store F) : StoreAction F → Prop
  | .observeDone => s.flusher = .selecting → s.ch.closed → s.batch.length ≤ drainChunkSize
  | .drainReceive => s.flusher = .draining → s.ch.buffer ≠ [] → s.batch.length < drainChunkSize
  | _ => True

variable {s s' : Store F} {a : StoreAction F}

theorem startFlush_batch (s : Store F) (next : After) : (s.startFlush next).batch = s.batch := by
  unfold Store.startFlush
  split_ifs <;> rfl

theorem startFlush_flusher (s : Store F) (next : After) :
    (s.startFlush next).flusher = .flushing false next ∨
      (s.startFlush next).flusher = next.flusher ∧ s.batch = [] := by
  unfold Store.startFlush
  split_ifs with h
  · exact Or.inl rfl
  · exact Or.inr ⟨rfl,List.length_eq_zero_iff.mp (Nat.le_zero.mp (Nat.le_of_not_gt h))⟩

/-- From `done` on, the batch under construction stays within a chunk. -/
theorem Store.Stepped.carries (stepped : s.Stepped a s') (carries : s.CarriesChunk a)
    (h : s.flusher.sawDone → s.batch.length ≤ drainChunkSize) :
    s'.flusher.sawDone → s'.batch.length ≤ drainChunkSize := by
  cases stepped with
  | handed hs _ _ => simp [hs, Flusher.sawDone]
  | received hs _ => simp [hs, Flusher.sawDone]
  | ticked hs =>
    rcases startFlush_flusher s .select with hf | ⟨hf, _⟩ <;>
      simp [hf, After.flusher, Flusher.sawDone]
  | observed hs closed => exact fun _ => carries hs closed
  | drained _ _ room => exact fun _ => Nat.le_of_lt (Nat.lt_of_not_ge room)
  | chunked hs hc _ =>
    have nonempty : s.ch.buffer ≠ [] := by simp [(Inbox.take_spec hc).1]
    intro _
    rw [List.length_append, List.length_singleton]
    exact carries hs nonempty
  | emptied hs _ =>
    rw [startFlush_batch]
    exact fun _ => h (by rw [hs]; rfl)
  | stored _ => exact fun _ => Nat.zero_le _
  | lost _ => exact fun _ => Nat.zero_le _
  | @retried next hf =>
    intro hd
    apply h
    rw [hf, sawDone_flushing false true]
    exact hd
  | _ => exact h

/-- A batch above a chunk stays with the drain loop until it is passed on whole. -/
theorem Store.Stepped.oversize (stepped : s.Stepped a s') (draining : s.flusher = .draining)
    (above : drainChunkSize < s.batch.length) :
    (s'.flusher = .draining ∧ drainChunkSize < s'.batch.length) ∨ ¬s'.ChunkBounded := by
  cases stepped with
  | handed hs _ _ => simp [draining] at hs
  | received hs _ => simp [draining] at hs
  | ticked hs => simp [draining] at hs
  | observed hs _ => simp [draining] at hs
  | drained _ _ room =>
    rw [List.length_append] at room
    omega
  | chunked _ _ full =>
    refine Or.inr fun bounded => ?_
    have le := bounded false .drain rfl rfl
    simp only [List.length_append, List.length_singleton] at le
    omega
  | emptied _ _ =>
    refine Or.inr fun bounded => ?_
    rcases startFlush_flusher s .exit with hf | ⟨_, empty⟩
    · have le := bounded false .exit hf (by rw [hf]; rfl)
      rw [startFlush_batch] at le
      omega
    · simp [empty] at above
  | stored hf => simp [draining] at hf
  | lost hf => simp [draining] at hf
  | retried hf => simp [draining] at hf
  | waited _ out => simp [draining] at out
  | _ => exact Or.inl ⟨draining,above⟩

theorem oversize_passed (as : List (StoreAction F)) (draining : s.flusher = .draining)
    (above : drainChunkSize < s.batch.length) (out : (run Store.step s as).flusher = .exited) :
    ¬Always Store.step Store.ChunkBounded s as := by
  induction as generalizing s with
  | nil => simp [draining] at out
  | cons a as ih =>
    intro both
    obtain ⟨_, rest⟩ := both
    rcases (step_stepped s a).oversize draining above with ⟨still, more⟩ | bad
    · exact ih still more out rest
    · exact bad (always_head Store.step rest)

/-- A step that breaks the condition leads to a batch above a chunk. -/
theorem oversize_of_not_carries (h : ¬s.CarriesChunk a) :
    ((s.step a).flusher = .draining ∧ drainChunkSize < (s.step a).batch.length) ∨
      ¬(s.step a).ChunkBounded := by
  cases a with
  | observeDone =>
    simp only [Store.CarriesChunk, Classical.not_imp, not_le] at h
    obtain ⟨selecting, closed, above⟩ := h
    refine Or.inl ?_
    simp [Store.step, selecting, closed, above]
  | drainReceive =>
    simp only [Store.CarriesChunk, Classical.not_imp, not_lt] at h
    obtain ⟨draining, nonempty, full⟩ := h
    obtain ⟨p, ch, taken⟩ := Inbox.exists_take nonempty
    have grown : (s.batch ++ [p]).length ≥ drainChunkSize := by
      rw [List.length_append]
      exact Nat.le_add_right_of_le full
    refine Or.inr fun bounded => ?_
    simp only [Store.step, draining, taken, grown, if_true] at bounded
    have le := bounded false .drain rfl rfl
    simp only [List.length_append, List.length_singleton] at le
    omega
  | _ => exact absurd trivial h

/-- The drain respects the chunk size in every run that carries at most a chunk into it, and, of
the runs that end the flusher, in no other. -/
theorem drain_chunked (bufferSize : Nat) (as : List (StoreAction F)) :
    (Throughout Store.step Store.CarriesChunk (NewStore bufferSize) as →
      Always Store.step Store.ChunkBounded (NewStore bufferSize) as) ∧
    ((run Store.step (NewStore bufferSize) as).flusher = .exited →
      Always Store.step Store.ChunkBounded (NewStore bufferSize) as →
      Throughout Store.step Store.CarriesChunk (NewStore bufferSize) as) := by
  constructor
  · intro carries
    have always := always_of_throughout (Store.step (F := F))
      (P := fun s => s.flusher.sawDone → s.batch.length ≤ drainChunkSize)
      (fun s a h ok => (step_stepped s a).carries ok h) (by simp [NewStore, Flusher.sawDone]) carries
    refine always_imp Store.step ?_ always
    intro s within _ _ _ seen
    exact within seen
  · intro out bounded
    rw [throughout_iff_split]
    rintro pre a post rfl
    by_contra h
    rw [run_append, run_cons] at out
    have rest := ((always_append Store.step).mp bounded).2.2
    rcases oversize_of_not_carries h with ⟨draining, above⟩ | bad
    · exact oversize_passed post draining above out rest
    · exact bad (always_head Store.step rest)

theorem drain_chunked_small : Always Store.step Store.ChunkBounded (NewStore 1 : Store Exact)
    [.log smallRecord,.send 0,.receive,.close,.observeDone,.drainEmpty,.flush true] := by
  refine (drain_chunked 1 _).1 ⟨trivial,trivial,trivial,trivial,?_,trivial,trivial,trivial⟩
  intro _ _
  decide

/-- Records that come one by one to a flusher that waits, before the first tick. -/
def backlog (r : Record F) (first : Nat) : Nat → List (StoreAction F)
  | 0 => []
  | n + 1 => .log r :: .hand first :: backlog r (first + 1) n

theorem run_backlog (r : Record F) (n : Nat) {s : Store F} (selecting : s.flusher = .selecting)
    (opened : s.ch.closed = false) (empty : s.ch.buffer = []) :
    (run Store.step s (backlog r s.ch.calls.length n)).flusher = .selecting ∧
      (run Store.step s (backlog r s.ch.calls.length n)).ch.buffer = [] ∧
      (run Store.step s (backlog r s.ch.calls.length n)).batch.length = s.batch.length + n := by
  induction n generalizing s with
  | zero => exact ⟨selecting,empty,rfl⟩
  | succ n ih =>
    have there : (s.ch.call r).calls[s.ch.calls.length]? = some (.pending r) := by
      simp [Inbox.call]
    obtain ⟨p, ch, handed⟩ := Inbox.exists_hand there empty
    obtain ⟨item, _, settled, _, left, _⟩ := Inbox.hand_spec handed
    have open' : (s.ch.call r).closed = false := opened
    have stepped : (s.step (.log r)).step (.hand s.ch.calls.length) =
        { s.step (.log r) with ch, batch := s.batch ++ [p] } := by
      simp [Store.step, selecting, open', handed]
    have calls : ch.calls.length = s.ch.calls.length + 1 := by
      rw [settled.length]
      simp [Inbox.call]
    have rest := ih (s := { s.step (.log r) with ch, batch := s.batch ++ [p] }) selecting
      (settled.closed.trans open') left
    rw [calls] at rest
    rw [backlog, run_cons, run_cons, stepped]
    refine ⟨rest.1,rest.2.1,rest.2.2.trans ?_⟩
    rw [List.length_append, List.length_singleton]
    omega

/-- `Shutdown` finds a batch above a chunk and an empty channel. -/
theorem shutdown_passes_batch (selecting : s.flusher = .selecting) (empty : s.ch.buffer = [])
    (above : drainChunkSize < s.batch.length) :
    ¬(run Store.step s [.close,.observeDone,.drainEmpty]).ChunkBounded := by
  have closed : (s.step .close).ch.closed = true ∧ (s.step .close).ch.buffer = [] ∧
      (s.step .close).flusher = .selecting ∧ (s.step .close).batch = s.batch := by
    simp only [Store.step]
    split_ifs with hc
    · exact ⟨hc,empty,selecting,rfl⟩
    · exact ⟨rfl,empty,selecting,rfl⟩
  obtain ⟨hc, he, hs, hb⟩ := closed
  have nonempty : 0 < s.batch.length := Nat.zero_lt_of_lt above
  simp only [run_cons, run_nil]
  generalize s.step .close = t at hc he hs hb
  have passed : (t.step .observeDone).step .drainEmpty = { t with flusher := .flushing false .exit } := by
    simp [Store.step, Store.startFlush, hc, he, hs, hb, nonempty]
  intro bounded
  rw [passed] at bounded
  have le := bounded false .exit rfl rfl
  rw [hb] at le
  omega

/-- More records than a chunk are logged before the first tick, then `Shutdown` begins. -/
theorem backlog_overruns_chunk :
    ¬Always Store.step Store.ChunkBounded (NewStore 10000 : Store Exact)
      (backlog smallRecord 0 (drainChunkSize + 1) ++ [.close,.observeDone,.drainEmpty]) := by
  intro always
  obtain ⟨selecting, empty, size⟩ := run_backlog smallRecord (drainChunkSize + 1)
    (s := (NewStore 10000 : Store Exact)) rfl rfl rfl
  have bounded := always_last Store.step always
  rw [run_append] at bounded
  refine shutdown_passes_batch selecting empty ?_ bounded
  rw [size]
  exact Nat.lt_add_left _ (Nat.lt_succ_self _)

end FraudPlatform.Serving
