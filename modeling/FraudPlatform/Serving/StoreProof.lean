import FraudPlatform.Framework.Exact
import FraudPlatform.Serving.Store

namespace FraudPlatform.Serving

open Framework

variable {F : Type}

def FlushResult.succeeded : FlushResult → Bool
  | .stored | .storedOnRetry => true
  | .dropped => false

/-- The records of a list of batches, in order. -/
def records (flushed : List (List (Posted (Record F)) × FlushResult)) : List (Posted (Record F)) :=
  (flushed.map Prod.fst).flatten

/-- The flusher has seen `done`. -/
def Flusher.sawDone : Flusher → Bool
  | .draining | .flushing _ .drain | .flushing _ .exit | .exited => true
  | .selecting | .flushing _ .select => false

/-- The flusher has taken its last look at the channel. -/
def Flusher.sawEmpty : Flusher → Bool
  | .flushing _ .exit | .exited => true
  | .selecting | .draining | .flushing _ .select | .flushing _ .drain => false

/-- What holds between any two steps. -/
structure Store.Ledger (s : Store F) : Prop where
  taken : s.ch.taken = records s.flushed ++ s.batch
  stored : s.stored = records (s.flushed.filter (·.2.succeeded))
  errors : s.predictionLogFlushErrors = s.flushed.countP (·.2 = .dropped)
  done : s.flusher.sawDone → s.ch.closed
  exited : s.flusher = .exited → s.batch = []
  shutdown : s.shutdown → s.flusher = .exited

@[simp] theorem records_nil : records (F := F) [] = [] := rfl

theorem records_append (xs ys : List (List (Posted (Record F)) × FlushResult)) :
    records (xs ++ ys) = records xs ++ records ys := by
  rw [records, List.map_append, List.flatten_append]
  rfl

@[simp] theorem records_singleton (x : List (Posted (Record F)) × FlushResult) :
    records [x] = x.1 := List.append_nil x.1

variable {s : Store F} {ch : Inbox (Record F) LogError}

theorem ledger_new (bufferSize : Nat) : (NewStore bufferSize : Store F).Ledger :=
  ⟨rfl,rfl,rfl,by simp [NewStore, Flusher.sawDone],by simp [NewStore],by simp [NewStore]⟩

/-- The step of a caller leaves what the flusher works on alone. -/
theorem ledger_caller (h : s.Ledger) (taken : ch.taken = s.ch.taken)
    (closed : s.ch.closed → ch.closed) (size dropped : Nat) :
    { s with ch, predictionLogBufferSize := size, predictionLogDropped := dropped }.Ledger :=
  ⟨by rw [← h.taken, ← taken],h.stored,h.errors,fun hd => closed (h.done hd),h.exited,h.shutdown⟩

theorem ledger_receive {p : Posted (Record F)} (h : s.Ledger)
    (taken : ch.taken = s.ch.taken ++ [p]) (closed : ch.closed = s.ch.closed)
    (next : Flusher) (hn : next.sawDone → s.flusher.sawDone) (he : next ≠ .exited)
    (hs : s.flusher ≠ .exited) :
    { s with ch, batch := s.batch ++ [p], flusher := next }.Ledger := by
  refine ⟨?_,h.stored,h.errors,?_,fun hx => absurd hx he,fun hx => absurd (h.shutdown hx) hs⟩
  · rw [← List.append_assoc, ← h.taken]
    exact taken
  · intro hd
    exact closed ▸ h.done (hn hd)

theorem ledger_startFlush {next : After} (h : s.Ledger) (hs : s.flusher ≠ .exited)
    (hd : next.flusher.sawDone → s.ch.closed)
    (hf : (Flusher.flushing false next).sawDone → s.ch.closed) : (s.startFlush next).Ledger := by
  unfold Store.startFlush
  split_ifs with hl
  · exact ⟨h.taken,h.stored,h.errors,hf,nofun,fun hx => absurd (h.shutdown hx) hs⟩
  · have empty : s.batch = [] := List.length_eq_zero_iff.mp (Nat.le_zero.mp (Nat.le_of_not_gt hl))
    exact ⟨h.taken,h.stored,h.errors,hd,fun _ => empty,fun hx => absurd (h.shutdown hx) hs⟩

/-- A batch that is through joins the note with its result. -/
theorem ledger_endFlush {retry : Bool} {next : After} (h : s.Ledger)
    (hf : s.flusher = .flushing retry next) (result : FlushResult) (stored : List (Posted (Record F)))
    (errors : Nat) (hs : stored = s.stored ++ if result.succeeded then s.batch else [])
    (he : errors = s.predictionLogFlushErrors + if result = .dropped then 1 else 0) :
    ({ s with stored, predictionLogFlushErrors := errors }.endFlush result next).Ledger := by
  refine ⟨?_,?_,?_,?_,fun _ => rfl,?_⟩
  · change s.ch.taken = records (s.flushed ++ [(s.batch,result)]) ++ []
    rw [records_append, records_singleton, List.append_nil]
    exact h.taken
  · change stored = records ((s.flushed ++ [(s.batch,result)]).filter _)
    rw [List.filter_append, records_append, ← h.stored, hs]
    cases result <;> simp [FlushResult.succeeded]
  · change errors = (s.flushed ++ [(s.batch,result)]).countP _
    rw [List.countP_append, ← h.errors, he]
    cases result <;> rfl
  · intro hd
    apply h.done
    rw [hf]
    cases next
    · cases hd
    · rfl
    · rfl
  · intro hx
    have out := h.shutdown hx
    rw [hf] at out
    cases out

theorem sawDone_flushing (retry retry' : Bool) (next : After) :
    (Flusher.flushing retry next).sawDone = (Flusher.flushing retry' next).sawDone := by
  cases next <;> rfl

/-- What a step of the store does when it does anything. -/
inductive Store.Stepped (s : Store F) : StoreAction F → Store F → Prop
  | idle {a : StoreAction F} : Stepped s a s
  | logged (r : Record F) :
    Stepped s (.log r) { s with ch := s.ch.call r, predictionLogBufferSize := s.ch.buffer.length }
  | posted {i : Nat} {ch : Inbox (Record F) LogError} (hc : s.ch.post i = some ch) :
    Stepped s (.send i) { s with ch }
  | handed {i : Nat} {p : Posted (Record F)} {ch : Inbox (Record F) LogError}
    (hs : s.flusher = .selecting) (opened : s.ch.closed = false)
    (hc : s.ch.hand i = some (p,ch)) :
    Stepped s (.hand i) { s with ch, batch := s.batch ++ [p] }
  | cancelled {i : Nat} {ch : Inbox (Record F) LogError}
    (hc : s.ch.refuse i .cancelled = some ch) : Stepped s (.cancel i) { s with ch }
  | overflowed {i : Nat} {ch : Inbox (Record F) LogError} (full : s.ch.full)
    (hc : s.ch.refuse i .bufferFull = some ch) :
    Stepped s (.overflow i) { s with ch, predictionLogDropped := s.predictionLogDropped + 1 }
  | received {p : Posted (Record F)} {ch : Inbox (Record F) LogError}
    (hs : s.flusher = .selecting) (hc : s.ch.take = some (p,ch)) :
    Stepped s .receive { s with ch, batch := s.batch ++ [p] }
  | ticked (hs : s.flusher = .selecting) : Stepped s .tick (s.startFlush .select)
  | observed (hs : s.flusher = .selecting) (closed : s.ch.closed) :
    Stepped s .observeDone { s with flusher := .draining }
  | drained {p : Posted (Record F)} {ch : Inbox (Record F) LogError}
    (hs : s.flusher = .draining) (hc : s.ch.take = some (p,ch))
    (room : ¬(s.batch ++ [p]).length ≥ drainChunkSize) :
    Stepped s .drainReceive { s with ch, batch := s.batch ++ [p] }
  | chunked {p : Posted (Record F)} {ch : Inbox (Record F) LogError}
    (hs : s.flusher = .draining) (hc : s.ch.take = some (p,ch))
    (full : (s.batch ++ [p]).length ≥ drainChunkSize) :
    Stepped s .drainReceive
      { s with ch, batch := s.batch ++ [p], flusher := .flushing false .drain }
  | emptied (hs : s.flusher = .draining) (empty : s.ch.buffer = []) :
    Stepped s .drainEmpty (s.startFlush .exit)
  | stored {retry : Bool} {next : After} (hf : s.flusher = .flushing retry next) :
    Stepped s (.flush true) ({ s with stored := s.stored ++ s.batch }.endFlush
      (if retry then .storedOnRetry else .stored) next)
  | lost {next : After} (hf : s.flusher = .flushing true next) :
    Stepped s (.flush false)
      ({ s with predictionLogFlushErrors := s.predictionLogFlushErrors + 1 }.endFlush .dropped next)
  | retried {next : After} (hf : s.flusher = .flushing false next) :
    Stepped s (.flush false) { s with flusher := .flushing true next }
  | closed (opened : ¬s.ch.closed) : Stepped s .close { s with ch := s.ch.close }
  | waited (closed : s.ch.closed) (out : s.flusher = .exited) :
    Stepped s .wait { s with shutdown := true }

theorem step_stepped (s : Store F) (a : StoreAction F) : s.Stepped a (s.step a) := by
  cases a with
  | log r => exact .logged r
  | send i =>
    simp only [Store.step]
    split
    · next ch hc => exact .posted hc
    · exact .idle
  | hand i =>
    simp only [Store.step]
    split_ifs with hw
    · split
      · next p ch hc => exact .handed hw.1 hw.2 hc
      · exact .idle
    · exact .idle
  | cancel i =>
    simp only [Store.step]
    split
    · next ch hc => exact .cancelled hc
    · exact .idle
  | overflow i =>
    simp only [Store.step]
    split_ifs with full
    · split
      · next ch hc => exact .overflowed full hc
      · exact .idle
    · exact .idle
  | receive =>
    simp only [Store.step]
    split_ifs with hs
    · split
      · next p ch hc => exact .received hs hc
      · exact .idle
    · exact .idle
  | tick =>
    simp only [Store.step]
    split_ifs with hs
    · exact .ticked hs
    · exact .idle
  | observeDone =>
    simp only [Store.step]
    split_ifs with hw
    · exact .observed hw.1 hw.2
    · exact .idle
  | drainReceive =>
    simp only [Store.step]
    split_ifs with hs
    · split
      · next p ch hc =>
        split_ifs with full
        · exact .chunked hs hc full
        · exact .drained hs hc full
      · exact .idle
    · exact .idle
  | drainEmpty =>
    simp only [Store.step]
    split_ifs with hw
    · exact .emptied hw.1 hw.2
    · exact .idle
  | flush ok =>
    simp only [Store.step]
    split
    · next retry next hf =>
      cases ok with
      | true => exact .stored hf
      | false =>
        cases retry with
        | true => exact .lost hf
        | false => exact .retried hf
    · exact .idle
  | close =>
    simp only [Store.step]
    split_ifs with hc
    · exact .idle
    · exact .closed hc
  | wait =>
    simp only [Store.step]
    split_ifs with hw
    · exact .waited hw.1 hw.2
    · exact .idle

section Stepped

variable {s' : Store F} {a : StoreAction F}

theorem Store.Stepped.ledger (stepped : s.Stepped a s') (h : s.Ledger) : s'.Ledger := by
  cases stepped with
  | idle => exact h
  | logged r =>
    have taken := Inbox.call_taken (b := s.ch) r
    exact ledger_caller h taken id s.ch.buffer.length s.predictionLogDropped
  | posted hc =>
    obtain ⟨item, settled, _, taken⟩ := Inbox.post_spec hc
    exact ledger_caller h taken (settled.closed ▸ id) s.predictionLogBufferSize
      s.predictionLogDropped
  | handed hs _ hc =>
    obtain ⟨item, _, settled, _, _, taken⟩ := Inbox.hand_spec hc
    exact ledger_receive h taken settled.closed s.flusher id (by simp [hs]) (by simp [hs])
  | cancelled hc =>
    obtain ⟨item, settled, _, taken⟩ := Inbox.refuse_spec hc
    exact ledger_caller h taken (settled.closed ▸ id) s.predictionLogBufferSize
      s.predictionLogDropped
  | overflowed _ hc =>
    obtain ⟨item, settled, _, taken⟩ := Inbox.refuse_spec hc
    exact ledger_caller h taken (settled.closed ▸ id) s.predictionLogBufferSize
      (s.predictionLogDropped + 1)
  | received hs hc =>
    obtain ⟨_, taken, _, closed, _⟩ := Inbox.take_spec hc
    exact ledger_receive h taken closed s.flusher id (by simp [hs]) (by simp [hs])
  | ticked hs => exact ledger_startFlush h (by simp [hs]) nofun nofun
  | observed hs closed =>
    exact ⟨h.taken,h.stored,h.errors,fun _ => closed,nofun,fun hx => absurd (h.shutdown hx)
      (by simp [hs])⟩
  | drained hs hc _ =>
    obtain ⟨_, taken, _, closed, _⟩ := Inbox.take_spec hc
    exact ledger_receive h taken closed s.flusher id (by simp [hs]) (by simp [hs])
  | chunked hs hc _ =>
    obtain ⟨_, taken, _, closed, _⟩ := Inbox.take_spec hc
    exact ledger_receive h taken closed _ (by simp [hs, Flusher.sawDone]) nofun (by simp [hs])
  | emptied hs _ =>
    have closed := h.done (by simp [hs, Flusher.sawDone])
    exact ledger_startFlush h (by simp [hs]) (fun _ => closed) (fun _ => closed)
  | @stored retry next hf =>
    cases retry with
    | true => exact ledger_endFlush h hf .storedOnRetry _ _ rfl rfl
    | false => exact ledger_endFlush h hf .stored _ _ rfl rfl
  | lost hf => exact ledger_endFlush h hf .dropped s.stored _ (List.append_nil _).symm rfl
  | retried hf =>
    refine ⟨h.taken,h.stored,h.errors,?_,nofun,?_⟩
    · intro hd
      apply h.done
      rw [hf, sawDone_flushing false true]
      exact hd
    · intro hx
      have out := h.shutdown hx
      rw [hf] at out
      cases out
  | closed _ =>
    have taken := Inbox.close_taken (b := s.ch)
    exact ledger_caller h taken (fun _ => rfl) s.predictionLogBufferSize s.predictionLogDropped
  | waited _ out => exact ⟨h.taken,h.stored,h.errors,h.done,h.exited,fun _ => out⟩

theorem step_ledger (h : s.Ledger) (a : StoreAction F) : (s.step a).Ledger :=
  (step_stepped s a).ledger h

@[simp] theorem startFlush_ch (s : Store F) (next : After) : (s.startFlush next).ch = s.ch := by
  unfold Store.startFlush
  split_ifs <;> rfl

/-- What a step does to the channel, the beginning of a call and of `Shutdown` apart. -/
theorem Store.Stepped.moved (stepped : s.Stepped a s') :
    (∃ r, a = .log r) ∨ a = .close ∨ Inbox.Moved s.ch s'.ch := by
  cases stepped with
  | logged r => exact Or.inl ⟨r,rfl⟩
  | closed _ => exact Or.inr (Or.inl rfl)
  | posted hc => exact Or.inr (Or.inr (.posted hc))
  | handed _ _ hc => exact Or.inr (Or.inr (.handed hc))
  | cancelled hc => exact Or.inr (Or.inr (.refused hc))
  | overflowed _ hc => exact Or.inr (Or.inr (.refused hc))
  | received _ hc => exact Or.inr (Or.inr (.took hc))
  | drained _ hc _ => exact Or.inr (Or.inr (.took hc))
  | chunked _ hc _ => exact Or.inr (Or.inr (.took hc))
  | ticked _ =>
    rw [startFlush_ch]
    exact Or.inr (Or.inr .same)
  | emptied _ _ =>
    rw [startFlush_ch]
    exact Or.inr (Or.inr .same)
  | _ => exact Or.inr (Or.inr .same)

theorem sawDone_of_sawEmpty {f : Flusher} (h : f.sawEmpty) : f.sawDone := by
  revert h
  cases f with
  | flushing retry next => cases next <;> simp [Flusher.sawEmpty, Flusher.sawDone]
  | _ => simp [Flusher.sawEmpty, Flusher.sawDone]

theorem sawEmpty_flushing (retry retry' : Bool) (next : After) :
    (Flusher.flushing retry next).sawEmpty = (Flusher.flushing retry' next).sawEmpty := by
  cases next <;> rfl

theorem After.sawEmpty (retry : Bool) (next : After) :
    next.flusher.sawEmpty = (Flusher.flushing retry next).sawEmpty := by
  cases next <;> rfl

/-- The last look at the channel is a step of its own, at an empty channel. -/
theorem Store.Stepped.sawEmpty (stepped : s.Stepped a s') (h : s'.flusher.sawEmpty) :
    s.flusher.sawEmpty ∨ (a = .drainEmpty ∧ s.flusher = .draining ∧ s.ch.buffer = []) := by
  cases stepped with
  | emptied hs empty => exact Or.inr ⟨rfl,hs,empty⟩
  | ticked _ =>
    unfold Store.startFlush at h
    split_ifs at h <;> cases h
  | observed _ _ => cases h
  | chunked _ _ _ => cases h
  | stored hf =>
    left
    rw [hf, ← After.sawEmpty]
    exact h
  | lost hf =>
    left
    rw [hf, ← After.sawEmpty]
    exact h
  | retried hf =>
    left
    rw [hf, sawEmpty_flushing false true]
    exact h
  | _ => exact Or.inl h

/-- The flusher does not come back. -/
theorem Store.Stepped.exited (stepped : s.Stepped a s') (out : s.flusher = .exited) :
    s'.flusher = .exited := by
  cases stepped with
  | ticked hs => exact absurd (out.symm.trans hs) nofun
  | observed hs _ => exact absurd (out.symm.trans hs) nofun
  | chunked hs _ _ => exact absurd (out.symm.trans hs) nofun
  | emptied hs _ => exact absurd (out.symm.trans hs) nofun
  | stored hf => exact absurd (out.symm.trans hf) nofun
  | lost hf => exact absurd (out.symm.trans hf) nofun
  | retried hf => exact absurd (out.symm.trans hf) nofun
  | _ => exact out

end Stepped

/-- After the last look at the channel, only calls that `Shutdown` overtook leave anything in it. -/
theorem step_onlyLate (ledger : s.Ledger) (h : s.flusher.sawEmpty → s.ch.OnlyLate)
    (a : StoreAction F) (he : (s.step a).flusher.sawEmpty) : (s.step a).ch.OnlyLate := by
  obtain old | ⟨rfl, draining, empty⟩ := (step_stepped s a).sawEmpty he
  · have closed := ledger.done (sawDone_of_sawEmpty old)
    obtain ⟨r, rfl⟩ | rfl | moved := (step_stepped s a).moved
    · exact Inbox.call_onlyLate r (h old)
    · simpa [Store.step, closed] using h old
    · exact moved.onlyLate closed (h old)
  · have same : s.step .drainEmpty = s.startFlush .exit := if_pos ⟨draining,empty⟩
    rw [same, startFlush_ch]
    exact Inbox.onlyLate_of_empty empty

/-- What `Log` promised and what became of it, when `left` is still in the channel. -/
structure Delivered (s : Store F) (left : List (Posted (Record F))) : Prop where
  accepted_iff : ∀ i r, s.ch.calls[i]? = some (.accepted r) ↔ ⟨i,r⟩ ∈ s.ch.accepted
  once : (s.ch.accepted.map (·.caller)).Nodup
  batched : s.ch.accepted = records s.flushed ++ left
  stored : s.stored = records (s.flushed.filter (·.2.succeeded))
  errors : s.predictionLogFlushErrors = s.flushed.countP (·.2 = .dropped)
  refused : ∀ i r err, s.ch.calls[i]? = some (.refused r err) → ∀ p ∈ s.stored, p.caller ≠ i

theorem mem_records_filter {flushed : List (List (Posted (Record F)) × FlushResult)}
    {keep : List (Posted (Record F)) × FlushResult → Bool} {p : Posted (Record F)}
    (h : p ∈ records (flushed.filter keep)) : p ∈ records flushed := by
  obtain ⟨b, hb, hp⟩ := List.mem_flatten.mp h
  obtain ⟨x, hx, rfl⟩ := List.mem_map.mp hb
  exact List.mem_flatten.mpr ⟨x.1,List.mem_map_of_mem (List.mem_filter.mp hx).1,hp⟩

theorem delivered_of_ledger (h : s.Ledger) (out : s.flusher = .exited) :
    Delivered s s.ch.buffer := by
  have batched : s.ch.accepted = records s.flushed ++ s.ch.buffer := by
    have all := s.ch.ledger
    rw [h.taken, h.exited out, List.append_nil] at all
    exact all
  refine ⟨s.ch.matched.iff,s.ch.matched.once,batched,h.stored,h.errors,fun i r err hi p hp => ?_⟩
  rintro rfl
  rw [h.stored] at hp
  have mem : p ∈ s.ch.accepted := by
    rw [batched]
    exact List.mem_append_left _ (mem_records_filter hp)
  have found := (s.ch.matched.iff p.caller p.item).mpr mem
  rw [hi] at found
  cases found

/-- At the end of `Shutdown` every accepted record has been through exactly one batch, in the
order of acceptance, or was sent by a call that had not returned when `Shutdown` began. -/
theorem shutdown_delivered (bufferSize : Nat) (as : List (StoreAction F)) :
    Always Store.step (fun s => s.shutdown → Delivered s s.ch.buffer ∧
      ∀ p ∈ s.ch.buffer, p.caller ∈ s.ch.late) (NewStore bufferSize) as := by
  have always := always_of_step Store.step
    (P := fun s => s.Ledger ∧ (s.flusher.sawEmpty → s.ch.OnlyLate))
    (fun s a h => ⟨step_ledger h.1 a,step_onlyLate h.1 h.2 a⟩)
    ⟨ledger_new bufferSize,nofun⟩ as
  refine always_imp Store.step ?_ always
  intro s h hs
  obtain ⟨ledger, onlyLate⟩ := h
  have out := ledger.shutdown hs
  exact ⟨delivered_of_ledger ledger out,onlyLate (by rw [out]; rfl)⟩

/-- `Shutdown` begins when every call of `Log` has returned, and none begins after it. -/
def Quiet (s : Store F) : StoreAction F → Prop
  | .log _ => s.ch.closed = false
  | .close => s.ch.pendingCalls = []
  | _ => True

theorem step_late (h : s.ch.late = []) {a : StoreAction F} (quiet : Quiet s a) :
    (s.step a).ch.late = [] := by
  obtain ⟨r, rfl⟩ | rfl | moved := (step_stepped s a).moved
  · have still : s.ch.closed = false := quiet
    simpa [Store.step, Inbox.call, still] using h
  · simp only [Store.step]
    split_ifs
    · exact h
    · exact (congrArg₂ (· ++ ·) h quiet).trans (List.append_nil [])
  · exact moved.late.trans h

/-- A `Shutdown` that begins when every `Log` has returned loses nothing. -/
theorem shutdown_delivers_all (bufferSize : Nat) (as : List (StoreAction F))
    (quiet : Throughout Store.step Quiet (NewStore bufferSize) as) :
    Always Store.step (fun s => s.shutdown → Delivered s []) (NewStore bufferSize) as := by
  have delivered := shutdown_delivered bufferSize as
  have late := always_of_throughout (Store.step (F := F)) (P := fun s => s.ch.late = [])
    (fun s a h => step_late h) rfl quiet
  rw [always_iff_reached] at delivered late ⊢
  intro pre post he hs
  obtain ⟨all, left⟩ := delivered pre post he hs
  rw [late pre post he] at left
  have empty := List.eq_nil_iff_forall_not_mem.mpr fun p hp => List.not_mem_nil (left p hp)
  rw [empty] at all
  exact all

/-- No call of `Log` begins once `Shutdown` has begun. -/
def NoLateLog (s : Store F) : StoreAction F → Prop
  | .log _ => s.ch.closed = false
  | _ => True

def smallRecord : Record Exact :=
  ⟨"p1",1,"c1",some (1/2),true,"",some 1,some 1,some 2,0⟩

/-- A call begun before `Shutdown` sends after the flusher has left. -/
theorem lateSend_not_delivered :
    Throughout Store.step NoLateLog (NewStore 1)
      [.log smallRecord,.close,.observeDone,.drainEmpty,.send 0,.wait] ∧
    ¬Always Store.step (fun s => s.shutdown → Delivered s []) (NewStore 1)
      [.log smallRecord,.close,.observeDone,.drainEmpty,.send 0,.wait] := by
  refine ⟨⟨rfl,trivial,trivial,trivial,trivial,trivial,trivial⟩,fun h => ?_⟩
  have lost := (always_last _ h rfl).batched
  cases lost

end FraudPlatform.Serving
