import FraudPlatform.Framework.Slots
import FraudPlatform.Serving.HotSwap
import FraudPlatform.Serving.Shutdown

namespace FraudPlatform.Serving.Shutdown

open Framework

variable {F V : Type}

/-- The client has its 200. -/
def Request.answered : Request F → Bool
  | .responded _ _ | .spawned _ _ | .logging _ _ _ | .logged _ _ _ => true
  | _ => false

/-- The record of the answer was handed to `flushFn`, or its `Log` returned an error. -/
def Request.Accounted (store : Store F) : Request F → Prop
  | .logging response record call | .logged response record call =>
    record.predictionId = response.predictionId ∧
      ((∃ err, store.ch.calls[call]? = some (.refused record err)) ∨
        ⟨call,record⟩ ∈ records store.flushed)
  | _ => False

structure Safe (s : Process F) : Prop where
  noPanic : ∀ q ∈ s.requests, q ≠ .panicked
  noLoss : s.main = .exited → ∀ q ∈ s.requests, q.answered → q.Accounted s.store

/-- Its handler runs, or its `Log` has not returned. -/
def Request.atWork (store : Store F) : Request F → Bool
  | .accepted | .inferring | .scored _ | .responded _ _ | .spawned _ _ => true
  | .logging _ _ call => (store.ch.calls[call]?).any (·.isPending)
  | _ => false

/-- When the flusher takes its last look at the channel, no request is at work. -/
def LastLookQuiet (s : Process F) (a : Action F V) : Prop :=
  a = .store .drainEmpty → s.store.flusher = .draining → s.store.ch.buffer = [] →
    ∀ q ∈ s.requests, q.atWork s.store = false

/-- `store.Shutdown` has returned. -/
def Main.storeIsDown : Main → Bool
  | .storeDown | .poolClosed | .destroyed | .exited => true
  | _ => false

/-- `store.Shutdown` has begun. -/
def Main.closing (m : Main) : Bool := m = .storeShutdown || m.storeIsDown

/-- What a request knows of its record and its call. -/
def Request.Called (store : Store F) : Request F → Prop
  | .responded x response | .spawned x response => response.predictionId = x.predictionId
  | .logging response record call =>
    record.predictionId = response.predictionId ∧
      ∃ c, store.ch.calls[call]? = some c ∧ c.item = record
  | .logged response record call =>
    record.predictionId = response.predictionId ∧
      ∃ c, store.ch.calls[call]? = some c ∧ c.item = record ∧ c.isPending = false
  | _ => True

structure Inv (s : Process F) : Prop where
  ledger : s.store.Ledger
  closing : s.store.ch.closed → s.main.closing
  down : s.main.storeIsDown → s.store.flusher = .exited
  destroyed : s.r = none → s.main.storeIsDown
  quiet : s.store.flusher.sawEmpty →
    s.store.ch.buffer = [] ∧ ∀ q ∈ s.requests, q.atWork s.store = false
  pending : ∀ call record, s.store.ch.calls[call]? = some (.pending record) →
    ∃ response, Request.logging response record call ∈ s.requests
  called : ∀ q ∈ s.requests, q.Called s.store
  noPanic : ∀ q ∈ s.requests, q ≠ .panicked

variable {s : Process F} {i : Nat} {q q' : Request F}

/-- No request is at work once the flusher has taken its last look. -/
theorem not_sawEmpty (h : Inv s) (hi : s.requests[i]? = some q) (work : q.atWork s.store = true) :
    ¬s.store.flusher.sawEmpty := by
  intro he
  rw [(h.quiet he).2 q (List.mem_of_getElem? hi)] at work
  cases work

/-- The runner is there as long as a request is at work. -/
theorem runner_there (h : Inv s) (hi : s.requests[i]? = some q) (work : q.atWork s.store = true) :
    s.r ≠ none := by
  intro hr
  apply not_sawEmpty h hi work
  rw [h.down (h.destroyed hr)]
  rfl

/-- A step of a handler or goroutine outside `Log`. -/
theorem inv_set (h : Inv s) (hi : s.requests[i]? = some q) (work : q.atWork s.store = true)
    (before : ∀ response record call, Request.logging response record call ≠ q)
    (called : q'.Called s.store) (noPanic : q' ≠ .panicked) : Inv (s.set i q') := by
  have blind := not_sawEmpty h hi work
  refine ⟨h.ledger,h.closing,h.down,h.destroyed,fun he => absurd he blind,?_,
    forall_mem_set h.called called,forall_mem_set h.noPanic noPanic⟩
  intro call record hc
  obtain ⟨response, hm⟩ := h.pending call record hc
  exact ⟨response,mem_set_of_ne hi hm (before response record call)⟩

theorem called_append {store : Store F} (record : Record F) (h : q.Called store) :
    q.Called (store.step (.log record)) := by
  cases q with
  | logging response record' call =>
    obtain ⟨same, c, hc, rest⟩ := h
    exact ⟨same,c,Inbox.call_keeps record hc,rest⟩
  | logged response record' call =>
    obtain ⟨same, c, hc, rest⟩ := h
    exact ⟨same,c,Inbox.call_keeps record hc,rest⟩
  | responded x response => exact h
  | spawned x response => exact h
  | _ => trivial

theorem called_moved {store store' : Store F} (m : Inbox.Moved store.ch store'.ch)
    (h : q.Called store) : q.Called store' := by
  cases q with
  | logging response record call =>
    obtain ⟨same, c, hc, item⟩ := h
    obtain ⟨d, hd, kept, _⟩ := m.follow hc
    exact ⟨same,d,hd,kept.trans item⟩
  | logged response record call =>
    obtain ⟨same, c, hc, item, returned⟩ := h
    obtain ⟨d, hd, kept, stays⟩ := m.follow hc
    exact ⟨same,d,hd,kept.trans item,by rw [stays returned, returned]⟩
  | responded x response => exact h
  | spawned x response => exact h
  | _ => trivial

/-- A request at work after a step of the log was so before it. -/
theorem atWork_moved {store store' : Store F} (m : Inbox.Moved store.ch store'.ch)
    (h : q.atWork store = false) : q.atWork store' = false := by
  cases q with
  | logging response record call =>
    rw [Request.atWork, Bool.eq_false_iff] at h ⊢
    intro hp
    apply h
    obtain ⟨c, hc, pending⟩ := (Option.any_eq_true ..).mp hp
    cases c with
    | pending item =>
      rw [m.pending hc]
      rfl
    | accepted item => cases pending
    | refused item err => cases pending
  | _ => exact h

theorem inv_log (h : Inv s) {x : Scored F} {response : ScoreResponse F}
    (hi : s.requests[i]? = some (.spawned x response)) (record : Record F)
    (same : record.predictionId = response.predictionId) :
    Inv ({ s with store := s.store.step (.log record) }.set i
      (.logging response record s.store.ch.calls.length)) := by
  have new : (s.store.step (.log record)).ch.calls[s.store.ch.calls.length]? =
      some (.pending record) := List.getElem?_concat_length
  have blind := not_sawEmpty h hi rfl
  have ledger := step_ledger h.ledger (.log record)
  refine ⟨ledger,h.closing,h.down,h.destroyed,fun he => absurd he blind,?_,
    forall_mem_set (fun q hq => called_append record (h.called q hq)) ⟨same,_,new,rfl⟩,
    forall_mem_set h.noPanic nofun⟩
  intro call record' hc
  by_cases hl : call < s.store.ch.calls.length
  · have old : s.store.ch.calls[call]? = some (.pending record') := by
      rw [← hc]
      exact (List.getElem?_append_left hl).symm
    obtain ⟨response', hm⟩ := h.pending call record' old
    exact ⟨response',mem_set_of_ne hi hm nofun⟩
  · have bound := (List.getElem?_eq_some_iff.mp hc).1
    have last : call = s.store.ch.calls.length := by
      change call < (s.store.ch.calls ++ [_]).length at bound
      rw [List.length_append, List.length_singleton] at bound
      omega
    subst last
    obtain rfl : record = record' := Call.pending.inj (Option.some.inj (new.symm.trans hc))
    exact ⟨response,List.mem_set (List.getElem?_eq_some_iff.mp hi).1 _⟩

theorem inv_done (h : Inv s) {response : ScoreResponse F} {record : Record F} {call : Nat}
    (hi : s.requests[i]? = some (.logging response record call)) {c : Call (Record F) LogError}
    (hc : s.store.ch.calls[call]? = some c) (returned : c.isPending = false) :
    Inv (s.set i (.logged response record call)) := by
  obtain ⟨same, d, hd, item⟩ := h.called _ (List.mem_of_getElem? hi)
  obtain rfl : d = c := Option.some.inj (hd.symm.trans hc)
  refine ⟨h.ledger,h.closing,h.down,h.destroyed,
    fun he => ⟨(h.quiet he).1,forall_mem_set (h.quiet he).2 rfl⟩,?_,
    forall_mem_set h.called ⟨same,d,hd,item,returned⟩,forall_mem_set h.noPanic nofun⟩
  intro call' record' hp
  obtain ⟨response', hm⟩ := h.pending call' record' hp
  refine ⟨response',mem_set_of_ne hi hm ?_⟩
  rintro ⟨⟩
  change s.store.ch.calls[call]? = _ at hp
  rw [hc] at hp
  cases hp
  cases returned

theorem internal_moved {store : Store F} {a : StoreAction F} (h : internal a) :
    Inbox.Moved store.ch (store.step a).ch := by
  obtain ⟨r, rfl⟩ | rfl | moved := (step_stepped store a).moved
  · cases h
  · cases h
  · exact moved

/-- A step of the flusher, or of a `Log` under way. -/
theorem inv_store (h : Inv s) {a : StoreAction F} (ha : internal a)
    (quiet : LastLookQuiet (V := V) s (.store a)) : Inv { s with store := s.store.step a } := by
  have moved : Inbox.Moved s.store.ch (s.store.step a).ch := internal_moved ha
  refine ⟨step_ledger h.ledger a,fun hc => h.closing (moved.closed ▸ hc),
    fun hd => (step_stepped s.store a).exited (h.down hd),h.destroyed,?_,fun call record hp =>
    h.pending call record (moved.pending hp),fun q hq => called_moved moved (h.called q hq),
    h.noPanic⟩
  intro he
  have still (idle : ∀ q ∈ s.requests, q.atWork s.store = false) (q : Request F)
      (hq : q ∈ s.requests) : q.atWork (s.store.step a) = false :=
    atWork_moved moved (idle q hq)
  obtain old | ⟨rfl, draining, empty⟩ := (step_stepped s.store a).sawEmpty he
  · obtain ⟨empty, idle⟩ := h.quiet old
    refine ⟨moved.empty (fun call record hp => ?_) empty,still idle⟩
    obtain ⟨response, hm⟩ := h.pending call record hp
    have work := idle _ hm
    rw [Request.atWork, hp] at work
    cases work
  · refine ⟨?_,still (quiet rfl draining empty)⟩
    have same : s.store.step .drainEmpty = s.store.startFlush .exit := if_pos ⟨draining,empty⟩
    rw [same, startFlush_ch]
    exact empty

/-- `main` goes on without touching the log or the runner. -/
theorem inv_main (h : Inv s) {m : Main} (closing : s.main.closing → m.closing)
    (down : m.storeIsDown → s.main.storeIsDown) (up : s.main.storeIsDown → m.storeIsDown) :
    Inv { s with main := m } :=
  ⟨h.ledger,fun hc => closing (h.closing hc),fun hd => h.down (down hd),
    fun hr => up (h.destroyed hr),h.quiet,h.pending,h.called,h.noPanic⟩

theorem inv_close (h : Inv s) (hm : s.main = .drained) :
    Inv { s with main := .storeShutdown, store := s.store.step .close } := by
  have opened : ¬s.store.ch.closed := by
    intro hc
    have closing := h.closing hc
    rw [hm] at closing
    cases closing
  obtain ⟨kept, calls⟩ : (s.store.step .close).flusher = s.store.flusher ∧
      (s.store.step .close).ch.calls = s.store.ch.calls := by
    simp only [Store.step]
    split
    · exact ⟨rfl,rfl⟩
    · exact ⟨rfl,rfl⟩
  have ledger : (s.store.step .close).Ledger := step_ledger h.ledger .close
  refine ⟨ledger,fun _ => rfl,?_,?_,?_,?_,?_,h.noPanic⟩
  · intro hd
    cases hd
  · intro hr
    have down := h.destroyed hr
    rw [hm] at down
    cases down
  · intro he
    rw [kept] at he
    exact absurd (h.ledger.done (sawDone_of_sawEmpty he)) opened
  · intro call record hp
    rw [calls] at hp
    exact h.pending call record hp
  · intro q hq
    have old := h.called q hq
    cases q with
    | logging response record call => rwa [Request.Called, calls]
    | logged response record call => rwa [Request.Called, calls]
    | responded x response => exact old
    | spawned x response => exact old
    | _ => trivial

theorem inv_storeReturned (h : Inv s) (out : s.store.flusher = .exited) :
    Inv { s with main := .storeDown, store := s.store.step .wait } := by
  have ledger := step_ledger h.ledger .wait
  have done : s.store.ch.closed := h.ledger.done (by rw [out]; rfl)
  have same : s.store.step .wait = { s.store with shutdown := true } := if_pos ⟨done,out⟩
  rw [same] at ledger ⊢
  exact ⟨ledger,fun _ => rfl,fun _ => out,fun _ => rfl,h.quiet,h.pending,h.called,h.noPanic⟩

/-- A request only arrives while `httpServer` has not returned. -/
theorem inv_accept (h : Inv s) (hm : s.main = .serving ∨ s.main = .httpShutdown) :
    Inv { s with requests := s.requests ++ [.accepted] } := by
  have blind : ¬s.store.flusher.sawEmpty := by
    intro he
    have closing := h.closing (h.ledger.done (sawDone_of_sawEmpty he))
    obtain hm | hm := hm
    · rw [hm] at closing
      cases closing
    · rw [hm] at closing
      cases closing
  refine ⟨h.ledger,h.closing,h.down,h.destroyed,fun he => absurd he blind,?_,?_,?_⟩
  · intro call record hp
    obtain ⟨response, hq⟩ := h.pending call record hp
    exact ⟨response,List.mem_append_left _ hq⟩
  · exact forall_mem_concat h.called trivial
  · exact forall_mem_concat h.noPanic nofun

/-- A call that returned after the flusher's last look had sent its record before it. -/
theorem accounted_of_called (h : Inv s) (out : s.store.flusher = .exited) {call : Nat}
    {response : ScoreResponse F} {record : Record F} {c : Call (Record F) LogError}
    (same : record.predictionId = response.predictionId)
    (hc : s.store.ch.calls[call]? = some c) (item : c.item = record)
    (returned : c.isPending = false) :
    (Request.logging response record call).Accounted s.store := by
  refine ⟨same,?_⟩
  cases c with
  | pending r => cases returned
  | refused r err =>
    obtain rfl : r = record := item
    exact Or.inl ⟨err,hc⟩
  | accepted r =>
    obtain rfl : r = record := item
    have delivered := delivered_of_ledger h.ledger out
    have empty : s.store.ch.buffer = [] := (h.quiet (by rw [out]; rfl)).1
    have accepted := (delivered.accepted_iff call r).mp hc
    rw [delivered.batched, empty, List.append_nil] at accepted
    exact Or.inr accepted

theorem safe_of_inv (h : Inv s) : Safe s := by
  refine ⟨h.noPanic,fun hm q hq answered => ?_⟩
  have out : s.store.flusher = .exited := h.down (by rw [hm]; rfl)
  have idle := (h.quiet (by rw [out]; rfl)).2 q hq
  have called := h.called q hq
  cases q with
  | responded x response => cases idle
  | spawned x response => cases idle
  | logging response record call =>
    obtain ⟨same, c, hc, item⟩ := called
    rw [Request.atWork, hc] at idle
    exact accounted_of_called h out same hc item idle
  | logged response record call =>
    obtain ⟨same, c, hc, item, returned⟩ := called
    exact accounted_of_called h out same hc item returned
  | _ => cases answered

def start (bufferSize : Nat) (r : Runner) : Process F := ⟨.serving,NewStore bufferSize,some r,[]⟩

theorem inv_start (bufferSize : Nat) (r : Runner) : Inv (start bufferSize r : Process F) := by
  constructor
  case ledger => exact ledger_new bufferSize
  case closing => intro closed; cases closed
  case down => intro down; cases down
  case destroyed => intro gone; cases gone
  case quiet => intro empty; cases empty
  case pending => intro call record h; cases h
  case called => exact fun q hq => absurd hq List.not_mem_nil
  case noPanic => exact fun q hq => absurd hq List.not_mem_nil

/-- `httpServer.Shutdown` has returned. -/
def Main.httpReturned : Main → Bool
  | .serving | .httpShutdown => false
  | _ => true

/-- `Drain` has returned. -/
def Main.hasDrained : Main → Bool
  | .serving | .httpShutdown | .draining => false
  | _ => true

/-- `httpServer.Shutdown` and `Drain` have waited for what they are to wait for. -/
structure Waited (s : Process F) : Prop where
  handlers : s.main.httpReturned → ∀ q ∈ s.requests, q.handlerRuns = false
  goroutines : s.main.hasDrained → ∀ q ∈ s.requests, q.outstanding = false

theorem httpReturned_of_hasDrained {m : Main} (h : m.hasDrained) : m.httpReturned := by
  cases m with
  | serving => cases h
  | httpShutdown => cases h
  | _ => rfl

theorem hasDrained_of_closing {m : Main} (h : m.closing) : m.hasDrained := by
  cases m with
  | serving => cases h
  | httpShutdown => cases h
  | draining => cases h
  | _ => rfl

theorem lastLookQuiet_of_waited (h : Inv s) (w : Waited s) (a : Action F V) :
    LastLookQuiet s a := by
  rintro rfl draining - q hq
  have drained := hasDrained_of_closing (h.closing (h.ledger.done (by rw [draining]; rfl)))
  have handler := w.handlers (httpReturned_of_hasDrained drained) q hq
  have goroutine := w.goroutines drained q hq
  cases q with
  | logging response record call => cases goroutine
  | spawned x response => cases goroutine
  | accepted => cases handler
  | inferring => cases handler
  | scored x => cases handler
  | responded x response => cases handler
  | _ => rfl

theorem waited_handler (w : Waited s) (hi : s.requests[i]? = some q)
    (runs : q.handlerRuns = true) : Waited (s.set i q') := by
  have early (h : s.main.httpReturned) : False := by
    rw [w.handlers h q (List.mem_of_getElem? hi)] at runs
    cases runs
  exact ⟨fun h => (early h).elim,fun h => (early (httpReturned_of_hasDrained h)).elim⟩

theorem waited_goroutine (w : Waited s) {s' : Process F} (hi : s.requests[i]? = some q)
    (runs : q.outstanding = true) (after : q'.handlerRuns = false) (main : s'.main = s.main)
    (requests : s'.requests = s.requests.set i q') : Waited s' := by
  have early (h : s.main.hasDrained) : False := by
    rw [w.goroutines h q (List.mem_of_getElem? hi)] at runs
    cases runs
  refine ⟨fun h => ?_,fun h => (early (main ▸ h)).elim⟩
  rw [requests]
  exact forall_mem_set (w.handlers (main ▸ h)) after

/-- `main` goes on. -/
theorem waited_main (w : Waited s) {s' : Process F} (requests : s'.requests = s.requests)
    (handlers : s'.main.httpReturned → s.main.httpReturned)
    (goroutines : s'.main.hasDrained → s.main.hasDrained) : Waited s' :=
  ⟨fun h => requests ▸ w.handlers (handlers h),fun h => requests ▸ w.goroutines (goroutines h)⟩

variable [Binary64 F]

theorem step_waited (H : Scorer F V) (s : Process F) (a : Action F V) (h : Inv s) (w : Waited s)
    (waits : a ≠ .httpReturned true) : Waited (s.step H a) := by
  by_cases hm : s.main = .exited
  · rw [Process.step.eq_def, if_pos hm]
    exact w
  rw [Process.step.eq_def, if_neg hm]
  cases a with
  | accept =>
    dsimp only
    split_ifs with hs
    · obtain hs | hs := hs
      · exact ⟨by rw [hs]; nofun,by rw [hs]; nofun⟩
      · exact ⟨by rw [hs]; nofun,by rw [hs]; nofun⟩
    · exact w
  | fail i status =>
    dsimp only
    split
    · next hi => exact waited_handler w hi rfl
    · exact w
  | infer i =>
    dsimp only
    split
    · next hi => split <;> exact waited_handler w hi rfl
    · exact w
  | inferred i result =>
    dsimp only
    split
    · next hi => cases result <;> exact waited_handler w hi rfl
    · exact w
  | respond i =>
    dsimp only
    split
    · next x hi => split <;> exact waited_handler w hi rfl
    · exact w
  | spawn i =>
    dsimp only
    split
    · next x response hi => exact waited_handler w hi rfl
    · exact w
  | log i createdAt =>
    dsimp only
    split
    · next x response hi =>
      split
      · exact waited_goroutine w hi rfl rfl rfl rfl
      · next hr => exact absurd hr (runner_there h hi rfl)
    · exact w
  | done i =>
    dsimp only
    split
    · next response record call hi =>
      split
      · exact waited_goroutine w hi rfl rfl rfl rfl
      · exact waited_goroutine w hi rfl rfl rfl rfl
      · exact w
    · exact w
  | store a =>
    dsimp only
    split_ifs
    · exact ⟨w.handlers,w.goroutines⟩
    · exact w
  | signal =>
    dsimp only
    split_ifs
    · exact waited_main w rfl nofun nofun
    · exact w
  | httpReturned gaveUp =>
    dsimp only
    split_ifs with hs
    · refine ⟨fun _ q hq => ?_,nofun⟩
      obtain gave | all := hs.2
      · exact absurd (congrArg Action.httpReturned gave) waits
      · rw [Bool.not_eq_true, List.any_eq_false] at all
        exact Bool.eq_false_iff.mpr (all q hq)
    · exact w
  | drain =>
    dsimp only
    split_ifs with hs
    · refine ⟨fun _ => w.handlers (by rw [hs.1]; rfl),fun _ q hq => ?_⟩
      have all := hs.2
      rw [Bool.not_eq_true, List.any_eq_false] at all
      exact Bool.eq_false_iff.mpr (all q hq)
    · exact w
  | closeStore =>
    dsimp only
    split_ifs with hs
    · exact waited_main w rfl (fun _ => by rw [hs]; rfl) (fun _ => by rw [hs]; rfl)
    · exact w
  | storeReturned =>
    dsimp only
    split_ifs with hs
    · exact waited_main w rfl (fun _ => by rw [hs.1]; rfl) (fun _ => by rw [hs.1]; rfl)
    · exact w
  | closePool =>
    dsimp only
    split_ifs with hs
    · exact waited_main w rfl (fun _ => by rw [hs]; rfl) (fun _ => by rw [hs]; rfl)
    · exact w
  | destroy =>
    dsimp only
    split_ifs with hs
    · exact waited_main w rfl (fun _ => by rw [hs.1]; rfl) (fun _ => by rw [hs.1]; rfl)
    · exact w
  | exit =>
    dsimp only
    split_ifs with hs
    · exact waited_main w rfl (fun _ => by rw [hs]; rfl) (fun _ => by rw [hs]; rfl)
    · exact w

/-- What a permitted step keeps. -/
theorem step_inv (H : Scorer F V) (s : Process F) (a : Action F V) (h : Inv s)
    (quiet : LastLookQuiet s a) : Inv (s.step H a) := by
  by_cases hm : s.main = .exited
  · rw [Process.step.eq_def, if_pos hm]
    exact h
  rw [Process.step.eq_def, if_neg hm]
  cases a with
  | accept =>
    dsimp only
    split_ifs with hs
    · exact inv_accept h hs
    · exact h
  | fail i status =>
    dsimp only
    split
    · next hi => exact inv_set h hi rfl nofun trivial nofun
    · exact h
  | infer i =>
    dsimp only
    split
    · next hi =>
      split
      · exact inv_set h hi rfl nofun trivial nofun
      · next hr => exact absurd hr (runner_there h hi rfl)
    · exact h
  | inferred i result =>
    dsimp only
    split
    · next hi =>
      cases result with
      | error status => exact inv_set h hi rfl nofun trivial nofun
      | ok x => exact inv_set h hi rfl nofun trivial nofun
    · exact h
  | respond i =>
    dsimp only
    split
    · next x hi =>
      split
      · exact inv_set h hi rfl nofun rfl nofun
      · next hr => exact absurd hr (runner_there h hi rfl)
    · exact h
  | spawn i =>
    dsimp only
    split
    · next x response hi =>
      have same : response.predictionId = x.predictionId :=
        h.called _ (List.mem_of_getElem? hi)
      exact inv_set h hi rfl nofun same nofun
    · exact h
  | log i createdAt =>
    dsimp only
    split
    · next x response hi =>
      have same : response.predictionId = x.predictionId :=
        h.called _ (List.mem_of_getElem? hi)
      split
      · exact inv_log h hi _ same.symm
      · next hr => exact absurd hr (runner_there h hi rfl)
    · exact h
  | done i =>
    dsimp only
    split
    · next response record call hi =>
      split
      · next hc => exact inv_done h hi hc rfl
      · next hc => exact inv_done h hi hc rfl
      · exact h
    · exact h
  | store a =>
    dsimp only
    split_ifs with ha
    · exact inv_store h ha quiet
    · exact h
  | signal =>
    dsimp only
    split_ifs with hs
    · exact inv_main h (by rw [hs]; nofun) nofun (by rw [hs]; nofun)
    · exact h
  | httpReturned gaveUp =>
    dsimp only
    split_ifs with hs
    · exact inv_main h (by rw [hs.1]; nofun) nofun (by rw [hs.1]; nofun)
    · exact h
  | drain =>
    dsimp only
    split_ifs with hs
    · exact inv_main h (by rw [hs.1]; nofun) nofun (by rw [hs.1]; nofun)
    · exact h
  | closeStore =>
    dsimp only
    split_ifs with hs
    · exact inv_close h hs
    · exact h
  | storeReturned =>
    dsimp only
    split_ifs with hs
    · exact inv_storeReturned h hs.2
    · exact h
  | closePool =>
    dsimp only
    split_ifs with hs
    · exact inv_main h (fun _ => rfl) (fun _ => by rw [hs]; rfl) (fun _ => rfl)
    · exact h
  | destroy =>
    dsimp only
    split_ifs with hs
    · exact ⟨h.ledger,fun _ => rfl,fun _ => h.down (by rw [hs.1]; rfl),fun _ => rfl,h.quiet,
        h.pending,h.called,h.noPanic⟩
    · exact h
  | exit =>
    dsimp only
    split_ifs with hs
    · exact inv_main h (fun _ => rfl) (fun _ => by rw [hs]; rfl) (fun _ => rfl)
    · exact h

/-- As long as no request is at work when the flusher looks at its channel for the last time,
no answered prediction is lost and nothing meets the nil runner. -/
theorem shutdown_safe (H : Scorer F V) (bufferSize : Nat) (r : Runner) (as : List (Action F V))
    (quiet : Throughout (Process.step H) LastLookQuiet (start bufferSize r) as) :
    Always (Process.step H) Safe (start bufferSize r) as := by
  have always := always_of_throughout (Process.step H) (P := Inv)
    (fun s a h => step_inv H s a h) (inv_start bufferSize r) quiet
  exact always_imp (Process.step H) (fun s inv => safe_of_inv inv) always

/-- A `httpServer.Shutdown` that waits for the handlers makes the last look a quiet one. -/
theorem lastLookQuiet_of_waits (H : Scorer F V) (bufferSize : Nat) (r : Runner)
    (as : List (Action F V)) (waits : ∀ a ∈ as, a ≠ .httpReturned true) :
    Throughout (Process.step H) LastLookQuiet (start bufferSize r) as := by
  have all : Throughout (Process.step H) (fun _ a => a ≠ .httpReturned true)
      (start bufferSize r) as :=
    (throughout_iff_split _).mpr fun pre a post he => waits a (by rw [he]; simp)
  have always := always_of_throughout (Process.step H) (P := fun s => Inv s ∧ Waited s)
    (fun s a h ha => ⟨step_inv H s a h.1 (lastLookQuiet_of_waited h.1 h.2 a),
      step_waited H s a h.1 h.2 ha⟩) ⟨inv_start bufferSize r,nofun,nofun⟩ all
  rw [always_iff_reached] at always
  rw [throughout_iff_split]
  intro pre a post he
  obtain ⟨inv, waited⟩ := always pre (a :: post) he
  exact lastLookQuiet_of_waited inv waited a

def smallScored : Scored Exact := ⟨1,"p1",some (1/2),"",smallDurations⟩

/-- One prediction is answered, logged and flushed before the exit. -/
theorem shutdown_safe_small :
    Always (Process.step halfScorer) Safe (start 1 ⟨0,[],"c1"⟩)
      [.accept,.infer 0,.inferred 0 (.ok smallScored),.respond 0,.spawn 0,.signal,.log 0 0,
        .httpReturned false,.store (.send 0),.done 0,.drain,.closeStore,.store .observeDone,
        .store .drainReceive,.store .drainEmpty,.store (.flush true),.storeReturned,.closePool,
        .destroy,.exit] :=
  shutdown_safe halfScorer 1 ⟨0,[],"c1"⟩ _
    (lastLookQuiet_of_waits halfScorer 1 ⟨0,[],"c1"⟩ _ (by simp))

/-- `httpServer.Shutdown` gives up on a handler: its prediction is answered and its record stays
in the channel; or the handler comes too late for its runner. -/
theorem gaveUp_not_safe :
    ¬Always (Process.step halfScorer) Safe (start 1 ⟨0,[],"c1"⟩)
      [.accept,.infer 0,.inferred 0 (.ok smallScored),.signal,.httpReturned true,.drain,
        .closeStore,.store .observeDone,.store .drainEmpty,.respond 0,.spawn 0,.log 0 0,
        .store (.send 0),.done 0,.storeReturned,.closePool,.destroy,.exit] ∧
    ¬Always (Process.step halfScorer) Safe (start 1 ⟨0,[],"c1"⟩)
      [.accept,.signal,.httpReturned true,.drain,.closeStore,.store .observeDone,
        .store .drainEmpty,.storeReturned,.closePool,.destroy,.infer 0] := by
  constructor
  · intro h
    obtain ⟨-, ⟨err, refused⟩ | flushed⟩ :=
      (always_last _ h).noLoss rfl _ (List.mem_singleton.mpr rfl) rfl
    · cases refused
    · cases flushed
  · intro h
    exact (always_last _ h).noPanic _ (List.mem_singleton.mpr rfl) rfl

end FraudPlatform.Serving.Shutdown
