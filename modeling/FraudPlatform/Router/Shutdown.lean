import FraudPlatform.Router.Accounting

namespace FraudPlatform.Router

open Framework

variable {F : Type}

section Queue

variable {τ : Type} {d d' : Dispatcher τ} {b : DispatcherAction τ}

/-- Only a new call and the signal itself make a call late. -/
theorem Dispatcher.Stepped.late (stepped : d.Stepped b d') (noDispatch : ∀ t, b ≠ .dispatch t)
    (noClose : b ≠ .close) : d'.ch.late = d.ch.late := by
  cases stepped with
  | dispatched t => exact absurd rfl (noDispatch t)
  | posted hc => exact (Inbox.Moved.posted hc).late
  | handed _ _ hc => exact (Inbox.Moved.handed hc).late
  | refused _ hc => exact (Inbox.Moved.refused hc).late
  | received _ hc => exact (Inbox.Moved.took hc).late
  | drained _ hc => exact (Inbox.Moved.took hc).late
  | closed _ => exact absurd rfl noClose
  | _ => rfl

theorem Dispatcher.Stepped.signal (stepped : d.Stepped b d') (noClose : b ≠ .close) :
    d'.ch.closed = d.ch.closed := by
  cases stepped with
  | posted hc => exact (Inbox.Moved.posted hc).closed
  | handed _ _ hc => exact (Inbox.Moved.handed hc).closed
  | refused _ hc => exact (Inbox.Moved.refused hc).closed
  | received _ hc => exact (Inbox.Moved.took hc).closed
  | drained _ hc => exact (Inbox.Moved.took hc).closed
  | closed _ => exact absurd rfl noClose
  | _ => rfl

/-- Before the signal no call is late. -/
theorem Dispatcher.Stepped.early (stepped : d.Stepped b d')
    (h : d.ch.closed = false → d.ch.late = []) (opened : d'.ch.closed = false) :
    d'.ch.late = [] := by
  by_cases dispatch : ∃ t, b = .dispatch t
  · obtain ⟨t, rfl⟩ := dispatch
    cases stepped with
    | idle => exact h opened
    | dispatched _ =>
      have before : d.ch.closed = false := opened
      simp [Inbox.call, before, h before]
  by_cases close : b = .close
  · subst close
    cases stepped with
    | idle => exact h opened
    | closed _ => cases opened
  · rw [stepped.late (fun t same => dispatch ⟨t,same⟩) close]
    exact h (stepped.signal close ▸ opened)

theorem Dispatcher.Stepped.returned (stepped : d.Stepped b d') {i : Nat}
    (h : i ∈ d.returned.map Prod.fst) : i ∈ d'.returned.map Prod.fst := by
  cases stepped with
  | sent _ _ =>
    rw [List.map_append]
    exact List.mem_append_left _ h
  | dropped _ _ =>
    rw [List.map_append]
    exact List.mem_append_left _ h
  | _ => exact h

theorem Dispatcher.Stepped.shutdown (stepped : d.Stepped b d') (h : d.shutdown = true) :
    d'.shutdown = true := by
  cases stepped with
  | waited _ _ => rfl
  | _ => exact h

/-- A call has returned what became of its item. -/
theorem returned_result (h : d.Counted) {i : Nat} {r : Bool} (hr : (i,r) ∈ d.returned) :
    ∃ c, d.ch.calls[i]? = some c ∧ c.isAccepted = r ∧ c.isRefused = !r := by
  cases r with
  | true =>
    obtain ⟨t, ht⟩ := h.accepted i hr
    exact ⟨_,ht,rfl,rfl⟩
  | false =>
    obtain ⟨t, ht⟩ := h.refused i hr
    exact ⟨_,ht,rfl,rfl⟩

/-- When every call has returned, none is pending. -/
theorem not_pending (h : d.Counted)
    (all : ∀ i < d.ch.calls.length, i ∈ d.returned.map Prod.fst) (i : Nat) (t : τ) :
    d.ch.calls[i]? ≠ some (.pending t) := by
  intro pending
  obtain ⟨⟨j, r⟩, hr, rfl⟩ := List.mem_map.mp (all i (List.getElem?_eq_some_iff.mp pending).1)
  obtain ⟨c, hc, accepted, refused⟩ := returned_result h hr
  cases hc.symm.trans pending
  cases r with
  | true => cases accepted
  | false => cases refused

/-- And the results are those of the calls. -/
theorem countP_returned (h : d.Counted)
    (all : ∀ i < d.ch.calls.length, i ∈ d.returned.map Prod.fst) (b : Bool) :
    d.returned.countP (·.2 == b) =
      (d.ch.calls.filter fun c => if b then c.isAccepted else c.isRefused).length := by
  have places : ((d.returned.filter (·.2 == b)).map Prod.fst).Perm
      ((List.range d.ch.calls.length).filter fun i =>
        d.ch.calls[i]?.any fun c => if b then c.isAccepted else c.isRefused) := by
    refine (List.perm_ext_iff_of_nodup (h.once.sublist (List.filter_sublist.map _))
      (List.nodup_range.filter _)).mpr fun i => ?_
    rw [List.mem_filter, List.mem_range]
    constructor
    · intro hi
      obtain ⟨⟨j, r⟩, hr, rfl⟩ := List.mem_map.mp hi
      obtain ⟨found, same⟩ := List.mem_filter.mp hr
      obtain rfl : r = b := by simpa using same
      obtain ⟨c, hc, accepted, refused⟩ := returned_result h found
      refine ⟨(List.getElem?_eq_some_iff.mp hc).1,?_⟩
      rw [hc, Option.any_some, accepted, refused]
      cases r <;> rfl
    · rintro ⟨bound, hi⟩
      obtain ⟨⟨j, r⟩, hr, rfl⟩ := List.mem_map.mp (all i bound)
      obtain ⟨c, hc, accepted, refused⟩ := returned_result h hr
      rw [hc, Option.any_some, accepted, refused] at hi
      refine List.mem_map.mpr ⟨(j,r),List.mem_filter.mpr ⟨hr,?_⟩,rfl⟩
      cases b <;> simpa using hi
  have read := congrArg List.length
    (map_places (fun c => if b then c.isAccepted else c.isRefused) d.ch.calls)
  rw [List.length_map, List.length_map] at read
  rw [List.countP_eq_length_filter, ← read, ← places.length_eq, List.length_map]

end Queue

/-- The call of `Dispatch` that a handler is inside. -/
def Request.call : Request F → Option Nat
  | ⟨_,.dispatching _ _ call⟩ => some call
  | _ => none

def Request.finished : Request F → Bool
  | ⟨_,.done _ _⟩ => true
  | _ => false

/-- A call that has not returned has a handler inside. -/
def Waits (d : Dispatcher (Task F)) (requests : List (Request F)) : Prop :=
  ∀ call < d.ch.calls.length, call ∈ d.returned.map Prod.fst ∨ ∃ q ∈ requests, q.call = some call

section Waits

variable {d d' : Dispatcher (Task F)} {requests : List (Request F)} {p p' : Service F}
  {a : ServiceAction F}

/-- A handler goes on that is inside no call, or whose call has returned. -/
theorem waits_set {i : Nat} {q q' : Request F} (h : Waits d requests)
    (hi : requests[i]? = some q)
    (through : ∀ call, q.call = some call → call ∈ d.returned.map Prod.fst) :
    Waits d (requests.set i q') := by
  intro call bound
  obtain old | ⟨r, hr, inside⟩ := h call bound
  · exact Or.inl old
  · by_cases same : r = q
    · rw [same] at inside
      exact Or.inl (through call inside)
    · exact Or.inr ⟨r,mem_set_of_ne hi hr same,inside⟩

theorem waits_queue {b : DispatcherAction (Task F)} (h : Waits d requests)
    (stepped : d.Stepped b d') (noDispatch : ∀ t, b ≠ .dispatch t) : Waits d' requests := by
  have items := congrArg List.length (stepped.items noDispatch)
  rw [List.length_map, List.length_map] at items
  intro call bound
  rw [items] at bound
  exact (h call bound).imp_left stepped.returned

theorem insert_dispatcher (p : Service F) (sc : ShadowComparison F) (now : Int)
    (insertion : Fate) : (p.insert sc now insertion).dispatcher = p.dispatcher := by
  unfold Service.insert
  cases p.store with
  | none => rfl
  | some rows => cases insertion <;> rfl

theorem Service.Stepped.waits (stepped : p.Stepped a p') (h : Waits p.dispatcher p.requests) :
    Waits p'.dispatcher p'.requests := by
  cases stepped with
  | arrived x =>
    intro call bound
    obtain old | ⟨r, hr, inside⟩ := h call bound
    · exact Or.inl old
    · exact Or.inr ⟨r,List.mem_append_left _ hr,inside⟩
  | refused hi _ => exact waits_set h hi nofun
  | started hi _ => exact waits_set h hi nofun
  | failed hi _ => exact waits_set h hi nofun
  | answered hi _ => exact waits_set h hi nofun
  | @dispatched i x req st resp hi _ =>
    intro call bound
    have grown : (p.dispatcher.ch.call (shadowTask req resp)).calls.length =
        p.dispatcher.ch.calls.length + 1 := List.length_append
    change call < (p.dispatcher.ch.call (shadowTask req resp)).calls.length at bound
    rw [grown] at bound
    by_cases new : call = p.dispatcher.ch.calls.length
    · have there := List.mem_set (a := ⟨x,.dispatching st resp p.dispatcher.ch.calls.length⟩)
        (List.getElem?_eq_some_iff.mp hi).1
      exact Or.inr ⟨_,there,new ▸ rfl⟩
    · exact waits_set h hi nofun call (by omega)
  | wrote hi _ => exact waits_set h hi nofun
  | wroteShadowed hi hc => exact waits_set h hi fun call inside => Option.some.inj inside ▸ hc
  | queued a noDispatch _ => exact waits_queue h (step_stepped p.dispatcher a) noDispatch
  | @executed w _ _ _ _ _ _ _ =>
    exact waits_queue h (step_stepped p.dispatcher (.executed w)) nofun
  | @compared w _ _ _ _ _ _ _ _ =>
    rw [insert_dispatcher, insert_requests]
    exact waits_queue h (step_stepped p.dispatcher (.executed w)) nofun
  | _ => exact h

/-- The step of the queue in a step of the router. -/
theorem Service.Stepped.queue (stepped : p.Stepped a p') : ∃ b,
    p.dispatcher.Stepped b p'.dispatcher ∧ (b = .close → a = .queue .close) ∧
      (∀ t, b = .dispatch t → ∃ q ∈ p.requests, q.finished = false) := by
  cases stepped with
  | @dispatched i x req st resp hi _ =>
    exact ⟨_,step_stepped p.dispatcher (.dispatch (shadowTask req resp)),nofun,
      fun t _ => ⟨_,List.mem_of_getElem? hi,rfl⟩⟩
  | queued a noDispatch _ =>
    exact ⟨a,step_stepped p.dispatcher a,fun same => same ▸ rfl,
      fun t same => absurd same (noDispatch t)⟩
  | @executed w _ _ _ _ _ _ _ => exact ⟨.executed w,step_stepped p.dispatcher _,nofun,nofun⟩
  | @compared w _ _ _ _ _ _ _ _ =>
    rw [insert_dispatcher]
    exact ⟨.executed w,step_stepped p.dispatcher _,nofun,nofun⟩
  | _ => exact ⟨.wait,.idle,nofun,nofun⟩

/-- Once every handler has returned, only a new request changes anything for them. -/
theorem Service.Stepped.finished (stepped : p.Stepped a p')
    (all : ∀ q ∈ p.requests, q.finished = true) (quiet : ∀ x, a ≠ .arrive x) :
    p'.requests = p.requests := by
  have absent {i : Nat} {x : Arrival F} {phase : Phase F}
      (hi : p.requests[i]? = some ⟨x,phase⟩) : Request.finished ⟨x,phase⟩ = true :=
    all _ (List.mem_of_getElem? hi)
  cases stepped with
  | arrived x => exact absurd rfl (quiet x)
  | refused hi _ => cases absent hi
  | started hi _ => cases absent hi
  | failed hi _ => cases absent hi
  | answered hi _ => cases absent hi
  | dispatched hi _ => cases absent hi
  | wrote hi _ => cases absent hi
  | wroteShadowed hi _ => cases absent hi
  | compared _ _ => exact insert_requests _ _ _ _
  | _ => rfl

/-- Then every call has returned. -/
theorem returned_of_finished (h : Waits d requests) (all : ∀ q ∈ requests, q.finished = true) :
    ∀ call < d.ch.calls.length, call ∈ d.returned.map Prod.fst := by
  intro call bound
  obtain old | ⟨q, hq, inside⟩ := h call bound
  · exact old
  · have done := all q hq
    obtain ⟨x, phase⟩ := q
    cases phase with
    | dispatching st resp call => cases done
    | _ => cases inside

end Waits

/-- The champion sides of the tasks that found the queue full. -/
def Dispatcher.droppedSides (d : Dispatcher (Task F)) : List (ChampionSide F) :=
  (d.ch.calls.filter Call.isRefused).map fun c => taskSide c.item

/-- When every call has returned and the queue is empty, a task has been executed or dropped. -/
theorem sides_settled {d : Dispatcher (Task F)} (h : d.Counted)
    (all : ∀ call < d.ch.calls.length, call ∈ d.returned.map Prod.fst)
    (executed : d.ch.accepted.Perm (d.executed.map Prod.snd)) :
    d.sides.Perm (d.executedSides ++ d.droppedSides) := by
  have refused : (d.ch.calls.filter fun c => !c.isAccepted) = d.ch.calls.filter Call.isRefused := by
    refine List.filter_congr fun c hc => ?_
    obtain ⟨call, there⟩ := List.mem_iff_getElem?.mp hc
    cases c with
    | pending t => exact absurd there (not_pending h all call t)
    | accepted t => rfl
    | refused t err => rfl
  have split := (List.filter_append_perm Call.isAccepted d.ch.calls).map fun c => taskSide c.item
  rw [refused, List.map_append] at split
  have accepted := d.ch.matched.perm.map taskSide
  rw [List.map_map, List.map_map] at accepted
  have done := executed.map fun p => taskSide p.item
  rw [List.map_map] at done
  exact split.symm.trans ((accepted.symm.trans done).append_right _)

/-- What every step of the router keeps. -/
structure Service.Ready (p : Service F) : Prop where
  rows : ∃ rows, p.Shadowing rows
  counted : p.dispatcher.Counted
  waits : Waits p.dispatcher p.requests
  workers : 0 < p.dispatcher.workers.length
  early : p.dispatcher.ch.closed = false → p.dispatcher.ch.late = []

theorem ready_step {p : Service F} (h : p.Ready) (a : ServiceAction F) : (p.step a).Ready := by
  obtain ⟨rows, shadowing⟩ := h.rows
  have stepped := p.stepped a
  obtain ⟨b, queue, _⟩ := stepped.queue
  exact ⟨stepped.shadowing (step_sound shadowing.sound a) shadowing,queue.counted h.counted,
    stepped.waits h.waits,queue.workers ▸ h.workers,queue.early h.early⟩

theorem ready_new (st : State) (bufferSize : Nat) {workers : Nat} (some : 0 < workers) :
    (newService st bufferSize workers : Service F).Ready := by
  have pool : (newService st bufferSize workers : Service F).dispatcher.workers.length = workers :=
    List.length_replicate
  have waits : Waits (newService st bufferSize workers : Service F).dispatcher [] :=
    fun call bound => absurd bound (Nat.not_lt_zero call)
  refine ⟨⟨[],shadowing_new st bufferSize workers⟩,counted_new bufferSize workers,waits,?_,
    fun _ => rfl⟩
  rw [pool]
  exact some

namespace Shutdown

/-- Where `main` stands. -/
inductive Main
  | serving
  /-- Inside `srv.Shutdown`. -/
  | httpShutdown
  | httpDown
  /-- Inside `dispatcher.Shutdown`. -/
  | dispatcherShutdown
  | dispatcherDown
  /-- The deferred `db.Close` has run. -/
  | dbClosed
  | exited
  deriving DecidableEq, Repr

/-- The router process; `gaveUp` is the error of `srv.Shutdown`, whose context ran out. -/
structure Process (F : Type) where
  main : Main
  gaveUp : Bool
  router : Service F

inductive Action (F : Type)
  | router (a : ServiceAction F)
  | signal
  | httpReturned (gaveUp : Bool)
  | closeDispatcher
  | dispatcherReturned
  | closeDb
  | exit

/-- A connection may still become active, unless `srv.Shutdown` has seen all of them idle. -/
def Process.listens (s : Process F) : Bool :=
  s.main = .serving || s.main = .httpShutdown || s.gaveUp

/-- The steps the router takes by itself: the dispatcher is shut down by `main`. -/
def Process.permits (s : Process F) : ServiceAction F → Bool
  | .arrive _ => s.listens
  | .queue .close | .queue .wait => false
  | _ => true

def Process.step (s : Process F) (a : Action F) : Process F :=
  if s.main = .exited then s
  else
    match a with
    | .router a => if s.permits a then { s with router := s.router.step a } else s
    | .signal => if s.main = .serving then { s with main := .httpShutdown } else s
    | .httpReturned gaveUp =>
      if s.main = .httpShutdown ∧ (gaveUp ∨ ∀ q ∈ s.router.requests, q.finished) then
        { s with main := .httpDown, gaveUp }
      else s
    | .closeDispatcher =>
      if s.main = .httpDown then
        { s with main := .dispatcherShutdown, router := s.router.step (.queue .close) }
      else s
    | .dispatcherReturned =>
      if s.main = .dispatcherShutdown ∧ ∀ w ∈ s.router.dispatcher.workers, w.sawExit then
        { s with main := .dispatcherDown, router := s.router.step (.queue .wait) }
      else s
    | .closeDb => if s.main = .dispatcherDown then { s with main := .dbClosed } else s
    | .exit => if s.main = .dbClosed then { s with main := .exited } else s

def Main.httpReturned : Main → Bool
  | .serving | .httpShutdown => false
  | _ => true

def Main.closing : Main → Bool
  | .serving | .httpShutdown | .httpDown => false
  | _ => true

def Main.down : Main → Bool
  | .dispatcherDown | .dbClosed | .exited => true
  | _ => false

/-- `srv.Shutdown` has waited for every handler. -/
def Process.waited (s : Process F) : Prop := s.main.httpReturned = true ∧ s.gaveUp = false

structure Inv (s : Process F) : Prop where
  ready : s.router.Ready
  closing : s.router.dispatcher.ch.closed = s.main.closing
  down : s.main.down = true → s.router.dispatcher.shutdown = true
  finished : s.waited → ∀ q ∈ s.router.requests, q.finished = true
  late : s.waited → s.router.dispatcher.ch.late = []

section Step

variable {s : Process F}

/-- A step of the router that `main` has no part in. -/
theorem inv_router (h : Inv s) {a : ServiceAction F} (permitted : s.permits a = true) :
    Inv { s with router := s.router.step a } := by
  have stepped := s.router.stepped a
  obtain ⟨b, queue, close, dispatch⟩ := stepped.queue
  have noClose : b ≠ .close := by
    intro same
    rw [close same] at permitted
    cases permitted
  have quiet (waited : s.waited) (x : Arrival F) : a ≠ .arrive x := by
    rintro rfl
    obtain ⟨returned, waits⟩ := waited
    simp only [Process.permits, Process.listens, waits, Bool.or_false, Bool.or_eq_true,
      decide_eq_true_eq] at permitted
    obtain early | early := permitted
    · rw [early] at returned
      cases returned
    · rw [early] at returned
      cases returned
  have noDispatch (waited : s.waited) (t : Task F) : b ≠ .dispatch t := by
    intro same
    obtain ⟨q, hq, runs⟩ := dispatch t same
    rw [h.finished waited q hq] at runs
    cases runs
  constructor
  case ready => exact ready_step h.ready a
  case closing => exact (queue.signal noClose).trans h.closing
  case down => exact fun down => queue.shutdown (h.down down)
  case finished =>
    intro waited
    change ∀ q ∈ (s.router.step a).requests, q.finished = true
    rw [stepped.finished (h.finished waited) (quiet waited)]
    exact h.finished waited
  case late => exact fun waited => (queue.late (noDispatch waited) noClose).trans (h.late waited)

/-- `main` goes on between two waits. -/
theorem inv_main (h : Inv s) {m : Main} (closing : m.closing = s.main.closing)
    (down : m.down = true → s.main.down = true)
    (returned : m.httpReturned = true → s.main.httpReturned = true) : Inv { s with main := m } :=
  ⟨h.ready,h.closing.trans closing.symm,fun hm => h.down (down hm),
    fun waited => h.finished ⟨returned waited.1,waited.2⟩,
    fun waited => h.late ⟨returned waited.1,waited.2⟩⟩

theorem inv_httpReturned (h : Inv s) (hm : s.main = .httpShutdown) {gaveUp : Bool}
    (waits : gaveUp = true ∨ ∀ q ∈ s.router.requests, q.finished = true) :
    Inv { s with main := .httpDown, gaveUp } := by
  have opened : s.router.dispatcher.ch.closed = false := by rw [h.closing, hm]; rfl
  refine ⟨h.ready,opened,nofun,?_,fun _ => h.ready.early opened⟩
  rintro ⟨_, waited⟩
  obtain gone | finished := waits
  · cases gone.symm.trans waited
  · exact finished

theorem inv_closeDispatcher (h : Inv s) (hm : s.main = .httpDown) :
    Inv { s with main := .dispatcherShutdown, router := s.router.step (.queue .close) } := by
  have opened : s.router.dispatcher.ch.closed = false := by rw [h.closing, hm]; rfl
  have closed : s.router.dispatcher.step .close =
      { s.router.dispatcher with ch := s.router.dispatcher.ch.close } := by
    rw [Dispatcher.step, if_neg (opened ▸ Bool.false_ne_true)]
  have before (waited : s.gaveUp = false) : s.waited := ⟨by rw [hm]; rfl,waited⟩
  constructor
  case ready => exact ready_step h.ready (.queue .close)
  case closing =>
    change (s.router.dispatcher.step .close).ch.closed = true
    rw [closed]
    rfl
  case down =>
    intro down
    cases down
  case finished => exact fun waited => h.finished (before waited.2)
  case late =>
    intro waited
    -- No call is pending, for no handler is inside one.
    have finished := h.finished (before waited.2)
    have returned := returned_of_finished h.ready.waits finished
    have none := Inbox.pendingCalls_eq_nil (not_pending h.ready.counted returned)
    change (s.router.dispatcher.step .close).ch.late = []
    rw [closed, Inbox.close_late, h.late (before waited.2), none, List.append_nil]

theorem inv_dispatcherReturned (h : Inv s) (hm : s.main = .dispatcherShutdown)
    (out : ∀ w ∈ s.router.dispatcher.workers, w.sawExit = true) :
    Inv { s with main := .dispatcherDown, router := s.router.step (.queue .wait) } := by
  have closed : s.router.dispatcher.ch.closed = true := by rw [h.closing, hm]; rfl
  have waited : s.router.dispatcher.step .wait = { s.router.dispatcher with shutdown := true } := by
    rw [Dispatcher.step, if_pos ⟨closed,out⟩]
  have before (waited : s.gaveUp = false) : s.waited := ⟨by rw [hm]; rfl,waited⟩
  constructor
  case ready => exact ready_step h.ready (.queue .wait)
  case closing =>
    change (s.router.dispatcher.step .wait).ch.closed = true
    rw [waited]
    exact closed
  case down =>
    intro _
    change (s.router.dispatcher.step .wait).shutdown = true
    rw [waited]
  case finished => exact fun waited => h.finished (before waited.2)
  case late =>
    intro hw
    change (s.router.dispatcher.step .wait).ch.late = []
    rw [waited]
    exact h.late (before hw.2)

theorem step_inv (h : Inv s) (a : Action F) : Inv (s.step a) := by
  by_cases hm : s.main = .exited
  · rw [Process.step.eq_def, if_pos hm]
    exact h
  rw [Process.step.eq_def, if_neg hm]
  cases a with
  | router a =>
    dsimp only
    split_ifs with permitted
    · exact inv_router h permitted
    · exact h
  | signal =>
    dsimp only
    split_ifs with hs
    · exact inv_main h (by rw [hs]; rfl) nofun nofun
    · exact h
  | httpReturned gaveUp =>
    dsimp only
    split_ifs with hs
    · exact inv_httpReturned h hs.1 hs.2
    · exact h
  | closeDispatcher =>
    dsimp only
    split_ifs with hs
    · exact inv_closeDispatcher h hs
    · exact h
  | dispatcherReturned =>
    dsimp only
    split_ifs with hs
    · exact inv_dispatcherReturned h hs.1 hs.2
    · exact h
  | closeDb =>
    dsimp only
    split_ifs with hs
    · exact inv_main h (by rw [hs]; rfl) (fun _ => by rw [hs]; rfl) fun _ => by rw [hs]; rfl
    · exact h
  | exit =>
    dsimp only
    split_ifs with hs
    · exact inv_main h (by rw [hs]; rfl) (fun _ => by rw [hs]; rfl) fun _ => by rw [hs]; rfl
    · exact h

end Step

/-- What `main` leaves behind: no worker is inside an insertion when the pool is closed, and what
was accepted and not executed came from calls that had not returned at the signal. -/
structure Gone (d : Dispatcher (Task F)) : Prop where
  workers : ∀ w ∈ d.workers, w = .exited
  accepted : d.ch.accepted.Perm (d.executed.map Prod.snd ++ d.ch.buffer)
  left : ∀ t ∈ d.ch.buffer, t.caller ∈ d.ch.late

/-- Every request is answered, and every shadowed one was compared or counted as dropped. -/
structure Complete (p : Service F) : Prop where
  answered : ∀ q ∈ p.requests, ∃ st w, q.phase = .done st w
  shadowed : (p.requests.filterMap Request.shadowed).Perm
    (p.dispatcher.executedSides ++ p.dispatcher.droppedSides)
  sent : p.dispatcher.executedSides.length = p.dispatcher.sent
  dropped : p.dispatcher.droppedSides.length = p.dispatcher.dropped

section Down

variable {s : Process F}

theorem gone_of_inv (h : Inv s) (down : s.main.down = true) : Gone s.router.dispatcher := by
  obtain ⟨rows, shadowing⟩ := h.ready.rows
  have shutdown := h.down down
  have out := shadowing.ledger.shutdown shutdown
  have first := List.getElem_mem h.ready.workers
  refine ⟨fun w hw => ?_,(drained_of_ledger shadowing.ledger h.ready.counted shutdown).all,
    shadowing.ledger.left ⟨_,first,out _ first⟩⟩
  have exited := out w hw
  cases w with
  | exited => rfl
  | _ => cases exited

theorem complete_of_inv (h : Inv s) (down : s.main.down = true) (waits : s.gaveUp = false) :
    Complete s.router := by
  have waited : s.waited := by
    refine ⟨?_,waits⟩
    cases hm : s.main with
    | serving => rw [hm] at down; cases down
    | httpShutdown => rw [hm] at down; cases down
    | _ => rfl
  obtain ⟨rows, shadowing⟩ := h.ready.rows
  have counted := h.ready.counted
  have returned := returned_of_finished h.ready.waits (h.finished waited)
  have gone := gone_of_inv h down
  have empty : s.router.dispatcher.ch.buffer = [] := by
    refine List.eq_nil_iff_forall_not_mem.mpr fun t ht => ?_
    have late := gone.left t ht
    rw [h.late waited] at late
    cases late
  have executed := gone.accepted
  rw [empty, List.append_nil] at executed
  constructor
  case answered =>
    intro q hq
    have finished := h.finished waited q hq
    obtain ⟨x, phase⟩ := q
    cases phase with
    | done st w => exact ⟨st,w,rfl⟩
    | _ => cases finished
  case shadowed => exact shadowing.calls.symm.trans (sides_settled counted returned executed)
  case sent =>
    have sent := countP_returned counted returned true
    have accepted := s.router.dispatcher.ch.matched.perm.length_eq
    rw [List.length_map, List.length_map] at accepted
    have done := executed.length_eq
    rw [List.length_map] at done
    simp only [beq_true, if_true] at sent
    rw [Dispatcher.executedSides, List.length_map, counted.sent, sent, ← accepted, done]
  case dropped =>
    have dropped := countP_returned counted returned false
    simp only [beq_false, Bool.false_eq_true, if_false] at dropped
    rw [Dispatcher.droppedSides, List.length_map, counted.dropped, dropped]

end Down

def start (st : State) (bufferSize workers : Nat) : Process F :=
  ⟨.serving,false,newService st bufferSize workers⟩

theorem inv_start (st : State) (bufferSize : Nat) {workers : Nat} (some : 0 < workers) :
    Inv (start st bufferSize workers : Process F) := by
  refine ⟨ready_new st bufferSize some,rfl,nofun,?_,fun _ => rfl⟩
  rintro ⟨returned, _⟩
  cases returned

/-- However the handlers, the workers, the administrator and the signal interleave: once
`dispatcher.Shutdown` has returned nothing is under way in the pool, and what is left in the queue
was sent too late; if `srv.Shutdown` has waited, nothing is left, and the shadowed requests are the
executed tasks and the dropped ones. -/
theorem shutdown_complete (st : State) (bufferSize workers : Nat) (some : 0 < workers)
    (as : List (Action F)) :
    Always Process.step (fun s => s.main.down = true →
      Gone s.router.dispatcher ∧ (s.gaveUp = false → Complete s.router))
      (start st bufferSize workers) as := by
  refine always_imp Process.step ?_
    (always_of_step Process.step (P := Inv) (fun s a h => step_inv h a)
      (inv_start st bufferSize some) as)
  intro s h down
  exact ⟨gone_of_inv h down,complete_of_inv h down⟩

/-- One shadowed request, dispatched before the signal and executed after it. -/
def cleanRun : List (Action Exact) :=
  [.router (.arrive (smallArrival (.ok (smallResponse "k1")))),.router (.start 0),
    .router (.upstream 0),.router (.dispatch 0),.router (.queue (.send 0)),.signal,
    .router (.queue (.finish 0)),.router (.write 0),.httpReturned false,.closeDispatcher,
    .router (.queue (.receive 0)),.router (.execute 0 (.ok (smallResponse "k1")) 5 .delivered),
    .router (.queue (.observeDone 0)),.router (.queue (.drainEmpty 0)),.dispatcherReturned,.closeDb,
    .exit]

theorem shutdown_complete_small :
    (run Process.step (start ⟨false,0,100⟩ 1 1) cleanRun).router.dispatcher.sent = 1 ∧
      Complete (run Process.step (start ⟨false,0,100⟩ 1 1) cleanRun).router := by
  have down : (run Process.step (start ⟨false,0,100⟩ 1 1) cleanRun).main.down = true := by
    with_unfolding_all rfl
  have waits : (run Process.step (start ⟨false,0,100⟩ 1 1) cleanRun).gaveUp = false := by
    with_unfolding_all rfl
  have always := shutdown_complete ⟨false,0,100⟩ 1 1 (by decide) cleanRun
  refine ⟨?_,(always_last Process.step always down).2 waits⟩
  with_unfolding_all rfl

end Shutdown

end FraudPlatform.Router
