import FraudPlatform.Router.HandleScoreProof
import Mathlib.Data.List.Perm.Subperm

namespace FraudPlatform.Router

open Framework

variable {F : Type}

/-- The upstream that has answered a request, and its answer. -/
def Request.upstream : Request F → Option (String × Scored F)
  | ⟨_,.received⟩ | ⟨_,.forwarding _ _⟩ | ⟨_,.done none _⟩ => none
  | ⟨x,.answered _ st _⟩ | ⟨x,.dispatching st _ _⟩ | ⟨x,.done (some st) _⟩ =>
    some ((st.decide x.rnd).1.text,x.live st)

/-- The label values of `RequestsTotal` for an answer. -/
def requestLabels (u : String × Scored F) : String × String × String := (u.1,u.1,u.2.status)

/-- Those of `UpstreamErrorsTotal`, if it is an error. -/
def errorLabels (u : String × Scored F) : Option (String × String) := u.2.kind.map (u.1,·)

/-- Each counter has one increment for each answer it is about. -/
structure Service.Counted (p : Service F) : Prop where
  requestsTotal : p.requestsTotal.Perm ((p.requests.filterMap Request.upstream).map requestLabels)
  upstreamErrorsTotal : p.upstreamErrorsTotal.Perm
    ((p.requests.filterMap Request.upstream).filterMap errorLabels)

variable {p p' : Service F} {a : ServiceAction F} {i : Nat} {x : Arrival F}
  {phase phase' : Phase F}

theorem counted_set (h : p.Counted) (hi : p.requests[i]? = some ⟨x,phase⟩)
    (same : Request.upstream ⟨x,phase'⟩ = Request.upstream ⟨x,phase⟩) :
    (p.set i x phase').Counted := by
  have kept := filterMap_set_of_eq Request.upstream hi same
  exact ⟨h.requestsTotal.trans (kept.map _).symm,
    h.upstreamErrorsTotal.trans (kept.filterMap _).symm⟩

/-- The step in which the upstream answers is counted once. -/
theorem counted_count {upstreamName : String} {answer : Scored F} (h : p.Counted)
    (hi : p.requests[i]? = some ⟨x,phase⟩) (before : Request.upstream ⟨x,phase⟩ = none)
    (after : Request.upstream ⟨x,phase'⟩ = some (upstreamName,answer)) :
    ((p.count upstreamName answer).set i x phase').Counted := by
  have grown := filterMap_set_take Request.upstream hi before after
  constructor
  · have total := (h.requestsTotal.cons (requestLabels (upstreamName,answer))).trans
      (grown.map requestLabels).symm
    exact (List.perm_append_singleton _ _).trans total
  · have errors := grown.filterMap errorLabels
    have first : ((upstreamName,answer) :: p.requests.filterMap Request.upstream).filterMap
        errorLabels = (answer.kind.map (upstreamName,·)).toList ++
          (p.requests.filterMap Request.upstream).filterMap errorLabels := by
      cases answer <;> rfl
    rw [first] at errors
    exact List.perm_append_comm.trans ((h.upstreamErrorsTotal.append_left _).trans errors.symm)

theorem insert_counters (p : Service F) (sc : ShadowComparison F) (now : Int) (insertion : Fate) :
    (p.insert sc now insertion).requestsTotal = p.requestsTotal ∧
      (p.insert sc now insertion).upstreamErrorsTotal = p.upstreamErrorsTotal := by
  unfold Service.insert
  cases p.store with
  | none => exact ⟨rfl,rfl⟩
  | some rows => cases insertion <;> exact ⟨rfl,rfl⟩

theorem Service.Stepped.counted (stepped : p.Stepped a p') (h : p.Counted) : p'.Counted := by
  cases stepped with
  | arrived x =>
    have same : (p.requests ++ [Request.mk x .received]).filterMap Request.upstream =
        p.requests.filterMap Request.upstream := by
      rw [List.filterMap_append]
      exact List.append_nil _
    exact ⟨same ▸ h.requestsTotal,same ▸ h.upstreamErrorsTotal⟩
  | refused hi _ => exact counted_set h hi rfl
  | started hi _ => exact counted_set h hi rfl
  | failed hi _ => exact counted_count h hi rfl rfl
  | answered hi _ => exact counted_count h hi rfl rfl
  | @dispatched i x req st resp hi _ =>
    exact counted_set (p := { p with dispatcher := _ }) ⟨h.requestsTotal,h.upstreamErrorsTotal⟩ hi
      rfl
  | wrote hi _ => exact counted_set h hi rfl
  | wroteShadowed hi _ => exact counted_set h hi rfl
  | @compared w t drain resp now insertion sc _ _ =>
    have counters := insert_counters { p with dispatcher := p.dispatcher.step (.executed w) } sc now
      insertion
    constructor
    · rw [counters.1, insert_requests]
      exact h.requestsTotal
    · rw [counters.2, insert_requests]
      exact h.upstreamErrorsTotal
  | _ => exact ⟨h.requestsTotal,h.upstreamErrorsTotal⟩

/-- In every interleaving of the handlers, the queue and the administrator, the counters are those
of the answers the upstreams have given. -/
theorem counters_exact (p : Service F) (new : p.requests = []) (requests : p.requestsTotal = [])
    (errors : p.upstreamErrorsTotal = []) (as : List (ServiceAction F)) :
    Always Service.step Service.Counted p as := by
  refine always_of_step Service.step (fun p a h => (p.stepped a).counted h) ?_ as
  constructor
  · rw [new, requests]
    exact .nil
  · rw [new, errors]
    exact .nil

theorem counters_exact_small : (run Service.step (smallService ⟨false,0,100⟩)
    [.arrive (smallArrival (.error ⟨.timeout,"deadline"⟩)),.start 0,.upstream 0]).Counted :=
  always_last Service.step (counters_exact (smallService ⟨false,0,100⟩) rfl rfl rfl _)

/-- What a comparison says of the champion. -/
structure ChampionSide (F : Type) where
  transactionId : Int
  predictionId : String
  probability : F
  flagged : Bool

def championSide (req : ScoreRequest) (resp : ScoreResponse F) : ChampionSide F :=
  ⟨req.transactionId,resp.predictionId,resp.fraudProbability,resp.flagged⟩

/-- The champion's answer to a request that was dispatched as a shadow task. -/
def Request.shadowed : Request F → Option (ChampionSide F)
  | ⟨_,.received⟩ | ⟨_,.forwarding _ _⟩ | ⟨_,.answered _ _ _⟩ | ⟨_,.done none _⟩ => none
  | ⟨x,.dispatching st _ _⟩ | ⟨x,.done (some st) _⟩ =>
    match x.request, x.champion with
    | some req, .ok resp => if x.doShadow st then some (championSide req resp) else none
    | _, _ => none

def taskSide (t : Task F) : ChampionSide F :=
  ⟨t.transactionId,t.championPredictionId,t.championProbability,t.championFlagged⟩

def rowSide (r : ShadowComparisonRow F) : ChampionSide F :=
  ⟨r.transactionId,r.championPredictionId,r.championProbability,r.championFlagged⟩

def Dispatcher.sides (d : Dispatcher (Task F)) : List (ChampionSide F) :=
  d.ch.calls.map fun c => taskSide c.item

def Dispatcher.executedSides (d : Dispatcher (Task F)) : List (ChampionSide F) :=
  d.executed.map fun x => taskSide x.2.item

/-- The shadow tasks are those of the requests, and the rows those of executed tasks, each of
which counts one error at most. -/
structure Service.Shadowing (p : Service F) (rows : List (ShadowComparisonRow F)) : Prop where
  sound : p.Sound
  ledger : p.dispatcher.Ledger
  store : p.store = some rows
  calls : p.dispatcher.sides.Perm (p.requests.filterMap Request.shadowed)
  tasks : ∀ c ∈ p.dispatcher.ch.calls, ∃ req resp, c.item = shadowTask req resp
  written : (rows.map rowSide).Sublist p.dispatcher.executedSides
  failures : p.shadowInsertErrorsTotal ≤ p.dispatcher.executed.length

section Queue

variable {d d' : Dispatcher (Task F)} {a : DispatcherAction (Task F)}

/-- Only a call of `Dispatch` brings a task. -/
theorem Dispatcher.Stepped.items {τ : Type} {d d' : Dispatcher τ} {a : DispatcherAction τ}
    (stepped : d.Stepped a d') (other : ∀ t, a ≠ .dispatch t) :
    d'.ch.calls.map Call.item = d.ch.calls.map Call.item := by
  cases stepped with
  | dispatched t => exact absurd rfl (other t)
  | posted hc => exact (Inbox.Moved.posted hc).items
  | handed _ _ hc => exact (Inbox.Moved.handed hc).items
  | refused _ hc => exact (Inbox.Moved.refused hc).items
  | received _ hc => exact (Inbox.Moved.took hc).items
  | drained _ hc => exact (Inbox.Moved.took hc).items
  | _ => rfl

theorem Dispatcher.Stepped.executions {τ : Type} {d d' : Dispatcher τ} {a : DispatcherAction τ}
    (stepped : d.Stepped a d') (other : ∀ w, a ≠ .executed w) : d'.executed = d.executed := by
  cases stepped with
  | @executed w _ _ _ => exact absurd rfl (other w)
  | _ => rfl

theorem sides_eq (d : Dispatcher (Task F)) :
    d.sides = (d.ch.calls.map Call.item).map taskSide := by
  rw [List.map_map]
  rfl

theorem forall_item_iff {τ : Type} {P : τ → Prop} {calls : List (Call τ Unit)} :
    (∀ c ∈ calls, P c.item) ↔ ∀ t ∈ calls.map Call.item, P t := by
  simp

/-- A task in the hands of a worker was dispatched. -/
theorem mem_items_of_executing (h : d.Ledger) {w : Nat} {t : Posted (Task F)} {drain : Bool}
    (hw : d.workers[w]? = some (.executing t drain)) : t.item ∈ d.ch.calls.map Call.item := by
  have held : t ∈ d.workers.filterMap Worker.task :=
    List.mem_filterMap.mpr ⟨_,List.mem_of_getElem? hw,rfl⟩
  have taken : t ∈ d.ch.accepted := by
    rw [d.ch.ledger]
    exact List.mem_append_left _ (h.taken.mem_iff.mpr (List.mem_append_right _ held))
  exact d.ch.matched.subperm.subset (List.mem_map_of_mem taken)

/-- No task is executed more often than it was dispatched. -/
theorem executedSides_subperm (h : d.Ledger) : d.executedSides.Subperm d.sides := by
  have executed : (d.executed.map Prod.snd).Subperm d.ch.accepted := by
    rw [d.ch.ledger]
    have part := (List.sublist_append_left (d.executed.map Prod.snd)
      (d.workers.filterMap Worker.task)).subperm
    exact part.trans (h.taken.symm.subperm.trans (List.sublist_append_left _ _).subperm)
  have map {α β : Type} (f : α → β) {xs ys : List α} (sub : xs.Subperm ys) :
      (xs.map f).Subperm (ys.map f) := by
    obtain ⟨order, perm, sub⟩ := sub
    exact ⟨order.map f,perm.map f,sub.map f⟩
  have items := (map (·.item) executed).trans d.ch.matched.subperm
  have sides := map taskSide items
  rw [List.map_map, List.map_map] at sides
  rw [sides_eq]
  exact sides

end Queue

/-- A request is shadowed only when it is the champion that answers it. -/
theorem live_of_doShadow {x : Arrival F} {st : State} (h : x.doShadow st = true) :
    x.live st = x.champion := by
  have off : st.canaryEnabled = false := by
    cases enabled : st.canaryEnabled with
    | false => rfl
    | true => simp [Arrival.doShadow, State.decide, enabled] at h
  have live : (st.decide x.rnd).1 = .champion := (st.decide_champion x.rnd).mpr (by simp [off])
  rw [Arrival.live, live]

section Step

variable {rows : List (ShadowComparisonRow F)}

/-- A step of a handler that leaves the queue alone. -/
theorem shadowing_set {requestsTotal : List (String × String × String)}
    {upstreamErrorsTotal : List (String × String)} (h : p.Shadowing rows)
    (hi : p.requests[i]? = some ⟨x,phase⟩)
    (sound : ({ p with requestsTotal, upstreamErrorsTotal }.set i x phase').Sound)
    (same : Request.shadowed ⟨x,phase'⟩ = Request.shadowed ⟨x,phase⟩) :
    ({ p with requestsTotal, upstreamErrorsTotal }.set i x phase').Shadowing rows :=
  ⟨sound,h.ledger,h.store,h.calls.trans (filterMap_set_of_eq Request.shadowed hi same).symm,h.tasks,
    h.written,h.failures⟩

theorem shadowing_dispatch {req : ScoreRequest} {st : State} {resp : ScoreResponse F} {call : Nat}
    (h : p.Shadowing rows) (hi : p.requests[i]? = some ⟨x,.answered req st resp⟩)
    (hs : x.doShadow st = true)
    (sound : ({ p with dispatcher := p.dispatcher.step (.dispatch (shadowTask req resp)) }.set i x
      (.dispatching st resp call)).Sound) :
    ({ p with dispatcher := p.dispatcher.step (.dispatch (shadowTask req resp)) }.set i x
      (.dispatching st resp call)).Shadowing rows := by
  obtain ⟨known, answer⟩ : x.request = some req ∧ x.live st = .ok resp :=
    h.sound _ (List.mem_of_getElem? hi)
  have champion : x.champion = .ok resp := (live_of_doShadow hs).symm.trans answer
  have side : Request.shadowed ⟨x,.dispatching st resp call⟩ = some (championSide req resp) := by
    simp only [Request.shadowed, known, champion, hs, if_true]
  have grown := filterMap_set_take Request.shadowed hi rfl side
  have stepped := step_stepped p.dispatcher (.dispatch (shadowTask req resp))
  refine ⟨sound,stepped.ledger h.ledger,h.store,?_,?_,h.written,h.failures⟩
  · have calls : (p.dispatcher.step (.dispatch (shadowTask req resp))).sides =
        p.dispatcher.sides ++ [championSide req resp] := List.map_append
    change (p.dispatcher.step _).sides.Perm _
    rw [calls]
    exact (List.perm_append_singleton _ _).trans ((h.calls.cons _).trans grown.symm)
  · refine List.forall_mem_append.mpr ⟨h.tasks,?_⟩
    intro c hc
    rw [List.mem_singleton.mp hc]
    exact ⟨req,resp,rfl⟩

theorem shadowing_queue {a : DispatcherAction (Task F)} (h : p.Shadowing rows)
    (noDispatch : ∀ t, a ≠ .dispatch t) (noExecuted : ∀ w, a ≠ .executed w)
    (sound : { p with dispatcher := p.dispatcher.step a }.Sound) :
    { p with dispatcher := p.dispatcher.step a }.Shadowing rows := by
  have stepped := step_stepped p.dispatcher a
  have items := stepped.items noDispatch
  have executed := stepped.executions noExecuted
  refine ⟨sound,stepped.ledger h.ledger,h.store,?_,?_,?_,?_⟩
  · rw [sides_eq, items, ← sides_eq]
    exact h.calls
  · rw [forall_item_iff (P := fun t => ∃ req resp, t = shadowTask req resp), items,
      ← forall_item_iff]
    exact h.tasks
  · change (rows.map rowSide).Sublist ((p.dispatcher.step a).executed.map _)
    rw [executed]
    exact h.written
  · change p.shadowInsertErrorsTotal ≤ (p.dispatcher.step a).executed.length
    rw [executed]
    exact h.failures

/-- A worker is through with a task: it had no answer, or has tried to insert the row, and may have
done so and counted an error. -/
theorem shadowing_executed {w : Nat} {t : Posted (Task F)} {drain : Bool}
    (added : List (ShadowComparisonRow F)) (failures : Nat) (h : p.Shadowing rows)
    (hw : p.dispatcher.workers[w]? = some (.executing t drain))
    (sides : (added.map rowSide).Sublist [taskSide t.item])
    (once : failures ≤ 1)
    (sound : { p with dispatcher := p.dispatcher.step (.executed w), store := some (rows ++ added)
                      shadowInsertErrorsTotal := p.shadowInsertErrorsTotal + failures }.Sound) :
    { p with dispatcher := p.dispatcher.step (.executed w), store := some (rows ++ added)
             shadowInsertErrorsTotal := p.shadowInsertErrorsTotal + failures }.Shadowing
      (rows ++ added) := by
  have stepped := step_stepped p.dispatcher (.executed w)
  have items := stepped.items nofun
  have executed : (p.dispatcher.step (.executed w)).executed = p.dispatcher.executed ++ [(w,t)] := by
    simp only [Dispatcher.step, hw]
  refine ⟨sound,stepped.ledger h.ledger,rfl,?_,?_,?_,?_⟩
  · rw [sides_eq, items, ← sides_eq]
    exact h.calls
  · rw [forall_item_iff (P := fun t => ∃ req resp, t = shadowTask req resp), items,
      ← forall_item_iff]
    exact h.tasks
  · rw [List.map_append, Dispatcher.executedSides, executed, List.map_append]
    exact h.written.append sides
  · have before := h.failures
    change p.shadowInsertErrorsTotal + failures ≤ (p.dispatcher.step (.executed w)).executed.length
    rw [executed, List.length_append, List.length_singleton]
    omega

/-- The row of a shadow task says what the task says of the champion. -/
theorem rowSide_of_execute {t : Task F} {resp : Scored F} {sc : ShadowComparison F}
    (task : ∃ req resp, t = shadowTask req resp) (h : t.execute resp = some sc) (now : Int) :
    rowSide (sc.row now) = taskSide t := by
  obtain ⟨req, championResp, rfl⟩ := task
  cases resp with
  | error ue => cases h
  | ok challengerResp =>
    cases h
    rfl

theorem Service.Stepped.shadowing (stepped : p.Stepped a p') (sound : p'.Sound)
    (h : p.Shadowing rows) : ∃ rows', p'.Shadowing rows' := by
  cases stepped with
  | idle => exact ⟨rows,h⟩
  | arrived x =>
    refine ⟨rows,sound,h.ledger,h.store,?_,h.tasks,h.written,h.failures⟩
    have same : (p.requests ++ [Request.mk x .received]).filterMap Request.shadowed =
        p.requests.filterMap Request.shadowed := by
      rw [List.filterMap_append]
      exact List.append_nil _
    exact same ▸ h.calls
  | refused hi _ => exact ⟨rows,shadowing_set h hi sound rfl⟩
  | started hi _ => exact ⟨rows,shadowing_set h hi sound rfl⟩
  | @failed i x req st ue hi hl =>
    refine ⟨rows,shadowing_set h hi sound ?_⟩
    simp only [Request.shadowed]
    split
    · next champion =>
      split_ifs with hs
      · rw [live_of_doShadow hs, champion] at hl
        cases hl
      · rfl
    · rfl
  | answered hi _ => exact ⟨rows,shadowing_set h hi sound rfl⟩
  | dispatched hi hs => exact ⟨rows,shadowing_dispatch h hi hs sound⟩
  | @wrote i x req st resp hi hs =>
    refine ⟨rows,shadowing_set h hi sound ?_⟩
    simp only [Request.shadowed, hs]
    split <;> rfl
  | wroteShadowed hi _ => exact ⟨rows,shadowing_set h hi sound rfl⟩
  | queued a noDispatch noExecuted =>
    exact ⟨rows,shadowing_queue h noDispatch noExecuted sound⟩
  | executed hw _ =>
    have next := shadowing_executed [] 0 h hw (List.nil_sublist _) (Nat.zero_le 1)
    rw [List.append_nil, ← h.store] at next
    exact ⟨rows,next sound⟩
  | @compared w t drain resp now insertion sc hw ht =>
    obtain ⟨c, hc, same⟩ := List.mem_map.mp (mem_items_of_executing h.ledger hw)
    have task := h.tasks c hc
    rw [same] at task
    have sides : ([sc.row now].map rowSide).Sublist [taskSide t.item] := by
      rw [List.map_singleton, rowSide_of_execute task ht]
    simp only [Service.insert, h.store] at sound ⊢
    cases insertion with
    | delivered =>
      exact ⟨_,shadowing_executed [sc.row now] 0 h hw sides (Nat.zero_le 1) sound⟩
    | lost =>
      have next := shadowing_executed [] 1 h hw (List.nil_sublist _) (Nat.le_refl 1)
      rw [List.append_nil] at next
      exact ⟨rows,next sound⟩
    | unanswered =>
      exact ⟨_,shadowing_executed [sc.row now] 1 h hw sides (Nat.le_refl 1) sound⟩
  | installed st => exact ⟨rows,sound,h.ledger,h.store,h.calls,h.tasks,h.written,h.failures⟩

end Step

/-- What the challenger answered, and when the row was inserted. -/
structure ChallengerSide (r : ShadowComparisonRow F) (resp : ScoreResponse F) (now : Int) : Prop where
  predictionId : r.challengerPredictionId = resp.predictionId
  probability : r.challengerProbability = resp.fraudProbability
  flagged : r.challengerFlagged = resp.flagged
  createdAt : r.createdAt = now

theorem insert_store {rows : List (ShadowComparisonRow F)} (store : p.store = some rows)
    (sc : ShadowComparison F) (now : Int) (insertion : Fate) :
    (p.insert sc now insertion).store =
      some (if insertion.acts then rows ++ [sc.row now] else rows) := by
  unfold Service.insert
  rw [store]
  cases insertion <;> rfl

/-- A row comes into the table in the step in which a worker is through with its task. -/
theorem Service.Stepped.inserted {rows : List (ShadowComparisonRow F)} (stepped : p.Stepped a p')
    (h : p.Shadowing rows) {r : ShadowComparisonRow F} (before : ¬∃ rs, p.store = some rs ∧ r ∈ rs)
    (after : ∃ rs, p'.store = some rs ∧ r ∈ rs) :
    ∃ w resp now insertion t drain, a = .execute w (.ok resp) now insertion ∧
      insertion.acts = true ∧ p.dispatcher.workers[w]? = some (.executing t drain) ∧
      t.item.transactionId = r.transactionId ∧ ChallengerSide r resp now := by
  cases stepped with
  | @compared w t drain resp now insertion sc hw ht =>
    obtain ⟨rs, hs, hr⟩ := after
    rw [insert_store (p := { p with dispatcher := p.dispatcher.step (.executed w) }) h.store,
      Option.some.injEq] at hs
    subst hs
    split_ifs at hr with acts
    case neg => exact absurd ⟨rows,h.store,hr⟩ before
    obtain old | new := List.mem_append.mp hr
    · exact absurd ⟨rows,h.store,old⟩ before
    · rw [List.mem_singleton] at new
      subst new
      obtain ⟨c, hc, same⟩ := List.mem_map.mp (mem_items_of_executing h.ledger hw)
      obtain ⟨req, championResp, task⟩ := h.tasks c hc
      rw [same] at task
      rw [task] at ht
      cases resp with
      | error ue => cases ht
      | ok resp =>
        cases ht
        exact ⟨w,resp,now,insertion,t,drain,rfl,acts,hw,by rw [task]; rfl,rfl,rfl,rfl,rfl⟩
  | _ => exact absurd after before

/-- The router as `main` makes it. -/
def newService (st : State) (bufferSize workers : Nat) : Service F :=
  ⟨st,NewDispatcher bufferSize workers,[],some [],0,[],[]⟩

theorem shadowing_new (st : State) (bufferSize workers : Nat) :
    (newService st bufferSize workers : Service F).Shadowing [] := by
  have none : (newService st bufferSize workers : Service F).dispatcher.ch.calls = [] := rfl
  refine ⟨?_,ledger_new bufferSize workers,rfl,.nil,?_,List.nil_sublist _,Nat.le_refl 0⟩
  · intro q hq
    cases hq
  · intro c hc
    rw [none] at hc
    cases hc

theorem run_shadowing (st : State) (bufferSize workers : Nat) (as : List (ServiceAction F)) :
    Always Service.step (fun p => ∃ rows, p.Shadowing rows) (newService st bufferSize workers) as := by
  refine always_of_step Service.step (fun p a h => ?_) ⟨[],shadowing_new st bufferSize workers⟩ as
  obtain ⟨rows, h⟩ := h
  exact (p.stepped a).shadowing (step_sound h.sound a) h

/-- The comparisons pair a champion's answer that is passed on with what the challenger answered
for the same transaction, each request at most once, whatever the interleaving and the failures;
a request counts for at most one row and for at most one failed insertion, possibly for both. -/
theorem shadow_rows_sound (st : State) (bufferSize workers : Nat) (as : List (ServiceAction F)) :
    ∃ rows, (run Service.step (newService st bufferSize workers) as).store = some rows ∧
      (rows.map rowSide).Subperm
        ((run Service.step (newService st bufferSize workers) as).requests.filterMap
          Request.shadowed) ∧
      (run Service.step (newService st bufferSize workers) as).shadowInsertErrorsTotal
        ≤ ((run Service.step (newService st bufferSize workers) as).requests.filterMap
          Request.shadowed).length ∧
      ∀ r ∈ rows, ∃ pre w resp now insertion post t drain,
        as = pre ++ .execute w (.ok resp) now insertion :: post ∧ insertion.acts = true ∧
        (run Service.step (newService st bufferSize workers) pre).dispatcher.workers[w]? =
          some (.executing t drain) ∧
        t.item.transactionId = r.transactionId ∧ ChallengerSide r resp now := by
  have always := run_shadowing st bufferSize workers as
  obtain ⟨rows, h⟩ := always_last Service.step always
  have executed := (executedSides_subperm h.ledger).trans h.calls.subperm
  refine ⟨rows,h.store,h.written.subperm.trans executed,?_,fun r hr => ?_⟩
  · have bound := executed.length_le
    rw [Dispatcher.executedSides, List.length_map] at bound
    exact h.failures.trans bound
  · have first : ¬∃ rs, (newService st bufferSize workers : Service F).store = some rs ∧ r ∈ rs := by
      intro found
      obtain ⟨rs, hs, hm⟩ := found
      cases hs
      cases hm
    obtain ⟨pre, a, post, he, before, after⟩ := exists_turn Service.step
      (P := fun q : Service F => ∃ rs, q.store = some rs ∧ r ∈ rs) first ⟨rows,h.store,hr⟩
    obtain ⟨seen, hp⟩ := (always_iff_reached Service.step).mp always pre (a :: post) he
    obtain ⟨w, resp, now, insertion, t, drain, rfl, acts, hw, same, side⟩ :=
      (Service.stepped _ a).inserted hp before after
    exact ⟨pre,w,resp,now,insertion,post,t,drain,he,acts,hw,same,side⟩

/-- One shadowed request whose row is in the table although its insertion is reported to have
failed. -/
example : (run Service.step (newService ⟨false,0,100⟩ 1 1)
    [.arrive (smallArrival (.ok (smallResponse "k1"))),.start 0,.upstream 0,.dispatch 0,
      .queue (.send 0),.queue (.receive 0),
      .execute 0 (.ok (smallResponse "k1")) 5 .unanswered]).store.map List.length = some 1 ∧
    (run Service.step (newService ⟨false,0,100⟩ 1 1)
    [.arrive (smallArrival (.ok (smallResponse "k1"))),.start 0,.upstream 0,.dispatch 0,
      .queue (.send 0),.queue (.receive 0),
      .execute 0 (.ok (smallResponse "k1")) 5 .unanswered]).shadowInsertErrorsTotal = 1 := by
  with_unfolding_all exact ⟨rfl,rfl⟩

end FraudPlatform.Router
