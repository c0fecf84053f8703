import FraudPlatform.Framework.Exact
import FraudPlatform.Framework.Remote
import FraudPlatform.Router.DispatcherProof
import FraudPlatform.Router.Routing
import FraudPlatform.Tables

namespace FraudPlatform.Router

open Framework

variable {F : Type}

inductive ErrorKind
  | timeout
  | upstream
  deriving DecidableEq, Repr

def ErrorKind.text : ErrorKind → String
  | .timeout => "timeout"
  | .upstream => "upstream_error"

structure UpstreamError where
  kind : ErrorKind
  message : String
  deriving DecidableEq, Repr

structure ScoreRequest where
  transactionId : Int
  deriving DecidableEq, Repr

/-- The answer of a model service, which the router passes on. -/
structure ScoreResponse (F : Type) where
  transactionId : Int
  predictionId : String
  fraudProbability : F
  flagged : Bool
  modelVersion : String
  latencyMs : F
  deriving DecidableEq, Repr

/-- What `Client.Score` returns. -/
abbrev Scored (F : Type) := Except UpstreamError (ScoreResponse F)

structure ShadowComparison (F : Type) where
  transactionId : Int
  championPredictionId : String
  challengerPredictionId : String
  championProbability : F
  challengerProbability : F
  championFlagged : Bool
  challengerFlagged : Bool

/-- A shadow task; `onComplete` stands for the callback by what it inserts. -/
structure Task (F : Type) where
  transactionId : Int
  championPredictionId : String
  championProbability : F
  championFlagged : Bool
  onComplete : Option (ScoreResponse F → ShadowComparison F)

/-- `execute`: what is to be inserted once the challenger has answered. -/
def Task.execute (t : Task F) : Scored F → Option (ShadowComparison F)
  | .error _ => none
  | .ok resp => t.onComplete.map (· resp)

def ShadowComparison.row (sc : ShadowComparison F) (now : Int) : ShadowComparisonRow F :=
  ⟨sc.transactionId,sc.championPredictionId,sc.challengerPredictionId,sc.championProbability,
    sc.challengerProbability,sc.championFlagged,sc.challengerFlagged,now⟩

def shadowTask (req : ScoreRequest) (championResp : ScoreResponse F) : Task F where
  transactionId := req.transactionId
  championPredictionId := championResp.predictionId
  championProbability := championResp.fraudProbability
  championFlagged := championResp.flagged
  onComplete := some fun challengerResp =>
    ⟨req.transactionId,championResp.predictionId,challengerResp.predictionId,
      championResp.fraudProbability,challengerResp.fraudProbability,championResp.flagged,
      challengerResp.flagged⟩

def RouteDecision.text : RouteDecision → String
  | .champion => "champion"
  | .challenger => "challenger"

/-- What the client gets: the headers the handler sets, and the status with the body. -/
structure Written (F : Type) where
  headers : List (String × String)
  reply : Reply (ScoreResponse F)
  deriving DecidableEq

/-- A request, with the draw and the answers of the two upstreams that it will meet. A body
that is too long or does not decode is `none`. -/
structure Arrival (F : Type) where
  body : Option ScoreRequest
  rnd : ℚ
  champion : Scored F
  challenger : Scored F

/-- The request the handler goes on with. -/
def Arrival.request (x : Arrival F) : Option ScoreRequest :=
  x.body.filter fun req => req.transactionId ≠ 0

def Arrival.live (x : Arrival F) (st : State) : Scored F :=
  match (st.decide x.rnd).1 with
  | .champion => x.champion
  | .challenger => x.challenger

def Arrival.doShadow (x : Arrival F) (st : State) : Bool := (st.decide x.rnd).2

def badRequest : Written F := ⟨[],.error 400 "invalid request body: transaction_id required"⟩

def upstreamFailed : Written F := ⟨[],.error 503 "upstream error"⟩

def passedOn (live : RouteDecision) (resp : ScoreResponse F) : Written F :=
  ⟨[("X-Model-Version",resp.modelVersion),("X-Routing-Decision",live.text),
    ("Content-Type","application/json")],.ok resp⟩

/-- Where a run of `handleScore` stands. -/
inductive Phase (F : Type)
  | received
  /-- The state is loaded and the upstream called. -/
  | forwarding (req : ScoreRequest) (st : State)
  | answered (req : ScoreRequest) (st : State) (resp : ScoreResponse F)
  | dispatching (st : State) (resp : ScoreResponse F) (call : Nat)
  /-- The state is the one the handler loaded, if it came to that. -/
  | done (st : Option State) (w : Written F)

structure Request (F : Type) where
  arrival : Arrival F
  phase : Phase F

/-- The router. A nil store, which inserts nothing, is `none`. -/
structure Service (F : Type) where
  state : State
  dispatcher : Dispatcher (Task F)
  requests : List (Request F)
  store : Option (List (ShadowComparisonRow F))
  shadowInsertErrorsTotal : Nat
  /-- The label values of each increment. -/
  requestsTotal : List (String × String × String)
  upstreamErrorsTotal : List (String × String)

/-- The steps of the handlers, by request, of the shadow queue and of the administrator. -/
inductive ServiceAction (F : Type)
  | arrive (x : Arrival F)
  | start (i : Nat)
  | upstream (i : Nat)
  | dispatch (i : Nat)
  | write (i : Nat)
  | queue (a : DispatcherAction (Task F))
  /-- The worker `w` finishes: the challenger's answer, and the time and fate of the insertion. -/
  | execute (w : Nat) (resp : Scored F) (now : Int) (insertion : Fate)
  | install (st : State)

def Service.set (p : Service F) (i : Nat) (x : Arrival F) (phase : Phase F) : Service F :=
  { p with requests := p.requests.set i ⟨x,phase⟩ }

/-- `OnComplete`: the row can be in the table and an error be counted all the same, when the reply
is lost or comes after the two seconds. -/
def Service.insert (p : Service F) (sc : ShadowComparison F) (now : Int) (insertion : Fate) :
    Service F :=
  match p.store with
  | none => p
  | some rows =>
    let (rows, reply) := insertion.call (fun rows => (rows ++ [sc.row now],())) rows
    match reply with
    | some () => { p with store := some rows }
    | none =>
      { p with store := some rows, shadowInsertErrorsTotal := p.shadowInsertErrorsTotal + 1 }

def Service.step (p : Service F) : ServiceAction F → Service F
  | .arrive x => { p with requests := p.requests ++ [⟨x,.received⟩] }
  | .start i =>
    match p.requests[i]? with
    | some ⟨x,.received⟩ =>
      match x.request with
      | none => p.set i x (.done none badRequest)
      | some req => p.set i x (.forwarding req p.state)
    | _ => p
  | .upstream i =>
    match p.requests[i]? with
    | some ⟨x,.forwarding req st⟩ =>
      let upstreamName := (st.decide x.rnd).1.text
      match x.live st with
      | .error ue =>
        { p with
          upstreamErrorsTotal := p.upstreamErrorsTotal ++ [(upstreamName,ue.kind.text)]
          requestsTotal := p.requestsTotal ++ [(upstreamName,upstreamName,"error")]
        }.set i x (.done (some st) upstreamFailed)
      | .ok resp =>
        { p with
          requestsTotal := p.requestsTotal ++ [(upstreamName,upstreamName,"200")]
        }.set i x (.answered req st resp)
    | _ => p
  | .dispatch i =>
    match p.requests[i]? with
    | some ⟨x,.answered req st resp⟩ =>
      if x.doShadow st then
        { p with
          dispatcher := p.dispatcher.step (.dispatch (shadowTask req resp))
        }.set i x (.dispatching st resp p.dispatcher.ch.calls.length)
      else p
    | _ => p
  | .write i =>
    match p.requests[i]? with
    | some ⟨x,.answered _ st resp⟩ =>
      if x.doShadow st then p
      else p.set i x (.done (some st) (passedOn (st.decide x.rnd).1 resp))
    | some ⟨x,.dispatching st resp call⟩ =>
      if call ∈ p.dispatcher.returned.map Prod.fst then
        p.set i x (.done (some st) (passedOn (st.decide x.rnd).1 resp))
      else p
    | _ => p
  | .queue a =>
    match a with
    | .dispatch _ | .executed _ => p
    | a => { p with dispatcher := p.dispatcher.step a }
  | .execute w resp now insertion =>
    match p.dispatcher.workers[w]? with
    | some (.executing t _) =>
      let p' := { p with dispatcher := p.dispatcher.step (.executed w) }
      match t.item.execute resp with
      | some sc => p'.insert sc now insertion
      | none => p'
    | _ => p
  | .install st => { p with state := st }

/-- The answer of a handler that went by the state `st`. -/
def Arrival.written (x : Arrival F) (st : State) : Written F :=
  match x.live st with
  | .error _ => upstreamFailed
  | .ok resp => passedOn (st.decide x.rnd).1 resp

/-- A handler knows nothing but its request, the state it loaded and its upstream's answer. -/
def Request.Sound : Request F → Prop
  | ⟨_,.received⟩ => True
  | ⟨x,.forwarding req _⟩ => x.request = some req
  | ⟨x,.answered req st resp⟩ => x.request = some req ∧ x.live st = .ok resp
  | ⟨x,.dispatching st resp _⟩ => x.request ≠ none ∧ x.live st = .ok resp
  | ⟨x,.done none w⟩ => x.request = none ∧ w = badRequest
  | ⟨x,.done (some st) w⟩ => x.request ≠ none ∧ w = x.written st

def Service.Sound (p : Service F) : Prop := ∀ q ∈ p.requests, q.Sound

theorem insert_requests (p : Service F) (sc : ShadowComparison F) (now : Int) (insertion : Fate) :
    (p.insert sc now insertion).requests = p.requests := by
  unfold Service.insert
  cases p.store with
  | none => rfl
  | some rows => cases insertion <;> rfl

theorem written_ok {x : Arrival F} {st : State} {resp : ScoreResponse F}
    (h : x.live st = .ok resp) : x.written st = passedOn (st.decide x.rnd).1 resp := by
  rw [Arrival.written, h]

theorem step_sound {p : Service F} (h : p.Sound) (a : ServiceAction F) : (p.step a).Sound := by
  have at' {i : Nat} {q : Request F} (hi : p.requests[i]? = some q) : q.Sound :=
    h q (List.mem_of_getElem? hi)
  cases a with
  | arrive x => exact forall_mem_concat h trivial
  | start i =>
    simp only [Service.step]
    split
    · next x hi =>
      split
      · next hr => exact forall_mem_set h ⟨hr,rfl⟩
      · next req hr => exact forall_mem_set h hr
    · exact h
  | upstream i =>
    simp only [Service.step]
    split
    · next x req st hi =>
      have known : x.request = some req := at' hi
      split
      · next ue hl =>
        refine forall_mem_set h ⟨by simp [known],?_⟩
        rw [Arrival.written, hl]
      · next resp hl => exact forall_mem_set h ⟨known,hl⟩
    · exact h
  | dispatch i =>
    simp only [Service.step]
    split
    · next x req st resp hi =>
      obtain ⟨known, answer⟩ : x.request = some req ∧ x.live st = .ok resp := at' hi
      split_ifs
      · exact forall_mem_set h ⟨by simp [known],answer⟩
      · exact h
    · exact h
  | write i =>
    simp only [Service.step]
    split
    · next x req st resp hi =>
      obtain ⟨known, answer⟩ : x.request = some req ∧ x.live st = .ok resp := at' hi
      split_ifs
      · exact h
      · exact forall_mem_set h ⟨by simp [known],(written_ok answer).symm⟩
    · next x st resp call hi =>
      obtain ⟨known, answer⟩ : x.request ≠ none ∧ x.live st = .ok resp := at' hi
      split_ifs
      · exact forall_mem_set h ⟨known,(written_ok answer).symm⟩
      · exact h
    · exact h
  | queue a =>
    simp only [Service.step]
    split <;> exact h
  | execute w resp now insertion =>
    simp only [Service.step]
    split
    · split
      · next sc _ =>
        intro q hq
        rw [insert_requests] at hq
        exact h q hq
      · exact h
    · exact h
  | install st => exact h

/-- With the canary off the state has no say in the answer. -/
theorem written_off (x : Arrival F) {st : State} (off : st.canaryEnabled = false) :
    x.written st = match x.champion with
      | .error _ => upstreamFailed
      | .ok resp => passedOn .champion resp := by
  have live : (st.decide x.rnd).1 = .champion := (st.decide_champion x.rnd).mpr (by simp [off])
  simp only [Arrival.written, Arrival.live, live]

/-- Two handlers of the same request, draw and champion answer, both with the canary off,
write the same, whatever the shadow percentage, the queue, the challenger and the store do. -/
theorem shadow_zero_impact (p₁ p₂ : Service F) (as₁ as₂ : List (ServiceAction F))
    (new₁ : p₁.requests = []) (new₂ : p₂.requests = []) {q₁ q₂ : Request F}
    (h₁ : q₁ ∈ (run Service.step p₁ as₁).requests) (h₂ : q₂ ∈ (run Service.step p₂ as₂).requests)
    (body : q₁.arrival.body = q₂.arrival.body)
    (champion : q₁.arrival.champion = q₂.arrival.champion) {st₁ st₂ : Option State}
    {w₁ w₂ : Written F} (done₁ : q₁.phase = .done st₁ w₁) (done₂ : q₂.phase = .done st₂ w₂)
    (off₁ : ∀ st ∈ st₁, st.canaryEnabled = false) (off₂ : ∀ st ∈ st₂, st.canaryEnabled = false) :
    w₁ = w₂ := by
  have sound (p : Service F) (as : List (ServiceAction F)) (new : p.requests = []) :
      (run Service.step p as).Sound := by
    apply always_last Service.step
    refine always_of_step Service.step (fun p a h => step_sound h a) ?_ as
    intro q hq
    rw [new] at hq
    cases hq
  have same : q₁.arrival.request = q₂.arrival.request := congrArg (Option.filter _) body
  have s₁ := sound p₁ as₁ new₁ q₁ h₁
  have s₂ := sound p₂ as₂ new₂ q₂ h₂
  obtain ⟨x₁, phase₁⟩ := q₁
  obtain ⟨x₂, phase₂⟩ := q₂
  subst done₁ done₂
  cases st₁ with
  | none =>
    cases st₂ with
    | none => exact s₁.2.trans s₂.2.symm
    | some st₂ => exact absurd (same ▸ s₁.1) s₂.1
  | some st₁ =>
    cases st₂ with
    | none => exact absurd (same ▸ s₂.1) s₁.1
    | some st₂ =>
      have answer : x₁.champion = x₂.champion := champion
      rw [s₁.2, s₂.2, written_off x₁ (off₁ st₁ rfl), written_off x₂ (off₂ st₂ rfl), answer]

section Sample

def smallService (st : State) : Service Exact := ⟨st,NewDispatcher 1 1,[],some [],0,[],[]⟩

def smallResponse (version : String) : ScoreResponse Exact :=
  ⟨7,"p1",some (1/2),true,version,some 0⟩

def smallArrival (challenger : Scored Exact) : Arrival Exact :=
  ⟨some ⟨7⟩,0,.ok (smallResponse "c1"),challenger⟩

/-- One handler enqueues a shadow task, which is executed before the answer is written. -/
def shadowedRun : Service Exact :=
  run Service.step (smallService ⟨false,0,100⟩)
    [.arrive (smallArrival (.ok (smallResponse "k1"))),.start 0,.upstream 0,.dispatch 0,
      .queue (.send 0),.queue (.receive 0),.execute 0 (.ok (smallResponse "k1")) 5 .delivered,
      .queue (.finish 0),.write 0]

def plainRun : Service Exact :=
  run Service.step (smallService ⟨false,0,0⟩)
    [.arrive (smallArrival (.error ⟨.timeout,"deadline"⟩)),.start 0,.upstream 0,.write 0]

theorem shadowedRun_requests : shadowedRun.requests =
    [⟨smallArrival (.ok (smallResponse "k1")),
      .done (some ⟨false,0,100⟩) (passedOn .champion (smallResponse "c1"))⟩] := by with_unfolding_all rfl

theorem plainRun_requests : plainRun.requests =
    [⟨smallArrival (.error ⟨.timeout,"deadline"⟩),
      .done (some ⟨false,0,0⟩) (passedOn .champion (smallResponse "c1"))⟩] := rfl

end Sample

theorem shadow_zero_impact_small :
    ∃ q₁ ∈ shadowedRun.requests, ∃ q₂ ∈ plainRun.requests, ∃ st₁ st₂ w₁ w₂,
      q₁.phase = .done st₁ w₁ ∧ q₂.phase = .done st₂ w₂ ∧ w₁ = w₂ := by
  have h₁ := List.mem_of_mem_head? (congrArg List.head? shadowedRun_requests)
  have h₂ := List.mem_of_mem_head? (congrArg List.head? plainRun_requests)
  exact ⟨_,h₁,_,h₂,_,_,_,_,rfl,rfl,
    shadow_zero_impact _ _ _ _ rfl rfl h₁ h₂ rfl rfl rfl rfl
      (fun _ h => Option.some.inj h ▸ rfl) (fun _ h => Option.some.inj h ▸ rfl)⟩

end FraudPlatform.Router
