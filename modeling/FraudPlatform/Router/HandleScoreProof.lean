import FraudPlatform.Router.HandleScore

namespace FraudPlatform.Router

open Framework

variable {F : Type} {p p' : Service F} {a : ServiceAction F}

def Scored.status : Scored F → String
  | .ok _ => "200"
  | .error _ => "error"

def Scored.kind : Scored F → Option String
  | .ok _ => none
  | .error ue => some ue.kind.text

/-- The increments of the two counters for one answer of an upstream. -/
def Service.count (p : Service F) (upstreamName : String) (answer : Scored F) : Service F :=
  { p with
    requestsTotal := p.requestsTotal ++ [(upstreamName,upstreamName,answer.status)]
    upstreamErrorsTotal := p.upstreamErrorsTotal ++ (answer.kind.map (upstreamName,·)).toList }

/-- What a step of the router does when it does anything. -/
inductive Service.Stepped (p : Service F) : ServiceAction F → Service F → Prop
  | idle {a : ServiceAction F} : Stepped p a p
  | arrived (x : Arrival F) :
    Stepped p (.arrive x) { p with requests := p.requests ++ [⟨x,.received⟩] }
  | refused {i : Nat} {x : Arrival F} (hi : p.requests[i]? = some ⟨x,.received⟩)
    (hr : x.request = none) : Stepped p (.start i) (p.set i x (.done none badRequest))
  | started {i : Nat} {x : Arrival F} {req : ScoreRequest}
    (hi : p.requests[i]? = some ⟨x,.received⟩) (hr : x.request = some req) :
    Stepped p (.start i) (p.set i x (.forwarding req p.state))
  | failed {i : Nat} {x : Arrival F} {req : ScoreRequest} {st : State} {ue : UpstreamError}
    (hi : p.requests[i]? = some ⟨x,.forwarding req st⟩) (hl : x.live st = .error ue) :
    Stepped p (.upstream i)
      ((p.count (st.decide x.rnd).1.text (x.live st)).set i x (.done (some st) upstreamFailed))
  | answered {i : Nat} {x : Arrival F} {req : ScoreRequest} {st : State} {resp : ScoreResponse F}
    (hi : p.requests[i]? = some ⟨x,.forwarding req st⟩) (hl : x.live st = .ok resp) :
    Stepped p (.upstream i)
      ((p.count (st.decide x.rnd).1.text (x.live st)).set i x (.answered req st resp))
  | dispatched {i : Nat} {x : Arrival F} {req : ScoreRequest} {st : State}
    {resp : ScoreResponse F} (hi : p.requests[i]? = some ⟨x,.answered req st resp⟩)
    (hs : x.doShadow st = true) :
    Stepped p (.dispatch i)
      ({ p with dispatcher := p.dispatcher.step (.dispatch (shadowTask req resp)) }.set i x
        (.dispatching st resp p.dispatcher.ch.calls.length))
  | wrote {i : Nat} {x : Arrival F} {req : ScoreRequest} {st : State} {resp : ScoreResponse F}
    (hi : p.requests[i]? = some ⟨x,.answered req st resp⟩) (hs : x.doShadow st = false) :
    Stepped p (.write i) (p.set i x (.done (some st) (passedOn (st.decide x.rnd).1 resp)))
  | wroteShadowed {i : Nat} {x : Arrival F} {st : State} {resp : ScoreResponse F} {call : Nat}
    (hi : p.requests[i]? = some ⟨x,.dispatching st resp call⟩)
    (hc : call ∈ p.dispatcher.returned.map Prod.fst) :
    Stepped p (.write i) (p.set i x (.done (some st) (passedOn (st.decide x.rnd).1 resp)))
  | queued (a : DispatcherAction (Task F)) (hd : ∀ t, a ≠ .dispatch t) (he : ∀ w, a ≠ .executed w) :
    Stepped p (.queue a) { p with dispatcher := p.dispatcher.step a }
  | executed {w : Nat} {t : Posted (Task F)} {drain : Bool} {resp : Scored F}
    {now : Int} {insertion : Fate} (hw : p.dispatcher.workers[w]? = some (.executing t drain))
    (ht : t.item.execute resp = none) :
    Stepped p (.execute w resp now insertion)
      { p with dispatcher := p.dispatcher.step (.executed w) }
  | compared {w : Nat} {t : Posted (Task F)} {drain : Bool} {resp : Scored F}
    {now : Int} {insertion : Fate} {sc : ShadowComparison F}
    (hw : p.dispatcher.workers[w]? = some (.executing t drain))
    (ht : t.item.execute resp = some sc) :
    Stepped p (.execute w resp now insertion)
      ({ p with dispatcher := p.dispatcher.step (.executed w) }.insert sc now insertion)
  | installed (st : State) : Stepped p (.install st) { p with state := st }

theorem Service.stepped (p : Service F) (a : ServiceAction F) : p.Stepped a (p.step a) := by
  cases a with
  | arrive x => exact .arrived x
  | start i =>
    simp only [Service.step]
    split
    · next x hi =>
      split
      · next hr => exact .refused hi hr
      · next req hr => exact .started hi hr
    · exact .idle
  | upstream i =>
    simp only [Service.step]
    split
    · next x req st hi =>
      split
      · next ue hl =>
        have stepped := Service.Stepped.failed hi hl
        rw [hl] at stepped
        exact stepped
      · next resp hl =>
        have stepped := Service.Stepped.answered hi hl
        have quiet : (p.count (st.decide x.rnd).1.text (x.live st)).upstreamErrorsTotal =
            p.upstreamErrorsTotal := by
          rw [hl]
          exact List.append_nil _
        rw [Service.count, Service.set] at stepped
        simp only [Service.count] at quiet
        rw [quiet, hl] at stepped
        exact stepped
    · exact .idle
  | dispatch i =>
    simp only [Service.step]
    split
    · next x req st resp hi =>
      split_ifs with hs
      · exact .dispatched hi hs
      · exact .idle
    · exact .idle
  | write i =>
    simp only [Service.step]
    split
    · next x req st resp hi =>
      split_ifs with hs
      · exact .idle
      · exact .wrote hi (by simpa using hs)
    · next x st resp call hi =>
      split_ifs with hc
      · exact .wroteShadowed hi hc
      · exact .idle
    · exact .idle
  | queue a =>
    simp only [Service.step]
    split
    · exact .idle
    · exact .idle
    · next hd he => exact .queued a hd he
  | execute w resp now insertion =>
    simp only [Service.step]
    split
    · next t drain hw =>
      split
      · next sc ht => exact .compared hw ht
      · next ht => exact .executed hw ht
    · exact .idle
  | install st => exact .installed st

/-- The state a handler goes by, once it has loaded one. -/
def Phase.snapshot : Phase F → Option State
  | .received => none
  | .forwarding _ st | .answered _ st _ | .dispatching st _ _ => some st
  | .done st _ => st

def Service.Loaded (p : Service F) (i : Nat) (x : Arrival F) (st : State) : Prop :=
  ∃ phase, p.requests[i]? = some ⟨x,phase⟩ ∧ phase.snapshot = some st

variable {i j : Nat} {x y : Arrival F} {st : State} {phase phase' : Phase F}

/-- A step of the handler `j` loads no state for another one, nor a new one for itself. -/
theorem loaded_set {q : Service F} (h : q.Loaded i x st)
    (moved : q.requests = p.requests.set j ⟨y,phase'⟩) (hj : p.requests[j]? = some ⟨y,phase⟩)
    (same : phase'.snapshot = phase.snapshot) : p.Loaded i x st := by
  obtain ⟨ph, hi, loaded⟩ := h
  rw [moved] at hi
  by_cases ne : j = i
  · subst ne
    rw [List.getElem?_set_self (List.getElem?_eq_some_iff.mp hj).1] at hi
    cases hi
    exact ⟨phase,hj,same ▸ loaded⟩
  · rw [List.getElem?_set_ne ne] at hi
    exact ⟨ph,hi,loaded⟩

/-- A state is loaded in one step, the first of its handler. -/
theorem Service.Stepped.loaded (stepped : p.Stepped a p') (h : p'.Loaded i x st) :
    p.Loaded i x st ∨
      a = .start i ∧ p.requests[i]? = some ⟨x,.received⟩ ∧ p.state = st := by
  cases stepped with
  | arrived y =>
    obtain ⟨ph, hi, loaded⟩ := h
    rw [List.getElem?_append] at hi
    split_ifs at hi with old
    · exact Or.inl ⟨ph,hi,loaded⟩
    · obtain ⟨_, eq⟩ := List.getElem?_eq_some_iff.mp hi
      rw [List.getElem_singleton] at eq
      cases eq
      cases loaded
  | refused hi _ => exact Or.inl (loaded_set h rfl hi rfl)
  | @started j y req hj _ =>
    by_cases ne : j = i
    · subst ne
      obtain ⟨ph, hi, loaded⟩ := h
      change (p.requests.set j _)[j]? = _ at hi
      rw [List.getElem?_set_self (List.getElem?_eq_some_iff.mp hj).1] at hi
      cases hi
      exact Or.inr ⟨rfl,hj,Option.some.inj loaded⟩
    · obtain ⟨ph, hi, loaded⟩ := h
      change (p.requests.set j _)[i]? = _ at hi
      rw [List.getElem?_set_ne ne] at hi
      exact Or.inl ⟨ph,hi,loaded⟩
  | failed hi _ => exact Or.inl (loaded_set h rfl hi rfl)
  | answered hi _ => exact Or.inl (loaded_set h rfl hi rfl)
  | dispatched hi _ => exact Or.inl (loaded_set h rfl hi rfl)
  | wrote hi _ => exact Or.inl (loaded_set h rfl hi rfl)
  | wroteShadowed hi _ => exact Or.inl (loaded_set h rfl hi rfl)
  | compared _ _ =>
    obtain ⟨ph, hi, loaded⟩ := h
    rw [insert_requests] at hi
    exact Or.inl ⟨ph,hi,loaded⟩
  | _ => exact Or.inl h

theorem run_sound {p : Service F} (new : p.requests = []) (as : List (ServiceAction F)) :
    (run Service.step p as).Sound := by
  apply always_last Service.step
  refine always_of_step Service.step (fun p a h => step_sound h a) ?_ as
  intro q hq
  rw [new] at hq
  cases hq

/-- An answer names the challenger just when the draw went there and it answered. -/
theorem mem_headers_challenger (x : Arrival F) (st : State) :
    ("X-Routing-Decision","challenger") ∈ (x.written st).headers ↔
      (st.canaryEnabled ∧ x.rnd * 100 < st.challengerTrafficPercent) ∧
        ∃ resp, x.challenger = .ok resp := by
  rw [← st.decide_challenger x.rnd, Arrival.written, Arrival.live]
  cases (st.decide x.rnd).1 with
  | champion => cases x.champion <;> simp [upstreamFailed, passedOn, RouteDecision.text]
  | challenger => cases x.challenger <;> simp [upstreamFailed, passedOn, RouteDecision.text]

/-- However the administrator's requests fall between the steps of a handler, its answer is that
of the one state the router held when it started; only if the canary was on then, and the draw
below its percentage, may it come from the challenger. -/
theorem answer_of_snapshot (p : Service F) (new : p.requests = []) (as : List (ServiceAction F))
    {i : Nat} {x : Arrival F} {st : State} {w : Written F}
    (h : (run Service.step p as).requests[i]? = some ⟨x,.done (some st) w⟩) :
    ∃ pre post, as = pre ++ .start i :: post ∧
      (run Service.step p pre).requests[i]? = some ⟨x,.received⟩ ∧
      (run Service.step p pre).state = st ∧ w = x.written st ∧
      (("X-Routing-Decision","challenger") ∈ w.headers ↔
        (st.canaryEnabled ∧ x.rnd * 100 < st.challengerTrafficPercent) ∧
          ∃ resp, x.challenger = .ok resp) := by
  have first : ¬p.Loaded i x st := by
    intro loaded
    obtain ⟨ph, hi, _⟩ := loaded
    rw [new] at hi
    cases hi
  have last : (run Service.step p as).Loaded i x st := ⟨_,h,rfl⟩
  obtain ⟨pre, a, post, he, before, after⟩ := exists_turn Service.step
    (P := fun q => q.Loaded i x st) first last
  obtain ⟨_, answer⟩ := run_sound new as ⟨x,.done (some st) w⟩ (List.mem_of_getElem? h)
  obtain old | ⟨rfl, received, loaded⟩ := (Service.stepped _ a).loaded after
  · exact absurd old before
  · refine ⟨pre,post,he,received,loaded,answer,?_⟩
    rw [answer]
    exact mem_headers_challenger x st

theorem answer_of_snapshot_small :
    ∃ pre post : List (ServiceAction Exact), [.arrive (smallArrival (.error ⟨.timeout,"deadline"⟩)),
        .start 0,.install ⟨true,100,0⟩,.upstream 0,.write 0] = pre ++ .start 0 :: post ∧
      (run Service.step (smallService ⟨false,0,0⟩) pre).requests[0]? =
        some ⟨smallArrival (.error ⟨.timeout,"deadline"⟩),.received⟩ ∧
      (run Service.step (smallService ⟨false,0,0⟩) pre).state = ⟨false,0,0⟩ := by
  have answered : (run Service.step (smallService ⟨false,0,0⟩)
      [.arrive (smallArrival (.error ⟨.timeout,"deadline"⟩)),.start 0,.install ⟨true,100,0⟩,
        .upstream 0,.write 0]).requests[0]? =
          some ⟨smallArrival (.error ⟨.timeout,"deadline"⟩),.done (some ⟨false,0,0⟩)
            ((smallArrival (.error ⟨.timeout,"deadline"⟩)).written ⟨false,0,0⟩)⟩ := rfl
  obtain ⟨pre, post, he, received, state, _⟩ :=
    answer_of_snapshot (smallService ⟨false,0,0⟩) rfl _ answered
  exact ⟨pre,post,he,received,state⟩

end FraudPlatform.Router
