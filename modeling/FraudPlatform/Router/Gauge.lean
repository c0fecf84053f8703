import FraudPlatform.Framework.Slots
import FraudPlatform.Router.Startup

namespace FraudPlatform.Router

open Framework

/-- How far a request to `POST /admin/canary` has come. -/
inductive Progress
  /-- Past the checks. -/
  | accepted (req : AdminCanaryRequest)
  /-- Its state is installed, the gauge is still as it was. -/
  | installed (req : AdminCanaryRequest)
  | replying (reply : Reply AdminCanaryRequest)
  | answered (reply : Reply AdminCanaryRequest)
  deriving DecidableEq, Repr

/-- The state or the gauge is still to be written. -/
def Progress.writing : Progress → Bool
  | .accepted _ | .installed _ => true
  | .replying _ | .answered _ => false

def Progress.done : Progress → Bool
  | .answered _ => true
  | _ => false

/-- What the checks make of a request. -/
def Progress.checked : Reply AdminCanaryRequest → Progress
  | .ok req => .accepted req
  | .error status text => .replying (.error status text)

/-- The router with the admin requests it has had so far, each in a goroutine of its own. -/
structure Admin where
  handler : Handler
  requests : List Progress

inductive AdminStep
  | request (r : AdminRequest)
  /-- `h.state.Store` -/
  | store (i : Nat)
  /-- `metrics.CanaryTrafficPercent.Set` -/
  | set (i : Nat)
  | respond (i : Nat)

/-- The router `main` starts. -/
def Admin.new (cfg : Config) : Admin := ⟨start cfg,[]⟩

def Admin.step (s : Admin) : AdminStep → Admin
  | .request r => { s with requests := s.requests ++ [.checked (reply s.handler r)] }
  | .store i =>
    match s.requests[i]? with
    | some (.accepted req) =>
      ⟨{ s.handler with state := req.toState },s.requests.set i (.installed req)⟩
    | _ => s
  | .set i =>
    match s.requests[i]? with
    | some (.installed req) =>
      ⟨{ s.handler with canaryTrafficPercent := req.challengerTrafficPercent },
        s.requests.set i (.replying (.ok req))⟩
    | _ => s
  | .respond i =>
    match s.requests[i]? with
    | some (.replying reply) => { s with requests := s.requests.set i (.answered reply) }
    | _ => s

/-- No admin request is in progress. -/
def Admin.Idle (s : Admin) : Prop := ∀ p ∈ s.requests, p.done = true

instance (s : Admin) : Decidable s.Idle := inferInstanceAs (Decidable (∀ _ ∈ _, _))

/-- The gauge shows the installed percentage. -/
def Admin.Agrees (s : Admin) : Prop :=
  s.handler.canaryTrafficPercent = s.handler.state.challengerTrafficPercent

def Admin.Truthful (s : Admin) : Prop := s.Idle → s.Agrees

/-- A request that sets the gauge while no other one has a write to come finds the percentage
installed that it asked for itself. -/
def Settles (s : Admin) : AdminStep → Prop
  | .set i => ∀ req, s.requests[i]? = some (.installed req) →
    (∀ j p, s.requests[j]? = some p → p.writing = true → j = i) →
    req.challengerTrafficPercent = s.handler.state.challengerTrafficPercent
  | _ => True

/-- What one step can do. -/
inductive Admin.Stepped (s : Admin) : AdminStep → Admin → Prop
  | idle {e : AdminStep} : Stepped s e s
  | requested (r : AdminRequest) :
    Stepped s (.request r) { s with requests := s.requests ++ [.checked (reply s.handler r)] }
  | stored {i : Nat} {req : AdminCanaryRequest} (hi : s.requests[i]? = some (.accepted req)) :
    Stepped s (.store i)
      ⟨{ s.handler with state := req.toState },s.requests.set i (.installed req)⟩
  | gauged {i : Nat} {req : AdminCanaryRequest} (hi : s.requests[i]? = some (.installed req)) :
    Stepped s (.set i)
      ⟨{ s.handler with canaryTrafficPercent := req.challengerTrafficPercent },
        s.requests.set i (.replying (.ok req))⟩
  | responded {i : Nat} {reply : Reply AdminCanaryRequest}
    (hi : s.requests[i]? = some (.replying reply)) :
    Stepped s (.respond i) { s with requests := s.requests.set i (.answered reply) }

theorem Admin.step_stepped (s : Admin) (e : AdminStep) : s.Stepped e (s.step e) := by
  cases e with
  | request r => exact .requested r
  | store i =>
    simp only [Admin.step]
    split
    · next req hi => exact .stored hi
    · exact .idle
  | set i =>
    simp only [Admin.step]
    split
    · next req hi => exact .gauged hi
    · exact .idle
  | respond i =>
    simp only [Admin.step]
    split
    · next reply hi => exact .responded hi
    · exact .idle

/-- A request with the router to itself does what `handleAdminCanary` does. -/
theorem run_alone (s : Admin) (r : AdminRequest) :
    run Admin.step s [.request r,.store s.requests.length,.set s.requests.length,
      .respond s.requests.length] =
      ⟨serve s.handler r,s.requests ++ [.answered (reply s.handler r)]⟩ := by
  obtain ⟨req, _, _, he⟩ | ⟨status, text, he⟩ := handleAdminCanary_cases r.token r.body s.handler
  · have ok : reply s.handler r = .ok req := by rw [reply, he]
    have served : serve s.handler r = { s.handler with
        state := req.toState, canaryTrafficPercent := req.challengerTrafficPercent } := by
      rw [serve, he]
    simp [Admin.step, ok, served, Progress.checked]
  · have refused : reply s.handler r = .error status text := by rw [reply, he]
    have served : serve s.handler r = s.handler := by rw [serve, he]
    simp [Admin.step, refused, served, Progress.checked]

section Invariant

variable {s : Admin}

/-- The gauge is right, or a request is on its way to it. -/
def Admin.Tracked (s : Admin) : Prop := s.Agrees ∨ ∃ p ∈ s.requests, p.writing = true

theorem tracked_new {cfg : Config} (zero : cfg.initialCanaryPercent = 0) :
    (Admin.new cfg).Tracked := Or.inl zero.symm

theorem truthful_of_tracked (h : s.Tracked) : s.Truthful := by
  intro idle
  obtain agrees | ⟨p, hp, writing⟩ := h
  · exact agrees
  · have done := idle p hp
    cases p with
    | accepted req => cases done
    | installed req => cases done
    | replying reply => cases writing
    | answered reply => cases writing

theorem step_tracked (e : AdminStep) (h : s.Tracked) (settles : Settles s e) :
    (s.step e).Tracked := by
  generalize hs : s.step e = s'
  have stepped := s.step_stepped e
  rw [hs] at stepped
  cases stepped with
  | idle => exact h
  | requested r =>
    obtain agrees | ⟨p, hp, writing⟩ := h
    · exact Or.inl agrees
    · exact Or.inr ⟨p,List.mem_append_left _ hp,writing⟩
  | @stored i req hi =>
    exact Or.inr ⟨_,List.mem_set (List.getElem?_eq_some_iff.mp hi).1 _,rfl⟩
  | @gauged i req hi =>
    by_cases alone : ∀ j p, s.requests[j]? = some p → p.writing = true → j = i
    · exact Or.inl (settles req hi alone)
    · simp only [not_forall] at alone
      obtain ⟨j, p, hj, writing, other⟩ := alone
      refine Or.inr ⟨p,List.mem_iff_getElem?.mpr ⟨j,?_⟩,writing⟩
      rw [List.getElem?_set_ne (Ne.symm other), hj]
  | @responded i reply hi =>
    obtain agrees | ⟨p, hp, writing⟩ := h
    · exact Or.inl agrees
    · refine Or.inr ⟨p,mem_set_of_ne hi hp ?_,writing⟩
      intro same
      rw [same] at writing
      cases writing

end Invariant

section Replies

/-- A reply that was left to write is written. -/
def Progress.reply : Progress → Progress
  | .replying reply => .answered reply
  | p => p

/-- The replies of all the requests. -/
def Admin.replies (s : Admin) : List AdminStep := (List.range s.requests.length).map .respond

theorem step_respond (s : Admin) (i : Nat) :
    s.step (.respond i) = { s with requests := s.requests.modify i Progress.reply } := by
  cases hi : s.requests[i]? with
  | none =>
    have beyond : s.requests.modify i Progress.reply = s.requests := by
      rw [List.modify_eq_set_getElem?, hi]
      rfl
    simp only [Admin.step, hi, beyond]
  | some p =>
    have same : s.requests.modify i Progress.reply = s.requests.set i p.reply := by
      rw [List.modify_eq_set_getElem?, hi]
      rfl
    have kept : s.requests.set i p = s.requests := by
      obtain ⟨bound, get⟩ := List.getElem?_eq_some_iff.mp hi
      rw [← get, List.set_getElem_self]
    rw [same]
    cases p with
    | replying reply => simp only [Admin.step, hi, Progress.reply]
    | accepted req => simp only [Admin.step, hi, Progress.reply, kept]
    | installed req => simp only [Admin.step, hi, Progress.reply, kept]
    | answered reply => simp only [Admin.step, hi, Progress.reply, kept]

theorem run_responds (s : Admin) (k : Nat) :
    (run Admin.step s ((List.range k).map .respond)).handler = s.handler ∧
      ∀ j, (run Admin.step s ((List.range k).map .respond)).requests[j]? =
        (s.requests[j]?).map fun p => if j < k then p.reply else p := by
  induction k with
  | zero => exact ⟨rfl,fun j => by simp⟩
  | succ k ih =>
    obtain ⟨handler, requests⟩ := ih
    rw [List.range_succ, List.map_append, List.map_singleton, run_concat, step_respond]
    refine ⟨handler,fun j => ?_⟩
    rw [List.getElem?_modify, requests j, Option.map_eq_map, Option.map_map]
    congr 1
    funext p
    by_cases last : k = j
    · simp [last]
    · have split : j < k + 1 ↔ j < k := by omega
      simp [last, split]

/-- Once all the writes are made, the replies change neither state nor gauge. -/
theorem run_replies {s : Admin} (written : ∀ p ∈ s.requests, p.writing = false) :
    (run Admin.step s s.replies).handler = s.handler ∧ (run Admin.step s s.replies).Idle := by
  obtain ⟨handler, requests⟩ := run_responds s s.requests.length
  refine ⟨handler,?_⟩
  intro p hp
  obtain ⟨j, hj⟩ := List.mem_iff_getElem?.mp hp
  rw [Admin.replies, requests j, Option.map_eq_some_iff] at hj
  obtain ⟨q, hq, same⟩ := hj
  have done := written q (List.mem_of_getElem? hq)
  rw [if_pos (List.getElem?_eq_some_iff.mp hq).1] at same
  rw [← same]
  cases q with
  | accepted req => cases done
  | installed req => cases done
  | replying reply => rfl
  | answered reply => rfl

end Replies

section Exclusive

variable {s : Admin}

/-- A request installs its state only when no other one is between its two writes. -/
def Exclusive (s : Admin) : AdminStep → Prop
  | .store _ => ∀ req, Progress.installed req ∉ s.requests
  | _ => True

/-- Whoever is between its two writes was the last to install a state. -/
def Admin.Held (s : Admin) : Prop :=
  ∀ req, Progress.installed req ∈ s.requests → req.toState = s.handler.state

theorem step_held (e : AdminStep) (h : s.Held) (exclusive : Exclusive s e) : (s.step e).Held := by
  generalize hs : s.step e = s'
  have stepped := s.step_stepped e
  rw [hs] at stepped
  intro req hm
  cases stepped with
  | idle => exact h req hm
  | requested r =>
    obtain old | new := List.mem_append.mp hm
    · exact h req old
    · have checked := List.mem_singleton.mp new
      cases hr : reply s.handler r with
      | ok body =>
        rw [hr] at checked
        cases checked
      | error status text =>
        rw [hr] at checked
        cases checked
  | stored hi =>
    obtain old | new := List.mem_or_eq_of_mem_set hm
    · exact absurd old (exclusive req)
    · cases new
      rfl
  | gauged hi =>
    obtain old | new := List.mem_or_eq_of_mem_set hm
    · exact h req old
    · cases new
  | responded hi =>
    obtain old | new := List.mem_or_eq_of_mem_set hm
    · exact h req old
    · cases new

theorem settles_of_held (e : AdminStep) (h : s.Held) : Settles s e := by
  cases e with
  | set i =>
    intro req hi _
    exact congrArg State.challengerTrafficPercent (h req (List.mem_of_getElem? hi))
  | request r => exact trivial
  | store i => exact trivial
  | respond i => exact trivial

/-- One lock around the two writes is enough. -/
theorem truthful_of_exclusive {cfg : Config} {es : List AdminStep}
    (zero : cfg.initialCanaryPercent = 0)
    (exclusive : Throughout Admin.step Exclusive (Admin.new cfg) es) :
    Always Admin.step Admin.Truthful (Admin.new cfg) es := by
  have kept : Always Admin.step (fun s => s.Held ∧ s.Tracked) (Admin.new cfg) es :=
    always_of_throughout Admin.step
      (fun s e h ok => ⟨step_held e h.1 ok,step_tracked e h.2 (settles_of_held e h.1)⟩)
      ⟨nofun,tracked_new zero⟩ exclusive
  exact always_imp Admin.step (fun s h => truthful_of_tracked h.2) kept

end Exclusive

section Runs

variable {cfg : Config} {es : List AdminStep}

theorem truthful_of_settles (zero : cfg.initialCanaryPercent = 0)
    (settles : Throughout Admin.step Settles (Admin.new cfg) es) :
    Always Admin.step Admin.Truthful (Admin.new cfg) es :=
  always_imp Admin.step (fun _ => truthful_of_tracked)
    (always_of_throughout Admin.step (fun _ e => step_tracked e) (tracked_new zero) settles)

theorem settles_respond (s : Admin) (is : List Nat) :
    Throughout Admin.step Settles s (is.map .respond) := by
  induction is generalizing s with
  | nil => exact trivial
  | cons i is ih => exact ⟨trivial,ih _⟩

/-- A step that does not settle leaves a wrong gauge for the time after the replies. -/
theorem settles_of_truthful {s : Admin} {e : AdminStep}
    (h : (run Admin.step (s.step e) (s.step e).replies).Truthful) : Settles s e := by
  cases e with
  | set i =>
    intro req hi alone
    have stepped : s.step (.set i) =
        ⟨{ s.handler with canaryTrafficPercent := req.challengerTrafficPercent },
          s.requests.set i (.replying (.ok req))⟩ := by
      simp only [Admin.step, hi]
    have written : ∀ p ∈ (s.step (.set i)).requests, p.writing = false := by
      intro p hp
      rw [stepped] at hp
      obtain ⟨j, hj⟩ := List.mem_iff_getElem?.mp hp
      by_cases same : i = j
      · rw [← same, List.getElem?_set_self (List.getElem?_eq_some_iff.mp hi).1] at hj
        cases hj
        rfl
      · rw [List.getElem?_set_ne same] at hj
        apply Bool.eq_false_iff.mpr
        intro writing
        exact same (alone j p hj writing).symm
    obtain ⟨handler, idle⟩ := run_replies written
    have agrees := h idle
    rw [Admin.Agrees, handler, stepped] at agrees
    exact agrees
  | request r => exact trivial
  | store i => exact trivial
  | respond i => exact trivial

end Runs

/-- The gauge tells the truth in every run that starts at zero percent and whose steps settle. Any
other run has a moment at which nothing but replies is left to write and the gauge is wrong. -/
theorem gauge_truthful_iff (cfg : Config) (es : List AdminStep) :
    (cfg.initialCanaryPercent = 0 ∧ Throughout Admin.step Settles (Admin.new cfg) es →
      Always Admin.step Admin.Truthful (Admin.new cfg) es) ∧
    (cfg.initialCanaryPercent = 0 ∧ Throughout Admin.step Settles (Admin.new cfg) es ↔
      ∀ pre post, es = pre ++ post → Always Admin.step Admin.Truthful (Admin.new cfg)
        (pre ++ (run Admin.step (Admin.new cfg) pre).replies)) := by
  refine ⟨fun h => truthful_of_settles h.1 h.2,?_,?_⟩
  · intro h pre post he
    obtain ⟨zero, settles⟩ := h
    rw [he, throughout_append] at settles
    apply truthful_of_settles zero
    rw [throughout_append]
    exact ⟨settles.1,settles_respond _ _⟩
  · intro h
    constructor
    · have fresh : (Admin.new cfg).Truthful := always_head Admin.step (h [] es rfl)
      exact (fresh nofun).symm
    · rw [throughout_iff_split]
      intro pre e post he
      have always := h (pre ++ [e]) post (by rw [he, List.append_assoc, List.singleton_append])
      have last := always_last Admin.step always
      rw [run_append, run_concat] at last
      exact settles_of_truthful last

section Sample

/-- Two operators, one asking for 10 percent and one for 50. -/
def twoOperators (writes : List AdminStep) : List AdminStep :=
  [.request ⟨"t",some ⟨true,10,0⟩⟩,.request ⟨"t",some ⟨true,50,0⟩⟩] ++ writes ++
    [.respond 0,.respond 1]

def canaryEnv (percent : String) : Env := fun key =>
  if key = "INITIAL_CANARY_PERCENT" then percent else shadowedEnv "20" key

end Sample

/-- The one that installs its state first also sets the gauge first. -/
theorem gauge_truthful_small : Always Admin.step Admin.Truthful (Admin.new (shadowedConfig 20))
    (twoOperators [.store 0,.store 1,.set 0,.set 1]) := by
  refine (gauge_truthful_iff (shadowedConfig 20) _).1
    ⟨rfl,trivial,trivial,trivial,trivial,?_,?_,trivial,trivial,trivial⟩
  · intro req hi alone
    exact absurd (alone 1 _ rfl rfl) (by decide)
  · intro req hi _
    cases hi
    rfl

/-- The other way round the gauge stays at 10 percent with 50 installed; and a router started with
10 percent shows none. -/
theorem gauge_untruthful :
    load (shadowedEnv "20") = .ok (shadowedConfig 20) ∧
    ¬Always Admin.step Admin.Truthful (Admin.new (shadowedConfig 20))
      (twoOperators [.store 0,.store 1,.set 1,.set 0]) ∧
    load (canaryEnv "10") = .ok { shadowedConfig 20 with initialCanaryPercent := 10 } ∧
    ¬Always Admin.step Admin.Truthful
      (Admin.new { shadowedConfig 20 with initialCanaryPercent := 10 }) [] := by
  refine ⟨by decide +kernel,?_,by decide +kernel,?_⟩
  · intro always
    have idle : (run Admin.step (Admin.new (shadowedConfig 20))
        (twoOperators [.store 0,.store 1,.set 1,.set 0])).Idle := by decide +kernel
    have agrees : (10 : Int) = 50 := always_last Admin.step always idle
    cases agrees
  · intro always
    have agrees : (0 : Int) = 10 := always_last Admin.step always nofun
    cases agrees

end FraudPlatform.Router
