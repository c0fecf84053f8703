import FraudPlatform.Serving.StoreProof

namespace FraudPlatform.Serving.Shutdown

open Framework

variable {F V : Type} [Binary64 F]

/-- A score request, from the open connection to the end of its logging goroutine. -/
inductive Request (F : Type)
  /-- The handler runs or is about to: decoding, the feature lookup. -/
  | accepted
  /-- Inside `Swappable.Score`, with the read lock held. -/
  | inferring
  /-- The handler has returned an error. -/
  | failed (status : Nat)
  | scored (x : Scored F)
  /-- Answered 200, before `logWg.Add`. -/
  | responded (x : Scored F) (response : ScoreResponse F)
  /-- The handler has returned, the goroutine is before its call of `Log`. -/
  | spawned (x : Scored F) (response : ScoreResponse F)
  | logging (response : ScoreResponse F) (record : Record F) (call : Nat)
  /-- The goroutine is through `logWg.Done`. -/
  | logged (response : ScoreResponse F) (record : Record F) (call : Nat)
  /-- It went through the nil runner. -/
  | panicked

/-- Where `main` stands after the signal. -/
inductive Main
  | serving
  /-- Inside `httpServer.Shutdown`. -/
  | httpShutdown
  /-- Inside `Drain`. -/
  | draining
  | drained
  /-- Inside `store.Shutdown`. -/
  | storeShutdown
  | storeDown
  | poolClosed
  | destroyed
  | exited
  deriving DecidableEq, Repr

/-- The serving process; `r` is nil once `runner.Destroy` has run. -/
structure Process (F : Type) where
  main : Main
  store : Store F
  r : Option Runner
  requests : List (Request F)

/-- The steps of the handlers and goroutines, by request, of the log and of `main`. -/
inductive Action (F V : Type)
  | accept
  | fail (i : Nat) (status : Nat)
  | infer (i : Nat)
  /-- What the inference answers. -/
  | inferred (i : Nat) (result : Except Nat (Scored F))
  | respond (i : Nat)
  | spawn (i : Nat)
  | log (i : Nat) (createdAt : Int)
  | done (i : Nat)
  | store (a : StoreAction F)
  | signal
  | httpReturned (gaveUp : Bool)
  | drain
  | closeStore
  | storeReturned
  | closePool
  | destroy
  | exit

def Request.handlerRuns : Request F → Bool
  | .accepted | .inferring | .scored _ | .responded _ _ => true
  | _ => false

/-- Counted by `logWg`. -/
def Request.outstanding : Request F → Bool
  | .spawned _ _ | .logging _ _ _ => true
  | _ => false

def Request.holdsReadLock : Request F → Bool
  | .inferring => true
  | _ => false

def Process.set (s : Process F) (i : Nat) (q : Request F) : Process F :=
  { s with requests := s.requests.set i q }

/-- The steps of the log itself; its context is never cancelled, and it is called and shut
down elsewhere. -/
def internal : StoreAction F → Bool
  | .log _ | .cancel _ | .close | .wait => false
  | _ => true

def Process.step (H : Scorer F V) (s : Process F) (a : Action F V) : Process F :=
  if s.main = .exited then s
  else
    match a with
    | .accept =>
      -- The listeners are closed first, but an open connection may still become active.
      if s.main = .serving ∨ s.main = .httpShutdown then
        { s with requests := s.requests ++ [.accepted] }
      else s
    | .fail i status =>
      match s.requests[i]? with
      | some .accepted => s.set i (.failed status)
      | _ => s
    | .infer i =>
      match s.requests[i]? with
      | some .accepted =>
        match s.r with
        | some _ => s.set i .inferring
        | none => s.set i .panicked
      | _ => s
    | .inferred i result =>
      match s.requests[i]? with
      | some .inferring =>
        match result with
        | .error status => s.set i (.failed status)
        | .ok x => s.set i (.scored x)
      | _ => s
    | .respond i =>
      match s.requests[i]? with
      | some (.scored x) =>
        match s.r with
        | some r => s.set i (.responded x (H.response x r.modelVersion))
        | none => s.set i .panicked
      | _ => s
    | .spawn i =>
      match s.requests[i]? with
      | some (.responded x response) => s.set i (.spawned x response)
      | _ => s
    | .log i createdAt =>
      match s.requests[i]? with
      | some (.spawned x response) =>
        match s.r with
        | some r =>
          let record := H.record x r.modelVersion createdAt
          { s with store := s.store.step (.log record) }.set i
            (.logging response record s.store.ch.calls.length)
        | none => { s.set i .panicked with main := .exited }
      | _ => s
    | .done i =>
      match s.requests[i]? with
      | some (.logging response record call) =>
        match s.store.ch.calls[call]? with
        | some (.accepted _) | some (.refused _ _) => s.set i (.logged response record call)
        | _ => s
      | _ => s
    | .store a => if internal a then { s with store := s.store.step a } else s
    | .signal => if s.main = .serving then { s with main := .httpShutdown } else s
    | .httpReturned gaveUp =>
      if s.main = .httpShutdown ∧ (gaveUp ∨ ¬s.requests.any (·.handlerRuns)) then
        { s with main := .draining }
      else s
    | .drain =>
      if s.main = .draining ∧ ¬s.requests.any (·.outstanding) then { s with main := .drained }
      else s
    | .closeStore =>
      if s.main = .drained then { s with main := .storeShutdown, store := s.store.step .close }
      else s
    | .storeReturned =>
      if s.main = .storeShutdown ∧ s.store.flusher = .exited then
        { s with main := .storeDown, store := s.store.step .wait }
      else s
    | .closePool => if s.main = .storeDown then { s with main := .poolClosed } else s
    | .destroy =>
      -- The write lock waits for every inference.
      if s.main = .poolClosed ∧ ¬s.requests.any (·.holdsReadLock) then
        { s with main := .destroyed, r := none }
      else s
    | .exit => if s.main = .destroyed then { s with main := .exited } else s

end FraudPlatform.Serving.Shutdown
