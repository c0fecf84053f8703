import FraudPlatform.Framework.Inbox
import FraudPlatform.Framework.Run
import FraudPlatform.Serving.Score

namespace FraudPlatform.Serving

open Framework

variable {F : Type}

def drainChunkSize : Nat := 1000

/-- What `Log` returns instead of nil. -/
inductive LogError
  /-- `ctx.Err()` -/
  | cancelled
  | bufferFull
  deriving DecidableEq, Repr

/-- Where the flusher goes on when `flushWithRetry` returns. -/
inductive After
  | select
  | drain
  | exit
  deriving DecidableEq, Repr

inductive Flusher
  /-- At the outer `select`. -/
  | selecting
  /-- At the inner one, after `done`. -/
  | draining
  /-- Inside `flushFn`, at the first or at the second attempt. -/
  | flushing (retry : Bool) (next : After)
  | exited
  deriving DecidableEq, Repr

def After.flusher : After → Flusher
  | .select => .selecting
  | .drain => .draining
  | .exit => .exited

/-- How one call of `flushWithRetry` ends. -/
inductive FlushResult
  | stored
  | storedOnRetry
  | dropped
  deriving DecidableEq, Repr

/-- The prediction log. `ch` is the channel with its `Log` calls and the signal `done`;
`flushed` is a note of every `flushWithRetry` that has returned. -/
structure Store (F : Type) where
  ch : Inbox (Record F) LogError
  flusher : Flusher
  batch : List (Posted (Record F))
  /-- `Shutdown` has returned. -/
  shutdown : Bool
  /-- The rows of every `flushFn` that succeeded. -/
  stored : List (Posted (Record F))
  predictionLogBufferSize : Nat
  predictionLogDropped : Nat
  predictionLogFlushErrors : Nat
  flushed : List (List (Posted (Record F)) × FlushResult)

def NewStore (bufferSize : Nat) : Store F :=
  ⟨.new bufferSize,.selecting,[],false,[],0,0,0,[]⟩

/-- The steps of the callers, of the flusher and of `Shutdown`. -/
inductive StoreAction (F : Type)
  | log (r : Record F)
  | send (i : Nat)
  /-- A send to the flusher that waits at the outer `select`. -/
  | hand (i : Nat)
  | cancel (i : Nat)
  | overflow (i : Nat)
  | receive
  | tick
  | observeDone
  | drainReceive
  | drainEmpty
  /-- The result of the attempt under way. -/
  | flush (ok : Bool)
  | close
  | wait

/-- `flushWithRetry(batch)` begins, if there is anything to flush. -/
def Store.startFlush (s : Store F) (next : After) : Store F :=
  if s.batch.length > 0 then { s with flusher := .flushing false next }
  else { s with flusher := next.flusher }

/-- `flushWithRetry` returns; `batch[:0]` keeps the array, of which `flushFn` keeps nothing. -/
def Store.endFlush (s : Store F) (result : FlushResult) (next : After) : Store F :=
  { s with flusher := next.flusher, batch := [], flushed := s.flushed ++ [(s.batch,result)] }

def Store.step (s : Store F) : StoreAction F → Store F
  | .log r => { s with ch := s.ch.call r, predictionLogBufferSize := s.ch.buffer.length }
  | .send i =>
    match s.ch.post i with
    | some ch => { s with ch }
    | none => s
  | .hand i =>
    -- A receiver waits only while neither `done` nor the channel has anything for it.
    if s.flusher = .selecting ∧ s.ch.closed = false then
      match s.ch.hand i with
      | some (p, ch) => { s with ch, batch := s.batch ++ [p] }
      | none => s
    else s
  | .cancel i =>
    match s.ch.refuse i .cancelled with
    | some ch => { s with ch }
    | none => s
  | .overflow i =>
    if s.ch.full then
      match s.ch.refuse i .bufferFull with
      | some ch => { s with ch, predictionLogDropped := s.predictionLogDropped + 1 }
      | none => s
    else s
  | .receive =>
    if s.flusher = .selecting then
      match s.ch.take with
      | some (p, ch) => { s with ch, batch := s.batch ++ [p] }
      | none => s
    else s
  | .tick => if s.flusher = .selecting then s.startFlush .select else s
  | .observeDone =>
    if s.flusher = .selecting ∧ s.ch.closed then { s with flusher := .draining } else s
  | .drainReceive =>
    if s.flusher = .draining then
      match s.ch.take with
      | some (p, ch) =>
        if (s.batch ++ [p]).length ≥ drainChunkSize then
          { s with ch, batch := s.batch ++ [p], flusher := .flushing false .drain }
        else { s with ch, batch := s.batch ++ [p] }
      | none => s
    else s
  | .drainEmpty => if s.flusher = .draining ∧ s.ch.buffer = [] then s.startFlush .exit else s
  | .flush ok =>
    match s.flusher with
    | .flushing retry next =>
      if ok then
        { s with stored := s.stored ++ s.batch }.endFlush
          (if retry then .storedOnRetry else .stored) next
      else if retry then
        { s with predictionLogFlushErrors := s.predictionLogFlushErrors + 1 }.endFlush .dropped next
      else { s with flusher := .flushing true next }
    | _ => s
  | .close => if s.ch.closed then s else { s with ch := s.ch.close }
  | .wait => if s.ch.closed ∧ s.flusher = .exited then { s with shutdown := true } else s

end FraudPlatform.Serving
