import FraudPlatform.Framework.Inbox
import FraudPlatform.Framework.Run
import FraudPlatform.Framework.Slots

namespace FraudPlatform.Router

open Framework

variable {τ : Type}

inductive Worker (τ : Type)
  /-- At the outer `select`. -/
  | selecting
  /-- At the inner one, after `done`. -/
  | draining
  /-- Inside `execute`, called from one of the two. -/
  | executing (p : Posted τ) (drain : Bool)
  | exited
  deriving DecidableEq

def Worker.task : Worker τ → Option (Posted τ)
  | .executing p _ => some p
  | _ => none

def Worker.sawExit : Worker τ → Bool
  | .exited => true
  | _ => false

def Worker.sawDone : Worker τ → Bool
  | .draining | .executing _ true | .exited => true
  | .selecting | .executing _ false => false

/-- The shadow queue. `ch` is the channel with its `Dispatch` calls and the signal `done`;
nothing closes the channel itself. The results and the executions are notes, the latter
with the worker's place. -/
structure Dispatcher (τ : Type) where
  ch : Inbox τ Unit
  workers : List (Worker τ)
  /-- `Shutdown` has returned. -/
  shutdown : Bool
  sent : Nat
  dropped : Nat
  shadowBufferSize : Nat
  returned : List (Nat × Bool)
  executed : List (Nat × Posted τ)

def NewDispatcher (bufferSize workers : Nat) : Dispatcher τ :=
  ⟨.new bufferSize,List.replicate workers .selecting,false,0,0,0,[],[]⟩

/-- The steps of the callers `i`, of the workers `w` and of `Shutdown`. -/
inductive DispatcherAction (τ : Type)
  | dispatch (t : τ)
  | send (i : Nat)
  /-- A send to the worker `w`, which waits at the outer `select`. -/
  | hand (i w : Nat)
  | drop (i : Nat)
  /-- `Dispatch` counts what it did and returns. -/
  | finish (i : Nat)
  | receive (w : Nat)
  | observeDone (w : Nat)
  | drainReceive (w : Nat)
  | drainEmpty (w : Nat)
  | executed (w : Nat)
  | close
  | wait

def Dispatcher.step (d : Dispatcher τ) : DispatcherAction τ → Dispatcher τ
  | .dispatch t => { d with ch := d.ch.call t }
  | .send i =>
    match d.ch.post i with
    | some ch => { d with ch }
    | none => d
  | .hand i w =>
    match d.workers[w]? with
    | some .selecting =>
      -- A receiver waits only while neither `done` nor the channel has anything for it.
      if d.ch.closed then d
      else
        match d.ch.hand i with
        | some (p, ch) => { d with ch, workers := d.workers.set w (.executing p false) }
        | none => d
    | _ => d
  | .drop i =>
    if d.ch.full then
      match d.ch.refuse i () with
      | some ch => { d with ch }
      | none => d
    else d
  | .finish i =>
    if i ∈ d.returned.map Prod.fst then d
    else
      match d.ch.calls[i]? with
      | some (.accepted _) =>
        { d with sent := d.sent + 1, shadowBufferSize := d.ch.buffer.length
                 returned := d.returned ++ [(i,true)] }
      | some (.refused _ _) =>
        { d with dropped := d.dropped + 1, returned := d.returned ++ [(i,false)] }
      | _ => d
  | .receive w =>
    match d.workers[w]? with
    | some .selecting =>
      match d.ch.take with
      | some (p, ch) =>
        { d with ch, shadowBufferSize := ch.buffer.length
                 workers := d.workers.set w (.executing p false) }
      | none => d
    | _ => d
  | .observeDone w =>
    match d.workers[w]? with
    | some .selecting =>
      if d.ch.closed then { d with workers := d.workers.set w .draining } else d
    | _ => d
  | .drainReceive w =>
    match d.workers[w]? with
    | some .draining =>
      match d.ch.take with
      | some (p, ch) => { d with ch, workers := d.workers.set w (.executing p true) }
      | none => d
    | _ => d
  | .drainEmpty w =>
    match d.workers[w]? with
    | some .draining =>
      if d.ch.buffer = [] then { d with workers := d.workers.set w .exited } else d
    | _ => d
  | .executed w =>
    match d.workers[w]? with
    | some (.executing p drain) =>
      { d with workers := d.workers.set w (if drain then .draining else .selecting)
               executed := d.executed ++ [(w,p)] }
    | _ => d
  | .close => if d.ch.closed then d else { d with ch := d.ch.close }
  | .wait =>
    if d.ch.closed ∧ ∀ w ∈ d.workers, w.sawExit then { d with shutdown := true } else d

end FraudPlatform.Router
