import FraudPlatform.Framework.Run
import FraudPlatform.Framework.Slots
import FraudPlatform.Serving.Runner

namespace FraudPlatform.Serving.Lifecycle

open Framework

/-- A call of `Swappable.Score`. -/
inductive Score
  | entered
  /-- The read lock is held. -/
  | locked
  /-- Inside `s.r.Score`, before the input vector is built. -/
  | holding (r : Runner)
  /-- Inside `session.Run`, with a vector in the given feature order. -/
  | running (featureOrder : List String) (session : Nat)
  /-- Returned from `session.Run`. -/
  | ran (featureOrder : List String) (session : Nat)
  /-- Returned before `session.Run`: a feature or a tensor is missing. -/
  | failed
  | panicked
  deriving DecidableEq, Repr

inductive ModelVersion
  | entered
  | locked
  | returned (modelVersion : String)
  | panicked
  deriving DecidableEq, Repr

/-- A call of `Swappable.Reload`. -/
inductive Reload
  /-- Inside `NewRunner`, before there is a session. -/
  | loading
  /-- Inside `NewRunner`, at the inference that checks the new session. -/
  | validating (newR : Runner)
  /-- Inside `validateAgainstSample`. -/
  | sampling (newR : Runner)
  /-- Before the write lock. -/
  | ready (newR : Runner)
  | locked (newR : Runner)
  /-- `s.r` is written, the lock still held. -/
  | swapped (old : Option Runner) (newR : Runner)
  | unlocked (old : Option Runner) (newR : Runner)
  | returned (newVersion : Option String)
  | panicked
  deriving DecidableEq, Repr

/-- The swappable runner with every call so far. `r` is nil after `Destroy`. `runners` notes
the runner of every session ever created: a session is its place there. -/
structure Process where
  r : Option Runner
  runners : List Runner
  /-- The sessions whose `Destroy` was called, once for each call. -/
  destroyed : List Nat
  scores : List Score
  versions : List ModelVersion
  reloads : List Reload
  deriving DecidableEq, Repr

def NewSwappable (featureOrder : List String) (modelVersion : String) : Process :=
  ⟨some ⟨0,featureOrder,modelVersion⟩,[⟨0,featureOrder,modelVersion⟩],[],[],[],[]⟩

def Score.holdsReadLock : Score → Bool
  | .locked | .holding _ | .running _ _ => true
  | _ => false

def ModelVersion.holdsReadLock : ModelVersion → Bool
  | .locked => true
  | _ => false

def Reload.holdsLock : Reload → Bool
  | .locked _ | .swapped _ _ => true
  | _ => false

def Process.readLocked (s : Process) : Bool :=
  s.scores.any (·.holdsReadLock) || s.versions.any (·.holdsReadLock)

def Process.writeLocked (s : Process) : Bool := s.reloads.any (·.holdsLock)

/-- The steps of the calls, each named by its place in its list. -/
inductive Action
  | score
  | scoreLock (i : Nat)
  | scoreEnter (i : Nat)
  | scoreFailed (i : Nat)
  | scoreRun (i : Nat)
  /-- `session.Run` returns, well or not, and the read lock is released. -/
  | scoreRan (i : Nat)
  | modelVersion
  | versionLock (k : Nat)
  | versionRead (k : Nat)
  | reload
  | loadFailed (j : Nat)
  | newSession (j : Nat) (featureOrder : List String) (modelVersion : String)
  | validated (j : Nat) (ok : Bool)
  | sampled (j : Nat) (ok : Bool)
  | lock (j : Nat)
  | swap (j : Nat)
  | unlock (j : Nat)
  | destroyOld (j : Nat)
  | destroy
  deriving DecidableEq, Repr

def Process.setScore (s : Process) (i : Nat) (q : Score) : Process :=
  { s with scores := s.scores.set i q }

def Process.setReload (s : Process) (j : Nat) (q : Reload) : Process :=
  { s with reloads := s.reloads.set j q }

/-- `Runner.Destroy`. -/
def Process.destroyRunner (s : Process) (r : Runner) : Process :=
  { s with destroyed := s.destroyed ++ [r.session] }

def Process.step (s : Process) : Action → Process
  | .score => { s with scores := s.scores ++ [.entered] }
  | .scoreLock i =>
    match s.scores[i]? with
    | some .entered => if s.writeLocked then s else s.setScore i .locked
    | _ => s
  | .scoreEnter i =>
    match s.scores[i]? with
    | some .locked =>
      match s.r with
      | some r => s.setScore i (.holding r)
      | none => s.setScore i .panicked
    | _ => s
  | .scoreFailed i =>
    match s.scores[i]? with
    | some (.holding _) => s.setScore i .failed
    | _ => s
  | .scoreRun i =>
    match s.scores[i]? with
    | some (.holding r) => s.setScore i (.running r.featureOrder r.session)
    | _ => s
  | .scoreRan i =>
    match s.scores[i]? with
    | some (.running featureOrder session) => s.setScore i (.ran featureOrder session)
    | _ => s
  | .modelVersion => { s with versions := s.versions ++ [.entered] }
  | .versionLock k =>
    match s.versions[k]? with
    | some .entered => if s.writeLocked then s else { s with versions := s.versions.set k .locked }
    | _ => s
  | .versionRead k =>
    match s.versions[k]? with
    | some .locked =>
      match s.r with
      | some r => { s with versions := s.versions.set k (.returned r.modelVersion) }
      | none => { s with versions := s.versions.set k .panicked }
    | _ => s
  | .reload => { s with reloads := s.reloads ++ [.loading] }
  | .loadFailed j =>
    match s.reloads[j]? with
    | some .loading => s.setReload j (.returned none)
    | _ => s
  | .newSession j featureOrder modelVersion =>
    match s.reloads[j]? with
    | some .loading =>
      let r : Runner := ⟨s.runners.length,featureOrder,modelVersion⟩
      { s with runners := s.runners ++ [r] }.setReload j (.validating r)
    | _ => s
  | .validated j ok =>
    match s.reloads[j]? with
    | some (.validating newR) =>
      if ok then s.setReload j (.sampling newR)
      else (s.destroyRunner newR).setReload j (.returned none)
    | _ => s
  | .sampled j ok =>
    match s.reloads[j]? with
    | some (.sampling newR) =>
      if ok then s.setReload j (.ready newR)
      else (s.destroyRunner newR).setReload j (.returned none)
    | _ => s
  | .lock j =>
    match s.reloads[j]? with
    | some (.ready newR) =>
      if s.readLocked || s.writeLocked then s else s.setReload j (.locked newR)
    | _ => s
  | .swap j =>
    match s.reloads[j]? with
    | some (.locked newR) => { s with r := some newR }.setReload j (.swapped s.r newR)
    | _ => s
  | .unlock j =>
    match s.reloads[j]? with
    | some (.swapped old newR) => s.setReload j (.unlocked old newR)
    | _ => s
  | .destroyOld j =>
    match s.reloads[j]? with
    | some (.unlocked (some old) newR) =>
      (s.destroyRunner old).setReload j (.returned (some newR.modelVersion))
    | some (.unlocked none _) => s.setReload j .panicked
    | _ => s
  | .destroy =>
    -- The whole critical section of `Swappable.Destroy`.
    if s.readLocked || s.writeLocked then s
    else
      match s.r with
      | some r => { s.destroyRunner r with r := none }
      | none => s

end FraudPlatform.Serving.Lifecycle
