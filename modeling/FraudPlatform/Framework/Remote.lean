import Mathlib.Data.List.Basic

namespace Framework

/-- The fate of one remote call. Only the caller's view tells `lost` from `unanswered`
apart from the server's: in both the caller sees an error. -/
inductive Fate
  /-- The server acts and its reply arrives. -/
  | delivered
  /-- The request dies before the server acts. -/
  | lost
  /-- The server acts, and the reply is lost or comes after the deadline. -/
  | unanswered
  deriving DecidableEq, Repr

namespace Fate

variable {σ α : Type*}

def acts : Fate → Bool
  | delivered | unanswered => true
  | lost => false

/-- The server's state after the call, and the reply if the caller gets one. -/
def call (f : Fate) (serve : σ → σ × α) (s : σ) : σ × Option α :=
  match f with
  | delivered => ((serve s).1, some (serve s).2)
  | lost => (s, none)
  | unanswered => ((serve s).1, none)

@[simp] theorem call_delivered (serve : σ → σ × α) (s : σ) :
    delivered.call serve s = ((serve s).1, some (serve s).2) := rfl

@[simp] theorem call_lost (serve : σ → σ × α) (s : σ) : lost.call serve s = (s, none) := rfl

@[simp] theorem call_unanswered (serve : σ → σ × α) (s : σ) :
    unanswered.call serve s = ((serve s).1, none) := rfl

theorem call_state (f : Fate) (serve : σ → σ × α) (s : σ) :
    (f.call serve s).1 = if f.acts then (serve s).1 else s := by
  cases f <;> rfl

end Fate

end Framework
