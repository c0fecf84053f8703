import FraudPlatform.Framework.Remote

namespace FraudPlatform

open Framework

/-- What an HTTP handler writes: status 200 with a JSON body, or `http.Error`. -/
inductive Reply (α : Type)
  | ok (body : α)
  | error (status : Nat) (text : String)
  deriving DecidableEq, Repr

def Reply.status {α : Type} : Reply α → Nat
  | .ok _ => 200
  | .error status _ => status

/-- `requests.post` or `requests.get` followed by `raise_for_status`; without a reply the
first of them raises. -/
def Reply.raiseForStatus {α : Type} : Option (Reply α) → Except String α
  | some (.ok body) => .ok body
  | some (.error status text) => .error s!"{status} {text}"
  | none => .error "request failed"

end FraudPlatform
