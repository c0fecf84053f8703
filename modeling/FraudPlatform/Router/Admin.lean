import FraudPlatform.Http
import FraudPlatform.Router.Routing

namespace FraudPlatform.Router

open Framework

structure AdminCanaryRequest where
  enabled : Bool
  challengerTrafficPercent : Int
  shadowPercent : Int
  deriving DecidableEq, Repr

/-- The router process as its admin interface sees it. -/
structure Handler where
  state : State
  /-- The gauge `router_canary_traffic_percent`. -/
  canaryTrafficPercent : Int
  adminToken : String
  deriving DecidableEq, Repr

def AdminCanaryRequest.toState (req : AdminCanaryRequest) : State :=
  ⟨req.enabled,req.challengerTrafficPercent,req.shadowPercent⟩

/-- `POST /admin/canary`; `none` is a body that is too long or does not decode. -/
def handleAdminCanary (token : String) (body : Option AdminCanaryRequest) (h : Handler) :
    Handler × Reply AdminCanaryRequest :=
  if token ≠ h.adminToken then (h, .error 401 "unauthorized")
  else
    match body with
    | none => (h, .error 400 "invalid request body")
    | some req =>
      if req.challengerTrafficPercent < 0 ∨ 100 < req.challengerTrafficPercent then
        (h, .error 400 "challenger_traffic_percent must be 0-100")
      else if req.shadowPercent < 0 ∨ 100 < req.shadowPercent then
        (h, .error 400 "shadow_percent must be 0-100")
      else if req.enabled ∧ 0 < req.shadowPercent then
        -- Shadow only runs when canary is off, see `State.decide`.
        (h, .error 400 "shadow_percent must be 0 when canary is enabled")
      else
        ({ h with state := req.toState, canaryTrafficPercent := req.challengerTrafficPercent },
          .ok req)

def formatBool (b : Bool) : String := if b then "true" else "false"

/-- `GET /admin/state`: every value is a JSON string. -/
def handleAdminState (h : Handler) : Reply (List (String × String)) :=
  .ok [("canary_enabled",formatBool h.state.canaryEnabled),
    ("challenger_traffic_percent",toString h.state.challengerTrafficPercent),
    ("shadow_percent",toString h.state.shadowPercent)]

/-- A request either installs the state it asks for or leaves the router as it was. -/
theorem handleAdminCanary_cases (token : String) (body : Option AdminCanaryRequest) (h : Handler) :
    (∃ req, body = some req ∧ token = h.adminToken ∧
      handleAdminCanary token body h =
        ({ h with state := req.toState, canaryTrafficPercent := req.challengerTrafficPercent },
          .ok req)) ∨
    ∃ status text, handleAdminCanary token body h = (h, .error status text) := by
  unfold handleAdminCanary
  split_ifs with ht
  · exact Or.inr ⟨401,_,rfl⟩
  cases body with
  | none => exact Or.inr ⟨400,_,rfl⟩
  | some req =>
    dsimp only
    split_ifs
    · exact Or.inr ⟨400,_,rfl⟩
    · exact Or.inr ⟨400,_,rfl⟩
    · exact Or.inr ⟨400,_,rfl⟩
    · exact Or.inl ⟨req,rfl,not_not.mp ht,rfl⟩

theorem handleAdminCanary_token (token : String) (body : Option AdminCanaryRequest) (h : Handler) :
    (handleAdminCanary token body h).1.adminToken = h.adminToken := by
  rcases handleAdminCanary_cases token body h with ⟨req, _, _, he⟩ | ⟨status, text, he⟩ <;> rw [he]

/-- The request that turns the canary off is legal, so only the token can refuse it. -/
theorem handleAdminCanary_off (token : String) (h : Handler) :
    (handleAdminCanary token (some ⟨false,0,0⟩) h).1.state =
      if token = h.adminToken then ⟨false,0,0⟩ else h.state := by
  by_cases ht : token = h.adminToken <;>
    simp [handleAdminCanary, ht, AdminCanaryRequest.toState]

end FraudPlatform.Router
