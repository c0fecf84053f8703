import FraudPlatform.Framework.Decimal
import FraudPlatform.Framework.Run
import FraudPlatform.Router.Admin

namespace FraudPlatform.Router

open Framework

/-- `os.Getenv`; a variable that is not set reads as the empty string. -/
abbrev Env := String → String

def getEnv (env : Env) (key fallback : String) : String :=
  if env key ≠ "" then env key else fallback

/-- A value that is no number reads as the fallback, like one that is not set. -/
def getEnvInt (env : Env) (key : String) (fallback : Int) : Int :=
  if env key ≠ "" then (atoi (env key)).getD fallback else fallback

structure Config where
  port : String
  championURL : String
  challengerURL : String
  adminToken : String
  postgresDSN : String
  initialCanaryPercent : Int
  initialShadowPercent : Int
  upstreamTimeoutMS : Int
  shadowBufferSize : Int
  shadowWorkers : Int
  deriving DecidableEq, Repr

/-- `config.Load`, the error being the text the process ends with. -/
def load (env : Env) : Except String Config :=
  let cfg : Config := {
    port := getEnv env "PORT" "8081"
    championURL := getEnv env "CHAMPION_URL" "http://champion-model:8080"
    challengerURL := getEnv env "CHALLENGER_URL" "http://challenger-model:8080"
    adminToken := getEnv env "ADMIN_TOKEN" ""
    postgresDSN := getEnv env "POSTGRES_DSN" ""
    initialCanaryPercent := getEnvInt env "INITIAL_CANARY_PERCENT" 0
    initialShadowPercent := getEnvInt env "INITIAL_SHADOW_PERCENT" 100
    upstreamTimeoutMS := getEnvInt env "UPSTREAM_TIMEOUT_MS" 500
    shadowBufferSize := getEnvInt env "SHADOW_BUFFER_SIZE" 256
    shadowWorkers := getEnvInt env "SHADOW_WORKERS" 4 }
  if cfg.adminToken = "" then .error "ADMIN_TOKEN is required"
  else if cfg.postgresDSN = "" then .error "POSTGRES_DSN is required"
  else .ok cfg

/-- The handler `main` builds of an accepted configuration; nothing has set the gauge yet. -/
def start (cfg : Config) : Handler where
  state := ⟨false,cfg.initialCanaryPercent,cfg.initialShadowPercent⟩
  canaryTrafficPercent := 0
  adminToken := cfg.adminToken

/-- A request to `POST /admin/canary`: its `X-Admin-Token` and its body. -/
structure AdminRequest where
  token : String
  body : Option AdminCanaryRequest
  deriving DecidableEq, Repr

def serve (h : Handler) (r : AdminRequest) : Handler := (handleAdminCanary r.token r.body h).1

def reply (h : Handler) (r : AdminRequest) : Reply AdminCanaryRequest :=
  (handleAdminCanary r.token r.body h).2

/-- What the five checks of `handleAdminCanary` let through. -/
def State.Legal (st : State) : Prop :=
  (0 ≤ st.challengerTrafficPercent ∧ st.challengerTrafficPercent ≤ 100) ∧
    (0 ≤ st.shadowPercent ∧ st.shadowPercent ≤ 100) ∧ ¬(st.canaryEnabled ∧ 0 < st.shadowPercent)

instance (st : State) : Decidable st.Legal := by
  unfold State.Legal
  infer_instance

/-- The request is the one the handler answers with, and its state passed the checks. -/
theorem legal_of_ok {h : Handler} {r : AdminRequest} {req : AdminCanaryRequest}
    (he : reply h r = .ok req) : req.toState.Legal := by
  unfold reply handleAdminCanary at he
  split_ifs at he with ht
  cases hb : r.body with
  | none => simp [hb] at he
  | some body =>
    rw [hb] at he
    dsimp only at he
    split_ifs at he with hc hs hx
    simp only [Reply.ok.injEq] at he
    subst he
    rw [not_or, not_lt, not_lt] at hc hs
    exact ⟨hc,hs,hx⟩

/-- Every check answers with a client error of its own. -/
theorem status_of_error {h : Handler} {r : AdminRequest} {status : Nat} {text : String}
    (he : reply h r = .error status text) : status = 401 ∨ status = 400 := by
  unfold reply handleAdminCanary at he
  split_ifs at he with ht
  · simp only [Reply.error.injEq] at he
    exact Or.inl he.1.symm
  cases hb : r.body with
  | none =>
    simp only [hb, Reply.error.injEq] at he
    exact Or.inr he.1.symm
  | some req =>
    rw [hb] at he
    dsimp only at he
    split_ifs at he <;> simp only [Reply.error.injEq] at he <;> exact Or.inr he.1.symm

/-- A request installs a legal state, or its answer says that the state is as it was. -/
theorem serve_cases (h : Handler) (r : AdminRequest) :
    ((reply h r).status = 200 ∧ (serve h r).state.Legal) ∨
      ((reply h r).status ≠ 200 ∧ (serve h r).state = h.state) := by
  rcases handleAdminCanary_cases r.token r.body h with ⟨req, _, _, he⟩ | ⟨status, text, he⟩
  · have ok : reply h r = .ok req := by rw [reply, he]
    refine Or.inl ⟨by rw [ok]; rfl,?_⟩
    rw [serve, he]
    exact legal_of_ok ok
  · have refused : reply h r = .error status text := by rw [reply, he]
    have notOk : status ≠ 200 := by
      have := status_of_error refused
      omega
    refine Or.inr ⟨by rwa [refused],?_⟩
    rw [serve, he]

theorem serve_legal {h : Handler} (r : AdminRequest) (legal : h.state.Legal) :
    (serve h r).state.Legal := by
  rcases serve_cases h r with ⟨_, new⟩ | ⟨_, same⟩
  · exact new
  · rwa [same]

/-- The answer of every request of a run other than 200 leaves the state as it was. -/
def RefusalsKeepState (h : Handler) (rs : List AdminRequest) : Prop :=
  Throughout serve (fun h r => (reply h r).status ≠ 200 → (serve h r).state = h.state) h rs

theorem refusalsKeepState (h : Handler) (rs : List AdminRequest) : RefusalsKeepState h rs := by
  refine throughout_of_forall serve ?_ h rs
  intro h r refused
  rcases serve_cases h r with ⟨ok, _⟩ | ⟨_, same⟩
  · exact absurd ok refused
  · exact same

theorem load_ok {env : Env} {cfg : Config} (h : load env = .ok cfg) :
    cfg.initialCanaryPercent = getEnvInt env "INITIAL_CANARY_PERCENT" 0 ∧
      cfg.initialShadowPercent = getEnvInt env "INITIAL_SHADOW_PERCENT" 100 := by
  unfold load at h
  dsimp only at h
  split_ifs at h
  simp only [Except.ok.injEq] at h
  subst h
  exact ⟨rfl,rfl⟩

/-- Startup copies the two percentages unchecked; the canary starts disabled. -/
theorem start_legal_iff (cfg : Config) :
    (start cfg).state.Legal ↔
      (0 ≤ cfg.initialCanaryPercent ∧ cfg.initialCanaryPercent ≤ 100) ∧
        0 ≤ cfg.initialShadowPercent ∧ cfg.initialShadowPercent ≤ 100 := by
  simp [State.Legal, start]

/-- The router's state is legal in every run from an accepted environment exactly when the
two initial percentages, as they are read, are percentages. -/
theorem started_legal_iff (env : Env) (cfg : Config) (rs : List AdminRequest)
    (h : load env = .ok cfg) :
    (Always serve (fun h => h.state.Legal) (start cfg) rs ∧ RefusalsKeepState (start cfg) rs) ↔
      (0 ≤ getEnvInt env "INITIAL_CANARY_PERCENT" 0 ∧
          getEnvInt env "INITIAL_CANARY_PERCENT" 0 ≤ 100) ∧
        0 ≤ getEnvInt env "INITIAL_SHADOW_PERCENT" 100 ∧
          getEnvInt env "INITIAL_SHADOW_PERCENT" 100 ≤ 100 := by
  obtain ⟨canary, shadow⟩ := load_ok h
  rw [← canary, ← shadow, ← start_legal_iff]
  constructor
  · rintro ⟨always, _⟩
    exact always_head serve always
  · intro legal
    refine ⟨always_of_step serve ?_ legal rs,refusalsKeepState _ _⟩
    intro h r
    exact serve_legal r

def shadowedEnv (percent : String) : Env := fun key =>
  if key = "ADMIN_TOKEN" then "t"
  else if key = "POSTGRES_DSN" then "postgres://db"
  else if key = "INITIAL_SHADOW_PERCENT" then percent
  else ""

def shadowedConfig (percent : Int) : Config :=
  ⟨"8081","http://champion-model:8080","http://challenger-model:8080","t","postgres://db",0,percent,
    500,256,4⟩

theorem started_legal_small :
    load (shadowedEnv "20") = .ok (shadowedConfig 20) ∧
      Always serve (fun h => h.state.Legal) (start (shadowedConfig 20))
        [⟨"t",some ⟨true,10,0⟩⟩,⟨"t",some ⟨true,10,5⟩⟩,⟨"u",none⟩] := by
  have accepted : load (shadowedEnv "20") = .ok (shadowedConfig 20) := by decide +kernel
  exact ⟨accepted,((started_legal_iff _ _ _ accepted).mpr (by decide +kernel)).1⟩

/-- A router that starts with `INITIAL_SHADOW_PERCENT=150` serves with that percentage. -/
theorem overfull_shadow_starts :
    load (shadowedEnv "150") = .ok (shadowedConfig 150) ∧
      ¬Always serve (fun h => h.state.Legal) (start (shadowedConfig 150)) [] := by
  refine ⟨by decide +kernel,?_⟩
  intro always
  exact absurd (always_head serve always) (by decide +kernel)

end FraudPlatform.Router
