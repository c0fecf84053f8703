import FraudPlatform.Canary.Apply
import FraudPlatform.Wire

namespace FraudPlatform.Canary

open Framework Ieee JsonScan JsonStruct JsonWire Registry

variable {F V : Type}

def adminCanaryFields : List (StructField Router.AdminCanaryRequest) :=
  [boolField "enabled" fun b req => { req with enabled := b },
    intField "challenger_traffic_percent" fun n req => { req with challengerTrafficPercent := n },
    intField "shadow_percent" fun n req => { req with shadowPercent := n }]

def reloadFields : List (StructField Serving.ReloadRequest) :=
  [stringField "model_path" fun s req => { req with modelPath := s },
    stringField "feature_order_path" fun s req => { req with featureOrderPath := s }]

/-- The two bodies that `requests.post` sends as JSON. -/
def canaryBody (repr : Datum → List Char) (enabled : Bool) (challengerPct shadowPct : Int) :
    List Char :=
  (pyWriter repr).object [("enabled",.bool enabled),
    ("challenger_traffic_percent",.int challengerPct),("shadow_percent",.int shadowPct)]

def reloadBody (repr : Datum → List Char) (modelPath featureOrderPath : String) : List Char :=
  (pyWriter repr).object
    [("model_path",.string modelPath),("feature_order_path",.string featureOrderPath)]

/-- Behind `MaxBytesReader`. -/
def receiveCanary (body : List Char) : Option Router.AdminCanaryRequest :=
  decode adminCanaryFields ⟨false,0,0⟩ (maxBytes 4096 body)

def receiveReload (body : List Char) : Option Serving.ReloadRequest :=
  decode reloadFields ⟨"",""⟩ (maxBytes 4096 body)

/-- `resp.json()` of an object -/
def loads (cs : List Char) : Option (List (String × Token)) :=
  match skip cs with
  | [] => none
  | c :: cs =>
    if c = '\x7b' then do
      let (ms, rest) ← enclosed (member (token 9999)) '\x7d' cs
      if skip rest = [] then some (Dict.lastWins ms) else none
    else none

/-- `resp.json()["model_version"]`; another value than a string aborts like a raise. -/
def reportedVersion (body : List Char) : Option String := do
  match (← loads body).lookup "model_version" with
  | some (.string version) => some version
  | _ => none

/-- The version of a reply, or a raise: without a reply, for an error status, for another body. -/
def versionOrRaise : Option HttpResponse → Except String String
  | none => .error "request failed"
  | some resp =>
    if 400 ≤ resp.statusCode ∧ resp.statusCode < 600 then .error s!"{resp.statusCode}"
    else
      match reportedVersion resp.body with
      | none => .error "model_version"
      | some version => .ok version

/-- How floats are written in Python and in Go. -/
structure Texts where
  repr : Datum → List Char
  formatFloat : Datum → List Char

def Texts.setRouterCanary (x : Texts) (config : CanaryConfig F) (fate : Fate) (enabled : Bool)
    (challengerPct shadowPct : Int) (router : Router.Handler) : Router.Handler :=
  (fate.call (Router.handleAdminCanary config.adminToken
    (receiveCanary (canaryBody x.repr enabled challengerPct shadowPct))) router).1

/-- `POST /admin/reload` as the container meets it. -/
def Texts.handleReload (x : Texts) (E : Serving.Engine V) (load : Serving.LoadEnv)
    (adminToken : String) (body : List Char) (container : Serving.Handler) :
    Serving.Handler × HttpResponse :=
  let answered := Serving.handleReload E load adminToken (receiveReload body) container
  (answered.1,answered.2.written x.formatFloat
    fun resp => [("model_version",.string resp.modelVersion)])

def Texts.reloadServing (x : Texts) (E : Serving.Engine V) (load : Serving.LoadEnv) (fate : Fate)
    (modelPath featureOrderPath adminToken : String) (container : Serving.Handler) :
    Serving.Handler × Except String String :=
  let called := fate.call
    (x.handleReload E load adminToken (reloadBody x.repr modelPath featureOrderPath)) container
  (called.1,versionOrRaise called.2)

/-- `apply_decision` with its requests and replies as bytes. -/
def Texts.applyDecision (x : Texts) (E : Serving.Engine V) (config : CanaryConfig F)
    (env : ApplyEnv) (decision : CanaryDecision F) (p : Platform F) :
    Platform F × Except String Unit :=
  match decision.decision with
  | .promote =>
    match x.reloadServing E env.load env.reload config.challengerModelPath
        config.challengerFeatureOrderPath config.adminToken p.container with
    | (container, .error _) => ({ p with container }, .ok ())
    | (container, .ok newVer) =>
      if newVer ≠ config.challengerVersion then ({ p with container }, .ok ())
      else
        match env.roles.call (promoteRoles env.now config.challengerVersion) p.models with
        | (models, none) => ({ p with container, models }, .error "role update failed")
        | (models, some ()) =>
          ({ p with container, models,
                    router := x.setRouterCanary config env.post false 0 0 p.router }, .ok ())
  | .rollback =>
    match env.roles.call (retireChallenger env.now config.challengerVersion) p.models with
    | (models, none) => ({ p with models }, .error "role update failed")
    | (models, some ()) =>
      ({ p with models, router := x.setRouterCanary config env.post false 0 0 p.router }, .ok ())
  | .continue => (p, .ok ())

theorem receiveCanary_body (repr : Datum → List Char) (enabled : Bool)
    {challengerPct shadowPct : Int} (challenger : Word challengerPct) (shadow : Word shadowPct) :
    receiveCanary (canaryBody repr enabled challengerPct shadowPct) =
      some ⟨enabled,challengerPct,shadowPct⟩ := by
  have numeral : ∀ m ∈ [("enabled",Data.bool enabled),
      ("challenger_traffic_percent",.int challengerPct),("shadow_percent",.int shadowPct)],
      (pyWriter repr).Numeral m.2 := by
    intro m hm x hx
    simp only [List.mem_cons, List.not_mem_nil, or_false] at hm
    obtain rfl | rfl | rfl := hm <;> cases hx
  have fits : bytes ((pyWriter repr).object [("enabled",.bool enabled),
      ("challenger_traffic_percent",.int challengerPct),("shadow_percent",.int shadowPct)]) ≤
        4096 := by
    have first := bytes_int challenger
    have second := bytes_int shadow
    have names : bytes (JsonDump.string "enabled") = 9 ∧
        bytes (JsonDump.string "challenger_traffic_percent") = 28 ∧
        bytes (JsonDump.string "shadow_percent") = 16 := by decide +kernel
    have word : bytes (if enabled then "true" else "false").toList ≤ 5 := by
      cases enabled <;> decide
    have marks : '\x7b'.utf8Size = 1 ∧ '\x7d'.utf8Size = 1 ∧ ':'.utf8Size = 1 ∧
        ','.utf8Size = 1 ∧ ' '.utf8Size = 1 := by decide
    have none : bytes [] = 0 := rfl
    simp only [Writer.object, List.map_cons, List.map_nil, Writer.joined, List.flatMap_cons,
      List.flatMap_nil, List.append_nil, Writer.entry, pyWriter, Writer.data, List.cons_append,
      List.nil_append, bytes_cons, bytes_append, names, marks, none]
    omega
  rw [receiveCanary, canaryBody, decode_maxBytes numeral, if_pos fits]
  simp [Writer.token, setMember, fieldOf, adminCanaryFields, intField, boolField,
    parsed_of_word challenger, parsed_of_word shadow]

theorem receiveReload_body (repr : Datum → List Char) (modelPath featureOrderPath : String) :
    receiveReload (reloadBody repr modelPath featureOrderPath) =
      if bytes (reloadBody repr modelPath featureOrderPath) ≤ 4096 then
        some ⟨modelPath,featureOrderPath⟩
      else none := by
  have numeral : ∀ m ∈ [("model_path",Data.string modelPath),
      ("feature_order_path",.string featureOrderPath)], (pyWriter repr).Numeral m.2 := by
    intro m hm x hx
    simp only [List.mem_cons, List.not_mem_nil, or_false] at hm
    obtain rfl | rfl := hm <;> cases hx
  rw [receiveReload, reloadBody, decode_maxBytes numeral]
  simp [Writer.token, setMember, fieldOf, reloadFields, stringField]

theorem reportedVersion_written (formatFloat : Datum → List Char) (version : String) :
    reportedVersion ((goWriter formatFloat).object [("model_version",.string version)] ++ ['\n']) =
      some version := by
  have numeral : ∀ m ∈ [("model_version",Data.string version)],
      (goWriter formatFloat).Numeral m.2 := by
    intro m hm x hx
    rw [List.mem_singleton.mp hm] at hx
    cases hx
  have text : (goWriter formatFloat).object [("model_version",.string version)] ++ ['\n'] =
      '\x7b' :: ((goWriter formatFloat).joined
        ([("model_version",.string version)].map (goWriter formatFloat).entry) ++ ['\x7d','\n']) := by
    simp [Writer.object]
  have read := enclosed_object numeral ['\n']
  have whole : loads ((goWriter formatFloat).object [("model_version",.string version)] ++ ['\n']) =
      some [("model_version",.string version)] := by
    rw [text]
    change (enclosed _ _ _ >>= fun r => if skip r.2 = [] then some (Dict.lastWins r.1) else none) = _
    rw [read]
    rfl
  rw [reportedVersion, whole]
  rfl

/-- The router gets the request that the evaluator means. -/
theorem setRouterCanary_over_wire (x : Texts) (config : CanaryConfig F) (fate : Fate)
    (enabled : Bool) {challengerPct shadowPct : Int} (challenger : Word challengerPct)
    (shadow : Word shadowPct) (router : Router.Handler) :
    x.setRouterCanary config fate enabled challengerPct shadowPct router =
      setRouterCanary config fate enabled challengerPct shadowPct router := by
  rw [Texts.setRouterCanary, receiveCanary_body x.repr enabled challenger shadow]
  rfl

section Reload

variable (x : Texts) (E : Serving.Engine V) (load : Serving.LoadEnv) (fate : Fate)
  {modelPath featureOrderPath : String} (adminToken : String) (container : Serving.Handler)

theorem handleReload_status {body : Option Serving.ReloadRequest} {status : Nat} {text : String}
    (h : (Serving.handleReload E load adminToken body container).2 = .error status text) :
    400 ≤ status ∧ status < 600 := by
  unfold Serving.handleReload at h
  split_ifs at h
  · cases h
    decide
  · cases body with
    | none =>
      cases h
      decide
    | some req =>
      dsimp only at h
      split_ifs at h
      · cases h
        decide
      · obtain ⟨newR, _, he⟩ | ⟨e, he⟩ :=
          container.modelRunner.reload_cases E load req.modelPath req.featureOrderPath
        · rw [he] at h
          cases h
        · rw [he] at h
          cases h
          decide

/-- A reply that arrives as bytes says what the handler meant. -/
theorem versionOrRaise_written {reply : Reply Serving.ReloadResponse}
    (refused : ∀ status text, reply = .error status text → 400 ≤ status ∧ status < 600) :
    (versionOrRaise (some (reply.written x.formatFloat
      fun resp => [("model_version",.string resp.modelVersion)]))).toOption =
        ((Reply.raiseForStatus (some reply)).map (·.modelVersion)).toOption := by
  cases reply with
  | ok resp =>
    have fine : ¬(400 ≤ 200 ∧ 200 < 600) := by decide
    simp only [Reply.written, versionOrRaise, if_neg fine, reportedVersion_written]
    rfl
  | error status text =>
    have range := refused status text rfl
    simp only [Reply.written, versionOrRaise, range, and_self, if_true]
    rfl

theorem reloadServing_over_wire
    (fits : bytes (reloadBody x.repr modelPath featureOrderPath) ≤ 4096) :
    (x.reloadServing E load fate modelPath featureOrderPath adminToken container).1 =
      (reloadServing E load fate modelPath featureOrderPath adminToken container).1 ∧
    (x.reloadServing E load fate modelPath featureOrderPath adminToken container).2.toOption =
      (reloadServing E load fate modelPath featureOrderPath adminToken container).2.toOption := by
  have body : receiveReload (reloadBody x.repr modelPath featureOrderPath) =
      some ⟨modelPath,featureOrderPath⟩ := by
    rw [receiveReload_body, if_pos fits]
  rw [Texts.reloadServing, reloadServing]
  cases fate with
  | lost => exact ⟨rfl,rfl⟩
  | unanswered =>
    simp only [Fate.call_unanswered, Texts.handleReload, body]
    exact ⟨trivial,rfl⟩
  | delivered =>
    simp only [Fate.call_delivered, Texts.handleReload, body]
    refine ⟨trivial,versionOrRaise_written x ?_⟩
    exact fun status text refused => handleReload_status E load adminToken container refused

/-- A request that does not fit is refused before anything is loaded. -/
theorem reloadServing_too_long
    (long : ¬bytes (reloadBody x.repr modelPath featureOrderPath) ≤ 4096) :
    (x.reloadServing E load fate modelPath featureOrderPath adminToken container).1 = container ∧
    (x.reloadServing E load fate modelPath featureOrderPath adminToken container).2.toOption =
      none := by
  have body : receiveReload (reloadBody x.repr modelPath featureOrderPath) = none := by
    rw [receiveReload_body, if_neg long]
  have refuses : ∃ status text, Serving.handleReload E load adminToken none container =
      (container,.error status text) := by
    unfold Serving.handleReload
    split_ifs
    · exact ⟨_,_,rfl⟩
    · exact ⟨_,_,rfl⟩
  obtain ⟨status, text, refused⟩ := refuses
  have range : 400 ≤ status ∧ status < 600 :=
    handleReload_status E load adminToken container (congrArg Prod.snd refused)
  rw [Texts.reloadServing]
  cases fate with
  | lost => exact ⟨rfl,rfl⟩
  | unanswered =>
    simp only [Fate.call_unanswered, Texts.handleReload, body, refused]
    exact ⟨trivial,rfl⟩
  | delivered =>
    simp only [Fate.call_delivered, Texts.handleReload, body, refused]
    refine ⟨trivial,?_⟩
    rw [versionOrRaise_written x fun s t equal => by cases equal; exact range]
    rfl

end Reload

/-- Over the wire `apply_decision` is the one that passes its requests whole, but that a promotion
whose two paths do not fit into a request changes nothing. -/
theorem applyDecision_over_wire (x : Texts) (E : Serving.Engine V) (config : CanaryConfig F)
    (env : ApplyEnv) (decision : CanaryDecision F) (p : Platform F) :
    x.applyDecision E config env decision p =
      if decision.decision = .promote ∧ 4096 < bytes
          (reloadBody x.repr config.challengerModelPath config.challengerFeatureOrderPath) then
        (p,.ok ())
      else applyDecision E config env decision p := by
  have off (router : Router.Handler) : x.setRouterCanary config env.post false 0 0 router =
      setRouterCanary config env.post false 0 0 router :=
    setRouterCanary_over_wire x config env.post false (by decide) (by decide) router
  cases hd : decision.decision with
  | «continue» => rw [if_neg (fun h => nomatch h.1), Texts.applyDecision, applyDecision, hd]
  | rollback =>
    rw [if_neg (fun h => nomatch h.1), Texts.applyDecision, applyDecision, hd]
    exact off p.router ▸ rfl
  | promote =>
    by_cases fits : bytes (reloadBody x.repr config.challengerModelPath
        config.challengerFeatureOrderPath) ≤ 4096
    · obtain ⟨container, reported⟩ := reloadServing_over_wire x E env.load env.reload
        config.adminToken p.container fits
      rw [if_neg fun h => absurd fits h.2.not_ge, Texts.applyDecision, applyDecision, hd]
      simp only
      generalize x.reloadServing E env.load env.reload config.challengerModelPath
        config.challengerFeatureOrderPath config.adminToken p.container = wired at container reported ⊢
      generalize reloadServing E env.load env.reload config.challengerModelPath
        config.challengerFeatureOrderPath config.adminToken p.container = direct at container reported ⊢
      obtain ⟨c, result⟩ := wired
      obtain ⟨c', result'⟩ := direct
      cases container
      cases result with
      | error e =>
        cases result' with
        | error e' => rfl
        | ok newVer => cases reported
      | ok newVer =>
        cases result' with
        | error e => cases reported
        | ok newVer' =>
          cases Option.some.inj reported
          exact off p.router ▸ rfl
    · obtain ⟨container, reported⟩ := reloadServing_too_long x E env.load env.reload
        config.adminToken p.container fits
      rw [if_pos ⟨rfl,Nat.lt_of_not_le fits⟩, Texts.applyDecision, hd]
      simp only
      generalize x.reloadServing E env.load env.reload config.challengerModelPath
        config.challengerFeatureOrderPath config.adminToken p.container = wired at container reported ⊢
      obtain ⟨c, result⟩ := wired
      cases container
      cases result with
      | error e => rfl
      | ok newVer => cases reported

end FraudPlatform.Canary
