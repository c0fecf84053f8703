import FraudPlatform.Router.HandleScore
import FraudPlatform.Serving.Handler
import FraudPlatform.Wire

namespace FraudPlatform.Router

open Framework Ieee JsonStruct JsonWire
open Serving.Server (ScoreCall replies logged Corresponds)

/-- What `httpClient.Do` fails with. -/
structure DoError where
  timeout : Bool
  message : String

/-- `json.Marshal(req)` -/
def ScoreRequest.marshal (formatFloat : Datum → List Char) (req : ScoreRequest) : List Char :=
  (goWriter formatFloat).object [("transaction_id",.int req.transactionId)]

def scoreResponseFields : List (StructField (ScoreResponse Datum)) :=
  [intField "transaction_id" fun n sr => { sr with transactionId := n },
    stringField "prediction_id" fun s sr => { sr with predictionId := s },
    floatField "fraud_probability" fun x sr => { sr with fraudProbability := x },
    boolField "flagged" fun b sr => { sr with flagged := b },
    stringField "model_version" fun s sr => { sr with modelVersion := s },
    floatField "latency_ms" fun x sr => { sr with latencyMs := x }]

/-- `var sr ScoreResponse` -/
def emptyResponse : ScoreResponse Datum := ⟨0,"",.finite false 0,false,"",.finite false 0⟩

/-- `Client.Score` from the answer of `Do` on; `jsonError` is the decoder's own text. -/
def clientScore (jsonError : List Char → String) : Except DoError HttpResponse → Scored Datum
  | .error err => .error ⟨if err.timeout then .timeout else .upstream,err.message⟩
  | .ok resp =>
    if resp.statusCode ≠ 200 then
      .error ⟨.upstream,
        s!"status {resp.statusCode}: {String.ofList (maxBytes 512 resp.body)}"⟩
    else
      match decode scoreResponseFields emptyResponse resp.body with
      | none => .error ⟨.upstream,jsonError resp.body⟩
      | some sr => .ok sr

/-- The members of a model service's `scoreResponse`. -/
def scoreResponseMembers (resp : Serving.ScoreResponse Datum) : List (String × Data) :=
  [("transaction_id",.int resp.transactionId),("prediction_id",.string resp.predictionId),
    ("fraud_probability",.float resp.fraudProbability),("flagged",.bool resp.flagged),
    ("model_version",.string resp.modelVersion)]

/-- One call of an upstream: the service with what the call will meet there, the way there and
back, and the texts that Go words itself. -/
structure Upstream where
  service : Serving.Server.Handler
  call : ScoreCall
  fate : Fate
  noReply : DoError
  formatFloat : Datum → List Char
  jsonError : List Char → String

/-- What the service does with these bytes. -/
def Upstream.effects (u : Upstream) (body : List Char) : List Serving.Server.Effect :=
  u.service.score { u.call with body }

/-- The service by its bytes: what it hands to `Log`, and what it answers. -/
def Upstream.serve (u : Upstream) (body : List Char) (log : List (Serving.Record Datum)) :
    List (Serving.Record Datum) × HttpResponse :=
  (log ++ logged (u.effects body),
    match replies (u.effects body) with
    | reply :: _ => reply.written u.formatFloat scoreResponseMembers
    | [] => ⟨200,[]⟩)

/-- `Client.Score` against the service: the records it has handed to `Log`, and the result. -/
def Upstream.score (u : Upstream) (req : ScoreRequest) (log : List (Serving.Record Datum)) :
    List (Serving.Record Datum) × Scored Datum :=
  let called := u.fate.call (u.serve (req.marshal u.formatFloat)) log
  (called.1,clientScore u.jsonError (called.2.elim (.error u.noReply) .ok))

/-- The answer as the router's type has it. -/
def received (resp : Serving.ScoreResponse Datum) : ScoreResponse Datum :=
  ⟨resp.transactionId,resp.predictionId,resp.fraudProbability,resp.flagged,resp.modelVersion,
    .finite false 0⟩

/-- The answer is decoded as it was encoded, and no latency is in it. -/
theorem decode_scoreResponse {formatFloat : Datum → List Char}
    {resp : Serving.ScoreResponse Datum}
    (word : Word resp.transactionId)
    (exact : JsonDump.Exact formatFloat resp.fraudProbability) :
    decode scoreResponseFields emptyResponse
      ((goWriter formatFloat).object (scoreResponseMembers resp) ++ ['\n']) =
        some (received resp) := by
  have numeral : ∀ m ∈ scoreResponseMembers resp, (goWriter formatFloat).Numeral m.2 := by
    intro m hm x hx
    simp only [scoreResponseMembers, List.mem_cons, List.not_mem_nil, or_false] at hm
    obtain ⟨literal, read, _⟩ := exact
    obtain rfl | rfl | rfl | rfl | rfl := hm <;> cases hx
    exact ⟨literal,read⟩
  have probability : parseFloat64 ((goWriter formatFloat).float resp.fraudProbability) =
    some resp.fraudProbability := parseFloat64_exact exact
  rw [decode_object numeral]
  simp [scoreResponseMembers, Writer.token, setMember, fieldOf, scoreResponseFields, intField,
    stringField, floatField, boolField, parsed_of_word word, probability]
  rfl

/-- The request fits, and the service reads the transaction that the router asks for. -/
theorem decode_scoreRequest {formatFloat : Datum → List Char} {req : ScoreRequest}
    (word : Word req.transactionId) :
    decodeInt64 "transaction_id" (maxBytes 4096 (req.marshal formatFloat)) =
      some req.transactionId := by
  have numeral : ∀ m ∈ [("transaction_id",Data.int req.transactionId)],
      (goWriter formatFloat).Numeral m.2 := by
    intro m hm x hx
    rw [List.mem_singleton.mp hm] at hx
    cases hx
  have fits : bytes ((goWriter formatFloat).object [("transaction_id",.int req.transactionId)]) ≤
      4096 := by
    have digits := bytes_int word
    have name : bytes (goString "transaction_id") = 16 := by decide +kernel
    have marks : '\x7b'.utf8Size = 1 ∧ '\x7d'.utf8Size = 1 ∧ ':'.utf8Size = 1 := by decide
    simp only [Writer.object, List.map_singleton, Writer.joined, List.flatMap_nil,
      List.append_nil, Writer.entry, goWriter, Writer.data, List.nil_append, bytes_cons,
      bytes_append, name, marks]
    have none : bytes [] = 0 := rfl
    omega
  rw [decodeInt64_eq, ScoreRequest.marshal, decode_maxBytes numeral, if_pos fits]
  simp [Writer.token, setMember, fieldOf, intField, parsed_of_word word]

/-- What a reply owes to the request: its transaction, or an error that the client can show whole. -/
def Fits (asked : Option Int) : Reply (Serving.ScoreResponse Datum) → Prop
  | .ok resp => asked = some resp.transactionId ∧ resp.transactionId ≠ 0
  | .error status text => status ≠ 200 ∧ bytes text.toList < 512

theorem score_fits (h : Serving.Server.Handler) (x : ScoreCall) : ∃ reply,
    replies (h.score x) = [reply] ∧
      Fits (decodeInt64 "transaction_id" (maxBytes 4096 x.body)) reply := by
  unfold Serving.Server.Handler.score
  split
  · exact ⟨_,rfl,by decide,by decide +kernel⟩
  · exact ⟨_,rfl,by decide,by decide +kernel⟩
  · next transactionId nonzero asked =>
    split
    · exact ⟨_,rfl,by decide,by decide +kernel⟩
    · exact ⟨_,rfl,by decide,by decide +kernel⟩
    · split
      · exact ⟨_,rfl,by decide,by decide +kernel⟩
      · split
        · exact ⟨_,rfl,by decide,by decide +kernel⟩
        · exact ⟨_,rfl,by decide,by decide +kernel⟩
        · exact ⟨_,rfl,asked,nonzero⟩

/-- What `Client.Score` makes of a reply that arrives. -/
def answerOf : Reply (Serving.ScoreResponse Datum) → Scored Datum
  | .ok resp => .ok (received resp)
  | .error status text => .error ⟨.upstream,s!"status {status}: {text}\n"⟩

theorem clientScore_reply {formatFloat : Datum → List Char} {jsonError : List Char → String}
    {reply : Reply (Serving.ScoreResponse Datum)} {asked : Int} (fits : Fits (some asked) reply)
    (word : Word asked)
    (exact : ∀ resp, reply = .ok resp → JsonDump.Exact formatFloat resp.fraudProbability) :
    clientScore jsonError (.ok (reply.written formatFloat scoreResponseMembers)) = answerOf reply := by
  cases reply with
  | ok resp =>
    have same : asked = resp.transactionId := Option.some.inj fits.1
    rw [same] at word
    simp only [clientScore, Reply.written, ne_eq, not_true_eq_false, if_false,
      decode_scoreResponse word (exact resp rfl), answerOf]
  | error status text =>
    have whole : maxBytes 512 (text.toList ++ ['\n']) = text.toList ++ ['\n'] := by
      apply maxBytes_of_le
      have line : bytes ['\n'] = 1 := by decide
      rw [bytes_append, line]
      exact fits.2
    have joined : String.ofList (text.toList ++ ['\n']) = text ++ "\n" := by
      rw [String.ofList_append, String.ofList_toList]
    simp only [clientScore, Reply.written, ne_eq, fits.1, not_false_eq_true, if_true, whole, joined,
      answerOf, toString, String.append_assoc]

theorem Upstream.replied (u : Upstream) {req : ScoreRequest}
    (word : Word req.transactionId) :
    ∃ reply, replies (u.effects (req.marshal u.formatFloat)) = [reply] ∧
      Fits (some req.transactionId) reply := by
  obtain ⟨reply, replied, fits⟩ :=
    score_fits u.service { u.call with body := req.marshal u.formatFloat }
  rw [decode_scoreRequest word] at fits
  exact ⟨reply,replied,fits⟩

/-- The service reads the transaction that the router asks for. An answer the router gets agrees
with the one record that the service hands to `Log`, the model version apart; without an answer
nothing is logged, or the answer was lost on its way back. -/
theorem upstream_answer_logged (u : Upstream) (req : ScoreRequest)
    (log : List (Serving.Record Datum))
    (word : Word req.transactionId)
    (exact : ∀ resp, replies (u.effects (req.marshal u.formatFloat)) = [.ok resp] →
      JsonDump.Exact u.formatFloat resp.fraudProbability) :
    decodeInt64 "transaction_id" (maxBytes 4096 (req.marshal u.formatFloat)) =
      some req.transactionId ∧
    (u.fate = .delivered → ∃ reply, replies (u.effects (req.marshal u.formatFloat)) = [reply] ∧
      (u.score req log).2 = answerOf reply) ∧
    (∀ resp, (u.score req log).2 = .ok resp →
      resp.transactionId = req.transactionId ∧ req.transactionId ≠ 0 ∧
        ∃ response record, resp = received response ∧ (u.score req log).1 = log ++ [record] ∧
          Corresponds u.service.threshold response record) ∧
    ∀ err, (u.score req log).2 = .error err → (u.score req log).1 = log ∨ u.fate = .unanswered := by
  obtain ⟨reply, replied, fits⟩ := u.replied word
  obtain ⟨reply', same, answered, refused⟩ := Serving.Server.score_logs_answer u.service
    { u.call with body := req.marshal u.formatFloat }
  have one : reply = reply' := by
    have both := replied.symm.trans same
    exact (List.cons.inj both).1
  subst one
  have arrives : clientScore u.jsonError (.ok (reply.written u.formatFloat scoreResponseMembers)) =
      answerOf reply := by
    refine clientScore_reply fits word ?_
    intro resp ok
    rw [ok] at replied
    exact exact resp replied
  have delivered (arrived : u.fate = .delivered) : u.score req log =
      (log ++ logged (u.effects (req.marshal u.formatFloat)),answerOf reply) := by
    have served : (u.serve (req.marshal u.formatFloat) log).2 =
        reply.written u.formatFloat scoreResponseMembers := by
      simp only [Upstream.serve, replied]
    rw [Upstream.score, arrived, Fate.call_delivered]
    simp only [Option.elim_some, served, arrives]
    rfl
  have failed (missed : u.fate ≠ .delivered) : ∃ err, (u.score req log).2 = .error err := by
    cases hf : u.fate with
    | delivered => exact absurd hf missed
    | lost =>
      rw [Upstream.score, hf]
      exact ⟨_,rfl⟩
    | unanswered =>
      rw [Upstream.score, hf]
      exact ⟨_,rfl⟩
  refine ⟨decode_scoreRequest word,fun arrived => ⟨reply,replied,by rw [delivered arrived]⟩,?_,?_⟩
  · intro resp ok
    by_cases arrived : u.fate = .delivered
    · rw [delivered arrived] at ok ⊢
      cases reply with
      | error status text => cases ok
      | ok response =>
        cases ok
        obtain ⟨response', record, equal, logs, corresponds⟩ := answered rfl
        cases equal
        have asked : req.transactionId = response.transactionId := Option.some.inj fits.1
        refine ⟨asked.symm,?_,response,record,rfl,congrArg (log ++ ·) logs,corresponds⟩
        rw [asked]
        exact fits.2
    · obtain ⟨err, he⟩ := failed arrived
      rw [he] at ok
      cases ok
  · intro err no
    cases hf : u.fate with
    | unanswered => exact Or.inr rfl
    | lost =>
      left
      rw [Upstream.score, hf]
      rfl
    | delivered =>
      left
      rw [delivered hf] at no ⊢
      cases reply with
      | ok response => cases no
      | error status text =>
        have none : logged (u.effects (req.marshal u.formatFloat)) = [] := refused fits.1
        rw [none, List.append_nil]

def smallUpstream : Upstream where
  service := ⟨fun _ => .ok fun _ => none,fun _ => .ok (.finite false (1 / 2),"hash"),
    .finite false (1 / 2)⟩
  call := ⟨[],⟨.finite false 1,.finite false 1,.finite false 2⟩,"p1","c1","c1",0⟩
  fate := .delivered
  noReply := ⟨true,"deadline"⟩
  formatFloat := Features.decimalText
  jsonError := fun _ => "EOF"

theorem smallUpstream_replies :
    replies (smallUpstream.effects (ScoreRequest.marshal Features.decimalText ⟨7⟩)) =
      [.ok ⟨7,"p1",.finite false (1 / 2),true,"c1"⟩] := by
  decide +kernel

theorem upstream_answer_logged_small : ∃ reply,
    replies (smallUpstream.effects (ScoreRequest.marshal Features.decimalText ⟨7⟩)) = [reply] ∧
      (smallUpstream.score ⟨7⟩ []).2 = answerOf reply := by
  refine (upstream_answer_logged smallUpstream ⟨7⟩ [] (by decide) ?_).2.1 rfl
  intro resp replied
  have both := smallUpstream_replies.symm.trans replied
  rw [← Reply.ok.inj (List.cons.inj both).1]
  exact Features.exact_decimalText.2.1

end FraudPlatform.Router
