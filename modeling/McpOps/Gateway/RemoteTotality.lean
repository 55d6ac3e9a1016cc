import McpOps.Gateway.RemoteClient

/-!
# What the remote client answers

The client posts again after a transport error and after a status from 500 on; the first other
reply settles the call.  That reply is read outside the handlers, so the call ends with an answer
to its request only if the body can be decoded and, below status 400, is a gateway response with
the identifier of the request.

## Strategy

`settledBy` is the reply that settles a call, as a function of all replies, and `attempt_run` says
that the loop ends with what this reply is read as.  Without one the call is answered by a failure
(`outcome_of_none`).

So the property of a call becomes one of a reply.  `Readable` goes through what a body may be: not
JSON, which the client has a handler for, or JSON that is read as an answer to the request.
`answers_iff_readable` says that a settled call is answered exactly when the reply is readable, and
`remoteCall_answers_iff` adds the request, which must have a JSON text.
-/

namespace McpOps

open Proc

/-! ## Responses in JSON -/

/-- The entries of an object as the fields of a response. -/
structure ReadsAs (rt : Runtime) (fields : PyDict) (response : GatewayToolResponse) : Prop where
  ok : fields.get? "ok" = some (.bool response.ok)
  decision : ∃ text, fields.get? "decision" = some (.str text) ∧
    GatewayDecision.ofValue? text = some response.decision
  correlationId : ∃ text, fields.get? "correlation_id" = some (.str text) ∧
    rt.parseUuid text = some response.correlationId
  data : dictField (fields.get? "data") = some response.data
  error : errorField (fields.get? "error") = some response.error
  known : ∀ entry ∈ fields, entry.1 ∈ responseFields

theorem coerceDecision_eq_ok_some {rt : Runtime} {value : Option Value}
    {decision : GatewayDecision} :
    coerceDecision rt value = .ok (some decision) ↔
      ∃ text, value = some (.str text) ∧ GatewayDecision.ofValue? text = some decision := by
  constructor
  · intro h
    unfold coerceDecision at h
    split at h
    · rename_i text
      cases hvalue : GatewayDecision.ofValue? text with
      | none =>
          rw [hvalue] at h
          cases h
      | some other =>
          rw [hvalue] at h
          cases h
          exact ⟨text, rfl, hvalue⟩
    · cases h
  · rintro ⟨text, rfl, hvalue⟩
    rw [coerceDecision, hvalue]

theorem coerceCorrelationId_eq_ok_some {rt : Runtime} {value : Option Value} {id : UUID} :
    coerceCorrelationId rt value = .ok (some id) ↔
      ∃ text, value = some (.str text) ∧ rt.parseUuid text = some id := by
  constructor
  · intro h
    unfold coerceCorrelationId at h
    split at h
    · rename_i text
      cases hvalue : rt.parseUuid text with
      | none =>
          rw [hvalue] at h
          cases h
      | some other =>
          rw [hvalue] at h
          cases h
          exact ⟨text, rfl, hvalue⟩
    · cases h
  · rintro ⟨text, rfl, hvalue⟩
    rw [coerceCorrelationId, hvalue]

theorem validateResponse_eq_ok {fields : PyDict} {decision : Option GatewayDecision}
    {correlationId : Option UUID} {response : GatewayToolResponse} :
    validateResponse fields decision correlationId = .ok response ↔
      fields.get? "ok" = some (.bool response.ok) ∧ decision = some response.decision ∧
        correlationId = some response.correlationId ∧
        dictField (fields.get? "data") = some response.data ∧
        errorField (fields.get? "error") = some response.error ∧
        ∀ entry ∈ fields, entry.1 ∈ responseFields := by
  constructor
  · intro h
    unfold validateResponse at h
    split at h
    · rename_i ok decision id data error hok hdata herror
      by_cases hknown : ∀ entry ∈ fields, entry.1 ∈ responseFields
      · rw [if_pos hknown] at h
        cases h
        exact ⟨hok, rfl, rfl, hdata, herror, hknown⟩
      · rw [if_neg hknown] at h
        cases h
    · cases h
  · rintro ⟨hok, rfl, rfl, hdata, herror, hknown⟩
    unfold validateResponse
    rw [hok, hdata, herror]
    exact if_pos hknown

theorem gatewayResponseFromJson_eq_ok {rt : Runtime} {payload : Value}
    {response : GatewayToolResponse} :
    gatewayResponseFromJson rt payload = .ok response ↔
      ∃ fields, payload = .dict fields ∧ ReadsAs rt fields response := by
  constructor
  · intro h
    unfold gatewayResponseFromJson at h
    split at h
    · rename_i fields
      cases hdecision : coerceDecision rt (PyDict.get? fields "decision") with
      | error exn =>
          rw [hdecision] at h
          cases h
      | ok decision =>
          cases hid : coerceCorrelationId rt (PyDict.get? fields "correlation_id") with
          | error exn =>
              rw [hdecision, hid] at h
              cases h
          | ok id =>
              rw [hdecision, hid] at h
              -- both texts are read, and the rest is what the model checks
              obtain ⟨hok, rfl, rfl, hdata, herror, hknown⟩ := validateResponse_eq_ok.mp h
              exact ⟨fields, rfl, hok, coerceDecision_eq_ok_some.mp hdecision,
                coerceCorrelationId_eq_ok_some.mp hid, hdata, herror, hknown⟩
    · cases h
  · rintro ⟨fields, rfl, hreads⟩
    have hdecision : coerceDecision rt (PyDict.get? fields "decision") =
        .ok (some response.decision) := coerceDecision_eq_ok_some.mpr hreads.decision
    have hid : coerceCorrelationId rt (PyDict.get? fields "correlation_id") =
        .ok (some response.correlationId) := coerceCorrelationId_eq_ok_some.mpr hreads.correlationId
    rw [gatewayResponseFromJson, hdecision, hid]
    exact validateResponse_eq_ok.mpr
      ⟨hreads.ok, rfl, rfl, hreads.data, hreads.error, hreads.known⟩

/-! ## The reply that settles a call -/

/-- A reply after which the client does not post again. -/
def settles : Except String HttpReply → Option HttpReply
  | .ok reply => if 500 ≤ reply.status then none else some reply
  | .error _ => none

/-- The first reply of `n` that settles a call. -/
def settledWithin : ℕ → (ℕ → Except String HttpReply) → Option HttpReply
  | 0, _ => none
  | n + 1, replies => settles (replies 0) <|> settledWithin n fun k => replies (k + 1)

/-- The network that answers one post after another. -/
def network : System postInterface Unit (Except String HttpReply) where
  answer o reply s :=
    match o with
    | .post _ => (reply, s)

namespace RemoteMcpGatewayClient

variable (client : RemoteMcpGatewayClient)

/-- How `call_tool(request)` ends when the posts are answered by the replies. -/
def outcome (request : GatewayToolRequest) (replies : ℕ → Except String HttpReply) :
    Except Exn GatewayToolResponse :=
  ((client.callTool request).run network () replies (.start ())).1

/-- The reply that settles a call, if one of its attempts gets one. -/
def settledBy (replies : ℕ → Except String HttpReply) : Option HttpReply :=
  settledWithin ((max 0 client.transportRetries).toNat + 1) replies

/-- The body is not JSON, or is JSON that is read as an answer to the request: with a status from
400 on, or as a gateway response with the identifier of the request that is not `ok` unless the
status is from 200 to 299. -/
def Readable (request : GatewayToolRequest) (reply : HttpReply) : Prop :=
  ∃ text, String.fromUTF8? ⟨reply.raw.toArray⟩ = some text ∧
    (client.jsonLoads text = .malformed ∨ ∃ body, client.jsonLoads text = .value body ∧
      (400 ≤ reply.status ∨ ∃ fields response, body = .dict fields ∧
        ReadsAs client.runtime fields response ∧
        response.correlationId = request.correlationId ∧
        (response.ok → 200 ≤ reply.status ∧ reply.status < 300)))

/-- The call returns a response with the identifier of the request, which is `ok` only for a status
from 200 to 299 and a body that is such a response. -/
def Answers (request : GatewayToolRequest) (replies : ℕ → Except String HttpReply) : Prop :=
  ∃ response, client.outcome request replies = .ok response ∧
    response.correlationId = request.correlationId ∧
    (response.ok → ∃ reply text fields, client.settledBy replies = some reply ∧
      200 ≤ reply.status ∧ reply.status < 300 ∧
      String.fromUTF8? ⟨reply.raw.toArray⟩ = some text ∧
      client.jsonLoads text = .value (.dict fields) ∧ ReadsAs client.runtime fields response)

theorem readReply_of_settles {reply : Except String HttpReply} {settled : HttpReply}
    (h : settles reply = some settled) : reply = .ok settled ∧ ¬500 ≤ settled.status := by
  unfold settles at h
  split at h
  · split_ifs at h with hstatus
    cases h
    exact ⟨rfl, hstatus⟩
  · cases h

theorem readReply_of_not_settles (request : GatewayToolRequest) {reply : Except String HttpReply}
    (h : settles reply = none) : ∃ reason, client.readReply request reply = .error reason := by
  cases reply with
  | error reason => exact ⟨reason, rfl⟩
  | ok reply =>
      unfold settles at h
      dsimp only at h
      split_ifs at h with hstatus
      exact ⟨"ConnectionError", if_pos hstatus⟩

/-- What a settling reply is read as. -/
def readSettled (request : GatewayToolRequest) (reply : HttpReply) :
    Except Exn GatewayToolResponse :=
  match client.readBody reply.raw with
  | .malformed => .ok (transportFailureResponse request "RuntimeError")
  | .raises exn => .error exn
  | .value body =>
      if 400 ≤ reply.status then
        .ok (errorResponseFromBody client.runtime request body reply.status)
      else gatewayResponseFromJson client.runtime body

theorem readReply_eq (request : GatewayToolRequest) {reply : HttpReply}
    (h : ¬500 ≤ reply.status) :
    client.readReply request (.ok reply) = .ok (client.readSettled request reply) := by
  rw [readReply, if_neg h, readSettled]
  cases client.readBody reply.raw with
  | malformed => rfl
  | raises exn => rfl
  | value body =>
      by_cases hstatus : 400 ≤ reply.status
      · dsimp only
        rw [if_pos hstatus, if_pos hstatus]
      · dsimp only
        rw [if_neg hstatus, if_neg hstatus]

/-- The loop ends with what the settling reply is read as, and without one with a failure. -/
theorem attempt_run (request : GatewayToolRequest) (n : ℕ) (lastError : String)
    (replies : ℕ → Except String HttpReply) (r : Run postInterface Unit Unit) :
    (∃ reply, settledWithin n replies = some reply ∧
      ((client.attempt request n lastError).run network () replies r).1 =
        client.readSettled request reply) ∨
    (settledWithin n replies = none ∧ ∃ reason,
      ((client.attempt request n lastError).run network () replies r).1 =
        .ok (transportFailureResponse request reason)) := by
  induction n generalizing lastError replies r with
  | zero => exact .inr ⟨rfl, lastError, rfl⟩
  | succ n ih =>
      rw [attempt, Procedure.run, settledWithin]
      have hanswer : (network.answer (.post request) (replies 0) r.state).1 = replies 0 := rfl
      rw [hanswer]
      cases hsettles : settles (replies 0) with
      | some reply =>
          obtain ⟨hreply, hstatus⟩ := readReply_of_settles hsettles
          left
          refine ⟨reply, rfl, ?_⟩
          rw [hreply, client.readReply_eq request hstatus]
          cases client.readSettled request reply with
          | ok response => rfl
          | error exn => rfl
      | none =>
          obtain ⟨reason, hreason⟩ := client.readReply_of_not_settles request hsettles
          rw [hreason]
          exact ih reason (fun k => replies (k + 1)) _

/-- A call without a settling reply is answered by a failure. -/
theorem outcome_of_none {request : GatewayToolRequest} {replies : ℕ → Except String HttpReply}
    (hdump : client.dumpFailure request = none) (hnone : client.settledBy replies = none) :
    ∃ reason, client.outcome request replies =
      .ok (transportFailureResponse request reason) := by
  rw [outcome, callTool, hdump]
  rcases client.attempt_run request _ "unknown" replies (.start ()) with
    ⟨reply, hsome, -⟩ | ⟨-, hfailure⟩
  · exact absurd (hnone.symm.trans hsome) (Option.some_ne_none reply).symm
  · exact hfailure

theorem outcome_of_some {request : GatewayToolRequest} {replies : ℕ → Except String HttpReply}
    {reply : HttpReply} (hdump : client.dumpFailure request = none)
    (hsome : client.settledBy replies = some reply) :
    client.outcome request replies = client.readSettled request reply := by
  rw [outcome, callTool, hdump]
  rcases client.attempt_run request _ "unknown" replies (.start ()) with
    ⟨other, hother, houtcome⟩ | ⟨hnone, -⟩
  · rw [Option.some.inj (hsome.symm.trans hother)]
    exact houtcome
  · exact absurd (hsome.symm.trans hnone) (Option.some_ne_none reply)

/-- A settled call is answered exactly when the reply is readable. -/
theorem answers_iff_readable {request : GatewayToolRequest}
    {replies : ℕ → Except String HttpReply} {reply : HttpReply}
    (hdump : client.dumpFailure request = none) (hsome : client.settledBy replies = some reply) :
    client.Answers request replies ↔ client.Readable request reply := by
  have houtcome := client.outcome_of_some hdump hsome
  unfold Answers Readable
  rw [houtcome, readSettled, readBody]
  cases htext : String.fromUTF8? ⟨reply.raw.toArray⟩ with
  | none =>
      constructor
      · rintro ⟨response, hok, -⟩
        cases hok
      · rintro ⟨text, hnone, -⟩
        cases hnone
  | some text =>
      dsimp only
      cases hload : client.jsonLoads text with
      | malformed =>
          -- the error response is built for any status
          refine ⟨fun _ => ⟨text, rfl, .inl hload⟩, fun _ => ?_⟩
          exact ⟨_, rfl, rfl, fun hok => by cases hok⟩
      | raises exn =>
          constructor
          · rintro ⟨response, hok, -⟩
            cases hok
          · rintro ⟨other, hother, hmalformed | ⟨body, hbody, -⟩⟩
            · cases hother
              rw [hload] at hmalformed
              cases hmalformed
            · cases hother
              rw [hload] at hbody
              cases hbody
      | value body =>
          dsimp only
          by_cases hstatus : 400 ≤ reply.status
          · rw [if_pos hstatus]
            refine ⟨fun _ => ⟨text, rfl, .inr ⟨body, hload, .inl hstatus⟩⟩, fun _ => ?_⟩
            exact ⟨_, rfl, rfl, fun hok => by cases hok⟩
          · rw [if_neg hstatus]
            -- a body below 400 is an answer exactly when it reads as a response
            constructor
            · rintro ⟨response, hresponse, hid, hok⟩
              obtain ⟨fields, rfl, hreads⟩ := gatewayResponseFromJson_eq_ok.mp hresponse
              refine ⟨text, rfl, .inr ⟨_, hload, .inr ⟨fields, response, rfl, hreads, hid, ?_⟩⟩⟩
              intro htrue
              obtain ⟨other, -, -, hother, hlow, hhigh, -⟩ := hok htrue
              cases hsome.symm.trans hother
              exact ⟨hlow, hhigh⟩
            · rintro ⟨other, hother, hmalformed | ⟨value, hvalue, hread⟩⟩
              · cases hother
                rw [hload] at hmalformed
                cases hmalformed
              · cases hother
                cases hload.symm.trans hvalue
                rcases hread with hlarge | ⟨fields, response, rfl, hreads, hid, hok⟩
                · exact absurd hlarge hstatus
                · refine ⟨response, gatewayResponseFromJson_eq_ok.mpr ⟨fields, rfl, hreads⟩, hid,
                    fun htrue => ?_⟩
                  obtain ⟨hlow, hhigh⟩ := hok htrue
                  exact ⟨reply, text, fields, hsome, hlow, hhigh, htext, hload, hreads⟩

end RemoteMcpGatewayClient

/-- A call is answered exactly when its request can be written as JSON and the reply that settles
it, if there is one, is readable. -/
theorem remoteCall_answers_iff (client : RemoteMcpGatewayClient) (request : GatewayToolRequest)
    (replies : ℕ → Except String HttpReply) :
    client.Answers request replies ↔
      client.dumpFailure request = none ∧
        ∀ reply, client.settledBy replies = some reply → client.Readable request reply := by
  cases hdump : client.dumpFailure request with
  | some exn =>
      constructor
      · rintro ⟨response, hok, -⟩
        rw [RemoteMcpGatewayClient.outcome, RemoteMcpGatewayClient.callTool, hdump] at hok
        cases hok
      · rintro ⟨hnone, -⟩
        cases hnone
  | none =>
      cases hsettled : client.settledBy replies with
      | none =>
          refine ⟨fun _ => ⟨rfl, fun reply hreply => by cases hreply⟩, fun _ => ?_⟩
          obtain ⟨reason, houtcome⟩ := client.outcome_of_none hdump hsettled
          exact ⟨_, houtcome, rfl, fun hok => by cases hok⟩
      | some reply =>
          rw [client.answers_iff_readable hdump hsettled]
          refine ⟨fun hreadable => ⟨rfl, fun other hother => ?_⟩, fun h => h.2 reply rfl⟩
          cases hother
          exact hreadable

/-! ### Replies for small examples -/

/-- A client for bodies that all stand for one value. -/
def RemoteMcpGatewayClient.reading (body : Value) : RemoteMcpGatewayClient where
  transportRetries := 1
  runtime := .plain
  dumpFailure _ := none
  jsonLoads _ := .value body

/-- A response with another identifier. -/
def foreignResponse : Value :=
  .dict [("ok", .bool true), ("decision", .str "ALLOWED"), ("correlation_id", .str (UUID.str 2))]

/-- A body that is no UTF-8 and a body that is no object raise; a redirection with a response to
another request is returned as it is. -/
theorem undecodableBody_raises :
    ¬(RemoteMcpGatewayClient.reading .null).Answers (restartRequest .operator 1 none)
        (fun _ => .ok ⟨200, [255]⟩) ∧
      (RemoteMcpGatewayClient.reading .null).outcome (restartRequest .operator 1 none)
          (fun _ => .ok ⟨200, [255]⟩) =
        .error (.other "UnicodeDecodeError" "invalid utf-8") ∧
      (RemoteMcpGatewayClient.reading .null).outcome (restartRequest .operator 1 none)
          (fun _ => .ok ⟨200, [110]⟩) =
        .error (.other "ValueError" "Gateway response must be an object.") ∧
      (RemoteMcpGatewayClient.reading foreignResponse).outcome (restartRequest .operator 1 none)
          (fun _ => .ok ⟨302, [110]⟩) =
        .ok { ok := true, decision := .allowed, correlationId := 2 } := by
  have hraises : (RemoteMcpGatewayClient.reading .null).outcome (restartRequest .operator 1 none)
      (fun _ => .ok ⟨200, [255]⟩) = .error (.other "UnicodeDecodeError" "invalid utf-8") := by
    rfl
  refine ⟨?_, hraises, rfl, rfl⟩
  rintro ⟨response, hok, -⟩
  rw [hraises] at hok
  cases hok

end McpOps
