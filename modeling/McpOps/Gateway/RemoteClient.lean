import McpOps.Gateway.Service

/-!
# The remote gateway client

`RemoteMcpGatewayClient` posts a request to the gateway over HTTP and posts it again when the
transport fails.  The transport is what the posts are answered by; what a text is as JSON is a
parameter.

* `readReply` goes through the branches of `_post_json`: a reply with a status from 500 on is a
  transport error, which is tried again; one from 400 on becomes an error response; and what is
  read out of any other reply is the response, or what reading it raises.
* `attempt` is the loop of `call_tool`, with the attempts that are left and the last error.
* `callTool_uses`: every attempt posts the request itself, so nothing else is ever sent.

What the client returns for each answer is the matter of another module.
-/

namespace McpOps

open Proc

/-- The answer of the HTTP server. -/
structure HttpReply where
  status : ℕ
  raw : List UInt8

/-- One post of a request, answered by a reply or by the class name of a transport error. -/
inductive PostOp where
  | post (request : GatewayToolRequest)

/-- What a post answers. -/
@[reducible] def PostOp.Ans : PostOp → Type
  | .post _ => Except String HttpReply

abbrev postInterface : Interface := ⟨PostOp, PostOp.Ans⟩

/-- How the body of a reply is read. -/
inductive BodyOutcome where
  | value (v : Value)
  /-- a `JSONDecodeError` -/
  | malformed
  /-- any other exception -/
  | raises (exn : Exn)

structure RemoteMcpGatewayClient where
  transportRetries : ℤ
  runtime : Runtime
  /-- what `json.dumps(request.model_dump(mode="json"))` raises, if the arguments have no JSON -/
  dumpFailure : GatewayToolRequest → Option Exn
  /-- `json.loads(text)` -/
  jsonLoads : String → BodyOutcome

/-! ## Responses -/

/-- `GatewayDecision(text)`. -/
def GatewayDecision.ofValue? (text : String) : Option GatewayDecision :=
  [GatewayDecision.allowed, .denied, .pendingApproval].find? fun d => d.value = text

/-- The fields of a `GatewayToolResponse`. -/
def responseFields : List String := ["ok", "decision", "correlation_id", "data", "error"]

/-- The texts of a mapping from texts to texts. -/
def textEntries : PyDict → Option (List (String × String))
  | [] => some []
  | (key, .str text) :: rest => (textEntries rest).map ((key, text) :: ·)
  | _ :: _ => none

/-- A field that is a mapping, an empty one where it is missing. -/
def dictField : Option Value → Option PyDict
  | none => some []
  | some (.dict entries) => some entries
  | some _ => none

/-- A field that is `None` or a mapping from texts to texts. -/
def errorField : Option Value → Option (Option (List (String × String)))
  | none => some none
  | some .null => some none
  | some (.dict entries) => (textEntries entries).map some
  | some _ => none

/-- `GatewayToolResponse.model_validate(fields)`, with the decision and the identifier if they are
such; the text of a `ValidationError` is left out. -/
def validateResponse (fields : PyDict) (decision : Option GatewayDecision)
    (correlationId : Option UUID) : Except Exn GatewayToolResponse :=
  match fields.get? "ok", decision, correlationId, dictField (fields.get? "data"),
      errorField (fields.get? "error") with
  | some (.bool ok), some decision, some correlationId, some data, some error =>
      if ∀ entry ∈ fields, entry.1 ∈ responseFields then
        .ok { ok, decision, correlationId, data, error }
      else .error (.other "ValidationError" "GatewayToolResponse")
  | _, _, _, _, _ => .error (.other "ValidationError" "GatewayToolResponse")

/-- `GatewayDecision(value)` if the value is a text. -/
def coerceDecision (rt : Runtime) : Option Value → Except Exn (Option GatewayDecision)
  | some (.str text) =>
      match GatewayDecision.ofValue? text with
      | some decision => .ok (some decision)
      | none => .error (.other "ValueError" (rt.repr text ++ " is not a valid GatewayDecision"))
  | _ => .ok none

/-- `UUID(value)` if the value is a text. -/
def coerceCorrelationId (rt : Runtime) : Option Value → Except Exn (Option UUID)
  | some (.str text) =>
      match rt.parseUuid text with
      | some id => .ok (some id)
      | none => .error (.other "ValueError" "badly formed hexadecimal UUID string")
  | _ => .ok none

/-- `_gateway_response_from_json(payload)`. -/
def gatewayResponseFromJson (rt : Runtime) (payload : Value) : Except Exn GatewayToolResponse :=
  match payload with
  | .dict fields =>
      (coerceDecision rt (PyDict.get? fields "decision")).bind fun decision =>
        (coerceCorrelationId rt (PyDict.get? fields "correlation_id")).bind fun correlationId =>
          validateResponse fields decision correlationId
  | _ => .error (.other "ValueError" "Gateway response must be an object.")

/-- `_transport_failure_response(request, exc)`. -/
def transportFailureResponse (request : GatewayToolRequest) (reason : String) :
    GatewayToolResponse where
  ok := false
  decision := .denied
  correlationId := request.correlationId
  data := [("tool_name", .str request.toolName)]
  error := some
    [("code", "gateway_unavailable"), ("message", "MCP gateway unavailable: " ++ reason)]

/-- `_error_response_from_body(request, payload, status_code)`. -/
def errorResponseFromBody (rt : Runtime) (request : GatewayToolRequest) (payload : Value)
    (statusCode : ℕ) : GatewayToolResponse :=
  let text := fun (error : PyDict) (key fallback : String) => textOr rt error key fallback
  let (code, message) :=
    match payload with
    | .dict body =>
        match PyDict.get? body "error" with
        | some (.dict error) =>
            (text error "code" s!"http_{statusCode}",
              text error "message" "MCP gateway request failed.")
        | _ => (s!"http_{statusCode}", "MCP gateway request failed.")
    | _ => (s!"http_{statusCode}", "MCP gateway request failed.")
  { ok := false
    decision := .denied
    correlationId := request.correlationId
    data := [("tool_name", .str request.toolName)]
    error := some [("code", code), ("message", message)] }

namespace RemoteMcpGatewayClient

variable (client : RemoteMcpGatewayClient)

/-- `json.loads(raw.decode("utf-8"))`. -/
def readBody (raw : List UInt8) : BodyOutcome :=
  match String.fromUTF8? ⟨raw.toArray⟩ with
  | some text => client.jsonLoads text
  | none => .raises (.other "UnicodeDecodeError" "invalid utf-8")

/-- `_post_json(request, payload)` once its reply is there: a transport error to be tried
again, or the result of the call. -/
def readReply (request : GatewayToolRequest) (reply : Except String HttpReply) :
    Except String (Except Exn GatewayToolResponse) :=
  match reply with
  | .error reason => .error reason
  | .ok reply =>
      if 500 ≤ reply.status then .error "ConnectionError"
      else
        match client.readBody reply.raw with
        | .malformed => .ok (.ok (transportFailureResponse request "RuntimeError"))
        | .raises exn => .ok (.error exn)
        | .value body =>
            if 400 ≤ reply.status then
              .ok (.ok (errorResponseFromBody client.runtime request body reply.status))
            else .ok (gatewayResponseFromJson client.runtime body)

/-- The loop of `call_tool`, with the attempts that are left and the last error. -/
def attempt (request : GatewayToolRequest) : ℕ → String →
    Procedure postInterface Exn GatewayToolResponse
  | 0, lastError => .pure (transportFailureResponse request lastError)
  | left + 1, _ => .call (.post request) fun reply =>
      match client.readReply request reply with
      | .error reason => attempt request left reason
      | .ok (.ok response) => .pure response
      | .ok (.error exn) => .raise exn

/-- `call_tool(request)`. -/
def callTool (request : GatewayToolRequest) : Procedure postInterface Exn GatewayToolResponse :=
  match client.dumpFailure request with
  | some exn => .raise exn
  | none => client.attempt request ((max 0 client.transportRetries).toNat + 1) "unknown"

/-- Every attempt posts the request itself. -/
theorem callTool_uses (request : GatewayToolRequest) :
    (client.callTool request).Uses fun (o : PostOp) => o = .post request := by
  suffices h : ∀ left reason,
      (client.attempt request left reason).Uses fun (o : PostOp) => o = .post request by
    unfold callTool
    split
    · trivial
    · exact h _ _
  intro left
  induction left with
  | zero => exact fun _ => trivial
  | succ left ih =>
      refine fun _ => ⟨rfl, fun reply => ?_⟩
      dsimp only
      split
      · exact ih _
      · trivial
      · trivial

end RemoteMcpGatewayClient

end McpOps
