import Mathlib.Data.List.Infix
import McpOps.Policy.ToolRegistry

/-!
# The gateway's records

Errors, principals, requests and responses, approval and audit records, and the two hashes that
tie an approval to the operation it was asked for.

An exception is one of the gateway's own, with its class and message, or any other by the name of
its class and its text (`Exn`).  A request carries the length limits that its model checks, so
that no request outside them can be made.

The digest, the JSON texts and `str` of numbers are the library's.  Where it can raise, there is a
second function that says what is raised (`hashArgumentsRaises`, `targetResourceRaises`,
`auditRaises`), so that the hash itself stays a plain function.
-/

namespace McpOps

/-! ## Errors -/

/-- The classes below `GatewayError`. -/
inductive GatewayErrorClass where
  | authenticationFailed
  | unknownTool
  | disabledTool
  | nonExecutableTool
  | permissionDenied
  | malformedArguments
  | serviceUnavailable
  | approvalNotFound
  | expiredApproval
  | duplicateOperation
  | rateLimitExceeded
  | approvalDenied
  | toolTimeout
  deriving DecidableEq, Repr

/-- The name of a class. -/
def GatewayErrorClass.name : GatewayErrorClass → String
  | .authenticationFailed => "AuthenticationFailed"
  | .unknownTool => "UnknownTool"
  | .disabledTool => "DisabledTool"
  | .nonExecutableTool => "NonExecutableTool"
  | .permissionDenied => "PermissionDenied"
  | .malformedArguments => "MalformedArguments"
  | .serviceUnavailable => "ServiceUnavailable"
  | .approvalNotFound => "ApprovalNotFound"
  | .expiredApproval => "ExpiredApproval"
  | .duplicateOperation => "DuplicateOperation"
  | .rateLimitExceeded => "RateLimitExceeded"
  | .approvalDenied => "ApprovalDenied"
  | .toolTimeout => "ToolTimeout"

/-- The `code` of a class. -/
def GatewayErrorClass.code : GatewayErrorClass → String
  | .authenticationFailed => "unauthorized_user"
  | .unknownTool => "unknown_tool"
  | .disabledTool => "tool_disabled"
  | .nonExecutableTool => "tool_not_executable"
  | .permissionDenied => "permission_denied"
  | .malformedArguments => "malformed_arguments"
  | .serviceUnavailable => "service_unavailable"
  | .approvalNotFound => "approval_not_found"
  | .expiredApproval => "expired_approval"
  | .duplicateOperation => "duplicate_operation"
  | .rateLimitExceeded => "rate_limit_exceeded"
  | .approvalDenied => "approval_denied"
  | .toolTimeout => "timeout"

structure GatewayError where
  cls : GatewayErrorClass
  message : String
  deriving DecidableEq, Repr

/-- The code of an error. -/
def GatewayError.code (e : GatewayError) : String := e.cls.code

/-- An exception: one of the gateway's own, or any other by its class name and text. -/
inductive Exn where
  | gateway (e : GatewayError)
  | other (cls message : String)
  deriving DecidableEq, Repr

/-! ## Principals, requests and responses -/

inductive PrincipalType where
  | human
  | aiAgent
  | service
  deriving DecidableEq, Repr

def PrincipalType.value : PrincipalType → String
  | .human => "HUMAN"
  | .aiAgent => "AI_AGENT"
  | .service => "SERVICE"

/-- `PrincipalType(text)`. -/
def PrincipalType.ofValue? (text : String) : Option PrincipalType :=
  [PrincipalType.human, .aiAgent, .service].find? fun t => t.value = text

theorem PrincipalType.ofValue?_value (t : PrincipalType) : ofValue? t.value = some t := by
  cases t <;> rfl

structure Principal where
  principalId : String
  role : Role
  principalType : PrincipalType := .human
  deriving DecidableEq, Repr

inductive GatewayDecision where
  | allowed
  | denied
  | pendingApproval
  deriving DecidableEq, Repr

def GatewayDecision.value : GatewayDecision → String
  | .allowed => "ALLOWED"
  | .denied => "DENIED"
  | .pendingApproval => "PENDING_APPROVAL"

inductive ApprovalStatus where
  | pending
  | approved
  | rejected
  | expired
  | executed
  | failed
  deriving DecidableEq, Repr

namespace ApprovalStatus

def value : ApprovalStatus → String
  | pending => "PENDING"
  | approved => "APPROVED"
  | rejected => "REJECTED"
  | expired => "EXPIRED"
  | executed => "EXECUTED"
  | failed => "FAILED"

/-- `ApprovalStatus(text)`. -/
def ofValue? (text : String) : Option ApprovalStatus :=
  [pending, approved, rejected, expired, executed, failed].find? fun s => s.value = text

theorem ofValue?_value (s : ApprovalStatus) : ofValue? s.value = some s := by
  cases s <;> rfl

/-- A status no operation leads out of. -/
def terminal : ApprovalStatus → Bool
  | pending => false
  | approved => false
  | _ => true

end ApprovalStatus

/-- A tool request, with the length limits its model checks. -/
structure GatewayToolRequest where
  authToken : String
  toolName : String
  arguments : PyDict := []
  idempotencyKey : String
  approvalId : Option UUID := none
  correlationId : UUID
  workflowId : Option UUID := none
  workflowNodeId : Option String := none
  authToken_length : 8 ≤ authToken.length := by decide
  toolName_length : 1 ≤ toolName.length := by decide
  idempotencyKey_length : 8 ≤ idempotencyKey.length ∧ idempotencyKey.length ≤ 160 := by decide
  workflowNodeId_length : ∀ node ∈ workflowNodeId, node.length ≤ 120 := by decide

structure GatewayToolResponse where
  ok : Bool
  decision : GatewayDecision
  correlationId : UUID
  data : PyDict := []
  error : Option (List (String × String)) := none

/-! ## Approval and audit records -/

structure ApprovalRecord where
  approvalId : UUID
  requesterId : String
  requesterType : PrincipalType
  toolName : String
  arguments : PyDict
  riskLevel : RiskLevel
  status : ApprovalStatus := .pending
  createdAt : Time
  expiresAt : Time
  approvedBy : Option String := none
  approvedAt : Option Time := none
  rejectedBy : Option String := none
  rejectedAt : Option Time := none
  executedAt : Option Time := none
  failureReason : Option String := none
  executionResult : Option PyDict := none
  workflowId : Option UUID := none
  workflowNodeId : Option String := none
  argumentsHash : Option String := none
  approvalBindingHash : Option String := none
  version : ℕ := 1

structure AuditRecord where
  timestamp : Time
  actorId : String
  actorRole : Role
  toolName : String
  correlationId : UUID
  decision : GatewayDecision
  authorizationResult : String
  riskLevel : Option RiskLevel := none
  approvalStatus : Option ApprovalStatus := none
  executionStatus : String
  resultSummary : String
  argumentHash : Option String := none
  targetResource : Option String := none

structure ApprovalEvent where
  approvalId : UUID
  eventType : String
  timestamp : Time
  actorId : String
  status : ApprovalStatus
  toolName : String

/-- A text or `None` as a value. -/
def Value.ofOption (text : Option String) : Value := text.elim .null .str

/-- `approval.model_dump(mode="json")`. -/
def ApprovalRecord.modelDump (rt : Runtime) (r : ApprovalRecord) : Value :=
  .dict
    [("approval_id", .str r.approvalId.str), ("requester_id", .str r.requesterId),
      ("requester_type", .str r.requesterType.value), ("tool_name", .str r.toolName),
      ("arguments", .dict r.arguments), ("risk_level", .str r.riskLevel.value),
      ("status", .str r.status.value), ("created_at", .str (rt.isoformat r.createdAt)),
      ("expires_at", .str (rt.isoformat r.expiresAt)), ("approved_by", .ofOption r.approvedBy),
      ("approved_at", .ofOption (r.approvedAt.map rt.isoformat)),
      ("rejected_by", .ofOption r.rejectedBy),
      ("rejected_at", .ofOption (r.rejectedAt.map rt.isoformat)),
      ("executed_at", .ofOption (r.executedAt.map rt.isoformat)),
      ("failure_reason", .ofOption r.failureReason),
      ("execution_result", r.executionResult.elim .null .dict),
      ("workflow_id", .ofOption (r.workflowId.map UUID.str)),
      ("workflow_node_id", .ofOption r.workflowNodeId),
      ("arguments_hash", .ofOption r.argumentsHash),
      ("approval_binding_hash", .ofOption r.approvalBindingHash), ("version", .int r.version)]

/-! ## Hashes -/

/-- `SENSITIVE_KEYS` of the logger. -/
def sensitiveKeys : List String :=
  ["authorization", "api_key", "apikey", "access_token", "refresh_token", "token", "jwt",
    "password", "passwd", "pwd", "secret", "client_secret", "database_url",
    "database_password", "postgres_dsn", "redis_url", "cookie", "set_cookie", "credentials",
    "credential"]

/-- `_is_sensitive_key(key)`. -/
def isSensitiveKey (rt : Runtime) (key : String) : Bool :=
  let normalized := (rt.lower key).toList.map fun c => if c = '-' then '_' else c
  sensitiveKeys.any fun part => part.toList <:+: normalized

mutual

/-- `sanitize_value(value)`. -/
def sanitizeValue (rt : Runtime) : Value → Value
  | .dict entries => .dict (sanitizeEntries rt entries)
  | .list items => .list (sanitizeItems rt items)
  | .str s => .str (rt.sanitizeString s)
  | v => v

/-- The items of a list, sanitized. -/
def sanitizeItems (rt : Runtime) : List Value → List Value
  | [] => []
  | v :: rest => sanitizeValue rt v :: sanitizeItems rt rest

/-- The entries of a mapping, the sensitive ones redacted. -/
def sanitizeEntries (rt : Runtime) : List (String × Value) → List (String × Value)
  | [] => []
  | (key, v) :: rest =>
      (key, if isSensitiveKey rt key then .str "<redacted>" else sanitizeValue rt v) ::
        sanitizeEntries rt rest

end

/-- `hash_arguments(arguments)`. -/
def hashArguments (rt : Runtime) (arguments : PyDict) : String :=
  rt.digest (sanitizeValue rt (.dict arguments))

/-- `_argument_hash(arguments)`. -/
def argumentHash (rt : Runtime) (arguments : PyDict) : String := rt.digest (.dict arguments)

/-- `_approval_binding_hash(request, actor_id, tool_name, arguments)`. -/
def approvalBindingHash (rt : Runtime) (request : GatewayToolRequest) (actorId toolName : String)
    (arguments : PyDict) : String :=
  rt.digest (.dict
    [("workflow_id", .ofOption (request.workflowId.map UUID.str)),
      ("workflow_node_id", .ofOption request.workflowNodeId), ("tool_name", .str toolName),
      ("actor_id", .str actorId), ("arguments_hash", .str (hashArguments rt arguments))])

/-- `_target_resource(arguments)`: the first of the resource keys with a text or a number. -/
def targetResource (rt : Runtime) (arguments : PyDict) : Option String :=
  ["device_id", "repository", "run_id", "job_id", "ticket_id", "document_id",
    "procedure_id"].findSome? fun key =>
      match arguments.get? key with
      | some (.str s) => some s
      | some (.int n) => some (rt.str (.int n))
      | some (.bool b) => some (rt.str (.bool b))
      | _ => none

/-- What `_target_resource(arguments)` raises: the first of the resource keys with a text or a
number has a number that cannot be written. -/
def targetResourceRaises (rt : Runtime) (arguments : PyDict) : Option (String × String) :=
  (["device_id", "repository", "run_id", "job_id", "ticket_id", "document_id",
    "procedure_id"].findSome? fun key =>
      match arguments.get? key with
      | some (.str _) => some none
      | some (.int n) => some (rt.strRaises (.int n))
      | some (.bool b) => some (rt.strRaises (.bool b))
      | _ => none).join

/-- What `hash_arguments(arguments)` raises. -/
def hashArgumentsRaises (rt : Runtime) (arguments : PyDict) : Option (String × String) :=
  rt.sanitizeRaises (.dict arguments) <|> rt.dumpsRaises (sanitizeValue rt (.dict arguments))

/-- What the fields of an audit record raise that are made of the arguments. -/
def auditRaises (rt : Runtime) (arguments : PyDict) : Option (String × String) :=
  rt.dumpsRaises (.dict arguments) <|> targetResourceRaises rt arguments

/-- `_strip_untrusted_model_fields(arguments)`. -/
def stripUntrustedModelFields (arguments : PyDict) : PyDict :=
  arguments.filter fun e =>
    e.1 ∉ ["actor_role", "approval_token", "required_permission", "risk_level"]

end McpOps
