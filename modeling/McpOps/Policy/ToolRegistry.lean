import McpOps.Auth.Rbac
import McpOps.Python.Value

/-!
# Tool metadata

What the server knows about each tool: who may call it, whether a call needs an approval, and what
may be repeated after a failure.  A registry is a dictionary of these under the tool names.

The metadata here are the fields that the gateway and the engine read; how a tool gets into the
registry, with all its fields, is the matter of the module on registration.  The entries at the end
are those of the source, written out for small examples: one tool that is governed, one that only
reads, and one with an effect that must not be repeated.
-/

namespace McpOps

inductive RiskLevel where
  | readOnly
  | low
  | medium
  | high
  | critical
  deriving DecidableEq, Repr

/-- The text of a risk level. -/
def RiskLevel.value : RiskLevel → String
  | .readOnly => "READ_ONLY"
  | .low => "LOW"
  | .medium => "MEDIUM"
  | .high => "HIGH"
  | .critical => "CRITICAL"

/-- `RiskLevel(text)`. -/
def RiskLevel.ofValue? (text : String) : Option RiskLevel :=
  [RiskLevel.readOnly, .low, .medium, .high, .critical].find? fun r => r.value = text

theorem RiskLevel.ofValue?_value (r : RiskLevel) : ofValue? r.value = some r := by
  cases r <;> rfl

inductive RetryStrategy where
  | noRetry
  | fixedDelay
  | exponentialBackoff
  deriving DecidableEq, Repr

/-- The text of a retry strategy. -/
def RetryStrategy.value : RetryStrategy → String
  | .noRetry => "NO_RETRY"
  | .fixedDelay => "FIXED_DELAY"
  | .exponentialBackoff => "EXPONENTIAL_BACKOFF"

/-- The metadata of a tool.  Fields without a default are required by `_register`; the
pattern of `retry_strategy` admits the three strategies only. -/
structure ToolMetadata where
  toolName : String
  domain : String
  riskLevel : RiskLevel
  requiredPermission : String
  requiresApproval : Bool := false
  server : String
  requiredRoles : List String := []
  idempotent : Bool := true
  retrySafe : Bool := false
  defaultMaxRetries : ℕ := 0
  retryStrategy : RetryStrategy := .noRetry
  compensationTool : Option String := none
  executable : Bool := true
  timeoutSeconds : ℕ := 5
  rateLimit : String := "60/minute"
  enabled : Bool := true
  deriving DecidableEq, Repr

/-- A registry: the metadata under each registered name. -/
abbrev ToolRegistry := List (String × ToolMetadata)

/-! ## Entries of `TOOL_REGISTRY` -/

namespace ToolRegistry

/-- A governed tool: restarting a simulator device. -/
def restartDevice : ToolMetadata where
  toolName := "restart_device"
  domain := "device"
  riskLevel := .high
  requiredPermission := "devices:operate"
  requiresApproval := true
  server := "device-mcp"
  timeoutSeconds := 10
  rateLimit := "5/minute"

/-- A tool that only reads. -/
def getDeviceStatus : ToolMetadata where
  toolName := "get_device_status"
  domain := "device"
  riskLevel := .readOnly
  requiredPermission := "devices:read"
  server := "device-mcp"
  rateLimit := "120/minute"

/-- A tool with an effect that must not be repeated. -/
def createTicket : ToolMetadata where
  toolName := "create_ticket"
  domain := "ticket"
  riskLevel := .medium
  requiredPermission := "tickets:create"
  server := "ticket-mcp"
  rateLimit := "30/minute"
  idempotent := false
  retrySafe := false
  defaultMaxRetries := 1
  retryStrategy := .fixedDelay
  compensationTool := some "close_ticket_if_created_by_failed_workflow"

end ToolRegistry

end McpOps
