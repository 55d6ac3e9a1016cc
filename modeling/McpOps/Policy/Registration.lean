import McpOps.Capabilities.Declarations
import McpOps.Gateway.ArgumentHashes
import McpOps.Policy.PromptInjection
import McpOps.Python.Regex

/-!
# Registration of tools

A tool is registered under its name with a fingerprint of its metadata.  A second registration
under the name is compared by its fingerprint, which covers some of the fields, and never changes
the registry.

`register` follows `_register`: the metadata are built from the arguments with their defaults
(`defaultTags`, `resolvedServer`, `resolvedCategory`), within the bounds of `ToolMetadata`
(`valid`) and the patterns of `validateToolIdentity`, and then the registry is asked for the name.
A `RegistryState` carries the proof that each tool is kept with the fingerprint of its own
metadata, so no invariant about it is needed anywhere else.
-/

namespace McpOps

open Redaction

/-! ## Metadata -/

inductive ServerTrustLevel where
  | core
  | internal
  | partner
  | untrusted
  deriving DecidableEq, Repr

def ServerTrustLevel.value : ServerTrustLevel → String
  | .core => "CORE"
  | .internal => "INTERNAL"
  | .partner => "PARTNER"
  | .untrusted => "UNTRUSTED"

/-- The metadata of a tool, with all its fields. -/
structure RegisteredTool extends CapabilityMetadata where
  description : String
  category : String
  tags : List String := []
  serverTrustLevel : ServerTrustLevel := .internal
  metadataFingerprint : String := ""
  securityFlags : List String := []

/-- A `list[str]`. -/
def Value.ofTexts (texts : List String) : Value := .list (texts.map .str)

/-- `metadata.model_dump(mode="json")`. -/
def RegisteredTool.modelDump (m : RegisteredTool) : PyDict :=
  [("tool_name", .str m.toolName), ("domain", .str m.domain),
    ("description", .str m.description), ("risk_level", .str m.riskLevel.value),
    ("required_permission", .str m.requiredPermission),
    ("requires_approval", .bool m.requiresApproval), ("server", .str m.server),
    ("category", .str m.category), ("tags", .ofTexts m.tags),
    ("required_roles", .ofTexts m.requiredRoles),
    ("server_trust_level", .str m.serverTrustLevel.value),
    ("metadata_fingerprint", .str m.metadataFingerprint),
    ("security_flags", .ofTexts m.securityFlags),
    ("input_resource_types", .ofTexts m.inputResourceTypes),
    ("output_resource_types", .ofTexts m.outputResourceTypes),
    ("preconditions", .ofTexts m.preconditions),
    ("cost_weight", .float (.finite m.costWeight)), ("idempotent", .bool m.idempotent),
    ("retry_safe", .bool m.retrySafe), ("default_max_retries", .int m.defaultMaxRetries),
    ("retry_strategy", .str m.retryStrategy.value),
    ("compensation_tool", .ofOption m.compensationTool), ("executable", .bool m.executable),
    ("timeout_seconds", .int m.timeoutSeconds), ("rate_limit", .str m.rateLimit),
    ("enabled", .bool m.enabled)]

/-- The keys that a fingerprint covers. -/
def fingerprintKeys : List String :=
  ["tool_name", "domain", "description", "risk_level", "required_permission",
    "requires_approval", "server", "category", "required_roles", "executable", "enabled"]

/-- `fingerprint_metadata(payload)`. -/
def fingerprintMetadata (rt : Runtime) (payload : PyDict) : String :=
  rt.digest (.dict (fingerprintKeys.map fun key => (key, (payload.get? key).getD .null)))

/-- `metadata.model_copy(update={"metadata_fingerprint": fingerprint})`. -/
def RegisteredTool.fingerprinted (rt : Runtime) (m : RegisteredTool) : RegisteredTool :=
  { m with metadataFingerprint := fingerprintMetadata rt m.modelDump }

/-! ## Screening -/

/-- Why a registration is refused. -/
inductive RegistrationError where
  | security (reason : String)
  | validation
  | keyError (toolName : String)
  deriving DecidableEq, Repr

/-- `[a-z]`. -/
def isLowerLetter (c : Char) : Bool := 'a' ≤ c && c ≤ 'z'

/-- `[0-9]`. -/
def isAsciiDigit (c : Char) : Bool := '0' ≤ c && c ≤ '9'

/-- `TOOL_NAME_PATTERN`. -/
def toolNamePattern : List RegexPiece :=
  [.chars isLowerLetter 1 (some 1),
    .chars (fun c => isLowerLetter c || isAsciiDigit c || c = '_') 2 (some 127)]

/-- `SERVER_NAME_PATTERN`. -/
def serverNamePattern : List RegexPiece :=
  [.chars isLowerLetter 1 (some 1),
    .chars (fun c => isLowerLetter c || isAsciiDigit c || c = '-') 1 (some 127)]

/-- `validate_tool_identity(tool_name, server)`. -/
def validateToolIdentity (toolName server : String) : Except RegistrationError Unit :=
  if (matchPieces toolNamePattern toolName.toList).isNone then
    .error (.security "invalid_tool_name")
  else if (matchPieces serverNamePattern server.toList).isNone then
    .error (.security "invalid_server_name")
  else .ok ()

/-! ## Registration -/

/-- The arguments of `_register`. -/
structure Registration where
  toolName : String
  domain : String
  description : String
  riskLevel : RiskLevel
  requiredPermission : String
  requiresApproval : Bool := false
  timeoutSeconds : ℤ := 5
  rateLimit : String := "60/minute"
  server : Option String := none
  category : Option String := none
  tags : Option (List String) := none
  requiredRoles : Option (List String) := none
  serverTrustLevel : ServerTrustLevel := .internal
  inputResourceTypes : Option (List String) := none
  outputResourceTypes : Option (List String) := none
  preconditions : Option (List String) := none
  costWeight : ℚ := 1
  idempotent : Bool := true
  retrySafe : Bool := false
  defaultMaxRetries : ℤ := 0
  retryStrategy : String := "NO_RETRY"
  compensationTool : Option String := none
  executable : Bool := true

/-- `text or default`. -/
def textOrDefault (default : String) : Option String → String
  | some text => if text = "" then default else text
  | none => default

/-- `_default_tags(tool_name, description, domain)`. -/
def defaultTags (rt : Runtime) (toolName description domain : String) : List String :=
  let words (text : List Char) := (Runs.words isSpace text).map String.ofList
  let nameWords := words (toolName.toList.map fun c => if c = '_' then ' ' else c)
  let descriptionWords :=
    words ((rt.lower description).toList.filter fun c => c ≠ '.' && c ≠ ',')
  (((domain :: nameWords ++ descriptionWords).dedup.filter fun word => 3 ≤ word.length).mergeSort
    fun a b => decide (a ≤ b))

namespace Registration

variable (rt : Runtime) (c : Registration)

/-- `tags or _default_tags(tool_name, description, domain)`. -/
def resolvedTags : List String :=
  match c.tags with
  | some (first :: rest) => first :: rest
  | _ => defaultTags rt c.toolName c.description c.domain

/-- `server or f"{domain}-mcp"`. -/
def resolvedServer : String := textOrDefault (c.domain ++ "-mcp") c.server

/-- `category or domain`. -/
def resolvedCategory : String := textOrDefault c.domain c.category

/-- The constraints of the fields of `ToolMetadata`, other than the pattern of
`retry_strategy`. -/
def valid : Bool :=
  c.toolName ≠ "" && c.domain ≠ "" && sanitizeDescription c.description.toList ≠ [] &&
    c.requiredPermission ≠ "" && c.resolvedServer ≠ "" && c.resolvedCategory ≠ "" &&
    decide (0 ≤ c.costWeight) && decide (0 ≤ c.defaultMaxRetries ∧ c.defaultMaxRetries ≤ 10) &&
    decide (1 ≤ c.timeoutSeconds ∧ c.timeoutSeconds ≤ 120) && c.rateLimit ≠ ""

/-- `ToolMetadata(..)`, of valid arguments. -/
def build (retryStrategy : RetryStrategy) : RegisteredTool where
  toolName := c.toolName
  domain := c.domain
  description := String.ofList (sanitizeDescription c.description.toList)
  riskLevel := c.riskLevel
  requiredPermission := c.requiredPermission
  requiresApproval := c.requiresApproval
  server := c.resolvedServer
  category := c.resolvedCategory
  tags := c.resolvedTags rt
  requiredRoles := c.requiredRoles.getD []
  serverTrustLevel := c.serverTrustLevel
  inputResourceTypes := c.inputResourceTypes.getD []
  outputResourceTypes := c.outputResourceTypes.getD []
  preconditions := c.preconditions.getD []
  costWeight := c.costWeight.toNNRat
  idempotent := c.idempotent
  retrySafe := c.retrySafe
  defaultMaxRetries := c.defaultMaxRetries.toNat
  retryStrategy
  compensationTool := c.compensationTool
  executable := c.executable
  timeoutSeconds := c.timeoutSeconds.toNat
  rateLimit := c.rateLimit

/-- The metadata that `_register` builds from its arguments, if it comes that far. -/
def metadata : Except RegistrationError RegisteredTool := do
  validateToolIdentity c.toolName c.resolvedServer
  -- metadata are only built without flags
  if detectPromptInjection (sanitizeDescription c.description.toList) then
    .error (.security "suspicious_description")
  else
    match [RetryStrategy.noRetry, .fixedDelay, .exponentialBackoff].find? fun strategy =>
        strategy.value = c.retryStrategy with
    | none => .error .validation
    | some strategy =>
        if c.valid then .ok ((c.build rt strategy).fingerprinted rt) else .error .validation

end Registration

/-- `TOOL_REGISTRY`.  Each tool has the fingerprint of its own metadata. -/
structure RegistryState (rt : Runtime) where
  tools : Dict String RegisteredTool
  fingerprints : ∀ name tool, tools.get? name = some tool →
    tool.metadataFingerprint = fingerprintMetadata rt tool.modelDump

namespace RegistryState

variable {rt : Runtime}

/-- No tools. -/
def empty : RegistryState rt := ⟨Dict.empty, fun _ _ h => by cases h⟩

/-- `TOOL_REGISTRY[name] = metadata`, of metadata with their fingerprint. -/
def store (name : String) (metadata : RegisteredTool) (s : RegistryState rt) :
    RegistryState rt where
  tools := s.tools.set name (metadata.fingerprinted rt)
  fingerprints other tool hfound := by
    rw [Dict.get?_set] at hfound
    split at hfound
    · cases hfound
      rfl
    · exact s.fingerprints other tool hfound

/-- `_register(..)`. -/
def register (c : Registration) (s : RegistryState rt) :
    Except RegistrationError Unit × RegistryState rt :=
  match c.metadata rt with
  | .error e => (.error e, s)
  | .ok metadata =>
      match s.tools.get? c.toolName with
      | some existing =>
          if existing.metadataFingerprint ≠ metadata.metadataFingerprint then
            (.error (.security "conflicting_duplicate_tool"), s)
          else (.ok (), s)
      | none => (.ok (), s.store c.toolName metadata)

end RegistryState

end McpOps
