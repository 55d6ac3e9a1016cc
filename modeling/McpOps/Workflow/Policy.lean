import McpOps.Workflow.Models

/-!
# The workflow policy

Who may plan and execute which tool in which environment, and what a decision does to a node.

A `verdict` looks at the tool of a node and its arguments, at the role and the environment, and at
the phase, planning or execution.  Its decision is the first of the rules that applies, in the
order of the source, each with the name and the reason that the evaluation reports.  `evaluate`
puts a verdict into a model with limits, and fails where they do not hold.

`decides` is the decision alone, for statements that are not about the report.
-/

namespace McpOps

/-- `READ_DECISIONS`. -/
def readDecisions : List RiskLevel := [.readOnly, .low]

/-- `HIGH_RISK`. -/
def highRisk : List RiskLevel := [.high, .critical]

inductive PolicyPhase where
  | planning
  | execution
  deriving DecidableEq, Repr

/-- A decision with the rule it comes from and the reason for it. -/
structure PolicyVerdict where
  decision : PolicyDecision
  rule : String
  reason : String
  deriving DecidableEq, Repr

structure WorkflowPolicyEvaluator where
  registry : ToolRegistry
  runtime : Runtime

/-- `_normalize_environment(environment)`. -/
def normalizeEnvironment (rt : Runtime) (environment : String) : String :=
  let normalized := rt.lower (rt.strip environment)
  if normalized = "development" ∨ normalized = "local" then "dev"
  else if normalized = "prod" then "production"
  else if normalized = "" then "dev"
  else normalized

/-- `_resource(node)`: the first of the resource keys with a text that is not blank. -/
def nodeResource (rt : Runtime) (node : WorkflowNode) : Option String :=
  ["device_id", "service_name", "pipeline_id", "deployment_id", "repository", "ticket_id",
    "document_id"].findSome? fun key =>
      match node.arguments.get? key with
      | some (.str text) => if rt.strip text = "" then none else some text
      | _ => none

/-- `_role_authorized(role, metadata)`. -/
def roleAuthorized (rt : Runtime) (role : String) (metadata : ToolMetadata) : Bool :=
  if metadata.requiredRoles ≠ [] then rt.upper role ∈ metadata.requiredRoles.map rt.upper
  else
    match Permission.ofValue? metadata.requiredPermission, Role.ofValue? (rt.upper role) with
    | some permission, some role => permission ∈ rolePermissions role
    | _, _ => false

/-- `_requires_context(metadata, environment, node)`. -/
def requiresContext (rt : Runtime) (metadata : ToolMetadata) (environment : String)
    (node : WorkflowNode) : Bool :=
  environment = "production" ∧ metadata.riskLevel ∈ highRisk ∧ nodeResource rt node = none

/-- `_environment_aware_operation_decision(metadata, role, environment)`. -/
def environmentAwareOperationDecision (rt : Runtime) (metadata : ToolMetadata)
    (role environment : String) : PolicyVerdict :=
  if environment = "dev" ∧ metadata.riskLevel = .high then
    ⟨.allow, "environment.dev.high", "High-risk dev action is allowed."⟩
  else if environment = "dev" ∧ metadata.riskLevel = .critical then
    ⟨.allowWithApproval, "environment.dev.critical", "Critical dev action requires approval."⟩
  else if environment = "staging" then
    if metadata.riskLevel = .critical ∧ rt.upper role ≠ "ADMIN" then
      ⟨.deny, "environment.staging.critical", "Only admins may request critical staging actions."⟩
    else
      ⟨.allowWithApproval, "environment.staging.operation",
        "Staging operations require human approval."⟩
  else if environment = "production" then
    if metadata.riskLevel = .critical ∧ rt.upper role ≠ "ADMIN" then
      ⟨.deny, "environment.production.critical",
        "Critical production actions are denied for this role."⟩
    else
      ⟨.allowWithApproval, "environment.production.operation",
        "Production operations require human approval."⟩
  else
    ⟨.allowWithApproval, "environment.unknown.operation",
      "Unknown environments require approval for operational tools."⟩

namespace WorkflowPolicyEvaluator

variable (P : WorkflowPolicyEvaluator)

/-- `_decision(metadata, role, environment, phase, node)`. -/
def decision (metadata : ToolMetadata) (role environment : String) (phase : PolicyPhase)
    (node : WorkflowNode) : PolicyVerdict :=
  let normalizedEnv := normalizeEnvironment P.runtime environment
  if phase = .execution ∧ ¬ metadata.executable then
    ⟨.deny, "tool.executable",
      s!"{metadata.toolName} is catalog-only and cannot execute through MCP yet."⟩
  else if ¬ metadata.enabled then
    ⟨.deny, "tool.enabled", s!"{metadata.toolName} is disabled."⟩
  else if ¬ roleAuthorized P.runtime role metadata then
    ⟨.deny, "rbac.required_permission",
      s!"Role {role} is not authorized for {metadata.requiredPermission}."⟩
  else if requiresContext P.runtime metadata normalizedEnv node then
    ⟨.requireAdditionalContext, "context.required",
      "High-risk production actions require an explicit target resource."⟩
  else if metadata.riskLevel ∈ readDecisions then
    ⟨.allow, "risk.read", "Read-only or low-risk tool is allowed."⟩
  else if metadata.requiresApproval ∨ metadata.riskLevel ∈ highRisk then
    environmentAwareOperationDecision P.runtime metadata role normalizedEnv
  else ⟨.allow, "risk.medium", "Medium-risk engineering action is allowed."⟩

/-- The verdict on a node, and the tool and the risk it is about. -/
def verdict (node : WorkflowNode) (role environment : String) (phase : PolicyPhase) :
    String × String × PolicyVerdict :=
  match P.registry.lookup node.toolName with
  | none =>
      (node.toolName, "UNKNOWN",
        ⟨.deny, "tool.exists", s!"Tool {node.toolName} is not registered."⟩)
  | some metadata =>
      (metadata.toolName, metadata.riskLevel.value, P.decision metadata role environment phase node)

/-- `evaluate(node, ...)` at `now`.  What is proposed for the node only counts for metrics. -/
def evaluate (node : WorkflowNode) (actor role environment : String) (phase : PolicyPhase)
    (now : Time) : Except EngineError WorkflowPolicyEvaluation :=
  let (tool, risk, verdict) := P.verdict node role environment phase
  let evaluation : WorkflowPolicyEvaluation :=
    { actor
      role
      tool
      resource := nodeResource P.runtime node
      environment := normalizeEnvironment P.runtime environment
      risk
      decision := verdict.decision
      policyRule := verdict.rule
      reason := verdict.reason
      timestamp := now }
  if hasLength 1 160 actor ∧ hasLength 1 64 role ∧ hasLength 1 128 tool ∧
      (evaluation.resource.all fun resource => hasLength 0 240 resource) ∧
      hasLength 1 64 evaluation.environment ∧ hasLength 1 32 risk ∧
      hasLength 1 160 verdict.rule ∧ hasLength 1 500 verdict.reason then
    .ok evaluation
  else .error (.validation "WorkflowPolicyEvaluation")

/-- The decision on a node. -/
abbrev decides (node : WorkflowNode) (role environment : String) (phase : PolicyPhase) :
    PolicyDecision := (P.verdict node role environment phase).2.2.decision

theorem of_evaluate {node : WorkflowNode} {actor role environment : String} {phase : PolicyPhase}
    {now : Time} {evaluation : WorkflowPolicyEvaluation}
    (h : P.evaluate node actor role environment phase now = .ok evaluation) :
    evaluation.decision = P.decides node role environment phase ∧
      evaluation.risk = (P.verdict node role environment phase).2.1 := by
  simp only [evaluate] at h
  split at h
  · cases h
    exact ⟨rfl, rfl⟩
  · cases h

end WorkflowPolicyEvaluator

/-- `transform_node_with_policy(node, evaluation, metadata)`. -/
def transformNodeWithPolicy (node : WorkflowNode) (evaluation : WorkflowPolicyEvaluation)
    (metadata : Option ToolMetadata) : WorkflowNode :=
  { node with
    riskLevel := metadata.elim evaluation.risk (·.riskLevel.value)
    approvalRequired := evaluation.decision = .allowWithApproval
    policyEvaluation := some evaluation
    executionStatus :=
      if evaluation.decision = .deny then .denied
      else if evaluation.decision = .requireAdditionalContext then .blocked
      else node.executionStatus }

end McpOps
