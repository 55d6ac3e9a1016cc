import Mathlib.Data.List.Sort
import McpOps.Workflow.Repository

/-!
# The SQL repository of workflows

Workflows in the columns of their tables.  Loading builds the models anew, with every check of
their fields, while the copies that the engine stores have been checked by nobody.

A row is written when its texts are not too long for their columns (`WorkflowNodeRow.fits` and its
likes) and the columns take its values (`SqlDialect.takes`).  What texts, JSON values and integers
a column takes is for the database to say: PostgreSQL refuses a text with a NUL in it and an integer
of more than 32 bits, SQLite does not.  Columns of text, of JSON, of integers and of points in time
give back what they have taken.  What comes back from the column of the confidence and from that of
the version is again taken from the database (`SqlDialect.numeric`, `versionColumn`).
-/

namespace McpOps

/-- What is taken from the database, from SQLAlchemy and from Python's numbers. -/
structure SqlDialect where
  /-- `Decimal(str(x))` -/
  toDecimal : PyFloat → ℚ
  /-- `float(d)` -/
  toFloat : ℚ → PyFloat
  /-- what a `Numeric(4, 3)` column keeps of a number -/
  numeric : ℚ → ℚ
  /-- what a `version_id_col` holds after a version is written over another one, or is the first -/
  versionColumn : Option ℕ → ℕ → ℕ
  /-- whether a `Text` column takes a text, and a `String` column one that is not too long -/
  takesText : String → Bool
  /-- whether a `JSON` column takes a value -/
  takesJson : Value → Bool
  /-- whether an `Integer` column takes a number -/
  takesInteger : ℕ → Bool
  /-- how a strict model reads a `datetime` in JSON -/
  parseDatetime : String → Option Time
  runtime : Runtime

/-! ## Enumerations in columns -/

def WorkflowStatus.all : List WorkflowStatus :=
  [.planned, .validated, .running, .waitingApproval, .completed, .failed, .cancelled]

/-- `WorkflowStatus(text)`. -/
def WorkflowStatus.ofValue? (text : String) : Option WorkflowStatus :=
  WorkflowStatus.all.find? fun status => status.value = text

def WorkflowNodeStatus.value : WorkflowNodeStatus → String
  | .pending => "PENDING"
  | .ready => "READY"
  | .blocked => "BLOCKED"
  | .denied => "DENIED"
  | .waitingApproval => "WAITING_APPROVAL"
  | .running => "RUNNING"
  | .succeeded => "SUCCEEDED"
  | .failed => "FAILED"
  | .retrying => "RETRYING"
  | .compensating => "COMPENSATING"
  | .compensated => "COMPENSATED"
  | .skipped => "SKIPPED"
  | .cancelled => "CANCELLED"

def WorkflowNodeStatus.all : List WorkflowNodeStatus :=
  [.pending, .ready, .blocked, .denied, .waitingApproval, .running, .succeeded, .failed,
    .retrying, .compensating, .compensated, .skipped, .cancelled]

/-- `WorkflowNodeStatus(text)`. -/
def WorkflowNodeStatus.ofValue? (text : String) : Option WorkflowNodeStatus :=
  WorkflowNodeStatus.all.find? fun status => status.value = text

def WorkflowApprovalState.value : WorkflowApprovalState → String
  | .notRequired => "NOT_REQUIRED"
  | .waitingApproval => "WAITING_APPROVAL"
  | .approved => "APPROVED"
  | .executionQueued => "EXECUTION_QUEUED"
  | .executing => "EXECUTING"
  | .succeeded => "SUCCEEDED"
  | .rejected => "REJECTED"
  | .expired => "EXPIRED"
  | .failed => "FAILED"

def WorkflowApprovalState.all : List WorkflowApprovalState :=
  [.notRequired, .waitingApproval, .approved, .executionQueued, .executing, .succeeded,
    .rejected, .expired, .failed]

/-- `WorkflowApprovalState(text)`. -/
def WorkflowApprovalState.ofValue? (text : String) : Option WorkflowApprovalState :=
  WorkflowApprovalState.all.find? fun state => state.value = text

/-- `RetryStrategy(text)`. -/
def RetryStrategy.ofValue? (text : String) : Option RetryStrategy :=
  [RetryStrategy.noRetry, .fixedDelay, .exponentialBackoff].find? fun strategy =>
    strategy.value = text

def PolicyDecision.value : PolicyDecision → String
  | .allow => "ALLOW"
  | .allowWithApproval => "ALLOW_WITH_APPROVAL"
  | .deny => "DENY"
  | .requireAdditionalContext => "REQUIRE_ADDITIONAL_CONTEXT"

/-- `PolicyDecision(text)`. -/
def PolicyDecision.ofValue? (text : String) : Option PolicyDecision :=
  [PolicyDecision.allow, .allowWithApproval, .deny, .requireAdditionalContext].find? fun decision =>
    decision.value = text

def ConditionOperator.value : ConditionOperator → String
  | .eq => "eq"
  | .ne => "ne"
  | .gt => "gt"
  | .gte => "gte"
  | .lt => "lt"
  | .lte => "lte"
  | .contains => "contains"
  | .exist => "exists"

/-- `ConditionOperator(text)`. -/
def ConditionOperator.ofValue? (text : String) : Option ConditionOperator :=
  [ConditionOperator.eq, .ne, .gt, .gte, .lt, .lte, .contains, .exist].find? fun operator =>
    operator.value = text

@[simp] theorem WorkflowStatus.ofValue?_value (s : WorkflowStatus) : ofValue? s.value = some s := by
  cases s <;> decide

@[simp] theorem WorkflowNodeStatus.ofValue?_value (s : WorkflowNodeStatus) :
    ofValue? s.value = some s := by
  cases s <;> decide

@[simp] theorem WorkflowApprovalState.ofValue?_value (s : WorkflowApprovalState) :
    ofValue? s.value = some s := by
  cases s <;> decide

@[simp] theorem RetryStrategy.ofValue?_value (s : RetryStrategy) : ofValue? s.value = some s := by
  cases s <;> decide

@[simp] theorem PolicyDecision.ofValue?_value (d : PolicyDecision) :
    ofValue? d.value = some d := by
  cases d <;> decide

@[simp] theorem ConditionOperator.ofValue?_value (o : ConditionOperator) :
    ofValue? o.value = some o := by
  cases o <;> decide

/-! ## The small models in JSON columns -/

/-- A text field of a `dict`. -/
def textField (fields : PyDict) (key : String) : Option String :=
  match fields.lookup key with
  | some (.str text) => some text
  | _ => none

/-- A text or nothing, with nothing as the default. -/
def optionalField (fields : PyDict) (key : String) : Option (Option String) :=
  match fields.lookup key with
  | some (.str text) => some (some text)
  | some .null => some none
  | none => some none
  | _ => none

/-- The JSON of a text or of nothing. -/
def optionalText (text : Option String) : Value := text.elim .null .str

/-- `extra="forbid"`. -/
def onlyFields (fields : PyDict) (names : List String) : Bool :=
  fields.all fun entry => entry.1 ∈ names

/-- `load(fields) if fields else None`. -/
def loadOptional {α : Type} (load : PyDict → Option α) : Option PyDict → Option (Option α)
  | none => some none
  | some fields => if fields.isEmpty then some none else (load fields).map some

/-- The checks of `ArgumentReference`. -/
def ArgumentReference.valid (reference : ArgumentReference) : Bool :=
  hasLength 1 120 reference.argument ∧ hasLength 1 120 reference.sourceNodeId ∧
    hasLength 1 240 reference.outputPath

/-- `reference.model_dump(mode="json")`. -/
def ArgumentReference.dump (reference : ArgumentReference) : PyDict :=
  [("argument", .str reference.argument), ("source_node_id", .str reference.sourceNodeId),
    ("output_path", .str reference.outputPath)]

/-- `ArgumentReference.model_validate(fields)`. -/
def ArgumentReference.load (fields : PyDict) : Option ArgumentReference := do
  let argument ← textField fields "argument"
  let sourceNodeId ← textField fields "source_node_id"
  let outputPath ← textField fields "output_path"
  let reference : ArgumentReference := { argument, sourceNodeId, outputPath }
  if onlyFields fields ["argument", "source_node_id", "output_path"] ∧ reference.valid then
    some reference
  else none

/-- The checks of `WorkflowCondition`. -/
def WorkflowCondition.valid (condition : WorkflowCondition) : Bool :=
  hasLength 1 120 condition.sourceNodeId ∧ hasLength 1 240 condition.outputPath

/-- `typed_condition.model_dump(mode="json")`. -/
def WorkflowCondition.dump (condition : WorkflowCondition) : PyDict :=
  [("source_node_id", .str condition.sourceNodeId), ("output_path", .str condition.outputPath),
    ("operator", .str condition.operator.value), ("value", condition.value)]

/-- `WorkflowCondition.model_validate(fields)`. -/
def WorkflowCondition.load (fields : PyDict) : Option WorkflowCondition := do
  let sourceNodeId ← textField fields "source_node_id"
  let outputPath ← textField fields "output_path"
  let operator ← ((optionalField fields "operator").map (·.getD "eq")).bind
    ConditionOperator.ofValue?
  let condition : WorkflowCondition :=
    { sourceNodeId, outputPath, operator, value := (fields.lookup "value").getD .null }
  if onlyFields fields ["source_node_id", "output_path", "operator", "value"] ∧ condition.valid then
    some condition
  else none

/-- The checks of `WorkflowPolicyEvaluation`. -/
def WorkflowPolicyEvaluation.valid (evaluation : WorkflowPolicyEvaluation) : Bool :=
  hasLength 1 160 evaluation.actor ∧ hasLength 1 64 evaluation.role ∧
    hasLength 1 128 evaluation.tool ∧ evaluation.resource.all (hasLength 0 240) ∧
    hasLength 1 64 evaluation.environment ∧ hasLength 1 32 evaluation.risk ∧
    hasLength 1 160 evaluation.policyRule ∧ hasLength 1 500 evaluation.reason

/-- The checks of `WorkflowAuditEvent`. -/
def WorkflowAuditEvent.valid (event : WorkflowAuditEvent) : Bool :=
  hasLength 1 120 event.eventType ∧ hasLength 1 160 event.actor ∧ hasLength 1 64 event.role ∧
    hasLength 1 600 event.message ∧ event.nodeId.all (hasLength 0 120)

/-- The checks of `WorkflowEdge`. -/
def WorkflowEdge.valid (edge : WorkflowEdge) : Bool :=
  hasLength 1 120 edge.source ∧ hasLength 1 120 edge.destination ∧
    edge.condition.all (hasLength 0 300)

namespace SqlDialect

variable (D : SqlDialect)

/-- `policy_evaluation.model_dump(mode="json")`. -/
def dumpEvaluation (evaluation : WorkflowPolicyEvaluation) : PyDict :=
  [("actor", .str evaluation.actor), ("role", .str evaluation.role), ("tool", .str evaluation.tool),
    ("resource", optionalText evaluation.resource), ("environment", .str evaluation.environment),
    ("risk", .str evaluation.risk), ("decision", .str evaluation.decision.value),
    ("policy_rule", .str evaluation.policyRule), ("reason", .str evaluation.reason),
    ("timestamp", .str (D.runtime.isoformat evaluation.timestamp))]

/-- `WorkflowPolicyEvaluation.model_validate_json(json.dumps(fields))`, with its time in it. -/
def loadEvaluation (fields : PyDict) : Option WorkflowPolicyEvaluation := do
  let actor ← textField fields "actor"
  let role ← textField fields "role"
  let tool ← textField fields "tool"
  let resource ← optionalField fields "resource"
  let environment ← textField fields "environment"
  let risk ← textField fields "risk"
  let decision ← (textField fields "decision").bind PolicyDecision.ofValue?
  let policyRule ← textField fields "policy_rule"
  let reason ← textField fields "reason"
  let timestamp ← (textField fields "timestamp").bind D.parseDatetime
  let evaluation : WorkflowPolicyEvaluation :=
    { actor, role, tool, resource, environment, risk, decision, policyRule, reason, timestamp }
  if onlyFields fields ["actor", "role", "tool", "resource", "environment", "risk", "decision",
      "policy_rule", "reason", "timestamp"] ∧ evaluation.valid then
    some evaluation
  else none

/-- `event.model_dump(mode="json")`. -/
def dumpEvent (event : WorkflowAuditEvent) : PyDict :=
  [("event_type", .str event.eventType), ("actor", .str event.actor), ("role", .str event.role),
    ("message", .str event.message), ("node_id", optionalText event.nodeId),
    ("timestamp", .str (D.runtime.isoformat event.timestamp))]

/-- `WorkflowAuditEvent.model_validate_json(json.dumps(fields))`, with its time in it. -/
def loadEvent (fields : PyDict) : Option WorkflowAuditEvent := do
  let eventType ← textField fields "event_type"
  let actor ← textField fields "actor"
  let role ← textField fields "role"
  let message ← textField fields "message"
  let nodeId ← optionalField fields "node_id"
  let timestamp ← (textField fields "timestamp").bind D.parseDatetime
  let event : WorkflowAuditEvent := { eventType, actor, role, message, nodeId, timestamp }
  if onlyFields fields ["event_type", "actor", "role", "message", "node_id", "timestamp"] ∧
      event.valid then
    some event
  else none

end SqlDialect

/-! ## Rows -/

/-- A row of `workflow_nodes`. -/
structure WorkflowNodeRow where
  workflowId : UUID
  nodeKey : String
  toolName : String
  toolServer : String
  description : String
  arguments : PyDict
  argumentReferences : List PyDict
  dependsOn : List String
  condition : Option String
  typedCondition : Option PyDict
  riskLevel : String
  approvalRequired : Bool
  executionStatus : String
  attempts : ℕ
  maxRetries : ℕ
  retryStrategy : String
  timeoutSeconds : ℕ
  lastError : Option String
  startedAt : Option Time
  completedAt : Option Time
  lastAttemptAt : Option Time
  nextRetryAt : Option Time
  resultReference : Option String
  approvalId : Option UUID
  approvalState : String
  compensationTool : Option String
  policyEvaluation : Option PyDict
  knowledgeReferences : List String

/-- A row of `workflow_edges`. -/
structure WorkflowEdgeRow where
  workflowId : UUID
  sourceNode : String
  destinationNode : String
  condition : Option String

/-- A row of `workflows`. -/
structure WorkflowRow where
  id : UUID
  version : ℕ
  userRequest : String
  status : String
  createdBy : String
  createdAt : Time
  targetEnvironment : String
  plannerModel : String
  confidence : ℚ
  originalPlan : PyDict
  policyTransformedPlan : PyDict
  auditEvents : List PyDict

/-- The tables of the workflows. -/
structure WorkflowTables where
  workflows : Dict UUID WorkflowRow := Dict.empty
  nodes : List WorkflowNodeRow := []
  edges : List WorkflowEdgeRow := []

/-- Why the repository raises. -/
inductive RepositoryFailure where
  /-- a constraint of the tables -/
  | integrityError
  /-- a value that its column does not take -/
  | dataError
  /-- a `ValidationError` of a model -/
  | validationError
  deriving DecidableEq, Repr

/-- The texts of a node row are not too long for their columns. -/
def WorkflowNodeRow.fits (row : WorkflowNodeRow) : Bool :=
  hasLength 0 120 row.nodeKey ∧ hasLength 0 128 row.toolName ∧ hasLength 0 128 row.toolServer ∧
    hasLength 0 32 row.riskLevel ∧ row.resultReference.all (hasLength 0 240) ∧
    row.compensationTool.all (hasLength 0 128)

/-- The texts of an edge row are not too long for their columns. -/
def WorkflowEdgeRow.fits (row : WorkflowEdgeRow) : Bool :=
  hasLength 0 120 row.sourceNode ∧ hasLength 0 120 row.destinationNode

/-- The texts of a workflow row are not too long for their columns. -/
def WorkflowRow.fits (row : WorkflowRow) : Bool :=
  hasLength 0 160 row.createdBy ∧ hasLength 0 64 row.targetEnvironment ∧
    hasLength 0 120 row.plannerModel

/-- `confidence >= 0 AND confidence <= 1`. -/
def WorkflowRow.inRange (row : WorkflowRow) : Bool := 0 ≤ row.confidence ∧ row.confidence ≤ 1

/-! ## Saving -/

namespace SqlDialect

variable (D : SqlDialect)

/-- The columns of a node row take its values. -/
def takesNode (row : WorkflowNodeRow) : Bool :=
  ([row.nodeKey, row.toolName, row.toolServer, row.description, row.riskLevel,
    row.executionStatus, row.retryStrategy, row.approvalState] ++ row.condition.toList ++
      row.lastError.toList ++ row.resultReference.toList ++
      row.compensationTool.toList).all D.takesText &&
    ([Value.dict row.arguments, Value.list (row.argumentReferences.map Value.dict),
      Value.list (row.dependsOn.map Value.str),
      Value.list (row.knowledgeReferences.map Value.str)] ++
        (row.typedCondition.map Value.dict).toList ++
        (row.policyEvaluation.map Value.dict).toList).all D.takesJson &&
    [row.attempts, row.maxRetries, row.timeoutSeconds].all D.takesInteger

/-- The columns of an edge row take its values. -/
def takesEdge (row : WorkflowEdgeRow) : Bool :=
  ([row.sourceNode, row.destinationNode] ++ row.condition.toList).all D.takesText

/-- The columns of a workflow row take its values. -/
def takesWorkflow (row : WorkflowRow) : Bool :=
  [row.userRequest, row.status, row.createdBy, row.targetEnvironment,
    row.plannerModel].all D.takesText &&
    [Value.dict row.originalPlan, Value.dict row.policyTransformedPlan,
      Value.list (row.auditEvents.map Value.dict)].all D.takesJson &&
    D.takesInteger row.version

/-- `WorkflowNodeModel(workflow_id=workflow.id, ...)`. -/
def nodeRow (workflowId : UUID) (node : WorkflowNode) : WorkflowNodeRow where
  workflowId
  nodeKey := node.id
  toolName := node.toolName
  toolServer := node.toolServer
  description := node.description
  arguments := node.arguments
  argumentReferences := node.argumentReferences.map (·.dump)
  dependsOn := node.dependsOn
  condition := node.condition
  typedCondition := node.typedCondition.map (·.dump)
  riskLevel := node.riskLevel
  approvalRequired := node.approvalRequired
  executionStatus := node.executionStatus.value
  attempts := node.attempts
  maxRetries := node.maxRetries
  retryStrategy := node.retryStrategy.value
  timeoutSeconds := node.timeoutSeconds
  lastError := node.lastError
  startedAt := node.startedAt
  completedAt := node.completedAt
  lastAttemptAt := node.lastAttemptAt
  nextRetryAt := node.nextRetryAt
  resultReference := node.resultReference
  approvalId := node.approvalId
  approvalState := node.approvalState.value
  compensationTool := node.compensationTool
  policyEvaluation := node.policyEvaluation.map D.dumpEvaluation
  knowledgeReferences := node.knowledgeReferences

/-- `WorkflowEdgeModel(workflow_id=workflow.id, ...)`. -/
def edgeRow (workflowId : UUID) (edge : WorkflowEdge) : WorkflowEdgeRow where
  workflowId
  sourceNode := edge.source
  destinationNode := edge.destination
  condition := edge.condition

/-- The row of a workflow after a save over the row that is there. -/
def workflowRow (existing : Option WorkflowRow) (workflow : Workflow) : WorkflowRow where
  id := workflow.id
  version := D.versionColumn (existing.map (·.version)) workflow.version
  userRequest := workflow.userRequest
  status := workflow.status.value
  createdBy := workflow.createdBy
  createdAt := existing.elim workflow.createdAt (·.createdAt)
  targetEnvironment := workflow.targetEnvironment
  plannerModel := workflow.plannerModel
  confidence := D.numeric (D.toDecimal workflow.confidence)
  originalPlan := workflow.originalPlan
  policyTransformedPlan := workflow.policyTransformedPlan
  auditEvents := workflow.auditEvents.map D.dumpEvent

/-- The database takes the values of a workflow that is saved over the row that is there. -/
def takes (existing : Option WorkflowRow) (workflow : Workflow) : Bool :=
  D.takesWorkflow (D.workflowRow existing workflow) &&
    (workflow.nodes.map (D.nodeRow workflow.id)).all D.takesNode &&
    (workflow.edges.map (edgeRow workflow.id)).all D.takesEdge

/-- `save_workflow(workflow)`. -/
def saveWorkflow (workflow : Workflow) (db : WorkflowTables) :
    Except RepositoryFailure WorkflowTables :=
  let row := D.workflowRow (db.workflows.get? workflow.id) workflow
  let nodeRows := workflow.nodes.map (D.nodeRow workflow.id)
  let edgeRows := workflow.edges.map (edgeRow workflow.id)
  if ¬ (row.fits ∧ nodeRows.all (·.fits) ∧ edgeRows.all (·.fits)) then .error .dataError
  else if ¬ D.takes (db.workflows.get? workflow.id) workflow then .error .dataError
  else if ¬ (row.inRange ∧ (nodeRows.map (·.nodeKey)).Nodup) then .error .integrityError
  else
    .ok
      { workflows := db.workflows.set workflow.id row
        nodes := (db.nodes.filter fun node => node.workflowId ≠ workflow.id) ++ nodeRows
        edges := (db.edges.filter fun edge => edge.workflowId ≠ workflow.id) ++ edgeRows }

end SqlDialect

/-! ## Loading -/

/-- The checks of `WorkflowNode` on its own fields. -/
def WorkflowNode.valid (node : WorkflowNode) : Bool :=
  hasLength 1 120 node.id ∧ hasLength 1 128 node.toolName ∧ hasLength 1 128 node.toolServer ∧
    hasLength 1 500 node.description ∧ node.argumentReferences.length ≤ 20 ∧
    node.dependsOn.length ≤ 20 ∧ node.dependsOn.Nodup ∧ node.condition.all (hasLength 0 300) ∧
    hasLength 1 32 node.riskLevel ∧ node.maxRetries ≤ 10 ∧
    (1 ≤ node.timeoutSeconds ∧ node.timeoutSeconds ≤ 600) ∧
    node.lastError.all (hasLength 0 600) ∧ node.resultReference.all (hasLength 0 240) ∧
    node.compensationTool.all (hasLength 0 128) ∧ node.knowledgeReferences.length ≤ 20

/-- A confidence from zero to one. -/
def PyFloat.isShare : PyFloat → Bool
  | .finite q => 0 ≤ q ∧ q ≤ 1
  | _ => false

/-- The checks of `Workflow` on its own fields. -/
def Workflow.valid (workflow : Workflow) : Bool :=
  hasLength 2 2000 workflow.userRequest ∧ hasLength 1 160 workflow.createdBy ∧
    hasLength 1 64 workflow.targetEnvironment ∧ hasLength 1 120 workflow.plannerModel ∧
    workflow.confidence.isShare ∧ 1 ≤ workflow.version ∧ workflow.nodes.length ≤ 25 ∧
    workflow.edges.length ≤ 50 ∧ workflow.auditEvents.length ≤ 200

namespace SqlDialect

variable (D : SqlDialect)

/-- The node of a row. -/
def loadNode (workflowId : UUID) (row : WorkflowNodeRow) : Option WorkflowNode := do
  let argumentReferences ← row.argumentReferences.mapM ArgumentReference.load
  let typedCondition ← loadOptional WorkflowCondition.load row.typedCondition
  let executionStatus ← WorkflowNodeStatus.ofValue? row.executionStatus
  let retryStrategy ← RetryStrategy.ofValue? row.retryStrategy
  let approvalState ← WorkflowApprovalState.ofValue? row.approvalState
  let policyEvaluation ← loadOptional D.loadEvaluation row.policyEvaluation
  if h : 1 ≤ row.nodeKey.length ∧ row.nodeKey.length ≤ 120 then
    let node : WorkflowNode :=
      { id := row.nodeKey
        workflowId := some workflowId
        toolName := row.toolName
        toolServer := row.toolServer
        description := row.description
        arguments := row.arguments
        argumentReferences
        dependsOn := row.dependsOn
        condition := row.condition
        typedCondition
        riskLevel := row.riskLevel
        approvalRequired := row.approvalRequired
        executionStatus
        attempts := row.attempts
        maxRetries := row.maxRetries
        retryStrategy
        timeoutSeconds := row.timeoutSeconds
        lastError := row.lastError
        startedAt := row.startedAt
        completedAt := row.completedAt
        lastAttemptAt := row.lastAttemptAt
        nextRetryAt := row.nextRetryAt
        resultReference := row.resultReference
        approvalId := row.approvalId
        approvalState
        compensationTool := row.compensationTool
        policyEvaluation
        knowledgeReferences := row.knowledgeReferences
        id_length := h }
    if node.valid then some node else none
  else none

/-- The edge of a row. -/
def loadEdge (row : WorkflowEdgeRow) : Option WorkflowEdge :=
  let edge : WorkflowEdge :=
    { source := row.sourceNode, destination := row.destinationNode, condition := row.condition }
  if edge.valid then some edge else none

/-- `_workflow_from_model(model)`. -/
def workflowFromRow (row : WorkflowRow) (nodeRows : List WorkflowNodeRow)
    (edgeRows : List WorkflowEdgeRow) : Option Workflow := do
  let status ← WorkflowStatus.ofValue? row.status
  let nodes ← (nodeRows.insertionSort fun a b => ¬ b.nodeKey < a.nodeKey).mapM (D.loadNode row.id)
  let edges ← (edgeRows.insertionSort fun a b => ¬ (b.sourceNode < a.sourceNode ∨
    (b.sourceNode = a.sourceNode ∧ b.destinationNode < a.destinationNode))).mapM loadEdge
  let auditEvents ← row.auditEvents.mapM D.loadEvent
  let workflow : Workflow :=
    { id := row.id
      userRequest := row.userRequest
      status
      createdBy := row.createdBy
      createdAt := row.createdAt
      targetEnvironment := row.targetEnvironment
      plannerModel := row.plannerModel
      confidence := D.toFloat row.confidence
      version := row.version
      nodes
      edges
      originalPlan := row.originalPlan
      policyTransformedPlan := row.policyTransformedPlan
      auditEvents }
  if workflow.valid then some workflow else none

/-- `get_workflow(workflow_id)`. -/
def getWorkflow (workflowId : UUID) (db : WorkflowTables) :
    Except RepositoryFailure (Option Workflow) :=
  match db.workflows.get? workflowId with
  | none => .ok none
  | some row =>
      match D.workflowFromRow row (db.nodes.filter fun node => node.workflowId = workflowId)
        (db.edges.filter fun edge => edge.workflowId = workflowId) with
      | some workflow => .ok (some workflow)
      | none => .error .validationError

end SqlDialect

end McpOps
