import Mathlib.Algebra.Group.Int.Defs
import Mathlib.Data.List.Sort
import McpOps.Workflow.Conditions
import McpOps.Workflow.Validator

/-!
# The workflow engine

`WorkflowPlanningService`: planning from a draft, and `execute`, `resume`, `retry_node` and
`cancel` as procedures over the repository, the clock and the gateway.  Metrics are left out.

The functions stand in the order of their calls, under the names of the source.  Three things are
written differently.

* A loop over nodes is a recursion on the list of them (`runNodes`, `resumeNodes`, `planNodes`),
  and its local variables are a `RunState`.  A turn of the main loop says whether the run stops
  there or goes on (`Turn`).
* The rounds of `_topological_nodes` have fuel, as many rounds as there are nodes.  That it never
  runs out is proved with the graph of the plan.
* What the gateway client raises is a value for `_execute_node`, so that its handlers are cases.

Each operation reads the workflow once and writes it as a whole, so that calls of the engine meet
in the repository only.
-/

namespace McpOps

open Proc

structure WorkflowPlanningService where
  /-- `TOOL_REGISTRY` -/
  toolRegistry : ToolRegistry
  policyEvaluator : WorkflowPolicyEvaluator
  validator : WorkflowValidator
  /-- `draft.model_dump(mode="json")` -/
  dumpDraft : WorkflowPlanDraft → PyDict
  /-- `workflow.model_dump(mode="json", exclude={"policy_transformed_plan"})` -/
  dumpWorkflow : Workflow → PyDict
  runtime : Runtime

namespace WorkflowPlanningService

/-! ## Helper functions of the service -/

/-- The rounds of `_topological_nodes`: the nodes whose dependencies are all done with, sorted
by id, until none remains; nothing when a round has no such node.  Every round removes a node,
so as many rounds as there are nodes suffice. -/
def topologicalRounds : ℕ → Dict String WorkflowNode → Option (List WorkflowNode)
  | 0, remaining => if remaining.entries.isEmpty then some [] else none
  | fuel + 1, remaining =>
      let ready := remaining.values.filter fun node =>
        node.dependsOn.all fun dependency => dependency ∉ remaining.keys
      if remaining.entries.isEmpty then some []
      else if ready.isEmpty then none
      else
        let ordered := ready.insertionSort fun a b => ¬ b.id < a.id
        (topologicalRounds fuel (remaining.filter fun id _ => id ∉ ready.map (·.id))).map
          (ordered ++ ·)

/-- `_topological_nodes(nodes)`. -/
def topologicalNodes (nodes : List WorkflowNode) : List WorkflowNode :=
  (topologicalRounds nodes.length (Workflow.nodesById nodes)).getD nodes

/-- `_retry_due(node)`. -/
def retryDue (node : WorkflowNode) : EngineM Bool :=
  match node.nextRetryAt with
  | none => pure true
  | some retryAt => do
      let now ← timeNow
      pure (retryAt ≤ now)

/-- `_can_be_resumed(node)`. -/
def canBeResumed (node : WorkflowNode) : EngineM Bool :=
  if node.executionStatus = .retrying then retryDue node
  else pure (node.attempts ≤ node.maxRetries ∨ node.compensationTool.any (· ≠ ""))

/-- `_approval_expired(node)`. -/
def approvalExpired (node : WorkflowNode) : EngineM Bool :=
  if node.executionStatus ≠ .waitingApproval then pure false
  else
    match node.lastAttemptAt <|> node.startedAt with
    | none => pure false
    | some started => do
        let now ← timeNow
        pure (started + seconds node.timeoutSeconds ≤ now)

/-- `_expire_waiting_approval(node)`. -/
def expireWaitingApproval (node : WorkflowNode) : EngineM WorkflowNode := do
  let now ← timeNow
  pure
    { node with
      executionStatus := .failed
      approvalState := .expired
      lastError := some "approval expired before workflow resume"
      completedAt := some now }

/-- `_approval_id_from_response(response)`. -/
def approvalIdFromResponse (rt : Runtime) (response : GatewayToolResponse) : Option UUID :=
  match response.data.get? "approval_id" with
  | some (.str text) => rt.parseUuid text
  | _ => none

/-- `_response_error(response)`. -/
def responseError (response : GatewayToolResponse) : String :=
  let text := fun (error : List (String × String)) key =>
    (error.lookup key).filter fun text => text ≠ ""
  match response.error with
  | none => "tool execution failed"
  | some error => ((text error "message") <|> (text error "code")).getD "tool execution failed"

/-- `_failed_approval_state(node, response)`. -/
def failedApprovalState (rt : Runtime) (node : WorkflowNode) (response : GatewayToolResponse) :
    WorkflowApprovalState :=
  if node.approvalId = none ∧ ¬ node.approvalRequired then node.approvalState
  else
    let errorText := (rt.lower (responseError response)).toList
    if "expired".toList <:+: errorText then .expired
    else if "rejected".toList <:+: errorText then .rejected
    else .failed

/-- `_metadata_retryable(metadata)`. -/
def metadataRetryable (metadata : Option ToolMetadata) : Bool :=
  metadata.any fun metadata => metadata.idempotent || metadata.retrySafe

/-- `_retry_allowed(node, metadata)`. -/
def retryAllowed (node : WorkflowNode) (metadata : Option ToolMetadata) : Bool :=
  node.retryStrategy ≠ .noRetry ∧ node.attempts ≤ node.maxRetries ∧ metadataRetryable metadata

/-- `_next_retry_time(node)`. -/
def nextRetryTime (node : WorkflowNode) : EngineM Time := do
  let delaySeconds :=
    match node.retryStrategy with
    | .exponentialBackoff => min 60 (2 ^ (node.attempts - 1))
    | .fixedDelay => 1
    | .noRetry => 0
  let now ← timeNow
  pure (now + seconds delaySeconds)

/-- `_transient_failure(response)`. -/
def transientFailure (response : GatewayToolResponse) : Bool :=
  if response.ok then false
  else (response.error.bind fun error => error.lookup "code").any fun code =>
    code ∈ ["timeout", "network_failure", "tool_server_unavailable", "server_500",
      "rate_limit_exceeded"]

/-- `_role_token(role)`. -/
def roleToken (rt : Runtime) (role : String) : String :=
  match Role.ofValue? (rt.upper role) with
  | some .viewer => "viewer-token"
  | some .engineer => "engineer-token"
  | some .operator => "operator-token"
  | some .admin => "admin-token"
  | none => "viewer-token"

/-- `_failure_response(node, code, message)`. -/
def failureResponse (node : WorkflowNode) (code message : String) :
    EngineM GatewayToolResponse := do
  let correlationId ← freshUuid
  let message := if message = "" then s!"{node.toolName} failed." else message
  pure
    { ok := false
      decision := .denied
      correlationId
      data := [("tool_name", .str node.toolName)]
      error := some [("code", code), ("message", message)] }

/-- `nodes_by_id[node.id] = node`, then `_replace_nodes` and `_checkpoint`. -/
def saveNode (workflow : Workflow) (node : WorkflowNode) (eventType : String) : EngineM Workflow :=
  checkpoint (workflow.replaceNode node) eventType (some node.id)

variable (E : WorkflowPlanningService)

/-! ## Planning -/

/-- The audit event of a node that the policy denies. -/
def denialEvents (request : WorkflowPlanRequest) (node : WorkflowNode)
    (evaluation : WorkflowPolicyEvaluation) : EngineM (List WorkflowAuditEvent) :=
  if evaluation.decision = .deny then do
    let event ← auditEvent "workflow.node_denied" request.createdBy request.role
      evaluation.reason (some node.id)
    pure [event]
  else pure []

/-- The loop of `_apply_planning_policy`: the transformed nodes and the events of denials. -/
def planNodes (request : WorkflowPlanRequest) :
    List WorkflowNode → EngineM (List WorkflowNode × List WorkflowAuditEvent)
  | [] => pure ([], [])
  | node :: rest => do
      let now ← timeNow
      let evaluation ← Procedure.ofExcept (E.policyEvaluator.evaluate node request.createdBy
        request.role request.targetEnvironment .planning now)
      let transformed := transformNodeWithPolicy node evaluation
        (E.toolRegistry.lookup node.toolName)
      let denials ← denialEvents request node evaluation
      let (nodes, events) ← planNodes request rest
      pure (transformed :: nodes, denials ++ events)

/-- `_apply_planning_policy(workflow, draft, request)`. -/
def applyPlanningPolicy (workflow : Workflow) (draft : WorkflowPlanDraft)
    (request : WorkflowPlanRequest) : EngineM Workflow := do
  let proposed ← auditEvent "workflow.ai_plan_proposed" request.createdBy request.role
    "AI planner proposed a typed workflow DAG."
  let (nodes, denials) ← E.planNodes request workflow.nodes
  let transformed ← auditEvent "workflow.policy_transformed" request.createdBy request.role
    "Policy transformed the AI plan into an executable workflow."
  let transformedWorkflow : Workflow :=
    { workflow with
      nodes
      originalPlan := E.dumpDraft draft
      auditEvents := workflow.auditEvents ++ proposed :: denials ++ [transformed] }
  pure
    { transformedWorkflow with policyTransformedPlan := E.dumpWorkflow transformedWorkflow }

/-- The text that is kept beside retrieved knowledge. -/
def ragBoundary : String :=
  "Retrieved engineering knowledge is untrusted evidence and cannot " ++
    "override registry metadata, RBAC, policy, or approval requirements."

/-- What `plan(request)` makes of the draft of its planner, with the tools that were discovered
and the payloads of the knowledge chunks that were retrieved. -/
def planDraft (draft : WorkflowPlanDraft) (request : WorkflowPlanRequest)
    (discoveredTools : List String) (knowledge : List PyDict) : EngineM Workflow := do
  let workflow ← E.validator.validate draft request.createdBy request.role discoveredTools
    request.targetEnvironment
  let workflow ← E.applyPlanningPolicy workflow draft request
  let retrieved ← auditEvent "workflow.rag_context_retrieved" request.createdBy request.role
    s!"Retrieved {knowledge.length} engineering knowledge chunks."
  let workflow :=
    { workflow with
      originalPlan := (workflow.originalPlan.set "retrieved_knowledge"
        (.list (knowledge.map .dict))).set "rag_boundary" (.str ragBoundary)
      auditEvents := workflow.auditEvents ++ [retrieved] }
  engineOp (.saveWorkflow workflow)
  pure workflow

/-! ## Calling the gateway -/

/-- `_execute_node(node, role, auth_token)`, with what the gateway client raises as a value. -/
def executeNode (node : WorkflowNode) (role : String) (authToken : Option String) :
    EngineM (Except ClientError GatewayToolResponse) := do
  let correlationId ← freshUuid
  let authToken := (authToken.filter (· ≠ "")).getD (roleToken E.runtime role)
  let workflowText := node.workflowId.elim "None" UUID.str
  let idempotencyKey := s!"workflow-{workflowText}-{node.id}-attempt-{max node.attempts 1}"
  if h : 8 ≤ authToken.length ∧ 1 ≤ node.toolName.length ∧
      8 ≤ idempotencyKey.length ∧ idempotencyKey.length ≤ 160 then
    engineOp (.callTool
      { authToken
        toolName := node.toolName
        arguments := node.arguments
        idempotencyKey
        approvalId := node.approvalId
        correlationId
        workflowId := node.workflowId
        workflowNodeId := some node.id
        authToken_length := h.1
        toolName_length := h.2.1
        idempotencyKey_length := h.2.2
        workflowNodeId_length := fun id hid => by cases hid; exact node.id_length.2 })
  else .raise (.validation "GatewayToolRequest")

/-- `_compensate_node(node, ...)`, whose gateway call nothing guards. -/
def compensateNode (node : WorkflowNode) (role : String) (workflow : Workflow)
    (authToken : Option String) : EngineM Workflow := do
  let compensating := { node with executionStatus := .compensating }
  let current ← saveNode workflow compensating "workflow.compensation.started"
  let request :=
    { compensating with
      toolName := compensating.compensationTool.getD ""
      arguments :=
        [("workflow_id", .str workflow.id.str), ("failed_node_id", .str node.id),
          ("result_reference", .str (node.resultReference.getD ""))] }
  let answer ← E.executeNode request role authToken
  match answer with
  | .error e => .raise (.client e)
  | .ok response => do
      let now ← timeNow
      let compensated :=
        if response.ok then
          { compensating with
            executionStatus := .compensated
            completedAt := some now
            lastError := none }
        else
          { compensating with
            executionStatus := .failed
            lastError := some (responseError response)
            completedAt := some now }
      saveNode current compensated "workflow.compensation.completed"

/-! ## One attempt at a node -/

/-- The node as it is when an attempt starts. -/
def startAttempt (node : WorkflowNode) : EngineM WorkflowNode := do
  let attemptStarted ← timeNow
  pure
    { node with
      executionStatus := .running
      approvalState := if node.approvalId.isSome then .executing else node.approvalState
      attempts := node.attempts + 1
      startedAt := some (node.startedAt.getD attemptStarted)
      lastAttemptAt := some attemptStarted
      lastError := none }

/-- The running node and the workflow, with the arguments that were resolved. -/
def storeBound (node bound : WorkflowNode) (workflow : Workflow) :
    EngineM (WorkflowNode × Workflow) :=
  if bound.arguments.pyEq node.arguments then pure (node, workflow)
  else do
    let bound := { bound with argumentReferences := [] }
    let workflow ← saveNode workflow bound "workflow.node.arguments_bound"
    pure (bound, workflow)

/-- The handlers of `_execute_node_with_recovery` for what the gateway client raises. -/
def responseOf (node : WorkflowNode) :
    Except ClientError GatewayToolResponse → EngineM GatewayToolResponse
  | .ok response => pure response
  | .error (.timeout message) => failureResponse node "timeout" message
  | .error (.connection message) => failureResponse node "network_failure" message
  | .error (.runtime message) => failureResponse node "tool_server_unavailable" message
  | .error (.other cls message) => .raise (.client (.other cls message))

/-- The `try` block of `_execute_node_with_recovery` with its handlers: the running node, its
arguments bound, the workflow and the response. -/
def attemptNode (node : WorkflowNode) (role : String) (workflow : Workflow)
    (nodeOutputs : NodeOutputs) (authToken : Option String) :
    EngineM (WorkflowNode × Workflow × GatewayToolResponse) :=
  match resolveNodeArguments node nodeOutputs with
  | .error message => do
      let response ← failureResponse node "argument_binding_failed" message
      pure (node, workflow, response)
  | .ok bound => do
      let (node, workflow) ← storeBound node bound workflow
      let answer ← E.executeNode node role authToken
      let response ← responseOf node answer
      pure (node, workflow, response)

/-- The answer `PENDING_APPROVAL`: the node waits. -/
def awaitApproval (node : WorkflowNode) (role : String) (workflow : Workflow)
    (response : GatewayToolResponse) : EngineM Workflow := do
  let approvalId := approvalIdFromResponse E.runtime response
  let waiting :=
    { node with
      executionStatus := .waitingApproval
      approvalId
      approvalState := .waitingApproval
      resultReference := some (approvalId.elim response.correlationId.str UUID.str) }
  let event ← auditEvent "workflow.approval_requested" workflow.createdBy role
    s!"Approval requested for {node.toolName}." (some node.id)
  let workflow :=
    { workflow with
      status := .waitingApproval
      auditEvents := workflow.auditEvents ++ [event] }
  saveNode workflow waiting "workflow.approval.required"

/-- A successful answer: the node has succeeded. -/
def succeedNode (node : WorkflowNode) (workflow : Workflow) (response : GatewayToolResponse) :
    EngineM Workflow := do
  let now ← timeNow
  let succeeded :=
    { node with
      executionStatus := .succeeded
      approvalState := if node.approvalId.isSome then .succeeded else node.approvalState
      resultReference := some response.correlationId.str
      completedAt := some now }
  saveNode workflow succeeded "workflow.node.succeeded"

/-- A failed answer: the node is retried, compensated or left as failed. -/
def failNode (node : WorkflowNode) (role : String) (workflow : Workflow)
    (response : GatewayToolResponse) (authToken : Option String) : EngineM Workflow := do
  let now ← timeNow
  let failed :=
    { node with
      executionStatus := .failed
      approvalState := failedApprovalState E.runtime node response
      resultReference := some response.correlationId.str
      lastError := some (responseError response)
      completedAt := some now }
  let current ← saveNode workflow failed "workflow.node.failed"
  let metadata := E.toolRegistry.lookup failed.toolName
  if transientFailure response ∧ retryAllowed failed metadata then do
    let nextRetryAt ← nextRetryTime failed
    let retrying :=
      { failed with
        executionStatus := .retrying
        nextRetryAt := some nextRetryAt
        completedAt := none }
    saveNode current retrying "workflow.node.retrying"
  else if failed.compensationTool.any (· ≠ "") then
    E.compensateNode failed role current authToken
  else pure current

/-- `_execute_node_with_recovery(node, ...)`: the workflow and the outputs of the nodes.  The
body of its loop always returns. -/
def executeNodeWithRecovery (node : WorkflowNode) (role : String) (workflow : Workflow)
    (nodeOutputs : NodeOutputs) (authToken : Option String) :
    EngineM (Workflow × NodeOutputs) := do
  let running ← startAttempt node
  let current ← saveNode workflow running "workflow.node.started"
  let (running, current, response) ← E.attemptNode running role current nodeOutputs authToken
  if response.decision = .pendingApproval then do
    let workflow ← E.awaitApproval running role current response
    pure (workflow, nodeOutputs)
  else if response.ok then do
    let workflow ← succeedNode running current response
    pure (workflow, nodeOutputs.set node.id (normalizeToolOutput response.data))
  else do
    let workflow ← E.failNode running role current response authToken
    pure (workflow, nodeOutputs)

/-! ## Running a workflow -/

/-- `_finish_workflow(workflow, role)`. -/
def finishWorkflow (workflow : Workflow) (role : String) : EngineM Workflow := do
  let failed := workflow.nodes.any fun node =>
    node.executionStatus ∈ [WorkflowNodeStatus.failed, .denied, .blocked]
  let finalStatus : WorkflowStatus := if failed then .failed else .completed
  let event ← auditEvent "workflow.execution_finished" workflow.createdBy role
    s!"Workflow execution finished with status {finalStatus.value}."
  checkpoint
    { workflow with
      status := finalStatus
      auditEvents := workflow.auditEvents ++ [event] }
    "workflow.completed"

/-- The local variables of the loop of `_run_workflow`. -/
structure RunState where
  updated : Workflow
  nodeOutputs : NodeOutputs
  completed : List String

/-- How the turn of a node ends: `_run_workflow` returns, or goes on with the next node. -/
inductive Turn where
  | stop (workflow : Workflow)
  | go (state : RunState)

/-- `_run_workflow` after `_execute_node_with_recovery`: what has become of the node decides. -/
def afterExecution (node : WorkflowNode) (role : String) (state : RunState) (updated : Workflow)
    (nodeOutputs : NodeOutputs) : EngineM Turn := do
  let latest := ((Workflow.nodesById updated.nodes).get? node.id).getD node
  if latest.executionStatus = .waitingApproval then pure (.stop updated)
  else if latest.executionStatus = .retrying then pure (.stop updated)
  else if latest.executionStatus = .failed ∨ latest.executionStatus = .blocked then do
    let finished ← finishWorkflow updated role
    pure (.stop finished)
  else pure (.go { updated, nodeOutputs, completed := node.id :: state.completed })

/-- The node as it is when its turn has come. -/
def readyNode (node : WorkflowNode) : WorkflowNode :=
  { node with
    executionStatus := .ready
    approvalState :=
      if node.executionStatus = .waitingApproval ∧ node.approvalId.isSome then .executionQueued
      else node.approvalState }

/-- The checkpoint of a node whose approved execution is queued. -/
def announceQueued (workflow : Workflow) (ready : WorkflowNode) : EngineM Workflow :=
  if ready.approvalState = .executionQueued then
    checkpoint workflow "workflow.approval.execution_queued" (some ready.id)
  else pure workflow

/-- The turn of a node that is ready: the policy, then the attempt. -/
def runReadyNode (workflow : Workflow) (node : WorkflowNode) (role : String)
    (authToken : Option String) (state : RunState) : EngineM Turn := do
  let ready := readyNode node
  let updated ← saveNode state.updated ready "workflow.node.ready"
  let updated ← announceQueued updated ready
  let now ← timeNow
  let evaluation ← Procedure.ofExcept (E.policyEvaluator.evaluate ready workflow.createdBy role
    workflow.targetEnvironment .execution now)
  let policyNode := transformNodeWithPolicy ready evaluation (E.toolRegistry.lookup node.toolName)
  let updated ← saveNode updated policyNode "workflow.node.policy_evaluated"
  if evaluation.decision = .deny then do
    let completedAt ← timeNow
    let denied :=
      { policyNode with
        executionStatus := .denied
        lastError := some evaluation.reason
        completedAt := some completedAt }
    let updated ← saveNode updated denied "workflow.node.failed"
    pure (.go { state with updated })
  else if evaluation.decision = .requireAdditionalContext then do
    let blocked :=
      { policyNode with
        executionStatus := .blocked
        lastError := some evaluation.reason }
    let updated ← saveNode updated blocked "workflow.node.failed"
    pure (.go { state with updated })
  else do
    let (updated, nodeOutputs) ←
      E.executeNodeWithRecovery policyNode role updated state.nodeOutputs authToken
    afterExecution node role state updated nodeOutputs

/-- The turn of a node whose condition has been looked at. -/
def runConditionedNode (workflow : Workflow) (node : WorkflowNode) (role : String)
    (authToken : Option String) (state : RunState) : EngineM Turn :=
  match conditionIsSatisfied E.runtime node state.nodeOutputs with
  | .error (.typeError message) => .raise (.typeError message)
  | .error (.evaluation message) => do
      let blocked :=
        { node with
          executionStatus := .blocked
          lastError := some s!"condition evaluation failed: {message}" }
      let updated ← saveNode state.updated blocked "workflow.node.failed"
      let finished ← finishWorkflow updated role
      pure (.stop finished)
  | .ok false => do
      let skipped := { node with executionStatus := .skipped }
      let updated ← saveNode state.updated skipped "workflow.node.skipped"
      pure (.go { state with updated })
  | .ok true => E.runReadyNode workflow node role authToken state

/-- Whether a node may be taken up: a node in `RETRYING` only when its retry is due. -/
def mayStart (node : WorkflowNode) : EngineM Bool :=
  if node.executionStatus = .retrying then retryDue node else pure true

/-- The body of the loop of `_run_workflow`. -/
def runNode (workflow : Workflow) (node : WorkflowNode) (role : String)
    (authToken : Option String) (state : RunState) : EngineM Turn := do
  let due ← mayStart node
  if due = false then pure (.stop state.updated)
  else if node.executionStatus.settled then pure (.go state)
  else if ¬ node.dependsOn.all fun dependency => dependency ∈ state.completed then do
    let blocked := { node with executionStatus := .blocked }
    let updated ← saveNode state.updated blocked "workflow.node.blocked"
    pure (.go { state with updated })
  else E.runConditionedNode workflow node role authToken state

/-- The loop of `_run_workflow`. -/
def runNodes (workflow : Workflow) (role : String) (authToken : Option String) :
    List WorkflowNode → RunState → EngineM Workflow
  | [], state => finishWorkflow state.updated role
  | node :: rest, state => do
      let turn ← E.runNode workflow node role authToken state
      match turn with
      | .stop workflow => pure workflow
      | .go state => runNodes workflow role authToken rest state

/-- What the loop of `_run_workflow` starts from: the references of earlier results and the
nodes that are done. -/
def initialState (updated : Workflow) : RunState where
  updated
  nodeOutputs := updated.nodes.foldl
    (fun outputs node =>
      match node.executionStatus.done, node.resultReference with
      | true, some reference => outputs.set node.id [("result_reference", .str reference)]
      | _, _ => outputs) Dict.empty
  completed := (updated.nodes.filter fun node => node.executionStatus.done).map (·.id)

/-- `_run_workflow(workflow, role, resumed, auth_token)`. -/
def runWorkflow (workflow : Workflow) (role : String) (resumed : Bool)
    (authToken : Option String) : EngineM Workflow := do
  let event ← auditEvent (if resumed then "workflow.resumed" else "workflow.started")
    workflow.createdBy role "Workflow execution started from persisted state."
  let updated ← checkpoint
    { workflow with
      status := .running
      version := workflow.version + 1
      auditEvents := workflow.auditEvents ++ [event] }
    "workflow.started"
  E.runNodes workflow role authToken (topologicalNodes updated.nodes) (initialState updated)

/-! ## The operations of the service -/

/-- `execute(workflow_id, role, auth_token)`. -/
def execute (workflowId : UUID) (role : String) (authToken : Option String) :
    EngineM Workflow := do
  let workflow ← getWorkflow workflowId
  if workflow.status = .cancelled then pure workflow
  else if workflow.status = .waitingApproval then pure workflow
  else E.runWorkflow workflow role false authToken

/-- The node as `resume` takes it up. -/
def resumeNode (node : WorkflowNode) : EngineM WorkflowNode := do
  if ← approvalExpired node then expireWaitingApproval node
  else if node.executionStatus ∈ [WorkflowNodeStatus.failed, .blocked, .retrying, .running] then do
    if ← canBeResumed node then pure { node with executionStatus := .pending }
    else pure node
  else pure node

def resumeNodes : List WorkflowNode → EngineM (List WorkflowNode)
  | [] => pure []
  | node :: rest => do
      let node ← resumeNode node
      let rest ← resumeNodes rest
      pure (node :: rest)

/-- `resume(workflow_id, role, auth_token)`. -/
def resume (workflowId : UUID) (role : String) (authToken : Option String) :
    EngineM Workflow := do
  let workflow ← getWorkflow workflowId
  if workflow.status = .cancelled then pure workflow
  else do
    let nodes ← resumeNodes workflow.nodes
    let event ← auditEvent "workflow.resume_requested" workflow.createdBy role
      "Workflow resume requested from persisted checkpoint."
    let resumed :=
      { workflow with
        status := .running
        version := workflow.version + 1
        nodes
        auditEvents := workflow.auditEvents ++ [event] }
    engineOp (.saveWorkflow resumed)
    E.runWorkflow resumed role true authToken

/-- The node as `retry_node` leaves it. -/
def retryTarget (nodeId : String) (node : WorkflowNode) : WorkflowNode :=
  if node.id ≠ nodeId then node
  else if ¬ metadataRetryable (E.toolRegistry.lookup node.toolName) then
    { node with
      executionStatus := .failed
      lastError := some "manual retry denied for non-idempotent tool" }
  else
    { node with
      executionStatus := .pending
      lastError := none
      nextRetryAt := none }

/-- `retry_node(workflow_id, node_id, role, auth_token)`. -/
def retryNode (workflowId : UUID) (nodeId : String) (role : String) (authToken : Option String) :
    EngineM Workflow := do
  let workflow ← getWorkflow workflowId
  if nodeId ∉ workflow.nodeIds then .raise (.workflowNotFound (workflowId.str ++ ":" ++ nodeId))
  else do
    let event ← auditEvent "workflow.node.retry_requested" workflow.createdBy role
      s!"Manual retry requested for node {nodeId}." (some nodeId)
    let updated :=
      { workflow with
        status := .running
        version := workflow.version + 1
        nodes := workflow.nodes.map (E.retryTarget nodeId)
        auditEvents := workflow.auditEvents ++ [event] }
    engineOp (.saveWorkflow updated)
    E.runWorkflow updated role true authToken

/-- The node as `cancel` leaves it. -/
def cancelNode (node : WorkflowNode) : WorkflowNode :=
  if node.executionStatus ∈
      [WorkflowNodeStatus.pending, .blocked, .denied, .waitingApproval, .running] then
    { node with executionStatus := .cancelled }
  else node

/-- `cancel(workflow_id, role)`. -/
def cancel (workflowId : UUID) (role : String) : EngineM Workflow := do
  let workflow ← getWorkflow workflowId
  let event ← auditEvent "workflow.cancelled" workflow.createdBy role
    "Workflow cancellation requested through API."
  let cancelled :=
    { workflow with
      status := .cancelled
      version := workflow.version + 1
      nodes := workflow.nodes.map cancelNode
      auditEvents := workflow.auditEvents ++ [event] }
  engineOp (.saveWorkflow cancelled)
  pure cancelled

end WorkflowPlanningService

/-- A call of one of the operations on a stored workflow. -/
inductive WorkflowCall where
  | execute (workflowId : UUID) (role : String) (authToken : Option String)
  | resume (workflowId : UUID) (role : String) (authToken : Option String)
  | retryNode (workflowId : UUID) (nodeId role : String) (authToken : Option String)
  | cancel (workflowId : UUID) (role : String)

/-- The workflow that a call is about. -/
def WorkflowCall.workflowId : WorkflowCall → UUID
  | .execute workflowId _ _ => workflowId
  | .resume workflowId _ _ => workflowId
  | .retryNode workflowId _ _ _ => workflowId
  | .cancel workflowId _ => workflowId

/-- The code of a call. -/
def WorkflowPlanningService.serve (E : WorkflowPlanningService) : WorkflowCall → EngineM Workflow
  | .execute workflowId role authToken => E.execute workflowId role authToken
  | .resume workflowId role authToken => E.resume workflowId role authToken
  | .retryNode workflowId nodeId role authToken => E.retryNode workflowId nodeId role authToken
  | .cancel workflowId role => cancel workflowId role

/-! ### A service for small examples -/

/-- A service with three tools and no input schemas. -/
def WorkflowPlanningService.small : WorkflowPlanningService where
  toolRegistry := [("restart_device", ToolRegistry.restartDevice),
    ("get_device_status", ToolRegistry.getDeviceStatus),
    ("create_ticket", ToolRegistry.createTicket)]
  policyEvaluator :=
    { registry := [("restart_device", ToolRegistry.restartDevice),
        ("get_device_status", ToolRegistry.getDeviceStatus),
        ("create_ticket", ToolRegistry.createTicket)]
      runtime := .plain }
  validator :=
    { registry := [("restart_device", ToolRegistry.restartDevice),
        ("get_device_status", ToolRegistry.getDeviceStatus),
        ("create_ticket", ToolRegistry.createTicket)]
      runtime := .plain }
  dumpDraft draft := [("user_request", .str draft.userRequest)]
  dumpWorkflow workflow := [("user_request", .str workflow.userRequest)]
  runtime := .plain

/-- The surroundings at second `n`: a new id is `n`, and the gateway answers as given. -/
def EngineEnv.at (n : ℕ) (gateway : Except ClientError GatewayToolResponse) : EngineEnv where
  clock := seconds n
  freshId := n
  gateway

/-- The length of the id of a node that restarts a device. -/
theorem restartId_length : 1 ≤ "restart".length ∧ "restart".length ≤ 120 := by decide

/-- A tool that has succeeded. -/
def succeededResponse : GatewayToolResponse where
  ok := true
  decision := .allowed
  correlationId := 1
  data := [("tool_result", .dict [("ok", .bool true), ("data", .dict [("status", .str "ONLINE")])])]

/-- `count` steps at second `n` in which every tool succeeds. -/
def EngineEnv.steps (n count : ℕ) : List EngineEnv :=
  List.replicate count (.at n (.ok succeededResponse))

end McpOps
