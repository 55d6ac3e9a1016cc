import McpOps.Gateway.Models
import McpOps.Lib.Dict

/-!
# Workflows

The records of the workflow engine: nodes, workflows, plan drafts, and the small models they
carry.  Enumerations are inductive types; the texts that they are written as come where something
reads them.

The limits of the fields are checked where a model is built from data, while `model_copy` checks
nothing.  So only what no copy ever changes is kept as a field of proof, which is the length of the
id of a node: it goes into every idempotency key.  All other limits are definitions of their own,
beside the code that checks them.  A workflow carries the dumps of its plan along, as JSON that
nothing reads.
-/

namespace McpOps

/-! ## Statuses -/

inductive WorkflowStatus where
  | planned
  | validated
  | running
  | waitingApproval
  | completed
  | failed
  | cancelled
  deriving DecidableEq, Repr

def WorkflowStatus.value : WorkflowStatus → String
  | .planned => "PLANNED"
  | .validated => "VALIDATED"
  | .running => "RUNNING"
  | .waitingApproval => "WAITING_APPROVAL"
  | .completed => "COMPLETED"
  | .failed => "FAILED"
  | .cancelled => "CANCELLED"

inductive WorkflowNodeStatus where
  | pending
  | ready
  | blocked
  | denied
  | waitingApproval
  | running
  | succeeded
  | failed
  | retrying
  | compensating
  | compensated
  | skipped
  | cancelled
  deriving DecidableEq, Repr

/-- The statuses that let the nodes behind a node go on. -/
def WorkflowNodeStatus.done : WorkflowNodeStatus → Bool
  | .succeeded => true
  | .compensated => true
  | .skipped => true
  | _ => false

/-- The statuses with which `_run_workflow` passes a node over. -/
def WorkflowNodeStatus.settled : WorkflowNodeStatus → Bool
  | .succeeded => true
  | .compensated => true
  | .skipped => true
  | .cancelled => true
  | .failed => true
  | .denied => true
  | .blocked => true
  | _ => false

theorem WorkflowNodeStatus.settled_of_done {status : WorkflowNodeStatus} (h : status.done) :
    status.settled := by
  cases status <;> first | rfl | exact absurd h (by decide)

inductive WorkflowApprovalState where
  | notRequired
  | waitingApproval
  | approved
  | executionQueued
  | executing
  | succeeded
  | rejected
  | expired
  | failed
  deriving DecidableEq, Repr

inductive PolicyDecision where
  | allow
  | allowWithApproval
  | deny
  | requireAdditionalContext
  deriving DecidableEq, Repr

inductive ConditionOperator where
  | eq
  | ne
  | gt
  | gte
  | lt
  | lte
  | contains
  | exist
  deriving DecidableEq, Repr

/-! ## Nodes -/

structure WorkflowPolicyEvaluation where
  actor : String
  role : String
  tool : String
  resource : Option String
  environment : String
  risk : String
  decision : PolicyDecision
  policyRule : String
  reason : String
  timestamp : Time

structure WorkflowAuditEvent where
  eventType : String
  actor : String
  role : String
  message : String
  nodeId : Option String := none
  timestamp : Time

structure WorkflowEdge where
  source : String
  destination : String
  condition : Option String := none
  deriving DecidableEq

structure ArgumentReference where
  argument : String
  sourceNodeId : String
  outputPath : String
  deriving DecidableEq

structure WorkflowCondition where
  sourceNodeId : String
  outputPath : String
  operator : ConditionOperator := .eq
  value : Value := .null

structure WorkflowNode where
  id : String
  workflowId : Option UUID := none
  toolName : String
  toolServer : String
  description : String
  arguments : PyDict := []
  argumentReferences : List ArgumentReference := []
  dependsOn : List String := []
  condition : Option String := none
  typedCondition : Option WorkflowCondition := none
  riskLevel : String
  approvalRequired : Bool := false
  executionStatus : WorkflowNodeStatus := .pending
  attempts : ℕ := 0
  maxRetries : ℕ := 0
  retryStrategy : RetryStrategy := .noRetry
  timeoutSeconds : ℕ := 30
  lastError : Option String := none
  startedAt : Option Time := none
  completedAt : Option Time := none
  lastAttemptAt : Option Time := none
  nextRetryAt : Option Time := none
  resultReference : Option String := none
  approvalId : Option UUID := none
  approvalState : WorkflowApprovalState := .notRequired
  compensationTool : Option String := none
  policyEvaluation : Option WorkflowPolicyEvaluation := none
  knowledgeReferences : List String := []
  id_length : 1 ≤ id.length ∧ id.length ≤ 120 := by decide

/-! ## Workflows and drafts -/

structure Workflow where
  id : UUID
  userRequest : String
  status : WorkflowStatus := .planned
  createdBy : String
  createdAt : Time
  targetEnvironment : String := "dev"
  plannerModel : String
  confidence : PyFloat
  version : ℕ := 1
  nodes : List WorkflowNode := []
  edges : List WorkflowEdge := []
  originalPlan : PyDict := []
  policyTransformedPlan : PyDict := []
  auditEvents : List WorkflowAuditEvent := []

structure WorkflowPlanRequest where
  userRequest : String
  createdBy : String := "api-user"
  role : String := "ENGINEER"
  targetEnvironment : String := "dev"

structure WorkflowPlanDraft where
  userRequest : String
  plannerModel : String
  confidence : PyFloat
  nodes : List WorkflowNode := []
  edges : List WorkflowEdge := []

structure WorkflowValidationIssue where
  code : String
  message : String
  nodeId : Option String := none
  deriving DecidableEq, Repr

/-! ## Errors -/

/-- What a gateway client raises, by the clause of the engine that catches it. -/
inductive ClientError where
  | timeout (message : String)
  | connection (message : String)
  | runtime (message : String)
  | other (cls message : String)
  deriving DecidableEq, Repr

/-- The exceptions that leave the engine. -/
inductive EngineError where
  /-- `WorkflowValidationError` with its issues -/
  | invalidWorkflow (issues : List WorkflowValidationIssue)
  /-- `WorkflowNotFoundError` -/
  | workflowNotFound (key : String)
  /-- the `ValidationError` of a model that is built -/
  | validation (model : String)
  /-- the `TypeError` of a comparison -/
  | typeError (message : String)
  /-- an exception of the gateway client that nothing catches -/
  | client (e : ClientError)
  deriving DecidableEq, Repr

/-- `Field(min_length=least, max_length=most)`. -/
def hasLength (least most : ℕ) (text : String) : Bool :=
  least ≤ text.length ∧ text.length ≤ most

/-! ## Replacing nodes -/

namespace Workflow

/-- `{node.id: node for node in nodes}`. -/
def nodesById (nodes : List WorkflowNode) : Dict String WorkflowNode :=
  nodes.foldl (fun byId node => byId.set node.id node) Dict.empty

/-- `nodes_by_id[node.id] = node` and then `_replace_nodes(workflow, nodes_by_id)`.  In the
engine `nodes_by_id` is the dictionary of the workflow's own nodes whenever this is done. -/
def replaceNode (workflow : Workflow) (node : WorkflowNode) : Workflow :=
  let byId := (nodesById workflow.nodes).set node.id node
  { workflow with nodes := workflow.nodes.map fun old => (byId.get? old.id).getD old }

/-- The node ids of the workflow. -/
def nodeIds (workflow : Workflow) : List String := workflow.nodes.map (·.id)

/-- The dictionary of nodes with distinct ids has every node under its id. -/
theorem get?_nodesById {nodes : List WorkflowNode} (hdistinct : (nodes.map (·.id)).Nodup)
    {node : WorkflowNode} (hnode : node ∈ nodes) : (nodesById nodes).get? node.id = some node := by
  induction nodes using List.reverseRecOn with
  | nil => cases hnode
  | append_singleton rest last ih =>
      rw [List.map_append, List.nodup_append] at hdistinct
      obtain ⟨hrest, -, hne⟩ := hdistinct
      rw [nodesById, List.foldl_append, List.foldl_cons, List.foldl_nil]
      rcases List.mem_append.mp hnode with hmem | hmem
      · have hid : node.id ≠ last.id :=
          hne _ (List.mem_map_of_mem hmem) _ (List.mem_map_of_mem (List.mem_singleton_self last))
        rw [Dict.get?_set_of_ne hid]
        exact ih hrest hmem
      · rw [List.mem_singleton.mp hmem, Dict.get?_set_self]

/-- Where ids are distinct, replacing a node replaces the node of its id. -/
theorem replaceNode_nodes {workflow : Workflow} (hdistinct : workflow.nodeIds.Nodup)
    (node : WorkflowNode) :
    (workflow.replaceNode node).nodes =
      workflow.nodes.map fun old => if old.id = node.id then node else old := by
  refine List.map_congr_left fun old hold => ?_
  rw [Dict.get?_set]
  split
  · rfl
  · rw [get?_nodesById hdistinct hold, Option.getD_some]

/-- Replacing a node changes no id. -/
theorem replaceNode_nodeIds {workflow : Workflow} (hdistinct : workflow.nodeIds.Nodup)
    (node : WorkflowNode) : (workflow.replaceNode node).nodeIds = workflow.nodeIds := by
  rw [nodeIds, replaceNode_nodes hdistinct, List.map_map, nodeIds]
  refine List.map_congr_left fun old _ => ?_
  simp only [Function.comp]
  split
  · exact Eq.symm ‹_›
  · rfl

end Workflow

end McpOps
