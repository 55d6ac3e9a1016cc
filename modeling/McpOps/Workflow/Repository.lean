import McpOps.Lib.Interleaving
import McpOps.Workflow.Models

/-!
# The workflow repository

The store of workflows with its outbox, and the atomic operations of the engine on it, on the
clock, on the source of fresh ids and on the gateway.

The code of the engine is a procedure over these operations (`EngineM`).  Between two of them
everything is pure, so that an interleaving of calls is an interleaving of operations.  What an
operation takes from outside is in `EngineEnv`: the reading of the clock, the id that is made, and
the answer of the gateway, which is arbitrary.

`engineSystem` says how the repository in memory answers; the SQL repository has a system of its
own, over the same interface.  The building blocks at the end are those that all operations of the
engine use: an audit event, an outbox event, a checkpoint, and reading a workflow.
-/

namespace McpOps

open Proc

/-! ## The in-memory repository -/

structure WorkflowOutboxEvent where
  eventId : UUID
  eventType : String
  aggregateId : UUID
  payload : PyDict
  createdAt : Time
  correlationId : UUID

structure InMemoryWorkflowRepository where
  workflows : Dict UUID Workflow := Dict.empty
  outboxEvents : List WorkflowOutboxEvent := []

namespace InMemoryWorkflowRepository

/-- `get_workflow(workflow_id)`. -/
def getWorkflow (workflowId : UUID) (s : InMemoryWorkflowRepository) : Option Workflow :=
  s.workflows.get? workflowId

/-- `save_workflow(workflow)`. -/
def saveWorkflow (workflow : Workflow) (s : InMemoryWorkflowRepository) :
    InMemoryWorkflowRepository :=
  { s with workflows := s.workflows.set workflow.id workflow }

/-- `save_workflow_with_event(workflow, event)`. -/
def saveWorkflowWithEvent (workflow : Workflow) (event : WorkflowOutboxEvent)
    (s : InMemoryWorkflowRepository) : InMemoryWorkflowRepository where
  workflows := s.workflows.set workflow.id workflow
  outboxEvents :=
    if event.eventId ∈ s.outboxEvents.map (·.eventId) then s.outboxEvents
    else s.outboxEvents ++ [event]

/-- `pending_workflow_events(limit)`. -/
def pendingWorkflowEvents (limit : ℤ) (s : InMemoryWorkflowRepository) :
    List WorkflowOutboxEvent :=
  s.outboxEvents.take (max 1 limit).toNat

/-- `mark_workflow_event_published(event_id)`. -/
def markWorkflowEventPublished (eventId : UUID) (s : InMemoryWorkflowRepository) :
    InMemoryWorkflowRepository :=
  { s with outboxEvents := s.outboxEvents.filter fun event => event.eventId ≠ eventId }

/-- `mark_workflow_event_failed(event_id, error)`: only the SQL repository counts attempts. -/
def markWorkflowEventFailed (_eventId : UUID) (_error : String) (s : InMemoryWorkflowRepository) :
    InMemoryWorkflowRepository := s

end InMemoryWorkflowRepository

/-! ## Operations -/

/-- The atomic steps of the engine. -/
inductive WorkflowOp where
  /-- `repository.get_workflow(workflow_id)` -/
  | getWorkflow (workflowId : UUID)
  /-- `repository.save_workflow(workflow)` -/
  | saveWorkflow (workflow : Workflow)
  /-- `repository.save_workflow_with_event(workflow, event)` -/
  | saveWorkflowWithEvent (workflow : Workflow) (event : WorkflowOutboxEvent)
  /-- `datetime.now(UTC)` -/
  | now
  /-- `uuid4()` -/
  | uuid4
  /-- `gateway_client.call_tool(request)` -/
  | callTool (request : GatewayToolRequest)

/-- What an operation answers. -/
@[reducible] def WorkflowOp.Ans : WorkflowOp → Type
  | .getWorkflow _ => Option Workflow
  | .saveWorkflow _ => Unit
  | .saveWorkflowWithEvent .. => Unit
  | .now => Time
  | .uuid4 => UUID
  | .callTool _ => Except ClientError GatewayToolResponse

/-- The interface between the engine's code and its surroundings. -/
abbrev engineInterface : Interface := ⟨WorkflowOp, WorkflowOp.Ans⟩

/-- An event of the engine. -/
abbrev EngineEvent := Event engineInterface

/-- Code of the engine. -/
abbrev EngineM (α : Type) := Procedure engineInterface EngineError α

/-- One operation of the engine. -/
def engineOp (o : WorkflowOp) : EngineM o.Ans := Procedure.call (I := engineInterface) o .pure

/-- `datetime.now(UTC)`. -/
def timeNow : EngineM Time := engineOp .now

/-- `uuid4()`. -/
def freshUuid : EngineM UUID := engineOp .uuid4

/-- What an operation takes from outside: the clock reading, the id that is made, and the
answer of the gateway. -/
structure EngineEnv where
  clock : Time
  freshId : UUID
  gateway : Except ClientError GatewayToolResponse

/-- How the engine's surroundings answer its operations. -/
def engineSystem : System engineInterface InMemoryWorkflowRepository EngineEnv where
  answer o env s :=
    match o with
    | .getWorkflow workflowId => (s.getWorkflow workflowId, s)
    | .saveWorkflow workflow => ((), s.saveWorkflow workflow)
    | .saveWorkflowWithEvent workflow event => ((), s.saveWorkflowWithEvent workflow event)
    | .now => (env.clock, s)
    | .uuid4 => (env.freshId, s)
    | .callTool _ => (env.gateway, s)

/-! ## Building blocks of the engine -/

/-- `_audit_event(event_type, actor, role, message, node_id)`. -/
def auditEvent (eventType actor role message : String) (nodeId : Option String := none) :
    EngineM WorkflowAuditEvent := do
  let timestamp ← timeNow
  if hasLength 1 120 eventType ∧ hasLength 1 160 actor ∧ hasLength 1 64 role ∧
      hasLength 1 600 message ∧ (nodeId.all fun nodeId => hasLength 0 120 nodeId) then
    pure { eventType, actor, role, message, nodeId, timestamp }
  else .raise (.validation "WorkflowAuditEvent")

/-- `WorkflowOutboxEvent.create(...)`. -/
def WorkflowOutboxEvent.create (eventType : String) (aggregateId : UUID) (payload : PyDict) :
    EngineM WorkflowOutboxEvent := do
  let eventId ← freshUuid
  let createdAt ← timeNow
  let correlationId ← freshUuid
  pure { eventId, eventType, aggregateId, payload, createdAt, correlationId }

/-- `_checkpoint(workflow, event_type, node_id)`: the workflow as it is stored. -/
def checkpoint (workflow : Workflow) (eventType : String) (nodeId : Option String := none) :
    EngineM Workflow := do
  let payload : PyDict :=
    [("workflow_id", .str workflow.id.str), ("status", .str workflow.status.value)]
  let payload := nodeId.elim payload fun nodeId => payload.set "node_id" (.str nodeId)
  let withEvent := { workflow with version := workflow.version + 1 }
  let event ← WorkflowOutboxEvent.create eventType workflow.id payload
  engineOp (.saveWorkflowWithEvent withEvent event)
  pure withEvent

/-- `get_workflow(workflow_id)` of the service. -/
def getWorkflow (workflowId : UUID) : EngineM Workflow := do
  let workflow : Option Workflow ← engineOp (.getWorkflow workflowId)
  match workflow with
  | some workflow => pure workflow
  | none => .raise (.workflowNotFound workflowId.str)

end McpOps
