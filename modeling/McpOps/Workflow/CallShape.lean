import McpOps.Workflow.Plans

/-!
# What a call of the engine does by itself

Whatever happens at the same time, the events of one call of an operation have a fixed shape:
the call reads the workflow once, before anything else; everything it writes continues what it
read or wrote last; and everything it hands to the gateway belongs to a node of the workflow it
wrote last.  It holds for the events of a call however calls overlap, since nothing in it is about
the repository.

## Strategy

`EventOk` says what one event may be after the earlier events of its call: a save is one of `Saves`,
a tool call one of `Sends`, and a node that begins to wait does so for an answer that the call got
(`WaitStep`).  `AllOk` has it of every event.

What the rest of a call may still do depends on its past through a `View` only: the workflow it
has read, the one it has read or written last, and what it has sent.  `Yields` is a predicate on
code relative to a view, with `Yields.bind` for sequencing, `At.save` and `At.send` for the two
operations that matter and `yields_ambient` for all others.

This module goes up to the attempt at one node.

* `Taking`, `Attempting` and `Turned` are the stages of a turn, and `Based` is what stays true of
  the workflow meanwhile.
* `executeNode_yields`, `attemptNode_yields`, `compensateNode_yields` and `failNode_yields` go
  through the attempt, and `executeNodeWithRecovery_yields` joins them.

The loop and the operations have a module of their own, with `serve_yields` as the result.
-/

namespace McpOps

open Proc

/-! ## The events of a call -/

/-- The workflow that an operation writes. -/
def WorkflowOp.saved : WorkflowOp → Option Workflow
  | .saveWorkflow workflow => some workflow
  | .saveWorkflowWithEvent workflow _ => some workflow
  | _ => none

namespace EngineEvent

/-- What every answer of a sound repository satisfies. -/
def Valid : EngineEvent → Prop
  | ⟨.getWorkflow workflowId, answer⟩ =>
      ∀ workflow, answer = some workflow → workflow.id = workflowId ∧ workflow.Sound
  | _ => True

/-- The workflow that is read. -/
def got : EngineEvent → Option Workflow
  | ⟨.getWorkflow _, answer⟩ => answer
  | _ => none

/-- The workflow that is read or written. -/
def seen (e : EngineEvent) : Option Workflow := e.1.saved <|> got e

end EngineEvent

/-- The workflow that a call has read. -/
def opened (done : List EngineEvent) : Option Workflow := done.findSome? EngineEvent.got

/-- The workflow that a call has read or written last. -/
def touched (done : List EngineEvent) : Option Workflow := done.findSome? EngineEvent.seen

/-- A tool call with its answer, and the workflow that the call has written last before it. -/
structure Handed where
  request : GatewayToolRequest
  answer : Except ClientError GatewayToolResponse
  workflow : Option Workflow

/-- A tool call for the node of the id. -/
def Handed.About (nodeId : String) (handed : Handed) : Prop :=
  handed.request.workflowNodeId = some nodeId

/-- A tool call that is answered with a pending approval. -/
def Handed.pending (handed : Handed) : Bool :=
  match handed.answer with
  | .ok response => response.decision = .pendingApproval
  | .error _ => false

/-- The tool calls among the events of a call. -/
def sent : List EngineEvent → List Handed
  | [] => []
  | ⟨.callTool request, answer⟩ :: earlier => ⟨request, answer, touched earlier⟩ :: sent earlier
  | _ :: earlier => sent earlier

theorem sent_cons_of_ne {e : EngineEvent} (h : ∀ request, e.1 ≠ .callTool request)
    (done : List EngineEvent) : sent (e :: done) = sent done := by
  obtain ⟨o, a⟩ := e
  cases o with
  | callTool request => exact absurd rfl (h request)
  | _ => rfl

namespace WorkflowCall

/-- A call of `cancel`. -/
def cancels : WorkflowCall → Bool
  | .cancel .. => true
  | _ => false

/-- A call of `retry_node` for the node of the id. -/
def retries : WorkflowCall → String → Bool
  | .retryNode _ nodeId _ _, id => nodeId = id
  | _, _ => false

/-- Whether a call goes on with the workflow that it has read. -/
def starts : WorkflowCall → Workflow → Bool
  | .execute .., workflow => workflow.status ∉ [WorkflowStatus.cancelled, .waitingApproval]
  | .resume .., workflow => workflow.status ≠ .cancelled
  | .retryNode _ nodeId _ _, workflow => nodeId ∈ workflow.nodeIds
  | .cancel .., _ => true

end WorkflowCall

/-- The statuses of a node that something is being done with. -/
def WorkflowNodeStatus.busy : WorkflowNodeStatus → Bool
  | .running => true
  | .ready => true
  | .compensating => true
  | _ => false

/-- The idempotency key of `_execute_node`. -/
def WorkflowNode.idempotencyKey (node : WorkflowNode) : String :=
  let workflowText := node.workflowId.elim "None" UUID.str
  s!"workflow-{workflowText}-{node.id}-attempt-{max node.attempts 1}"

namespace WorkflowPlanningService

variable (E : WorkflowPlanningService)

/-- The nodes, as they are when a call reads them, that the call may hand to the gateway. -/
def takesUp (call : WorkflowCall) (node : WorkflowNode) : Bool :=
  match call with
  | .execute .. => !node.executionStatus.settled
  | .resume .. =>
      !node.executionStatus.settled ||
        (node.executionStatus ∈ [WorkflowNodeStatus.failed, .blocked] &&
          (node.attempts ≤ node.maxRetries || node.compensationTool.any (· ≠ "")))
  | .retryNode _ nodeId _ _ =>
      if node.id = nodeId then metadataRetryable (E.toolRegistry.lookup node.toolName)
      else !node.executionStatus.settled
  | .cancel .. => false

/-- The answers of the gateway that the engine takes as a failure which is not to be retried. -/
def Refuses (node : WorkflowNode) (answer : Except ClientError GatewayToolResponse) : Prop :=
  ∃ response, (responseOf node answer).Returns response ∧
    response.decision ≠ .pendingApproval ∧ response.ok = false ∧
    ¬ (transientFailure response ∧ retryAllowed node (E.toolRegistry.lookup node.toolName))

end WorkflowPlanningService

/-! ## What may be written and sent -/

/-- What a save makes of a node.  The first save of `retry_node` may rewrite its target. -/
structure NodeStep (call : WorkflowCall) (first : Prop) (old new : WorkflowNode) : Prop where
  plan : new.plan = old.plan
  attempts : old.attempts ≤ new.attempts
  done : old.executionStatus.done → new = old ∨ (first ∧ call.retries old.id)
  references : new.argumentReferences ⊆ old.argumentReferences

theorem NodeStep.refl {call : WorkflowCall} {first : Prop} (node : WorkflowNode) :
    NodeStep call first node node := ⟨rfl, le_rfl, fun _ => Or.inl rfl, List.Subset.refl _⟩

/-- A call that has read `workflow₀`, and has read or written `workflow` last, writes `new`. -/
structure Saves (call : WorkflowCall) (workflow₀ workflow new : Workflow) : Prop where
  id : new.id = call.workflowId
  sound : new.Sound
  version : workflow.version < new.version
  started : call.starts workflow₀
  cancelled : new.status = .cancelled ↔ call.cancels
  nodes : List.Forall₂ (NodeStep call (workflow = workflow₀)) workflow.nodes new.nodes
  completed : new.status = .completed → ∀ node ∈ new.nodes, node.executionStatus.done ∨
    node.executionStatus = .cancelled ∧ ∃ node₀ ∈ workflow₀.nodes, node₀.id = node.id ∧
      node₀.executionStatus = .cancelled ∧ ¬ call.retries node₀.id

/-- The request that `_execute_node` makes for a node. -/
structure Requests (node : WorkflowNode) (request : GatewayToolRequest) : Prop where
  toolName : request.toolName = node.toolName
  key : request.idempotencyKey = node.idempotencyKey
  approvalId : request.approvalId = node.approvalId
  workflowId : request.workflowId = node.workflowId
  nodeId : request.workflowNodeId = some node.id

/-- The attempt at a node, or the compensation of a node whose attempts have all failed. -/
def Hands (E : WorkflowPlanningService) (node : WorkflowNode) (request : GatewayToolRequest)
    (earlier : List Handed) : Prop :=
  (node.executionStatus = .running ∧ Requests node request ∧
    ∀ handed ∈ earlier, ¬ handed.About node.id) ∨
  (node.executionStatus = .compensating ∧
    (∃ tool, tool ≠ "" ∧ node.compensationTool = some tool ∧
      Requests { node with toolName := tool } request) ∧
    ∀ handed ∈ earlier, handed.About node.id → E.Refuses node handed.answer ∧
      ∃ workflow, handed.workflow = some workflow ∧
        ∃ m ∈ workflow.nodes, m.id = node.id ∧ m.executionStatus = .running)

/-- A call that has read `workflow₀`, and has written `workflow` last, sends `request`. -/
def Sends (E : WorkflowPlanningService) (call : WorkflowCall) (workflow₀ workflow : Workflow)
    (request : GatewayToolRequest) (earlier : List Handed) : Prop :=
  workflow.status ≠ .cancelled ∧ ∃ node ∈ workflow.nodes, Hands E node request earlier ∧
    (∀ id ∈ node.dependsOn, ∃ d ∈ workflow.nodes, d.id = id ∧ d.executionStatus.done) ∧
    ∃ node₀ ∈ workflow₀.nodes, E.takesUp call node₀ ∧ node.plan = node₀.plan ∧
      node.attempts = node₀.attempts + 1 ∧ node.approvalId = node₀.approvalId

/-- A call that has read `workflow₀` and sent `earlier` makes `new` of a node.  When the node
begins to wait, the call has taken it up, and what it has sent for it was answered with a
pending approval. -/
def WaitStep (E : WorkflowPlanningService) (call : WorkflowCall) (workflow₀ : Workflow)
    (earlier : List Handed) (old new : WorkflowNode) : Prop :=
  new.executionStatus = .waitingApproval → old.executionStatus = .waitingApproval ∨
    (∀ handed ∈ earlier, handed.About new.id → handed.pending) ∧
      ∃ node₀ ∈ workflow₀.nodes, E.takesUp call node₀ ∧ new.plan = node₀.plan ∧
        new.attempts = node₀.attempts + 1

/-- An event after the earlier events of the same call. -/
structure EventOk (E : WorkflowPlanningService) (call : WorkflowCall) (e : EngineEvent)
    (earlier : List EngineEvent) : Prop where
  gets : ∀ workflowId, e.1 = .getWorkflow workflowId → workflowId = call.workflowId ∧ earlier = []
  saves : ∀ new, e.1.saved = some new → ∃ workflow₀ workflow, opened earlier = some workflow₀ ∧
    touched earlier = some workflow ∧ Saves call workflow₀ workflow new
  waits : ∀ new, e.1.saved = some new → ∀ workflow₀ workflow, opened earlier = some workflow₀ →
    touched earlier = some workflow →
      List.Forall₂ (WaitStep E call workflow₀ (sent earlier)) workflow.nodes new.nodes
  sends : ∀ request, e.1 = .callTool request → ∃ workflow₀ workflow,
    opened earlier = some workflow₀ ∧ touched earlier = some workflow ∧
      Sends E call workflow₀ workflow request (sent earlier)

/-- Every event is as it may be. -/
def AllOk (E : WorkflowPlanningService) (call : WorkflowCall) (done : List EngineEvent) : Prop :=
  ∀ e earlier, e :: earlier <:+ done → EventOk E call e earlier

/-- What a call has in its hands. -/
structure View where
  opened : Workflow
  current : Workflow
  sent : List Handed

/-- The events of a call that has the view `v`. -/
structure At (E : WorkflowPlanningService) (call : WorkflowCall) (v : View)
    (done : List EngineEvent) : Prop where
  ok : AllOk E call done
  opened : opened done = some v.opened
  touched : touched done = some v.current
  sent : sent done = v.sent

/-! ## Rules for the events of a call -/

section Rules

variable {E : WorkflowPlanningService} {call : WorkflowCall} {v : View} {done : List EngineEvent}
  {α β : Type}

theorem AllOk.start : AllOk E call [] := fun _ _ h =>
  absurd (List.eq_nil_of_suffix_nil h) (by simp)

theorem AllOk.cons (h : AllOk E call done) {e : EngineEvent} (he : EventOk E call e done) :
    AllOk E call (e :: done) := by
  intro e' earlier h'
  rcases List.suffix_cons_iff.mp h' with heq | h'
  · cases heq
    exact he
  · exact h e' earlier h'

/-- The operations that neither read nor write a workflow nor call a tool. -/
def Ambient : WorkflowOp → Prop
  | .now => True
  | .uuid4 => True
  | _ => False

theorem At.ambient (h : At E call v done) {e : EngineEvent} (he : Ambient e.1) :
    At E call v (e :: done) := by
  obtain ⟨o, a⟩ := e
  have hsaved : o.saved = none ∧ EngineEvent.got ⟨o, a⟩ = none ∧ (∀ id, o ≠ .getWorkflow id) ∧
      ∀ request, o ≠ .callTool request := by
    cases o with
    | now => exact ⟨rfl, rfl, nofun, nofun⟩
    | uuid4 => exact ⟨rfl, rfl, nofun, nofun⟩
    | _ => exact he.elim
  obtain ⟨hsaved, hgot, hget, hcall⟩ := hsaved
  refine ⟨h.ok.cons ⟨fun id hid => absurd hid (hget id), fun new hnew => ?_, fun new hnew => ?_,
    fun request hr => absurd hr (hcall request)⟩, ?_, ?_, ?_⟩
  · rw [hsaved] at hnew
    cases hnew
  · rw [hsaved] at hnew
    cases hnew
  · rw [McpOps.opened, List.findSome?_cons, hgot]
    exact h.opened
  · rw [McpOps.touched, List.findSome?_cons, EngineEvent.seen, hsaved, hgot]
    exact h.touched
  · rw [sent_cons_of_ne hcall]
    exact h.sent

/-- After a save the call has what it wrote. -/
theorem At.save (h : At E call v done) {e : EngineEvent} {new : Workflow}
    (hsaved : e.1.saved = some new) (hnew : Saves call v.opened v.current new)
    (hwaits : List.Forall₂ (WaitStep E call v.opened v.sent) v.current.nodes new.nodes) :
    At E call { v with current := new } (e :: done) := by
  obtain ⟨o, a⟩ := e
  -- a save is no read and no call of a tool
  have hother : EngineEvent.got ⟨o, a⟩ = none ∧ (∀ id, o ≠ .getWorkflow id) ∧
      ∀ request, o ≠ .callTool request := by
    cases o with
    | saveWorkflow => exact ⟨rfl, nofun, nofun⟩
    | saveWorkflowWithEvent => exact ⟨rfl, nofun, nofun⟩
    | _ => cases hsaved
  obtain ⟨hgot, hget, hcall⟩ := hother
  refine ⟨h.ok.cons ⟨fun id hid => absurd hid (hget id), fun new' hnew' => ?_,
    fun new' hnew' workflow₀ workflow hopened htouched => ?_, fun request hr =>
      absurd hr (hcall request)⟩, ?_, ?_, ?_⟩
  · rw [hsaved] at hnew'
    cases hnew'
    exact ⟨_, _, h.opened, h.touched, hnew⟩
  · rw [hsaved] at hnew'
    cases hnew'
    rw [h.opened] at hopened
    rw [h.touched] at htouched
    cases hopened
    cases htouched
    rw [h.sent]
    exact hwaits
  · rw [McpOps.opened, List.findSome?_cons, hgot]
    exact h.opened
  · rw [McpOps.touched, List.findSome?_cons, EngineEvent.seen, hsaved]
    rfl
  · rw [sent_cons_of_ne hcall]
    exact h.sent

/-- After a call of a tool the call has it among what it sent. -/
theorem At.send (h : At E call v done) {request : GatewayToolRequest}
    (hsends : Sends E call v.opened v.current request v.sent)
    (answer : Except ClientError GatewayToolResponse) :
    At E call { v with sent := ⟨request, answer, some v.current⟩ :: v.sent }
      (⟨.callTool request, answer⟩ :: done) := by
  refine ⟨h.ok.cons ⟨fun _ hid => (by cases hid), fun _ hnew => (by cases hnew),
    fun _ hnew => (by cases hnew), fun request' hr => ?_⟩, h.opened, h.touched, ?_⟩
  · cases hr
    exact ⟨_, _, h.opened, h.touched, h.sent ▸ hsends⟩
  · rw [McpOps.sent, h.touched, h.sent]

/-- `Q` holds of what `p` returns, and every event of `p` is as it may be. -/
def Yields (E : WorkflowPlanningService) (call : WorkflowCall) (Q : α → List EngineEvent → Prop)
    (p : EngineM α) (done : List EngineEvent) : Prop :=
  p.Emits EngineEvent.Valid (AllOk E call) (fun res done => ∀ a, res = .ok a → Q a done) done

theorem yields_pure {Q : α → List EngineEvent → Prop} {a : α} (h : Q a done) :
    Yields E call Q (.pure a) done := by
  intro a' ha
  cases ha
  exact h

theorem yields_raise {Q : α → List EngineEvent → Prop} {e : EngineError} :
    Yields E call Q (.raise e : EngineM α) done := nofun

theorem Yields.imp {Q Q' : α → List EngineEvent → Prop} {p : EngineM α}
    (h : Yields E call Q p done) (hok : AllOk E call done)
    (himp : ∀ a done, Q a done → Q' a done) : Yields E call Q' p done :=
  Procedure.Emits.imp h hok fun _ _ _ hres a ha => himp a _ (hres a ha)

theorem Yields.bind {Q : β → List EngineEvent → Prop} {p : EngineM α} {f : α → EngineM β}
    (h : Yields E call (fun a => Yields E call Q (f a)) p done) (hok : AllOk E call done) :
    Yields E call Q (p >>= f) done := by
  refine Procedure.emits_bind.mpr (Procedure.Emits.imp h hok ?_)
  rintro (e | a) done - hres
  · exact nofun
  · exact hres a rfl

/-- One operation, and what follows it. -/
theorem yields_op {Q : β → List EngineEvent → Prop} {o : WorkflowOp} {f : o.Ans → EngineM β}
    (h : ∀ a, EngineEvent.Valid ⟨o, a⟩ → AllOk E call (⟨o, a⟩ :: done) ∧
      Yields E call Q (f a) (⟨o, a⟩ :: done)) : Yields E call Q (engineOp o >>= f) done := h

/-- Ambient code changes nothing that matters. -/
theorem yields_ambient {Q : β → List EngineEvent → Prop} {p : EngineM α} {f : α → EngineM β}
    (hp : p.Uses Ambient) (h : At E call v done)
    (hf : ∀ a done, p.Returns a → At E call v done → Yields E call Q (f a) done) :
    Yields E call Q (p >>= f) done := by
  have hambient : p.Emits EngineEvent.Valid (AllOk E call) (fun _ => At E call v) done :=
    hp.emits (fun _ h => h.ok) (fun _ _ he _ h => h.ambient he) h
  refine Yields.bind ?_ h.ok
  exact Procedure.Emits.imp hambient.returns h.ok fun res done _ hres a ha =>
    hf a done (hres.2 a ha) hres.1

end Rules

/-! ## Ambient code -/

section Ambient

theorem uses_timeNow : timeNow.Uses Ambient := ⟨trivial, fun _ => trivial⟩

theorem uses_freshUuid : freshUuid.Uses Ambient := ⟨trivial, fun _ => trivial⟩

theorem uses_auditEvent (eventType actor role message : String) (nodeId : Option String) :
    (auditEvent eventType actor role message nodeId).Uses Ambient :=
  uses_timeNow.bind fun _ => by
    split
    · trivial
    · trivial

theorem uses_outboxEvent (eventType : String) (id : UUID) (payload : PyDict) :
    (WorkflowOutboxEvent.create eventType id payload).Uses Ambient :=
  uses_freshUuid.bind fun _ => uses_timeNow.bind fun _ => uses_freshUuid.bind fun _ => trivial

theorem uses_ofExcept {α : Type} (res : Except EngineError α) :
    (Procedure.ofExcept res : EngineM α).Uses Ambient := by
  cases res with
  | ok a => trivial
  | error e => trivial

namespace WorkflowPlanningService

theorem uses_retryDue (node : WorkflowNode) : (retryDue node).Uses Ambient := by
  unfold retryDue
  split
  · trivial
  · exact uses_timeNow.bind fun _ => trivial

theorem uses_mayStart (node : WorkflowNode) : (mayStart node).Uses Ambient := by
  unfold mayStart
  split
  · exact uses_retryDue node
  · trivial

theorem uses_failureResponse (node : WorkflowNode) (code message : String) :
    (failureResponse node code message).Uses Ambient := uses_freshUuid.bind fun _ => trivial

theorem uses_responseOf (node : WorkflowNode) (answer : Except ClientError GatewayToolResponse) :
    (responseOf node answer).Uses Ambient := by
  unfold responseOf
  split
  · trivial
  · exact uses_failureResponse ..
  · exact uses_failureResponse ..
  · exact uses_failureResponse ..
  · trivial

theorem uses_nextRetryTime (node : WorkflowNode) : (nextRetryTime node).Uses Ambient :=
  uses_timeNow.bind fun _ => trivial

theorem uses_startAttempt (node : WorkflowNode) : (startAttempt node).Uses Ambient :=
  uses_timeNow.bind fun _ => trivial

theorem uses_approvalExpired (node : WorkflowNode) : (approvalExpired node).Uses Ambient := by
  unfold approvalExpired
  split
  · trivial
  · split
    · trivial
    · exact uses_timeNow.bind fun _ => trivial

theorem uses_resumeNode (node : WorkflowNode) : (resumeNode node).Uses Ambient := by
  refine (uses_approvalExpired node).bind fun expired => ?_
  split
  · exact uses_timeNow.bind fun _ => trivial
  · split
    · refine Procedure.Uses.bind ?_ fun resumed => ?_
      · unfold canBeResumed
        split
        · exact uses_retryDue node
        · trivial
      · split
        · trivial
        · trivial
    · trivial

theorem uses_resumeNodes (nodes : List WorkflowNode) : (resumeNodes nodes).Uses Ambient := by
  induction nodes with
  | nil => trivial
  | cons node rest ih =>
      exact (uses_resumeNode node).bind fun _ => ih.bind fun _ => trivial

end WorkflowPlanningService

end Ambient

/-! ## Saving -/

namespace WorkflowPlanningService

section Saving

variable {E : WorkflowPlanningService} {call : WorkflowCall} {v : View} {done : List EngineEvent}

/-- No node begins to wait. -/
theorem waits_refl {workflow₀ : Workflow} {sent : List Handed} (nodes : List WorkflowNode) :
    List.Forall₂ (WaitStep E call workflow₀ sent) nodes nodes :=
  List.forall₂_same.mpr fun _ _ => Or.inl

/-- A checkpoint writes the workflow with the next version. -/
theorem checkpoint_yields (h : At E call v done) {workflow : Workflow} {eventType : String}
    {nodeId : Option String}
    (hsaves : Saves call v.opened v.current { workflow with version := workflow.version + 1 })
    (hwaits : List.Forall₂ (WaitStep E call v.opened v.sent) v.current.nodes workflow.nodes) :
    Yields E call (fun out done => out = { workflow with version := workflow.version + 1 } ∧
      At E call { v with current := out } done) (checkpoint workflow eventType nodeId) done := by
  refine yields_ambient (uses_outboxEvent ..) h fun event done _ h => ?_
  refine yields_op fun _ _ => ?_
  have hsaved := h.save (e := ⟨.saveWorkflowWithEvent _ event, ()⟩) rfl hsaves hwaits
  exact ⟨hsaved.ok, yields_pure ⟨rfl, hsaved⟩⟩

/-- What holds of the workflow while a run has a node in its hands: `base` is the workflow at
the beginning of the node's turn. -/
structure Based (call : WorkflowCall) (workflow₀ base : Workflow) (node : WorkflowNode) :
    Prop where
  running : call.cancels = false
  started : call.starts workflow₀
  id : base.id = call.workflowId
  sound : base.Sound
  mem : node ∈ base.nodes

/-- The workflow has `m` in the place of `node` and is otherwise as at the beginning of the
turn. -/
structure Turning (base : Workflow) (node m : WorkflowNode) (current : Workflow) : Prop where
  id : current.id = base.id
  live : current.status ≠ .cancelled
  unfinished : current.status ≠ .completed
  nodes : current.nodes = putNode m base.nodes
  plan : m.plan = node.plan

variable {workflow₀ base current : Workflow} {node m : WorkflowNode}

theorem Turning.start (hbase : Based call workflow₀ base node) (hlive : base.status ≠ .cancelled)
    (hunfinished : base.status ≠ .completed) : Turning base node node base :=
  ⟨rfl, hlive, hunfinished, (putNode_self hbase.sound.nodup hbase.mem).symm, rfl⟩

/-- Putting a node of the same plan in the place of a node keeps the workflow sound. -/
theorem Turning.sound (hbase : Based call workflow₀ base node) (h : Turning base node m current) :
    current.Sound := by
  refine hbase.sound.of_samePlans h.id ?_
  have hself := putNode_self hbase.sound.nodup hbase.mem
  rw [h.nodes]
  nth_rewrite 1 [← hself]
  exact forall₂_putNode (R := fun old new => new.plan = old.plan) (fun _ => rfl)
    (id_of_plan h.plan) h.plan

theorem Turning.mem (hbase : Based call workflow₀ base node) (h : Turning base node m current) :
    m ∈ current.nodes := by
  rw [h.nodes, mem_putNode]
  refine Or.inl ⟨rfl, ?_⟩
  rw [id_of_plan h.plan]
  exact List.mem_map_of_mem hbase.mem

/-- Saving the node in the hands of a run. -/
theorem saveNode_yields (h : At E call v done) (hbase : Based call v.opened base node)
    (hturn : Turning base node m v.current) {workflow : Workflow} (hid : workflow.id = v.current.id)
    (hversion : workflow.version = v.current.version) (hnodes : workflow.nodes = v.current.nodes)
    (hlive : workflow.status ≠ .cancelled) (hunfinished : workflow.status ≠ .completed)
    {n : WorkflowNode} {eventType : String} (hplan : n.plan = node.plan)
    (hattempts : m.attempts ≤ n.attempts)
    (hreferences : n.argumentReferences ⊆ m.argumentReferences)
    (hdone : m.executionStatus.done = false)
    (hwait : WaitStep E call v.opened v.sent m n) :
    Yields E call (fun out done => At E call { v with current := out } done ∧
      Turning base node n out) (saveNode workflow n eventType) done := by
  have hm : n.id = m.id := by rw [id_of_plan hplan, id_of_plan hturn.plan]
  -- what was put for the node before is replaced
  have hput : (workflow.replaceNode n).nodes = putNode n base.nodes := by
    rw [replaceNode_eq_putNode (by rw [Workflow.nodeIds, hnodes]; exact (hturn.sound hbase).nodup),
      hnodes, hturn.nodes, putNode_putNode hm]
  have hturn' : ∀ version, Turning base node n
      { workflow.replaceNode n with version } := fun version =>
    ⟨hid.trans hturn.id, hlive, hunfinished, hput, hplan⟩
  refine Yields.imp (checkpoint_yields h ?_ ?_) h.ok ?_
  · refine ⟨(hid.trans hturn.id).trans hbase.id, (hturn' _).sound hbase, ?_, hbase.started,
      -- the nodes change in this one only, by a step of its own
      ?_, ?_, ?_⟩
    · exact hversion ▸ Nat.lt_succ_self _
    · exact ⟨fun hc => absurd hc hlive, fun hc => by rw [hbase.running] at hc; cases hc⟩
    · show List.Forall₂ _ v.current.nodes (workflow.replaceNode n).nodes
      rw [hput, hturn.nodes]
      refine forall₂_putNode (fun old => .refl old) hm ?_
      refine ⟨hplan.trans hturn.plan.symm, hattempts, fun hd => ?_, hreferences⟩
      rw [hdone] at hd
      cases hd
    · exact fun hc => absurd hc hunfinished
  · rw [hput, hturn.nodes]
    exact forall₂_putNode (fun old => Or.inl) hm hwait
  · rintro out done ⟨rfl, h⟩
    exact ⟨h, hturn' _⟩

/-- Saving the node in the hands of a run without any other change, when it does not wait. -/
theorem saveNode_yields' (h : At E call v done) (hbase : Based call v.opened base node)
    (hturn : Turning base node m v.current) {n : WorkflowNode} {eventType : String}
    (hplan : n.plan = node.plan) (hattempts : m.attempts ≤ n.attempts)
    (hreferences : n.argumentReferences ⊆ m.argumentReferences)
    (hdone : m.executionStatus.done = false) (hwaiting : n.executionStatus ≠ .waitingApproval) :
    Yields E call (fun out done => At E call { v with current := out } done ∧
      Turning base node n out) (saveNode v.current n eventType) done :=
  saveNode_yields h hbase hturn rfl rfl rfl hturn.live hturn.unfinished hplan hattempts
    hreferences hdone fun h => absurd h hwaiting

end Saving

/-! ## The turn of a node -/

section Turn

variable {E : WorkflowPlanningService} {call : WorkflowCall} {v : View} {done : List EngineEvent}
  {base current : Workflow} {node m : WorkflowNode}

/-- A run takes up `node`, which the view knows nothing sent for, in the workflow `base`. -/
structure Taking (E : WorkflowPlanningService) (call : WorkflowCall) (v : View) (base : Workflow)
    (node : WorkflowNode) : Prop extends Based call v.opened base node where
  unsettled : node.executionStatus.settled = false
  unsent : ∀ handed ∈ v.sent, ¬ handed.About node.id
  ready : ∀ id ∈ node.dependsOn, ∃ d ∈ base.nodes, d.id = id ∧ d.executionStatus.done
  taken : ∃ node₀ ∈ v.opened.nodes, E.takesUp call node₀ ∧ node.plan = node₀.plan ∧
    node.attempts = node₀.attempts ∧ node.approvalId = node₀.approvalId

/-- The node in the hands of a run once an attempt has begun. -/
structure Attempting (node m : WorkflowNode) : Prop where
  plan : m.plan = node.plan
  attempts : m.attempts = node.attempts + 1
  approvalId : m.approvalId = node.approvalId

/-- The turn of `node` has left the workflow `out`, with `node` in one of the statuses. -/
def Turned (E : WorkflowPlanningService) (call : WorkflowCall) (v : View) (base : Workflow)
    (node : WorkflowNode) (statuses : List WorkflowNodeStatus) (out : Workflow)
    (done : List EngineEvent) : Prop :=
  ∃ m calls, At E call { opened := v.opened, current := out, sent := calls } done ∧
    Turning base node m out ∧ (∀ handed ∈ calls, handed ∈ v.sent ∨ handed.About node.id) ∧
    m.executionStatus ∈ statuses

/-- What a node depends on is still done while the node has its turn. -/
theorem Taking.dependencies (ht : Taking E call v base node) (hturn : Turning base node m current)
    {id : String} (hid : id ∈ m.dependsOn) :
    ∃ d ∈ current.nodes, d.id = id ∧ d.executionStatus.done := by
  rw [dependsOn_of_plan hturn.plan] at hid
  obtain ⟨d, hd, rfl, hdone⟩ := ht.ready id hid
  refine ⟨d, ?_, rfl, hdone⟩
  rw [hturn.nodes, mem_putNode]
  refine Or.inr ⟨hd, fun hsame => ?_⟩
  -- the node itself is not done
  rw [id_of_plan hturn.plan] at hsame
  have hnode := List.inj_on_of_nodup_map ht.sound.nodup hd ht.mem hsame
  have hsettled := WorkflowNodeStatus.settled_of_done hdone
  rw [hnode, ht.unsettled] at hsettled
  cases hsettled

theorem Taking.sends (ht : Taking E call v base node) (hturn : Turning base node m current)
    (hm : Attempting node m) {request : GatewayToolRequest} {calls : List Handed}
    (hhands : Hands E m request calls) : Sends E call v.opened current request calls := by
  obtain ⟨node₀, hmem, htakes, hplan, hattempts, happroval⟩ := ht.taken
  refine ⟨hturn.live, m, hturn.mem ht.toBased, hhands, fun id hid => ht.dependencies hturn hid,
    node₀, hmem, htakes, hm.plan.trans hplan, ?_, hm.approvalId.trans happroval⟩
  rw [hm.attempts, hattempts]

/-- `_execute_node` makes one call of a tool, for a request about the node. -/
theorem executeNode_yields (h : At E call v done) {n : WorkflowNode} {role : String}
    {authToken : Option String}
    (hsends : ∀ request, Requests n request → Sends E call v.opened v.current request v.sent) :
    Yields E call (fun answer done => ∃ request, request.workflowNodeId = some n.id ∧
      At E call { v with sent := ⟨request, answer, some v.current⟩ :: v.sent } done)
      (E.executeNode n role authToken) done := by
  refine yields_ambient uses_freshUuid h fun correlationId done _ h => ?_
  dsimp only
  split
  · have hsent := fun request (hrequest : Requests n request) =>
      h.send (hsends request hrequest)
    refine fun answer _ => ⟨(hsent _ ⟨rfl, rfl, rfl, rfl, rfl⟩ answer).ok, yields_pure ?_⟩
    exact ⟨_, by rfl, hsent _ ⟨rfl, rfl, rfl, rfl, rfl⟩ answer⟩
  · exact yields_raise

theorem startAttempt_attempting {n running : WorkflowNode} (hplan : n.plan = node.plan)
    (hattempts : n.attempts = node.attempts) (happroval : n.approvalId = node.approvalId)
    (h : (startAttempt n).Returns running) :
    Attempting node running ∧ running.executionStatus = .running ∧
      running.argumentReferences = n.argumentReferences := by
  obtain ⟨now, -, h⟩ := Procedure.returns_bind.mp h
  rw [← Procedure.returns_pure.mp h]
  exact ⟨⟨hplan, congrArg (· + 1) hattempts, happroval⟩, rfl, rfl⟩

/-- The node that is attempted and the answer that was taken: from the gateway, if the node was
handed to it at all. -/
def Attempted (E : WorkflowPlanningService) (call : WorkflowCall) (v : View) (base : Workflow)
    (node running : WorkflowNode) (current : Workflow) (response : GatewayToolResponse)
    (done : List EngineEvent) : Prop :=
  Attempting node running ∧ running.executionStatus = .running ∧ Turning base node running current ∧
    ∃ calls, At E call { opened := v.opened, current, sent := calls } done ∧
      (calls = v.sent ∨ ∃ request answer, request.workflowNodeId = some node.id ∧
        calls = ⟨request, answer, some current⟩ :: v.sent ∧
        (responseOf running answer).Returns response)

/-- What was sent until the answer was taken is about the node. -/
theorem sent_of_attempted {calls : List Handed} {running : WorkflowNode}
    {response : GatewayToolResponse}
    (h : calls = v.sent ∨ ∃ request answer, request.workflowNodeId = some node.id ∧
      calls = ⟨request, answer, some current⟩ :: v.sent ∧
      (responseOf running answer).Returns response) :
    ∀ handed ∈ calls, handed ∈ v.sent ∨ handed.About node.id := by
  intro handed hmem
  rcases h with rfl | ⟨request, answer, hid, rfl, -⟩
  · exact Or.inl hmem
  · rcases List.mem_cons.mp hmem with rfl | hmem
    · exact Or.inr hid
    · exact Or.inl hmem

/-- The arguments are bound and the node is handed to the gateway. -/
theorem attemptNode_yields (ht : Taking E call v base node) {running : WorkflowNode}
    (hrunning : Attempting node running) (hstatus : running.executionStatus = .running)
    (h : At E call { v with current } done) (hturn : Turning base node running current)
    {role : String} {nodeOutputs : NodeOutputs} {authToken : Option String} :
    Yields E call (fun out done => Attempted E call v base node out.1 out.2.1 out.2.2 done)
      (E.attemptNode running role current nodeOutputs authToken) done := by
  unfold attemptNode
  split
  · exact yields_ambient (uses_failureResponse ..) h fun response done _ h =>
      yields_pure ⟨hrunning, hstatus, hturn, _, h, Or.inl rfl⟩
  · rename_i bound hbound
    have hsame : bound.plan = running.plan ∧ bound.attempts = running.attempts ∧
        bound.approvalId = running.approvalId ∧
        bound.executionStatus = running.executionStatus := by
      rw [resolveNodeArguments] at hbound
      cases hfold : running.argumentReferences.foldlM (bindReference nodeOutputs)
          running.arguments with
      | error message => rw [hfold] at hbound; cases hbound
      | ok arguments =>
          rw [hfold] at hbound
          cases hbound
          exact ⟨rfl, rfl, rfl, rfl⟩
    obtain ⟨hplan, hattempts, happroval, hstatus'⟩ := hsame
    -- the node with its arguments bound is saved when they differ
    have hstore : Yields E call (fun out done => Attempting node out.1 ∧
        out.1.executionStatus = .running ∧ Turning base node out.1 out.2 ∧
        At E call { v with current := out.2 } done) (storeBound running bound current) done := by
      unfold storeBound
      split
      · exact yields_pure ⟨hrunning, hstatus, hturn, h⟩
      · have hbound' : Attempting node { bound with argumentReferences := [] } :=
          ⟨hplan.trans hrunning.plan, hattempts.trans hrunning.attempts,
            happroval.trans hrunning.approvalId⟩
        refine Yields.bind (Yields.imp (saveNode_yields' h ht.toBased hturn hbound'.plan
          hattempts.ge (List.nil_subset _) (by rw [hstatus]; rfl) fun h => ?_) h.ok
            fun out done hout => ?_) h.ok
        · cases (hstatus'.trans hstatus).symm.trans h
        · exact yields_pure ⟨hbound', hstatus'.trans hstatus, hout.2, hout.1⟩
    refine Yields.bind (Yields.imp hstore h.ok ?_) h.ok
    rintro ⟨running, current⟩ done ⟨hrunning, hstatus, hturn, h⟩
    refine Yields.bind (Yields.imp (executeNode_yields h fun request hrequest =>
      ht.sends hturn hrunning (Or.inl ⟨hstatus, hrequest, fun e he => ?_⟩)) h.ok ?_) h.ok
    · rw [id_of_plan hrunning.plan]
      exact ht.unsent e he
    · rintro answer done ⟨request, hid, h⟩
      refine yields_ambient (uses_responseOf ..) h fun response done hresponse h => ?_
      refine yields_pure ⟨hrunning, hstatus, hturn, _, h,
        Or.inr ⟨request, answer, ?_, rfl, hresponse⟩⟩
      rw [hid, id_of_plan hrunning.plan]

/-- The answers are taken alike for two versions of a node of one tool. -/
theorem responseOf_congr {n n' : WorkflowNode} (htool : n.toolName = n'.toolName)
    (answer : Except ClientError GatewayToolResponse) :
    responseOf n answer = responseOf n' answer := by
  unfold responseOf failureResponse
  rw [htool]

theorem retryAllowed_congr {n n' : WorkflowNode} (hplan : n.plan = n'.plan)
    (hattempts : n.attempts = n'.attempts) (metadata : Option ToolMetadata) :
    retryAllowed n metadata = retryAllowed n' metadata := by
  have hstrategy : n.retryStrategy = n'.retryStrategy := congrArg NodePlan.retryStrategy hplan
  rw [retryAllowed, retryAllowed, hstrategy, maxRetries_of_plan hplan, hattempts]

/-- What the engine refuses for one version of a node it refuses for another. -/
theorem refuses_congr {n n' : WorkflowNode} (hplan : n.plan = n'.plan)
    (hattempts : n.attempts = n'.attempts) {answer : Except ClientError GatewayToolResponse} :
    E.Refuses n answer ↔ E.Refuses n' answer := by
  rw [Refuses, Refuses, responseOf_congr (toolName_of_plan hplan), toolName_of_plan hplan]
  simp only [retryAllowed_congr hplan hattempts]

/-- Only an answer of the gateway can be a pending approval. -/
theorem pending_of_responseOf {n : WorkflowNode} {request : GatewayToolRequest}
    {answer : Except ClientError GatewayToolResponse} {workflow : Option Workflow}
    {response : GatewayToolResponse} (h : (responseOf n answer).Returns response)
    (hpending : response.decision = .pendingApproval) :
    Handed.pending ⟨request, answer, workflow⟩ := by
  have hfailure : ∀ code message, ¬ (failureResponse n code message).Returns response := by
    intro code message h
    obtain ⟨id, -, h⟩ := Procedure.returns_bind.mp h
    rw [← Procedure.returns_pure.mp h] at hpending
    cases hpending
  cases answer with
  | ok answer =>
      cases h
      exact decide_eq_true hpending
  | error e =>
      cases e with
      | timeout message => exact absurd h (hfailure _ _)
      | connection message => exact absurd h (hfailure _ _)
      | runtime message => exact absurd h (hfailure _ _)
      | other cls message => cases h

/-- The compensation of a node whose attempt the gateway has refused. -/
theorem compensateNode_yields (ht : Taking E call v base node) (hm : Attempting node m)
    (hdone : m.executionStatus.done = false) {calls : List Handed}
    (h : At E call { opened := v.opened, current, sent := calls } done)
    (hturn : Turning base node m current)
    (hsent : ∀ handed ∈ calls, handed ∈ v.sent ∨ handed.About node.id)
    (hrefused : ∀ handed ∈ calls, handed.About node.id → E.Refuses m handed.answer ∧
      ∃ workflow, handed.workflow = some workflow ∧
        ∃ n ∈ workflow.nodes, n.id = node.id ∧ n.executionStatus = .running)
    (htool : m.compensationTool.any (· ≠ "")) {role : String} {authToken : Option String} :
    Yields E call (Turned E call v base node [.compensated, .failed])
      (E.compensateNode m role current authToken) done := by
  obtain ⟨tool, hsome, htool⟩ := (Option.any_eq_true _ _).mp htool
  have htool : tool ≠ "" := of_decide_eq_true htool
  have hsame : some m.id = some node.id := congrArg some (id_of_plan hm.plan)
  have hm' : Attempting node { m with executionStatus := .compensating } :=
    ⟨hm.plan, hm.attempts, hm.approvalId⟩
  -- the node is shown as compensating before the tool is called
  refine Yields.bind (Yields.imp (saveNode_yields' h ht.toBased hturn hm'.plan le_rfl
    (List.Subset.refl _) hdone fun h => by cases h) h.ok fun current done hout => ?_) h.ok
  obtain ⟨h, hturn⟩ := hout
  -- the call goes to the compensation tool, and what was refused before is known
  refine Yields.bind (Yields.imp (executeNode_yields h fun request hrequest =>
    ht.sends hturn hm' (Or.inr ⟨rfl, ⟨tool, htool, hsome, ?_⟩, ?_⟩)) h.ok ?_) h.ok
  · refine ⟨hrequest.toolName.trans ?_, hrequest.key, hrequest.approvalId, hrequest.workflowId,
      hrequest.nodeId⟩
    show m.compensationTool.getD "" = tool
    rw [hsome, Option.getD_some]
  · intro handed hmem habout
    obtain ⟨hrefuses, workflow, hworkflow, n, hn, hid, hstatus⟩ :=
      hrefused handed hmem (habout.trans hsame)
    exact ⟨(refuses_congr rfl rfl).mp hrefuses, workflow, hworkflow, n, hn,
      hid.trans (id_of_plan hm.plan).symm, hstatus⟩
  · rintro answer done ⟨request, hid, h⟩
    have hsent' : ∀ handed : Handed, handed ∈ ⟨request, answer, some current⟩ :: calls →
        handed ∈ v.sent ∨ handed.About node.id := by
      intro handed hmem
      rcases List.mem_cons.mp hmem with rfl | hmem
      · exact Or.inr (hid.trans hsame)
      · exact hsent handed hmem
    cases answer with
    | error e =>
        -- nothing catches what the client raises here
        exact yields_raise
    | ok response =>
        refine yields_ambient uses_timeNow h fun now done _ h => ?_
        refine Yields.imp (saveNode_yields' h ht.toBased hturn ?_ ?_ ?_ rfl ?_) h.ok
          fun out done hout => ⟨_, _, hout.1, hout.2, hsent', ?_⟩
        · split <;> exact hm.plan
        · split <;> exact le_rfl
        · split <;> exact List.Subset.refl _
        · split <;> exact fun h => by cases h
        · split
          · exact List.mem_cons_self ..
          · exact List.mem_cons_of_mem _ (List.mem_cons_self ..)

/-- A failed answer leaves the node retrying, compensated or failed. -/
theorem failNode_yields (ht : Taking E call v base node) {running : WorkflowNode}
    {response : GatewayToolResponse}
    (h : Attempted E call v base node running current response done)
    (hpending : response.decision ≠ .pendingApproval) (hfailed : response.ok = false)
    {role : String} {authToken : Option String} :
    Yields E call (Turned E call v base node [.retrying, .compensated, .failed])
      (E.failNode running role current response authToken) done := by
  obtain ⟨hrunning, hstatus, hturn, calls, h, hcalls⟩ := h
  have hattempted := hturn.mem ht.toBased
  have hsent := sent_of_attempted hcalls
  refine yields_ambient uses_timeNow h fun now done _ h => ?_
  -- the failed node has the plan and the attempts of the running one
  refine Yields.bind (Yields.imp (saveNode_yields' h ht.toBased hturn hrunning.plan le_rfl
    (List.Subset.refl _) (by rw [hstatus]; rfl) fun h => by cases h) h.ok
      fun current done hout => ?_) h.ok
  obtain ⟨h, hturn⟩ := hout
  dsimp only
  split
  · refine yields_ambient (uses_nextRetryTime _) h fun nextRetryAt done _ h => ?_
    exact Yields.imp (saveNode_yields' h ht.toBased hturn hrunning.plan le_rfl
      (List.Subset.refl _) rfl fun h => by cases h) h.ok
        fun out done hout => ⟨_, _, hout.1, hout.2, hsent, List.mem_cons_self ..⟩
  · rename_i hretry
    split
    · rename_i htool
      refine Yields.imp (compensateNode_yields ht ?_ ?_ h hturn hsent ?_ htool) h.ok ?_
      · exact ⟨hrunning.plan, hrunning.attempts, hrunning.approvalId⟩
      · rfl
      · -- the only call for the node is the one that was refused
        intro handed hmem habout
        rcases hcalls with rfl | ⟨request, answer, hid, rfl, hresponse⟩
        · exact absurd habout (ht.unsent _ hmem)
        · rcases List.mem_cons.mp hmem with rfl | hmem
          · exact ⟨⟨response, responseOf_congr (toolName_of_plan rfl) _ ▸ hresponse, hpending,
              hfailed, hretry⟩, _, rfl, running, hattempted, id_of_plan hrunning.plan, hstatus⟩
          · exact absurd habout (ht.unsent _ hmem)
      · rintro out done ⟨m, calls, h, hturn, hsent, hmem⟩
        exact ⟨m, calls, h, hturn, hsent, List.mem_cons_of_mem _ hmem⟩
    · exact yields_pure ⟨_, _, h, hturn, hsent, List.mem_cons_of_mem _
        (List.mem_cons_of_mem _ (List.mem_cons_self ..))⟩

/-- How an attempt at a node can leave it. -/
def attemptedStatuses : List WorkflowNodeStatus :=
  [.waitingApproval, .succeeded, .retrying, .compensated, .failed]

/-- An attempt at a node leaves it waiting, succeeded, retrying, compensated or failed. -/
theorem executeNodeWithRecovery_yields (ht : Taking E call v base node)
    (h : At E call { v with current } done) (hturn : Turning base node m current)
    (hattempts : m.attempts = node.attempts) (happroval : m.approvalId = node.approvalId)
    (hdone : m.executionStatus.done = false) {role : String} {nodeOutputs : NodeOutputs}
    {authToken : Option String} :
    Yields E call (fun out => Turned E call v base node attemptedStatuses out.1)
      (E.executeNodeWithRecovery m role current nodeOutputs authToken) done := by
  -- the attempt is counted and saved before the tool is called
  refine yields_ambient (uses_startAttempt m) h fun running done hrunning h => ?_
  obtain ⟨hrunning, hstatus, hreferences⟩ :=
    startAttempt_attempting hturn.plan hattempts happroval hrunning
  refine Yields.bind (Yields.imp (saveNode_yields' h ht.toBased hturn hrunning.plan
    (by rw [hrunning.attempts]; omega) (fun _ h => hreferences ▸ h) hdone
    fun h => by cases hstatus.symm.trans h) h.ok
    fun current done hout => ?_) h.ok
  refine Yields.bind (Yields.imp (attemptNode_yields ht hrunning hstatus hout.1 hout.2) hout.1.ok
    ?_) hout.1.ok
  rintro ⟨running, current, response⟩ done hattempted
  have hattempted' := hattempted
  obtain ⟨hrunning, hstatus, hturn, calls, h, hcalls⟩ := hattempted
  have hsent := sent_of_attempted hcalls
  have hdone : running.executionStatus.done = false := by
    rw [hstatus]
    rfl
  dsimp only
  split
  · -- the node waits for an approval
    rename_i hpending
    refine Yields.bind (Yields.imp ?_ h.ok fun out done hout => yields_pure hout) h.ok
    refine yields_ambient (uses_auditEvent ..) h fun event done _ h => ?_
    refine Yields.imp (saveNode_yields h ht.toBased hturn ?_ ?_ ?_ ?_ ?_ hrunning.plan le_rfl
      (List.Subset.refl _) hdone fun _ => Or.inr ⟨?_, ?_⟩) h.ok
        fun out done hout => ⟨_, _, hout.1, hout.2, hsent, List.mem_cons_self ..⟩
    · rfl
    · rfl
    · rfl
    · exact fun h => by cases h
    · exact fun h => by cases h
    · intro handed hmem habout
      have habout : handed.About node.id := habout.trans (congrArg some (id_of_plan hrunning.plan))
      rcases hcalls with rfl | ⟨request, answer, -, rfl, hresponse⟩
      · exact absurd habout (ht.unsent _ hmem)
      · rcases List.mem_cons.mp hmem with rfl | hmem
        · exact pending_of_responseOf hresponse hpending
        · exact absurd habout (ht.unsent _ hmem)
    · obtain ⟨node₀, hmem, htakes, hplan, hattempts, -⟩ := ht.taken
      exact ⟨node₀, hmem, htakes, hrunning.plan.trans hplan,
        hrunning.attempts.trans (congrArg (· + 1) hattempts)⟩
  · rename_i hpending
    -- the answer is well, or the node has failed
    split
    · refine Yields.bind (Yields.imp ?_ h.ok fun out done hout => yields_pure hout) h.ok
      refine yields_ambient uses_timeNow h fun now done _ h => ?_
      exact Yields.imp (saveNode_yields' h ht.toBased hturn hrunning.plan le_rfl
        (List.Subset.refl _) hdone fun h => by cases h) h.ok fun out done hout =>
          ⟨_, _, hout.1, hout.2, hsent, List.mem_cons_of_mem _ (List.mem_cons_self ..)⟩
    · rename_i hok
      refine Yields.bind (Yields.imp (failNode_yields ht hattempted' hpending
        (Bool.eq_false_iff.mpr hok)) h.ok fun out done hout => yields_pure ?_) h.ok
      obtain ⟨m, calls, h, hturn, hsent, hmem⟩ := hout
      exact ⟨m, calls, h, hturn, hsent, List.mem_cons_of_mem _ (List.mem_cons_of_mem _ hmem)⟩

end Turn

end WorkflowPlanningService

end McpOps
