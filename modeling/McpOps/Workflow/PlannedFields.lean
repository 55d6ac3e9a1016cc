import McpOps.Workflow.Service

/-!
# Where the fields of a planned node come from

The validator and the planning pass write the risk, the approval, the retry and the timeout of a
node from the metadata of its tool and the policy.  The fields that record a run are taken over
from the draft as they are.

## Strategy

`ServerFields` are the fields that the server owns, and `plannedFields` says what planning gives
to a node of the draft: a function of the node, the request and the metadata of the tool.
Planning comes down to it in three steps.

* The validator normalizes the nodes (`of_validate`), which keeps everything but what the metadata
  says (`normalizeNode_keeps`).
* The planning pass transforms each node by the verdict on it (`planNodes_serverFields`), and a
  verdict looks at the tool and the arguments only (`verdict_congr`).
* Together the nodes have the planned fields (`validateAndTransform_serverFields`).

Two nodes that propose the same step get the same fields exactly when they record the same run
(`plannedFields_eq_iff`), and `planned_serverFields_agree_iff` says it of whole drafts.  The
examples are a draft that disagrees on the risk, without effect, and one whose node claims to have
succeeded.
-/

namespace McpOps

open Proc

/-- Two draft nodes that propose the same step. -/
structure SameProposal (n₁ n₂ : WorkflowNode) : Prop where
  id : n₁.id = n₂.id
  toolName : n₁.toolName = n₂.toolName
  description : n₁.description = n₂.description
  arguments : n₁.arguments = n₂.arguments
  argumentReferences : n₁.argumentReferences = n₂.argumentReferences
  dependsOn : n₁.dependsOn = n₂.dependsOn
  condition : n₁.condition = n₂.condition
  typedCondition : n₁.typedCondition = n₂.typedCondition
  knowledgeReferences : n₁.knowledgeReferences = n₂.knowledgeReferences

/-- The fields of a node that the server owns. -/
structure ServerFields where
  executionStatus : WorkflowNodeStatus
  attempts : ℕ
  approvalId : Option UUID
  approvalState : WorkflowApprovalState
  approvalRequired : Bool
  riskLevel : String
  retryStrategy : RetryStrategy
  maxRetries : ℕ
  timeoutSeconds : ℕ
  compensationTool : Option String
  resultReference : Option String
  nextRetryAt : Option Time
  lastError : Option String
  deriving DecidableEq

/-- The server's fields of a node. -/
def WorkflowNode.serverFields (node : WorkflowNode) : ServerFields where
  executionStatus := node.executionStatus
  attempts := node.attempts
  approvalId := node.approvalId
  approvalState := node.approvalState
  approvalRequired := node.approvalRequired
  riskLevel := node.riskLevel
  retryStrategy := node.retryStrategy
  maxRetries := node.maxRetries
  timeoutSeconds := node.timeoutSeconds
  compensationTool := node.compensationTool
  resultReference := node.resultReference
  nextRetryAt := node.nextRetryAt
  lastError := node.lastError

namespace WorkflowPlanningService

variable (E : WorkflowPlanningService)

/-- `validate` followed by `_apply_planning_policy`. -/
def validateAndTransform (draft : WorkflowPlanDraft) (request : WorkflowPlanRequest)
    (discoveredTools : List String) : EngineM Workflow := do
  let workflow ← E.validator.validate draft request.createdBy request.role discoveredTools
    request.targetEnvironment
  E.applyPlanningPolicy workflow draft request

/-- The decision of the planning pass on a draft node. -/
def planningDecision (request : WorkflowPlanRequest) (node : WorkflowNode) : PolicyDecision :=
  E.policyEvaluator.decides node request.role request.targetEnvironment .planning

/-- Two draft nodes that record the same run: they agree on what nothing writes over. -/
structure SameRecord (request : WorkflowPlanRequest) (n₁ n₂ : WorkflowNode) : Prop where
  attempts : n₁.attempts = n₂.attempts
  approvalId : n₁.approvalId = n₂.approvalId
  approvalState : n₁.approvalState = n₂.approvalState
  resultReference : n₁.resultReference = n₂.resultReference
  nextRetryAt : n₁.nextRetryAt = n₂.nextRetryAt
  lastError : n₁.lastError = n₂.lastError
  executionStatus : E.planningDecision request n₁ ∈ [PolicyDecision.allow, .allowWithApproval] →
    n₁.executionStatus = n₂.executionStatus

/-! ## The fields after planning -/

/-- The server's fields that planning gives to a draft node. -/
def plannedFields (request : WorkflowPlanRequest) (node : WorkflowNode) : ServerFields :=
  let decision := E.planningDecision request node
  { (E.validator.normalizeNode node).serverFields with
    riskLevel := (E.toolRegistry.lookup node.toolName).elim
      (E.policyEvaluator.verdict node request.role request.targetEnvironment .planning).2.1
      (·.riskLevel.value)
    approvalRequired := decision = .allowWithApproval
    executionStatus :=
      if decision = .deny then .denied
      else if decision = .requireAdditionalContext then .blocked
      else node.executionStatus }

/-- The policy looks at the tool and the arguments of a node only. -/
theorem verdict_congr {P : WorkflowPolicyEvaluator} {n₁ n₂ : WorkflowNode}
    (htool : n₁.toolName = n₂.toolName) (harguments : n₁.arguments = n₂.arguments)
    (role environment : String) (phase : PolicyPhase) :
    P.verdict n₁ role environment phase = P.verdict n₂ role environment phase := by
  have hresource : nodeResource P.runtime n₁ = nodeResource P.runtime n₂ := by
    rw [nodeResource, nodeResource, harguments]
  rw [WorkflowPolicyEvaluator.verdict, WorkflowPolicyEvaluator.verdict, htool]
  cases P.registry.lookup n₂.toolName with
  | none => rfl
  | some metadata =>
      dsimp only
      rw [WorkflowPolicyEvaluator.decision, WorkflowPolicyEvaluator.decision, requiresContext,
        requiresContext, hresource]

/-- The planning pass of the policy gives every node the fields of its transformation. -/
theorem planNodes_serverFields {request : WorkflowPlanRequest} {nodes planned : List WorkflowNode}
    {events : List WorkflowAuditEvent}
    (h : (E.planNodes request nodes).Returns (planned, events)) :
    List.Forall₂ (fun node planned => ∃ evaluation now,
      E.policyEvaluator.evaluate node request.createdBy request.role request.targetEnvironment
        .planning now = .ok evaluation ∧
      planned = transformNodeWithPolicy node evaluation (E.toolRegistry.lookup node.toolName))
      nodes planned := by
  induction nodes generalizing planned events with
  | nil =>
      cases h
      exact .nil
  | cons node rest ih =>
      rw [planNodes, Procedure.returns_bind] at h
      obtain ⟨now, -, h⟩ := h
      obtain ⟨evaluation, hevaluation, h⟩ := Procedure.returns_bind.mp h
      obtain ⟨denials, -, h⟩ := Procedure.returns_bind.mp h
      obtain ⟨⟨nodes, events'⟩, hrest, h⟩ := Procedure.returns_bind.mp h
      cases h
      exact .cons ⟨evaluation, now, Procedure.returns_ofExcept.mp hevaluation, rfl⟩ (ih hrest)

/-- Equal images, element by element. -/
theorem map_eq_map_iff {α β γ : Type} {f : α → γ} {g : β → γ} {l : List α} {l' : List β} :
    l.map f = l'.map g ↔ List.Forall₂ (fun a b => f a = g b) l l' := by
  rw [← List.forall₂_map_right_iff, ← List.forall₂_map_left_iff (f := f), List.forall₂_eq_eq_eq]

/-- Normalizing a node keeps everything but what the metadata says. -/
theorem normalizeNode_keeps (V : WorkflowValidator) (node : WorkflowNode) :
    (V.normalizeNode node).toolName = node.toolName ∧
      (V.normalizeNode node).arguments = node.arguments ∧
      (V.normalizeNode node).executionStatus = node.executionStatus := by
  unfold WorkflowValidator.normalizeNode
  split <;> exact ⟨rfl, rfl, rfl⟩

/-- A transformed node has the fields that planning gives to the draft's node. -/
theorem transformed_serverFields {request : WorkflowPlanRequest} {node normalized : WorkflowNode}
    {evaluation : WorkflowPolicyEvaluation} {now : Time}
    (htool : normalized.toolName = node.toolName)
    (harguments : normalized.arguments = node.arguments)
    (hstatus : normalized.executionStatus = node.executionStatus)
    (hfields : normalized.serverFields = (E.validator.normalizeNode node).serverFields)
    (h : E.policyEvaluator.evaluate normalized request.createdBy request.role
      request.targetEnvironment .planning now = .ok evaluation) :
    (transformNodeWithPolicy normalized evaluation
      (E.toolRegistry.lookup normalized.toolName)).serverFields = E.plannedFields request node := by
  obtain ⟨hdecision, hrisk⟩ := E.policyEvaluator.of_evaluate h
  have hverdict := verdict_congr (P := E.policyEvaluator) htool harguments request.role
    request.targetEnvironment .planning
  rw [WorkflowPolicyEvaluator.decides, hverdict] at hdecision
  rw [hverdict] at hrisk
  rw [plannedFields, ← hfields]
  simp only [planningDecision, transformNodeWithPolicy, WorkflowNode.serverFields, hdecision, hrisk,
    htool, hstatus]
  rfl

/-- What an accepted draft becomes: its tools are registered, and its nodes normalized. -/
theorem of_validate {V : WorkflowValidator} {draft : WorkflowPlanDraft}
    {createdBy role environment : String} {allowedToolNames : List String} {workflow : Workflow}
    (h : (V.validate draft createdBy role allowedToolNames environment).Returns workflow) :
    V.issues draft role allowedToolNames = [] ∧ ∃ id, workflow.nodes =
      draft.nodes.map fun node => { V.normalizeNode node with workflowId := some id } := by
  unfold WorkflowValidator.validate at h
  split at h
  · exact absurd h id
  · rename_i hissues
    split at h
    · obtain ⟨id, -, h⟩ := Procedure.returns_bind.mp h
      obtain ⟨createdAt, -, h⟩ := Procedure.returns_bind.mp h
      exact ⟨not_not.mp hissues, id, by rw [← Procedure.returns_pure.mp h]⟩
    · exact absurd h id

theorem registered_of_issues {V : WorkflowValidator} {draft : WorkflowPlanDraft} {role : String}
    {allowedToolNames : List String} (h : V.issues draft role allowedToolNames = [])
    {node : WorkflowNode} (hnode : node ∈ draft.nodes) :
    ∃ metadata, V.registry.lookup node.toolName = some metadata := by
  have hnodes : draft.nodes.flatMap (V.nodeIssues role allowedToolNames) = [] := by
    simp only [WorkflowValidator.issues, List.append_eq_nil_iff] at h
    exact h.1.1.1.1.1.2
  have hnone := List.flatMap_eq_nil_iff.mp hnodes node hnode
  cases hlookup : V.registry.lookup node.toolName with
  | some metadata => exact ⟨metadata, rfl⟩
  | none => simp [WorkflowValidator.nodeIssues, hlookup] at hnone

/-- The fields of two nodes with a registered tool are the same exactly when the nodes record
the same run. -/
theorem plannedFields_eq_iff {request : WorkflowPlanRequest} {n₁ n₂ : WorkflowNode}
    (h : SameProposal n₁ n₂) {metadata : ToolMetadata}
    (hlookup : E.validator.registry.lookup n₁.toolName = some metadata) :
    E.plannedFields request n₁ = E.plannedFields request n₂ ↔ E.SameRecord request n₁ n₂ := by
  have hverdict := verdict_congr (P := E.policyEvaluator) h.toolName h.arguments request.role
    request.targetEnvironment .planning
  have hdecision : E.planningDecision request n₁ = E.planningDecision request n₂ := by
    rw [planningDecision, planningDecision, WorkflowPolicyEvaluator.decides, hverdict]
  have hlookup' : E.validator.registry.lookup n₂.toolName = some metadata :=
    h.toolName ▸ hlookup
  simp only [plannedFields, WorkflowValidator.normalizeNode, hlookup', classifyRisk,
    WorkflowNode.serverFields, ServerFields.mk.injEq, hdecision, hverdict, h.toolName, true_and]
  constructor
  · rintro ⟨hstatus, hattempts, hid, hstate, hreference, hretry, herror⟩
    refine ⟨hattempts, hid, hstate, hreference, hretry, herror, fun hallowed => ?_⟩
    rw [hdecision] at hallowed
    rcases List.mem_pair.mp hallowed with hallow | hallow <;> simpa [hallow] using hstatus
  · rintro ⟨hattempts, hid, hstate, hreference, hretry, herror, hstatus⟩
    refine ⟨?_, hattempts, hid, hstate, hreference, hretry, herror⟩
    cases hcase : E.planningDecision request n₂ with
    | deny => rfl
    | requireAdditionalContext => rfl
    | _ => simpa [hcase] using hstatus (by simp [hdecision, hcase])

/-- The nodes of a planned workflow have the fields that planning gives to the draft's. -/
theorem validateAndTransform_serverFields {draft : WorkflowPlanDraft}
    {request : WorkflowPlanRequest} {discoveredTools : List String} {workflow : Workflow}
    (h : (E.validateAndTransform draft request discoveredTools).Returns workflow) :
    workflow.nodes.map (·.serverFields) = draft.nodes.map (E.plannedFields request) ∧
      ∀ node ∈ draft.nodes, ∃ metadata, E.validator.registry.lookup node.toolName =
        some metadata := by
  obtain ⟨validated, hvalidated, h⟩ := Procedure.returns_bind.mp h
  obtain ⟨hissues, id, hnodes⟩ := of_validate hvalidated
  refine ⟨?_, fun node hnode => registered_of_issues hissues hnode⟩
  obtain ⟨proposed, -, h⟩ := Procedure.returns_bind.mp h
  obtain ⟨⟨planned, denials⟩, hplanned, h⟩ := Procedure.returns_bind.mp h
  obtain ⟨transformed, -, h⟩ := Procedure.returns_bind.mp h
  rw [← Procedure.returns_pure.mp h]
  have hall := E.planNodes_serverFields hplanned
  rw [hnodes, List.forall₂_map_left_iff] at hall
  refine (map_eq_map_iff.mpr (hall.imp ?_)).symm
  rintro node out ⟨evaluation, now, hevaluation, rfl⟩
  obtain ⟨htool, harguments, hstatus⟩ := normalizeNode_keeps E.validator node
  exact (E.transformed_serverFields htool harguments hstatus rfl hevaluation).symm

/-- Two drafts that propose the same steps get the same server fields exactly when they
record the same run. -/
theorem planned_serverFields_agree_iff {d₁ d₂ : WorkflowPlanDraft} {request : WorkflowPlanRequest}
    {discoveredTools : List String} {wf₁ wf₂ : Workflow}
    (hsame : List.Forall₂ SameProposal d₁.nodes d₂.nodes)
    (h₁ : (E.validateAndTransform d₁ request discoveredTools).Returns wf₁)
    (h₂ : (E.validateAndTransform d₂ request discoveredTools).Returns wf₂) :
    wf₁.nodes.map (·.serverFields) = wf₂.nodes.map (·.serverFields) ↔
      List.Forall₂ (E.SameRecord request) d₁.nodes d₂.nodes := by
  obtain ⟨hfields₁, hregistered⟩ := E.validateAndTransform_serverFields h₁
  rw [hfields₁, (E.validateAndTransform_serverFields h₂).1, map_eq_map_iff]
  generalize d₁.nodes = nodes₁ at hsame hregistered
  generalize d₂.nodes = nodes₂ at hsame
  induction hsame with
  | nil => exact ⟨fun _ => .nil, fun _ => .nil⟩
  | @cons n₁ n₂ rest₁ rest₂ hnode _ ih =>
      obtain ⟨metadata, hlookup⟩ := hregistered n₁ (List.mem_cons_self ..)
      rw [List.forall₂_cons, List.forall₂_cons, E.plannedFields_eq_iff hnode hlookup,
        ih fun n hn => hregistered n (List.mem_cons_of_mem _ hn)]

end WorkflowPlanningService

/-! ### Plans that read the status of a device -/

/-- A plan of one node that reads, whose draft sets the status and the risk of the node. -/
def statusDraft (status : WorkflowNodeStatus) (risk : String) : WorkflowPlanDraft where
  userRequest := "How is dev-1?"
  plannerModel := "json-workflow-planner-test"
  confidence := .finite 1
  nodes :=
    [{ id := "read"
       toolName := "get_device_status"
       toolServer := "device-mcp"
       description := "Read the status."
       riskLevel := risk
       executionStatus := status }]

theorem sameProposal_statusDraft (s₁ s₂ : WorkflowNodeStatus) (r₁ r₂ : String) :
    List.Forall₂ SameProposal (statusDraft s₁ r₁).nodes (statusDraft s₂ r₂).nodes :=
  .cons ⟨rfl, rfl, rfl, rfl, rfl, rfl, rfl, rfl, rfl⟩ .nil

/-- The plan of a draft, as the small service makes it. -/
abbrev smallPlan (draft : WorkflowPlanDraft) : EngineM Workflow :=
  WorkflowPlanningService.small.validateAndTransform draft { userRequest := draft.userRequest }
    ["get_device_status"]

/-- The plan is accepted, with the status that the draft says. -/
theorem exists_smallPlan (draft : WorkflowPlanDraft) (status : WorkflowNodeStatus)
    (h : (((smallPlan draft).exec engineSystem () (EngineEnv.steps 5 20)
      (Run.start {})).1.result?.map fun wf => wf.nodes.map (·.executionStatus)) = some [status]) :
    ∃ workflow, (smallPlan draft).Returns workflow ∧
      workflow.nodes.map (·.executionStatus) = [status] := by
  obtain ⟨workflow, hresult, hstatus⟩ := Option.map_eq_some_iff.mp h
  exact ⟨workflow, Procedure.returns_of_exec hresult, hstatus⟩

theorem statusDraft_planned : ∀ draft ∈
    [(WorkflowNodeStatus.pending, "CRITICAL"), (.pending, "LOW"),
    (.succeeded, "LOW")], (((smallPlan (statusDraft draft.1 draft.2)).exec engineSystem ()
      (EngineEnv.steps 5 20) (Run.start {})).1.result?.map fun wf =>
        wf.nodes.map (·.executionStatus)) = some [draft.1] := by
  decide

/-- Drafts that disagree on the risk only are planned alike. -/
theorem planned_serverFields_agree_risk :
    ∃ wf₁ wf₂, (smallPlan (statusDraft .pending "CRITICAL")).Returns wf₁ ∧
      (smallPlan (statusDraft .pending "LOW")).Returns wf₂ ∧
      wf₁.nodes.map (·.serverFields) = wf₂.nodes.map (·.serverFields) := by
  obtain ⟨wf₁, h₁, -⟩ := exists_smallPlan (statusDraft .pending "CRITICAL") .pending
    (statusDraft_planned (.pending, "CRITICAL") (by simp))
  obtain ⟨wf₂, h₂, -⟩ := exists_smallPlan (statusDraft .pending "LOW") .pending
    (statusDraft_planned (.pending, "LOW") (by simp))
  refine ⟨wf₁, wf₂, h₁, h₂, ?_⟩
  refine (WorkflowPlanningService.small.planned_serverFields_agree_iff
    (sameProposal_statusDraft ..) h₁ h₂).mpr ?_
  exact .cons ⟨rfl, rfl, rfl, rfl, rfl, rfl, fun _ => rfl⟩ .nil

/-- A draft that says that its node has succeeded is accepted, and planned so. -/
theorem planned_status_from_draft :
    List.Forall₂ SameProposal (statusDraft .pending "LOW").nodes
        (statusDraft .succeeded "LOW").nodes ∧
      ∃ wf₁ wf₂, (smallPlan (statusDraft .pending "LOW")).Returns wf₁ ∧
        (smallPlan (statusDraft .succeeded "LOW")).Returns wf₂ ∧
        wf₁.nodes.map (·.serverFields) ≠ wf₂.nodes.map (·.serverFields) := by
  obtain ⟨wf₁, h₁, hstatus₁⟩ := exists_smallPlan (statusDraft .pending "LOW") .pending
    (statusDraft_planned (.pending, "LOW") (by simp))
  obtain ⟨wf₂, h₂, hstatus₂⟩ := exists_smallPlan (statusDraft .succeeded "LOW") .succeeded
    (statusDraft_planned (.succeeded, "LOW") (by simp))
  refine ⟨sameProposal_statusDraft .., wf₁, wf₂, h₁, h₂, fun hsame => ?_⟩
  have hstatuses := congrArg (List.map ServerFields.executionStatus) hsame
  simp only [List.map_map] at hstatuses
  have : [WorkflowNodeStatus.pending] = [.succeeded] :=
    hstatus₁.symm.trans (hstatuses.trans hstatus₂)
  cases this

end McpOps
