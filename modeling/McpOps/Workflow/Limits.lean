import McpOps.Workflow.CallShape
import McpOps.Workflow.RoundTrip

/-!
# What the engine writes stays within the limits

The engine copies its models without a check.  Followed through the code, a node keeps every
limit but the one on its error, and a workflow every limit but the one on its audit events: the
fields with limits are either left alone, or written from something that has been checked.

## Strategy

`WorkflowNode.Fits` and `Workflow.Fits` are the limits without these two.  Few things can happen to
a node, and each has a lemma: its fields with a limit stay (`WorkflowNode.Fits.congr`), it gets a
reference to a result (`withReference`, since an id is short enough), or the policy writes to it
(`transform`, since what the evaluator returns has been checked).  `Workflow.Fits.next` is what a
run makes of the workflow around its nodes.

`Stores` says of one function that it writes workflows within the limits only, for all workflows
within the limits that it may read.  It goes through the code in the order of the source:

* the attempt at a node, up to `executeNodeWithRecovery_stores`;
* the loop, up to `runWorkflow_stores`;
* the operations, up to `serve_stores`.

Planning comes last.  There the nodes come from a draft, which has been checked, and from a registry
whose texts fit (`ToolRegistry.Fits`): `validate_fits`, `applyPlanningPolicy_fits` and
`planDraft_stores`.
-/

namespace McpOps

open Proc

/-! ## Nodes and workflows -/

/-- A node of the workflow of the id within the limits. -/
structure WorkflowNode.Fits (id : UUID) (node : WorkflowNode) : Prop extends node.Kept where
  workflowId : node.workflowId = some id

/-- The workflow of the id within the limits. -/
structure Workflow.Fits (id : UUID) (workflow : Workflow) : Prop extends workflow.Kept where
  id_eq : workflow.id = id

/-- The fields of a node that have a limit, without its error. -/
def WorkflowNode.limited (node : WorkflowNode) : WorkflowNode :=
  { node with
    arguments := []
    approvalRequired := false
    executionStatus := .pending
    attempts := 0
    retryStrategy := .noRetry
    lastError := none
    startedAt := none
    completedAt := none
    lastAttemptAt := none
    nextRetryAt := none
    approvalId := none
    approvalState := .notRequired }

section Limits

variable {id : UUID} {node m : WorkflowNode} {workflow : Workflow}

/-- Only the fields with a limit matter. -/
theorem WorkflowNode.Fits.congr (h : node.Fits id) (hm : m.limited = node.limited) :
    m.Fits id where
  fields := (congrArg WorkflowNode.valid hm).trans h.fields
  references := by
    have hreferences : m.limited.argumentReferences = node.limited.argumentReferences := by rw [hm]
    exact hreferences ▸ h.references
  condition := by
    have hcondition : m.limited.typedCondition = node.limited.typedCondition := by rw [hm]
    exact hcondition ▸ h.condition
  evaluation := by
    have hevaluation : m.limited.policyEvaluation = node.limited.policyEvaluation := by rw [hm]
    exact hevaluation ▸ h.evaluation
  workflowId := (congrArg WorkflowNode.workflowId hm).trans h.workflowId

/-- An id is short enough for a result reference. -/
theorem WorkflowNode.Fits.withReference (h : node.Fits id) (reference : UUID) :
    { node with resultReference := some reference.str }.Fits id where
  fields := by
    have hfields := h.fields
    simp only [WorkflowNode.valid, decide_eq_true_eq] at hfields ⊢
    obtain ⟨h₁, h₂, h₃, h₄, h₅, h₆, h₇, h₈, h₉, h₁₀, h₁₁, h₁₂, -, h₁₄⟩ := hfields
    refine ⟨h₁, h₂, h₃, h₄, h₅, h₆, h₇, h₈, h₉, h₁₀, h₁₁, h₁₂, ?_, h₁₄⟩
    rw [Option.all_some, hasLength, UUID.length_str]
    rfl
  references := h.references
  condition := h.condition
  evaluation := h.evaluation
  workflowId := h.workflowId

theorem WorkflowNode.Fits.withoutReferences (h : node.Fits id) :
    { node with argumentReferences := [] }.Fits id where
  fields := by
    have hfields := h.fields
    simp only [WorkflowNode.valid, decide_eq_true_eq] at hfields ⊢
    obtain ⟨h₁, h₂, h₃, h₄, -, h₆⟩ := hfields
    exact ⟨h₁, h₂, h₃, h₄, Nat.zero_le _, h₆⟩
  references := fun _ hreference => absurd hreference List.not_mem_nil
  condition := h.condition
  evaluation := h.evaluation
  workflowId := h.workflowId

theorem RiskLevel.hasLength_value (risk : RiskLevel) : hasLength 1 32 risk.value := by
  cases risk <;> decide

/-- What the evaluator returns has been checked. -/
theorem valid_of_evaluate {P : WorkflowPolicyEvaluator} {actor role environment : String}
    {phase : PolicyPhase} {now : Time} {evaluation : WorkflowPolicyEvaluation}
    (h : P.evaluate node actor role environment phase now = .ok evaluation) :
    evaluation.valid := by
  simp only [WorkflowPolicyEvaluator.evaluate] at h
  split at h
  · cases h
    rename_i hchecked
    exact decide_eq_true hchecked
  · cases h

/-- The policy writes its evaluation and the risk of the tool. -/
theorem WorkflowNode.Fits.transform (h : node.Fits id) {evaluation : WorkflowPolicyEvaluation}
    (hevaluation : evaluation.valid) (metadata : Option ToolMetadata) :
    (transformNodeWithPolicy node evaluation metadata).Fits id where
  fields := by
    have hfields := h.fields
    simp only [WorkflowNode.valid, decide_eq_true_eq] at hfields
    obtain ⟨h₁, h₂, h₃, h₄, h₅, h₆, h₇, h₈, -, h₁₀⟩ := hfields
    have hrisk : hasLength 1 32 (metadata.elim evaluation.risk (·.riskLevel.value)) := by
      cases metadata with
      | none =>
          simp only [WorkflowPolicyEvaluation.valid, decide_eq_true_eq] at hevaluation
          exact hevaluation.2.2.2.2.2.1
      | some metadata => exact metadata.riskLevel.hasLength_value
    simp only [WorkflowNode.valid, decide_eq_true_eq]
    exact ⟨h₁, h₂, h₃, h₄, h₅, h₆, h₇, h₈, hrisk, h₁₀⟩
  references := h.references
  condition := h.condition
  evaluation := fun _ hsame => by
    cases hsame
    exact hevaluation
  workflowId := h.workflowId

/-- The nodes of a workflow within the limits. -/
theorem Workflow.Fits.nodeFits (h : workflow.Fits id) (hnode : node ∈ workflow.nodes) :
    node.Fits id := ⟨h.nodes node hnode, h.id_eq ▸ h.sound.workflowId node hnode⟩

/-- What a run rewrites of a workflow: its status, its version, its nodes, whose ids stay, and
its audit events. -/
theorem Workflow.Fits.next (h : workflow.Fits id) {status : WorkflowStatus} {version : ℕ}
    {nodes : List WorkflowNode} {events : List WorkflowAuditEvent}
    (hversion : workflow.version ≤ version) (hids : nodes.map (·.id) = workflow.nodeIds)
    (hnodes : ∀ node ∈ nodes, node.Fits id) (hevents : ∀ event ∈ events, event.valid) :
    { workflow with status, version, nodes, auditEvents := events }.Fits id where
  sound :=
    { nodup := by
        rw [Workflow.nodeIds, hids]
        exact h.sound.nodup
      workflowId := fun node hnode => by
        rw [(hnodes node hnode).workflowId, ← h.id_eq] }
  fields := by
    have hfields := h.fields
    simp only [Workflow.valid, decide_eq_true_eq] at hfields ⊢
    obtain ⟨h₁, h₂, h₃, h₄, h₅, h₆, h₇, h₈⟩ := hfields
    have hlength : nodes.length = workflow.nodes.length := by
      have hlength := congrArg List.length hids
      rwa [Workflow.nodeIds, List.length_map, List.length_map] at hlength
    exact ⟨h₁, h₂, h₃, h₄, h₅, h₆.trans hversion, hlength ▸ h₇, h₈⟩
  nodes := fun node hnode => (hnodes node hnode).toKept
  edges := h.edges
  events := hevents
  id_eq := h.id_eq

/-- No limit is on the plans that are kept with a workflow. -/
theorem Workflow.Fits.withPlans (h : workflow.Fits id)
    (originalPlan policyTransformedPlan : PyDict) :
    { workflow with originalPlan, policyTransformedPlan }.Fits id where
  sound := ⟨h.sound.nodup, h.sound.workflowId⟩
  fields := h.fields
  nodes := h.nodes
  edges := h.edges
  events := h.events
  id_eq := h.id_eq

/-- The next version of a workflow, its nodes as they are. -/
theorem Workflow.Fits.bump (h : workflow.Fits id) :
    { workflow with version := workflow.version + 1 }.Fits id :=
  h.next (Nat.le_succ _) rfl (fun _ hnode => h.nodeFits hnode) h.events

theorem Workflow.Fits.replaceNode (h : workflow.Fits id) (hnode : node.Fits id) :
    (workflow.replaceNode node).Fits id := by
  refine h.next le_rfl (Workflow.replaceNode_nodeIds h.sound.nodup node) (fun n hn => ?_) h.events
  have hn : n ∈ (workflow.replaceNode node).nodes := hn
  rw [replaceNode_eq_putNode h.sound.nodup] at hn
  rcases mem_putNode.mp hn with ⟨rfl, -⟩ | ⟨hn, -⟩
  · exact hnode
  · exact h.nodeFits hn

/-- One more audit event. -/
theorem Workflow.Fits.snoc (h : workflow.Fits id) {event : WorkflowAuditEvent}
    (hevent : event.valid) : ∀ e ∈ workflow.auditEvents ++ [event], e.valid := by
  intro e he
  rcases List.mem_append.mp he with he | he
  · exact h.events e he
  · rw [List.mem_singleton.mp he]
    exact hevent

/-- Every node is rewritten within the limits. -/
theorem Workflow.Fits.mapNodes (h : workflow.Fits id) {f : WorkflowNode → WorkflowNode}
    (hf : ∀ node : WorkflowNode, node.Fits id → (f node).Fits id ∧ (f node).id = node.id)
    {status : WorkflowStatus} {event : WorkflowAuditEvent} (hevent : event.valid) :
    Workflow.Fits id
      { workflow with
        status
        version := workflow.version + 1
        nodes := workflow.nodes.map f
        auditEvents := workflow.auditEvents ++ [event] } := by
  refine h.next (Nat.le_succ _) ?_ (fun node hn => ?_) (h.snoc hevent)
  · rw [List.map_map]
    exact List.map_congr_left fun node hn => (hf node (h.nodeFits hn)).2
  · obtain ⟨old, hold, rfl⟩ := List.mem_map.mp hn
    exact (hf old (h.nodeFits hold)).1

end Limits

/-! ## Drafts and registries -/

/-- The checks of `WorkflowPlanDraft` on its own fields. -/
def WorkflowPlanDraft.valid (draft : WorkflowPlanDraft) : Bool :=
  hasLength 2 2000 draft.userRequest ∧ hasLength 1 120 draft.plannerModel ∧
    draft.confidence.isShare ∧ draft.nodes.length ≤ 25 ∧ draft.edges.length ≤ 50

/-- A draft within the limits. -/
structure WorkflowPlanDraft.Kept (draft : WorkflowPlanDraft) : Prop where
  fields : draft.valid
  nodes : ∀ node ∈ draft.nodes, node.Kept
  edges : ∀ edge ∈ draft.edges, edge.valid

/-- The metadata of a tool fits into the nodes that are planned from it. -/
structure ToolMetadata.Fits (metadata : ToolMetadata) : Prop where
  server : hasLength 1 128 metadata.server
  defaultMaxRetries : metadata.defaultMaxRetries ≤ 10
  timeoutSeconds : 1 ≤ metadata.timeoutSeconds ∧ metadata.timeoutSeconds ≤ 120
  compensationTool : metadata.compensationTool.all (hasLength 0 128)

/-- The entries of a registry fit. -/
def ToolRegistry.Fits (registry : ToolRegistry) : Prop :=
  ∀ toolName metadata, registry.lookup toolName = some metadata → metadata.Fits

/-! ## What code writes -/

/-- The workflow that is read is within the limits. -/
def EngineEvent.Checked : EngineEvent → Prop
  | ⟨.getWorkflow _, answer⟩ => ∀ workflow, answer = some workflow → workflow.Kept
  | _ => True

/-- The workflow that is written is within the limits. -/
def WithinLimits (o : WorkflowOp) : Prop := ∀ workflow, o.saved = some workflow → workflow.Kept

/-- The code writes workflows within the limits only, and `post` holds of what it returns. -/
abbrev Stores {α : Type} (post : α → Prop) (p : EngineM α) : Prop :=
  p.Issues EngineEvent.Checked WithinLimits post

section Rules

variable {α β : Type} {post : β → Prop}

theorem withinLimits_of_unsaved {o : WorkflowOp} (h : o.saved = none) : WithinLimits o := by
  intro workflow hsaved
  rw [h] at hsaved
  cases hsaved

theorem withinLimits_of_ambient {o : WorkflowOp} (h : Ambient o) : WithinLimits o := by
  cases o with
  | now => exact withinLimits_of_unsaved rfl
  | uuid4 => exact withinLimits_of_unsaved rfl
  | _ => exact h.elim

theorem stores_ambient {p : EngineM α} {f : α → EngineM β} (hp : p.Uses Ambient)
    (hf : ∀ a, p.Returns a → Stores post (f a)) : Stores post (p >>= f) :=
  ((hp.mono fun _ => withinLimits_of_ambient).issues).bind hf

/-- An audit event has been checked. -/
theorem valid_of_auditEvent {eventType actor role message : String} {nodeId : Option String}
    {event : WorkflowAuditEvent}
    (h : (auditEvent eventType actor role message nodeId).Returns event) : event.valid := by
  obtain ⟨timestamp, -, h⟩ := Procedure.returns_bind.mp h
  split at h
  · rename_i hchecked
    rw [← Procedure.returns_pure.mp h]
    exact decide_eq_true hchecked
  · exact absurd h Procedure.returns_raise

end Rules

namespace WorkflowPlanningService

/-! ## One attempt at a node -/

section Attempt

variable {E : WorkflowPlanningService} {id : UUID} {workflow : Workflow} {node : WorkflowNode}

theorem checkpoint_stores (h : workflow.Fits id) (eventType : String) (nodeId : Option String) :
    Stores (Workflow.Fits id) (checkpoint workflow eventType nodeId) := by
  refine stores_ambient (uses_outboxEvent ..) fun event _ => ⟨?_, fun _ _ => h.bump⟩
  rintro _ ⟨⟩
  exact h.bump.toKept

theorem saveNode_stores (h : workflow.Fits id) (hnode : node.Fits id) (eventType : String) :
    Stores (Workflow.Fits id) (saveNode workflow node eventType) :=
  checkpoint_stores (h.replaceNode hnode) ..

theorem executeNode_stores (node : WorkflowNode) (role : String) (authToken : Option String) :
    Stores (fun _ => True) (E.executeNode node role authToken) := by
  refine stores_ambient uses_freshUuid fun correlationId _ => ?_
  dsimp only
  split
  · exact ⟨withinLimits_of_unsaved rfl, fun _ _ => trivial⟩
  · trivial

theorem compensateNode_stores (h : workflow.Fits id) (hnode : node.Fits id) (role : String)
    (authToken : Option String) :
    Stores (Workflow.Fits id) (E.compensateNode node role workflow authToken) := by
  refine (saveNode_stores h (hnode.congr (by rfl)) _).bind fun current hcurrent => ?_
  refine (executeNode_stores ..).bind fun answer _ => ?_
  cases answer with
  | error e => trivial
  | ok response =>
      refine stores_ambient uses_timeNow fun now _ => ?_
      dsimp only
      split
      · exact saveNode_stores hcurrent (hnode.congr (by rfl)) _
      · exact saveNode_stores hcurrent (hnode.congr (by rfl)) _

theorem resolved_fits (hnode : node.Fits id) {nodeOutputs : NodeOutputs} {bound : WorkflowNode}
    (h : resolveNodeArguments node nodeOutputs = .ok bound) : bound.Fits id := by
  rw [resolveNodeArguments] at h
  cases hfold : node.argumentReferences.foldlM (bindReference nodeOutputs) node.arguments with
  | error message =>
      rw [hfold] at h
      cases h
  | ok arguments =>
      rw [hfold] at h
      cases h
      exact hnode.congr rfl

theorem storeBound_stores (h : workflow.Fits id) {bound : WorkflowNode} (hnode : node.Fits id)
    (hbound : bound.Fits id) :
    Stores (fun out => out.1.Fits id ∧ out.2.Fits id) (storeBound node bound workflow) := by
  unfold storeBound
  split
  · exact ⟨hnode, h⟩
  · have hbare := hbound.withoutReferences
    exact (saveNode_stores h hbare _).bind fun current hcurrent => ⟨hbare, hcurrent⟩

theorem attemptNode_stores (h : workflow.Fits id) (hnode : node.Fits id) (role : String)
    (nodeOutputs : NodeOutputs) (authToken : Option String) :
    Stores (fun out => out.1.Fits id ∧ out.2.1.Fits id)
      (E.attemptNode node role workflow nodeOutputs authToken) := by
  unfold attemptNode
  split
  · exact stores_ambient (uses_failureResponse ..) fun response _ => ⟨hnode, h⟩
  · rename_i bound hbound
    refine (storeBound_stores h hnode (resolved_fits hnode hbound)).bind ?_
    rintro ⟨bound, current⟩ hstored
    refine (executeNode_stores ..).bind fun answer _ => ?_
    exact stores_ambient (uses_responseOf ..) fun response _ => hstored

theorem awaitApproval_stores (h : workflow.Fits id) (hnode : node.Fits id) (role : String)
    (response : GatewayToolResponse) :
    Stores (Workflow.Fits id) (E.awaitApproval node role workflow response) := by
  refine stores_ambient (uses_auditEvent ..) fun event hevent => ?_
  refine saveNode_stores (h.next le_rfl rfl (fun _ hn => h.nodeFits hn)
    (h.snoc (valid_of_auditEvent hevent))) ?_ _
  -- the reference is the id of the approval, or the correlation id
  cases approvalIdFromResponse E.runtime response with
  | none => exact (hnode.withReference response.correlationId).congr rfl
  | some approvalId => exact (hnode.withReference approvalId).congr rfl

theorem succeedNode_stores (h : workflow.Fits id) (hnode : node.Fits id)
    (response : GatewayToolResponse) :
    Stores (Workflow.Fits id) (succeedNode node workflow response) := by
  refine stores_ambient uses_timeNow fun now _ => ?_
  exact saveNode_stores h ((hnode.withReference response.correlationId).congr (by rfl)) _

theorem failNode_stores (h : workflow.Fits id) (hnode : node.Fits id) (role : String)
    (response : GatewayToolResponse) (authToken : Option String) :
    Stores (Workflow.Fits id) (E.failNode node role workflow response authToken) := by
  refine stores_ambient uses_timeNow fun now _ => ?_
  have hreference := hnode.withReference response.correlationId
  refine (saveNode_stores h (hreference.congr (by rfl)) _).bind fun current hcurrent => ?_
  dsimp only
  split
  · refine stores_ambient (uses_nextRetryTime _) fun nextRetryAt _ => ?_
    exact saveNode_stores hcurrent (hreference.congr (by rfl)) _
  · split
    · exact compensateNode_stores hcurrent (hreference.congr (by rfl)) _ _
    · exact hcurrent

theorem executeNodeWithRecovery_stores (h : workflow.Fits id) (hnode : node.Fits id)
    (role : String) (nodeOutputs : NodeOutputs) (authToken : Option String) :
    Stores (fun out => out.1.Fits id)
      (E.executeNodeWithRecovery node role workflow nodeOutputs authToken) := by
  refine stores_ambient (uses_startAttempt node) fun running hrunning => ?_
  have hrunning : running.Fits id := by
    obtain ⟨now, -, hrunning⟩ := Procedure.returns_bind.mp hrunning
    rw [← Procedure.returns_pure.mp hrunning]
    exact hnode.congr rfl
  refine (saveNode_stores h hrunning _).bind fun current hcurrent => ?_
  refine (attemptNode_stores hcurrent hrunning ..).bind ?_
  rintro ⟨running, current, response⟩ ⟨hrunning, hcurrent⟩
  dsimp only at hrunning hcurrent ⊢
  split
  · exact (awaitApproval_stores hcurrent hrunning ..).bind fun updated hupdated => hupdated
  · split
    · exact (succeedNode_stores hcurrent hrunning _).bind fun updated hupdated => hupdated
    · exact (failNode_stores hcurrent hrunning ..).bind fun updated hupdated => hupdated

end Attempt

/-! ## The loop -/

/-- The workflow that a turn leaves is within the limits. -/
def Turn.Fits (id : UUID) : Turn → Prop
  | .stop workflow => workflow.Fits id
  | .go state => state.updated.Fits id

section Loop

variable {E : WorkflowPlanningService} {id : UUID} {workflow : Workflow} {node : WorkflowNode}
  {state : RunState}

theorem finishWorkflow_stores (h : workflow.Fits id) (role : String) :
    Stores (Workflow.Fits id) (finishWorkflow workflow role) := by
  refine stores_ambient (uses_auditEvent ..) fun event hevent => ?_
  exact checkpoint_stores (h.next le_rfl rfl (fun _ hn => h.nodeFits hn)
    (h.snoc (valid_of_auditEvent hevent))) ..

theorem finished_stores (h : workflow.Fits id) (role : String) :
    Stores (Turn.Fits id) (finishWorkflow workflow role >>= fun finished =>
      pure (.stop finished)) :=
  (finishWorkflow_stores h role).bind fun _ hfinished => hfinished

/-- A node is saved, and the loop goes on. -/
theorem settled_stores (h : workflow.Fits id) (hnode : node.Fits id) (eventType : String)
    (state : RunState) : Stores (Turn.Fits id)
      (saveNode workflow node eventType >>= fun updated => pure (.go { state with updated })) :=
  (saveNode_stores h hnode eventType).bind fun _ hupdated => hupdated

theorem afterExecution_stores (h : workflow.Fits id) (node : WorkflowNode) (role : String)
    (state : RunState) (nodeOutputs : NodeOutputs) :
    Stores (Turn.Fits id) (afterExecution node role state workflow nodeOutputs) := by
  unfold afterExecution
  dsimp only
  split
  · exact h
  · split
    · exact h
    · split
      · exact finished_stores h role
      · exact h

theorem announceQueued_stores (h : workflow.Fits id) (ready : WorkflowNode) :
    Stores (Workflow.Fits id) (announceQueued workflow ready) := by
  unfold announceQueued
  split
  · exact checkpoint_stores h ..
  · exact h

theorem runReadyNode_stores (hnode : node.Fits id) (h : state.updated.Fits id)
    (workflow : Workflow) (role : String) (authToken : Option String) :
    Stores (Turn.Fits id) (E.runReadyNode workflow node role authToken state) := by
  have hready : (readyNode node).Fits id := hnode.congr rfl
  refine (saveNode_stores h hready _).bind fun updated hupdated => ?_
  refine (announceQueued_stores hupdated _).bind fun updated hupdated => ?_
  refine stores_ambient uses_timeNow fun now _ => ?_
  refine stores_ambient (uses_ofExcept _) fun evaluation hevaluation => ?_
  have hpolicy := hready.transform (valid_of_evaluate (Procedure.returns_ofExcept.mp hevaluation))
    (E.toolRegistry.lookup node.toolName)
  refine (saveNode_stores hupdated hpolicy _).bind fun updated hupdated => ?_
  split
  · refine stores_ambient uses_timeNow fun completedAt _ => ?_
    exact settled_stores hupdated (hpolicy.congr (by rfl)) ..
  · split
    · exact settled_stores hupdated (hpolicy.congr (by rfl)) ..
    · refine (executeNodeWithRecovery_stores hupdated hpolicy ..).bind ?_
      rintro ⟨updated, nodeOutputs⟩ hupdated
      exact afterExecution_stores hupdated ..

theorem runNode_stores (hnode : node.Fits id) (h : state.updated.Fits id) (workflow : Workflow)
    (role : String) (authToken : Option String) :
    Stores (Turn.Fits id) (E.runNode workflow node role authToken state) := by
  refine stores_ambient (uses_mayStart node) fun due _ => ?_
  split
  · exact h
  · split
    · exact h
    · split
      · exact settled_stores h (hnode.congr (by rfl)) ..
      · unfold runConditionedNode
        split
        · trivial
        · refine (saveNode_stores h (hnode.congr (by rfl)) _).bind fun updated hupdated => ?_
          exact finished_stores hupdated role
        · exact settled_stores h (hnode.congr (by rfl)) ..
        · exact runReadyNode_stores hnode h ..

theorem runNodes_stores {todo : List WorkflowNode} (hnodes : ∀ node ∈ todo, node.Fits id)
    (h : state.updated.Fits id) (workflow : Workflow) (role : String)
    (authToken : Option String) :
    Stores (Workflow.Fits id) (E.runNodes workflow role authToken todo state) := by
  induction todo generalizing state with
  | nil => exact finishWorkflow_stores h role
  | cons node rest ih =>
      have hnode := hnodes node (List.mem_cons_self ..)
      refine (runNode_stores hnode h ..).bind fun turn hturn => ?_
      cases turn with
      | stop finished => exact hturn
      | go state => exact ih (fun n hn => hnodes n (List.mem_cons_of_mem _ hn)) hturn

theorem runWorkflow_stores (h : workflow.Fits id) (role : String) (resumed : Bool)
    (authToken : Option String) :
    Stores (Workflow.Fits id) (E.runWorkflow workflow role resumed authToken) := by
  refine stores_ambient (uses_auditEvent ..) fun event hevent => ?_
  refine (checkpoint_stores (h.next (Nat.le_succ _) rfl (fun _ hn => h.nodeFits hn)
    (h.snoc (valid_of_auditEvent hevent))) ..).bind fun updated hupdated => ?_
  have hperm := topologicalNodes_perm hupdated.sound.nodup
  exact runNodes_stores (fun node hn => hupdated.nodeFits (hperm.mem_iff.mp hn)) hupdated ..

end Loop

/-! ## The operations -/

section Operations

variable {E : WorkflowPlanningService} {id : UUID} {workflow : Workflow} {node : WorkflowNode}

theorem getWorkflow_stores (workflowId : UUID) :
    Stores (fun workflow => workflow.Fits workflow.id) (getWorkflow workflowId) := by
  refine ⟨withinLimits_of_unsaved rfl, fun answer hanswer => ?_⟩
  cases answer with
  | none => trivial
  | some workflow => exact ⟨hanswer workflow rfl, rfl⟩

theorem execute_stores (workflowId : UUID) (role : String) (authToken : Option String) :
    Stores (fun _ => True) (E.execute workflowId role authToken) := by
  refine (getWorkflow_stores workflowId).bind fun workflow h => ?_
  split
  · trivial
  · split
    · trivial
    · exact (runWorkflow_stores h ..).imp fun _ _ => trivial

theorem resumeNode_fits (h : node.Fits id) {node' : WorkflowNode}
    (hnode : (resumeNode node).Returns node') : node'.Fits id ∧ node'.id = node.id := by
  obtain ⟨expired, -, hnode⟩ := Procedure.returns_bind.mp hnode
  split at hnode
  · obtain ⟨now, -, hnode⟩ := Procedure.returns_bind.mp hnode
    rw [← Procedure.returns_pure.mp hnode]
    exact ⟨h.congr rfl, rfl⟩
  · split at hnode
    · obtain ⟨resumed, -, hnode⟩ := Procedure.returns_bind.mp hnode
      split at hnode
      · rw [← Procedure.returns_pure.mp hnode]
        exact ⟨h.congr rfl, rfl⟩
      · rw [← Procedure.returns_pure.mp hnode]
        exact ⟨h, rfl⟩
    · rw [← Procedure.returns_pure.mp hnode]
      exact ⟨h, rfl⟩

theorem resumeNodes_fits {nodes nodes' : List WorkflowNode} (h : ∀ node ∈ nodes, node.Fits id)
    (hnodes : (resumeNodes nodes).Returns nodes') :
    (∀ node ∈ nodes', node.Fits id) ∧ nodes'.map (·.id) = nodes.map (·.id) := by
  induction nodes generalizing nodes' with
  | nil =>
      rw [← Procedure.returns_pure.mp hnodes]
      exact ⟨h, rfl⟩
  | cons node rest ih =>
      obtain ⟨first, hfirst, hnodes⟩ := Procedure.returns_bind.mp hnodes
      obtain ⟨others, hothers, hnodes⟩ := Procedure.returns_bind.mp hnodes
      obtain ⟨hfits, hid⟩ := resumeNode_fits (h node (List.mem_cons_self ..)) hfirst
      obtain ⟨hrest, hids⟩ := ih (fun n hn => h n (List.mem_cons_of_mem _ hn)) hothers
      rw [← Procedure.returns_pure.mp hnodes, List.map_cons, List.map_cons, hid, hids]
      exact ⟨List.forall_mem_cons.mpr ⟨hfits, hrest⟩, rfl⟩

/-- The first save of an operation, and what follows it. -/
theorem stores_save {α : Type} {post : α → Prop} {p : EngineM α} (h : workflow.Fits id)
    (hp : workflow.Fits id → Stores post p) :
    Stores post (engineOp (.saveWorkflow workflow) >>= fun _ => p) := by
  refine ⟨?_, fun _ _ => hp h⟩
  rintro _ ⟨⟩
  exact h.toKept

theorem resume_stores (workflowId : UUID) (role : String) (authToken : Option String) :
    Stores (fun _ => True) (E.resume workflowId role authToken) := by
  refine (getWorkflow_stores workflowId).bind fun workflow h => ?_
  split
  · trivial
  · refine stores_ambient (uses_resumeNodes _) fun nodes hnodes => ?_
    refine stores_ambient (uses_auditEvent ..) fun event hevent => ?_
    obtain ⟨hfits, hids⟩ := resumeNodes_fits (fun node hn => h.nodeFits hn) hnodes
    exact stores_save (h.next (Nat.le_succ _) hids hfits (h.snoc (valid_of_auditEvent hevent)))
      fun hresumed => (runWorkflow_stores hresumed ..).imp fun _ _ => trivial

theorem retryTarget_fits (h : node.Fits id) (nodeId : String) :
    (E.retryTarget nodeId node).Fits id ∧ (E.retryTarget nodeId node).id = node.id := by
  unfold retryTarget
  split
  · exact ⟨h, rfl⟩
  · split
    · exact ⟨h.congr rfl, rfl⟩
    · exact ⟨h.congr rfl, rfl⟩

theorem cancelNode_fits (h : node.Fits id) :
    (cancelNode node).Fits id ∧ (cancelNode node).id = node.id := by
  unfold cancelNode
  split
  · exact ⟨h.congr rfl, rfl⟩
  · exact ⟨h, rfl⟩

theorem retryNode_stores (workflowId : UUID) (nodeId role : String) (authToken : Option String) :
    Stores (fun _ => True) (E.retryNode workflowId nodeId role authToken) := by
  refine (getWorkflow_stores workflowId).bind fun workflow h => ?_
  split
  · trivial
  · refine stores_ambient (uses_auditEvent ..) fun event hevent => ?_
    exact stores_save (h.mapNodes (fun _ hnode => retryTarget_fits hnode nodeId)
      (valid_of_auditEvent hevent)) fun hupdated =>
        (runWorkflow_stores hupdated ..).imp fun _ _ => trivial

theorem cancel_stores (workflowId : UUID) (role : String) :
    Stores (fun _ => True) (cancel workflowId role) := by
  refine (getWorkflow_stores workflowId).bind fun workflow h => ?_
  refine stores_ambient (uses_auditEvent ..) fun event hevent => ?_
  exact stores_save (h.mapNodes (fun _ => cancelNode_fits) (valid_of_auditEvent hevent))
    fun _ => trivial

/-- Every call writes workflows within the limits only. -/
theorem serve_stores (call : WorkflowCall) : Stores (fun _ => True) (E.serve call) := by
  cases call with
  | execute workflowId role authToken => exact execute_stores ..
  | resume workflowId role authToken => exact resume_stores ..
  | retryNode workflowId nodeId role authToken => exact retryNode_stores ..
  | cancel workflowId role => exact cancel_stores ..

end Operations

/-! ## Planning -/

section Planning

variable {E : WorkflowPlanningService} {id : UUID} {draft : WorkflowPlanDraft}
  {request : WorkflowPlanRequest} {node : WorkflowNode}

theorem normalizeNode_kept {V : WorkflowValidator} (hregistry : V.registry.Fits)
    (hnode : node.Kept) : (V.normalizeNode node).Kept := by
  unfold WorkflowValidator.normalizeNode
  split
  · exact hnode
  · rename_i metadata hlookup
    obtain ⟨hserver, hretries, htimeout, hcompensation⟩ := hregistry _ metadata hlookup
    refine ⟨?_, hnode.references, hnode.condition, hnode.evaluation⟩
    have hfields := hnode.fields
    simp only [WorkflowNode.valid, decide_eq_true_eq] at hfields
    obtain ⟨h₁, h₂, -, h₄, h₅, h₆, h₇, h₈, -, -, -, h₁₂, h₁₃, -, h₁₅⟩ := hfields
    exact decide_eq_true ⟨h₁, h₂, hserver, h₄, h₅, h₆, h₇, h₈,
      metadata.riskLevel.hasLength_value, hretries, ⟨htimeout.1, htimeout.2.trans (by decide)⟩,
      h₁₂, h₁₃, hcompensation, h₁₅⟩

/-- What the validator accepts is within the limits. -/
theorem validate_fits {V : WorkflowValidator} (hregistry : V.registry.Fits) (hdraft : draft.Kept)
    {createdBy role environment : String} {allowedToolNames : List String} {workflow : Workflow}
    (h : (V.validate draft createdBy role allowedToolNames environment).Returns workflow) :
    workflow.Fits workflow.id := by
  have hsound := (sound_of_validate h).1
  unfold WorkflowValidator.validate at h
  split at h
  · exact absurd h id
  · split at h
    · rename_i hchecked
      obtain ⟨id, -, h⟩ := Procedure.returns_bind.mp h
      obtain ⟨createdAt, -, h⟩ := Procedure.returns_bind.mp h
      rw [← Procedure.returns_pure.mp h] at hsound ⊢
      have hfields := hdraft.fields
      simp only [WorkflowPlanDraft.valid, decide_eq_true_eq] at hfields
      obtain ⟨hrequest, hmodel, hshare, hnodes, hedges⟩ := hfields
      refine ⟨⟨hsound, ?_, fun node hnode => ?_, hdraft.edges,
          fun _ he => absurd he List.not_mem_nil⟩,
        rfl⟩
      · simp only [Workflow.valid, decide_eq_true_eq, List.length_map]
        exact ⟨hrequest, hchecked.1, hchecked.2, hmodel, hshare, le_rfl, hnodes, hedges,
          Nat.zero_le _⟩
      · obtain ⟨proposed, hproposed, rfl⟩ := List.mem_map.mp hnode
        have hkept := normalizeNode_kept hregistry (hdraft.nodes proposed hproposed)
        exact ⟨hkept.fields, hkept.references, hkept.condition, hkept.evaluation⟩
    · exact absurd h id

/-- The planning pass keeps the nodes within the limits, and its events have been checked. -/
theorem planNodes_fits {nodes planned : List WorkflowNode} {events : List WorkflowAuditEvent}
    (hnodes : ∀ node ∈ nodes, node.Fits id)
    (h : (E.planNodes request nodes).Returns (planned, events)) :
    (∀ node ∈ planned, node.Fits id) ∧ ∀ event ∈ events, event.valid := by
  induction nodes generalizing planned events with
  | nil =>
      cases h
      exact ⟨hnodes, fun _ he => absurd he List.not_mem_nil⟩
  | cons node rest ih =>
      rw [planNodes, Procedure.returns_bind] at h
      obtain ⟨now, -, h⟩ := h
      obtain ⟨evaluation, hevaluation, h⟩ := Procedure.returns_bind.mp h
      obtain ⟨denials, hdenials, h⟩ := Procedure.returns_bind.mp h
      obtain ⟨⟨others, events'⟩, hrest, h⟩ := Procedure.returns_bind.mp h
      cases h
      obtain ⟨hfits, hevents⟩ := ih (fun n hn => hnodes n (List.mem_cons_of_mem _ hn)) hrest
      have hvalid := valid_of_evaluate (Procedure.returns_ofExcept.mp hevaluation)
      have hfirst := (hnodes node (List.mem_cons_self ..)).transform hvalid
        (E.toolRegistry.lookup node.toolName)
      have hdenied : ∀ event ∈ denials, event.valid := by
        unfold denialEvents at hdenials
        split at hdenials
        · obtain ⟨event, hevent, hdenials⟩ := Procedure.returns_bind.mp hdenials
          rw [← Procedure.returns_pure.mp hdenials]
          exact List.forall_mem_singleton.mpr (valid_of_auditEvent hevent)
        · rw [← Procedure.returns_pure.mp hdenials]
          exact fun _ he => absurd he List.not_mem_nil
      exact ⟨List.forall_mem_cons.mpr ⟨hfirst, hfits⟩,
        List.forall_mem_append.mpr ⟨hdenied, hevents⟩⟩

theorem applyPlanningPolicy_fits {workflow planned : Workflow} (hworkflow : workflow.Fits id)
    (h : (E.applyPlanningPolicy workflow draft request).Returns planned) : planned.Fits id := by
  obtain ⟨proposed, hproposed, h⟩ := Procedure.returns_bind.mp h
  obtain ⟨⟨nodes, denials⟩, hnodes, h⟩ := Procedure.returns_bind.mp h
  obtain ⟨transformed, htransformed, h⟩ := Procedure.returns_bind.mp h
  rw [← Procedure.returns_pure.mp h]
  obtain ⟨hfits, hdenials⟩ := planNodes_fits (fun n hn => hworkflow.nodeFits hn) hnodes
  have hids := (planNodes_continues hnodes).samePlans.ids
  refine (hworkflow.withPlans _ _).next le_rfl hids hfits ?_
  refine List.forall_mem_append.mpr ⟨List.forall_mem_append.mpr ⟨hworkflow.events, ?_⟩,
    List.forall_mem_singleton.mpr (valid_of_auditEvent htransformed)⟩
  exact List.forall_mem_cons.mpr ⟨valid_of_auditEvent hproposed, hdenials⟩

theorem uses_validate (V : WorkflowValidator) (draft : WorkflowPlanDraft)
    (createdBy role : String) (allowedToolNames : List String) (targetEnvironment : String) :
    (V.validate draft createdBy role allowedToolNames targetEnvironment).Uses Ambient := by
  unfold WorkflowValidator.validate
  split
  · trivial
  · split
    · exact uses_freshUuid.bind fun _ => uses_timeNow.bind fun _ => trivial
    · trivial

theorem uses_planNodes (nodes : List WorkflowNode) : (E.planNodes request nodes).Uses Ambient := by
  induction nodes with
  | nil => trivial
  | cons node rest ih =>
      refine uses_timeNow.bind fun now => (uses_ofExcept _).bind fun evaluation => ?_
      refine Procedure.Uses.bind ?_ fun denials => ih.bind fun _ => trivial
      unfold denialEvents
      split
      · exact (uses_auditEvent ..).bind fun _ => trivial
      · trivial

theorem uses_applyPlanningPolicy (workflow : Workflow) :
    (E.applyPlanningPolicy workflow draft request).Uses Ambient :=
  (uses_auditEvent ..).bind fun _ => (uses_planNodes _).bind fun _ =>
    (uses_auditEvent ..).bind fun _ => trivial

/-- Planning writes a workflow within the limits. -/
theorem planDraft_stores (hregistry : E.validator.registry.Fits) (hdraft : draft.Kept)
    (request : WorkflowPlanRequest) (discoveredTools : List String) (knowledge : List PyDict) :
    Stores (fun _ => True) (E.planDraft draft request discoveredTools knowledge) := by
  refine stores_ambient (uses_validate ..) fun validated hvalidated => ?_
  refine stores_ambient (uses_applyPlanningPolicy _) fun planned hplanned => ?_
  refine stores_ambient (uses_auditEvent ..) fun retrieved hretrieved => ?_
  have hfits := applyPlanningPolicy_fits (validate_fits hregistry hdraft hvalidated) hplanned
  have hplans := hfits.withPlans ((planned.originalPlan.set "retrieved_knowledge"
    (.list (knowledge.map .dict))).set "rag_boundary" (.str ragBoundary))
    planned.policyTransformedPlan
  exact stores_save (hplans.next le_rfl rfl (fun _ hn => hfits.nodeFits hn)
    (hfits.snoc (valid_of_auditEvent hretrieved))) fun _ => trivial

end Planning

end WorkflowPlanningService

end McpOps
