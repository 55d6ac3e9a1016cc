import McpOps.Workflow.SqlRepository
import McpOps.Workflow.Structure

/-!
# What holds a node up

The validator accepts a plan, and the tools of the gateway succeed with outputs that hold every path
that the plan refers to.  Then a run holds up a node for two reasons only that lie in the structure
of the plan.

* The condition of a node is a text that cannot be read or that names no dependency.  The validator
  does not look at these.
* A later call has no outputs of the nodes that an earlier one has finished, but only the references
  of their results.  A node that refers to more of them is blocked, or fails.

## Strategy

What a call writes is followed through its code, for all answers that are as said
(`Procedure.Issues`).  The nodes of a workflow keep the plan and have only ordinary errors
(`WorkflowNode.Tracks`), and the outputs at hand hold what the nodes to come refer to
(`Stocked`): at first the references of results, and then what each tool that succeeds adds.  So
every condition can be evaluated and all arguments can be bound.  Calls may overlap, since
what they write depends on nothing but what they have read.

* `supplies`: a successful answer with all paths, or a pending approval.
* `losesOutput`: a call reads a workflow in which more than a reference is needed.
* `runNode_tends`: the turn of a node.
* `serve_tends`: the calls.
* `runCalls_executable_iff`: no node is held up, in every such run.
-/

namespace McpOps

open Proc

/-! ## The runs -/

namespace WorkflowPlanningService

variable (E : WorkflowPlanningService)

/-- The tool succeeds with an output in which every path is found that the accepted workflow
refers to, or its call waits for an approval. -/
def supplies (s : InMemoryWorkflowRepository) : EngineEvent → Bool
  | ⟨.callTool request, answer⟩ =>
      match (answer : Except ClientError GatewayToolResponse) with
      | .ok response =>
          response.decision = .pendingApproval ||
            response.ok && (request.workflowId.bind s.getWorkflow).all fun accepted =>
              accepted.nodes.all fun node => (node.reads E.runtime).all fun read =>
                request.workflowNodeId ≠ some read.1 ||
                  (readOutputPath (.dict (normalizeToolOutput response.data)) read.2).isOk
      | .error _ => false
  | _ => true

/-- The workflow that a call reads has a node to take up that refers to more of the output of a
finished node than the reference of its result. -/
def losesOutput (calls : ℕ → WorkflowCall) (d : EngineStep) : Bool :=
  match d.op with
  | .getWorkflow workflowId =>
      (d.before.getWorkflow workflowId).any fun workflow =>
        (calls d.caller).starts workflow && workflow.nodes.any fun node =>
          E.takesUp (calls d.caller) node && (node.reads E.runtime).any fun read =>
            workflow.nodes.any fun source =>
              source.id = read.1 && source.executionStatus.done &&
                !(calls d.caller).retries source.id && !source.carries read.2
  | _ => false

end WorkflowPlanningService

/-- The errors that do not come from the structure of a plan. -/
def ordinaryErrors : List (Option String) :=
  [none, some "approval expired before workflow resume",
    some "manual retry denied for non-idempotent tool",
    some "High-risk production actions require an explicit target resource."]

/-- Nothing in its structure has held the node up, unless `accepted` came with that. -/
structure WorkflowNode.Unhindered (accepted node : WorkflowNode) : Prop where
  failed : node.executionStatus = .failed →
    node.lastError = some "approval expired before workflow resume" ∨
      node.lastError = some "manual retry denied for non-idempotent tool" ∨
        accepted.executionStatus = .failed ∧ node.lastError = accepted.lastError
  blocked : node.executionStatus = .blocked →
    node.lastError ∈ ordinaryErrors ∨ node.lastError = accepted.lastError

/-- Every stored node is well formed, and nothing in its structure has held it up since `s`. -/
def WorkflowPlanningService.Executable (E : WorkflowPlanningService)
    (s t : InMemoryWorkflowRepository) : Prop :=
  ∀ workflowId workflow, t.getWorkflow workflowId = some workflow →
    ∃ accepted, s.getWorkflow workflowId = some accepted ∧ ∀ node ∈ workflow.nodes,
      node.WellFormed E.runtime workflow.nodeIds ∧
        ∃ a ∈ accepted.nodes, a.id = node.id ∧ WorkflowNode.Unhindered a node

/-! ## Nodes along a run -/

/-- The node goes on from the accepted one, with ordinary errors only. -/
structure WorkflowNode.Tracks (a node : WorkflowNode) : Prop where
  plan : node.plan = a.plan
  references : node.argumentReferences ⊆ a.argumentReferences
  clear : node.executionStatus ∉ [WorkflowNodeStatus.denied, .cancelled] →
    node.lastError ∈ ordinaryErrors ∨ node.lastError = a.lastError
  failed : node.executionStatus = .failed →
    node.lastError = some "approval expired before workflow resume" ∨
      node.lastError = some "manual retry denied for non-idempotent tool" ∨
        a.executionStatus = .failed ∧ node.lastError = a.lastError

/-- The workflow goes on from the accepted one. -/
structure Workflow.Follows (accepted workflow : Workflow) : Prop where
  id : workflow.id = accepted.id
  ids : workflow.nodeIds = accepted.nodeIds
  nodes : ∀ node ∈ workflow.nodes, ∃ a ∈ accepted.nodes, a.Tracks node

section Tracks

variable {a node node' : WorkflowNode} {accepted workflow : Workflow} {rt : Runtime}

theorem WorkflowNode.Tracks.refl (node : WorkflowNode) : node.Tracks node where
  plan := rfl
  references := List.Subset.refl _
  clear _ := .inr rfl
  failed hstatus := .inr (.inr ⟨hstatus, rfl⟩)

theorem WorkflowNode.Tracks.unhindered (h : a.Tracks node) : a.Unhindered node where
  failed := h.failed
  blocked hstatus := h.clear (by rw [hstatus]; decide)

/-- A new error is an ordinary one. -/
theorem WorkflowNode.Tracks.update (h : a.Tracks node) (hplan : node'.plan = node.plan)
    (hreferences : node'.argumentReferences ⊆ node.argumentReferences)
    (hstatus : node'.executionStatus ≠ .failed)
    (herror : node'.executionStatus ∉ [WorkflowNodeStatus.denied, .cancelled] →
      node'.lastError ∈ ordinaryErrors ∨ node'.lastError = a.lastError) : a.Tracks node' where
  plan := hplan.trans h.plan
  references := List.Subset.trans hreferences h.references
  clear := herror
  failed hfailed := absurd hfailed hstatus

/-- A node that is not settled keeps its error. -/
theorem WorkflowNode.Tracks.keep (h : a.Tracks node)
    (hunsettled : node.executionStatus.settled = false) (hplan : node'.plan = node.plan)
    (hreferences : node'.argumentReferences ⊆ node.argumentReferences)
    (hstatus : node'.executionStatus ≠ .failed) (herror : node'.lastError = node.lastError) :
    a.Tracks node' := by
  refine h.update hplan hreferences hstatus fun _ => ?_
  rw [herror]
  apply h.clear
  intro hmem
  rcases List.mem_pair.mp hmem with heq | heq
  · rw [heq] at hunsettled
    cases hunsettled
  · rw [heq] at hunsettled
    cases hunsettled

/-- The error is taken off. -/
theorem WorkflowNode.Tracks.clean (h : a.Tracks node) (hplan : node'.plan = node.plan)
    (hreferences : node'.argumentReferences ⊆ node.argumentReferences)
    (hstatus : node'.executionStatus ≠ .failed) (herror : node'.lastError = none) :
    a.Tracks node' := by
  refine h.update hplan hreferences hstatus fun _ => .inl ?_
  rw [herror]
  exact List.mem_cons_self ..

theorem effectiveCondition_of_plan (hplan : node.plan = a.plan) :
    node.effectiveCondition rt = a.effectiveCondition rt := by
  rw [WorkflowNode.effectiveCondition, WorkflowNode.effectiveCondition,
    typedCondition_of_plan hplan, condition_of_plan hplan]

/-- A node with the same plan and no other references reads nothing else. -/
theorem reads_subset (hplan : node.plan = a.plan)
    (hreferences : node.argumentReferences ⊆ a.argumentReferences) :
    node.reads rt ⊆ a.reads rt := by
  rw [WorkflowNode.reads, WorkflowNode.reads, effectiveCondition_of_plan hplan]
  apply List.append_subset.mpr
  exact ⟨List.subset_append_left .., List.subset_append_of_subset_right _
    (List.map_subset _ hreferences)⟩

theorem WorkflowNode.Tracks.reads (h : a.Tracks node) : node.reads rt ⊆ a.reads rt :=
  reads_subset h.plan h.references

theorem WorkflowNode.Tracks.wellFormed (h : a.Tracks node) {nodeIds : List String}
    (hwell : a.WellFormed rt nodeIds) : node.WellFormed rt nodeIds where
  dependencies := by
    rw [dependsOn_of_plan h.plan]
    exact hwell.dependencies
  references reference hreference := by
    rw [dependsOn_of_plan h.plan]
    exact hwell.references reference (h.references hreference)
  condition := by
    rw [effectiveCondition_of_plan h.plan, dependsOn_of_plan h.plan]
    exact hwell.condition

/-- A well-formed node refers to outputs of its dependencies. -/
theorem WorkflowNode.WellFormed.source_of_reads {nodeIds : List String}
    (h : node.WellFormed rt nodeIds) : ∀ read ∈ node.reads rt, read.1 ∈ node.dependsOn := by
  obtain ⟨condition, hcondition, hsource⟩ := h.condition
  rw [WorkflowNode.reads, hcondition]
  intro read hread
  rcases List.mem_append.mp hread with hmem | hmem
  · cases condition with
    | none => cases hmem
    | some condition =>
        rw [List.mem_singleton.mp hmem]
        exact hsource condition rfl
  · obtain ⟨reference, hreference, rfl⟩ := List.mem_map.mp hmem
    exact h.references reference hreference

theorem Workflow.Follows.refl (workflow : Workflow) : workflow.Follows workflow where
  id := rfl
  ids := rfl
  nodes node hnode := ⟨node, hnode, .refl node⟩

/-- What follows depends on the id and the nodes. -/
theorem Workflow.Follows.of_same (h : accepted.Follows workflow) {next : Workflow}
    (hid : next.id = workflow.id) (hnodes : next.nodes = workflow.nodes) :
    accepted.Follows next where
  id := hid.trans h.id
  ids := (congrArg (List.map WorkflowNode.id) hnodes).trans h.ids
  nodes := hnodes ▸ h.nodes

theorem Workflow.Follows.replaceNode (h : accepted.Follows workflow) (hsound : accepted.Sound)
    (ha : a ∈ accepted.nodes) (htracks : a.Tracks node) :
    accepted.Follows (workflow.replaceNode node) := by
  have hnodup : workflow.nodeIds.Nodup := h.ids ▸ hsound.nodup
  refine ⟨h.id, (Workflow.replaceNode_nodeIds hnodup node).trans h.ids, fun n hn => ?_⟩
  rw [replaceNode_eq_putNode hnodup] at hn
  rcases mem_putNode.mp hn with ⟨rfl, -⟩ | ⟨hn, -⟩
  · exact ⟨a, ha, htracks⟩
  · exact h.nodes n hn

/-- The node that was put in place is there. -/
theorem Workflow.Follows.mem_replaceNode (h : accepted.Follows workflow) (hsound : accepted.Sound)
    (ha : a ∈ accepted.nodes) (htracks : a.Tracks node) :
    node ∈ (workflow.replaceNode node).nodes := by
  have hnodup : workflow.nodeIds.Nodup := h.ids ▸ hsound.nodup
  have hid : node.id ∈ workflow.nodeIds := by
    rw [h.ids, id_of_plan htracks.plan]
    exact List.mem_map_of_mem ha
  rw [replaceNode_eq_putNode hnodup, mem_putNode]
  exact .inl ⟨rfl, hid⟩

end Tracks

/-! ## What a call writes -/

section Calls

variable {E : WorkflowPlanningService} {s : InMemoryWorkflowRepository} {call : WorkflowCall}

/-- A node that the call takes up reads no more of a finished node than its result reference. -/
def KeepsOutputs (E : WorkflowPlanningService) (call : WorkflowCall) (workflow : Workflow) : Prop :=
  ∀ node ∈ workflow.nodes, E.takesUp call node → ∀ read ∈ node.reads E.runtime,
    ∀ source ∈ workflow.nodes, source.id = read.1 → source.executionStatus.done →
      call.retries source.id = false → source.carries read.2

/-- The answers that a call gets. -/
def Answers (E : WorkflowPlanningService) (s : InMemoryWorkflowRepository) (call : WorkflowCall) :
    EngineEvent → Prop
  | ⟨.getWorkflow workflowId, answer⟩ => ∀ workflow, answer = some workflow →
      ∃ accepted, s.getWorkflow workflowId = some accepted ∧ accepted.Follows workflow ∧
        (call.starts workflow → KeepsOutputs E call workflow)
  | e => E.supplies s e

/-- What is written goes on from what was accepted. -/
def WritesOn (s : InMemoryWorkflowRepository) (o : WorkflowOp) : Prop :=
  ∀ workflow, o.saved = some workflow →
    ∃ accepted, s.getWorkflow workflow.id = some accepted ∧ accepted.Follows workflow

/-- The code writes only what goes on from what was accepted, and `post` holds of what it
returns. -/
abbrev Tends {α : Type} (E : WorkflowPlanningService) (s : InMemoryWorkflowRepository)
    (call : WorkflowCall) (post : α → Prop) (p : EngineM α) : Prop :=
  p.Issues (Answers E s call) (WritesOn s) post

/-- An accepted workflow whose nodes are well formed. -/
structure RunnablePlan (E : WorkflowPlanningService) (s : InMemoryWorkflowRepository)
    (accepted : Workflow) : Prop where
  stored : s.getWorkflow accepted.id = some accepted
  sound : accepted.Sound
  wellFormed : ∀ a ∈ accepted.nodes, a.WellFormed E.runtime accepted.nodeIds
  valid : ∀ a ∈ accepted.nodes, ∀ reference ∈ a.argumentReferences, reference.valid

theorem writesOn_of_ambient {o : WorkflowOp} (h : Ambient o) : WritesOn s o := by
  intro workflow hsaved
  cases o with
  | now => cases hsaved
  | uuid4 => cases hsaved
  | _ => exact h.elim

theorem tends_ambient {α β : Type} {post : β → Prop} {p : EngineM α} {f : α → EngineM β}
    (hp : p.Uses Ambient) (hf : ∀ a, p.Returns a → Tends E s call post (f a)) :
    Tends E s call post (p >>= f) :=
  ((hp.mono fun _ => writesOn_of_ambient).issues).bind hf

namespace WorkflowPlanningService

variable {accepted workflow : Workflow} {a node m : WorkflowNode} {nodeOutputs : NodeOutputs}
  {state : RunState}

theorem checkpoint_tends (hE : RunnablePlan E s accepted) (h : accepted.Follows workflow)
    (eventType : String) (nodeId : Option String) :
    Tends E s call (fun out => accepted.Follows out ∧ out.nodes = workflow.nodes)
      (checkpoint workflow eventType nodeId) := by
  have hnext : accepted.Follows { workflow with version := workflow.version + 1 } :=
    h.of_same rfl rfl
  refine tends_ambient (uses_outboxEvent ..) fun event _ => ⟨?_, fun _ _ => ⟨hnext, rfl⟩⟩
  rintro _ ⟨⟩
  exact ⟨accepted, h.id ▸ hE.stored, hnext⟩

theorem saveNode_tends (hE : RunnablePlan E s accepted) (h : accepted.Follows workflow)
    (ha : a ∈ accepted.nodes) (htracks : a.Tracks node) (eventType : String) :
    Tends E s call (fun out => accepted.Follows out ∧ node ∈ out.nodes)
      (saveNode workflow node eventType) := by
  refine (checkpoint_tends hE (h.replaceNode hE.sound ha htracks) ..).imp fun out hout => ?_
  rw [hout.2]
  exact ⟨hout.1, h.mem_replaceNode hE.sound ha htracks⟩

/-! ## One attempt at a node -/

/-- The output holds every path at which accepted nodes read the output of the node. -/
def Serves (E : WorkflowPlanningService) (accepted : Workflow) (nodeId : String)
    (output : PyDict) : Prop :=
  ∀ a ∈ accepted.nodes, ∀ read ∈ a.reads E.runtime, read.1 = nodeId →
    ∃ value, readOutputPath (.dict output) read.2 = .ok value

/-- The response waits for an approval, or has an output with all that is needed. -/
def Welcome (E : WorkflowPlanningService) (accepted : Workflow) (nodeId : String)
    (response : GatewayToolResponse) : Prop :=
  response.decision = .pendingApproval ∨
    response.ok ∧ Serves E accepted nodeId (normalizeToolOutput response.data)

theorem welcome_of_supplies (hE : RunnablePlan E s accepted) {request : GatewayToolRequest}
    {answer : Except ClientError GatewayToolResponse} {nodeId : String}
    (hworkflowId : request.workflowId = some accepted.id)
    (hnodeId : request.workflowNodeId = some nodeId)
    (h : E.supplies s ⟨.callTool request, answer⟩) :
    ∃ response, answer = .ok response ∧ Welcome E accepted nodeId response := by
  cases answer with
  | error e => cases h
  | ok response =>
      refine ⟨response, rfl, ?_⟩
      have hsupplies : (decide (response.decision = .pendingApproval) ||
          response.ok && (request.workflowId.bind s.getWorkflow).all fun accepted =>
            accepted.nodes.all fun node => (node.reads E.runtime).all fun read =>
              request.workflowNodeId ≠ some read.1 ||
                (readOutputPath (.dict (normalizeToolOutput response.data)) read.2).isOk) =
                true := h
      rw [hworkflowId, Option.bind_some, hE.stored, Option.all_some, Bool.or_eq_true,
        Bool.and_eq_true, decide_eq_true_eq] at hsupplies
      refine hsupplies.imp_right fun ⟨hok, hreads⟩ => ⟨hok, fun a ha read hread hid => ?_⟩
      have hfound := List.all_eq_true.mp (List.all_eq_true.mp hreads a ha) read hread
      rw [hnodeId, Bool.or_eq_true, decide_eq_true_eq] at hfound
      have hisOk := hfound.resolve_left (not_not.mpr (congrArg some hid.symm))
      cases hvalue : readOutputPath (.dict (normalizeToolOutput response.data)) read.2 with
      | ok value => exact ⟨value, rfl⟩
      | error message =>
          rw [hvalue] at hisOk
          cases hisOk

theorem executeNode_tends (hE : RunnablePlan E s accepted) (ha : a ∈ accepted.nodes)
    (htracks : a.Tracks node) (role : String) (authToken : Option String) :
    Tends E s call (fun answer => ∃ response, answer = .ok response ∧
      Welcome E accepted node.id response) (E.executeNode node role authToken) := by
  refine tends_ambient uses_freshUuid fun correlationId _ => ?_
  dsimp only
  split
  · refine ⟨fun workflow hsaved => (by cases hsaved), fun answer hanswer => ?_⟩
    refine welcome_of_supplies hE ?_ rfl hanswer
    exact (workflowId_of_plan htracks.plan).trans (hE.sound.workflowId a ha)
  · trivial

theorem storeBound_tends (hE : RunnablePlan E s accepted) (ha : a ∈ accepted.nodes)
    (h : accepted.Follows workflow) (htracks : a.Tracks node)
    (hrunning : node.executionStatus = .running)
    (hbound : resolveNodeArguments node nodeOutputs = .ok m) :
    Tends E s call (fun out => a.Tracks out.1 ∧ out.1.executionStatus = .running ∧
      accepted.Follows out.2) (storeBound node m workflow) := by
  unfold storeBound
  split
  · exact ⟨htracks, hrunning, h⟩
  · rw [resolveNodeArguments] at hbound
    cases hfold : node.argumentReferences.foldlM (bindReference nodeOutputs) node.arguments with
    | error message =>
        rw [hfold] at hbound
        cases hbound
    | ok arguments =>
        rw [hfold] at hbound
        cases hbound
        have hunsettled : node.executionStatus.settled = false := by
          rw [hrunning]
          rfl
        have hbare : a.Tracks { node with arguments, argumentReferences := [] } :=
          htracks.keep hunsettled rfl (List.nil_subset _) (by rw [hrunning]; decide) rfl
        refine (saveNode_tends hE h ha hbare _).bind fun out hout => ?_
        exact ⟨hbare, hrunning, hout.1⟩

/-- With its outputs at hand, an attempt at a node gets a response that is welcome. -/
theorem attemptNode_tends (hE : RunnablePlan E s accepted) (ha : a ∈ accepted.nodes)
    (h : accepted.Follows workflow) (htracks : a.Tracks node)
    (hrunning : node.executionStatus = .running)
    (hsupplied : Supplied E.runtime node nodeOutputs) (role : String)
    (authToken : Option String) :
    Tends E s call (fun out => a.Tracks out.1 ∧ out.1.executionStatus = .running ∧
      accepted.Follows out.2.1 ∧ Welcome E accepted a.id out.2.2)
      (E.attemptNode node role workflow nodeOutputs authToken) := by
  have hvalid : ∀ reference ∈ node.argumentReferences, reference.valid :=
    fun reference hmem => hE.valid a ha reference (htracks.references hmem)
  obtain ⟨bound, hbound⟩ := WorkflowNode.exists_resolved hvalid hsupplied
  rw [attemptNode, hbound]
  refine (storeBound_tends hE ha h htracks hrunning hbound).bind ?_
  rintro ⟨running, current⟩ ⟨htracks, hrunning, h⟩
  refine (executeNode_tends hE ha htracks role authToken).bind ?_
  rintro _ ⟨response, rfl, hwelcome⟩
  exact ⟨htracks, hrunning, h, id_of_plan htracks.plan ▸ hwelcome⟩

/-- How an attempt at a node ends: it waits, or it has succeeded and its output is at hand. -/
def Attained (E : WorkflowPlanningService) (accepted : Workflow) (nodeId : String)
    (nodeOutputs : NodeOutputs) (out : Workflow × NodeOutputs) : Prop :=
  accepted.Follows out.1 ∧ ∃ m ∈ out.1.nodes, m.id = nodeId ∧
    (m.executionStatus = .waitingApproval ∨ m.executionStatus = .succeeded ∧
      ∃ output, out.2 = nodeOutputs.set nodeId output ∧ Serves E accepted nodeId output)

theorem awaitApproval_tends (hE : RunnablePlan E s accepted) (ha : a ∈ accepted.nodes)
    (h : accepted.Follows workflow) (htracks : a.Tracks node)
    (hrunning : node.executionStatus = .running) (role : String)
    (response : GatewayToolResponse) :
    Tends E s call (fun out => accepted.Follows out ∧
      ∃ m ∈ out.nodes, m.id = a.id ∧ m.executionStatus = .waitingApproval)
      (E.awaitApproval node role workflow response) := by
  have hunsettled : node.executionStatus.settled = false := by
    rw [hrunning]
    rfl
  refine tends_ambient (uses_auditEvent ..) fun event _ => ?_
  have hwaiting : a.Tracks
      { node with
        executionStatus := .waitingApproval
        approvalId := approvalIdFromResponse E.runtime response
        approvalState := .waitingApproval
        resultReference := some ((approvalIdFromResponse E.runtime response).elim
          response.correlationId.str UUID.str) } :=
    htracks.keep hunsettled rfl (List.Subset.refl _) (fun h => by cases h) rfl
  refine Procedure.Issues.imp (saveNode_tends hE ?_ ha hwaiting _) fun out hout => ?_
  · exact h.of_same rfl rfl
  exact ⟨hout.1, _, hout.2, id_of_plan htracks.plan, rfl⟩

theorem succeedNode_tends (hE : RunnablePlan E s accepted) (ha : a ∈ accepted.nodes)
    (h : accepted.Follows workflow) (htracks : a.Tracks node)
    (hrunning : node.executionStatus = .running) (response : GatewayToolResponse) :
    Tends E s call (fun out => accepted.Follows out ∧
      ∃ m ∈ out.nodes, m.id = a.id ∧ m.executionStatus = .succeeded)
      (succeedNode node workflow response) := by
  have hunsettled : node.executionStatus.settled = false := by
    rw [hrunning]
    rfl
  refine tends_ambient uses_timeNow fun now _ => ?_
  have hsucceeded : a.Tracks
      { node with
        executionStatus := .succeeded
        approvalState := if node.approvalId.isSome then .succeeded else node.approvalState
        resultReference := some response.correlationId.str
        completedAt := some now } :=
    htracks.keep hunsettled rfl (List.Subset.refl _) (fun h => by cases h) rfl
  refine (saveNode_tends hE h ha hsucceeded _).imp fun out hout => ?_
  exact ⟨hout.1, _, hout.2, id_of_plan htracks.plan, rfl⟩

theorem executeNodeWithRecovery_tends (hE : RunnablePlan E s accepted) (ha : a ∈ accepted.nodes)
    (h : accepted.Follows workflow) (htracks : a.Tracks node)
    (hsupplied : Supplied E.runtime node nodeOutputs) (role : String)
    (authToken : Option String) :
    Tends E s call (Attained E accepted a.id nodeOutputs)
      (E.executeNodeWithRecovery node role workflow nodeOutputs authToken) := by
  have hsame : node.id = a.id := id_of_plan htracks.plan
  -- the attempt begins with a running node of the same plan
  refine tends_ambient (uses_startAttempt node) fun running hrunning => ?_
  obtain ⟨now, -, hrunning⟩ := Procedure.returns_bind.mp hrunning
  have hrunning := Procedure.returns_pure.mp hrunning
  have htracks' : a.Tracks running := by
    rw [← hrunning]
    exact htracks.clean rfl (List.Subset.refl _) (fun h => by cases h) rfl
  have hstatus : running.executionStatus = .running := by
    rw [← hrunning]
  have hsupplied' : Supplied E.runtime running nodeOutputs := by
    rw [← hrunning]
    exact hsupplied
  refine (saveNode_tends hE h ha htracks' _).bind fun current hcurrent => ?_
  -- the tool is called with the arguments that the outputs supply
  refine (attemptNode_tends hE ha hcurrent.1 htracks' hstatus hsupplied' role authToken).bind ?_
  rintro ⟨running, current, response⟩ ⟨htracks, hstatus, h, hwelcome⟩
  dsimp only
  split
  · refine (awaitApproval_tends hE ha h htracks hstatus role response).bind fun out hout => ?_
    obtain ⟨hfollows, m, hm, hid, hwaiting⟩ := hout
    exact ⟨hfollows, m, hm, hid, .inl hwaiting⟩
  · -- the answer is well, and what it returns serves the nodes that wait for it
    next hpending =>
    obtain ⟨hok, hserves⟩ := hwelcome.resolve_left hpending
    rw [if_pos hok]
    refine (succeedNode_tends hE ha h htracks hstatus response).bind fun out hout => ?_
    obtain ⟨hfollows, m, hm, hid, hsucceeded⟩ := hout
    refine ⟨hfollows, m, hm, hid, .inr ⟨hsucceeded, _, ?_, hserves⟩⟩
    rw [hsame]

/-! ## The loop -/

/-- The outputs at hand hold what the nodes to come read of completed nodes. -/
def Stocked (E : WorkflowPlanningService) (nodes : List WorkflowNode) (state : RunState) : Prop :=
  ∀ node ∈ nodes, node.executionStatus.settled = false → ∀ read ∈ node.reads E.runtime,
    read.1 ∈ state.completed → ∃ output value, state.nodeOutputs.get? read.1 = some output ∧
      readOutputPath (.dict output) read.2 = .ok value

/-- How the turn of a node ends. -/
def Turn.Stocked (E : WorkflowPlanningService) (accepted : Workflow) (nodes : List WorkflowNode) :
    Turn → Prop
  | .stop out => accepted.Follows out
  | .go state => accepted.Follows state.updated ∧ WorkflowPlanningService.Stocked E nodes state

variable {nodes : List WorkflowNode}

/-- A node whose dependencies are completed has what it refers to. -/
theorem Stocked.supplied (h : Stocked E nodes state) (hnode : node ∈ nodes)
    (hunsettled : node.executionStatus.settled = false) {nodeIds : List String}
    (hwell : node.WellFormed E.runtime nodeIds)
    (hready : node.dependsOn.all fun dependency => dependency ∈ state.completed) :
    Supplied E.runtime node state.nodeOutputs := by
  intro read hread
  have hsource := hwell.source_of_reads read hread
  exact h node hnode hunsettled read hread
    (of_decide_eq_true (List.all_eq_true.mp hready read.1 hsource))

/-- The output of a node that has succeeded is put with the others. -/
theorem Stocked.succeed (h : Stocked E nodes state)
    (hnodes : ∀ node ∈ nodes, ∃ a ∈ accepted.nodes, a.Tracks node) {nodeId : String}
    {output : PyDict} (hserves : Serves E accepted nodeId output) (updated : Workflow) :
    Stocked E nodes
      { updated
        nodeOutputs := state.nodeOutputs.set nodeId output
        completed := nodeId :: state.completed } := by
  intro n hn hunsettled read hread hcompleted
  by_cases hid : read.1 = nodeId
  · obtain ⟨a, ha, htracks⟩ := hnodes n hn
    obtain ⟨value, hvalue⟩ := hserves a ha read (htracks.reads hread) hid
    refine ⟨output, value, ?_, hvalue⟩
    rw [hid, Dict.get?_set_self]
  · obtain ⟨old, value, hold, hvalue⟩ := h n hn hunsettled read hread
      ((List.mem_cons.mp hcompleted).resolve_left hid)
    refine ⟨old, value, ?_, hvalue⟩
    rw [Dict.get?_set_of_ne hid, hold]

theorem finishWorkflow_tends (hE : RunnablePlan E s accepted) (h : accepted.Follows workflow)
    (role : String) :
    Tends E s call accepted.Follows (finishWorkflow workflow role) := by
  refine tends_ambient (uses_auditEvent ..) fun event _ => ?_
  refine Procedure.Issues.imp (checkpoint_tends hE ?_ ..) fun _ hout => hout.1
  exact h.of_same rfl rfl

theorem afterExecution_tends (hE : RunnablePlan E s accepted)
    (hstocked : Stocked E nodes state)
    (hnodes : ∀ node ∈ nodes, ∃ a ∈ accepted.nodes, a.Tracks node) {updated : Workflow}
    {outputs : NodeOutputs}
    (h : Attained E accepted node.id state.nodeOutputs (updated, outputs)) (role : String) :
    Tends E s call (Turn.Stocked E accepted nodes)
      (afterExecution node role state updated outputs) := by
  obtain ⟨hfollows, m, hm, hid, hstatus⟩ := h
  have hids : updated.nodes.map (·.id) = accepted.nodes.map (·.id) := hfollows.ids
  have hnodup : (updated.nodes.map (·.id)).Nodup := hids ▸ hE.sound.nodup
  have hlatest : (Workflow.nodesById updated.nodes).get? node.id = some m :=
    hid ▸ Workflow.get?_nodesById hnodup hm
  unfold afterExecution
  simp only [hlatest, Option.getD_some]
  rcases hstatus with hwaiting | ⟨hsucceeded, output, rfl, hserves⟩
  · rw [if_pos hwaiting]
    exact hfollows
  · rw [hsucceeded, if_neg (by decide), if_neg (by decide), if_neg (by decide)]
    exact ⟨hfollows, hstocked.succeed hnodes hserves updated⟩

/-- A node that is settled leaves the outputs as they are. -/
theorem settleNode_tends (hE : RunnablePlan E s accepted) (h : accepted.Follows state.updated)
    (hstocked : Stocked E nodes state) (ha : a ∈ accepted.nodes) (htracks : a.Tracks node)
    (eventType : String) :
    Tends E s call (Turn.Stocked E accepted nodes)
      (do
        let updated ← saveNode state.updated node eventType
        pure (.go { state with updated })) :=
  (saveNode_tends hE h ha htracks _).bind fun _ hout => ⟨hout.1, hstocked⟩

/-- The environment alone never asks for context. -/
theorem environment_ne_context (rt : Runtime) (metadata : ToolMetadata)
    (role environment : String) :
    (environmentAwareOperationDecision rt metadata role environment).decision ≠
      .requireAdditionalContext := by
  unfold environmentAwareOperationDecision
  repeat' split
  all_goals exact fun h => by cases h

/-- The only reason for asking for context. -/
theorem reason_of_context {P : WorkflowPolicyEvaluator} {actor role environment : String}
    {phase : PolicyPhase} {now : Time} {evaluation : WorkflowPolicyEvaluation}
    (h : P.evaluate node actor role environment phase now = .ok evaluation)
    (hdecision : evaluation.decision = .requireAdditionalContext) :
    evaluation.reason = "High-risk production actions require an explicit target resource." := by
  -- the decision and its reason come from one verdict
  have hverdict : evaluation.decision = (P.verdict node role environment phase).2.2.decision ∧
      evaluation.reason = (P.verdict node role environment phase).2.2.reason := by
    simp only [WorkflowPolicyEvaluator.evaluate] at h
    split at h
    · cases h
      exact ⟨rfl, rfl⟩
    · cases h
  rw [hverdict.2]
  rw [hverdict.1] at hdecision
  rw [WorkflowPolicyEvaluator.verdict] at hdecision ⊢
  split at hdecision
  · cases hdecision
  · next metadata hlookup =>
    unfold WorkflowPolicyEvaluator.decision at hdecision ⊢
    dsimp only at hdecision ⊢
    -- of the branches only one asks for more context
    split at hdecision
    · cases hdecision
    · split at hdecision
      · cases hdecision
      · split at hdecision
        · cases hdecision
        · next hexecutable henabled hrole =>
          rw [if_neg hexecutable, if_neg henabled, if_neg hrole]
          split at hdecision
          · next hcontext =>
            rw [if_pos hcontext]
          · split at hdecision
            · cases hdecision
            · split at hdecision
              · exact (environment_ne_context _ _ _ _ hdecision).elim
              · cases hdecision

theorem runReadyNode_tends (hE : RunnablePlan E s accepted) (h : accepted.Follows state.updated)
    (hstocked : Stocked E nodes state)
    (hnodes : ∀ node ∈ nodes, ∃ a ∈ accepted.nodes, a.Tracks node) (hnode : node ∈ nodes)
    (hunsettled : node.executionStatus.settled = false)
    (hsupplied : Supplied E.runtime node state.nodeOutputs) (workflow : Workflow) (role : String)
    (authToken : Option String) :
    Tends E s call (Turn.Stocked E accepted nodes)
      (E.runReadyNode workflow node role authToken state) := by
  obtain ⟨a, ha, htracks⟩ := hnodes node hnode
  have hready : a.Tracks (readyNode node) :=
    htracks.keep hunsettled rfl (List.Subset.refl _) (fun h => by cases h) rfl
  refine (saveNode_tends hE h ha hready _).bind fun updated hupdated => ?_
  have hannounced : Tends E s call accepted.Follows (announceQueued updated (readyNode node)) := by
    unfold announceQueued
    split
    · exact (checkpoint_tends hE hupdated.1 ..).imp fun _ hout => hout.1
    · exact hupdated.1
  refine hannounced.bind fun updated hupdated => ?_
  refine tends_ambient uses_timeNow fun now _ => ?_
  refine tends_ambient (uses_ofExcept _) fun evaluation hevaluation => ?_
  have hevaluation := Procedure.returns_ofExcept.mp hevaluation
  -- a node that the policy has looked at is denied, blocked or ready
  have hpolicy : a.Tracks (transformNodeWithPolicy (readyNode node) evaluation
      (E.toolRegistry.lookup node.toolName)) := by
    refine hready.keep rfl rfl (List.Subset.refl _) ?_ rfl
    rw [transformNodeWithPolicy]
    dsimp only
    split
    · exact fun h => by cases h
    · split
      · exact fun h => by cases h
      · exact fun h => by cases h
  refine (saveNode_tends hE hupdated ha hpolicy _).bind fun updated hupdated => ?_
  split
  · refine tends_ambient uses_timeNow fun completedAt _ => ?_
    have hdenied : a.Tracks
        { transformNodeWithPolicy (readyNode node) evaluation
            (E.toolRegistry.lookup node.toolName) with
          executionStatus := .denied
          lastError := some evaluation.reason
          completedAt := some completedAt } :=
      hpolicy.update rfl (List.Subset.refl _) (fun h => by cases h)
        fun hne => absurd (List.mem_cons_self ..) hne
    exact (saveNode_tends hE hupdated.1 ha hdenied _).bind fun _ hout => ⟨hout.1, hstocked⟩
  · split
    · next hcontext =>
      have hblocked : a.Tracks
          { transformNodeWithPolicy (readyNode node) evaluation
              (E.toolRegistry.lookup node.toolName) with
            executionStatus := .blocked
            lastError := some evaluation.reason } := by
        refine hpolicy.update rfl (List.Subset.refl _) (fun h => by cases h) fun _ => .inl ?_
        dsimp only
        rw [reason_of_context hevaluation hcontext]
        decide
      exact (saveNode_tends hE hupdated.1 ha hblocked _).bind fun _ hout => ⟨hout.1, hstocked⟩
    · have hid : a.id = node.id := (id_of_plan htracks.plan).symm
      refine (executeNodeWithRecovery_tends hE ha hupdated.1 hpolicy hsupplied role
        authToken).bind ?_
      rintro ⟨updated, outputs⟩ hattained
      exact afterExecution_tends hE hstocked hnodes (hid ▸ hattained) role

theorem runNode_tends (hE : RunnablePlan E s accepted) (h : accepted.Follows state.updated)
    (hstocked : Stocked E nodes state)
    (hnodes : ∀ node ∈ nodes, ∃ a ∈ accepted.nodes, a.Tracks node) (hnode : node ∈ nodes)
    (workflow : Workflow) (role : String) (authToken : Option String) :
    Tends E s call (Turn.Stocked E accepted nodes)
      (E.runNode workflow node role authToken state) := by
  obtain ⟨a, ha, htracks⟩ := hnodes node hnode
  refine tends_ambient (uses_mayStart node) fun due _ => ?_
  split
  · exact h
  · split
    · exact ⟨h, hstocked⟩
    · next hunsettled =>
      have hunsettled : node.executionStatus.settled = false := Bool.eq_false_iff.mpr hunsettled
      split
      · refine settleNode_tends hE h hstocked ha ?_ _
        exact htracks.keep hunsettled rfl (List.Subset.refl _) (fun h => by cases h) rfl
      · next hready =>
        have hwell := htracks.wellFormed (hE.wellFormed a ha)
        have hsupplied := hstocked.supplied hnode hunsettled hwell (not_not.mp hready)
        unfold runConditionedNode
        split
        · trivial
        · next message hfailed => exact absurd hfailed (hwell.evaluates hsupplied message)
        · refine settleNode_tends hE h hstocked ha ?_ _
          exact htracks.keep hunsettled rfl (List.Subset.refl _) (fun h => by cases h) rfl
        · exact runReadyNode_tends hE h hstocked hnodes hnode hunsettled hsupplied ..

theorem runNodes_tends (hE : RunnablePlan E s accepted) (h : accepted.Follows state.updated)
    (hstocked : Stocked E nodes state)
    (hnodes : ∀ node ∈ nodes, ∃ a ∈ accepted.nodes, a.Tracks node) {todo : List WorkflowNode}
    (htodo : todo ⊆ nodes) (workflow : Workflow) (role : String) (authToken : Option String) :
    Tends E s call accepted.Follows (E.runNodes workflow role authToken todo state) := by
  induction todo generalizing state with
  | nil => exact finishWorkflow_tends hE h role
  | cons node rest ih =>
      rw [List.cons_subset] at htodo
      refine (runNode_tends hE h hstocked hnodes htodo.1 ..).bind fun turn hturn => ?_
      cases turn with
      | stop out => exact hturn
      | go state => exact ih hturn.1 hturn.2 htodo.2

/-! ## The operations -/

/-- At first the references of results are at hand. -/
theorem get?_initialOutputs {reference : String} (hnodup : workflow.nodeIds.Nodup)
    (hnode : node ∈ workflow.nodes) (hdone : node.executionStatus.done)
    (hreference : node.resultReference = some reference) :
    (initialState workflow).nodeOutputs.get? node.id =
      some [("result_reference", .str reference)] := by
  rw [initialState]
  dsimp only
  rw [Workflow.nodeIds] at hnodup
  generalize workflow.nodes = nodes at hnodup hnode
  induction nodes using List.reverseRecOn with
  | nil => cases hnode
  | append_singleton rest last ih =>
      rw [List.map_append, List.nodup_append] at hnodup
      obtain ⟨hrest, -, hne⟩ := hnodup
      rw [List.foldl_append, List.foldl_cons, List.foldl_nil]
      rcases List.mem_append.mp hnode with hmem | hmem
      · have hid : node.id ≠ last.id :=
          hne _ (List.mem_map_of_mem hmem) _ (List.mem_map_of_mem (List.mem_singleton_self last))
        split
        · rw [Dict.get?_set_of_ne hid]
          exact ih hrest hmem
        · exact ih hrest hmem
      · rw [← List.mem_singleton.mp hmem, hdone, hreference]
        exact Dict.get?_set_self ..

/-- The nodes with which a run begins read no more of finished nodes than is carried over. -/
def CarriesOver (E : WorkflowPlanningService) (nodes : List WorkflowNode) : Prop :=
  ∀ node ∈ nodes, node.executionStatus.settled = false → ∀ read ∈ node.reads E.runtime,
    ∀ source ∈ nodes, source.id = read.1 → source.executionStatus.done → source.carries read.2

theorem stocked_initialState (hnodup : workflow.nodeIds.Nodup)
    (hcarries : CarriesOver E workflow.nodes) :
    Stocked E workflow.nodes (initialState workflow) := by
  intro n hn hunsettled read hread hcompleted
  obtain ⟨source, hsource, hid⟩ := List.mem_map.mp hcompleted
  obtain ⟨hmem, hdone⟩ := List.mem_filter.mp hsource
  obtain ⟨reference, hreference, hpath⟩ := (Option.any_eq_true ..).mp
    (hcarries n hn hunsettled read hread source hmem hid hdone)
  refine ⟨[("result_reference", .str reference)], ?_⟩
  rw [← hid, get?_initialOutputs hnodup hmem hdone hreference]
  cases hvalue : readOutputPath (.dict [("result_reference", .str reference)]) read.2 with
  | ok value => exact ⟨value, rfl, rfl⟩
  | error message =>
      rw [hvalue] at hpath
      cases hpath

theorem runWorkflow_tends (hE : RunnablePlan E s accepted) (h : accepted.Follows workflow)
    (hcarries : CarriesOver E workflow.nodes) (role : String) (resumed : Bool)
    (authToken : Option String) :
    Tends E s call accepted.Follows (E.runWorkflow workflow role resumed authToken) := by
  refine tends_ambient (uses_auditEvent ..) fun event _ => ?_
  refine Procedure.Issues.bind (checkpoint_tends hE ?_ ..) fun updated hupdated => ?_
  · exact h.of_same rfl rfl
  obtain ⟨hfollows, hsame⟩ := hupdated
  have hnodup : updated.nodeIds.Nodup := hfollows.ids ▸ hE.sound.nodup
  have hsame : updated.nodes = workflow.nodes := hsame
  exact runNodes_tends hE hfollows (stocked_initialState hnodup (hsame ▸ hcarries)) hfollows.nodes
    (topologicalNodes_perm hnodup).subset ..

/-- What a call makes of a node before its run. -/
structure Readied (E : WorkflowPlanningService) (call : WorkflowCall) (old new : WorkflowNode) :
    Prop extends Prepared E call old new where
  tracks : ∀ a : WorkflowNode, a.Tracks old → a.Tracks new
  finished : new.executionStatus.done → new = old ∧ call.retries old.id = false

theorem readied_refl (htakes : node.executionStatus.settled = false → E.takesUp call node)
    (hretries : call.retries node.id = false) : Readied E call node node where
  toPrepared := prepared_refl htakes hretries
  tracks _ h := h
  finished _ := ⟨rfl, hretries⟩

section Readied

variable {nodes' : List WorkflowNode}

theorem carriesOver_of_readied (h : List.Forall₂ (Readied E call) workflow.nodes nodes')
    (hkeeps : KeepsOutputs E call workflow) : CarriesOver E nodes' := by
  have hold : ∀ n ∈ nodes', ∃ old ∈ workflow.nodes, Readied E call old n := by
    intro n hn
    obtain ⟨i, hi, rfl⟩ := List.getElem_of_mem hn
    have hi' : i < workflow.nodes.length := h.length_eq ▸ hi
    exact ⟨_, List.getElem_mem hi', h.get hi' hi⟩
  intro n hn hunsettled read hread source hsource hid hdone
  obtain ⟨old, hmem, hreadied⟩ := hold n hn
  obtain ⟨source', hsource', hreadied'⟩ := hold source hsource
  obtain ⟨rfl, hretries⟩ := hreadied'.finished hdone
  exact hkeeps old hmem (hreadied.takenUp hunsettled) read
    (reads_subset hreadied.plan hreadied.references hread) source hsource' hid hdone hretries

theorem follows_of_readied (h : List.Forall₂ (Readied E call) workflow.nodes nodes')
    (hfollows : accepted.Follows workflow) :
    nodes'.map (·.id) = accepted.nodeIds ∧
      ∀ node ∈ nodes', ∃ a ∈ accepted.nodes, a.Tracks node := by
  constructor
  · have hplans : SamePlans workflow.nodes nodes' := h.imp fun _ _ hnode => hnode.plan
    exact hplans.ids.trans hfollows.ids
  · intro n hn
    obtain ⟨i, hi, rfl⟩ := List.getElem_of_mem hn
    have hi' : i < workflow.nodes.length := h.length_eq ▸ hi
    obtain ⟨a, ha, htracks⟩ := hfollows.nodes _ (List.getElem_mem hi')
    exact ⟨a, ha, (h.get hi' hi).tracks a htracks⟩

end Readied

/-- The first save of a call, and its run. -/
theorem startRun_tends (hE : RunnablePlan E s accepted) {resumed : Workflow}
    (h : accepted.Follows workflow) (hid : resumed.id = workflow.id)
    (hreadied : List.Forall₂ (Readied E call) workflow.nodes resumed.nodes)
    (hkeeps : KeepsOutputs E call workflow) (role : String) (authToken : Option String) :
    Tends E s call (fun _ => True)
      (engineOp (.saveWorkflow resumed) >>= fun _ =>
        E.runWorkflow resumed role true authToken) := by
  obtain ⟨hids, hnodes⟩ := follows_of_readied hreadied h
  have hfollows : accepted.Follows resumed := ⟨hid.trans h.id, hids, hnodes⟩
  refine ⟨?_, fun _ _ => ?_⟩
  · rintro _ ⟨⟩
    exact ⟨accepted, hfollows.id ▸ hE.stored, hfollows⟩
  · exact (runWorkflow_tends hE hfollows (carriesOver_of_readied hreadied hkeeps) ..).imp
      fun _ _ => trivial

theorem getWorkflow_tends
    (hrunnable : ∀ workflowId accepted, s.getWorkflow workflowId = some accepted →
      RunnablePlan E s accepted) (workflowId : UUID) :
    Tends E s call (fun workflow => ∃ accepted, RunnablePlan E s accepted ∧
      accepted.Follows workflow ∧ (call.starts workflow → KeepsOutputs E call workflow))
      (getWorkflow workflowId) := by
  refine ⟨fun workflow hsaved => (by cases hsaved), fun answer hanswer => ?_⟩
  cases answer with
  | none => trivial
  | some workflow =>
      obtain ⟨accepted, hstored, hfollows, hkeeps⟩ := hanswer workflow rfl
      exact ⟨accepted, hrunnable _ _ hstored, hfollows, hkeeps⟩

theorem resumeNode_readied {workflowId : UUID} {role : String} {authToken : Option String}
    {node' : WorkflowNode} (h : (resumeNode node).Returns node') :
    Readied E (.resume workflowId role authToken) node node' := by
  have hprepared : Prepared E (.resume workflowId role authToken) node node' :=
    resumeNode_prepared h
  have hsame : Readied E (.resume workflowId role authToken) node node :=
    readied_refl (fun hsettled => by
      simp only [takesUp, hsettled, Bool.not_false, Bool.true_or]) rfl
  obtain ⟨expired, -, h⟩ := Procedure.returns_bind.mp h
  split at h
  · -- the approval has expired, and the node fails for that reason
    obtain ⟨now, -, h⟩ := Procedure.returns_bind.mp h
    have hnode := Procedure.returns_pure.mp h
    refine ⟨hprepared, fun a htracks => ?_, fun hdone => ?_⟩
    · rw [← hnode]
      refine ⟨htracks.plan, htracks.references, fun _ => .inl ?_, fun _ => .inl rfl⟩
      exact List.mem_cons_of_mem _ (List.mem_cons_self ..)
    · rw [← hnode] at hdone
      cases hdone
  · split at h
    · next hstatus =>
      -- a failed or blocked node is taken up again only if it can be resumed
      obtain ⟨resumed, -, h⟩ := Procedure.returns_bind.mp h
      split at h
      · have hnode := Procedure.returns_pure.mp h
        refine ⟨hprepared, fun a htracks => ?_, fun hdone => ?_⟩
        · rw [← hnode]
          refine htracks.update rfl (List.Subset.refl _) (fun h => by cases h) fun _ =>
            htracks.clear fun hmem => ?_
          rcases List.mem_pair.mp hmem with heq | heq
          · rw [heq] at hstatus
            exact absurd hstatus (by decide)
          · rw [heq] at hstatus
            exact absurd hstatus (by decide)
        · rw [← hnode] at hdone
          cases hdone
      · rw [← Procedure.returns_pure.mp h]
        exact hsame
    · rw [← Procedure.returns_pure.mp h]
      exact hsame

theorem resumeNodes_readied {workflowId : UUID} {role : String} {authToken : Option String}
    {nodes nodes' : List WorkflowNode} (h : (resumeNodes nodes).Returns nodes') :
    List.Forall₂ (Readied E (.resume workflowId role authToken)) nodes nodes' := by
  induction nodes generalizing nodes' with
  | nil =>
      cases h
      exact .nil
  | cons node rest ih =>
      obtain ⟨node', hnode, h⟩ := Procedure.returns_bind.mp h
      obtain ⟨rest', hrest, h⟩ := Procedure.returns_bind.mp h
      cases h
      exact .cons (resumeNode_readied hnode) (ih hrest)

theorem retryTarget_readied {workflowId : UUID} {nodeId role : String}
    {authToken : Option String} (node : WorkflowNode) :
    Readied E (.retryNode workflowId nodeId role authToken) node (E.retryTarget nodeId node) := by
  have hprepared : Prepared E (.retryNode workflowId nodeId role authToken) node
      (E.retryTarget nodeId node) := retryTarget_prepared node
  unfold retryTarget at hprepared ⊢
  split
  · next hne =>
    rw [if_pos hne] at hprepared
    exact ⟨hprepared, fun _ h => h, fun _ => ⟨rfl, decide_eq_false (Ne.symm hne)⟩⟩
  · next hid =>
    rw [if_neg hid] at hprepared
    split
    · next hdenied =>
      rw [if_pos hdenied] at hprepared
      refine ⟨hprepared, fun a htracks => ?_, fun hdone => by cases hdone⟩
      refine ⟨htracks.plan, htracks.references, fun _ => .inl ?_, fun _ => .inr (.inl rfl)⟩
      exact List.mem_cons_of_mem _ (List.mem_cons_of_mem _ (List.mem_cons_self ..))
    · next hretryable =>
      rw [if_neg hretryable] at hprepared
      refine ⟨hprepared, fun a htracks => ?_, fun hdone => by cases hdone⟩
      exact htracks.clean rfl (List.Subset.refl _) (fun h => by cases h) rfl

theorem cancelNode_tracks (h : a.Tracks node) : a.Tracks (cancelNode node) := by
  unfold cancelNode
  split
  · refine h.update rfl (List.Subset.refl _) (fun h => by cases h) fun hne => ?_
    exact absurd (List.mem_cons_of_mem _ (List.mem_cons_self ..)) hne
  · exact h

/-- Every call writes only what goes on from the accepted plans. -/
theorem serve_tends
    (hrunnable : ∀ workflowId accepted, s.getWorkflow workflowId = some accepted →
      RunnablePlan E s accepted) (call : WorkflowCall) :
    Tends E s call (fun _ => True) (E.serve call) := by
  cases call with
  | execute workflowId role authToken =>
      refine (getWorkflow_tends hrunnable workflowId).bind ?_
      rintro workflow ⟨accepted, hE, h, hkeeps⟩
      split
      · trivial
      · next hlive =>
        split
        · trivial
        · next hwaiting =>
          have hstarts : (WorkflowCall.execute workflowId role authToken).starts workflow := by
            simp [WorkflowCall.starts, hlive, hwaiting]
          -- the nodes are run as they have been read
          have hsame : List.Forall₂ (Readied E (.execute workflowId role authToken))
              workflow.nodes workflow.nodes :=
            List.forall₂_same.mpr fun node _ => readied_refl (fun hsettled => by
              simp only [takesUp, hsettled, Bool.not_false]) rfl
          exact (runWorkflow_tends hE h (carriesOver_of_readied hsame (hkeeps hstarts)) ..).imp
            fun _ _ => trivial
  | resume workflowId role authToken =>
      refine (getWorkflow_tends hrunnable workflowId).bind ?_
      rintro workflow ⟨accepted, hE, h, hkeeps⟩
      split
      · trivial
      · next hlive =>
        refine tends_ambient (uses_resumeNodes _) fun nodes hnodes => ?_
        refine tends_ambient (uses_auditEvent ..) fun event _ => ?_
        refine startRun_tends hE h ?_ ?_ (hkeeps (decide_eq_true hlive)) ..
        · rfl
        · exact resumeNodes_readied hnodes
  | retryNode workflowId nodeId role authToken =>
      refine (getWorkflow_tends hrunnable workflowId).bind ?_
      rintro workflow ⟨accepted, hE, h, hkeeps⟩
      split
      · trivial
      · next hmem =>
        refine tends_ambient (uses_auditEvent ..) fun event _ => ?_
        refine startRun_tends hE h ?_ ?_ (hkeeps (decide_eq_true (not_not.mp hmem))) ..
        · rfl
        exact List.forall₂_map_right_iff.mpr
          (List.forall₂_same.mpr fun node _ => retryTarget_readied node)
  | cancel workflowId role =>
      refine (getWorkflow_tends hrunnable workflowId).bind ?_
      rintro workflow ⟨accepted, hE, h, -⟩
      -- cancelling keeps every node with its plan
      refine tends_ambient (uses_auditEvent ..) fun event _ => ⟨?_, fun _ _ => trivial⟩
      rintro _ ⟨⟩
      refine ⟨accepted, h.id ▸ hE.stored, h.id, ?_, fun node hnode => ?_⟩
      · rw [← h.ids, Workflow.nodeIds, Workflow.nodeIds, List.map_map]
        refine List.map_congr_left fun node _ => ?_
        rw [Function.comp_apply, cancelNode]
        split <;> rfl
      · obtain ⟨old, hold, rfl⟩ := List.mem_map.mp hnode
        obtain ⟨a, ha, htracks⟩ := h.nodes old hold
        exact ⟨a, ha, cancelNode_tracks htracks⟩

end WorkflowPlanningService

end Calls

/-! ## Whole runs -/

/-- Every workflow that is stored goes on from the one that was accepted. -/
def Onward (s t : InMemoryWorkflowRepository) : Prop :=
  ∀ workflowId workflow, t.getWorkflow workflowId = some workflow →
    ∃ accepted, s.getWorkflow workflowId = some accepted ∧ accepted.Follows workflow

section Runs

variable {E : WorkflowPlanningService} {s t : InMemoryWorkflowRepository}
  {calls : ℕ → WorkflowCall} {d : EngineStep}

/-- The references of the nodes pass the checks of their model. -/
def InMemoryWorkflowRepository.ValidReferences (s : InMemoryWorkflowRepository) : Prop :=
  ∀ workflowId workflow, s.getWorkflow workflowId = some workflow → ∀ node ∈ workflow.nodes,
    ∀ reference ∈ node.argumentReferences, reference.valid

/-- Conditions that are given as a text can be read and name a dependency. -/
def InMemoryWorkflowRepository.LegacyConditionsOk (rt : Runtime) (s : InMemoryWorkflowRepository) :
    Prop :=
  ∀ workflowId workflow, s.getWorkflow workflowId = some workflow → ∀ node ∈ workflow.nodes,
    node.typedCondition = none → node.LegacyConditionOk rt

theorem runnable_of_accepts (hs : E.AcceptsAll s) (hvalid : s.ValidReferences)
    (hlegacy : s.LegacyConditionsOk E.runtime) {workflowId : UUID} {accepted : Workflow}
    (hstored : s.getWorkflow workflowId = some accepted) : RunnablePlan E s accepted := by
  obtain ⟨hid, haccepts⟩ := hs workflowId accepted hstored
  refine ⟨hid ▸ hstored, haccepts.sound.1, fun a ha => ?_, hvalid workflowId accepted hstored⟩
  exact ((haccepts.checked a ha).wellFormed_iff _).mpr (hlegacy workflowId accepted hstored a ha)

/-- What is written keeps the repository going on. -/
theorem Onward.answer (h : Onward s t) {o : WorkflowOp} (ho : WritesOn s o) (env : EngineEnv) :
    Onward s (engineSystem.answer o env t).2 := by
  intro workflowId workflow hstored
  cases hsaved : o.saved with
  | none =>
      rw [state_of_no_save hsaved] at hstored
      exact h workflowId workflow hstored
  | some new =>
      rw [getWorkflow_of_saves hsaved] at hstored
      split at hstored
      · next hid =>
        cases hstored
        exact hid ▸ ho _ hsaved
      · exact h workflowId workflow hstored

/-- The answer of a step is one that its call expects. -/
theorem answers_of_step (h : Onward s d.before)
    (hanswer : ∃ env, engineSystem.answer d.op env d.before = (d.answer, d.after))
    (hsupplies : E.supplies s d.event) (hkept : E.losesOutput calls d = false) :
    Answers E s (calls d.caller) d.event := by
  obtain ⟨caller, op, answer, before, after⟩ := d
  cases op with
  | getWorkflow workflowId =>
      intro workflow hread
      obtain ⟨env, henv⟩ := hanswer
      have hstored : before.getWorkflow workflowId = some workflow :=
        (congrArg Prod.fst henv).trans hread
      obtain ⟨accepted, haccepted, hfollows⟩ := h workflowId workflow hstored
      refine ⟨accepted, haccepted, hfollows, fun hstarts => ?_⟩
      intro node hnode htakes read hread source hsource hid hdone hretries
      -- a source that does not carry the path makes the call lose an output
      by_contra hcarries
      have hcarries : source.carries read.2 = false := Bool.eq_false_iff.mpr hcarries
      have hretries : (calls caller).retries source.id = false := hretries
      have hlost :
          E.losesOutput calls ⟨caller, .getWorkflow workflowId, answer, before, after⟩ := by
        simp only [WorkflowPlanningService.losesOutput, hstored, Option.any_some, Bool.and_eq_true,
          List.any_eq_true]
        refine ⟨hstarts, node, hnode, htakes, read, hread, source, hsource, ?_⟩
        simp only [decide_eq_true hid, hdone, hretries, hcarries, Bool.not_false, and_self]
      rw [hlost] at hkept
      cases hkept
  | _ => exact hsupplies

/-- The repository goes on from what was accepted, whatever the schedule. -/
theorem runCalls_onward (hrunnable : ∀ workflowId accepted,
      s.getWorkflow workflowId = some accepted → RunnablePlan E s accepted)
    (calls : ℕ → WorkflowCall) (schedule : List (ℕ × EngineEnv))
    (hsupplies : ∀ d ∈ (E.runCalls s calls schedule).past, E.supplies s d.event)
    (hkept : ∀ d ∈ (E.runCalls s calls schedule).past, E.losesOutput calls d = false) :
    Onward s (E.runCalls s calls schedule).state := by
  refine interleave_issues_invariant (Onward s) (fun o env t ho h => h.answer ho env) schedule
    (fun k => E.serve (calls k)) ?_
    (fun k => WorkflowPlanningService.serve_tends hrunnable (calls k)) fun d hd hbefore => ?_
  · exact fun workflowId workflow hstored => ⟨workflow, hstored, .refl workflow⟩
  · obtain ⟨newer, older, hpast⟩ := List.append_of_mem hd
    have hreached : Run.From engineSystem s (E.runCalls s calls schedule) :=
      interleave_from schedule _ .start
    exact answers_of_step hbefore (hreached.at_step ⟨newer, hpast.symm⟩).2 (hsupplies d hd)
      (hkept d hd)

theorem not_executable_of_held_up (workflowId : UUID)
    (hblocked : (t.getWorkflow workflowId).any fun workflow => workflow.nodes.any fun node =>
      node.executionStatus = .blocked ∧ node.lastError ∉ ordinaryErrors)
    (haccepted : (s.getWorkflow workflowId).all fun accepted => accepted.nodes.all fun a =>
      a.lastError = none) : ¬ E.Executable s t := by
  intro hexecutable
  obtain ⟨workflow, hstored, hnodes⟩ := (Option.any_eq_true ..).mp hblocked
  obtain ⟨node, hnode, hheld⟩ := List.any_eq_true.mp hnodes
  obtain ⟨hstatus, herror⟩ := of_decide_eq_true hheld
  obtain ⟨accepted, hbefore, hunhindered⟩ := hexecutable workflowId workflow hstored
  obtain ⟨-, a, ha, -, hnot⟩ := hunhindered node hnode
  rw [hbefore, Option.all_some] at haccepted
  rcases hnot.blocked hstatus with hordinary | hsame
  · exact herror hordinary
  · rw [hsame, of_decide_eq_true (List.all_eq_true.mp haccepted a ha)] at herror
    exact herror (List.mem_cons_self ..)

/-- Tools succeed with all outputs, and no call loses one that is needed.  Then no node is held
up by the structure of its plan, in any run, exactly when every condition that is given as a text
can be read and names a dependency. -/
theorem runCalls_executable_iff (hs : E.AcceptsAll s) (hvalid : s.ValidReferences) :
    (∀ (calls : ℕ → WorkflowCall) (schedule : List (ℕ × EngineEnv)),
      (∀ d ∈ (E.runCalls s calls schedule).past, E.supplies s d.event) →
      (∀ d ∈ (E.runCalls s calls schedule).past, E.losesOutput calls d = false) →
        E.Executable s (E.runCalls s calls schedule).state) ↔
      s.LegacyConditionsOk E.runtime := by
  constructor
  · intro hruns workflowId workflow hstored node hnode
    have hstart : E.Executable s s := hruns (fun _ => .cancel 0 "") []
      (fun d hd => by cases hd) (fun d hd => by cases hd)
    obtain ⟨_, -, hnodes⟩ := hstart workflowId workflow hstored
    have hchecked := (hs workflowId workflow hstored).2.checked node hnode
    exact (hchecked.wellFormed_iff _).mp (hnodes node hnode).1
  · intro hlegacy calls schedule hsupplies hkept workflowId workflow hstored
    have honward := runCalls_onward
      (fun _ _ hstored => runnable_of_accepts hs hvalid hlegacy hstored) calls schedule hsupplies
      hkept
    obtain ⟨accepted, haccepted, hfollows⟩ := honward workflowId workflow hstored
    have hE := runnable_of_accepts hs hvalid hlegacy haccepted
    refine ⟨accepted, haccepted, fun node hnode => ?_⟩
    obtain ⟨a, ha, htracks⟩ := hfollows.nodes node hnode
    refine ⟨?_, a, ha, (id_of_plan htracks.plan).symm, htracks.unhindered⟩
    rw [hfollows.ids]
    exact htracks.wellFormed (hE.wellFormed a ha)

end Runs

/-- A plan whose second reading asks for the output of the first, in its condition and for an
argument. -/
def readWhenOnline : WorkflowPlanDraft :=
  smallDraft [readNode "first" first_length,
    { readNode "second" second_length ["first"] with
      arguments := [("device_id", .str "dev-1")]
      argumentReferences := [⟨"device_id", "first", "data.status"⟩]
      condition := some "first.data.status == ONLINE" }]

theorem validReferences_readWhenOnline :
    (InMemoryWorkflowRepository.holding readWhenOnline).ValidReferences := by
  intro workflowId workflow hstored node hnode reference hreference
  have hall : (InMemoryWorkflowRepository.holding readWhenOnline).workflows.values.all
      fun workflow => workflow.nodes.all fun node => node.argumentReferences.all (·.valid) := by
    rfl
  have hnodes := List.all_eq_true.mp hall workflow (Dict.mem_values.mpr ⟨workflowId, hstored⟩)
  exact List.all_eq_true.mp (List.all_eq_true.mp hnodes node hnode) reference hreference

theorem legacyConditionsOk_readWhenOnline :
    (InMemoryWorkflowRepository.holding readWhenOnline).LegacyConditionsOk
      WorkflowPlanningService.small.runtime := by
  intro workflowId workflow hstored node hnode _
  have hall : (InMemoryWorkflowRepository.holding readWhenOnline).workflows.values.all
      fun workflow => workflow.nodes.all fun node =>
        decide (node.LegacyConditionOk WorkflowPlanningService.small.runtime) := by
    rfl
  have hnodes := List.all_eq_true.mp hall workflow (Dict.mem_values.mpr ⟨workflowId, hstored⟩)
  exact of_decide_eq_true (List.all_eq_true.mp hnodes node hnode)

/-- A run in which both readings succeed, and no run of the plan in which one is held up. -/
theorem runCalls_executable_readWhenOnline :
    (let calls : ℕ → WorkflowCall := fun _ => .execute 5 "ENGINEER" none
      let r := WorkflowPlanningService.small.runCalls (.holding readWhenOnline) calls
        (engineTurns 0 (.at 6 (.ok succeededResponse)) 57)
      (r.past.all fun d =>
        WorkflowPlanningService.small.supplies (.holding readWhenOnline) d.event &&
        !WorkflowPlanningService.small.losesOutput calls d) ∧
      (r.state.getWorkflow 5).map (fun workflow => workflow.nodes.map (·.executionStatus)) =
        some [.succeeded, .succeeded]) ∧
    ∀ (calls : ℕ → WorkflowCall) (schedule : List (ℕ × EngineEnv)),
      (∀ d ∈ (WorkflowPlanningService.small.runCalls (.holding readWhenOnline) calls schedule).past,
        WorkflowPlanningService.small.supplies (.holding readWhenOnline) d.event) →
      (∀ d ∈ (WorkflowPlanningService.small.runCalls (.holding readWhenOnline) calls schedule).past,
        WorkflowPlanningService.small.losesOutput calls d = false) →
      WorkflowPlanningService.small.Executable (.holding readWhenOnline)
        (WorkflowPlanningService.small.runCalls (.holding readWhenOnline) calls schedule).state :=
  ⟨by decide +kernel, (runCalls_executable_iff (acceptsAll_holding readWhenOnline)
    validReferences_readWhenOnline).mpr legacyConditionsOk_readWhenOnline⟩

/-- A call that is abandoned after the first reading, and one that goes on. -/
theorem resumed_reading_held_up :
    ¬ ∀ (E : WorkflowPlanningService) (s : InMemoryWorkflowRepository) (calls : ℕ → WorkflowCall)
      (schedule : List (ℕ × EngineEnv)), E.AcceptsAll s → s.ValidReferences →
        s.LegacyConditionsOk E.runtime →
        (∀ d ∈ (E.runCalls s calls schedule).past, E.supplies s d.event) →
          E.Executable s (E.runCalls s calls schedule).state := by
  intro hclaim
  have hexecutable := hclaim .small (.holding readWhenOnline)
    (fun k => if k = 0 then .execute 5 "ENGINEER" none else .resume 5 "ENGINEER" none)
    (engineTurns 0 (.at 6 (.ok succeededResponse)) 27 ++
      engineTurns 1 (.at 8 (.ok succeededResponse)) 20)
    (acceptsAll_holding readWhenOnline) validReferences_readWhenOnline
    legacyConditionsOk_readWhenOnline (List.all_eq_true.mp (by decide +kernel))
  exact not_executable_of_held_up 5 (by decide +kernel) (by decide) hexecutable

/-- A plan that reads the status of a device on a condition that cannot be read. -/
def conditionalRead : WorkflowPlanDraft :=
  smallDraft (readOnce.nodes.map fun node => { node with condition := some "the device is up" })

theorem validReferences_conditionalRead :
    (InMemoryWorkflowRepository.holding conditionalRead).ValidReferences := by
  intro workflowId workflow hstored node hnode reference hreference
  have hall : (InMemoryWorkflowRepository.holding conditionalRead).workflows.values.all
      fun workflow => workflow.nodes.all fun node => node.argumentReferences.isEmpty := by
    rfl
  have hnodes := List.all_eq_true.mp hall workflow (Dict.mem_values.mpr ⟨workflowId, hstored⟩)
  rw [List.isEmpty_iff.mp (List.all_eq_true.mp hnodes node hnode)] at hreference
  cases hreference

/-- A condition that cannot be read is accepted, and blocks its node. -/
theorem unreadable_condition_accepted :
    ¬ ∀ (E : WorkflowPlanningService) (s : InMemoryWorkflowRepository) (calls : ℕ → WorkflowCall)
      (schedule : List (ℕ × EngineEnv)), E.AcceptsAll s → s.ValidReferences →
        (∀ d ∈ (E.runCalls s calls schedule).past, E.supplies s d.event) →
          E.Executable s (E.runCalls s calls schedule).state := by
  intro hclaim
  have hexecutable := hclaim .small (.holding conditionalRead)
    (fun _ => .execute 5 "ENGINEER" none) (engineTurns 0 (.at 6 (.ok succeededResponse)) 15)
    (acceptsAll_holding conditionalRead) validReferences_conditionalRead
    (List.all_eq_true.mp (by decide +kernel))
  exact not_executable_of_held_up 5 (by decide +kernel) (by decide) hexecutable

end McpOps
