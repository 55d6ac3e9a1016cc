import McpOps.Workflow.Approvals
import McpOps.Workflow.Deployment
import McpOps.Workflow.History

/-!
# Resuming a workflow that waits

A node waits for an approval that the gateway holds as pending.  It does not go on waiting through
every number of calls of `resume`: the first call after the deadline of the node, the timeout of its
tool counted from its last attempt, gives the node up, whatever the gateway says of the record.

## Strategy

* A run keeps what does not depend on the nodes that it is busy with.  `Frame` says what that asks
  of a property of workflows, and the lemmas on it follow the code of the engine once.
* `Workflow.Live` makes one (`frame_live`).  So in every repository that calls lead to, a waiting
  node has a deadline, and its workflow is not cancelled and has a creator that an audit event
  takes (`Workflow.Orderly`, `runCalls_orderly`).
* `Holds` makes another one (`frame_holds`): a node that has failed is left alone by the run that
  follows.
* `lateSystem` has only readings of the clock from the deadline on.  What `resume` does there is to
  give up the node, to save that, and to run (`resume_fails`).
* `exists_resume_not_waitsFor` makes one call of that, in any surroundings from the deadline on.
  `waiting_never_survives` chooses the clocks: the gateway's before the expiration of the record,
  or one clock for both where the deadline comes before it.
* The other way in which a node is lost, before its deadline, is in `pending_restart_fails`: the
  gateway refuses what `resume` submits for a pending record.
-/

namespace McpOps

open Proc WorkflowPlanningService

/-! ## What code writes -/

section Writes

variable {α β : Type} {good : Workflow → Prop}

/-- Every workflow that `p` saves is good, and what it returns satisfies `post`. -/
structure Writes (good : Workflow → Prop) (p : EngineM α) (post : α → Prop) : Prop where
  uses : p.Uses fun o : WorkflowOp => ∀ workflow, o.saved = some workflow → good workflow
  returns : ∀ a, p.Returns a → post a

theorem writes_pure {post : α → Prop} {a : α} (h : post a) : Writes good (.pure a) post :=
  ⟨trivial, fun a' ha => by
    rw [← Procedure.returns_pure.mp ha]
    exact h⟩

theorem writes_raise {post : α → Prop} {e : EngineError} :
    Writes good (.raise e : EngineM α) post := ⟨trivial, fun _ ha => ha.elim⟩

theorem Writes.bind {p : EngineM α} {f : α → EngineM β} {post : α → Prop} {post' : β → Prop}
    (hp : Writes good p post) (hf : ∀ a, post a → Writes good (f a) post') :
    Writes good (p >>= f) post' where
  uses := hp.uses.bind_returns fun a ha => (hf a (hp.returns a ha)).uses
  returns b hb := by
    obtain ⟨a, ha, hb⟩ := Procedure.returns_bind.mp hb
    exact (hf a (hp.returns a ha)).returns b hb

theorem Writes.imp {good' : Workflow → Prop} {p : EngineM α} {post post' : α → Prop}
    (hp : Writes good p post) (hgood : ∀ workflow, good workflow → good' workflow)
    (hpost : ∀ a, post a → post' a) : Writes good' p post' where
  uses := hp.uses.mono fun _ ho workflow hsaved => hgood workflow (ho workflow hsaved)
  returns a ha := hpost a (hp.returns a ha)

theorem Writes.and_returns {p : EngineM α} {post : α → Prop} (hp : Writes good p post) :
    Writes good p (fun a => post a ∧ p.Returns a) where
  uses := hp.uses
  returns a ha := ⟨hp.returns a ha, ha⟩

/-- Code that saves nothing. -/
theorem Writes.of_ambient {p : EngineM α} (hp : p.Uses Ambient) :
    Writes good p (fun a => p.Returns a) where
  uses := hp.mono fun o ho workflow hsaved => by
    cases o with
    | saveWorkflow => exact ho.elim
    | saveWorkflowWithEvent => exact ho.elim
    | _ => cases hsaved
  returns _ ha := ha

theorem writes_ambient_bind {p : EngineM α} {f : α → EngineM β} {post : β → Prop}
    (hp : p.Uses Ambient) (hf : ∀ a, p.Returns a → Writes good (f a) post) :
    Writes good (p >>= f) post := (Writes.of_ambient hp).bind hf

theorem writes_save {o : WorkflowOp} (h : ∀ workflow, o.saved = some workflow → good workflow) :
    Writes good (engineOp o) (fun _ => True) := ⟨⟨h, fun _ => trivial⟩, fun _ _ => trivial⟩

end Writes

/-! ## What a run keeps -/

/-- A property of workflows that a run keeps while it is busy with nodes of a kind: it depends on
little but the nodes, and a node may be put in place that is fine.  A node of the kind is fine
unless it waits, and then if an attempt at it has begun. -/
structure Frame (Good : Workflow → Prop) (Kin Fine : WorkflowNode → Prop) : Prop where
  header : ∀ {workflow new : Workflow}, Good workflow → new.id = workflow.id →
    new.nodes = workflow.nodes → new.createdBy = workflow.createdBy →
      new.status = workflow.status ∨ new.status ≠ .cancelled → Good new
  put : ∀ {workflow : Workflow} {node : WorkflowNode}, Good workflow → Fine node →
    Good (workflow.replaceNode node)
  kin : ∀ {node node' : WorkflowNode}, Kin node → node'.id = node.id → Kin node'
  idle : ∀ {node : WorkflowNode}, Kin node → node.executionStatus ≠ .waitingApproval → Fine node
  begun : ∀ {node : WorkflowNode}, Kin node → node.lastAttemptAt.isSome → Fine node

/-- An audit event is made only for an actor of the length that it takes. -/
theorem hasLength_of_auditEvent {eventType actor role message : String} {nodeId : Option String}
    {event : WorkflowAuditEvent}
    (h : (auditEvent eventType actor role message nodeId).Returns event) :
    hasLength 1 160 actor := by
  obtain ⟨timestamp, -, h⟩ := Procedure.returns_bind.mp h
  split at h
  · next hlengths => exact hlengths.2.1
  · exact h.elim

theorem nodes_of_checkpoint {workflow updated : Workflow} {eventType : String}
    {nodeId : Option String} (h : (checkpoint workflow eventType nodeId).Returns updated) :
    updated.nodes = workflow.nodes := by
  obtain ⟨event, -, h⟩ := Procedure.returns_bind.mp h
  obtain ⟨-, -, h⟩ := Procedure.returns_bind.mp h
  rw [← Procedure.returns_pure.mp h]

namespace Frame

variable {Good : Workflow → Prop} {Kin Fine : WorkflowNode → Prop} {E : WorkflowPlanningService}
  {node : WorkflowNode} {workflow : Workflow} {role : String} {authToken : Option String}

/-- A node that is made from one of the kind, and does not wait, is fine. -/
theorem fine (F : Frame Good Kin Fine) (h : Kin node) {node' : WorkflowNode}
    (hid : node'.id = node.id) (hstatus : node'.executionStatus ≠ .waitingApproval) : Fine node' :=
  F.idle (F.kin h hid) hstatus

theorem checkpoint_writes (F : Frame Good Kin Fine) (h : Good workflow) (eventType : String)
    (nodeId : Option String) :
    Writes Good (checkpoint workflow eventType nodeId) Good := by
  have hnext : Good { workflow with version := workflow.version + 1 } :=
    F.header h rfl rfl rfl (.inl rfl)
  refine writes_ambient_bind (uses_outboxEvent ..) fun event _ => ?_
  refine (writes_save fun saved hsaved => ?_).bind fun _ _ => writes_pure hnext
  cases hsaved
  exact hnext

theorem saveNode_writes (F : Frame Good Kin Fine) (h : Good workflow) (hfine : Fine node)
    (eventType : String) : Writes Good (saveNode workflow node eventType) Good :=
  F.checkpoint_writes (F.put h hfine) ..

theorem finishWorkflow_writes (F : Frame Good Kin Fine) (h : Good workflow) (role : String) :
    Writes Good (finishWorkflow workflow role) Good := by
  refine writes_ambient_bind (uses_auditEvent ..) fun _ _ => F.checkpoint_writes ?_ ..
  refine F.header h rfl rfl rfl (.inr ?_)
  dsimp only
  split
  · exact fun h => by cases h
  · exact fun h => by cases h

/-- Calling the gateway writes nothing. -/
theorem executeNode_writes (good : Workflow → Prop) (node : WorkflowNode) :
    Writes good (E.executeNode node role authToken) (fun _ => True) := by
  refine writes_ambient_bind uses_freshUuid fun id _ => ?_
  dsimp only
  split
  · exact writes_save fun _ hsaved => by cases hsaved
  · exact writes_raise

theorem compensateNode_writes (F : Frame Good Kin Fine) (h : Good workflow) (hkin : Kin node) :
    Writes Good (E.compensateNode node role workflow authToken) Good := by
  unfold compensateNode
  refine (F.saveNode_writes h ?_ _).bind fun current hcurrent => ?_
  · exact F.fine hkin rfl fun h => by cases h
  refine (executeNode_writes _ _).bind fun answer _ => ?_
  cases answer with
  | error e => exact writes_raise
  | ok response =>
      refine writes_ambient_bind uses_timeNow fun now _ => ?_
      refine F.saveNode_writes hcurrent ?_ _
      split
      · exact F.fine hkin rfl fun h => by cases h
      · exact F.fine hkin rfl fun h => by cases h

/-- An attempt stays with its node, and with the time at which it has begun. -/
theorem attemptNode_writes (F : Frame Good Kin Fine) (h : Good workflow) (hkin : Kin node)
    (hstatus : node.executionStatus = .running) (hbegun : node.lastAttemptAt.isSome)
    (nodeOutputs : NodeOutputs) :
    Writes Good (E.attemptNode node role workflow nodeOutputs authToken)
      (fun out => Kin out.1 ∧ out.1.lastAttemptAt.isSome ∧ Good out.2.1) := by
  unfold attemptNode
  cases hbound : resolveNodeArguments node nodeOutputs with
  | error message =>
      exact writes_ambient_bind (uses_failureResponse ..) fun response _ =>
        writes_pure ⟨hkin, hbegun, h⟩
  | ok bound =>
      -- binding arguments keeps the node otherwise
      have hsame : bound.id = node.id ∧ bound.executionStatus = .running ∧
          bound.lastAttemptAt.isSome := by
        rw [resolveNodeArguments] at hbound
        cases hfold : node.argumentReferences.foldlM (bindReference nodeOutputs) node.arguments with
        | error message =>
            rw [hfold] at hbound
            cases hbound
        | ok arguments =>
            rw [hfold] at hbound
            cases hbound
            exact ⟨rfl, hstatus, hbegun⟩
      obtain ⟨hid, hrunning, hattempted⟩ := hsame
      have hstored : Writes Good (storeBound node bound workflow)
          (fun out => Kin out.1 ∧ out.1.lastAttemptAt.isSome ∧ Good out.2) := by
        unfold storeBound
        split
        · exact writes_pure ⟨hkin, hbegun, h⟩
        · have hbare : Kin { bound with argumentReferences := [] } := F.kin hkin hid
          refine (F.saveNode_writes h ?_ _).bind fun saved hsaved =>
            writes_pure ⟨hbare, hattempted, hsaved⟩
          exact F.begun hbare hattempted
      refine hstored.bind fun out hout => ?_
      refine (executeNode_writes _ _).bind fun answer _ => ?_
      exact writes_ambient_bind (uses_responseOf ..) fun response _ => writes_pure hout

theorem failNode_writes (F : Frame Good Kin Fine) (h : Good workflow) (hkin : Kin node)
    (response : GatewayToolResponse) :
    Writes Good (E.failNode node role workflow response authToken) Good := by
  unfold failNode
  refine writes_ambient_bind uses_timeNow fun now _ => ?_
  refine (F.saveNode_writes h ?_ _).bind fun current hcurrent => ?_
  · exact F.fine hkin rfl fun h => by cases h
  dsimp only
  split
  · refine writes_ambient_bind (uses_nextRetryTime _) fun retryAt _ => ?_
    refine F.saveNode_writes hcurrent ?_ _
    exact F.fine hkin rfl fun h => by cases h
  · split
    · exact F.compensateNode_writes hcurrent (F.kin hkin rfl)
    · exact writes_pure hcurrent

theorem executeNodeWithRecovery_writes (F : Frame Good Kin Fine) (h : Good workflow)
    (hkin : Kin node) (nodeOutputs : NodeOutputs) :
    Writes Good (E.executeNodeWithRecovery node role workflow nodeOutputs authToken)
      (fun out => Good out.1) := by
  unfold executeNodeWithRecovery
  have hstarted : Writes Good (startAttempt node) (fun m => Kin m ∧
      m.executionStatus = .running ∧ m.lastAttemptAt.isSome) :=
    writes_ambient_bind uses_timeNow fun now _ => writes_pure ⟨F.kin hkin rfl, rfl, rfl⟩
  refine hstarted.bind fun running hrunning => ?_
  obtain ⟨hkin, hstatus, hbegun⟩ := hrunning
  refine (F.saveNode_writes h (F.begun hkin hbegun) _).bind fun current hcurrent => ?_
  refine (F.attemptNode_writes hcurrent hkin hstatus hbegun _).bind fun out hout => ?_
  obtain ⟨running, current, response⟩ := out
  obtain ⟨hkin, hbegun, hcurrent⟩ := hout
  dsimp only
  split
  · -- the only node that is made to wait: its attempt has begun
    unfold awaitApproval
    refine Writes.bind (writes_ambient_bind (uses_auditEvent ..) fun event _ => ?_)
      fun out hout => writes_pure hout
    refine F.saveNode_writes ?_ ?_ _
    · exact F.header hcurrent rfl rfl rfl (.inr fun h => by cases h)
    · exact F.begun (F.kin hkin rfl) hbegun
  · split
    · refine Writes.bind (writes_ambient_bind uses_timeNow fun now _ => ?_)
        fun out hout => writes_pure hout
      refine F.saveNode_writes hcurrent ?_ _
      exact F.fine hkin rfl fun h => by cases h
    · exact (F.failNode_writes hcurrent hkin _).bind fun out hout => writes_pure hout

/-! ### The turns of the nodes -/

/-- A run that stops, or goes on, has kept the property. -/
def TurnKeeps (Good : Workflow → Prop) : Turn → Prop
  | .stop workflow => Good workflow
  | .go state => Good state.updated

theorem afterExecution_writes (F : Frame Good Kin Fine) {state : RunState} (h : Good workflow)
    (nodeOutputs : NodeOutputs) :
    Writes Good (afterExecution node role state workflow nodeOutputs) (TurnKeeps Good) := by
  unfold afterExecution
  dsimp only
  split
  · exact writes_pure h
  · split
    · exact writes_pure h
    · split
      · exact (F.finishWorkflow_writes h role).bind fun out hout => writes_pure hout
      · exact writes_pure h

theorem runReadyNode_writes (F : Frame Good Kin Fine) {state : RunState}
    (h : Good state.updated) (hkin : Kin node) :
    Writes Good (E.runReadyNode workflow node role authToken state) (TurnKeeps Good) := by
  unfold runReadyNode
  refine (F.saveNode_writes h ?_ _).bind fun updated hupdated => ?_
  · exact F.fine hkin rfl fun h => by cases h
  -- the announcement is another checkpoint of the same workflow
  have hqueued : Writes Good (announceQueued updated (readyNode node)) Good := by
    unfold announceQueued
    split
    · exact F.checkpoint_writes hupdated ..
    · exact writes_pure hupdated
  refine hqueued.bind fun updated hupdated => ?_
  refine writes_ambient_bind uses_timeNow fun now _ => ?_
  refine writes_ambient_bind (uses_ofExcept _) fun evaluation _ => ?_
  have hpolicy : Kin (transformNodeWithPolicy (readyNode node) evaluation
      (E.toolRegistry.lookup node.toolName)) := F.kin hkin rfl
  refine (F.saveNode_writes hupdated (F.idle hpolicy ?_) _).bind fun updated hupdated => ?_
  · -- the policy never leaves a node waiting
    rw [transformNodeWithPolicy]
    dsimp only
    split
    · exact fun h => by cases h
    · split
      · exact fun h => by cases h
      · exact fun h => by cases h
  split
  · refine writes_ambient_bind uses_timeNow fun now _ => ?_
    refine (F.saveNode_writes hupdated ?_ _).bind fun out hout => writes_pure hout
    exact F.fine hpolicy rfl fun h => by cases h
  · split
    · refine (F.saveNode_writes hupdated ?_ _).bind fun out hout => writes_pure hout
      exact F.fine hpolicy rfl fun h => by cases h
    · refine (F.executeNodeWithRecovery_writes hupdated hpolicy _).bind fun out hout => ?_
      exact F.afterExecution_writes hout _

/-- The turn of a node of the kind, or of one with which a run is not busy. -/
theorem runNode_writes (F : Frame Good Kin Fine) {state : RunState} (h : Good state.updated)
    (hnode : Kin node ∨ node.executionStatus.settled) :
    Writes Good (E.runNode workflow node role authToken state) (TurnKeeps Good) := by
  unfold runNode
  refine writes_ambient_bind (uses_mayStart node) fun due _ => ?_
  split
  · exact writes_pure h
  · split
    · exact writes_pure h
    · next hunsettled =>
      have hkin := hnode.resolve_right hunsettled
      split
      · refine (F.saveNode_writes h ?_ _).bind fun out hout => writes_pure hout
        exact F.fine hkin rfl fun h => by cases h
      · unfold runConditionedNode
        split
        · exact writes_raise
        · refine (F.saveNode_writes h ?_ _).bind fun updated hupdated => ?_
          · exact F.fine hkin rfl fun h => by cases h
          exact (F.finishWorkflow_writes hupdated role).bind fun out hout => writes_pure hout
        · refine (F.saveNode_writes h ?_ _).bind fun out hout => writes_pure hout
          exact F.fine hkin rfl fun h => by cases h
        · exact F.runReadyNode_writes h hkin

theorem runNodes_writes (F : Frame Good Kin Fine) {nodes : List WorkflowNode}
    (hnodes : ∀ node ∈ nodes, Kin node ∨ node.executionStatus.settled) {state : RunState}
    (h : Good state.updated) :
    Writes Good (E.runNodes workflow role authToken nodes state) Good := by
  induction nodes generalizing state with
  | nil => exact F.finishWorkflow_writes h role
  | cons node rest ih =>
      rw [List.forall_mem_cons] at hnodes
      refine (F.runNode_writes h hnodes.1).bind fun turn hturn => ?_
      cases turn with
      | stop workflow => exact writes_pure hturn
      | go state => exact ih hnodes.2 hturn

/-- What holds once the first audit event of a run has been made is kept to its end. -/
theorem runWorkflow_writes (F : Frame Good Kin Fine) {resumed : Bool}
    (hnodup : workflow.nodeIds.Nodup)
    (hnodes : ∀ node ∈ workflow.nodes, Kin node ∨ node.executionStatus.settled)
    (h : hasLength 1 160 workflow.createdBy → ∀ auditEvents,
      Good { workflow with status := .running, version := workflow.version + 1, auditEvents }) :
    Writes Good (E.runWorkflow workflow role resumed authToken) Good := by
  refine writes_ambient_bind (uses_auditEvent ..) fun event hevent => ?_
  have hgood := h (hasLength_of_auditEvent hevent) (workflow.auditEvents ++ [event])
  refine (F.checkpoint_writes hgood ..).and_returns.bind fun updated hupdated => ?_
  obtain ⟨hupdated, hreturns⟩ := hupdated
  have hsame := nodes_of_checkpoint hreturns
  dsimp only at hsame
  refine F.runNodes_writes (fun node hnode => hnodes node ?_) hupdated
  rw [← hsame]
  have hdistinct : updated.nodeIds.Nodup := by
    rw [Workflow.nodeIds, hsame]
    exact hnodup
  exact (topologicalNodes_perm hdistinct).subset hnode

end Frame

/-! ## Waiting nodes have a deadline -/

/-- A node that waits has a deadline. -/
def WorkflowNode.Timed (node : WorkflowNode) : Prop :=
  node.executionStatus = .waitingApproval → node.approvalDeadline.isSome

/-- A workflow that a run is busy with. -/
structure Workflow.Live (workflow : Workflow) : Prop where
  nodup : workflow.nodeIds.Nodup
  timed : ∀ node ∈ workflow.nodes, node.Timed
  status : workflow.status ≠ .cancelled
  creator : hasLength 1 160 workflow.createdBy

/-- A waiting node has a deadline, and it waits in a workflow that is not cancelled and whose
creator an audit event takes. -/
structure Workflow.Orderly (workflow : Workflow) : Prop where
  nodup : workflow.nodeIds.Nodup
  timed : ∀ node ∈ workflow.nodes, node.Timed
  live : ∀ node ∈ workflow.nodes, node.executionStatus = .waitingApproval →
    workflow.status ≠ .cancelled ∧ hasLength 1 160 workflow.createdBy

/-- Every stored workflow is orderly. -/
def InMemoryWorkflowRepository.Orderly (s : InMemoryWorkflowRepository) : Prop :=
  ∀ workflowId workflow, s.getWorkflow workflowId = some workflow → workflow.Orderly

theorem Workflow.Live.orderly {workflow : Workflow} (h : workflow.Live) : workflow.Orderly :=
  ⟨h.nodup, h.timed, fun _ _ _ => ⟨h.status, h.creator⟩⟩

theorem frame_live : Frame Workflow.Live (fun _ => True) WorkflowNode.Timed where
  header := by
    intro workflow new h _ hnodes hcreator hstatus
    refine ⟨?_, ?_, ?_, ?_⟩
    · rw [Workflow.nodeIds, hnodes]
      exact h.nodup
    · rw [hnodes]
      exact h.timed
    · rcases hstatus with hsame | hlive
      · rw [hsame]
        exact h.status
      · exact hlive
    · rw [hcreator]
      exact h.creator
  put := by
    intro workflow node h htimed
    refine ⟨?_, ?_, h.status, h.creator⟩
    · rw [Workflow.replaceNode_nodeIds h.nodup]
      exact h.nodup
    · -- a node is the one that was put, or was there before
      intro n hn
      rw [replaceNode_eq_putNode h.nodup] at hn
      rcases mem_putNode.mp hn with ⟨rfl, -⟩ | ⟨hn, -⟩
      · exact htimed
      · exact h.timed n hn
  kin _ _ := trivial
  idle _ hstatus hwaiting := absurd hwaiting hstatus
  begun := by
    intro node _ hbegun _
    obtain ⟨attempted, hattempted⟩ := Option.isSome_iff_exists.mp hbegun
    rw [WorkflowNode.approvalDeadline, hattempted]
    rfl

section Calls

variable {E : WorkflowPlanningService} {workflow : Workflow} {node node' : WorkflowNode}
  {s : InMemoryWorkflowRepository}

/-- What a call reads is orderly. -/
def ReadsOrderly : EngineEvent → Prop
  | ⟨.getWorkflow _, answer⟩ => ∀ workflow, answer = some workflow → workflow.Orderly
  | _ => True

/-- What is written is orderly. -/
def WritesOrderly (o : WorkflowOp) : Prop := ∀ workflow, o.saved = some workflow → workflow.Orderly

theorem Writes.issues {α : Type} {good : Workflow → Prop} {p : EngineM α} {post : α → Prop}
    (hp : Writes good p post) (hgood : ∀ workflow, good workflow → workflow.Orderly) :
    p.Issues ReadsOrderly WritesOrderly post :=
  ((hp.imp hgood fun _ h => h).uses.issues).imp hp.returns

theorem getWorkflow_issues (workflowId : UUID) :
    (getWorkflow workflowId).Issues ReadsOrderly WritesOrderly Workflow.Orderly := by
  refine ⟨fun workflow hsaved => (by cases hsaved), fun answer hanswer => ?_⟩
  cases answer with
  | none => trivial
  | some workflow => exact hanswer workflow rfl

theorem runWorkflow_issues (h : ∀ node ∈ workflow.nodes, node.Timed)
    (hnodup : workflow.nodeIds.Nodup) (role : String) (resumed : Bool)
    (authToken : Option String) :
    (E.runWorkflow workflow role resumed authToken).Issues ReadsOrderly WritesOrderly
      fun _ => True := by
  have hwrites : Writes Workflow.Live (E.runWorkflow workflow role resumed authToken)
      Workflow.Live := by
    refine frame_live.runWorkflow_writes hnodup (fun _ _ => .inl trivial) ?_
    exact fun hcreator _ => ⟨hnodup, h, fun h => (by cases h), hcreator⟩
  exact (hwrites.issues fun _ h => h.orderly).imp fun _ _ => trivial

/-- A waiting node is taken up as it is, or given up. -/
theorem resumeNode_waiting (h : (resumeNode node).Returns node')
    (hwaiting : node.executionStatus = .waitingApproval) :
    node' = node ∨ node'.executionStatus = .failed := by
  obtain ⟨expired, -, h⟩ := Procedure.returns_bind.mp h
  split at h
  · obtain ⟨now, -, h⟩ := Procedure.returns_bind.mp h
    rw [← Procedure.returns_pure.mp h]
    exact Or.inr rfl
  · rw [if_neg (by rw [hwaiting]; decide)] at h
    exact Or.inl (Procedure.returns_pure.mp h).symm

theorem resumeNode_timed (h : (resumeNode node).Returns node') (htimed : node.Timed) :
    node'.Timed := by
  intro hwaiting
  have hbefore := resumeNode_waits h hwaiting
  rcases resumeNode_waiting h hbefore with rfl | hfailed
  · exact htimed hbefore
  · rw [hwaiting] at hfailed
    cases hfailed

theorem resumeNodes_ids {nodes nodes' : List WorkflowNode}
    (h : (resumeNodes nodes).Returns nodes') : nodes'.map (·.id) = nodes.map (·.id) := by
  induction nodes generalizing nodes' with
  | nil =>
      cases h
      rfl
  | cons node rest ih =>
      obtain ⟨node', hnode, h⟩ := Procedure.returns_bind.mp h
      obtain ⟨rest', hrest, h⟩ := Procedure.returns_bind.mp h
      cases h
      have hprepared : Prepared .small (.resume 0 "" none) node node' := resumeNode_prepared hnode
      rw [List.map_cons, List.map_cons, ih hrest, id_of_plan hprepared.plan]

theorem resumeNodes_timed {nodes nodes' : List WorkflowNode}
    (h : (resumeNodes nodes).Returns nodes') (htimed : ∀ node ∈ nodes, node.Timed) :
    ∀ node ∈ nodes', node.Timed := by
  induction nodes generalizing nodes' with
  | nil =>
      cases h
      exact htimed
  | cons node rest ih =>
      obtain ⟨node', hnode, h⟩ := Procedure.returns_bind.mp h
      obtain ⟨rest', hrest, h⟩ := Procedure.returns_bind.mp h
      cases h
      rw [List.forall_mem_cons] at htimed ⊢
      exact ⟨resumeNode_timed hnode htimed.1, ih hrest htimed.2⟩

theorem retryTarget_timed (nodeId : String) (htimed : node.Timed) :
    (E.retryTarget nodeId node).Timed := by
  unfold retryTarget
  split
  · exact htimed
  · split
    · exact fun hwaiting => by cases hwaiting
    · exact fun hwaiting => by cases hwaiting

theorem retryTarget_id (nodeId : String) : (E.retryTarget nodeId node).id = node.id := by
  unfold retryTarget
  split
  · rfl
  · split <;> rfl

/-- No node waits in a workflow that is cancelled. -/
theorem cancelNode_ne_waiting : (cancelNode node).executionStatus ≠ .waitingApproval := by
  unfold cancelNode
  split
  · exact fun h => by cases h
  · next hleft =>
    rintro heq
    rw [heq] at hleft
    exact hleft (by decide)

theorem cancelNode_id : (cancelNode node).id = node.id := by
  unfold cancelNode
  split <;> rfl

/-- A call that saves the workflow with other nodes, and runs it. -/
theorem startRun_issues (nodes : List WorkflowNode) {eventType role message : String}
    {nodeId : Option String} {make : WorkflowAuditEvent → Workflow}
    (hmake : ∀ event, (make event).nodes = nodes ∧ (make event).status = .running ∧
      (make event).createdBy = workflow.createdBy)
    (hnodup : (nodes.map (·.id)).Nodup) (htimed : ∀ node ∈ nodes, node.Timed)
    (authToken : Option String) :
    (do
      let event ← auditEvent eventType workflow.createdBy role message nodeId
      engineOp (.saveWorkflow (make event))
      E.runWorkflow (make event) role true authToken).Issues ReadsOrderly WritesOrderly
        fun _ => True := by
  refine ((Writes.of_ambient (uses_auditEvent ..)).issues fun _ h => h).bind fun event hevent => ?_
  obtain ⟨hnodes, hstatus, hcreator⟩ := hmake event
  have hdistinct : (make event).nodeIds.Nodup := by
    rw [Workflow.nodeIds, hnodes]
    exact hnodup
  refine ⟨?_, fun _ _ => ?_⟩
  · rintro _ ⟨⟩
    refine ⟨hdistinct, hnodes ▸ htimed, fun _ _ _ => ⟨?_, ?_⟩⟩
    · rw [hstatus]
      exact fun h => by cases h
    · rw [hcreator]
      exact hasLength_of_auditEvent hevent
  · exact runWorkflow_issues (hnodes ▸ htimed) hdistinct ..

/-- Every call writes orderly workflows, if it reads one. -/
theorem serve_issues (call : WorkflowCall) :
    (E.serve call).Issues ReadsOrderly WritesOrderly fun _ => True := by
  cases call with
  | execute workflowId role authToken =>
      refine (getWorkflow_issues workflowId).bind fun workflow h => ?_
      split
      · trivial
      · split
        · trivial
        · exact runWorkflow_issues h.timed h.nodup ..
  | resume workflowId role authToken =>
      refine (getWorkflow_issues workflowId).bind fun workflow h => ?_
      split
      · trivial
      · refine ((Writes.of_ambient (uses_resumeNodes _)).issues fun _ h => h).bind
          fun nodes hnodes => ?_
        -- the nodes that `resume` prepares have the same ids, and deadlines where they wait
        refine startRun_issues nodes ?_ ?_ (resumeNodes_timed hnodes h.timed) authToken
        · exact fun event => ⟨rfl, rfl, rfl⟩
        · rw [resumeNodes_ids hnodes]
          exact h.nodup
  | retryNode workflowId nodeId role authToken =>
      refine (getWorkflow_issues workflowId).bind fun workflow h => ?_
      split
      · trivial
      · refine startRun_issues (workflow.nodes.map (E.retryTarget nodeId)) ?_ ?_ ?_ authToken
        · exact fun event => ⟨rfl, rfl, rfl⟩
        · rw [List.map_map]
          have hids : (fun node => node.id) ∘ E.retryTarget nodeId = fun node => node.id :=
            funext fun node => retryTarget_id nodeId
          rw [hids]
          exact h.nodup
        · intro node hnode
          obtain ⟨old, hold, rfl⟩ := List.mem_map.mp hnode
          exact retryTarget_timed nodeId (h.timed old hold)
  | cancel workflowId role =>
      refine (getWorkflow_issues workflowId).bind fun workflow h => ?_
      refine ((Writes.of_ambient (uses_auditEvent ..)).issues fun _ h => h).bind fun event _ =>
        ⟨?_, fun _ _ => trivial⟩
      rintro _ ⟨⟩
      -- a cancelled node does not wait
      have hidle : ∀ node ∈ workflow.nodes.map cancelNode,
          node.executionStatus ≠ .waitingApproval := by
        intro node hnode
        obtain ⟨old, -, rfl⟩ := List.mem_map.mp hnode
        exact cancelNode_ne_waiting
      refine ⟨?_, fun node hnode hwaiting => absurd hwaiting (hidle node hnode),
        fun node hnode hwaiting => absurd hwaiting (hidle node hnode)⟩
      have hids : (fun node => node.id) ∘ cancelNode = fun node => node.id :=
        funext fun node => cancelNode_id
      rw [Workflow.nodeIds, List.map_map, hids]
      exact h.nodup

/-- In every repository that calls lead to, the workflows are orderly. -/
theorem runCalls_orderly (hs : s.Orderly) (calls : ℕ → WorkflowCall)
    (schedule : List (ℕ × EngineEnv)) : (E.runCalls s calls schedule).state.Orderly := by
  refine interleave_issues_invariant InMemoryWorkflowRepository.Orderly ?_ schedule
    (fun k => E.serve (calls k)) hs (fun k => serve_issues (calls k)) ?_
  · intro o env t ho ht workflowId workflow hstored
    cases hsaved : o.saved with
    | none =>
        rw [state_of_no_save hsaved] at hstored
        exact ht workflowId workflow hstored
    | some new =>
        rw [getWorkflow_of_saves hsaved] at hstored
        split at hstored
        · cases hstored
          exact ho _ hsaved
        · exact ht workflowId workflow hstored
  · intro d hd hbefore
    obtain ⟨newer, older, hpast⟩ := List.append_of_mem hd
    have hreached : Run.From engineSystem s (E.runCalls s calls schedule) :=
      interleave_from schedule _ .start
    obtain ⟨env, hanswer⟩ := (hreached.at_step ⟨newer, hpast.symm⟩).2
    obtain ⟨caller, op, answer, before, after⟩ := d
    cases op with
    | getWorkflow workflowId =>
        intro workflow hread
        exact hbefore workflowId workflow ((congrArg Prod.fst hanswer).trans hread)
    | _ => trivial

end Calls

/-! ## A node that has failed is left alone -/

/-- The workflow has the id, and the node among its nodes. -/
structure Holds (workflowId : UUID) (n : WorkflowNode) (workflow : Workflow) : Prop where
  id : workflow.id = workflowId
  mem : n ∈ workflow.nodes
  nodup : workflow.nodeIds.Nodup

/-- The repository has the workflow, with the node as it is. -/
def Kept (workflowId : UUID) (n : WorkflowNode) (s : InMemoryWorkflowRepository) : Prop :=
  ∃ workflow, s.getWorkflow workflowId = some workflow ∧ Holds workflowId n workflow

section Failed

variable {E : WorkflowPlanningService} {workflowId : UUID} {n : WorkflowNode}
  {workflow : Workflow} {role : String} {authToken : Option String}

theorem frame_holds : Frame (Holds workflowId n) (fun node => node.id ≠ n.id)
    (fun node => node.id ≠ n.id) where
  header := by
    intro workflow new h hid hnodes _ _
    refine ⟨hid.trans h.id, ?_, ?_⟩
    · rw [hnodes]
      exact h.mem
    · rw [Workflow.nodeIds, hnodes]
      exact h.nodup
  put := by
    intro workflow node h hne
    refine ⟨h.id, ?_, ?_⟩
    · rw [replaceNode_eq_putNode h.nodup]
      exact mem_putNode.mpr (.inr ⟨h.mem, hne.symm⟩)
    · rw [Workflow.replaceNode_nodeIds h.nodup]
      exact h.nodup
  kin hne hid := hid ▸ hne
  idle hne _ := hne
  begun hne _ := hne

/-- A run leaves a node alone that is settled when it starts. -/
theorem runWorkflow_holds (h : Holds workflowId n workflow) (hsettled : n.executionStatus.settled)
    {resumed : Bool} :
    Writes (Holds workflowId n) (E.runWorkflow workflow role resumed authToken)
      (Holds workflowId n) := by
  refine frame_holds.runWorkflow_writes h.nodup (fun node hnode => ?_) fun _ _ =>
    ⟨h.id, h.mem, h.nodup⟩
  by_cases hid : node.id = n.id
  · have hsame := List.inj_on_of_nodup_map h.nodup hnode h.mem hid
    rw [hsame]
    exact .inr hsettled
  · exact .inl hid

variable {A κ : Type} {G : McpGateway} {B : ApprovalBackend A} {c : κ}

/-- Only the saves of the engine change the repository. -/
theorem kept_answer {o : WorkflowOp} {env : DeploymentEnv} {s : Deployment A}
    (hsaves : ∀ workflow, o.saved = some workflow → Holds workflowId n workflow)
    (hs : Kept workflowId n s.repository) :
    Kept workflowId n ((deploymentSystem G B).answer o env s).2.repository := by
  have hstored : ∀ new : Workflow, Holds workflowId n new → ∀ outboxEvents, Kept workflowId n
      { workflows := s.repository.workflows.set new.id new, outboxEvents } := fun new hnew _ => by
    refine ⟨new, ?_, hnew⟩
    rw [InMemoryWorkflowRepository.getWorkflow, hnew.id, Dict.get?_set_self]
  cases o with
  | saveWorkflow workflow => exact hstored workflow (hsaves workflow rfl) _
  | saveWorkflowWithEvent workflow event => exact hstored workflow (hsaves workflow rfl) _
  | _ => exact hs

/-- What is saved is in the repository. -/
theorem kept_save (h : Holds workflowId n workflow) (s : InMemoryWorkflowRepository) :
    Kept workflowId n (s.saveWorkflow workflow) := by
  refine ⟨workflow, ?_, h⟩
  rw [InMemoryWorkflowRepository.saveWorkflow, InMemoryWorkflowRepository.getWorkflow, h.id,
    Dict.get?_set_self]

end Failed

/-! ## Resuming after the deadline -/

section Late

variable {E : WorkflowPlanningService} {workflowId : UUID} {n node : WorkflowNode}
  {workflow : Workflow} {role : String} {authToken : Option String} {deadline : Time}

/-- Readings of the clock are not before the deadline. -/
def Late (deadline : Time) : EngineEvent → Prop
  | ⟨.now, answer⟩ => deadline ≤ (answer : Time)
  | _ => True

theorem timeNow_completes : timeNow.Completes (Late deadline) (fun now => deadline ≤ now) :=
  fun _ hnow => hnow

/-- The approval of a waiting node has expired by its deadline. -/
theorem approvalExpired_completes (node : WorkflowNode) :
    (WorkflowPlanningService.approvalExpired node).Completes (Late deadline) fun expired =>
      node.executionStatus = .waitingApproval → node.approvalDeadline = some deadline →
        expired = true := by
  unfold WorkflowPlanningService.approvalExpired
  split
  · next hidle => exact fun hwaiting => absurd hwaiting hidle
  · cases hstarted : node.lastAttemptAt <|> node.startedAt with
    | none =>
        intro _ hdeadline
        rw [WorkflowNode.approvalDeadline, hstarted] at hdeadline
        cases hdeadline
    | some started =>
        refine timeNow_completes.bind fun now hnow _ hdeadline => ?_
        rw [WorkflowNode.approvalDeadline, hstarted] at hdeadline
        cases hdeadline
        exact decide_eq_true hnow

theorem canBeResumed_completes (node : WorkflowNode) :
    (canBeResumed node).Completes (Late deadline) fun _ => True := by
  unfold canBeResumed
  split
  · unfold retryDue
    cases node.nextRetryAt with
    | none => trivial
    | some retryAt => exact timeNow_completes.bind fun _ _ => trivial
  · trivial

/-- A waiting node is given up at its deadline. -/
theorem resumeNode_completes (node : WorkflowNode) :
    (resumeNode node).Completes (Late deadline) fun node' => node'.id = node.id ∧
      (node.executionStatus = .waitingApproval → node.approvalDeadline = some deadline →
        node'.executionStatus = .failed) := by
  refine (approvalExpired_completes node).bind fun expired hexpired => ?_
  split
  · exact timeNow_completes.bind fun now _ => ⟨rfl, fun _ _ => rfl⟩
  · next hopen =>
    have hkept : node.executionStatus = .waitingApproval → node.approvalDeadline = some deadline →
        node.executionStatus = .failed := fun hwaiting hdeadline =>
      absurd (hexpired hwaiting hdeadline) hopen
    split
    · next hstatus =>
      refine (canBeResumed_completes node).bind fun resumed _ => ?_
      split
      · refine ⟨rfl, fun hwaiting hdeadline => ?_⟩
        exact absurd (hexpired hwaiting hdeadline) hopen
      · exact ⟨rfl, hkept⟩
    · exact ⟨rfl, hkept⟩

theorem resumeNodes_completes (nodes : List WorkflowNode) :
    (resumeNodes nodes).Completes (Late deadline) fun nodes' =>
      nodes'.map (·.id) = nodes.map (·.id) ∧ ∀ n ∈ nodes,
        n.executionStatus = .waitingApproval → n.approvalDeadline = some deadline →
          ∃ failed ∈ nodes', failed.id = n.id ∧ failed.executionStatus = .failed := by
  induction nodes with
  | nil => exact ⟨rfl, fun n hn => by cases hn⟩
  | cons node rest ih =>
      refine (resumeNode_completes node).bind fun node' hnode => ?_
      refine ih.bind fun rest' hrest => ⟨?_, ?_⟩
      · rw [List.map_cons, List.map_cons, hnode.1, hrest.1]
      · intro n hn hwaiting hdeadline
        rcases List.mem_cons.mp hn with rfl | hn
        · exact ⟨node', List.mem_cons_self .., hnode.1, hnode.2 hwaiting hdeadline⟩
        · obtain ⟨failed, hmem, hfailed⟩ := hrest.2 n hn hwaiting hdeadline
          exact ⟨failed, List.mem_cons_of_mem _ hmem, hfailed⟩

/-- An audit event is made of texts that fit. -/
theorem auditEvent_completes {eventType actor message : String}
    (hlengths : hasLength 1 120 eventType ∧ hasLength 1 160 actor ∧ hasLength 1 64 role ∧
      hasLength 1 600 message) :
    (auditEvent eventType actor role message none).Completes (Late deadline) fun _ => True := by
  refine timeNow_completes.bind fun timestamp _ => ?_
  rw [if_pos ⟨hlengths.1, hlengths.2.1, hlengths.2.2.1, hlengths.2.2.2, rfl⟩]
  trivial

variable {A κ : Type} {G : McpGateway} {B : ApprovalBackend A} {c : κ}

/-- The deployment at and after the deadline of the engine. -/
abbrev lateSystem (G : McpGateway) (B : ApprovalBackend A) (deadline : Time) :=
  (deploymentSystem G B).restrict fun env => deadline ≤ env.clock

/-- Code that only looks at the clock and makes ids comes to its end in the state that it has
found. -/
theorem keeps_of_completes {α : Type} {p : EngineM α} {post : α → Prop}
    (h : p.Completes (Late deadline) post) (hp : p.Uses Ambient)
    (r : Run engineInterface κ (Deployment A)) :
    p.Keeps (lateSystem G B deadline) c (fun _ => True)
      (fun res r' => r'.state = r.state ∧ ∃ a, res = .ok a ∧ post a) r := by
  refine h.keeps hp (fun o env s ho => ?_) (fun o env s ho => ?_) r
  · cases o with
    | now => exact env.2
    | uuid4 => trivial
    | _ => exact ho.elim
  · cases o with
    | now => rfl
    | uuid4 => rfl
    | _ => exact ho.elim

theorem runWorkflow_kept (h : Holds workflowId n workflow)
    (hsettled : n.executionStatus.settled) {resumed : Bool}
    {r : Run engineInterface κ (Deployment A)} (hr : Kept workflowId n r.state.repository) :
    (E.runWorkflow workflow role resumed authToken).Keeps (lateSystem G B deadline) c
      (fun _ => True) (fun _ r' => Kept workflowId n r'.state.repository) r :=
  ((runWorkflow_holds h hsettled).uses.keeps (fun _ _ _ hsaves hr => kept_answer hsaves hr)
    hr).weaken fun _ _ => trivial

/-- The repository has the workflow with a failed node of the id. -/
def HasFailed (workflowId : UUID) (nodeId : String) (s : InMemoryWorkflowRepository) : Prop :=
  ∃ failed : WorkflowNode, failed.id = nodeId ∧ failed.executionStatus = .failed ∧
    Kept workflowId failed s

/-- After its deadline, a waiting node is given up by `resume`, and it is left so. -/
theorem resume_fails {r : Run engineInterface κ (Deployment A)}
    (hstored : r.state.repository.getWorkflow workflowId = some workflow)
    (hid : workflow.id = workflowId) (horderly : workflow.Orderly) (hn : n ∈ workflow.nodes)
    (hwaiting : n.executionStatus = .waitingApproval)
    (hdeadline : n.approvalDeadline = some deadline)
    (hrole : hasLength 1 64 role) (authToken : Option String) :
    (E.resume workflowId role authToken).Keeps (lateSystem G B deadline) c (fun _ => True)
      (fun _ r' => HasFailed workflowId n.id r'.state.repository) r := by
  obtain ⟨hlive, hcreator⟩ := horderly.live n hn hwaiting
  have hget : (getWorkflow workflowId).Keeps (lateSystem G B deadline) c (fun _ => True)
      (fun res r' => r'.state = r.state ∧ res = .ok workflow) r := by
    intro env
    refine ⟨trivial, ?_⟩
    have hanswer : ((lateSystem G B deadline).answer (.getWorkflow workflowId) env r.state).1 =
        some workflow := hstored
    rw [hanswer]
    exact ⟨rfl, rfl⟩
  refine Procedure.keeps_bind.mpr (hget.imp trivial ?_)
  rintro _ r₁ - ⟨hstate₁, rfl⟩
  dsimp only [Procedure.andThen]
  rw [if_neg hlive]
  -- the waiting node is given up
  refine Procedure.keeps_bind.mpr ((keeps_of_completes (resumeNodes_completes workflow.nodes)
    (uses_resumeNodes workflow.nodes) r₁).imp trivial ?_)
  rintro _ r₂ - ⟨-, nodes, rfl, hids, hgiven⟩
  obtain ⟨failed, hfailed, hsame, hstatus⟩ := hgiven n hn hwaiting hdeadline
  dsimp only [Procedure.andThen]
  have hlengths : hasLength 1 120 "workflow.resume_requested" ∧
      hasLength 1 160 workflow.createdBy ∧ hasLength 1 64 role ∧
        hasLength 1 600 "Workflow resume requested from persisted checkpoint." :=
    ⟨by decide, hcreator, hrole, by decide⟩
  refine Procedure.keeps_bind.mpr ((keeps_of_completes (auditEvent_completes hlengths)
    (uses_auditEvent ..) r₂).imp trivial ?_)
  rintro _ r₃ - ⟨-, event, rfl, -⟩
  -- what is saved has the failed node, and the run leaves it alone
  intro env
  refine ⟨trivial, ?_⟩
  have hholds : Holds workflowId failed
      { workflow with
        status := .running
        version := workflow.version + 1
        nodes
        auditEvents := workflow.auditEvents ++ [event] } := by
    refine ⟨hid, hfailed, ?_⟩
    rw [Workflow.nodeIds, hids]
    exact horderly.nodup
  have hsettled : failed.executionStatus.settled := by
    rw [hstatus]
    rfl
  refine (runWorkflow_kept hholds hsettled (kept_save hholds _)).imp trivial ?_
  exact fun _ _ _ hkept => ⟨failed, hsame, hstatus, hkept⟩

end Late

/-! ## Waiting through calls of `resume` -/

/-- Calls of `resume`, one after another: the role, the token and what each one takes from
outside.  A call ends where that does. -/
abbrev ResumeCalls := List ((String × Option String) × List DeploymentEnv)

/-- The history of the calls. -/
def resumeAll {A : Type} (E : WorkflowPlanningService) (G : McpGateway) (B : ApprovalBackend A)
    (workflowId : UUID) (calls : ResumeCalls)
    (r : Run engineInterface (String × Option String) (Deployment A)) :
    Run engineInterface (String × Option String) (Deployment A) :=
  session (deploymentSystem G B) (fun call => E.resume workflowId call.1 call.2) calls r

/-- Whether the node of the id waits for the approval. -/
def InMemoryWorkflowRepository.waitsFor (s : InMemoryWorkflowRepository) (workflowId : UUID)
    (nodeId : String) (approvalId : UUID) : Bool :=
  (s.getWorkflow workflowId).any fun workflow => workflow.nodes.any fun node =>
    node.id = nodeId ∧ node.executionStatus = .waitingApproval ∧ node.approvalId = some approvalId

/-- A node waits for an approval whose record the gateway holds as pending. -/
structure WaitsOn {A : Type} (B : ApprovalBackend A) (s : Deployment A) (workflowId : UUID)
    (nodeId : String) (record : ApprovalRecord) : Prop where
  node : s.repository.waitsFor workflowId nodeId record.approvalId
  held : (B.ledger s.gateway.approvals).record record.approvalId = some record
  pending : record.status = .pending

/-- The node waits for the same approval after any number of calls of `resume`, as long as the
record has not expired on the clock of the gateway.  Only from such a state a later approval could
let a call of `resume` execute the tool. -/
def Survives {A : Type} (E : WorkflowPlanningService) (G : McpGateway) (B : ApprovalBackend A)
    (s : Deployment A) (workflowId : UUID) (nodeId : String) (record : ApprovalRecord) : Prop :=
  ∀ calls : ResumeCalls,
    (∀ call ∈ calls, ∀ env ∈ call.2, ∀ i, (env.gateway i).clock < record.expiresAt) →
      (resumeAll E G B workflowId calls (Run.start s)).state.repository.waitsFor workflowId nodeId
        record.approvalId

/-- The same where the engine and the gateway read one clock. -/
def SurvivesOnOneClock {A : Type} (E : WorkflowPlanningService) (G : McpGateway)
    (B : ApprovalBackend A) (s : Deployment A) (workflowId : UUID) (nodeId : String)
    (record : ApprovalRecord) : Prop :=
  ∀ calls : ResumeCalls,
    (∀ call ∈ calls, ∀ env ∈ call.2, env.clock < record.expiresAt ∧
      ∀ i, (env.gateway i).clock = env.clock) →
      (resumeAll E G B workflowId calls (Run.start s)).state.repository.waitsFor workflowId nodeId
        record.approvalId

/-- Whether the engine gives the node of the id up before `time`. -/
def InMemoryWorkflowRepository.dueBefore (s : InMemoryWorkflowRepository) (workflowId : UUID)
    (nodeId : String) (time : Time) : Bool :=
  (s.getWorkflow workflowId).all fun workflow => workflow.nodes.all fun node =>
    node.id = nodeId → node.approvalDeadline.all (· < time)

theorem not_waitsFor_of_hasFailed {s : InMemoryWorkflowRepository} {workflowId : UUID}
    {nodeId : String} (h : HasFailed workflowId nodeId s) (approvalId : UUID) :
    ¬ s.waitsFor workflowId nodeId approvalId := by
  intro hwaits
  obtain ⟨failed, hid, hstatus, workflow, hstored, hholds⟩ := h
  rw [InMemoryWorkflowRepository.waitsFor, hstored, Option.any_some] at hwaits
  obtain ⟨node, hnode, hwaiting⟩ := List.any_eq_true.mp hwaits
  obtain ⟨hsame, hwaits, -⟩ := of_decide_eq_true hwaiting
  have heq := List.inj_on_of_nodup_map hholds.nodup hnode hholds.mem (hsame.trans hid.symm)
  rw [heq, hstatus] at hwaits
  cases hwaits

section Reached

variable {E : WorkflowPlanningService} {s₀ : InMemoryWorkflowRepository}

/-- What accepted workflows without a waiting node come to is orderly. -/
theorem runCalls_orderly_of_idle (hs : E.AcceptsAll s₀) (hidle : ∀ workflowId workflow,
      s₀.getWorkflow workflowId = some workflow → ∀ node ∈ workflow.nodes,
        node.executionStatus ≠ .waitingApproval)
    (calls : ℕ → WorkflowCall) (schedule : List (ℕ × EngineEnv)) :
    ∀ workflowId workflow, (E.runCalls s₀ calls schedule).state.getWorkflow workflowId =
      some workflow → workflow.id = workflowId ∧ workflow.Orderly := by
  have hstart : s₀.Orderly := fun workflowId workflow hstored => by
    refine ⟨(hs.sound workflowId workflow hstored).2.nodup, ?_, ?_⟩
    · exact fun node hnode hwaits => absurd hwaits (hidle workflowId workflow hstored node hnode)
    · exact fun node hnode hwaits => absurd hwaits (hidle workflowId workflow hstored node hnode)
  intro workflowId workflow hstored
  have hid := ((runCalls_traced hs.sound calls schedule).sound_state workflowId workflow hstored).1
  exact ⟨hid, runCalls_orderly hstart calls schedule workflowId workflow hstored⟩

variable {A : Type} {s : Deployment A} {workflowId : UUID} {workflow : Workflow} {n : WorkflowNode}
  {deadline : Time}

/-- One complete call of `resume` in surroundings at the deadline or later ends the waiting. -/
theorem exists_resume_not_waitsFor (G : McpGateway) (B : ApprovalBackend A)
    (hstored : s.repository.getWorkflow workflowId = some workflow)
    (hid : workflow.id = workflowId) (horderly : workflow.Orderly) (hn : n ∈ workflow.nodes)
    (hstatus : n.executionStatus = .waitingApproval)
    (hdeadline : n.approvalDeadline = some deadline)
    {env : DeploymentEnv} (hlate : deadline ≤ env.clock) (approvalId : UUID) :
    ∃ calls : ResumeCalls, (∀ call ∈ calls, ∀ env' ∈ call.2, env' = env) ∧
      ¬ (resumeAll E G B workflowId calls (Run.start s)).state.repository.waitsFor workflowId n.id
        approvalId := by
  let late : {env : DeploymentEnv // deadline ≤ env.clock} := ⟨env, hlate⟩
  have hrole : hasLength 1 64 "ENGINEER" := by decide
  let call : String × Option String := ("ENGINEER", none)
  have hkeeps : (E.resume workflowId call.1 call.2).Keeps (lateSystem G B deadline) call
      (fun _ => True) (fun _ r => HasFailed workflowId n.id r.state.repository) (Run.start s) :=
    resume_fails hstored hid horderly hn hstatus hdeadline hrole call.2
  have hfails := hkeeps.run fun _ => late
  rw [Procedure.run_restrict] at hfails
  -- a call that runs to its end takes finitely many readings
  obtain ⟨count, hexec⟩ := Procedure.exists_exec_eq_run (deploymentSystem G B) call
    (E.resume workflowId call.1 call.2) (fun _ => late.1) (Run.start s)
  rw [← hexec] at hfails
  refine ⟨[(call, (List.range count).map fun _ => late.1)], ?_,
    not_waitsFor_of_hasFailed hfails approvalId⟩
  intro call hcall env' henv
  rw [List.mem_singleton.mp hcall] at henv
  obtain ⟨_, -, rfl⟩ := List.mem_map.mp henv
  rfl

end Reached

/-- Waiting never survives.  Whatever calls have led to a node that waits for a pending approval,
the first call of `resume` after the deadline of the node makes it fail, also on one clock if the
deadline comes before the record expires. -/
theorem waiting_never_survives {E : WorkflowPlanningService} {s₀ : InMemoryWorkflowRepository}
    (hs : E.AcceptsAll s₀) (hidle : ∀ workflowId workflow,
      s₀.getWorkflow workflowId = some workflow → ∀ node ∈ workflow.nodes,
        node.executionStatus ≠ .waitingApproval)
    (calls : ℕ → WorkflowCall) (schedule : List (ℕ × EngineEnv)) {A : Type} (G : McpGateway)
    (B : ApprovalBackend A) {s : Deployment A}
    (hreached : s.repository = (E.runCalls s₀ calls schedule).state) {workflowId : UUID}
    {nodeId : String} {record : ApprovalRecord}
    (hwaits : WaitsOn B s workflowId nodeId record) :
    ¬ Survives E G B s workflowId nodeId record ∧
      (s.repository.dueBefore workflowId nodeId record.expiresAt →
        ¬ SurvivesOnOneClock E G B s workflowId nodeId record) := by
  obtain ⟨workflow, hstored, hany⟩ := (Option.any_eq_true ..).mp hwaits.node
  obtain ⟨n, hn, hwaiting⟩ := List.any_eq_true.mp hany
  obtain ⟨rfl, hstatus, -⟩ := of_decide_eq_true hwaiting
  obtain ⟨hid, horderly⟩ :=
    runCalls_orderly_of_idle hs hidle calls schedule workflowId workflow (hreached ▸ hstored)
  obtain ⟨deadline, hdeadline⟩ := Option.isSome_iff_exists.mp (horderly.timed n hn hstatus)
  constructor
  · -- one call at the deadline, with the gateway's clock before `expires_at`
    intro hsurvives
    let env : DeploymentEnv :=
      ⟨deadline, 0, fun _ => { Env.at 0 with clock := record.expiresAt - 1 }⟩
    obtain ⟨calls, henvs, hended⟩ := exists_resume_not_waitsFor (E := E) G B hstored hid horderly hn
      hstatus hdeadline (le_refl env.clock) record.approvalId
    refine hended (hsurvives calls fun call hcall env' henv i => ?_)
    rw [henvs call hcall env' henv]
    exact sub_one_lt record.expiresAt
  · -- one call at the deadline for both
    intro hdue hsurvives
    have hbefore : deadline < record.expiresAt := by
      rw [InMemoryWorkflowRepository.dueBefore, hstored, Option.all_some] at hdue
      have hnode := of_decide_eq_true (List.all_eq_true.mp hdue n hn) rfl
      rw [hdeadline, Option.all_some] at hnode
      exact of_decide_eq_true hnode
    let env : DeploymentEnv := ⟨deadline, 0, fun _ => { Env.at 0 with clock := deadline }⟩
    obtain ⟨calls, henvs, hended⟩ := exists_resume_not_waitsFor (E := E) G B hstored hid horderly hn
      hstatus hdeadline (le_refl env.clock) record.approvalId
    refine hended (hsurvives calls fun call hcall env' henv => ?_)
    rw [henvs call hcall env' henv]
    exact ⟨hbefore, fun _ => rfl⟩

/-! ### A restart that waits -/

section Deployed

variable {A κ : Type} (G : McpGateway) (B : ApprovalBackend A)

/-- The surroundings in which the engine alone is answered as in a deployment. -/
theorem exists_answer_alike (o : WorkflowOp) (env : DeploymentEnv) (s : Deployment A) :
    ∃ e : EngineEnv,
      (engineSystem.answer o e s.repository).1 = ((deploymentSystem G B).answer o env s).1 ∧
        (engineSystem.answer o e s.repository).2 =
          ((deploymentSystem G B).answer o env s).2.repository := by
  cases o with
  | callTool request =>
      exact ⟨⟨env.clock, env.freshId, (G.serveClient B request env.gateway s.gateway).1⟩, rfl, rfl⟩
  | _ => exact ⟨⟨env.clock, env.freshId, .error (.other "" "")⟩, rfl, rfl⟩

/-- What a call makes of the repository of a deployment, it makes of the repository with some
answers of the gateway. -/
theorem exists_schedule_of_exec (p : EngineM Workflow) (c : κ) (is : List DeploymentEnv)
    (r : Run engineInterface κ (Deployment A)) (pool : ℕ → EngineM Workflow) (k : ℕ)
    (hpool : pool k = p) (q : EngineRun) (hq : q.state = r.state.repository) :
    ∃ schedule, (interleave engineSystem pool schedule q).2.state =
      (p.exec (deploymentSystem G B) c is r).2.state.repository := by
  induction p generalizing is r pool q with
  | pure a => exact ⟨[], hq⟩
  | raise e => exact ⟨[], hq⟩
  | call o next ih =>
      cases is with
      | nil => exact ⟨[], hq⟩
      | cons env is =>
          obtain ⟨e, hanswer, hstate⟩ := exists_answer_alike G B o env r.state
          rw [← hq] at hanswer hstate
          obtain ⟨schedule, hrest⟩ := ih ((deploymentSystem G B).answer o env r.state).1 is
            (r.perform (deploymentSystem G B) c o env)
            (Function.update pool k (next (engineSystem.answer o e q.state).1))
            (by rw [Function.update_self, hanswer]) (q.perform engineSystem k o e) hstate
          refine ⟨(k, e) :: schedule, ?_⟩
          rw [interleave, hpool]
          exact hrest

/-- One call of the engine in a deployment leaves the repository as some run of the engine alone. -/
theorem exists_runCalls_of_exec (E : WorkflowPlanningService) (c : κ) (call : WorkflowCall)
    (is : List DeploymentEnv) (s : Deployment A) : ∃ schedule,
      (((E.serve call).exec (deploymentSystem G B) c is (Run.start s)).2.state).repository =
        (E.runCalls s.repository (fun _ => call) schedule).state := by
  obtain ⟨schedule, hstate⟩ := exists_schedule_of_exec G B (E.serve call) c is (Run.start s)
    (fun _ => E.serve call) 0 rfl (Run.start s.repository) rfl
  exact ⟨schedule, hstate.symm⟩

end Deployed

/-- A node that restarts a device. -/
def restartNode : WorkflowNode where
  id := "restart"
  toolName := "restart_device"
  toolServer := "device-mcp"
  description := "Restart the device."
  arguments := [("device_id", .str "dev-1")]
  riskLevel := "HIGH"
  id_length := restartId_length

/-- A plan that restarts a device. -/
def restartOnce : WorkflowPlanDraft := smallDraft [restartNode]

/-- The plan has been executed at second 100 and waits for the record that was made for it. -/
def waitingRestart : Deployment ApprovalStore :=
  ((WorkflowPlanningService.small.serve (.execute 5 "OPERATOR" none)).exec
    (deploymentSystem .small ApprovalStore.backend) () (DeploymentEnv.steps 100 27)
      (Run.start { repository := .holding restartOnce, gateway := .inMemory })).2.state

theorem waitingRestart_reached : ∃ schedule, waitingRestart.repository =
    (WorkflowPlanningService.small.runCalls (.holding restartOnce)
      (fun _ => .execute 5 "OPERATOR" none) schedule).state := by
  unfold waitingRestart
  exact exists_runCalls_of_exec .small ApprovalStore.backend .small ()
    (.execute 5 "OPERATOR" none) (DeploymentEnv.steps 100 27)
    { repository := .holding restartOnce, gateway := .inMemory }

theorem restartOnce_idle (workflowId : UUID) (workflow : Workflow)
    (hstored : (InMemoryWorkflowRepository.holding restartOnce).getWorkflow workflowId =
      some workflow) :
    ∀ node ∈ workflow.nodes, node.executionStatus ≠ .waitingApproval := by
  have hall : (InMemoryWorkflowRepository.holding restartOnce).workflows.values.all
      fun workflow => workflow.nodes.all fun node =>
        node.executionStatus ≠ WorkflowNodeStatus.waitingApproval := by
    rfl
  intro node hnode
  have hnodes := List.all_eq_true.mp hall workflow (Dict.mem_values.mpr ⟨workflowId, hstored⟩)
  exact of_decide_eq_true (List.all_eq_true.mp hnodes node hnode)

/-- The workflow waits, and the record is pending for an hour. -/
theorem waitingRestart_waits : ∃ record, WaitsOn ApprovalStore.backend waitingRestart 5 "restart"
    record ∧ record.expiresAt = seconds 3700 := by
  have hwaits : waitingRestart.repository.waitsFor 5 "restart" 100 ∧
      ((ApprovalStore.backend.ledger waitingRestart.gateway.approvals).record 100).any fun record =>
        record.approvalId = 100 ∧ record.status = .pending ∧ record.expiresAt = seconds 3700 := by
    decide +kernel
  obtain ⟨hnode, hrecord⟩ := hwaits
  obtain ⟨record, hheld, hfields⟩ := (Option.any_eq_true ..).mp hrecord
  obtain ⟨hid, hpending, hexpires⟩ := of_decide_eq_true hfields
  refine ⟨record, ⟨?_, ?_, hpending⟩, hexpires⟩
  · rw [hid]
    exact hnode
  · rw [hid]
    exact hheld

theorem waiting_never_survives_restart : ∃ record,
    WaitsOn ApprovalStore.backend waitingRestart 5 "restart" record ∧
      ¬ Survives .small .small ApprovalStore.backend waitingRestart 5 "restart" record ∧
        ¬ SurvivesOnOneClock .small .small ApprovalStore.backend waitingRestart 5 "restart"
          record := by
  obtain ⟨record, hwaits, hexpires⟩ := waitingRestart_waits
  obtain ⟨schedule, hreached⟩ := waitingRestart_reached
  have hdue : waitingRestart.repository.dueBefore 5 "restart" (seconds 3700) := by
    decide +kernel
  obtain ⟨hends, htogether⟩ := waiting_never_survives (acceptsAll_holding restartOnce)
    restartOnce_idle (fun _ => .execute 5 "OPERATOR" none) schedule .small ApprovalStore.backend
      hreached hwaits
  rw [hexpires] at htogether
  exact ⟨record, hwaits, hends, htogether hdue⟩

/-- The gateway refuses what `resume` submits for a pending record, and the node has failed, even
before its deadline. -/
theorem pending_restart_fails :
    ¬ ∀ (E : WorkflowPlanningService) (s₀ : InMemoryWorkflowRepository) (calls : ℕ → WorkflowCall)
      (schedule : List (ℕ × EngineEnv)) (A : Type) (G : McpGateway) (B : ApprovalBackend A)
      (s : Deployment A) (workflowId : UUID) (nodeId : String) (record : ApprovalRecord)
      (resumes : ResumeCalls), E.AcceptsAll s₀ →
        s.repository = (E.runCalls s₀ calls schedule).state →
        WaitsOn B s workflowId nodeId record →
        (∀ call ∈ resumes, ∀ env ∈ call.2, env.clock < record.expiresAt ∧
          ∀ i, (env.gateway i).clock < record.expiresAt) →
        (resumeAll E G B workflowId resumes (Run.start s)).state.repository.waitsFor workflowId
          nodeId record.approvalId := by
  intro hclaim
  obtain ⟨record, hwaits, hexpires⟩ := waitingRestart_waits
  obtain ⟨schedule, hreached⟩ := waitingRestart_reached
  -- the waiting record is still pending when `resume` runs
  have hwaiting := hclaim .small (.holding restartOnce)
    (fun _ => .execute 5 "OPERATOR" none) schedule
    ApprovalStore .small ApprovalStore.backend waitingRestart 5 "restart" record
    [(("OPERATOR", none), DeploymentEnv.steps 105 39)] (acceptsAll_holding restartOnce) hreached
    hwaits fun call hcall env henv => by
      rw [List.mem_singleton] at hcall
      subst hcall
      rw [List.eq_of_mem_replicate henv, hexpires]
      have hopen : seconds 105 < seconds 3700 := by decide
      exact ⟨hopen, fun _ => hopen⟩
  -- in that run the node has failed
  have hfailed : ((resumeAll .small .small ApprovalStore.backend 5
      [(("OPERATOR", none), DeploymentEnv.steps 105 39)]
        (Run.start waitingRestart)).state.repository.getWorkflow 5).all fun workflow =>
          workflow.nodes.all fun node =>
            node.executionStatus ≠ WorkflowNodeStatus.waitingApproval := by
    decide +kernel
  obtain ⟨workflow, hstored, hany⟩ := (Option.any_eq_true ..).mp hwaiting
  obtain ⟨node, hnode, hwaits⟩ := List.any_eq_true.mp hany
  rw [hstored, Option.all_some] at hfailed
  exact of_decide_eq_true (List.all_eq_true.mp hfailed node hnode) (of_decide_eq_true hwaits).2.1

end McpOps
