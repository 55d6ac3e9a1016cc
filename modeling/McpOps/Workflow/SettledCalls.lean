import McpOps.Workflow.History

/-!
# Calls that return

What a call needs so that nothing it raises escapes.  Under it `execute`, `resume` and `retry_node`
return what is stored, with no node that is still being worked on.

The condition has two halves, and both speak of what a call reads, not of what it computes.

* `Fair`: the gateway client raises only what `_execute_node_with_recovery` catches, and nothing
  where a node is compensated, since no handler is around that call.
* `Runnable`: no model is built, and no comparison made, outside its limits.

## Strategy

`Succeeds` goes with the code from the inside out, one lemma for each function of the source, and
says that a function returns and what of.

* The attempt: `succeeds_executeNode` and `succeeds_responseOf` give an answer, whatever the client
  does within `Fair`; `succeeds_failNode` needs `compensationAnswered` in its compensating branch
  only.
* The loop: a node that the run has still to come to is `Expected`, that is `Attemptable` and with
  the compensation tool of the node that was read, and `succeeds_runNodes` takes the turns one after
  another.
* The operations: `succeeds_resumeNodes` and its like prepare the nodes, and `succeeds_serve` is the
  result for one call.

`runCall_returns` runs such a call on a repository.  As it ends at rest, the next one may begin, and
`calls_returnAtRest` is the induction over a sequence of calls.
-/

namespace McpOps

open Proc

/-! ## What the gateway client may do -/

/-- A request with the arguments of a compensation, for the compensation tool of a node. -/
def Workflow.Compensates (workflow : Workflow) (request : GatewayToolRequest) : Prop :=
  request.arguments.map Prod.fst = ["workflow_id", "failed_node_id", "result_reference"] ∧
    ∃ node ∈ workflow.nodes, request.workflowNodeId = some node.id ∧
      node.compensationTool = some request.toolName

instance (workflow : Workflow) (request : GatewayToolRequest) :
    Decidable (workflow.Compensates request) := inferInstanceAs (Decidable (_ ∧ _))

namespace EngineEvent

/-- The gateway client answers, or raises a `TimeoutError`, `ConnectionError` or `RuntimeError`. -/
def answered : EngineEvent → Bool
  | ⟨.callTool _, .error (.other ..)⟩ => false
  | _ => true

/-- The gateway client raises nothing when a node of the workflow is compensated. -/
def compensationAnswered (workflow : Workflow) : EngineEvent → Bool
  | ⟨.callTool request, .error _⟩ => ¬ workflow.Compensates request
  | _ => true

/-- The answers that a call gets which reads `workflow`. -/
structure Fair (workflow : Workflow) (e : EngineEvent) : Prop where
  read : ∀ workflowId, e.1 = .getWorkflow workflowId → got e = some workflow
  answered : answered e
  compensation : compensationAnswered workflow e

end EngineEvent

/-! ## What a call may find -/

namespace WorkflowCall

/-- The role that a call names. -/
def role : WorkflowCall → String
  | .execute _ role _ => role
  | .resume _ role _ => role
  | .retryNode _ _ role _ => role
  | .cancel _ role => role

/-- The token that a call hands on. -/
def authToken : WorkflowCall → Option String
  | .execute _ _ authToken => authToken
  | .resume _ _ authToken => authToken
  | .retryNode _ _ _ authToken => authToken
  | .cancel .. => none

/-- The node that is to be retried. -/
def target? : WorkflowCall → Option String
  | .retryNode _ nodeId _ _ => some nodeId
  | _ => none

end WorkflowCall

/-- A comparison of the condition raises no `TypeError`. -/
def WorkflowCondition.comparable (condition : WorkflowCondition) : Bool :=
  condition.operator ≠ .contains || condition.value matches .str _

/-- The idempotency key of the next attempt at a node. -/
def WorkflowNode.nextKey (node : WorkflowNode) : String :=
  { node with attempts := node.attempts + 1 }.idempotencyKey

/-- The condition, the policy and the request of a node stay within their limits. -/
structure Attemptable (E : WorkflowPlanningService) (call : WorkflowCall) (workflow : Workflow)
    (node : WorkflowNode) : Prop where
  condition : node.typedCondition.all WorkflowCondition.comparable
  evaluates : ∀ now, ∃ evaluation, E.policyEvaluator.evaluate node workflow.createdBy call.role
    workflow.targetEnvironment .execution now = .ok evaluation
  request : E.policyEvaluator.decides node call.role workflow.targetEnvironment .execution ∈
      [PolicyDecision.allow, .allowWithApproval] →
    hasLength 1 128 node.toolName ∧ hasLength 8 160 node.nextKey

/-- A call stays within the limits of everything that it builds and compares. -/
structure Runnable (E : WorkflowPlanningService) (call : WorkflowCall) (workflow : Workflow) :
    Prop where
  createdBy : hasLength 1 160 workflow.createdBy
  role : hasLength 1 64 call.role
  authToken : call.authToken.all fun token => token = "" || 8 ≤ token.length
  target : call.target?.all fun nodeId => nodeId ∈ workflow.nodeIds
  nodes : ∀ node ∈ workflow.nodes, E.takesUp call node → Attemptable E call workflow node

/-- Whether a policy can be evaluated does not depend on the clock. -/
theorem WorkflowPolicyEvaluator.evaluate_at {P : WorkflowPolicyEvaluator} {node : WorkflowNode}
    {actor role environment : String} {phase : PolicyPhase} {now : Time}
    (h : (P.evaluate node actor role environment phase now).toOption.isSome) (later : Time) :
    ∃ evaluation, P.evaluate node actor role environment phase later = .ok evaluation := by
  unfold evaluate at h ⊢
  dsimp only at h ⊢
  split at h
  · rename_i hlimits
    rw [if_pos hlimits]
    exact ⟨_, rfl⟩
  · cases h

theorem WorkflowPolicyEvaluator.isSome_of_evaluate
    {res : Except EngineError WorkflowPolicyEvaluation}
    (h : ∃ evaluation, res = .ok evaluation) : res.toOption.isSome := by
  obtain ⟨evaluation, rfl⟩ := h
  rfl

instance (E : WorkflowPlanningService) (call : WorkflowCall) (workflow : Workflow)
    (node : WorkflowNode) : Decidable (Attemptable E call workflow node) :=
  decidable_of_iff (node.typedCondition.all WorkflowCondition.comparable ∧
    (E.policyEvaluator.evaluate node workflow.createdBy call.role workflow.targetEnvironment
      .execution 0).toOption.isSome ∧
    (E.policyEvaluator.decides node call.role workflow.targetEnvironment .execution ∈
      [PolicyDecision.allow, .allowWithApproval] → hasLength 1 128 node.toolName ∧
        hasLength 8 160 node.nextKey))
    ⟨fun h => ⟨h.1, WorkflowPolicyEvaluator.evaluate_at h.2.1, h.2.2⟩,
      fun h => ⟨h.condition, WorkflowPolicyEvaluator.isSome_of_evaluate (h.evaluates 0),
        h.request⟩⟩

instance (E : WorkflowPlanningService) (call : WorkflowCall) (workflow : Workflow) :
    Decidable (Runnable E call workflow) :=
  decidable_of_iff (hasLength 1 160 workflow.createdBy ∧ hasLength 1 64 call.role ∧
    (call.authToken.all fun token => token = "" || 8 ≤ token.length) ∧
    (call.target?.all fun nodeId => nodeId ∈ workflow.nodeIds) ∧
    ∀ node ∈ workflow.nodes, E.takesUp call node → Attemptable E call workflow node)
    ⟨fun h => ⟨h.1, h.2.1, h.2.2.1, h.2.2.2.1, h.2.2.2.2⟩,
      fun h => ⟨h.createdBy, h.role, h.authToken, h.target, h.nodes⟩⟩

/-! ## The building blocks return -/

section Blocks

variable {read : Workflow} {α β : Type}

/-- `Q` holds of what `p` returns, and `p` returns. -/
abbrev Succeeds (read : Workflow) (Q : α → Prop) (p : EngineM α) : Prop :=
  p.Completes (EngineEvent.Fair read) Q

theorem succeeds_timeNow {Q : β → Prop} {f : Time → EngineM β}
    (h : ∀ now, Succeeds read Q (f now)) : Succeeds read Q (timeNow >>= f) := fun now _ => h now

theorem succeeds_auditEvent {eventType actor role message : String} {nodeId : Option String}
    (htype : hasLength 1 120 eventType) (hactor : hasLength 1 160 actor)
    (hrole : hasLength 1 64 role) (hmessage : hasLength 1 600 message)
    (hnodeId : nodeId.all (hasLength 0 120)) :
    Succeeds read (fun _ => True) (auditEvent eventType actor role message nodeId) := by
  refine succeeds_timeNow fun now => ?_
  rw [if_pos ⟨htype, hactor, hrole, hmessage, hnodeId⟩]
  trivial

/-- A checkpoint returns the workflow with the next version. -/
theorem succeeds_checkpoint (workflow : Workflow) (eventType : String) (nodeId : Option String) :
    Succeeds read (fun out => out = { workflow with version := workflow.version + 1 })
      (checkpoint workflow eventType nodeId) :=
  fun _ _ _ _ _ _ _ _ => rfl

theorem succeeds_saveNode (workflow : Workflow) (node : WorkflowNode) (eventType : String) :
    Succeeds read (fun out => out.createdBy = workflow.createdBy)
      (WorkflowPlanningService.saveNode workflow node eventType) :=
  (succeeds_checkpoint _ _ _).imp fun out hout => by rw [hout]; rfl

theorem nodeId_length (node : WorkflowNode) : (some node.id).all (hasLength 0 120) := by
  simp [hasLength, node.id_length.2]

/-- A text of at most `room` characters between two others. -/
theorem hasLength_append (before text after : String) {room most : ℕ}
    (htext : text.length ≤ room) (hbefore : 1 ≤ before.length)
    (h : before.length + room + after.length ≤ most) :
    hasLength 1 most (before ++ text ++ after) := by
  simp only [hasLength, String.length_append, decide_eq_true_eq]
  omega

end Blocks

namespace WorkflowPlanningService

/-! ## The attempt at a node returns -/

section Attempt

variable {E : WorkflowPlanningService} {call : WorkflowCall} {read : Workflow}
  {node n : WorkflowNode}

/-- A node as the call may hand it over. -/
structure Ready (call : WorkflowCall) (read : Workflow) (node : WorkflowNode) : Prop where
  toolName : hasLength 1 128 node.toolName
  key : hasLength 8 160 node.idempotencyKey
  source : ∃ node₀ ∈ read.nodes, node₀.id = node.id ∧
    node₀.compensationTool = node.compensationTool

theorem authToken_length (h : Runnable E call read) :
    8 ≤ ((call.authToken.filter (· ≠ "")).getD (roleToken E.runtime call.role)).length := by
  cases htoken : call.authToken.filter (· ≠ "") with
  | none =>
      rw [Option.getD_none, roleToken]
      split <;> decide
  | some token =>
      obtain ⟨hcall, hne⟩ := Option.filter_eq_some_iff.mp htoken
      have hlength := h.authToken
      rw [hcall, Option.all_some] at hlength
      simpa [of_decide_eq_true hne] using hlength

/-- `_execute_node` returns the answer of the gateway client. -/
theorem succeeds_executeNode (h : Runnable E call read) (htool : 1 ≤ n.toolName.length)
    (hkey : hasLength 8 160 n.idempotencyKey) :
    Succeeds read (fun answer => ∃ request : GatewayToolRequest, request.toolName = n.toolName ∧
      request.arguments = n.arguments ∧ request.workflowNodeId = some n.id ∧
        EngineEvent.Fair read ⟨.callTool request, answer⟩)
      (E.executeNode n call.role call.authToken) := by
  refine fun correlationId _ => ?_
  dsimp only
  have hkey := of_decide_eq_true hkey
  split
  · exact fun answer hanswer => ⟨_, by rfl, by rfl, by rfl, hanswer⟩
  · rename_i hlimits
    exact absurd ⟨authToken_length h, htool, hkey.1, hkey.2⟩ hlimits

theorem succeeds_failureResponse (code message : String) :
    Succeeds read (fun _ => True) (failureResponse n code message) := fun _ _ => trivial

/-- The handlers catch what the gateway client may raise. -/
theorem succeeds_responseOf {request : GatewayToolRequest}
    {answer : Except ClientError GatewayToolResponse}
    (h : EngineEvent.Fair read ⟨.callTool request, answer⟩) :
    Succeeds read (fun _ => True) (responseOf n answer) := by
  unfold responseOf
  split
  · trivial
  · exact succeeds_failureResponse _ _
  · exact succeeds_failureResponse _ _
  · exact succeeds_failureResponse _ _
  · cases h.answered

theorem length_of_ne_empty {text : String} (h : text ≠ "") : 1 ≤ text.length := by
  rw [← String.length_toList, Nat.one_le_iff_ne_zero]
  exact fun hzero => h (String.toList_eq_nil_iff.mp (List.length_eq_zero_iff.mp hzero))

/-- `_compensate_node` returns, as its call is answered. -/
theorem succeeds_compensateNode (h : Runnable E call read) (hn : Ready call read n)
    (htool : n.compensationTool.any (· ≠ "")) (workflow : Workflow) :
    Succeeds read (fun out => out.createdBy = workflow.createdBy)
      (E.compensateNode n call.role workflow call.authToken) := by
  obtain ⟨tool, htool, hne⟩ := (Option.any_eq_true ..).mp htool
  have hname : n.compensationTool.getD "" = tool := by rw [htool, Option.getD_some]
  unfold compensateNode
  refine (succeeds_saveNode workflow _ _).bind fun current hcurrent => ?_
  dsimp only
  refine (succeeds_executeNode h ?_ ?_).bind fun answer hanswer => ?_
  · rw [hname]
    exact length_of_ne_empty (of_decide_eq_true hne)
  · exact hn.key
  · obtain ⟨request, hrequest, harguments, hid, hfair⟩ := hanswer
    cases answer with
    | error e =>
        obtain ⟨node₀, hmem, hid₀, htool₀⟩ := hn.source
        refine absurd ⟨by rw [harguments]; rfl, node₀, hmem, ?_, ?_⟩
          (of_decide_eq_true hfair.compensation)
        · rw [hid, hid₀]
        · rw [htool₀, hrequest, hname, htool]
    | ok response =>
        refine succeeds_timeNow fun now => (succeeds_saveNode _ _ _).imp fun out hout => ?_
        rw [hout, hcurrent]

/-- A failed node is retried, compensated or left as failed. -/
theorem succeeds_failNode (h : Runnable E call read) (hn : Ready call read n) (workflow : Workflow)
    (response : GatewayToolResponse) :
    Succeeds read (fun out => out.createdBy = workflow.createdBy)
      (E.failNode n call.role workflow response call.authToken) := by
  unfold failNode
  refine succeeds_timeNow fun now =>
    (succeeds_saveNode workflow _ _).bind fun current hcurrent => ?_
  dsimp only
  split
  · refine succeeds_timeNow fun now => (succeeds_saveNode current _ _).imp fun out hout => ?_
    rw [hout, hcurrent]
  · split
    · rename_i htool
      refine (succeeds_compensateNode h ?_ (by exact htool) current).imp fun out hout => ?_
      · exact ⟨hn.toolName, hn.key, hn.source⟩
      · rw [hout, hcurrent]
    · exact hcurrent

/-- A node that needs an approval waits for it. -/
theorem succeeds_awaitApproval (h : Runnable E call read) (hn : Ready call read n)
    {workflow : Workflow} (hcreatedBy : workflow.createdBy = read.createdBy)
    (response : GatewayToolResponse) :
    Succeeds read (fun out => out.createdBy = workflow.createdBy)
      (E.awaitApproval n call.role workflow response) := by
  refine (succeeds_auditEvent (by decide) ?_ h.role ?_ (nodeId_length n)).bind fun event _ => ?_
  · rw [hcreatedBy]
    exact h.createdBy
  · exact hasLength_append _ _ _ (of_decide_eq_true hn.toolName).2 (by decide) (by decide)
  · exact (succeeds_saveNode _ _ _).imp fun out hout => hout

/-- The `try` block returns. -/
theorem succeeds_attemptNode (h : Runnable E call read) (hn : Ready call read n)
    (workflow : Workflow) (nodeOutputs : NodeOutputs) :
    Succeeds read (fun (out : WorkflowNode × Workflow × GatewayToolResponse) =>
      Ready call read out.1 ∧ out.2.1.createdBy = workflow.createdBy)
      (E.attemptNode n call.role workflow nodeOutputs call.authToken) := by
  unfold attemptNode
  split
  · exact (succeeds_failureResponse _ _).bind fun response _ => ⟨hn, rfl⟩
  · rename_i bound hbound
    have hready : ∃ arguments, bound = { n with arguments } := by
      unfold resolveNodeArguments at hbound
      cases hfold : n.argumentReferences.foldlM (bindReference nodeOutputs) n.arguments with
      | error message => rw [hfold] at hbound; cases hbound
      | ok arguments => rw [hfold] at hbound; cases hbound; exact ⟨arguments, rfl⟩
    obtain ⟨arguments, rfl⟩ := hready
    have hstored : Succeeds read (fun (out : WorkflowNode × Workflow) =>
        Ready call read out.1 ∧ out.2.createdBy = workflow.createdBy)
        (storeBound n { n with arguments } workflow) := by
      unfold storeBound
      split
      · exact ⟨hn, rfl⟩
      · exact (succeeds_saveNode _ _ _).bind fun out hout =>
          ⟨⟨hn.toolName, hn.key, hn.source⟩, hout⟩
    refine hstored.bind ?_
    rintro ⟨m, current⟩ ⟨hm, hcurrent⟩
    refine (succeeds_executeNode h (of_decide_eq_true hm.toolName).1 hm.key).bind ?_
    rintro answer ⟨request, -, -, -, hfair⟩
    exact (succeeds_responseOf hfair).bind fun response _ => ⟨hm, hcurrent⟩

/-- `_execute_node_with_recovery` returns. -/
theorem succeeds_executeNodeWithRecovery (h : Runnable E call read)
    (hn : Ready call read { n with attempts := n.attempts + 1 }) {workflow : Workflow}
    (hcreatedBy : workflow.createdBy = read.createdBy) (nodeOutputs : NodeOutputs) :
    Succeeds read (fun (out : Workflow × NodeOutputs) => out.1.createdBy = read.createdBy)
      (E.executeNodeWithRecovery n call.role workflow nodeOutputs call.authToken) := by
  unfold executeNodeWithRecovery
  have hstarted : Succeeds read (Ready call read) (startAttempt n) :=
    succeeds_timeNow fun now => ⟨hn.toolName, hn.key, hn.source⟩
  refine hstarted.bind fun running hrunning => ?_
  refine (succeeds_saveNode workflow _ _).bind fun current hcurrent => ?_
  refine (succeeds_attemptNode h hrunning current nodeOutputs).bind ?_
  rintro ⟨m, attempted, response⟩ ⟨hm, hattempted⟩
  have hsame : attempted.createdBy = read.createdBy := by rw [hattempted, hcurrent, hcreatedBy]
  dsimp only
  split
  · exact (succeeds_awaitApproval h hm hsame response).bind fun out hout => hout.trans hsame
  · split
    · exact succeeds_timeNow fun now => (succeeds_saveNode _ _ _).bind
        fun out hout => hout.trans hsame
    · exact (succeeds_failNode h hm attempted response).bind fun out hout => hout.trans hsame

end Attempt

/-! ## The run returns -/

section Run

variable {E : WorkflowPlanningService} {call : WorkflowCall} {read : Workflow}
  {node : WorkflowNode}

/-- A comparison that stays within its limits raises no `TypeError`. -/
theorem evaluateCondition_ne {condition : WorkflowCondition} (h : condition.comparable)
    (output : PyDict) (message : String) :
    evaluateCondition condition output ≠ .error (.typeError message) := by
  unfold evaluateCondition
  split
  · exact fun h => by cases h
  · exact fun h => by cases h
  · exact fun h => by cases h
  · rename_i actual _ _
    unfold compare
    cases hoperator : condition.operator with
    | contains =>
        rw [WorkflowCondition.comparable, hoperator] at h
        cases hvalue : condition.value with
        | str text => cases actual <;> exact fun h => by cases h
        | _ => rw [hvalue] at h; cases h
    | gt => dsimp only; split <;> exact fun h => by cases h
    | gte => dsimp only; split <;> exact fun h => by cases h
    | lt => dsimp only; split <;> exact fun h => by cases h
    | lte => dsimp only; split <;> exact fun h => by cases h
    | _ => exact fun h => by cases h

/-- A legacy condition compares within the limits, too. -/
theorem parseLegacyCondition_comparable (rt : Runtime) (text : Option String) :
    (∀ message, parseLegacyCondition rt text ≠ .error (.typeError message)) ∧
      ∀ condition, parseLegacyCondition rt text = .ok (some condition) → condition.comparable := by
  unfold parseLegacyCondition
  split
  · exact ⟨(fun _ h => by cases h), (fun _ h => by cases h)⟩
  · split
    · refine ⟨(fun _ h => by cases h), fun condition h => ?_⟩
      cases h
      exact Bool.or_eq_true_iff.mpr (Or.inl (decide_eq_true (operatorFromLegacy_ne _)))
    · exact ⟨(fun _ h => by cases h), (fun _ h => by cases h)⟩

theorem conditionIsSatisfied_ne {rt : Runtime}
    (h : node.typedCondition.all WorkflowCondition.comparable) (outputs : NodeOutputs)
    (message : String) : conditionIsSatisfied rt node outputs ≠ .error (.typeError message) := by
  have htyped : ∀ (n : WorkflowNode) (condition : WorkflowCondition),
      n.typedCondition = some condition → condition.comparable →
        conditionIsSatisfied rt n outputs ≠ .error (.typeError message) := by
    intro n condition hcondition hcomparable
    unfold conditionIsSatisfied
    rw [hcondition]
    change (if condition.sourceNodeId ∉ n.dependsOn then _ else _) ≠ _
    split
    · exact fun h => by cases h
    · split
      · exact fun h => by cases h
      · exact evaluateCondition_ne hcomparable _ message
  cases hnode : node.typedCondition with
  | some condition =>
      rw [hnode, Option.all_some] at h
      exact htyped node condition hnode h
  | none =>
      obtain ⟨hraises, hlegacy⟩ := parseLegacyCondition_comparable rt node.condition
      cases hparsed : parseLegacyCondition rt node.condition with
      | error e =>
          unfold conditionIsSatisfied
          rw [hnode, hparsed]
          intro heq
          cases heq
          exact hraises message hparsed
      | ok condition =>
          cases condition with
          | none =>
              unfold conditionIsSatisfied
              rw [hnode, hparsed]
              exact fun h => by cases h
          | some condition =>
              -- the legacy text stands for a typed condition
              have hsame : conditionIsSatisfied rt node outputs =
                  conditionIsSatisfied rt
                    { node with typedCondition := some condition } outputs := by
                unfold conditionIsSatisfied
                rw [hnode, hparsed]
              rw [hsame]
              exact htyped _ condition rfl (hlegacy condition hparsed)

/-- A run finishes. -/
theorem succeeds_finishWorkflow (h : Runnable E call read) {workflow : Workflow}
    (hcreatedBy : workflow.createdBy = read.createdBy) :
    Succeeds read (fun out => out.createdBy = read.createdBy)
      (finishWorkflow workflow call.role) := by
  unfold finishWorkflow
  dsimp only
  refine (succeeds_auditEvent (by decide) ?_ h.role ?_ rfl).bind fun event _ => ?_
  · rw [hcreatedBy]
    exact h.createdBy
  · split <;> decide
  · exact (succeeds_checkpoint _ _ _).imp fun out hout => by rw [hout]; exact hcreatedBy

/-- The workflow that a turn ends with. -/
def Turn.workflow : Turn → Workflow
  | .stop workflow => workflow
  | .go state => state.updated

/-- What has become of a node that was attempted decides how its turn ends. -/
theorem succeeds_afterExecution (h : Runnable E call read) (state : RunState) {current : Workflow}
    (hcreatedBy : current.createdBy = read.createdBy) (nodeOutputs : NodeOutputs) :
    Succeeds read (fun turn => turn.workflow.createdBy = read.createdBy)
      (afterExecution node call.role state current nodeOutputs) := by
  unfold afterExecution
  dsimp only
  split
  · exact hcreatedBy
  · split
    · exact hcreatedBy
    · split
      · exact (succeeds_finishWorkflow h hcreatedBy).bind fun out hout => hout
      · exact hcreatedBy

/-- A node that a run may come to. -/
structure Expected (E : WorkflowPlanningService) (call : WorkflowCall) (read : Workflow)
    (node : WorkflowNode) : Prop where
  attemptable : Attemptable E call read node
  source : ∃ node₀ ∈ read.nodes, node₀.id = node.id ∧
    node₀.compensationTool = node.compensationTool

/-- The turn of a node that is ready. -/
theorem succeeds_runReadyNode (h : Runnable E call read) (hnode : Expected E call read node)
    {workflow : Workflow} (hworkflow : workflow.createdBy = read.createdBy ∧
      workflow.targetEnvironment = read.targetEnvironment) {state : RunState}
    (hcreatedBy : state.updated.createdBy = read.createdBy) :
    Succeeds read (fun turn => turn.workflow.createdBy = read.createdBy)
      (E.runReadyNode workflow node call.role call.authToken state) := by
  unfold runReadyNode
  dsimp only
  refine (succeeds_saveNode state.updated _ _).bind fun readied hreadied => ?_
  have hannounce : Succeeds read (fun out => out.createdBy = readied.createdBy)
      -- a checkpoint changes no creator
      (announceQueued readied (readyNode node)) := by
    unfold announceQueued
    split
    · exact (succeeds_checkpoint _ _ _).imp fun out hout => by rw [hout]
    · rfl
  refine hannounce.bind fun announced hannounced => ?_
  refine succeeds_timeNow fun now => ?_
  obtain ⟨evaluation, hevaluation⟩ := hnode.attemptable.evaluates now
  have hdecision := (E.policyEvaluator.of_evaluate hevaluation).1
  -- the node is attempted, so its evaluation is there
  rw [hworkflow.1, hworkflow.2, show E.policyEvaluator.evaluate (readyNode node) read.createdBy
    call.role read.targetEnvironment .execution now = .ok evaluation from hevaluation]
  dsimp only [Procedure.ofExcept, Procedure.pure_bind']
  refine (succeeds_saveNode announced _ _).bind fun current hcurrent => ?_
  have hsame : current.createdBy = read.createdBy := by
    rw [hcurrent, hannounced, hreadied, hcreatedBy]
  split
  · exact succeeds_timeNow fun now => (succeeds_saveNode current _ _).bind
      fun out hout => hout.trans hsame
  · split
    · exact (succeeds_saveNode current _ _).bind fun out hout => hout.trans hsame
    · rename_i hallowed hcontext
      obtain ⟨htool, hkey⟩ := hnode.attemptable.request (by
        -- the policy has neither denied the node nor asked for more context
        rw [← hdecision]
        cases hdecision' : evaluation.decision with
        | deny => exact absurd hdecision' hallowed
        | requireAdditionalContext => exact absurd hdecision' hcontext
        | _ => decide)
      refine (succeeds_executeNodeWithRecovery h ?_ hsame state.nodeOutputs).bind ?_
      · exact ⟨htool, hkey, hnode.source⟩
      · rintro ⟨executed, nodeOutputs⟩ hexecuted
        exact succeeds_afterExecution h state hexecuted nodeOutputs

/-- The turn of a node. -/
theorem succeeds_runNode (h : Runnable E call read)
    (hnode : node.executionStatus.settled = false → Expected E call read node)
    {workflow : Workflow} (hworkflow : workflow.createdBy = read.createdBy ∧
      workflow.targetEnvironment = read.targetEnvironment) {state : RunState}
    (hcreatedBy : state.updated.createdBy = read.createdBy) :
    Succeeds read (fun turn => turn.workflow.createdBy = read.createdBy)
      (E.runNode workflow node call.role call.authToken state) := by
  have hdue : Succeeds read (fun _ => True) (mayStart node) := by
    -- asking whether the retry is due raises nothing
    unfold mayStart retryDue
    split
    · split
      · trivial
      · exact succeeds_timeNow fun now => trivial
    · trivial
  refine hdue.bind fun due _ => ?_
  split
  · exact hcreatedBy
  · split
    · exact hcreatedBy
    · rename_i hsettled
      have hexpected := hnode (Bool.eq_false_iff.mpr hsettled)
      -- the condition of a node that is expected can be read
      split
      · exact (succeeds_saveNode state.updated _ _).bind fun out hout => hout.trans hcreatedBy
      · unfold runConditionedNode
        split
        · rename_i message hcondition
          exact absurd hcondition
            (conditionIsSatisfied_ne hexpected.attemptable.condition _ message)
        · refine (succeeds_saveNode state.updated _ _).bind fun blocked hblocked => ?_
          exact (succeeds_finishWorkflow h (hblocked.trans hcreatedBy)).bind fun out hout => hout
        · exact (succeeds_saveNode state.updated _ _).bind fun out hout => hout.trans hcreatedBy
        · exact succeeds_runReadyNode h hexpected hworkflow hcreatedBy

/-- The loop, to its end. -/
theorem succeeds_runNodes (h : Runnable E call read) {workflow : Workflow}
    (hworkflow : workflow.createdBy = read.createdBy ∧
      workflow.targetEnvironment = read.targetEnvironment) {todo : List WorkflowNode}
    (htodo : ∀ node ∈ todo, node.executionStatus.settled = false → Expected E call read node)
    {state : RunState} (hcreatedBy : state.updated.createdBy = read.createdBy) :
    Succeeds read (fun _ => True) (E.runNodes workflow call.role call.authToken todo state) := by
  induction todo generalizing state with
  | nil => exact (succeeds_finishWorkflow h hcreatedBy).imp fun _ _ => trivial
  | cons node rest ih =>
      refine (succeeds_runNode h (htodo node (List.mem_cons_self ..)) hworkflow hcreatedBy).bind ?_
      rintro (out | state) hturn
      · trivial
      · exact ih (fun n hn => htodo n (List.mem_cons_of_mem _ hn)) hturn

/-- A run of a workflow whose nodes have been prepared. -/
theorem succeeds_runWorkflow (h : Runnable E call read) {workflow : Workflow}
    (hworkflow : workflow.createdBy = read.createdBy ∧
      workflow.targetEnvironment = read.targetEnvironment) (hdistinct : workflow.nodeIds.Nodup)
    (hnodes : ∀ node ∈ workflow.nodes, node.executionStatus.settled = false →
      Expected E call read node) (resumed : Bool) :
    Succeeds read (fun _ => True) (E.runWorkflow workflow call.role resumed call.authToken) := by
  unfold runWorkflow
  refine (succeeds_auditEvent ?_ ?_ h.role (by decide) rfl).bind fun event _ => ?_
  · cases resumed <;> decide
  · rw [hworkflow.1]
    exact h.createdBy
  · refine (succeeds_checkpoint _ _ _).bind fun updated hupdated => ?_
    subst hupdated
    exact succeeds_runNodes h hworkflow
      (fun node hnode => hnodes node ((topologicalNodes_perm hdistinct).mem_iff.mp hnode))
      hworkflow.1

end Run

/-! ## The operations return -/

section Operations

variable {E : WorkflowPlanningService} {read : Workflow}

theorem succeeds_getWorkflow (workflowId : UUID) :
    Succeeds read (fun workflow => workflow = read) (getWorkflow workflowId) := by
  intro answer hfair
  cases answer with
  | none => cases hfair.read workflowId rfl
  | some workflow =>
      cases hfair.read workflowId rfl
      rfl

/-- A node that a call has prepared is expected, if it is taken up. -/
theorem expected_of_prepared {call : WorkflowCall} (h : Runnable E call read)
    {node₀ node : WorkflowNode} (hmem : node₀ ∈ read.nodes) (hprepared : Prepared E call node₀ node)
    (hsame : Attemptable E call read node₀ → Attemptable E call read node)
    (hunsettled : node.executionStatus.settled = false) : Expected E call read node where
  attemptable := hsame (h.nodes node₀ hmem (hprepared.takenUp hunsettled))
  source := ⟨node₀, hmem, (id_of_plan hprepared.plan).symm,
    (compensationTool_of_plan hprepared.plan).symm⟩

theorem succeeds_execute {workflowId : UUID} {role : String} {authToken : Option String}
    (h : Runnable E (.execute workflowId role authToken) read) (hsound : read.Sound) :
    Succeeds read (fun _ => True) (E.execute workflowId role authToken) := by
  refine (succeeds_getWorkflow workflowId).bind fun workflow hread => ?_
  subst hread
  split
  · trivial
  · split
    · trivial
    · refine succeeds_runWorkflow h ⟨rfl, rfl⟩ hsound.nodup (fun node hnode hunsettled => ?_) false
      exact expected_of_prepared h hnode (prepared_refl (fun hsettled => by
        simp only [takesUp, hsettled, Bool.not_false]) rfl) id hunsettled

/-- The node that `resume` takes up reads the same. -/
theorem resumeNode_attemptable {call : WorkflowCall} {node node' : WorkflowNode}
    (h : (resumeNode node).Returns node') (hnode : Attemptable E call read node) :
    Attemptable E call read node' := by
  obtain ⟨expired, -, h⟩ := Procedure.returns_bind.mp h
  split at h
  · obtain ⟨now, -, h⟩ := Procedure.returns_bind.mp h
    rw [← Procedure.returns_pure.mp h]
    exact ⟨hnode.condition, hnode.evaluates, hnode.request⟩
  · split at h
    · obtain ⟨resumed, -, h⟩ := Procedure.returns_bind.mp h
      split at h
      · rw [← Procedure.returns_pure.mp h]
        exact ⟨hnode.condition, hnode.evaluates, hnode.request⟩
      · rwa [← Procedure.returns_pure.mp h]
    · rwa [← Procedure.returns_pure.mp h]

theorem succeeds_resumeNode (node : WorkflowNode) :
    Succeeds read (fun _ => True) (resumeNode node) := by
  have hexpired : Succeeds read (fun _ => True) (approvalExpired node) := by
    unfold approvalExpired
    split
    · trivial
    · split
      · trivial
      · exact succeeds_timeNow fun now => trivial
  refine hexpired.bind fun expired _ => ?_
  split
  · exact succeeds_timeNow fun now => trivial
  · split
    · have hcan : Succeeds read (fun _ => True) (canBeResumed node) := by
        unfold canBeResumed retryDue
        split
        · split
          · trivial
          · exact succeeds_timeNow fun now => trivial
        · trivial
      refine hcan.bind fun resumed _ => ?_
      split
      · trivial
      · trivial
    · trivial

theorem succeeds_resumeNodes (nodes : List WorkflowNode) :
    Succeeds read (List.Forall₂ (fun node node' => (resumeNode node).Returns node') nodes)
      (resumeNodes nodes) := by
  induction nodes with
  | nil => exact .nil
  | cons node rest ih =>
      exact (succeeds_resumeNode node).returns.bind fun node' hnode =>
        ih.bind fun rest' hrest => .cons hnode.2 hrest

theorem succeeds_resume {workflowId : UUID} {role : String} {authToken : Option String}
    (h : Runnable E (.resume workflowId role authToken) read) (hsound : read.Sound) :
    Succeeds read (fun _ => True) (E.resume workflowId role authToken) := by
  refine (succeeds_getWorkflow workflowId).bind fun workflow hread => ?_
  subst hread
  split
  · trivial
  · refine (succeeds_resumeNodes workflow.nodes).bind fun nodes hnodes => ?_
    refine (succeeds_auditEvent (by decide) h.createdBy h.role (by decide) rfl).bind
      fun event _ => ?_
    have hprepared : List.Forall₂ (Prepared E (.resume workflowId role authToken))
        workflow.nodes nodes := hnodes.imp fun _ _ => resumeNode_prepared
    have hresumed : ∀ node ∈ nodes, node.executionStatus.settled = false →
        Expected E (.resume workflowId role authToken) workflow node := by
      intro node hnode hunsettled
      obtain ⟨i, hi, rfl⟩ := List.getElem_of_mem hnode
      have hi₀ : i < workflow.nodes.length := hnodes.length_eq ▸ hi
      exact expected_of_prepared h (List.getElem_mem hi₀) (hprepared.get hi₀ hi)
        (resumeNode_attemptable (hnodes.get hi₀ hi)) hunsettled
    refine fun _ _ => succeeds_runWorkflow h ?_ ?_ hresumed true
    · exact ⟨rfl, rfl⟩
    · exact (congrArg List.Nodup (samePlans_of_prepared hprepared).ids).mpr hsound.nodup

theorem succeeds_retryNode {workflowId : UUID} {nodeId role : String} {authToken : Option String}
    (h : Runnable E (.retryNode workflowId nodeId role authToken) read) (hsound : read.Sound) :
    Succeeds read (fun _ => True) (E.retryNode workflowId nodeId role authToken) := by
  refine (succeeds_getWorkflow workflowId).bind fun workflow hread => ?_
  subst hread
  have htarget : nodeId ∈ workflow.nodeIds := of_decide_eq_true h.target
  rw [if_neg (not_not.mpr htarget)]
  obtain ⟨target, -, rfl⟩ := List.mem_map.mp htarget
  refine (succeeds_auditEvent (by decide) h.createdBy h.role ?_ (nodeId_length target)).bind
    fun event _ => ?_
  · exact hasLength_append _ _ _ target.id_length.2 (by decide) (by decide)
  · have hprepared : List.Forall₂ (Prepared E (.retryNode workflowId target.id role authToken))
        workflow.nodes (workflow.nodes.map (E.retryTarget target.id)) :=
      List.forall₂_map_right_iff.mpr (List.forall₂_same.mpr fun node _ => retryTarget_prepared node)
    have hretried : ∀ node ∈ workflow.nodes.map (E.retryTarget target.id),
        node.executionStatus.settled = false →
          Expected E (.retryNode workflowId target.id role authToken) workflow node := by
      intro node hnode hunsettled
      obtain ⟨node₀, hmem, rfl⟩ := List.mem_map.mp hnode
      refine expected_of_prepared h hmem (retryTarget_prepared node₀) (fun hnode => ?_) hunsettled
      unfold retryTarget
      split
      · exact hnode
      · split
        · exact ⟨hnode.condition, hnode.evaluates, hnode.request⟩
        · exact ⟨hnode.condition, hnode.evaluates, hnode.request⟩
    refine fun _ _ => succeeds_runWorkflow h ?_ ?_ hretried true
    · exact ⟨rfl, rfl⟩
    · exact (congrArg List.Nodup (samePlans_of_prepared hprepared).ids).mpr hsound.nodup

theorem succeeds_cancel {workflowId : UUID} {role : String}
    (h : Runnable E (.cancel workflowId role) read) :
    Succeeds read (fun _ => True) (cancel workflowId role) := by
  refine (succeeds_getWorkflow workflowId).bind fun workflow hread => ?_
  subst hread
  exact (succeeds_auditEvent (by decide) h.createdBy h.role (by decide) rfl).bind
    fun event _ _ _ => trivial

/-- Every call that stays within its limits returns. -/
theorem succeeds_serve {call : WorkflowCall} (h : Runnable E call read) (hsound : read.Sound) :
    Succeeds read (fun _ => True) (E.serve call) := by
  cases call with
  | execute workflowId role authToken => exact succeeds_execute h hsound
  | resume workflowId role authToken => exact succeeds_resume h hsound
  | retryNode workflowId nodeId role authToken => exact succeeds_retryNode h hsound
  | cancel workflowId role => exact succeeds_cancel h

end Operations

/-! ## Runs of calls -/

variable (E : WorkflowPlanningService)

/-- A call that runs to its end on the repository `s`. -/
abbrev runCall (call : WorkflowCall) (inputs : ℕ → EngineEnv) (s : InMemoryWorkflowRepository) :
    Except EngineError Workflow × EngineRun :=
  (E.serve call).run engineSystem 0 inputs (Run.start s)

/-- What holds of every one of the calls, made one after the other. -/
def Throughout (P : WorkflowCall → (ℕ → EngineEnv) → InMemoryWorkflowRepository → Prop) :
    List (WorkflowCall × (ℕ → EngineEnv)) → InMemoryWorkflowRepository → Prop
  | [], _ => True
  | (call, inputs) :: rest, s =>
      P call inputs s ∧ Throughout P rest (E.runCall call inputs s).2.state

instance decidableThroughout (P : WorkflowCall → (ℕ → EngineEnv) →
    InMemoryWorkflowRepository → Prop)
    [∀ call inputs s, Decidable (P call inputs s)] :
    (calls : List (WorkflowCall × (ℕ → EngineEnv))) → (s : InMemoryWorkflowRepository) →
      Decidable (E.Throughout P calls s)
  | [], _ => isTrue trivial
  | (call, inputs) :: rest, s =>
      let _ := decidableThroughout P rest (E.runCall call inputs s).2.state
      inferInstanceAs (Decidable (_ ∧ _))

/-- Every answer of the gateway client during a call is as it may be. -/
def GatewayAnswers (call : WorkflowCall) (inputs : ℕ → EngineEnv)
    (s : InMemoryWorkflowRepository) : Prop :=
  ∀ d ∈ (E.runCall call inputs s).2.past, EngineEvent.answered d.event

/-- The call is about a stored workflow, stays within the limits, and what it compensates is
answered. -/
def StaysWithin (call : WorkflowCall) (inputs : ℕ → EngineEnv) (s : InMemoryWorkflowRepository) :
    Prop :=
  ∃ workflow, s.getWorkflow call.workflowId = some workflow ∧ Runnable E call workflow ∧
    ∀ d ∈ (E.runCall call inputs s).2.past, EngineEvent.compensationAnswered workflow d.event

/-- The call returns the workflow that is then stored, and no node of it is `RUNNING`, `READY` or
`COMPENSATING`. -/
def ReturnsAtRest (call : WorkflowCall) (inputs : ℕ → EngineEnv) (s : InMemoryWorkflowRepository) :
    Prop :=
  ∃ out, (E.runCall call inputs s).1 = .ok out ∧
    (E.runCall call inputs s).2.state.getWorkflow call.workflowId = some out ∧
      ∀ node ∈ out.nodes, node.executionStatus.busy = false

end WorkflowPlanningService

/-- No node of a stored workflow is `RUNNING`, `READY` or `COMPENSATING`. -/
def InMemoryWorkflowRepository.AtRest (s : InMemoryWorkflowRepository) : Prop :=
  ∀ workflow ∈ s.workflows.values, ∀ node ∈ workflow.nodes, node.executionStatus.busy = false

instance (s : InMemoryWorkflowRepository) : Decidable s.AtRest :=
  inferInstanceAs (Decidable (∀ workflow ∈ s.workflows.values, ∀ node ∈ workflow.nodes, _))

/-- What is stored under an id has the property, when there is something stored. -/
theorem exists_stored_iff {s : InMemoryWorkflowRepository} {workflowId : UUID}
    {P : Workflow → Prop} [DecidablePred P] :
    ((s.getWorkflow workflowId).any fun workflow => P workflow) ↔
      ∃ workflow, s.getWorkflow workflowId = some workflow ∧ P workflow := by
  rw [Option.any_eq_true]
  simp only [decide_eq_true_eq]

instance (s : InMemoryWorkflowRepository) (workflowId : UUID) (P : Workflow → Prop)
    [DecidablePred P] : Decidable (∃ workflow, s.getWorkflow workflowId = some workflow ∧
      P workflow) := decidable_of_iff _ exists_stored_iff

namespace WorkflowPlanningService

variable {E : WorkflowPlanningService} {call : WorkflowCall} {inputs : ℕ → EngineEnv}
  {s : InMemoryWorkflowRepository}

instance : Decidable (E.GatewayAnswers call inputs s) :=
  inferInstanceAs (Decidable (∀ d ∈ _, _))

instance : Decidable (E.StaysWithin call inputs s) :=
  inferInstanceAs (Decidable (∃ workflow, s.getWorkflow call.workflowId = some workflow ∧
    Runnable E call workflow ∧ ∀ d ∈ (E.runCall call inputs s).2.past,
      EngineEvent.compensationAnswered workflow d.event))

end WorkflowPlanningService

section Returning

open WorkflowPlanningService

variable {E : WorkflowPlanningService} {call : WorkflowCall} {inputs : ℕ → EngineEnv}
  {s : InMemoryWorkflowRepository}

theorem own_of_runCall (call : WorkflowCall) (inputs : ℕ → EngineEnv)
    (s : InMemoryWorkflowRepository) :
    ∀ d ∈ (E.runCall call inputs s).2.past, d.caller = 0 :=
  Procedure.caller_of_run fun _ hd => absurd hd (List.not_mem_nil)

theorem own_eq_map {past : List EngineStep} (h : ∀ d ∈ past, d.caller = 0) :
    own 0 past = past.map Step.event := by
  rw [own, List.filter_eq_self.mpr fun d hd => decide_eq_true (h d hd)]

/-- The events of a call that runs to its end. -/
theorem runCall_emits (hs : s.Sound) (call : WorkflowCall) (inputs : ℕ → EngineEnv) :
    AllOk E call ((E.runCall call inputs s).2.past.map Step.event) ∧
      ∀ out, (E.runCall call inputs s).1 = .ok out → ∃ workflow₀, Ended E call workflow₀ out
        ((E.runCall call inputs s).2.past.map Step.event) :=
  Procedure.Emits.run (S := engineSystem) InMemoryWorkflowRepository.Sound
    (fun o env s hs => valid_of_sound hs o env)
    (fun done o env s hs hgood => sound_of_saves hs (fun new hnew => by
      obtain ⟨_, _, _, _, hsaves⟩ := (hgood _ _ (List.suffix_refl _)).saves new hnew
      exact hsaves.sound) env)
    (r := Run.start s) hs AllOk.start (serve_yields call) inputs

/-- A call that runs to its end is a history of one call. -/
theorem runCall_traced (hs : s.Sound) (call : WorkflowCall) (inputs : ℕ → EngineEnv) :
    Traced E (fun _ => call) s (E.runCall call inputs s).2 where
  sound := hs
  reached := Procedure.run_from 0 _ inputs .start
  events d older hd := by
    have hcaller := own_of_runCall (E := E) call inputs s
    obtain ⟨hok, -⟩ := runCall_emits (E := E) hs call inputs
    rw [hcaller d (hd.mem (List.mem_cons_self ..)),
      own_eq_map fun e he => hcaller e (hd.mem (List.mem_cons_of_mem _ he))]
    exact hok _ _ (hd.map Step.event)

/-- A call touches no other workflow. -/
theorem runCall_others (hs : s.Sound) (inputs : ℕ → EngineEnv) {workflowId : UUID}
    (hother : workflowId ≠ call.workflowId) :
    (E.runCall call inputs s).2.state.getWorkflow workflowId = s.getWorkflow workflowId := by
  refine (runCall_traced (E := E) hs call inputs).induct
    (P := fun r => r.state.getWorkflow workflowId = s.getWorkflow workflowId) rfl ?_
  intro r c o env _ hevent ih
  cases hsaved : o.saved with
  | none => rw [Run.perform_state, state_of_no_save hsaved, ih]
  | some new =>
      obtain ⟨_, _, _, _, hsaves⟩ := hevent.saves new hsaved
      rw [Run.perform_state, getWorkflow_of_saves hsaved, hsaves.id, if_neg hother, ih]

/-- The answers that a call gets are those of its repository and of the gateway client. -/
theorem fair_of_runCall (hs : s.Sound) {workflow : Workflow}
    (hstored : s.getWorkflow call.workflowId = some workflow)
    (hanswers : E.GatewayAnswers call inputs s)
    (hcompensation : ∀ d ∈ (E.runCall call inputs s).2.past,
      EngineEvent.compensationAnswered workflow d.event) :
    ∀ d ∈ (E.runCall call inputs s).2.past, EngineEvent.Fair workflow d.event := by
  intro d hd
  refine ⟨fun workflowId hget => ?_, hanswers d hd, hcompensation d hd⟩
  have htraced := runCall_traced (E := E) hs call inputs
  obtain ⟨newer, older, hpast⟩ := List.append_of_mem hd
  have hafter : After (E.runCall call inputs s).2 d older := ⟨newer, hpast.symm⟩
  obtain ⟨rfl, hown⟩ := (htraced.events d older hafter).gets workflowId hget
  -- a workflow is read before anything else is done
  have hcaller := own_of_runCall (E := E) call inputs s
  have hnil : older = [] := by
    rw [hcaller d hd, own_eq_map fun e he =>
      hcaller e (hafter.mem (List.mem_cons_of_mem _ he))] at hown
    exact List.map_eq_nil_iff.mp hown
  subst hnil
  obtain ⟨hbefore, env, hanswer⟩ := htraced.reached.at_step hafter
  have hstate : d.before = s := hbefore.state_eq_start
  obtain ⟨caller, op, answer, before, after⟩ := d
  dsimp only at hget hstate hanswer
  subst hget hstate
  exact (congrArg Prod.fst hanswer).symm.trans hstored

/-- A call that stays within its limits returns what is then stored, at rest. -/
theorem runCall_returns (hs : s.Sound) (hrest : s.AtRest)
    (hanswers : E.GatewayAnswers call inputs s)
    (hwithin : E.StaysWithin call inputs s) :
    E.ReturnsAtRest call inputs s ∧ (E.runCall call inputs s).2.state.AtRest := by
  obtain ⟨workflow, hstored, hrunnable, hcompensation⟩ := hwithin
  have htraced := runCall_traced (E := E) hs call inputs
  have hcaller := own_of_runCall (E := E) call inputs s
  have hfair := fair_of_runCall hs hstored hanswers hcompensation
  obtain ⟨out, hout, -⟩ := (succeeds_serve hrunnable (hs _ _ hstored).2).run hfair
  obtain ⟨workflow₀, ⟨calls, hat⟩, hended⟩ :=
    (runCall_emits (E := E) hs call inputs).2 out hout
  have hown := own_eq_map hcaller
  -- what the call has read is what was stored
  have hread : workflow₀ = workflow := by
    obtain ⟨e, he, hgot⟩ := List.exists_of_findSome?_eq_some hat.opened
    obtain ⟨d, hd, rfl⟩ := List.mem_map.mp he
    obtain ⟨caller, op, answer, before, after⟩ := d
    cases op with
    | getWorkflow workflowId =>
        exact Option.some.inj (hgot.symm.trans ((hfair _ hd).read workflowId rfl))
    | _ => cases hgot
  have hrestOut : ∀ node ∈ out.nodes, node.executionStatus.busy = false := by
    intro node hnode
    cases hbusy : node.executionStatus.busy with
    | false => rfl
    | true =>
        have hmem := hended node hnode hbusy
        rw [hread] at hmem
        exact hbusy.symm.trans (hrest _ (Dict.mem_values.mpr ⟨_, hstored⟩) node hmem)
  have hordered : Ordered (E.runCall call inputs s).2.past :=
    List.pairwise_map.mpr (List.pairwise_of_forall_mem_list fun d hd e he => by
      rw [hcaller d hd, hcaller e he])
  have hlast : (E.runCall call inputs s).2.state.getWorkflow call.workflowId = some out :=
    htraced.stored_of_touched hordered (fun d hd => (hcaller d hd).le)
      (hown ▸ hat.touched : touched (own 0 _) = some out)
  refine ⟨⟨out, hout, hlast, hrestOut⟩, fun stored hmem => ?_⟩
  obtain ⟨workflowId, hstored'⟩ := Dict.mem_values.mp hmem
  by_cases hid : workflowId = call.workflowId
  · subst hid
    cases hlast.symm.trans hstored'
    exact hrestOut
  · have hbefore := (runCall_others (E := E) hs inputs hid).symm.trans hstored'
    exact hrest _ (Dict.mem_values.mpr ⟨_, hbefore⟩)

/-- In every sequence of calls that stay within their limits, on validated workflows of which no
node is being worked on, every call returns what is then stored, at rest. -/
theorem calls_returnAtRest (hs : E.AcceptsAll s) (hrest : s.AtRest)
    {calls : List (WorkflowCall × (ℕ → EngineEnv))}
    (hanswers : E.Throughout E.GatewayAnswers calls s)
    (hwithin : E.Throughout E.StaysWithin calls s) : E.Throughout E.ReturnsAtRest calls s := by
  have hsound : s.Sound := hs.sound
  clear hs
  induction calls generalizing s with
  | nil => trivial
  | cons turn rest ih =>
      obtain ⟨call, inputs⟩ := turn
      obtain ⟨hreturns, hrest'⟩ := runCall_returns hsound hrest hanswers.1 hwithin.1
      exact ⟨hreturns, ih hrest' hanswers.2 hwithin.2
        (runCall_traced hsound call inputs).sound_state⟩

end Returning

/-! ### Reading twice, and opening a ticket -/

/-- The surroundings in which the gateway client always does the same. -/
def EngineEnv.always (gateway : Except ClientError GatewayToolResponse) (n : ℕ) : EngineEnv :=
  .at (n + 6) gateway

/-- The gateway client raises during `execute`; then `retry_node` carries out the reading that has
failed and the one after it, and `resume` finds nothing left to do. -/
def raisesThenRetried : List (WorkflowCall × (ℕ → EngineEnv)) :=
  [(.execute 5 "ENGINEER" none, .always (.error (.timeout "no answer"))),
    (.retryNode 5 "first" "ENGINEER" none, .always (.ok succeededResponse)),
    (.resume 5 "ENGINEER" none, .always (.ok succeededResponse))]

/-- Calls return also after the gateway client has raised. -/
theorem calls_returnAtRest_raising :
    WorkflowPlanningService.small.Throughout WorkflowPlanningService.small.ReturnsAtRest
      raisesThenRetried (.holding readTwice) := by
  have hconditions : (InMemoryWorkflowRepository.holding readTwice).AtRest ∧
      WorkflowPlanningService.small.Throughout WorkflowPlanningService.small.GatewayAnswers
        raisesThenRetried (.holding readTwice) ∧
      WorkflowPlanningService.small.Throughout WorkflowPlanningService.small.StaysWithin
        raisesThenRetried (.holding readTwice) := by
    decide +kernel
  obtain ⟨hrest, hanswers, hwithin⟩ := hconditions
  exact calls_returnAtRest (acceptsAll_holding readTwice) hrest hanswers hwithin

/-- When opening a ticket fails, and its compensation fails as well, `execute` raises, and the node
is left behind as it is compensated. -/
theorem compensation_escapes :
    ¬ ∀ (E : WorkflowPlanningService) (s : InMemoryWorkflowRepository) (call : WorkflowCall)
      (inputs : ℕ → EngineEnv) (workflow : Workflow), E.AcceptsAll s → s.AtRest →
        s.getWorkflow call.workflowId = some workflow → Runnable E call workflow →
          E.GatewayAnswers call inputs s → E.ReturnsAtRest call inputs s := by
  intro hclaim
  have hrun : (∃ workflow, (InMemoryWorkflowRepository.holding ticketOnce).getWorkflow 5 =
        some workflow ∧ Runnable .small (.execute 5 "ENGINEER" none) workflow) ∧
      (InMemoryWorkflowRepository.holding ticketOnce).AtRest ∧
      WorkflowPlanningService.small.GatewayAnswers (.execute 5 "ENGINEER" none)
        (.always (.error (.timeout "no answer"))) (.holding ticketOnce) ∧
      (WorkflowPlanningService.small.runCall (.execute 5 "ENGINEER" none)
        (.always (.error (.timeout "no answer"))) (.holding ticketOnce)).1.toOption.isSome =
          false := by
    decide +kernel
  obtain ⟨⟨workflow, hstored, hrunnable⟩, hrest, hanswers, hraises⟩ := hrun
  obtain ⟨out, hreturns, -⟩ := hclaim .small (.holding ticketOnce) (.execute 5 "ENGINEER" none)
    (.always (.error (.timeout "no answer"))) workflow (acceptsAll_holding ticketOnce) hrest hstored
    hrunnable hanswers
  rw [hreturns] at hraises
  cases hraises

end McpOps
