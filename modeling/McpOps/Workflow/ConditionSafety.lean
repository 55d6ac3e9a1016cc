import McpOps.Workflow.History

/-!
# Conditions that fail safe

The engine blocks a node whose condition raises a `ConditionEvaluationError`.  A membership test
can raise a `TypeError` instead, which nothing catches: it leaves the run.  `failsSafe_iff` says
which outputs bring that about.

## Strategy

First the evaluation alone.  All comparisons but one have an answer or raise the expected error
(`compare_failsSafe`), and the membership test does unless a text is asked for something else than
a text, or an object for something that is no key (`containsValue_failsSafe_iff`).  A legacy
condition is parsed to an operator that is no membership test (`parseLegacyCondition_operator`),
so it always fails safe (`legacy_failsSafe`).

Then the turn of a node in the loop.  `Calmly` says of code that it raises no error that a
comparison could raise, whatever it is answered; it holds of every function of a turn but the
evaluation (`calmly_runNode`).  So a turn aborts over a condition only where the evaluation does
not fail safe.  `Silent` says that nothing is sent to the gateway, and `silent_runNode` that a
node whose condition is not satisfied is not executed.  The two are the halves of `failsSafe_iff`.
-/

namespace McpOps

open Proc

/-! ## Evaluation -/

/-- An evaluation gives a truth value, or the error that the engine expects. -/
def FailsSafe (result : Except ConditionFailure Bool) : Prop :=
  (∃ satisfied, result = .ok satisfied) ∨ ∃ message, result = .error (.evaluation message)

/-- A text is asked for something else than a text, or an object for something that is no key. -/
def Unanswerable (actual expected : Value) : Prop :=
  (∃ text, actual = .str text ∧ ∀ part, expected ≠ .str part) ∨
    ∃ entries, actual = .dict entries ∧
      ((∃ items, expected = .list items) ∨ ∃ entries, expected = .dict entries)

/-- The typed condition asks for membership in an output in which there can be none. -/
def AsksUnanswerable (node : WorkflowNode) (outputs : NodeOutputs) : Prop :=
  ∃ condition output actual, node.typedCondition = some condition ∧
    condition.operator = .contains ∧ condition.sourceNodeId ∈ node.dependsOn ∧
    outputs.get? condition.sourceNodeId = some output ∧
    readOutputPath (.dict output) condition.outputPath = .ok actual ∧
    Unanswerable actual condition.value

theorem failsSafe_ok (satisfied : Bool) : FailsSafe (.ok satisfied) := .inl ⟨satisfied, rfl⟩

theorem failsSafe_evaluation (message : String) : FailsSafe (.error (.evaluation message)) :=
  .inr ⟨message, rfl⟩

theorem not_failsSafe_typeError (message : String) :
    ¬ FailsSafe (.error (.typeError message)) := by
  rintro (⟨_, h⟩ | ⟨_, h⟩) <;> cases h

theorem containsValue_failsSafe_iff (actual expected : Value) :
    FailsSafe (containsValue actual expected) ↔ ¬ Unanswerable actual expected := by
  constructor
  · rintro h (⟨text, rfl, hpart⟩ | ⟨entries, rfl, ⟨items, rfl⟩ | ⟨keys, rfl⟩⟩)
    · cases expected with
      | str part => exact hpart part rfl
      | _ => exact not_failsSafe_typeError _ h
    · exact not_failsSafe_typeError _ h
    · exact not_failsSafe_typeError _ h
  · intro h
    cases actual with
    | str text =>
        cases expected with
        | str part => exact failsSafe_ok _
        | _ => exact absurd (Or.inl ⟨text, rfl, fun _ heq => by cases heq⟩) h
    | dict entries =>
        cases expected with
        | list items => exact absurd (Or.inr ⟨entries, rfl, .inl ⟨items, rfl⟩⟩) h
        | dict keys => exact absurd (Or.inr ⟨entries, rfl, .inr ⟨keys, rfl⟩⟩) h
        | _ => exact failsSafe_ok _
    | list items => exact failsSafe_ok _
    | _ => cases expected <;> exact failsSafe_ok _

/-- Every other comparison has an answer. -/
theorem compare_failsSafe {operator : ConditionOperator} (h : operator ≠ .contains)
    (actual expected : Value) : FailsSafe (compare actual operator expected) := by
  cases operator with
  | contains => exact absurd rfl h
  | eq | ne | exist => exact failsSafe_ok _
  | gt | gte | lt | lte =>
      unfold compare
      cases comparable? actual with
      | none => exact failsSafe_ok false
      | some x =>
          cases comparable? expected with
          | none => exact failsSafe_ok false
          | some y => exact failsSafe_ok _

theorem evaluateCondition_failsSafe_iff (condition : WorkflowCondition) (output : PyDict) :
    FailsSafe (evaluateCondition condition output) ↔
      ¬ (condition.operator = .contains ∧ ∃ actual,
        readOutputPath (.dict output) condition.outputPath = .ok actual ∧
          Unanswerable actual condition.value) := by
  unfold evaluateCondition
  cases hread : readOutputPath (.dict output) condition.outputPath with
  | error message =>
      refine iff_of_true ?_ fun ⟨_, _, h, _⟩ => by cases h
      cases condition.operator with
      | exist => exact failsSafe_ok false
      | _ => exact failsSafe_evaluation message
  | ok actual =>
      by_cases hcontains : condition.operator = .contains
      · rw [hcontains]
        refine (containsValue_failsSafe_iff actual condition.value).trans (not_congr ?_)
        exact ⟨fun h => ⟨rfl, actual, rfl, h⟩, fun ⟨_, _, heq, h⟩ => by cases heq; exact h⟩
      · refine iff_of_true ?_ fun ⟨h, _⟩ => hcontains h
        cases hoperator : condition.operator with
        | exist => exact failsSafe_ok true
        | contains => exact absurd hoperator hcontains
        | _ => exact compare_failsSafe (by exact fun h => by cases h) actual condition.value

/-! ## Both ways to write a condition -/

theorem parseLegacyCondition_error {rt : Runtime} {text : Option String}
    {failure : ConditionFailure} (h : parseLegacyCondition rt text = .error failure) :
    ∃ message, failure = .evaluation message := by
  unfold parseLegacyCondition at h
  split at h
  · cases h
  · split at h
    · cases h
    · cases h
      exact ⟨_, rfl⟩

theorem parseLegacyCondition_operator {rt : Runtime} {text : Option String}
    {condition : WorkflowCondition} (h : parseLegacyCondition rt text = .ok (some condition)) :
    condition.operator ≠ .contains := by
  unfold parseLegacyCondition at h
  split at h
  · cases h
  · split at h
    · cases h
      exact operatorFromLegacy_ne _
    · cases h

/-- With a typed condition, only its membership test can go wrong. -/
theorem typed_failsSafe_iff (rt : Runtime) {node : WorkflowNode} {condition : WorkflowCondition}
    (h : node.typedCondition = some condition) (outputs : NodeOutputs) :
    FailsSafe (conditionIsSatisfied rt node outputs) ↔ ¬ AsksUnanswerable node outputs := by
  have hasks : AsksUnanswerable node outputs ↔ condition.sourceNodeId ∈ node.dependsOn ∧
      ∃ output, outputs.get? condition.sourceNodeId = some output ∧
        condition.operator = .contains ∧ ∃ actual,
          readOutputPath (.dict output) condition.outputPath = .ok actual ∧
            Unanswerable actual condition.value := by
    constructor
    · rintro ⟨_, output, actual, heq, hcontains, hdep, houtput, hread, hvalue⟩
      cases h.symm.trans heq
      exact ⟨hdep, output, houtput, hcontains, actual, hread, hvalue⟩
    · rintro ⟨hdep, output, houtput, hcontains, actual, hread, hvalue⟩
      exact ⟨condition, output, actual, h, hcontains, hdep, houtput, hread, hvalue⟩
  unfold conditionIsSatisfied
  rw [hasks, h]
  change FailsSafe (if condition.sourceNodeId ∉ node.dependsOn then _ else _) ↔ _
  by_cases hdep : condition.sourceNodeId ∈ node.dependsOn
  · rw [if_neg (not_not_intro hdep)]
    cases houtput : outputs.get? condition.sourceNodeId with
    | none =>
        exact iff_of_true (failsSafe_evaluation _) fun ⟨_, _, hsome, _⟩ => by cases hsome
    | some output =>
        refine (evaluateCondition_failsSafe_iff condition output).trans (not_congr ?_)
        exact ⟨fun h => ⟨hdep, output, rfl, h⟩, fun ⟨_, _, heq, h⟩ => by cases heq; exact h⟩
  · rw [if_pos hdep]
    exact iff_of_true (failsSafe_evaluation _) fun ⟨hdep', _⟩ => hdep hdep'

/-- A legacy condition always fails safe. -/
theorem legacy_failsSafe (rt : Runtime) {node : WorkflowNode} (h : node.typedCondition = none)
    (outputs : NodeOutputs) : FailsSafe (conditionIsSatisfied rt node outputs) := by
  cases hparsed : parseLegacyCondition rt node.condition with
  | error failure =>
      have hresult : conditionIsSatisfied rt node outputs = .error failure := by
        unfold conditionIsSatisfied
        rw [h, hparsed]
        rfl
      obtain ⟨message, rfl⟩ := parseLegacyCondition_error hparsed
      exact hresult ▸ failsSafe_evaluation message
  | ok condition =>
      cases condition with
      | none =>
          have hresult : conditionIsSatisfied rt node outputs = .ok true := by
            unfold conditionIsSatisfied
            rw [h, hparsed]
            rfl
          exact hresult ▸ failsSafe_ok true
      | some condition =>
          -- the legacy text stands for a typed condition
          have hsame : conditionIsSatisfied rt node outputs =
              conditionIsSatisfied rt { node with typedCondition := some condition } outputs := by
            unfold conditionIsSatisfied
            rw [h, hparsed]
          rw [hsame, typed_failsSafe_iff rt rfl]
          rintro ⟨_, _, _, heq, hcontains, -⟩
          cases heq
          exact parseLegacyCondition_operator hparsed hcontains

theorem conditionIsSatisfied_failsSafe_iff (rt : Runtime) (node : WorkflowNode)
    (outputs : NodeOutputs) :
    FailsSafe (conditionIsSatisfied rt node outputs) ↔ ¬ AsksUnanswerable node outputs := by
  cases h : node.typedCondition with
  | some condition => exact typed_failsSafe_iff rt h outputs
  | none =>
      refine iff_of_true (legacy_failsSafe rt h outputs) ?_
      rintro ⟨_, _, _, heq, -⟩
      exact absurd (h.symm.trans heq) (by simp)

/-! ## The errors of a turn -/

/-- An error that no comparison raises. -/
def EngineError.Calm (e : EngineError) : Prop := ∀ message, e ≠ .typeError message

/-- Nothing is sent to the gateway. -/
def Silent (o : WorkflowOp) : Prop := ∀ request, o ≠ .callTool request

abbrev Calmly {α : Type} (p : EngineM α) : Prop := p.RaisesOnly EngineError.Calm

section Turns

variable {α : Type}

theorem calm_validation (model : String) : EngineError.Calm (.validation model) :=
  fun _ h => by cases h

theorem calm_client (e : ClientError) : EngineError.Calm (.client e) := fun _ h => by cases h

theorem calmly_op (o : WorkflowOp) : Calmly (engineOp o) := fun _ ⟨_, h⟩ => h.elim

theorem calmly_auditEvent {eventType actor role message : String} {nodeId : Option String} :
    Calmly (auditEvent eventType actor role message nodeId) := by
  refine (calmly_op _).bind fun timestamp => ?_
  split
  · exact Procedure.raisesOnly_pure _
  · exact Procedure.raisesOnly_raise (calm_validation _)

theorem calmly_checkpoint {workflow : Workflow} {eventType : String} {nodeId : Option String} :
    Calmly (checkpoint workflow eventType nodeId) := by
  have hevent : ∀ payload, Calmly (WorkflowOutboxEvent.create eventType workflow.id payload) :=
    fun _ => (calmly_op _).bind fun _ => (calmly_op _).bind fun _ => (calmly_op _).bind fun _ =>
      Procedure.raisesOnly_pure _
  exact (hevent _).bind fun _ => (calmly_op _).bind fun _ => Procedure.raisesOnly_pure _

theorem calmly_evaluate {P : WorkflowPolicyEvaluator} {node : WorkflowNode}
    {actor role environment : String} {phase : PolicyPhase} {now : Time} :
    Calmly (Procedure.ofExcept (P.evaluate node actor role environment phase now)) := by
  simp only [WorkflowPolicyEvaluator.evaluate]
  split
  · exact Procedure.raisesOnly_pure _
  · exact Procedure.raisesOnly_raise (calm_validation _)

namespace WorkflowPlanningService

theorem calmly_saveNode {workflow : Workflow} {node : WorkflowNode} {eventType : String} :
    Calmly (saveNode workflow node eventType) := calmly_checkpoint

theorem calmly_retryDue {node : WorkflowNode} : Calmly (retryDue node) := by
  unfold retryDue
  split
  · exact Procedure.raisesOnly_pure _
  · exact (calmly_op _).bind fun _ => Procedure.raisesOnly_pure _

theorem calmly_mayStart {node : WorkflowNode} : Calmly (mayStart node) := by
  unfold mayStart
  split
  · exact calmly_retryDue
  · exact Procedure.raisesOnly_pure _

theorem calmly_failureResponse {node : WorkflowNode} {code message : String} :
    Calmly (failureResponse node code message) :=
  (calmly_op _).bind fun _ => Procedure.raisesOnly_pure _

theorem calmly_responseOf {node : WorkflowNode}
    {answer : Except ClientError GatewayToolResponse} : Calmly (responseOf node answer) := by
  cases answer with
  | ok response => exact Procedure.raisesOnly_pure _
  | error e =>
      cases e with
      | other cls message => exact Procedure.raisesOnly_raise (calm_client _)
      | _ => exact calmly_failureResponse

theorem calmly_finishWorkflow {workflow : Workflow} {role : String} :
    Calmly (finishWorkflow workflow role) :=
  calmly_auditEvent.bind fun _ => calmly_checkpoint

theorem calmly_executeNode {E : WorkflowPlanningService} {node : WorkflowNode} {role : String}
    {authToken : Option String} : Calmly (E.executeNode node role authToken) := by
  refine (calmly_op _).bind fun correlationId => ?_
  dsimp only
  split
  · exact calmly_op _
  · exact Procedure.raisesOnly_raise (calm_validation _)

theorem calmly_compensateNode {E : WorkflowPlanningService} {node : WorkflowNode} {role : String}
    {workflow : Workflow} {authToken : Option String} :
    Calmly (E.compensateNode node role workflow authToken) := by
  refine calmly_saveNode.bind fun current => calmly_executeNode.bind fun answer => ?_
  cases answer with
  | error e => exact Procedure.raisesOnly_raise (calm_client e)
  | ok response => exact (calmly_op _).bind fun now => calmly_saveNode

theorem calmly_storeBound {node bound : WorkflowNode} {workflow : Workflow} :
    Calmly (storeBound node bound workflow) := by
  unfold storeBound
  split
  · exact Procedure.raisesOnly_pure _
  · exact calmly_saveNode.bind fun _ => Procedure.raisesOnly_pure _

theorem calmly_attemptNode {E : WorkflowPlanningService} {node : WorkflowNode} {role : String}
    {workflow : Workflow} {nodeOutputs : NodeOutputs} {authToken : Option String} :
    Calmly (E.attemptNode node role workflow nodeOutputs authToken) := by
  unfold attemptNode
  split
  · exact calmly_failureResponse.bind fun _ => Procedure.raisesOnly_pure _
  · exact calmly_storeBound.bind fun _ => calmly_executeNode.bind fun _ =>
      calmly_responseOf.bind fun _ => Procedure.raisesOnly_pure _

theorem calmly_failNode {E : WorkflowPlanningService} {node : WorkflowNode} {role : String}
    {workflow : Workflow} {response : GatewayToolResponse} {authToken : Option String} :
    Calmly (E.failNode node role workflow response authToken) := by
  refine (calmly_op _).bind fun now => calmly_saveNode.bind fun current => ?_
  dsimp only
  split
  · exact ((calmly_op _).bind fun _ => Procedure.raisesOnly_pure _).bind fun _ =>
      calmly_saveNode
  · split
    · exact calmly_compensateNode
    · exact Procedure.raisesOnly_pure _

theorem calmly_executeNodeWithRecovery {E : WorkflowPlanningService} {node : WorkflowNode}
    {role : String} {workflow : Workflow} {nodeOutputs : NodeOutputs}
    {authToken : Option String} :
    Calmly (E.executeNodeWithRecovery node role workflow nodeOutputs authToken) := by
  refine ((calmly_op _).bind fun _ => Procedure.raisesOnly_pure _).bind fun running => ?_
  refine calmly_saveNode.bind fun current => calmly_attemptNode.bind fun attempted => ?_
  dsimp only
  split
  · exact (calmly_auditEvent.bind fun _ => calmly_saveNode).bind fun _ =>
      Procedure.raisesOnly_pure _
  · split
    · exact ((calmly_op _).bind fun _ => calmly_saveNode).bind fun _ =>
        Procedure.raisesOnly_pure _
    · exact calmly_failNode.bind fun _ => Procedure.raisesOnly_pure _

theorem calmly_afterExecution {node : WorkflowNode} {role : String} {state : RunState}
    {updated : Workflow} {nodeOutputs : NodeOutputs} :
    Calmly (afterExecution node role state updated nodeOutputs) := by
  unfold afterExecution
  dsimp only
  repeat' split
  · exact Procedure.raisesOnly_pure _
  · exact Procedure.raisesOnly_pure _
  · exact calmly_finishWorkflow.bind fun _ => Procedure.raisesOnly_pure _
  · exact Procedure.raisesOnly_pure _

theorem calmly_runReadyNode {E : WorkflowPlanningService} {workflow : Workflow}
    {node : WorkflowNode} {role : String} {authToken : Option String} {state : RunState} :
    Calmly (E.runReadyNode workflow node role authToken state) := by
  have hannounce : ∀ {updated ready}, Calmly (announceQueued updated ready) := by
    intro updated ready
    unfold announceQueued
    split
    · exact calmly_checkpoint
    · exact Procedure.raisesOnly_pure _
  refine calmly_saveNode.bind fun updated => hannounce.bind fun updated => ?_
  refine (calmly_op _).bind fun now => calmly_evaluate.bind fun evaluation => ?_
  refine calmly_saveNode.bind fun updated => ?_
  split
  · exact (calmly_op _).bind fun _ => calmly_saveNode.bind fun _ =>
      Procedure.raisesOnly_pure _
  · split
    · exact calmly_saveNode.bind fun _ => Procedure.raisesOnly_pure _
    · exact calmly_executeNodeWithRecovery.bind fun _ => calmly_afterExecution

/-- What a turn raises is not about the condition, unless the condition does not fail safe. -/
theorem calmly_runNode {E : WorkflowPlanningService} {workflow : Workflow} {node : WorkflowNode}
    {role : String} {authToken : Option String} {state : RunState}
    (h : FailsSafe (conditionIsSatisfied E.runtime node state.nodeOutputs)) :
    Calmly (E.runNode workflow node role authToken state) := by
  refine calmly_mayStart.bind fun due => ?_
  repeat' split
  · exact Procedure.raisesOnly_pure _
  · exact Procedure.raisesOnly_pure _
  · exact calmly_saveNode.bind fun _ => Procedure.raisesOnly_pure _
  · unfold runConditionedNode
    obtain ⟨satisfied, hresult⟩ | ⟨message, hresult⟩ := h
    · rw [hresult]
      cases satisfied with
      | true => exact calmly_runReadyNode
      | false => exact calmly_saveNode.bind fun _ => Procedure.raisesOnly_pure _
    · rw [hresult]
      exact calmly_saveNode.bind fun _ => calmly_finishWorkflow.bind fun _ =>
        Procedure.raisesOnly_pure _

/-! ## What a turn sends -/

theorem silent_of_ambient {p : EngineM α} (h : p.Uses Ambient) : p.Uses Silent :=
  h.mono fun _ hambient _ heq => by rw [heq] at hambient; exact hambient

theorem silent_checkpoint {workflow : Workflow} {eventType : String} {nodeId : Option String} :
    (checkpoint workflow eventType nodeId).Uses Silent := by
  refine (silent_of_ambient (uses_outboxEvent ..)).bind fun event => ?_
  exact ⟨fun _ h => WorkflowOp.noConfusion h, fun _ => trivial⟩

theorem silent_saveNode {workflow : Workflow} {node : WorkflowNode} {eventType : String} :
    (saveNode workflow node eventType).Uses Silent := silent_checkpoint

theorem silent_finishWorkflow {workflow : Workflow} {role : String} :
    (finishWorkflow workflow role).Uses Silent :=
  (silent_of_ambient (uses_auditEvent ..)).bind fun _ => silent_checkpoint

/-- A node whose condition is not satisfied is not executed. -/
theorem silent_runNode {E : WorkflowPlanningService} {workflow : Workflow} {node : WorkflowNode}
    {role : String} {authToken : Option String} {state : RunState}
    (h : conditionIsSatisfied E.runtime node state.nodeOutputs ≠ .ok true) :
    (E.runNode workflow node role authToken state).Uses Silent := by
  refine (silent_of_ambient (uses_mayStart node)).bind fun due => ?_
  repeat' split
  · trivial
  · trivial
  · exact silent_saveNode.bind fun _ => trivial
  · unfold runConditionedNode
    cases hresult : conditionIsSatisfied E.runtime node state.nodeOutputs with
    | ok satisfied =>
        cases satisfied with
        | true => exact absurd hresult h
        | false => exact silent_saveNode.bind fun _ => trivial
    | error failure =>
        cases failure with
        | evaluation message =>
            exact silent_saveNode.bind fun _ => silent_finishWorkflow.bind fun _ => trivial
        | typeError message => trivial

end WorkflowPlanningService

end Turns

/-! ## Failing safe -/

/-- Evaluating the condition of a node gives a truth value or the error that the engine expects,
and the engine neither executes the node without a truth value nor aborts, if and only if no
membership test is asked of an output in which there can be none. -/
theorem failsSafe_iff (E : WorkflowPlanningService) (node : WorkflowNode) (outputs : NodeOutputs) :
    (FailsSafe (conditionIsSatisfied E.runtime node outputs) ∧
      ∀ (workflow : Workflow) (role : String) (authToken : Option String)
        (state : WorkflowPlanningService.RunState), state.nodeOutputs = outputs →
          Calmly (E.runNode workflow node role authToken state) ∧
            (conditionIsSatisfied E.runtime node outputs ≠ .ok true →
              (E.runNode workflow node role authToken state).Uses Silent)) ↔
      ¬ AsksUnanswerable node outputs := by
  rw [← conditionIsSatisfied_failsSafe_iff E.runtime]
  refine ⟨And.left, fun h => ⟨h, ?_⟩⟩
  rintro workflow role authToken state rfl
  exact ⟨WorkflowPlanningService.calmly_runNode h, WorkflowPlanningService.silent_runNode⟩

/-- A plan whose second node asks whether the number 5 is in the status of a device. -/
def membershipRead : WorkflowPlanDraft :=
  smallDraft [readNode "first" first_length,
    { readNode "second" second_length ["first"] with
      typedCondition := some
        { sourceNodeId := "first"
          outputPath := "data.status"
          operator := .contains
          value := .int 5 } }]

theorem membershipRead_accepted :
    WorkflowPlanningService.small.validator.issues membershipRead "ENGINEER"
      ["get_device_status"] = [] := by
  rfl

/-- A number is not a part of a text: the validator accepts the question, and the evaluation
raises a `TypeError`. -/
theorem membership_escapes :
    ¬ ∀ (E : WorkflowPlanningService) (draft : WorkflowPlanDraft) (role : String)
      (tools : List String) (node : WorkflowNode) (outputs : NodeOutputs),
      E.validator.issues draft role tools = [] → node ∈ draft.nodes →
        FailsSafe (conditionIsSatisfied E.runtime node outputs) := by
  intro hclaim
  have hanswer : conditionIsSatisfied .plain
      { readNode "second" second_length ["first"] with
        typedCondition := some
          { sourceNodeId := "first"
            outputPath := "data.status"
            operator := .contains
            value := .int 5 } }
      (Dict.empty.set "first" [("data", .dict [("status", .str "ONLINE")])]) =
        .error (.typeError "'in <string>' requires string as left operand") := by
    rfl
  have hsafe := hclaim .small membershipRead "ENGINEER" ["get_device_status"] _
    (Dict.empty.set "first" [("data", .dict [("status", .str "ONLINE")])]) membershipRead_accepted
    (List.mem_cons_of_mem _ (List.mem_cons_self ..))
  exact not_failsSafe_typeError _ (hanswer ▸ hsafe)

end McpOps
