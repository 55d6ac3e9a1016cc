import McpOps.Planner.DeterministicPlans
import McpOps.Planner.NodeIds
import McpOps.Python.Numbers

/-!
# The planner with a language model

A language model answers with a text.  Its JSON is either a decision of the planner's own schema
or a plan written freely; both are rebuilt node by node, with what the server owns taken from the
tools that were offered, and then checked as a draft.  An answer that cannot be used is asked for
once more.

* `compilePlannerDecisionPayload` and `normalizePlanPayload` are the two ways to a draft, and
  `parse` chooses by `isPlannerDecisionPayload`.
* `deriveEdgesFromNodes` has an edge for every dependency of a node.
* `DraftPayload.validate` is the check of the draft, every bound of `WorkflowPlanDraft` and of
  `WorkflowNode` in it.
* `plan` asks, parses, and asks again (`retryRequest`); the second error is final
  (`retriedError`).

The texts of the prompts, what `pydantic` reports and what it makes of a decision are left to
`LLMWorkflowPlanner`.
-/

namespace McpOps

/-! ## Decisions -/

structure PlannerConditionProposal where
  sourceNodeId : String
  outputPath : String
  operator : ConditionOperator := .eq
  value : Value := .null
  sourceNodeId_length : hasLength 1 120 sourceNodeId
  outputPath_length : hasLength 1 240 outputPath

structure PlannerNodeProposal where
  id : Option String
  toolName : String
  arguments : PyDict
  dependsOn : List String
  condition : Option PlannerConditionProposal
  knowledgeReferences : List String
  id_length : id.all (hasLength 1 120)
  toolName_length : hasLength 1 128 toolName
  dependsOn_length : dependsOn.length ≤ 20
  knowledgeReferences_length : knowledgeReferences.length ≤ 20

inductive PlannerDecisionType where
  | plan
  | clarify
  | refuse
  deriving DecidableEq, Repr

structure PlannerDecision where
  decision : PlannerDecisionType
  confidence : PyFloat
  reason : Option String
  missingContext : List String
  nodes : List PlannerNodeProposal
  confidence_share : confidence.isShare
  reason_length : reason.all (hasLength 0 500)
  missingContext_length : missingContext.length ≤ 10
  nodes_length : nodes.length ≤ 25

/-- `condition.model_dump(mode="json", exclude_none=True)`. -/
def PlannerConditionProposal.dump (condition : PlannerConditionProposal) : PyDict :=
  [("source_node_id", .str condition.sourceNodeId), ("output_path", .str condition.outputPath),
    ("operator", .str condition.operator.value)] ++
    match condition.value with
    | .null => []
    | value => [("value", value)]

/-- `proposal.model_dump(mode="json", exclude_none=True)`. -/
def PlannerNodeProposal.dump (proposal : PlannerNodeProposal) : PyDict :=
  (proposal.id.toList.map fun id => ("id", .str id)) ++
    [("tool_name", .str proposal.toolName), ("arguments", .dict proposal.arguments),
      ("depends_on", .list (proposal.dependsOn.map .str))] ++
    (proposal.condition.toList.map fun condition => ("condition", .dict condition.dump)) ++
    [("knowledge_references", .list (proposal.knowledgeReferences.map .str))]

/-- `_is_planner_decision_payload(payload)`. -/
def isPlannerDecisionPayload (payload : PyDict) : Bool :=
  let has := fun key => key ∈ payload.map Prod.fst
  has "decision" || has "missing_context" || (has "reason" && has "nodes")

/-! ## Drafts -/

/-- A draft with what the planner says about it. -/
structure PlannerDraft extends WorkflowPlanDraft where
  plannerDecision : PlannerDecisionType := .plan
  reason : Option String := none
  missingContext : List String := []

/-- What is to become a draft. -/
structure DraftPayload where
  userRequest : String
  plannerModel : String
  confidence : PyFloat
  nodes : List PlanNode
  edges : List WorkflowEdge
  plannerDecision : PlannerDecisionType := .plan
  reason : Option String := none
  missingContext : List String := []

/-- `WorkflowNode.model_validate(node)`.  What a node does not say of itself is the default. -/
def PlanNode.validate (node : PlanNode) : Option WorkflowNode :=
  if h : 1 ≤ node.id.length ∧ node.id.length ≤ 120 then
    let made : WorkflowNode :=
      { id := node.id
        toolName := node.toolName
        toolServer := node.toolServer
        description := node.description
        arguments := node.arguments
        argumentReferences := node.argumentReferences
        dependsOn := node.dependsOn
        condition := node.condition
        typedCondition := node.typedCondition
        riskLevel := node.riskLevel
        approvalRequired := node.approvalRequired
        knowledgeReferences := node.knowledgeReferences
        id_length := h }
    if made.valid ∧ made.argumentReferences.all (·.valid) ∧ made.typedCondition.all (·.valid) then
      some made
    else none
  else none

/-- `WorkflowPlanDraft.model_validate(payload)`. -/
def DraftPayload.validate (payload : DraftPayload) : Option PlannerDraft := do
  let nodes ← payload.nodes.mapM PlanNode.validate
  let made : PlannerDraft :=
    { userRequest := payload.userRequest
      plannerModel := payload.plannerModel
      confidence := payload.confidence
      nodes
      edges := payload.edges
      plannerDecision := payload.plannerDecision
      reason := payload.reason
      missingContext := payload.missingContext }
  if made.valid ∧ made.edges.all (·.valid) ∧ made.reason.all (hasLength 0 500) ∧
      made.missingContext.length ≤ 10 then some made
  else none

/-! ## Edges -/

/-- The text of an edge along which a typed condition is read. -/
def WorkflowCondition.edgeText (rt : Runtime) (condition : WorkflowCondition) : String :=
  s!"{condition.outputPath} {condition.operator.value} {textOf rt condition.value}"

/-- The edge from one dependency of a node. -/
def edgeFrom (rt : Runtime) (node : PlanNode) (source : String) : Option WorkflowEdge :=
  let sourceText := rt.strip source
  if sourceText = "" then none
  else
    some
      { source := clip 120 sourceText
        destination := clip 120 (rt.strip node.id)
        condition :=
          match node.typedCondition.filter (·.sourceNodeId = sourceText) with
          | some condition => some (condition.edgeText rt)
          | none => node.condition.bind fun text => optionalString rt (.str text) 300 }

/-- `_derive_edges_from_nodes(nodes)`, or the first condition that `WorkflowCondition` refuses. -/
def deriveEdgesFromNodes (rt : Runtime) (nodes : List PlanNode) :
    Except WorkflowCondition (List WorkflowEdge) :=
  match (nodes.filterMap (·.typedCondition)).find? fun condition => !condition.valid with
  | some condition => .error condition
  | none => .ok <| nodes.flatMap fun node =>
      if rt.strip node.id = "" then [] else node.dependsOn.filterMap (edgeFrom rt node)

/-! ## Confidence -/

/-- `_confidence(value)`, or what `float` raises. -/
def confidenceOf : Value → Except String PyFloat
  | .int n => if n < floatLimit ∧ -floatLimit < n then .ok (.finite (max 0 (min 1 n)))
      else .error "OverflowError"
  | .float (.finite q) => .ok (.finite (max 0 (min 1 q)))
  | .float .negInf => .ok (.finite 0)
  -- `min(1.0, x)` keeps the first unless the second is less, so `nan` counts as one
  | .float _ => .ok (.finite 1)
  | _ => .ok (.finite (1 / 2))

/-! ## The planner -/

/-- What `_validation_reason` and `_safe_validation_errors` say of a `ValidationError`. -/
structure ValidationProblem where
  reason : String
  errors : List PyDict

/-- How `json.loads(raw_json)` ends. -/
inductive LoadedJson where
  | value (v : Value)
  /-- `JSONDecodeError` with its `msg` -/
  | malformed (msg : String)
  /-- any other exception -/
  | raised (exception : String)

/-- How the planner fails. -/
inductive PlanFailure where
  | output (error : PlannerOutputError)
  /-- any other exception -/
  | raised (exception : String)

/-- A call of `client.complete_json`. -/
structure CompletionRequest where
  systemPrompt : String
  userPayload : PyDict

/-- The planner, and what it takes from elsewhere. -/
structure LLMWorkflowPlanner where
  rules : ArgumentRules
  modelName : String
  retryWithFeedback : Bool := true
  /-- `json.loads` -/
  loads : String → LoadedJson
  /-- `PlannerDecision.model_validate(payload)` -/
  validateDecision : PyDict → Except ValidationProblem PlannerDecision
  /-- what is reported of a payload that is no draft -/
  draftProblem : DraftPayload → ValidationProblem
  /-- what is reported of a condition that is none -/
  conditionProblem : WorkflowCondition → ValidationProblem
  /-- `_planner_system_prompt()` -/
  systemPrompt : String
  /-- `_compact_truncation_retry_payload(payload)` -/
  compactTruncationRetryPayload : PyDict → PyDict

namespace LLMWorkflowPlanner

variable (L : LLMWorkflowPlanner)

/-- `self.planner_model`. -/
def plannerModel : String := "llm-workflow-planner:" ++ L.modelName

/-- The error for a failed validation. -/
def schemaError (message : String) (problem : ValidationProblem) (attempt : ℕ) :
    PlannerOutputError where
  message
  stage := "schema_validation"
  reason := problem.reason
  attempt
  validationErrors := problem.errors

/-- The handler of `ValidationError` in `_parse`. -/
def rejected {α : Type} (problem : ValidationProblem) (attempt : ℕ) : Except PlanFailure α :=
  .error (.output (schemaError "Planner output failed workflow schema validation." problem attempt))

/-- The two passes over proposed nodes, without values made up for missing arguments. -/
def normalizedNodes (rawNodes : List RawNode) (available : Dict String ToolDocument)
    (userRequest : String) (attempt : ℕ) : Except PlanFailure (List PlanNode) :=
  (L.rules.normalizeNodesTwoPass rawNodes available userRequest false attempt).mapError .output

/-- The edges of the nodes. -/
def edgesOf (nodes : List PlanNode) (attempt : ℕ) : Except PlanFailure (List WorkflowEdge) :=
  match deriveEdgesFromNodes L.rules.runtime nodes with
  | .ok edges => .ok edges
  | .error condition => rejected (L.conditionProblem condition) attempt

/-- `_compile_planner_decision_payload(payload, planner_model, user_request, tools, ...)`. -/
def compilePlannerDecisionPayload (payload : PyDict) (userRequest : String)
    (tools : List ToolDocument) (attempt : ℕ) : Except PlanFailure PlannerDraft :=
  match L.validateDecision payload with
  | .error problem =>
      .error (.output (schemaError "Planner decision failed schema validation." problem attempt))
  | .ok decision =>
      let payload : DraftPayload :=
        { userRequest
          plannerModel := L.plannerModel
          confidence := decision.confidence
          nodes := []
          edges := []
          plannerDecision := decision.decision
          reason := decision.reason
          missingContext := decision.missingContext }
      if decision.decision ≠ .plan then
        match payload.validate with
        | some draft => .ok draft
        -- this `ValidationError` reaches the handler of `_parse`
        | none => rejected (L.draftProblem payload) attempt
      else if decision.nodes = [] then
        .error (.output
          { message := "PLAN decision requires at least one node."
            stage := "schema_validation"
            reason :=
              "PLAN decision had no nodes; use CLARIFY or REFUSE for no-action requests"
            attempt })
      else do
        let nodes ← L.normalizedNodes (decision.nodes.map fun proposal => .dict proposal.dump)
          (DeterministicWorkflowPlanner.availableTools tools) userRequest attempt
        let edges ← L.edgesOf nodes attempt
        let compiled := { payload with nodes, edges }
        match compiled.validate with
        | some draft => .ok draft
        | none =>
            .error (.output (schemaError
              "Compiled planner decision failed workflow schema validation."
              (L.draftProblem compiled) attempt))

/-- The proposals among the items of a list. -/
def proposals (items : List Value) : List RawNode :=
  items.filterMap fun
    | .dict fields => some (.dict fields)
    | .str toolName => some (.text toolName)
    | _ => none

/-- The nodes that a plan lists. -/
def listedNodes (candidate : PyDict) (available : Dict String ToolDocument)
    (userRequest : String) : Except PlanFailure (List PlanNode) :=
  match anyOf [getValue candidate "nodes", getValue candidate "steps",
      getValue candidate "workflow_nodes"] with
  | .list items => L.normalizedNodes (proposals items) available userRequest 1
  | _ => .ok []

/-- The nodes of a plan that is written freely: those it lists, or else a sequence of tools. -/
def freeNodes (candidate : PyDict) (available : Dict String ToolDocument) (userRequest : String) :
    Except PlanFailure (List PlanNode) := do
  let nodes ← L.listedNodes candidate available userRequest
  match nodes, getValue candidate "tool_sequence" with
  | [], .list items =>
      L.normalizedNodes (items.map fun item => .text (textOf L.rules.runtime item)) available
        userRequest 1
  | nodes, _ => .ok nodes

/-- `_normalize_plan_payload(payload, planner_model, user_request, tools)`. -/
def normalizePlanPayload (payload : PyDict) (userRequest : String) (tools : List ToolDocument)
    (attempt : ℕ) : Except PlanFailure DraftPayload := do
  let candidate :=
    match getValue payload "workflow" with
    | .dict workflow => workflow
    | _ => payload
  let requestText := anyOf [getValue candidate "user_request", getValue candidate "request",
    .str userRequest]
  let confidence ← (confidenceOf (getValue candidate "confidence")).mapError .raised
  let nodes ← L.freeNodes candidate (DeterministicWorkflowPlanner.availableTools tools) userRequest
  let edges ← L.edgesOf nodes attempt
  .ok
    { userRequest := clip 2000 (textOf L.rules.runtime requestText)
      plannerModel := clip 120 L.plannerModel
      confidence
      nodes
      edges }

/-- `_parse(raw_json, user_request, tools, target_environment, attempt)`. -/
def parse (rawJson : String) (userRequest : String) (tools : List ToolDocument) (attempt : ℕ) :
    Except PlanFailure PlannerDraft :=
  match L.loads rawJson with
  | .raised exception => .error (.raised exception)
  | .malformed msg =>
      .error (.output
        { message := "Planner returned malformed JSON."
          stage := "json_parse"
          reason := msg
          attempt })
  | .value (.dict payload) =>
      if isPlannerDecisionPayload payload then
        L.compilePlannerDecisionPayload payload userRequest tools attempt
      else do
        let normalized ← L.normalizePlanPayload payload userRequest tools attempt
        match normalized.validate with
        | some draft => .ok draft
        | none => rejected (L.draftProblem normalized) attempt
  | .value _ =>
      .error (.output
        { message := "Planner JSON root must be an object."
          stage := "schema_validation"
          reason := "JSON root was not an object"
          attempt })

/-! ## Asking -/

/-- `_is_truncation_error(exc)`. -/
def isTruncationError (exc : PlannerOutputError) : Bool :=
  exc.stage = "provider_response" ∧ exc.finishReason = some "MAX_TOKENS"

/-- What comes of an answer of the client. -/
def parseAnswer (answer : CompletionAnswer) (userRequest : String) (tools : List ToolDocument)
    (attempt : ℕ) : Except PlanFailure PlannerDraft :=
  match answer with
  | .content text => L.parse text userRequest tools attempt
  | .error error => .error (.output error)
  | .raised exception => .error (.raised exception)

/-- The second request, if the first error allows one. -/
def retryRequest (payload : PyDict) (firstError : PlannerOutputError) : Option CompletionRequest :=
  if !L.retryWithFeedback then none
  else if isTruncationError firstError then
    some
      { systemPrompt := L.systemPrompt ++
          String.ofList [Char.ofNat 10, Char.ofNat 10] ++
          "Truncation recovery: return compact JSON only. Use at most 4 nodes, " ++
          "no verbose reason text, and include only required fields."
        userPayload := L.compactTruncationRetryPayload payload }
  else if firstError.stage ∉ ["json_parse", "schema_validation"] then none
  else
    some
      { systemPrompt := L.systemPrompt
        userPayload := (payload.set "correction_feedback" (.str
          ("Previous planner output was rejected. Return only valid JSON matching the " ++
            "PlannerDecision schema. Correct only the reported error unless a requested " ++
            "tool is unavailable. Use CLARIFY when required context is missing and " ++
            "REFUSE when the request is outside governed MCP tools."))).set "previous_error"
          (.dict [("stage", .str firstError.stage), ("reason", .str firstError.reason),
            ("validation_errors",
              .list ((firstError.validationErrors.take 5).map fun error => .dict error))]) }

/-- What the error of the second answer is raised as. -/
def retriedError (secondError : PlannerOutputError) : PlannerOutputError :=
  { secondError with
    attempt := 2
    retryAttempted := true
    retryFailureReason := some secondError.reason }

/-- A call of the planner: what it asked the client for, and what it returns or raises. -/
structure Planned where
  requests : List CompletionRequest
  outcome : Except PlanFailure PlannerDraft

/-- `plan(user_request, tools, ...)` with the payload of the prompt and what the client answers to
its first and to its second request. -/
def plan (userRequest : String) (tools : List ToolDocument) (payload : PyDict)
    (answer : ℕ → CompletionRequest → CompletionAnswer) : Planned :=
  let first : CompletionRequest := { systemPrompt := L.systemPrompt, userPayload := payload }
  match L.parseAnswer (answer 1 first) userRequest tools 1 with
  | .error (.output firstError) =>
      match L.retryRequest payload firstError with
      | none => { requests := [first], outcome := .error (.output firstError) }
      | some second =>
          { requests := [first, second]
            outcome :=
              match L.parseAnswer (answer 2 second) userRequest tools 2 with
              | .error (.output secondError) => .error (.output (retriedError secondError))
              | outcome => outcome }
  | outcome => { requests := [first], outcome }

end LLMWorkflowPlanner

end McpOps
