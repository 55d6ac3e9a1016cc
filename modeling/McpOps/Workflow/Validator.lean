import Mathlib.Data.List.Sort
import McpOps.Workflow.Conditions
import McpOps.Workflow.Policy
import McpOps.Workflow.Repository

/-!
# Plan validation

From a plan draft to a stored workflow: the checks of the validator, and the metadata it writes
over the draft's nodes.

The issues are collected in the order of the source, with their codes, messages and nodes: those
with the tool and the arguments of each node, those with what the nodes refer to, and a cycle.  A
draft with any issue is refused as a whole.  The nodes of an accepted draft are normalized: the
risk, the approval, the retries and the time limit come from the metadata of their tools.

The search for a cycle is the recursion of the source.  Its fuel is given by the keys of the
graph: every call adds one of them to the ids that are being visited.
-/

namespace McpOps

open Proc

/-- `_issue(code, message, node_id)`. -/
def issue (code message : String) (nodeId : Option String := none) : WorkflowValidationIssue :=
  { code, message, nodeId }

/-- `sorted(texts)`. -/
def sortedTexts (texts : List String) : List String :=
  texts.insertionSort fun a b => ¬ b < a

/-! ## Arguments -/

/-- The number that an `int`, or a `bool`, of a schema stands for. -/
def schemaInt? : Option Value → Option ℤ
  | some (.int n) => some n
  | some (.bool b) => some (if b then 1 else 0)
  | _ => none

/-- The type names of `_validate_field`: whether a value has the type, and what is said when it
has not. -/
def fieldTypes : List (String × (Value → Bool) × String) :=
  [("string", fun v => v matches .str _, "a string"),
    ("integer", fun v => v matches .int _, "an integer"),
    ("boolean", fun v => v matches .bool _, "a boolean"),
    ("object", fun v => v matches .dict _, "an object"),
    ("array", fun v => v matches .list _, "an array")]

/-- `_validate_field(node_id, field_name, value, field_schema)`. -/
def validateField (rt : Runtime) (nodeId fieldName : String) (value : Value)
    (fieldSchema : PyDict) : List WorkflowValidationIssue :=
  let invalid := fun text => issue "invalid_arguments" (fieldName ++ text) (some nodeId)
  let typeIssues := fieldTypes.filterMap fun (name, hasType, text) =>
    if (fieldSchema.get? "type").any (·.pyEq (.str name)) ∧ ¬ hasType value then
      some (invalid s!" must be {text}.")
    else none
  let patternIssues :=
    match fieldSchema.get? "pattern", value with
    | some (.str pattern), .str text =>
        if rt.reMatch pattern text then [] else [invalid " does not match pattern."]
    | _, _ => []
  let shortIssues :=
    match schemaInt? (fieldSchema.get? "minLength"), value with
    | some least, .str text => if text.length < least then [invalid " is too short."] else []
    | _, _ => []
  let longIssues :=
    match schemaInt? (fieldSchema.get? "maxLength"), value with
    | some most, .str text => if most < text.length then [invalid " is too long."] else []
    | _, _ => []
  let enumIssues :=
    match fieldSchema.get? "enum" with
    | some (.list values) =>
        if values.any fun allowed => allowed.pyEq value then []
        else [invalid " is not an allowed value."]
    | _ => []
  typeIssues ++ patternIssues ++ shortIssues ++ longIssues ++ enumIssues

/-- `str(value)`, a text being its own. -/
def textOf (rt : Runtime) : Value → String
  | .str text => text
  | value => rt.str value

/-- The comma-separated texts. -/
def joined (texts : List String) : String := ", ".intercalate texts

/-- `_validate_arguments(node, role, metadata)` for the schema of the tool. -/
def validateArguments (rt : Runtime) (node : WorkflowNode) (role : String)
    (metadata : ToolMetadata) (schema : PyDict) : List WorkflowValidationIssue :=
  let payload : PyDict := node.arguments.foldl (fun (d : PyDict) e => d.set e.1 e.2)
    [("actor_role", .str role)]
  match (schema.get? "properties").getD (.dict []) with
  | .dict properties =>
      let rejected := sortedTexts
        ((payload.map Prod.fst).filter fun key => key ∉ properties.map Prod.fst)
      let rejectedIssues :=
        match schema.get? "additionalProperties" with
        | some (.bool false) =>
            if rejected = [] then []
            else [issue "invalid_arguments"
              ("Unsupported argument fields: " ++ joined rejected ++ ".")
              (some node.id)]
        | _ => []
      let missingIssues :=
        match (schema.get? "required").getD (.list []) with
        | .list required =>
            let missing := sortedTexts ((required.map (textOf rt)).filter fun field =>
              field ∉ payload.map Prod.fst ∧
                ¬ (field = "approval_token" ∧ metadata.requiresApproval))
            if missing = [] then []
            else [issue "invalid_arguments"
              ("Missing required arguments: " ++ joined missing ++ ".")
              (some node.id)]
        | _ => []
      let fieldIssues := payload.flatMap fun (fieldName, value) =>
        match PyDict.get? properties fieldName with
        | some (.dict fieldSchema) => validateField rt node.id fieldName value fieldSchema
        | _ => []
      rejectedIssues ++ missingIssues ++ fieldIssues
  | _ => [issue "invalid_schema" "Tool input schema is malformed." (some node.id)]

/-! ## Structure -/

/-- `safe_path.match(path) is not None`. -/
def isSafePath (path : String) : Bool :=
  (matchPieces [.chars isPathChar 1 (some 240)] path.toList).isSome

/-- `_validate_dependencies(nodes, node_ids)`. -/
def validateDependencies (nodes : List WorkflowNode) (nodeIds : List String) :
    List WorkflowValidationIssue :=
  nodes.flatMap fun node => node.dependsOn.filterMap fun dependency =>
    if dependency ∈ nodeIds then none
    else some (issue "missing_dependency" s!"Dependency {dependency} does not exist."
      (some node.id))

/-- `_validate_argument_references(nodes, node_ids)`. -/
def validateArgumentReferences (nodes : List WorkflowNode) (nodeIds : List String) :
    List WorkflowValidationIssue :=
  nodes.flatMap fun node => node.argumentReferences.flatMap fun reference =>
    let invalid := fun text => issue "invalid_argument_reference" text (some node.id)
    (if reference.argument ∈ node.arguments.map Prod.fst then []
      else [invalid s!"Reference target {reference.argument} is not a node argument."]) ++
    (if reference.sourceNodeId ∈ nodeIds then []
      else [invalid s!"Reference source {reference.sourceNodeId} does not exist."]) ++
    (if reference.sourceNodeId ∈ node.dependsOn then []
      else [invalid s!"Reference source {reference.sourceNodeId} must be a dependency."]) ++
    (if isSafePath reference.outputPath then []
      else [invalid s!"Reference output path {reference.outputPath} is unsafe."])

/-- `_validate_typed_conditions(nodes, node_ids)`. -/
def validateTypedConditions (nodes : List WorkflowNode) (nodeIds : List String) :
    List WorkflowValidationIssue :=
  nodes.flatMap fun node =>
    let invalid := fun text => issue "invalid_condition" text (some node.id)
    match node.typedCondition with
    | none => []
    | some condition =>
        (if condition.sourceNodeId ∈ nodeIds then []
          else [invalid s!"Condition source {condition.sourceNodeId} does not exist."]) ++
        (if condition.sourceNodeId ∈ node.dependsOn then []
          else [invalid s!"Condition source {condition.sourceNodeId} must be a dependency."]) ++
        (if isSafePath condition.outputPath then []
          else [invalid s!"Condition output path {condition.outputPath} is unsafe."])

/-- `_validate_edges(draft, node_ids)`. -/
def validateEdges (edges : List WorkflowEdge) (nodeIds : List String) :
    List WorkflowValidationIssue :=
  edges.flatMap fun edge =>
    (if edge.source ∈ nodeIds then []
      else [issue "missing_edge_source" s!"Edge source {edge.source} missing."]) ++
    (if edge.destination ∈ nodeIds then []
      else [issue "missing_edge_destination" s!"Edge destination {edge.destination} missing."])

/-- The graph of `_validate_acyclic`: dependencies and edges, towards the sources. -/
def dependencyGraph (draft : WorkflowPlanDraft) : Dict String (List String) :=
  let graph := draft.nodes.foldl (fun g node => g.set node.id node.dependsOn) Dict.empty
  draft.edges.foldl
    (fun g edge =>
      g.set edge.destination ((g.get? edge.destination).getD [] ++ [edge.source])) graph

/-- `visit(node_id)`: the visited ids afterwards, or nothing when it meets an id that is being
visited.  Every call adds a key of the graph to those, so as many nested calls as there are
keys are enough fuel. -/
def visit (graph : Dict String (List String)) :
    ℕ → List String → List String → String → Option (List String)
  | 0, _, _, _ => none
  | fuel + 1, visiting, visited, nodeId =>
      if nodeId ∈ visiting then none
      else if nodeId ∈ visited then some visited
      else do
        let visited ← ((graph.get? nodeId).getD []).foldlM
          (fun visited dependency =>
            if dependency ∈ graph.keys then visit graph fuel (nodeId :: visiting) visited dependency
            else some visited) visited
        some (nodeId :: visited)

/-- The first id from which `visit` finds a cycle. -/
def findCycle (graph : Dict String (List String)) : List String → List String → Option String
  | _, [] => none
  | visited, nodeId :: rest =>
      match visit graph (graph.size + 1) [] visited nodeId with
      | none => some nodeId
      | some visited => findCycle graph visited rest

/-- `_validate_acyclic(draft)`. -/
def validateAcyclic (draft : WorkflowPlanDraft) : List WorkflowValidationIssue :=
  let graph := dependencyGraph draft
  match findCycle graph [] graph.keys with
  | some nodeId => [issue "cycle_detected" "Workflow graph must be acyclic." (some nodeId)]
  | none => []

/-! ## The validator -/

/-- `_classify_risk(node, metadata)`. -/
def classifyRisk (node : WorkflowNode) (metadata : ToolMetadata) : WorkflowNode :=
  { node with
    toolServer := metadata.server
    riskLevel := metadata.riskLevel.value
    approvalRequired :=
      metadata.requiresApproval || metadata.riskLevel ∈ highRisk || node.approvalRequired
    maxRetries := metadata.defaultMaxRetries
    retryStrategy := metadata.retryStrategy
    timeoutSeconds := metadata.timeoutSeconds
    compensationTool := metadata.compensationTool }

structure WorkflowValidator where
  registry : ToolRegistry
  inputSchemas : List (String × PyDict) := []
  maxNodes : ℕ := 20
  maxEdges : ℕ := 50
  runtime : Runtime

namespace WorkflowValidator

variable (V : WorkflowValidator)

/-- The issues with the tool and the arguments of a node. -/
def nodeIssues (role : String) (allowedToolNames : List String) (node : WorkflowNode) :
    List WorkflowValidationIssue :=
  match V.registry.lookup node.toolName with
  | none => [issue "unknown_tool" s!"Tool {node.toolName} does not exist." (some node.id)]
  | some metadata =>
      (if node.toolName ∈ allowedToolNames then []
        else [issue "tool_not_discovered"
          s!"Tool {node.toolName} was not in the policy-filtered discovery set." (some node.id)]) ++
      (if metadata.enabled then []
        else [issue "tool_disabled" s!"Tool {node.toolName} is disabled." (some node.id)]) ++
      (match V.inputSchemas.lookup node.toolName with
        | none => []
        | some schema => validateArguments V.runtime node role metadata schema)

/-- The node with the metadata of its tool written over what the draft says. -/
def normalizeNode (node : WorkflowNode) : WorkflowNode :=
  match V.registry.lookup node.toolName with
  | none => node
  | some metadata => classifyRisk node metadata

/-- All issues of a draft. -/
def issues (draft : WorkflowPlanDraft) (role : String) (allowedToolNames : List String) :
    List WorkflowValidationIssue :=
  let nodeIds := draft.nodes.map (·.id)
  (if V.maxNodes < draft.nodes.length then
    [issue "workflow_too_large" "Workflow exceeds maximum node count."] else []) ++
  (if V.maxEdges < draft.edges.length then
    [issue "workflow_too_large" "Workflow exceeds maximum edge count."] else []) ++
  (if nodeIds.Nodup then [] else [issue "duplicate_node_id" "Workflow node IDs must be unique."]) ++
  draft.nodes.flatMap (V.nodeIssues role allowedToolNames) ++
  validateDependencies draft.nodes nodeIds ++
  validateArgumentReferences draft.nodes nodeIds ++
  validateTypedConditions draft.nodes nodeIds ++
  validateEdges draft.edges nodeIds ++
  validateAcyclic draft

/-- `validate(draft, ...)`. -/
def validate (draft : WorkflowPlanDraft) (createdBy role : String)
    (allowedToolNames : List String) (targetEnvironment : String := "dev") : EngineM Workflow := do
  if V.issues draft role allowedToolNames ≠ [] then
    .raise (.invalidWorkflow (V.issues draft role allowedToolNames))
  else if hasLength 1 160 createdBy ∧ hasLength 1 64 targetEnvironment then do
    let id ← freshUuid
    let createdAt ← timeNow
    pure
      { id
        userRequest := draft.userRequest
        status := .validated
        createdBy
        createdAt
        targetEnvironment
        plannerModel := draft.plannerModel
        confidence := draft.confidence
        nodes := draft.nodes.map fun node => { V.normalizeNode node with workflowId := some id }
        edges := draft.edges }
  else .raise (.validation "Workflow")

end WorkflowValidator

end McpOps
