import McpOps.Discovery.Authorization
import McpOps.Workflow.Validator

/-!
# The nodes of a plan

What the planner makes of one node that a language model proposes: its id, its tool, the
dependencies and the names of other nodes in its references and its condition.  Which values
the other arguments get is left to `ArgumentRules`.

`ArgumentRules.normalizeNode` is `_normalize_node`.  A proposed node may be a `dict` with any keys,
under several names for the same thing, so its fields are read with `anyOf`, which takes the first
true value as `or` does.  Three functions rewrite what one node says of another:

* `canonicalOutputPath` puts an output path in the form that the engine resolves;
* `argumentReference` and `inferredArgumentReference` give an argument its reference, and
  `trustedArgumentsFor` decides for each field of the schema which of them it gets;
* `normalizeTypedCondition` does the same for the reference in a condition.
-/

namespace McpOps

/-- The node as the planner hands it on. -/
structure PlanNode where
  id : String
  toolName : String
  toolServer : String
  description : String
  arguments : PyDict
  argumentReferences : List ArgumentReference
  dependsOn : List String
  condition : Option String
  typedCondition : Option WorkflowCondition
  riskLevel : String
  approvalRequired : Bool
  knowledgeReferences : List String

/-- A proposed node: the name of a tool, or a `dict`. -/
inductive RawNode where
  | text (toolName : String)
  | dict (fields : PyDict)

/-- What the planner puts in the arguments of a tool and the settings it reads. -/
structure ArgumentRules where
  /-- `_arguments_for(tool, user_request, allow_demo_defaults)` -/
  argumentsFor : ToolDocument → (userRequest : String) → (allowDemoDefaults : Bool) → PyDict
  /-- `_sanitize_argument_value(field_name, value, field_schema)` -/
  sanitizeArgumentValue : (fieldName : String) → Value → Option Value → Option Value
  /-- `_current_repository()` -/
  currentRepository : Option String
  runtime : Runtime

/-- `text[:length]`. -/
def clip (length : ℕ) (text : String) : String := String.ofList (text.toList.take length)

/-- `a or b or ...`: the first true value, or else the last one. -/
def anyOf : List Value → Value
  | [] => .null
  | [value] => value
  | value :: rest => if value.truthy then value else anyOf rest

/-- `node.get(key)`. -/
def getValue (fields : PyDict) (key : String) : Value := (fields.get? key).getD .null

/-- The texts among the items of a list. -/
def texts : List Value → List String
  | [] => []
  | .str text :: rest => text :: texts rest
  | _ :: rest => texts rest

/-! ## References -/

/-- `_canonical_output_path(path)`. -/
def canonicalOutputPath (rt : Runtime) (path : String) : String :=
  let normalized := rt.strip path
  let after := fun (start : String) =>
    if start.toList.isPrefixOf normalized.toList then
      some ("data." ++ String.ofList (normalized.toList.drop start.length))
    else none
  match ["output.", "result.", "tool_result.data.", "tool_result."].findSome? after with
  | some path => path
  | none =>
      if "data.".toList.isPrefixOf normalized.toList then normalized else "data." ++ normalized

/-- `_REFERENCE_PATTERN`. -/
def referencePattern : List RegexPiece :=
  [.chars isIdChar 1 (some 120), .oneOf ["."], .chars isPathChar 1 (some 240)]

/-- `_reference(argument, source_node_id, output_path)`. -/
def referenceTo (rt : Runtime) (argument sourceNodeId outputPath : String) : ArgumentReference where
  argument := clip 120 argument
  sourceNodeId := clip 120 sourceNodeId
  outputPath := clip 240 (canonicalOutputPath rt outputPath)

/-- `_argument_reference(argument, value, depends_on)`. -/
def argumentReference (rt : Runtime) (argument : String) (value : Value)
    (dependsOn : List String) : Option ArgumentReference :=
  match value with
  | .dict fields =>
      match fields.lookup "$from" with
      | some (.str source) =>
          match matchPieces referencePattern (rt.strip source).toList with
          | some [sourceNodeId, _, path] =>
              if sourceNodeId ∈ dependsOn then some (referenceTo rt argument sourceNodeId path)
              else none
          | _ => none
      | _ => none
  | _ => none

/-- `_inferred_argument_reference(tool_name, field_name, depends_on)`. -/
def inferredArgumentReference (rt : Runtime) (toolName fieldName : String)
    (dependsOn : List String) : Option ArgumentReference :=
  let along := fun dependency =>
    let mentions := fun (markers : List String) =>
      markers.any fun marker => marker.toList <:+: (rt.lower dependency).toList
    if fieldName = "run_id" ∧ mentions ["build", "workflow", "pipeline"] then
      some (referenceTo rt fieldName dependency "latest_failed_build.id")
    else if fieldName = "job_id" ∧ mentions ["job"] then
      some (referenceTo rt fieldName dependency "jobs.0.id")
    else if fieldName ∈ ["sha", "head"] ∧ mentions ["build", "commit", "change", "diff"] then
      some (referenceTo rt fieldName dependency
        (if mentions ["commit"] then "commits.0.sha" else "latest_failed_build.sha"))
    else none
  match dependsOn.findSome? along with
  | some reference => some reference
  | none =>
      if toolName ∈ ["rerun_workflow", "rerun_build"] ∧ fieldName = "run_id" then
        dependsOn.head?.map fun dependency =>
          referenceTo rt fieldName dependency "latest_failed_build.id"
      else none

/-- `_requires_runtime_binding(field_name)`. -/
def requiresRuntimeBinding (fieldName : String) : Bool :=
  fieldName ∈ ["run_id", "job_id", "sha", "head", "pull_number", "service_name"]

/-- `_is_demo_sentinel_value(field_name, value)`. -/
def isDemoSentinelValue (fieldName : String) (value : Value) : Bool :=
  (fieldName = "run_id" && value.pyEq (.int 9001)) ||
    (fieldName = "job_id" && value.pyEq (.int 101)) ||
    (fieldName ∈ ["sha", "head", "base"] && value.pyEq (.str "abc1234")) ||
    (fieldName = "pull_number" && value.pyEq (.int 31))

namespace ArgumentRules

variable (R : ArgumentRules)

/-- `_placeholder_for_field(field_name, field_schema, allow_demo_defaults, reference_target)`. -/
def placeholderForField (fieldName : String) (fieldSchema : Option Value)
    (allowDemoDefaults : Bool) (referenceTarget : Bool := false) : Option Value :=
  match fieldSchema with
  | some (.dict schema) =>
      match schema.lookup "type" with
      | some (.str "integer") => some (.int 0)
      | some (.str "boolean") => some (.bool false)
      | some (.str "array") => some (.list [])
      | some (.str "object") => some (.dict [])
      | some (.str "string") =>
          if fieldName ∈ ["sha", "head", "base"] ∧ referenceTarget then some (.str "0000000")
          else if fieldName = "repository" then
            match R.currentRepository with
            | some repository => some (.str repository)
            | none => if allowDemoDefaults then some (.str "ImmanuelP31/MCP_AI") else none
          else if fieldName = "device_id" then
            if allowDemoDefaults then some (.str "SIM-014") else none
          else some (.str "pending-runtime-binding")
      | _ => none
  | _ => none

/-- The arguments with a placeholder, if there is one. -/
def place (arguments : PyDict) (key : String) (placeholder : Option Value) : PyDict :=
  match placeholder with
  | some value => arguments.set key value
  | none => arguments

/-- `_trusted_arguments_for(tool, user_request, proposed, depends_on, allow_demo_defaults)`. -/
def trustedArgumentsFor (tool : ToolDocument) (userRequest : String) (proposed : PyDict)
    (dependsOn : List String) (allowDemoDefaults : Bool) : PyDict × List ArgumentReference :=
  let arguments := R.argumentsFor tool userRequest allowDemoDefaults
  match (tool.inputSchema.get? "properties").getD (.dict []) with
  | .dict properties =>
      let offered := proposed.foldl (fun (result : PyDict × List ArgumentReference) entry =>
        if entry.1 = "actor_role" ∨ entry.1 ∉ properties.map Prod.fst then result
        else
          match argumentReference R.runtime entry.1 entry.2 dependsOn with
          | some reference =>
              if entry.1 ∈ result.1.map Prod.fst then (result.1, result.2 ++ [reference])
              else (place result.1 entry.1
                (R.placeholderForField entry.1 (properties.lookup entry.1) allowDemoDefaults true),
                result.2 ++ [reference])
          | none =>
              if !allowDemoDefaults && isDemoSentinelValue entry.1 entry.2 then result
              else (place result.1 entry.1
                (R.sanitizeArgumentValue entry.1 entry.2 (properties.lookup entry.1)), result.2))
        (arguments, [])
      let required :=
        match (tool.inputSchema.get? "required").getD (.list []) with
        | .list items => ((texts items).filter (· ≠ "actor_role")).eraseDups
        | _ => []
      (sortedTexts (required.filter (· ∉ offered.1.map Prod.fst))).foldl (fun result key =>
        match inferredArgumentReference R.runtime tool.name key dependsOn with
        | some inferred =>
            (place result.1 key
              (R.placeholderForField key (properties.lookup key) allowDemoDefaults true),
              result.2 ++ [inferred])
        | none =>
            if !allowDemoDefaults && requiresRuntimeBinding key then result
            else (place result.1 key
              (R.placeholderForField key (properties.lookup key) allowDemoDefaults), result.2))
        offered
  | _ => (arguments, [])

end ArgumentRules

/-! ## Conditions -/

/-- The operators of a typed condition by their texts. -/
def operatorTexts : List (String × ConditionOperator) :=
  [("eq", .eq), ("ne", .ne), ("gt", .gt), ("gte", .gte), ("lt", .lt), ("lte", .lte),
    ("contains", .contains), ("exists", .exist)]

/-- `_normalize_typed_condition(value, depends_on)`. -/
def normalizeTypedCondition (rt : Runtime) (value : Value) (dependsOn : List String) :
    Option WorkflowCondition :=
  match value with
  | .dict fields =>
      let operator := rt.lower (textOf rt (anyOf [getValue fields "operator", .str "eq"]))
      match anyOf [getValue fields "source_node_id", getValue fields "source",
          getValue fields "$from"],
        anyOf [getValue fields "output_path", getValue fields "path"],
        operatorTexts.lookup operator with
      | .str source, .str path, some operator =>
          if source ∈ dependsOn ∧ isSafePath path then
            some
              { sourceNodeId := clip 120 source
                outputPath := clip 240 (canonicalOutputPath rt path)
                operator
                value := getValue fields "value" }
          else none
      | _, _, _ => none
  | .str text =>
      match matchPieces (legacyConditionPattern rt) (rt.strip text).toList with
      | some [source, _, path, _, operator, _, _, value, _] =>
          if source ∈ dependsOn then
            some
              { sourceNodeId := clip 120 source
                outputPath := clip 240 (canonicalOutputPath rt path)
                operator := operatorFromLegacy operator
                value := coerceScalar rt (rt.strip value) }
          else none
      | _ => none
  | _ => none

/-- `_optional_string(value, max_length)`. -/
def optionalString (rt : Runtime) (value : Value) (maxLength : ℕ) : Option String :=
  match value with
  | .null => none
  | value =>
      let text := rt.strip (textOf rt value)
      if text = "" then none else some (clip maxLength text)

/-! ## Nodes -/

/-- The texts that `knowledge_references` holds. -/
def knowledgeTexts (value : Option Value) : List String :=
  match value.getD (.list []) with
  | .list items => (texts items).map (clip 128)
  | _ => []

/-- `_normalize_node(index, node, available, user_request, allow_demo_defaults)`. -/
def ArgumentRules.normalizeNode (R : ArgumentRules) (index : ℕ) (raw : RawNode)
    (available : Dict String ToolDocument) (userRequest : String) (allowDemoDefaults : Bool) :
    PlanNode :=
  let rt := R.runtime
  let node : PyDict :=
    match raw with
    | .text toolName => [("tool_name", .str toolName)]
    | .dict fields => fields
  let toolName := rt.strip (textOf rt (anyOf [getValue node "tool_name", getValue node "tool",
    getValue node "tool_id", getValue node "name", .str ""]))
  let id := rt.strip (textOf rt (anyOf [getValue node "id", .str toolName, .str s!"node_{index}"]))
  let dependsOn := (match (node.get? "depends_on").getD (.list []) with
    | .str dependency => [Value.str dependency]
    | .list items => items
    | _ => []).map fun item => clip 120 (textOf rt item)
  let arguments :=
    match (node.get? "arguments").getD (.dict []) with
    | .dict arguments => arguments
    | _ => []
  let typedCondition := normalizeTypedCondition rt
    ((node.get? "typed_condition").getD (getValue node "condition")) dependsOn
  match available.get? toolName with
  | some trusted =>
      let made := R.trustedArgumentsFor trusted userRequest arguments dependsOn allowDemoDefaults
      { id := clip 120 id
        toolName := trusted.name
        toolServer := trusted.server
        description := trusted.description
        arguments := made.1
        argumentReferences := made.2
        dependsOn
        condition :=
          match getValue node "condition" with
          | .str text => optionalString rt (.str text) 300
          | _ => none
        typedCondition
        riskLevel := trusted.riskLevel
        approvalRequired := trusted.riskLevel ∈ ["HIGH", "CRITICAL"]
        knowledgeReferences := knowledgeTexts (node.get? "knowledge_references") }
  | none =>
      { id := clip 120 id
        toolName := clip 128 toolName
        toolServer := clip 128 (textOf rt (anyOf [getValue node "tool_server",
          getValue node "server", .str "unknown-mcp"]))
        description := clip 500 (textOf rt (anyOf [getValue node "description",
          .str s!"Run {toolName}."]))
        arguments
        argumentReferences := []
        dependsOn
        condition := optionalString rt (getValue node "condition") 300
        typedCondition
        riskLevel := clip 32 (textOf rt (anyOf [getValue node "risk_level", .str "LOW"]))
        approvalRequired := (getValue node "approval_required").truthy
        knowledgeReferences := knowledgeTexts (node.get? "knowledge_references") }

end McpOps
