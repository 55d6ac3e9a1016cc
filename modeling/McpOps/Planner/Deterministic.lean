import McpOps.Discovery.Authorization
import McpOps.Workflow.Limits

/-!
# The deterministic planner

The planner without a language model: one of a few workflows, chosen by words of the request and
cut down to the tools that are there.  A plan is missing where one of its models refuses a field.

A workflow is a list of `PlanStep`s.  `addStep` adds the node of a step when its tool is available,
and lets it depend on the steps before it that were added; `linearWorkflow` goes through such a
list.  The failure workflow has a record at its end that is made only under a condition
(`recordCondition`, `addRecord`).  `plan` is the choice between them, in the order of the source's
branches: the first word that is found decides.
-/

namespace McpOps

/-- What the planner takes from elsewhere. -/
structure DeterministicWorkflowPlanner where
  runtime : Runtime
  /-- `_arguments_for(tool, user_request)` -/
  argumentsFor : ToolDocument → (userRequest : String) → PyDict
  /-- `_references_from_knowledge(knowledge, node_id)` -/
  knowledgeReferences : (nodeId : String) → List String

/-- A step of a workflow: an id, the name of a tool, the ids of other steps. -/
structure PlanStep where
  id : String
  toolName : String
  dependsOn : List String

/-- What a workflow is built from. -/
structure PlanParts where
  nodes : List WorkflowNode := []
  edges : List WorkflowEdge := []
  existingIds : List String := []

/-- `_first_available(available, *names)`. -/
def firstAvailable (available : Dict String ToolDocument) (first : String)
    (others : List String) : String :=
  ((first :: others).find? (· ∈ available.keys)).getD first

namespace DeterministicWorkflowPlanner

variable (P : DeterministicWorkflowPlanner)

/-- `DeterministicWorkflowPlanner.planner_model`. -/
def plannerModel : String := "deterministic-workflow-planner-v1"

/-- `_node(node_id, tool, user_request, ...)`. -/
def node (nodeId : String) (tool : ToolDocument) (userRequest : String)
    (dependsOn : List String := []) (condition : Option String := none)
    (typedCondition : Option WorkflowCondition := none) : Option WorkflowNode :=
  if h : 1 ≤ nodeId.length ∧ nodeId.length ≤ 120 then
    let made : WorkflowNode :=
      { id := nodeId
        toolName := tool.name
        toolServer := tool.server
        description := tool.description
        arguments := P.argumentsFor tool userRequest
        dependsOn
        condition
        typedCondition
        riskLevel := tool.riskLevel
        approvalRequired := tool.riskLevel ∈ ["HIGH", "CRITICAL"]
        knowledgeReferences := P.knowledgeReferences nodeId
        id_length := h }
    if made.valid then some made else none
  else none

/-- One step of the loop over the steps of a workflow. -/
def addStep (available : Dict String ToolDocument) (userRequest : String) (parts : PlanParts)
    (step : PlanStep) : Option PlanParts :=
  match available.get? step.toolName with
  | none => some parts
  | some tool => do
      let safeDependsOn := step.dependsOn.filter (· ∈ parts.existingIds)
      let made ← P.node step.id tool userRequest safeDependsOn
      some
        { nodes := parts.nodes ++ [made]
          edges := parts.edges ++
            safeDependsOn.map fun dep => { source := dep, destination := step.id }
          existingIds := parts.existingIds ++ [step.id] }

/-- `_fallback_nodes(user_request, available, knowledge)`. -/
def fallbackNodes (available : Dict String ToolDocument) (userRequest : String) :
    Option (List WorkflowNode) :=
  ((available.values.take 3).zipIdx 1).mapM fun (tool, index) =>
    P.node s!"tool_{index}" tool userRequest

/-- The draft of the parts, with the fallback in place of no nodes. -/
def draft (available : Dict String ToolDocument) (userRequest : String) (confidence : ℚ)
    (parts : PlanParts) : Option WorkflowPlanDraft :=
  let nodes := if parts.nodes = [] then P.fallbackNodes available userRequest else some parts.nodes
  nodes.bind fun nodes =>
    let made : WorkflowPlanDraft :=
      { userRequest
        plannerModel
        confidence := .finite confidence
        nodes
        edges := parts.edges }
    if made.valid then some made else none

/-- `_linear_workflow(user_request, available, ordered, confidence, knowledge)`. -/
def linearWorkflow (available : Dict String ToolDocument) (userRequest : String)
    (ordered : List PlanStep) (confidence : ℚ) : Option WorkflowPlanDraft := do
  let parts ← ordered.foldlM (P.addStep available userRequest) {}
  P.draft available userRequest confidence parts

/-- A word stands in the request. -/
def mentions (userRequest word : String) : Bool :=
  word.toList <:+: (P.runtime.lower userRequest).toList

/-- `requested_record_tool`. -/
def requestedRecordTool (available : Dict String ToolDocument) (userRequest : String) :
    Option String :=
  if P.mentions userRequest "issue" ∧ "create_issue" ∈ available.keys then some "create_issue"
  else if (P.mentions userRequest "ticket" ∨ P.mentions userRequest "if") ∧
      "create_ticket" ∈ available.keys then some "create_ticket"
  else none

/-- The condition of the node that records a failure. -/
def recordCondition : WorkflowCondition where
  sourceNodeId := "failure_analysis"
  outputPath := "data.source"
  operator := .eq
  value := .str "source_code_failure"

/-- The node that records a failure, and its edge. -/
def addRecord (available : Dict String ToolDocument) (userRequest : String) (parts : PlanParts) :
    Option PlanParts :=
  match P.requestedRecordTool available userRequest with
  | none => some parts
  | some toolName =>
      match available.get? toolName with
      | none => some parts
      | some tool => do
          let safeDependsOn :=
            if "failure_analysis" ∈ parts.existingIds then ["failure_analysis"] else []
          let made ← P.node toolName tool userRequest safeDependsOn
            (some "failure_analysis.source == 'source_code_failure'") (some recordCondition)
          some
            { parts with
              nodes := parts.nodes ++ [made]
              edges := parts.edges ++ safeDependsOn.map fun dep =>
                { source := dep, destination := toolName
                  condition := some "source_code_failure" } }

/-- The steps of `_build_failure_workflow`. -/
def buildFailureSteps (available : Dict String ToolDocument) : List PlanStep :=
  [⟨"build_status", "get_build_status", []⟩,
    ⟨"pipeline_logs", "get_pipeline_logs", ["build_status"]⟩,
    ⟨"recent_commits", firstAvailable available "get_recent_commits" ["get_commit_history"],
      ["pipeline_logs"]⟩,
    ⟨"failure_analysis", "analyze_build_failure", ["pipeline_logs", "recent_commits"]⟩]

/-- `_build_failure_workflow(user_request, available, knowledge)`. -/
def buildFailureWorkflow (available : Dict String ToolDocument) (userRequest : String) :
    Option WorkflowPlanDraft := do
  let parts ← (buildFailureSteps available).foldlM (P.addStep available userRequest) {}
  let parts ← P.addRecord available userRequest parts
  P.draft available userRequest (88 / 100) parts

/-- `_deployment_workflow(user_request, available, knowledge)`. -/
def deploymentWorkflow (available : Dict String ToolDocument) (userRequest : String) :
    Option WorkflowPlanDraft :=
  P.linearWorkflow available userRequest
    [⟨"build_status", "get_build_status", []⟩, ⟨"run_tests", "run_tests", ["build_status"]⟩,
      ⟨"deploy_staging", "deploy_staging", ["run_tests"]⟩,
      ⟨"deployment_status", "get_deployment_status", ["deploy_staging"]⟩] (87 / 100)

/-- `_service_restart_workflow(user_request, available, knowledge)`. -/
def serviceRestartWorkflow (available : Dict String ToolDocument) (userRequest : String) :
    Option WorkflowPlanDraft :=
  P.linearWorkflow available userRequest
    [⟨"recent_errors", "get_recent_errors", []⟩,
      ⟨"device_services", "get_device_services", ["recent_errors"]⟩,
      ⟨"restart_service", "restart_service", ["device_services"]⟩] (84 / 100)

/-- `_ticket_workflow(user_request, available, knowledge)`. -/
def ticketWorkflow (available : Dict String ToolDocument) (userRequest : String) :
    Option WorkflowPlanDraft :=
  P.linearWorkflow available userRequest
    [⟨"device_status", "get_device_status", []⟩,
      ⟨"recent_errors", "get_recent_errors", ["device_status"]⟩,
      ⟨"create_ticket", "create_ticket", ["recent_errors"]⟩] (86 / 100)

/-- `_documentation_workflow(user_request, available, knowledge)`. -/
def documentationWorkflow (available : Dict String ToolDocument) (userRequest : String) :
    Option WorkflowPlanDraft :=
  P.linearWorkflow available userRequest
    [⟨"search_documentation",
        firstAvailable available "search_documentation" ["search_knowledge"], []⟩,
      ⟨"get_runbook", firstAvailable available "get_runbook" ["get_procedure"],
        ["search_documentation"]⟩] (82 / 100)

/-- `_general_investigation_workflow(user_request, available, knowledge)`. -/
def generalInvestigationWorkflow (available : Dict String ToolDocument) (userRequest : String) :
    Option WorkflowPlanDraft :=
  P.draft available userRequest (72 / 100) {}

/-- `{tool.name: tool for tool in tools}`. -/
def availableTools (tools : List ToolDocument) : Dict String ToolDocument :=
  tools.foldl (fun available tool => available.set tool.name tool) Dict.empty

/-- The request is about a build. -/
def aboutBuild (userRequest : String) : Bool :=
  P.mentions userRequest "build" || P.mentions userRequest "pipeline" || P.mentions userRequest "ci"

/-- `plan(user_request, tools, ...)`; the role and the environment are not read. -/
def plan (userRequest : String) (tools : List ToolDocument) : Option WorkflowPlanDraft :=
  let available := availableTools tools
  if P.aboutBuild userRequest then P.buildFailureWorkflow available userRequest
  else if P.mentions userRequest "deploy" ∨ P.mentions userRequest "deployment" ∨
      P.mentions userRequest "release" then P.deploymentWorkflow available userRequest
  else if P.mentions userRequest "restart" ∧ P.mentions userRequest "service" then
    P.serviceRestartWorkflow available userRequest
  else if P.mentions userRequest "ticket" then P.ticketWorkflow available userRequest
  else if P.mentions userRequest "documentation" ∨ P.mentions userRequest "docs" ∨
      P.mentions userRequest "runbook" then P.documentationWorkflow available userRequest
  else P.generalInvestigationWorkflow available userRequest

end DeterministicWorkflowPlanner

end McpOps
