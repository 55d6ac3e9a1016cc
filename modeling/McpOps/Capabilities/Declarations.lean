import Mathlib.Algebra.Field.Rat
import McpOps.Capabilities.Graph
import McpOps.Lib.Traversal
import McpOps.Python.Sorting

/-!
# The edges of the capability graph

A tool that declares what it takes and what it gives has an edge for each pair of these; for other
tools there is a table, `TOOL_RESOURCE_MAP`.  Prerequisites are what the tool declares, or what the
table has.

`buildEdges` goes through the registry in the order of the names and builds each edge with
`declaredEdge`, which is refused outside the limits of `CapabilityEdge` (`CapabilityEdge.valid`).
`mem_buildEdges` is what the other modules use of it: every edge belongs to a declaration of a
registered tool, and carries that tool's risk, cost and approval.
-/

namespace McpOps

/-! ## Declarations -/

/-- The metadata of a tool, with the fields that the graph reads. -/
structure CapabilityMetadata extends ToolMetadata where
  inputResourceTypes : List String := []
  outputResourceTypes : List String := []
  preconditions : List String := []
  costWeight : ℚ≥0 := 1

/-- A declaration: from which resource type a tool leads to which. -/
structure ResourceDeclaration where
  sourceType : String
  destinationType : String
  prerequisites : List String := []
  cost : ℚ≥0

/-- `TOOL_RESOURCE_MAP`. -/
def toolResourceMap : List (String × ResourceDeclaration) :=
  [("get_commit_history", ⟨"repository", "commit_history", [], 1⟩),
    ("get_recent_commits", ⟨"repository", "commit_history", [], 1⟩),
    ("list_recent_commits", ⟨"repository", "commit_history", [], 1⟩),
    ("get_changed_files", ⟨"commit_history", "changed_files", [], 1⟩),
    ("summarize_diff", ⟨"changed_files", "diff_summary", [], 6 / 5⟩),
    ("get_pull_request", ⟨"repository", "pull_request", [], 11 / 10⟩),
    ("get_build_status", ⟨"repository", "build_pipeline", [], 1⟩),
    ("get_failed_jobs", ⟨"build_pipeline", "failed_build", [], 1⟩),
    ("get_pipeline_logs", ⟨"failed_build", "build_logs", [], 1⟩),
    ("analyze_build_failure", ⟨"build_logs", "failure_analysis", ["build_logs"], 3 / 2⟩),
    ("run_tests", ⟨"repository", "test_result", [], 2⟩),
    ("rerun_build", ⟨"failure_analysis", "build_pipeline", ["failure_analysis"], 2⟩),
    ("deploy_staging", ⟨"test_result", "staging_environment", ["test_result"], 3⟩),
    ("get_deployment_status", ⟨"staging_environment", "deployment", [], 1⟩),
    ("compare_deployments", ⟨"deployment", "deployment_comparison", [], 6 / 5⟩),
    ("rollback_production", ⟨"deployment", "production_environment", ["deployment"], 5⟩),
    ("delete_bad_deployment", ⟨"deployment", "deleted_deployment", ["approval"], 8⟩),
    ("create_ticket", ⟨"failure_analysis", "ticket", [], 6 / 5⟩),
    ("search_documentation", ⟨"service", "documentation", [], 1⟩),
    ("get_runbook", ⟨"service", "documentation", [], 1⟩),
    ("get_service_owner", ⟨"service", "owner", [], 4 / 5⟩)]

/-- `_declarations_for(tool_name, metadata)`. -/
def declarationsFor (toolName : String) (metadata : CapabilityMetadata) :
    List ResourceDeclaration :=
  if metadata.inputResourceTypes ≠ [] ∧ metadata.outputResourceTypes ≠ [] then
    metadata.inputResourceTypes.flatMap fun source =>
      metadata.outputResourceTypes.map fun destination =>
        ⟨source, destination, metadata.preconditions, metadata.costWeight⟩
  else (toolResourceMap.lookup toolName).toList

/-! ## Edges -/

/-- The edge of a declaration. -/
def declaredEdge (toolName : String) (metadata : CapabilityMetadata)
    (declaration : ResourceDeclaration) : CapabilityEdge where
  sourceType := declaration.sourceType
  destinationType := declaration.destinationType
  toolName := toolName
  mcpServer := metadata.server
  cost := (if metadata.costWeight ≠ 1 then metadata.costWeight else declaration.cost : ℚ≥0)
  risk := metadata.riskLevel.value
  prerequisites := declaration.prerequisites
  enabled := metadata.enabled
  cost_nonneg := NNRat.coe_nonneg _

/-- The limits of `CapabilityEdge`. -/
def CapabilityEdge.valid (edge : CapabilityEdge) : Bool :=
  hasLength 1 80 edge.sourceType && hasLength 1 80 edge.destinationType &&
    hasLength 1 128 edge.toolName && hasLength 1 128 edge.mcpServer

/-- `_build_edges()`.  A `sorted` registry is in the order of its names. -/
def buildEdges (registry : List (String × CapabilityMetadata)) :
    Except EngineError (List CapabilityEdge) :=
  ((sortedBy (fun entry => ⟨[], [entry.1]⟩) registry).flatMap fun entry =>
    (declarationsFor entry.1 entry.2).map (declaredEdge entry.1 entry.2)).mapM fun edge =>
      if edge.valid then .ok edge else .error (.validation "CapabilityEdge")

/-- `CapabilityGraphService(registry=registry, policy_evaluator=policyEvaluator)`. -/
def CapabilityGraphService.ofRegistry (registry : List (String × CapabilityMetadata))
    (policyEvaluator : WorkflowPolicyEvaluator) : Except EngineError CapabilityGraphService :=
  (buildEdges registry).map fun edges => ⟨policyEvaluator, edges⟩

/-- `WorkflowPolicyEvaluator(registry=registry)`. -/
def evaluatorOf (registry : List (String × CapabilityMetadata)) (runtime : Runtime) :
    WorkflowPolicyEvaluator where
  registry := registry.map fun entry => (entry.1, entry.2.toToolMetadata)
  runtime := runtime

/-- Each edge is that of a declaration of a registered tool. -/
theorem mem_buildEdges {registry : List (String × CapabilityMetadata)}
    {edges : List CapabilityEdge} (h : buildEdges registry = .ok edges) {edge : CapabilityEdge}
    (hedge : edge ∈ edges) :
    ∃ entry ∈ registry, ∃ declaration ∈ declarationsFor entry.1 entry.2,
      edge = declaredEdge entry.1 entry.2 declaration := by
  obtain ⟨built, hbuilt, hok⟩ := Traversal.mem_of_forall₂ (Traversal.mapM_eq_ok h) hedge
  split at hok
  · cases hok
    obtain ⟨entry, hentry, hmem⟩ := List.mem_flatMap.mp hbuilt
    obtain ⟨declaration, hdeclaration, rfl⟩ := List.mem_map.mp hmem
    exact ⟨entry, mem_sortedBy.mp hentry, declaration, hdeclaration, rfl⟩
  · cases hok

end McpOps
