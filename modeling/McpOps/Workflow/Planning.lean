import McpOps.Capabilities.Sequences
import McpOps.Discovery.RetrievalSafety
import McpOps.Knowledge.Search
import McpOps.Workflow.Limits

/-!
# Planning

`WorkflowPlanningService.plan`: what a planner is offered, and what becomes of its answer.

* The tools are retrieved (`Retrieved`), and up to three are added for what engineering knowledge
  says (`augmentToolsFromKnowledge`).
* Those that the policy denies are taken out (`filterPlannerVisibleTools`), by asking it about a
  node that stands for the tool (`policyCheckNode`).
* The rest is put in the order of the capability graph (`orderedToolNames`); this is the offer.
* The planner answers, and its answer is checked and stored with what the server adds.

The planner may answer anything.  Whatever it answers, a workflow is stored only when every node of
it uses a tool that was offered, and otherwise nothing is stored; the proof is in a module of its
own.
-/

namespace McpOps

open Proc

/-! ## What planning needs -/

/-- What is computed in floats about the tools that knowledge speaks of. -/
structure AugmentationScoring where
  /-- `tool_lexical_score(user_request, tool) >= 0.08` -/
  relevant : String → ToolDocument → Bool
  /-- `_rag_tool_augmentation_score(tool, capability_categories, user_request)` -/
  score : ToolDocument → List String → String → PyFloat

/-- The settings that planning reads. -/
structure PlanningSettings where
  githubOwner : String := ""
  githubRepo : String := ""
  githubAllowedRepositories : String := ""
  workflowRagToolAugmentationMinScore : PyFloat := .finite (35 / 100)

/-- How `plan` fails. -/
inductive PlanningError where
  | retrieval (failure : RetrievalFailure)
  | search (failure : SearchFailure)
  /-- what the planner raises -/
  | planner (message : String)
  | engine (error : EngineError)

/-- A planning service with its collaborators.  The planner may answer anything. -/
structure PlanningService where
  engine : WorkflowPlanningService
  discovery : ToolRetrieval
  rag : EngineeringRagService
  capabilityGraph : CapabilityGraphService
  useRag : Bool := true
  useCapabilityGraph : Bool := true
  scoring : AugmentationScoring
  settings : PlanningSettings := {}
  /-- `_device_from_request(user_request)` -/
  deviceFromRequest : String → Option String
  /-- `updated_at.isoformat()` -/
  isoformat : DocumentTime → String
  /-- `planner.plan(user_request, tools, role, target_environment, knowledge)` -/
  planner : String → List ToolDocument → String → String → List KnowledgeSearchResult →
    Except PlanningError WorkflowPlanDraft

structure WorkflowPlanResult where
  workflow : Workflow
  discoveredTools : List ToolDiscoveryResult
  capabilityPath : Option CapabilityPath
  retrievedKnowledge : List KnowledgeSearchResult
  plannerModel : String
  retrievalBackend : String

/-! ## Tools that knowledge adds -/

/-- `category_map`. -/
def capabilityToolCategories : List (String × List String) :=
  [("approval", ["cicd", "device"]),
    ("architecture", ["knowledge"]),
    ("cicd", ["cicd", "repository"]),
    ("deployment", ["cicd"]),
    ("documentation", ["knowledge"]),
    ("environment", ["cicd"]),
    ("infrastructure", ["knowledge"]),
    ("ownership", ["service_catalog"]),
    ("policy", ["cicd", "knowledge"]),
    ("repository", ["repository", "cicd"]),
    ("run_instructions", ["knowledge"]),
    ("testing", ["cicd", "repository"]),
    ("ticket", ["ticket", "repository"])]

/-- `_tool_matches_capability(tool, capability_categories, user_request)`. -/
def toolMatchesCapability (scoring : AugmentationScoring) (tool : ToolDocument)
    (capabilityCategories : List String) (userRequest : String) : Bool :=
  let allowedCategories := capabilityCategories.flatMap fun capability =>
    (capabilityToolCategories.lookup capability).getD [capability]
  if tool.category ∉ allowedCategories then false
  else if scoring.relevant userRequest tool then true
  else (tool.category :: tool.tags).any (· ∈ capabilityCategories)

/-- `capability_categories`, of the results that reach the minimum score. -/
def knowledgeCapabilities (results : List KnowledgeSearchResult) (minimumScore : PyFloat) :
    List String :=
  (results.filter fun result =>
      minimumScore.lt result.combinedScore || minimumScore.eq result.combinedScore).flatMap
    fun result => result.chunk.metadata.capabilityCategories

section Augmentation

variable (rt : Runtime) (scoring : AugmentationScoring)
    (discoveredTools allTools : List ToolDocument)
  (role userRequest : String)

/-- The tools of `addition_candidates`. -/
def additionCandidates (capabilityCategories : List String) : List ToolDocument :=
  allTools.filter fun tool =>
    tool.name ∉ discoveredTools.map ToolDocument.name &&
      toolMatchesCapability scoring tool capabilityCategories userRequest && tool.enabled &&
      (tool.requiredRoles = [] ∨ rt.upper role ∈ tool.requiredRoles.map rt.upper)

/-- `additions`: the three candidates with the best scores. -/
def toolAdditions (capabilityCategories : List String) : List ToolDocument :=
  (sortedBy
    (fun tool => ⟨[(scoring.score tool capabilityCategories userRequest).neg], [tool.name]⟩)
    (additionCandidates rt scoring discoveredTools allTools role userRequest
      capabilityCategories)).take 3

/-- `_augment_tools_from_knowledge(discovered_tools, all_tools, knowledge_response, ...)`. -/
def augmentToolsFromKnowledge (results : List KnowledgeSearchResult) (minimumScore : PyFloat) :
    List ToolDocument :=
  if knowledgeCapabilities results minimumScore = [] then discoveredTools
  else
    discoveredTools ++ toolAdditions rt scoring discoveredTools allTools role userRequest
      (knowledgeCapabilities results minimumScore)

end Augmentation

/-! ## Tools that the policy lets a planner see -/

/-- `_configured_repository()`. -/
def configuredRepository (rt : Runtime) (settings : PlanningSettings) : Option String :=
  if settings.githubOwner ≠ "" ∧ settings.githubRepo ≠ "" then
    some (settings.githubOwner ++ "/" ++ settings.githubRepo)
  else
    let allowed := ((settings.githubAllowedRepositories.splitOn ",").map rt.strip).filter (· ≠ "")
    (allowed.mergeSort fun a b => decide (a ≤ b)).head?

/-- `policy_check_<name>[:120]`. -/
def policyCheckId (name : String) : String :=
  String.ofList (("policy_check_" ++ name).toList.take 120)

theorem length_policyCheckId (name : String) :
    1 ≤ (policyCheckId name).length ∧ (policyCheckId name).length ≤ 120 := by
  have hprefix : ("policy_check_" : String).toList.length = 13 := by decide
  have hlength : (policyCheckId name).length = min 120 (13 + name.toList.length) := by
    rw [policyCheckId, String.length_ofList, List.length_take, String.toList_append,
      List.length_append, hprefix]
  omega

namespace PlanningService

variable (S : PlanningService) (toolOrder chunkOrder : SetOrder) (request : WorkflowPlanRequest)
  (topK : ℤ) (now : Time)

/-- `_planning_filter_arguments(tool, request)`. -/
def planningFilterArguments (tool : ToolDocument) : PyDict :=
  let properties := tool.schemaProperties.map Prod.fst
  let entry := fun key (value : Option String) =>
    if key ∈ properties then (value.filter (· ≠ "")).elim [] fun text => [(key, Value.str text)]
    else []
  entry "repository" (configuredRepository S.engine.runtime S.settings) ++
    entry "device_id" (S.deviceFromRequest request.userRequest) ++
    if "environment" ∈ properties then [("environment", .str request.targetEnvironment)] else []

/-- The node that stands for a tool in its policy check. -/
def policyCheckNode (tool : ToolDocument) : WorkflowNode where
  id := policyCheckId tool.name
  toolName := tool.name
  toolServer := tool.server
  description := tool.description
  arguments := S.planningFilterArguments request tool
  riskLevel := tool.riskLevel
  approvalRequired := decide (tool.riskLevel = "HIGH" ∨ tool.riskLevel = "CRITICAL")
  id_length := length_policyCheckId tool.name

/-- The policy lets the planner see the tool. -/
def plannerVisible (tool : ToolDocument) : Except EngineError Bool :=
  if (S.policyCheckNode request tool).valid then do
    let evaluation ← S.engine.policyEvaluator.evaluate (S.policyCheckNode request tool)
      request.createdBy request.role request.targetEnvironment .planning now
    .ok (evaluation.decision = .allow ∨ evaluation.decision = .allowWithApproval)
  else .error (.validation "WorkflowNode")

/-- `_filter_planner_visible_tools(tools, evaluator=evaluator, request=request)`. -/
def filterPlannerVisibleTools : List ToolDocument → Except EngineError (List ToolDocument)
  | [] => .ok []
  | tool :: rest => do
      let visible ← S.plannerVisible request now tool
      let others ← filterPlannerVisibleTools rest
      .ok (if visible then tool :: others else others)

/-! ## The plan -/

/-- What is retrieved for a request. -/
structure Retrieved where
  response : ToolDiscoveryResponse
  knowledge : List KnowledgeSearchResult
  /-- the tools that the planner may see, in the order of the ranking -/
  visible : List ToolDocument

/-- The search for knowledge, where it is switched on. -/
def searchKnowledge : Except PlanningError (List KnowledgeSearchResult) :=
  if S.useRag then
    ((S.rag.search chunkOrder
      { query := request.userRequest
        filters := { environment := some request.targetEnvironment } }).mapError
        PlanningError.search).map fun response => response.results
  else .ok []

/-- The tools that were retrieved, with those that knowledge adds. -/
def augmented (response : ToolDiscoveryResponse) (knowledge : List KnowledgeSearchResult) :
    List ToolDocument :=
  let discoveredTools := response.rankedTools.map fun result => result.tool
  if S.useRag then
    augmentToolsFromKnowledge S.engine.runtime S.scoring discoveredTools S.discovery.documents
      request.role request.userRequest knowledge S.settings.workflowRagToolAugmentationMinScore
  else discoveredTools

/-- `plan(request)` up to the tools that the planner may see. -/
def retrieve : Except PlanningError Retrieved := do
  let response ← (S.discovery.retrieve toolOrder request.userRequest request.role topK none
    {}).mapError PlanningError.retrieval
  let knowledge ← S.searchKnowledge chunkOrder request
  let visible ← (S.filterPlannerVisibleTools request now
    (S.augmented request response knowledge)).mapError PlanningError.engine
  .ok { response, knowledge, visible }

/-- The names of the tools in the order that the capability graph gives them. -/
def orderedToolNames (names : List String) : Except EngineError (List String) :=
  if S.useCapabilityGraph then
    S.capabilityGraph.constrainToolSequence request.userRequest request.role
      request.targetEnvironment names now
  else .ok names

/-- The tools that the planner is given. -/
def offer (visible : List ToolDocument) : Except EngineError (List ToolDocument) :=
  (S.orderedToolNames request now (visible.map ToolDocument.name)).map fun orderedToolNames =>
    Ranking.sortOn (fun tool : ToolDocument => orderedToolNames.idxOf tool.name) visible

/-- The path that is shown beside the plan. -/
def capabilityPath : Except EngineError (Option CapabilityPath) :=
  if S.useCapabilityGraph then
    (S.capabilityGraph.pathFor (S.capabilityGraph.pathRequestForGoal request.userRequest
      request.role request.targetEnvironment) now).map some
  else .ok none

/-- `plan(request)`.  The readings of the clock that only stamp policy decisions are one reading
here. -/
def plan : Procedure engineInterface PlanningError WorkflowPlanResult := do
  let now ← timeNow.mapError PlanningError.engine
  let retrieved ← Procedure.ofExcept (S.retrieve toolOrder chunkOrder request topK now)
  let offered ← Procedure.ofExcept ((S.offer request now retrieved.visible).mapError
    PlanningError.engine)
  let path ← Procedure.ofExcept ((S.capabilityPath request now).mapError PlanningError.engine)
  let draft ← Procedure.ofExcept (S.planner request.userRequest offered request.role
    request.targetEnvironment retrieved.knowledge)
  let workflow ← (S.engine.planDraft draft request (offered.map ToolDocument.name)
    (retrieved.knowledge.map (·.asPayload S.isoformat))).mapError PlanningError.engine
  pure
    { workflow
      discoveredTools := retrieved.response.rankedTools
      capabilityPath := path
      retrievedKnowledge := retrieved.knowledge
      plannerModel := workflow.plannerModel
      retrievalBackend := retrieved.response.indexBackend }

end PlanningService

end McpOps
