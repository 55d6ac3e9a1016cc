import Mathlib.Algebra.Order.Ring.Rat
import McpOps.Lib.Rounding
import McpOps.Workflow.Policy
import McpOps.Workflow.SqlRepository

/-!
# The capability graph

Resource types connected by the tools that lead from one to the other, and the searches for a
path between two of them.  A search whose result is missing has used up its rounds; a policy check
can raise, and the search raises then.

Costs and penalties are rational numbers.  How `_dijkstra` rounds their sums is a parameter:
`find_path` rounds `asFloats`, where a sum that is too great is infinite, and `exactly` is the
arithmetic without rounding.  The two numbers that are reported about a path, `total_cost` and
`risk_score`, are `sum`s, which lose nothing before they are rounded to three decimals.

* `edgeScore`, `roundedEdgeScore`: the score of an edge, exact and rounded.
* `CapabilityGraphService.dijkstra`: the search by scores, for any check of the edges.
* `CapabilityGraphService.bfs`: the search by steps.
* `CapabilityGraphService.findPath`: the search that the strategy of a request asks for.
-/

namespace McpOps

open Rounding

/-! ## Models -/

structure CapabilityEdge where
  sourceType : String
  destinationType : String
  toolName : String
  mcpServer : String
  cost : ℚ
  risk : String
  prerequisites : List String := []
  enabled : Bool := true
  cost_nonneg : 0 ≤ cost

structure CapabilityPathRequest where
  source : String
  goal : String
  role : String := "ENGINEER"
  environment : String := "dev"
  strategy : String := "policy_compliant"
  disabledServers : List String := []

structure CapabilityPath where
  source : String
  goal : String
  reachable : Bool
  nodes : List String := []
  edges : List CapabilityEdge := []
  tools : List String := []
  totalCost : ℚ := 0
  riskScore : ℚ := 0
  policyCompliant : Bool := true
  explanation : String
  alternatives : List (List String) := []

/-! ## Scores -/

/-- `RISK_PENALTY.get(risk, 10.0)`. -/
def riskPenalty (risk : String) : ℚ :=
  if risk = "READ_ONLY" then 0
  else if risk = "LOW" then 1 / 5
  else if risk = "MEDIUM" then 1
  else if risk = "HIGH" then 3
  else if risk = "CRITICAL" then 8
  else 10

/-- The penalty for the risk of an edge. -/
def edgePenalty (riskWeight : Bool) (edge : CapabilityEdge) : ℚ :=
  if riskWeight then riskPenalty edge.risk else riskPenalty edge.risk * (1 / 4)

def latencyPenalty (edge : CapabilityEdge) : ℚ :=
  if "-mcp".toList <:+ edge.mcpServer.toList then 1 / 10 else 1 / 5

/-- `_edge_score(edge, risk_weight=riskWeight)`, exactly. -/
def edgeScore (riskWeight : Bool) (edge : CapabilityEdge) : ℚ :=
  edge.cost + edgePenalty riskWeight edge + latencyPenalty edge

/-- A sum of scores, infinite after an overflow. -/
abbrev Score := WithTop ℚ

/-- How sums of scores are rounded. -/
abbrev ScoreRounding := Score → Score

/-- Sums are exact. -/
def exactly : ScoreRounding := id

/-- Sums are those of `float`s. -/
def asFloats : ScoreRounding := binary64.overflowing (2 ^ 1024)

/-- `_edge_score(edge, risk_weight=riskWeight)`, with rounded penalties and sums.  A quarter of a
`float` is exact. -/
def roundedEdgeScore (round : ScoreRounding) (riskWeight : Bool) (edge : CapabilityEdge) : Score :=
  round (round (edge.cost + round (edgePenalty riskWeight edge)) + round (latencyPenalty edge))

/-- `round(x, 3)`: the nearest number with three decimals, the even one of two. -/
def roundThousandths (x : ℚ) : ℚ :=
  let n := (x * 1000).floor
  let rest := x * 1000 - n
  if rest < 1 / 2 ∨ rest = 1 / 2 ∧ n % 2 = 0 then n / 1000 else (n + 1) / 1000

/-! ## Paths -/

/-- `_resource_type(resource_ref)`: what stands before the first colon. -/
def resourceType (resourceRef : String) : String :=
  String.ofList (resourceRef.toList.takeWhile (· ≠ ':'))

/-- `GOAL_TYPES.get(goal, goal)`. -/
def goalType (goal : String) : String :=
  if goal = "create_issue_for_latest_failed_build" then "ticket"
  else if goal = "deploy_to_staging" then "staging_environment"
  else if goal = "investigate_failed_build" then "build_logs"
  else if goal = "validate_deployment" then "validation"
  else if goal = "find_service_runbook" then "documentation"
  else goal

/-- `_path_from_edges(request, nodes, edges)`. -/
def pathFromEdges (request : CapabilityPathRequest) (nodes : List String)
    (edges : List CapabilityEdge) : CapabilityPath where
  source := request.source
  goal := request.goal
  reachable := true
  nodes := nodes
  edges := edges
  tools := edges.map (·.toolName)
  totalCost := roundThousandths (edges.map (edgeScore false)).sum
  riskScore := roundThousandths (edges.map (riskPenalty ·.risk)).sum
  explanation := "Capability path found through registered MCP tool edges."

/-- `_unreachable(request, source_type, goal_type)`. -/
def unreachable (request : CapabilityPathRequest) (sourceType goalType : String) :
    CapabilityPath where
  source := request.source
  goal := request.goal
  reachable := false
  nodes := [sourceType]
  explanation := s!"No policy-compliant path from {sourceType} to {goalType}."
  policyCompliant := false

/-! ## The service -/

structure CapabilityGraphService where
  policyEvaluator : WorkflowPolicyEvaluator
  edges : List CapabilityEdge

/-- `_arguments_for_edge(edge)`. -/
def argumentsForEdge (edge : CapabilityEdge) : PyDict :=
  if edge.toolName ∈ ["restart_service", "restart_device", "update_device_configuration"] then
    [("device_id", .str "SIM-014"), ("service_name", .str "sensor-ingestor"),
      ("reason", .str "Capability graph policy evaluation.")]
  else if edge.toolName = "create_ticket" then
    [("device_id", .str "SIM-014"), ("title", .str "Capability graph issue"),
      ("description", .str "Capability graph generated issue path."),
      ("priority", .str "HIGH"), ("team", .str "Engineering Operations"),
      ("diagnostic_evidence", .dict [("source", .str "capability_graph")])]
  else if "deployment".toList <:+: edge.toolName.toList ∨
      "environment".toList <:+ edge.destinationType.toList then
    [("deployment_id", .str "deploy-2026-08-11"), ("repository", .str "payments-api")]
  else [("query", .str "capability graph")]

/-- The node that stands for an edge in its policy check. -/
def edgeNode (edge : CapabilityEdge) : Except EngineError WorkflowNode :=
  let id := s!"capability-{edge.toolName}"
  if h : 1 ≤ id.length ∧ id.length ≤ 120 then
    let node : WorkflowNode :=
      { id
        toolName := edge.toolName
        toolServer := edge.mcpServer
        description := s!"Capability graph edge for {edge.toolName}."
        arguments := argumentsForEdge edge
        riskLevel := edge.risk
        id_length := h }
    if node.valid then .ok node else .error (.validation "WorkflowNode")
  else .error (.validation "WorkflowNode")

/-- An entry of the heap: the cost of a path, its sequence number, its last node, its nodes and
its edges. -/
structure HeapEntry where
  cost : Score
  sequence : ℕ
  current : String
  nodes : List String
  edges : List CapabilityEdge

/-- The tuples of two entries compare like this; sequence numbers differ. -/
def HeapEntry.before (f g : HeapEntry) : Bool :=
  f.cost < g.cost ∨ f.cost = g.cost ∧ f.sequence < g.sequence

/-- `heappop(heap)`. -/
def heappop : List HeapEntry → Option (HeapEntry × List HeapEntry)
  | [] => none
  | f :: rest =>
      match heappop rest with
      | none => some (f, [])
      | some (e, others) => if e.before f then some (e, f :: others) else some (f, rest)

/-- The loop of `_dijkstra` over the edges that go out of a node, from a heap and the next
sequence number. -/
def relax (round : ScoreRounding) (allowed : CapabilityEdge → Except EngineError Bool)
    (riskWeight : Bool) (entry : HeapEntry) : List CapabilityEdge → List HeapEntry → ℕ →
      Except EngineError (List HeapEntry × ℕ)
  | [], heap, sequence => .ok (heap, sequence)
  | edge :: rest, heap, sequence =>
      match allowed edge with
      | .error e => .error e
      | .ok false => relax round allowed riskWeight entry rest heap sequence
      | .ok true =>
          if edge.destinationType ∈ entry.nodes then
            relax round allowed riskWeight entry rest heap sequence
          else
            relax round allowed riskWeight entry rest
              (heap ++
                [⟨round (entry.cost + roundedEdgeScore round riskWeight edge), sequence,
                  edge.destinationType, entry.nodes ++ [edge.destinationType],
                  entry.edges ++ [edge]⟩])
              (sequence + 1)

/-- An entry of the queue: the last node of a path, its nodes and its edges. -/
structure QueueEntry where
  current : String
  nodes : List String
  edges : List CapabilityEdge

/-- The loop of `_bfs` over the edges that go out of a node. -/
def enqueue (allowed : CapabilityEdge → Except EngineError Bool) (policyFilter : Bool)
    (entry : QueueEntry) : List CapabilityEdge → List QueueEntry →
      Except EngineError (List QueueEntry)
  | [], queue => .ok queue
  | edge :: rest, queue =>
      match if policyFilter then allowed edge else .ok true with
      | .error e => .error e
      | .ok false => enqueue allowed policyFilter entry rest queue
      | .ok true =>
          if edge.destinationType ∈ entry.nodes then
            enqueue allowed policyFilter entry rest queue
          else
            enqueue allowed policyFilter entry rest
              (queue ++
                [⟨edge.destinationType, entry.nodes ++ [edge.destinationType],
                  entry.edges ++ [edge]⟩])

namespace CapabilityGraphService

variable (S : CapabilityGraphService)

/-- `_outgoing(resource_type)`. -/
def outgoing (resourceType : String) : List CapabilityEdge :=
  S.edges.filter fun edge => edge.sourceType = resourceType ∧ edge.enabled

/-- `_edge_allowed(edge, role, environment, disabled_servers)`, at `now`. -/
def edgeAllowed (role environment : String) (disabledServers : List String) (now : Time)
    (edge : CapabilityEdge) : Except EngineError Bool :=
  if edge.mcpServer ∈ disabledServers then .ok false
  else
    match edgeNode edge with
    | .error e => .error e
    | .ok node =>
        match S.policyEvaluator.evaluate node "capability-graph" role environment .planning
          now with
        | .error e => .error e
        | .ok evaluation =>
            .ok (evaluation.decision = .allow ∨ evaluation.decision = .allowWithApproval)

variable (round : ScoreRounding) (allowed : CapabilityEdge → Except EngineError Bool)
  (request : CapabilityPathRequest) (sourceType goalType : String)

/-- The loop of `_dijkstra`, in at most so many rounds. -/
def dijkstraLoop (riskWeight : Bool) : ℕ → List HeapEntry → ℕ → (String → Option Score) →
    Option (Except EngineError CapabilityPath)
  | 0, _, _, _ => none
  | fuel + 1, heap, sequence, best =>
      match heappop heap with
      | none => some (.ok (unreachable request sourceType goalType))
      | some (entry, heap) =>
          if entry.current = goalType then
            some (.ok (pathFromEdges request entry.nodes entry.edges))
          else if (best entry.current).getD ⊤ ≤ entry.cost then
            dijkstraLoop riskWeight fuel heap sequence best
          else
            match relax round allowed riskWeight entry (S.outgoing entry.current) heap
              sequence with
            | .error e => some (.error e)
            | .ok (heap, sequence) =>
                dijkstraLoop riskWeight fuel heap sequence
                  (Function.update best entry.current (some entry.cost))

/-- `_dijkstra(request, source_type, goal_type, disabled_servers, risk_weight=riskWeight)`, for
any check of the edges. -/
def dijkstra (riskWeight : Bool) (fuel : ℕ) : Option (Except EngineError CapabilityPath) :=
  S.dijkstraLoop round allowed request sourceType goalType riskWeight fuel
    [⟨0, 0, sourceType, [sourceType], []⟩] 1 fun _ => none

/-- The loop of `_bfs`, in at most so many rounds. -/
def bfsLoop (policyFilter : Bool) : ℕ → List QueueEntry → List String →
    Option (Except EngineError CapabilityPath)
  | 0, _, _ => none
  | _ + 1, [], _ => some (.ok (unreachable request sourceType goalType))
  | fuel + 1, entry :: queue, visited =>
      if entry.current = goalType then
        some (.ok (pathFromEdges request entry.nodes entry.edges))
      else if entry.current ∈ visited then bfsLoop policyFilter fuel queue visited
      else
        match enqueue allowed policyFilter entry (S.outgoing entry.current) queue with
        | .error e => some (.error e)
        | .ok queue => bfsLoop policyFilter fuel queue (entry.current :: visited)

/-- `_bfs(request, source_type, goal_type, disabled_servers, policy_filter=policyFilter)`, for any
check of the edges. -/
def bfs (policyFilter : Bool) (fuel : ℕ) : Option (Except EngineError CapabilityPath) :=
  S.bfsLoop allowed request sourceType goalType policyFilter fuel [⟨sourceType, [sourceType], []⟩]
    []

/-- `find_path(request)`, at `now`. -/
def findPath (now : Time) (fuel : ℕ) : Option (Except EngineError CapabilityPath) :=
  let allowed := S.edgeAllowed request.role request.environment request.disabledServers now
  let goalType := McpOps.goalType request.goal
  let sourceType := resourceType request.source
  if request.strategy = "lowest_risk" then
    S.dijkstra asFloats allowed request sourceType goalType true fuel
  else if request.strategy = "shortest" then
    S.bfs allowed request sourceType goalType false fuel
  else S.dijkstra asFloats allowed request sourceType goalType false fuel

end CapabilityGraphService

end McpOps
