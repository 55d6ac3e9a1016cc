import McpOps.Capabilities.Compliance
import McpOps.Capabilities.Declarations

/-!
# Prerequisites on a path

The searches take an edge from its source type only, and do not look at its prerequisites: with
other prerequisites they find the same path.  An edge carries what its tool declares.

* A path that is found connects the source with the goal along enabled edges, with every strategy
  (`connects_of_findPath`), so each edge starts from a type that the path has come to
  (`sourceType_mem_take`).
* Writing other prerequisites on the edges of a graph commutes with everything that a search does:
  `findPath_withPrerequisites` goes through the strategies, with one lemma for each function that
  they share.
* The edges come from a table of declarations, and of those all but one declare no other
  prerequisite than the type they start from (`toolResourceMap_ownPrerequisites`).

`findPath_prerequisites` collects the three.  The last theorem is about the one tool of the table
whose prerequisite is no type on its path.
-/

namespace McpOps

open BestFirst Rounding

/-! ## Paths that are found -/

section Paths

variable {S : CapabilityGraphService} {request : CapabilityPathRequest} {source goal : String}
  {path : CapabilityPath} {fuel : ℕ}

theorem IsPath.mono {edges path : List CapabilityEdge} {usable usable' : CapabilityEdge → Bool}
    (h : ∀ edge, usable edge → usable' edge) (hpath : IsPath edges usable source path goal) :
    IsPath edges usable' source path goal := by
  induction path generalizing source with
  | nil => exact hpath
  | cons edge rest ih =>
      obtain ⟨⟨hmem, husable, hsource⟩, hrest⟩ := hpath
      exact ⟨⟨hmem, h edge husable, hsource⟩, ih hrest⟩

theorem IsPath.mem {edges path : List CapabilityEdge} {usable : CapabilityEdge → Bool}
    (h : IsPath edges usable source path goal) {edge : CapabilityEdge} (hedge : edge ∈ path) :
    edge ∈ edges ∧ usable edge := by
  induction path generalizing source with
  | nil => cases hedge
  | cons first rest ih =>
      obtain ⟨⟨hmem, husable, -⟩, hrest⟩ := h
      rcases List.mem_cons.mp hedge with rfl | hedge
      · exact ⟨hmem, husable⟩
      · exact ih hrest hedge

/-- The path leads along enabled edges, and its nodes are the ends of these. -/
def Connects (S : CapabilityGraphService) (source goal : String) (path : CapabilityPath) : Prop :=
  IsPath S.edges (·.enabled) source path.edges goal ∧
    path.nodes = source :: path.edges.map (·.destinationType)

/-- What a search finds connects its ends. -/
theorem connects_of_search {usable : CapabilityEdge → Bool} {round : ScoreRounding}
    {hround : IsRounding round} {weight : CapabilityEdge → Score}
    {hweight : ∀ edge, 0 ≤ weight edge} (husable : ∀ edge, usable edge → edge.enabled)
    (h : ((capabilityGraph S.edges usable hround hweight).search source goal fuel
      [(capabilityGraph S.edges usable hround hweight).start source] fun _ => none).map
        (searchResult (capabilityGraph S.edges usable hround hweight) request source goal) =
      some (.ok path)) (hreachable : path.reachable) : Connects S source goal path := by
  obtain ⟨found, hfound, hpath⟩ := Option.map_eq_some_iff.mp h
  cases found with
  | none =>
      cases hpath
      cases hreachable
  | some e =>
      cases hpath
      obtain ⟨hwalk, -⟩ := (Graph.sound_start _ _ _).search_found hfound
      exact ⟨(isPath_of_walk hwalk).mono husable, reverse_nodes _⟩

theorem connects_of_dijkstra {allowed : CapabilityEdge → Except EngineError Bool}
    {riskWeight : Bool}
    (h : S.dijkstra asFloats allowed request source goal riskWeight fuel = some (.ok path))
    (hreachable : path.reachable) : Connects S source goal path := by
  rcases dijkstra_eq S allowed isRounding_asFloats riskWeight request source goal fuel with
    ⟨err, herr, -⟩ | heq
  · rw [herr] at h
    cases h
  · rw [heq] at h
    exact connects_of_search (fun _ h => (Bool.and_eq_true_iff.mp h).1) h hreachable

/-- With every strategy the path connects the source with the goal. -/
theorem connects_of_findPath {now : Time} (h : S.findPath request now fuel = some (.ok path))
    (hreachable : path.reachable) :
    Connects S (resourceType request.source) (goalType request.goal) path := by
  rw [CapabilityGraphService.findPath] at h
  split at h
  · exact connects_of_dijkstra h hreachable
  · split at h
    · rw [bfs_eq] at h
      exact connects_of_search (fun _ h => h) h hreachable
    · exact connects_of_dijkstra h hreachable

/-- Each edge starts from a type that the path has come to. -/
theorem sourceType_mem_take {edges before after : List CapabilityEdge}
    {usable : CapabilityEdge → Bool} {edge : CapabilityEdge}
    (h : IsPath edges usable source (before ++ edge :: after) goal) :
    edge.sourceType ∈
      (source :: (before ++ edge :: after).map (·.destinationType)).take (before.length + 1) := by
  induction before generalizing source with
  | nil =>
      obtain ⟨⟨-, -, hsource⟩, -⟩ := h
      rw [hsource]
      exact List.mem_singleton_self _
  | cons first rest ih =>
      rw [List.cons_append, List.map_cons, List.length_cons, List.take_succ_cons]
      exact List.mem_cons_of_mem _ (ih h.2)

end Paths

/-! ## Other prerequisites -/

section Replacing

variable (f : CapabilityEdge → List String)

/-- The edge with other prerequisites. -/
def CapabilityEdge.withPrerequisites (edge : CapabilityEdge) : CapabilityEdge :=
  { edge with prerequisites := f edge }

/-- The path with other prerequisites. -/
def CapabilityPath.withPrerequisites (path : CapabilityPath) : CapabilityPath :=
  { path with edges := path.edges.map (·.withPrerequisites f) }

/-- The graph with other prerequisites. -/
def CapabilityGraphService.withPrerequisites (S : CapabilityGraphService) :
    CapabilityGraphService :=
  { S with edges := S.edges.map (·.withPrerequisites f) }

def HeapEntry.withPrerequisites (entry : HeapEntry) : HeapEntry :=
  { entry with edges := entry.edges.map (·.withPrerequisites f) }

def QueueEntry.withPrerequisites (entry : QueueEntry) : QueueEntry :=
  { entry with edges := entry.edges.map (·.withPrerequisites f) }

/-- The result with other prerequisites on the path. -/
def resultWith (result : Option (Except EngineError CapabilityPath)) :
    Option (Except EngineError CapabilityPath) :=
  result.map (Except.map (·.withPrerequisites f))

theorem pathFromEdges_withPrerequisites (request : CapabilityPathRequest) (nodes : List String)
    (edges : List CapabilityEdge) :
    pathFromEdges request nodes (edges.map (·.withPrerequisites f)) =
      (pathFromEdges request nodes edges).withPrerequisites f := by
  simp only [pathFromEdges, CapabilityPath.withPrerequisites, List.map_map]
  rfl

theorem heappop_withPrerequisites (heap : List HeapEntry) :
    heappop (heap.map (·.withPrerequisites f)) =
      (heappop heap).map (Prod.map (·.withPrerequisites f) (List.map (·.withPrerequisites f))) := by
  induction heap with
  | nil => rfl
  | cons entry rest ih =>
      rw [List.map_cons, heappop, heappop, ih]
      cases heappop rest with
      | none => rfl
      | some least =>
          have hbefore : (least.1.withPrerequisites f).before (entry.withPrerequisites f) =
              least.1.before entry := rfl
          simp only [Option.map_some, Prod.map, hbefore]
          split <;> rfl

theorem outgoing_withPrerequisites (S : CapabilityGraphService) (node : String) :
    (S.withPrerequisites f).outgoing node =
      (S.outgoing node).map (·.withPrerequisites f) := by
  rw [CapabilityGraphService.outgoing, CapabilityGraphService.outgoing,
    CapabilityGraphService.withPrerequisites, List.filter_map]
  rfl

variable {f} {round : ScoreRounding} {allowed : CapabilityEdge → Except EngineError Bool}
  (hallowed : ∀ edge, allowed (edge.withPrerequisites f) = allowed edge)

include hallowed

theorem relax_withPrerequisites (riskWeight : Bool) (entry : HeapEntry)
    (edges : List CapabilityEdge) (heap : List HeapEntry) (sequence : ℕ) :
    relax round allowed riskWeight (entry.withPrerequisites f) (edges.map (·.withPrerequisites f))
        (heap.map (·.withPrerequisites f)) sequence =
      (relax round allowed riskWeight entry edges heap sequence).map
        (Prod.map (List.map (·.withPrerequisites f)) id) := by
  induction edges generalizing heap sequence with
  | nil => rfl
  | cons edge rest ih =>
      rw [List.map_cons, relax, relax, hallowed]
      cases allowed edge with
      | error e => rfl
      | ok answer =>
          cases answer with
          | false => exact ih heap sequence
          | true =>
              by_cases hmem : edge.destinationType ∈ entry.nodes
              · simp only [if_pos hmem]
                rw [if_pos (by exact hmem)]
                exact ih heap sequence
              · -- what is pushed differs in the prerequisites of its edges only
                have hpush : (⟨round (entry.cost + roundedEdgeScore round riskWeight edge),
                    sequence,
                    edge.destinationType, entry.nodes ++ [edge.destinationType],
                    entry.edges ++ [edge]⟩ : HeapEntry).withPrerequisites f =
                  ⟨round (entry.cost + roundedEdgeScore round riskWeight edge), sequence,
                    edge.destinationType, entry.nodes ++ [edge.destinationType],
                    entry.edges.map (·.withPrerequisites f) ++ [edge.withPrerequisites f]⟩ := by
                  rw [HeapEntry.withPrerequisites, List.map_append]
                  rfl
                simp only [if_neg hmem]
                rw [if_neg (by exact hmem), ← ih, List.map_append, List.map_singleton, hpush]
                rfl

theorem dijkstraLoop_withPrerequisites (S : CapabilityGraphService)
    (request : CapabilityPathRequest) (source goal : String) (riskWeight : Bool) (fuel : ℕ)
    (heap : List HeapEntry) (sequence : ℕ) (best : String → Option Score) :
    (S.withPrerequisites f).dijkstraLoop round allowed request source goal riskWeight fuel
        (heap.map (·.withPrerequisites f)) sequence best =
      resultWith f
        (S.dijkstraLoop round allowed request source goal riskWeight fuel heap sequence best) := by
  induction fuel generalizing heap sequence best with
  | zero => rfl
  | succ fuel ih =>
      rw [CapabilityGraphService.dijkstraLoop, CapabilityGraphService.dijkstraLoop,
        heappop_withPrerequisites]
      cases heappop heap with
      | none => rfl
      | some popped =>
          obtain ⟨entry, rest⟩ := popped
          have hcurrent : (entry.withPrerequisites f).current = entry.current := rfl
          have hcost : (entry.withPrerequisites f).cost = entry.cost := rfl
          simp only [Option.map_some, Prod.map, hcurrent, hcost]
          split
          · exact congrArg (fun path => some (Except.ok path))
              (pathFromEdges_withPrerequisites f request entry.nodes entry.edges)
          · split
            · exact ih ..
            · rw [outgoing_withPrerequisites, relax_withPrerequisites hallowed]
              cases relax round allowed riskWeight entry
                (S.outgoing entry.current) rest sequence with
              | error e => rfl
              | ok relaxed => exact ih ..

theorem enqueue_withPrerequisites (policyFilter : Bool) (entry : QueueEntry)
    (edges : List CapabilityEdge) (queue : List QueueEntry) :
    enqueue allowed policyFilter (entry.withPrerequisites f) (edges.map (·.withPrerequisites f))
        (queue.map (·.withPrerequisites f)) =
      (enqueue allowed policyFilter entry edges queue).map
        (List.map (·.withPrerequisites f)) := by
  induction edges generalizing queue with
  | nil => rfl
  | cons edge rest ih =>
      rw [List.map_cons, enqueue, enqueue, hallowed]
      cases (if policyFilter then allowed edge else .ok true) with
      | error e => rfl
      | ok answer =>
          cases answer with
          | false => exact ih queue
          | true =>
              by_cases hmem : edge.destinationType ∈ entry.nodes
              · simp only [if_pos hmem]
                rw [if_pos (by exact hmem)]
                exact ih queue
              · have hpush : (⟨edge.destinationType, entry.nodes ++ [edge.destinationType],
                    entry.edges ++ [edge]⟩ : QueueEntry).withPrerequisites f =
                  ⟨edge.destinationType, entry.nodes ++ [edge.destinationType],
                    entry.edges.map (·.withPrerequisites f) ++ [edge.withPrerequisites f]⟩ := by
                  rw [QueueEntry.withPrerequisites, List.map_append]
                  rfl
                simp only [if_neg hmem]
                rw [if_neg (by exact hmem), ← ih, List.map_append, List.map_singleton, hpush]
                rfl

theorem bfsLoop_withPrerequisites (S : CapabilityGraphService)
    (request : CapabilityPathRequest) (source goal : String) (policyFilter : Bool) (fuel : ℕ)
    (queue : List QueueEntry) (visited : List String) :
    (S.withPrerequisites f).bfsLoop allowed request source goal policyFilter fuel
        (queue.map (·.withPrerequisites f)) visited =
      resultWith f (S.bfsLoop allowed request source goal policyFilter fuel queue visited) := by
  induction fuel generalizing queue visited with
  | zero => rfl
  | succ fuel ih =>
      cases queue with
      | nil => rfl
      | cons entry rest =>
          have hcurrent : (entry.withPrerequisites f).current = entry.current := rfl
          rw [List.map_cons, CapabilityGraphService.bfsLoop, CapabilityGraphService.bfsLoop]
          simp only [hcurrent]
          split
          · exact congrArg (fun path => some (Except.ok path))
              (pathFromEdges_withPrerequisites f request entry.nodes entry.edges)
          · split
            · exact ih ..
            · rw [outgoing_withPrerequisites, enqueue_withPrerequisites hallowed]
              cases enqueue allowed policyFilter entry (S.outgoing entry.current) rest with
              | error e => rfl
              | ok queue => exact ih ..

end Replacing

/-- **Prerequisites are not looked at.**  With others, the same path is found. -/
theorem findPath_withPrerequisites (f : CapabilityEdge → List String)
    (S : CapabilityGraphService) (request : CapabilityPathRequest) (now : Time) (fuel : ℕ) :
    (S.withPrerequisites f).findPath request now fuel =
      resultWith f (S.findPath request now fuel) := by
  have hallowed : ∀ edge, checkOf S request now (edge.withPrerequisites f) =
      checkOf S request now edge := fun _ => rfl
  rw [CapabilityGraphService.findPath, CapabilityGraphService.findPath]
  split
  · exact dijkstraLoop_withPrerequisites hallowed S request _ _ true fuel
      [⟨0, 0, resourceType request.source, [resourceType request.source], []⟩] 1 fun _ => none
  · split
    · exact bfsLoop_withPrerequisites hallowed S request _ _ false fuel
        [⟨resourceType request.source, [resourceType request.source], []⟩] []
    · exact dijkstraLoop_withPrerequisites hallowed S request _ _ false fuel
        [⟨0, 0, resourceType request.source, [resourceType request.source], []⟩] 1 fun _ => none

/-! ## Declared prerequisites -/

/-- Every prerequisite of an edge is among the types of the path up to its source. -/
def RespectsPrerequisites (path : CapabilityPath) : Prop :=
  ∀ before edge after, path.edges = before ++ edge :: after →
    ∀ p ∈ edge.prerequisites, p ∈ path.nodes.take (before.length + 1)

/-- The edge is that of an enabled tool, with the prerequisites that this declares. -/
def CarriesDeclaration (registry : List (String × CapabilityMetadata)) (edge : CapabilityEdge) :
    Prop :=
  ∃ entry ∈ registry, entry.2.enabled ∧ ∃ declaration ∈ declarationsFor entry.1 entry.2,
    edge = declaredEdge entry.1 entry.2 declaration

/-- The tools declare no other prerequisite than the type they start from. -/
def OwnPrerequisites (registry : List (String × CapabilityMetadata)) : Prop :=
  ∀ entry ∈ registry, ∀ declaration ∈ declarationsFor entry.1 entry.2,
    ∀ p ∈ declaration.prerequisites, p = declaration.sourceType

/-- The table has one tool with another prerequisite. -/
theorem toolResourceMap_ownPrerequisites :
    ∀ entry ∈ toolResourceMap, entry.1 ≠ "delete_bad_deployment" →
      ∀ p ∈ entry.2.prerequisites, p = entry.2.sourceType := by
  decide

section Registry

variable {registry : List (String × CapabilityMetadata)} {policyEvaluator : WorkflowPolicyEvaluator}
  {S : CapabilityGraphService} {path : CapabilityPath} {source goal : String}

theorem buildEdges_of_ofRegistry
    (h : CapabilityGraphService.ofRegistry registry policyEvaluator = .ok S) :
    buildEdges registry = .ok S.edges := by
  rw [CapabilityGraphService.ofRegistry] at h
  cases hedges : buildEdges registry with
  | error e =>
      rw [hedges] at h
      cases h
  | ok edges =>
      rw [hedges] at h
      cases h
      rfl

theorem Connects.carriesDeclaration (hpath : Connects S source goal path)
    (h : CapabilityGraphService.ofRegistry registry policyEvaluator = .ok S)
    {edge : CapabilityEdge} (hedge : edge ∈ path.edges) : CarriesDeclaration registry edge := by
  obtain ⟨hmem, henabled⟩ := hpath.1.mem hedge
  obtain ⟨entry, hentry, declaration, hdeclaration, rfl⟩ :=
    mem_buildEdges (buildEdges_of_ofRegistry h) hmem
  exact ⟨entry, hentry, henabled, declaration, hdeclaration, rfl⟩

/-- Each edge of the path starts from a type that the path has come to. -/
theorem Connects.sourceType_mem (hpath : Connects S source goal path)
    {before after : List CapabilityEdge} {edge : CapabilityEdge}
    (hedges : path.edges = before ++ edge :: after) :
    edge.sourceType ∈ path.nodes.take (before.length + 1) := by
  obtain ⟨hconnects, hnodes⟩ := hpath
  rw [hedges] at hconnects
  rw [hnodes, hedges]
  exact sourceType_mem_take hconnects

theorem Connects.respectsPrerequisites (hpath : Connects S source goal path)
    (h : CapabilityGraphService.ofRegistry registry policyEvaluator = .ok S)
    (hown : OwnPrerequisites registry) : RespectsPrerequisites path := by
  intro before edge after hedges p hp
  have hedge : edge ∈ path.edges := by
    rw [hedges]
    exact List.mem_append_right _ (List.mem_cons_self ..)
  obtain ⟨entry, hentry, -, declaration, hdeclaration, hedge⟩ := hpath.carriesDeclaration h hedge
  have hsource := hpath.sourceType_mem hedges
  rw [hedge] at hp hsource
  rw [hown entry hentry declaration hdeclaration p hp]
  exact hsource

end Registry

/-- **Paths and prerequisites.**  Each edge of a path starts from a type that the path has come to,
and carries what its tool declares; with other prerequisites the same path is found.  So the path
respects them where tools declare none but the type they start from. -/
theorem findPath_prerequisites {registry : List (String × CapabilityMetadata)}
    {policyEvaluator : WorkflowPolicyEvaluator} {S : CapabilityGraphService}
    (hS : CapabilityGraphService.ofRegistry registry policyEvaluator = .ok S)
    {request : CapabilityPathRequest} {now : Time} {fuel : ℕ} {path : CapabilityPath}
    (h : S.findPath request now fuel = some (.ok path)) (hreachable : path.reachable) :
    Connects S (resourceType request.source) (goalType request.goal) path ∧
      (∀ before edge after, path.edges = before ++ edge :: after →
        CarriesDeclaration registry edge ∧
          edge.sourceType ∈ path.nodes.take (before.length + 1)) ∧
      (∀ f, (S.withPrerequisites f).findPath request now fuel =
        some (.ok (path.withPrerequisites f))) ∧
      (OwnPrerequisites registry → RespectsPrerequisites path) := by
  have hpath := connects_of_findPath h hreachable
  refine ⟨hpath, fun before edge after hedges => ⟨?_, hpath.sourceType_mem hedges⟩, fun f => ?_,
    hpath.respectsPrerequisites hS⟩
  · refine hpath.carriesDeclaration hS ?_
    rw [hedges]
    exact List.mem_append_right _ (List.mem_cons_self ..)
  · rw [findPath_withPrerequisites, h]
    rfl

/-! ## Two registered tools -/

/-- A tool of the table that changes deployments, as it is registered. -/
def deploymentTool (toolName : String) (riskLevel : RiskLevel) : CapabilityMetadata where
  toolName := toolName
  domain := "cicd"
  riskLevel := riskLevel
  requiredPermission := "deployments:operate"
  requiresApproval := true
  server := "cicd-mcp"
  requiredRoles := ["ENGINEER", "OPERATOR", "ADMIN"]
  executable := false

/-- A registry with that tool alone. -/
def deploymentRegistry (toolName : String) (riskLevel : RiskLevel) :
    List (String × CapabilityMetadata) :=
  [(toolName, deploymentTool toolName riskLevel)]

/-- The shortest path from a deployment. -/
def deploymentRequest (goal : String) : CapabilityPathRequest where
  source := "deployment:current"
  goal := goal
  role := "OPERATOR"
  environment := "production"
  strategy := "shortest"

/-- The graph that has one edge for the tool. -/
def deploymentService (toolName : String) (riskLevel : RiskLevel)
    (declaration : ResourceDeclaration) : CapabilityGraphService where
  policyEvaluator := evaluatorOf (deploymentRegistry toolName riskLevel) .plain
  edges := [declaredEdge toolName (deploymentTool toolName riskLevel) declaration]

theorem ofRegistry_deploymentRegistry {toolName : String} (riskLevel : RiskLevel)
    {declaration : ResourceDeclaration}
    (hlookup : toolResourceMap.lookup toolName = some declaration)
    (hvalid : (declaredEdge toolName (deploymentTool toolName riskLevel) declaration).valid) :
    CapabilityGraphService.ofRegistry (deploymentRegistry toolName riskLevel)
        (evaluatorOf (deploymentRegistry toolName riskLevel) .plain) =
      .ok (deploymentService toolName riskLevel declaration) := by
  have hdeclarations : declarationsFor toolName (deploymentTool toolName riskLevel) =
      [declaration] := by
    rw [declarationsFor, if_neg (fun h => h.1 rfl), hlookup]
    rfl
  have hbuild : buildEdges (deploymentRegistry toolName riskLevel) =
      .ok [declaredEdge toolName (deploymentTool toolName riskLevel) declaration] := by
    rw [buildEdges, sortedBy, deploymentRegistry, List.mergeSort_singleton,
      List.flatMap_singleton, hdeclarations, List.map_singleton, List.mapM_cons, if_pos hvalid]
    rfl
  rw [CapabilityGraphService.ofRegistry, hbuild]
  rfl

/-- A rollback requires the deployment that it starts from. -/
theorem rollback_respectsPrerequisites :
    ∃ S path,
      CapabilityGraphService.ofRegistry (deploymentRegistry "rollback_production" .high)
        (evaluatorOf (deploymentRegistry "rollback_production" .high) .plain) = .ok S ∧
      S.findPath (deploymentRequest "production_environment") 0 2 = some (.ok path) ∧
      path.reachable ∧ RespectsPrerequisites path := by
  have hS := ofRegistry_deploymentRegistry .high
    (rfl : toolResourceMap.lookup "rollback_production" = _) (by decide)
  have hpath : (deploymentService "rollback_production" .high
      ⟨"deployment", "production_environment", ["deployment"], 5⟩).findPath
        (deploymentRequest "production_environment") 0 2 = some (.ok (pathFromEdges
          (deploymentRequest "production_environment") ["deployment", "production_environment"]
          [declaredEdge "rollback_production" (deploymentTool "rollback_production" .high)
            ⟨"deployment", "production_environment", ["deployment"], 5⟩])) := rfl
  refine ⟨_, _, hS, hpath, rfl, (findPath_prerequisites hS hpath rfl).2.2.2 ?_⟩
  intro entry hentry
  rw [List.mem_singleton.mp hentry]
  decide

/-- The removal of a deployment requires an approval, which is no type on the path. -/
theorem deletion_fails :
    ∃ S path,
      CapabilityGraphService.ofRegistry (deploymentRegistry "delete_bad_deployment" .critical)
        (evaluatorOf (deploymentRegistry "delete_bad_deployment" .critical) .plain) = .ok S ∧
      S.findPath (deploymentRequest "deleted_deployment") 0 2 = some (.ok path) ∧
      path.reachable ∧ ¬RespectsPrerequisites path := by
  have hS := ofRegistry_deploymentRegistry .critical
    (rfl : toolResourceMap.lookup "delete_bad_deployment" = _) (by decide)
  have hpath : (deploymentService "delete_bad_deployment" .critical
      ⟨"deployment", "deleted_deployment", ["approval"], 8⟩).findPath
        (deploymentRequest "deleted_deployment") 0 2 = some (.ok (pathFromEdges
          (deploymentRequest "deleted_deployment") ["deployment", "deleted_deployment"]
          [declaredEdge "delete_bad_deployment" (deploymentTool "delete_bad_deployment" .critical)
            ⟨"deployment", "deleted_deployment", ["approval"], 8⟩])) := rfl
  refine ⟨_, _, hS, hpath, rfl, fun h => ?_⟩
  exact absurd (h [] _ [] rfl "approval" (List.mem_singleton_self _)) (by decide)

end McpOps
