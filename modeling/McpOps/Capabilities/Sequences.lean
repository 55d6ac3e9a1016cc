import McpOps.Capabilities.Compliance
import McpOps.Lib.Positions

/-!
# Paths and sequences of tools

What planning asks the capability graph for: the path that a request calls for, and the tools that
are at hand in an order that follows it.  Every search comes to an end, so the rounds of the loops
can be left out; and with the strategy `shortest` no path has fewer edges than the one found.

`exists_findPath` finds a number of rounds that suffice, whatever the strategy, and says that more
of them change nothing.  `CapabilityGraphService.pathFor` is the search with so many.

For the strategy `shortest`, the breadth-first search is given the enabled edges and takes the
fewest of them.  A path with the fewest edges passes no resource twice, since it could be cut short
there (`exists_shorter`, `nodup_of_shortest`).  `findPath_shortest` says all of it about the graph,
without the queue.

`of_constrainToolSequence` is about the order of tools: those of the path come first, in the order
in which the path uses them.
-/

namespace McpOps

open BestFirst

/-! ## The request that a text makes -/

/-- `_infer_source(user_request)`. -/
def inferSource (rt : Runtime) (userRequest : String) : String :=
  let normalized := (rt.lower userRequest).toList
  if "sim-".toList <:+: normalized ∨ "device".toList <:+: normalized then "device:SIM-014"
  else if "service".toList <:+: normalized ∨ "runbook".toList <:+: normalized then
    "service:payments"
  else "repository:payments-api"

/-- `_infer_goal(user_request)`. -/
def inferGoal (rt : Runtime) (userRequest : String) : String :=
  let normalized := (rt.lower userRequest).toList
  if "ticket".toList <:+: normalized ∨ "issue".toList <:+: normalized then
    "create_issue_for_latest_failed_build"
  else if "staging".toList <:+: normalized ∨ "deploy".toList <:+: normalized then
    "deploy_to_staging"
  else if "runbook".toList <:+: normalized ∨ "documentation".toList <:+: normalized then
    "find_service_runbook"
  else if "build".toList <:+: normalized ∨ "pipeline".toList <:+: normalized then
    "investigate_failed_build"
  else "investigate_failed_build"

/-! ## Every search ends -/

section Ends

variable (S : CapabilityGraphService) (request : CapabilityPathRequest) (now : Time)

/-- Rounds after which every search of the graph has ended. -/
def CapabilityGraphService.rounds : ℕ := S.edges.length + 2

/-- So many rounds suffice, whatever the strategy, and more of them change nothing. -/
theorem exists_findPath : ∃ outcome, ∀ fuel, S.rounds ≤ fuel →
    S.findPath request now fuel = some outcome := by
  have hdijkstra : ∀ riskWeight, ∃ outcome, ∀ fuel, S.rounds ≤ fuel →
      S.dijkstra asFloats (checkOf S request now) request (resourceType request.source)
        (goalType request.goal) riskWeight fuel = some outcome := by
    intro riskWeight
    obtain ⟨found, hfound⟩ := exists_search_of_length S.edges
      (scoreGraph S (checkOf S request now) isRounding_asFloats riskWeight)
      (List.length_filter_le ..)
      (resourceType request.source) (goalType request.goal)
    have hsome : ∃ outcome, S.dijkstra asFloats (checkOf S request now) request
        (resourceType request.source) (goalType request.goal) riskWeight S.rounds =
          some outcome := by
      -- the search raises within its rounds, or finds what the abstract search finds
      rcases dijkstra_eq S (checkOf S request now) isRounding_asFloats riskWeight request
        (resourceType request.source) (goalType request.goal) S.rounds with ⟨err, herr, -⟩ | heq
      · exact ⟨.error err, herr⟩
      · rw [heq, hfound S.rounds le_rfl, Option.map_some]
        exact ⟨_, rfl⟩
    obtain ⟨outcome, houtcome⟩ := hsome
    exact ⟨outcome, fun fuel hfuel => dijkstraLoop_of_le hfuel houtcome⟩
  have hbfs : ∃ outcome, ∀ fuel, S.rounds ≤ fuel →
      S.bfs (checkOf S request now) request (resourceType request.source) (goalType request.goal)
        false fuel = some outcome := by
    obtain ⟨found, hfound⟩ := exists_search_of_length S.edges (stepGraph S)
      (List.length_filter_le ..) (resourceType request.source) (goalType request.goal)
    refine ⟨searchResult (stepGraph S) request (resourceType request.source)
      (goalType request.goal) found, fun fuel hfuel => ?_⟩
    rw [bfs_eq, hfound fuel hfuel, Option.map_some]
  unfold CapabilityGraphService.findPath
  by_cases hlowest : request.strategy = "lowest_risk"
  · simp only [if_pos hlowest]
    exact hdijkstra true
  · by_cases hshortest : request.strategy = "shortest"
    · simp only [if_neg hlowest, if_pos hshortest]
      exact hbfs
    · simp only [if_neg hlowest, if_neg hshortest]
      exact hdijkstra false

theorem isSome_findPath : (S.findPath request now S.rounds).isSome := by
  obtain ⟨outcome, houtcome⟩ := exists_findPath S request now
  rw [houtcome _ le_rfl]
  rfl

/-- What `find_path(request)` comes to at `now`: a path, or what the policy raises. -/
def CapabilityGraphService.pathFor : Except EngineError CapabilityPath :=
  (S.findPath request now S.rounds).get (isSome_findPath S request now)

variable {S request now}

theorem findPath_of_le {fuel : ℕ} (hfuel : S.rounds ≤ fuel) :
    S.findPath request now fuel = some (S.pathFor request now) := by
  obtain ⟨outcome, houtcome⟩ := exists_findPath S request now
  have hpath : some (S.pathFor request now) = some outcome := by
    rw [CapabilityGraphService.pathFor, Option.some_get, houtcome _ le_rfl]
  rw [houtcome fuel hfuel, hpath]

end Ends

/-! ## The shortest path -/

section Shortest

variable {edges path : List CapabilityEdge} {usable : CapabilityEdge → Bool}
  {weight : CapabilityEdge → Score} {hweight : ∀ edge, 0 ≤ weight edge} {source goal : String}

theorem isPath_of_append {before after : List CapabilityEdge} {last : CapabilityEdge}
    (h : IsPath edges usable source (before ++ last :: after) goal) :
    IsPath edges usable last.destinationType after goal := by
  induction before generalizing source with
  | nil => exact h.2
  | cons edge rest ih => exact ih h.2

/-- A path that comes back to its source can be cut short. -/
theorem exists_shorter (h : IsPath edges usable source path goal)
    (hback : source ∈ path.map (·.destinationType)) :
    ∃ shorter, IsPath edges usable source shorter goal ∧ shorter.length < path.length := by
  obtain ⟨last, hlast, hsource⟩ := List.mem_map.mp hback
  obtain ⟨before, after, rfl⟩ := List.append_of_mem hlast
  have hafter := isPath_of_append h
  rw [hsource] at hafter
  refine ⟨after, hafter, ?_⟩
  simp only [List.length_append, List.length_cons]
  omega

/-- A path with the fewest edges passes no resource twice. -/
theorem nodup_of_shortest (h : IsPath edges usable source path goal)
    (hleast : ∀ other, IsPath edges usable source other goal → path.length ≤ other.length) :
    (source :: path.map (·.destinationType)).Nodup := by
  induction path generalizing source with
  | nil => simp
  | cons edge rest ih =>
      rw [List.nodup_cons]
      constructor
      · intro hback
        obtain ⟨shorter, hpath, hshorter⟩ := exists_shorter h hback
        have hle := hleast shorter hpath
        omega
      · -- what is least from the source is least from the next resource on
        apply ih h.2
        intro other hother
        have hle := hleast (edge :: other) ⟨h.1, hother⟩
        simp only [List.length_cons] at hle
        omega

/-- **The shortest path.**  With the strategy `shortest` the search ends; it finds a path exactly
when enabled edges lead from the source to the goal, and then one with the fewest edges, which
passes no resource twice. -/
theorem findPath_shortest (S : CapabilityGraphService) (request : CapabilityPathRequest)
    (now : Time) (hstrategy : request.strategy = "shortest") :
    ∃ path : CapabilityPath,
      (∀ fuel, S.rounds ≤ fuel → S.findPath request now fuel = some (.ok path)) ∧
      (path.reachable ↔ ∃ edges, IsPath S.edges (·.enabled) (resourceType request.source) edges
        (goalType request.goal)) ∧
      (path.reachable →
        IsPath S.edges (·.enabled) (resourceType request.source) path.edges
          (goalType request.goal) ∧
        path.nodes = resourceType request.source :: path.edges.map (·.destinationType) ∧
        path.nodes.Nodup ∧
        ∀ edges, IsPath S.edges (·.enabled) (resourceType request.source) edges
          (goalType request.goal) → path.edges.length ≤ edges.length) := by
  set source := resourceType request.source with hsource
  set goal := goalType request.goal with hgoal
  have hsound := Graph.sound_start (stepGraph S) source goal
  obtain ⟨found, hfound⟩ := exists_search_of_length S.edges (stepGraph S)
    (List.length_filter_le ..) source goal
  have hlowest : request.strategy ≠ "lowest_risk" := by
    rw [hstrategy]
    decide
  have hresult : ∀ fuel, S.rounds ≤ fuel →
      S.findPath request now fuel =
        some (searchResult (stepGraph S) request source goal found) := by
    intro fuel hfuel
    rw [CapabilityGraphService.findPath, if_neg hlowest, if_pos hstrategy]
    apply (bfs_eq fuel).trans
    rw [hfound fuel hfuel, Option.map_some]
  cases found with
  | none =>
      refine ⟨unreachable request source goal, hresult, ?_, fun h => absurd h Bool.false_ne_true⟩
      apply iff_of_false Bool.false_ne_true
      -- a walk would have an infinite score, and every score is a length
      rintro ⟨edges, hpath⟩
      obtain ⟨trail, hwalk, -⟩ := exists_walk_of_isPath hpath
      have hinfinite := hsound.search_exhausted (hfound _ le_rfl) trail hwalk
      rw [infinite_score_stepGraph] at hinfinite
      cases hinfinite
  | some e =>
      obtain ⟨hwalk, -, -, hfirst⟩ := hsound.search_found (hfound _ le_rfl)
      have hpath : IsPath S.edges (·.enabled) source (pathOf e.trail) goal := isPath_of_walk hwalk
      have hleast : ∀ edges, IsPath S.edges (·.enabled) source edges goal →
          (pathOf e.trail).length ≤ edges.length := by
        intro edges hedges
        obtain ⟨trail, hwalk', rfl⟩ := exists_walk_of_isPath hedges
        have hle : (stepGraph S).score e.trail ≤ (stepGraph S).score trail :=
          (hfirst trail hwalk' (infinite_score_stepGraph S trail)).score_le hwalk'.mem_edges
        rwa [score_stepGraph, score_stepGraph, WithTop.coe_le_coe, Nat.cast_le] at hle
      have hnodes : ((stepGraph S).nodes source e.trail).reverse =
          source :: (pathOf e.trail).map (·.destinationType) := reverse_nodes e.trail
      refine ⟨_, hresult, iff_of_true rfl ⟨_, hpath⟩, fun _ => ⟨hpath, hnodes, ?_, hleast⟩⟩
      -- a path that visits a node twice could be cut short
      exact hnodes.symm ▸ nodup_of_shortest hpath hleast

/-- The removal is found as the one step that it is. -/
theorem findPath_shortest_oneStep : ∃ path,
    deletingService.findPath deletingRequest 0 3 = some (.ok path) ∧ path.reachable ∧
      path.edges.length ≤ 1 := by
  obtain ⟨path, hends, hreachable, hleast⟩ :=
    findPath_shortest deletingService deletingRequest 0 rfl
  have hstep : IsPath deletingService.edges (·.enabled) (resourceType deletingRequest.source)
      [deleteDeployment] (goalType deletingRequest.goal) :=
    ⟨⟨List.mem_singleton.mpr rfl, rfl, rfl⟩, rfl⟩
  have hfound := hreachable.mpr ⟨_, hstep⟩
  exact ⟨path, hends 3 le_rfl, hfound, (hleast hfound).2.2.2 _ hstep⟩

end Shortest

/-! ## Tools in the order of a path -/

section Order

variable {S : CapabilityGraphService} {request : CapabilityPathRequest} {now : Time}
  {path : CapabilityPath}

/-- What is found with the policy leads along enabled and allowed edges, and its tools are
theirs. -/
theorem allowed_of_pathFor (hstrategy : request.strategy ≠ "shortest")
    (h : S.pathFor request now = .ok path) :
    path.tools = path.edges.map (·.toolName) ∧
      (path.reachable → IsPath S.edges (allowedEdge S request now) (resourceType request.source)
        path.edges (goalType request.goal)) ∧
      (path.reachable = false → path.edges = []) := by
  -- both remaining strategies are the search by scores, with and without risk
  have hdijkstra : ∀ riskWeight, S.dijkstra asFloats (checkOf S request now) request
      (resourceType request.source) (goalType request.goal) riskWeight S.rounds =
        some (.ok path) →
      path.tools = path.edges.map (·.toolName) ∧
        (path.reachable → IsPath S.edges (allowedEdge S request now) (resourceType request.source)
          path.edges (goalType request.goal)) ∧
        (path.reachable = false → path.edges = []) := by
    intro riskWeight hpath
    rcases dijkstra_eq S (checkOf S request now) isRounding_asFloats riskWeight request
      (resourceType request.source) (goalType request.goal) S.rounds with ⟨err, herr, -⟩ | heq
    · rw [herr] at hpath
      cases hpath
    · rw [heq, Option.map_eq_some_iff] at hpath
      obtain ⟨found, hfound, hpath⟩ := hpath
      cases found with
      | none =>
          cases hpath
          exact ⟨rfl, fun h => absurd h Bool.false_ne_true, fun _ => rfl⟩
      | some e =>
          cases hpath
          obtain ⟨hwalk, -⟩ := (Graph.sound_start _ _ _).search_found hfound
          exact ⟨rfl, fun _ => isPath_of_walk hwalk, fun h => absurd h.symm Bool.false_ne_true⟩
  -- the path is what the search comes to within its rounds
  have hpath : S.findPath request now S.rounds = some (S.pathFor request now) :=
    findPath_of_le (le_refl S.rounds)
  rw [h, CapabilityGraphService.findPath] at hpath
  simp only [if_neg hstrategy] at hpath
  split at hpath
  · exact hdijkstra true hpath
  · exact hdijkstra false hpath

variable (S) in
/-- `path_request_for_goal(user_request, role=role, environment=environment)`. -/
def CapabilityGraphService.pathRequestForGoal (userRequest role environment : String) :
    CapabilityPathRequest where
  source := inferSource S.policyEvaluator.runtime userRequest
  goal := inferGoal S.policyEvaluator.runtime userRequest
  role
  environment

variable (S) in
/-- `constrain_tool_sequence(...)`, at `now`. -/
def CapabilityGraphService.constrainToolSequence (userRequest role environment : String)
    (availableToolNames : List String) (now : Time) : Except EngineError (List String) := do
  let path ← S.pathFor (S.pathRequestForGoal userRequest role environment) now
  let ordered := path.tools.filter (· ∈ availableToolNames)
  .ok (ordered ++ availableToolNames.filter (· ∉ ordered))

/-- The sequence has all available tools and no others: those of the path first, in the order in
which the path uses them, and then the others as they come. -/
theorem of_constrainToolSequence {userRequest role environment : String}
    {availableToolNames sequence : List String} (hnodup : availableToolNames.Nodup)
    (h : S.constrainToolSequence userRequest role environment availableToolNames now =
      .ok sequence) :
    ∃ path, S.pathFor (S.pathRequestForGoal userRequest role environment) now = .ok path ∧
      (∀ name, name ∈ sequence ↔ name ∈ availableToolNames) ∧
      sequence.eraseDups = (path.tools.filter (· ∈ availableToolNames)).eraseDups ++
        availableToolNames.filter (· ∉ path.tools) := by
  rw [CapabilityGraphService.constrainToolSequence] at h
  cases hpath : S.pathFor (S.pathRequestForGoal userRequest role environment) now with
  | error e =>
      rw [hpath] at h
      cases h
  | ok path =>
      rw [hpath] at h
      cases h
      -- of the offered names, the path's tools are left out once they have been put first
      have hothers : availableToolNames.filter (· ∉ path.tools.filter (· ∈ availableToolNames)) =
          availableToolNames.filter (· ∉ path.tools) := by
        apply List.filter_congr
        intro name hname
        simp [hname]
      refine ⟨path, rfl, fun name => ?_, ?_⟩
      · rw [List.mem_append, List.mem_filter, List.mem_filter]
        by_cases hname : name ∈ availableToolNames
        · simp [hname, em]
        · simp [hname]
      · rw [hothers]
        apply Positions.eraseDups_append_of_nodup (hnodup.filter _)
        intro name hname
        simp only [List.mem_filter, decide_not, Bool.not_eq_true', decide_eq_false_iff_not] at hname
        simp [hname.2]

end Order

end McpOps
