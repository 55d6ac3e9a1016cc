import McpOps.Capabilities.Search
import Mathlib.Tactic.NormNum

/-!
# What is reported about a path

`_path_from_edges` leaves `policy_compliant` at its default, so the flag says nothing where the
search did not look at the policy: with the strategy `shortest`.

`_bfs` is compared with the abstract search in which every edge weighs one.  Its queue is the
frontier, since paths are added to it in the order of their lengths (`Level`); so it returns the
first of the shortest paths along enabled edges.

* `bfs_eq`: `_bfs` without the policy is the search by steps.
* `checkOf_of_dijkstra`: `_dijkstra` returns allowed edges only.
* `flagIsTrue_iff`: when the flag says what it is to say.
-/

namespace McpOps

open BestFirst

/-! ## `_bfs` -/

section Bfs

variable (S : CapabilityGraphService) (allowed : CapabilityEdge → Except EngineError Bool)

/-- The enabled edges, each of weight one. -/
def stepGraph : Graph String (CapabilityEdge × ℕ) Score :=
  capabilityGraph S.edges (·.enabled) isRounding_exactly
    fun _ : CapabilityEdge => (zero_le_one : (0 : Score) ≤ 1)

/-- An entry of the queue is that of the frontier. -/
structure QueueEntryMatches (G : Graph String (CapabilityEdge × ℕ) Score) (source : String)
    (entry : QueueEntry) (f : Entry String (CapabilityEdge × ℕ) Score) : Prop where
  current : entry.current = f.node
  nodes : entry.nodes = (G.nodes source f.trail).reverse
  edges : entry.edges = pathOf f.trail

/-- The frontier of a search by steps: its lengths are finite, they are sorted, and they differ by
at most one. -/
structure Level (frontier : List (Entry String (CapabilityEdge × ℕ) Score)) : Prop where
  finite : ∀ f ∈ frontier, f.cost ≠ ⊤
  sorted : frontier.Pairwise fun f g => f.cost ≤ g.cost
  spread : ∀ f ∈ frontier, ∀ g ∈ frontier, g.cost ≤ f.cost + 1

variable {G : Graph String (CapabilityEdge × ℕ) Score} {source goal : String}
  {e : Entry String (CapabilityEdge × ℕ) Score}
  {rest frontier : List (Entry String (CapabilityEdge × ℕ) Score)}

/-- The first entry of a level is the one to take off. -/
theorem Level.popLeast_cons (h : Level (e :: rest)) : popLeast (e :: rest) = some (e, rest) := by
  rw [popLeast]
  split
  · next hnone => rw [popLeast_eq_none hnone]
  · next m others hsome =>
    have hmem : m ∈ rest := (Graph.mem_of_popLeast hsome m).mpr (.inl rfl)
    have hle : e.cost ≤ m.cost := (List.pairwise_cons.mp h.sorted).1 m hmem
    rw [if_neg (not_lt.mpr hle)]

theorem Level.tail (h : Level (e :: rest)) : Level rest where
  finite f hf := h.finite f (List.mem_cons_of_mem e hf)
  sorted := (List.pairwise_cons.mp h.sorted).2
  spread f hf g hg := h.spread f (List.mem_cons_of_mem e hf) g (List.mem_cons_of_mem e hg)

/-- Extensions of the first entry by one step keep the level. -/
theorem Level.append (h : Level (e :: rest))
    {added : List (Entry String (CapabilityEdge × ℕ) Score)}
    (hadded : ∀ g ∈ added, g.cost = e.cost + 1) : Level (rest ++ added) where
  finite f hf := by
    rcases List.mem_append.mp hf with hf | hf
    · exact h.tail.finite f hf
    · rw [hadded f hf]
      exact WithTop.add_ne_top.mpr ⟨h.finite e (List.mem_cons_self ..), WithTop.coe_ne_top⟩
  sorted := by
    rw [List.pairwise_append]
    refine ⟨h.tail.sorted, ?_, fun f hf g hg => ?_⟩
    · rw [List.pairwise_iff_forall_sublist]
      intro f g hsub
      have hf := hadded f (hsub.subset (List.mem_cons_self ..))
      have hg := hadded g (hsub.subset (List.mem_cons_of_mem _ (List.mem_singleton.mpr rfl)))
      exact (hf.trans hg.symm).le
    · rw [hadded g hg]
      exact h.spread e (List.mem_cons_self ..) f (List.mem_cons_of_mem e hf)
  spread := by
    have hfirst : ∀ f ∈ rest, e.cost ≤ f.cost := (List.pairwise_cons.mp h.sorted).1
    have hbound : ∀ f ∈ rest ++ added, e.cost ≤ f.cost ∧ f.cost ≤ e.cost + 1 := by
      intro f hf
      rcases List.mem_append.mp hf with hf | hf
      · exact ⟨hfirst f hf, h.spread e (List.mem_cons_self ..) f (List.mem_cons_of_mem e hf)⟩
      · rw [hadded f hf]
        exact ⟨le_add_of_nonneg_right zero_le_one, le_rfl⟩
    intro f hf g hg
    exact (hbound g hg).2.trans (add_le_add_left (hbound f hf).1 1)

/-- Without the policy, `enqueue` adds to the queue what the search adds to the frontier. -/
theorem enqueue_matches (allowed : CapabilityEdge → Except EngineError Bool) {entry : QueueEntry}
    (hdst : ∀ a, G.dst a = a.1.destinationType)
    (hentry : QueueEntryMatches G source entry e) {l : List (CapabilityEdge × ℕ)}
    {queue : List QueueEntry}
    (h : List.Forall₂ (QueueEntryMatches G source) queue frontier) :
    ∃ queue', enqueue allowed false entry (l.map Prod.fst) queue = .ok queue' ∧
      List.Forall₂ (QueueEntryMatches G source) queue' (frontier ++
        (l.filter fun a => G.dst a ∉ G.nodes source e.trail).map (G.follow e)) := by
  induction l generalizing queue frontier with
  | nil => exact ⟨queue, rfl, by simpa using h⟩
  | cons a l ih =>
      have hvisited : a.1.destinationType ∈ entry.nodes ↔ G.dst a ∈ G.nodes source e.trail := by
        rw [hentry.nodes, List.mem_reverse, hdst]
      rw [List.map_cons, enqueue]
      simp only [Bool.false_eq_true, if_false]
      by_cases hmem : G.dst a ∈ G.nodes source e.trail
      · rw [if_pos (hvisited.mpr hmem), List.filter_cons_of_neg (by simpa using hmem)]
        exact ih h
      · rw [if_neg fun hv => hmem (hvisited.mp hv), List.filter_cons_of_pos (by simpa using hmem),
          List.map_cons, List.append_cons frontier]
        refine ih (List.rel_append h (.cons ⟨?_, ?_, ?_⟩ .nil))
        · exact (hdst a).symm
        · rw [Graph.follow, Graph.nodes, List.map_cons, List.cons_append, List.reverse_cons,
            hentry.nodes, hdst]
          rfl
        · rw [Graph.follow, pathOf_cons, hentry.edges]

variable {S allowed} {request : CapabilityPathRequest}

/-- The enabled edges out of a node. -/
theorem filter_outgoing (node : String) :
    (S.edges.zipIdx.filter fun a => decide (a.1.sourceType = node ∧ a.1.enabled)) =
      (stepGraph S).edges.filter fun a => (stepGraph S).src a = node := by
  rw [stepGraph, capabilityGraph, List.filter_filter]
  apply List.filter_congr
  intro a _
  by_cases hsource : a.1.sourceType = node <;> simp [hsource]

/-- The loop of `_bfs` without the policy is the search by steps. -/
theorem bfsLoop_eq {fuel : ℕ} {queue : List QueueEntry} {visited : List String}
    {settled : String → Option (List (CapabilityEdge × ℕ))}
    (hqueue : List.Forall₂ (QueueEntryMatches (stepGraph S) source) queue frontier)
    (hlevel : Level frontier)
    (hvisited : ∀ node, node ∈ visited ↔ (settled node).isSome) :
    S.bfsLoop allowed request source goal false fuel queue visited =
      ((stepGraph S).search source goal fuel frontier settled).map
        (searchResult (stepGraph S) request source goal) := by
  induction fuel generalizing queue visited frontier settled with
  | zero => cases hqueue <;> rfl
  | succ fuel ih =>
      cases hqueue with
      | nil => rfl
      | @cons entry e queue rest hentry hrest =>
          -- the queue is in the order of lengths, so its head is the entry of least score
          rw [CapabilityGraphService.bfsLoop, Graph.search]
          simp only [hlevel.popLeast_cons]
          by_cases hgoal : e.node = goal
          · rw [if_pos hgoal, if_pos (hentry.current.trans hgoal), hentry.nodes, hentry.edges]
            rfl
          · rw [if_neg hgoal, if_neg (by rwa [hentry.current]), hentry.current]
            -- a length is never infinite, so only settled nodes are skipped
            have hfinite : (stepGraph S).infinite e.cost = false :=
              decide_eq_false (hlevel.finite e (List.mem_cons_self ..))
            have hskip : (settled e.node).isSome ∨ (stepGraph S).infinite e.cost ↔
                (settled e.node).isSome := by
              rw [hfinite]
              exact or_iff_left Bool.false_ne_true
            rw [if_congr hskip rfl rfl]
            by_cases hsettled : (settled e.node).isSome
            · rw [if_pos ((hvisited _).mpr hsettled), if_pos hsettled]
              exact ih hrest hlevel.tail hvisited
            · rw [if_neg fun h => hsettled ((hvisited _).mp h), if_neg hsettled, outgoing_eq]
              obtain ⟨queue', henqueue, hnext⟩ := enqueue_matches allowed
                (l := S.edges.zipIdx.filter fun a =>
                  decide (a.1.sourceType = e.node ∧ a.1.enabled))
                (fun _ => rfl) hentry hrest
              rw [filter_outgoing] at hnext
              simp only [henqueue]
              refine ih hnext (hlevel.append fun g hg => ?_) fun node => ?_
              · obtain ⟨a, -, rfl⟩ := List.mem_map.mp hg
                rfl
              · rw [List.mem_cons, Function.update_apply, hvisited]
                by_cases hnode : node = e.node <;> simp [hnode]

/-- `_bfs` without the policy is the search by steps. -/
theorem bfs_eq (fuel : ℕ) :
    S.bfs allowed request source goal false fuel =
      ((stepGraph S).search source goal fuel [(stepGraph S).start source] fun _ => none).map
        (searchResult (stepGraph S) request source goal) := by
  refine bfsLoop_eq (.cons ⟨rfl, rfl, rfl⟩ .nil) ⟨?_, List.pairwise_singleton .., ?_⟩ (by simp)
  · intro f hf
    rw [List.mem_singleton.mp hf]
    exact WithTop.coe_ne_top
  · intro f hf g hg
    rw [List.mem_singleton.mp hf, List.mem_singleton.mp hg]
    exact le_add_of_nonneg_right zero_le_one

end Bfs

/-- The score of a trail is the number of its steps. -/
theorem score_stepGraph (S : CapabilityGraphService) (trail : List (CapabilityEdge × ℕ)) :
    (stepGraph S).score trail = ((pathOf trail).length : ℚ) := by
  induction trail with
  | nil => rfl
  | cons a trail ih =>
      have hextend : (stepGraph S).score (a :: trail) = (stepGraph S).score trail + (1 : ℚ) := rfl
      rw [hextend, ih, pathOf_cons, List.length_append, List.length_singleton, Nat.cast_add,
        Nat.cast_one, WithTop.coe_add]

/-- Numbers of steps are finite. -/
theorem infinite_score_stepGraph (S : CapabilityGraphService) (trail : List (CapabilityEdge × ℕ)) :
    (stepGraph S).infinite ((stepGraph S).score trail) = false := by
  rw [score_stepGraph]
  exact decide_eq_false (p := (((pathOf trail).length : ℚ) : Score) = ⊤) WithTop.coe_ne_top

/-! ## The flag -/

/-- The check of a request's edges. -/
def checkOf (S : CapabilityGraphService) (request : CapabilityPathRequest) (now : Time) :
    CapabilityEdge → Except EngineError Bool :=
  S.edgeAllowed request.role request.environment request.disabledServers now

/-- The edges that a request's search may use. -/
def allowedEdge (S : CapabilityGraphService) (request : CapabilityPathRequest) (now : Time)
    (edge : CapabilityEdge) : Bool :=
  edge.enabled && passes (checkOf S request now) edge

/-- A path that is reported as compliant has only edges that are allowed and whose servers are
not disabled. -/
def FlagIsTrue (S : CapabilityGraphService) (request : CapabilityPathRequest) (now : Time) : Prop :=
  ∀ fuel path, S.findPath request now fuel = some (.ok path) → path.policyCompliant →
    ∀ edge ∈ path.edges,
      checkOf S request now edge = .ok true ∧ edge.mcpServer ∉ request.disabledServers

section Flag

variable {S : CapabilityGraphService} {request : CapabilityPathRequest} {now : Time}

theorem enabled_of_checkOf {edge : CapabilityEdge} (h : checkOf S request now edge = .ok true) :
    edge.mcpServer ∉ request.disabledServers := by
  intro hdisabled
  rw [checkOf, CapabilityGraphService.edgeAllowed, if_pos hdisabled] at h
  cases h

theorem checkOf_of_passes {edge : CapabilityEdge}
    (h : passes (checkOf S request now) edge) : checkOf S request now edge = .ok true := by
  rw [passes] at h
  split at h
  · next hok => rw [hok, h]
  · cases h

/-- What `_dijkstra` reports as compliant is. -/
theorem checkOf_of_dijkstra {riskWeight : Bool} {source goal : String} {fuel : ℕ}
    {path : CapabilityPath}
    (h : S.dijkstra asFloats (checkOf S request now) request source goal riskWeight fuel =
      some (.ok path)) :
    ∀ edge ∈ path.edges, checkOf S request now edge = .ok true := by
  rcases dijkstra_eq S (checkOf S request now) isRounding_asFloats riskWeight request source goal
    fuel with
    ⟨err, herr, -⟩ | heq
  · rw [herr] at h
    cases h
  · rw [heq, Option.map_eq_some_iff] at h
    obtain ⟨found, hfound, hpath⟩ := h
    cases found with
    | none =>
        cases hpath
        exact fun edge hedge => absurd hedge List.not_mem_nil
    | some e =>
        cases hpath
        obtain ⟨hwalk, -⟩ := (Graph.sound_start _ _ _).search_found hfound
        intro edge hedge
        obtain ⟨a, ha, rfl⟩ := List.mem_map.mp (List.mem_reverse.mp hedge)
        have husable := (List.mem_filter.mp (hwalk.mem_edges a ha)).2
        exact checkOf_of_passes (Bool.and_eq_true_iff.mp husable).2

/-- **The flag.**  It is true of every path that is found, except where the strategy is
`shortest` and the first shortest path along enabled edges has one that is not allowed. -/
theorem flagIsTrue_iff (S : CapabilityGraphService) (request : CapabilityPathRequest) (now : Time) :
    FlagIsTrue S request now ↔
      (request.strategy = "shortest" → ∀ trail,
        (stepGraph S).IsFirst (resourceType request.source) (goalType request.goal) trail →
          ∀ a ∈ trail, checkOf S request now a.1 = .ok true) := by
  by_cases hstrategy : request.strategy = "shortest"
  · have hrun : ∀ fuel, S.findPath request now fuel =
        ((stepGraph S).search (resourceType request.source) (goalType request.goal) fuel
          [(stepGraph S).start (resourceType request.source)] fun _ => none).map
          (searchResult (stepGraph S) request (resourceType request.source)
            (goalType request.goal)) := by
      intro fuel
      have hlowest : request.strategy ≠ "lowest_risk" := by
        rw [hstrategy]
        decide
      rw [CapabilityGraphService.findPath, if_neg hlowest, if_pos hstrategy]
      exact bfs_eq fuel
    have hsound := Graph.sound_start (stepGraph S) (resourceType request.source)
      (goalType request.goal)
    constructor
    · intro hflag _ trail hfirst a ha
      obtain ⟨found, hfound⟩ := exists_search_of_length S.edges (stepGraph S)
        (List.length_filter_le ..) (resourceType request.source) (goalType request.goal)
      have hsearch := hfound _ le_rfl
      cases found with
      | none =>
          have hinfinite := hsound.search_exhausted hsearch trail hfirst.1
          rw [infinite_score_stepGraph] at hinfinite
          cases hinfinite
      | some e =>
          -- the path found is the first shortest one, so the flag speaks of `trail`
          rw [← hsound.eq_of_isFirst hsearch hfirst (infinite_score_stepGraph S trail)] at ha
          have hpath := hrun (S.edges.length + 2)
          rw [hsearch] at hpath
          refine (hflag _ _ hpath rfl a.1 ?_).1
          exact List.mem_reverse.mpr (List.mem_map_of_mem ha)
    · intro hcondition fuel path hpath hcompliant edge hedge
      rw [hrun, Option.map_eq_some_iff] at hpath
      obtain ⟨found, hfound, hpath⟩ := hpath
      cases found with
      | none =>
          cases hpath
          cases hcompliant
      | some e =>
          cases hpath
          obtain ⟨hwalk, -, -, hfirst⟩ := hsound.search_found hfound
          obtain ⟨a, ha, rfl⟩ := List.mem_map.mp (List.mem_reverse.mp hedge)
          have hallowed := hcondition hstrategy e.trail
            ⟨hwalk, fun p hp => hfirst p hp (infinite_score_stepGraph S p)⟩ a ha
          exact ⟨hallowed, enabled_of_checkOf hallowed⟩
  · -- the other strategies look at the policy themselves
    refine iff_of_true (fun fuel path hpath _ edge hedge => ?_) fun h => absurd h hstrategy
    have hallowed : checkOf S request now edge = .ok true := by
      rw [CapabilityGraphService.findPath, if_neg hstrategy] at hpath
      split at hpath
      · exact checkOf_of_dijkstra hpath edge hedge
      · exact checkOf_of_dijkstra hpath edge hedge
    exact ⟨hallowed, enabled_of_checkOf hallowed⟩

end Flag

/-! ## A removal over a disabled server -/

/-- An operation that removes a deployment, on a server of its own. -/
def deleteDeployment : CapabilityEdge where
  sourceType := "deployment"
  destinationType := "deleted_deployment"
  toolName := "delete_bad_deployment"
  mcpServer := "deployment-mcp"
  cost := 8
  risk := "CRITICAL"
  cost_nonneg := by norm_num

/-- A graph with that edge alone, and no registered tool. -/
def deletingService : CapabilityGraphService where
  policyEvaluator := ⟨[], .plain⟩
  edges := [deleteDeployment]

/-- The shortest path to the removal, although its server is disabled. -/
def deletingRequest : CapabilityPathRequest where
  source := "deployment:current"
  goal := "deleted_deployment"
  role := "OPERATOR"
  environment := "production"
  strategy := "shortest"
  disabledServers := ["deployment-mcp"]

/-- The path over the disabled server is reported as compliant. -/
theorem disabledServer_reported_compliant : ¬ FlagIsTrue deletingService deletingRequest 0 := by
  intro hflag
  have hpath : deletingService.findPath deletingRequest 0 2 =
      some (.ok (pathFromEdges deletingRequest ["deployment", "deleted_deployment"]
        [deleteDeployment])) := by
    rfl
  have hallowed := hflag 2 _ hpath rfl deleteDeployment (List.mem_singleton.mpr rfl)
  exact hallowed.2 (List.mem_singleton.mpr rfl)

end McpOps
