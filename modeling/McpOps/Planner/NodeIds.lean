import McpOps.Planner.CircuitBreaker
import McpOps.Planner.Nodes

/-!
# Names of nodes

The nodes of a plan refer to one another by name: by the id of a node, or by one of the other
names that it goes by, its position and its tool among them.  The second pass of the planner
replaces every name by the id of the first node that goes by it.  A node keeps what its names
stand for exactly when the first node that goes by one of its ids is the one with that id.

The dictionary of names is filled with `setdefault`, so the first node that goes by a name gets it
(`get?_nodeIdAliases`).  A name stands for itself exactly when that node has it as its id, or no
node goes by it (`denoted_eq_iff`).

`KeepsIds` is about the names in a plan that are ids of it, wherever they stand: dependencies,
references and conditions.  A dependency of a node on itself is dropped by the second pass, and is
left out of the comparison.  Where every name is resolved, the plan comes out of the second pass
(`normalizeNodesTwoPass_eq_ok`), and `normalizeNodesTwoPass_keepsIds_iff` is the equivalence.
-/

namespace McpOps

/-! ## The second pass -/

/-- A proposed node with its place in the plan and what the first pass has made of it. -/
structure PlanEntry where
  index : ℕ
  raw : RawNode
  node : PlanNode

/-- `enumerate(zip(raw_nodes, normalized_nodes))`. -/
def planEntries (rawNodes : List RawNode) (normalizedNodes : List PlanNode) : List PlanEntry :=
  (rawNodes.zip normalizedNodes).mapIdx fun index pair => ⟨index, pair.1, pair.2⟩

namespace PlanEntry

variable (rt : Runtime) (entry : PlanEntry)

/-- `str(node.get("id") or "").strip()`. -/
def nodeId : String := rt.strip entry.node.id

/-- The names that a node as proposed goes by. -/
def rawNames : List String :=
  match entry.raw with
  | .text toolName => [toolName, toolName ++ "_node"]
  | .dict fields => ["id", "tool_name", "tool", "tool_id", "name"].flatMap fun key =>
      match fields.get? key with
      | some (.str text) =>
          if rt.strip text = "" then [] else [rt.strip text, rt.strip text ++ "_node"]
      | _ => []

/-- The names that a node goes by: none when its id is blank. -/
def candidates : List String :=
  if entry.nodeId rt = "" then []
  else
    let toolName := rt.strip entry.node.toolName
    [entry.nodeId rt, s!"node_{entry.index}", s!"node_{entry.index + 1}"] ++
      (if toolName = "" then [] else [toolName, toolName ++ "_node"]) ++ entry.rawNames rt

end PlanEntry

/-- `_node_id_aliases(raw_nodes, normalized_nodes)`. -/
def nodeIdAliases (rt : Runtime) (entries : List PlanEntry) : Dict String String :=
  entries.foldl (fun aliases entry => (entry.candidates rt).foldl
    (fun aliases candidate => aliases.setDefault candidate (entry.nodeId rt)) aliases) Dict.empty

/-- `id_map.get(name, name)`. -/
def denoted (idMap : Dict String String) (name : String) : String := (idMap.get? name).getD name

/-- `_resolve_node_references(node, id_map)`. -/
def resolveNodeReferences (node : PlanNode) (idMap : Dict String String) : PlanNode :=
  { node with
    dependsOn := ((node.dependsOn.map (denoted idMap)).filter (· ≠ node.id)).eraseDups
    argumentReferences := node.argumentReferences.map fun reference =>
      { reference with sourceNodeId := denoted idMap reference.sourceNodeId }
    typedCondition := node.typedCondition.map fun condition =>
      { condition with sourceNodeId := denoted idMap condition.sourceNodeId } }

/-- `_unresolved_node_references(nodes)`. -/
def unresolvedNodeReferences (nodes : List PlanNode) : List String :=
  let nodeIds := (nodes.map (·.id)).filter (· ≠ "")
  nodes.flatMap fun node =>
    (node.dependsOn.filter (· ∉ nodeIds)).map (fun dependency =>
      s!"{node.id} depends on missing {dependency}") ++
    ((node.argumentReferences.map (·.sourceNodeId)).filter (· ∉ nodeIds)).map (fun source =>
      s!"{node.id} argument references missing {source}") ++
    ((node.typedCondition.toList.map (·.sourceNodeId)).filter (· ∉ nodeIds)).map fun source =>
      s!"{node.id} condition references missing {source}"

namespace ArgumentRules

variable (R : ArgumentRules)

/-- The first pass of `_normalize_nodes_two_pass`. -/
def normalizeNodes (rawNodes : List RawNode) (available : Dict String ToolDocument)
    (userRequest : String) (allowDemoDefaults : Bool) : List PlanNode :=
  rawNodes.mapIdx fun index raw =>
    R.normalizeNode (index + 1) raw available userRequest allowDemoDefaults

/-- The nodes after the second pass. -/
def resolvedNodes (rawNodes : List RawNode) (available : Dict String ToolDocument)
    (userRequest : String) (allowDemoDefaults : Bool) : List PlanNode :=
  let normalized := R.normalizeNodes rawNodes available userRequest allowDemoDefaults
  let idMap := nodeIdAliases R.runtime (planEntries rawNodes normalized)
  normalized.map fun node => resolveNodeReferences node idMap

/-- `_normalize_nodes_two_pass(raw_nodes, available, user_request, allow_demo_defaults,
attempt)`. -/
def normalizeNodesTwoPass (rawNodes : List RawNode) (available : Dict String ToolDocument)
    (userRequest : String) (allowDemoDefaults : Bool) (attempt : ℕ) :
    Except PlannerOutputError (List PlanNode) :=
  let resolved := R.resolvedNodes rawNodes available userRequest allowDemoDefaults
  let unresolved := unresolvedNodeReferences resolved
  if unresolved = [] then .ok resolved
  else
    let problems := "; ".intercalate (unresolved.take 4)
    .error
      { message := "Planner produced dependencies or references to missing node IDs."
        stage := "schema_validation"
        reason := s!"{problems}. Valid node IDs: {joined (resolved.map (·.id))}"
        attempt }

end ArgumentRules

/-! ## What a name stands for -/

section Names

variable {rt : Runtime} {entries : List PlanEntry} {name : String}

/-- The first node that goes by the name gets it. -/
theorem get?_nodeIdAliases :
    (nodeIdAliases rt entries).get? name =
      (entries.find? fun entry => name ∈ entry.candidates rt).map (·.nodeId rt) := by
  have hfold : ∀ aliases : Dict String String, (entries.foldl (fun aliases entry =>
      (entry.candidates rt).foldl (fun aliases candidate =>
        aliases.setDefault candidate (entry.nodeId rt)) aliases) aliases).get? name =
      (aliases.get? name).or
        ((entries.find? fun entry => name ∈ entry.candidates rt).map (·.nodeId rt)) := by
    induction entries with
    | nil => simp
    | cons entry rest ih =>
        intro aliases
        rw [List.foldl_cons, ih, Dict.get?_foldl_setDefault, Option.or_assoc, List.find?_cons]
        by_cases hname : name ∈ entry.candidates rt
        · simp [hname]
        · simp [hname]
  rw [nodeIdAliases, hfold, Dict.get?_empty, Option.none_or]

/-- The first node that goes by the name, if there is one, has it as its id. -/
def NamedFirst (rt : Runtime) (entries : List PlanEntry) (name : String) : Prop :=
  ∀ earlier entry later, entries = earlier ++ entry :: later →
    (∀ e ∈ earlier, name ∉ e.candidates rt) → name ∈ entry.candidates rt → entry.nodeId rt = name

/-- A name stands for itself exactly when the first node that goes by it has it as its id. -/
theorem denoted_eq_iff :
    denoted (nodeIdAliases rt entries) name = name ↔ NamedFirst rt entries name := by
  rw [denoted, get?_nodeIdAliases]
  cases hfind : entries.find? fun entry => decide (name ∈ entry.candidates rt) with
  | none =>
      rw [List.find?_eq_none] at hfind
      refine ⟨fun _ earlier entry later hsplit _ hname => ?_, fun _ => rfl⟩
      refine absurd (decide_eq_true hname) (hfind entry ?_)
      rw [hsplit]
      exact List.mem_append_right _ (List.mem_cons_self ..)
  | some first =>
      obtain ⟨hfirst, earlier, later, hsplit, hearlier⟩ := List.find?_eq_some_iff_append.mp hfind
      have hnone : ∀ e ∈ earlier, name ∉ e.candidates rt := fun e he => by
        simpa using hearlier e he
      constructor
      · intro hname earlier' entry later' hsplit' hearlier' hmem
        have hsame : entries.find? (fun entry => decide (name ∈ entry.candidates rt)) =
            some entry := by
          refine List.find?_eq_some_iff_append.mpr ⟨decide_eq_true hmem, earlier', later', hsplit',
            fun e he => ?_⟩
          simpa using hearlier' e he
        rw [hfind] at hsame
        rw [← Option.some.inj hsame]
        exact hname
      · exact fun hnamed => hnamed earlier first later hsplit hnone (of_decide_eq_true hfirst)

instance (rt : Runtime) (entries : List PlanEntry) (name : String) :
    Decidable (NamedFirst rt entries name) := decidable_of_iff _ denoted_eq_iff

end Names

/-! ## What the nodes refer to -/

/-- The names of other nodes in a node. -/
def PlanNode.names (node : PlanNode) : List String :=
  node.dependsOn ++ node.argumentReferences.map (·.sourceNodeId) ++
    node.typedCondition.toList.map (·.sourceNodeId)

/-- Names that are ids of the plan stand for themselves after the second pass.  Only a dependency
of a node on itself is dropped. -/
structure KeepsIds (ids : List String) (idMap : Dict String String) (old new : PlanNode) :
    Prop where
  denoted : ∀ name ∈ old.names, name ∈ ids → denoted idMap name = name
  dependsOn : ∀ id ∈ old.dependsOn, id ∈ ids → id ≠ old.id → id ∈ new.dependsOn
  argumentReferences : List.Forall₂ (fun old new => old.sourceNodeId ∈ ids → new = old)
    old.argumentReferences new.argumentReferences
  typedCondition : ∀ condition, old.typedCondition = some condition →
    condition.sourceNodeId ∈ ids → new.typedCondition = some condition

theorem keepsIds_resolve {ids : List String} {idMap : Dict String String} {node : PlanNode}
    (h : ∀ name ∈ node.names, name ∈ ids → denoted idMap name = name) :
    KeepsIds ids idMap node (resolveNodeReferences node idMap) where
  denoted := h
  dependsOn id hid hids hne := by
    have hname : id ∈ node.names :=
      List.mem_append_left _ (List.mem_append_left _ hid)
    have hmem : id ∈ node.dependsOn.map (McpOps.denoted idMap) :=
      List.mem_map.mpr ⟨id, hid, h id hname hids⟩
    exact List.mem_eraseDups.mpr (List.mem_filter.mpr ⟨hmem, decide_eq_true hne⟩)
  argumentReferences := by
    rw [resolveNodeReferences, List.forall₂_map_right_iff]
    refine List.forall₂_same.mpr fun reference hreference hids => ?_
    have hname : reference.sourceNodeId ∈ node.names :=
      List.mem_append_left _ (List.mem_append_right _ (List.mem_map_of_mem hreference))
    rw [h _ hname hids]
  typedCondition condition hcondition hids := by
    have hname : condition.sourceNodeId ∈ node.names := by
      refine List.mem_append_right _ (List.mem_map_of_mem ?_)
      rw [hcondition]
      exact List.mem_singleton_self _
    rw [resolveNodeReferences, hcondition, Option.map_some, h _ hname hids]

section Plans

variable {R : ArgumentRules} {rawNodes : List RawNode} {available : Dict String ToolDocument}
  {userRequest : String} {allowDemoDefaults : Bool} {attempt : ℕ} {nodes : List PlanNode}

/-- Where every name is resolved, the plan comes out of the second pass. -/
theorem normalizeNodesTwoPass_eq_ok :
    R.normalizeNodesTwoPass rawNodes available userRequest allowDemoDefaults attempt = .ok nodes ↔
      unresolvedNodeReferences (R.resolvedNodes rawNodes available userRequest allowDemoDefaults) =
        [] ∧ nodes = R.resolvedNodes rawNodes available userRequest allowDemoDefaults := by
  rw [ArgumentRules.normalizeNodesTwoPass]
  dsimp only
  split
  · rename_i hresolved
    exact ⟨fun h => ⟨hresolved, (Except.ok.inj h).symm⟩, fun h => congrArg _ h.2.symm⟩
  · rename_i hunresolved
    exact ⟨fun h => (by cases h), fun h => absurd h.1 hunresolved⟩

/-- What the nodes of a plan call each other by id keeps its meaning exactly when, for each such id,
the first node of the plan that goes by it is the node that has it. -/
theorem normalizeNodesTwoPass_keepsIds_iff
    (h : R.normalizeNodesTwoPass rawNodes available userRequest allowDemoDefaults attempt =
      .ok nodes) :
    let normalized := R.normalizeNodes rawNodes available userRequest allowDemoDefaults
    let ids := normalized.map (·.id)
    let entries := planEntries rawNodes normalized
    List.Forall₂ (KeepsIds ids (nodeIdAliases R.runtime entries)) normalized nodes ↔
      ∀ node ∈ normalized, ∀ name ∈ node.names, name ∈ ids →
        NamedFirst R.runtime entries name := by
  intro normalized ids entries
  rw [(normalizeNodesTwoPass_eq_ok.mp h).2, ArgumentRules.resolvedNodes,
    List.forall₂_map_right_iff, List.forall₂_same]
  refine forall₂_congr fun node _ => ?_
  constructor
  · exact fun hkeeps name hname hid => denoted_eq_iff.mp (hkeeps.denoted name hname hid)
  · exact fun hnamed => keepsIds_resolve fun name hname hid =>
      denoted_eq_iff.mpr (hnamed name hname hid)

end Plans

/-! ### Small plans -/

/-- Rules for tools that take no arguments. -/
def ArgumentRules.none : ArgumentRules where
  argumentsFor _ _ _ := []
  sanitizeArgumentValue _ _ _ := Option.none
  currentRepository := Option.none
  runtime := .plain

/-- A proposed node. -/
def rawNode (id toolName : String) (dependsOn : List Value) : RawNode :=
  .dict [("id", .str id), ("tool_name", .str toolName), ("depends_on", .list dependsOn)]

/-- A plan whose second node has an id that the first one goes by. -/
def numberedPlan : List RawNode :=
  [rawNode "errors" "get_recent_errors" [.str "node_1"], rawNode "node_1" "get_device_status" []]

/-- A plan in which no node goes by the id of another. -/
def namedPlan : List RawNode :=
  [rawNode "status" "get_device_status" [], rawNode "errors" "get_recent_errors" [.str "status"]]

set_option maxRecDepth 4096 in
/-- Where no node goes by the id of another, ids keep their meaning. -/
theorem normalizeNodesTwoPass_keepsIds_namedPlan :
    List.Forall₂ (KeepsIds ["status", "errors"] (nodeIdAliases .plain (planEntries namedPlan
      (ArgumentRules.none.normalizeNodes namedPlan Dict.empty "" false))))
      (ArgumentRules.none.normalizeNodes namedPlan Dict.empty "" false)
      (ArgumentRules.none.resolvedNodes namedPlan Dict.empty "" false) := by
  have hresolved : ArgumentRules.none.normalizeNodesTwoPass namedPlan Dict.empty "" false 1 =
      .ok (ArgumentRules.none.resolvedNodes namedPlan Dict.empty "" false) :=
    normalizeNodesTwoPass_eq_ok.mpr ⟨by decide, rfl⟩
  have hids : (ArgumentRules.none.normalizeNodes namedPlan Dict.empty "" false).map (·.id) =
      ["status", "errors"] := by decide
  rw [← hids]
  refine (normalizeNodesTwoPass_keepsIds_iff hresolved).mpr ?_
  rw [hids]
  decide

set_option maxRecDepth 4096 in
/-- A dependency on the second node becomes one of the first node on itself, and is dropped. -/
theorem dependency_rewired :
    ¬ ∀ (R : ArgumentRules) (rawNodes : List RawNode) (available : Dict String ToolDocument)
      (userRequest : String) (allowDemoDefaults : Bool) (attempt : ℕ) (nodes : List PlanNode),
      R.normalizeNodesTwoPass rawNodes available userRequest allowDemoDefaults attempt =
        .ok nodes →
      let normalized := R.normalizeNodes rawNodes available userRequest allowDemoDefaults
      (normalized.map (·.id)).Nodup →
        List.Forall₂ (KeepsIds (normalized.map (·.id))
          (nodeIdAliases R.runtime (planEntries rawNodes normalized))) normalized nodes := by
  intro hclaim
  have hkeeps := hclaim ArgumentRules.none numberedPlan Dict.empty "" false 1 _
    (normalizeNodesTwoPass_eq_ok.mpr ⟨by decide, rfl⟩) (by decide)
  rw [ArgumentRules.resolvedNodes, List.forall₂_map_right_iff, List.forall₂_same] at hkeeps
  have hname := (hkeeps _ (List.mem_cons_self ..)).denoted "node_1" (by decide) (by decide)
  have hdenoted : denoted (nodeIdAliases .plain (planEntries numberedPlan
      (ArgumentRules.none.normalizeNodes numberedPlan Dict.empty "" false))) "node_1" =
      "errors" := by decide
  exact absurd (hdenoted.symm.trans hname) (by decide)

end McpOps
