import McpOps.Lib.Traversal
import McpOps.Planner.LlmPlans

/-!
# What a language model can put into a plan

Whatever the model answers, a draft that comes out of the planner is closed under its own names:
a node depends on other nodes of the draft only, and reads from those it depends on.  What the
server owns in a node is copied from the tool document, or is the default, so that no answer can
lower a risk or skip an approval.

Names pass through three stages.  The first pass makes every source a dependency
(`normalizeNode_sources`).  The second pass renames sources and dependencies alike and drops a
dependency of a node on itself (`resolveNodeReferences_sources`), which is the one way for a node
to read what it does not depend on.  The check after it leaves only ids of the plan
(`mem_ids_of_resolved`).
-/

namespace McpOps

open Relation (TransGen)

/-! ## Texts -/

theorem length_clip_le (n : ℕ) (text : String) : (clip n text).length ≤ n := by
  rw [clip, String.length_ofList]
  exact List.length_take_le n _

theorem clip_eq_self {n : ℕ} {text : String} (h : text.length ≤ n) : clip n text = text := by
  rw [clip, List.take_of_length_le (by rwa [String.length_toList]), String.ofList_toList]

/-- What is shorter than the limit has not been cut. -/
theorem clip_eq_self_of_lt {n : ℕ} {text : String} (h : (clip n text).length < n) :
    clip n text = text := by
  apply clip_eq_self
  rw [clip, String.length_ofList, List.length_take, String.length_toList] at h
  omega

/-! ## Sources -/

/-- The nodes that a node reads from. -/
def PlanNode.sources (node : PlanNode) : List String :=
  node.argumentReferences.map (·.sourceNodeId) ++ node.typedCondition.toList.map (·.sourceNodeId)

section Sources

variable {rt : Runtime} {dependsOn : List String} {sourceNodeId : String}

/-- A reference is to its source, as long as that is a possible id. -/
theorem sourceNodeId_referenceTo (argument path : String) (h : sourceNodeId.length ≤ 120) :
    (referenceTo rt argument sourceNodeId path).sourceNodeId = sourceNodeId := clip_eq_self h

theorem sourceNodeId_argumentReference {argument : String} {value : Value}
    (hlength : ∀ id ∈ dependsOn, id.length ≤ 120) {reference : ArgumentReference}
    (h : argumentReference rt argument value dependsOn = some reference) :
    reference.sourceNodeId ∈ dependsOn := by
  unfold argumentReference at h
  split at h
  · split at h
    · split at h
      · split_ifs at h with hsource
        cases h
        rwa [sourceNodeId_referenceTo _ _ (hlength _ hsource)]
      · cases h
    · cases h
  · cases h

theorem sourceNodeId_inferredArgumentReference {toolName fieldName : String}
    (hlength : ∀ id ∈ dependsOn, id.length ≤ 120) {reference : ArgumentReference}
    (h : inferredArgumentReference rt toolName fieldName dependsOn = some reference) :
    reference.sourceNodeId ∈ dependsOn := by
  have hto : ∀ id ∈ dependsOn, ∀ path,
      (referenceTo rt fieldName id path).sourceNodeId ∈ dependsOn := by
    intro id hid path
    rwa [sourceNodeId_referenceTo _ _ (hlength _ hid)]
  unfold inferredArgumentReference at h
  dsimp only at h
  split at h
  · rename_i found hfound
    cases h
    obtain ⟨id, hid, halong⟩ := List.exists_of_findSome?_eq_some hfound
    split_ifs at halong <;> cases halong <;> exact hto id hid _
  · split_ifs at h
    obtain ⟨id, hid, hreference⟩ := Option.map_eq_some_iff.mp h
    rw [← hreference]
    exact hto id (List.mem_of_mem_head? hid) _

/-- The arguments of a trusted tool are read from the dependencies of its node. -/
theorem trustedArgumentsFor_sources {R : ArgumentRules} {tool : ToolDocument}
    {userRequest : String} {proposed : PyDict} {allowDemoDefaults : Bool}
    (hlength : ∀ id ∈ dependsOn, id.length ≤ 120) :
    ∀ reference ∈
      (R.trustedArgumentsFor tool userRequest proposed dependsOn allowDemoDefaults).2,
      reference.sourceNodeId ∈ dependsOn := by
  have hsnoc : ∀ {references : List ArgumentReference} {reference : ArgumentReference},
      (∀ r ∈ references, r.sourceNodeId ∈ dependsOn) → reference.sourceNodeId ∈ dependsOn →
        ∀ r ∈ references ++ [reference], r.sourceNodeId ∈ dependsOn := by
    intro references reference hreferences hreference r hr
    rcases List.mem_append.mp hr with hr | hr
    · exact hreferences r hr
    · rw [List.mem_singleton.mp hr]
      exact hreference
  unfold ArgumentRules.trustedArgumentsFor
  dsimp only
  split
  · rename_i properties hproperties
    -- both loops only add references to dependencies
    refine List.foldlRecOn (motive := fun (made : PyDict × List ArgumentReference) =>
      ∀ r ∈ made.2, r.sourceNodeId ∈ dependsOn) _ _ ?_ ?_
    · refine List.foldlRecOn (motive := fun (made : PyDict × List ArgumentReference) =>
        ∀ r ∈ made.2, r.sourceNodeId ∈ dependsOn) _ _ ?_ ?_
      · intro r hr
        exact absurd hr List.not_mem_nil
      · intro made hmade entry _
        split
        · exact hmade
        · split
          · rename_i reference hreference
            have hadded := hsnoc hmade (sourceNodeId_argumentReference hlength hreference)
            split_ifs <;> exact hadded
          · split_ifs <;> exact hmade
    · intro made hmade key _
      split
      · rename_i reference hreference
        exact hsnoc hmade (sourceNodeId_inferredArgumentReference hlength hreference)
      · split_ifs <;> exact hmade
  · intro reference hreference
    exact absurd hreference List.not_mem_nil

theorem normalizeTypedCondition_source {value : Value} {condition : WorkflowCondition}
    (hlength : ∀ id ∈ dependsOn, id.length ≤ 120)
    (h : normalizeTypedCondition rt value dependsOn = some condition) :
    condition.sourceNodeId ∈ dependsOn := by
  have hclip : ∀ id ∈ dependsOn, clip 120 id ∈ dependsOn := by
    intro id hid
    rwa [clip_eq_self (hlength id hid)]
  unfold normalizeTypedCondition at h
  split at h
  · dsimp only at h
    split at h
    · split_ifs at h with hsource
      cases h
      exact hclip _ hsource.1
    · cases h
  · split at h
    · split_ifs at h with hsource
      cases h
      exact hclip _ hsource
    · cases h
  · cases h

end Sources

/-! ## The first pass -/

/-- A node of a tool on offer has what the server owns from the document of the tool. -/
structure PlanNode.TakenFrom (node : PlanNode) (tool : ToolDocument) : Prop where
  toolServer : node.toolServer = tool.server
  description : node.description = tool.description
  riskLevel : node.riskLevel = tool.riskLevel
  approvalRequired : node.approvalRequired = decide (tool.riskLevel ∈ ["HIGH", "CRITICAL"])

section FirstPass

variable {R : ArgumentRules} {index : ℕ} {raw : RawNode} {available : Dict String ToolDocument}
  {userRequest : String} {allowDemoDefaults : Bool}

/-- What a node reads, it depends on. -/
theorem normalizeNode_sources :
    ∀ id ∈ (R.normalizeNode index raw available userRequest allowDemoDefaults).sources,
      id ∈ (R.normalizeNode index raw available userRequest allowDemoDefaults).dependsOn := by
  intro id hid
  unfold ArgumentRules.normalizeNode at hid ⊢
  dsimp only at hid ⊢
  generalize hdependsOn : List.map (fun item => clip 120 (textOf R.runtime item)) _ = dependsOn
    at hid ⊢
  have hlength : ∀ id ∈ dependsOn, id.length ≤ 120 := by
    intro id hid
    rw [← hdependsOn] at hid
    obtain ⟨item, -, rfl⟩ := List.mem_map.mp hid
    exact length_clip_le _ _
  have hcondition : ∀ value, ∀ condition ∈
      (normalizeTypedCondition R.runtime value dependsOn).toList,
      condition.sourceNodeId ∈ dependsOn := by
    intro value condition hmem
    exact normalizeTypedCondition_source hlength (Option.mem_toList.mp hmem)
  split at hid
  · rcases List.mem_append.mp hid with hid | hid
    · obtain ⟨reference, hreference, rfl⟩ := List.mem_map.mp hid
      exact trustedArgumentsFor_sources hlength reference hreference
    · obtain ⟨condition, hmem, rfl⟩ := List.mem_map.mp hid
      exact hcondition _ condition hmem
  · obtain ⟨condition, hmem, rfl⟩ := List.mem_map.mp hid
    exact hcondition _ condition hmem

/-- Tools are on offer under their names. -/
theorem get?_availableTools {tools : List ToolDocument} {name : String} {tool : ToolDocument}
    (h : (DeterministicWorkflowPlanner.availableTools tools).get? name = some tool) :
    tool.name = name := by
  rcases Dict.of_get?_foldl_set ToolDocument.name id tools Dict.empty h with hnone | hfound
  · cases hnone
  · obtain ⟨_, -, hname, rfl⟩ := hfound
    exact hname

/-- The tool that a node names, if it is on offer, is the one it is made from. -/
theorem normalizeNode_takenFrom (hnames : ∀ name tool, available.get? name = some tool →
      tool.name = name) {tool : ToolDocument}
    (hlength : (R.normalizeNode index raw available userRequest allowDemoDefaults).toolName.length <
      128)
    (htool : available.get?
      (R.normalizeNode index raw available userRequest allowDemoDefaults).toolName = some tool) :
    (R.normalizeNode index raw available userRequest allowDemoDefaults).TakenFrom tool := by
  unfold ArgumentRules.normalizeNode at hlength htool ⊢
  dsimp only at hlength htool ⊢
  split at htool
  · rename_i trusted htrusted
    have hsame : trusted = tool := by
      rw [hnames _ _ htrusted, htrusted] at htool
      exact Option.some.inj htool
    rw [← hsame]
    exact ⟨rfl, rfl, rfl, rfl⟩
  · -- a name that has not been cut is the name that was looked up
    rename_i hmissing
    rw [hmissing] at hlength
    dsimp only at hlength
    rw [clip_eq_self_of_lt hlength, hmissing] at htool
    cases htool

end FirstPass

/-! ## The second pass -/

theorem resolveNodeReferences_sources {node : PlanNode} (idMap : Dict String String)
    (h : ∀ id ∈ node.sources, id ∈ node.dependsOn) :
    ∀ id ∈ (resolveNodeReferences node idMap).sources,
      id ∈ (resolveNodeReferences node idMap).dependsOn ∨ id = node.id := by
  intro id hid
  -- every source after the pass is what a source before it stands for
  obtain ⟨name, hname, rfl⟩ : ∃ name ∈ node.sources, denoted idMap name = id := by
    rcases List.mem_append.mp hid with hid | hid
    · obtain ⟨reference, hreference, rfl⟩ := List.mem_map.mp hid
      obtain ⟨old, hold, rfl⟩ := List.mem_map.mp hreference
      exact ⟨old.sourceNodeId, List.mem_append_left _ (List.mem_map_of_mem hold), rfl⟩
    · obtain ⟨condition, hcondition, rfl⟩ := List.mem_map.mp hid
      obtain ⟨old, hold, rfl⟩ := Option.map_eq_some_iff.mp (Option.mem_toList.mp hcondition)
      refine ⟨old.sourceNodeId, List.mem_append_right _ (List.mem_map_of_mem ?_), rfl⟩
      exact Option.mem_toList.mpr hold
  by_cases hself : denoted idMap name = node.id
  · exact .inr hself
  · left
    apply List.mem_eraseDups.mpr
    apply List.mem_filter.mpr
    exact ⟨List.mem_map_of_mem (h name hname), decide_eq_true hself⟩

theorem id_notMem_resolveNodeReferences (node : PlanNode) (idMap : Dict String String) :
    node.id ∉ (resolveNodeReferences node idMap).dependsOn := by
  intro hmem
  have hne := (List.mem_filter.mp (List.mem_eraseDups.mp hmem)).2
  exact of_decide_eq_true hne rfl

/-- Where nothing is reported, dependencies are ids of the plan. -/
theorem mem_ids_of_resolved {nodes : List PlanNode} (h : unresolvedNodeReferences nodes = []) :
    ∀ node ∈ nodes, ∀ id ∈ node.dependsOn, id ∈ nodes.map (·.id) := by
  intro node hnode id hid
  have hnone := List.flatMap_eq_nil_iff.mp h node hnode
  by_contra hmissing
  have hfiltered : id ∈ node.dependsOn.filter
      fun dependency => dependency ∉ (nodes.map (·.id)).filter (· ≠ "") := by
    apply List.mem_filter.mpr
    refine ⟨hid, decide_eq_true fun hmem => hmissing ?_⟩
    exact List.mem_of_mem_filter hmem
  have hreported := List.mem_map_of_mem
    (f := fun dependency => s!"{node.id} depends on missing {dependency}") hfiltered
  have hnothing := (List.append_eq_nil_iff.mp (List.append_eq_nil_iff.mp hnone).1).1
  rw [hnothing] at hreported
  exact absurd hreported List.not_mem_nil

/-! ## Validation -/

/-- The node with nothing but what a plan says of it. -/
def WorkflowNode.planned (node : WorkflowNode) : WorkflowNode where
  id := node.id
  toolName := node.toolName
  toolServer := node.toolServer
  description := node.description
  arguments := node.arguments
  argumentReferences := node.argumentReferences
  dependsOn := node.dependsOn
  condition := node.condition
  typedCondition := node.typedCondition
  riskLevel := node.riskLevel
  approvalRequired := node.approvalRequired
  knowledgeReferences := node.knowledgeReferences
  id_length := node.id_length

/-- The nodes that a node reads from. -/
def WorkflowNode.sources (node : WorkflowNode) : List String :=
  node.argumentReferences.map (·.sourceNodeId) ++ node.typedCondition.toList.map (·.sourceNodeId)

/-- The node that a node of the plan becomes in the draft. -/
structure PlanNode.Becomes (node : PlanNode) (made : WorkflowNode) : Prop where
  id : made.id = node.id
  toolName : made.toolName = node.toolName
  toolServer : made.toolServer = node.toolServer
  description : made.description = node.description
  riskLevel : made.riskLevel = node.riskLevel
  approvalRequired : made.approvalRequired = node.approvalRequired
  dependsOn : made.dependsOn = node.dependsOn
  sources : made.sources = node.sources
  planned : made.planned = made
  kept : made.Kept

theorem PlanNode.becomes_of_validate {node : PlanNode} {made : WorkflowNode}
    (h : node.validate = some made) : node.Becomes made := by
  unfold PlanNode.validate at h
  dsimp only at h
  split_ifs at h with hlength hvalid
  cases h
  obtain ⟨hfields, hreferences, hcondition⟩ := hvalid
  refine ⟨rfl, rfl, rfl, rfl, rfl, rfl, rfl, rfl, rfl, hfields, ?_, ?_, ?_⟩
  · exact List.all_eq_true.mp hreferences
  · intro condition hsome
    exact Option.all_eq_true _ _ |>.mp hcondition condition hsome
  · intro evaluation hsome
    cases hsome

/-- A draft is made of what its payload says. -/
theorem DraftPayload.of_validate {payload : DraftPayload} {draft : PlannerDraft}
    (h : payload.validate = some draft) :
    List.Forall₂ PlanNode.Becomes payload.nodes draft.nodes ∧ draft.edges = payload.edges ∧
      draft.toWorkflowPlanDraft.Kept := by
  obtain ⟨nodes, hnodes, h⟩ := Option.bind_eq_some_iff.mp h
  dsimp only at h
  split_ifs at h with hvalid
  cases h
  have hbecomes : List.Forall₂ PlanNode.Becomes payload.nodes nodes :=
    (Traversal.mapM_eq_some hnodes).imp fun _ _ => PlanNode.becomes_of_validate
  refine ⟨hbecomes, rfl, hvalid.1, ?_, List.all_eq_true.mp hvalid.2.1⟩
  intro node hnode
  obtain ⟨_, _, hmade⟩ := Traversal.mem_of_forall₂ hbecomes hnode
  exact hmade.kept

/-! ## Edges -/

/-- Where names have no blanks at their ends, edges are the pairs of nodes and dependencies. -/
theorem edges_eq_pairs {rt : Runtime} {nodes : List PlanNode} {edges : List WorkflowEdge}
    (hedges : deriveEdgesFromNodes rt nodes = .ok edges)
    (hids : ∀ node ∈ nodes, node.id ≠ "" ∧ node.id.length ≤ 120 ∧ rt.strip node.id = node.id)
    (hdependsOn : ∀ node ∈ nodes, ∀ id ∈ node.dependsOn, id ∈ nodes.map (·.id)) :
    edges.map (fun edge => (edge.source, edge.destination)) =
      nodes.flatMap fun node => node.dependsOn.map fun id => (id, node.id) := by
  unfold deriveEdgesFromNodes at hedges
  split at hedges
  · cases hedges
  · cases hedges
    rw [List.map_flatMap]
    apply List.flatMap_congr
    intro node hnode
    obtain ⟨hne, hlength, hstrip⟩ := hids node hnode
    rw [hstrip, if_neg hne, List.map_filterMap, ← List.filterMap_eq_map]
    apply List.filterMap_congr
    intro id hid
    obtain ⟨source, hsource, rfl⟩ := List.mem_map.mp (hdependsOn node hnode id hid)
    obtain ⟨hne', hlength', hstrip'⟩ := hids source hsource
    simp only [edgeFrom, hstrip, hstrip', if_neg hne', clip_eq_self hlength, clip_eq_self hlength',
      Option.map_some, Function.comp_apply]

/-! ## Compiled drafts -/

/-- A node of a tool on offer has what the server owns from the document of the tool. -/
structure WorkflowNode.TakenFrom (node : WorkflowNode) (tool : ToolDocument) : Prop where
  toolServer : node.toolServer = tool.server
  description : node.description = tool.description
  riskLevel : node.riskLevel = tool.riskLevel
  approvalRequired : node.approvalRequired = decide (tool.riskLevel ∈ ["HIGH", "CRITICAL"])

/-- What every draft of the planner is. -/
structure Compiled (rt : Runtime) (tools : List ToolDocument) (draft : WorkflowPlanDraft) :
    Prop where
  kept : draft.Kept
  planned : ∀ node ∈ draft.nodes, node.planned = node
  takenFrom : ∀ node ∈ draft.nodes, node.toolName.length < 128 → ∀ tool,
    (DeterministicWorkflowPlanner.availableTools tools).get? node.toolName = some tool →
      node.TakenFrom tool
  dependencies : ∀ node ∈ draft.nodes,
    node.id ∉ node.dependsOn ∧ ∀ id ∈ node.dependsOn, id ∈ draft.nodes.map (·.id)
  sources : ∀ node ∈ draft.nodes, ∀ id ∈ node.sources, id ∈ node.dependsOn ∨ id = node.id
  edges : (∀ node ∈ draft.nodes, rt.strip node.id = node.id) →
    draft.edges.map (fun edge => (edge.source, edge.destination)) =
      draft.nodes.flatMap fun node => node.dependsOn.map fun id => (id, node.id)

section Compiled

variable {rt : Runtime} {tools : List ToolDocument} {draft : WorkflowPlanDraft}

/-- The edges add no dependency. -/
theorem Compiled.dependsOn_iff (h : Compiled rt tools draft)
    (hstrip : ∀ node ∈ draft.nodes, rt.strip node.id = node.id) {a b : String} :
    draft.DependsOn a b ↔ ∃ node ∈ draft.nodes, node.id = a ∧ b ∈ node.dependsOn := by
  refine ⟨?_, .inl⟩
  rintro (hnode | ⟨edge, hedge, rfl, rfl⟩)
  · exact hnode
  · have hpair : (edge.source, edge.destination) ∈
        draft.edges.map fun edge => (edge.source, edge.destination) := List.mem_map_of_mem hedge
    rw [h.edges hstrip] at hpair
    obtain ⟨node, hnode, hpair⟩ := List.mem_flatMap.mp hpair
    obtain ⟨id, hid, hpair⟩ := List.mem_map.mp hpair
    obtain ⟨rfl, hdestination⟩ := Prod.mk.inj hpair
    exact ⟨node, hnode, hdestination, hid⟩

/-- All that can be wrong with the structure of a compiled draft: two nodes with one id, a node
that reads itself, or a cycle. -/
theorem Compiled.structured_iff (h : Compiled rt tools draft)
    (hstrip : ∀ node ∈ draft.nodes, rt.strip node.id = node.id) :
    draft.Structured ↔ (draft.nodes.map (·.id)).Nodup ∧
      (∀ node ∈ draft.nodes, node.id ∉ node.sources) ∧
      ∀ id, ¬ TransGen
        (fun a b => ∃ node ∈ draft.nodes, node.id = a ∧ b ∈ node.dependsOn) id id := by
  have hdepends : draft.DependsOn =
      fun a b => ∃ node ∈ draft.nodes, node.id = a ∧ b ∈ node.dependsOn := by
    funext a b
    exact propext (h.dependsOn_iff hstrip)
  constructor
  · intro hstructured
    refine ⟨hstructured.nodup, ?_, hdepends ▸ hstructured.acyclic⟩
    intro node hnode hself
    apply (h.dependencies node hnode).1
    rcases List.mem_append.mp hself with hself | hself
    · obtain ⟨reference, hreference, hid⟩ := List.mem_map.mp hself
      rw [← hid]
      exact (hstructured.references node hnode reference hreference).2
    · obtain ⟨condition, hcondition, hid⟩ := List.mem_map.mp hself
      rw [← hid]
      exact (hstructured.conditions node hnode condition (Option.mem_toList.mp hcondition)).2
  · rintro ⟨hnodup, hself, hacyclic⟩
    -- a source other than the node itself is a dependency, and so a node of the draft
    have hsource : ∀ node ∈ draft.nodes, ∀ id ∈ node.sources,
        id ∈ draft.nodes.map (·.id) ∧ id ∈ node.dependsOn := by
      intro node hnode id hid
      rcases h.sources node hnode id hid with hmem | rfl
      · exact ⟨(h.dependencies node hnode).2 id hmem, hmem⟩
      · exact absurd hid (hself node hnode)
    refine ⟨hnodup, ⟨fun node hnode => (h.dependencies node hnode).2, ?_⟩, ?_, ?_, ?_⟩
    · intro edge hedge
      obtain ⟨node, hnode, hdestination, hdependency⟩ :=
        (h.dependsOn_iff hstrip).mp (.inr ⟨edge, hedge, rfl, rfl⟩)
      refine ⟨(h.dependencies node hnode).2 _ hdependency, ?_⟩
      rw [← hdestination]
      exact List.mem_map_of_mem hnode
    · intro node hnode condition hcondition
      apply hsource node hnode
      exact List.mem_append_right _ (List.mem_map_of_mem (Option.mem_toList.mpr hcondition))
    · intro node hnode reference hreference
      apply hsource node hnode
      exact List.mem_append_left _ (List.mem_map_of_mem hreference)
    · rwa [hdepends]

/-- Nodes that come out of the two passes, with the edges derived from them. -/
theorem compiled_of_validate {R : ArgumentRules} {rawNodes : List RawNode} {userRequest : String}
    {attempt : ℕ} {payload : DraftPayload} {draft : PlannerDraft}
    (hnodes : R.normalizeNodesTwoPass rawNodes
      (DeterministicWorkflowPlanner.availableTools tools) userRequest false attempt =
        .ok payload.nodes)
    (hedges : deriveEdgesFromNodes R.runtime payload.nodes = .ok payload.edges)
    (hdraft : payload.validate = some draft) :
    Compiled R.runtime tools draft.toWorkflowPlanDraft := by
  obtain ⟨hbecomes, hsameEdges, hkept⟩ := DraftPayload.of_validate hdraft
  obtain ⟨hresolved, hpasses⟩ := normalizeNodesTwoPass_eq_ok.mp hnodes
  rw [← hpasses] at hresolved
  have hpairs : draft.nodes.map (fun node => (node.id, node.dependsOn)) =
      payload.nodes.map fun node => (node.id, node.dependsOn) := by
    rw [← List.forall₂_eq_eq_eq, List.forall₂_map_left_iff, List.forall₂_map_right_iff]
    exact hbecomes.flip.imp fun _ _ hmade => Prod.ext hmade.id hmade.dependsOn
  have hids : draft.nodes.map (·.id) = payload.nodes.map (·.id) := by
    have hfirst := congrArg (List.map Prod.fst) hpairs
    rwa [List.map_map, List.map_map] at hfirst
  -- every node of the draft comes from a node of the first pass
  have hmade : ∀ node ∈ draft.nodes, ∃ index raw, ∃ idMap,
      (resolveNodeReferences (R.normalizeNode index raw
        (DeterministicWorkflowPlanner.availableTools tools) userRequest false) idMap).Becomes node ∧
      resolveNodeReferences (R.normalizeNode index raw
        (DeterministicWorkflowPlanner.availableTools tools) userRequest false) idMap ∈
          payload.nodes := by
    intro node hnode
    obtain ⟨planNode, hplanNode, hmade⟩ := Traversal.mem_of_forall₂ hbecomes hnode
    have hpassed := hplanNode
    rw [hpasses] at hpassed
    obtain ⟨first, hfirst, rfl⟩ := List.mem_map.mp hpassed
    obtain ⟨index, hindex, rfl⟩ := List.mem_mapIdx.mp hfirst
    exact ⟨_, _, _, hmade, hplanNode⟩
  have hdependencies : ∀ node ∈ draft.nodes,
      node.id ∉ node.dependsOn ∧ ∀ id ∈ node.dependsOn, id ∈ draft.nodes.map (·.id) := by
    intro node hnode
    obtain ⟨index, raw, idMap, hnodeMade, hplanNode⟩ := hmade node hnode
    rw [hnodeMade.id, hnodeMade.dependsOn, hids]
    exact ⟨id_notMem_resolveNodeReferences _ idMap, mem_ids_of_resolved hresolved _ hplanNode⟩
  refine ⟨hkept, ?_, ?_, hdependencies, ?_, ?_⟩
  · intro node hnode
    obtain ⟨_, _, _, hnodeMade, -⟩ := hmade node hnode
    exact hnodeMade.planned
  · intro node hnode hlength tool htool
    obtain ⟨index, raw, idMap, hnodeMade, -⟩ := hmade node hnode
    rw [hnodeMade.toolName] at hlength htool
    have htaken : (R.normalizeNode index raw _ _ _).TakenFrom tool :=
      normalizeNode_takenFrom (fun _ _ => get?_availableTools) hlength htool
    exact ⟨hnodeMade.toolServer.trans htaken.toolServer,
      hnodeMade.description.trans htaken.description, hnodeMade.riskLevel.trans htaken.riskLevel,
      hnodeMade.approvalRequired.trans htaken.approvalRequired⟩
  · intro node hnode
    obtain ⟨index, raw, idMap, hnodeMade, -⟩ := hmade node hnode
    rw [hnodeMade.sources, hnodeMade.dependsOn, hnodeMade.id]
    exact resolveNodeReferences_sources idMap normalizeNode_sources
  · intro hstrip
    rw [hsameEdges, edges_eq_pairs hedges ?_ (mem_ids_of_resolved hresolved)]
    · have hedgePairs := congrArg
        (List.flatMap fun (pair : String × List String) => pair.2.map fun id => (id, pair.1)) hpairs
      rw [List.flatMap_map, List.flatMap_map] at hedgePairs
      exact hedgePairs.symm
    · intro planNode hplanNode
      obtain ⟨node, hnode, hnodeMade⟩ := Traversal.exists_of_forall₂ hbecomes hplanNode
      rw [← hnodeMade.id]
      refine ⟨?_, node.id_length.2, hstrip node hnode⟩
      intro hempty
      have hleast := node.id_length.1
      rw [hempty] at hleast
      exact absurd hleast (by decide)

end Compiled

/-! ## What the planner returns -/

namespace LLMWorkflowPlanner

variable {L : LLMWorkflowPlanner} {userRequest : String} {tools : List ToolDocument}
  {attempt : ℕ} {draft : PlannerDraft}

theorem of_normalizedNodes {rawNodes : List RawNode} {available : Dict String ToolDocument}
    {nodes : List PlanNode}
    (h : L.normalizedNodes rawNodes available userRequest attempt = .ok nodes) :
    L.rules.normalizeNodesTwoPass rawNodes available userRequest false attempt = .ok nodes := by
  unfold normalizedNodes at h
  cases hpasses : L.rules.normalizeNodesTwoPass rawNodes available userRequest false attempt with
  | error e =>
      rw [hpasses] at h
      cases h
  | ok passed =>
      rw [hpasses] at h
      cases h
      rfl

theorem of_edgesOf {nodes : List PlanNode} {edges : List WorkflowEdge}
    (h : L.edgesOf nodes attempt = .ok edges) :
    deriveEdgesFromNodes L.rules.runtime nodes = .ok edges := by
  unfold edgesOf at h
  split at h
  · cases h
    assumption
  · cases h

/-- Nodes that are written freely come out of the two passes as well. -/
theorem of_freeNodes {candidate : PyDict} {available : Dict String ToolDocument}
    {nodes : List PlanNode} (h : L.freeNodes candidate available userRequest = .ok nodes) :
    ∃ rawNodes, L.rules.normalizeNodesTwoPass rawNodes available userRequest false 1 =
      .ok nodes := by
  unfold freeNodes at h
  obtain ⟨listed, hlisted, h⟩ := Traversal.bind_eq_ok.mp h
  split at h
  · exact ⟨_, of_normalizedNodes h⟩
  · cases h
    unfold listedNodes at hlisted
    split at hlisted
    · exact ⟨_, of_normalizedNodes hlisted⟩
    · -- no nodes come out of no proposals
      cases hlisted
      exact ⟨[], rfl⟩

theorem compiled_of_compilePlannerDecisionPayload {payload : PyDict}
    (h : L.compilePlannerDecisionPayload payload userRequest tools attempt = .ok draft) :
    Compiled L.rules.runtime tools draft.toWorkflowPlanDraft := by
  unfold compilePlannerDecisionPayload at h
  split at h
  · cases h
  · dsimp only at h
    split_ifs at h
    · split at h
      · rename_i hvalid
        cases h
        have hnone : L.rules.normalizeNodesTwoPass []
            (DeterministicWorkflowPlanner.availableTools tools) userRequest false attempt =
              .ok [] := rfl
        exact compiled_of_validate hnone rfl hvalid
      · cases h
    · obtain ⟨nodes, hnodes, h⟩ := Traversal.bind_eq_ok.mp h
      obtain ⟨edges, hedges, h⟩ := Traversal.bind_eq_ok.mp h
      split at h
      · rename_i hvalid
        cases h
        exact compiled_of_validate (of_normalizedNodes hnodes) (of_edgesOf hedges) hvalid
      · cases h

theorem compiled_of_parse {rawJson : String}
    (h : L.parse rawJson userRequest tools attempt = .ok draft) :
    Compiled L.rules.runtime tools draft.toWorkflowPlanDraft := by
  unfold parse at h
  split at h
  · cases h
  · cases h
  · split_ifs at h
    · exact compiled_of_compilePlannerDecisionPayload h
    · obtain ⟨normalized, hnormalized, h⟩ := Traversal.bind_eq_ok.mp h
      split at h
      · rename_i hvalid
        cases h
        obtain ⟨confidence, -, hnormalized⟩ := Traversal.bind_eq_ok.mp hnormalized
        obtain ⟨nodes, hnodes, hnormalized⟩ := Traversal.bind_eq_ok.mp hnormalized
        obtain ⟨edges, hedges, hnormalized⟩ := Traversal.bind_eq_ok.mp hnormalized
        cases hnormalized
        obtain ⟨rawNodes, hpasses⟩ := of_freeNodes hnodes
        exact compiled_of_validate hpasses (of_edgesOf hedges) hvalid
      · cases h
  · cases h

/-- Whatever the client answers, the draft that the planner returns is compiled.  With no blanks
at the ends of ids, it has the structure that a workflow needs unless two nodes have one id, a
node reads itself, or the dependencies have a cycle. -/
theorem plan_compiled {payload : PyDict} {answer : ℕ → CompletionRequest → CompletionAnswer}
    (h : (L.plan userRequest tools payload answer).outcome = .ok draft) :
    Compiled L.rules.runtime tools draft.toWorkflowPlanDraft ∧
      ((∀ node ∈ draft.nodes, L.rules.runtime.strip node.id = node.id) →
        (draft.Structured ↔ (draft.nodes.map (·.id)).Nodup ∧
          (∀ node ∈ draft.nodes, node.id ∉ node.sources) ∧
          ∀ id, ¬ TransGen
            (fun a b => ∃ node ∈ draft.nodes, node.id = a ∧ b ∈ node.dependsOn) id id)) := by
  have hanswer : ∀ {given : CompletionAnswer} {attempt : ℕ},
      L.parseAnswer given userRequest tools attempt = .ok draft →
        Compiled L.rules.runtime tools draft.toWorkflowPlanDraft := by
    intro given attempt hgiven
    unfold parseAnswer at hgiven
    split at hgiven
    · exact compiled_of_parse hgiven
    · cases hgiven
    · cases hgiven
  have hcompiled : Compiled L.rules.runtime tools draft.toWorkflowPlanDraft := by
    unfold plan at h
    dsimp only at h
    split at h
    · split at h
      · cases h
      · dsimp only at h
        split at h
        · cases h
        · exact hanswer h
    · exact hanswer h
  exact ⟨hcompiled, hcompiled.structured_iff⟩

/-- A tool that needs an approval. -/
def restartTool : ToolDocument where
  name := "restart_service"
  description := "Restart a service."
  server := "device-mcp"
  category := "device"
  riskLevel := "HIGH"
  requiredPermission := "tools:write"
  requiredRoles := []
  inputSchema := []
  tags := []
  executable := true
  enabled := true

/-- A plan that calls the tool harmless, and approved. -/
def harmlessRestarts : Value :=
  .dict [("nodes", .list
    [.dict [("id", .str "restart"), ("tool_name", .str "restart_service"),
      ("risk_level", .str "LOW"), ("approval_required", .bool false),
      ("approval_state", .str "APPROVED")],
    .dict [("id", .str "again"), ("tool_name", .str "restart_service"),
      ("depends_on", .list [.str "node_0"])]])]

/-- A planner whose model gives one answer. -/
def answering (answer : Value) : LLMWorkflowPlanner where
  rules := .none
  modelName := "small"
  loads _ := .value answer
  validateDecision _ := .error ⟨"", []⟩
  draftProblem _ := ⟨"", []⟩
  conditionProblem _ := ⟨"", []⟩
  systemPrompt := ""
  compactTruncationRetryPayload payload := payload

set_option maxRecDepth 8192 in
/-- Both restarts are of high risk, and need an approval. -/
theorem plan_compiled_harmlessRestarts : ∃ draft,
    ((answering harmlessRestarts).plan "restart" [restartTool] [] fun _ _ =>
      .content "").outcome = .ok draft ∧
    (draft.nodes.map fun node => (node.riskLevel, node.approvalRequired, node.dependsOn)) =
      [("HIGH", true, []), ("HIGH", true, ["restart"])] ∧
    Compiled .plain [restartTool] draft.toWorkflowPlanDraft := by
  have hnodes : ((answering harmlessRestarts).plan "restart" [restartTool] [] fun _ _ =>
      .content "").outcome.toOption.map (fun draft =>
        draft.nodes.map fun node => (node.riskLevel, node.approvalRequired, node.dependsOn)) =
      some [("HIGH", true, []), ("HIGH", true, ["restart"])] := by
    decide +kernel
  generalize houtcome : Planned.outcome _ = outcome at hnodes
  cases outcome with
  | error failure => cases hnodes
  | ok draft => exact ⟨draft, rfl, Option.some.inj hnodes, (plan_compiled houtcome).1⟩

end LLMWorkflowPlanner

end McpOps
