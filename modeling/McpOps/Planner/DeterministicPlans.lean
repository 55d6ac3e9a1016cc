import McpOps.Planner.Deterministic
import McpOps.Workflow.Graph

/-!
# What the deterministic planner plans

The nodes of a plan come one after another, and each depends on earlier ones only.  The one node
that reads an output it may not depend on is the record of a failed build.

## Strategy

`NodesInOrder` is stronger than having no cycle, and easier to build: a new node comes last, with
edges to it from what it depends on (`snoc`).  `Built` is what has been built from the steps whose
tools are there.  One step adds a node or nothing (`Built.addStep`), and a workflow is a list of
steps (`Built.addSteps`), so all workflows but the one for failed builds are `Plain` by the same
lemma (`plain_of_plan`).

The record of a failed build is added at the end with references to the analysis, whether there is
one or not (`addRecord_eq_some`).  `structured_of_buildFailureWorkflow` says that the plan is
structured if the record may read the analysis.

`Structured` is what the validator checks of the structure: in order, a plan has no cycle
(`idxOf_lt_of_dependsOn`), and `Structured.structuralIssues_eq_nil` goes from there to the issues.
`plan_structured_iff` joins the cases.
-/

namespace McpOps

open Relation

/-! ## Drafts in order -/

/-- The nodes have distinct ids, depend on earlier nodes, and the edges are dependencies. -/
structure NodesInOrder (nodes : List WorkflowNode) (edges : List WorkflowEdge) : Prop where
  nodup : (nodes.map (·.id)).Nodup
  earlier : ∀ before node after, nodes = before ++ node :: after →
    ∀ id ∈ node.dependsOn, id ∈ before.map (·.id)
  edges : ∀ edge ∈ edges, ∃ node ∈ nodes, node.id = edge.destination ∧
    edge.source ∈ node.dependsOn

namespace NodesInOrder

variable {nodes : List WorkflowNode} {edges added : List WorkflowEdge} {node : WorkflowNode}

theorem nil : NodesInOrder [] [] where
  nodup := List.nodup_nil
  earlier before node after h := by cases before <;> cases h
  edges edge h := by cases h

/-- A new node comes last, with edges to it from what it depends on. -/
theorem snoc (h : NodesInOrder nodes edges) (hid : node.id ∉ nodes.map (·.id))
    (hdepends : ∀ id ∈ node.dependsOn, id ∈ nodes.map (·.id))
    (hadded : ∀ edge ∈ added, edge.destination = node.id ∧ edge.source ∈ node.dependsOn) :
    NodesInOrder (nodes ++ [node]) (edges ++ added) where
  nodup := by
    rw [List.map_append, List.map_singleton, ← List.concat_eq_append]
    exact h.nodup.concat hid
  earlier before other after hsplit := by
    rcases List.append_eq_append_iff.mp hsplit with ⟨rest, rfl, hrest⟩ | ⟨rest, rfl, hrest⟩
    · cases rest with
      | nil =>
          obtain ⟨rfl, _⟩ := List.cons.inj hrest
          rw [List.append_nil]
          exact hdepends
      | cons first rest => cases rest <;> cases (List.cons.inj hrest).2
    · cases rest with
      | nil =>
          obtain ⟨rfl, _⟩ := List.cons.inj hrest
          rw [List.append_nil] at hdepends
          exact hdepends
      | cons first rest =>
          obtain ⟨rfl, rfl⟩ := List.cons.inj hrest
          exact h.earlier before other rest rfl
  edges edge hedge := by
    rcases List.mem_append.mp hedge with hedge | hedge
    · obtain ⟨other, hother, hsame⟩ := h.edges edge hedge
      exact ⟨other, List.mem_append_left _ hother, hsame⟩
    · obtain ⟨hdestination, hsource⟩ := hadded edge hedge
      exact ⟨node, List.mem_append_right _ (List.mem_singleton_self _), hdestination.symm, hsource⟩

end NodesInOrder

namespace WorkflowPlanDraft

variable {draft : WorkflowPlanDraft}

/-- Ids are distinct, everything that is named is a node, conditions and references read
dependencies, and there is no cycle. -/
structure Structured (draft : WorkflowPlanDraft) : Prop where
  nodup : (draft.nodes.map (·.id)).Nodup
  names : draft.NamesNodes
  conditions : ∀ node ∈ draft.nodes, ∀ condition, node.typedCondition = some condition →
    condition.sourceNodeId ∈ draft.nodes.map (·.id) ∧ condition.sourceNodeId ∈ node.dependsOn
  references : ∀ node ∈ draft.nodes, ∀ reference ∈ node.argumentReferences,
    reference.sourceNodeId ∈ draft.nodes.map (·.id) ∧ reference.sourceNodeId ∈ node.dependsOn
  acyclic : ∀ id, ¬ TransGen draft.DependsOn id id

/-- The issues of the validator with the structure of a draft. -/
def structuralIssues (draft : WorkflowPlanDraft) : List WorkflowValidationIssue :=
  let nodeIds := draft.nodes.map (·.id)
  (if nodeIds.Nodup then [] else [issue "duplicate_node_id" "Workflow node IDs must be unique."]) ++
  validateDependencies draft.nodes nodeIds ++
  validateArgumentReferences draft.nodes nodeIds ++
  validateTypedConditions draft.nodes nodeIds ++
  validateEdges draft.edges nodeIds ++
  validateAcyclic draft

/-- An id depends on ids that come before it only. -/
theorem idxOf_lt_of_dependsOn (h : NodesInOrder draft.nodes draft.edges) {a b : String}
    (hdepends : draft.DependsOn a b) :
    (draft.nodes.map (·.id)).idxOf b < (draft.nodes.map (·.id)).idxOf a := by
  obtain ⟨node, hnode, rfl, hb⟩ : ∃ node ∈ draft.nodes, node.id = a ∧ b ∈ node.dependsOn := by
    rcases hdepends with hnode | ⟨edge, hedge, rfl, rfl⟩
    · exact hnode
    · exact h.edges edge hedge
  obtain ⟨before, after, hsplit⟩ := List.append_of_mem hnode
  have hbefore := h.earlier before node after hsplit b hb
  have hnodup := h.nodup
  rw [hsplit, List.map_append, List.map_cons] at hnodup ⊢
  have hfirst : node.id ∉ before.map (·.id) := fun hmem =>
    List.disjoint_of_nodup_append hnodup hmem (List.mem_cons_self ..)
  rw [List.idxOf_append_of_mem hbefore, List.idxOf_append_of_notMem hfirst, List.idxOf_cons_self,
    Nat.add_zero]
  exact List.idxOf_lt_length_of_mem hbefore

theorem acyclic_of_nodesInOrder (h : NodesInOrder draft.nodes draft.edges) (id : String) :
    ¬ TransGen draft.DependsOn id id := by
  have hlt : ∀ a b, TransGen draft.DependsOn a b →
      (draft.nodes.map (·.id)).idxOf b < (draft.nodes.map (·.id)).idxOf a := by
    intro a b hpath
    induction hpath with
    | single hstep => exact idxOf_lt_of_dependsOn h hstep
    | tail _ hstep ih => exact (idxOf_lt_of_dependsOn h hstep).trans ih
  exact fun hcycle => absurd (hlt id id hcycle) (lt_irrefl _)

theorem namesNodes_of_nodesInOrder (h : NodesInOrder draft.nodes draft.edges) :
    draft.NamesNodes := by
  have hdependencies : ∀ node ∈ draft.nodes, ∀ id ∈ node.dependsOn,
      id ∈ draft.nodes.map (·.id) := by
    intro node hnode id hid
    obtain ⟨before, after, hsplit⟩ := List.append_of_mem hnode
    have hbefore := h.earlier before node after hsplit id hid
    rw [hsplit, List.map_append]
    exact List.mem_append_left _ hbefore
  refine ⟨hdependencies, fun edge hedge => ?_⟩
  obtain ⟨node, hnode, hid, hsource⟩ := h.edges edge hedge
  exact ⟨hdependencies node hnode _ hsource, hid ▸ List.mem_map_of_mem hnode⟩

end WorkflowPlanDraft

namespace DeterministicWorkflowPlanner

variable {P : DeterministicWorkflowPlanner} {available : Dict String ToolDocument}
  {userRequest : String} {parts parts' : PlanParts}

/-! ## Building a plan -/

theorem node_eq_some {nodeId : String} {tool : ToolDocument} {dependsOn : List String}
    {condition : Option String} {typedCondition : Option WorkflowCondition} {made : WorkflowNode}
    (h : P.node nodeId tool userRequest dependsOn condition typedCondition = some made) :
    made.id = nodeId ∧ made.dependsOn = dependsOn ∧ made.typedCondition = typedCondition ∧
      made.argumentReferences = [] := by
  unfold node at h
  dsimp only at h
  split_ifs at h
  cases h
  exact ⟨rfl, rfl, rfl, rfl⟩

/-- What has been built from the steps whose tools are there. -/
structure Built (available : Dict String ToolDocument) (steps : List PlanStep)
    (parts : PlanParts) : Prop where
  inOrder : NodesInOrder parts.nodes parts.edges
  existing : parts.existingIds = parts.nodes.map (·.id)
  plain : ∀ node ∈ parts.nodes, node.typedCondition = none ∧ node.argumentReferences = []
  mem : ∀ id, id ∈ parts.existingIds ↔
    ∃ step ∈ steps, step.id = id ∧ step.toolName ∈ available.keys

theorem Built.nil : Built available [] {} where
  inOrder := .nil
  existing := rfl
  plain _ h := by cases h
  mem id := by simp

/-- One step adds a node with edges from the earlier steps, or nothing. -/
theorem Built.addStep {steps : List PlanStep} {step : PlanStep} (h : Built available steps parts)
    (hnew : step.id ∉ steps.map (·.id)) (hadd : P.addStep available userRequest parts step =
      some parts') : Built available (steps ++ [step]) parts' := by
  unfold DeterministicWorkflowPlanner.addStep at hadd
  cases htool : available.get? step.toolName with
  | none =>
      rw [htool] at hadd
      cases hadd
      refine ⟨h.inOrder, h.existing, h.plain, fun id => ?_⟩
      rw [h.mem id]
      simp [Dict.get?_eq_none_iff.mp htool]
  | some tool =>
      rw [htool] at hadd
      obtain ⟨made, hmade, hparts⟩ := Option.bind_eq_some_iff.mp hadd
      cases hparts
      obtain ⟨hid, hdepends, htyped, hreferences⟩ := node_eq_some hmade
      have hkey : step.toolName ∈ available.keys := by
        by_contra hmissing
        rw [Dict.get?_eq_none_iff.mpr hmissing] at htool
        cases htool
      -- the ids of a workflow are distinct, so the new one has not been used
      have hfresh : made.id ∉ parts.nodes.map (·.id) := by
        rw [hid, ← h.existing]
        intro hmem
        obtain ⟨other, hother, heq, _⟩ := (h.mem step.id).mp hmem
        exact hnew (List.mem_map.mpr ⟨other, hother, heq⟩)
      refine ⟨h.inOrder.snoc hfresh ?_ ?_, ?_, ?_, ?_⟩
      · intro id hmem
        rw [hdepends] at hmem
        rw [← h.existing]
        exact of_decide_eq_true (List.mem_filter.mp hmem).2
      · intro edge hedge
        obtain ⟨dep, hdep, rfl⟩ := List.mem_map.mp hedge
        exact ⟨hid.symm, hdepends ▸ hdep⟩
      · rw [List.map_append, List.map_singleton, hid, h.existing]
      · intro node hnode
        rcases List.mem_append.mp hnode with hnode | hnode
        · exact h.plain node hnode
        · rw [List.mem_singleton.mp hnode]
          exact ⟨htyped, hreferences⟩
      · intro id
        rw [List.mem_append, h.mem id]
        simp [hkey, or_and_right, exists_or, eq_comm]

/-- All steps, one after another. -/
theorem Built.addSteps {done steps : List PlanStep} (h : Built available done parts)
    (hdistinct : ((done ++ steps).map (·.id)).Nodup)
    (hadd : steps.foldlM (P.addStep available userRequest) parts = some parts') :
    Built available (done ++ steps) parts' := by
  induction steps generalizing done parts with
  | nil =>
      cases hadd
      rwa [List.append_nil]
  | cons step steps ih =>
      rw [List.foldlM_cons] at hadd
      obtain ⟨next, hnext, hrest⟩ := Option.bind_eq_some_iff.mp hadd
      have hnew : step.id ∉ done.map (·.id) := by
        rw [List.map_append] at hdistinct
        exact fun hmem => List.disjoint_of_nodup_append hdistinct hmem (List.mem_cons_self ..)
      rw [List.append_cons] at hdistinct ⊢
      exact ih (h.addStep hnew hnext) hdistinct hrest

theorem node_ids_of_mapM {l : List (ToolDocument × ℕ)} {nodes : List WorkflowNode}
    (h : (l.mapM fun entry => P.node s!"tool_{entry.2}" entry.1 userRequest) = some nodes) :
    nodes.map (·.id) = l.map (fun entry => s!"tool_{entry.2}") ∧
      ∀ node ∈ nodes, node.dependsOn = [] ∧ node.typedCondition = none ∧
        node.argumentReferences = [] := by
  induction l generalizing nodes with
  | nil =>
      cases h
      exact ⟨rfl, fun node hnode => by cases hnode⟩
  | cons entry l ih =>
      rw [List.mapM_cons] at h
      obtain ⟨first, hfirst, h⟩ := Option.bind_eq_some_iff.mp h
      obtain ⟨rest, hrest, h⟩ := Option.bind_eq_some_iff.mp h
      cases h
      obtain ⟨hid, hplain⟩ := node_eq_some hfirst
      obtain ⟨hids, hplains⟩ := ih hrest
      refine ⟨by rw [List.map_cons, List.map_cons, hid, hids], fun node hnode => ?_⟩
      rcases List.mem_cons.mp hnode with rfl | hnode
      · exact hplain
      · exact hplains node hnode

/-- The fallback takes the first tools, without dependencies. -/
theorem fallbackNodes_inOrder {nodes : List WorkflowNode}
    (h : P.fallbackNodes available userRequest = some nodes) :
    NodesInOrder nodes [] ∧ ∀ node ∈ nodes, node.typedCondition = none ∧
      node.argumentReferences = [] := by
  obtain ⟨hids, hplain⟩ := node_ids_of_mapM h
  refine ⟨⟨?_, ?_, ?_⟩, fun node hnode => (hplain node hnode).2⟩
  · have hindices : ((available.values.take 3).zipIdx 1).map (fun entry => s!"tool_{entry.2}") =
        (List.range' 1 (available.values.take 3).length).map fun index => s!"tool_{index}" := by
      rw [← List.zipIdx_map_snd, List.map_map]
      rfl
    have hlength : (available.values.take 3).length ≤ 3 := List.length_take_le ..
    rw [hids, hindices]
    generalize (available.values.take 3).length = count at hlength
    have hcases : count = 0 ∨ count = 1 ∨ count = 2 ∨ count = 3 := by omega
    rcases hcases with rfl | rfl | rfl | rfl <;> decide
  · rintro before node after rfl id hid
    have hmem : node ∈ before ++ node :: after :=
      List.mem_append_right _ (List.mem_cons_self ..)
    rw [(hplain node hmem).1] at hid
    cases hid
  · intro edge hedge
    cases hedge

/-- A draft has the nodes of the parts, or those of the fallback. -/
theorem draft_eq_some {confidence : ℚ} {made : WorkflowPlanDraft}
    (h : P.draft available userRequest confidence parts = some made) :
    made.edges = parts.edges ∧
      ((parts.nodes ≠ [] ∧ made.nodes = parts.nodes) ∨
        (parts.nodes = [] ∧ P.fallbackNodes available userRequest = some made.nodes)) := by
  unfold draft at h
  obtain ⟨nodes, hnodes, h⟩ := Option.bind_eq_some_iff.mp h
  dsimp only at h
  split_ifs at h
  cases h
  refine ⟨rfl, ?_⟩
  split_ifs at hnodes with hempty
  · exact Or.inr ⟨hempty, hnodes⟩
  · cases hnodes
    exact Or.inl ⟨hempty, rfl⟩

/-- What the parts are, the draft is. -/
theorem inOrder_of_draft {confidence : ℚ} {made : WorkflowPlanDraft}
    (hparts : NodesInOrder parts.nodes parts.edges)
    (h : P.draft available userRequest confidence parts = some made) :
    NodesInOrder made.nodes made.edges := by
  obtain ⟨hedges, ⟨-, hnodes⟩ | ⟨hempty, hfallback⟩⟩ := draft_eq_some h
  · rw [hnodes, hedges]
    exact hparts
  · have hnone : parts.edges = [] := by
      refine List.eq_nil_iff_forall_not_mem.mpr fun edge hedge => ?_
      obtain ⟨node, hnode, _⟩ := hparts.edges edge hedge
      rw [hempty] at hnode
      cases hnode
    rw [hedges, hnone]
    exact (fallbackNodes_inOrder hfallback).1

end DeterministicWorkflowPlanner

namespace WorkflowPlanDraft

variable {draft : WorkflowPlanDraft}

theorem flatMap_eq_nil {α β : Type} {l : List α} {f : α → List β} (h : ∀ a ∈ l, f a = []) :
    l.flatMap f = [] := List.flatMap_eq_nil_iff.mpr h

/-- Where no output path is unsafe, structured drafts have no structural issue. -/
theorem Structured.structuralIssues_eq_nil (h : draft.Structured)
    (hreferences : ∀ node ∈ draft.nodes, node.argumentReferences = [])
    (hpaths : ∀ node ∈ draft.nodes, ∀ condition, node.typedCondition = some condition →
      isSafePath condition.outputPath) : draft.structuralIssues = [] := by
  -- each part of the check finds nothing
  have hdependencies : validateDependencies draft.nodes (draft.nodes.map (·.id)) = [] := by
    refine flatMap_eq_nil fun node hnode => List.filterMap_eq_nil_iff.mpr fun id hid => ?_
    rw [if_pos (h.names.dependencies node hnode id hid)]
  have hargument : validateArgumentReferences draft.nodes (draft.nodes.map (·.id)) = [] := by
    refine flatMap_eq_nil fun node hnode => ?_
    rw [hreferences node hnode]
    rfl
  have hconditions : validateTypedConditions draft.nodes (draft.nodes.map (·.id)) = [] := by
    refine flatMap_eq_nil fun node hnode => ?_
    dsimp only
    split
    · rfl
    · rename_i condition hcondition
      obtain ⟨hnamed, hdepends⟩ := h.conditions node hnode condition hcondition
      rw [if_pos hnamed, if_pos hdepends, if_pos (hpaths node hnode condition hcondition)]
      rfl
  have hedges : validateEdges draft.edges (draft.nodes.map (·.id)) = [] := by
    refine flatMap_eq_nil fun edge hedge => ?_
    obtain ⟨hsource, hdestination⟩ := h.names.edges edge hedge
    rw [if_pos hsource, if_pos hdestination]
    rfl
  have hacyclic : validateAcyclic draft = [] := by
    by_contra hreport
    obtain ⟨id, hcycle⟩ := (validateAcyclic_iff h.nodup h.names).mp hreport
    exact h.acyclic id hcycle
  unfold structuralIssues
  dsimp only
  rw [if_pos h.nodup, hdependencies, hargument, hconditions, hedges, hacyclic]
  rfl

theorem structured_of_nodesInOrder (h : NodesInOrder draft.nodes draft.edges)
    (hconditions : ∀ node ∈ draft.nodes, ∀ condition, node.typedCondition = some condition →
      condition.sourceNodeId ∈ node.dependsOn)
    (hreferences : ∀ node ∈ draft.nodes, node.argumentReferences = []) : draft.Structured where
  nodup := h.nodup
  names := namesNodes_of_nodesInOrder h
  conditions node hnode condition hcondition := by
    have hdepends := hconditions node hnode condition hcondition
    exact ⟨(namesNodes_of_nodesInOrder h).dependencies node hnode _ hdepends, hdepends⟩
  references node hnode reference hreference := by
    rw [hreferences node hnode] at hreference
    cases hreference
  acyclic := acyclic_of_nodesInOrder h

end WorkflowPlanDraft

namespace DeterministicWorkflowPlanner

variable {P : DeterministicWorkflowPlanner} {available : Dict String ToolDocument}
  {userRequest : String} {parts parts' : PlanParts} {draft : WorkflowPlanDraft}

/-! ## The workflows -/

/-- Nodes without conditions and references, in order. -/
structure Plain (draft : WorkflowPlanDraft) : Prop where
  inOrder : NodesInOrder draft.nodes draft.edges
  nodes : ∀ node ∈ draft.nodes, node.typedCondition = none ∧ node.argumentReferences = []

theorem plain_of_draft {confidence : ℚ} {steps : List PlanStep}
    (hparts : Built available steps parts)
    (h : P.draft available userRequest confidence parts = some draft) : Plain draft := by
  refine ⟨inOrder_of_draft hparts.inOrder h, ?_⟩
  obtain ⟨-, ⟨-, hnodes⟩ | ⟨-, hfallback⟩⟩ := draft_eq_some h
  · rw [hnodes]
    exact hparts.plain
  · exact (fallbackNodes_inOrder hfallback).2

theorem plain_of_linearWorkflow {ordered : List PlanStep} {confidence : ℚ}
    (hdistinct : (ordered.map (·.id)).Nodup)
    (h : P.linearWorkflow available userRequest ordered confidence = some draft) :
    Plain draft := by
  obtain ⟨parts, hparts, hdraft⟩ := Option.bind_eq_some_iff.mp h
  exact plain_of_draft (Built.nil.addSteps hdistinct hparts) hdraft

/-- The request is about a build whose failure is to be recorded, and there is no tool that
analyses it. -/
def RecordsUnanalysed (P : DeterministicWorkflowPlanner) (userRequest : String)
    (tools : List ToolDocument) : Prop :=
  P.aboutBuild userRequest ∧
    (P.requestedRecordTool (availableTools tools) userRequest).isSome ∧
    "analyze_build_failure" ∉ (availableTools tools).keys

/-- All workflows but the one for failed builds. -/
theorem plain_of_plan {tools : List ToolDocument} (hbuild : P.aboutBuild userRequest = false)
    (h : P.plan userRequest tools = some draft) : Plain draft := by
  unfold plan at h
  rw [hbuild, if_neg Bool.false_ne_true] at h
  split_ifs at h
  · exact plain_of_linearWorkflow (by decide) h
  · exact plain_of_linearWorkflow (by decide) h
  · exact plain_of_linearWorkflow (by decide) h
  · have hdistinct : ["search_documentation", "get_runbook"].Nodup := by decide
    refine plain_of_linearWorkflow ?_ h
    exact hdistinct
  · exact plain_of_draft .nil h

theorem Plain.structured (h : Plain draft) : draft.Structured :=
  WorkflowPlanDraft.structured_of_nodesInOrder h.inOrder
    (fun node hnode condition hcondition => by
      rw [(h.nodes node hnode).1] at hcondition
      cases hcondition)
    fun node hnode => (h.nodes node hnode).2

theorem Plain.structuralIssues_eq_nil (h : Plain draft) : draft.structuralIssues = [] :=
  h.structured.structuralIssues_eq_nil (fun node hnode => (h.nodes node hnode).2)
    fun node hnode condition hcondition => by
      rw [(h.nodes node hnode).1] at hcondition
      cases hcondition

theorem requestedRecordTool_cases {toolName : String}
    (h : P.requestedRecordTool available userRequest = some toolName) :
    toolName = "create_issue" ∨ toolName = "create_ticket" := by
  unfold requestedRecordTool at h
  split_ifs at h
  · cases h
    exact Or.inl rfl
  · cases h
    exact Or.inr rfl

/-- The record of a failed build, at the end. -/
theorem addRecord_eq_some (h : P.addRecord available userRequest parts = some parts') :
    (P.requestedRecordTool available userRequest = none ∧ parts' = parts) ∨
      ∃ toolName made, P.requestedRecordTool available userRequest = some toolName ∧
        parts'.nodes = parts.nodes ++ [made] ∧ made.id = toolName ∧
        made.dependsOn =
          (if "failure_analysis" ∈ parts.existingIds then ["failure_analysis"] else []) ∧
        made.typedCondition = some recordCondition ∧ made.argumentReferences = [] ∧
        ∃ added, parts'.edges = parts.edges ++ added ∧
          ∀ edge ∈ added, edge.destination = toolName ∧ edge.source ∈ made.dependsOn := by
  unfold addRecord at h
  cases hrequested : P.requestedRecordTool available userRequest with
  | none =>
      rw [hrequested] at h
      cases h
      exact Or.inl ⟨rfl, rfl⟩
  | some toolName =>
      rw [hrequested] at h
      -- the tool that is asked for is available
      have hkey : toolName ∈ available.keys := by
        unfold requestedRecordTool at hrequested
        split_ifs at hrequested with hissue hticket
        · cases hrequested
          exact hissue.2
        · cases hrequested
          exact hticket.2
      cases htool : available.get? toolName with
      | none => exact absurd hkey (Dict.get?_eq_none_iff.mp htool)
      | some tool =>
          dsimp only at h
          rw [htool] at h
          obtain ⟨made, hmade, hparts⟩ := Option.bind_eq_some_iff.mp h
          cases hparts
          obtain ⟨hid, hdepends, htyped, hreferences⟩ := node_eq_some hmade
          refine Or.inr ⟨toolName, made, rfl, rfl, hid, hdepends, htyped, hreferences, _, rfl, ?_⟩
          intro edge hedge
          obtain ⟨dep, hdep, rfl⟩ := List.mem_map.mp hedge
          exact ⟨rfl, hdepends ▸ hdep⟩

/-- A plan for a failed build is structured if its record may read the analysis. -/
theorem structured_of_buildFailureWorkflow
    (h : P.buildFailureWorkflow available userRequest = some draft) :
    (draft.Structured ∧ draft.structuralIssues = []) ↔
      ¬ ((P.requestedRecordTool available userRequest).isSome ∧
        "analyze_build_failure" ∉ available.keys) := by
  obtain ⟨parts, hsteps, h⟩ := Option.bind_eq_some_iff.mp h
  obtain ⟨parts', hrecord, hdraft⟩ := Option.bind_eq_some_iff.mp h
  have hdistinct : ["build_status", "pipeline_logs", "recent_commits", "failure_analysis"].Nodup :=
    by decide
  have hbuilt : Built available (buildFailureSteps available) parts :=
    Built.nil.addSteps hdistinct hsteps
  rcases addRecord_eq_some hrecord with ⟨hnone, rfl⟩ | ⟨toolName, made, hsome, hnodes, hid,
    hdepends, htyped, hreferences, added, hedges, hadded⟩
  · have hplain := plain_of_draft hbuilt hdraft
    rw [hnone]
    exact iff_of_true ⟨hplain.structured, hplain.structuralIssues_eq_nil⟩ fun h => by cases h.1
  · have hanalysed : "failure_analysis" ∈ parts.existingIds ↔
        "analyze_build_failure" ∈ available.keys := by
      rw [hbuilt.mem]
      simp [buildFailureSteps]
    -- the id of the record is the name of a tool, and no step has that id
    have hfresh : made.id ∉ parts.nodes.map (·.id) := by
      rw [hid, ← hbuilt.existing, hbuilt.mem]
      rcases requestedRecordTool_cases hsome with rfl | rfl
      · simp [buildFailureSteps]
      · simp [buildFailureSteps]
    have hne : parts'.nodes ≠ [] := by
      rw [hnodes]
      exact List.append_ne_nil_of_right_ne_nil _ (List.cons_ne_nil _ _)
    obtain ⟨hdraftEdges, ⟨-, hdraftNodes⟩ | ⟨hempty, -⟩⟩ := draft_eq_some hdraft
    · have hrecorded : draft.nodes = parts.nodes ++ [made] := hdraftNodes.trans hnodes
      rw [hsome, ← hanalysed]
      -- the record reads the failure analysis, and depends on it only if it is there
      by_cases hmem : "failure_analysis" ∈ parts.existingIds
      · rw [if_pos hmem] at hdepends
        have hinOrder : NodesInOrder draft.nodes draft.edges := by
          rw [hrecorded, hdraftEdges, hedges]
          refine hbuilt.inOrder.snoc hfresh (fun id hdep => ?_) fun edge hedge => ?_
          · rw [hdepends] at hdep
            rw [← hbuilt.existing, List.mem_singleton.mp hdep]
            exact hmem
          · rw [hid]
            exact hadded edge hedge
        have hconditions : ∀ node ∈ draft.nodes, ∀ condition,
            node.typedCondition = some condition →
              condition = recordCondition ∧ condition.sourceNodeId ∈ node.dependsOn := by
          intro node hnode condition hcondition
          rw [hrecorded] at hnode
          rcases List.mem_append.mp hnode with hnode | hnode
          · rw [(hbuilt.plain node hnode).1] at hcondition
            cases hcondition
          · rw [List.mem_singleton.mp hnode] at hcondition ⊢
            rw [htyped] at hcondition
            cases hcondition
            exact ⟨rfl, hdepends ▸ List.mem_singleton_self _⟩
        have hplain : ∀ node ∈ draft.nodes, node.argumentReferences = [] := by
          intro node hnode
          rw [hrecorded] at hnode
          rcases List.mem_append.mp hnode with hnode | hnode
          · exact (hbuilt.plain node hnode).2
          · rw [List.mem_singleton.mp hnode]
            exact hreferences
        have hstructured := WorkflowPlanDraft.structured_of_nodesInOrder hinOrder
          (fun node hnode condition hcondition => (hconditions node hnode condition hcondition).2)
          hplain
        refine iff_of_true ⟨hstructured, ?_⟩ fun h => h.2 hmem
        refine hstructured.structuralIssues_eq_nil hplain fun node hnode condition hcondition => ?_
        rw [(hconditions node hnode condition hcondition).1]
        rfl
      · refine iff_of_false (fun h => ?_) fun h => h ⟨rfl, hmem⟩
        have hmade : made ∈ draft.nodes := by
          rw [hrecorded]
          exact List.mem_append_right _ (List.mem_singleton_self _)
        have hreads := (h.1.conditions made hmade recordCondition htyped).2
        rw [hdepends, if_neg hmem] at hreads
        cases hreads
    · exact absurd hempty hne

/-- A plan is structured, and the validator has no issue with its structure, unless it is to
record the failure of a build that no tool analyses. -/
theorem plan_structured_iff {tools : List ToolDocument}
    (h : P.plan userRequest tools = some draft) :
    (draft.Structured ∧ draft.structuralIssues = []) ↔
      ¬ P.RecordsUnanalysed userRequest tools := by
  cases hbuild : P.aboutBuild userRequest with
  | false =>
      have hplain := plain_of_plan hbuild h
      refine iff_of_true ⟨hplain.structured, hplain.structuralIssues_eq_nil⟩ fun hrecords => ?_
      exact Bool.false_ne_true (hbuild.symm.trans hrecords.1)
  | true =>
      unfold plan at h
      rw [hbuild, if_pos rfl] at h
      rw [structured_of_buildFailureWorkflow h, RecordsUnanalysed, hbuild]
      simp only [true_and]

end DeterministicWorkflowPlanner

/-! ### A failed build that is recorded without an analysis -/

/-- A planner without default arguments and knowledge. -/
def DeterministicWorkflowPlanner.plain : DeterministicWorkflowPlanner where
  runtime := .plain
  argumentsFor _ _ := []
  knowledgeReferences _ := []

/-- The tool that creates tickets. -/
def createTicketDocument : ToolDocument where
  name := "create_ticket"
  description := "Create a ticket."
  server := "ticket-mcp"
  category := "tickets"
  riskLevel := "MEDIUM"
  requiredPermission := "ticket:create"
  requiredRoles := []
  inputSchema := []
  tags := []
  executable := true
  enabled := true

/-- The plan when that tool is all there is. -/
def recordDraft : WorkflowPlanDraft where
  userRequest := "open a ticket for the failed build"
  plannerModel := "deterministic-workflow-planner-v1"
  confidence := .finite (88 / 100)
  nodes :=
    [{ id := "create_ticket"
       toolName := "create_ticket"
       toolServer := "ticket-mcp"
       description := "Create a ticket."
       condition := some "failure_analysis.source == 'source_code_failure'"
       typedCondition := some DeterministicWorkflowPlanner.recordCondition
       riskLevel := "MEDIUM" }]

theorem plan_recordDraft :
    DeterministicWorkflowPlanner.plain.plan "open a ticket for the failed build"
      [createTicketDocument] = some recordDraft := by
  have hvalid : recordDraft.valid = true := by
    have hshare : PyFloat.isShare (.finite (88 / 100)) = true := by norm_num [PyFloat.isShare]
    rw [WorkflowPlanDraft.valid, recordDraft, hshare]
    decide
  exact if_pos hvalid

theorem plan_structured_iff_recordDraft :
    (recordDraft.Structured ∧ recordDraft.structuralIssues = []) ↔
      ¬ DeterministicWorkflowPlanner.plain.RecordsUnanalysed "open a ticket for the failed build"
        [createTicketDocument] :=
  DeterministicWorkflowPlanner.plan_structured_iff plan_recordDraft

/-- The record reads the output of a node that is not in the plan. -/
theorem recordDraft_unstructured :
    DeterministicWorkflowPlanner.plain.plan "open a ticket for the failed build"
        [createTicketDocument] = some recordDraft ∧
      recordDraft.structuralIssues =
        [issue "invalid_condition" "Condition source failure_analysis does not exist."
            (some "create_ticket"),
          issue "invalid_condition" "Condition source failure_analysis must be a dependency."
            (some "create_ticket")] :=
  ⟨plan_recordDraft, rfl⟩

end McpOps
