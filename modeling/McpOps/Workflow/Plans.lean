import McpOps.Workflow.Service

/-!
# What a run leaves alone

Most fields of a node are fixed when its workflow is planned: no operation on a stored workflow
writes to them.  `WorkflowNode.plan` collects those that decide what is executed.  `Sound` is what
planning sees to and every operation keeps: node ids are distinct, and each node carries the id of
its workflow.

Two relations between lists of nodes are used throughout.

* `SamePlans`: node by node the same plan.  It keeps a workflow sound
  (`Workflow.Sound.of_samePlans`).
* `Continues`: besides, no node has new argument references.  It is transitive, and a later node
  has an earlier one that it continues (`Continues.exists_left`).

What the validator accepts is sound (`sound_of_validate`), the planning pass continues it
(`planNodes_continues`), and so every accepted workflow is (`Accepts.sound`).

A run rewrites one node at a time, as `putNode` does, and `forall₂_putNode` extends a relation
from that node to the list.  The last section is about the order in which a run takes the nodes:
it is a rearrangement of all of them (`topologicalNodes_perm`).
-/

namespace McpOps

open Proc

/-! ## The plan of a node -/

/-- The fields of a node that no run changes. -/
structure NodePlan where
  id : String
  workflowId : Option UUID
  toolName : String
  dependsOn : List String
  condition : Option String
  typedCondition : Option WorkflowCondition
  maxRetries : ℕ
  retryStrategy : RetryStrategy
  timeoutSeconds : ℕ
  compensationTool : Option String

/-- The plan of a node. -/
def WorkflowNode.plan (node : WorkflowNode) : NodePlan where
  id := node.id
  workflowId := node.workflowId
  toolName := node.toolName
  dependsOn := node.dependsOn
  condition := node.condition
  typedCondition := node.typedCondition
  maxRetries := node.maxRetries
  retryStrategy := node.retryStrategy
  timeoutSeconds := node.timeoutSeconds
  compensationTool := node.compensationTool

section Plan

variable {n m : WorkflowNode}

theorem id_of_plan (h : m.plan = n.plan) : m.id = n.id := congrArg NodePlan.id h

theorem toolName_of_plan (h : m.plan = n.plan) : m.toolName = n.toolName :=
  congrArg NodePlan.toolName h

theorem dependsOn_of_plan (h : m.plan = n.plan) : m.dependsOn = n.dependsOn :=
  congrArg NodePlan.dependsOn h

theorem typedCondition_of_plan (h : m.plan = n.plan) : m.typedCondition = n.typedCondition :=
  congrArg NodePlan.typedCondition h

theorem condition_of_plan (h : m.plan = n.plan) : m.condition = n.condition :=
  congrArg NodePlan.condition h

theorem workflowId_of_plan (h : m.plan = n.plan) : m.workflowId = n.workflowId :=
  congrArg NodePlan.workflowId h

theorem maxRetries_of_plan (h : m.plan = n.plan) : m.maxRetries = n.maxRetries :=
  congrArg NodePlan.maxRetries h

theorem compensationTool_of_plan (h : m.plan = n.plan) :
    m.compensationTool = n.compensationTool := congrArg NodePlan.compensationTool h

end Plan

/-! ## Sound workflows -/

/-- Distinct node ids, each node with the id of the workflow. -/
structure Workflow.Sound (workflow : Workflow) : Prop where
  nodup : workflow.nodeIds.Nodup
  workflowId : ∀ node ∈ workflow.nodes, node.workflowId = some workflow.id

/-- A workflow that the validator accepts, as it is or after the planning pass of the policy. -/
def WorkflowPlanningService.Accepts (E : WorkflowPlanningService) (workflow : Workflow) : Prop :=
  (∃ draft createdBy role allowedToolNames targetEnvironment,
    (E.validator.validate draft createdBy role allowedToolNames targetEnvironment).Returns
      workflow) ∨
  ∃ draft request discoveredTools knowledge,
    (E.planDraft draft request discoveredTools knowledge).Returns workflow

/-- Node by node the same plan. -/
def SamePlans (old new : List WorkflowNode) : Prop :=
  List.Forall₂ (fun old new : WorkflowNode => new.plan = old.plan) old new

/-- Node by node the same plan, and no new argument references. -/
def Continues (old new : List WorkflowNode) : Prop :=
  List.Forall₂ (fun old new : WorkflowNode => new.plan = old.plan ∧
    new.argumentReferences ⊆ old.argumentReferences) old new

theorem Continues.samePlans {old new : List WorkflowNode} (h : Continues old new) :
    SamePlans old new := h.imp fun _ _ hnode => hnode.1

theorem Continues.refl (nodes : List WorkflowNode) : Continues nodes nodes :=
  List.forall₂_same.mpr fun _ _ => ⟨rfl, List.Subset.refl _⟩

theorem Continues.trans {a b c : List WorkflowNode} (hab : Continues a b) (hbc : Continues b c) :
    Continues a c := by
  induction hab generalizing c with
  | nil => exact hbc
  | cons hnode _ ih =>
      cases hbc with
      | cons hnode' hrest =>
          exact .cons ⟨hnode'.1.trans hnode.1, List.Subset.trans hnode'.2 hnode.2⟩ (ih hrest)

/-- A later node continues an earlier one. -/
theorem Continues.exists_left {old new : List WorkflowNode} (h : Continues old new)
    {node : WorkflowNode} (hnode : node ∈ new) : ∃ n ∈ old, node.plan = n.plan ∧
      node.argumentReferences ⊆ n.argumentReferences := by
  obtain ⟨i, hi, rfl⟩ := List.getElem_of_mem hnode
  have hi' : i < old.length := h.length_eq ▸ hi
  exact ⟨_, List.getElem_mem hi', h.get hi' hi⟩

/-- An earlier node is continued by a later one. -/
theorem Continues.exists_right {old new : List WorkflowNode} (h : Continues old new)
    {node : WorkflowNode} (hnode : node ∈ old) : ∃ n ∈ new, n.plan = node.plan ∧
      n.argumentReferences ⊆ node.argumentReferences := by
  obtain ⟨i, hi, rfl⟩ := List.getElem_of_mem hnode
  have hi' : i < new.length := h.length_eq ▸ hi
  exact ⟨_, List.getElem_mem hi', h.get hi hi'⟩

theorem SamePlans.ids {old new : List WorkflowNode} (h : SamePlans old new) :
    new.map (·.id) = old.map (·.id) := by
  induction h with
  | nil => rfl
  | cons hplan _ ih => rw [List.map_cons, List.map_cons, id_of_plan hplan, ih]

/-- Whatever keeps the plans keeps a workflow sound. -/
theorem Workflow.Sound.of_samePlans {old new : Workflow} (h : old.Sound) (hid : new.id = old.id)
    (hplans : SamePlans old.nodes new.nodes) : new.Sound where
  nodup := by
    rw [Workflow.nodeIds, hplans.ids]
    exact h.nodup
  workflowId node hnode := by
    obtain ⟨i, hi, rfl⟩ := List.getElem_of_mem hnode
    have hlength := hplans.length_eq
    have hplan := hplans.get (i := i) (hlength ▸ hi) hi
    rw [List.get_eq_getElem, List.get_eq_getElem] at hplan
    rw [workflowId_of_plan hplan, hid]
    exact h.workflowId _ (List.getElem_mem _)

namespace WorkflowPlanningService

variable {E : WorkflowPlanningService}

/-- What the validator accepts is sound, and no run of it has begun. -/
theorem sound_of_validate {V : WorkflowValidator} {draft : WorkflowPlanDraft}
    {createdBy role environment : String} {allowedToolNames : List String} {workflow : Workflow}
    (h : (V.validate draft createdBy role allowedToolNames environment).Returns workflow) :
    workflow.Sound ∧ workflow.status = .validated := by
  unfold WorkflowValidator.validate at h
  split at h
  · exact absurd h id
  · rename_i hissues
    split at h
    · obtain ⟨id, -, h⟩ := Procedure.returns_bind.mp h
      obtain ⟨createdAt, -, h⟩ := Procedure.returns_bind.mp h
      have hnodup : (draft.nodes.map (·.id)).Nodup := by
        by_contra hdup
        simp [WorkflowValidator.issues, hdup] at hissues
      have hids : ∀ node, (V.normalizeNode node).id = node.id := by
        intro node
        unfold WorkflowValidator.normalizeNode
        split <;> rfl
      rw [← Procedure.returns_pure.mp h]
      refine ⟨⟨?_, fun node hnode => ?_⟩, rfl⟩
      · simpa [Workflow.nodeIds, Function.comp_def, hids] using hnodup
      · obtain ⟨node, -, rfl⟩ := List.mem_map.mp hnode
        rfl
    · exact absurd h id

/-- The planning pass continues the nodes. -/
theorem planNodes_continues {request : WorkflowPlanRequest} {nodes planned : List WorkflowNode}
    {events : List WorkflowAuditEvent}
    (h : (E.planNodes request nodes).Returns (planned, events)) : Continues nodes planned := by
  induction nodes generalizing planned events with
  | nil =>
      cases h
      exact .nil
  | cons node rest ih =>
      rw [planNodes, Procedure.returns_bind] at h
      obtain ⟨now, -, h⟩ := h
      obtain ⟨evaluation, -, h⟩ := Procedure.returns_bind.mp h
      obtain ⟨denials, -, h⟩ := Procedure.returns_bind.mp h
      obtain ⟨⟨nodes, events'⟩, hrest, h⟩ := Procedure.returns_bind.mp h
      cases h
      exact .cons ⟨rfl, List.Subset.refl _⟩ (ih hrest)

/-- An accepted workflow is sound, and no run of it has begun. -/
theorem Accepts.sound {workflow : Workflow} (h : E.Accepts workflow) :
    workflow.Sound ∧ workflow.status = .validated := by
  rcases h with
    ⟨draft, createdBy, role, tools, environment, h⟩ | ⟨draft, request, tools, knowledge, h⟩
  · exact sound_of_validate h
  · obtain ⟨validated, hvalidated, h⟩ := Procedure.returns_bind.mp h
    obtain ⟨hsound, hstatus⟩ := sound_of_validate hvalidated
    obtain ⟨transformed, htransformed, h⟩ := Procedure.returns_bind.mp h
    obtain ⟨retrieved, -, h⟩ := Procedure.returns_bind.mp h
    obtain ⟨_, -, h⟩ := Procedure.returns_bind.mp h
    obtain ⟨proposed, -, htransformed⟩ := Procedure.returns_bind.mp htransformed
    obtain ⟨⟨planned, denials⟩, hplanned, htransformed⟩ := Procedure.returns_bind.mp htransformed
    obtain ⟨event, -, htransformed⟩ := Procedure.returns_bind.mp htransformed
    rw [← Procedure.returns_pure.mp h, ← Procedure.returns_pure.mp htransformed]
    exact ⟨hsound.of_samePlans rfl (planNodes_continues hplanned).samePlans, hstatus⟩

end WorkflowPlanningService

/-! ## Putting a node in place of another -/

/-- The nodes with `node` in the place of the one that has its id. -/
def putNode (node : WorkflowNode) (nodes : List WorkflowNode) : List WorkflowNode :=
  nodes.map fun old => if old.id = node.id then node else old

theorem replaceNode_eq_putNode {workflow : Workflow} (hdistinct : workflow.nodeIds.Nodup)
    (node : WorkflowNode) :
    (workflow.replaceNode node).nodes = putNode node workflow.nodes :=
  Workflow.replaceNode_nodes hdistinct node

/-- The later node in a place is the one that stays. -/
theorem putNode_putNode {n m : WorkflowNode} (h : m.id = n.id) (nodes : List WorkflowNode) :
    putNode m (putNode n nodes) = putNode m nodes := by
  rw [putNode, putNode, putNode, List.map_map]
  refine List.map_congr_left fun old _ => ?_
  by_cases hid : old.id = n.id <;> simp [hid, h]

theorem mem_putNode {n node : WorkflowNode} {nodes : List WorkflowNode} :
    n ∈ putNode node nodes ↔
      (n = node ∧ node.id ∈ nodes.map (·.id)) ∨ (n ∈ nodes ∧ n.id ≠ node.id) := by
  simp only [putNode, List.mem_map]
  constructor
  · rintro ⟨old, hold, rfl⟩
    split
    · exact Or.inl ⟨rfl, old, hold, ‹_›⟩
    · exact Or.inr ⟨hold, ‹_›⟩
  · rintro (⟨rfl, old, hold, hid⟩ | ⟨hn, hid⟩)
    · exact ⟨old, hold, if_pos hid⟩
    · exact ⟨n, hn, if_neg hid⟩

/-- Putting a node back where it is changes nothing. -/
theorem putNode_self {node : WorkflowNode} {nodes : List WorkflowNode}
    (hdistinct : (nodes.map (·.id)).Nodup) (hnode : node ∈ nodes) : putNode node nodes = nodes := by
  refine (List.map_congr_left fun old hold => ?_).trans (List.map_id nodes)
  split
  · exact (List.inj_on_of_nodup_map hdistinct hold hnode ‹_›).symm
  · rfl

/-- Node by node, a node that is put in place of `node` is related to it and the rest stays. -/
theorem forall₂_putNode {R : WorkflowNode → WorkflowNode → Prop} (hrefl : ∀ node, R node node)
    {n m : WorkflowNode} {nodes : List WorkflowNode} (hid : m.id = n.id) (hR : R n m) :
    List.Forall₂ R (putNode n nodes) (putNode m nodes) := by
  rw [putNode, putNode, List.forall₂_map_left_iff, List.forall₂_map_right_iff]
  refine List.forall₂_same.mpr fun old _ => ?_
  by_cases hold : old.id = n.id
  · rw [if_pos hold, if_pos (hold.trans hid.symm)]
    exact hR
  · rw [if_neg hold, if_neg fun h => hold (h.trans hid)]
    exact hrefl old

/-! ## The order of the nodes -/

/-- With distinct ids, the dictionary of nodes is the list of them. -/
theorem entries_nodesById {nodes : List WorkflowNode} (hdistinct : (nodes.map (·.id)).Nodup) :
    (Workflow.nodesById nodes).entries = nodes.map fun node => (node.id, node) :=
  Dict.entries_foldl_set WorkflowNode.id (fun node => node) (d := Dict.empty) hdistinct

namespace WorkflowPlanningService

/-- The rounds rearrange the values of a dictionary of nodes. -/
theorem topologicalRounds_perm {fuel : ℕ} {remaining : Dict String WorkflowNode}
    {ordered : List WorkflowNode} (hkeys : ∀ e ∈ remaining.entries, e.2.id = e.1)
    (h : topologicalRounds fuel remaining = some ordered) : ordered.Perm remaining.values := by
  induction fuel generalizing remaining ordered with
  | zero =>
      rw [topologicalRounds] at h
      split at h
      · rename_i hempty
        cases h
        rw [Dict.values, List.isEmpty_iff.mp hempty]
        exact .nil
      · cases h
  | succ fuel ih =>
      rw [topologicalRounds] at h
      dsimp only at h
      split at h
      · rename_i hempty
        cases h
        rw [Dict.values, List.isEmpty_iff.mp hempty]
        exact .nil
      · split at h
        · cases h
        · obtain ⟨later, hlater, rfl⟩ := Option.map_eq_some_iff.mp h
          generalize hready : (fun node : WorkflowNode =>
            node.dependsOn.all fun dependency => decide (dependency ∉ remaining.keys)) = ready
            at hlater ⊢
          -- what is left over is what was not ready
          have hrest : ∀ e ∈ remaining.entries,
              e.1 ∈ (remaining.values.filter ready).map (·.id) ↔ ready e.2 = true := by
            intro e he
            constructor
            · intro hmem
              obtain ⟨node, hnode, hid⟩ := List.mem_map.mp hmem
              obtain ⟨hvalue, hnode⟩ := List.mem_filter.mp hnode
              obtain ⟨⟨key, value⟩, hentry, rfl⟩ := List.mem_map.mp hvalue
              have hkey : key = e.1 := (hkeys _ hentry).symm.trans hid
              subst hkey
              have hsame := (Dict.get?_eq_some_iff.mpr hentry).symm.trans
                (Dict.get?_eq_some_iff.mpr he)
              rwa [Option.some.inj hsame] at hnode
            · exact fun hnode => List.mem_map.mpr ⟨e.2,
                List.mem_filter.mpr ⟨List.mem_map_of_mem he, hnode⟩, hkeys e he⟩
          have hperm := ih (fun e he => hkeys e (List.mem_filter.mp he).1) hlater
          have hvalues : (remaining.filter fun id _ =>
              decide (id ∉ (remaining.values.filter ready).map (·.id))).values =
                remaining.values.filter fun node => !ready node := by
            refine Eq.trans ?_ List.filter_map.symm
            refine congrArg (List.map Prod.snd) (List.filter_congr fun e he => ?_)
            rw [Function.comp, Bool.eq_iff_iff, decide_eq_true_iff, hrest e he,
              Bool.not_eq_true', Bool.not_eq_true]
          rw [hvalues] at hperm
          exact ((List.perm_insertionSort _ _).append hperm).trans
            (List.filter_append_perm ready remaining.values)

/-- A run takes every node in its turn. -/
theorem topologicalNodes_perm {nodes : List WorkflowNode}
    (hdistinct : (nodes.map (·.id)).Nodup) : (topologicalNodes nodes).Perm nodes := by
  have hentries := entries_nodesById hdistinct
  rw [topologicalNodes]
  cases hrounds : topologicalRounds nodes.length (Workflow.nodesById nodes) with
  | none => exact .refl _
  | some ordered =>
      have hperm := topologicalRounds_perm (fun e he => ?_) hrounds
      · rw [Dict.values, hentries, List.map_map] at hperm
        simpa [Function.comp_def] using hperm
      · rw [hentries] at he
        obtain ⟨node, -, rfl⟩ := List.mem_map.mp he
        rfl

end WorkflowPlanningService

end McpOps
