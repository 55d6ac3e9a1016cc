import McpOps.Workflow.History
import McpOps.Workflow.SqlRepository

/-!
# What validation sees to

A node of a stored workflow is well formed when its dependencies are nodes, the sources of its
argument references are dependencies, and its condition can be read and names a dependency.
Then a run can evaluate its condition and bind its arguments as soon as the outputs it refers to
are there.  The validator checks all of this but for conditions that are given as a text.

* `WorkflowNode.WellFormed`: nothing in the structure of the node can hold it up.
* `WorkflowNode.reads`, `Supplied`: the outputs that the node refers to, and that they are there.
* `WorkflowNode.WellFormed.evaluates`, `WorkflowNode.exists_resolved`: then the condition is
  evaluated and the arguments are bound.
* `WorkflowNode.Checked`, `Accepts.checked`: what holds of every accepted plan.
* `WorkflowNode.Checked.wellFormed_iff`: what is left to ask of it.
-/

namespace McpOps

open Proc

/-! ## Well-formed nodes -/

/-- The condition that decides whether a node runs: the typed one, or what the text stands for. -/
def WorkflowNode.effectiveCondition (rt : Runtime) (node : WorkflowNode) :
    Except ConditionFailure (Option WorkflowCondition) :=
  match node.typedCondition with
  | some condition => .ok (some condition)
  | none => parseLegacyCondition rt node.condition

/-- The condition that the text of a node stands for can be read and names a dependency. -/
def WorkflowNode.LegacyConditionOk (rt : Runtime) (node : WorkflowNode) : Prop :=
  ∃ condition, parseLegacyCondition rt node.condition = .ok condition ∧
    ∀ c ∈ condition, c.sourceNodeId ∈ node.dependsOn

theorem legacyConditionOk_iff {rt : Runtime} {node : WorkflowNode} :
    ((parseLegacyCondition rt node.condition).toOption.any fun condition =>
      condition.all fun c => c.sourceNodeId ∈ node.dependsOn) ↔ node.LegacyConditionOk rt := by
  unfold WorkflowNode.LegacyConditionOk
  cases parseLegacyCondition rt node.condition with
  | error failure => simp [Except.toOption]
  | ok condition => simp [Except.toOption, Option.all_eq_true]

instance (rt : Runtime) (node : WorkflowNode) : Decidable (node.LegacyConditionOk rt) :=
  decidable_of_iff _ legacyConditionOk_iff

/-- Nothing in the structure of the node can hold it up. -/
structure WorkflowNode.WellFormed (rt : Runtime) (nodeIds : List String) (node : WorkflowNode) :
    Prop where
  dependencies : ∀ id ∈ node.dependsOn, id ∈ nodeIds
  references : ∀ reference ∈ node.argumentReferences, reference.sourceNodeId ∈ node.dependsOn
  condition : ∃ condition, node.effectiveCondition rt = .ok condition ∧
    ∀ c ∈ condition, c.sourceNodeId ∈ node.dependsOn

/-- The outputs that the node refers to, each with the path that has to be there.  For the operator
`exist` the output is enough. -/
def WorkflowNode.reads (rt : Runtime) (node : WorkflowNode) : List (String × String) :=
  let ofCondition :=
    match node.effectiveCondition rt with
    | .ok (some condition) =>
        [(condition.sourceNodeId,
          if condition.operator = .exist then "" else condition.outputPath)]
    | _ => []
  ofCondition ++ node.argumentReferences.map fun reference =>
    (reference.sourceNodeId, reference.outputPath)

/-- The outputs hold everything that the node refers to. -/
def Supplied (rt : Runtime) (node : WorkflowNode) (outputs : NodeOutputs) : Prop :=
  ∀ read ∈ node.reads rt, ∃ output value, outputs.get? read.1 = some output ∧
    readOutputPath (.dict output) read.2 = .ok value

/-- What a later call has of the output of the node, the reference of its result, is enough for
the path. -/
def WorkflowNode.carries (node : WorkflowNode) (path : String) : Bool :=
  node.resultReference.any fun reference =>
    (readOutputPath (.dict [("result_reference", .str reference)]) path).isOk

section Evaluation

variable {rt : Runtime} {node : WorkflowNode} {outputs : NodeOutputs} {nodeIds : List String}

theorem containsValue_ne (actual expected : Value) (message : String) :
    containsValue actual expected ≠ .error (.evaluation message) := by
  unfold containsValue
  split <;> exact fun h => by cases h

/-- A comparison raises no evaluation error. -/
theorem compare_ne (actual : Value) (operator : ConditionOperator) (expected : Value)
    (message : String) : compare actual operator expected ≠ .error (.evaluation message) := by
  unfold compare
  cases operator with
  | contains => exact containsValue_ne actual expected message
  | _ =>
      dsimp only
      repeat' split
      all_goals exact fun h => by cases h

theorem evaluateCondition_ne_evaluation {condition : WorkflowCondition} {output : PyDict}
    (h : condition.operator = .exist ∨
      ∃ value, readOutputPath (.dict output) condition.outputPath = .ok value)
    (message : String) : evaluateCondition condition output ≠ .error (.evaluation message) := by
  unfold evaluateCondition
  split
  · exact fun h => by cases h
  · exact fun h => by cases h
  · rename_i heq hoperator
    obtain ⟨value, hvalue⟩ := h.resolve_left fun hexist => hoperator hexist
    rw [hvalue] at heq
    cases heq
  · exact compare_ne _ _ _ message

/-- References whose outputs are there can be bound. -/
theorem bindReferences_ok {references : List ArgumentReference} (arguments : PyDict)
    (hvalid : ∀ reference ∈ references, reference.valid)
    (h : ∀ reference ∈ references, ∃ output value,
      outputs.get? reference.sourceNodeId = some output ∧
        readOutputPath (.dict output) reference.outputPath = .ok value) :
    ∃ bound, references.foldlM (bindReference outputs) arguments = .ok bound := by
  induction references generalizing arguments with
  | nil => exact ⟨arguments, rfl⟩
  | cons reference rest ih =>
      rw [List.forall_mem_cons] at hvalid h
      obtain ⟨output, value, houtput, hvalue⟩ := h.1
      have hnonempty : reference.sourceNodeId ≠ "" ∧ reference.argument ≠ "" ∧
          reference.outputPath ≠ "" := by
        have hfields := of_decide_eq_true hvalid.1
        refine ⟨?_, ?_, ?_⟩
        · rintro heq
          exact absurd (heq ▸ hfields.2.1) (by decide)
        · rintro heq
          exact absurd (heq ▸ hfields.1) (by decide)
        · rintro heq
          exact absurd (heq ▸ hfields.2.2) (by decide)
      obtain ⟨hsource, hargument, hpath⟩ := hnonempty
      have hbind : bindReference outputs arguments reference =
          .ok (arguments.set reference.argument value) := by
        rw [bindReference, if_neg hsource, if_neg hargument, if_neg hpath, houtput]
        simp only [hvalue]
        rfl
      rw [List.foldlM_cons, hbind]
      exact ih _ hvalid.2 h.2

theorem conditionIsSatisfied_of_none (h : node.effectiveCondition rt = .ok none) :
    conditionIsSatisfied rt node outputs = .ok true := by
  unfold WorkflowNode.effectiveCondition at h
  unfold conditionIsSatisfied
  cases htyped : node.typedCondition with
  | some condition =>
      rw [htyped] at h
      cases h
  | none =>
      rw [htyped] at h
      simp only [h]
      rfl

theorem conditionIsSatisfied_of_some {condition : WorkflowCondition} {output : PyDict}
    (h : node.effectiveCondition rt = .ok (some condition))
    (hsource : condition.sourceNodeId ∈ node.dependsOn)
    (houtput : outputs.get? condition.sourceNodeId = some output) :
    conditionIsSatisfied rt node outputs = evaluateCondition condition output := by
  unfold WorkflowNode.effectiveCondition at h
  unfold conditionIsSatisfied
  cases htyped : node.typedCondition with
  | some typed =>
      rw [htyped] at h
      cases h
      exact (if_neg (not_not.mpr hsource)).trans (by rw [houtput])
  | none =>
      rw [htyped] at h
      simp only [h]
      exact (if_neg (not_not.mpr hsource)).trans (by rw [houtput])

/-- The condition of a well-formed node can be evaluated once the outputs are there. -/
theorem WorkflowNode.WellFormed.evaluates (h : node.WellFormed rt nodeIds)
    (hsupplied : Supplied rt node outputs) (message : String) :
    conditionIsSatisfied rt node outputs ≠ .error (.evaluation message) := by
  obtain ⟨condition, hcondition, hsource⟩ := h.condition
  cases condition with
  | none =>
      rw [conditionIsSatisfied_of_none hcondition]
      exact fun h => by cases h
  | some condition =>
      have hread : (condition.sourceNodeId,
          if condition.operator = .exist then "" else condition.outputPath) ∈ node.reads rt := by
        rw [reads, hcondition]
        exact List.mem_append_left _ (List.mem_singleton.mpr rfl)
      obtain ⟨output, value, houtput, hvalue⟩ := hsupplied _ hread
      rw [conditionIsSatisfied_of_some hcondition (hsource condition rfl) houtput]
      refine evaluateCondition_ne_evaluation ?_ message
      by_cases hexist : condition.operator = .exist
      · exact .inl hexist
      · rw [if_neg hexist] at hvalue
        exact .inr ⟨value, hvalue⟩

/-- The arguments of a node can be bound once the outputs are there. -/
theorem WorkflowNode.exists_resolved
    (hvalid : ∀ reference ∈ node.argumentReferences, reference.valid)
    (hsupplied : Supplied rt node outputs) :
    ∃ bound, resolveNodeArguments node outputs = .ok bound := by
  obtain ⟨arguments, hbound⟩ := bindReferences_ok node.arguments hvalid fun reference hmem =>
    hsupplied (reference.sourceNodeId, reference.outputPath)
      (List.mem_append_right _ (List.mem_map_of_mem hmem))
  exact ⟨{ node with arguments }, by rw [resolveNodeArguments, hbound]; rfl⟩

end Evaluation

/-! ## What the validator checks -/

/-- What the validator sees to in the structure of a node. -/
structure WorkflowNode.Checked (nodeIds : List String) (node : WorkflowNode) : Prop where
  dependencies : ∀ id ∈ node.dependsOn, id ∈ nodeIds
  references : ∀ reference ∈ node.argumentReferences, reference.sourceNodeId ∈ node.dependsOn
  typed : ∀ condition, node.typedCondition = some condition →
    condition.sourceNodeId ∈ node.dependsOn

section Checks

variable {nodes : List WorkflowNode} {nodeIds : List String} {node n : WorkflowNode}

theorem dependencies_of_validate (h : validateDependencies nodes nodeIds = [])
    (hnode : node ∈ nodes) : ∀ id ∈ node.dependsOn, id ∈ nodeIds := by
  intro id hid
  have hnone := List.filterMap_eq_nil_iff.mp (List.flatMap_eq_nil_iff.mp h node hnode) id hid
  by_contra hmissing
  rw [if_neg hmissing] at hnone
  cases hnone

theorem references_of_validate (h : validateArgumentReferences nodes nodeIds = [])
    (hnode : node ∈ nodes) :
    ∀ reference ∈ node.argumentReferences, reference.sourceNodeId ∈ node.dependsOn := by
  intro reference hreference
  have hnone := List.flatMap_eq_nil_iff.mp (List.flatMap_eq_nil_iff.mp h node hnode) reference
    hreference
  by_contra hmissing
  simp [if_neg hmissing] at hnone

theorem typed_of_validate (h : validateTypedConditions nodes nodeIds = []) (hnode : node ∈ nodes)
    (condition : WorkflowCondition) (htyped : node.typedCondition = some condition) :
    condition.sourceNodeId ∈ node.dependsOn := by
  have hnone := List.flatMap_eq_nil_iff.mp h node hnode
  simp only [htyped] at hnone
  by_contra hmissing
  simp [if_neg hmissing] at hnone

/-- What was checked of a node holds of the node that continues it. -/
theorem WorkflowNode.Checked.of_continues (h : n.Checked nodeIds) (hplan : node.plan = n.plan)
    (hreferences : node.argumentReferences ⊆ n.argumentReferences) : node.Checked nodeIds where
  dependencies := by
    rw [dependsOn_of_plan hplan]
    exact h.dependencies
  references reference hreference := by
    rw [dependsOn_of_plan hplan]
    exact h.references reference (hreferences hreference)
  typed condition htyped := by
    rw [typedCondition_of_plan hplan] at htyped
    rw [dependsOn_of_plan hplan]
    exact h.typed condition htyped

/-- The legacy text decides only where there is no typed condition. -/
theorem WorkflowNode.Checked.wellFormed_iff (h : node.Checked nodeIds) (rt : Runtime) :
    node.WellFormed rt nodeIds ↔ (node.typedCondition = none → node.LegacyConditionOk rt) := by
  constructor
  · rintro ⟨-, -, condition, hcondition, hsource⟩ htyped
    rw [effectiveCondition, htyped] at hcondition
    exact ⟨condition, hcondition, hsource⟩
  · intro hlegacy
    refine ⟨h.dependencies, h.references, ?_⟩
    cases htyped : node.typedCondition with
    | some condition =>
        refine ⟨some condition, by rw [effectiveCondition, htyped], fun c hc => ?_⟩
        cases hc
        exact h.typed condition htyped
    | none =>
        obtain ⟨condition, hcondition, hsource⟩ := hlegacy htyped
        exact ⟨condition, by rw [effectiveCondition, htyped]; exact hcondition, hsource⟩

end Checks

namespace WorkflowPlanningService

variable {E : WorkflowPlanningService}

theorem checked_of_validate {V : WorkflowValidator} {draft : WorkflowPlanDraft}
    {createdBy role environment : String} {allowedToolNames : List String} {workflow : Workflow}
    (h : (V.validate draft createdBy role allowedToolNames environment).Returns workflow) :
    ∀ node ∈ workflow.nodes, node.Checked workflow.nodeIds := by
  unfold WorkflowValidator.validate at h
  split at h
  · exact absurd h id
  · rename_i hissues
    split at h
    · obtain ⟨id, -, h⟩ := Procedure.returns_bind.mp h
      obtain ⟨createdAt, -, h⟩ := Procedure.returns_bind.mp h
      rw [← Procedure.returns_pure.mp h]
      -- no issues were found, so every check has passed
      simp only [ne_eq, not_not, WorkflowValidator.issues, List.append_eq_nil_iff] at hissues
      obtain ⟨⟨⟨⟨⟨-, hdependencies⟩, hreferences⟩, htyped⟩, -⟩, -⟩ := hissues
      -- normalizing a node changes none of the checked fields
      have hsame : ∀ node, (V.normalizeNode node).id = node.id ∧
          (V.normalizeNode node).dependsOn = node.dependsOn ∧
          (V.normalizeNode node).argumentReferences = node.argumentReferences ∧
          (V.normalizeNode node).typedCondition = node.typedCondition := by
        intro node
        unfold WorkflowValidator.normalizeNode
        split <;> exact ⟨rfl, rfl, rfl, rfl⟩
      have hids : (draft.nodes.map fun node =>
          { V.normalizeNode node with workflowId := some id }).map (·.id) =
            draft.nodes.map (·.id) := by
        simp [Function.comp_def, hsame]
      intro node hnode
      obtain ⟨n, hn, rfl⟩ := List.mem_map.mp hnode
      obtain ⟨-, hdependsOn, hargumentReferences, htypedCondition⟩ := hsame n
      refine ⟨?_, ?_, ?_⟩
      · rw [Workflow.nodeIds, hids]
        dsimp only
        rw [hdependsOn]
        exact dependencies_of_validate hdependencies hn
      · dsimp only
        rw [hargumentReferences, hdependsOn]
        exact references_of_validate hreferences hn
      · dsimp only
        rw [htypedCondition, hdependsOn]
        exact typed_of_validate htyped hn
    · exact absurd h id

/-- The nodes of an accepted workflow have been checked. -/
theorem Accepts.checked {workflow : Workflow} (h : E.Accepts workflow) :
    ∀ node ∈ workflow.nodes, node.Checked workflow.nodeIds := by
  rcases h with
    ⟨draft, createdBy, role, tools, environment, h⟩ | ⟨draft, request, tools, knowledge, h⟩
  · exact checked_of_validate h
  · obtain ⟨validated, hvalidated, h⟩ := Procedure.returns_bind.mp h
    have hchecked := checked_of_validate hvalidated
    obtain ⟨transformed, htransformed, h⟩ := Procedure.returns_bind.mp h
    obtain ⟨retrieved, -, h⟩ := Procedure.returns_bind.mp h
    obtain ⟨_, -, h⟩ := Procedure.returns_bind.mp h
    obtain ⟨proposed, -, htransformed⟩ := Procedure.returns_bind.mp htransformed
    obtain ⟨⟨planned, denials⟩, hplanned, htransformed⟩ := Procedure.returns_bind.mp htransformed
    obtain ⟨event, -, htransformed⟩ := Procedure.returns_bind.mp htransformed
    rw [← Procedure.returns_pure.mp h, ← Procedure.returns_pure.mp htransformed]
    have hcontinues := planNodes_continues hplanned
    intro node hnode
    obtain ⟨n, hn, hplan, hreferences⟩ := hcontinues.exists_left hnode
    have hids : planned.map (·.id) = validated.nodeIds := hcontinues.samePlans.ids
    rw [Workflow.nodeIds, hids]
    exact (hchecked n hn).of_continues hplan hreferences

end WorkflowPlanningService

end McpOps
