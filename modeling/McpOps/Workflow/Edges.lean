import McpOps.Workflow.Attempts

/-!
# Edges and dependencies

A workflow carries its graph twice: as the dependencies of its nodes and as a list of edges.
The validator looks for cycles in both, a run goes by the dependencies alone.  An edge is
honoured when its source is also a dependency of its destination.

`runCalls_edgeHonoured` reads this off what holds of every tool call of a history
(`Traced.dependencySafe`): a tool is handed over for a node whose dependencies are done, and the
source of the edge is one of them.  Nothing writes to the dependencies of a node, so it is enough
that they name the source when the first call begins.

The two plans at the end differ in the dependency only.  With it the edge is honoured; without it
the destination is handed to the gateway before the source.
-/

namespace McpOps

open Proc

variable {E : WorkflowPlanningService} {calls : ℕ → WorkflowCall} {s : InMemoryWorkflowRepository}
  {r : EngineRun}

/-- The destination of the edge depends on its source. -/
def Workflow.DependsAlong (workflow : Workflow) (edge : WorkflowEdge) : Prop :=
  ∀ node ∈ workflow.nodes, node.id = edge.destination → edge.source ∈ node.dependsOn

instance (workflow : Workflow) (edge : WorkflowEdge) : Decidable (workflow.DependsAlong edge) :=
  inferInstanceAs (Decidable (∀ node ∈ workflow.nodes, _ → _))

/-- Whenever a tool is handed to the gateway for the destination of the edge, the source is
done. -/
def EdgeHonoured (workflowId : UUID) (edge : WorkflowEdge) (r : EngineRun) : Prop :=
  ∀ d older, After r d older → ∀ request, d.op = .callTool request →
    request.workflowId = some workflowId → request.workflowNodeId = some edge.destination →
      ∃ workflow, d.before.getWorkflow workflowId = some workflow ∧
        ∃ source ∈ workflow.nodes, source.id = edge.source ∧
          source.executionStatus ∈ [WorkflowNodeStatus.succeeded, .compensated, .skipped]

/-! ## Edges along a history -/

/-- In every sequence of calls, some of them abandoned on the way, an edge whose source is a
dependency of its destination is honoured. -/
theorem runCalls_edgeHonoured (hs : E.AcceptsAll s) (calls : ℕ → WorkflowCall)
    {schedule : List (ℕ × EngineEnv)} (hsequential : Sequential schedule) {workflowId : UUID}
    {accepted : Workflow} (haccepted : s.getWorkflow workflowId = some accepted)
    {edge : WorkflowEdge} (hdepends : accepted.DependsAlong edge) :
    EdgeHonoured workflowId edge (E.runCalls s calls schedule) := by
  have htraced := runCalls_traced (E := E) hs.sound calls schedule
  have hunraced := htraced.unraced (runCalls_ordered hsequential)
  intro d older hd request hcall hworkflowId hnodeId
  obtain ⟨workflow, hstored, hworkflow, node, hnode, hid, -, hready⟩ :=
    htraced.dependencySafe hunraced d older hd request hcall
  have hsame : (calls d.caller).workflowId = workflowId := by
    rw [← (htraced.sound_before hd _ _ hstored).1]
    exact Option.some.inj (hworkflow.symm.trans hworkflowId)
  rw [hsame] at hstored
  refine ⟨workflow, hstored, hready edge.source ?_⟩
  -- the node depends on what it depended on when the workflow was accepted
  have hplans := (htraced.before hd).keepsPlans fun e rest he =>
    hunraced e rest (he.trans ((List.suffix_cons d older).trans hd))
  obtain ⟨later, hlater, hplans⟩ := hplans workflowId accepted haccepted
  rw [hstored] at hlater
  cases hlater
  obtain ⟨n, hn, hplan, -⟩ := hplans.exists_left hnode
  have hdestination : node.id = edge.destination := Option.some.inj (hid.symm.trans hnodeId)
  rw [dependsOn_of_plan hplan]
  exact hdepends n hn ((id_of_plan hplan).symm.trans hdestination)

/-- An edge from the first to the second reading. -/
def readingsEdge : WorkflowEdge := ⟨"first", "second", none⟩

/-- A plan that reads the status of a device twice, with an edge for its dependency. -/
def linkedReads : WorkflowPlanDraft := { readTwice with edges := [readingsEdge] }

/-- The edge of a dependency is honoured. -/
theorem runCalls_edgeHonoured_linkedReads :
    EdgeHonoured 5 readingsEdge (WorkflowPlanningService.small.runCalls (.holding linkedReads)
      (fun _ => .execute 5 "ENGINEER" none)
      (engineTurns 0 (.at 6 (.ok succeededResponse)) 60)) := by
  have hdepends : ((InMemoryWorkflowRepository.holding linkedReads).getWorkflow 5).any
      fun workflow => workflow.DependsAlong readingsEdge := by
    rfl
  obtain ⟨accepted, haccepted, hdepends⟩ := (Option.any_eq_true ..).mp hdepends
  exact runCalls_edgeHonoured (acceptsAll_holding linkedReads) _ (sequential_turn ..) haccepted
    (of_decide_eq_true hdepends)

/-- A plan with an edge from its second reading to the first, but no dependency. -/
def loneEdge : WorkflowPlanDraft :=
  { smallDraft (readTwice.nodes.map fun node => { node with dependsOn := [] }) with
    edges := [⟨"second", "first", none⟩] }

/-- The destination of an edge is handed to the gateway before the source. -/
theorem edge_ignored :
    ¬ ∀ (E : WorkflowPlanningService) (s : InMemoryWorkflowRepository) (calls : ℕ → WorkflowCall)
      (schedule : List (ℕ × EngineEnv)) (workflowId : UUID) (accepted : Workflow),
      E.AcceptsAll s → Sequential schedule → s.getWorkflow workflowId = some accepted →
        ∀ edge ∈ accepted.edges, EdgeHonoured workflowId edge (E.runCalls s calls schedule) := by
  intro hclaim
  have hedges : ((InMemoryWorkflowRepository.holding loneEdge).getWorkflow 5).any
      fun workflow => workflow.edges = loneEdge.edges := by
    rfl
  obtain ⟨accepted, haccepted, hedges⟩ := (Option.any_eq_true ..).mp hedges
  have hhonoured := hclaim .small (.holding loneEdge) (fun _ => .execute 5 "ENGINEER" none)
    (engineTurns 0 (.at 6 (.ok succeededResponse)) 22) 5 accepted (acceptsAll_holding loneEdge)
    (sequential_turn ..) haccepted ⟨"second", "first", none⟩
    (by rw [of_decide_eq_true hedges]; exact List.mem_cons_self ..)
  generalize hrun : WorkflowPlanningService.small.runCalls _ _ _ = r at hhonoured
  -- the last step calls the tool of the destination
  have hlast : (r.past.head?.map fun d => ((request? d).map fun request =>
      (request.workflowId, request.workflowNodeId), (d.before.getWorkflow 5).map fun workflow =>
        workflow.nodes.map (·.executionStatus))) =
      some (some (some 5, some "first"), some [.running, .pending]) := by
    subst hrun
    decide +kernel
  obtain ⟨d, hd, hlast⟩ := Option.map_eq_some_iff.mp hlast
  obtain ⟨hrequest, hstored⟩ := Prod.mk.inj hlast
  obtain ⟨request, hcall, hids⟩ := Option.map_eq_some_iff.mp hrequest
  obtain ⟨hworkflowId, hnodeId⟩ := Prod.mk.inj hids
  obtain ⟨workflow, hworkflow, hnodes⟩ := Option.map_eq_some_iff.mp hstored
  obtain ⟨older, hpast⟩ := List.head?_eq_some_iff.mp hd
  have hstep : After r d older := by rw [After, hpast]
  obtain ⟨workflow', hworkflow', source, hsource, -, hdone⟩ :=
    hhonoured d older hstep request (request?_eq_some.mp hcall) hworkflowId hnodeId
  rw [hworkflow] at hworkflow'
  cases hworkflow'
  -- no node is done
  have hmem : source.executionStatus ∈ workflow.nodes.map (·.executionStatus) :=
    List.mem_map_of_mem hsource
  rw [hnodes] at hmem
  cases hstatus : source.executionStatus <;> simp [hstatus] at hmem hdone

end McpOps
