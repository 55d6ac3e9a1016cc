import McpOps.Workflow.History

/-!
# What runs of a workflow keep

Three laws over histories of `execute`, `resume`, `retry_node` and `cancel` on accepted
workflows.

* A tool is handed to the gateway only when every node its node depends on is done
  (`runCalls_dependencySafe`).
* A node that has succeeded stays so and is not handed over again, as long as `retry_node` names
  no such node (`runCalls_succeededIsFinal`).
* A workflow is completed only with every node done, as long as no run starts on a workflow with
  nodes that were cancelled (`runCalls_completedMeansDone`).

## Strategy

All three are read off the shape of a single event.  What is handed over is handed over for a node
of the workflow that is stored (`Traced.sends_stored`), and `Sends` says that its dependencies are
done in it.  A save continues what is stored by `NodeStep`s, and no `NodeStep` leaves `SUCCEEDED`
but the one for the target of `retry_node`, which is where the condition of the second law comes
from (`Traced.hasSucceeded_step`).  A save that completes a workflow comes from a run that has seen
every node at rest without failing, and a cancelled node is the one kind that is at rest without
being done (`Traced.completed_of_saves`).

Each law is followed by a run on which it holds and, for the conditions, one on which it fails.
-/

namespace McpOps

open Proc

variable {E : WorkflowPlanningService} {calls : ℕ → WorkflowCall} {s : InMemoryWorkflowRepository}
  {r : EngineRun}

/-! ## Dependencies -/

/-- Whenever a tool is handed to the gateway, it is the tool or the compensation tool of a node
of the stored workflow, and every node that this one depends on is done. -/
def DependencySafe (calls : ℕ → WorkflowCall) (r : EngineRun) : Prop :=
  ∀ d older, After r d older → ∀ request, d.op = .callTool request →
    ∃ workflow, d.before.getWorkflow (calls d.caller).workflowId = some workflow ∧
      request.workflowId = some workflow.id ∧ ∃ node ∈ workflow.nodes,
        request.workflowNodeId = some node.id ∧
        (request.toolName = node.toolName ∨ node.compensationTool = some request.toolName) ∧
        ∀ id ∈ node.dependsOn, ∃ dependency ∈ workflow.nodes, dependency.id = id ∧
          dependency.executionStatus ∈ [WorkflowNodeStatus.succeeded, .compensated, .skipped]

theorem mem_of_done {status : WorkflowNodeStatus} (h : status.done) :
    status ∈ [WorkflowNodeStatus.succeeded, .compensated, .skipped] := by
  cases status <;> first | decide | exact absurd h (by decide)

/-- Calls that do not race are safe for dependencies. -/
theorem Traced.dependencySafe (h : Traced E calls s r) (hunraced : Unraced calls r) :
    DependencySafe calls r := by
  intro d older hd request hcall
  obtain ⟨workflow₀, workflow, -, hstored, -, node, hnode, hhands, hready, -⟩ :=
    h.sends_stored hunraced hd hcall
  obtain ⟨hnodeId, hworkflowId, -, -, htool, -⟩ := hhands.request
  refine ⟨workflow, hstored, ?_, node, hnode, hnodeId, htool, fun id hid => ?_⟩
  · rw [hworkflowId]
    exact (h.sound_before hd _ _ hstored).2.workflowId node hnode
  · obtain ⟨dependency, hmem, hsame, hdone⟩ := hready id hid
    exact ⟨dependency, hmem, hsame, mem_of_done hdone⟩

/-- In every sequence of calls, some of them abandoned on the way, each tool that is handed to
the gateway has the nodes it depends on done. -/
theorem runCalls_dependencySafe (hs : E.AcceptsAll s) (calls : ℕ → WorkflowCall)
    {schedule : List (ℕ × EngineEnv)} (hsequential : Sequential schedule) :
    DependencySafe calls (E.runCalls s calls schedule) :=
  have htraced := runCalls_traced hs.sound calls schedule
  htraced.dependencySafe (htraced.unraced (runCalls_ordered hsequential))

/-- The second reading of a plan is handed over once the first has succeeded. -/
theorem runCalls_dependencySafe_readTwice :
    DependencySafe (fun _ => .execute 5 "ENGINEER" none)
      (WorkflowPlanningService.small.runCalls (.holding readTwice)
        (fun _ => .execute 5 "ENGINEER" none)
        (engineTurns 0 (.at 6 (.ok succeededResponse)) 60)) :=
  runCalls_dependencySafe (acceptsAll_holding readTwice) _ (sequential_turn ..)

/-! ## Succeeded nodes -/

/-- Whether the node of the id has succeeded in the stored workflow. -/
def InMemoryWorkflowRepository.hasSucceeded (s : InMemoryWorkflowRepository) (workflowId : UUID)
    (nodeId : String) : Bool :=
  (s.getWorkflow workflowId).any fun workflow =>
    workflow.nodes.any fun node => node.id = nodeId ∧ node.executionStatus = .succeeded

theorem hasSucceeded_iff {workflowId : UUID} {nodeId : String} :
    s.hasSucceeded workflowId nodeId ↔ ∃ workflow, s.getWorkflow workflowId = some workflow ∧
      ∃ node ∈ workflow.nodes, node.id = nodeId ∧ node.executionStatus = .succeeded := by
  simp [InMemoryWorkflowRepository.hasSucceeded, Option.any_eq_true]

/-- A node that has succeeded stays so in every later state, and no later step hands it to the
gateway. -/
def SucceededIsFinal (r : EngineRun) : Prop :=
  ∀ d older, After r d older → ∀ workflowId nodeId, d.before.hasSucceeded workflowId nodeId →
    ∀ e newer, After r e newer → d :: older <:+ e :: newer →
      e.after.hasSucceeded workflowId nodeId ∧ ∀ request, e.op = .callTool request →
        request.workflowId = some workflowId → request.workflowNodeId ≠ some nodeId

/-- A call of `retry_node` reads its target as succeeded. -/
def readsSucceeded (calls : ℕ → WorkflowCall) (d : EngineStep) : Bool :=
  match calls d.caller, d.op with
  | .retryNode workflowId nodeId _ _, .getWorkflow _ => d.before.hasSucceeded workflowId nodeId
  | _, _ => false

/-- No call of `retry_node` reads its target as succeeded. -/
def RetriesUnfinished (calls : ℕ → WorkflowCall) (r : EngineRun) : Prop :=
  ∀ d ∈ r.past, readsSucceeded calls d = false

theorem retries_iff {call : WorkflowCall} {nodeId : String} :
    call.retries nodeId ↔ ∃ workflowId role authToken,
      call = .retryNode workflowId nodeId role authToken := by
  cases call <;> simp [WorkflowCall.retries, eq_comm]

/-- What has succeeded before a step has succeeded after it. -/
theorem Traced.hasSucceeded_step (h : Traced E calls s r) (hunraced : Unraced calls r)
    (hretries : RetriesUnfinished calls r) {d : EngineStep} {older : List EngineStep}
    (hd : After r d older) {workflowId : UUID} {nodeId : String}
    (hsucceeded : d.before.hasSucceeded workflowId nodeId) :
    d.after.hasSucceeded workflowId nodeId := by
  cases hsaved : d.op.saved with
  | none =>
      rw [h.after_eq_before hd hsaved]
      exact hsucceeded
  | some new =>
      obtain ⟨workflow₀, workflow, hopened, hstored, hsaves, hafter⟩ :=
        h.saves_stored hunraced hd hsaved
      obtain ⟨workflow', hstored', node, hnode, rfl, hstatus⟩ := hasSucceeded_iff.mp hsucceeded
      refine hasSucceeded_iff.mpr ?_
      rw [hafter]
      split
      · rename_i hid
        rw [hid, hstored] at hstored'
        cases hstored'
        obtain ⟨i, hi, rfl⟩ := List.getElem_of_mem hnode
        have hi' : i < new.nodes.length := hsaves.nodes.length_eq ▸ hi
        have hstep := hsaves.nodes.get hi hi'
        rw [List.get_eq_getElem, List.get_eq_getElem] at hstep
        -- only `retry_node` moves a node that is done
        rcases hstep.done (by rw [hstatus]; rfl) with hsame | ⟨rfl, hretry⟩
        · exact ⟨new, rfl, _, List.getElem_mem hi', by rw [hsame], by rw [hsame, hstatus]⟩
        · -- the call has read the node as succeeded
          obtain ⟨d₀, older₀, hd₀, hcaller, hget, hread⟩ := (h.before hd).opened_step hopened
          have hd₀' : d₀ ∈ r.past :=
            (hd₀.trans ((List.suffix_cons d older).trans hd)).mem (List.mem_cons_self ..)
          have hfalse := hretries d₀ hd₀'
          obtain ⟨id, role, authToken, hcall⟩ := retries_iff.mp hretry
          rw [readsSucceeded, hcaller, hget] at hfalse
          simp only [hcall, WorkflowCall.workflowId] at hfalse hread
          rw [hasSucceeded_iff.mpr ⟨_, hread, _, hnode, rfl, hstatus⟩] at hfalse
          cases hfalse
      · exact ⟨workflow', hstored', node, hnode, rfl, hstatus⟩

/-- A node that has succeeded is not handed to the gateway. -/
theorem Traced.not_sent_of_succeeded (h : Traced E calls s r) (hunraced : Unraced calls r)
    {d : EngineStep} {older : List EngineStep} (hd : After r d older)
    {request : GatewayToolRequest} (hcall : d.op = .callTool request) {workflowId : UUID}
    (hworkflow : request.workflowId = some workflowId) {nodeId : String}
    (hnodeId : request.workflowNodeId = some nodeId) :
    d.before.hasSucceeded workflowId nodeId = false := by
  obtain ⟨workflow₀, workflow, -, hstored, -, node, hnode, hhands, -⟩ :=
    h.sends_stored hunraced hd hcall
  obtain ⟨hid, hworkflowId, -, -, -, hbusy⟩ := hhands.request
  have hsound := h.sound_before hd _ _ hstored
  rw [hworkflowId, hsound.2.workflowId node hnode, hsound.1] at hworkflow
  cases hworkflow
  rw [hid] at hnodeId
  cases hnodeId
  refine Bool.eq_false_iff.mpr fun hsucceeded => ?_
  obtain ⟨workflow', hstored', node', hnode', hsame, hstatus⟩ := hasSucceeded_iff.mp hsucceeded
  rw [hstored] at hstored'
  cases hstored'
  rw [List.inj_on_of_nodup_map hsound.2.nodup hnode' hnode hsame] at hstatus
  rw [hstatus] at hbusy
  cases hbusy

/-- In every sequence of calls in which `retry_node` names no node that has succeeded,
succeeded work is final. -/
theorem runCalls_succeededIsFinal (hs : E.AcceptsAll s) (calls : ℕ → WorkflowCall)
    {schedule : List (ℕ × EngineEnv)} (hsequential : Sequential schedule)
    (hretries : RetriesUnfinished calls (E.runCalls s calls schedule)) :
    SucceededIsFinal (E.runCalls s calls schedule) := by
  have htraced := runCalls_traced (E := E) hs.sound calls schedule
  have hunraced := htraced.unraced (runCalls_ordered hsequential)
  intro d older hd workflowId nodeId hsucceeded e newer he hle
  have hstep : ∀ d older, After (E.runCalls s calls schedule) d older →
      d.before.hasSucceeded workflowId nodeId → d.after.hasSucceeded workflowId nodeId :=
    fun d older hd => htraced.hasSucceeded_step hunraced hretries hd
  refine ⟨htraced.reached.chain
    (R := fun s t => s.hasSucceeded workflowId nodeId → t.hasSucceeded workflowId nodeId)
    (fun _ _ _ hst htu hs => htu (hst hs)) hstep he hle hsucceeded,
    fun request hcall hworkflow hnode => ?_⟩
  -- before the step it had succeeded already
  have hbefore : e.before.hasSucceeded workflowId nodeId := by
    rcases List.suffix_cons_iff.mp hle with heq | hle
    · cases heq
      exact hsucceeded
    · exact htraced.reached.chain_before
        (R := fun s t => s.hasSucceeded workflowId nodeId → t.hasSucceeded workflowId nodeId)
        (fun _ _ _ hst htu hs => htu (hst hs)) hstep he hle hsucceeded
  rw [htraced.not_sent_of_succeeded hunraced he hcall hworkflow hnode] at hbefore
  cases hbefore

/-- The answer of a tool that is not available. -/
def unavailableResponse : GatewayToolResponse where
  ok := false
  decision := .denied
  correlationId := 1
  error := some [("code", "tool_server_unavailable"), ("message", "down")]

/-- A plan is executed, and then its second reading is retried by hand. -/
def retrySecond : ℕ → WorkflowCall
  | 0 => .execute 5 "ENGINEER" none
  | _ => .retryNode 5 "second" "ENGINEER" none

/-- The first reading succeeds and the second fails, and `retry_node` carries it out. -/
def retrySecondTurns : List (ℕ × EngineEnv) :=
  engineTurns 0 (.at 6 (.ok succeededResponse)) 24 ++
    (engineTurns 0 (.at 7 (.ok unavailableResponse)) 29 ++
      engineTurns 1 (.at 8 (.ok succeededResponse)) 34)

/-- When `retry_node` begins, the first reading has succeeded, and in the end both have. -/
theorem retrySecond_reads :
    RetriesUnfinished retrySecond (WorkflowPlanningService.small.runCalls (.holding readTwice)
      retrySecond retrySecondTurns) ∧
    (WorkflowPlanningService.small.runCalls (.holding readTwice) retrySecond
      (retrySecondTurns.take 53)).state.hasSucceeded 5 "first" ∧
    (WorkflowPlanningService.small.runCalls (.holding readTwice) retrySecond
      retrySecondTurns).state.hasSucceeded 5 "second" := by
  unfold RetriesUnfinished
  decide +kernel

/-- A reading that has failed may be retried, while another one has succeeded. -/
theorem runCalls_succeededIsFinal_failed :
    (WorkflowPlanningService.small.runCalls (.holding readTwice) retrySecond
      (retrySecondTurns.take 53)).state.hasSucceeded 5 "first" ∧
    (WorkflowPlanningService.small.runCalls (.holding readTwice) retrySecond
      retrySecondTurns).state.hasSucceeded 5 "second" ∧
    SucceededIsFinal (WorkflowPlanningService.small.runCalls (.holding readTwice) retrySecond
      retrySecondTurns) :=
  ⟨retrySecond_reads.2.1, retrySecond_reads.2.2,
    runCalls_succeededIsFinal (acceptsAll_holding readTwice) _ (by decide) retrySecond_reads.1⟩

/-- A plan is executed, and then its reading is retried by hand. -/
def retryFirst : ℕ → WorkflowCall
  | 0 => .execute 5 "ENGINEER" none
  | _ => .retryNode 5 "first" "ENGINEER" none

/-- `retry_node` takes a node that has succeeded back to be executed again. -/
theorem retried_succeeded_redone :
    ¬ ∀ (E : WorkflowPlanningService) (s : InMemoryWorkflowRepository) (calls : ℕ → WorkflowCall)
      (schedule : List (ℕ × EngineEnv)), E.AcceptsAll s → Sequential schedule →
        SucceededIsFinal (E.runCalls s calls schedule) := by
  intro hclaim
  have hfinal := hclaim .small (.holding readOnce) retryFirst
    (engineTurns 0 (.at 6 (.ok succeededResponse)) 32 ++
      engineTurns 1 (.at 8 (.ok succeededResponse)) 3) (acceptsAll_holding readOnce)
    (sequential_turns zero_le_one ..)
  generalize hrun : WorkflowPlanningService.small.runCalls _ _ _ = r at hfinal
  -- the last step is the first save of `retry_node`
  have hlast : (r.past.head?.map fun d => (d.before.hasSucceeded 5 "first",
      d.after.hasSucceeded 5 "first")) = some (true, false) := by
    subst hrun
    decide +kernel
  obtain ⟨d, hd, hsucceeded⟩ := Option.map_eq_some_iff.mp hlast
  obtain ⟨hbefore, hafter⟩ := Prod.mk.inj hsucceeded
  obtain ⟨older, hpast⟩ := List.head?_eq_some_iff.mp hd
  have hstep : After r d older := by rw [After, hpast]
  have hkept := (hfinal d older hstep 5 "first" hbefore d older hstep (List.suffix_refl _)).1
  rw [hafter] at hkept
  cases hkept

/-! ## Completed workflows -/

/-- Every node of a completed workflow is done. -/
def CompletedMeansDone (s : InMemoryWorkflowRepository) : Prop :=
  ∀ workflowId workflow, s.getWorkflow workflowId = some workflow →
    workflow.status = .completed → ∀ node ∈ workflow.nodes,
      node.executionStatus ∈ [WorkflowNodeStatus.succeeded, .skipped, .compensated]

/-- A call starts a run on a workflow that has a cancelled node, other than the node it
retries. -/
def startsCancelled (calls : ℕ → WorkflowCall) (d : EngineStep) : Bool :=
  match d.op with
  | .getWorkflow workflowId =>
      (d.before.getWorkflow workflowId).any fun workflow =>
        !(calls d.caller).cancels && (calls d.caller).starts workflow &&
          workflow.nodes.any fun node =>
            node.executionStatus = .cancelled && !(calls d.caller).retries node.id
  | _ => false

/-- No run starts on a workflow with cancelled nodes. -/
def StartsUncancelled (calls : ℕ → WorkflowCall) (r : EngineRun) : Prop :=
  ∀ d ∈ r.past, startsCancelled calls d = false

/-- What a save makes of a workflow that was not begun with cancelled nodes. -/
theorem Traced.completed_of_saves (h : Traced E calls s r) (hstarts : StartsUncancelled calls r)
    {c : ℕ} {workflow₀ workflow new : Workflow} (hopened : opened (own c r.past) = some workflow₀)
    (hsaves : Saves (calls c) workflow₀ workflow new) (hcompleted : new.status = .completed)
    {node : WorkflowNode} (hnode : node ∈ new.nodes) :
    node.executionStatus ∈ [WorkflowNodeStatus.succeeded, .skipped, .compensated] := by
  rcases hsaves.completed hcompleted node hnode with
    hdone | ⟨-, node₀, hmem, -, hcancelled, hretries⟩
  · have hdone' := mem_of_done hdone
    simp only [List.mem_cons, List.not_mem_nil, or_false] at hdone' ⊢
    tauto
  · obtain ⟨d, older, hd, rfl, hget, hread⟩ := h.opened_step hopened
    have hfalse := hstarts d (hd.mem (List.mem_cons_self ..))
    have hruns : (calls d.caller).cancels = false := by
      refine Bool.eq_false_iff.mpr fun hcancels => ?_
      rw [hsaves.cancelled.mpr hcancels] at hcompleted
      cases hcompleted
    have htrue : startsCancelled calls d = true := by
      rw [startsCancelled, hget]
      simp only [hread, Option.any_some, hruns, hsaves.started, Bool.not_false, Bool.true_and,
        List.any_eq_true, Bool.and_eq_true, decide_eq_true_eq]
      exact ⟨node₀, hmem, hcancelled, by simpa using hretries⟩
    rw [htrue] at hfalse
    cases hfalse

/-- In every history in which no run starts on a workflow with cancelled nodes, completed
workflows are done. -/
theorem runCalls_completedMeansDone (hs : E.AcceptsAll s) (calls : ℕ → WorkflowCall)
    (schedule : List (ℕ × EngineEnv))
    (hstarts : StartsUncancelled calls (E.runCalls s calls schedule)) :
    CompletedMeansDone (E.runCalls s calls schedule).state := by
  have htraced := runCalls_traced (E := E) hs.sound calls schedule
  refine htraced.induct (P := fun r => StartsUncancelled calls r → CompletedMeansDone r.state)
    (fun _ => ?_) (fun r c o env hr hevent ih hstarts => ?_) hstarts
  · intro workflowId workflow hstored hcompleted
    rw [(hs workflowId workflow hstored).2.sound.2] at hcompleted
    cases hcompleted
  · have hstarts' : StartsUncancelled calls r := fun d hd =>
      hstarts d (List.mem_cons_of_mem _ hd)
    cases hsaved : o.saved with
    | none =>
        rw [Run.perform_state, state_of_no_save hsaved]
        exact ih hstarts'
    | some new =>
        intro workflowId workflow hstored hcompleted node hnode
        rw [Run.perform_state, getWorkflow_of_saves hsaved] at hstored
        split at hstored
        · cases hstored
          obtain ⟨workflow₀, current, hopened, -, hsaves⟩ := hevent.saves new hsaved
          exact hr.completed_of_saves hstarts' hopened hsaves hcompleted hnode
        · exact ih hstarts' workflowId workflow hstored hcompleted node hnode

/-- A plan is cancelled, and then one of its nodes is retried. -/
def cancelThenRetry : ℕ → WorkflowCall
  | 0 => .cancel 5 "ENGINEER"
  | _ => .retryNode 5 "first" "ENGINEER" none

/-- A run starts without cancelled nodes, or `retry_node` leaves one of them cancelled. -/
theorem completed_runs :
    StartsUncancelled (fun _ => .execute 5 "ENGINEER" none)
      (WorkflowPlanningService.small.runCalls (.holding readOnce)
        (fun _ => .execute 5 "ENGINEER" none)
        (engineTurns 0 (.at 6 (.ok succeededResponse)) 32)) ∧
    ((WorkflowPlanningService.small.runCalls (.holding readTwice) cancelThenRetry
      (engineTurns 0 (.at 6 (.ok succeededResponse)) 3 ++
        engineTurns 1 (.at 8 (.ok succeededResponse)) 40)).state.getWorkflow 5).map (fun workflow =>
          (workflow.status, workflow.nodes.map (·.executionStatus))) =
      some (.completed, [.succeeded, .cancelled]) := by
  unfold StartsUncancelled
  decide +kernel

/-- A plan that is executed to its end is done when it is completed. -/
theorem runCalls_completedMeansDone_readOnce :
    CompletedMeansDone (WorkflowPlanningService.small.runCalls (.holding readOnce)
      (fun _ => .execute 5 "ENGINEER" none)
      (engineTurns 0 (.at 6 (.ok succeededResponse)) 32)).state :=
  runCalls_completedMeansDone (acceptsAll_holding readOnce) _ _
    completed_runs.1

/-- After `retry_node` on a cancelled workflow, the workflow is completed with a node that was
never executed. -/
theorem completed_with_cancelled_node :
    ¬ ∀ (E : WorkflowPlanningService) (s : InMemoryWorkflowRepository) (calls : ℕ → WorkflowCall)
      (schedule : List (ℕ × EngineEnv)), E.AcceptsAll s → Sequential schedule →
        CompletedMeansDone (E.runCalls s calls schedule).state := by
  intro hclaim
  have hdone := hclaim .small (.holding readTwice) cancelThenRetry
    (engineTurns 0 (.at 6 (.ok succeededResponse)) 3 ++
      engineTurns 1 (.at 8 (.ok succeededResponse)) 40) (acceptsAll_holding readTwice)
    (sequential_turns zero_le_one ..)
  generalize hrun : WorkflowPlanningService.small.runCalls _ _ _ = r at hdone
  have hstored : ((r.state.getWorkflow 5).map fun workflow =>
      (workflow.status, workflow.nodes.map (·.executionStatus))) =
        some (.completed, [.succeeded, .cancelled]) := by
    subst hrun
    exact completed_runs.2
  obtain ⟨workflow, hstored, hstatus⟩ := Option.map_eq_some_iff.mp hstored
  obtain ⟨hcompleted, hnodes⟩ := Prod.mk.inj hstatus
  have hmem : WorkflowNodeStatus.cancelled ∈ workflow.nodes.map (·.executionStatus) := by
    rw [hnodes]
    decide
  obtain ⟨node, hnode, hcancelled⟩ := List.mem_map.mp hmem
  have hnot := hdone 5 workflow hstored hcompleted node hnode
  rw [hcancelled] at hnot
  exact absurd hnot (by decide)

end McpOps
