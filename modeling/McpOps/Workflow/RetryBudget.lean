import McpOps.Workflow.Edges

/-!
# The retry budget of a node

A node is attempted at most once more than its `max_retries`, not counting what is answered
with a pending approval and the resubmission after it.  The engine compares attempts with
`max_retries` when a failed attempt is retried or a failed node resumed.  The law holds as long
as no call takes up a node without that comparison.

## Strategy

The number of attempts in the stored node is not what is bounded, since a resubmission after an
approval counts there as well.  So the attempts are counted along the history, those that were
answered otherwise than with a pending approval (`answersNode`), and `spent_le` brings `spent` down
to them.  `Budgeted` relates the count to the stored node: it is at most the number that the node
has, at most `max_retries + 1`, and at most `max_retries` while the node waits.

* `Traced.budgeted_opened`: what a call reads of a node that it takes up leaves an attempt.
* `Traced.budgeted_attempt`: an attempt uses up one of what is left.
* `Traced.budgeted_save`: a save keeps what the nodes tell, because the call has counted its own
  attempts (`countP_since_opening`).

`Traced.budgeted` is the induction.  A call may be abandoned between the attempt and the save after
it.  Then the node is found as it was saved before the attempt, with the attempt counted.
-/

namespace McpOps

open Proc

variable {E : WorkflowPlanningService} {calls : ℕ → WorkflowCall} {s : InMemoryWorkflowRepository}
  {r : EngineRun} {workflowId : UUID} {nodeId : String}

/-! ## Counting attempts -/

/-- A step hands the node its own tool. -/
def attemptsNode (workflowId : UUID) (nodeId : String) (d : EngineStep) : Bool :=
  (request? d).any fun request =>
    request.workflowId = some workflowId && request.workflowNodeId = some nodeId &&
      (d.before.getWorkflow workflowId).any fun workflow => workflow.nodes.any fun node =>
        node.id = nodeId && node.executionStatus = .running

/-- The last attempt at the node was answered with a pending approval. -/
def awaitsResubmission (workflowId : UUID) (nodeId : String) (older : List EngineStep) : Bool :=
  (older.find? (attemptsNode workflowId nodeId)).any answeredPending

/-- The attempts at the node, without those that are answered with a pending approval and
without the resubmissions after them. -/
def spent (workflowId : UUID) (nodeId : String) : List EngineStep → ℕ
  | [] => 0
  | d :: older =>
      spent workflowId nodeId older +
        if attemptsNode workflowId nodeId d && !answeredPending d &&
          !awaitsResubmission workflowId nodeId older then 1 else 0

/-- The attempts at every node of an accepted workflow stay within its budget. -/
def WithinBudget (s : InMemoryWorkflowRepository) (r : EngineRun) : Prop :=
  ∀ workflowId accepted, s.getWorkflow workflowId = some accepted → ∀ node ∈ accepted.nodes,
    spent workflowId node.id r.past ≤ node.maxRetries + 1

/-- A call reads a node that it takes up, although the node does not wait for an approval and
has no attempts left. -/
def takesUpSpent (E : WorkflowPlanningService) (calls : ℕ → WorkflowCall) (d : EngineStep) : Bool :=
  match d.op with
  | .getWorkflow workflowId =>
      (d.before.getWorkflow workflowId).any fun workflow =>
        (calls d.caller).starts workflow && workflow.nodes.any fun node =>
          E.takesUp (calls d.caller) node && node.executionStatus ≠ .waitingApproval &&
            node.maxRetries < node.attempts
  | _ => false

/-- No call takes up a node that has no attempts left. -/
def TakesUpUnspent (E : WorkflowPlanningService) (calls : ℕ → WorkflowCall)
    (r : EngineRun) : Prop :=
  ∀ d ∈ r.past, takesUpSpent E calls d = false

/-- An attempt at the node whose answer is not a pending approval. -/
def answersNode (workflowId : UUID) (nodeId : String) (d : EngineStep) : Bool :=
  attemptsNode workflowId nodeId d && !answeredPending d

/-- Without the resubmissions there are not more of them. -/
theorem spent_le (past : List EngineStep) :
    spent workflowId nodeId past ≤ past.countP (answersNode workflowId nodeId) := by
  induction past with
  | nil => exact le_rfl
  | cons d older ih =>
      rw [spent, List.countP_cons, answersNode]
      refine Nat.add_le_add ih ?_
      cases attemptsNode workflowId nodeId d <;> cases answeredPending d <;>
        cases awaitsResubmission workflowId nodeId older <;> decide

/-! ## The budget along a history -/

/-- What the stored node tells about the attempts at it. -/
def Budgeted (workflowId : UUID) (nodeId : String) (past : List EngineStep)
    (s : InMemoryWorkflowRepository) : Prop :=
  ∀ workflow, s.getWorkflow workflowId = some workflow → ∀ node ∈ workflow.nodes,
    node.id = nodeId →
      past.countP (answersNode workflowId nodeId) ≤ node.attempts ∧
      past.countP (answersNode workflowId nodeId) ≤ node.maxRetries + 1 ∧
      (node.executionStatus = .waitingApproval →
        past.countP (answersNode workflowId nodeId) ≤ node.maxRetries)

theorem attemptsNode_iff {d : EngineStep} : attemptsNode workflowId nodeId d ↔
    ∃ request, d.op = .callTool request ∧ request.workflowId = some workflowId ∧
      request.workflowNodeId = some nodeId ∧ ∃ workflow,
        d.before.getWorkflow workflowId = some workflow ∧ ∃ node ∈ workflow.nodes,
          node.id = nodeId ∧ node.executionStatus = .running := by
  simp only [attemptsNode, Option.any_eq_true, request?_eq_some, Bool.and_eq_true,
    decide_eq_true_eq,
    List.any_eq_true, and_assoc]

/-- A call that writes something else than it has read has started. -/
theorem started_of_touched {call : WorkflowCall} {done : List EngineEvent}
    {workflow₀ workflow : Workflow}
    (hok : AllOk E call done) (hopened : opened done = some workflow₀)
    (htouched : touched done = some workflow) : workflow = workflow₀ ∨ call.starts workflow₀ := by
  induction done with
  | nil => cases hopened
  | cons e earlier ih =>
      obtain ⟨o, a⟩ := e
      have hearlier : AllOk E call earlier := fun e' rest h =>
        hok e' rest (h.trans (List.suffix_cons _ _))
      -- a save tells that the call has started, from the workflow it has read
      have hsaved : ∀ new, o.saved = some new → EngineEvent.got ⟨o, a⟩ = none →
          workflow = workflow₀ ∨ call.starts workflow₀ := by
        intro new hnew hgot
        obtain ⟨workflow₁, _, hopened₁, -, hsaves⟩ :=
          (hok _ _ (List.suffix_refl _)).saves new hnew
        rw [opened, List.findSome?_cons, hgot] at hopened
        cases hopened.symm.trans hopened₁
        exact Or.inr hsaves.started
      cases o with
      | getWorkflow id =>
          cases a with
          | none => exact ih hearlier hopened htouched
          | some read =>
              cases hopened
              cases htouched
              exact Or.inl rfl
      | saveWorkflow new => exact hsaved new rfl rfl
      | saveWorkflowWithEvent new event => exact hsaved new rfl rfl
      | now => exact ih hearlier hopened htouched
      | uuid4 => exact ih hearlier hopened htouched
      | callTool request => exact ih hearlier hopened htouched

/-- What a call has answered since it has read its workflow is among what it has sent. -/
theorem countP_since_opening (hordered : Ordered r.past) {c : ℕ}
    (hlatest : ∀ d ∈ r.past, d.caller ≤ c)
    {d₀ : EngineStep} {older₀ : List EngineStep} (hd₀ : After r d₀ older₀) (hcaller : d₀.caller = c)
    (hget : d₀.op = .getWorkflow (calls c).workflowId)
    (hpending : ∀ handed ∈ sent (own c r.past), handed.About nodeId → handed.pending) :
    r.past.countP (answersNode workflowId nodeId) =
      older₀.countP (answersNode workflowId nodeId) := by
  obtain ⟨newer, hpast⟩ := hd₀
  have hopening : answersNode workflowId nodeId d₀ = false := by
    rw [answersNode, attemptsNode, request?, hget]
    rfl
  have hnewer : newer.countP (answersNode workflowId nodeId) = 0 := by
    refine List.countP_eq_zero.mpr fun d hd hanswers => ?_
    rw [answersNode, Bool.and_eq_true, Bool.not_eq_true'] at hanswers
    obtain ⟨request, hcall, -, hnode, -⟩ := attemptsNode_iff.mp hanswers.1
    -- the calls come one after the other
    have hsame : d.caller = c := by
      refine le_antisymm (hlatest d (hpast ▸ List.mem_append_left _ hd)) ?_
      have hpairs := hordered
      rw [Ordered, ← hpast, List.map_append, List.pairwise_append] at hpairs
      rw [← hcaller]
      exact hpairs.2.2 _ (List.mem_map_of_mem hd) _ (List.mem_map_of_mem (List.mem_cons_self ..))
    obtain ⟨after, before, hsplit⟩ := List.append_of_mem hd
    have hsuffix : d :: (before ++ d₀ :: older₀) <:+ r.past :=
      ⟨after, by rw [← hpast, hsplit]; simp⟩
    obtain ⟨answer, hevent⟩ := exists_event hcall
    have hown := own_suffix c hsuffix
    rw [← hsame, own_cons_self, hevent, hsame] at hown
    have hmem := hpending _ (mem_sent hown) hnode
    rw [answeredPending, hevent] at hanswers
    cases answer with
    | ok response =>
        have hfalse : decide (response.decision = .pendingApproval) = false := hanswers.2
        have htrue : decide (response.decision = .pendingApproval) = true := hmem
        rw [hfalse] at htrue
        cases htrue
    | error e => cases hmem
  rw [← hpast, List.countP_append, hnewer, List.countP_cons, hopening]
  simp

/-- What the node tells that a call has read and taken up. -/
theorem Traced.budgeted_opened (h : Traced E calls s r) (hordered : Ordered r.past)
    (hunspent : TakesUpUnspent E calls r)
    (hbefore : ∀ d older, After r d older → Budgeted workflowId nodeId older d.before) {c : ℕ}
    (hcall : (calls c).workflowId = workflowId) (hlatest : ∀ d ∈ r.past, d.caller ≤ c)
    (hpending : ∀ handed ∈ sent (own c r.past), handed.About nodeId → handed.pending)
    {workflow₀ : Workflow} (hopened : opened (own c r.past) = some workflow₀)
    (hstarted : (calls c).starts workflow₀) {node₀ : WorkflowNode}
    (hnode₀ : node₀ ∈ workflow₀.nodes)
    (hid : node₀.id = nodeId) (htakes : E.takesUp (calls c) node₀) :
    r.past.countP (answersNode workflowId nodeId) ≤ node₀.attempts ∧
      r.past.countP (answersNode workflowId nodeId) ≤ node₀.maxRetries := by
  obtain ⟨d₀, older₀, hd₀, hcaller, hget, hread⟩ := h.opened_step hopened
  rw [countP_since_opening hordered hlatest hd₀ hcaller hget hpending]
  obtain ⟨hattempts, -, hwaiting⟩ := hbefore d₀ older₀ hd₀ workflow₀
    (hcall ▸ hread) node₀ hnode₀ hid
  refine ⟨hattempts, ?_⟩
  by_cases hstatus : node₀.executionStatus = .waitingApproval
  · exact hwaiting hstatus
  · refine hattempts.trans (not_lt.mp fun hlt => ?_)
    have hfalse := hunspent d₀ (hd₀.mem (List.mem_cons_self ..))
    rw [takesUpSpent, hget, hcaller] at hfalse
    simp only [hread, Option.any_some, hstarted, Bool.true_and, List.any_eq_false,
      Bool.and_eq_true, decide_eq_true_eq, not_and] at hfalse
    exact hfalse node₀ hnode₀ ⟨htakes, hstatus⟩ hlt

/-- An attempt at the node uses up one of what is left to it. -/
theorem Traced.budgeted_attempt (h : Traced E calls s r) (hordered : Ordered r.past)
    (hunspent : TakesUpUnspent E calls r)
    (hbefore : ∀ d older, After r d older → Budgeted workflowId nodeId older d.before) {c : ℕ}
    (hlatest : ∀ d ∈ r.past, d.caller ≤ c) {request : GatewayToolRequest}
    (hworkflowId : request.workflowId = some workflowId)
    (hnodeId : request.workflowNodeId = some nodeId) {workflow₀ workflow : Workflow}
    (hopened : opened (own c r.past) = some workflow₀)
    (htouched : touched (own c r.past) = some workflow)
    (hsends : Sends E (calls c) workflow₀ workflow request (sent (own c r.past)))
    {stored : Workflow} (hstored : r.state.getWorkflow workflowId = some stored)
    {running : WorkflowNode} (hrunning : running ∈ stored.nodes) (hid : running.id = nodeId)
    (hstatus : running.executionStatus = .running) :
    r.past.countP (answersNode workflowId nodeId) + 1 ≤ running.attempts ∧
      r.past.countP (answersNode workflowId nodeId) ≤ running.maxRetries := by
  obtain ⟨-, node, hnode, hhands, -, node₀, hnode₀, htakes, hplan, hattempts, -⟩ := hsends
  obtain ⟨hnodeId', hworkflowId', -⟩ := hhands.request
  have hcurrent := h.stored_of_touched hordered hlatest htouched
  obtain ⟨hcall, hsound⟩ := h.sound_state _ _ hcurrent
  have hsame : (calls c).workflowId = workflowId := by
    rw [hworkflowId', hsound.workflowId node hnode, hcall] at hworkflowId
    exact Option.some.inj hworkflowId
  -- the node that is running is the one that is handed over
  rw [hsame, hstored] at hcurrent
  cases hcurrent
  have hnodeId : node.id = nodeId := Option.some.inj (hnodeId'.symm.trans hnodeId)
  have hnodes := List.inj_on_of_nodup_map hsound.nodup hnode hrunning (hnodeId.trans hid.symm)
  subst hnodes
  have hunsent : ∀ handed ∈ sent (own c r.past), handed.About nodeId → handed.pending := by
    rcases hhands with ⟨-, -, hunsent⟩ | ⟨hcompensating, -⟩
    · exact fun handed hmem habout => absurd (hid ▸ habout) (hunsent handed hmem)
    · cases hstatus.symm.trans hcompensating
  have hread := h.opened_step hopened
  obtain ⟨d₀, older₀, hd₀, -, -, hread⟩ := hread
  have hsound₀ := (h.sound_before hd₀ _ _ hread).2
  have hid₀ : node₀.id = nodeId := (id_of_plan hplan).symm.trans hid
  have hstarted : (calls c).starts workflow₀ := by
    refine (started_of_touched (h.allOk c) hopened htouched).resolve_left fun heq => ?_
    subst heq
    have hself := List.inj_on_of_nodup_map hsound₀.nodup hnode hnode₀ (hid.trans hid₀.symm)
    rw [hself] at hattempts
    omega
  obtain ⟨hle, hbudget⟩ := h.budgeted_opened hordered hunspent hbefore hsame hlatest hunsent hopened
    hstarted hnode₀ hid₀ htakes
  rw [maxRetries_of_plan hplan, hattempts]
  exact ⟨Nat.succ_le_succ hle, hbudget⟩

/-- A save keeps what the nodes tell. -/
theorem Traced.budgeted_save (h : Traced E calls s r) (hordered : Ordered r.past)
    (hunspent : TakesUpUnspent E calls r)
    (hbefore : ∀ d older, After r d older → Budgeted workflowId nodeId older d.before)
    (hnow : Budgeted workflowId nodeId r.past r.state) {c : ℕ}
    (hlatest : ∀ d ∈ r.past, d.caller ≤ c) {o : WorkflowOp} {answer : o.Ans}
    (hevent : EventOk E (calls c) ⟨o, answer⟩ (own c r.past)) {new : Workflow}
    (hsaved : o.saved = some new) (hnew : new.id = workflowId) {node : WorkflowNode}
    (hnode : node ∈ new.nodes) (hid : node.id = nodeId) :
    r.past.countP (answersNode workflowId nodeId) ≤ node.attempts ∧
      r.past.countP (answersNode workflowId nodeId) ≤ node.maxRetries + 1 ∧
      (node.executionStatus = .waitingApproval →
        r.past.countP (answersNode workflowId nodeId) ≤ node.maxRetries) := by
  obtain ⟨workflow₀, workflow, hopened, htouched, hsaves⟩ := hevent.saves new hsaved
  have hwaits := hevent.waits new hsaved workflow₀ workflow hopened htouched
  have hsame : (calls c).workflowId = workflowId := hsaves.id.symm.trans hnew
  have hstored := h.stored_of_touched hordered hlatest htouched
  rw [hsame] at hstored
  obtain ⟨i, hi, rfl⟩ := List.getElem_of_mem hnode
  have hi' : i < workflow.nodes.length := hsaves.nodes.length_eq.symm ▸ hi
  have hstep := hsaves.nodes.get hi' hi
  have hwait := hwaits.get hi' hi
  rw [List.get_eq_getElem, List.get_eq_getElem] at hstep hwait
  -- the node continues the one at its place, which kept the budget
  have hold := hnow workflow hstored _ (List.getElem_mem hi')
    ((id_of_plan hstep.plan).symm.trans hid)
  obtain ⟨hattempts, hbudget, hwaiting⟩ := hold
  rw [maxRetries_of_plan hstep.plan]
  refine ⟨hattempts.trans hstep.attempts, hbudget, fun hstatus => ?_⟩
  rcases hwait hstatus with hbefore' | ⟨hpending, node₀, hnode₀, htakes, hplan, -⟩
  · exact hwaiting hbefore'
  · -- a node that begins to wait was taken up with an attempt left
    rw [hid] at hpending
    have hbudget := (h.budgeted_opened hordered hunspent hbefore hsame hlatest hpending hopened
      hsaves.started hnode₀ ((id_of_plan hplan).symm.trans hid) htakes).2
    rwa [← maxRetries_of_plan hplan, maxRetries_of_plan hstep.plan] at hbudget

/-- The nodes tell of the attempts at them, at every moment. -/
theorem Traced.budgeted (h : Traced E calls s r) (hordered : Ordered r.past)
    (hunspent : TakesUpUnspent E calls r) (workflowId : UUID) (nodeId : String) :
    Budgeted workflowId nodeId r.past r.state ∧
      ∀ d older, After r d older → Budgeted workflowId nodeId older d.before := by
  refine h.induct (P := fun r => Ordered r.past → TakesUpUnspent E calls r →
    Budgeted workflowId nodeId r.past r.state ∧
      ∀ d older, After r d older → Budgeted workflowId nodeId older d.before) ?_ ?_ hordered
        hunspent
  · refine fun _ _ => ⟨fun _ _ _ _ _ => ⟨Nat.zero_le _, Nat.zero_le _, fun _ => Nat.zero_le _⟩,
      fun d older hd => absurd (List.eq_nil_of_suffix_nil hd) (List.cons_ne_nil _ _)⟩
  · intro r c o env hr hevent ih hordered hunspent
    obtain ⟨hfirst, hordered'⟩ := List.pairwise_cons.mp hordered
    have hlatest : ∀ d ∈ r.past, d.caller ≤ c := fun d hd => hfirst _ (List.mem_map_of_mem hd)
    have hunspent' : TakesUpUnspent E calls r := fun d hd => hunspent d (List.mem_cons_of_mem _ hd)
    obtain ⟨hnow, hbefore⟩ := ih hordered' hunspent'
    constructor
    · intro workflow hstored node hnode hid
      rw [Run.perform_state] at hstored
      rw [Run.perform_past, List.countP_cons]
      split
      · -- an attempt leaves the repository as it is
        rename_i hanswers
        rw [answersNode, Bool.and_eq_true] at hanswers
        obtain ⟨request, hcall, hworkflowId, hnodeId, stored, hstored', running, hrunning, hid',
          hstatus⟩ := attemptsNode_iff.mp hanswers.1
        change o = .callTool request at hcall
        subst hcall
        rw [state_of_no_save rfl] at hstored
        change r.state.getWorkflow workflowId = some stored at hstored'
        rw [hstored] at hstored'
        cases hstored'
        obtain ⟨workflow₀, current, hopened, htouched, hsends⟩ := hevent.sends request rfl
        obtain ⟨hattempts, hbudget⟩ := hr.budgeted_attempt hordered' hunspent' hbefore hlatest
          hworkflowId hnodeId hopened htouched hsends hstored hrunning hid' hstatus
        have hsame := List.inj_on_of_nodup_map (hr.sound_state _ _ hstored).2.nodup hnode hrunning
          (hid.trans hid'.symm)
        rw [hsame]
        refine ⟨hattempts, Nat.succ_le_succ hbudget, fun hwaiting => ?_⟩
        cases hstatus.symm.trans hwaiting
      · rw [Nat.add_zero]
        cases hsaved : o.saved with
        | none =>
            rw [state_of_no_save hsaved] at hstored
            exact hnow workflow hstored node hnode hid
        | some new =>
            rw [getWorkflow_of_saves hsaved] at hstored
            split at hstored
            · rename_i hnew
              -- the workflow that is saved is this one
              cases hstored
              exact hr.budgeted_save hordered' hunspent' hbefore hnow hlatest hevent hsaved
                hnew.symm
                hnode hid
            · exact hnow workflow hstored node hnode hid
    · -- the earlier states kept the budget already
      intro d older hd
      rcases List.suffix_cons_iff.mp hd with heq | hd
      · cases heq
        exact hnow
      · exact hbefore d older hd

/-- In every sequence of calls, some of them abandoned on the way, in which no call takes up a
node that has no attempts left, the attempts at every node stay within its budget. -/
theorem runCalls_withinBudget (hs : E.AcceptsAll s) (calls : ℕ → WorkflowCall)
    {schedule : List (ℕ × EngineEnv)} (hsequential : Sequential schedule)
    (hunspent : TakesUpUnspent E calls (E.runCalls s calls schedule)) :
    WithinBudget s (E.runCalls s calls schedule) := by
  have htraced := runCalls_traced (E := E) hs.sound calls schedule
  have hordered : Ordered (E.runCalls s calls schedule).past := runCalls_ordered hsequential
  intro workflowId accepted haccepted node hnode
  obtain ⟨workflow, hstored, hplans⟩ :=
    htraced.keepsPlans (htraced.unraced hordered) workflowId accepted haccepted
  obtain ⟨n, hn, hplan, -⟩ := hplans.exists_right hnode
  have hbudget := ((htraced.budgeted hordered hunspent workflowId node.id).1 workflow hstored n hn
    (id_of_plan hplan)).2.1
  rw [← maxRetries_of_plan hplan]
  exact (spent_le _).trans hbudget

/-- The gateway client raises as the ticket is opened, the call is abandoned before it has saved
that, and `resume` opens the ticket. -/
def abandonedTurns : List (ℕ × EngineEnv) :=
  engineTurns 0 (.at 6 (.error (.timeout "no answer"))) 22 ++
    engineTurns 1 (.at 30 (.ok succeededResponse)) 24

/-- What the client has raised counts as an attempt, and the second one is within the budget. -/
theorem runCalls_withinBudget_abandoned :
    spent 5 "ticket" (WorkflowPlanningService.small.runCalls (.holding ticketOnce)
      executeThenResume abandonedTurns).past = 2 ∧
    WithinBudget (.holding ticketOnce) (WorkflowPlanningService.small.runCalls
      (.holding ticketOnce) executeThenResume abandonedTurns) := by
  have hsequential : Sequential abandonedTurns := sequential_turns zero_le_one ..
  have hunspent : TakesUpUnspent .small executeThenResume (WorkflowPlanningService.small.runCalls
      (.holding ticketOnce) executeThenResume abandonedTurns) := by
    unfold TakesUpUnspent
    decide +kernel
  refine ⟨?_, runCalls_withinBudget (acceptsAll_holding ticketOnce) _ hsequential hunspent⟩
  decide +kernel

/-- A node that was left running is executed again, without an attempt left. -/
theorem running_attempted_again :
    ¬ ∀ (E : WorkflowPlanningService) (s : InMemoryWorkflowRepository) (calls : ℕ → WorkflowCall)
      (schedule : List (ℕ × EngineEnv)), E.AcceptsAll s → Sequential schedule →
        (∀ k workflowId nodeId role authToken,
          calls k ≠ .retryNode workflowId nodeId role authToken) →
          WithinBudget s (E.runCalls s calls schedule) := by
  intro hclaim
  have hwithin := hclaim .small (.holding readOnce) (fun _ => .execute 5 "ENGINEER" none)
    (engineTurns 0 (.at 6 (.ok succeededResponse)) 22 ++
      engineTurns 1 (.at 8 (.ok succeededResponse)) 22) (acceptsAll_holding readOnce)
    (sequential_turns zero_le_one ..) (fun _ _ _ _ _ h => by cases h)
  have haccepted : ((InMemoryWorkflowRepository.holding readOnce).getWorkflow 5).any
      fun workflow => workflow.nodes.any fun node => node.id = "first" ∧ node.maxRetries = 0 := by
    rfl
  obtain ⟨accepted, haccepted, hnodes⟩ := (Option.any_eq_true ..).mp haccepted
  obtain ⟨node, hnode, hfirst⟩ := List.any_eq_true.mp hnodes
  obtain ⟨hid, hretries⟩ := of_decide_eq_true hfirst
  have hspent := hwithin 5 accepted haccepted node hnode
  rw [hid, hretries] at hspent
  exact absurd hspent (by decide +kernel)

end McpOps
