import McpOps.Workflow.CallShape

/-!
# The shape of a whole call

The loop of `_run_workflow` takes the nodes one after another.  `Looping` is its invariant: the
nodes that are still to come are as they were when the run began, what the run counts as
completed is done, and every other node has come to rest.  With it every operation of the
engine has the shape of `EventOk`, and `Ended` says what it returns.

## Strategy

A turn of the loop stops the run or goes on (`TurnEnd`).  There is a lemma for each of its ends: the
run stops after the turn (`Looping.ended`), it goes on after the node has come to rest
(`Looping.advance`), or it passes over a node that had come to rest before (`Looping.pass`).

* `runReadyNode_yields` and `runNode_yields` follow the branches of a turn.  A node is taken up with
  `Looping.taking`, which is where the dependencies come in: what the run counts as completed is
  done.
* `runNodes_yields` is the induction over the nodes to come.
* An operation reads the workflow, prepares its nodes (`Prepared`) and runs.  Its first save is the
  one that may rewrite nodes without attempting them, and `nodeSteps_of_prepared` justifies it.

`serve_yields` collects the operations.
-/

namespace McpOps

open Proc

namespace WorkflowPlanningService

/-! ## Nodes before, during and after a run -/

/-- A node as the loop of a call finds it, and the node that the call has read. -/
structure Prepared (E : WorkflowPlanningService) (call : WorkflowCall)
    (node₀ node : WorkflowNode) : Prop where
  plan : node.plan = node₀.plan
  attempts : node.attempts = node₀.attempts
  approvalId : node.approvalId = node₀.approvalId
  takenUp : node.executionStatus.settled = false → E.takesUp call node₀
  cancelled : node.executionStatus = .cancelled →
    node₀.executionStatus = .cancelled ∧ ¬ call.retries node₀.id
  done : node₀.executionStatus.done → node = node₀ ∨ call.retries node₀.id
  busy : node.executionStatus.busy → node = node₀
  references : node.argumentReferences ⊆ node₀.argumentReferences

/-- A node that the loop is done with. -/
def Processed (call : WorkflowCall) (workflow₀ : Workflow) (node : WorkflowNode) : Prop :=
  node.executionStatus.settled ∧ (node.executionStatus = .cancelled → ∃ node₀ ∈ workflow₀.nodes,
    node₀.id = node.id ∧ node₀.executionStatus = .cancelled ∧ ¬ call.retries node₀.id)

/-- The loop, with the nodes `todo` still to come. -/
structure Looping (E : WorkflowPlanningService) (call : WorkflowCall) (v : View)
    (todo : List WorkflowNode) (state : RunState) : Prop where
  running : call.cancels = false
  started : call.starts v.opened
  updated : state.updated = v.current
  id : v.current.id = call.workflowId
  live : v.current.status ≠ .cancelled
  unfinished : v.current.status ≠ .completed
  sound : v.current.Sound
  nodup : (todo.map (·.id)).Nodup
  mem : ∀ node ∈ todo, node ∈ v.current.nodes
  unsent : ∀ node ∈ todo, ∀ handed ∈ v.sent, ¬ handed.About node.id
  prepared : ∀ node ∈ todo, ∃ node₀ ∈ v.opened.nodes, Prepared E call node₀ node
  completed : ∀ id ∈ state.completed, ∃ d ∈ v.current.nodes, d.id = id ∧ d.executionStatus.done
  processed : ∀ node ∈ v.current.nodes, node ∈ todo ∨ Processed call v.opened node

/-- What a call returns: no node is being worked on, unless it was so before and the call has
not come to it. -/
def Ended (E : WorkflowPlanningService) (call : WorkflowCall) (workflow₀ out : Workflow)
    (done : List EngineEvent) : Prop :=
  (∃ calls, At E call { opened := workflow₀, current := out, sent := calls } done) ∧
    ∀ node ∈ out.nodes, node.executionStatus.busy → node ∈ workflow₀.nodes

/-- How the turn of a node ends, with the nodes `todo` to come after it. -/
def TurnEnd (E : WorkflowPlanningService) (call : WorkflowCall) (workflow₀ : Workflow)
    (todo : List WorkflowNode) : Turn → List EngineEvent → Prop
  | .stop out, done => Ended E call workflow₀ out done
  | .go state, done => ∃ v : View, v.opened = workflow₀ ∧ At E call v done ∧
      Looping E call v todo state

section Loop

variable {E : WorkflowPlanningService} {call : WorkflowCall} {v : View} {done : List EngineEvent}
  {node m : WorkflowNode} {todo : List WorkflowNode} {state : RunState} {out : Workflow}

theorem busy_of_settled {status : WorkflowNodeStatus} (h : status.settled) :
    status.busy = false := by
  cases status with
  | running => cases h
  | ready => cases h
  | compensating => cases h
  | _ => rfl

theorem done_of_settled {status : WorkflowNodeStatus} (h : status.settled)
    (hfailed : status ∉ [WorkflowNodeStatus.failed, .denied, .blocked]) :
    status.done ∨ status = .cancelled := by
  cases status <;> simp_all [WorkflowNodeStatus.settled, WorkflowNodeStatus.done]

theorem done_of_unsettled {status : WorkflowNodeStatus} (h : status.settled = false) :
    status.done = false := by
  cases hdone : status.done with
  | false => rfl
  | true => rw [WorkflowNodeStatus.settled_of_done hdone] at h; cases h

theorem Looping.based (h : Looping E call v (node :: todo) state) :
    Based call v.opened v.current node :=
  ⟨h.running, h.started, h.id, h.sound, h.mem node (List.mem_cons_self ..)⟩

theorem Looping.turning (h : Looping E call v (node :: todo) state) :
    Turning v.current node node v.current := .start h.based h.live h.unfinished

/-- A node whose dependencies are completed may be taken up. -/
theorem Looping.taking (h : Looping E call v (node :: todo) state)
    (hunsettled : node.executionStatus.settled = false)
    (hready : node.dependsOn.all fun dependency => dependency ∈ state.completed) :
    Taking E call v v.current node where
  toBased := h.based
  unsettled := hunsettled
  unsent := h.unsent node (List.mem_cons_self ..)
  ready id hid := h.completed id (of_decide_eq_true (List.all_eq_true.mp hready id hid))
  taken := by
    obtain ⟨node₀, hmem, hprepared⟩ := h.prepared node (List.mem_cons_self ..)
    exact ⟨node₀, hmem, hprepared.takenUp hunsettled, hprepared.plan, hprepared.attempts,
      hprepared.approvalId⟩

/-- The nodes other than the one that has its turn stay as they are. -/
theorem Looping.rest (h : Looping E call v (node :: todo) state)
    (hturn : Turning v.current node m out) {n : WorkflowNode} (hn : n ∈ out.nodes) :
    n = m ∨ n ∈ v.current.nodes ∧ n.id ≠ node.id ∧ (n ∈ todo ∨ Processed call v.opened n) := by
  rw [hturn.nodes, mem_putNode, id_of_plan hturn.plan] at hn
  rcases hn with ⟨heq, -⟩ | ⟨hmem, hne⟩
  · exact Or.inl heq
  · refine Or.inr ⟨hmem, hne, ?_⟩
    rcases h.processed n hmem with htodo | hprocessed
    · rcases List.mem_cons.mp htodo with rfl | htodo
      · exact absurd rfl hne
      · exact Or.inl htodo
    · exact Or.inr hprocessed

/-- When a run stops after the turn of a node, the nodes it has worked on have come to rest. -/
theorem Looping.ended (h : Looping E call v (node :: todo) state)
    (hturn : Turning v.current node m out) (hm : m.executionStatus.busy = false)
    {calls : List Handed}
    (hat : At E call { opened := v.opened, current := out, sent := calls } done) :
    Ended E call v.opened out done := by
  refine ⟨⟨calls, hat⟩, fun n hn hbusy => ?_⟩
  rcases h.rest hturn hn with rfl | ⟨-, -, htodo | hprocessed⟩
  · rw [hm] at hbusy
    cases hbusy
  · obtain ⟨node₀, hmem, hprepared⟩ := h.prepared n (List.mem_cons_of_mem _ htodo)
    rw [hprepared.busy hbusy]
    exact hmem
  · rw [busy_of_settled hprocessed.1] at hbusy
    cases hbusy

/-- The loop goes on after the turn of a node that has come to rest. -/
theorem Looping.advance (h : Looping E call v (node :: todo) state)
    (hturn : Turning v.current node m out) {calls : List Handed}
    (hat : At E call { opened := v.opened, current := out, sent := calls } done)
    (hsent : ∀ handed ∈ calls, handed ∈ v.sent ∨ handed.About node.id)
    (hsettled : m.executionStatus.settled) (hcancelled : m.executionStatus ≠ .cancelled)
    {next : RunState} (hupdated : next.updated = out)
    (hcompleted : ∀ id ∈ next.completed, id ∈ state.completed ∨
      id = node.id ∧ m.executionStatus.done) (hunsettled : node.executionStatus.settled = false) :
    TurnEnd E call v.opened todo (.go next) done := by
  obtain ⟨hnotMem, hnodup⟩ := List.nodup_cons.mp h.nodup
  have hne : ∀ n ∈ todo, n.id ≠ node.id := fun n hn hid =>
    hnotMem (List.mem_map.mpr ⟨n, hn, hid⟩)
  refine ⟨{ opened := v.opened, current := out, sent := calls }, rfl, hat, ?_⟩
  refine
    { running := h.running
      started := h.started
      updated := hupdated
      id := hturn.id.trans h.id
      live := hturn.live
      unfinished := hturn.unfinished
      sound := hturn.sound h.based
      nodup := hnodup
      mem := fun n hn => ?_
      unsent := fun n hn handed hmem hid => ?_
      prepared := fun n hn => h.prepared n (List.mem_cons_of_mem _ hn)
      completed := fun id hid => ?_
      processed := fun n hn => ?_ }
  · rw [hturn.nodes, mem_putNode, id_of_plan hturn.plan]
    exact Or.inr ⟨h.mem n (List.mem_cons_of_mem _ hn), hne n hn⟩
  · rcases hsent handed hmem with hmem | habout
    · exact h.unsent n (List.mem_cons_of_mem _ hn) handed hmem hid
    · exact hne n hn (Option.some.inj (hid.symm.trans habout))
  · rcases hcompleted id hid with hid | ⟨rfl, hdone⟩
    · obtain ⟨d, hd, rfl, hdone⟩ := h.completed id hid
      refine ⟨d, ?_, rfl, hdone⟩
      rw [hturn.nodes, mem_putNode, id_of_plan hturn.plan]
      refine Or.inr ⟨hd, fun hsame => ?_⟩
      -- the node whose turn it was had not come to rest before
      have hnode := List.inj_on_of_nodup_map h.sound.nodup hd h.based.mem hsame
      rw [hnode, done_of_unsettled hunsettled] at hdone
      cases hdone
    · exact ⟨m, hturn.mem h.based, id_of_plan hturn.plan, hdone⟩
  · rcases h.rest hturn hn with rfl | ⟨-, -, htodo | hprocessed⟩
    · exact Or.inr ⟨hsettled, fun hc => absurd hc hcancelled⟩
    · exact Or.inl htodo
    · exact Or.inr hprocessed

/-- The loop passes over a node that has come to rest before. -/
theorem Looping.pass (h : Looping E call v (node :: todo) state) (hat : At E call v done)
    (hsettled : node.executionStatus.settled) : TurnEnd E call v.opened todo (.go state) done := by
  refine ⟨v, rfl, hat, { h with
    nodup := (List.nodup_cons.mp h.nodup).2
    mem := fun n hn => h.mem n (List.mem_cons_of_mem _ hn)
    unsent := fun n hn => h.unsent n (List.mem_cons_of_mem _ hn)
    prepared := fun n hn => h.prepared n (List.mem_cons_of_mem _ hn)
    processed := fun n hn => ?_ }⟩
  rcases h.processed n hn with htodo | hprocessed
  · rcases List.mem_cons.mp htodo with rfl | htodo
    · refine Or.inr ⟨hsettled, fun hcancelled => ?_⟩
      obtain ⟨node₀, hmem, hprepared⟩ := h.prepared n (List.mem_cons_self ..)
      exact ⟨node₀, hmem, (id_of_plan hprepared.plan).symm, hprepared.cancelled hcancelled⟩
    · exact Or.inl htodo
  · exact Or.inr hprocessed

end Loop

/-! ## The turn of a node -/

section TurnOf

variable {E : WorkflowPlanningService} {call : WorkflowCall} {v : View} {done : List EngineEvent}
  {node m : WorkflowNode} {todo : List WorkflowNode} {state : RunState}

/-- A run finishes: it is completed only when every node has come to rest without failing. -/
theorem finishWorkflow_yields (hrunning : call.cancels = false) (hstarted : call.starts v.opened)
    (h : At E call v done) (hid : v.current.id = call.workflowId)
    (hsound : v.current.Sound)
    (hprocessed : (∀ node ∈ v.current.nodes,
        node.executionStatus ∉ [WorkflowNodeStatus.failed, .denied, .blocked]) →
      ∀ node ∈ v.current.nodes, Processed call v.opened node) {role : String} :
    Yields E call (fun out done => At E call { v with current := out } done ∧
      out.nodes = v.current.nodes) (finishWorkflow v.current role) done := by
  refine yields_ambient (uses_auditEvent ..) h fun event done _ h => ?_
  refine Yields.imp (checkpoint_yields h ⟨hid, ⟨hsound.nodup, hsound.workflowId⟩,
    Nat.lt_succ_self _, hstarted, ⟨fun hc => ?_, fun hc => ?_⟩,
    List.forall₂_same.mpr fun node _ => .refl node, fun hc n hn => ?_⟩
    (waits_refl _)) h.ok
    fun out done ⟨hout, h⟩ => ⟨h, by rw [hout]⟩
  · -- a finished workflow is never cancelled by the run itself
    dsimp only at hc
    split at hc <;> cases hc
  · rw [hrunning] at hc
    cases hc
  · dsimp only at hc
    split at hc
    · cases hc
    · rename_i hfailed
      -- a workflow is completed only if no node has failed, so every node has been processed
      have hnone : ∀ node ∈ v.current.nodes,
          node.executionStatus ∉ [WorkflowNodeStatus.failed, .denied, .blocked] := by
        intro node hnode hmem
        exact hfailed (List.any_eq_true.mpr ⟨node, hnode, decide_eq_true hmem⟩)
      obtain ⟨hsettled, hcancelled⟩ := hprocessed hnone n hn
      rcases done_of_settled hsettled (hnone n hn) with hdone | hc
      · exact Or.inl hdone
      · exact Or.inr ⟨hc, hcancelled hc⟩

/-- A run that finishes because of the node that has its turn. -/
theorem finishTurn_yields (h : Looping E call v (node :: todo) state) {current : Workflow}
    {calls : List Handed}
    (hat : At E call { opened := v.opened, current, sent := calls } done)
    (hturn : Turning v.current node m current)
    (hfailed : m.executionStatus = .failed ∨ m.executionStatus = .blocked) {role : String} :
    Yields E call (TurnEnd E call v.opened todo)
      (do let finished ← finishWorkflow current role; pure (.stop finished)) done := by
  have hbusy : m.executionStatus.busy = false := by
    rcases hfailed with hfailed | hfailed <;> rw [hfailed] <;> rfl
  refine Yields.bind (Yields.imp (finishWorkflow_yields (v := ⟨v.opened, current, calls⟩) h.running
    h.started hat (hturn.id.trans h.id) (hturn.sound h.based) fun hnone => ?_) hat.ok
    fun out done hout => yields_pure ?_) hat.ok
  · refine absurd (hnone m (hturn.mem h.based)) (not_not.mpr ?_)
    rcases hfailed with hfailed | hfailed <;> rw [hfailed] <;> decide
  · refine ⟨⟨_, hout.1⟩, fun n hn => ?_⟩
    rw [hout.2] at hn
    exact (h.ended hturn hbusy hat).2 n hn

/-- What has become of a node that was attempted decides how its turn ends. -/
theorem afterExecution_yields (h : Looping E call v (node :: todo) state)
    (hunsettled : node.executionStatus.settled = false) {current : Workflow}
    (hturned : Turned E call v v.current node attemptedStatuses current done) {role : String}
    {nodeOutputs : NodeOutputs} :
    Yields E call (TurnEnd E call v.opened todo)
      (afterExecution node role state current nodeOutputs) done := by
  obtain ⟨m, calls, hat, hturn, hsent, hstatus⟩ := hturned
  -- the node is read back from the workflow that the attempt has saved
  have hget := Workflow.get?_nodesById (hturn.sound h.based).nodup (hturn.mem h.based)
  rw [id_of_plan hturn.plan] at hget
  unfold afterExecution
  rw [hget, Option.getD_some]
  dsimp only
  split
  · rename_i hwaiting
    exact yields_pure (h.ended hturn (by rw [hwaiting]; rfl) hat)
  · split
    · rename_i hretrying
      exact yields_pure (h.ended hturn (by rw [hretrying]; rfl) hat)
    · split
      · exact finishTurn_yields h hat hturn ‹_›
      · rename_i hwaiting hretrying hfailed
        -- otherwise the attempt is done, and the loop goes on
        have hdone : m.executionStatus.done := by
          simp only [attemptedStatuses, List.mem_cons, List.not_mem_nil, or_false] at hstatus
          rcases hstatus with hs | hs | hs | hs | hs
          · exact absurd hs hwaiting
          · rw [hs]; rfl
          · exact absurd hs hretrying
          · rw [hs]; rfl
          · exact absurd (Or.inl hs) hfailed
        refine yields_pure (h.advance hturn hat hsent (WorkflowNodeStatus.settled_of_done hdone) ?_
          rfl (fun id hid => ?_) hunsettled)
        · intro hc
          rw [hc] at hdone
          cases hdone
        · rcases List.mem_cons.mp hid with rfl | hid
          · exact Or.inr ⟨rfl, hdone⟩
          · exact Or.inl hid

/-- A node that is settled without being attempted. -/
theorem settleNode_yields (h : Looping E call v (node :: todo) state)
    (hunsettled : node.executionStatus.settled = false) {current : Workflow}
    (hat : At E call { v with current } done) (hturn : Turning v.current node m current)
    (hdone : m.executionStatus.done = false) {m' : WorkflowNode} (hplan : m'.plan = node.plan)
    (hattempts : m.attempts ≤ m'.attempts)
    (hreferences : m'.argumentReferences ⊆ m.argumentReferences)
    (hsettled : m'.executionStatus.settled)
    (hcancelled : m'.executionStatus ≠ .cancelled) {eventType : String} :
    Yields E call (TurnEnd E call v.opened todo)
      (do let updated ← saveNode current m' eventType; pure (.go { state with updated })) done := by
  have hwaiting : m'.executionStatus ≠ .waitingApproval := fun h => by
    rw [h] at hsettled
    cases hsettled
  refine Yields.bind (Yields.imp (saveNode_yields' hat h.based hturn hplan hattempts hreferences
    hdone hwaiting) hat.ok fun out done hout => yields_pure ?_) hat.ok
  exact h.advance hout.2 hout.1 (fun _ he => Or.inl he) hsettled hcancelled rfl
    (fun _ hid => Or.inl hid) hunsettled

/-- The turn of a node that is ready. -/
theorem runReadyNode_yields (h : Looping E call v (node :: todo) state)
    (hunsettled : node.executionStatus.settled = false)
    (hready : node.dependsOn.all fun dependency => dependency ∈ state.completed)
    (hat : At E call v done) {workflow : Workflow} {role : String} {authToken : Option String} :
    Yields E call (TurnEnd E call v.opened todo)
      (E.runReadyNode workflow node role authToken state) done := by
  have ht := h.taking hunsettled hready
  have hdone := done_of_unsettled hunsettled
  unfold runReadyNode
  rw [h.updated]
  refine Yields.bind (Yields.imp (saveNode_yields' (n := readyNode node) hat h.based h.turning rfl
    le_rfl (List.Subset.refl _) hdone fun h => by cases h) hat.ok
      fun current done hout => ?_) hat.ok
  obtain ⟨hat, hturn⟩ := hout
  -- the event of a queued execution changes the version only
  have hannounce : Yields E call (fun out done => At E call { v with current := out } done ∧
      Turning v.current node (readyNode node) out)
      (announceQueued current (readyNode node)) done := by
    unfold announceQueued
    split
    · have hsound := hturn.sound h.based
      refine Yields.imp (checkpoint_yields hat ⟨hturn.id.trans h.id, ⟨hsound.nodup,
        hsound.workflowId⟩, Nat.lt_succ_self _, h.started, ⟨fun hc => absurd hc hturn.live,
        fun hc => ?_⟩, List.forall₂_same.mpr fun node _ => .refl node,
        fun hc => absurd hc hturn.unfinished⟩
        (waits_refl _)) hat.ok ?_
      · rw [h.running] at hc
        cases hc
      · rintro out done ⟨rfl, hat⟩
        exact ⟨hat, hturn.id, hturn.live, hturn.unfinished, hturn.nodes, hturn.plan⟩
    · exact yields_pure ⟨hat, hturn⟩
  refine Yields.bind (Yields.imp hannounce hat.ok fun current done hout => ?_) hat.ok
  obtain ⟨hat, hturn⟩ := hout
  refine yields_ambient uses_timeNow hat fun now done _ hat => ?_
  refine yields_ambient (uses_ofExcept _) hat fun evaluation done _ hat => ?_
  dsimp only
  generalize hpolicy : transformNodeWithPolicy (readyNode node) evaluation
    (E.toolRegistry.lookup node.toolName) = policyNode
  have hpolicy' : policyNode.plan = node.plan ∧ policyNode.attempts = node.attempts ∧
      policyNode.approvalId = node.approvalId ∧
      policyNode.argumentReferences = node.argumentReferences ∧
      policyNode.executionStatus ∈ [WorkflowNodeStatus.denied, .blocked, .ready] := by
    subst hpolicy
    refine ⟨rfl, rfl, rfl, rfl, ?_⟩
    show (if _ then _ else _ : WorkflowNodeStatus) ∈ _
    split
    · exact List.mem_cons_self ..
    · split
      · exact List.mem_cons_of_mem _ (List.mem_cons_self ..)
      · exact List.mem_cons_of_mem _ (List.mem_cons_of_mem _ (List.mem_cons_self ..))
  obtain ⟨hplan, hattempts, happroval, hreferences, hstatus⟩ := hpolicy'
  have hquiet : policyNode.executionStatus.done = false ∧
      policyNode.executionStatus ≠ .waitingApproval := by
    simp only [List.mem_cons, List.not_mem_nil, or_false] at hstatus
    rcases hstatus with h | h | h <;> rw [h] <;> decide
  obtain ⟨hdone, hwaiting⟩ := hquiet
  refine Yields.bind (Yields.imp (saveNode_yields' (n := policyNode) hat h.based hturn hplan
    hattempts.ge (fun _ h => hreferences ▸ h) rfl hwaiting) hat.ok
      fun current done hout => ?_) hat.ok
  obtain ⟨hat, hturn⟩ := hout
  split
  · refine yields_ambient uses_timeNow hat fun completedAt done _ hat => ?_
    refine settleNode_yields h hunsettled hat hturn hdone ?_ ?_ ?_ ?_ ?_
    · exact hplan
    · exact le_rfl
    · exact List.Subset.refl _
    · rfl
    · exact fun h => by cases h
  · split
    · refine settleNode_yields h hunsettled hat hturn hdone ?_ ?_ ?_ ?_ ?_
      · exact hplan
      · exact le_rfl
      · exact List.Subset.refl _
      · rfl
      · exact fun h => by cases h
    · refine Yields.bind (Yields.imp
        (executeNodeWithRecovery_yields ht hat hturn hattempts happroval
        hdone) hat.ok ?_) hat.ok
      rintro ⟨current, nodeOutputs⟩ done hturned
      exact afterExecution_yields h hunsettled hturned

/-- The turn of a node. -/
theorem runNode_yields (h : Looping E call v (node :: todo) state) (hat : At E call v done)
    {workflow : Workflow} {role : String} {authToken : Option String} :
    Yields E call (TurnEnd E call v.opened todo)
      (E.runNode workflow node role authToken state) done := by
  refine yields_ambient (uses_mayStart node) hat fun due done hdue hat => ?_
  split
  · -- only a node that is to be retried can be early
    rename_i hearly
    have hretrying : node.executionStatus = .retrying := by
      by_contra hne
      rw [mayStart, if_neg hne] at hdue
      exact Bool.noConfusion (hdue.trans hearly)
    refine yields_pure ?_
    rw [h.updated]
    exact h.ended h.turning (by rw [hretrying]; rfl) hat
  · split
    · exact yields_pure (h.pass hat ‹_›)
    · rename_i hsettled
      have hunsettled := Bool.eq_false_iff.mpr hsettled
      have hdone := done_of_unsettled hunsettled
      split
      · -- a dependency has not been completed, so the node is blocked
        rw [h.updated]
        refine settleNode_yields h hunsettled hat h.turning hdone ?_ ?_ ?_ ?_ ?_
        · rfl
        · exact le_rfl
        · exact List.Subset.refl _
        · rfl
        · exact fun h => by cases h
      · rename_i hready
        unfold runConditionedNode
        split
        · exact yields_raise
        · -- evaluating the condition has failed: the node is blocked, and the turn ends the run
          rw [h.updated]
          refine Yields.bind (Yields.imp (saveNode_yields' hat h.based h.turning rfl le_rfl
            (List.Subset.refl _) hdone fun h => by cases h) hat.ok fun out done hout => ?_) hat.ok
          exact finishTurn_yields h hout.1 hout.2 (Or.inr rfl)
        · -- the condition does not hold, so the node is skipped
          rw [h.updated]
          refine settleNode_yields h hunsettled hat h.turning hdone ?_ ?_ ?_ ?_ ?_
          · rfl
          · exact le_rfl
          · exact List.Subset.refl _
          · rfl
          · exact fun h => by cases h
        · exact runReadyNode_yields h hunsettled (not_not.mp hready) hat

/-- The loop, to its end. -/
theorem runNodes_yields (h : Looping E call v todo state) (hat : At E call v done)
    {workflow : Workflow} {role : String} {authToken : Option String} :
    Yields E call (Ended E call v.opened)
      (E.runNodes workflow role authToken todo state) done := by
  induction todo generalizing v state done with
  | nil =>
      have hprocessed : ∀ node ∈ v.current.nodes, Processed call v.opened node := fun n hn =>
        (h.processed n hn).resolve_left (by simp)
      rw [runNodes, h.updated]
      refine Yields.imp (finishWorkflow_yields h.running h.started hat h.id h.sound
        fun _ => hprocessed) hat.ok fun out done hout => ⟨⟨_, hout.1⟩, fun n hn hbusy => ?_⟩
      rw [hout.2] at hn
      rw [busy_of_settled (hprocessed n hn).1] at hbusy
      cases hbusy
  | cons node rest ih =>
      refine Yields.bind (Yields.imp (runNode_yields h hat) hat.ok ?_) hat.ok
      rintro (out | state) done hend
      · exact yields_pure hend
      · obtain ⟨w, hopened, hat, h⟩ := hend
        rw [← hopened]
        exact ih h hat

end TurnOf

/-! ## The operations -/

section Operations

variable {E : WorkflowPlanningService} {call : WorkflowCall} {v : View} {done : List EngineEvent}

/-- A run of a workflow whose nodes have been prepared. -/
theorem runWorkflow_yields (hrunning : call.cancels = false) (hstarted : call.starts v.opened)
    (h : At E call v done) (hsent : v.sent = []) (hid : v.current.id = call.workflowId)
    (hsound : v.current.Sound)
    (hprepared : List.Forall₂ (Prepared E call) v.opened.nodes v.current.nodes)
    {role : String} {resumed : Bool} {authToken : Option String} :
    Yields E call (Ended E call v.opened)
      (E.runWorkflow v.current role resumed authToken) done := by
  refine yields_ambient (uses_auditEvent ..) h fun event done _ h => ?_
  -- the first save of a run: the workflow is running, and its nodes are as they were prepared
  refine Yields.bind (Yields.imp (checkpoint_yields h ⟨hid, ⟨hsound.nodup, hsound.workflowId⟩, ?_,
    hstarted, ⟨(fun hc => by cases hc), fun hc => ?_⟩,
    List.forall₂_same.mpr fun node _ => .refl node, (fun hc => by cases hc)⟩ (waits_refl _)) h.ok
      ?_) h.ok
  · exact Nat.lt_add_right 1 (Nat.lt_succ_self _)
  · rw [hrunning] at hc
    cases hc
  · rintro updated done ⟨rfl, h⟩
    have hperm := topologicalNodes_perm hsound.nodup
    refine runNodes_yields (v := { v with current := _ }) ?_ h
    -- the invariant of the loop at its beginning, with every node still to come
    refine
      { running := hrunning
        started := hstarted
        updated := rfl
        id := hid
        live := fun h => by cases h
        unfinished := fun h => by cases h
        sound := ⟨hsound.nodup, hsound.workflowId⟩
        nodup := (hperm.map _).nodup_iff.mpr hsound.nodup
        mem := fun node hnode => hperm.mem_iff.mp hnode
        unsent := fun node _ e he => ?_
        prepared := fun node hnode => ?_
        completed := fun id hmem => ?_
        processed := fun node hnode => Or.inl (hperm.mem_iff.mpr hnode) }
    · rw [show v.sent = [] from hsent] at he
      cases he
    · obtain ⟨i, hi, rfl⟩ := List.getElem_of_mem (hperm.mem_iff.mp hnode)
      have hi₀ : i < v.opened.nodes.length := hprepared.length_eq ▸ hi
      exact ⟨_, List.getElem_mem hi₀, hprepared.get hi₀ hi⟩
    · obtain ⟨d, hd, rfl⟩ := List.mem_map.mp hmem
      obtain ⟨hd, hdone⟩ := List.mem_filter.mp hd
      exact ⟨d, hd, rfl, hdone⟩

/-- The nodes that are prepared, as the first save of a call makes them. -/
theorem nodeSteps_of_prepared {workflow₀ workflow : Workflow} {nodes nodes' : List WorkflowNode}
    (hfirst : workflow = workflow₀) (h : List.Forall₂ (Prepared E call) nodes nodes') :
    List.Forall₂ (NodeStep call (workflow = workflow₀)) nodes nodes' :=
  h.imp fun _ _ hnode => ⟨hnode.plan, hnode.attempts.ge, fun hdone =>
    (hnode.done hdone).imp id fun hretries => ⟨hfirst, hretries⟩, hnode.references⟩

theorem samePlans_of_prepared {nodes nodes' : List WorkflowNode}
    (h : List.Forall₂ (Prepared E call) nodes nodes') : SamePlans nodes nodes' :=
  h.imp fun _ _ hnode => hnode.plan

/-- What an operation reads is all that it knows. -/
theorem getWorkflow_yields :
    Yields E call (fun workflow done => workflow.id = call.workflowId ∧ workflow.Sound ∧
      At E call { opened := workflow, current := workflow, sent := [] } done)
      (getWorkflow call.workflowId) [] := by
  refine yields_op fun answer hvalid => ?_
  have hok : AllOk E call [⟨.getWorkflow call.workflowId, answer⟩] :=
    AllOk.start.cons ⟨fun id hid => by cases hid; exact ⟨rfl, rfl⟩,
      (fun _ h => by cases h), (fun _ h => by cases h), (fun _ h => by cases h)⟩
  refine ⟨hok, ?_⟩
  cases answer with
  | none => exact yields_raise
  | some workflow =>
      obtain ⟨hid, hsound⟩ := hvalid workflow rfl
      exact yields_pure ⟨hid, hsound, hok, rfl, rfl, rfl⟩

/-- What is read and returned as it is. -/
theorem ended_opened {workflow : Workflow}
    (h : At E call { opened := workflow, current := workflow, sent := [] } done) :
    Ended E call workflow workflow done := ⟨⟨[], h⟩, fun _ hn _ => hn⟩

/-- A run that does nothing to the nodes first. -/
theorem prepared_refl {node : WorkflowNode}
    (htakes : node.executionStatus.settled = false → E.takesUp call node)
    (hretries : call.retries node.id = false) : Prepared E call node node where
  plan := rfl
  attempts := rfl
  approvalId := rfl
  takenUp := htakes
  cancelled h := ⟨h, by rw [hretries]; exact Bool.false_ne_true⟩
  done _ := Or.inl rfl
  busy _ := rfl
  references := List.Subset.refl _

theorem execute_yields (workflowId : UUID) (role : String) (authToken : Option String) :
    Yields E (.execute workflowId role authToken) (fun out done => ∃ workflow₀,
      Ended E (.execute workflowId role authToken) workflow₀ out done)
      (E.execute workflowId role authToken) [] := by
  refine Yields.bind (Yields.imp getWorkflow_yields .start ?_) .start
  rintro workflow done ⟨hid, hsound, h⟩
  split
  · exact yields_pure ⟨_, ended_opened h⟩
  · rename_i hlive
    split
    · exact yields_pure ⟨_, ended_opened h⟩
    · rename_i hwaiting
      have hstarted : (WorkflowCall.execute workflowId role authToken).starts workflow := by
        simp [WorkflowCall.starts, hlive, hwaiting]
      refine Yields.imp (runWorkflow_yields rfl hstarted h rfl hid hsound
        (List.forall₂_same.mpr fun node _ => prepared_refl (fun hsettled => ?_) rfl)) h.ok
        fun out done hout => ⟨_, hout⟩
      simp only [takesUp, hsettled, Bool.not_false]

/-- The node as `resume` takes it up. -/
theorem resumeNode_prepared {workflowId : UUID} {role : String} {authToken : Option String}
    {node node' : WorkflowNode} (h : (resumeNode node).Returns node') :
    Prepared E (.resume workflowId role authToken) node node' := by
  have hrefl : Prepared E (.resume workflowId role authToken) node node :=
    prepared_refl (fun hsettled => by simp only [takesUp, hsettled, Bool.not_false, Bool.true_or])
      rfl
  obtain ⟨expired, hexpired, h⟩ := Procedure.returns_bind.mp h
  split at h
  · -- only a waiting node expires
    rename_i htrue
    have hwaiting : node.executionStatus = .waitingApproval := by
      by_contra hne
      rw [approvalExpired, if_pos hne] at hexpired
      exact Bool.noConfusion (Eq.trans (show false = expired from hexpired) htrue)
    obtain ⟨now, -, h⟩ := Procedure.returns_bind.mp h
    rw [← Procedure.returns_pure.mp h]
    refine ⟨rfl, rfl, rfl, (fun h => by cases h), (fun h => by cases h), fun hdone => ?_,
      (fun h => by cases h), List.Subset.refl _⟩
    rw [hwaiting] at hdone
    cases hdone
  · split at h
    · -- only a node that can be resumed is made ready
      rename_i hresumable
      obtain ⟨resumed, hcan, h⟩ := Procedure.returns_bind.mp h
      split at h
      · rename_i htrue
        rw [← Procedure.returns_pure.mp h]
        refine ⟨rfl, rfl, rfl, fun _ => ?_, (fun h => by cases h), fun hdone => ?_,
          (fun h => by cases h), List.Subset.refl _⟩
        · rw [canBeResumed] at hcan
          cases hstatus : node.executionStatus with
          | failed =>
              rw [if_neg (by rw [hstatus]; decide)] at hcan
              have hcan := Eq.trans (show _ = resumed from hcan) htrue
              simpa [takesUp, hstatus, WorkflowNodeStatus.settled] using hcan
          | blocked =>
              rw [if_neg (by rw [hstatus]; decide)] at hcan
              have hcan := Eq.trans (show _ = resumed from hcan) htrue
              simpa [takesUp, hstatus, WorkflowNodeStatus.settled] using hcan
          | retrying => simp [takesUp, hstatus, WorkflowNodeStatus.settled]
          | running => simp [takesUp, hstatus, WorkflowNodeStatus.settled]
          | _ => simp [hstatus] at hresumable
        · cases hstatus : node.executionStatus <;>
            simp_all [WorkflowNodeStatus.done]
      · rw [← Procedure.returns_pure.mp h]
        exact hrefl
    · rw [← Procedure.returns_pure.mp h]
      exact hrefl

theorem resumeNodes_prepared {workflowId : UUID} {role : String} {authToken : Option String}
    {nodes nodes' : List WorkflowNode} (h : (resumeNodes nodes).Returns nodes') :
    List.Forall₂ (Prepared E (.resume workflowId role authToken)) nodes nodes' := by
  induction nodes generalizing nodes' with
  | nil =>
      cases h
      exact .nil
  | cons node rest ih =>
      obtain ⟨node', hnode, h⟩ := Procedure.returns_bind.mp h
      obtain ⟨rest', hrest, h⟩ := Procedure.returns_bind.mp h
      cases h
      exact .cons (resumeNode_prepared hnode) (ih hrest)

/-- A node that waits has waited before. -/
def KeepsWaiting (old new : WorkflowNode) : Prop :=
  new.executionStatus = .waitingApproval → old.executionStatus = .waitingApproval

theorem resumeNode_waits {node node' : WorkflowNode} (h : (resumeNode node).Returns node') :
    KeepsWaiting node node' := by
  intro hwaiting
  obtain ⟨expired, -, h⟩ := Procedure.returns_bind.mp h
  split at h
  · obtain ⟨now, -, h⟩ := Procedure.returns_bind.mp h
    rw [← Procedure.returns_pure.mp h] at hwaiting
    cases hwaiting
  · split at h
    · obtain ⟨resumed, -, h⟩ := Procedure.returns_bind.mp h
      split at h
      · rw [← Procedure.returns_pure.mp h] at hwaiting
        cases hwaiting
      · rw [Procedure.returns_pure.mp h]
        exact hwaiting
    · rw [Procedure.returns_pure.mp h]
      exact hwaiting

theorem resumeNodes_waits {nodes nodes' : List WorkflowNode}
    (h : (resumeNodes nodes).Returns nodes') : List.Forall₂ KeepsWaiting nodes nodes' := by
  induction nodes generalizing nodes' with
  | nil =>
      cases h
      exact .nil
  | cons node rest ih =>
      obtain ⟨node', hnode, h⟩ := Procedure.returns_bind.mp h
      obtain ⟨rest', hrest, h⟩ := Procedure.returns_bind.mp h
      cases h
      exact .cons (resumeNode_waits hnode) (ih hrest)

/-- The first save of a call. -/
theorem yields_firstSave {β : Type} {Q : β → List EngineEvent → Prop} {workflow new : Workflow}
    {f : Unit → EngineM β}
    (h : At E call { opened := workflow, current := workflow, sent := [] } done)
    (hsaves : Saves call workflow workflow new)
    (hwaits : List.Forall₂ KeepsWaiting workflow.nodes new.nodes)
    (hf : ∀ done, At E call { opened := workflow, current := new, sent := [] } done →
      Yields E call Q (f ()) done) :
    Yields E call Q (engineOp (.saveWorkflow new) >>= f) done := by
  refine yields_op fun _ _ => ?_
  have hsaved := h.save (e := ⟨.saveWorkflow new, ()⟩) rfl hsaves
    (hwaits.imp fun _ _ hwait hnew => Or.inl (hwait hnew))
  exact ⟨hsaved.ok, hf _ hsaved⟩

theorem resume_yields (workflowId : UUID) (role : String) (authToken : Option String) :
    Yields E (.resume workflowId role authToken) (fun out done => ∃ workflow₀,
      Ended E (.resume workflowId role authToken) workflow₀ out done)
      (E.resume workflowId role authToken) [] := by
  refine Yields.bind (Yields.imp getWorkflow_yields .start ?_) .start
  rintro workflow done ⟨hid, hsound, h⟩
  split
  · exact yields_pure ⟨_, ended_opened h⟩
  · rename_i hlive
    have hstarted : (WorkflowCall.resume workflowId role authToken).starts workflow :=
      decide_eq_true hlive
    refine yields_ambient (uses_resumeNodes workflow.nodes) h fun nodes done hnodes h => ?_
    refine yields_ambient (uses_auditEvent ..) h fun event done _ h => ?_
    have hprepared : List.Forall₂ (Prepared E (.resume workflowId role authToken))
        workflow.nodes nodes := resumeNodes_prepared hnodes
    refine yields_firstSave h ?_ (resumeNodes_waits hnodes) fun done h => ?_
    · exact ⟨hid, hsound.of_samePlans rfl (samePlans_of_prepared hprepared), Nat.lt_succ_self _,
        hstarted, ⟨(fun h => by cases h), (fun h => by cases h)⟩,
        nodeSteps_of_prepared rfl hprepared,
        (fun h => by cases h)⟩
    · exact Yields.imp (runWorkflow_yields rfl hstarted h rfl hid
        (hsound.of_samePlans rfl (samePlans_of_prepared hprepared)) hprepared) h.ok
        fun out done hout => ⟨_, hout⟩

/-- The node as `retry_node` leaves it. -/
theorem retryTarget_prepared {workflowId : UUID} {nodeId role : String}
    {authToken : Option String} (node : WorkflowNode) :
    Prepared E (.retryNode workflowId nodeId role authToken) node (E.retryTarget nodeId node) := by
  unfold retryTarget
  split
  · rename_i hne
    refine prepared_refl (fun hsettled => ?_) (decide_eq_false (Ne.symm hne))
    simp only [takesUp, if_neg hne, hsettled, Bool.not_false]
  · rename_i hid
    have hretries : decide (nodeId = node.id) = true := decide_eq_true (not_not.mp hid).symm
    split
    · exact ⟨rfl, rfl, rfl, (fun h => by cases h), (fun h => by cases h),
        fun _ => Or.inr hretries, (fun h => by cases h), List.Subset.refl _⟩
    · rename_i hretryable
      refine ⟨rfl, rfl, rfl, fun _ => ?_, (fun h => by cases h), fun _ => Or.inr hretries,
        (fun h => by cases h), List.Subset.refl _⟩
      rw [takesUp, if_pos (not_not.mp hid)]
      exact not_not.mp hretryable

theorem retryNode_yields (workflowId : UUID) (nodeId role : String) (authToken : Option String) :
    Yields E (.retryNode workflowId nodeId role authToken) (fun out done => ∃ workflow₀,
      Ended E (.retryNode workflowId nodeId role authToken) workflow₀ out done)
      (E.retryNode workflowId nodeId role authToken) [] := by
  refine Yields.bind (Yields.imp getWorkflow_yields .start ?_) .start
  rintro workflow done ⟨hid, hsound, h⟩
  split
  · exact yields_raise
  · rename_i hfound
    have hstarted : (WorkflowCall.retryNode workflowId nodeId role authToken).starts workflow :=
      decide_eq_true (not_not.mp hfound)
    refine yields_ambient (uses_auditEvent ..) h fun event done _ h => ?_
    have hprepared : List.Forall₂ (Prepared E (.retryNode workflowId nodeId role authToken))
        workflow.nodes (workflow.nodes.map (E.retryTarget nodeId)) :=
      List.forall₂_map_right_iff.mpr (List.forall₂_same.mpr fun node _ => retryTarget_prepared node)
    -- no other node waits than before
    have hwaits : List.Forall₂ KeepsWaiting workflow.nodes
        (workflow.nodes.map (E.retryTarget nodeId)) := by
      refine List.forall₂_map_right_iff.mpr (List.forall₂_same.mpr fun node _ hwaiting => ?_)
      unfold retryTarget at hwaiting
      split at hwaiting
      · exact hwaiting
      · split at hwaiting <;> cases hwaiting
    refine yields_firstSave h ?_ hwaits fun done h => ?_
    · exact ⟨hid, hsound.of_samePlans rfl (samePlans_of_prepared hprepared), Nat.lt_succ_self _,
        hstarted, ⟨(fun h => by cases h), (fun h => by cases h)⟩,
        nodeSteps_of_prepared rfl hprepared,
        (fun h => by cases h)⟩
    · exact Yields.imp (runWorkflow_yields rfl hstarted h rfl hid
        (hsound.of_samePlans rfl (samePlans_of_prepared hprepared)) hprepared) h.ok
        fun out done hout => ⟨_, hout⟩

/-- What `cancel` does to a node. -/
theorem cancelNode_cases (node : WorkflowNode) :
    cancelNode node = node ∨ cancelNode node = { node with executionStatus := .cancelled } ∧
      node.executionStatus.done = false := by
  unfold cancelNode
  split
  · refine Or.inr ⟨rfl, ?_⟩
    cases hstatus : node.executionStatus <;> simp_all [WorkflowNodeStatus.done]
  · exact Or.inl rfl

theorem cancel_yields (workflowId : UUID) (role : String) :
    Yields E (.cancel workflowId role) (fun out done => ∃ workflow₀,
      Ended E (.cancel workflowId role) workflow₀ out done) (cancel workflowId role) [] := by
  refine Yields.bind (Yields.imp getWorkflow_yields .start ?_) .start
  rintro workflow done ⟨hid, hsound, h⟩
  refine yields_ambient (uses_auditEvent ..) h fun event done _ h => ?_
  -- only nodes that are not done are cancelled
  have hsteps : List.Forall₂ (NodeStep (.cancel workflowId role) (workflow = workflow))
      workflow.nodes (workflow.nodes.map cancelNode) := by
    refine List.forall₂_map_right_iff.mpr (List.forall₂_same.mpr fun node _ => ?_)
    rcases cancelNode_cases node with hsame | ⟨hcancelled, hdone⟩
    · rw [hsame]
      exact .refl node
    · rw [hcancelled]
      refine ⟨rfl, le_rfl, fun h => ?_, List.Subset.refl _⟩
      rw [hdone] at h
      cases h
  have hwaits : List.Forall₂ KeepsWaiting workflow.nodes (workflow.nodes.map cancelNode) := by
    refine List.forall₂_map_right_iff.mpr (List.forall₂_same.mpr fun node _ hwaiting => ?_)
    rcases cancelNode_cases node with hsame | ⟨hcancelled, -⟩
    · rw [hsame] at hwaiting
      exact hwaiting
    · rw [hcancelled] at hwaiting
      cases hwaiting
  refine yields_firstSave h ?_ hwaits fun done h =>
    yields_pure ⟨workflow, ⟨[], h⟩, fun n hn hbusy => ?_⟩
  · exact ⟨hid, hsound.of_samePlans rfl (hsteps.imp fun _ _ hnode => hnode.plan),
      Nat.lt_succ_self _, rfl, ⟨fun _ => rfl, fun _ => rfl⟩, hsteps, (fun h => by cases h)⟩
  obtain ⟨node, hnode, rfl⟩ := List.mem_map.mp hn
  rcases cancelNode_cases node with hsame | ⟨hcancelled, -⟩
  · rw [hsame]
    exact hnode
  · rw [hcancelled] at hbusy
    cases hbusy

/-- Every call of every operation has the shape. -/
theorem serve_yields (call : WorkflowCall) :
    Yields E call (fun out done => ∃ workflow₀, Ended E call workflow₀ out done)
      (E.serve call) [] := by
  cases call with
  | execute workflowId role authToken => exact execute_yields workflowId role authToken
  | resume workflowId role authToken => exact resume_yields workflowId role authToken
  | retryNode workflowId nodeId role authToken =>
      exact retryNode_yields workflowId nodeId role authToken
  | cancel workflowId role => exact cancel_yields workflowId role

end Operations

end WorkflowPlanningService

end McpOps
