import McpOps.Workflow.RunSafety

/-!
# Cancelled workflows

Calls that overlap write whole workflows over each other.  In an unraced history every save
continues what is stored: the stored version of a workflow goes up with every change, and what
`cancel` has written stays cancelled as long as no call of `retry_node` starts from it.

## Strategy

Only a call of `cancel` writes over a cancelled workflow (`Traced.cancels_of_cancelled`).  Any
other call that has one in its hands has written nothing yet (`opened_of_touched_cancelled`), and
`execute` and `resume` return it as it is; `retry_node` does not look at the status, hence the
condition `NeverRetriesCancelled`.

`KeepsStored` is what one step keeps, the version of every stored workflow and that it is
cancelled.  It is transitive, so that `Traced.keepsStored_step` gives it along a whole history.
That no tool is called for a cancelled workflow is `Traced.not_cancelled_of_call`.

`runCalls_cancellationFinal` puts the three together.  Without the condition on races it fails, as
`cancelled_overwritten` shows: what `execute` has read before is written over what `cancel` wrote.
-/

namespace McpOps

open Proc WorkflowPlanningService

/-- A workflow that is stored later: at no smaller version, and at the same version only if it
is the same. -/
structure Later (workflow new : Workflow) : Prop where
  le : workflow.version ≤ new.version
  same : new.version = workflow.version → new = workflow

theorem Later.refl (workflow : Workflow) : Later workflow workflow := ⟨le_rfl, fun _ => rfl⟩

theorem Later.trans {u v w : Workflow} (huv : Later u v) (hvw : Later v w) : Later u w where
  le := huv.le.trans hvw.le
  same h := by
    have hu := huv.le
    have hv := hvw.le
    rw [hvw.same (by omega), huv.same (by omega)]

/-- Along the history, the version of a workflow never goes down, and is never used again for
other content. -/
def VersionsKept (r : EngineRun) : Prop :=
  ∀ d older, After r d older → ∀ e newer, After r e newer → d :: older <:+ e :: newer →
    ∀ workflowId workflow, d.before.getWorkflow workflowId = some workflow →
      ∃ new, e.after.getWorkflow workflowId = some new ∧ Later workflow new

/-- From the save of `cancel` on, which is its last step, the workflow is cancelled, and no tool
is called for it. -/
def CancellationFinal (calls : ℕ → WorkflowCall) (r : EngineRun) : Prop :=
  ∀ d older, After r d older → (calls d.caller).cancels → d.op.saved.isSome →
    ∀ e newer, After r e newer → d :: older <:+ e :: newer →
      (∃ workflow, e.after.getWorkflow (calls d.caller).workflowId = some workflow ∧
        workflow.status = .cancelled) ∧
      ∀ request, e.op = .callTool request →
        request.workflowId ≠ some (calls d.caller).workflowId

/-- A call of `retry_node` reads a cancelled workflow. -/
def retriesCancelled (calls : ℕ → WorkflowCall) (d : EngineStep) : Bool :=
  match calls d.caller, d.op with
  | .retryNode workflowId .., .getWorkflow _ =>
      (d.before.getWorkflow workflowId).any fun workflow => workflow.status = .cancelled
  | _, _ => false

/-- No call of `retry_node` reads a cancelled workflow. -/
def NeverRetriesCancelled (calls : ℕ → WorkflowCall) (r : EngineRun) : Prop :=
  ∀ d ∈ r.past, retriesCancelled calls d = false

section Cancellation

variable {E : WorkflowPlanningService} {calls : ℕ → WorkflowCall} {s : InMemoryWorkflowRepository}
  {r : EngineRun}

/-- A call other than `cancel` has a cancelled workflow in its hands only as long as it has
written nothing. -/
theorem opened_of_touched_cancelled {call : WorkflowCall} {done : List EngineEvent}
    (hok : AllOk E call done) (hruns : call.cancels = false) {workflow : Workflow}
    (htouched : touched done = some workflow) (hcancelled : workflow.status = .cancelled) :
    opened done = some workflow := by
  induction done with
  | nil => cases htouched
  | cons e rest ih =>
      have hevent := hok e rest (List.suffix_refl _)
      have hrest := ih fun e' earlier h => hok e' earlier (h.trans (List.suffix_cons _ _))
      obtain ⟨o, a⟩ := e
      -- a call that does not cancel never saves a cancelled workflow, so it has read it
      have hsaves : ∀ new, o.saved = some new → new.status ≠ .cancelled := by
        intro new hnew hstatus
        obtain ⟨_, _, _, _, hsaves⟩ := hevent.saves new hnew
        rw [hsaves.cancelled.mp hstatus] at hruns
        cases hruns
      rw [touched, List.findSome?_cons] at htouched
      rw [opened, List.findSome?_cons]
      cases o with
      | getWorkflow workflowId =>
          cases a with
          | none => exact hrest htouched
          | some read => exact htouched
      | saveWorkflow new =>
          cases htouched
          exact absurd hcancelled (hsaves _ rfl)
      | saveWorkflowWithEvent new event =>
          cases htouched
          exact absurd hcancelled (hsaves _ rfl)
      | now => exact hrest htouched
      | uuid4 => exact hrest htouched
      | callTool request => exact hrest htouched

/-- A call that writes over a cancelled workflow is one of `cancel`. -/
theorem Traced.cancels_of_cancelled (h : Traced E calls s r)
    (hretries : NeverRetriesCancelled calls r) {d : EngineStep} {older : List EngineStep}
    (hd : After r d older) {new workflow : Workflow} (hsaved : d.op.saved = some new)
    (htouched : touched (own d.caller older) = some workflow)
    (hcancelled : workflow.status = .cancelled) : (calls d.caller).cancels := by
  refine Bool.of_not_eq_false fun hruns => ?_
  have hopened := opened_of_touched_cancelled ((h.before hd).allOk d.caller) hruns htouched
    hcancelled
  obtain ⟨workflow₀, _, hopened', -, hsaves⟩ := (h.events d older hd).saves new hsaved
  rw [hopened] at hopened'
  cases hopened'
  have hstarted := hsaves.started
  obtain ⟨d₀, older₀, hd₀, hcaller, hget, hread⟩ := (h.before hd).opened_step hopened
  have hfalse := hretries d₀
    ((hd₀.trans ((List.suffix_cons d older).trans hd)).mem (List.mem_cons_self ..))
  rw [retriesCancelled, hcaller, hget] at hfalse
  cases hcall : calls d.caller with
  | execute => simp [hcall, WorkflowCall.starts, hcancelled] at hstarted
  | resume => simp [hcall, WorkflowCall.starts, hcancelled] at hstarted
  | retryNode workflowId nodeId role authToken =>
      rw [hcall] at hread
      simp [hcall, show d₀.before.getWorkflow workflowId = some workflow from hread,
        hcancelled] at hfalse
  | cancel => simp [hcall, WorkflowCall.cancels] at hruns

/-- What a step keeps: the version of every stored workflow, and that it is cancelled. -/
def KeepsStored (s t : InMemoryWorkflowRepository) : Prop :=
  ∀ workflowId workflow, s.getWorkflow workflowId = some workflow →
    ∃ new, t.getWorkflow workflowId = some new ∧ Later workflow new ∧
      (workflow.status = .cancelled → new.status = .cancelled)

theorem KeepsStored.trans (s t u : InMemoryWorkflowRepository) (hst : KeepsStored s t)
    (htu : KeepsStored t u) : KeepsStored s u := by
  intro workflowId workflow hstored
  obtain ⟨v, hv, hlater, hcancelled⟩ := hst workflowId workflow hstored
  obtain ⟨w, hw, hlater', hcancelled'⟩ := htu workflowId v hv
  exact ⟨w, hw, hlater.trans hlater', fun h => hcancelled' (hcancelled h)⟩

theorem Traced.keepsStored_step (h : Traced E calls s r) (hunraced : Unraced calls r)
    (hretries : NeverRetriesCancelled calls r) {d : EngineStep} {older : List EngineStep}
    (hd : After r d older) : KeepsStored d.before d.after := by
  intro workflowId workflow hstored
  cases hsaved : d.op.saved with
  | none =>
      rw [h.after_eq_before hd hsaved]
      exact ⟨workflow, hstored, .refl _, id⟩
  | some new =>
      obtain ⟨_, current, -, hcurrent, hsaves, hafter⟩ := h.saves_stored hunraced hd hsaved
      rw [hafter]
      split
      · rename_i hid
        rw [hid, hcurrent] at hstored
        cases hstored
        have hless := hsaves.version
        refine ⟨new, rfl, ⟨hless.le, fun heq => by omega⟩, fun hcancelled => ?_⟩
        have htouched := hunraced d older hd (Or.inl (by rw [hsaved]; rfl))
        rw [hcurrent] at htouched
        exact hsaves.cancelled.mpr
          (h.cancels_of_cancelled hretries hd hsaved htouched.symm hcancelled)
      · exact ⟨workflow, hstored, .refl _, id⟩

/-- No tool is called for a workflow that is stored as cancelled. -/
theorem Traced.not_cancelled_of_call (h : Traced E calls s r) (hunraced : Unraced calls r)
    {d : EngineStep} {older : List EngineStep} (hd : After r d older)
    {request : GatewayToolRequest} (hcall : d.op = .callTool request) {workflowId : UUID}
    (hid : request.workflowId = some workflowId) {workflow : Workflow}
    (hstored : d.before.getWorkflow workflowId = some workflow) : workflow.status ≠ .cancelled := by
  obtain ⟨_, current, -, hcurrent, hlive, node, hnode, hhands, -⟩ :=
    h.sends_stored hunraced hd hcall
  have hsound := h.sound_before hd _ _ hcurrent
  obtain ⟨-, hworkflowId, -⟩ := hhands.request
  rw [hworkflowId, hsound.2.workflowId node hnode, hsound.1] at hid
  cases hid
  rw [hcurrent] at hstored
  cases hstored
  exact hlive

/-- Whatever calls overlap: as long as every call that writes or calls a tool still finds stored
what it has read or written last, and no call of `retry_node` starts from a cancelled workflow,
no update is lost and cancellation is final. -/
theorem runCalls_cancellationFinal (hs : s.Sound) (calls : ℕ → WorkflowCall)
    (schedule : List (ℕ × EngineEnv)) (hunraced : Unraced calls (E.runCalls s calls schedule))
    (hretries : NeverRetriesCancelled calls (E.runCalls s calls schedule)) :
    VersionsKept (E.runCalls s calls schedule) ∧
      CancellationFinal calls (E.runCalls s calls schedule) := by
  have htraced := runCalls_traced (E := E) hs calls schedule
  have hstep : ∀ d older, After (E.runCalls s calls schedule) d older →
      KeepsStored d.before d.after := fun d older hd =>
        htraced.keepsStored_step hunraced hretries hd
  constructor
  · -- versions only grow
    intro d older hd e newer he hle workflowId workflow hstored
    obtain ⟨new, hnew, hlater, -⟩ := htraced.reached.chain KeepsStored.trans hstep he hle
      workflowId workflow hstored
    exact ⟨new, hnew, hlater⟩
  · -- once it is cancelled, it stays so, and no tool is called for it
    intro d older hd hcancels hsaved e newer he hle
    obtain ⟨new, hsaved⟩ := Option.isSome_iff_exists.mp hsaved
    obtain ⟨_, _, -, -, hsaves, hafter⟩ := htraced.saves_stored hunraced hd hsaved
    have hcancelled := hsaves.cancelled.mpr hcancels
    have hstored : d.after.getWorkflow (calls d.caller).workflowId = some new := by
      rw [hafter, if_pos rfl]
    rcases List.suffix_cons_iff.mp hle with heq | hle
    · cases heq
      refine ⟨⟨new, hstored, hcancelled⟩, fun request hcall => ?_⟩
      rw [hcall] at hsaved
      cases hsaved
    · -- what is stored before the later step is cancelled already
      obtain ⟨current, hcurrent, hstatus⟩ := htraced.reached.since
        (P := fun s => ∃ workflow, s.getWorkflow (calls d.caller).workflowId = some workflow ∧
          workflow.status = .cancelled)
        (fun d older hd ⟨workflow, hstored, hstatus⟩ => by
          obtain ⟨new, hnew, -, hkeeps⟩ := hstep d older hd _ _ hstored
          exact ⟨new, hnew, hkeeps hstatus⟩) he hle ⟨new, hstored, hcancelled⟩
      obtain ⟨last, hlast, -, hkeeps⟩ := hstep e newer he _ _ hcurrent
      refine ⟨⟨last, hlast, hkeeps hstatus⟩, fun request hcall hid => ?_⟩
      exact htraced.not_cancelled_of_call hunraced he hcall hid hcurrent hstatus

end Cancellation

/-- A plan is executed while it is cancelled. -/
def executeWhileCancel : ℕ → WorkflowCall
  | 0 => .execute 5 "ENGINEER" none
  | _ => .cancel 5 "ENGINEER"

/-- A plan that is cancelled before it is executed stays cancelled. -/
theorem runCalls_cancellationFinal_before :
    VersionsKept (WorkflowPlanningService.small.runCalls (.holding readOnce)
        (fun k => executeWhileCancel (1 - k)) (engineTurns 0 (.at 6 (.ok succeededResponse)) 3 ++
          engineTurns 1 (.at 8 (.ok succeededResponse)) 3)) ∧
      CancellationFinal (fun k => executeWhileCancel (1 - k))
        (WorkflowPlanningService.small.runCalls (.holding readOnce)
          (fun k => executeWhileCancel (1 - k)) (engineTurns 0 (.at 6 (.ok succeededResponse)) 3 ++
            engineTurns 1 (.at 8 (.ok succeededResponse)) 3)) :=
  runCalls_cancellationFinal (acceptsAll_holding readOnce).sound _ _
    ((runCalls_traced (acceptsAll_holding readOnce).sound _ _).unraced
      (runCalls_ordered (sequential_turns zero_le_one ..)))
    (by unfold NeverRetriesCancelled; decide)

/-- What `execute` has read before `cancel` is written over what `cancel` has written. -/
theorem cancelled_overwritten :
    ¬ ∀ (E : WorkflowPlanningService) (s : InMemoryWorkflowRepository) (calls : ℕ → WorkflowCall)
      (schedule : List (ℕ × EngineEnv)), E.AcceptsAll s →
        VersionsKept (E.runCalls s calls schedule) ∧
          CancellationFinal calls (E.runCalls s calls schedule) := by
  intro hclaim
  have hfinal := (hclaim .small (.holding readOnce) executeWhileCancel
    (engineTurns 0 (.at 6 (.ok succeededResponse)) 5 ++
      engineTurns 1 (.at 7 (.ok succeededResponse)) 3 ++
      engineTurns 0 (.at 8 (.ok succeededResponse)) 1) (acceptsAll_holding readOnce)).2
  generalize hrun : WorkflowPlanningService.small.runCalls _ _ _ = r at hfinal
  -- the last two steps are the save of `cancel` and the first save of `execute`
  have hsteps : (r.past.take 2).map (fun d => (d.caller, d.op.saved.isSome,
      (d.after.getWorkflow 5).map (·.status))) =
        [(0, true, some .running), (1, true, some .cancelled)] := by
    subst hrun
    decide
  obtain ⟨e, rest, hpast, he, hrest⟩ := List.map_eq_cons_iff.mp hsteps
  obtain ⟨d, rest', rfl, hd, -⟩ := List.map_eq_cons_iff.mp hrest
  have hlast : r.past = e :: d :: r.past.drop 2 := by
    have hsplit := List.take_append_drop 2 r.past
    rw [hpast] at hsplit
    have hlength := congrArg List.length hpast
    cases rest' with
    | nil => exact hsplit.symm
    | cons d' rest' =>
        rw [List.length_take] at hlength
        simp only [List.length_cons] at hlength
        omega
  simp only [Prod.mk.injEq] at he hd
  obtain ⟨-, -, hrunning⟩ := he
  obtain ⟨hcaller, hsaved, -⟩ := hd
  have hafter : After r e (d :: r.past.drop 2) := by rw [After, ← hlast]
  obtain ⟨⟨workflow, hstored, hcancelled⟩, -⟩ := hfinal d (r.past.drop 2)
    ((List.suffix_cons _ _).trans hafter) (by rw [hcaller]; rfl) hsaved e _ hafter
    (List.suffix_cons _ _)
  rw [hcaller] at hstored
  rw [show e.after.getWorkflow 5 = some workflow from hstored, Option.map_some,
    hcancelled] at hrunning
  cases hrunning

end McpOps
