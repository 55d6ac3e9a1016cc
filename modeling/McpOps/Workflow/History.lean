import McpOps.Workflow.RunShape

/-!
# Histories of the workflow repository

Calls of the engine are run along a schedule, at the same time or one after another.  `Traced`
is what every history of them has: each step continues the earlier steps of its own call as
`EventOk` allows.  A history is `Unraced` when every call that writes or sends still finds the
workflow stored that it has read or written last.  Calls that run one after another are
unraced, also when some of them are abandoned on the way.

## Strategy

`runCalls_traced` brings the shape of a single call (`serve_yields`) to every history, whatever the
schedule.  `Traced.induct` is the induction that the other modules use: what holds at the beginning
and is kept by every step that continues its call holds at the end.

The repository enters by two lemmas, `getWorkflow_of_saves` and `state_of_no_save`, and with
`sound_of_saves` it stays sound.  What a call has read was stored when it read it
(`Traced.opened_step`).

For calls that come one after another, nothing else is written between two events of a call, so
that the last workflow it has touched is the stored one (`Traced.stored_of_touched`).  This gives
`Traced.unraced`, and with it a save continues the stored workflow (`Traced.saves_stored`), a tool
is called for the stored workflow (`Traced.sends_stored`), and the plans never change
(`Traced.keepsPlans`).
-/

namespace McpOps

open Proc

/-- A step of the engine. -/
abbrev EngineStep := Step engineInterface ℕ InMemoryWorkflowRepository

/-- A history of calls of the engine. -/
abbrev EngineRun := Run engineInterface ℕ InMemoryWorkflowRepository

/-- The history of calls along a schedule, from the repository `s`. -/
abbrev WorkflowPlanningService.runCalls (E : WorkflowPlanningService)
    (s : InMemoryWorkflowRepository) (calls : ℕ → WorkflowCall) (schedule : List (ℕ × EngineEnv)) :
    EngineRun :=
  (interleave engineSystem (fun k => E.serve (calls k)) schedule (Run.start s)).2

/-- The steps before `d` in a history are `older`. -/
def After (r : EngineRun) (d : EngineStep) (older : List EngineStep) : Prop := d :: older <:+ r.past

/-- Every workflow is stored under its id, and sound. -/
def InMemoryWorkflowRepository.Sound (s : InMemoryWorkflowRepository) : Prop :=
  ∀ workflowId workflow, s.getWorkflow workflowId = some workflow →
    workflow.id = workflowId ∧ workflow.Sound

/-- Every workflow is stored under its id, and accepted by the validator. -/
def WorkflowPlanningService.AcceptsAll (E : WorkflowPlanningService)
    (s : InMemoryWorkflowRepository) : Prop :=
  ∀ workflowId workflow, s.getWorkflow workflowId = some workflow →
    workflow.id = workflowId ∧ E.Accepts workflow

theorem WorkflowPlanningService.AcceptsAll.sound {E : WorkflowPlanningService}
    {s : InMemoryWorkflowRepository} (h : E.AcceptsAll s) : s.Sound :=
  fun workflowId workflow hstored =>
    ⟨(h workflowId workflow hstored).1, (h workflowId workflow hstored).2.sound.1⟩

/-! ## What a step does to the repository -/

section Effects

variable {o : WorkflowOp} {env : EngineEnv} {s : InMemoryWorkflowRepository}

/-- A save stores the workflow under its id and leaves the others alone. -/
theorem getWorkflow_of_saves {new : Workflow} (h : o.saved = some new) (workflowId : UUID) :
    (engineSystem.answer o env s).2.getWorkflow workflowId =
      if workflowId = new.id then some new else s.getWorkflow workflowId := by
  cases o with
  | saveWorkflow workflow =>
      cases h
      exact Dict.get?_set ..
  | saveWorkflowWithEvent workflow event =>
      cases h
      exact Dict.get?_set ..
  | _ => cases h

/-- Nothing else changes the repository. -/
theorem state_of_no_save (h : o.saved = none) : (engineSystem.answer o env s).2 = s := by
  cases o with
  | saveWorkflow => cases h
  | saveWorkflowWithEvent => cases h
  | _ => rfl

theorem valid_of_sound (hs : s.Sound) (o : WorkflowOp) (env : EngineEnv) :
    EngineEvent.Valid ⟨o, (engineSystem.answer o env s).1⟩ := by
  cases o with
  | getWorkflow workflowId => exact hs workflowId
  | _ => trivial

/-- A repository stays sound when what is saved is. -/
theorem sound_of_saves (hs : s.Sound) (hnew : ∀ new, o.saved = some new → new.Sound)
    (env : EngineEnv) : (engineSystem.answer o env s).2.Sound := by
  cases hsaved : o.saved with
  | none =>
      rw [state_of_no_save hsaved]
      exact hs
  | some new =>
      intro workflowId workflow hstored
      rw [getWorkflow_of_saves hsaved] at hstored
      split at hstored
      · cases hstored
        exact ⟨Eq.symm ‹_›, hnew new hsaved⟩
      · exact hs workflowId workflow hstored

end Effects

/-! ## Traced histories -/

/-- Each step continues its own call as it may. -/
structure Traced (E : WorkflowPlanningService) (calls : ℕ → WorkflowCall)
    (s : InMemoryWorkflowRepository) (r : EngineRun) : Prop where
  sound : s.Sound
  reached : Run.From engineSystem s r
  events : ∀ d older, After r d older →
    EventOk E (calls d.caller) d.event (own d.caller older)

section History

variable {E : WorkflowPlanningService} {calls : ℕ → WorkflowCall} {s : InMemoryWorkflowRepository}
  {r : EngineRun} {d : EngineStep} {older : List EngineStep}

/-- Whatever the schedule, a history of calls is traced. -/
theorem runCalls_traced (hs : s.Sound) (calls : ℕ → WorkflowCall)
    (schedule : List (ℕ × EngineEnv)) : Traced E calls s (E.runCalls s calls schedule) where
  sound := hs
  reached := interleave_from schedule _ .start
  events d older hd := by
    have hserves : ∀ c, (E.serve (calls c)).Emits EngineEvent.Valid (AllOk E (calls c))
        (fun _ _ => True) [] := fun c =>
      Procedure.Emits.imp (WorkflowPlanningService.serve_yields (calls c)) AllOk.start
        fun _ _ _ _ => trivial
    have hall := (interleave_emits (S := engineSystem) InMemoryWorkflowRepository.Sound
      (fun o env s hs => valid_of_sound hs o env)
      (fun c done o env s hs hgood => sound_of_saves hs (fun new hnew => ?_) env) schedule
      (fun k => E.serve (calls k)) (r := Run.start s) hs (fun c => AllOk.start) hserves).2 d.caller
    · refine hall _ _ ?_
      rw [← own_cons_self]
      exact own_suffix d.caller hd
    · obtain ⟨_, _, _, _, hsaves⟩ := (hgood _ _ (List.suffix_refl _)).saves new hnew
      exact hsaves.sound

theorem Traced.before (h : Traced E calls s r) (hd : After r d older) :
    Traced E calls s ⟨d.before, older⟩ where
  sound := h.sound
  reached := (h.reached.at_step hd).1
  events e rest he := h.events e rest (he.trans ((List.suffix_cons d older).trans hd))

theorem Traced.after (h : Traced E calls s r) (hd : After r d older) :
    Traced E calls s ⟨d.after, d :: older⟩ where
  sound := h.sound
  reached := h.reached.after_step hd
  events e rest he := h.events e rest (he.trans hd)

/-- Induction along a history: what holds at the beginning and is kept by every step that
continues its call holds at the end. -/
theorem Traced.induct {P : EngineRun → Prop} (h : Traced E calls s r) (hstart : P (Run.start s))
    (hstep : ∀ (r : EngineRun) c o env, Traced E calls s r →
      EventOk E (calls c) ⟨o, (engineSystem.answer o env r.state).1⟩ (own c r.past) → P r →
        P (r.perform engineSystem c o env)) : P r := by
  obtain ⟨hsound, hreached, hevents⟩ := h
  induction hreached with
  | start => exact hstart
  | @perform r hr c o env ih =>
      have hbefore : ∀ d older, After r d older →
          EventOk E (calls d.caller) d.event (own d.caller older) := fun d older hd =>
        hevents d older (hd.trans (List.suffix_cons _ _))
      exact hstep r c o env ⟨hsound, hr, hbefore⟩ (hevents _ _ (List.suffix_refl _)) (ih hbefore)

/-- The repository is sound at every moment. -/
theorem Traced.sound_state (h : Traced E calls s r) : r.state.Sound :=
  h.induct (P := fun r => r.state.Sound) h.sound fun r c o env _ hevent hs =>
    sound_of_saves hs (fun new hnew => by
      obtain ⟨_, _, _, _, hsaves⟩ := hevent.saves new hnew
      exact hsaves.sound) env

theorem Traced.sound_before (h : Traced E calls s r) (hd : After r d older) : d.before.Sound :=
  (h.before hd).sound_state

/-- The events of every call are as they may be. -/
theorem Traced.allOk (h : Traced E calls s r) (c : ℕ) : AllOk E (calls c) (own c r.past) := by
  refine h.induct (P := fun r => AllOk E (calls c) (own c r.past)) AllOk.start ?_
  intro r c' o env _ hevent ih
  by_cases hc : c = c'
  · subst hc
    rw [own_perform_self]
    exact ih.cons hevent
  · rw [own_perform_of_ne hc]
    exact ih

/-- How a step was performed. -/
theorem Traced.at_step (h : Traced E calls s r) (hd : After r d older) :
    ∃ env, engineSystem.answer d.op env d.before = (d.answer, d.after) :=
  (h.reached.at_step hd).2

/-- The workflow that a call knows was stored when the call read it. -/
theorem Traced.opened_step (h : Traced E calls s r) {c : ℕ} {workflow : Workflow}
    (hopened : opened (own c r.past) = some workflow) :
    ∃ d older, After r d older ∧ d.caller = c ∧ d.op = .getWorkflow (calls c).workflowId ∧
      d.before.getWorkflow (calls c).workflowId = some workflow := by
  obtain ⟨e, he, hgot⟩ := List.exists_of_findSome?_eq_some hopened
  obtain ⟨d, hd, rfl, rfl⟩ := mem_own.mp he
  obtain ⟨newer, older, hpast⟩ := List.append_of_mem hd
  have hafter : After r d older := ⟨newer, hpast.symm⟩
  obtain ⟨env, hanswer⟩ := h.at_step hafter
  have hevent := h.events d older hafter
  refine ⟨d, older, hafter, rfl, ?_⟩
  obtain ⟨caller, op, answer, before, after⟩ := d
  cases op with
  | getWorkflow workflowId =>
      have hid : workflowId = (calls caller).workflowId := (hevent.gets workflowId rfl).1
      subst hid
      exact ⟨rfl, (congrArg Prod.fst hanswer).trans hgot⟩
  | _ => cases hgot

end History

/-! ## Unraced histories -/

/-- The operations that write a workflow or call a tool. -/
def WorkflowOp.Acts (o : WorkflowOp) : Prop := o.saved.isSome ∨ ∃ request, o = .callTool request

/-- Whenever a call writes or sends, the workflow that is stored is the one that it has read or
written last. -/
def Unraced (calls : ℕ → WorkflowCall) (r : EngineRun) : Prop :=
  ∀ d older, After r d older → d.op.Acts →
    d.before.getWorkflow (calls d.caller).workflowId = touched (own d.caller older)

/-- The steps of the calls come one call after the other. -/
def Ordered (past : List EngineStep) : Prop := (past.map Step.caller).Pairwise (· ≥ ·)

theorem Ordered.of_suffix {past older : List EngineStep} (h : Ordered past) (hd : older <:+ past) :
    Ordered older := List.Pairwise.sublist (hd.sublist.map _) h

/-- Along a sequential schedule the calls come one after the other. -/
theorem runCalls_ordered {E : WorkflowPlanningService} {s : InMemoryWorkflowRepository}
    {calls : ℕ → WorkflowCall} {schedule : List (ℕ × EngineEnv)}
    (hsequential : Sequential schedule) : Ordered (E.runCalls s calls schedule).past :=
  interleave_sequential hsequential _ List.Pairwise.nil fun _ hd => absurd hd (List.not_mem_nil)

section Order

variable {E : WorkflowPlanningService} {calls : ℕ → WorkflowCall} {s : InMemoryWorkflowRepository}
  {r : EngineRun}

theorem own_eq_nil_of_lt {past : List EngineStep} {c : ℕ} (h : ∀ d ∈ past, d.caller < c) :
    own c past = [] := by
  rw [own, List.filter_eq_nil_iff.mpr fun d hd => by simpa using (h d hd).ne, List.map_nil]

/-- While no later call has begun, the workflow that a call has read or written last is the one
that is stored. -/
theorem Traced.stored_of_touched (h : Traced E calls s r) (hordered : Ordered r.past) {c : ℕ}
    (hlatest : ∀ d ∈ r.past, d.caller ≤ c) {workflow : Workflow}
    (htouched : touched (own c r.past) = some workflow) :
    r.state.getWorkflow (calls c).workflowId = some workflow := by
  refine h.induct (P := fun r => Ordered r.past → ∀ c, (∀ d ∈ r.past, d.caller ≤ c) → ∀ workflow,
    touched (own c r.past) = some workflow →
      r.state.getWorkflow (calls c).workflowId = some workflow) ?_ ?_ hordered c hlatest workflow
    htouched
  · exact fun _ _ _ _ htouched => by cases htouched
  · intro r c' o env hr hevent ih hordered c hlatest workflow htouched
    obtain ⟨hfirst, hordered⟩ := List.pairwise_cons.mp hordered
    have hrest : ∀ d ∈ r.past, d.caller ≤ c' := fun d hd => hfirst _ (List.mem_map_of_mem hd)
    rcases Nat.lt_or_eq_of_le (hlatest _ (List.mem_cons_self ..)) with hlt | heq
    · -- a later call has not begun
      have hnil : own c (r.perform engineSystem c' o env).past = [] :=
        own_eq_nil_of_lt fun d hd => (List.mem_cons.mp hd).elim (fun h => h ▸ hlt)
          fun hd => (hrest d hd).trans_lt hlt
      rw [hnil] at htouched
      cases htouched
    · change c' = c at heq
      subst heq
      rw [own_perform_self, touched, List.findSome?_cons] at htouched
      -- a step that neither reads nor saves a workflow leaves both alone
      have hambient : EngineEvent.seen ⟨o, (engineSystem.answer o env r.state).1⟩ = none →
          (engineSystem.answer o env r.state).2 = r.state →
          (engineSystem.answer o env r.state).2.getWorkflow (calls c').workflowId =
            some workflow := by
        intro hseen hstate
        rw [hseen] at htouched
        rw [hstate]
        exact ih hordered c' hrest workflow htouched
      cases o with
      | getWorkflow workflowId =>
          obtain ⟨rfl, hown⟩ := hevent.gets workflowId rfl
          cases hstored : r.state.getWorkflow (calls c').workflowId with
          | none => exact hambient hstored rfl
          | some stored =>
              have hseen : EngineEvent.seen ⟨.getWorkflow (calls c').workflowId,
                  (engineSystem.answer (.getWorkflow (calls c').workflowId) env r.state).1⟩ =
                    some stored := hstored
              rw [hseen] at htouched
              cases htouched
              exact hstored
      | saveWorkflow new =>
          -- what the latest call saves is what it has last
          obtain ⟨_, _, _, _, hsaves⟩ := hevent.saves new rfl
          cases htouched
          rw [Run.perform_state, getWorkflow_of_saves rfl, if_pos hsaves.id.symm]
      | saveWorkflowWithEvent new event =>
          obtain ⟨_, _, _, _, hsaves⟩ := hevent.saves new rfl
          cases htouched
          rw [Run.perform_state, getWorkflow_of_saves rfl, if_pos hsaves.id.symm]
      | now => exact hambient rfl rfl
      | uuid4 => exact hambient rfl rfl
      | callTool request => exact hambient rfl rfl

/-- Calls that come one after the other do not race. -/
theorem Traced.unraced (h : Traced E calls s r) (hordered : Ordered r.past) : Unraced calls r := by
  intro d older hd hacts
  have hordered' := hordered.of_suffix hd
  obtain ⟨hfirst, hordered'⟩ := List.pairwise_cons.mp hordered'
  have htouched : ∃ workflow, touched (own d.caller older) = some workflow := by
    have hevent := h.events d older hd
    rcases hacts with hsaved | ⟨request, hcall⟩
    · obtain ⟨new, hnew⟩ := Option.isSome_iff_exists.mp hsaved
      obtain ⟨_, workflow, _, htouched, _⟩ := hevent.saves new hnew
      exact ⟨workflow, htouched⟩
    · obtain ⟨_, workflow, _, htouched, _⟩ := hevent.sends request hcall
      exact ⟨workflow, htouched⟩
  obtain ⟨workflow, htouched⟩ := htouched
  rw [htouched]
  exact (h.before hd).stored_of_touched hordered'
    (fun e he => hfirst _ (List.mem_map_of_mem he)) htouched

end Order

/-! ## What is written and sent in an unraced history -/

section Unraced

variable {E : WorkflowPlanningService} {calls : ℕ → WorkflowCall} {s : InMemoryWorkflowRepository}
  {r : EngineRun} {d : EngineStep} {older : List EngineStep}

/-- A save continues the workflow that is stored. -/
theorem Traced.saves_stored (h : Traced E calls s r) (hunraced : Unraced calls r)
    (hd : After r d older) {new : Workflow} (hsaved : d.op.saved = some new) :
    ∃ workflow₀ workflow, opened (own d.caller older) = some workflow₀ ∧
      d.before.getWorkflow (calls d.caller).workflowId = some workflow ∧
      Saves (calls d.caller) workflow₀ workflow new ∧ ∀ workflowId,
        d.after.getWorkflow workflowId =
          if workflowId = (calls d.caller).workflowId then some new
          else d.before.getWorkflow workflowId := by
  obtain ⟨workflow₀, workflow, hopened, htouched, hsaves⟩ := (h.events d older hd).saves new hsaved
  obtain ⟨env, henv⟩ := h.at_step hd
  refine ⟨workflow₀, workflow, hopened, ?_, hsaves, fun workflowId => ?_⟩
  · rw [hunraced d older hd (Or.inl (Option.isSome_iff_exists.mpr ⟨new, hsaved⟩)), htouched]
  · have hstate : d.after = (engineSystem.answer d.op env d.before).2 :=
      (congrArg Prod.snd henv).symm
    rw [hstate, getWorkflow_of_saves hsaved, hsaves.id]

/-- What is not a save leaves the repository alone. -/
theorem Traced.after_eq_before (h : Traced E calls s r) (hd : After r d older)
    (hsaved : d.op.saved = none) : d.after = d.before := by
  obtain ⟨env, henv⟩ := h.at_step hd
  exact (congrArg Prod.snd henv).symm.trans (state_of_no_save hsaved)

/-- A tool is called for the workflow that is stored. -/
theorem Traced.sends_stored (h : Traced E calls s r) (hunraced : Unraced calls r)
    (hd : After r d older) {request : GatewayToolRequest} (hcall : d.op = .callTool request) :
    ∃ workflow₀ workflow, opened (own d.caller older) = some workflow₀ ∧
      d.before.getWorkflow (calls d.caller).workflowId = some workflow ∧
      Sends E (calls d.caller) workflow₀ workflow request (sent (own d.caller older)) := by
  obtain ⟨workflow₀, workflow, hopened, htouched, hsends⟩ :=
    (h.events d older hd).sends request hcall
  refine ⟨workflow₀, workflow, hopened, ?_, hsends⟩
  rw [hunraced d older hd (Or.inr ⟨request, hcall⟩), htouched]

/-- The node that a request is about, its workflow and its key. -/
theorem Hands.request {node : WorkflowNode} {request : GatewayToolRequest}
    {earlier : List Handed} (h : Hands E node request earlier) :
    request.workflowNodeId = some node.id ∧ request.workflowId = node.workflowId ∧
      request.idempotencyKey = node.idempotencyKey ∧ request.approvalId = node.approvalId ∧
      (request.toolName = node.toolName ∨ node.compensationTool = some request.toolName) ∧
      node.executionStatus.busy := by
  rcases h with ⟨hstatus, hrequest, -⟩ | ⟨hstatus, ⟨tool, -, htool, hrequest⟩, -⟩
  · exact ⟨hrequest.nodeId, hrequest.workflowId, hrequest.key, hrequest.approvalId,
      Or.inl hrequest.toolName, by rw [hstatus]; rfl⟩
  · exact ⟨hrequest.nodeId, hrequest.workflowId, hrequest.key, hrequest.approvalId,
      Or.inr (htool.trans (congrArg some hrequest.toolName.symm)), by rw [hstatus]; rfl⟩

/-- Every workflow stored in `s` is stored in `t`, and its nodes there continue those here. -/
def KeepsPlans (s t : InMemoryWorkflowRepository) : Prop :=
  ∀ workflowId workflow, s.getWorkflow workflowId = some workflow →
    ∃ later, t.getWorkflow workflowId = some later ∧ Continues workflow.nodes later.nodes

/-- The plans of the stored workflows stay as they were at the beginning. -/
theorem Traced.keepsPlans (h : Traced E calls s r) (hunraced : Unraced calls r) :
    KeepsPlans s r.state := by
  refine h.induct (P := fun r => Unraced calls r → KeepsPlans s r.state) (fun _ => ?_)
    (fun r c o env hr hevent ih hunraced => ?_) hunraced
  · -- in the first state both workflows are the same
    exact fun workflowId workflow hstored => ⟨workflow, hstored, .refl _⟩
  · intro workflowId workflow hstored
    obtain ⟨current, hcurrent, hplans⟩ :=
      ih (fun d older hd => hunraced d older (hd.trans (List.suffix_cons _ _))) workflowId workflow
        hstored
    rw [Run.perform_state]
    cases hsaved : o.saved with
    | none =>
        rw [state_of_no_save hsaved]
        exact ⟨current, hcurrent, hplans⟩
    | some new =>
        rw [getWorkflow_of_saves hsaved]
        split
        · -- what is written continues what is stored
          rename_i hid
          obtain ⟨_, workflow, _, htouched, hsaves⟩ := hevent.saves new hsaved
          have hlast := hunraced _ _ (List.suffix_refl _)
            (Or.inl (Option.isSome_iff_exists.mpr ⟨new, hsaved⟩))
          have hsame : r.state.getWorkflow workflowId = some workflow := by
            rw [hid, hsaves.id]
            exact hlast.trans htouched
          rw [hcurrent] at hsame
          cases hsame
          exact ⟨new, rfl, hplans.trans
            (hsaves.nodes.imp fun _ _ hstep => ⟨hstep.plan, hstep.references⟩)⟩
        · exact ⟨current, hcurrent, hplans⟩

end Unraced

/-! ### Repositories for small examples -/

/-- The repository with what the validator of the small service makes of a draft: the workflow
gets the id 5. -/
def InMemoryWorkflowRepository.holding (draft : WorkflowPlanDraft) : InMemoryWorkflowRepository :=
  match ((WorkflowPlanningService.small.validator.validate draft "api-user" "ENGINEER"
    ["restart_device", "get_device_status", "create_ticket"]).exec engineSystem ()
      (EngineEnv.steps 5 2) (Run.start {})).1.result? with
  | some workflow => { workflows := Dict.empty.set workflow.id workflow }
  | none => {}

theorem acceptsAll_holding (draft : WorkflowPlanDraft) :
    WorkflowPlanningService.small.AcceptsAll (.holding draft) := by
  intro workflowId workflow hstored
  unfold InMemoryWorkflowRepository.holding at hstored
  split at hstored
  · rename_i made hmade
    rw [InMemoryWorkflowRepository.getWorkflow, Dict.get?_set] at hstored
    split at hstored
    · rename_i hid
      cases hstored
      exact ⟨hid.symm, Or.inl ⟨_, _, _, _, _, Procedure.returns_of_exec hmade⟩⟩
    · cases hstored
  · cases hstored

/-- `count` turns of call `k` in the surroundings `env`. -/
def engineTurns (k : ℕ) (env : EngineEnv) (count : ℕ) : List (ℕ × EngineEnv) :=
  List.replicate count (k, env)

theorem sequential_turn (k : ℕ) (env : EngineEnv) (count : ℕ) :
    Sequential (engineTurns k env count) := by
  rw [Proc.Sequential, engineTurns, List.map_replicate]
  exact List.pairwise_replicate.mpr (Or.inr le_rfl)

/-- The turns of a call come before those of a later one. -/
theorem sequential_turns {k l : ℕ} (h : k ≤ l) (env env' : EngineEnv) (count count' : ℕ) :
    Sequential (engineTurns k env count ++ engineTurns l env' count') := by
  rw [Proc.Sequential, List.map_append]
  refine List.pairwise_append.mpr ⟨sequential_turn k env count, sequential_turn l env' count', ?_⟩
  intro a ha b hb
  rw [engineTurns, List.map_replicate] at ha hb
  rw [List.eq_of_mem_replicate ha, List.eq_of_mem_replicate hb]
  exact h

/-- A node that reads the status of a device. -/
def readNode (id : String) (h : 1 ≤ id.length ∧ id.length ≤ 120) (dependsOn : List String := []) :
    WorkflowNode where
  id
  toolName := "get_device_status"
  toolServer := "device-mcp"
  description := "Read the status."
  dependsOn
  riskLevel := "READ_ONLY"
  id_length := h

/-- A plan with the nodes. -/
def smallDraft (nodes : List WorkflowNode) : WorkflowPlanDraft where
  userRequest := "How is dev-1?"
  plannerModel := "json-workflow-planner-test"
  confidence := .finite 1
  nodes

/-- A plan that reads the status of a device. -/
def readOnce : WorkflowPlanDraft := smallDraft [readNode "first" (by decide)]

/-- A plan that reads the status of a device twice. -/
def readTwice : WorkflowPlanDraft :=
  smallDraft [readNode "first" (by decide), readNode "second" (by decide) ["first"]]

theorem first_length : 1 ≤ "first".length ∧ "first".length ≤ 120 := by decide

theorem second_length : 1 ≤ "second".length ∧ "second".length ≤ 120 := by decide

/-- A node that opens a ticket. -/
def ticketNode : WorkflowNode where
  id := "ticket"
  toolName := "create_ticket"
  toolServer := "ticket-mcp"
  description := "Open a ticket."
  riskLevel := "MEDIUM"
  id_length := by decide

/-- A plan that opens a ticket. -/
def ticketOnce : WorkflowPlanDraft := smallDraft [ticketNode]

end McpOps
