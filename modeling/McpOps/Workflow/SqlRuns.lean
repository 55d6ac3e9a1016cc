import Mathlib
import McpOps.Workflow.History
import McpOps.Workflow.Limits

/-!
# The service over the SQL repository

Planning and the operations of the engine, over tables that are read back at every call.  In every
interleaving of calls, each save is stored and comes back as it is exactly when the workflow is
`Storable`.

## Strategy

A save of a run comes down to `roundTrips_iff`, which needs a workflow within the limits of the
models.  Two facts give that.

* What is loaded has been checked (`kept_of_getWorkflow`): the models are built anew, and a
  workflow that does not pass is not returned at all.
* What is written on from there stays within the limits (`serveCall_stores`), whoever calls.

`runSql_withinLimits` is the induction over the interleaving.  Besides the limits it carries that
the keys of the tables are sound, since a node is found again by its key (`sound_of_save`).

The last runs plan one workflow over empty tables, with a confidence that its column has room for
and with one that it rounds.
-/

namespace McpOps

open Proc

/-! ## Calls and tables -/

/-- A call of the planning service. -/
inductive ServiceCall where
  | plan (draft : WorkflowPlanDraft) (request : WorkflowPlanRequest)
    (discoveredTools : List String) (knowledge : List PyDict)
  | operation (call : WorkflowCall)

/-- The code of a call. -/
def WorkflowPlanningService.serveCall (E : WorkflowPlanningService) :
    ServiceCall → EngineM Workflow
  | .plan draft request discoveredTools knowledge =>
      E.planDraft draft request discoveredTools knowledge
  | .operation call => E.serve call

/-- A planner drafts within the limits of its model. -/
def ServiceCall.Kept : ServiceCall → Prop
  | .plan draft .. => draft.Kept
  | .operation _ => True

/-- How the surroundings answer over tables.  A workflow that cannot be loaded ends its call just
as one that is not there does.  After a save that is refused the call goes on here, where the code
raises, so the runs have every save of the code and perhaps more. -/
def sqlSystem (D : SqlDialect) : System engineInterface WorkflowTables EngineEnv where
  answer o env db :=
    match o with
    | .getWorkflow workflowId => ((D.getWorkflow workflowId db).toOption.join, db)
    | .saveWorkflow workflow => ((), (D.saveWorkflow workflow db).toOption.getD db)
    | .saveWorkflowWithEvent workflow _ => ((), (D.saveWorkflow workflow db).toOption.getD db)
    | .now => (env.clock, db)
    | .uuid4 => (env.freshId, db)
    | .callTool _ => (env.gateway, db)

/-- The calls of the service, interleaved over the tables. -/
def WorkflowPlanningService.runSql (E : WorkflowPlanningService) (D : SqlDialect)
    (db : WorkflowTables) (calls : ℕ → ServiceCall) (schedule : List (ℕ × EngineEnv)) :
    Run engineInterface ℕ WorkflowTables :=
  (interleave (sqlSystem D) (fun c => E.serveCall (calls c)) schedule (Run.start db)).2

/-- The keys of the tables: a workflow is found under its id, and its nodes have distinct keys. -/
structure WorkflowTables.Sound (db : WorkflowTables) : Prop where
  id : ∀ workflowId row, db.workflows.get? workflowId = some row → row.id = workflowId
  nodeKeys : ∀ workflowId,
    ((db.nodes.filter fun row => row.workflowId = workflowId).map (·.nodeKey)).Nodup

section Loading

variable {D : SqlDialect} {db : WorkflowTables} {workflow : Workflow}

theorem ArgumentReference.valid_of_load {fields : PyDict} {reference : ArgumentReference}
    (h : ArgumentReference.load fields = some reference) : reference.valid := by
  simp only [load, Option.bind_eq_bind, Option.bind_eq_some_iff, Option.ite_none_right_eq_some] at h
  obtain ⟨_, -, _, -, _, -, ⟨-, hvalid⟩, hsame⟩ := h
  cases hsame
  exact hvalid

theorem WorkflowCondition.valid_of_load {fields : PyDict} {condition : WorkflowCondition}
    (h : WorkflowCondition.load fields = some condition) : condition.valid := by
  simp only [load, Option.bind_eq_bind, Option.bind_eq_some_iff, Option.ite_none_right_eq_some] at h
  obtain ⟨_, -, _, -, _, -, ⟨-, hvalid⟩, hsame⟩ := h
  cases hsame
  exact hvalid

theorem valid_of_loadEvaluation {fields : PyDict} {evaluation : WorkflowPolicyEvaluation}
    (h : D.loadEvaluation fields = some evaluation) : evaluation.valid := by
  rw [SqlDialect.loadEvaluation] at h
  iterate 10 obtain ⟨_, -, h⟩ := Option.bind_eq_some_iff.mp h
  obtain ⟨⟨-, hvalid⟩, hsame⟩ := Option.ite_none_right_eq_some.mp h
  cases hsame
  exact hvalid

theorem valid_of_loadEvent {fields : PyDict} {event : WorkflowAuditEvent}
    (h : D.loadEvent fields = some event) : event.valid := by
  rw [SqlDialect.loadEvent] at h
  iterate 6 obtain ⟨_, -, h⟩ := Option.bind_eq_some_iff.mp h
  obtain ⟨⟨-, hvalid⟩, hsame⟩ := Option.ite_none_right_eq_some.mp h
  cases hsame
  exact hvalid

theorem valid_of_loadEdge {row : WorkflowEdgeRow} {edge : WorkflowEdge}
    (h : SqlDialect.loadEdge row = some edge) : edge.valid := by
  simp only [SqlDialect.loadEdge, Option.ite_none_right_eq_some] at h
  obtain ⟨hvalid, hsame⟩ := h
  cases hsame
  exact hvalid

/-- What an optional model is loaded to has been loaded. -/
theorem of_loadOptional {α : Type} {load : PyDict → Option α} {fields : Option PyDict} {a : α}
    (h : loadOptional load fields = some (some a)) : ∃ fields, load fields = some a := by
  cases fields with
  | none => cases h
  | some fields =>
      rw [loadOptional] at h
      split at h
      · cases h
      · obtain ⟨a', hload, hsame⟩ := Option.map_eq_some_iff.mp h
        cases hsame
        exact ⟨fields, hload⟩

/-- The checks of a node say more than its limits. -/
theorem WorkflowNode.valid_withoutError {node : WorkflowNode} (h : node.valid) :
    { node with lastError := none }.valid := by
  simp only [WorkflowNode.valid, decide_eq_true_eq] at h ⊢
  obtain ⟨h₁, h₂, h₃, h₄, h₅, h₆, h₇, h₈, h₉, h₁₀, h₁₁, -, h₁₃⟩ := h
  exact ⟨h₁, h₂, h₃, h₄, h₅, h₆, h₇, h₈, h₉, h₁₀, h₁₁, rfl, h₁₃⟩

theorem LoadedNode.fits {id : UUID} {row : WorkflowNodeRow} {node : WorkflowNode}
    (h : LoadedNode D id row node) : node.Fits id := by
  refine ⟨⟨WorkflowNode.valid_withoutError h.valid, fun reference hreference => ?_,
    fun condition hsame => ?_, fun evaluation hsame => ?_⟩, h.workflowId_eq⟩
  · obtain ⟨_, -, hload⟩ := mem_of_mapM h.references hreference
    exact ArgumentReference.valid_of_load hload
  · obtain ⟨_, hload⟩ := of_loadOptional (hsame ▸ h.condition)
    exact WorkflowCondition.valid_of_load hload
  · obtain ⟨_, hload⟩ := of_loadOptional (hsame ▸ h.evaluation)
    exact valid_of_loadEvaluation hload

/-- What is loaded from rows has their keys, in their order. -/
theorem map_eq_of_mapM {α β γ : Type} {f : β → Option α} {key : α → γ} {rowKey : β → γ}
    (hkey : ∀ b a, f b = some a → key a = rowKey b) {l : List β} {loaded : List α}
    (h : l.mapM f = some loaded) : loaded.map key = l.map rowKey := by
  induction l generalizing loaded with
  | nil =>
      cases h
      rfl
  | cons b rest ih =>
      rw [List.mapM_cons] at h
      obtain ⟨first, hfirst, h⟩ := Option.bind_eq_some_iff.mp h
      obtain ⟨others, hothers, h⟩ := Option.bind_eq_some_iff.mp h
      cases h
      rw [List.map_cons, List.map_cons, hkey b first hfirst, ih hothers]

theorem LoadedWorkflow.kept {row : WorkflowRow} {nodeRows : List WorkflowNodeRow}
    {edgeRows : List WorkflowEdgeRow} (h : LoadedWorkflow D row nodeRows edgeRows workflow)
    (hkeys : (nodeRows.map (·.nodeKey)).Nodup) : workflow.Kept := by
  have hfits : ∀ node ∈ workflow.nodes, node.Fits workflow.id := by
    intro node hnode
    obtain ⟨_, -, hload⟩ := mem_of_mapM h.nodes hnode
    exact h.id ▸ (of_loadNode hload).fits
  refine ⟨⟨?_, fun node hnode => (hfits node hnode).workflowId⟩, ?_,
    fun node hnode => (hfits node hnode).toKept, fun edge hedge => ?_, fun event hevent => ?_⟩
  · -- the keys of the rows, in another order
    have hids := map_eq_of_mapM (fun _ _ hload => (of_loadNode hload).nodeKey) h.nodes
    rw [Workflow.nodeIds, hids]
    exact ((List.perm_insertionSort ..).map _).nodup_iff.mpr hkeys
  · have hvalid := h.valid
    simp only [Workflow.valid, decide_eq_true_eq] at hvalid ⊢
    obtain ⟨h₁, h₂, h₃, h₄, h₅, h₆, h₇, h₈, -⟩ := hvalid
    exact ⟨h₁, h₂, h₃, h₄, h₅, h₆, h₇, h₈, Nat.zero_le _⟩
  · obtain ⟨_, hload⟩ := h.edges edge hedge
    exact valid_of_loadEdge hload
  · obtain ⟨_, hload⟩ := h.events event hevent
    exact valid_of_loadEvent hload

/-- What is loaded from sound tables is within the limits. -/
theorem kept_of_getWorkflow (hdb : db.Sound) {workflowId : UUID}
    (h : D.getWorkflow workflowId db = .ok (some workflow)) : workflow.Kept := by
  rw [SqlDialect.getWorkflow] at h
  split at h
  · cases h
  · split at h
    · rename_i hloaded
      cases h
      exact (of_workflowFromRow hloaded).kept (hdb.nodeKeys workflowId)
    · cases h

end Loading

/-! ## Runs -/

section Runs

variable {E : WorkflowPlanningService} {D : SqlDialect} {db db' : WorkflowTables}
  {workflow : Workflow}

/-- A save keeps the keys. -/
theorem sound_of_save (hdb : db.Sound) (h : D.saveWorkflow workflow db = .ok db') : db'.Sound := by
  rw [SqlDialect.saveWorkflow] at h
  split at h
  · cases h
  split at h
  · cases h
  split at h
  · cases h
  rename_i hconstraints
  obtain ⟨-, hkeys⟩ := not_not.mp hconstraints
  cases h
  constructor
  · -- each row is stored under its own id
    intro workflowId row hrow
    rw [Dict.get?_set] at hrow
    split at hrow
    · rename_i hid
      cases hrow
      exact hid.symm
    · exact hdb.id workflowId row hrow
  · intro workflowId
    by_cases hid : workflowId = workflow.id
    · subst hid
      -- the rows of this workflow are those that were written
      have hown := filter_rows WorkflowNodeRow.workflowId workflow.id db.nodes
        (workflow.nodes.map (D.nodeRow workflow.id)) (by simp [SqlDialect.nodeRow])
      dsimp only
      rw [hown]
      exact hkeys
    · -- the rows of another workflow are those that were there
      have hnew : (workflow.nodes.map (D.nodeRow workflow.id)).filter
          (fun row => row.workflowId = workflowId) = [] := by
        refine List.filter_eq_nil_iff.mpr fun row hrow => ?_
        obtain ⟨node, -, rfl⟩ := List.mem_map.mp hrow
        exact fun hsame => hid (of_decide_eq_true hsame).symm
      have hold : (db.nodes.filter fun row => row.workflowId ≠ workflow.id).filter
          (fun row => row.workflowId = workflowId) =
            db.nodes.filter fun row => row.workflowId = workflowId := by
        rw [List.filter_filter]
        refine List.filter_congr fun row _ => ?_
        by_cases hrow : row.workflowId = workflowId <;> simp [hrow, hid]
      dsimp only
      rw [List.filter_append, hnew, List.append_nil, hold]
      exact hdb.nodeKeys workflowId

theorem sound_of_answer (hdb : db.Sound) (o : WorkflowOp) (env : EngineEnv) :
    ((sqlSystem D).answer o env db).2.Sound := by
  have hsaved : ∀ workflow, ((D.saveWorkflow workflow db).toOption.getD db).Sound := by
    intro workflow
    cases h : D.saveWorkflow workflow db with
    | error e => exact hdb
    | ok db' => exact sound_of_save hdb h
  cases o with
  | saveWorkflow workflow => exact hsaved workflow
  | saveWorkflowWithEvent workflow event => exact hsaved workflow
  | _ => exact hdb

theorem checked_of_answer (hdb : db.Sound) (o : WorkflowOp) (env : EngineEnv) :
    EngineEvent.Checked ⟨o, ((sqlSystem D).answer o env db).1⟩ := by
  cases o with
  | getWorkflow workflowId =>
      intro workflow hworkflow
      change (D.getWorkflow workflowId db).toOption.join = some workflow at hworkflow
      cases h : D.getWorkflow workflowId db with
      | error e =>
          rw [h] at hworkflow
          cases hworkflow
      | ok loaded =>
          rw [h] at hworkflow
          change loaded = some workflow at hworkflow
          rw [hworkflow] at h
          exact kept_of_getWorkflow hdb h
  | _ => trivial

theorem serveCall_stores (hregistry : E.validator.registry.Fits) {call : ServiceCall}
    (hcall : call.Kept) : Stores (fun _ => True) (E.serveCall call) := by
  cases call with
  | plan draft request discoveredTools knowledge =>
      exact WorkflowPlanningService.planDraft_stores hregistry hcall ..
  | operation call => exact WorkflowPlanningService.serve_stores call

/-- In every run, each save is of a workflow within the limits, over tables whose keys are
sound. -/
theorem runSql_withinLimits (hregistry : E.validator.registry.Fits) (hdb : db.Sound)
    {calls : ℕ → ServiceCall} (hcalls : ∀ c, (calls c).Kept) (schedule : List (ℕ × EngineEnv)) :
    ∀ d ∈ (E.runSql D db calls schedule).past, d.before.Sound ∧ WithinLimits d.op :=
  interleave_issues WorkflowTables.Sound (fun o env _ h => checked_of_answer h o env)
    (fun o env _ _ h => sound_of_answer h o env) schedule _ hdb
    (fun _ hd => absurd hd List.not_mem_nil) fun c => serveCall_stores hregistry (hcalls c)

/-- Whatever the service saves in a run is stored and comes back as it is, up to the order of
nodes and edges, exactly when the database takes its values, the column has room for its confidence,
the version column takes its version, and the limits hold that the engine does not keep: at most 200
audit events, and no error of a node longer than 600 characters. -/
theorem runSql_roundTrips_iff (hD : D.Lawful) (hregistry : E.validator.registry.Fits)
    (hdb : db.Sound) {calls : ℕ → ServiceCall} (hcalls : ∀ c, (calls c).Kept)
    (schedule : List (ℕ × EngineEnv)) :
    ∀ d ∈ (E.runSql D db calls schedule).past, ∀ workflow, d.op.saved = some workflow →
      (D.RoundTrips d.before workflow ↔
        workflow.Storable D (d.before.workflows.get? workflow.id)) := by
  intro d hd workflow hsaved
  obtain ⟨-, hlimits⟩ := runSql_withinLimits hregistry hdb hcalls schedule d hd
  exact roundTrips_iff hD (hlimits workflow hsaved)

end Runs

/-! ### A dialect for small examples -/

/-- Numbers are exact until the column rounds them, a first version is stored as 1, and integers
have 64 bits. -/
def SqlDialect.small : SqlDialect where
  toDecimal x :=
    match x with
    | .finite q => q
    | _ => 0
  toFloat := .finite
  numeric d := (⌊d * 1000 + 1 / 2⌋₊ : ℚ) / 1000
  versionColumn existing version := existing.elim 1 fun _ => version
  takesText _ := true
  takesJson _ := true
  takesInteger n := n < 2 ^ 63
  parseDatetime := String.toInt?
  runtime := .plain

theorem SqlDialect.small_lawful : SqlDialect.small.Lawful where
  toDecimal_share := by
    intro x hx
    cases x with
    | finite q => exact of_decide_eq_true hx
    | _ => cases hx
  toFloat_toDecimal := by
    intro x hx
    cases x with
    | finite q => rfl
    | _ => cases hx
  toFloat_share := by
    rintro d ⟨n, hn, rfl⟩
    have hle : (n : ℚ) ≤ 1000 := by exact_mod_cast hn
    exact decide_eq_true ⟨by positivity, by linarith⟩
  toDecimal_toFloat := fun _ _ => rfl
  numeric_thousandth := by
    rintro d ⟨n, -, rfl⟩
    have hfloor : ⌊(n : ℚ) / 1000 * 1000 + 1 / 2⌋₊ = n := by
      rw [Nat.floor_eq_iff (by positivity)]
      constructor <;> linarith
    show (⌊(n : ℚ) / 1000 * 1000 + 1 / 2⌋₊ : ℚ) / 1000 = n / 1000
    rw [hfloor]
  thousandth_numeric := by
    intro d hleast hmost
    refine ⟨⌊d * 1000 + 1 / 2⌋₊, ?_, rfl⟩
    have hlt : ⌊d * 1000 + 1 / 2⌋₊ < 1001 :=
      (Nat.floor_lt' (by norm_num)).mpr (by norm_num; linarith)
    omega
  parseDatetime_isoformat := Int.toInt?_repr

/-- The call that plans to read the status of a device, with the confidence. -/
def planReading (confidence : ℚ) : ServiceCall :=
  .plan { readOnce with confidence := .finite confidence } { userRequest := "How is dev-1?" }
    ["get_device_status"] []

/-- The planning of a workflow with the confidence, over empty tables. -/
def planned (confidence : ℚ) : Run engineInterface ℕ WorkflowTables :=
  WorkflowPlanningService.small.runSql .small {} (fun _ => planReading confidence)
    (engineTurns 0 (.at 5 (.ok succeededResponse)) 8)

theorem small_registry_fits : WorkflowPlanningService.small.validator.registry.Fits := by
  intro toolName metadata hlookup
  obtain ⟨_, _, hmem⟩ := List.lookup_eq_some_iff.mp hlookup
  have hentry : (toolName, metadata) ∈ WorkflowPlanningService.small.validator.registry := by
    rw [hmem.1]
    simp
  simp only [WorkflowPlanningService.small, List.mem_cons, Prod.mk.injEq, List.not_mem_nil,
    or_false] at hentry
  rcases hentry with ⟨-, rfl⟩ | ⟨-, rfl⟩ | ⟨-, rfl⟩
  · exact ⟨by decide, by decide, by decide, by decide⟩
  · exact ⟨by decide, by decide, by decide, by decide⟩
  · exact ⟨by decide, by decide, by decide, by decide⟩

theorem planReading_kept {confidence : ℚ} (hleast : 0 ≤ confidence) (hmost : confidence ≤ 1) :
    (planReading confidence).Kept where
  fields := by
    have hshare : (PyFloat.finite confidence).isShare := decide_eq_true ⟨hleast, hmost⟩
    have hrequest : hasLength 2 2000 readOnce.userRequest := by decide
    have hmodel : hasLength 1 120 readOnce.plannerModel := by decide
    have hnodes : readOnce.nodes.length ≤ 25 ∧ readOnce.edges.length ≤ 50 := by decide
    exact decide_eq_true ⟨hrequest, hmodel, hshare, hnodes⟩
  nodes := by
    intro node hnode
    have hnode : node ∈ [readNode "first" (by decide)] := hnode
    rw [List.mem_singleton.mp hnode]
    exact ⟨by decide, by simp [readNode], by simp [readNode], by simp [readNode]⟩
  edges := fun _ hedge => absurd hedge List.not_mem_nil

theorem empty_sound : WorkflowTables.Sound {} where
  id := fun _ _ hrow => by cases hrow
  nodeKeys := fun _ => List.nodup_nil

/-- What planning saves, with the tables before it. -/
theorem exists_planned (confidence : ℚ) : ∃ d ∈ (planned confidence).past, ∃ workflow,
    d.op.saved = some workflow ∧ workflow.confidence = .finite confidence ∧ workflow.version = 1 ∧
      workflow.auditEvents.length = 3 ∧ workflow.nodes.map (·.lastError) = [none] ∧
        SqlDialect.small.takes none workflow ∧ d.before.workflows = Dict.empty := by
  have hsaved : ((planned confidence).past.findSome? fun d => d.op.saved.map fun workflow =>
      (workflow.confidence, workflow.version, workflow.auditEvents.length,
        workflow.nodes.map (·.lastError), SqlDialect.small.takes none workflow,
        d.before.workflows)) =
      some (.finite confidence, 1, 3, [none], true, Dict.empty) := by rfl
  obtain ⟨d, hd, hd'⟩ := List.exists_of_findSome?_eq_some hsaved
  obtain ⟨workflow, hworkflow, hsame⟩ := Option.map_eq_some_iff.mp hd'
  simp only [Prod.mk.injEq] at hsame
  exact ⟨d, hd, workflow, hworkflow, hsame⟩

/-- A workflow with the confidence one half comes back as it was planned. -/
theorem runSql_roundTrips_half : ∃ d ∈ (planned (1 / 2)).past, ∃ workflow,
    d.op.saved = some workflow ∧ SqlDialect.small.RoundTrips d.before workflow := by
  obtain ⟨d, hd, workflow, hsaved, hconfidence, hversion, hevents, herrors, htakes, hbefore⟩ :=
    exists_planned (1 / 2)
  refine ⟨d, hd, workflow, hsaved, ?_⟩
  have hiff := runSql_roundTrips_iff SqlDialect.small_lawful small_registry_fits empty_sound
    (fun _ => planReading_kept (by norm_num) (by norm_num)) _ d hd workflow hsaved
  have hrow : d.before.workflows.get? workflow.id = none := by
    rw [hbefore]
    rfl
  refine hiff.mpr ⟨?_, fun row h => ?_, ⟨500, by norm_num, ?_⟩, ?_, ?_,
    fun node hnode error h => ?_⟩
  · rw [hrow]
    exact htakes
  · rw [hrow] at h
    cases h
  · rw [hconfidence]
    norm_num [SqlDialect.small]
  · rw [hrow, hversion]
    rfl
  · rw [hevents]
    decide
  · have hnone : node.lastError ∈ workflow.nodes.map (·.lastError) := List.mem_map_of_mem hnode
    rw [herrors, List.mem_singleton, h] at hnone
    cases hnone

/-- A confidence of one sixteenth is rounded to three digits, and does not come back. -/
theorem planned_confidence_rounded : ∃ d ∈ (planned (1 / 16)).past, ∃ workflow,
    d.op.saved = some workflow ∧ ¬ SqlDialect.small.RoundTrips d.before workflow := by
  obtain ⟨d, hd, workflow, hsaved, hconfidence, -⟩ := exists_planned (1 / 16)
  refine ⟨d, hd, workflow, hsaved, fun htrip => ?_⟩
  obtain ⟨-, hlimits⟩ := runSql_withinLimits small_registry_fits empty_sound
    (fun _ => planReading_kept (by norm_num) (by norm_num)) _ d hd
  obtain ⟨n, -, hn⟩ :=
    ((roundTrips_iff SqlDialect.small_lawful (hlimits workflow hsaved)).mp htrip).confidence
  rw [hconfidence] at hn
  -- twice the number of thousandths would be 125
  have hdouble : (2 * n : ℚ) = 125 := by
    have hn : (1 / 16 : ℚ) = n / 1000 := hn
    linarith
  have hdouble : 2 * n = 125 := by exact_mod_cast hdouble
  omega

end McpOps
