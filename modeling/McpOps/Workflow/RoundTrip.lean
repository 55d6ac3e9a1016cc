import Mathlib.Algebra.Order.Ring.Rat
import Mathlib.Tactic.Linarith
import Mathlib.Tactic.Positivity
import McpOps.Workflow.Plans
import McpOps.Workflow.SqlRepository

/-!
# Workflows in the tables and back

What a workflow needs to come back from its tables as it was stored.  Most limits of the models
are kept by whatever the engine does (`Workflow.Kept`).  Those on the number of audit events and
on the length of an error are not, a confidence loses what its column has no room for, and a
database may refuse a text or a number.

## Strategy

`SqlDialect.Lawful` has what the number types and the column of the confidence are trusted with.
Under it a confidence comes back exactly when it has three digits at most
(`SqlDialect.Lawful.confidence`).

The small models go through JSON, and each has a lemma that its dump loads as the model, if that
passes its own checks (`ArgumentReference.load_dump`, `loadEvaluation_dump` and so on).  With them a
node within the limits comes back from its row (`loadNode_nodeRow`).

* There: `saveWorkflow_eq` says what the tables are after a save, `getWorkflow_savedTables` which
  rows are read for the workflow, and `workflowFromRow_eq` that they load as the workflow with its
  nodes and edges sorted.
* Back: a workflow that has come back has been taken by the database (`takes_of_saveWorkflow`) and
  has passed every check (`of_workflowFromRow`), which gives the fields of `Storable` one by one.
-/

namespace McpOps

/-! ## What the parameters are trusted with -/

/-- A number of thousandths from zero to one. -/
def Thousandth (d : ℚ) : Prop := ∃ n : ℕ, n ≤ 1000 ∧ d = (n : ℚ) / 1000

/-- The documented behaviour of the number types and of the column for them: the decimal that a
float is written as reads as the float again, three digits survive a float and fit into the
column, and the column rounds to three digits.  A time can be read from its text. -/
structure SqlDialect.Lawful (D : SqlDialect) : Prop where
  toDecimal_share : ∀ x : PyFloat, x.isShare → 0 ≤ D.toDecimal x ∧ D.toDecimal x ≤ 1
  toFloat_toDecimal : ∀ x : PyFloat, x.isShare → D.toFloat (D.toDecimal x) = x
  toFloat_share : ∀ d, Thousandth d → (D.toFloat d).isShare
  toDecimal_toFloat : ∀ d, Thousandth d → D.toDecimal (D.toFloat d) = d
  numeric_thousandth : ∀ d, Thousandth d → D.numeric d = d
  thousandth_numeric : ∀ d, 0 ≤ d → d ≤ 1 → Thousandth (D.numeric d)
  parseDatetime_isoformat : ∀ t, D.parseDatetime (D.runtime.isoformat t) = some t

/-- A confidence comes back exactly when it has three digits at most. -/
theorem SqlDialect.Lawful.confidence {D : SqlDialect} (hD : D.Lawful) {x : PyFloat}
    (hx : x.isShare) :
    D.toFloat (D.numeric (D.toDecimal x)) = x ↔ Thousandth (D.toDecimal x) := by
  obtain ⟨hleast, hmost⟩ := hD.toDecimal_share x hx
  constructor
  · intro hback
    have hthousandth := hD.thousandth_numeric _ hleast hmost
    have hdecimal := hD.toDecimal_toFloat _ hthousandth
    rw [hback] at hdecimal
    rwa [hdecimal]
  · intro hthousandth
    rw [hD.numeric_thousandth _ hthousandth, hD.toFloat_toDecimal x hx]

/-! ## What the engine keeps -/

/-- All limits of a node but the one on its error. -/
structure WorkflowNode.Kept (node : WorkflowNode) : Prop where
  fields : { node with lastError := none }.valid
  references : ∀ reference ∈ node.argumentReferences, reference.valid
  condition : ∀ condition, node.typedCondition = some condition → condition.valid
  evaluation : ∀ evaluation, node.policyEvaluation = some evaluation → evaluation.valid

/-- All limits of a workflow but those on the errors of its nodes and on the number of its
events. -/
structure Workflow.Kept (workflow : Workflow) : Prop where
  sound : workflow.Sound
  fields : { workflow with auditEvents := [] }.valid
  nodes : ∀ node ∈ workflow.nodes, node.Kept
  edges : ∀ edge ∈ workflow.edges, edge.valid
  events : ∀ event ∈ workflow.auditEvents, event.valid

/-- The error of a node fits into the model. -/
def WorkflowNode.ShortError (node : WorkflowNode) : Prop :=
  ∀ error, node.lastError = some error → error.length ≤ 600

theorem WorkflowNode.Kept.valid_iff {node : WorkflowNode} (h : node.Kept) :
    node.valid ↔ node.ShortError := by
  have hfields := h.fields
  simp only [WorkflowNode.valid, decide_eq_true_eq, Option.all_none] at hfields
  obtain ⟨h₁, h₂, h₃, h₄, h₅, h₆, h₇, h₈, h₉, h₁₀, h₁₁, -, h₁₂⟩ := hfields
  simp only [WorkflowNode.valid, decide_eq_true_eq]
  constructor
  · rintro ⟨-, -, -, -, -, -, -, -, -, -, -, herror, -⟩ error hlast
    rw [hlast, Option.all_some, hasLength, decide_eq_true_eq] at herror
    exact herror.2
  · intro hshort
    refine ⟨h₁, h₂, h₃, h₄, h₅, h₆, h₇, h₈, h₉, h₁₀, h₁₁, ?_, h₁₂⟩
    rw [Option.all_eq_true]
    intro error hlast
    rw [hasLength, decide_eq_true_eq]
    exact ⟨Nat.zero_le _, hshort error hlast⟩

theorem Workflow.Kept.valid_iff {workflow : Workflow} (h : workflow.Kept) :
    workflow.valid ↔ workflow.auditEvents.length ≤ 200 := by
  have hfields := h.fields
  simp only [Workflow.valid, decide_eq_true_eq] at hfields ⊢
  obtain ⟨h₁, h₂, h₃, h₄, h₅, h₆, h₇, h₈, -⟩ := hfields
  exact ⟨fun h => h.2.2.2.2.2.2.2.2, fun hevents => ⟨h₁, h₂, h₃, h₄, h₅, h₆, h₇, h₈, hevents⟩⟩

/-! ## Dumps -/

section Dumps

theorem ArgumentReference.load_dump {reference : ArgumentReference} (h : reference.valid) :
    ArgumentReference.load reference.dump = some reference := by
  simp [load, dump, textField, onlyFields, List.lookup_cons, h]

theorem WorkflowCondition.load_dump {condition : WorkflowCondition} (h : condition.valid) :
    WorkflowCondition.load condition.dump = some condition := by
  simp [load, dump, textField, optionalField, onlyFields, List.lookup_cons, h]

theorem optionalField_optionalText {fields : PyDict} {key : String} {text : Option String}
    (h : fields.lookup key = some (optionalText text)) : optionalField fields key = some text := by
  rw [optionalField, h]
  cases text <;> rfl

variable {D : SqlDialect}

theorem loadEvaluation_dump (hD : D.Lawful) {evaluation : WorkflowPolicyEvaluation}
    (h : evaluation.valid) : D.loadEvaluation (D.dumpEvaluation evaluation) = some evaluation := by
  have hresource : optionalField (D.dumpEvaluation evaluation) "resource" =
      some evaluation.resource := optionalField_optionalText rfl
  simp only [SqlDialect.loadEvaluation, hresource]
  simp [SqlDialect.dumpEvaluation, textField, onlyFields, List.lookup_cons, h,
    hD.parseDatetime_isoformat]

theorem loadEvent_dump (hD : D.Lawful) {event : WorkflowAuditEvent} (h : event.valid) :
    D.loadEvent (D.dumpEvent event) = some event := by
  have hnode : optionalField (D.dumpEvent event) "node_id" = some event.nodeId :=
    optionalField_optionalText rfl
  simp only [SqlDialect.loadEvent, hnode]
  simp [SqlDialect.dumpEvent, textField, onlyFields, List.lookup_cons, h,
    hD.parseDatetime_isoformat]

/-- What can be loaded from each row can be loaded from all of them. -/
theorem mapM_load {α β : Type} {f : β → Option α} {g : α → β} {l : List α}
    (h : ∀ a ∈ l, f (g a) = some a) : (l.map g).mapM f = some l := by
  induction l with
  | nil => rfl
  | cons a rest ih =>
      rw [List.map_cons, List.mapM_cons, h a (List.mem_cons_self ..),
        ih fun b hb => h b (List.mem_cons_of_mem _ hb)]
      rfl

/-- What was loaded came from a row. -/
theorem mem_of_mapM {α β : Type} {f : β → Option α} {l : List β} {loaded : List α}
    (h : l.mapM f = some loaded) {a : α} (ha : a ∈ loaded) : ∃ b ∈ l, f b = some a := by
  induction l generalizing loaded with
  | nil =>
      cases h
      exact absurd ha List.not_mem_nil
  | cons b rest ih =>
      rw [List.mapM_cons] at h
      obtain ⟨first, hfirst, h⟩ := Option.bind_eq_some_iff.mp h
      obtain ⟨others, hothers, h⟩ := Option.bind_eq_some_iff.mp h
      cases h
      rcases List.mem_cons.mp ha with rfl | ha
      · exact ⟨b, List.mem_cons_self .., hfirst⟩
      · obtain ⟨b', hb', hload⟩ := ih hothers ha
        exact ⟨b', List.mem_cons_of_mem _ hb', hload⟩

theorem loadOptional_map {α : Type} {load : PyDict → Option α} {dump : α → PyDict} {o : Option α}
    (hdump : ∀ a, (dump a).isEmpty = false) (h : ∀ a, o = some a → load (dump a) = some a) :
    loadOptional load (o.map dump) = some o := by
  cases o with
  | none => rfl
  | some a => rw [Option.map_some, loadOptional, hdump a, h a rfl]; rfl

/-! ## Rows -/

theorem loadNode_nodeRow (hD : D.Lawful) {node : WorkflowNode} (h : node.Kept) {id : UUID}
    (hid : node.workflowId = some id) (hshort : node.ShortError) :
    D.loadNode id (D.nodeRow id node) = some node := by
  have hreferences : (node.argumentReferences.map (·.dump)).mapM ArgumentReference.load =
      some node.argumentReferences :=
    mapM_load fun reference hreference => ArgumentReference.load_dump (h.references _ hreference)
  have hcondition : loadOptional WorkflowCondition.load (node.typedCondition.map (·.dump)) =
      some node.typedCondition :=
    loadOptional_map (fun _ => rfl) fun condition hcondition =>
      WorkflowCondition.load_dump (h.condition condition hcondition)
  have hevaluation : loadOptional D.loadEvaluation (node.policyEvaluation.map D.dumpEvaluation) =
      some node.policyEvaluation :=
    loadOptional_map (fun _ => rfl) fun evaluation hevaluation =>
      loadEvaluation_dump hD (h.evaluation evaluation hevaluation)
  have hvalid := h.valid_iff.mpr hshort
  simp only [SqlDialect.loadNode, SqlDialect.nodeRow, hreferences, hcondition, hevaluation,
    WorkflowNodeStatus.ofValue?_value, RetryStrategy.ofValue?_value,
    WorkflowApprovalState.ofValue?_value, Option.bind_eq_bind, Option.bind_some,
    dif_pos node.id_length, ← hid]
  exact if_pos hvalid

theorem loadEdge_edgeRow {edge : WorkflowEdge} (h : edge.valid) (id : UUID) :
    SqlDialect.loadEdge (SqlDialect.edgeRow id edge) = some edge := if_pos h

/-- What a node that has been loaded from a row has been checked for. -/
structure LoadedNode (D : SqlDialect) (workflowId : UUID) (row : WorkflowNodeRow)
    (node : WorkflowNode) : Prop where
  valid : node.valid
  nodeKey : node.id = row.nodeKey
  workflowId_eq : node.workflowId = some workflowId
  references : row.argumentReferences.mapM ArgumentReference.load = some node.argumentReferences
  condition : loadOptional WorkflowCondition.load row.typedCondition = some node.typedCondition
  evaluation : loadOptional D.loadEvaluation row.policyEvaluation = some node.policyEvaluation

theorem of_loadNode {id : UUID} {row : WorkflowNodeRow} {node : WorkflowNode}
    (h : D.loadNode id row = some node) : LoadedNode D id row node := by
  simp only [SqlDialect.loadNode, Option.bind_eq_bind, Option.bind_eq_some_iff] at h
  obtain ⟨_, hreferences, _, hcondition, _, -, _, -, _, -, _, hevaluation, h⟩ := h
  split at h
  · split at h
    · cases h
      exact ⟨by assumption, rfl, rfl, hreferences, hcondition, hevaluation⟩
    · cases h
  · cases h

end Dumps

/-! ## One save -/

/-- Two workflows that list their nodes and edges in different orders. -/
def Workflow.SameUpToOrder (stored workflow : Workflow) : Prop :=
  ∃ nodes edges, nodes.Perm workflow.nodes ∧ edges.Perm workflow.edges ∧
    stored = { workflow with nodes, edges }

/-- The workflow is stored, and comes back as it is up to the order of nodes and edges. -/
def SqlDialect.RoundTrips (D : SqlDialect) (db : WorkflowTables) (workflow : Workflow) : Prop :=
  ∃ db' stored, D.saveWorkflow workflow db = .ok db' ∧
    D.getWorkflow workflow.id db' = .ok (some stored) ∧ stored.SameUpToOrder workflow

/-- What a workflow needs to be stored over the row that is there, and to come back.  The time of
creation is that of the first save. -/
structure Workflow.Storable (D : SqlDialect) (existing : Option WorkflowRow)
    (workflow : Workflow) : Prop where
  takes : D.takes existing workflow
  createdAt : ∀ row, existing = some row → row.createdAt = workflow.createdAt
  confidence : Thousandth (D.toDecimal workflow.confidence)
  version : D.versionColumn (existing.map (·.version)) workflow.version = workflow.version
  events : workflow.auditEvents.length ≤ 200
  errors : ∀ node ∈ workflow.nodes, node.ShortError

section Save

variable {D : SqlDialect} {db : WorkflowTables} {workflow stored : Workflow}

/-- The tables after a save. -/
def SqlDialect.savedTables (D : SqlDialect) (workflow : Workflow) (db : WorkflowTables) :
    WorkflowTables where
  workflows := db.workflows.set workflow.id
    (D.workflowRow (db.workflows.get? workflow.id) workflow)
  nodes := (db.nodes.filter fun node => node.workflowId ≠ workflow.id) ++
    workflow.nodes.map (D.nodeRow workflow.id)
  edges := (db.edges.filter fun edge => edge.workflowId ≠ workflow.id) ++
    workflow.edges.map (SqlDialect.edgeRow workflow.id)

theorem hasLength_zero {least most : ℕ} {text : String} (h : hasLength least most text) :
    hasLength 0 most text := by
  simp only [hasLength, decide_eq_true_eq] at h ⊢
  exact ⟨Nat.zero_le _, h.2⟩

/-- A workflow within the limits is stored, if the database takes it. -/
theorem saveWorkflow_eq (hD : D.Lawful) (h : workflow.Kept)
    (htakes : D.takes (db.workflows.get? workflow.id) workflow) :
    D.saveWorkflow workflow db = .ok (D.savedTables workflow db) := by
  have hfields := h.fields
  simp only [Workflow.valid, decide_eq_true_eq] at hfields
  obtain ⟨-, hcreatedBy, henvironment, hmodel, hshare, -⟩ := hfields
  -- every limit of the models is one of the columns
  have hrow : (D.workflowRow (db.workflows.get? workflow.id) workflow).fits := by
    simp only [WorkflowRow.fits, decide_eq_true_eq]
    exact ⟨hasLength_zero hcreatedBy, hasLength_zero henvironment, hasLength_zero hmodel⟩
  have hnodes : (workflow.nodes.map (D.nodeRow workflow.id)).all (·.fits) := by
    rw [List.all_map, List.all_eq_true]
    intro node hnode
    have hnode := (h.nodes node hnode).fields
    simp only [WorkflowNode.valid, decide_eq_true_eq] at hnode
    obtain ⟨hid, htool, hserver, -, -, -, -, -, hrisk, -, -, -, hreference, hcompensation, -⟩ :=
      hnode
    simp only [Function.comp, WorkflowNodeRow.fits, decide_eq_true_eq]
    exact ⟨hasLength_zero hid, hasLength_zero htool, hasLength_zero hserver, hasLength_zero hrisk,
      hreference, hcompensation⟩
  have hedges : (workflow.edges.map (SqlDialect.edgeRow workflow.id)).all (·.fits) := by
    rw [List.all_map, List.all_eq_true]
    intro edge hedge
    have hedge := h.edges edge hedge
    simp only [WorkflowEdge.valid, decide_eq_true_eq] at hedge
    simp only [Function.comp, WorkflowEdgeRow.fits, decide_eq_true_eq]
    exact ⟨hasLength_zero hedge.1, hasLength_zero hedge.2.1⟩
  -- a share in thousandths is in the range of its column
  have hrange : (D.workflowRow (db.workflows.get? workflow.id) workflow).inRange := by
    obtain ⟨hleast, hmost⟩ := hD.toDecimal_share _ hshare
    obtain ⟨n, hn, hnumeric⟩ := hD.thousandth_numeric _ hleast hmost
    have hle : (n : ℚ) ≤ 1000 := by exact_mod_cast hn
    simp only [WorkflowRow.inRange, SqlDialect.workflowRow, hnumeric, decide_eq_true_eq]
    exact ⟨by positivity, by linarith⟩
  have hkeys : ((workflow.nodes.map (D.nodeRow workflow.id)).map (·.nodeKey)).Nodup := by
    rw [List.map_map]
    exact h.sound.nodup
  rw [SqlDialect.saveWorkflow, if_neg (not_not_intro ⟨hrow, hnodes, hedges⟩),
    if_neg (not_not_intro htakes), if_neg (not_not_intro ⟨hrange, hkeys⟩)]
  rfl

/-- What has been stored, the database has taken. -/
theorem takes_of_saveWorkflow {db' : WorkflowTables} (h : D.saveWorkflow workflow db = .ok db') :
    D.takes (db.workflows.get? workflow.id) workflow := by
  by_contra htakes
  rw [SqlDialect.saveWorkflow, if_pos htakes] at h
  split at h <;> cases h

/-- The rows of a workflow after its save are those that it has given. -/
theorem filter_rows {ρ : Type} (key : ρ → UUID) (id : UUID) (old new : List ρ)
    (h : ∀ row ∈ new, key row = id) :
    ((old.filter fun row => key row ≠ id) ++ new).filter (fun row => key row = id) = new := by
  rw [List.filter_append, List.filter_filter, List.filter_eq_nil_iff.mpr, List.nil_append,
    List.filter_eq_self.mpr]
  · exact fun row hrow => decide_eq_true (h row hrow)
  · intro row _
    by_cases hrow : key row = id <;> simp [hrow]

theorem getWorkflow_savedTables :
    D.getWorkflow workflow.id (D.savedTables workflow db) = .ok (some stored) ↔
      D.workflowFromRow (D.workflowRow (db.workflows.get? workflow.id) workflow)
        (workflow.nodes.map (D.nodeRow workflow.id))
        (workflow.edges.map (SqlDialect.edgeRow workflow.id)) = some stored := by
  have hnodes := filter_rows (·.workflowId) workflow.id db.nodes
    (workflow.nodes.map (D.nodeRow workflow.id)) (by simp [SqlDialect.nodeRow])
  have hedges := filter_rows (·.workflowId) workflow.id db.edges
    (workflow.edges.map (SqlDialect.edgeRow workflow.id)) (by simp [SqlDialect.edgeRow])
  rw [SqlDialect.getWorkflow, SqlDialect.savedTables, Dict.get?_set_self]
  dsimp only
  rw [hnodes, hedges]
  cases D.workflowFromRow (D.workflowRow (db.workflows.get? workflow.id) workflow)
    (workflow.nodes.map (D.nodeRow workflow.id))
    (workflow.edges.map (SqlDialect.edgeRow workflow.id)) <;> simp

/-- The nodes in the order in which they are loaded. -/
def Workflow.nodesByKey (workflow : Workflow) : List WorkflowNode :=
  workflow.nodes.insertionSort fun a b => ¬ b.id < a.id

/-- The edges in the order in which they are loaded. -/
def Workflow.edgesByKey (workflow : Workflow) : List WorkflowEdge :=
  workflow.edges.insertionSort fun a b => ¬ (b.source < a.source ∨
    (b.source = a.source ∧ b.destination < a.destination))

/-- What fits is loaded, and nothing has changed but the order. -/
theorem workflowFromRow_eq (hD : D.Lawful) (h : workflow.Kept) {existing : Option WorkflowRow}
    (hstorable : workflow.Storable D existing) :
    D.workflowFromRow (D.workflowRow existing workflow)
      (workflow.nodes.map (D.nodeRow workflow.id))
      (workflow.edges.map (SqlDialect.edgeRow workflow.id)) =
        some { workflow with nodes := workflow.nodesByKey, edges := workflow.edgesByKey } := by
  -- the rows are read in the order of their keys, each as the value it was made from
  have hnodes : ((workflow.nodes.map (D.nodeRow workflow.id)).insertionSort
      fun a b => ¬ b.nodeKey < a.nodeKey).mapM (D.loadNode workflow.id) =
        some workflow.nodesByKey := by
    rw [← List.map_insertionSort (fun a b : WorkflowNode => ¬ b.id < a.id) _ (D.nodeRow _) _
      fun a _ b _ => Iff.rfl]
    refine mapM_load fun node hnode => ?_
    have hmem : node ∈ workflow.nodes := (List.mem_insertionSort _).mp hnode
    exact loadNode_nodeRow hD (h.nodes node hmem) (h.sound.workflowId node hmem)
      (hstorable.errors node hmem)
  have hedges : ((workflow.edges.map (SqlDialect.edgeRow workflow.id)).insertionSort
      fun a b => ¬ (b.sourceNode < a.sourceNode ∨
        (b.sourceNode = a.sourceNode ∧ b.destinationNode < a.destinationNode))).mapM
          SqlDialect.loadEdge = some workflow.edgesByKey := by
    rw [← List.map_insertionSort (fun a b : WorkflowEdge => ¬ (b.source < a.source ∨
      (b.source = a.source ∧ b.destination < a.destination))) _ (SqlDialect.edgeRow _) _
      fun a _ b _ => Iff.rfl]
    exact mapM_load fun edge hedge =>
      loadEdge_edgeRow (h.edges edge ((List.mem_insertionSort _).mp hedge)) _
  have hevents : (workflow.auditEvents.map D.dumpEvent).mapM D.loadEvent =
      some workflow.auditEvents :=
    mapM_load fun event hevent => loadEvent_dump hD (h.events event hevent)
  have hcreatedAt : existing.elim workflow.createdAt (·.createdAt) = workflow.createdAt := by
    cases existing with
    | none => rfl
    | some row => exact hstorable.createdAt row rfl
  have hfields := h.fields
  simp only [Workflow.valid, decide_eq_true_eq] at hfields
  obtain ⟨h₁, h₂, h₃, h₄, hshare, h₆, h₇, h₈, -⟩ := hfields
  have hconfidence := (hD.confidence hshare).mpr hstorable.confidence
  simp only [SqlDialect.workflowFromRow, SqlDialect.workflowRow, WorkflowStatus.ofValue?_value,
    hnodes, hedges, hevents, hcreatedAt, hconfidence, hstorable.version, Option.bind_eq_bind,
    Option.bind_some]
  -- what is read back passes the checks again, since it has the same lengths
  refine if_pos ?_
  simp only [Workflow.valid, decide_eq_true_eq]
  refine ⟨h₁, h₂, h₃, h₄, hshare, h₆, ?_, ?_, hstorable.events⟩
  · rw [Workflow.nodesByKey, List.length_insertionSort]
    exact h₇
  · rw [Workflow.edgesByKey, List.length_insertionSort]
    exact h₈

/-- What a workflow that has been loaded from its rows has been checked for. -/
structure LoadedWorkflow (D : SqlDialect) (row : WorkflowRow) (nodeRows : List WorkflowNodeRow)
    (edgeRows : List WorkflowEdgeRow) (workflow : Workflow) : Prop where
  valid : workflow.valid
  id : workflow.id = row.id
  createdAt : workflow.createdAt = row.createdAt
  confidence : workflow.confidence = D.toFloat row.confidence
  version : workflow.version = row.version
  nodes : (nodeRows.insertionSort fun a b => ¬ b.nodeKey < a.nodeKey).mapM (D.loadNode row.id) =
    some workflow.nodes
  edges : ∀ edge ∈ workflow.edges, ∃ row, SqlDialect.loadEdge row = some edge
  events : ∀ event ∈ workflow.auditEvents, ∃ fields, D.loadEvent fields = some event

theorem of_workflowFromRow {row : WorkflowRow} {nodeRows : List WorkflowNodeRow}
    {edgeRows : List WorkflowEdgeRow} (h : D.workflowFromRow row nodeRows edgeRows = some stored) :
    LoadedWorkflow D row nodeRows edgeRows stored := by
  simp only [SqlDialect.workflowFromRow, Option.bind_eq_bind, Option.bind_eq_some_iff] at h
  obtain ⟨_, -, nodes, hnodes, edges, hedges, events, hevents, h⟩ := h
  split at h
  · cases h
    refine ⟨by assumption, rfl, rfl, rfl, rfl, hnodes, fun edge hedge => ?_, fun event hevent => ?_⟩
    · obtain ⟨row, -, hload⟩ := mem_of_mapM hedges hedge
      exact ⟨row, hload⟩
    · obtain ⟨fields, -, hload⟩ := mem_of_mapM hevents hevent
      exact ⟨fields, hload⟩
  · cases h

/-- A workflow that the engine has built comes back exactly when it is storable. -/
theorem roundTrips_iff (hD : D.Lawful) (h : workflow.Kept) :
    D.RoundTrips db workflow ↔ workflow.Storable D (db.workflows.get? workflow.id) := by
  have hfields := h.fields
  simp only [Workflow.valid, decide_eq_true_eq] at hfields
  obtain ⟨-, -, -, -, hshare, -⟩ := hfields
  constructor
  · rintro ⟨db', stored, hdb, hget, nodes, edges, hnodes, -, rfl⟩
    have htakes := takes_of_saveWorkflow hdb
    rw [saveWorkflow_eq hD h htakes] at hdb
    cases hdb
    have hloaded := of_workflowFromRow (getWorkflow_savedTables.mp hget)
    refine ⟨htakes, fun row hrow => ?_, (hD.confidence hshare).mp hloaded.confidence.symm,
      hloaded.version.symm, ?_, fun node hnode => ?_⟩
    · have hcreated := hloaded.createdAt
      rw [hrow] at hcreated
      exact hcreated.symm
    · have hvalid := hloaded.valid
      simp only [Workflow.valid, decide_eq_true_eq] at hvalid
      exact hvalid.2.2.2.2.2.2.2.2
    · obtain ⟨row, -, hload⟩ := mem_of_mapM hloaded.nodes (hnodes.mem_iff.mpr hnode)
      exact (h.nodes node hnode).valid_iff.mp (of_loadNode hload).valid
  · intro hstorable
    have hsave := saveWorkflow_eq hD h hstorable.takes
    refine ⟨_, _, hsave, getWorkflow_savedTables.mpr (workflowFromRow_eq hD h hstorable),
      workflow.nodesByKey, workflow.edgesByKey, ?_, ?_, rfl⟩
    · exact List.perm_insertionSort ..
    · exact List.perm_insertionSort ..

end Save

end McpOps
