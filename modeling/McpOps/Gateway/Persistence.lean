import McpOps.Gateway.Ledger

/-!
# The SQLAlchemy approval store

The approvals as rows of a table, with the enumerations written as texts.  Every row of the table
was written by the store, so reading it back never fails; `WrittenRow` carries that.  Each method
is one unit here, although it uses several sessions.

A row reads back as the record it was written from (`approvalRecord?_approvalRow`), so the record
of a written row is a plain function, and what a query does to the columns can be said of the
record: expiring an overdue row is what happens to its record (`record_lapse`).

The tables take everything here.  What a database refuses, and that the sessions of two calls may
interleave, is for other modules.
-/

namespace McpOps

/-- A row of `gateway_approvals`. -/
structure GatewayApprovalRow where
  approvalId : UUID
  requesterId : String
  requesterType : String
  toolName : String
  arguments : PyDict
  riskLevel : String
  status : String
  createdAt : Time
  expiresAt : Time
  approvedBy : Option String
  approvedAt : Option Time
  rejectedBy : Option String
  rejectedAt : Option Time
  executedAt : Option Time
  failureReason : Option String
  executionResult : Option PyDict
  workflowId : Option UUID
  workflowNodeId : Option String
  argumentsHash : Option String
  approvalBindingHash : Option String
  version : ℕ

/-- `_approval_row(approval)`. -/
def approvalRow (r : ApprovalRecord) : GatewayApprovalRow :=
  { r with
    requesterType := r.requesterType.value
    riskLevel := r.riskLevel.value
    status := r.status.value }

/-- `_approval_record(row)`, without a result where an enumeration rejects its text. -/
def approvalRecord? (row : GatewayApprovalRow) : Option ApprovalRecord := do
  let requesterType ← PrincipalType.ofValue? row.requesterType
  let riskLevel ← RiskLevel.ofValue? row.riskLevel
  let status ← ApprovalStatus.ofValue? row.status
  some { row with requesterType, riskLevel, status }

/-- A row reads back as the record it was written from. -/
theorem approvalRecord?_approvalRow (r : ApprovalRecord) :
    approvalRecord? (approvalRow r) = some r := by
  simp [approvalRecord?, approvalRow, PrincipalType.ofValue?_value, RiskLevel.ofValue?_value,
    ApprovalStatus.ofValue?_value]

/-- A row that was written from a record. -/
def WrittenRow := { row : GatewayApprovalRow // ∃ r, row = approvalRow r }

namespace WrittenRow

/-- The row of `r`. -/
def ofRecord (r : ApprovalRecord) : WrittenRow := ⟨approvalRow r, r, rfl⟩

theorem isSome (row : WrittenRow) : (approvalRecord? row.1).isSome := by
  obtain ⟨_, r, rfl⟩ := row
  simp [approvalRecord?_approvalRow]

/-- The record a row was written from. -/
def record (row : WrittenRow) : ApprovalRecord := (approvalRecord? row.1).get row.isSome

@[simp] theorem record_ofRecord (r : ApprovalRecord) : (ofRecord r).record = r := by
  simp [record, ofRecord, approvalRecord?_approvalRow]

/-- The columns are those of the record. -/
theorem eq_approvalRow (row : WrittenRow) : row.1 = approvalRow row.record := by
  obtain ⟨_, r, rfl⟩ := row
  exact congrArg approvalRow (record_ofRecord r).symm

/-- The row with `status` expired and its version raised. -/
def expire (row : WrittenRow) : WrittenRow where
  val := { row.1 with status := ApprovalStatus.expired.value, version := row.1.version + 1 }
  property := by
    obtain ⟨_, r, rfl⟩ := row
    exact ⟨{ r with status := .expired, version := r.version + 1 }, rfl⟩

theorem record_expire (row : WrittenRow) : row.expire.record =
    { row.record with status := .expired, version := row.record.version + 1 } := by
  obtain ⟨_, r, rfl⟩ := row
  show (ofRecord { r with status := .expired, version := r.version + 1 }).record = _
  rw [record_ofRecord]
  rw [show record ⟨approvalRow r, r, rfl⟩ = r from record_ofRecord r]

/-- Whether the row is pending at its deadline, as the queries ask it. -/
def overdue (now : Time) (row : WrittenRow) : Bool :=
  row.1.status = ApprovalStatus.pending.value ∧ row.1.expiresAt ≤ now

/-- Expiring the overdue row is what happens to its record. -/
theorem record_lapse (now : Time) (row : WrittenRow) :
    (if row.overdue now then row.expire else row).record = row.record.lapse now := by
  have hstatus : row.1.status = ApprovalStatus.pending.value ↔ row.record.status = .pending := by
    rw [eq_approvalRow row]
    exact ⟨fun h => by revert h; simp only [approvalRow]; cases row.record.status <;> decide,
      fun h => congrArg ApprovalStatus.value h⟩
  have htime : row.1.expiresAt = row.record.expiresAt := by rw [eq_approvalRow row]; rfl
  have hoverdue : row.overdue now = true ↔
      row.record.status = .pending ∧ row.record.expiresAt ≤ now := by
    rw [overdue, decide_eq_true_iff, hstatus, htime]
  rw [ApprovalRecord.lapse]
  split <;> split
  · exact record_expire row
  · exact absurd (hoverdue.mp ‹_›) ‹_›
  · exact absurd (hoverdue.mpr ‹_›) ‹_›
  · rfl

end WrittenRow

/-- The rows under their primary keys, the event rows and the attached audit log. -/
structure SqlAlchemyApprovalStore where
  ttlSeconds : ℤ := 3600
  rows : Dict UUID WrittenRow := Dict.empty
  keyed : ∀ id row, rows.get? id = some row → row.record.approvalId = id := by simp
  events : List ApprovalEvent := []
  auditLog : List AuditRecord := []

namespace SqlAlchemyApprovalStore

/-- Write the row of `r`, in place of the one with its primary key if there is one. -/
def merge (r : ApprovalRecord) (s : SqlAlchemyApprovalStore) : SqlAlchemyApprovalStore :=
  { s with
    rows := s.rows.set r.approvalId (.ofRecord r)
    keyed := by
      intro id row h
      rw [Dict.get?_set] at h
      split at h
      · cases h
        rw [WrittenRow.record_ofRecord]
        exact Eq.symm ‹_›
      · exact s.keyed id row h }

/-- Add an event row. -/
def addEvent (approval : ApprovalRecord) (eventType : String) (actor : Principal) (now : Time)
    (s : SqlAlchemyApprovalStore) : SqlAlchemyApprovalStore :=
  { s with events := s.events ++ [transitionEvent approval eventType actor now] }

/-- `_save_record(approval, event_type, actor, now)`. -/
def saveRecord (approval : ApprovalRecord) (eventType : String) (actor : Principal) (now : Time)
    (s : SqlAlchemyApprovalStore) : SqlAlchemyApprovalStore :=
  (s.merge approval).addEvent approval eventType actor now

/-- `audit_log.append(record)` on the attached log. -/
def appendAudit (record : AuditRecord) (s : SqlAlchemyApprovalStore) : SqlAlchemyApprovalStore :=
  { s with auditLog := s.auditLog ++ [record] }

/-- `_audit_transition(approval, ...)`. -/
def auditTransition (approval : ApprovalRecord) (actor : Principal) (now : Time)
    (eventType executionStatus summary : String) (s : SqlAlchemyApprovalStore) :
    SqlAlchemyApprovalStore :=
  s.appendAudit (transitionAudit approval eventType actor now executionStatus summary)

/-- `create(principal, ...)`, with the id its factory makes. -/
def create (q : ApprovalRequest) (now : Time) (fresh : UUID) (s : SqlAlchemyApprovalStore) :
    ApprovalRecord × SqlAlchemyApprovalStore :=
  let approval := q.record fresh now (seconds s.ttlSeconds)
  (approval, (s.saveRecord approval "approval.requested" q.principal now).auditTransition approval
    q.principal now "approval.requested" "PENDING_APPROVAL" "Approval request created.")

/-- `_expire_if_needed(approval_id, now)`. -/
def expireIfNeeded (approvalId : UUID) (now : Time) (s : SqlAlchemyApprovalStore) :
    Except GatewayError Unit × SqlAlchemyApprovalStore :=
  match s.rows.get? approvalId with
  | none => (.error (approvalNotFound approvalId), s)
  | some row =>
      if row.overdue now then
        (.ok (), s.saveRecord row.expire.record "approval.expired" systemPrincipal now)
      else (.ok (), s)

/-- `_approval_record(approval_id)`. -/
def approvalRecord (approvalId : UUID) (s : SqlAlchemyApprovalStore) :
    Except GatewayError ApprovalRecord :=
  match s.rows.get? approvalId with
  | none => .error (approvalNotFound approvalId)
  | some row => .ok row.record

/-- `detail(approval_id, now)`. -/
def detail (approvalId : UUID) (now : Time) (s : SqlAlchemyApprovalStore) :
    Except GatewayError ApprovalRecord × SqlAlchemyApprovalStore :=
  match s.expireIfNeeded approvalId now with
  | (.error e, s) => (.error e, s)
  | (.ok (), s) => (s.approvalRecord approvalId, s)

/-- `get(approval_id, now)`. -/
def get (approvalId : UUID) (now : Time) (s : SqlAlchemyApprovalStore) :
    Except GatewayError ApprovalRecord × SqlAlchemyApprovalStore :=
  match s.detail approvalId now with
  | (.error e, s) => (.error e, s)
  | (.ok approval, s) =>
      if approval.status = .expired then (.error approvalExpired, s) else (.ok approval, s)

/-- `expire_pending(now)`: expired rows get an event each, but no audit record. -/
def expirePending (now : Time) (s : SqlAlchemyApprovalStore) : SqlAlchemyApprovalStore :=
  { s with
    rows := s.rows.mapValues fun _ row => if row.overdue now then row.expire else row
    keyed := by
      intro id row h
      rw [Dict.get?_mapValues, Option.map_eq_some_iff] at h
      obtain ⟨row₀, hrow₀, rfl⟩ := h
      rw [WrittenRow.record_lapse, ApprovalRecord.lapse_approvalId]
      exact s.keyed id row₀ hrow₀
    events := s.events ++ (s.rows.values.filter (·.overdue now)).map fun row =>
      transitionEvent row.expire.record "approval.expired" systemPrincipal now }

/-- `list_approvals(now)`: ordered by `created_at`. -/
def listApprovals (now : Time) (s : SqlAlchemyApprovalStore) :
    List ApprovalRecord × SqlAlchemyApprovalStore :=
  let s := s.expirePending now
  ((s.rows.values.map (·.record)).mergeSort fun a b => a.createdAt ≤ b.createdAt, s)

/-- `_transition_pending(approval_id, actor, now, status)`. -/
def transitionPending (approvalId : UUID) (now : Time) (status : ApprovalStatus)
    (s : SqlAlchemyApprovalStore) : Except GatewayError ApprovalRecord × SqlAlchemyApprovalStore :=
  match s.get approvalId now with
  | (.error e, s) => (.error e, s)
  | (.ok approval, s) =>
      if approval.status = .pending then
        (.ok { approval with status := status, version := approval.version + 1 }, s)
      else (.error (notPending approval.status), s)

/-- `approve(approval_id, approver, now)`. -/
def approve (approvalId : UUID) (approver : Principal) (now : Time)
    (s : SqlAlchemyApprovalStore) : Except GatewayError ApprovalRecord × SqlAlchemyApprovalStore :=
  match s.transitionPending approvalId now .approved with
  | (.error e, s) => (.error e, s)
  | (.ok approval, s) =>
      let approval := { approval with
        approvedBy := some approver.principalId
        approvedAt := some now }
      (.ok approval, (s.saveRecord approval "approval.approved" approver now).auditTransition
        approval approver now "approval.approved" "APPROVED" "Approval granted.")

/-- `reject(approval_id, rejector, reason, now)`. -/
def reject (approvalId : UUID) (rejector : Principal) (reason : String) (now : Time)
    (s : SqlAlchemyApprovalStore) : Except GatewayError ApprovalRecord × SqlAlchemyApprovalStore :=
  match s.transitionPending approvalId now .rejected with
  | (.error e, s) => (.error e, s)
  | (.ok approval, s) =>
      let approval := { approval with
        rejectedBy := some rejector.principalId
        rejectedAt := some now
        failureReason := some reason }
      (.ok approval, (s.saveRecord approval "approval.rejected" rejector now).auditTransition
        approval rejector now "approval.rejected" "REJECTED" reason)

/-- `mark_executed(approval, actor, now, result)`. -/
def markExecuted (approval : ApprovalRecord) (actor : Principal) (now : Time) (result : PyDict)
    (s : SqlAlchemyApprovalStore) : Except GatewayError ApprovalRecord × SqlAlchemyApprovalStore :=
  match s.get approval.approvalId now with
  | (.error e, s) => (.error e, s)
  | (.ok current, s) =>
      if current.status = .approved then
        let executed := { current with
          status := .executed
          executedAt := some now
          executionResult := some result
          version := current.version + 1 }
        (.ok executed, (s.saveRecord executed "approval.executed" actor now).auditTransition
          executed actor now "approval.executed" "EXECUTED" "Approved operation executed.")
      else (.error (notApproved current.status), s)

/-- `mark_failed(approval, actor, now, reason)`. -/
def markFailed (approval : ApprovalRecord) (actor : Principal) (now : Time) (reason : String)
    (s : SqlAlchemyApprovalStore) : Except GatewayError ApprovalRecord × SqlAlchemyApprovalStore :=
  match s.approvalRecord approval.approvalId with
  | .error e => (.error e, s)
  | .ok current =>
      if current.status = .approved ∨ current.status = .pending then
        let failed := { current with
          status := .failed
          failureReason := some reason
          version := current.version + 1 }
        (.ok failed, (s.saveRecord failed "approval.failed" actor now).auditTransition
          failed actor now "approval.failed" "FAILED" reason)
      else (.error (cannotFail current.status), s)

/-! ## The ledger of the table -/

/-- The records of the rows. -/
def ledger (s : SqlAlchemyApprovalStore) : Ledger where
  ttl := seconds s.ttlSeconds
  record := fun id => (s.rows.get? id).map (·.record)
  keyed := by
    intro id r h
    obtain ⟨row, hrow, rfl⟩ := Option.map_eq_some_iff.mp h
    exact s.keyed id row hrow

theorem ledger_merge (r : ApprovalRecord) (s : SqlAlchemyApprovalStore) :
    (s.merge r).ledger = s.ledger.put r := by
  refine Ledger.ext rfl (funext fun id => ?_)
  simp only [ledger, merge, Ledger.put, Dict.get?_set, Function.update_apply]
  split <;> simp

@[simp] theorem ledger_saveRecord (r : ApprovalRecord) (eventType : String) (actor : Principal)
    (now : Time) (s : SqlAlchemyApprovalStore) :
    (s.saveRecord r eventType actor now).ledger = s.ledger.put r := ledger_merge r s

@[simp] theorem ledger_auditTransition (r : ApprovalRecord) (actor : Principal) (now : Time)
    (eventType executionStatus summary : String) (s : SqlAlchemyApprovalStore) :
    (s.auditTransition r actor now eventType executionStatus summary).ledger = s.ledger := rfl

theorem ledger_detail (id : UUID) (now : Time) (s : SqlAlchemyApprovalStore) :
    ((s.detail id now).1, (s.detail id now).2.ledger) = s.ledger.detail id now := by
  unfold detail expireIfNeeded Ledger.detail
  rw [show s.ledger.record id = (s.rows.get? id).map (·.record) from rfl]
  cases hrow : s.rows.get? id with
  | none => rfl
  | some row =>
      have hkey := s.keyed id row hrow
      have hstored : s.ledger.record row.record.approvalId = some row.record := by
        rw [hkey, show s.ledger.record id = (s.rows.get? id).map (·.record) from rfl, hrow]
        rfl
      have hlapse := row.record_lapse now
      by_cases hoverdue : row.overdue now
      · -- the row that was just written is the one read back
        have hexp : row.expire.record.approvalId = id := by
          rw [row.record_expire]
          exact hkey
        have hread : (s.saveRecord
            row.expire.record "approval.expired" systemPrincipal now).rows.get?
            id = some (.ofRecord row.expire.record) := by
          rw [← hexp]
          exact Dict.get?_set_self ..
        rw [if_pos hoverdue] at hlapse
        simp [hoverdue, approvalRecord, hread, ← hlapse]
      · rw [if_neg hoverdue] at hlapse
        simp [hoverdue, approvalRecord, hrow, ← hlapse, Ledger.put_of_record hstored]

theorem ledger_get (id : UUID) (now : Time) (s : SqlAlchemyApprovalStore) :
    ((s.get id now).1, (s.get id now).2.ledger) = s.ledger.get id now := by
  unfold get Ledger.get
  rw [← ledger_detail]
  rcases s.detail id now with ⟨e | r, s'⟩
  · rfl
  · dsimp only
    split <;> rfl

theorem ledger_expirePending (now : Time) (s : SqlAlchemyApprovalStore) :
    (s.expirePending now).ledger = s.ledger.expirePending now := by
  refine Ledger.ext rfl (funext fun id => ?_)
  simp only [ledger, expirePending, Ledger.expirePending, Dict.get?_mapValues, Option.map_map]
  exact congrFun (congrArg _ (funext fun row => row.record_lapse now)) _

/-- The methods of the SQLAlchemy store. -/
def answer (o : ApprovalOp) (fresh : UUID) (s : SqlAlchemyApprovalStore) :
    o.Ans × SqlAlchemyApprovalStore :=
  match o with
  | .create q now => s.create q now fresh
  | .get id now => s.get id now
  | .detail id now => s.detail id now
  | .listApprovals now => s.listApprovals now
  | .approve id approver now => s.approve id approver now
  | .reject id rejector reason now => s.reject id rejector reason now
  | .markExecuted approval actor now result => s.markExecuted approval actor now result
  | .markFailed approval actor now reason => s.markFailed approval actor now reason

/-- The SQLAlchemy store does what the ledger allows. -/
theorem answer_allows (o : ApprovalOp) (fresh : UUID) (s : SqlAlchemyApprovalStore) :
    s.ledger.Allows o fresh (s.answer o fresh).1 (s.answer o fresh).2.ledger := by
  cases o with
  | create q now => exact ⟨rfl, by simp [answer, create]⟩
  | get id now => exact ledger_get id now s
  | detail id now => exact ledger_detail id now s
  | listApprovals now =>
      refine ⟨ledger_expirePending now s, fun r => List.mem_mergeSort.trans ?_⟩
      simp only [List.mem_map, Dict.mem_values]
      constructor
      · rintro ⟨row, ⟨k, hk⟩, rfl⟩
        exact ⟨k, Option.map_eq_some_iff.mpr ⟨row, hk, rfl⟩⟩
      · rintro ⟨k, hk⟩
        obtain ⟨row, hrow, rfl⟩ := Option.map_eq_some_iff.mp hk
        exact ⟨row, ⟨k, hrow⟩, rfl⟩
  | approve id approver now =>
      refine Ledger.move_of_get ledger (ledger_get id now s) ?_ ?_ ?_ <;>
        intro _ _ hget <;>
        simp +contextual [answer, approve, transitionPending, hget, ApprovalRecord.grantedBy]
  | reject id rejector reason now =>
      refine Ledger.move_of_get ledger (ledger_get id now s) ?_ ?_ ?_ <;>
        intro _ _ hget <;>
        simp +contextual [answer, reject, transitionPending, hget, ApprovalRecord.refusedBy]
  | markExecuted approval actor now result =>
      refine Ledger.move_of_get ledger (ledger_get approval.approvalId now s) ?_ ?_ ?_ <;>
        intro _ _ hget <;>
        simp +contextual [answer, markExecuted, hget, ApprovalRecord.executed]
  | markFailed approval actor now reason =>
      -- only a failure looks at the record without expiring it first
      show ((s.markFailed approval actor now reason).1,
        (s.markFailed approval actor now reason).2.ledger) =
          s.ledger.fail approval.approvalId reason
      unfold markFailed Ledger.fail approvalRecord
      rw [show s.ledger.record approval.approvalId =
        (s.rows.get? approval.approvalId).map (·.record) from rfl]
      cases s.rows.get? approval.approvalId with
      | none => rfl
      | some row =>
          dsimp only [Option.map_some]
          split
          · simp [ApprovalRecord.failedWith]
          · rfl

/-- The SQLAlchemy approval store.  It hands out copies, so a record keeps the status it had
when it was read. -/
def backend : ApprovalBackend SqlAlchemyApprovalStore where
  answer o fresh s := s.answer o fresh
  status r _ := r.status
  appendAudit := appendAudit
  ledger := ledger
  refines := answer_allows
  ledger_appendAudit _ _ := rfl
  status_stored _ _ _ := rfl

end SqlAlchemyApprovalStore

end McpOps
