import McpOps.Gateway.ApprovalEvents
import McpOps.Gateway.Persistence
import McpOps.Lib.Interleaving

/-!
# The transactions of the SQLAlchemy approval store

A method of the store opens several sessions one after another.  Each session block is a
transaction and one atomic operation here; a method is a procedure over them, and run by
itself it does what the method does as a unit.

Between the session in which a method reads a record and the one in which it saves the moved
record, transactions of other calls may come in, and saving overwrites the whole row.  As long
as no save finds its row written since the record was read, every transaction is a step of the
approval state machine.

## Strategy

* By itself: `Implements` is the statement for one method, and each method has its lemma.
* One call among others: `Promises` says of a method that whatever it saves, it has moved from the
  record it has read last (`SavesRead`).  This is about the events of the call alone.
* One transaction: with `lastRead` still in the table (`stored_of_lastRead`), a save advances the
  record as a transition does (`advances_of_undisturbed`); any other session block leaves the record
  alone or expires it.

`concurrent_state_machine` is the run.  The last example is an approval and a rejection at once, of
which the one that saves last overwrites the other.
-/

namespace McpOps

open Proc

/-- The session blocks of the store. -/
inductive ApprovalSession where
  | expireIfNeeded (approvalId : UUID) (now : Time)
  | approvalRecord (approvalId : UUID)
  | saveRecord (approval : ApprovalRecord) (eventType : String) (actor : Principal) (now : Time)
  | expirePending (now : Time)
  | appendAudit (record : AuditRecord)

/-- What a session block gives back. -/
@[reducible] def ApprovalSession.Ans : ApprovalSession → Type
  | .expireIfNeeded .. => Except GatewayError Unit
  | .approvalRecord .. => Except GatewayError ApprovalRecord
  | .saveRecord .. => Unit
  | .expirePending .. => Unit
  | .appendAudit .. => Unit

@[reducible] def sessionInterface : Interface := ⟨ApprovalSession, ApprovalSession.Ans⟩

/-- The sessions on the tables.  Nothing about them is left to the environment. -/
def sessionSystem : System sessionInterface SqlAlchemyApprovalStore Unit where
  answer o _ s :=
    match o with
    | .expireIfNeeded id now => s.expireIfNeeded id now
    | .approvalRecord id => (s.approvalRecord id, s)
    | .saveRecord approval eventType actor now => ((), s.saveRecord approval eventType actor now)
    | .expirePending now => ((), s.expirePending now)
    | .appendAudit record => ((), s.appendAudit record)

abbrev SessionM := Procedure sessionInterface GatewayError

/-! ## The methods as sessions -/

namespace SessionM

/-- One session block. -/
def session (o : ApprovalSession) : SessionM o.Ans := Procedure.perform (I := sessionInterface) o

/-- `_expire_if_needed(approval_id, now)`. -/
def expireIfNeeded (approvalId : UUID) (now : Time) : SessionM Unit := do
  let found : Except GatewayError Unit ← session (.expireIfNeeded approvalId now)
  Procedure.ofExcept found

/-- `_approval_record(approval_id)`. -/
def approvalRecord (approvalId : UUID) : SessionM ApprovalRecord := do
  let read : Except GatewayError ApprovalRecord ← session (.approvalRecord approvalId)
  Procedure.ofExcept read

/-- `get(approval_id, now)`. -/
def get (approvalId : UUID) (now : Time) : SessionM ApprovalRecord := do
  expireIfNeeded approvalId now
  let approval ← approvalRecord approvalId
  if approval.status = .expired then .raise approvalExpired else pure approval

/-- `_transition_pending(approval_id, actor, now, status)`. -/
def transitionPending (approvalId : UUID) (now : Time) (status : ApprovalStatus) :
    SessionM ApprovalRecord := do
  let approval ← get approvalId now
  if approval.status = .pending then
    pure { approval with status := status, version := approval.version + 1 }
  else .raise (notPending approval.status)

/-- `_save_record(...)`, `_audit_transition(...)` and the return of the saved record. -/
def saveRecord (approval : ApprovalRecord) (eventType : String) (actor : Principal)
    (now : Time) (executionStatus summary : String) : SessionM ApprovalRecord := do
  let _ : Unit ← session (.saveRecord approval eventType actor now)
  let _ : Unit ← session
    (.appendAudit (transitionAudit approval eventType actor now executionStatus summary))
  pure approval

/-- `approve(approval_id, approver, now)`. -/
def approve (approvalId : UUID) (approver : Principal) (now : Time) :
    SessionM ApprovalRecord := do
  let approval ← transitionPending approvalId now .approved
  let approval := { approval with
    approvedBy := some approver.principalId
    approvedAt := some now }
  saveRecord approval "approval.approved" approver now "APPROVED" "Approval granted."

/-- `reject(approval_id, rejector, reason, now)`. -/
def reject (approvalId : UUID) (rejector : Principal) (reason : String) (now : Time) :
    SessionM ApprovalRecord := do
  let approval ← transitionPending approvalId now .rejected
  let approval := { approval with
    rejectedBy := some rejector.principalId
    rejectedAt := some now
    failureReason := some reason }
  saveRecord approval "approval.rejected" rejector now "REJECTED" reason

/-- `expire_pending(now)`. -/
def expirePending (now : Time) : SessionM Unit := session (.expirePending now)

/-- `mark_executed(approval, actor, now, result)`. -/
def markExecuted (approval : ApprovalRecord) (actor : Principal) (now : Time)
    (result : PyDict) : SessionM ApprovalRecord := do
  let current ← get approval.approvalId now
  if current.status = .approved then
    let executed := { current with
      status := .executed
      executedAt := some now
      executionResult := some result
      version := current.version + 1 }
    saveRecord executed "approval.executed" actor now "EXECUTED" "Approved operation executed."
  else .raise (notApproved current.status)

/-- `mark_failed(approval, actor, now, reason)`. -/
def markFailed (approval : ApprovalRecord) (actor : Principal) (now : Time)
    (reason : String) : SessionM ApprovalRecord := do
  let current ← approvalRecord approval.approvalId
  if current.status = .approved ∨ current.status = .pending then
    let failed := { current with
      status := .failed
      failureReason := some reason
      version := current.version + 1 }
    saveRecord failed "approval.failed" actor now "FAILED" reason
  else .raise (cannotFail current.status)

/-! ### By themselves, the methods do what they do as units -/

/-- By itself, `p` does what `m` does as a unit. -/
abbrev Implements {α : Type} (p : SessionM α)
    (m : SqlAlchemyApprovalStore → Except GatewayError α × SqlAlchemyApprovalStore) : Prop :=
  Procedure.Implements sessionSystem () () p m

variable (id : UUID) (now : Time)

theorem implements_expireIfNeeded :
    Implements (expireIfNeeded id now) fun s => s.expireIfNeeded id now := by
  intro r
  refine (Procedure.Implements.bind (p := session (.expireIfNeeded id now))
    (Procedure.implements_perform _) Procedure.implements_ofExcept r).trans ?_
  rfl

theorem implements_approvalRecord :
    Implements (approvalRecord id) fun s => (s.approvalRecord id, s) := by
  intro r
  refine (Procedure.Implements.bind (p := session (.approvalRecord id))
    (Procedure.implements_perform _) Procedure.implements_ofExcept r).trans ?_
  rfl

theorem implements_saveRecord (approval : ApprovalRecord) (eventType : String)
    (actor : Principal) (executionStatus summary : String) :
    Implements (saveRecord approval eventType actor now executionStatus summary) fun s =>
      (.ok approval, (s.saveRecord approval eventType actor now).auditTransition approval actor
        now eventType executionStatus summary) := fun _ => rfl

theorem implements_get : Implements (get id now) fun s => s.get id now := by
  have hseq : (fun s : SqlAlchemyApprovalStore => s.get id now) =
      followedBy (fun s => s.expireIfNeeded id now) fun _ =>
        followedBy (fun s => (s.approvalRecord id, s)) fun approval s =>
          if approval.status = .expired then (.error approvalExpired, s)
          else (.ok approval, s) := by
    funext s
    unfold SqlAlchemyApprovalStore.get SqlAlchemyApprovalStore.detail
    rcases hfound : s.expireIfNeeded id now with ⟨e | found, s₁⟩
    · rw [followedBy_error hfound]
    · rw [followedBy_ok hfound]
      cases hread : s₁.approvalRecord id <;> simp only [followedBy, hread]
  rw [hseq]
  refine (implements_expireIfNeeded id now).bind fun _ =>
    (implements_approvalRecord id).bind fun approval => ?_
  split
  · exact Procedure.implements_raise _
  · exact Procedure.implements_pure _

theorem implements_transitionPending (status : ApprovalStatus) :
    Implements (transitionPending id now status) fun s => s.transitionPending id now status := by
  have hseq : (fun s : SqlAlchemyApprovalStore => s.transitionPending id now status) =
      followedBy (fun s => s.get id now) fun approval s =>
        if approval.status = .pending then
          (.ok { approval with status := status, version := approval.version + 1 }, s)
        else (.error (notPending approval.status), s) := by
    funext s
    unfold SqlAlchemyApprovalStore.transitionPending
    rcases hget : s.get id now with ⟨e | approval, s₁⟩
    · rw [followedBy_error hget]
    · rw [followedBy_ok hget]
  rw [hseq]
  refine (implements_get id now).bind fun approval => ?_
  split
  · exact Procedure.implements_pure _
  · exact Procedure.implements_raise _

theorem implements_approve (approver : Principal) :
    Implements (approve id approver now) fun s => s.approve id approver now := by
  have hseq : (fun s : SqlAlchemyApprovalStore => s.approve id approver now) =
      followedBy (fun s => s.transitionPending id now .approved) fun approval s =>
        let approval := { approval with
          approvedBy := some approver.principalId
          approvedAt := some now }
        (.ok approval, (s.saveRecord approval "approval.approved" approver now).auditTransition
          approval approver now "approval.approved" "APPROVED" "Approval granted.") := by
    funext s
    unfold SqlAlchemyApprovalStore.approve
    rcases hmoved : s.transitionPending id now .approved with ⟨e | approval, s₁⟩
    · rw [followedBy_error hmoved]
    · rw [followedBy_ok hmoved]
  rw [hseq]
  exact (implements_transitionPending id now .approved).bind fun approval =>
    implements_saveRecord now _ _ _ _ _

theorem implements_reject (rejector : Principal) (reason : String) :
    Implements (reject id rejector reason now) fun s => s.reject id rejector reason now := by
  have hseq : (fun s : SqlAlchemyApprovalStore => s.reject id rejector reason now) =
      followedBy (fun s => s.transitionPending id now .rejected) fun approval s =>
        let approval := { approval with
          rejectedBy := some rejector.principalId
          rejectedAt := some now
          failureReason := some reason }
        (.ok approval, (s.saveRecord approval "approval.rejected" rejector now).auditTransition
          approval rejector now "approval.rejected" "REJECTED" reason) := by
    funext s
    unfold SqlAlchemyApprovalStore.reject
    rcases hmoved : s.transitionPending id now .rejected with ⟨e | approval, s₁⟩
    · rw [followedBy_error hmoved]
    · rw [followedBy_ok hmoved]
  rw [hseq]
  exact (implements_transitionPending id now .rejected).bind fun approval =>
    implements_saveRecord now _ _ _ _ _

theorem implements_expirePending :
    Implements (expirePending now) fun s => (.ok (), s.expirePending now) := fun _ => rfl

theorem implements_markExecuted (approval : ApprovalRecord) (actor : Principal)
    (result : PyDict) : Implements (markExecuted approval actor now result) fun s =>
      s.markExecuted approval actor now result := by
  have hseq : (fun s : SqlAlchemyApprovalStore => s.markExecuted approval actor now result) =
      followedBy (fun s => s.get approval.approvalId now) fun current s =>
        if current.status = .approved then
          let executed := { current with
            status := .executed
            executedAt := some now
            executionResult := some result
            version := current.version + 1 }
          (.ok executed, (s.saveRecord executed "approval.executed" actor now).auditTransition
            executed actor now "approval.executed" "EXECUTED" "Approved operation executed.")
        else (.error (notApproved current.status), s) := by
    funext s
    unfold SqlAlchemyApprovalStore.markExecuted
    rcases hget : s.get approval.approvalId now with ⟨e | current, s₁⟩
    · rw [followedBy_error hget]
    · rw [followedBy_ok hget]
  rw [hseq]
  refine (implements_get approval.approvalId now).bind fun current => ?_
  split
  · exact implements_saveRecord now _ _ _ _ _
  · exact Procedure.implements_raise _

theorem implements_markFailed (approval : ApprovalRecord) (actor : Principal)
    (reason : String) : Implements (markFailed approval actor now reason) fun s =>
      s.markFailed approval actor now reason := by
  have hseq : (fun s : SqlAlchemyApprovalStore => s.markFailed approval actor now reason) =
      followedBy (fun s => (s.approvalRecord approval.approvalId, s)) fun current s =>
        if current.status = .approved ∨ current.status = .pending then
          let failed := { current with
            status := .failed
            failureReason := some reason
            version := current.version + 1 }
          (.ok failed, (s.saveRecord failed "approval.failed" actor now).auditTransition
            failed actor now "approval.failed" "FAILED" reason)
        else (.error (cannotFail current.status), s) := by
    funext s
    unfold SqlAlchemyApprovalStore.markFailed
    cases hread : s.approvalRecord approval.approvalId <;> simp only [followedBy, hread]
  rw [hseq]
  refine (implements_approvalRecord approval.approvalId).bind fun current => ?_
  split
  · exact implements_saveRecord now _ _ _ _ _
  · exact Procedure.implements_raise _

end SessionM

/-! ## Reading and saving -/

/-- What a method may make of the record it has read. -/
structure Moved (r r' : ApprovalRecord) : Prop where
  approvalId : r'.approvalId = r.approvalId
  moves : r.status.Moves r'.status
  version : r'.version = r.version + 1

/-- The record that a session block saves. -/
def ApprovalSession.saved? : ApprovalSession → Option ApprovalRecord
  | .saveRecord approval .. => some approval
  | _ => none

abbrev SessionEvent := Event sessionInterface

/-- The record a call has read last, given its own events, newest first. -/
def lastRead : List SessionEvent → Option ApprovalRecord
  | [] => none
  | ⟨.approvalRecord _, .ok r⟩ :: _ => some r
  | ⟨.approvalRecord _, .error _⟩ :: _ => none
  | _ :: older => lastRead older

/-- Whatever a call saves, it has moved from the record it has read last. -/
def SavesRead (done : List SessionEvent) : Prop :=
  ∀ approval eventType actor now answer older,
    ⟨.saveRecord approval eventType actor now, answer⟩ :: older <:+ done →
      ∃ r, lastRead older = some r ∧ Moved r approval

theorem SavesRead.nil : SavesRead [] := by
  intro approval eventType actor now answer older h
  exact absurd (List.eq_nil_of_suffix_nil h) (List.cons_ne_nil _ _)

/-- Any other event may come after. -/
theorem SavesRead.cons {done : List SessionEvent} {e : SessionEvent} (h : SavesRead done)
    (he : e.1.saved? = none) : SavesRead (e :: done) := by
  intro approval eventType actor now answer older hsuffix
  rcases List.suffix_cons_iff.mp hsuffix with heq | hsuffix
  · rw [← (List.cons.inj heq).1] at he
    cases he
  · exact h approval eventType actor now answer older hsuffix

namespace SessionM

variable {done : List SessionEvent}

/-- What a call promises about its own events, if `post` holds at its end. -/
abbrev Promises {α : Type} (p : SessionM α)
    (post : Except GatewayError α → List SessionEvent → Prop) (done : List SessionEvent) : Prop :=
  Procedure.Emits (fun _ => True) SavesRead post p done

theorem promises_approvalRecord (id : UUID) (h : SavesRead done) :
    Promises (approvalRecord id) (fun res done =>
      SavesRead done ∧ ∀ r, res = .ok r → lastRead done = some r) done := by
  refine fun read _ => ⟨h.cons rfl, ?_⟩
  have hdone := h.cons (e := ⟨.approvalRecord id, read⟩) rfl
  cases read with
  | error e => exact ⟨hdone, fun r hr => (by cases hr)⟩
  | ok r => exact ⟨hdone, fun r' hr' => (by cases hr'; rfl)⟩

theorem promises_expireIfNeeded (id : UUID) (now : Time) (h : SavesRead done) :
    Promises (expireIfNeeded id now) (fun _ done => SavesRead done) done := by
  refine fun found _ => ⟨h.cons rfl, ?_⟩
  have hdone := h.cons (e := ⟨.expireIfNeeded id now, found⟩) rfl
  cases found with
  | error e => exact hdone
  | ok found => exact hdone

theorem promises_get (id : UUID) (now : Time) (h : SavesRead done) :
    Promises (get id now) (fun res done =>
      SavesRead done ∧ ∀ r, res = .ok r → lastRead done = some r) done := by
  refine Procedure.emits_bind.mpr ((promises_expireIfNeeded id now h).imp h ?_)
  rintro (e | found) done - hdone
  · exact ⟨hdone, fun r hr => (by cases hr)⟩
  · refine Procedure.emits_bind.mpr ((promises_approvalRecord id hdone).imp hdone ?_)
    rintro (e | r) done - ⟨hread, hlast⟩
    · exact ⟨hread, fun r hr => (by cases hr)⟩
    · show Promises (if r.status = .expired then .raise approvalExpired else pure r) _ done
      split
      · exact ⟨hread, fun r hr => (by cases hr)⟩
      · exact ⟨hread, fun r' hr' => (by cases hr'; exact hlast r rfl)⟩

theorem promises_saveRecord {r approval : ApprovalRecord} (hlast : lastRead done = some r)
    (hmoved : Moved r approval) (h : SavesRead done) (eventType : String) (actor : Principal)
    (now : Time) (executionStatus summary : String) :
    Promises (saveRecord approval eventType actor now executionStatus summary)
      (fun _ _ => True) done := by
  have hsaved : SavesRead (⟨.saveRecord approval eventType actor now, ()⟩ :: done) := by
    intro approval' eventType' actor' now' answer older hsuffix
    rcases List.suffix_cons_iff.mp hsuffix with heq | hsuffix
    · cases heq
      exact ⟨r, hlast, hmoved⟩
    · exact h approval' eventType' actor' now' answer older hsuffix
  exact fun _ _ => ⟨hsaved, fun _ _ => ⟨hsaved.cons rfl, trivial⟩⟩

theorem promises_transitionPending (id : UUID) (now : Time) {status : ApprovalStatus}
    (hmoves : ApprovalStatus.Moves .pending status) (h : SavesRead done) :
    Promises (transitionPending id now status)
      (fun res done => SavesRead done ∧ ∀ r', res = .ok r' →
      r'.status = status ∧ ∃ r, lastRead done = some r ∧ Moved r r') done := by
  refine Procedure.emits_bind.mpr ((promises_get id now h).imp h ?_)
  rintro (e | r) done - ⟨hread, hlast⟩
  · exact ⟨hread, fun r' hr' => (by cases hr')⟩
  · show Promises (if r.status = .pending then _ else _) _ done
    split
    · rename_i hpending
      refine ⟨hread, fun r' hr' => ?_⟩
      cases hr'
      refine ⟨rfl, r, hlast r rfl, rfl, ?_, rfl⟩
      rw [hpending]
      exact hmoves
    · exact ⟨hread, fun r' hr' => (by cases hr')⟩

theorem promises_approve (id : UUID) (approver : Principal) (now : Time) (h : SavesRead done) :
    Promises (approve id approver now) (fun _ _ => True) done := by
  refine Procedure.emits_bind.mpr ((promises_transitionPending id now .approve h).imp h ?_)
  rintro (e | r') done - ⟨hread, hmoved⟩
  · trivial
  · obtain ⟨-, r, hlast, hid, hmoves, hversion⟩ := hmoved r' rfl
    have happroved : Moved r { r' with
      approvedBy := some approver.principalId
      approvedAt := some now } := ⟨hid, hmoves, hversion⟩
    exact promises_saveRecord hlast happroved hread _ _ _ _ _

theorem promises_reject (id : UUID) (rejector : Principal) (reason : String) (now : Time)
    (h : SavesRead done) : Promises (reject id rejector reason now) (fun _ _ => True) done := by
  refine Procedure.emits_bind.mpr ((promises_transitionPending id now .reject h).imp h ?_)
  rintro (e | r') done - ⟨hread, hmoved⟩
  · trivial
  · obtain ⟨-, r, hlast, hid, hmoves, hversion⟩ := hmoved r' rfl
    have hrejected : Moved r { r' with
      rejectedBy := some rejector.principalId
      rejectedAt := some now
      failureReason := some reason } := ⟨hid, hmoves, hversion⟩
    exact promises_saveRecord hlast hrejected hread _ _ _ _ _

theorem promises_expirePending (now : Time) (h : SavesRead done) :
    Promises (expirePending now) (fun _ _ => True) done :=
  fun _ _ => ⟨h.cons rfl, trivial⟩

theorem promises_markExecuted (approval : ApprovalRecord) (actor : Principal) (now : Time)
    (result : PyDict) (h : SavesRead done) :
    Promises (markExecuted approval actor now result) (fun _ _ => True) done := by
  refine Procedure.emits_bind.mpr ((promises_get approval.approvalId now h).imp h ?_)
  rintro (e | r) done - ⟨hread, hlast⟩
  · trivial
  · show Promises (if r.status = .approved then _ else _) _ done
    split
    · rename_i happroved
      have hexecuted : Moved r { r with
          status := .executed
          executedAt := some now
          executionResult := some result
          version := r.version + 1 } := by
        refine ⟨rfl, ?_, rfl⟩
        rw [happroved]
        exact .execute
      exact promises_saveRecord (hlast r rfl) hexecuted hread _ _ _ _ _
    · trivial

theorem promises_markFailed (approval : ApprovalRecord) (actor : Principal) (now : Time)
    (reason : String) (h : SavesRead done) :
    Promises (markFailed approval actor now reason) (fun _ _ => True) done := by
  refine Procedure.emits_bind.mpr ((promises_approvalRecord approval.approvalId h).imp h ?_)
  rintro (e | r) done - ⟨hread, hlast⟩
  · trivial
  · show Promises (if r.status = .approved ∨ r.status = .pending then _ else _) _ done
    split
    · rename_i hopen
      have hfailed : Moved r { r with
          status := .failed
          failureReason := some reason
          version := r.version + 1 } := by
        refine ⟨rfl, ?_, rfl⟩
        rcases hopen with happroved | hpending
        · rw [happroved]
          exact .fail
        · rw [hpending]
          exact .abandon
      exact promises_saveRecord (hlast r rfl) hfailed hread _ _ _ _ _
    · trivial

end SessionM

/-! ## One transaction and one record -/

namespace SqlAlchemyApprovalStore

/-- The record of `id` with its events. -/
def view (id : UUID) (s : SqlAlchemyApprovalStore) : RecordView :=
  ⟨(s.rows.get? id).map (·.record), s.events.filter (·.approvalId = id)⟩

variable {s : SqlAlchemyApprovalStore} {id : UUID}

theorem view_saveRecord (id : UUID) (r : ApprovalRecord) (eventType : String) (actor : Principal)
    (now : Time) (s : SqlAlchemyApprovalStore) :
    (s.saveRecord r eventType actor now).view id =
      if id = r.approvalId then
        ⟨some r, (s.view id).events ++ [transitionEvent r eventType actor now]⟩
      else s.view id := by
  by_cases h : id = r.approvalId
  · simp [view, saveRecord, merge, addEvent, transitionEvent, h]
  · have hne : r.approvalId ≠ id := Ne.symm h
    simp [view, saveRecord, merge, addEvent, transitionEvent, Dict.get?_set, h, hne]

/-- Whether the row of `id` is pending at its deadline. -/
def overdue (id : UUID) (now : Time) (s : SqlAlchemyApprovalStore) : Bool :=
  (s.rows.get? id).any (·.overdue now)

theorem overdue_iff {now : Time} : s.overdue id now ↔
    ∃ row, s.rows.get? id = some row ∧ row.overdue now := by
  rw [overdue, Option.any_eq_true]

/-- The record of `id` expired, with the event of the expiry. -/
theorem advances_expire {row : WrittenRow} {now : Time} (hrow : s.rows.get? id = some row)
    (hoverdue : row.overdue now) : (s.view id).Advances
      ⟨some row.expire.record, (s.view id).events ++
        [transitionEvent row.expire.record "approval.expired" systemPrincipal now]⟩ := by
  have hpending : row.record.status = .pending := by
    have hlapse := row.record_lapse now
    rw [if_pos hoverdue, row.record_expire, ApprovalRecord.lapse] at hlapse
    split at hlapse
    · exact And.left ‹_›
    · have hversion := congrArg ApprovalRecord.version hlapse
      simp at hversion
  refine .moves row.record _ _ (by simp [view, hrow]) ?_ ?_ rfl
  · rw [row.record_expire, hpending]
    exact .expire
  · rw [row.record_expire]

theorem view_expireIfNeeded_of_not {k : UUID} {now : Time} (h : ¬ (k = id ∧ s.overdue id now)) :
    (s.expireIfNeeded k now).2.view id = s.view id := by
  unfold expireIfNeeded
  cases hrow : s.rows.get? k with
  | none => rfl
  | some row =>
      dsimp only
      split
      · rename_i hoverdue
        have hid : row.expire.record.approvalId = k := by
          rw [row.record_expire]
          exact s.keyed k row hrow
        rw [view_saveRecord, if_neg]
        rintro rfl
        rw [hid] at h
        exact h ⟨rfl, overdue_iff.mpr ⟨row, hrow, hoverdue⟩⟩
      · rfl

theorem advances_expireIfNeeded (k : UUID) (now : Time) :
    (s.view id).Advances ((s.expireIfNeeded k now).2.view id) := by
  by_cases h : k = id ∧ s.overdue id now
  · obtain ⟨rfl, h⟩ := h
    obtain ⟨row, hrow, hoverdue⟩ := overdue_iff.mp h
    have hid : row.expire.record.approvalId = k := by
      rw [row.record_expire]
      exact s.keyed k row hrow
    simp only [expireIfNeeded, hrow, hoverdue, if_true]
    rw [view_saveRecord, if_pos hid.symm]
    exact advances_expire hrow hoverdue
  · rw [view_expireIfNeeded_of_not h]
    exact .stays

/-- The events that `expire_pending` adds for the record of `id`. -/
theorem events_expirePending (id : UUID) (now : Time) (s : SqlAlchemyApprovalStore) :
    ((s.expirePending now).view id).events = (s.view id).events ++
      ((s.rows.get? id).toList.filter (·.overdue now)).map fun row =>
        transitionEvent row.expire.record "approval.expired" systemPrincipal now := by
  have hid : ∀ row : WrittenRow, row.expire.record.approvalId = row.record.approvalId := by
    intro row
    rw [row.record_expire]
  simp only [view, expirePending, List.filter_append, List.filter_map]
  congr 2
  rw [← Dict.filter_values s.keyed id, List.filter_filter, List.filter_filter]
  refine List.filter_congr fun row _ => ?_
  simp [transitionEvent, hid, Bool.and_comm]

theorem record_expirePending (id : UUID) (now : Time) (s : SqlAlchemyApprovalStore) :
    ((s.expirePending now).view id).record = (s.rows.get? id).map fun row =>
      (if row.overdue now then row.expire else row).record := by
  simp [view, expirePending, Dict.get?_mapValues, Function.comp_def]

theorem view_expirePending_of_not {now : Time} (h : ¬ s.overdue id now) :
    (s.expirePending now).view id = s.view id := by
  have hevents := events_expirePending id now s
  have hrecord := record_expirePending id now s
  cases hrow : s.rows.get? id with
  | none =>
      simp only [hrow, Option.toList_none, List.filter_nil, List.map_nil,
        List.append_nil] at hevents
      rw [hrow] at hrecord
      exact RecordView.ext (by rw [hrecord, view, hrow]; rfl) hevents
  | some row =>
      have hnot : row.overdue now = false := by
        by_contra hoverdue
        exact h (overdue_iff.mpr ⟨row, hrow, by simpa using hoverdue⟩)
      simp only [hrow, Option.toList_some, List.filter_cons, hnot, List.filter_nil, List.map_nil,
        List.append_nil, Bool.false_eq_true, if_false] at hevents
      simp only [hrow, Option.map_some, hnot, Bool.false_eq_true, if_false] at hrecord
      exact RecordView.ext (by rw [hrecord, view, hrow]; rfl) hevents

theorem advances_expirePending (now : Time) :
    (s.view id).Advances ((s.expirePending now).view id) := by
  by_cases h : s.overdue id now
  · obtain ⟨row, hrow, hoverdue⟩ := overdue_iff.mp h
    have hevents := events_expirePending id now s
    have hrecord := record_expirePending id now s
    simp only [hrow, Option.toList_some, List.filter_cons, hoverdue, List.filter_nil,
      List.map_cons, List.map_nil, if_true] at hevents
    simp only [hrow, Option.map_some, hoverdue, if_true] at hrecord
    rw [show (s.expirePending now).view id = ⟨some row.expire.record, _⟩ from
      RecordView.ext hrecord hevents]
    exact advances_expire hrow hoverdue
  · rw [view_expirePending_of_not h]
    exact .stays

end SqlAlchemyApprovalStore

/-! ## Concurrent calls -/

/-- A call of one of the methods that move or read a record. -/
inductive ConcurrentCall where
  | get (approvalId : UUID) (now : Time)
  | approve (approvalId : UUID) (approver : Principal) (now : Time)
  | reject (approvalId : UUID) (rejector : Principal) (reason : String) (now : Time)
  | expirePending (now : Time)
  | markExecuted (approval : ApprovalRecord) (actor : Principal) (now : Time) (result : PyDict)
  | markFailed (approval : ApprovalRecord) (actor : Principal) (now : Time) (reason : String)

/-- The sessions of a call, without the record it returns. -/
def ConcurrentCall.body : ConcurrentCall → SessionM Unit
  | .get id now => do let _ ← SessionM.get id now
  | .approve id approver now => do let _ ← SessionM.approve id approver now
  | .reject id rejector reason now => do let _ ← SessionM.reject id rejector reason now
  | .expirePending now => SessionM.expirePending now
  | .markExecuted approval actor now result => do
      let _ ← SessionM.markExecuted approval actor now result
  | .markFailed approval actor now reason => do
      let _ ← SessionM.markFailed approval actor now reason

theorem ConcurrentCall.promises_body (c : ConcurrentCall) :
    SessionM.Promises c.body (fun _ _ => True) [] := by
  -- what a method promises, it promises without its result
  have hdiscard : ∀ {p : SessionM ApprovalRecord}, SessionM.Promises p (fun _ _ => True) [] →
      SessionM.Promises (p >>= fun _ => pure ()) (fun _ _ => True) [] := by
    intro p hp
    refine Procedure.emits_bind.mpr (hp.imp .nil ?_)
    rintro (e | r) done - -
    · trivial
    · trivial
  cases c with
  | get id now =>
      exact hdiscard ((SessionM.promises_get id now .nil).imp .nil fun _ _ _ _ => trivial)
  | approve id approver now => exact hdiscard (SessionM.promises_approve id approver now .nil)
  | reject id rejector reason now =>
      exact hdiscard (SessionM.promises_reject id rejector reason now .nil)
  | expirePending now => exact SessionM.promises_expirePending now .nil
  | markExecuted approval actor now result =>
      exact hdiscard (SessionM.promises_markExecuted approval actor now result .nil)
  | markFailed approval actor now reason =>
      exact hdiscard (SessionM.promises_markFailed approval actor now reason .nil)

/-- Whether a session block on the tables `s` writes the row of `id`. -/
def ApprovalSession.writes (id : UUID) (s : SqlAlchemyApprovalStore) : ApprovalSession → Bool
  | .expireIfNeeded k now => k = id ∧ s.overdue id now
  | .saveRecord approval .. => approval.approvalId = id
  | .expirePending now => s.overdue id now
  | .approvalRecord _ => false
  | .appendAudit _ => false

/-- Whether a session block reads a record that a call goes on with. -/
def ApprovalSession.reads : ApprovalSession → Bool
  | .approvalRecord _ => true
  | _ => false

section Runs

variable {κ : Type}

abbrev SessionStep (κ : Type) := Step sessionInterface κ SqlAlchemyApprovalStore

abbrev SessionRun (κ : Type) := Run sessionInterface κ SqlAlchemyApprovalStore

/-- A session block leaves the records alone that it does not write. -/
theorem view_of_not_writes {o : ApprovalSession} {id : UUID} {s : SqlAlchemyApprovalStore}
    (h : o.writes id s = false) : (sessionSystem.answer o () s).2.view id = s.view id := by
  cases o with
  | expireIfNeeded k now =>
      exact SqlAlchemyApprovalStore.view_expireIfNeeded_of_not (of_decide_eq_false h)
  | approvalRecord k => rfl
  | saveRecord approval eventType actor now =>
      show (s.saveRecord approval eventType actor now).view id = s.view id
      rw [SqlAlchemyApprovalStore.view_saveRecord, if_neg (Ne.symm (of_decide_eq_false h))]
  | expirePending now =>
      exact SqlAlchemyApprovalStore.view_expirePending_of_not
        (by rw [ApprovalSession.writes] at h; simp [h])
  | appendAudit record => rfl

/-- What every step keeps to, the whole run keeps to. -/
theorem view_of_from {s : SqlAlchemyApprovalStore} {r : SessionRun κ}
    (hr : Run.From sessionSystem s r) {id : UUID}
    (hstep : ∀ d older, d :: older <:+ r.past → (d.before.view id).Advances (d.after.view id)) :
    Relation.ReflTransGen RecordView.Advances (s.view id) (r.state.view id) := by
  induction hr with
  | start => exact .refl
  | perform hr c o i ih =>
      refine (ih fun d older hd => hstep d older (hd.trans (List.suffix_cons _ _))).tail ?_
      exact hstep _ _ (List.suffix_refl _)

variable [DecidableEq κ]

/-- Run the calls along a schedule, one session block a turn. -/
def runSessions (calls : κ → ConcurrentCall) (s : SqlAlchemyApprovalStore) (schedule : List κ) :
    SessionRun κ :=
  (interleave sessionSystem (fun c => (calls c).body) (schedule.map fun c => (c, ()))
    (Run.start s)).2

/-- The steps since `c` has read a record. -/
def sinceRead (c : κ) : List (SessionStep κ) → List (SessionStep κ)
  | [] => []
  | d :: older => if d.caller = c ∧ d.op.reads then [] else d :: sinceRead c older

/-- No save finds its row written since the record was read. -/
def undisturbed : List (SessionStep κ) → Bool
  | [] => true
  | d :: older =>
      (d.op.saved?.all fun r =>
        (sinceRead d.caller older).all fun e => !e.op.writes r.approvalId e.before) &&
      undisturbed older

theorem savesRead_runSessions (calls : κ → ConcurrentCall) (s : SqlAlchemyApprovalStore)
    (schedule : List κ) (c : κ) : SavesRead (own c (runSessions calls s schedule).past) := by
  let good : κ → List SessionEvent → Prop := fun _ => SavesRead
  have hstart : ∀ c, good c (own c (Run.start s : SessionRun κ).past) := fun _ => .nil
  have hpool : ∀ c, (calls c).body.Emits (fun _ => True) (good c) (fun _ _ => True)
      (own c (Run.start s : SessionRun κ).past) := fun c => (calls c).promises_body
  exact (interleave_emits (fun _ => True) (fun _ _ _ _ => trivial) (fun _ _ _ _ _ _ _ => trivial)
    (schedule.map fun c => (c, ())) _ trivial hstart hpool).2 c

theorem lastRead_cons {e : SessionEvent} (h : e.1.reads = false) (older : List SessionEvent) :
    lastRead (e :: older) = lastRead older := by
  obtain ⟨o, a⟩ := e
  cases o with
  | approvalRecord id => cases h
  | expireIfNeeded id now => rfl
  | saveRecord approval eventType actor now => rfl
  | expirePending now => rfl
  | appendAudit record => rfl

/-- A record that is read is the one in the table. -/
theorem record_of_read {s : SqlAlchemyApprovalStore} {id : UUID} {r : ApprovalRecord}
    (h : s.approvalRecord id = .ok r) : (s.view r.approvalId).record = some r := by
  unfold SqlAlchemyApprovalStore.approvalRecord at h
  cases hrow : s.rows.get? id with
  | none =>
      rw [hrow] at h
      cases h
  | some row =>
      rw [hrow] at h
      cases h
      rw [s.keyed id row hrow, SqlAlchemyApprovalStore.view, hrow]
      rfl

/-- As long as nobody has written it since, the record that was read last is in the table. -/
theorem stored_of_lastRead {s : SqlAlchemyApprovalStore} {r : SessionRun κ}
    (hr : Run.From sessionSystem s r) {c : κ} {rec : ApprovalRecord}
    (hlast : lastRead (own c r.past) = some rec)
    (hsince : ∀ e ∈ sinceRead c r.past, e.op.writes rec.approvalId e.before = false) :
    (r.state.view rec.approvalId).record = some rec := by
  induction hr with
  | start => cases hlast
  | @perform r hr d o i ih =>
      by_cases hreads : d = c ∧ o.reads
      · obtain ⟨rfl, hreads⟩ := hreads
        rw [own_perform_self] at hlast
        cases o with
        | approvalRecord id =>
            have hanswer : (sessionSystem.answer (.approvalRecord id) i r.state).1 =
              r.state.approvalRecord id := rfl
            rw [hanswer] at hlast
            cases hread : r.state.approvalRecord id with
            | error e =>
                rw [hread] at hlast
                cases hlast
            | ok rec' =>
                rw [hread] at hlast
                cases hlast
                exact record_of_read hread
        | expireIfNeeded id now => cases hreads
        | saveRecord approval eventType actor now => cases hreads
        | expirePending now => cases hreads
        | appendAudit record => cases hreads
      · -- other steps keep what the caller read last, and leave its record alone
        have hlast' : lastRead (own c r.past) = some rec := by
          by_cases hd : d = c
          · subst hd
            rw [own_perform_self, lastRead_cons (by simpa using hreads)] at hlast
            exact hlast
          · rw [own_perform_of_ne (Ne.symm hd)] at hlast
            exact hlast
        rw [Run.perform_past, sinceRead, if_neg hreads] at hsince
        have hwrites := hsince _ (List.mem_cons_self ..)
        have hview := view_of_not_writes hwrites
        rw [Run.perform_state, hview]
        exact ih hlast' fun e he => hsince e (List.mem_cons_of_mem _ he)

/-- An undisturbed transaction is a step of the approval state machine for every record. -/
theorem advances_of_undisturbed {s : SqlAlchemyApprovalStore} {d : SessionStep κ}
    {older : List (SessionStep κ)}
    (hr : Run.From sessionSystem s (⟨d.before, older⟩ : SessionRun κ))
    (hafter : d.after = (sessionSystem.answer d.op () d.before).2)
    (hsaves : SavesRead (own d.caller (d :: older))) (hundisturbed : undisturbed (d :: older))
    (id : UUID) : (d.before.view id).Advances (d.after.view id) := by
  obtain ⟨c, o, answer, before, after⟩ := d
  dsimp only at hr hafter
  rw [hafter]
  cases o with
  | expireIfNeeded k now => exact SqlAlchemyApprovalStore.advances_expireIfNeeded k now
  | approvalRecord k => exact .stays
  | expirePending now => exact SqlAlchemyApprovalStore.advances_expirePending now
  | appendAudit record => exact .stays
  | saveRecord approval eventType actor now =>
      rw [own_cons_self] at hsaves
      obtain ⟨rec, hlast, hmoved⟩ :=
        hsaves approval eventType actor now answer (own c older) (List.suffix_refl _)
      rw [undisturbed, Bool.and_eq_true] at hundisturbed
      -- nobody wrote the record between the caller's read and this save
      have hsince : ∀ e ∈ sinceRead c older, e.op.writes rec.approvalId e.before = false := by
        have hall : ((sinceRead c older).all fun e => !e.op.writes approval.approvalId e.before) =
            true := hundisturbed.1
        rw [hmoved.approvalId] at hall
        intro e he
        simpa using List.all_eq_true.mp hall e he
      have hstored := stored_of_lastRead hr hlast hsince
      show (before.view id).Advances ((before.saveRecord approval eventType actor now).view id)
      rw [SqlAlchemyApprovalStore.view_saveRecord]
      split
      · rename_i hid
        rw [hid, hmoved.approvalId]
        exact .moves rec approval _ hstored hmoved.moves hmoved.version rfl
      · exact .stays

theorem undisturbed_of_suffix {past older : List (SessionStep κ)} (h : older <:+ past)
    (hundisturbed : undisturbed past) : undisturbed older := by
  induction past with
  | nil => rwa [List.eq_nil_of_suffix_nil h]
  | cons d rest ih =>
      rcases List.suffix_cons_iff.mp h with rfl | h
      · exact hundisturbed
      · rw [undisturbed, Bool.and_eq_true] at hundisturbed
        exact ih h hundisturbed.2

theorem SavesRead.of_suffix {done older : List SessionEvent} (h : SavesRead done)
    (hsuffix : older <:+ done) : SavesRead older :=
  fun approval eventType actor now answer rest hrest =>
    h approval eventType actor now answer rest (hrest.trans hsuffix)

/-- Every step of an undisturbed run is one of the approval state machine. -/
theorem runSessions_advances {calls : κ → ConcurrentCall} {s : SqlAlchemyApprovalStore}
    {schedule : List κ} (hundisturbed : undisturbed (runSessions calls s schedule).past)
    {d : SessionStep κ} {older : List (SessionStep κ)}
    (hd : d :: older <:+ (runSessions calls s schedule).past) (id : UUID) :
    (d.before.view id).Advances (d.after.view id) := by
  have hfrom : Run.From sessionSystem s (runSessions calls s schedule) :=
    interleave_from _ _ .start
  obtain ⟨hbefore, i, hi⟩ := hfrom.at_step hd
  refine advances_of_undisturbed hbefore (congrArg Prod.snd hi).symm ?_
    (undisturbed_of_suffix hd hundisturbed) id
  exact (savesRead_runSessions calls s schedule d.caller).of_suffix (own_suffix d.caller hd)

/-- When no save finds its row written since the record was read, concurrent calls keep to the
approval state machine: a record that was there has one new event for each new version, at most
one of them a decision, and a terminal record stays as it is. -/
theorem concurrent_state_machine (calls : κ → ConcurrentCall) (s : SqlAlchemyApprovalStore)
    (schedule : List κ) (hundisturbed : undisturbed (runSessions calls s schedule).past) :
    (∀ id rec, (s.view id).record = some rec → ∃ rec' new,
      (runSessions calls s schedule).state.view id = ⟨some rec', (s.view id).events ++ new⟩ ∧
        rec'.version = rec.version + new.length ∧
        new.countP (·.status.decision) ≤ 1) ∧
    ∀ d ∈ (runSessions calls s schedule).past, ∀ id rec, (d.before.view id).record = some rec →
      rec.status.terminal → (d.after.view id).record = some rec := by
  have hfrom : Run.From sessionSystem s (runSessions calls s schedule) :=
    interleave_from _ _ .start
  refine ⟨fun id rec hrec => ?_, fun d hd id rec hrec hterminal => ?_⟩
  · have hsteps := view_of_from hfrom fun d older hd => runSessions_advances hundisturbed hd id
    obtain ⟨new, hevents, hversion, hchain, -⟩ := RecordView.evolves hsteps
    obtain ⟨rec', hrec'⟩ := RecordView.record_of_steps hsteps hrec
    refine ⟨rec', new, RecordView.ext hrec' hevents, ?_, ?_⟩
    · simpa [RecordView.version, hrec, hrec'] using hversion
    · rw [RecordView.status, hrec] at hchain
      have hcount : (new.map (·.status)).countP ApprovalStatus.decision ≤ 1 :=
        ApprovalStatus.countP_decision_le hchain
      rwa [List.countP_map] at hcount
  · obtain ⟨newer, older, hpast⟩ := List.append_of_mem hd
    exact (runSessions_advances hundisturbed ⟨newer, hpast.symm⟩ id).terminal hrec hterminal

end Runs

/-! ### An approval and a rejection at once -/

theorem SqlAlchemyApprovalStore.keyed_empty (id : UUID) (row : WrittenRow)
    (h : (Dict.empty : Dict UUID WrittenRow).get? id = some row) : row.record.approvalId = id := by
  cases h

/-- A store with one pending request for a restart. -/
def pendingRestart : SqlAlchemyApprovalStore :=
  let request : ApprovalRequest :=
    { principal := ⟨"operator-1", .operator, .human⟩, toolName := "restart_device",
      arguments := [], riskLevel := .high, workflowId := none, workflowNodeId := none,
      argumentsHash := none, approvalBindingHash := none }
  (SqlAlchemyApprovalStore.create request 0 5 { keyed := SqlAlchemyApprovalStore.keyed_empty }).2

/-- The request is approved by one administrator and rejected by the others. -/
def restartDecisions : ℕ → ConcurrentCall
  | 0 => .approve 5 ⟨"admin-1", .admin, .human⟩ 10
  | _ => .reject 5 ⟨"admin-2", .admin, .human⟩ "No need for it." 10

theorem concurrent_state_machine_inTurn :
    undisturbed (runSessions restartDecisions pendingRestart [0, 0, 0, 0, 1, 1, 1]).past ∧
      ∀ d ∈ (runSessions restartDecisions pendingRestart [0, 0, 0, 0, 1, 1, 1]).past, ∀ id rec,
        (d.before.view id).record = some rec → rec.status.terminal →
          (d.after.view id).record = some rec := by
  have hundisturbed :
      undisturbed (runSessions restartDecisions pendingRestart [0, 0, 0, 0, 1, 1, 1]).past := by rfl
  exact ⟨hundisturbed, (concurrent_state_machine restartDecisions pendingRestart _ hundisturbed).2⟩

/-- The approval reads the record, then the rejection takes effect, then the approval does: the
record leaves `REJECTED`, and its version counts one of the two events only. -/
theorem concurrent_decisions :
    ((runSessions restartDecisions pendingRestart [0, 0, 1, 1, 1]).state.view 5).status =
      some .rejected ∧
    ((runSessions restartDecisions pendingRestart [0, 0, 1, 1, 1, 0]).state.view 5).status =
      some .approved ∧
    ((runSessions restartDecisions pendingRestart [0, 0, 1, 1, 1, 0]).state.view 5).events.map
        (·.status) =
      [.pending, .rejected, .approved] ∧
    ((runSessions restartDecisions pendingRestart [0, 0, 1, 1, 1, 0]).state.view 5).version =
      2 := by
  refine ⟨?_, ?_, ?_, ?_⟩ <;> rfl

end McpOps
