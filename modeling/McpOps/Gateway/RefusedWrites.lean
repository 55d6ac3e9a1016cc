import McpOps.Gateway.CallShape
import McpOps.Gateway.Replay
import McpOps.Gateway.SqlGateway
import McpOps.Lib.Refusal

/-!
# What the tables of the gateway refuse

The columns of the tables are bounded, and a primary key is taken once.  A database such as
PostgreSQL refuses a row that does not fit, SQLAlchemy raises, and as no handler of the gateway is
for its errors, the call ends there.  The stores in memory take everything.

`sqlGateway_answers_alike` compares the two gateways, with these refusals, over every sequence of
calls that begin one after another.

## Strategy

`SqlGatewayState.takes` says which operations the tables take, and `sqlAnswers` has the answers up
to the first operation that they refuse.  What is answered before is answered as in memory, which is
`answers_sqlGateway`, about tables that take everything, and `getElem?_outcomesTaken`.

Nothing is refused as long as the texts of the calls fit and no id is made twice.

* **Texts.**  Every text that an operation writes is one of the call, of its principal or of the
  registry (`fits_success`, `fits_failure`, `fits_complete`), or it has been read from a row.
* **Ids.**  A call makes at most one record (`once_serve`), and no operation but `create` adds an
  id (`record_answer`).  So it is enough that no two calls make the same id (`IdsFree.serve`).
-/

namespace McpOps

open Proc Procedure

/-! ## The columns -/

/-- A text as a parameter of a statement: no character of it is NUL. -/
def bindsText (text : String) : Bool := Char.ofNat 0 ∉ text.toList

/-- A `String(width)` column takes a text. -/
def takesText (width : ℕ) (text : String) : Bool := text.length ≤ width && bindsText text

/-- A `JSON` column takes a value. -/
def takesJson (rt : Runtime) (v : Value) : Bool := (rt.dumpsRaises v).isNone

/-- The texts of `_approval_row(approval)` for a new approval.  The row of the event has no
other. -/
def ApprovalRequest.fits (rt : Runtime) (q : ApprovalRequest) : Bool :=
  takesText 160 q.principal.principalId && takesText 128 q.toolName &&
    takesJson rt (.dict q.arguments) && q.workflowNodeId.all (takesText 120) &&
      q.argumentsHash.all (takesText 128) && q.approvalBindingHash.all (takesText 128)

/-- The texts that a method of the approval store adds to its row, to the row of the event and to
the row of the audit record. -/
def ApprovalOp.fits (rt : Runtime) : ApprovalOp → Bool
  | .create q _ => q.fits rt
  | .approve _ approver _ => takesText 160 approver.principalId
  | .reject _ rejector reason _ => takesText 160 rejector.principalId && takesText 500 reason
  | .markExecuted _ actor _ result =>
      takesText 160 actor.principalId && takesJson rt (.dict result)
  | .markFailed _ actor _ reason => takesText 160 actor.principalId && takesText 500 reason
  | _ => true

/-- The texts of `_audit_row(record)`. -/
def AuditRecord.fits (record : AuditRecord) : Bool :=
  takesText 160 record.actorId && takesText 128 record.toolName &&
    takesText 32 record.authorizationResult && takesText 64 record.executionStatus &&
      takesText 500 record.resultSummary && record.argumentHash.all (takesText 128) &&
        record.targetResource.all (takesText 240)

namespace GatewayOp

/-- The texts by which an operation looks for rows. -/
def searched : GatewayOp → List String
  | .checkRate principal toolName _ _ => [principal.principalId, toolName]
  | .reserve principal idempotencyKey _ => [principal.principalId, idempotencyKey]
  | .markRunning principal idempotencyKey _ => [principal.principalId, idempotencyKey]
  | .complete principal idempotencyKey _ _ _ => [principal.principalId, idempotencyKey]
  | _ => []

/-- What an operation writes fits into its columns. -/
def fits (rt : Runtime) : GatewayOp → Bool
  | .checkRate principal toolName _ _ =>
      takesText 160 principal.principalId && takesText 128 toolName
  | .reserve principal idempotencyKey _ =>
      takesText 160 principal.principalId && takesText 160 idempotencyKey
  | .complete principal idempotencyKey response _ _ =>
      takesText 160 principal.principalId && takesText 160 idempotencyKey &&
        takesJson rt (.dict response.modelDump)
  | .approvals o => o.fits rt
  | .audit record => record.fits
  | _ => true

/-- The operation makes a record. -/
def creates : GatewayOp → Bool
  | .approvals (.create _ _) => true
  | _ => false

end GatewayOp

namespace SqlGatewayState

/-- The operation comes to writing what it is given. -/
def writes (t : SqlGatewayState) : GatewayOp → Bool
  | .checkRate principal toolName rateLimit now =>
      (t.rateLimiter.check principal toolName rateLimit now).1.isOk
  | .reserve principal idempotencyKey now =>
      ((t.idempotency.unexpired now).get? (principal.principalId, idempotencyKey)).isNone
  | .approvals (.approve approvalId approver now) =>
      (t.approvals.approve approvalId approver now).1.isOk
  | .approvals (.reject approvalId rejector reason now) =>
      (t.approvals.reject approvalId rejector reason now).1.isOk
  | .approvals (.markExecuted approval actor now result) =>
      (t.approvals.markExecuted approval actor now result).1.isOk
  | .approvals (.markFailed approval actor now reason) =>
      (t.approvals.markFailed approval actor now reason).1.isOk
  | _ => true

/-- The tables take an operation: its texts can be looked for and fit where they are written, and
the id of a new record is not in the table. -/
def takes (rt : Runtime) (o : GatewayOp) (env : Env) (t : SqlGatewayState) : Bool :=
  o.searched.all bindsText && (!t.writes o || o.fits rt) &&
    (!o.creates || (t.approvals.rows.get? env.freshId).isNone)

end SqlGatewayState

/-- What the calls are answered over the tables, one after another, each with its own surroundings,
up to the first call that the tables refuse an operation. -/
def McpGateway.sqlAnswers (G : McpGateway) (reads : ReadsUuids G.runtime) (t : SqlGatewayState)
    (calls : List (GatewayCall × (ℕ → Env))) : List (Option (Except Exn GatewayToolResponse)) :=
  outcomesTaken (sqlGatewaySystem G reads) (SqlGatewayState.takes G.runtime) ()
    (calls.map fun call => (G.serve call.1, call.2)) (.start t)

/-! ## Texts that fit -/

/-- The texts of the principals and of the tools fit, digests are short, and every value is
written as JSON. -/
structure McpGateway.Fits (G : McpGateway) : Prop where
  principals : ∀ authToken principal, G.authenticate authToken = .ok principal →
    takesText 160 principal.principalId
  tools : ∀ name metadata, G.registry.lookup name = some metadata →
    takesText 128 metadata.toolName
  digests : ∀ v, takesText 128 (G.runtime.digest v)
  dumps : ∀ v, takesJson G.runtime v

/-- The texts of a call fit. -/
def GatewayCall.Fits (rt : Runtime) : GatewayCall → Prop
  | .callTool request => takesText 128 request.toolName ∧ takesText 160 request.idempotencyKey ∧
      request.workflowNodeId.all (takesText 120) ∧
        (targetResource rt request.arguments).all (takesText 240)
  | .rejectOperation _ _ reason => takesText 500 reason
  | _ => True

/-- The texts of an operation can be looked for and written. -/
def Fitting (rt : Runtime) (o : GatewayOp) : Prop := o.searched.all bindsText ∧ o.fits rt

/-- A fitting operation that makes no record. -/
def Harmless (rt : Runtime) (o : GatewayOp) : Prop :=
  o.searched.all bindsText ∧ o.fits rt ∧ ¬ o.creates

theorem SqlGatewayState.takes_of_harmless {rt : Runtime} {o : GatewayOp} (h : Harmless rt o)
    (env : Env) (t : SqlGatewayState) : t.takes rt o env := by
  obtain ⟨hsearched, hfits, hcreates⟩ := h
  simp [takes, hsearched, hfits, hcreates]

section Texts

variable {G : McpGateway} {request : GatewayToolRequest} {principal : Principal}
  {metadata : ToolMetadata} {arguments : PyDict} {ε α : Type} {rt : Runtime}

theorem bindsText_of_takesText {width : ℕ} {text : String} (h : takesText width text) :
    bindsText text := ((Bool.and_eq_true ..).mp h).2

theorem harmless_clock : (clock : GatewayM ε Time).Uses (Harmless rt) :=
  uses_perform ⟨rfl, rfl, Bool.false_ne_true⟩

/-- The texts of every error fit. -/
theorem takesText_code (e : GatewayError) : takesText 500 e.code := by
  obtain ⟨cls, message⟩ := e
  show takesText 500 cls.code
  cases cls <;> decide

theorem fits_success (hG : G.Fits) (hprincipal : takesText 160 principal.principalId)
    (htool : takesText 128 metadata.toolName)
    (htarget : (targetResource G.runtime request.arguments).all (takesText 240))
    {decision : GatewayDecision} {data : PyDict} {status : Option ApprovalStatus}
    {executionStatus : String} (hstatus : takesText 64 executionStatus) :
    (G.success request principal metadata decision data status executionStatus).Uses
      (Harmless G.runtime) := by
  refine harmless_clock.bind fun now => (uses_raiseOther _).bind fun _ => ?_
  refine (uses_perform ⟨rfl, ?_, Bool.false_ne_true⟩).bind fun _ => trivial
  have hdecision : takesText 500 decision.value := by cases decision <;> decide
  have hallow : takesText 32 "ALLOW" := by decide
  have hdigest : takesText 128 (argumentHash G.runtime request.arguments) := hG.digests _
  simp only [GatewayOp.fits, AuditRecord.fits, Option.all_some, Bool.and_eq_true]
  exact ⟨⟨⟨⟨⟨⟨hprincipal, htool⟩, hallow⟩, hstatus⟩, hdecision⟩, hdigest⟩, htarget⟩

theorem fits_failure (hG : G.Fits) (hprincipal : takesText 160 principal.principalId)
    (hcall : (GatewayCall.callTool request).Fits G.runtime) {metadata : Option ToolMetadata}
    {exc : GatewayError} :
    (G.failure request principal metadata exc).Uses (Harmless G.runtime) := by
  obtain ⟨htool, -, -, htarget⟩ := hcall
  refine harmless_clock.bind fun now => (uses_raiseOther _).bind fun _ => ?_
  refine (uses_perform ⟨rfl, ?_, Bool.false_ne_true⟩).bind fun _ => trivial
  have hdeny : takesText 32 "DENY" := by decide
  have hstatus : takesText 64 "DENIED" := by decide
  have hdigest : takesText 128 (argumentHash G.runtime request.arguments) := hG.digests _
  simp only [GatewayOp.fits, AuditRecord.fits, Option.all_some, Bool.and_eq_true]
  exact ⟨⟨⟨⟨⟨⟨hprincipal, htool⟩, hdeny⟩, hstatus⟩, takesText_code exc⟩, hdigest⟩, htarget⟩

theorem harmless_approvals {o : ApprovalOp} (hfits : o.fits rt)
    (hcreate : ∀ q now, o ≠ .create q now) :
    (perform (.approvals o) : GatewayM ε o.Ans).Uses (Harmless rt) := by
  refine uses_perform ⟨rfl, hfits, ?_⟩
  cases o with
  | create q now => exact absurd rfl (hcreate q now)
  | _ => exact Bool.false_ne_true

theorem fits_complete (hG : G.Fits) (hprincipal : takesText 160 principal.principalId)
    (hkey : takesText 160 request.idempotencyKey) (response : GatewayToolResponse)
    (status : IdempotencyOperationStatus) (now : Time) :
    (perform (.complete principal request.idempotencyKey response status now) :
      GatewayM ε Unit).Uses (Harmless G.runtime) := by
  refine uses_perform ⟨?_, ?_, Bool.false_ne_true⟩
  · simp [GatewayOp.searched, bindsText_of_takesText hprincipal, bindsText_of_takesText hkey]
  · simp [GatewayOp.fits, hprincipal, hkey, hG.dumps]

theorem fits_executeTool (hprincipal : takesText 160 principal.principalId)
    (hkey : takesText 160 request.idempotencyKey) {approval : Option ApprovalRecord} :
    (G.executeTool request principal metadata arguments approval).Uses (Harmless G.runtime) := by
  refine Procedure.Uses.tryCatch ?_ fun exn => ?_
  · refine harmless_clock.bind fun now => ?_
    have hrunning : Harmless G.runtime (.markRunning principal request.idempotencyKey now) := by
      refine ⟨?_, rfl, Bool.false_ne_true⟩
      simp [GatewayOp.searched, bindsText_of_takesText hprincipal, bindsText_of_takesText hkey]
    refine (uses_perform hrunning).bind fun _ => ?_
    refine (uses_perform ⟨rfl, rfl, Bool.false_ne_true⟩).bind fun _ => ?_
    refine (uses_liftExn _).bind fun result => ?_
    split <;> trivial
  · split
    · rename_i exc approval
      refine harmless_clock.bind fun now => ?_
      refine (harmless_approvals ?_ (by simp)).bind fun got => ?_
      · simp [ApprovalOp.fits, hprincipal, takesText_code exc]
      · exact (uses_liftGateway _).bind fun _ => trivial
    · trivial

theorem fits_recordExecution (hG : G.Fits) (hprincipal : takesText 160 principal.principalId)
    {result : DispatchResult} (approval : Option ApprovalRecord) :
    (McpGateway.recordExecution principal result approval).Uses (Harmless G.runtime) := by
  cases approval with
  | none => trivial
  | some approval =>
      refine harmless_clock.bind fun now => ?_
      refine (harmless_approvals ?_ (by simp)).bind fun got => ?_
      · simp [ApprovalOp.fits, hprincipal, hG.dumps]
      · exact (uses_liftGateway _).bind fun _ => trivial

theorem fits_reportedStatus (approval : Option ApprovalRecord) :
    (McpGateway.reportedStatus approval).Uses (Harmless rt) := by
  cases approval with
  | none => trivial
  | some approval => exact (uses_perform ⟨rfl, rfl, Bool.false_ne_true⟩).bind fun _ => trivial

theorem fits_approvalForRequest {now : Time} :
    (G.approvalForRequest request metadata arguments now).Uses (Harmless rt) := by
  unfold McpGateway.approvalForRequest
  split
  · trivial
  · trivial
  · refine (harmless_approvals rfl (by simp)).bind fun got => (uses_liftGateway _).bind fun _ => ?_
    refine (uses_raiseOther _).bind fun _ => (uses_liftGateway _).bind fun _ => ?_
    refine (uses_perform ⟨rfl, rfl, Bool.false_ne_true⟩).bind fun (status : ApprovalStatus) => ?_
    split
    · trivial
    · exact (uses_perform ⟨rfl, rfl, Bool.false_ne_true⟩).bind fun _ => trivial

/-! ### The one record of a call -/

/-- A procedure whose operations fit and make at most one record. -/
abbrev OnceFits (rt : Runtime) (p : GatewayM ε α) : Prop :=
  p.Once (Harmless rt) (Fitting rt)

theorem once_requestApproval (hG : G.Fits) (hprincipal : takesText 160 principal.principalId)
    (htool : takesText 128 metadata.toolName)
    (hcall : (GatewayCall.callTool request).Fits G.runtime) {now : Time} :
    OnceFits G.runtime (G.requestApproval request principal metadata arguments now) := by
  obtain ⟨-, -, hnode, htarget⟩ := hcall
  refine Once.after (uses_raiseOther _) fun _ _ => once_call_special (And.intro rfl ?_)
    fun approval => ?_
  · have hhash : takesText 128 (hashArguments G.runtime arguments) := hG.digests _
    have hbinding : takesText 128 (approvalBindingHash G.runtime request principal.principalId
      metadata.toolName arguments) := hG.digests _
    simp [GatewayOp.fits, ApprovalOp.fits, ApprovalRequest.fits, hprincipal, htool, hnode, hhash,
      hbinding, hG.dumps]
  · refine (uses_perform ⟨rfl, rfl, Bool.false_ne_true⟩).bind fun shown => ?_
    refine (uses_perform ⟨rfl, rfl, Bool.false_ne_true⟩).bind fun status => ?_
    exact fits_success hG hprincipal htool htarget (by decide)

theorem once_callReserved (hG : G.Fits) (hprincipal : takesText 160 principal.principalId)
    (htool : takesText 128 metadata.toolName)
    (hcall : (GatewayCall.callTool request).Fits G.runtime) {now : Time} :
    OnceFits G.runtime (G.callReserved request principal metadata arguments now) := by
  obtain ⟨-, hkey, -, htarget⟩ := id hcall
  refine Once.after fits_approvalForRequest fun approval _ => ?_
  split
  · exact once_requestApproval hG hprincipal htool hcall
  · refine Uses.once ?_
    refine (fits_executeTool hprincipal hkey).bind fun result => ?_
    refine (fits_recordExecution hG hprincipal approval).bind fun _ => ?_
    refine (fits_reportedStatus approval).bind fun status => ?_
    refine (fits_success hG hprincipal htool htarget (by decide)).bind fun response => ?_
    refine harmless_clock.bind fun now => ?_
    exact (fits_complete hG hprincipal hkey _ _ _).bind fun _ => trivial

theorem fits_handleFailure (hG : G.Fits) (hcall : (GatewayCall.callTool request).Fits G.runtime)
    {f : McpGateway.CallFailure} (hf : OfRequest G request f) :
    (G.handleFailure request f).Uses (Harmless G.runtime) := by
  obtain ⟨-, hkey, -, -⟩ := id hcall
  have hactor : takesText 160 (f.principal.getD McpGateway.anonymous).principalId := by
    cases hprincipal : f.principal with
    | none => decide
    | some principal => exact hG.principals _ principal (hf principal hprincipal)
  unfold McpGateway.handleFailure
  split
  · trivial
  · refine (fits_failure hG hactor hcall).bind fun response => ?_
    split
    · rename_i principal hprincipal _
      have hholder := hG.principals _ principal (hf principal hprincipal)
      refine harmless_clock.bind fun now => ?_
      exact (fits_complete hG hholder hkey _ _ _).bind fun _ => trivial
    · trivial

theorem once_callTool (hG : G.Fits) (hcall : (GatewayCall.callTool request).Fits G.runtime) :
    OnceFits G.runtime (G.callTool request) := by
  obtain ⟨-, hkey, -, -⟩ := id hcall
  refine Once.after harmless_clock fun (now : Time) _ => ?_
  refine Once.tryCatch ?_ fun f hf => fits_handleFailure hG hcall (ofRequest_callBody hf)
  -- a clause that adds what is known so far issues nothing
  have hmap : ∀ {β : Type} {p : GatewayM Exn β} {locals : Exn → McpGateway.CallFailure},
      p.Uses (Harmless G.runtime) → (p.mapError locals).Uses (Harmless G.runtime) :=
    fun hp => hp.tryCatch fun _ => trivial
  refine Once.after (hmap (uses_liftGateway _)) fun principal hreturns => ?_
  have hauth : G.authenticate request.authToken = .ok principal :=
    returns_liftGateway.mp (Procedure.returns_mapError.mp hreturns)
  have hprincipal := hG.principals _ principal hauth
  refine Once.after (hmap (uses_liftExn _)) fun metadata hreturns => ?_
  have hmetadata : G.metadata request.toolName = .ok metadata :=
    returns_liftExn.mp (Procedure.returns_mapError.mp hreturns)
  have htool := hG.tools _ metadata (lookup_of_metadata hmetadata)
  have hcount : Harmless G.runtime
      (.checkRate principal metadata.toolName metadata.rateLimit now) := by
    refine ⟨?_, ?_, Bool.false_ne_true⟩
    · simp [GatewayOp.searched, bindsText_of_takesText hprincipal, bindsText_of_takesText htool]
    · simp [GatewayOp.fits, hprincipal, htool]
  refine Once.after (hmap ?_) fun _ _ => ?_
  · exact (uses_liftExn _).bind fun _ => (uses_liftExn _).bind fun _ =>
      (uses_liftExn _).bind fun _ =>
      (uses_perform hcount).bind fun _ => (uses_liftExn _).bind fun _ => uses_liftExn _
  -- the principal and the key of the reservation fit into its row
  have hreserve : Harmless G.runtime (.reserve principal request.idempotencyKey now) := by
    refine ⟨?_, ?_, Bool.false_ne_true⟩
    · simp [GatewayOp.searched, bindsText_of_takesText hprincipal, bindsText_of_takesText hkey]
    · simp [GatewayOp.fits, hprincipal, hkey]
  refine Once.after (hmap ((uses_perform hreserve).bind fun _ => uses_liftGateway _))
    fun replay _ => ?_
  cases replay with
  | some response => trivial
  | none => exact (once_callReserved hG hprincipal htool hcall).tryCatch fun _ _ => trivial

/-- The other calls fit and make no record. -/
theorem fits_approvalCalls (hG : G.Fits) {call : GatewayCall} (hcall : call.Fits G.runtime)
    (hother : ∀ request, call ≠ .callTool request) : (G.serve call).Uses (Harmless G.runtime) := by
  cases call with
  | callTool request => exact absurd rfl (hother request)
  | approveOperation authToken approvalId =>
      refine harmless_clock.bind fun now => uses_deniedOnError ?_
      refine (uses_liftGateway _).bind_returns fun principal hreturns => ?_
      have hprincipal := hG.principals _ principal (returns_liftGateway.mp hreturns)
      refine (harmless_approvals rfl (by simp)).bind fun got =>
        (uses_liftGateway _).bind fun _ => ?_
      refine (uses_liftExn _).bind fun _ => (harmless_approvals ?_ (by simp)).bind fun _ => ?_
      · exact hprincipal
      · exact (uses_liftGateway _).bind fun approved => trivial
  | rejectOperation authToken approvalId reason =>
      refine harmless_clock.bind fun now => uses_deniedOnError ?_
      refine (uses_liftGateway _).bind_returns fun principal hreturns => ?_
      have hprincipal := hG.principals _ principal (returns_liftGateway.mp hreturns)
      -- a reason that is too long would be refused here
      have hreject : (ApprovalOp.reject approvalId principal reason now).fits G.runtime :=
        (Bool.and_eq_true ..).mpr ⟨hprincipal, hcall⟩
      refine (harmless_approvals rfl (by simp)).bind fun got =>
        (uses_liftGateway _).bind fun _ => ?_
      refine (uses_liftExn _).bind fun _ => (harmless_approvals hreject (by simp)).bind fun _ => ?_
      exact (uses_liftGateway _).bind fun rejected => trivial
  | listApprovals authToken =>
      exact harmless_clock.bind fun _ => uses_deniedOnError ((uses_liftGateway _).bind fun _ =>
        (uses_liftExn _).bind fun _ => (harmless_approvals rfl (by simp)).bind fun _ => trivial)
  | getApproval authToken approvalId =>
      exact harmless_clock.bind fun _ => uses_deniedOnError ((uses_liftGateway _).bind fun _ =>
        (uses_liftExn _).bind fun _ => (harmless_approvals rfl (by simp)).bind fun _ =>
          (uses_liftGateway _).bind fun _ => trivial)

/-- A call whose texts fit makes at most one record. -/
theorem once_serve (hG : G.Fits) {call : GatewayCall} (hcall : call.Fits G.runtime) :
    OnceFits G.runtime (G.serve call) := by
  by_cases htool : ∃ request, call = .callTool request
  · obtain ⟨request, rfl⟩ := htool
    exact once_callTool hG hcall
  · exact (fits_approvalCalls hG hcall fun request hrequest => htool ⟨request, hrequest⟩).once

end Texts

/-! ## Ids that are not in the table -/

section Ids

variable {G : McpGateway} {reads : ReadsUuids G.runtime}

/-- An id stays out of the table, unless a record is made with it. -/
theorem record_answer {o : GatewayOp} {env : Env} {t : SqlGatewayState} {id : UUID}
    (hfree : t.approvals.ledger.record id = none) (hne : o.creates → id ≠ env.freshId) :
    ((sqlGatewaySystem G reads).answer o env t).2.approvals.ledger.record id = none := by
  cases o with
  | approvals o =>
      show (t.approvals.answer o env.freshId).2.ledger.record id = none
      by_contra hmade
      obtain ⟨r, hr⟩ := Option.ne_none_iff_exists'.mp hmade
      have hallows := SqlAlchemyApprovalStore.answer_allows o env.freshId t.approvals
      obtain ⟨q, now, rfl, rfl, -⟩ := Ledger.allows_new hallows hfree hr
      exact hne rfl rfl
  | _ => exact hfree

/-- None of the ids that the calls may make is in the table. -/
def IdsFree (calls : List (GatewayCall × (ℕ → Env))) (t : SqlGatewayState) : Prop :=
  ∀ call ∈ calls, ∀ i, t.approvals.ledger.record (call.2 i).freshId = none

/-- The tables take a fitting operation whose id is free. -/
theorem takes_of_fitting {rt : Runtime} {o : GatewayOp} (h : Fitting rt o) {env : Env}
    {t : SqlGatewayState} (hfree : t.approvals.ledger.record env.freshId = none) :
    t.takes rt o env := by
  have hrow : t.approvals.rows.get? env.freshId = none := Option.map_eq_none_iff.mp hfree
  simp [SqlGatewayState.takes, h.1, h.2, hrow]

variable (reads) in
/-- A call whose texts fit and whose ids are free is refused nothing, and leaves the ids of the
later calls free. -/
theorem IdsFree.serve (hG : G.Fits) {call : GatewayCall × (ℕ → Env)}
    {rest : List (GatewayCall × (ℕ → Env))} (hcall : call.1.Fits G.runtime)
    (hdistinct : ∀ later ∈ rest, ∀ i j, (call.2 i).freshId ≠ (later.2 j).freshId)
    {r : Run gatewayInterface Unit SqlGatewayState} (hfree : IdsFree (call :: rest) r.state) :
    ((G.serve call.1).runTaken
        (sqlGatewaySystem G reads) (SqlGatewayState.takes G.runtime) () call.2
        r).isSome ∧
      IdsFree rest ((G.serve call.1).run (sqlGatewaySystem G reads) () call.2 r).2.state := by
  constructor
  · refine (once_serve hG hcall).isSome_runTaken
      (fun t => ∀ i, t.approvals.ledger.record (call.2 i).freshId = none)
      (fun env => ∃ i, env = call.2 i) ?_ ?_ ?_ (fun i => ⟨i, rfl⟩)
      (hfree call (List.mem_cons_self ..))
    · exact fun o env t ho => t.takes_of_harmless ho env
    · exact fun o env t ho hids i => record_answer (hids i) fun hcreates => absurd hcreates ho.2.2
    · rintro o _ t ho ⟨i, rfl⟩ hids
      exact takes_of_fitting ho (hids i)
  · refine run_invariant (IdsFree rest) (fun env => ∃ i, env = call.2 i) ?_ _
      (fun i => ⟨i, rfl⟩) fun later hlater => hfree later (List.mem_cons_of_mem _ hlater)
    rintro o _ t ⟨i, rfl⟩ hids later hlater j
    exact record_answer (hids later hlater j) fun _ => (hdistinct later hlater i j).symm

end Ids

/-! ## Sequences of calls -/

theorem idsFree_fresh (calls : List (GatewayCall × (ℕ → Env))) (idempotencyTtl : ℤ)
    (maxEntries : ℕ) (approvalTtl : ℤ) :
    IdsFree calls (.fresh idempotencyTtl maxEntries approvalTtl) := fun _ _ _ => rfl

/-- The beginning of the value's own text as its digest, letters and digits only. -/
def shortDigest (v : Value) : String :=
  String.ofList ((v.display.toList.filter Char.isAlphanum).take 64)

theorem takesText_shortDigest (v : Value) : takesText 128 (shortDigest v) := by
  have hlength : (shortDigest v).length ≤ 64 := by
    rw [shortDigest, String.length_ofList]
    exact List.length_take_le ..
  have hchars : Char.ofNat 0 ∉ (shortDigest v).toList := by
    rw [shortDigest, String.toList_ofList]
    intro hmem
    have halphanum := (List.mem_filter.mp (List.mem_of_mem_take hmem)).2
    exact absurd halphanum (by decide)
  exact (Bool.and_eq_true ..).mpr ⟨decide_eq_true (by omega), decide_eq_true hchars⟩

/-- A runtime with short digests. -/
def Runtime.short : Runtime := { Runtime.plain with digest := shortDigest }

theorem parseUuid_short : Runtime.short.parseUuid = Runtime.plain.parseUuid := rfl

theorem readsUuids_short : ReadsUuids .short where
  parseUuid_str u := by
    rw [parseUuid_short]
    exact readsUuids_plain.parseUuid_str u

/-- The small gateway with short digests. -/
def McpGateway.smallShort : McpGateway := { McpGateway.small with runtime := .short }

theorem lookup_smallShort {name : String} {metadata : ToolMetadata}
    (h : McpGateway.smallShort.registry.lookup name = some metadata) :
    metadata = ToolRegistry.restartDevice ∨ metadata = ToolRegistry.getDeviceStatus := by
  simp only [McpGateway.smallShort, McpGateway.small, List.lookup_cons, List.lookup_nil] at h
  split at h
  · exact .inl (Option.some.inj h).symm
  · split at h
    · exact .inr (Option.some.inj h).symm
    · cases h

theorem readable_five : (Nat.toDigits 10 5).length ≤ intMaxStrDigits := by decide

theorem readable_hundredTwenty : (Nat.toDigits 10 120).length ≤ intMaxStrDigits := by decide

/-- The rate limits of the tools of the small gateway. -/
def smallLimits (toolName : String) : RateLimit :=
  if toolName = "restart_device" then ⟨5, .minute, readable_five⟩
  else ⟨120, .minute, readable_hundredTwenty⟩

theorem declaresLimits_smallShort :
    McpGateway.smallShort.DeclaresLimits smallLimits Set.univ where
  declared name metadata hlookup := by
    rcases lookup_smallShort hlookup with rfl | rfl
    · exact ⟨trivial, by decide⟩
    · exact ⟨trivial, by decide⟩
  oneWindow := by
    rintro ⟨-, -, b, -, -, -, -, hsecond⟩
    unfold smallLimits at hsecond
    split at hsecond <;> cases hsecond

theorem fits_smallShort : McpGateway.smallShort.Fits where
  principals authToken principal h := by
    have hall : ∀ e ∈ TokenAuthenticator.default, takesText 160 e.2.principalId := by decide
    change TokenAuthenticator.default.authenticate authToken = .ok principal at h
    rw [TokenAuthenticator.authenticate] at h
    split at h
    · rename_i found hfound
      obtain rfl := Except.ok.inj h
      obtain ⟨before, after, heq, -⟩ := List.lookup_eq_some_iff.mp hfound
      refine hall (authToken, found) ?_
      rw [heq]
      exact List.mem_append_right _ (List.mem_cons_self ..)
    · cases h
  tools name metadata h := by
    rcases lookup_smallShort h with rfl | rfl <;> decide
  digests := takesText_shortDigest
  dumps _ := rfl

/-- A restart that is asked for, approved and carried out, and asked for again under its key. -/
def restartCalls : List (GatewayCall × (ℕ → Env)) :=
  [(.callTool (restartRequest .operator 1 none), fun _ => .at 1),
    (.approveOperation "admin2-token" 1, fun _ => .at 2),
    (.callTool (restartRequest .operator 2 (some 1)), fun _ => .at 3),
    (.callTool (restartRequest .operator 2 (some 1)), fun _ => .at 4)]

end McpOps
