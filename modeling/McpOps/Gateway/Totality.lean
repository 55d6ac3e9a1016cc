import McpOps.Gateway.Replay

/-!
# When a call is answered and audited

A call of `call_tool` ends with a response, an audit record and a key that is not left `RUNNING`
except in the cases that `CallSound` excludes: an exception that is none of the gateway's own, a
replayed response, which is not audited, and a key that was `RUNNING` already.  The other calls
are set aside here: one call is run to its end while its tool turns out as `run`.

## Strategy

`CallSound` speaks of the state before the call.  For that, what the call comes to before the
reservation is given as a pure function (`checks`), and so is the outcome of the tool
(`toolOutcome`).

The parts of the call each have a lemma about how they end, on both sides: settled if sound, and an
exception that escapes if not.

* `success_keeps` and `failure_keeps`: a response and a record, unless no record can be made of the
  arguments.
* `approvalForRequest_ends`, `executeTool_ends`, `recordExecution_ends`: which exceptions are the
  gateway's own.
* `callReserved_ends` joins them for the part after the reservation.

`BodyEnds` is what the body leaves to its exception handler.  `handleFailure_ends` settles the sound
calls and no others, and `callTool_settled_iff` follows.
-/

namespace McpOps

open Proc

/-! ## What the call depends on -/

/-- The result is an exception that `except GatewayError` does not catch. -/
def Escapes {α : Type} (res : Except Exn α) : Prop :=
  ∃ cls message, res = .error (.other cls message)

/-- The key is `RUNNING`. -/
def IdempotencyStore.isRunning (principal : Principal) (idempotencyKey : String)
    (s : IdempotencyStore) : Bool :=
  (s.keys.get? (principal.principalId, idempotencyKey)).any fun rec => rec.status = .running

namespace McpGateway

variable {A : Type} (G : McpGateway) (B : ApprovalBackend A)

/-- What `checkRequest` comes to, as a pure function. -/
def requestChecks (principal : Principal) (metadata : ToolMetadata) (arguments : PyDict)
    (s : GatewayState A) (now : Time) : Except Exn Unit := do
  G.checkToolEnabled metadata
  checkToolExecutable metadata
  GatewayAuthorizer.authorize principal metadata.requiredPermission
  (s.rateLimiter.check principal metadata.toolName metadata.rateLimit now).1
  G.validateDomainArguments arguments principal metadata

/-- What `call_tool` comes to before the reservation, as a pure function. -/
def checks (request : GatewayToolRequest) (s : GatewayState A) (now : Time) :
    Except Exn (Principal × ToolMetadata) :=
  match G.authenticate request.authToken with
  | .error e => .error (.gateway e)
  | .ok principal =>
      match G.metadata request.toolName with
      | .error e => .error e
      | .ok metadata =>
          match G.requestChecks principal metadata (stripUntrustedModelFields request.arguments)
            s now with
          | .error e => .error e
          | .ok () => .ok (principal, metadata)

/-- What a run of the tool comes to: a reported error is raised. -/
def toolOutcome (metadata : ToolMetadata) (run : ToolRun) : Except Exn DispatchResult :=
  match G.executeWithDeadline metadata run with
  | .error e => .error e
  | .ok result =>
      if result.isError then .error (toolError G.runtime result.structuredContent) else .ok result

/-- The record that the request names is approved and matches it. -/
def ApprovedFor (request : GatewayToolRequest) (metadata : ToolMetadata)
    (s : GatewayState A) : Prop :=
  ∃ id rec, request.approvalId = some id ∧ (B.ledger s.approvals).record id = some rec ∧
    rec.status = .approved ∧
    G.checkBinding request metadata (stripUntrustedModelFields request.arguments) rec = .ok ()

/-- A tool that is run raises one of the gateway's own errors, if any. -/
def ToolSound (request : GatewayToolRequest) (metadata : ToolMetadata) (s : GatewayState A)
    (run : ToolRun) : Prop :=
  (metadata.requiresApproval → G.ApprovedFor B request metadata s) →
    ¬ Escapes (G.toolOutcome metadata run)

/-- Arguments that are hashed can be: those of a governed request that names no approval, or one
that can be got. -/
def HashSound (request : GatewayToolRequest) (metadata : ToolMetadata) (s : GatewayState A)
    (now : Time) : Prop :=
  metadata.requiresApproval →
    (∀ id, request.approvalId = some id →
      ∃ approval, ((B.ledger s.approvals).get id now).1 = .ok approval) →
    hashArgumentsRaises G.runtime (stripUntrustedModelFields request.arguments) = none

/-- The arguments and the run of the tool are sound. -/
def ReservedSound (request : GatewayToolRequest) (metadata : ToolMetadata) (s : GatewayState A)
    (now : Time) (run : ToolRun) : Prop :=
  G.HashSound B request metadata s now ∧ G.ToolSound B request metadata s run

/-- No exception escapes from the body of the call, no response is replayed to it, and it does not
end on a key that was `RUNNING` before. -/
def BodySound (request : GatewayToolRequest) (s : GatewayState A) (now : Time)
    (run : ToolRun) : Prop :=
  match G.checks request s now with
  | .error (.other _ _) => False
  | .error (.gateway _) => ∀ principal, G.authenticate request.authToken = .ok principal →
      s.idempotency.isRunning principal request.idempotencyKey = false
  | .ok (principal, metadata) =>
      match (s.idempotency.reserve principal request.idempotencyKey now).1 with
      | .error _ => (s.idempotency.expire now).isRunning principal request.idempotencyKey = false
      | .ok (some _) => False
      | .ok none => G.ReservedSound B request metadata s now run

/-- The body of the call is sound, and an audit record can be made of the arguments. -/
def CallSound (request : GatewayToolRequest) (s : GatewayState A) (now : Time)
    (run : ToolRun) : Prop :=
  auditRaises G.runtime request.arguments = none ∧ G.BodySound B request s now run

/-- The surroundings of a call whose tool runs as `run`. -/
def duringRun (run : ToolRun) : System gatewayInterface (GatewayState A) (Time × UUID) where
  answer o i s := (gatewaySystem G B).answer o ⟨i.1, i.2, run⟩ s

/-- There is an audit record with the correlation id of the request. -/
def Audited {κ : Type} (request : GatewayToolRequest)
    (r : Run gatewayInterface κ (GatewayState A)) : Prop :=
  ∃ d ∈ r.past, ∃ record, d.op = .audit record ∧ record.correlationId = request.correlationId

/-- The call has a response, there is an audit record of it, and its key is not left
`RUNNING`. -/
def Settled {κ : Type} (request : GatewayToolRequest) (res : Except Exn GatewayToolResponse)
    (r : Run gatewayInterface κ (GatewayState A)) : Prop :=
  (∃ response, res = .ok response) ∧ Audited request r ∧
    ∀ principal, G.authenticate request.authToken = .ok principal →
      r.state.idempotency.isRunning principal request.idempotencyKey = false

end McpGateway

namespace IdempotencyStore

variable {principal : Principal} {idempotencyKey : String} {s : IdempotencyStore}

/-- A fresh reservation is not `RUNNING`. -/
theorem isRunning_of_reserve {now : Time}
    (h : (s.reserve principal idempotencyKey now).1 = .ok none) :
    (s.reserve principal idempotencyKey now).2.isRunning principal idempotencyKey = false := by
  rw [reserve] at h ⊢
  cases hget : (s.expire now).keys.get? (principal.principalId, idempotencyKey) with
  | some existing =>
      simp only [hget] at h
      split at h <;> cases h
  | none =>
      simp only [isRunning]
      cases hrec : ((s.expire now).insertReservation principal idempotencyKey
          now).evictOldestIfNeeded.keys.get? (principal.principalId, idempotencyKey) with
      | none => rfl
      | some rec =>
          have hinserted := of_get?_evict _ hrec
          rw [insertReservation, Dict.get?_set_self] at hinserted
          cases hinserted
          rfl

theorem reserve_snd {now : Time} (h : (s.reserve principal idempotencyKey now).1 ≠ .ok none) :
    (s.reserve principal idempotencyKey now).2 = s.expire now := by
  rw [reserve] at h ⊢
  cases hget : (s.expire now).keys.get? (principal.principalId, idempotencyKey) with
  | some existing =>
      simp only
      split <;> rfl
  | none => simp [hget] at h

/-- A completed key is `RUNNING` only if it is completed as such. -/
theorem isRunning_complete {response : GatewayToolResponse} {status : IdempotencyOperationStatus}
    {now : Time} (hstatus : status ≠ .running) :
    (s.complete principal idempotencyKey response status now).isRunning principal idempotencyKey =
      false := by
  simp [complete, isRunning, hstatus]

end IdempotencyStore

/-! ## The parts of a call -/

namespace McpGateway

section Parts

variable {A κ : Type} {G : McpGateway} {B : ApprovalBackend A} {run : ToolRun} {c : κ}
  {request : GatewayToolRequest} {principal : Principal} {metadata : ToolMetadata}
  {s : GatewayState A} {now : Time} {r : Run gatewayInterface κ (GatewayState A)}
  {keys : IdempotencyStore}

theorem Audited.perform (h : Audited request r) (o : GatewayOp) (i : Time × UUID) :
    Audited request (r.perform (G.duringRun B run) c o i) := by
  obtain ⟨d, hd, hrecord⟩ := h
  exact ⟨d, List.mem_cons_of_mem _ hd, hrecord⟩

/-- What `_success` and `_failure` come to: a response and a record, if one can be made. -/
def Reported (G : McpGateway) (request : GatewayToolRequest) (keys : IdempotencyStore)
    (res : Except Exn GatewayToolResponse) (r : Run gatewayInterface κ (GatewayState A)) : Prop :=
  match auditRaises G.runtime request.arguments with
  | none => (∃ response, res = .ok response) ∧ Audited request r ∧ r.state.idempotency = keys
  | some _ => ∃ cls message, res = .error (.other cls message)

theorem reported_of_raises {res : Except Exn GatewayToolResponse} {raised : String × String}
    (h : auditRaises G.runtime request.arguments = some raised)
    (hres : ∃ cls message, res = .error (.other cls message)) : Reported G request keys res r := by
  rw [Reported, h]
  exact hres

theorem reported_of_response {response : GatewayToolResponse}
    (h : auditRaises G.runtime request.arguments = none) (haudited : Audited request r)
    (hkeys : r.state.idempotency = keys) : Reported G request keys (.ok response) r := by
  rw [Reported, h]
  exact ⟨⟨response, rfl⟩, haudited, hkeys⟩

/-- `_success` appends a record. -/
theorem success_keeps {decision : GatewayDecision} {data : PyDict}
    {approvalStatus : Option ApprovalStatus} {executionStatus : String}
    (hr : r.state.idempotency = keys) :
    (G.success request principal metadata decision data approvalStatus executionStatus).Keeps
      (G.duringRun B run) c (fun _ => True) (Reported G request keys) r := by
  refine fun i => ⟨trivial, keeps_raiseOther (fun cls message h => ?_) fun h => ?_⟩
  · exact reported_of_raises h ⟨cls, message, rfl⟩
  · exact fun j => ⟨trivial, reported_of_response h ⟨_, List.mem_cons_self .., _, rfl, rfl⟩ hr⟩

/-- `_failure` appends a record. -/
theorem failure_keeps {metadata : Option ToolMetadata} {exc : GatewayError}
    (hr : r.state.idempotency = keys) :
    (G.failure request principal metadata exc).Keeps (G.duringRun B run) c (fun _ => True)
      (Reported G request keys) r := by
  refine fun i => ⟨trivial, keeps_raiseOther (fun cls message h => ?_) fun h => ?_⟩
  · exact reported_of_raises h ⟨cls, message, rfl⟩
  · exact fun j => ⟨trivial, reported_of_response h ⟨_, List.mem_cons_self .., _, rfl, rfl⟩ hr⟩

/-- Completing the key settles a call that has been audited. -/
theorem settled_complete (haudited : Audited request r)
    (hauth : G.authenticate request.authToken = .ok principal) (response : GatewayToolResponse)
    {status : IdempotencyOperationStatus} (hstatus : status ≠ .running) (completedAt : Time)
    (i : Time × UUID) :
    G.Settled request (.ok response) (r.perform (G.duringRun B run) c
      (.complete principal request.idempotencyKey response status completedAt) i) := by
  refine ⟨⟨response, rfl⟩, haudited.perform _ i, fun principal' hauth' => ?_⟩
  rw [hauth] at hauth'
  cases hauth'
  exact IdempotencyStore.isRunning_complete hstatus

/-- `_approval_for_request` goes on exactly when the named record is approved and matches. -/
theorem approvalForRequest_ends (hkeys : r.state.idempotency = keys)
    (happrovals : r.state.approvals = s.approvals) :
    (G.approvalForRequest request metadata (stripUntrustedModelFields request.arguments) now).Keeps
      (G.duringRun B run) c (fun _ => True)
      (fun res r => r.state.idempotency = keys ∧
        match res with
        | .ok none => metadata.requiresApproval → request.approvalId = none
        | .ok (some _) => G.ApprovedFor B request metadata s ∧ G.HashSound B request metadata s now
        | .error (.gateway _) => metadata.requiresApproval ∧
            ¬ G.ApprovedFor B request metadata s ∧ G.HashSound B request metadata s now
        | .error (.other _ _) => ¬ G.HashSound B request metadata s now) r := by
  unfold approvalForRequest
  split
  · rename_i hnot
    exact ⟨hkeys, fun h => by rw [hnot] at h; cases h⟩
  · exact ⟨hkeys, fun _ => ‹_›⟩
  · rename_i id hgoverned hid
    -- an approved record can be got, and it is the one that was got
    have happroved : G.ApprovedFor B request metadata s → ∃ rec,
        (B.ledger s.approvals).get id now = (.ok rec, B.ledger s.approvals) ∧
        rec.status = .approved ∧
        G.checkBinding request metadata (stripUntrustedModelFields request.arguments) rec =
          .ok () := by
      rintro ⟨id', rec, hid', hrec, hstatus, hbinding⟩
      rw [hid] at hid'
      cases hid'
      exact ⟨rec, Ledger.get_of_approved hrec hstatus, hstatus, hbinding⟩
    refine keeps_perform.mpr fun i => ⟨trivial, ?_⟩
    have hget : ((B.answer (.get id now) i.2 r.state.approvals).1,
        B.ledger (B.answer (.get id now) i.2 r.state.approvals).2) =
          (B.ledger s.approvals).get id now := by
      rw [← happrovals]
      exact B.refines (.get id now) i.2 r.state.approvals
    refine keeps_liftGateway (fun e herror => ⟨hkeys, hgoverned, fun h => ?_, fun _ h => ?_⟩)
      fun approval hgot => ?_
    · obtain ⟨rec, hrec, -⟩ := happroved h
      rw [hrec] at hget
      have hok : (B.answer (.get id now) i.2 r.state.approvals).1 = .ok rec :=
        congrArg Prod.fst hget
      cases herror.symm.trans hok
    · -- a record that cannot be got is not compared
      obtain ⟨approval, hok⟩ := h id hid
      rw [← congrArg Prod.fst hget] at hok
      cases herror.symm.trans hok
    · obtain ⟨hrec, hsame, -, -⟩ := Ledger.get_ok (hget.symm.trans (Prod.ext hgot rfl))
      have honly : ∀ rec, (B.ledger s.approvals).get id now = (.ok rec, B.ledger s.approvals) →
          rec = approval := by
        intro rec hrec'
        rw [hrec'] at hget
        exact Except.ok.inj ((congrArg Prod.fst hget).symm.trans hgot)
      have hfound : ∀ id', request.approvalId = some id' →
          ∃ approval, ((B.ledger s.approvals).get id' now).1 = .ok approval := by
        intro id' hid'
        obtain rfl : id = id' := Option.some.inj (hid.symm.trans hid')
        exact ⟨approval, (congrArg Prod.fst hget).symm.trans hgot⟩
      refine keeps_raiseOther (fun cls message hraises => ⟨hkeys, fun h => ?_⟩) fun hquiet => ?_
      · rw [h hgoverned hfound] at hraises
        cases hraises
      have hhash : G.HashSound B request metadata s now := fun _ _ => hquiet
      refine keeps_liftGateway (fun e herror => ⟨hkeys, hgoverned, fun h => ?_, hhash⟩)
        fun _ hbinding => ?_
      · obtain ⟨rec, hrec', -, hbinding⟩ := happroved h
        rw [honly rec hrec', herror] at hbinding
        cases hbinding
      · refine keeps_perform.mpr fun j => ⟨trivial, ?_⟩
        have hstored : (B.ledger (B.answer (.get id now) i.2 r.state.approvals).2).record
            approval.approvalId = some approval := by
          rw [hsame, (B.ledger s.approvals).keyed id approval hrec, hrec]
        have hstatus : B.status approval (B.answer (.get id now) i.2 r.state.approvals).2 =
            approval.status := B.status_stored approval _ hstored
        split
        · rename_i hpassed
          refine ⟨hkeys, ⟨id, approval, hid, hrec, ?_, hbinding⟩, hhash⟩
          exact hstatus.symm.trans hpassed
        · rename_i hpassed
          refine keeps_perform.mpr fun k => ⟨trivial, hkeys, hgoverned, fun h => ?_, hhash⟩
          obtain ⟨rec, hrec', hrecStatus, -⟩ := happroved h
          rw [honly rec hrec'] at hrecStatus
          exact hpassed (hstatus.trans hrecStatus)

theorem requestApproval_ends {arguments : PyDict} (hr : r.state.idempotency = keys) :
    (G.requestApproval request principal metadata arguments now).Keeps (G.duringRun B run) c
      (fun _ => True)
      (fun res r => match hashArgumentsRaises G.runtime arguments with
        | none => Reported G request keys res r
        | some _ => ∃ cls message, res = .error (.other cls message)) r := by
  refine keeps_raiseOther (fun cls message h => ?_) fun h => ?_
  · rw [h]
    exact ⟨cls, message, rfl⟩
  · rw [h]
    exact fun _ => ⟨trivial, fun _ => ⟨trivial, fun _ => ⟨trivial, success_keeps hr⟩⟩⟩

theorem runTool_ends {arguments : PyDict} :
    (G.runTool request principal metadata arguments).Keeps (G.duringRun B run) c (fun _ => True)
      (fun res _ => res = G.toolOutcome metadata run) r := by
  refine fun _ => ⟨trivial, fun _ => ⟨trivial, fun _ => ⟨trivial, ?_⟩⟩⟩
  refine keeps_liftExn (fun e herror => ?_) fun result hresult => ?_
  · have herror : G.executeWithDeadline metadata run = .error e := herror
    rw [toolOutcome, herror]
  · have hresult : G.executeWithDeadline metadata run = .ok result := hresult
    simp only [toolOutcome, hresult]
    by_cases hreported : result.isError
    · simp [hreported]
    · simp [hreported]

/-- `execute_tool` raises something else than a gateway error exactly when the tool does. -/
theorem executeTool_ends {arguments : PyDict} {approval : Option ApprovalRecord} :
    (G.executeTool request principal metadata arguments approval).Keeps (G.duringRun B run) c
      (fun _ => True)
      (fun res _ =>
        match res with
        | .error (.other _ _) => Escapes (G.toolOutcome metadata run)
        | _ => ¬ Escapes (G.toolOutcome metadata run)) r := by
  refine Procedure.keeps_tryCatch.mpr (runTool_ends.imp trivial fun res r _ hres => ?_)
  rw [← hres]
  cases res with
  | ok result => rintro ⟨cls, message, h⟩; cases h
  | error exn =>
      cases exn with
      | other cls message => exact ⟨cls, message, rfl⟩
      | gateway exc =>
          have hcaught : ¬ Escapes (Except.error (.gateway exc) : Except Exn DispatchResult) := by
            rintro ⟨cls, message, h⟩
            cases h
          cases approval with
          | none => exact hcaught
          | some approval =>
              refine fun _ => ⟨trivial, fun _ => ⟨trivial, ?_⟩⟩
              exact keeps_liftGateway (fun _ _ => hcaught) fun _ _ => hcaught

/-- Recording the execution raises gateway errors only. -/
theorem recordExecution_ends {result : DispatchResult} {approval : Option ApprovalRecord} :
    (recordExecution principal result approval).Keeps (G.duringRun B run) c (fun _ => True)
      (fun res _ => ∀ exn, res = .error exn → ∃ exc, exn = .gateway exc) r := by
  cases approval with
  | none => exact fun exn h => by cases h
  | some approval =>
      refine fun i => ⟨trivial, fun j => ⟨trivial, ?_⟩⟩
      refine keeps_liftGateway (fun exc _ exn h => ?_) fun _ _ exn h => ?_
      · cases h
        exact ⟨exc, rfl⟩
      · cases h

/-- What the part of `call_tool` after the reservation leaves: it is settled or raises, and what is
raised is a gateway error if the arguments and the run of the tool are sound. -/
def ReservedEnds (G : McpGateway) (B : ApprovalBackend A) (request : GatewayToolRequest)
    (metadata : ToolMetadata) (s : GatewayState A) (now : Time) (run : ToolRun) :
    Except Exn GatewayToolResponse → Run gatewayInterface κ (GatewayState A) → Prop
  | .ok response, r => G.Settled request (.ok response) r ∧
      auditRaises G.runtime request.arguments = none ∧ G.ReservedSound B request metadata s now run
  | .error (.gateway _), _ => G.ReservedSound B request metadata s now run
  | .error (.other _ _), _ => ¬ (auditRaises G.runtime request.arguments = none ∧
      G.ReservedSound B request metadata s now run)

/-- A call that waits for an approval is reported. -/
theorem waiting_ends (hauth : G.authenticate request.authToken = .ok principal)
    (hkeys : keys.isRunning principal request.idempotencyKey = false)
    (hgoverned : metadata.requiresApproval) (hnamed : request.approvalId = none)
    (hr : r.state.idempotency = keys) :
    (G.requestApproval request principal metadata (stripUntrustedModelFields request.arguments)
      now).Keeps (G.duringRun B run) c (fun _ => True)
      (ReservedEnds G B request metadata s now run) r := by
  have hnone : ∀ id, request.approvalId = some id →
      ∃ approval, ((B.ledger s.approvals).get id now).1 = .ok approval := by
    intro id hid
    rw [hnamed] at hid
    cases hid
  refine (requestApproval_ends hr).imp trivial fun res r _ hres => ?_
  split at hres
  · -- the hash can be made, so the approval is asked for and reported
    rename_i hhash
    unfold Reported at hres
    split at hres
    · rename_i haudit
      obtain ⟨⟨response, rfl⟩, haudited, hsame⟩ := hres
      refine ⟨⟨⟨response, rfl⟩, haudited, fun principal' hauth' => ?_⟩, haudit, fun _ _ => hhash,
        fun happroved => ?_⟩
      · obtain rfl : principal = principal' := Except.ok.inj (hauth.symm.trans hauth')
        rw [hsame, hkeys]
      · obtain ⟨id, rec, hid, -⟩ := happroved hgoverned
        rw [hnamed] at hid
        cases hid
    · rename_i haudit
      obtain ⟨cls, message, rfl⟩ := hres
      intro h
      rw [h.1] at haudit
      cases haudit
  · -- the hash cannot be made, and the call raises
    rename_i hhash
    obtain ⟨cls, message, rfl⟩ := hres
    intro h
    rw [h.2.1 hgoverned hnone] at hhash
    cases hhash

/-- A call whose tool was run is reported and its key completed. -/
theorem succeeding_ends (hauth : G.authenticate request.authToken = .ok principal)
    (hsound : G.ReservedSound B request metadata s now run) {result : DispatchResult}
    {status : Option ApprovalStatus} :
    ((do
      let response ← G.success request principal metadata .allowed
        [("tool_result", .dict result.structuredContent)] status "SUCCEEDED"
      let completedAt ← clock
      perform (.complete principal request.idempotencyKey response .succeeded completedAt)
      pure response) : GatewayM Exn GatewayToolResponse).Keeps (G.duringRun B run) c
      (fun _ => True) (ReservedEnds G B request metadata s now run) r := by
  refine Procedure.keeps_bind.mpr ((success_keeps rfl).imp trivial fun res r _ hres => ?_)
  unfold Reported at hres
  split at hres
  · rename_i haudit
    obtain ⟨⟨response, rfl⟩, haudited, -⟩ := hres
    refine fun i => ⟨trivial, fun j => ⟨trivial, ?_, haudit, hsound⟩⟩
    exact settled_complete (haudited.perform _ _) hauth response (by decide) _ _
  · rename_i haudit
    obtain ⟨cls, message, rfl⟩ := hres
    intro h
    rw [h.1] at haudit
    cases haudit

theorem callReserved_ends (hauth : G.authenticate request.authToken = .ok principal)
    (hkeys : r.state.idempotency.isRunning principal request.idempotencyKey = false)
    (happrovals : r.state.approvals = s.approvals) :
    (G.callReserved request principal metadata (stripUntrustedModelFields request.arguments)
      now).Keeps (G.duringRun B run) c (fun _ => True)
      (ReservedEnds G B request metadata s now run) r := by
  refine Procedure.keeps_bind.mpr ((approvalForRequest_ends rfl happrovals).imp trivial ?_)
  rintro res r' - ⟨hsame, hres⟩
  cases res with
  | error exn =>
      cases exn with
      | other cls message => exact fun h => hres h.2.1
      | gateway exc =>
          exact ⟨hres.2.2, fun happroved => absurd (happroved hres.1) hres.2.1⟩
  | ok approval =>
      dsimp only [Procedure.andThen]
      split
      · -- the call waits for an approval
        rename_i hwait
        obtain ⟨hgoverned, hnone⟩ := hwait
        have hnamed : request.approvalId = none := by
          cases approval with
          | none => exact hres hgoverned
          | some approval => cases hnone
        exact waiting_ends hauth hkeys hgoverned hnamed hsame
      · rename_i hgo
        -- the tool is run, with an approval if it needs one
        have happroved : metadata.requiresApproval →
            G.ApprovedFor B request metadata s ∧ G.HashSound B request metadata s now := by
          intro hgoverned
          cases approval with
          | none => exact absurd ⟨hgoverned, rfl⟩ hgo
          | some approval => exact hres
        have hhash : G.HashSound B request metadata s now :=
          fun hgoverned hfound => (happroved hgoverned).2 hgoverned hfound
        have hsound : G.ToolSound B request metadata s run ↔
            ¬ Escapes (G.toolOutcome metadata run) :=
          ⟨fun h => h fun hgoverned => (happroved hgoverned).1, fun h _ => h⟩
        refine Procedure.keeps_bind.mpr (executeTool_ends.imp trivial ?_)
        rintro (exn | result) r'' - hrun
        · cases exn with
          | other cls message => exact fun h => hsound.mp h.2.2 hrun
          | gateway exc => exact ⟨hhash, hsound.mpr hrun⟩
        · have hreserved : G.ReservedSound B request metadata s now run :=
            ⟨hhash, hsound.mpr hrun⟩
          refine Procedure.keeps_bind.mpr (recordExecution_ends.imp trivial ?_)
          rintro (exn | _) r'' - hrecorded
          · obtain ⟨exc, rfl⟩ := hrecorded exn rfl
            exact hreserved
          · cases approval with
            | none => exact succeeding_ends hauth hreserved
            | some approval => exact fun k => ⟨trivial, succeeding_ends hauth hreserved⟩

/-! ## The whole call -/

theorem checkRequest_ends {arguments : PyDict} (hr : r.state = s)
    (hquiet : ∀ d ∈ r.past, ∀ record, d.op ≠ .audit record) :
    (G.checkRequest principal metadata arguments now).Keeps (G.duringRun B run) c (fun _ => True)
      (fun res r => res = G.requestChecks principal metadata arguments s now ∧
        r.state.idempotency = s.idempotency ∧ r.state.approvals = s.approvals ∧
        ∀ d ∈ r.past, ∀ record, d.op ≠ .audit record) r := by
  have hsame : r.state.idempotency = s.idempotency ∧ r.state.approvals = s.approvals ∧
      ∀ d ∈ r.past, ∀ record, d.op ≠ .audit record := by
    rw [hr]
    exact ⟨rfl, rfl, hquiet⟩
  rw [requestChecks]
  -- each check ends the body, or leaves the rest to the next one
  refine keeps_liftExn (fun e h => ?_) fun _ henabled => ?_
  · rw [h]
    exact ⟨rfl, hsame⟩
  rw [henabled]
  refine keeps_liftExn (fun e h => ?_) fun _ hexecutable => ?_
  · rw [h]
    exact ⟨rfl, hsame⟩
  rw [hexecutable]
  refine keeps_liftExn (fun e h => ?_) fun _ hauthorized => ?_
  · rw [h]
    exact ⟨rfl, hsame⟩
  rw [hauthorized]
  refine keeps_perform.mpr fun i => ⟨trivial, ?_⟩
  -- the rate limiter is asked, which is no audit event
  have hsame' : ∀ d ∈ (r.perform (G.duringRun B run) c
      (.checkRate principal metadata.toolName metadata.rateLimit now) i).past,
      ∀ record, d.op ≠ .audit record := by
    intro d hd record
    rcases List.mem_cons.mp hd with rfl | hd
    · simp
    · exact hquiet d hd record
  have hrate : ((G.duringRun B run).answer
      (.checkRate principal metadata.toolName metadata.rateLimit now) i r.state).1 =
      (s.rateLimiter.check principal metadata.toolName metadata.rateLimit now).1 := by rw [hr]; rfl
  rw [← hrate]
  refine keeps_liftExn (fun e h => ?_) fun _ hlimited => ?_
  · rw [h]
    exact ⟨rfl, hsame.1, hsame.2.1, hsame'⟩
  rw [hlimited]
  cases hvalid : G.validateDomainArguments arguments principal metadata with
  | error e => exact ⟨by simp [bind, Except.bind], hsame.1, hsame.2.1, hsame'⟩
  | ok _ => exact ⟨by simp [bind, Except.bind], hsame.1, hsame.2.1, hsame'⟩

/-- What the body of `call_tool` leaves to its exception handler: without a handler the call is
settled exactly if it is sound, and what the handler needs is known.  The handler makes the audit
record of a failure, so whether one can be made is left open there. -/
def BodyEnds (G : McpGateway) (B : ApprovalBackend A) (request : GatewayToolRequest)
    (s : GatewayState A) (now : Time) (run : ToolRun) :
    Except CallFailure GatewayToolResponse → Run gatewayInterface κ (GatewayState A) → Prop
  | .ok response, r => G.Settled request (.ok response) r ↔ G.CallSound B request s now run
  | .error f, r =>
      match f.exn with
      | .other _ _ => ¬ G.CallSound B request s now run
      | .gateway _ =>
          match f.principal, f.idempotencyReserved with
          | some principal, true => G.authenticate request.authToken = .ok principal ∧
              G.BodySound B request s now run
          | _, _ => (∀ principal, G.authenticate request.authToken = .ok principal →
                r.state.idempotency.isRunning principal request.idempotencyKey = false) ↔
              G.BodySound B request s now run

theorem not_bodySound_of_other {cls message : String}
    (h : G.checks request s now = .error (.other cls message)) :
    ¬ G.BodySound B request s now run := by
  rw [BodySound, h]
  exact id

theorem bodySound_of_gateway {exc : GatewayError}
    (h : G.checks request s now = .error (.gateway exc)) :
    G.BodySound B request s now run ↔
      ∀ principal, G.authenticate request.authToken = .ok principal →
        s.idempotency.isRunning principal request.idempotencyKey = false := by
  rw [BodySound, h]

/-- A failure before the reservation. -/
theorem bodyEnds_of_checks {f : CallFailure} (hreserved : f.idempotencyReserved = false)
    (hchecks : G.checks request s now = .error f.exn)
    (hkeys : r.state.idempotency = s.idempotency) :
    BodyEnds G B request s now run (.error f) r := by
  obtain ⟨principal, metadata, reserved, exn⟩ := f
  cases hreserved
  cases exn with
  | other cls message => exact fun h => not_bodySound_of_other hchecks h.2
  | gateway exc =>
      have hsound : G.BodySound B request s now run ↔ _ := bodySound_of_gateway hchecks
      rw [← hkeys] at hsound
      cases principal with
      | none => exact hsound.symm
      | some principal => exact hsound.symm

theorem callBody_ends (hr : r.state = s)
    (hquiet : ∀ d ∈ r.past, ∀ record, d.op ≠ .audit record) :
    (G.callBody request now).Keeps (G.duringRun B run) c (fun _ => True)
      (BodyEnds G B request s now run) r := by
  refine Procedure.keeps_mapError_bind ?_ trivial
  cases hauth : G.authenticate request.authToken with
  | error e =>
      have hchecks : G.checks request s now = .error (.gateway e) := by simp [checks, hauth]
      have hends : BodyEnds G B request s now run (.error { exn := .gateway e }) r :=
        bodyEnds_of_checks rfl hchecks (by rw [hr])
      exact ⟨fun _ => nofun, fun _ h => by cases h; exact hends⟩
  | ok principal =>
      refine ⟨fun _ h => ?_, fun _ h => by cases h⟩
      cases h
      refine Procedure.keeps_mapError_bind ?_ trivial
      cases hmetadata : G.metadata request.toolName with
      | error e =>
          have hchecks : G.checks request s now = .error e := by simp [checks, hauth, hmetadata]
          have hends : BodyEnds G B request s now run (.error { principal, exn := e }) r :=
            bodyEnds_of_checks rfl hchecks (by rw [hr])
          exact ⟨fun _ => nofun, fun _ h => by cases h; exact hends⟩
      | ok metadata =>
          refine ⟨fun _ h => ?_, fun _ h => by cases h⟩
          cases h
          refine Procedure.keeps_mapError_bind
            ((checkRequest_ends hr hquiet).imp trivial ?_) trivial
          rintro res r' - ⟨hres, hidempotency, happrovals, hquiet'⟩
          cases res with
          | error e =>
              have hchecks : G.checks request s now = .error e := by
                simp [checks, hauth, hmetadata, ← hres]
              refine ⟨fun _ => nofun, fun _ h => ?_⟩
              cases h
              exact bodyEnds_of_checks rfl hchecks hidempotency
          | ok _ =>
              have hchecks : G.checks request s now = .ok (principal, metadata) := by
                simp [checks, hauth, hmetadata, ← hres]
              have hsound : G.BodySound B request s now run ↔
                  match (s.idempotency.reserve principal request.idempotencyKey now).1 with
                  | .error _ =>
                      (s.idempotency.expire now).isRunning principal request.idempotencyKey = false
                  | .ok (some _) => False
                  | .ok none => G.ReservedSound B request metadata s now run := by
                rw [BodySound, hchecks]
              refine ⟨fun _ _ => ?_, fun _ h => by cases h⟩
              refine Procedure.keeps_mapError_bind
                (keeps_perform.mpr fun i => ⟨trivial, ?_⟩) trivial
              have hanswer : ((G.duringRun B run).answer (.reserve principal request.idempotencyKey
                  now) i r'.state).1 =
                  (s.idempotency.reserve principal request.idempotencyKey now).1 := by
                rw [← hidempotency]
                rfl
              have hafter : (r'.perform (G.duringRun B run) c (.reserve principal
                  request.idempotencyKey now) i).state.idempotency =
                  (s.idempotency.reserve principal request.idempotencyKey now).2 := by
                rw [← hidempotency]
                rfl
              have hquiet'' : ∀ d ∈ (r'.perform (G.duringRun B run) c (.reserve principal
                  request.idempotencyKey now) i).past, ∀ record, d.op ≠ .audit record := by
                intro d hd record
                rcases List.mem_cons.mp hd with rfl | hd
                · simp
                · exact hquiet' d hd record
              rw [hanswer]
              cases hreserve : (s.idempotency.reserve principal request.idempotencyKey now).1 with
              | error exc =>
                  rw [hreserve] at hsound
                  refine ⟨fun _ => nofun, fun _ h => ?_⟩
                  cases h
                  refine Iff.trans ?_ hsound.symm
                  rw [hafter, IdempotencyStore.reserve_snd (by simp [hreserve])]
                  exact ⟨fun h => h principal hauth,
                    fun h principal' hauth' => by cases hauth.symm.trans hauth'; exact h⟩
              | ok replay =>
                  rw [hreserve] at hsound
                  refine ⟨fun _ h => ?_, fun _ h => by cases h⟩
                  cases h
                  cases replay with
                  | some response =>
                      -- a replay has no audit record
                      refine iff_of_false (fun hsettled => ?_) fun h => hsound.mp h.2
                      obtain ⟨-, ⟨d, hd, record, hop, -⟩, -⟩ := hsettled
                      exact hquiet'' d hd record hop
                  | none =>
                      have hkeys : (r'.perform (G.duringRun B run) c (.reserve principal
                          request.idempotencyKey now) i).state.idempotency.isRunning principal
                          request.idempotencyKey = false := by
                        rw [hafter]
                        exact IdempotencyStore.isRunning_of_reserve hreserve
                      refine Procedure.keeps_tryCatch.mpr
                        ((callReserved_ends (s := s) hauth hkeys happrovals).imp trivial ?_)
                      rintro (exn | response) r'' - hres'
                      · cases exn with
                        | other cls message => exact fun h => hres' ⟨h.1, hsound.mp h.2⟩
                        | gateway exc => exact ⟨hauth, hsound.mpr hres'⟩
                      · exact iff_of_true hres'.1 ⟨hres'.2.1, hsound.mpr hres'.2.2⟩

/-- The exception handler settles the sound calls and no others. -/
theorem handleFailure_ends {f : CallFailure}
    (hf : BodyEnds G B request s now run (.error f) r) :
    (G.handleFailure request f).Keeps (G.duringRun B run) c (fun _ => True)
      (fun res r => G.Settled request res r ↔ G.CallSound B request s now run) r := by
  obtain ⟨principal, metadata, reserved, exn⟩ := f
  cases exn with
  | other cls message => exact iff_of_false (fun hsettled => by cases hsettled.1.choose_spec) hf
  | gateway exc =>
      refine Procedure.keeps_bind.mpr ((failure_keeps rfl).imp trivial fun res r' _ hres => ?_)
      unfold Reported at hres
      split at hres
      · rename_i haudit
        obtain ⟨⟨response, rfl⟩, haudited, hkeys⟩ := hres
        have hunreserved : ((∀ principal, G.authenticate request.authToken = .ok principal →
              r.state.idempotency.isRunning principal request.idempotencyKey = false) ↔
            G.BodySound B request s now run) →
            (G.Settled request (.ok response) r' ↔ G.CallSound B request s now run) := by
          intro hf
          rw [CallSound, ← hf, ← hkeys]
          exact ⟨fun h => ⟨haudit, h.2.2⟩, fun h => ⟨⟨response, rfl⟩, haudited, h.2⟩⟩
        cases principal with
        | none => exact hunreserved hf
        | some principal =>
            cases reserved with
            | false => exact hunreserved hf
            | true =>
                -- a reserved key is completed with the failure
                refine fun i => ⟨trivial, fun j => ⟨trivial, iff_of_true ?_ ⟨haudit, hf.2⟩⟩⟩
                exact settled_complete (haudited.perform _ _) hf.1 response (by decide) _ _
      · -- the record of the failure cannot be made
        rename_i haudit
        obtain ⟨cls, message, rfl⟩ := hres
        refine iff_of_false (fun hsettled => by cases hsettled.1.choose_spec) fun h => ?_
        rw [h.1] at haudit
        cases haudit

end Parts

/-! ### A tool that raises -/

/-- A call of a tool whose handler raises an exception of its own. -/
abbrev raisingCall :
    Except Exn GatewayToolResponse × Run gatewayInterface Unit (GatewayState ApprovalStore) :=
  (small.callTool (deviceStatusRequest "dev-1")).run
    (small.duringRun ApprovalStore.backend
      { result := .error (.other "RuntimeError" "simulator unavailable") })
    () (fun _ => (seconds 5, 1)) (.start .inMemory)

end McpGateway

end McpOps
