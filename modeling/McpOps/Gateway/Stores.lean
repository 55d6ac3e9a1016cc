import McpOps.Gateway.Models
import McpOps.Lib.Dict
import McpOps.Python.Numbers

/-!
# The in-memory stores of the gateway

Authentication and authorization, the rate limiter, the idempotency store and the approval store.
Every method runs under the lock of its store, so it is a function from the state of the store to
its answer and the state it leaves.

Two loops of the source are written otherwise.  Eviction has fuel, one round for each entry, since
every round removes one; and expiring all records is a fold over those that were there at first.

A record that the store in memory hands out is the very object that it keeps, and shows what later
calls make of it.  `liveStatus` stands for reading the status of such a record later on.
-/

namespace McpOps

/-! ## Authentication and authorization -/

/-- The principals behind the tokens. -/
abbrev TokenAuthenticator := List (String × Principal)

/-- `TokenAuthenticator.authenticate(token)`. -/
def TokenAuthenticator.authenticate (principals : TokenAuthenticator) (token : String) :
    Except GatewayError Principal :=
  match principals.lookup token with
  | some principal => .ok principal
  | none => .error ⟨.authenticationFailed, "Authentication token is invalid."⟩

/-- The principals a `TokenAuthenticator` starts with. -/
def TokenAuthenticator.default : TokenAuthenticator :=
  [("viewer-token", ⟨"viewer-1", .viewer, .human⟩),
    ("engineer-token", ⟨"engineer-1", .engineer, .human⟩),
    ("operator-token", ⟨"operator-1", .operator, .human⟩),
    ("admin-token", ⟨"admin-1", .admin, .human⟩),
    ("admin2-token", ⟨"admin-2", .admin, .human⟩),
    ("ai-token", ⟨"ai-agent-1", .engineer, .aiAgent⟩),
    ("ai-admin-token", ⟨"ai-admin-1", .admin, .aiAgent⟩)]

namespace GatewayAuthorizer

/-- `authorize(principal, required_permission)`. -/
def authorize (principal : Principal) (requiredPermission : String) : Except Exn Unit :=
  match Permission.ofValue? requiredPermission with
  | none =>
      .error (.other "ValueError" s!"'{requiredPermission}' is not a valid Permission")
  | some permission =>
      if hasPermission principal.role permission then .ok ()
      else .error (.gateway ⟨.permissionDenied,
        s!"Role {principal.role.value} lacks permission {requiredPermission}."⟩)

/-- `authorize_approval(principal, approval)`. -/
def authorizeApproval (principal : Principal) (approval : ApprovalRecord) : Except Exn Unit := do
  authorize principal Permission.approvalsApprove.value
  if principal.principalType = .aiAgent then
    .error (.gateway ⟨.permissionDenied, "AI principals cannot approve operations."⟩)
  else if principal.principalId = approval.requesterId then
    .error (.gateway ⟨.permissionDenied, "Requesters cannot approve their own operation."⟩)
  else .ok ()

/-- Whoever passes `authorize_approval` may approve, is no AI and did not ask for it. -/
theorem of_authorizeApproval {principal : Principal} {approval : ApprovalRecord}
    (h : authorizeApproval principal approval = .ok ()) :
    hasPermission principal.role .approvalsApprove ∧ principal.principalType ≠ .aiAgent ∧
      principal.principalId ≠ approval.requesterId := by
  simp only [authorizeApproval, authorize, Permission.ofValue?_value] at h
  by_cases hperm : hasPermission principal.role .approvalsApprove
  · by_cases hai : principal.principalType = .aiAgent
    · simp [hperm, hai, bind, Except.bind] at h
    · by_cases hself : principal.principalId = approval.requesterId
      · simp [hperm, hai, hself, bind, Except.bind] at h
      · exact ⟨hperm, hai, hself⟩
  · simp [hperm, bind, Except.bind] at h

end GatewayAuthorizer

/-! ## The rate limiter -/

/-- `_parse_rate_limit(rate_limit)`. -/
def parseRateLimit (rateLimit : String) : Except Exn (ℤ × Time) :=
  match rateLimit.toList.span (· ≠ '/') with
  | (_, []) => .error (.other "ValueError" "not enough values to unpack (expected 2, got 1)")
  | (count, _ :: window) =>
      match intOfText count with
      | none => .error (.other "ValueError" "invalid literal for int() with base 10")
      | some n =>
          if String.ofList window = "minute" then .ok (n, seconds 60)
          else if String.ofList window = "second" then .ok (n, seconds 1)
          else .error (.other "ValueError" s!"Unsupported rate limit window: {rateLimit}")

/-- The calls counted for each principal and tool, oldest first. -/
structure FixedWindowRateLimiter where
  calls : Dict (String × String) (List Time) := Dict.empty

/-- `check(principal, tool_name, rate_limit, now)`. -/
def FixedWindowRateLimiter.check (principal : Principal) (toolName rateLimit : String)
    (now : Time) (s : FixedWindowRateLimiter) : Except Exn Unit × FixedWindowRateLimiter :=
  match parseRateLimit rateLimit with
  | .error e => (.error e, s)
  | .ok (allowed, window) =>
      let key := (principal.principalId, toolName)
      let calls := ((s.calls.get? key).getD []).dropWhile fun t => window ≤ now - t
      if allowed ≤ calls.length then
        (.error (.gateway ⟨.rateLimitExceeded, s!"Rate limit exceeded for {toolName}."⟩),
          ⟨s.calls.set key calls⟩)
      else (.ok (), ⟨s.calls.set key (calls ++ [now])⟩)

/-! ## The idempotency store -/

inductive IdempotencyOperationStatus where
  | reserved
  | running
  | succeeded
  | transientFailed
  | permanentFailed
  deriving DecidableEq, Repr

/-- `_TERMINAL_IDEMPOTENCY_STATES`. -/
def IdempotencyOperationStatus.terminal : IdempotencyOperationStatus → Bool
  | .reserved => false
  | .running => false
  | _ => true

structure IdempotencyRecord where
  createdAt : Time
  status : IdempotencyOperationStatus := .reserved
  response : Option GatewayToolResponse := none

/-- A principal together with one of its idempotency keys. -/
abbrev IdempotencyKey := String × String

structure IdempotencyStore where
  ttlSeconds : ℤ := 3600
  maxEntries : ℕ := 10000
  keys : Dict IdempotencyKey IdempotencyRecord := Dict.empty

namespace IdempotencyStore

/-- `_expire(now)`: drop what was created `ttl_seconds` ago or earlier. -/
def expire (now : Time) (s : IdempotencyStore) : IdempotencyStore :=
  { s with keys := s.keys.filter fun _ r => ¬ r.createdAt ≤ now - seconds s.ttlSeconds }

/-- The first key of the smallest `created_at`. -/
def oldestKey : List (IdempotencyKey × IdempotencyRecord) → Option IdempotencyKey
  | [] => none
  | e :: rest => some (rest.foldl (fun m e => if e.2.createdAt < m.2.createdAt then e else m) e).1

/-- The entries after evicting the oldest one until at most `maxEntries` are left, in at
most `fuel` rounds. -/
def evict (maxEntries : ℕ) : ℕ → Dict IdempotencyKey IdempotencyRecord →
    Dict IdempotencyKey IdempotencyRecord
  | 0, keys => keys
  | fuel + 1, keys =>
      if maxEntries < keys.size then
        match oldestKey keys.entries with
        | some key => evict maxEntries fuel (keys.erase key)
        | none => keys
      else keys

/-- `_evict_oldest_if_needed()`: every round removes an entry, so as many rounds as there
are entries suffice. -/
def evictOldestIfNeeded (s : IdempotencyStore) : IdempotencyStore :=
  { s with keys := evict s.maxEntries s.keys.size s.keys }

/-- The store with a new reservation, before the eviction that follows it. -/
def insertReservation (principal : Principal) (idempotencyKey : String) (now : Time)
    (s : IdempotencyStore) : IdempotencyStore :=
  let record := { createdAt := now }
  { s with keys := s.keys.set (principal.principalId, idempotencyKey) record }

/-- `reserve(principal, idempotency_key, now)`. -/
def reserve (principal : Principal) (idempotencyKey : String) (now : Time)
    (s : IdempotencyStore) :
    Except GatewayError (Option GatewayToolResponse) × IdempotencyStore :=
  let s := s.expire now
  let duplicate := ⟨.duplicateOperation, "Duplicate operation idempotency key."⟩
  match s.keys.get? (principal.principalId, idempotencyKey) with
  | some existing =>
      match existing.status.terminal, existing.response with
      | true, some response => (.ok (some response), s)
      | _, _ => (.error duplicate, s)
  | none => (.ok none, (s.insertReservation principal idempotencyKey now).evictOldestIfNeeded)

/-- `mark_running(principal, idempotency_key)`. -/
def markRunning (principal : Principal) (idempotencyKey : String) (s : IdempotencyStore) :
    IdempotencyStore :=
  match s.keys.get? (principal.principalId, idempotencyKey) with
  | some record =>
      let record := { record with status := .running }
      { s with keys := s.keys.set (principal.principalId, idempotencyKey) record }
  | none => s

/-- `complete(principal, idempotency_key, response, status, now)`. -/
def complete (principal : Principal) (idempotencyKey : String) (response : GatewayToolResponse)
    (status : IdempotencyOperationStatus) (now : Time) (s : IdempotencyStore) :
    IdempotencyStore :=
  let existing := s.keys.get? (principal.principalId, idempotencyKey)
  let record :=
    { createdAt := existing.elim now (·.createdAt), status, response := some response }
  { s with keys := s.keys.set (principal.principalId, idempotencyKey) record }

end IdempotencyStore

/-! ## The approval store -/

/-- The principal that expires approvals. -/
def systemPrincipal : Principal := ⟨"system", .admin, .service⟩

/-- The audit record of a transition of `approval`. -/
def transitionAudit (approval : ApprovalRecord) (eventType : String) (actor : Principal)
    (now : Time) (executionStatus summary : String) : AuditRecord where
  timestamp := now
  actorId := actor.principalId
  actorRole := actor.role
  toolName := eventType
  correlationId := approval.approvalId
  decision := .allowed
  authorizationResult := "ALLOW"
  riskLevel := some approval.riskLevel
  approvalStatus := some approval.status
  executionStatus := executionStatus
  resultSummary := summary

/-- The event of a transition of `approval`. -/
def transitionEvent (approval : ApprovalRecord) (eventType : String) (actor : Principal)
    (now : Time) : ApprovalEvent where
  approvalId := approval.approvalId
  eventType := eventType
  timestamp := now
  actorId := actor.principalId
  status := approval.status
  toolName := approval.toolName

/-- The record a request for approval starts from. -/
structure ApprovalRequest where
  principal : Principal
  toolName : String
  arguments : PyDict
  riskLevel : RiskLevel
  workflowId : Option UUID
  workflowNodeId : Option String
  argumentsHash : Option String
  approvalBindingHash : Option String

/-- The `ApprovalRecord` that `create` builds. -/
def ApprovalRequest.record (q : ApprovalRequest) (approvalId : UUID) (now ttl : Time) :
    ApprovalRecord where
  approvalId := approvalId
  requesterId := q.principal.principalId
  requesterType := q.principal.principalType
  toolName := q.toolName
  arguments := q.arguments
  riskLevel := q.riskLevel
  createdAt := now
  expiresAt := now + ttl
  workflowId := q.workflowId
  workflowNodeId := q.workflowNodeId
  argumentsHash := q.argumentsHash
  approvalBindingHash := q.approvalBindingHash

def approvalNotFound (approvalId : UUID) : GatewayError :=
  ⟨.approvalNotFound, s!"Approval {approvalId.str} was not found."⟩

def approvalExpired : GatewayError := ⟨.expiredApproval, "Approval has expired."⟩

def notPending (status : ApprovalStatus) : GatewayError :=
  ⟨.approvalDenied, s!"Approval is not pending; current status is {status.value}."⟩

def notApproved (status : ApprovalStatus) : GatewayError :=
  ⟨.approvalDenied,
    s!"Approval must be APPROVED before execution; current status is {status.value}."⟩

def cannotFail (status : ApprovalStatus) : GatewayError :=
  ⟨.approvalDenied, s!"Approval cannot fail from current status {status.value}."⟩

/-- The approvals under their ids, with the events and the attached audit log. -/
structure ApprovalStore where
  ttlSeconds : ℤ := 3600
  approvals : Dict UUID ApprovalRecord := Dict.empty
  keyed : ∀ id r, approvals.get? id = some r → r.approvalId = id := by simp
  events : List ApprovalEvent := []
  auditLog : List AuditRecord := []

namespace ApprovalStore

/-- Store `r` under its own id. -/
def put (r : ApprovalRecord) (s : ApprovalStore) : ApprovalStore :=
  { s with
    approvals := s.approvals.set r.approvalId r
    keyed := by
      intro id r' h
      rw [Dict.get?_set] at h
      split at h
      · cases h
        exact Eq.symm ‹_›
      · exact s.keyed id r' h }

/-- `_record_transition(approval, ...)`. -/
def recordTransition (approval : ApprovalRecord) (eventType : String) (actor : Principal)
    (now : Time) (executionStatus summary : String) (s : ApprovalStore) : ApprovalStore :=
  { s with
    events := s.events ++ [transitionEvent approval eventType actor now]
    auditLog :=
      s.auditLog ++ [transitionAudit approval eventType actor now executionStatus summary] }

/-- `create(principal, ...)`, with the id its factory makes. -/
def create (q : ApprovalRequest) (now : Time) (fresh : UUID) (s : ApprovalStore) :
    ApprovalRecord × ApprovalStore :=
  let approval := q.record fresh now (seconds s.ttlSeconds)
  (approval, (s.put approval).recordTransition approval "approval.requested" q.principal now
    "PENDING_APPROVAL" "Approval request created.")

/-- `_expire_if_needed(approval, now)`: the record as it is afterwards. -/
def expireIfNeeded (approval : ApprovalRecord) (now : Time) (s : ApprovalStore) :
    ApprovalRecord × ApprovalStore :=
  if approval.status = .pending ∧ approval.expiresAt ≤ now then
    let expired := { approval with status := .expired, version := approval.version + 1 }
    (expired, (s.put expired).recordTransition expired "approval.expired" systemPrincipal now
      "EXPIRED" "Approval expired.")
  else (approval, s)

/-- `expire_pending(now)`. -/
def expirePending (now : Time) (s : ApprovalStore) : ApprovalStore :=
  s.approvals.values.foldl (fun s approval => (expireIfNeeded approval now s).2) s

/-- `list_approvals(now, status)`: those of the status asked for, sorted by `created_at`. -/
def listApprovals (now : Time) (s : ApprovalStore) (status : Option ApprovalStatus := none) :
    List ApprovalRecord × ApprovalStore :=
  let s := s.expirePending now
  let approvals := s.approvals.values.filter fun a => status.all (a.status = ·)
  (approvals.mergeSort fun a b => a.createdAt ≤ b.createdAt, s)

/-- `detail(approval_id, now)`. -/
def detail (approvalId : UUID) (now : Time) (s : ApprovalStore) :
    Except GatewayError ApprovalRecord × ApprovalStore :=
  match s.approvals.get? approvalId with
  | none => (.error (approvalNotFound approvalId), s)
  | some approval =>
      let (approval, s) := s.expireIfNeeded approval now
      (.ok approval, s)

/-- `get(approval_id, now)`. -/
def get (approvalId : UUID) (now : Time) (s : ApprovalStore) :
    Except GatewayError ApprovalRecord × ApprovalStore :=
  match s.detail approvalId now with
  | (.error e, s) => (.error e, s)
  | (.ok approval, s) =>
      if approval.status = .expired then (.error approvalExpired, s) else (.ok approval, s)

/-- `approve(approval_id, approver, now)`. -/
def approve (approvalId : UUID) (approver : Principal) (now : Time) (s : ApprovalStore) :
    Except GatewayError ApprovalRecord × ApprovalStore :=
  match s.get approvalId now with
  | (.error e, s) => (.error e, s)
  | (.ok approval, s) =>
      if approval.status = .pending then
        let approved := { approval with
          status := .approved
          approvedBy := some approver.principalId
          approvedAt := some now
          version := approval.version + 1 }
        (.ok approved, (s.put approved).recordTransition approved "approval.approved" approver
          now "APPROVED" "Approval granted.")
      else (.error (notPending approval.status), s)

/-- `reject(approval_id, rejector, reason, now)`. -/
def reject (approvalId : UUID) (rejector : Principal) (reason : String) (now : Time)
    (s : ApprovalStore) : Except GatewayError ApprovalRecord × ApprovalStore :=
  match s.get approvalId now with
  | (.error e, s) => (.error e, s)
  | (.ok approval, s) =>
      if approval.status = .pending then
        let rejected := { approval with
          status := .rejected
          rejectedBy := some rejector.principalId
          rejectedAt := some now
          failureReason := some reason
          version := approval.version + 1 }
        (.ok rejected, (s.put rejected).recordTransition rejected "approval.rejected" rejector
          now "REJECTED" reason)
      else (.error (notPending approval.status), s)

/-- `mark_executed(approval, actor, now, result)`. -/
def markExecuted (approval : ApprovalRecord) (actor : Principal) (now : Time) (result : PyDict)
    (s : ApprovalStore) : Except GatewayError ApprovalRecord × ApprovalStore :=
  match s.get approval.approvalId now with
  | (.error e, s) => (.error e, s)
  | (.ok current, s) =>
      if current.status = .approved then
        let executed := { current with
          status := .executed
          executedAt := some now
          executionResult := some result
          version := current.version + 1 }
        (.ok executed, (s.put executed).recordTransition executed "approval.executed" actor
          now "EXECUTED" "Approved operation executed.")
      else (.error (notApproved current.status), s)

/-- `mark_failed(approval, actor, now, reason)`. -/
def markFailed (approval : ApprovalRecord) (actor : Principal) (now : Time) (reason : String)
    (s : ApprovalStore) : Except GatewayError ApprovalRecord × ApprovalStore :=
  match s.approvals.get? approval.approvalId with
  | none => (.error (approvalNotFound approval.approvalId), s)
  | some current =>
      if current.status = .approved ∨ current.status = .pending then
        let failed := { current with
          status := .failed
          failureReason := some reason
          version := current.version + 1 }
        (.ok failed, (s.put failed).recordTransition failed "approval.failed" actor now
          "FAILED" reason)
      else (.error (cannotFail current.status), s)

/-- `approval.status`: a record handed out earlier is the one in the store, so its status is
the present one. -/
def liveStatus (approval : ApprovalRecord) (s : ApprovalStore) : ApprovalStatus :=
  (s.approvals.get? approval.approvalId).elim approval.status (·.status)

/-- `audit_log.append(record)` on the attached log. -/
def appendAudit (record : AuditRecord) (s : ApprovalStore) : ApprovalStore :=
  { s with auditLog := s.auditLog ++ [record] }

end ApprovalStore

end McpOps
