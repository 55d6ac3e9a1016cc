import McpOps.Gateway.Ledger

/-!
# The gateway

`McpGateway` and its public operations as procedures over the atomic operations of its stores, its
clock, its audit log and the tools.  Between two operations everything is pure.  What a step of a
gateway leaves to its surroundings comes in as `Env`: the clock reading, the id a factory makes,
and how a run of a tool turns out.

The functions have the names of the source.  `call_tool` is cut where its phases end: the checks
up to the reservation (`checkRequest`), what follows a successful reservation (`callReserved`),
the body (`callBody`), and the exception handler, which sees the local variables of the body in a
`CallFailure`.

* What the library raises while a hash or a text is made, for a value that is nested too deeply or
  a number with too many digits, is raised here as well (`raiseOther`).
* A tool runs in a thread or in a child process.  Either way the gateway sees a result, an
  exception, a missed deadline or a worker that left nothing (`ToolRun`, `executeWithDeadline`).

The approval store is arbitrary, behind its ledger.  Metrics, spans and log lines are left out.
-/

namespace McpOps

open Proc

/-! ## Configuration -/

/-- A `CallToolResult` of a dispatcher. -/
structure ToolResult where
  isError : Bool
  structuredContent : Value

/-- A result whose content is an object. -/
structure DispatchResult where
  isError : Bool
  structuredContent : PyDict

inductive ExecutionIsolation where
  | inline
  | thread
  | process
  deriving DecidableEq, Repr

/-- A gateway as it is configured.  The dispatchers' check of the arguments, the
authenticator and the library are parameters. -/
structure McpGateway where
  registry : ToolRegistry
  authenticate : String → Except GatewayError Principal
  disabledTools : List String
  executionIsolation : ExecutionIsolation
  /-- `validate_tool(tool_name, arguments)` of the dispatcher for a domain -/
  validateTool : (domain toolName : String) → PyDict → Except Exn ToolResult
  runtime : Runtime

/-- How one run of a tool turns out: what the dispatcher returns or raises, whether that
takes longer than the deadline, and whether a worker process ends without a result. -/
structure ToolRun where
  result : Except Exn ToolResult
  late : Bool := false
  lost : Bool := false

/-- The tool itself raises `TimeoutError`, which `future.result` raises for a missed deadline
as well. -/
def ToolRun.timesOut (run : ToolRun) : Bool :=
  match run.result with
  | .error (.other cls _) => cls = "TimeoutError"
  | _ => false

/-! ## Operations -/

/-- The atomic steps of the gateway. -/
inductive GatewayOp where
  /-- `self.clock()` -/
  | clock
  /-- `rate_limiter.check(principal, tool_name, rate_limit, now)` -/
  | checkRate (principal : Principal) (toolName rateLimit : String) (now : Time)
  /-- `idempotency.reserve(principal, idempotency_key, now)` -/
  | reserve (principal : Principal) (idempotencyKey : String) (now : Time)
  /-- `idempotency.mark_running(principal, idempotency_key, now)` -/
  | markRunning (principal : Principal) (idempotencyKey : String) (now : Time)
  /-- `idempotency.complete(principal, idempotency_key, response, status, now)` -/
  | complete (principal : Principal) (idempotencyKey : String) (response : GatewayToolResponse)
      (status : IdempotencyOperationStatus) (now : Time)
  /-- a method of the approval store -/
  | approvals (o : ApprovalOp)
  /-- `approval.status`, read to decide whether a request may go on -/
  | checkStatus (approval : ApprovalRecord)
  /-- `approval.status`, read to report it -/
  | readStatus (approval : ApprovalRecord)
  /-- `audit_log.append(record)` -/
  | audit (record : AuditRecord)
  /-- `_execute_with_deadline(metadata, arguments)` -/
  | dispatch (metadata : ToolMetadata) (arguments : PyDict)

/-- What an operation answers. -/
@[reducible] def GatewayOp.Ans : GatewayOp → Type
  | .clock => Time
  | .checkRate .. => Except Exn Unit
  | .reserve .. => Except GatewayError (Option GatewayToolResponse)
  | .markRunning .. => Unit
  | .complete .. => Unit
  | .approvals o => o.Ans
  | .checkStatus _ => ApprovalStatus
  | .readStatus _ => ApprovalStatus
  | .audit _ => Unit
  | .dispatch .. => Except Exn DispatchResult

/-- The interface between the gateway's code and its surroundings. -/
abbrev gatewayInterface : Interface := ⟨GatewayOp, GatewayOp.Ans⟩

/-- Code of the gateway. -/
abbrev GatewayM (ε α : Type) := Procedure gatewayInterface ε α

section Operations

variable {ε α : Type}

/-- One operation of the gateway. -/
def perform (o : GatewayOp) : GatewayM ε o.Ans := Procedure.call (I := gatewayInterface) o .pure

def clock : GatewayM ε Time := perform .clock

/-- Go on with a result or raise the gateway error. -/
def liftGateway : Except GatewayError α → GatewayM Exn α
  | .ok a => .pure a
  | .error e => .raise (.gateway e)

/-- Go on with a result or raise. -/
def liftExn : Except Exn α → GatewayM Exn α
  | .ok a => .pure a
  | .error e => .raise e

/-- Raise what the library has raised, if anything. -/
def raiseOther : Option (String × String) → GatewayM Exn Unit
  | some (cls, message) => .raise (.other cls message)
  | none => .pure ()

def malformed (message : String) : Exn := .gateway ⟨.malformedArguments, message⟩

def unavailable (message : String) : Exn := .gateway ⟨.serviceUnavailable, message⟩

end Operations

/-! ## Running a tool -/

/-- The domains of `_dispatchers`. -/
def dispatcherDomains : List String :=
  ["cicd", "device", "diagnostics", "knowledge", "repository", "ticket"]

/-- `str(result.structured_content["error"])` of a failed result, as the error it becomes. -/
def toolError (rt : Runtime) (content : PyDict) : Exn :=
  match content.get? "error" with
  | some error =>
      match rt.strRaises error with
      | some (cls, message) => .other cls message
      | none => malformed (rt.str error)
  | none => .other "KeyError" "'error'"

/-- `_dispatch_result_from_mcp(result)`. -/
def dispatchResultFromMcp (result : ToolResult) : Except Exn DispatchResult :=
  match result.structuredContent with
  | .dict content => .ok ⟨result.isError, content⟩
  | _ => .error (unavailable "MCP dispatcher returned invalid structured output.")

/-- The class name of an exception. -/
def Exn.className : Exn → String
  | .gateway e => e.cls.name
  | .other cls _ => cls

/-- The text of an exception. -/
def Exn.text : Exn → String
  | .gateway e => e.message
  | .other _ message => message

/-- What the child of `_run_builtin_tool_in_child` puts into the queue. -/
def childPayload : Except Exn ToolResult → PyDict
  | .ok result =>
      [("kind", .str "result"), ("is_error", .bool result.isError),
        ("structured_content", result.structuredContent)]
  | .error e =>
      [("kind", .str "exception"), ("error_type", .str e.className), ("message", .str e.text)]

/-- `str(payload.get(key) or default)`. -/
def textOr (rt : Runtime) (payload : PyDict) (key fallback : String) : String :=
  match payload.get? key with
  | some v => if v.truthy then rt.str v else fallback
  | none => fallback

/-- The result in the payload of a worker process. -/
def resultFromPayload (rt : Runtime) (toolName : String) (payload : PyDict) :
    Except Exn DispatchResult :=
  if (payload.get? "kind").any (·.pyEq (.str "result")) then
    match payload.get? "structured_content" with
    | some (.dict content) => .ok ⟨((payload.get? "is_error").getD .null).truthy, content⟩
    | _ => .error (unavailable s!"Tool worker for {toolName} returned invalid structured output.")
  else
    .error (unavailable
      ("Tool worker failed with " ++ textOr rt payload "error_type" "unknown" ++ ": " ++
        textOr rt payload "message" "Tool worker failed."))

namespace McpGateway

variable (G : McpGateway)

/-- `_execute_with_deadline(metadata, arguments)`, for a tool that runs as `run`. -/
def executeWithDeadline (metadata : ToolMetadata) (run : ToolRun) : Except Exn DispatchResult :=
  let timeout := Exn.gateway ⟨.toolTimeout, s!"Tool {metadata.toolName} exceeded timeout."⟩
  match G.executionIsolation with
  | .process =>
      if run.late then .error timeout
      else if run.lost then
        .error (unavailable
          s!"Tool worker for {metadata.toolName} exited without returning a result.")
      else resultFromPayload G.runtime metadata.toolName (childPayload run.result)
  | .thread =>
      if metadata.domain ∉ dispatcherDomains then .error (.other "KeyError" metadata.domain)
      else if run.late ∨ run.timesOut then .error timeout
      else run.result.bind dispatchResultFromMcp
  | .inline =>
      if metadata.domain ∉ dispatcherDomains then .error (.other "KeyError" metadata.domain)
      else run.result.bind dispatchResultFromMcp

/-! ## The checks of a call -/

/-- `_metadata(tool_name)`. -/
def metadata (toolName : String) : Except Exn ToolMetadata :=
  match G.registry.lookup toolName with
  | some metadata => .ok metadata
  | none => .error (.gateway ⟨.unknownTool, s!"Unknown tool {toolName}."⟩)

/-- `_check_tool_enabled(metadata)`. -/
def checkToolEnabled (metadata : ToolMetadata) : Except Exn Unit :=
  if metadata.toolName ∈ G.disabledTools ∨ ¬ metadata.enabled then
    .error (.gateway ⟨.disabledTool, s!"Tool {metadata.toolName} is disabled."⟩)
  else .ok ()

/-- `_check_tool_executable(metadata)`. -/
def checkToolExecutable (metadata : ToolMetadata) : Except Exn Unit :=
  if metadata.executable then .ok ()
  else .error (.gateway ⟨.nonExecutableTool, s!"Tool {metadata.toolName} is not executable."⟩)

/-- `_trusted_domain_arguments(arguments, principal, metadata)`. -/
def trustedDomainArguments (arguments : PyDict) (principal : Principal)
    (metadata : ToolMetadata) : PyDict :=
  let routed := arguments.set "actor_role" (.str principal.role.value)
  if metadata.requiresApproval then
    routed.set "approval_token" (.str "APPROVED_OPERATION_TOKEN")
  else routed

/-- `_validate_domain_arguments(arguments, principal, metadata)`. -/
def validateDomainArguments (arguments : PyDict) (principal : Principal)
    (metadata : ToolMetadata) : Except Exn Unit := do
  if metadata.domain ∉ dispatcherDomains then .error (.other "KeyError" metadata.domain)
  else
    let result ← G.validateTool metadata.domain metadata.toolName
      (trustedDomainArguments arguments principal metadata)
    if result.isError then
      match result.structuredContent with
      | .dict content => .error (toolError G.runtime content)
      | _ => .error (.other "TypeError" "structured content is not subscriptable")
    else .ok ()

/-- The checks of `_approval_for_request` that compare the record with the request. -/
def checkBinding (request : GatewayToolRequest) (metadata : ToolMetadata) (arguments : PyDict)
    (approval : ApprovalRecord) : Except GatewayError Unit :=
  let expectedHash := hashArguments G.runtime arguments
  let expectedBinding :=
    approvalBindingHash G.runtime request approval.requesterId metadata.toolName arguments
  if approval.toolName ≠ metadata.toolName ∨ approval.arguments.pyEq arguments = false then
    .error ⟨.malformedArguments, "Approval does not match requested tool arguments."⟩
  else if approval.argumentsHash.any (fun h => h ≠ "" ∧ h ≠ expectedHash) then
    .error ⟨.malformedArguments, "Approval argument hash does not match requested arguments."⟩
  else if approval.workflowId ≠ none ∧ approval.workflowId ≠ request.workflowId then
    .error ⟨.malformedArguments, "Approval is bound to a different workflow."⟩
  else if approval.workflowNodeId ≠ none ∧ approval.workflowNodeId ≠ request.workflowNodeId then
    .error ⟨.malformedArguments, "Approval is bound to a different workflow node."⟩
  else if approval.approvalBindingHash.any (fun h => h ≠ "" ∧ h ≠ expectedBinding) then
    .error ⟨.malformedArguments, "Approval does not match requested tool arguments."⟩
  else .ok ()

/-- `_approval_for_request(request, metadata, arguments, now)`. -/
def approvalForRequest (request : GatewayToolRequest) (metadata : ToolMetadata)
    (arguments : PyDict) (now : Time) : GatewayM Exn (Option ApprovalRecord) :=
  match metadata.requiresApproval, request.approvalId with
  | false, _ => pure none
  | true, none => pure none
  | true, some approvalId => do
      let approval ← liftGateway (← perform (.approvals (.get approvalId now)))
      raiseOther (hashArgumentsRaises G.runtime arguments)
      liftGateway (G.checkBinding request metadata arguments approval)
      let status : ApprovalStatus ← perform (.checkStatus approval)
      if status = ApprovalStatus.approved then pure (some approval)
      else do
        let status : ApprovalStatus ← perform (.readStatus approval)
        .raise (malformed s!"Approval status is {status.value}.")

/-! ## `call_tool` -/

/-- `_success(request, principal, metadata, decision, data, ...)`. -/
def success (request : GatewayToolRequest) (principal : Principal)
    (metadata : ToolMetadata) (decision : GatewayDecision) (data : PyDict)
    (approvalStatus : Option ApprovalStatus) (executionStatus : String) :
    GatewayM Exn GatewayToolResponse := do
  let now ← clock
  raiseOther (auditRaises G.runtime request.arguments)
  perform (.audit
    { timestamp := now
      actorId := principal.principalId
      actorRole := principal.role
      toolName := metadata.toolName
      correlationId := request.correlationId
      decision
      authorizationResult := "ALLOW"
      riskLevel := some metadata.riskLevel
      approvalStatus
      executionStatus
      resultSummary := decision.value
      argumentHash := some (argumentHash G.runtime request.arguments)
      targetResource := targetResource G.runtime request.arguments })
  pure
    { ok := true
      decision
      correlationId := request.correlationId
      data := ("tool_name", .str metadata.toolName) :: data }

/-- `_failure(request, principal, metadata, exc)`. -/
def failure (request : GatewayToolRequest) (principal : Principal)
    (metadata : Option ToolMetadata) (exc : GatewayError) : GatewayM Exn GatewayToolResponse := do
  let now ← clock
  raiseOther (auditRaises G.runtime request.arguments)
  perform (.audit
    { timestamp := now
      actorId := principal.principalId
      actorRole := principal.role
      toolName := request.toolName
      correlationId := request.correlationId
      decision := .denied
      authorizationResult := "DENY"
      riskLevel := metadata.map (·.riskLevel)
      executionStatus := "DENIED"
      resultSummary := exc.code
      argumentHash := some (argumentHash G.runtime request.arguments)
      targetResource := targetResource G.runtime request.arguments })
  pure
    { ok := false
      decision := .denied
      correlationId := request.correlationId
      data := [("tool_name", .str request.toolName)]
      error := some [("code", exc.code), ("message", exc.message)] }

/-- Ask for an approval and report that it is pending. -/
def requestApproval (request : GatewayToolRequest) (principal : Principal)
    (metadata : ToolMetadata) (arguments : PyDict) (now : Time) :
    GatewayM Exn GatewayToolResponse := do
  raiseOther (hashArgumentsRaises G.runtime arguments)
  let approval : ApprovalRecord ← perform (.approvals (.create
    { principal
      toolName := metadata.toolName
      arguments
      riskLevel := metadata.riskLevel
      workflowId := request.workflowId
      workflowNodeId := request.workflowNodeId
      argumentsHash := some (hashArguments G.runtime arguments)
      approvalBindingHash := some (approvalBindingHash G.runtime request principal.principalId
        metadata.toolName arguments) } now))
  let shown : ApprovalStatus ← perform (.readStatus approval)
  let status ← perform (.readStatus approval)
  G.success request principal metadata .pendingApproval
    [("approval_id", .str approval.approvalId.str), ("approval_status", .str shown.value),
      ("risk_level", .str metadata.riskLevel.value)]
    (some status) "PENDING_APPROVAL"

/-- Run the tool and raise if it reports an error. -/
def runTool (request : GatewayToolRequest) (principal : Principal) (metadata : ToolMetadata)
    (arguments : PyDict) : GatewayM Exn DispatchResult := do
  let startedAt ← clock
  perform (.markRunning principal request.idempotencyKey startedAt)
  let result ← liftExn (← perform
    (.dispatch metadata (trustedDomainArguments arguments principal metadata)))
  if result.isError then .raise (toolError G.runtime result.structuredContent)
  else pure result

/-- Run the tool; when the gateway sees an error, the approval fails with it. -/
def executeTool (request : GatewayToolRequest) (principal : Principal) (metadata : ToolMetadata)
    (arguments : PyDict) (approval : Option ApprovalRecord) : GatewayM Exn DispatchResult :=
  (G.runTool request principal metadata arguments).tryCatch fun exn =>
    match exn, approval with
    | .gateway exc, some approval => do
        let failedAt ← clock
        let _ ← liftGateway
          (← perform (.approvals (.markFailed approval principal failedAt exc.code)))
        .raise exn
    | _, _ => .raise exn

/-- Record that the approved operation was executed. -/
def recordExecution (principal : Principal) (result : DispatchResult) :
    Option ApprovalRecord → GatewayM Exn Unit
  | none => pure ()
  | some approval => do
      let executedAt ← clock
      let _ ← liftGateway (← perform
        (.approvals (.markExecuted approval principal executedAt result.structuredContent)))
      pure ()

/-- The present status of the approval, if there is one. -/
def reportedStatus : Option ApprovalRecord → GatewayM Exn (Option ApprovalStatus)
  | none => pure none
  | some approval => do
      let status ← perform (.readStatus approval)
      pure (some status)

/-- The part of `call_tool` after a successful reservation. -/
def callReserved (request : GatewayToolRequest) (principal : Principal)
    (metadata : ToolMetadata) (arguments : PyDict) (now : Time) :
    GatewayM Exn GatewayToolResponse := do
  let approval ← G.approvalForRequest request metadata arguments now
  if metadata.requiresApproval ∧ approval.isNone then
    G.requestApproval request principal metadata arguments now
  else do
    let result ← G.executeTool request principal metadata arguments approval
    recordExecution principal result approval
    let status ← reportedStatus approval
    let response ← G.success request principal metadata .allowed
      [("tool_result", .dict result.structuredContent)] status "SUCCEEDED"
    let completedAt ← clock
    perform (.complete principal request.idempotencyKey response .succeeded completedAt)
    pure response

/-- The local variables of `call_tool` when an exception leaves its body. -/
structure CallFailure where
  principal : Option Principal := none
  metadata : Option ToolMetadata := none
  idempotencyReserved : Bool := false
  exn : Exn

/-- The checks of `call_tool` between the authentication and the reservation. -/
def checkRequest (principal : Principal) (metadata : ToolMetadata) (arguments : PyDict)
    (now : Time) :
    GatewayM Exn Unit := do
  liftExn (G.checkToolEnabled metadata)
  liftExn (checkToolExecutable metadata)
  liftExn (GatewayAuthorizer.authorize principal metadata.requiredPermission)
  liftExn (← perform (.checkRate principal metadata.toolName metadata.rateLimit now))
  liftExn (G.validateDomainArguments arguments principal metadata)

/-- The body of `call_tool`. -/
def callBody (request : GatewayToolRequest) (now : Time) :
    GatewayM CallFailure GatewayToolResponse := do
  let principal ← (liftGateway (G.authenticate request.authToken)).mapError
    fun exn => { exn }
  let metadata ← (liftExn (G.metadata request.toolName)).mapError
    fun exn => { principal, exn }
  let arguments := stripUntrustedModelFields request.arguments
  (G.checkRequest principal metadata arguments now).mapError fun exn => { principal, metadata, exn }
  let replay ← (do
    liftGateway (← perform (.reserve principal request.idempotencyKey now))).mapError
      fun exn => { principal, metadata, exn }
  match (replay : Option GatewayToolResponse) with
  | some response => pure response
  | none =>
      (G.callReserved request principal metadata arguments now).mapError
        fun exn => { principal, metadata, idempotencyReserved := true, exn }

/-- The actor of a failure before authentication. -/
def anonymous : Principal := ⟨"anonymous", .viewer, .human⟩

/-- The `except GatewayError` clause of `call_tool`. -/
def handleFailure (request : GatewayToolRequest) (f : CallFailure) :
    GatewayM Exn GatewayToolResponse :=
  match f.exn with
  | .other _ _ => .raise f.exn
  | .gateway exc => do
      let response ← G.failure request (f.principal.getD anonymous) f.metadata exc
      match f.principal, f.idempotencyReserved with
      | some principal, true => do
          let completedAt ← clock
          perform (.complete principal request.idempotencyKey response .permanentFailed completedAt)
          pure response
      | _, _ => pure response

/-- `call_tool(request)`. -/
def callTool (request : GatewayToolRequest) : GatewayM Exn GatewayToolResponse := do
  let now ← clock
  (G.callBody request now).tryCatch (G.handleFailure request)

/-! ## Approving, rejecting and reading approvals -/

/-- `except GatewayError` of the approval operations. -/
def deniedOnError (correlationId : UUID) (p : GatewayM Exn GatewayToolResponse) :
    GatewayM Exn GatewayToolResponse :=
  p.tryCatch fun exn =>
    match exn with
    | .gateway exc => pure
        { ok := false
          decision := .denied
          correlationId
          error := some [("code", exc.code), ("message", exc.message)] }
    | .other _ _ => .raise exn

/-- `approve_operation(auth_token, approval_id)`. -/
def approveOperation (authToken : String) (approvalId : UUID) :
    GatewayM Exn GatewayToolResponse := do
  let now ← clock
  deniedOnError approvalId do
    let principal ← liftGateway (G.authenticate authToken)
    let approval ← liftGateway (← perform (.approvals (.get approvalId now)))
    liftExn (GatewayAuthorizer.authorizeApproval principal approval)
    let approved : ApprovalRecord ← liftGateway
      (← perform (.approvals (.approve approval.approvalId principal now)))
    pure
      { ok := true
        decision := .allowed
        correlationId := approval.approvalId
        data := [("approval_id", .str approved.approvalId.str),
          ("approval_status", .str approved.status.value),
          ("approved_by", .str (approved.approvedBy.getD ""))] }

/-- `reject_operation(auth_token, approval_id, reason)`. -/
def rejectOperation (authToken : String) (approvalId : UUID) (reason : String) :
    GatewayM Exn GatewayToolResponse := do
  let now ← clock
  deniedOnError approvalId do
    let principal ← liftGateway (G.authenticate authToken)
    let approval ← liftGateway (← perform (.approvals (.get approvalId now)))
    liftExn (GatewayAuthorizer.authorizeApproval principal approval)
    let rejected : ApprovalRecord ← liftGateway
      (← perform (.approvals (.reject approvalId principal reason now)))
    pure
      { ok := true
        decision := .denied
        correlationId := approvalId
        data := [("approval_id", .str rejected.approvalId.str),
          ("approval_status", .str rejected.status.value),
          ("rejected_by", .str (rejected.rejectedBy.getD ""))] }

/-- `list_approvals(auth_token)`. -/
def listApprovals (authToken : String) : GatewayM Exn GatewayToolResponse := do
  let now ← clock
  deniedOnError 1 do
    let principal ← liftGateway (G.authenticate authToken)
    liftExn (GatewayAuthorizer.authorize principal "approvals:approve")
    let approvals : List ApprovalRecord ← perform (.approvals (.listApprovals now))
    pure
      { ok := true
        decision := .allowed
        correlationId := 1
        data := [("approvals", .list (approvals.map (·.modelDump G.runtime)))] }

/-- `get_approval(auth_token, approval_id)`. -/
def getApproval (authToken : String) (approvalId : UUID) : GatewayM Exn GatewayToolResponse := do
  let now ← clock
  deniedOnError approvalId do
    let principal ← liftGateway (G.authenticate authToken)
    liftExn (GatewayAuthorizer.authorize principal "approvals:approve")
    let approval : ApprovalRecord ← liftGateway
      (← perform (.approvals (.detail approvalId now)))
    pure
      { ok := true
        decision := .allowed
        correlationId := approvalId
        data := [("approval", approval.modelDump G.runtime)] }

end McpGateway

/-! ## The gateway as a system -/

/-- A call of one of the gateway's public operations. -/
inductive GatewayCall where
  | callTool (request : GatewayToolRequest)
  | approveOperation (authToken : String) (approvalId : UUID)
  | rejectOperation (authToken : String) (approvalId : UUID) (reason : String)
  | listApprovals (authToken : String)
  | getApproval (authToken : String) (approvalId : UUID)

/-- The code of a call. -/
def McpGateway.serve (G : McpGateway) : GatewayCall → GatewayM Exn GatewayToolResponse
  | .callTool request => G.callTool request
  | .approveOperation authToken approvalId => G.approveOperation authToken approvalId
  | .rejectOperation authToken approvalId reason => G.rejectOperation authToken approvalId reason
  | .listApprovals authToken => G.listApprovals authToken
  | .getApproval authToken approvalId => G.getApproval authToken approvalId

/-! ### Parts without operations -/

section Parts

variable {ε α : Type} {allowed : GatewayOp → Prop}

theorem uses_liftGateway (res : Except GatewayError α) : (liftGateway res).Uses allowed := by
  cases res <;> trivial

theorem uses_liftExn (res : Except Exn α) : (liftExn res).Uses allowed := by
  cases res <;> trivial

theorem uses_raiseOther (raised : Option (String × String)) :
    (raiseOther raised).Uses allowed := by
  cases raised <;> trivial

theorem uses_perform {o : GatewayOp} (ho : allowed o) :
    (perform o : GatewayM ε o.Ans).Uses allowed := ⟨ho, fun _ => trivial⟩

theorem uses_deniedOnError {id : UUID} {p : GatewayM Exn GatewayToolResponse}
    (hp : p.Uses allowed) : (McpGateway.deniedOnError id p).Uses allowed := by
  refine Procedure.Uses.tryCatch hp fun exn => ?_
  cases exn <;> trivial

end Parts

/-- What an operation takes from outside: the clock reading, the id a factory makes, and the
run of a tool. -/
structure Env where
  clock : Time
  freshId : UUID
  toolRun : ToolRun

/-- The state the calls share, with an approval store of states `A`. -/
structure GatewayState (A : Type) where
  rateLimiter : FixedWindowRateLimiter := {}
  idempotency : IdempotencyStore := {}
  approvals : A

/-- How the gateway's surroundings answer its operations. -/
def gatewaySystem {A : Type} (G : McpGateway) (B : ApprovalBackend A) :
    System gatewayInterface (GatewayState A) Env where
  answer o env s :=
    match o with
    | .clock => (env.clock, s)
    | .checkRate principal toolName rateLimit now =>
        let (a, rateLimiter) := s.rateLimiter.check principal toolName rateLimit now
        (a, { s with rateLimiter })
    | .reserve principal idempotencyKey now =>
        let (a, idempotency) := s.idempotency.reserve principal idempotencyKey now
        (a, { s with idempotency })
    | .markRunning principal idempotencyKey _ =>
        ((), { s with idempotency := s.idempotency.markRunning principal idempotencyKey })
    | .complete principal idempotencyKey response status now =>
        ((), { s with
          idempotency := s.idempotency.complete principal idempotencyKey response status now })
    | .approvals o =>
        let (a, approvals) := B.answer o env.freshId s.approvals
        (a, { s with approvals })
    | .checkStatus approval => (B.status approval s.approvals, s)
    | .readStatus approval => (B.status approval s.approvals, s)
    | .audit record => ((), { s with approvals := B.appendAudit record s.approvals })
    | .dispatch metadata _ => (G.executeWithDeadline metadata env.toolRun, s)

/-! ### A gateway for small examples -/

/-- A gateway with one governed tool and one that only reads, whose dispatchers accept all
arguments. -/
def McpGateway.small : McpGateway where
  registry := [("restart_device", ToolRegistry.restartDevice),
    ("get_device_status", ToolRegistry.getDeviceStatus)]
  authenticate := TokenAuthenticator.default.authenticate
  disabledTools := []
  executionIsolation := .thread
  validateTool _ _ _ := .ok ⟨false, .dict [("ok", .bool true)]⟩
  runtime := .plain

/-- The surroundings at second `n`: a new id is `n`, and a tool succeeds in time. -/
def Env.at (n : ℕ) : Env where
  clock := seconds n
  freshId := n
  toolRun := { result := .ok ⟨false, .dict [("ok", .bool true)]⟩ }

/-- `count` steps at second `n`. -/
def Env.steps (n count : ℕ) : List Env := List.replicate count (.at n)

/-- No call has been made yet. -/
def GatewayState.inMemory : GatewayState ApprovalStore := { approvals := {} }

/-- Two users of the small gateway. -/
inductive SmallUser where
  | operator
  | secondAdmin

def SmallUser.token : SmallUser → String
  | .operator => "operator-token"
  | .secondAdmin => "admin2-token"

theorem SmallUser.token_length (user : SmallUser) : 8 ≤ user.token.length := by
  cases user <;> decide

/-- The `n`-th request to restart a device. -/
def restartRequest (user : SmallUser) (n : ℕ) (approvalId : Option UUID) : GatewayToolRequest where
  authToken := user.token
  toolName := "restart_device"
  arguments := [("device_id", .str "dev-1")]
  idempotencyKey := "restart-".push n.digitChar
  approvalId
  correlationId := 1
  authToken_length := user.token_length
  idempotencyKey_length := by rw [String.length_push]; decide

end McpOps
