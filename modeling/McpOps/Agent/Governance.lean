import McpOps.Agent.Service
import McpOps.Lib.Traversal

/-!
# What the agent does to the gateway, and what it reports

A provider is free to read any intent out of a message, and the gateway to answer in any way.
Whatever they do, every call of a tool is `Permitted`: the tool is one of the intent's route, the
token is the user's where there is one, an approval goes with nothing but the execution of an
approved restart, the device is the intent's, and a tool that changes something is called last,
once, after reads that were all well.  What the agent returns is then `Truthful` about the calls
that it made.

The obstacle is that one handler mixes reads, a decision on all of them and one write.  `Governs`
states what is left of a handler after the calls made so far, so that each stage is proved by
itself: `governs_callPlan` for one call, `governs_readAll` for the reads, the `reports_…` lemmas for
the pure ends, and `governs_handle` puts them together.
-/

namespace McpOps

open Proc

/-! ## Calls and their answers -/

/-- A call of a tool with its answer. -/
structure AgentCall where
  request : GatewayToolRequest
  answer : Except ClientError GatewayToolResponse

/-- The calls of tools among the events, newest first. -/
def agentCalls : List AgentEvent → List AgentCall
  | [] => []
  | ⟨.callTool request, answer⟩ :: earlier => ⟨request, answer⟩ :: agentCalls earlier
  | ⟨.uuid4, _⟩ :: earlier => agentCalls earlier

/-- The tools that change something. -/
def writeTools : List String := ["create_ticket", "restart_service"]

/-- The calls have been answered with the responses. -/
def Answered (xs : List AgentCall) (responses : List GatewayToolResponse) : Prop :=
  List.Forall₂ (fun x response => x.answer = .ok response) xs responses.reverse

/-- Nothing has been changed. -/
def OnlyReads (xs : List AgentCall) : Prop := ∀ x ∈ xs, x.request.toolName ∉ writeTools

theorem answered_nil : Answered [] [] := .nil

theorem Answered.cons {xs : List AgentCall} {responses : List GatewayToolResponse}
    (h : Answered xs responses) (request : GatewayToolRequest) (response : GatewayToolResponse) :
    Answered (⟨request, .ok response⟩ :: xs) (responses ++ [response]) := by
  unfold Answered
  rw [List.reverse_append, List.reverse_singleton, List.singleton_append]
  exact .cons rfl h

/-! ## Rules for the calls of the agent -/

section Rules

variable {P : GatewayToolRequest → List AgentCall → Prop} {xs : List AgentCall} {α β : Type}

/-- Every call is as `P` wants it after the calls before it. -/
def Governed (P : GatewayToolRequest → List AgentCall → Prop) (xs : List AgentCall) : Prop :=
  ∀ x earlier, x :: earlier <:+ xs → P x.request earlier

/-- After the calls `xs`, all further calls of `p` are as `P` wants them, and `Q` holds of what
`p` returns and of all calls. -/
def Governs (P : GatewayToolRequest → List AgentCall → Prop) (Q : α → List AgentCall → Prop)
    (p : AgentM α) (xs : List AgentCall) : Prop :=
  ∀ done, agentCalls done = xs → Governed P xs →
    p.Emits (fun _ => True) (fun done => Governed P (agentCalls done))
      (fun res done => ∀ a, res = .ok a → Q a (agentCalls done)) done

theorem governed_nil : Governed P [] := by
  intro x earlier h
  exact absurd (List.eq_nil_of_suffix_nil h) (List.cons_ne_nil x earlier)

theorem Governed.cons (h : Governed P xs) {x : AgentCall} (hx : P x.request xs) :
    Governed P (x :: xs) := by
  intro y earlier hy
  rcases List.suffix_cons_iff.mp hy with heq | hy
  · cases heq
    exact hx
  · exact h y earlier hy

theorem governs_pure {Q : α → List AgentCall → Prop} {a : α} (h : Q a xs) :
    Governs P Q (.pure a) xs := by
  intro done hdone _ a' ha
  cases ha
  rw [hdone]
  exact h

theorem governs_raise {Q : α → List AgentCall → Prop} {e : AgentFailure} :
    Governs P Q (.raise e : AgentM α) xs := by
  intro done _ _ a ha
  cases ha

theorem governs_ofExcept {Q : α → List AgentCall → Prop} {res : Except AgentFailure α}
    (h : ∀ a, res = .ok a → Q a xs) : Governs P Q (.ofExcept res) xs := by
  cases res with
  | ok a => exact governs_pure (h a rfl)
  | error e => exact governs_raise

theorem Governs.imp {Q Q' : α → List AgentCall → Prop} {p : AgentM α} (h : Governs P Q p xs)
    (himp : ∀ a ys, Q a ys → Q' a ys) : Governs P Q' p xs := by
  intro done hdone hP
  refine Procedure.Emits.imp (h done hdone hP) (hdone ▸ hP) ?_
  intro res ys _ hres a ha
  exact himp a _ (hres a ha)

theorem Governs.bind {Q : α → List AgentCall → Prop} {R : β → List AgentCall → Prop}
    {p : AgentM α} {f : α → AgentM β} (h : Governs P Q p xs)
    (hf : ∀ a ys, Q a ys → Governs P R (f a) ys) : Governs P R (p >>= f) xs := by
  intro done hdone hP
  refine Procedure.emits_bind.mpr (Procedure.Emits.imp (h done hdone hP) (hdone ▸ hP) ?_)
  intro res ys hys hres
  cases res with
  | ok a => exact hf a _ (hres a rfl) ys rfl hys
  | error e =>
      intro b hb
      cases hb

theorem governs_uuid4 : Governs P (fun _ ys => ys = xs) (agentOp .uuid4) xs := by
  intro done hdone hP id _
  have hsame : agentCalls (⟨.uuid4, id⟩ :: done) = xs := hdone
  have hgood : Governed P (agentCalls (⟨.uuid4, id⟩ :: done)) := by
    rw [hsame]
    exact hP
  refine ⟨hgood, ?_⟩
  intro _ _
  exact hsame

/-- The request that a plan asks for. -/
structure ToolCallPlan.Asks (plan : ToolCallPlan) (request : GatewayToolRequest) : Prop where
  toolName : request.toolName = plan.toolName
  arguments : request.arguments = plan.arguments
  authToken : request.authToken = plan.authToken
  approvalId : request.approvalId = plan.approvalId
  idempotencyKey : request.idempotencyKey = plan.idempotencyKey

theorem governs_callPlan {plan : ToolCallPlan}
    (h : ∀ request, plan.Asks request → P request xs) :
    Governs P (fun response ys => ∃ request, plan.Asks request ∧
      ys = ⟨request, .ok response⟩ :: xs) (callPlan plan) xs := by
  unfold callPlan
  refine Governs.bind governs_uuid4 fun correlationId ys hys => ?_
  subst hys
  split
  · intro done hdone hP answer _
    -- the request is permitted whatever it is answered with
    have hgood : Governed P (agentCalls (⟨.callTool _, answer⟩ :: done)) := by
      rw [agentCalls, hdone]
      exact hP.cons (h _ ⟨rfl, rfl, rfl, rfl, rfl⟩)
    refine ⟨hgood, ?_⟩
    cases answer with
    | ok response =>
        intro response' heq
        cases heq
        exact ⟨_, ⟨rfl, rfl, rfl, rfl, rfl⟩, by rw [agentCalls, hdone]⟩
    | error e =>
        intro response' heq
        cases heq
  · exact governs_raise

/-! ### Several reads -/

/-- A plan for a read, with the token. -/
def Plans (authToken : String) (reads : List PlannedRead) (plan : ToolCallPlan) : Prop :=
  plan.authToken = authToken ∧ plan.approvalId = none ∧
    ∃ read ∈ reads, plan.toolName = read.toolName ∧ plan.arguments = read.arguments

theorem governs_planReads {authToken : String} {reads : List PlannedRead} :
    Governs P (fun plans ys => ys = xs ∧ ∀ plan ∈ plans, Plans authToken reads plan)
      (planReads authToken reads) xs := by
  induction reads with
  | nil =>
      apply governs_pure
      simp
  | cons read rest ih =>
      refine Governs.bind governs_uuid4 fun id ys hys => ?_
      subst hys
      refine Governs.bind ih fun plans ys hys => ?_
      obtain ⟨rfl, hplans⟩ := hys
      apply governs_pure
      refine ⟨rfl, fun plan hplan => ?_⟩
      rcases List.mem_cons.mp hplan with rfl | hplan
      · exact ⟨rfl, rfl, read, List.mem_cons_self, rfl, rfl⟩
      · obtain ⟨htoken, happroval, read', hread', hsame⟩ := hplans plan hplan
        exact ⟨htoken, happroval, read', List.mem_cons_of_mem _ hread', hsame⟩

/-- Plans that only read are called in turn, and each is answered. -/
theorem governs_executePlans {plans : List ToolCallPlan}
    (hreads : ∀ plan ∈ plans, plan.toolName ∉ writeTools)
    (hP : ∀ plan ∈ plans, ∀ request ys, plan.Asks request → OnlyReads ys → P request ys)
    {responses : List GatewayToolResponse} (hxs : OnlyReads xs)
    (hanswered : Answered xs responses) :
    Governs P (fun more ys => OnlyReads ys ∧ Answered ys (responses ++ more))
      (executePlans plans) xs := by
  induction plans generalizing xs responses with
  | nil =>
      apply governs_pure
      rw [List.append_nil]
      exact ⟨hxs, hanswered⟩
  | cons plan rest ih =>
      refine Governs.bind (governs_callPlan fun request hrequest =>
        hP plan List.mem_cons_self request _ hrequest hxs) fun response ys hys => ?_
      obtain ⟨request, hrequest, rfl⟩ := hys
      have honly : OnlyReads (⟨request, .ok response⟩ :: xs) := by
        intro x hx
        rcases List.mem_cons.mp hx with rfl | hx
        · rw [hrequest.toolName]
          exact hreads plan List.mem_cons_self
        · exact hxs x hx
      refine Governs.bind (ih (fun p hp => hreads p (List.mem_cons_of_mem _ hp))
        (fun p hp => hP p (List.mem_cons_of_mem _ hp)) honly
        (hanswered.cons request response)) fun more ys hys => ?_
      apply governs_pure
      rw [List.append_assoc, List.singleton_append] at hys
      exact hys

end Rules

/-! ## What is permitted -/

/-- The tools of the intent's route.  A question about a device also asks for its status. -/
def AgentIntent.tools (intent : AgentIntent) : List String :=
  (ToolSelectionPolicy.route intent).selections.map (·.toolName) ++
    if intent = .answerQuestion then ["get_device_status"] else []

/-- The intents whose route changes something. -/
def AgentIntent.writes (intent : AgentIntent) : Bool := intent.tools.any (· ∈ writeTools)

/-- The device that the arguments name is the intent's. -/
def ForDevice (intent : Intent) (arguments : PyDict) : Prop :=
  ∀ value, arguments.get? "device_id" = some value →
    ∃ deviceId, intent.deviceId = some deviceId ∧ value = .str deviceId

namespace AiEngineeringAgent

variable (A : AiEngineeringAgent)

/-- The token of the calls: the user's, and without one the operators' for an intent that
changes something and the diagnostic one for the others. -/
def callToken (intent : AgentIntent) (userAuthToken : Option String) : String :=
  let authToken := (userAuthToken.filter (· ≠ "")).getD
    (if intent.writes then A.operationAuthToken else A.diagnosticAuthToken)
  if authToken = "" then A.diagnosticAuthToken else authToken

/-- The calls that are made with the token, which replaces an empty one, have the right one. -/
def TokenFor (intent : Intent) (userAuthToken : Option String) (authToken : String) : Prop :=
  (if authToken = "" then A.diagnosticAuthToken else authToken) =
    A.callToken intent.intent userAuthToken

/-- The key of a write: it says what is asked for, and nothing of when it is asked for. -/
def writeKey (message deviceId : String) (intent : AgentIntent) (arguments : PyDict) : String :=
  let serviceName := textOf A.runtime (getValue arguments "service_name")
  match intent with
  | .createTicket => A.idempotency ["ticket-create", deviceId, clip 120 message]
  | .executeApprovedRestart => A.idempotency ["restart-execute", deviceId, serviceName]
  | _ => A.idempotency ["restart-request", deviceId, serviceName]

/-- A call after the earlier calls for the same message. -/
structure Permitted (message : String) (intent : Intent) (userAuthToken : Option String)
    (request : GatewayToolRequest) (earlier : List AgentCall) : Prop where
  tool : request.toolName ∈ intent.intent.tools
  token : request.authToken = A.callToken intent.intent userAuthToken
  device : ForDevice intent request.arguments
  approval : request.approvalId =
    if intent.intent = .executeApprovedRestart then intent.approvalId else none
  approved : intent.intent = .executeApprovedRestart → request.approvalId ≠ none
  afterReads : request.toolName ∈ writeTools →
    ∀ x ∈ earlier, ∃ response, x.answer = .ok response ∧ response.ok = true
  beforeWrite : OnlyReads earlier
  key : request.toolName ∈ writeTools → ∃ deviceId, intent.deviceId = some deviceId ∧
    request.idempotencyKey = A.writeKey message deviceId intent.intent request.arguments

/-! ## What is reported -/

/-- A step of the trace reports a call and its answer. -/
def Traces (x : AgentCall) (step : AgentTraceStep) : Prop :=
  ∃ response, x.answer = .ok response ∧ step.ok = response.ok ∧
    step.decision = response.decision ∧ step.toolName = traceToolName A.runtime response

/-- What is returned after the calls `xs`. -/
structure Truthful (intent : Intent) (xs : List AgentCall) (response : AgentResponse) : Prop where
  echoes : response.intent = intent.intent
  trace : List.Forall₂ A.Traces xs.reverse response.trace
  well : response.ok = true → intent.intent ≠ .answerQuestion →
    ∀ x ∈ xs, ∃ answer, x.answer = .ok answer ∧ answer.ok = true
  wrote : response.ok = true → intent.intent.writes = true →
    ∃ x earlier, xs = x :: earlier ∧ x.request.toolName ∈ writeTools
  failed : response.ok = false → response.escalationRequired = true
  pending : response.approvalRequired = true ↔
    response.ok = true ∧ intent.intent = .requestServiceRestart
  approval : response.approvalRequired = true → ∃ x earlier answer id, xs = x :: earlier ∧
    x.answer = .ok answer ∧ answer.decision = .pendingApproval ∧ response.approvalId = some id ∧
      A.runtime.parseUuid (textOf A.runtime (getValue answer.data "approval_id")) = some id

/-- The same of the responses, without the calls. -/
structure Reports (intent : AgentIntent) (responses : List GatewayToolResponse)
    (response : AgentResponse) : Prop where
  echoes : response.intent = intent
  trace : traceOf A.runtime responses = .ok response.trace
  well : response.ok = true → intent ≠ .answerQuestion → ∀ r ∈ responses, r.ok = true
  failed : response.ok = false → response.escalationRequired = true
  pending : response.approvalRequired = true ↔
    response.ok = true ∧ intent = .requestServiceRestart
  approval : response.approvalRequired = true → ∃ earlier answer id,
    responses = earlier ++ [answer] ∧ answer.decision = .pendingApproval ∧
      response.approvalId = some id ∧
        A.runtime.parseUuid (textOf A.runtime (getValue answer.data "approval_id")) = some id

variable {A}

theorem traces_of_traceStep {x : AgentCall} {response : GatewayToolResponse}
    {step : AgentTraceStep} (hx : x.answer = .ok response)
    (h : traceStep A.runtime response = .ok step) : A.Traces x step := by
  unfold traceStep at h
  split at h
  · obtain ⟨code, -, h⟩ := Traversal.bind_eq_ok.mp h
    cases h
    exact ⟨response, hx, rfl, rfl, rfl⟩
  · cases h
    exact ⟨response, hx, rfl, rfl, rfl⟩

/-- What is true of the responses is true of the calls that they answer. -/
theorem Reports.truthful {intent : Intent} {xs : List AgentCall}
    {responses : List GatewayToolResponse} {response : AgentResponse}
    (h : A.Reports intent.intent responses response) (hanswered : Answered xs responses)
    (hwrote : response.ok = true → intent.intent.writes = true →
      ∃ x earlier, xs = x :: earlier ∧ x.request.toolName ∈ writeTools) :
    A.Truthful intent xs response where
  echoes := h.echoes
  trace := by
    have hinorder := List.forall₂_reverse_iff.mpr hanswered
    rw [List.reverse_reverse] at hinorder
    refine (Traversal.forall₂_trans hinorder (Traversal.mapM_eq_ok h.trace)).imp ?_
    intro x step hstep
    obtain ⟨r, hanswer, hstep⟩ := hstep
    exact traces_of_traceStep hanswer hstep
  well := by
    intro hok hintent x hx
    obtain ⟨r, hr, hanswer⟩ := Traversal.exists_of_forall₂ hanswered hx
    exact ⟨r, hanswer, h.well hok hintent r (List.mem_reverse.mp hr)⟩
  wrote := hwrote
  failed := h.failed
  pending := h.pending
  approval := by
    intro hrequired
    obtain ⟨earlier, answer, id, rfl, hdecision, hid, hparse⟩ := h.approval hrequired
    unfold Answered at hanswered
    rw [List.reverse_append, List.reverse_singleton, List.singleton_append] at hanswered
    cases hanswered with
    | @cons x _ rest _ hx _ => exact ⟨x, rest, answer, id, rfl, hx, hdecision, hid, hparse⟩

/-! ### What the ends of the handlers return -/

section Ends

variable {intent : AgentIntent} {route : ToolRoute} {responses : List GatewayToolResponse}
  {response : AgentResponse}

theorem well_of_firstFailed (h : firstFailed responses = none) : ∀ r ∈ responses, r.ok = true := by
  intro r hr
  have hr := List.find?_eq_none.mp h r hr
  simpa using hr

/-- A response that reports a failure. -/
theorem Reports.of_failed (hechoes : response.intent = intent)
    (htrace : traceOf A.runtime responses = .ok response.trace) (hok : response.ok = false)
    (hrequired : response.approvalRequired = false)
    (hescalates : response.escalationRequired = true) :
    A.Reports intent responses response where
  echoes := hechoes
  trace := htrace
  well h := by simp [hok] at h
  failed _ := hescalates
  pending := by simp [hok, hrequired]
  approval h := by simp [hrequired] at h

/-- A response that reports a success without an approval. -/
theorem Reports.of_ok (hechoes : response.intent = intent)
    (htrace : traceOf A.runtime responses = .ok response.trace) (hok : response.ok = true)
    (hrequired : response.approvalRequired = false) (hintent : intent ≠ .requestServiceRestart)
    (hwell : intent ≠ .answerQuestion → ∀ r ∈ responses, r.ok = true) :
    A.Reports intent responses response where
  echoes := hechoes
  trace := htrace
  well _ := hwell
  failed h := by simp [hok] at h
  pending := by simp [hrequired, hintent]
  approval h := by simp [hrequired] at h

theorem reports_failureResponse {failed : GatewayToolResponse}
    (h : A.failureResponse intent responses failed route = .ok response) :
    A.Reports intent responses response ∧ response.ok = false := by
  unfold failureResponse at h
  obtain ⟨code, -, h⟩ := Traversal.bind_eq_ok.mp h
  obtain ⟨text, -, h⟩ := Traversal.bind_eq_ok.mp h
  obtain ⟨trace, htrace, h⟩ := Traversal.bind_eq_ok.mp h
  cases h
  exact ⟨.of_failed rfl htrace rfl rfl rfl, rfl⟩

theorem reports_answerFrom {message : String}
    (h : A.answerFrom message .answerQuestion route responses = .ok response) :
    A.Reports .answerQuestion responses response := by
  unfold answerFrom at h
  dsimp only at h
  split at h
  · cases h
  · obtain ⟨trace, htrace, h⟩ := Traversal.bind_eq_ok.mp h
    cases h
    exact .of_failed rfl htrace rfl rfl rfl
  · obtain ⟨trace, htrace, h⟩ := Traversal.bind_eq_ok.mp h
    cases h
    exact .of_ok rfl htrace rfl rfl (by decide) fun hintent => absurd rfl hintent

theorem reports_diagnosisFrom {deviceId : String} (hintent : intent ≠ .requestServiceRestart)
    (hwell : ∀ r ∈ responses, r.ok = true)
    (h : A.diagnosisFrom intent deviceId route responses = .ok response) :
    A.Reports intent responses response := by
  unfold diagnosisFrom at h
  -- five subscripts stand before the report is looked at
  obtain ⟨summary, -, h⟩ := Traversal.bind_eq_ok.mp h
  obtain ⟨telemetry, -, h⟩ := Traversal.bind_eq_ok.mp h
  obtain ⟨services, -, h⟩ := Traversal.bind_eq_ok.mp h
  obtain ⟨errors, -, h⟩ := Traversal.bind_eq_ok.mp h
  obtain ⟨incidents, -, h⟩ := Traversal.bind_eq_ok.mp h
  split at h
  · obtain ⟨message, -, h⟩ := Traversal.bind_eq_ok.mp h
    obtain ⟨latestTelemetry, -, h⟩ := Traversal.bind_eq_ok.mp h
    obtain ⟨trace, htrace, h⟩ := Traversal.bind_eq_ok.mp h
    cases h
    exact .of_ok rfl htrace rfl rfl hintent fun _ => hwell
  · cases h

theorem reports_procedureFrom {errorCode : String} (hintent : intent ≠ .requestServiceRestart)
    (hwell : ∀ r ∈ responses, r.ok = true)
    (h : A.procedureFrom intent errorCode route responses = .ok response) :
    A.Reports intent responses response := by
  unfold procedureFrom at h
  obtain ⟨trace, htrace, h⟩ := Traversal.bind_eq_ok.mp h
  cases h
  exact .of_ok rfl htrace rfl rfl hintent fun _ => hwell

theorem reports_ticketFrom {deviceId : String} {ticket : GatewayToolResponse}
    (hintent : intent ≠ .requestServiceRestart) (hwell : ∀ r ∈ responses, r.ok = true)
    (h : A.ticketFrom intent deviceId route responses ticket = .ok response) :
    A.Reports intent responses response := by
  unfold ticketFrom at h
  obtain ⟨created, -, h⟩ := Traversal.bind_eq_ok.mp h
  obtain ⟨ticketId, -, h⟩ := Traversal.bind_eq_ok.mp h
  obtain ⟨trace, htrace, h⟩ := Traversal.bind_eq_ok.mp h
  cases h
  exact .of_ok rfl htrace rfl rfl hintent fun _ => hwell

theorem reports_executedFrom {deviceId serviceName : String} {answer : GatewayToolResponse}
    (hintent : intent ≠ .requestServiceRestart) (hwell : answer.ok = true)
    (h : A.executedFrom intent deviceId serviceName route answer = .ok response) :
    A.Reports intent [answer] response := by
  unfold executedFrom at h
  obtain ⟨trace, htrace, h⟩ := Traversal.bind_eq_ok.mp h
  cases h
  refine .of_ok rfl htrace rfl rfl hintent fun _ r hr => ?_
  rw [List.mem_singleton.mp hr]
  exact hwell

/-- A restart is reported as pending only with the approval that the gateway names. -/
theorem reports_restartRequestFrom {deviceId serviceName : String}
    {discovery : List GatewayToolResponse} {restart : GatewayToolResponse}
    (hwell : ∀ r ∈ discovery ++ [restart], r.ok = true)
    (h : A.restartRequestFrom .requestServiceRestart deviceId serviceName route
      (discovery ++ [restart]) restart = .ok response) :
    A.Reports .requestServiceRestart (discovery ++ [restart]) response := by
  unfold restartRequestFrom at h
  split at h
  · obtain ⟨trace, htrace, h⟩ := Traversal.bind_eq_ok.mp h
    cases h
    exact .of_failed rfl htrace rfl rfl rfl
  · -- the gateway asks for an approval: the response must name the record that the gateway made
    rename_i hdecision
    obtain ⟨approvalText, happroval, h⟩ := Traversal.bind_eq_ok.mp h
    split at h
    · cases h
    · rename_i approvalId hparse
      obtain ⟨approvalStatus, -, h⟩ := Traversal.bind_eq_ok.mp h
      obtain ⟨riskLevel, -, h⟩ := Traversal.bind_eq_ok.mp h
      obtain ⟨trace, htrace, h⟩ := Traversal.bind_eq_ok.mp h
      cases h
      -- the identifier in the response is the one in the answer to the restart
      have htext : getValue restart.data "approval_id" = approvalText := by
        unfold subscript at happroval
        split at happroval
        · rename_i value hvalue
          cases happroval
          rw [getValue, hvalue]
          rfl
        · cases happroval
      exact
        { echoes := rfl
          trace := htrace
          well := fun _ _ => hwell
          failed := fun h => by cases h
          pending := ⟨fun _ => ⟨rfl, rfl⟩, fun _ => rfl⟩
          approval := fun _ => ⟨discovery, restart, approvalId, rfl,
            not_not.mp hdecision, rfl, htext ▸ hparse⟩ }

end Ends

/-! ### The stages of the handlers -/

section Stages

variable {message : String} {intent : Intent} {userAuthToken : Option String}
  {authToken : String} {xs : List AgentCall}

theorem forDevice_of_get? {arguments : PyDict} {deviceId : String}
    (hdevice : intent.deviceId = some deviceId)
    (h : arguments.get? "device_id" = some (.str deviceId)) : ForDevice intent arguments := by
  intro value hvalue
  rw [h] at hvalue
  cases hvalue
  exact ⟨deviceId, hdevice, rfl⟩

theorem forDevice_of_none {arguments : PyDict} (h : arguments.get? "device_id" = none) :
    ForDevice intent arguments := by
  intro value hvalue
  rw [h] at hvalue
  cases hvalue

/-- A read that the intent may ask for. -/
structure MayRead (intent : Intent) (read : PlannedRead) : Prop where
  tool : read.toolName ∈ intent.intent.tools
  reads : read.toolName ∉ writeTools
  device : ForDevice intent read.arguments

theorem mayRead {named : AgentIntent} (hintent : intent.intent = named) {name suffix : String}
    {arguments : PyDict} (htool : name ∈ named.tools) (hreads : name ∉ writeTools)
    (hdevice : ForDevice intent arguments) : MayRead intent ⟨name, arguments, suffix⟩ := by
  refine ⟨?_, hreads, hdevice⟩
  rw [hintent]
  exact htool

theorem permitted_of_read {reads : List PlannedRead} {plan : ToolCallPlan}
    {request : GatewayToolRequest} (hintent : intent.intent ≠ .executeApprovedRestart)
    (hreads : ∀ read ∈ reads, MayRead intent read)
    (hplan : Plans (A.callToken intent.intent userAuthToken) reads plan)
    (hrequest : plan.Asks request) (hxs : OnlyReads xs) :
    A.Permitted message intent userAuthToken request xs := by
  obtain ⟨htoken, happroval, read, hread, htool, harguments⟩ := hplan
  have hmay := hreads read hread
  have hname : request.toolName = read.toolName := hrequest.toolName.trans htool
  have hnot : request.toolName ∉ writeTools := by
    rw [hname]
    exact hmay.reads
  exact
    { tool := by
        rw [hname]
        exact hmay.tool
      token := hrequest.authToken.trans htoken
      device := by
        rw [hrequest.arguments, harguments]
        exact hmay.device
      approval := by
        rw [if_neg hintent, hrequest.approvalId]
        exact happroval
      approved := fun h => absurd h hintent
      afterReads := fun h => absurd h hnot
      beforeWrite := hxs
      key := fun h => absurd h hnot }

theorem governs_readAll {reads : List PlannedRead}
    (htoken : A.TokenFor intent userAuthToken authToken)
    (hintent : intent.intent ≠ .executeApprovedRestart)
    (hreads : ∀ read ∈ reads, MayRead intent read) :
    Governs (A.Permitted message intent userAuthToken)
      (fun responses ys => OnlyReads ys ∧ Answered ys responses)
      (A.readAll authToken reads) [] := by
  unfold readAll
  unfold TokenFor at htoken
  rw [htoken]
  refine Governs.bind governs_planReads fun plans ys hys => ?_
  obtain ⟨rfl, hplans⟩ := hys
  refine Governs.imp (governs_executePlans ?_ ?_ ?_ answered_nil) fun _ _ h => h
  · intro plan hplan
    obtain ⟨_, _, read, hread, htool, _⟩ := hplans plan hplan
    rw [htool]
    exact (hreads read hread).reads
  · intro plan hplan request ys hrequest hys
    exact permitted_of_read hintent hreads (hplans plan hplan) hrequest hys
  · intro x hx
    cases hx

/-- A response that reports a failure is truthful after whatever was answered. -/
theorem governs_failureResponse {P : GatewayToolRequest → List AgentCall → Prop}
    {responses : List GatewayToolResponse} {failed : GatewayToolResponse} {route : ToolRoute}
    (hanswered : Answered xs responses) :
    Governs P (fun response ys => A.Truthful intent ys response)
      (.ofExcept (A.failureResponse intent.intent responses failed route)) xs := by
  apply governs_ofExcept
  intro response hresponse
  obtain ⟨hreports, hok⟩ := reports_failureResponse hresponse
  refine hreports.truthful hanswered fun h => ?_
  rw [hok] at h
  cases h

/-- The report of an intent that changes nothing. -/
theorem governs_report {P : GatewayToolRequest → List AgentCall → Prop}
    {responses : List GatewayToolResponse} {report : Except AgentFailure AgentResponse}
    (hwrites : intent.intent.writes = false) (hanswered : Answered xs responses)
    (hreports : ∀ response, report = .ok response → A.Reports intent.intent responses response) :
    Governs P (fun response ys => A.Truthful intent ys response) (.ofExcept report) xs := by
  apply governs_ofExcept
  intro response hresponse
  refine (hreports response hresponse).truthful hanswered fun _ h => ?_
  rw [hwrites] at h
  cases h

theorem governs_requireDevice {P : GatewayToolRequest → List AgentCall → Prop} :
    Governs P (fun deviceId ys => intent.deviceId = some deviceId ∧ ys = xs)
      (.ofExcept (requireDevice intent)) xs := by
  apply governs_ofExcept
  intro deviceId h
  unfold requireDevice at h
  split at h
  · cases h
    exact ⟨by assumption, rfl⟩
  · cases h

end Stages

/-! ### The handlers -/

section Handlers

variable {message : String} {intent : Intent} {userAuthToken : Option String}
  {authToken : String} {route : ToolRoute}

/-- What the handlers of an intent promise. -/
def Handles (A : AiEngineeringAgent) (message : String) (intent : Intent)
    (userAuthToken : Option String) (p : AgentM AgentResponse) : Prop :=
  Governs (A.Permitted message intent userAuthToken)
    (fun response ys => A.Truthful intent ys response) p []

theorem handles_answerQuestion (hintent : intent.intent = .answerQuestion)
    (htoken : A.TokenFor intent userAuthToken authToken) :
    A.Handles message intent userAuthToken (A.answerQuestion message intent authToken route) := by
  have hreads : ∀ read ∈ questionReads message intent.deviceId, MayRead intent read := by
    intro read hread
    rcases List.mem_append.mp hread with hread | hread
    · simp only [List.mem_cons, List.not_mem_nil, or_false] at hread
      rcases hread with rfl | rfl | rfl
      all_goals exact mayRead hintent (by decide) (by decide) (forDevice_of_none rfl)
    · obtain ⟨deviceId, hdevice, rfl⟩ := List.mem_map.mp hread
      exact mayRead hintent (by decide) (by decide)
        (forDevice_of_get? (Option.mem_toList.mp hdevice) rfl)
  unfold Handles answerQuestion
  refine Governs.bind (governs_readAll htoken (by rw [hintent]; decide) hreads)
    fun responses ys hys => ?_
  apply governs_report (by rw [hintent]; decide) hys.2
  intro response hresponse
  rw [hintent] at hresponse ⊢
  exact reports_answerFrom hresponse

theorem handles_diagnoseUnhealthy (hintent : intent.intent = .diagnoseUnhealthyDevice)
    (htoken : A.TokenFor intent userAuthToken authToken) :
    A.Handles message intent userAuthToken (A.diagnoseUnhealthy intent authToken route) := by
  unfold Handles diagnoseUnhealthy
  refine Governs.bind governs_requireDevice fun deviceId ys hys => ?_
  obtain ⟨hdevice, rfl⟩ := hys
  have hreads : ∀ read ∈ diagnosticReads deviceId, MayRead intent read := by
    intro read hread
    simp only [diagnosticReads, List.mem_cons, List.not_mem_nil, or_false] at hread
    rcases hread with rfl | rfl | rfl | rfl | rfl | rfl | rfl
    all_goals exact mayRead hintent (by decide) (by decide) (forDevice_of_get? hdevice rfl)
  refine Governs.bind (governs_readAll htoken (by rw [hintent]; decide) hreads)
    fun responses ys hys => ?_
  split
  · exact governs_failureResponse hys.2
  · rename_i hfailed
    apply governs_report (by rw [hintent]; decide) hys.2
    intro response hresponse
    exact reports_diagnosisFrom (by rw [hintent]; decide) (well_of_firstFailed hfailed) hresponse

theorem handles_findProcedure (hintent : intent.intent = .findProcedure)
    (htoken : A.TokenFor intent userAuthToken authToken) :
    A.Handles message intent userAuthToken (A.findProcedure message intent authToken route) := by
  have hreads : ∀ errorCode, ∀ read ∈ procedureReads message errorCode, MayRead intent read := by
    intro errorCode read hread
    simp only [procedureReads, List.mem_cons, List.not_mem_nil, or_false] at hread
    rcases hread with rfl | rfl
    all_goals exact mayRead hintent (by decide) (by decide) (forDevice_of_none rfl)
  unfold Handles findProcedure
  refine Governs.bind (governs_readAll htoken (by rw [hintent]; decide) (hreads _))
    fun responses ys hys => ?_
  split
  · exact governs_failureResponse hys.2
  · rename_i hfailed
    apply governs_report (by rw [hintent]; decide) hys.2
    intro response hresponse
    exact reports_procedureFrom (by rw [hintent]; decide) (well_of_firstFailed hfailed) hresponse

/-- A write that the intent may ask for. -/
structure MayWrite (A : AiEngineeringAgent) (message : String) (intent : Intent)
    (plan : ToolCallPlan) : Prop where
  tool : plan.toolName ∈ intent.intent.tools
  writes : plan.toolName ∈ writeTools
  approval : plan.approvalId =
    if intent.intent = .executeApprovedRestart then intent.approvalId else none
  approved : intent.intent = .executeApprovedRestart → plan.approvalId ≠ none
  key : ∃ deviceId, intent.deviceId = some deviceId ∧
    plan.arguments.get? "device_id" = some (.str deviceId) ∧
    plan.idempotencyKey = A.writeKey message deviceId intent.intent plan.arguments

/-- A write after reads that were all well. -/
theorem permitted_of_write {plan : ToolCallPlan} {request : GatewayToolRequest}
    {xs : List AgentCall} {responses : List GatewayToolResponse}
    (htoken : A.TokenFor intent userAuthToken plan.authToken)
    (hplan : A.MayWrite message intent plan) (hrequest : plan.Asks request) (hxs : OnlyReads xs)
    (hanswered : Answered xs responses) (hwell : ∀ r ∈ responses, r.ok = true) :
    A.Permitted message intent userAuthToken request xs := by
  obtain ⟨deviceId, hdevice, hargument, hkey⟩ := hplan.key
  exact
    { tool := by
        rw [hrequest.toolName]
        exact hplan.tool
      token := by
        -- a request is never made with an empty token
        have hne : plan.authToken ≠ "" := by
          intro hempty
          have hlength := request.authToken_length
          rw [hrequest.authToken, hempty] at hlength
          simp at hlength
        unfold TokenFor at htoken
        rw [if_neg hne] at htoken
        exact hrequest.authToken.trans htoken
      device := by
        rw [hrequest.arguments]
        exact forDevice_of_get? hdevice hargument
      approval := hrequest.approvalId.trans hplan.approval
      approved := by
        rw [hrequest.approvalId]
        exact hplan.approved
      afterReads := by
        intro _ x hx
        obtain ⟨r, hr, hanswer⟩ := Traversal.exists_of_forall₂ hanswered hx
        exact ⟨r, hanswer, hwell r (List.mem_reverse.mp hr)⟩
      beforeWrite := hxs
      key := by
        intro _
        refine ⟨deviceId, hdevice, ?_⟩
        rw [hrequest.idempotencyKey, hrequest.arguments]
        exact hkey }

/-- A write, and the report on it. -/
theorem governs_write (report : GatewayToolResponse → Except AgentFailure AgentResponse)
    {plan : ToolCallPlan} {xs : List AgentCall} {responses : List GatewayToolResponse}
    (htoken : A.TokenFor intent userAuthToken plan.authToken)
    (hplan : A.MayWrite message intent plan) (hxs : OnlyReads xs)
    (hanswered : Answered xs responses) (hwell : ∀ r ∈ responses, r.ok = true)
    (hreport : ∀ answer response, (∀ r ∈ responses ++ [answer], r.ok = true) →
      report answer = .ok response → A.Reports intent.intent (responses ++ [answer]) response) :
    Governs (A.Permitted message intent userAuthToken)
      (fun response ys => A.Truthful intent ys response)
      (callPlan plan >>= fun answer =>
        if !answer.ok then
          .ofExcept (A.failureResponse intent.intent (responses ++ [answer]) answer route)
        else .ofExcept (report answer)) xs := by
  refine Governs.bind (governs_callPlan fun request hrequest =>
    permitted_of_write htoken hplan hrequest hxs hanswered hwell) fun answer ys hys => ?_
  obtain ⟨request, hrequest, rfl⟩ := hys
  have hanswered' := hanswered.cons request answer
  split
  · exact governs_failureResponse hanswered'
  · rename_i hok
    apply governs_ofExcept
    intro response hresponse
    have hall : ∀ r ∈ responses ++ [answer], r.ok = true := by
      intro r hr
      rcases List.mem_append.mp hr with hr | hr
      · exact hwell r hr
      · rw [List.mem_singleton.mp hr]
        simpa using hok
    -- the last answer is the one to the write
    refine (hreport answer response hall hresponse).truthful hanswered' fun _ _ => ?_
    refine ⟨_, _, rfl, ?_⟩
    rw [hrequest.toolName]
    exact hplan.writes

theorem handles_createTicket (hintent : intent.intent = .createTicket)
    (htoken : A.TokenFor intent userAuthToken authToken) :
    A.Handles message intent userAuthToken (A.createTicket message intent authToken route) := by
  unfold Handles createTicket
  refine Governs.bind governs_requireDevice fun deviceId ys hys => ?_
  obtain ⟨hdevice, rfl⟩ := hys
  have hreads : ∀ read ∈ ticketReads deviceId, MayRead intent read := by
    intro read hread
    simp only [ticketReads, List.mem_cons, List.not_mem_nil, or_false] at hread
    rcases hread with rfl | rfl
    all_goals exact mayRead hintent (by decide) (by decide) (forDevice_of_get? hdevice rfl)
  refine Governs.bind (governs_readAll htoken (by rw [hintent]; decide) hreads)
    fun diagnostics ys hys => ?_
  obtain ⟨hys, hanswered⟩ := hys
  split
  · exact governs_failureResponse hanswered
  · -- every read was answered well, so the ticket is opened
    rename_i hfailed
    have hmay : A.MayWrite message intent
        (A.ticketPlan message deviceId authToken diagnostics) := by
      refine ⟨?_, List.mem_cons_self, ?_, ?_, deviceId, hdevice, rfl, ?_⟩
      · rw [hintent]
        show "create_ticket" ∈ AgentIntent.createTicket.tools
        decide
      · rw [hintent]
        rfl
      · rw [hintent]
        intro h
        cases h
      · rw [hintent]
        rfl
    apply governs_write (fun ticket =>
      A.ticketFrom intent.intent deviceId route (diagnostics ++ [ticket]) ticket) htoken hmay hys
      hanswered (well_of_firstFailed hfailed)
    intro ticket response hwell hresponse
    exact reports_ticketFrom (by rw [hintent]; decide) hwell hresponse

/-- The restart is a write of the intents that restart. -/
theorem mayWrite_restartPlan {deviceId serviceName key : String} {approvalId : Option UUID}
    (htool : "restart_service" ∈ intent.intent.tools) (hdevice : intent.deviceId = some deviceId)
    (happroval : approvalId =
      if intent.intent = .executeApprovedRestart then intent.approvalId else none)
    (happroved : intent.intent = .executeApprovedRestart → approvalId ≠ none)
    (hkey : A.idempotency [key, deviceId, serviceName] = A.writeKey message deviceId intent.intent
      (A.restartPlan key deviceId serviceName authToken approvalId).arguments) :
    A.MayWrite message intent (A.restartPlan key deviceId serviceName authToken approvalId) :=
  ⟨htool, List.mem_cons_of_mem _ List.mem_cons_self, happroval, happroved, deviceId, hdevice, rfl,
    hkey⟩

theorem handles_requestRestart (hintent : intent.intent = .requestServiceRestart)
    (htoken : A.TokenFor intent userAuthToken authToken) :
    A.Handles message intent userAuthToken (A.requestRestart intent authToken route) := by
  unfold Handles requestRestart
  refine Governs.bind governs_requireDevice fun deviceId ys hys => ?_
  obtain ⟨hdevice, rfl⟩ := hys
  have hreads : ∀ read ∈ restartReads deviceId, MayRead intent read := by
    intro read hread
    simp only [restartReads, List.mem_cons, List.not_mem_nil, or_false] at hread
    rcases hread with rfl | rfl
    all_goals exact mayRead hintent (by decide) (by decide) (forDevice_of_get? hdevice rfl)
  refine Governs.bind (governs_readAll htoken (by rw [hintent]; decide) hreads)
    fun discovery ys hys => ?_
  obtain ⟨hys, hanswered⟩ := hys
  split
  · exact governs_failureResponse hanswered
  · rename_i hfailed
    -- which service is restarted does not matter here
    refine Governs.bind (governs_ofExcept fun serviceName _ => (rfl : ys = ys))
      fun serviceName zs hzs => ?_
    subst hzs
    apply governs_write (fun restart => A.restartRequestFrom intent.intent deviceId serviceName
      route (discovery ++ [restart]) restart) htoken ?_ hys hanswered (well_of_firstFailed hfailed)
    · intro restart response hwell hresponse
      rw [hintent] at hresponse ⊢
      exact reports_restartRequestFrom hwell hresponse
    · apply mayWrite_restartPlan _ hdevice
      · rw [hintent]
        rfl
      · rw [hintent]
        intro h
        cases h
      · rw [hintent]
        rfl
      · rw [hintent]
        decide

theorem handles_executeApprovedRestart (hintent : intent.intent = .executeApprovedRestart)
    (htoken : A.TokenFor intent userAuthToken authToken) :
    A.Handles message intent userAuthToken (A.executeApprovedRestart intent authToken route) := by
  unfold Handles executeApprovedRestart
  refine Governs.bind governs_requireDevice fun deviceId ys hys => ?_
  obtain ⟨hdevice, rfl⟩ := hys
  split
  · apply governs_pure
    have hreports : A.Reports intent.intent [] (approvalMissing intent.intent route) :=
      .of_failed rfl rfl rfl rfl rfl
    refine hreports.truthful answered_nil fun h => ?_
    cases h
  · rename_i approvalId happroval
    apply governs_write (fun answer => A.executedFrom intent.intent deviceId _ route answer)
      htoken ?_ (fun x hx => by cases hx) answered_nil (fun r hr => by cases hr)
    · intro answer response hwell hresponse
      exact reports_executedFrom (by rw [hintent]; decide) (hwell answer (by simp)) hresponse
    · apply mayWrite_restartPlan _ hdevice
      · rw [if_pos hintent]
        exact happroval.symm
      · intro _ h
        cases h
      · rw [hintent]
        rfl
      · rw [hintent]
        decide

theorem tokenFor_of_reads (h : intent.intent.writes = false) :
    A.TokenFor intent userAuthToken
      ((userAuthToken.filter (· ≠ "")).getD A.diagnosticAuthToken) := by
  simp [TokenFor, callToken, h]

theorem tokenFor_of_writes (h : intent.intent.writes = true) :
    A.TokenFor intent userAuthToken
      ((userAuthToken.filter (· ≠ "")).getD A.operationAuthToken) := by
  simp [TokenFor, callToken, h]

theorem governs_handle (message : String) (userAuthToken : Option String) :
    A.Handles message (A.provider.understandIntent message) userAuthToken
      (A.handle message userAuthToken) := by
  unfold handle
  dsimp only
  -- each handler gets the token that belongs to its intent
  split
  · rename_i hintent
    exact handles_answerQuestion hintent (tokenFor_of_reads (by rw [hintent]; decide))
  · rename_i hintent
    exact handles_diagnoseUnhealthy hintent (tokenFor_of_reads (by rw [hintent]; decide))
  · rename_i hintent
    exact handles_findProcedure hintent (tokenFor_of_reads (by rw [hintent]; decide))
  · rename_i hintent
    exact handles_createTicket hintent (tokenFor_of_writes (by rw [hintent]; decide))
  · rename_i hintent
    exact handles_requestRestart hintent (tokenFor_of_writes (by rw [hintent]; decide))
  · rename_i hintent
    exact handles_executeApprovedRestart hintent (tokenFor_of_writes (by rw [hintent]; decide))
  · rename_i hintent
    apply governs_pure
    refine Reports.truthful (.of_failed hintent.symm rfl rfl rfl ?_) answered_nil fun h => ?_
    · rw [hintent]
      rfl
    · cases h

end Handlers

/-- In every interleaving each agent's calls are permitted, and what is left to do for its
message promises the rest. -/
theorem interleave_handle {κ σ ι : Type} [DecidableEq κ] (S : System agentInterface σ ι) (s : σ)
    (schedule : List (κ × ι)) (agents : κ → AiEngineeringAgent) (messages : κ → String)
    (userAuthTokens : κ → Option String) (c : κ) :
    let pool := fun c => (agents c).handle (messages c) (userAuthTokens c)
    let ended := interleave S pool schedule (Run.start s)
    let intent := (agents c).provider.understandIntent (messages c)
    Governed ((agents c).Permitted (messages c) intent (userAuthTokens c))
        (agentCalls (own c ended.2.past)) ∧
      (ended.1 c).Emits (fun _ => True)
        (fun done => Governed ((agents c).Permitted (messages c) intent (userAuthTokens c))
          (agentCalls done))
        (fun res done => ∀ response, res = .ok response →
          (agents c).Truthful intent (agentCalls done) response)
        (own c ended.2.past) := by
  intro pool ended intent
  have hpool : ∀ c, (pool c).Emits (fun _ => True)
      (fun done => Governed ((agents c).Permitted (messages c)
        ((agents c).provider.understandIntent (messages c)) (userAuthTokens c)) (agentCalls done))
      (fun res done => ∀ response, res = .ok response → (agents c).Truthful
        ((agents c).provider.understandIntent (messages c)) (agentCalls done) response)
      (own c (Run.start s : Run agentInterface κ σ).past) :=
    fun c => governs_handle _ _ [] rfl governed_nil
  have hall := interleave_emits_rest (S := S) (fun _ => True) (fun _ _ _ _ => trivial)
    (fun _ _ _ _ _ _ _ => trivial) schedule pool trivial (fun c => governed_nil) hpool
  exact hall.2 c

/-- However the calls of any number of agents interleave, and whatever the gateway and the
providers answer, each agent calls only what its message permits, and what it returns is true of
the calls that it has made. -/
theorem handle_governed {κ σ ι : Type} [DecidableEq κ] (S : System agentInterface σ ι) (s : σ)
    (schedule : List (κ × ι)) (agents : κ → AiEngineeringAgent) (messages : κ → String)
    (userAuthTokens : κ → Option String) (c : κ) :
    let pool := fun c => (agents c).handle (messages c) (userAuthTokens c)
    let ended := interleave S pool schedule (Run.start s)
    let calls := agentCalls (own c ended.2.past)
    let intent := (agents c).provider.understandIntent (messages c)
    Governed ((agents c).Permitted (messages c) intent (userAuthTokens c)) calls ∧
      ∀ response, ended.1 c = .pure response → (agents c).Truthful intent calls response := by
  intro pool ended calls intent
  obtain ⟨hgoverned, hrest⟩ := interleave_handle S s schedule agents messages userAuthTokens c
  refine ⟨hgoverned, fun response hresponse => ?_⟩
  rw [show (interleave S pool schedule (Run.start s)).1 c = .pure response from hresponse] at hrest
  exact hrest response rfl

end AiEngineeringAgent

end McpOps
