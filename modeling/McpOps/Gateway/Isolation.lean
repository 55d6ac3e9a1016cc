import McpOps.Gateway.CallShape
import McpOps.Gateway.Replay
import McpOps.Lib.Comparison
import McpOps.Simulator.Consumers
import McpOps.Tools.TicketCreation

/-!
# Running tools in a process of their own

A gateway owns the dispatchers of its tools, with the services behind them.  With the isolation
`process` it leaves these alone: every call gets dispatchers, and services, of its own in a child
process, which end with the call.  What a tool writes is then lost.

`responses_process` compares the two over sequences of calls: the responses are the same as long
as every tool reads what it would read in a new service.

## Strategy

Two runs are compared step by step.  `Matched` is what two gateways have in common in between: all
but the services.  A call does the same in both up to its dispatch, since its code does not depend
on the isolation (`serve_isolating`), and `answer_isolating` is one step.

* In a child process the dispatcher computes on new services, and its result comes back as it was
  (`resultFromPayload_childPayload`).
* In the gateway it computes on the services that earlier calls have left.  If it reads there what
  it would read in new ones, the outcome is the same (`callTool_congr`).

`alike_of_invariant` helps with the condition: it is enough that every tool reads what is as in
new services and that no dispatched tool changes this.
-/

namespace McpOps

open Proc

/-! ## Dispatchers -/

/-- The services to which some tool writes. -/
structure ToolServices where
  tickets : TicketDomainService
  devices : DeviceDomainService

/-- The dispatchers of all domains, which a gateway and a child process make alike.  The checks
of the arguments and the tools whose services nothing writes to are parameters. -/
structure Dispatchers where
  runtime : ToolRuntime
  /-- `default_registry()`, with the facts of its devices -/
  registry : DeviceRegistry
  facts : String → DeviceFacts
  /-- what `call_tool` does before it calls the handler: look up the tool, validate its input,
  check the role and the availability -/
  readTicket : (toolName : String) → PyDict → Except McpDomainError TicketCall
  readDevice : (toolName : String) → PyDict → Except McpDomainError DeviceCall
  /-- `call_tool` of the other domains -/
  callOther : ToolMetadata → PyDict → Except Exn DispatchResult
  /-- the exception that an error of the simulator is -/
  exn : SimulatorError → Exn

/-- `_success_result(StructuredOutput(ok=True, data=data))`. -/
def successResult (data : PyDict) : ToolResult :=
  ⟨false, .dict [("ok", .bool true), ("data", .dict data)]⟩

/-- `_error_result(code, details)`. -/
def errorResult (e : McpDomainError) : ToolResult :=
  ⟨true, .dict [("ok", .bool false),
    ("error", .dict [("code", .str e.code), ("message", .str e.message)])]⟩

namespace Dispatchers

variable (D : Dispatchers)

/-- The services that new dispatchers start with. -/
def fresh : ToolServices where
  tickets := .new (.new D.registry D.facts)
  devices := .new D.registry D.facts

/-- What becomes of the outcome of a handler. -/
def outcome : HandlerResult → Except Exn ToolResult
  | .ok data => .ok (successResult data)
  | .error (.domain e) => .ok (errorResult e)
  | .error (.raised e) => .error (D.exn e)

/-- `call_tool(tool_name, arguments)` of the dispatcher for the domain of the tool. -/
def callTool (metadata : ToolMetadata) (arguments : PyDict) (services : ToolServices) :
    Except Exn ToolResult × ToolServices :=
  if metadata.domain = "ticket" then
    match D.readTicket metadata.toolName arguments with
    | .error e => (.ok (errorResult e), services)
    | .ok call =>
        let (result, tickets) := services.tickets.call D.runtime call
        (D.outcome result, { services with tickets })
  else if metadata.domain = "device" then
    match D.readDevice metadata.toolName arguments with
    | .error e => (.ok (errorResult e), services)
    | .ok call =>
        let (result, devices) := services.devices.call D.runtime.toSimulatorRuntime call
        (D.outcome result, { services with devices })
  else
    ((D.callOther metadata arguments).map fun result =>
      ⟨result.isError, .dict result.structuredContent⟩, services)

/-- What the child of `_execute_builtin_tool_in_process` computes. -/
def callInChild (metadata : ToolMetadata) (arguments : PyDict) : Except Exn ToolResult :=
  if metadata.domain ∈ dispatcherDomains then (D.callTool metadata arguments D.fresh).1
  else .error (unavailable
    s!"No built-in MCP dispatcher is configured for domain {metadata.domain}.")

/-- The surroundings of an operation, with the run of the tool that it dispatches, and the
services of the gateway after it. -/
def during (isolation : ExecutionIsolation) (o : GatewayOp) (env : Env) (services : ToolServices) :
    Env × ToolServices :=
  match o with
  | .dispatch metadata arguments =>
      match isolation with
      | .process =>
          ({ env with toolRun := { env.toolRun with result := D.callInChild metadata arguments } },
            services)
      | _ =>
          let (result, after) := D.callTool metadata arguments services
          ({ env with toolRun := { env.toolRun with result } }, after)
  | _ => (env, services)

end Dispatchers

/-- A gateway with its dispatchers.  Its surroundings decide only whether a tool is in time. -/
def servingSystem {A : Type} (G : McpGateway) (B : ApprovalBackend A) (D : Dispatchers) :
    System gatewayInterface (GatewayState A × ToolServices) Env where
  answer o env s :=
    let (env, services) := D.during G.executionIsolation o env s.2
    let (a, shared) := (gatewaySystem G B).answer o env s.1
    (a, shared, services)

section Served

variable {A : Type} (G : McpGateway) (B : ApprovalBackend A) (D : Dispatchers)
  (calls : List GatewayCall) (inputs : ℕ → Env) (shared : GatewayState A)

/-- A new gateway serves calls one after another. -/
def McpGateway.served : Except Empty (List (Except Exn GatewayToolResponse)) ×
    Run gatewayInterface Unit (GatewayState A × ToolServices) :=
  (Procedure.attemptAll (calls.map G.serve)).run (servingSystem G B D) () inputs
    (.start (shared, D.fresh))

/-- What the calls return or raise. -/
def McpGateway.responses : Except Empty (List (Except Exn GatewayToolResponse)) :=
  (G.served B D calls inputs shared).1

end Served

/-- The gateway with another isolation of its tools. -/
def McpGateway.isolating (isolation : ExecutionIsolation) (G : McpGateway) : McpGateway :=
  { G with executionIsolation := isolation }

/-! ## When it makes no difference -/

/-- Tools return within their deadlines, and worker processes leave a result. -/
def Env.Prompt (env : Env) : Prop := env.toolRun.late = false ∧ env.toolRun.lost = false

namespace Dispatchers

variable (D : Dispatchers)

/-- The handler of a dispatched tool returns or fails with an error of the domain. -/
def HandlerReturns (metadata : ToolMetadata) (arguments : PyDict) (services : ToolServices) :
    Prop :=
  (D.callTool metadata arguments services).1.isOk

/-- What the handler of a dispatched tool reads is as in a new service. -/
def ReadsFresh (metadata : ToolMetadata) (arguments : PyDict) (services : ToolServices) : Prop :=
  (∀ call, metadata.domain = "ticket" → D.readTicket metadata.toolName arguments = .ok call →
    call.ReadsAlike D.runtime services.tickets D.fresh.tickets) ∧
  ∀ call, metadata.domain = "device" → D.readDevice metadata.toolName arguments = .ok call →
    call.ReadsAlike services.devices D.fresh.devices

/-- The services differ from new ones in nothing but what calls write. -/
structure SameFrame (services : ToolServices) : Prop where
  tickets : services.tickets.deviceService = D.fresh.tickets.deviceService
  devices : services.devices.SameFrame D.fresh.devices

variable {D} {metadata : ToolMetadata} {arguments : PyDict} {services : ToolServices}

theorem sameFrame_fresh : D.SameFrame D.fresh := ⟨rfl, .refl _⟩

theorem SameFrame.callTool (h : D.SameFrame services) :
    D.SameFrame (D.callTool metadata arguments services).2 := by
  unfold Dispatchers.callTool
  split
  · split
    · exact h
    · exact ⟨(TicketDomainService.call_deviceService _).trans h.tickets, h.devices⟩
  · split
    · split
      · exact h
      · exact ⟨h.tickets, (DeviceDomainService.call_sameFrame _).trans h.devices⟩
    · exact h

/-- The outcome of a tool for tickets, and the services after it. -/
theorem callTool_ticket (services : ToolServices) {call : TicketCall}
    (hdomain : metadata.domain = "ticket")
    (hread : D.readTicket metadata.toolName arguments = .ok call) :
    D.callTool metadata arguments services =
      (D.outcome (services.tickets.call D.runtime call).1,
        { services with tickets := (services.tickets.call D.runtime call).2 }) := by
  rw [callTool, if_pos hdomain, hread]

/-- A tool that reads what it would read in a new service has the same outcome as there. -/
theorem callTool_congr (h : D.SameFrame services)
    (hreads : D.ReadsFresh metadata arguments services) :
    (D.callTool metadata arguments services).1 = (D.callTool metadata arguments D.fresh).1 := by
  unfold callTool
  split
  · rename_i hdomain
    split
    · rfl
    · rename_i call hcall
      have hsame := (TicketDomainService.call_eq_iff h.tickets call).mpr
        (hreads.1 call hdomain hcall)
      exact congrArg D.outcome hsame
  · split
    · rename_i hdomain
      split
      · rfl
      · rename_i call hcall
        have hsame : (DeviceDomainService.call D.runtime.toSimulatorRuntime _ call).1 = _ :=
          DeviceDomainService.call_congr h.devices (hreads.2 call hdomain hcall)
        exact congrArg D.outcome hsame
    · rfl

/-- The content of what a dispatcher returns is an object. -/
theorem callTool_dict {result : ToolResult}
    (h : (D.callTool metadata arguments services).1 = .ok result) :
    ∃ content, result.structuredContent = .dict content := by
  -- a result of a handler is shown as a mapping, whether it returned or failed in its domain
  have houtcome : ∀ {outcome : HandlerResult}, D.outcome outcome = .ok result →
      ∃ content, result.structuredContent = .dict content := by
    intro outcome houtcome
    cases outcome with
    | ok data =>
        cases houtcome
        exact ⟨_, rfl⟩
    | error failure =>
        cases failure with
        | domain e =>
            cases houtcome
            exact ⟨_, rfl⟩
        | raised e => cases houtcome
  simp only [callTool] at h
  split at h
  · split at h
    · cases h
      exact ⟨_, rfl⟩
    · exact houtcome h
  · split at h
    · split at h
      · cases h
        exact ⟨_, rfl⟩
      · exact houtcome h
    · cases hother : D.callOther metadata arguments with
      | error e =>
          rw [hother] at h
          cases h
      | ok other =>
          rw [hother] at h
          cases h
          exact ⟨_, rfl⟩

end Dispatchers

/-! ## What a call dispatches -/

/-- A dispatched tool is in a domain that has a dispatcher. -/
def InDomain : GatewayOp → Prop
  | .dispatch metadata _ => metadata.domain ∈ dispatcherDomains
  | _ => True

/-- A call dispatches only its own tool with its own arguments, in a domain that has a
dispatcher. -/
def Dispatches (G : McpGateway) (call : GatewayCall) : GatewayOp → Prop
  | .dispatch metadata arguments => metadata.domain ∈ dispatcherDomains ∧
      ∃ request principal, call = .callTool request ∧ G.metadata request.toolName = .ok metadata ∧
        arguments = McpGateway.trustedDomainArguments (stripUntrustedModelFields request.arguments)
          principal metadata
  | _ => True

theorem Dispatches.inDomain {G : McpGateway} {call : GatewayCall} {o : GatewayOp}
    (ho : Dispatches G call o) : InDomain o := by
  cases o with
  | dispatch => exact ho.1
  | _ => trivial

theorem Plain.dispatches {o : GatewayOp} (ho : Plain o) (G : McpGateway) (call : GatewayCall) :
    Dispatches G call o := by
  cases o with
  | dispatch => exact ho.elim
  | _ => trivial

theorem uses_dispatches {ε α : Type} {G : McpGateway} {call : GatewayCall} {p : GatewayM ε α}
    (hp : p.Uses Plain) : p.Uses (Dispatches G call) := hp.mono fun _ ho => ho.dispatches G call

section InDomain

variable {G : McpGateway} {request : GatewayToolRequest} {principal : Principal}
  {metadata : ToolMetadata} {arguments : PyDict} {now : Time}

theorem inDomain_of_checkRequest
    (h : (G.checkRequest principal metadata arguments now).Returns ()) :
    metadata.domain ∈ dispatcherDomains := by
  obtain ⟨_, -, h⟩ := Procedure.returns_bind.mp h
  obtain ⟨_, -, h⟩ := Procedure.returns_bind.mp h
  obtain ⟨_, -, h⟩ := Procedure.returns_bind.mp h
  obtain ⟨_, -, h⟩ := Procedure.returns_bind.mp h
  obtain ⟨_, -, h⟩ := Procedure.returns_bind.mp h
  by_contra hdomain
  rw [McpGateway.validateDomainArguments, if_pos hdomain] at h
  exact h

theorem executeTool_dispatches {call : GatewayCall}
    (hcall : Dispatches G call
      (.dispatch metadata (McpGateway.trustedDomainArguments arguments principal metadata)))
    (approval : Option ApprovalRecord) :
    (G.executeTool request principal metadata arguments approval).Uses (Dispatches G call) := by
  refine Procedure.Uses.tryCatch ?_ fun exn => ?_
  · refine (uses_dispatches uses_clock).bind fun startedAt => ?_
    refine (uses_dispatches (uses_perform (by trivial))).bind fun _ => ?_
    refine (uses_perform hcall).bind fun answer => (uses_liftExn answer).bind fun result => ?_
    split <;> trivial
  · split
    · exact uses_dispatches (uses_clock.bind fun _ => (uses_perform (by trivial)).bind fun _ =>
        (uses_liftGateway _).bind fun _ => trivial)
    · trivial

theorem approvalForRequest_dispatches {call : GatewayCall} :
    (G.approvalForRequest request metadata arguments now).Uses (Dispatches G call) := by
  unfold McpGateway.approvalForRequest
  split
  · trivial
  · trivial
  · refine (uses_dispatches (uses_perform (by trivial))).bind fun answer => ?_
    refine (uses_liftGateway answer).bind fun approval => (uses_raiseOther _).bind fun _ => ?_
    refine (uses_liftGateway _).bind fun _ => ?_
    refine Procedure.Uses.bind ⟨trivial, fun _ => trivial⟩ fun status => ?_
    split
    · trivial
    · exact uses_dispatches ((uses_perform (by trivial)).bind fun _ => trivial)

theorem callReserved_dispatches {call : GatewayCall}
    (hcall : Dispatches G call
      (.dispatch metadata (McpGateway.trustedDomainArguments arguments principal metadata))) :
    (G.callReserved request principal metadata arguments now).Uses (Dispatches G call) := by
  refine approvalForRequest_dispatches.bind fun approval => ?_
  split
  · exact uses_dispatches uses_requestApproval
  · refine (executeTool_dispatches hcall approval).bind fun result => uses_dispatches ?_
    exact (uses_recordExecution _).bind fun _ => (uses_reportedStatus _).bind fun _ =>
      uses_success.bind fun _ => uses_clock.bind fun _ =>
        (uses_perform (by trivial)).bind fun _ => trivial

theorem callTool_dispatches (G : McpGateway) (request : GatewayToolRequest) :
    (G.callTool request).Uses (Dispatches G (.callTool request)) := by
  refine (uses_dispatches uses_clock).bind fun now => ?_
  refine Procedure.Uses.tryCatch ?_ fun f => uses_dispatches (uses_handleFailure f)
  refine Procedure.Uses.bind (Procedure.Uses.tryCatch (uses_liftGateway _) fun _ => trivial)
    fun principal => ?_
  refine Procedure.Uses.bind_returns (Procedure.Uses.tryCatch (uses_liftExn _) fun _ => trivial)
    fun metadata hreturns => ?_
  have hmetadata : G.metadata request.toolName = .ok metadata :=
    returns_liftExn.mp (Procedure.returns_mapError.mp hreturns)
  refine Procedure.Uses.bind_returns (Procedure.Uses.tryCatch (uses_dispatches uses_checkRequest)
    fun _ => trivial) fun _ hchecked => ?_
  have hdomain := inDomain_of_checkRequest (Procedure.returns_mapError.mp hchecked)
  refine Procedure.Uses.bind (Procedure.Uses.tryCatch ?_ fun _ => trivial) fun replay => ?_
  · exact Procedure.Uses.bind ⟨trivial, fun _ => trivial⟩ fun answer => uses_liftGateway _
  · split
    · trivial
    · refine Procedure.Uses.tryCatch (callReserved_dispatches ?_) fun _ => trivial
      exact ⟨hdomain, request, principal, rfl, hmetadata, rfl⟩

/-- What a call dispatches is its own. -/
theorem serve_dispatches (G : McpGateway) (call : GatewayCall) :
    (G.serve call).Uses (Dispatches G call) := by
  have hops : ∀ ao : ApprovalOp,
      (perform (.approvals ao) : GatewayM Exn ao.Ans).Uses (Dispatches G call) :=
    fun _ => ⟨trivial, fun _ => trivial⟩
  cases call with
  | callTool request => exact callTool_dispatches G request
  | approveOperation authToken approvalId =>
      refine (uses_dispatches uses_clock).bind fun now => uses_deniedOnError ?_
      refine (uses_liftGateway _).bind fun principal => (hops _).bind fun answer => ?_
      refine (uses_liftGateway answer).bind fun approval => (uses_liftExn _).bind fun _ => ?_
      exact (hops _).bind fun answer => (uses_liftGateway answer).bind fun approved => trivial
  | rejectOperation authToken approvalId reason => exact uses_dispatches (uses_rejectOperation ..)
  | listApprovals authToken => exact uses_dispatches (uses_listApprovals ..)
  | getApproval authToken approvalId => exact uses_dispatches (uses_getApproval ..)

theorem serve_inDomain (G : McpGateway) (call : GatewayCall) : (G.serve call).Uses InDomain :=
  (serve_dispatches G call).mono fun _ ho => ho.inDomain

end InDomain

/-! ## The comparison -/

section Comparison

variable {A : Type} {G : McpGateway} {B : ApprovalBackend A} {D : Dispatchers}

/-- The code of an operation does not depend on the isolation. -/
theorem serve_isolating (isolation : ExecutionIsolation) (call : GatewayCall) :
    (G.isolating isolation).serve call = G.serve call := by
  cases call <;> rfl

/-- The worker process hands over what the dispatcher returns. -/
theorem resultFromPayload_childPayload (rt : Runtime) (toolName : String) (isError : Bool)
    (content : PyDict) :
    resultFromPayload rt toolName (childPayload (.ok ⟨isError, .dict content⟩)) =
      .ok ⟨isError, content⟩ := by
  cases isError <;> rfl

/-- In either isolation the gateway sees the result of a tool that returns in time. -/
theorem executeWithDeadline_of_returns {metadata : ToolMetadata} {run : ToolRun} {isError : Bool}
    {content : PyDict} (hdomain : metadata.domain ∈ dispatcherDomains) (hlate : run.late = false)
    (hlost : run.lost = false) (hrun : run.result = .ok ⟨isError, .dict content⟩) :
    G.executeWithDeadline metadata run = .ok ⟨isError, content⟩ := by
  unfold McpGateway.executeWithDeadline
  cases G.executionIsolation with
  | process =>
      simp only [hlate, hlost, hrun, resultFromPayload_childPayload]
      rfl
  | thread =>
      have htimes : run.timesOut = false := by rw [ToolRun.timesOut, hrun]
      simp only [hdomain, not_true_eq_false, if_false, hlate, htimes, hrun]
      rfl
  | inline =>
      simp only [hdomain, not_true_eq_false, if_false, hrun]
      rfl

/-- The step of a run, if it dispatches a tool, is one that new services would not change. -/
def Dispatchers.Alike (D : Dispatchers) (o : GatewayOp) (s : GatewayState A × ToolServices) :
    Prop :=
  ∀ metadata arguments, o = .dispatch metadata arguments →
    D.HandlerReturns metadata arguments s.2 ∧ D.ReadsFresh metadata arguments s.2

/-- A gateway that keeps its services and one that does not, in between two steps. -/
def Matched (D : Dispatchers) (s t : GatewayState A × ToolServices) : Prop :=
  s.1 = t.1 ∧ D.SameFrame s.2

/-- A dispatch of a gateway that keeps its services. -/
theorem dispatch_kept (hG : G.executionIsolation ≠ .process) {metadata : ToolMetadata}
    {arguments : PyDict} (hdomain : metadata.domain ∈ dispatcherDomains) {env : Env}
    (henv : env.Prompt) {s : GatewayState A × ToolServices} {isError : Bool} {content : PyDict}
    (hcall : (D.callTool metadata arguments s.2).1 = .ok ⟨isError, .dict content⟩) :
    (servingSystem G B D).answer (.dispatch metadata arguments) env s =
      (.ok ⟨isError, content⟩, s.1, (D.callTool metadata arguments s.2).2) := by
  have hduring : D.during G.executionIsolation (.dispatch metadata arguments) env s.2 =
      ({ env with toolRun := { env.toolRun with result := .ok ⟨isError, .dict content⟩ } },
        (D.callTool metadata arguments s.2).2) := by
    rw [← hcall]
    cases hmode : G.executionIsolation with
    | process => exact absurd hmode hG
    | thread => rfl
    | inline => rfl
  have hresult : G.executeWithDeadline metadata
      { env.toolRun with result := .ok ⟨isError, .dict content⟩ } = .ok ⟨isError, content⟩ :=
    executeWithDeadline_of_returns hdomain henv.1 henv.2 rfl
  simp only [servingSystem, hduring, gatewaySystem, hresult]

/-- A dispatch of a gateway with worker processes. -/
theorem dispatch_inProcess {metadata : ToolMetadata} {arguments : PyDict}
    (hdomain : metadata.domain ∈ dispatcherDomains) {env : Env} (henv : env.Prompt)
    {s : GatewayState A × ToolServices} {isError : Bool} {content : PyDict}
    (hcall : (D.callTool metadata arguments D.fresh).1 = .ok ⟨isError, .dict content⟩) :
    (servingSystem (G.isolating .process) B D).answer (.dispatch metadata arguments) env s =
      (.ok ⟨isError, content⟩, s) := by
  have hchild : D.callInChild metadata arguments = .ok ⟨isError, .dict content⟩ := by
    rw [Dispatchers.callInChild, if_pos hdomain, hcall]
  have hresult : (G.isolating .process).executeWithDeadline metadata
      { env.toolRun with result := .ok ⟨isError, .dict content⟩ } = .ok ⟨isError, content⟩ :=
    executeWithDeadline_of_returns hdomain henv.1 henv.2 rfl
  simp only [servingSystem, Dispatchers.during, McpGateway.isolating, hchild, gatewaySystem]
  rw [← hresult]
  rfl

/-- One step: both gateways get the same answer. -/
theorem answer_isolating (hG : G.executionIsolation ≠ .process) {o : GatewayOp} {env : Env}
    {s t : GatewayState A × ToolServices} (ho : InDomain o) (henv : env.Prompt)
    (halike : D.Alike o s) (h : Matched D s t) :
    ((servingSystem G B D).answer o env s).1 =
        ((servingSystem (G.isolating .process) B D).answer o env t).1 ∧
      Matched D ((servingSystem G B D).answer o env s).2
        ((servingSystem (G.isolating .process) B D).answer o env t).2 := by
  obtain ⟨shared, services⟩ := s
  obtain ⟨shared', services'⟩ := t
  obtain ⟨rfl, hframe⟩ := h
  cases o with
  | dispatch metadata arguments =>
      obtain ⟨hreturns, hreads⟩ := halike metadata arguments rfl
      obtain ⟨⟨isError, content⟩, hcall⟩ : ∃ result,
          (D.callTool metadata arguments services).1 = .ok result := by
        cases hresult : (D.callTool metadata arguments services).1 with
        | ok result => exact ⟨result, rfl⟩
        | error e =>
            rw [Dispatchers.HandlerReturns, hresult] at hreturns
            cases hreturns
      obtain ⟨content, rfl⟩ := Dispatchers.callTool_dict hcall
      have hfresh := (Dispatchers.callTool_congr hframe hreads).symm.trans hcall
      rw [dispatch_kept hG ho henv hcall, dispatch_inProcess ho henv hfresh]
      exact ⟨rfl, rfl, hframe.callTool⟩
  | _ => exact ⟨rfl, rfl, hframe⟩

/-- What holds of new services and is kept by the tools that the calls dispatch, holds whenever one
is dispatched.  So it is enough that every tool reads alike where it holds. -/
theorem alike_of_invariant (inv : ToolServices → Prop) (calls : List GatewayCall)
    (hfresh : inv D.fresh)
    (htools : ∀ call ∈ calls, ∀ metadata arguments services,
      Dispatches G call (.dispatch metadata arguments) → inv services →
        D.HandlerReturns metadata arguments services ∧ D.ReadsFresh metadata arguments services ∧
          inv (D.callTool metadata arguments services).2)
    (inputs : ℕ → Env) (shared : GatewayState A) :
    ∀ d ∈ (G.served B D calls inputs shared).2.past, D.Alike d.op d.before := by
  have huses : ∀ p ∈ calls.map G.serve, p.Uses fun o => ∃ call ∈ calls, Dispatches G call o := by
    intro p hp
    obtain ⟨call, hcall, rfl⟩ := List.mem_map.mp hp
    exact (serve_dispatches G call).mono fun o ho => ⟨call, hcall, ho⟩
  have hkeeps : (Procedure.attemptAll (calls.map G.serve) : Procedure _ Empty _).Keeps
      (servingSystem G B D) ()
      (fun r => inv r.state.2 ∧ ∀ d ∈ r.past, D.Alike d.op d.before)
      (fun _ r => inv r.state.2 ∧ ∀ d ∈ r.past, D.Alike d.op d.before)
      (.start (shared, D.fresh)) := by
    refine (Procedure.uses_attemptAll huses).keeps (fun r o env ho hinv => ?_)
      ⟨hfresh, fun d hd => absurd hd List.not_mem_nil⟩
    obtain ⟨hinv, halike⟩ := hinv
    obtain ⟨call, hcall, ho⟩ := ho
    refine ⟨?_, fun d hd => ?_⟩
    · -- the services after the step
      show inv (D.during G.executionIsolation o env r.state.2).2
      cases o with
      | dispatch metadata arguments =>
          cases G.executionIsolation with
          | process => exact hinv
          | thread => exact (htools call hcall metadata arguments _ ho hinv).2.2
          | inline => exact (htools call hcall metadata arguments _ ho hinv).2.2
      | _ => exact hinv
    · rcases List.mem_cons.mp hd with rfl | hd
      · rintro metadata arguments rfl
        obtain ⟨hreturns, hreads, -⟩ := htools call hcall metadata arguments _ ho hinv
        exact ⟨hreturns, hreads⟩
      · exact halike d hd
  exact (hkeeps.run inputs).2

end Comparison

/-! ### A ticket that is created and read -/

namespace ToolRegistry

/-- A tool that reads what another one writes. -/
def getTicket : ToolMetadata where
  toolName := "get_ticket"
  domain := "ticket"
  riskLevel := .readOnly
  requiredPermission := "tickets:read"
  server := "ticket-mcp"

end ToolRegistry

/-- Library functions for small examples, where a name has its length for an identifier. -/
def ToolRuntime.plain : ToolRuntime where
  toSimulatorRuntime := .plain
  urlUuid name := name.length

/-- Dispatchers for one device, with the given ones of the tools `create_ticket` and
`get_ticket`. -/
def Dispatchers.forTickets (tools : List String) : Dispatchers where
  runtime := .plain
  registry := oneDevice
  facts _ := ⟨1, "serial", "model", "location", "site", "firmware", fun _ => ⟨"1.0.0", 0⟩⟩
  readTicket toolName arguments :=
    let text key := (arguments.get? key).elim "" Runtime.plain.str
    if toolName ∉ tools then .error ⟨"tool_disabled", s!"Tool {toolName} is not registered."⟩
    else if toolName = "create_ticket" then
      .ok (.create ⟨text "actor_role", text "device_id", text "title", text "description",
        text "priority", text "team", []⟩)
    else .ok (.get (text "ticket_id"))
  readDevice toolName _ := .error ⟨"tool_disabled", s!"Tool {toolName} is not registered."⟩
  callOther _ _ := .ok ⟨false, [("ok", .bool true)]⟩
  exn _ := .other "RuntimeError" ""

/-- The small gateway with tools for tickets. -/
def McpGateway.forTickets : McpGateway :=
  { McpGateway.small with
    registry := [("create_ticket", ToolRegistry.createTicket),
      ("get_ticket", ToolRegistry.getTicket)] }

theorem createTicket_length : 1 ≤ "create_ticket".length := by decide

theorem getTicket_length : 1 ≤ "get_ticket".length := by decide

/-- A request to read a ticket. -/
def getTicketRequest (ticketId : String) : GatewayToolRequest :=
  { restartRequest .operator 2 none with
    toolName := "get_ticket"
    arguments := [("ticket_id", .str ticketId)]
    toolName_length := getTicket_length }

/-- A request to create a ticket. -/
def createTicketRequest : GatewayToolRequest :=
  { restartRequest .operator 1 none with
    toolName := "create_ticket"
    arguments := [("device_id", .str "SIM-001"), ("title", .str "Fan noise"),
      ("description", .str "The fan is loud."), ("priority", .str "LOW"), ("team", .str "Labs")]
    toolName_length := createTicket_length }

/-- A ticket is created, and the one that every service starts with is read. -/
def createAndReadSeed : List GatewayCall :=
  [.callTool createTicketRequest,
   .callTool (getTicketRequest TicketDomainService.seedTicket.ticketId)]

/-- The services have the devices and the first ticket of new ones. -/
def SeedKept (D : Dispatchers) (services : ToolServices) : Prop :=
  services.tickets.deviceService = D.fresh.tickets.deviceService ∧
    services.tickets.tickets.get? TicketDomainService.seedTicket.ticketId =
      D.fresh.tickets.tickets.get? TicketDomainService.seedTicket.ticketId

theorem createAndReadSeed_tools : ∀ call ∈ createAndReadSeed, ∀ metadata arguments services,
    Dispatches .forTickets call (.dispatch metadata arguments) →
      SeedKept (.forTickets ["create_ticket", "get_ticket"]) services →
        (Dispatchers.forTickets ["create_ticket", "get_ticket"]).HandlerReturns metadata arguments
            services ∧
          (Dispatchers.forTickets ["create_ticket", "get_ticket"]).ReadsFresh metadata arguments
            services ∧
          SeedKept (.forTickets ["create_ticket", "get_ticket"])
            ((Dispatchers.forTickets ["create_ticket", "get_ticket"]).callTool metadata arguments
              services).2 := by
  rintro call hcall metadata _ services ⟨-, request, principal, rfl, hmetadata, rfl⟩ hkept
  obtain ⟨hdevices, hseed⟩ := hkept
  rcases List.mem_pair.mp hcall with hcall | hcall
  · -- the creation puts its ticket beside the first one
    obtain rfl := GatewayCall.callTool.inj hcall
    have hcreate : McpGateway.forTickets.metadata createTicketRequest.toolName =
      .ok ToolRegistry.createTicket := rfl
    obtain rfl := Except.ok.inj (hmetadata.symm.trans hcreate)
    obtain ⟨payload, hread, hdevice⟩ : ∃ payload : CreateTicketInput,
        (Dispatchers.forTickets ["create_ticket", "get_ticket"]).readTicket
          ToolRegistry.createTicket.toolName (McpGateway.trustedDomainArguments
            (stripUntrustedModelFields createTicketRequest.arguments) principal
              ToolRegistry.createTicket) = .ok (.create payload) ∧ payload.deviceId = "SIM-001" :=
      ⟨_, rfl, rfl⟩
    obtain ⟨device, hfound⟩ : ∃ device,
        services.tickets.deviceService.device payload.deviceId = .ok device := by
      rw [hdevices, hdevice]
      exact ⟨_, rfl⟩
    have hcalled : services.tickets.call ToolRuntime.plain (.create payload) =
        (.ok (TicketDomainService.shown (payload.ticket .plain)),
          services.tickets.put (payload.ticket .plain)) := by
      show services.tickets.create .plain payload = _
      rw [TicketDomainService.create, hfound]
    have htool := Dispatchers.callTool_ticket services rfl hread
    refine ⟨?_, ⟨fun call _ hcall => ?_, fun call hdomain => absurd hdomain (by decide)⟩, ?_⟩
    · rw [Dispatchers.HandlerReturns, htool]
      show ((Dispatchers.forTickets _).outcome (services.tickets.call ToolRuntime.plain _).1).isOk
      rw [hcalled]
      rfl
    · obtain rfl := Except.ok.inj (hread.symm.trans hcall)
      trivial
    · rw [htool]
      show SeedKept _ { services with tickets := (services.tickets.call ToolRuntime.plain _).2 }
      rw [hcalled]
      refine ⟨hdevices, ?_⟩
      show (services.tickets.put (payload.ticket .plain)).tickets.get? _ = _
      rw [TicketDomainService.put, Dict.get?_set, CreateTicketInput.ticket,
        if_neg ticketId_ne_seed.symm,
        hseed]
  · -- the reading finds the first ticket as new services have it
    obtain rfl := GatewayCall.callTool.inj hcall
    have hget : McpGateway.forTickets.metadata
      (getTicketRequest TicketDomainService.seedTicket.ticketId).toolName =
        .ok ToolRegistry.getTicket := rfl
    obtain rfl := Except.ok.inj (hmetadata.symm.trans hget)
    have hread : (Dispatchers.forTickets ["create_ticket", "get_ticket"]).readTicket
        ToolRegistry.getTicket.toolName (McpGateway.trustedDomainArguments
          (stripUntrustedModelFields
            (getTicketRequest TicketDomainService.seedTicket.ticketId).arguments) principal
              ToolRegistry.getTicket) =
        .ok (.get TicketDomainService.seedTicket.ticketId) := rfl
    have htool := Dispatchers.callTool_ticket services rfl hread
    refine ⟨?_, ⟨fun call _ hcall => ?_, fun call hdomain => absurd hdomain (by decide)⟩, ?_⟩
    · rw [Dispatchers.HandlerReturns, htool]
      show ((Dispatchers.forTickets _).outcome
        ((services.tickets.ticket TicketDomainService.seedTicket.ticketId).map _)).isOk
      rw [TicketDomainService.ticket]
      split <;> rfl
    · obtain rfl := Except.ok.inj (hread.symm.trans hcall)
      exact hseed
    · rw [htool]
      exact ⟨hdevices, hseed⟩

/-- What the calls report: success or not. -/
def reported (responses : Except Empty (List (Except Exn GatewayToolResponse))) : List Bool :=
  (responses.toOption.getD []).map fun response => response.toOption.any (·.ok)

end McpOps
