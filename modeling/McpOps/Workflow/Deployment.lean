import McpOps.Gateway.Service
import McpOps.Workflow.Service

/-!
# The engine with its gateway

`McpGatewayClient` hands a request of the engine to a gateway in the same process, so a tool call
of the engine is one whole `call_tool` of the gateway.  The state is the repository together with
the state of the gateway.

What leaves the gateway as an exception meets the handlers of the engine.  They are for three
classes and the subclasses of these, hence the lists of what the standard library has below
`ConnectionError` and `RuntimeError`; `TimeoutError` has no subclass there.  Any other exception
leaves the engine.
-/

namespace McpOps

open Proc

/-- The classes of the standard library that `except ConnectionError` catches. -/
def connectionErrors : List String :=
  ["ConnectionError", "BrokenPipeError", "ConnectionAbortedError", "ConnectionRefusedError",
    "ConnectionResetError", "RemoteDisconnected"]

/-- The classes of the standard library that `except RuntimeError` catches. -/
def runtimeErrors : List String :=
  ["RuntimeError", "NotImplementedError", "PythonFinalizationError", "RecursionError",
    "BrokenBarrierError", "BrokenExecutor", "BrokenProcessPool", "BrokenThreadPool"]

/-- What the handlers of the engine take an exception of the gateway for. -/
def ClientError.ofExn : Exn → ClientError
  | .gateway e => .other e.code e.message
  | .other cls message =>
      if cls = "TimeoutError" then .timeout message
      else if cls ∈ connectionErrors then .connection message
      else if cls ∈ runtimeErrors then .runtime message
      else .other cls message

/-- The repository and the gateway, with an approval store of states `A`. -/
structure Deployment (A : Type) where
  repository : InMemoryWorkflowRepository
  gateway : GatewayState A

/-- What an operation of the engine takes from outside: the clock reading, the id that is made,
and what a call of the gateway takes. -/
structure DeploymentEnv where
  clock : Time
  freshId : UUID
  gateway : ℕ → Env

/-- `McpGatewayClient.call_tool(request)`. -/
def McpGateway.serveClient {A : Type} (G : McpGateway) (B : ApprovalBackend A)
    (request : GatewayToolRequest) (inputs : ℕ → Env) (s : GatewayState A) :
    Except ClientError GatewayToolResponse × GatewayState A :=
  let (res, r) := (G.callTool request).run (gatewaySystem G B) () inputs (Run.start s)
  (res.mapError ClientError.ofExn, r.state)

/-- How the repository, the clock and the gateway answer the engine. -/
def deploymentSystem {A : Type} (G : McpGateway) (B : ApprovalBackend A) :
    System engineInterface (Deployment A) DeploymentEnv where
  answer o env s :=
    match o with
    | .getWorkflow workflowId => (s.repository.getWorkflow workflowId, s)
    | .saveWorkflow workflow => ((), { s with repository := s.repository.saveWorkflow workflow })
    | .saveWorkflowWithEvent workflow event =>
        ((), { s with repository := s.repository.saveWorkflowWithEvent workflow event })
    | .now => (env.clock, s)
    | .uuid4 => (env.freshId, s)
    | .callTool request =>
        let (answer, gateway) := G.serveClient B request env.gateway s.gateway
        (answer, { s with gateway })

/-! ### A deployment for small examples -/

/-- The surroundings at second `n`: a new id is `n`, and a tool succeeds in time. -/
def DeploymentEnv.at (n : ℕ) : DeploymentEnv where
  clock := seconds n
  freshId := n
  gateway _ := .at n

/-- `count` steps at second `n`. -/
def DeploymentEnv.steps (n count : ℕ) : List DeploymentEnv := List.replicate count (.at n)

end McpOps
