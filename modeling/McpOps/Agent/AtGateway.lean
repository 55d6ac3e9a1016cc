import McpOps.Agent.Governance
import McpOps.Gateway.ApprovalSafety
import McpOps.Workflow.Deployment

/-!
# Agents at a gateway

Agents talk to a gateway in the same process, and each of their calls is one whole `call_tool`.
Before each of them any other clients may have called the gateway: people who approve or reject,
other programs, callers that were abandoned on the way.

A governed tool runs for an agent only when the agent's message executes an approved restart,
under the approval that the message names, after another principal has approved that very record.

* `kept_of_interleave`: what the gateway grants is in order, whatever the agents do;
* `permitted_of_sent`: what an agent asks for is permitted, whatever the gateway does;
* `agent_dispatch_approved` joins the two.
-/

namespace McpOps

open Proc

/-! ## The gateway between agents and other clients -/

/-- What an operation of an agent takes from outside: the id that is made, the calls of other
clients before it, and what the gateway takes for it. -/
structure AgentEnv where
  freshId : UUID
  others : List (GatewayCall × List Env) := []
  gateway : ℕ → Env

/-- `call_tool(request)` for an agent, after the other clients. -/
def McpGateway.serveAgent {A : Type} (G : McpGateway) (B : ApprovalBackend A)
    (request : GatewayToolRequest) (env : AgentEnv) (r : CallRun A) :
    Except ClientError GatewayToolResponse × CallRun A :=
  let ended := (G.callTool request).run (gatewaySystem G B) (.callTool request) env.gateway
    (session (gatewaySystem G B) G.serve env.others r)
  (ended.1.mapError ClientError.ofExn, ended.2)

/-- A run to the end adds steps of the caller. -/
theorem exists_new_of_run {I : Interface} {κ σ ι ε α : Type} {S : System I σ ι} (c : κ)
    (p : Procedure I ε α) (inputs : ℕ → ι) (r : Run I κ σ) :
    ∃ newer, (p.run S c inputs r).2.past = newer ++ r.past ∧ ∀ d ∈ newer, d.caller = c := by
  induction p generalizing inputs r with
  | pure a =>
      refine ⟨[], rfl, ?_⟩
      intro d hd
      cases hd
  | raise e =>
      refine ⟨[], rfl, ?_⟩
      intro d hd
      cases hd
  | call o next ih =>
      obtain ⟨newer, hpast, hcaller⟩ := ih (S.answer o (inputs 0) r.state).1
        (fun n => inputs (n + 1)) (r.perform S c o (inputs 0))
      refine ⟨newer ++ [⟨c, o, (S.answer o (inputs 0) r.state).1, r.state,
        (S.answer o (inputs 0) r.state).2⟩], ?_, ?_⟩
      · rw [List.append_assoc]
        exact hpast
      · intro d hd
        rcases List.mem_append.mp hd with hd | hd
        · exact hcaller d hd
        · rw [List.mem_singleton.mp hd]

/-- How the gateway answers agents.  Its state is everything that has happened to it. -/
def agentSystem {A : Type} (G : McpGateway) (B : ApprovalBackend A) :
    System agentInterface (CallRun A) AgentEnv where
  answer o env r :=
    match o with
    | .uuid4 => (env.freshId, r)
    | .callTool request => G.serveAgent B request env r

/-- Agents that handle their messages at once. -/
abbrev agentsAt {A κ : Type} [DecidableEq κ] (G : McpGateway) (B : ApprovalBackend A)
    (s : GatewayState A) (agents : κ → AiEngineeringAgent) (messages : κ → String)
    (userAuthTokens : κ → Option String) (schedule : List (κ × AgentEnv)) :
    Run agentInterface κ (CallRun A) :=
  (interleave (agentSystem G B)
    (fun c => (agents c).handle (messages c) (userAuthTokens c)) schedule
    (Run.start (Run.start s))).2

section Agents

variable {A κ : Type} [DecidableEq κ] {G : McpGateway} {B : ApprovalBackend A}
  {s : GatewayState A} {agents : κ → AiEngineeringAgent} {messages : κ → String}
  {userAuthTokens : κ → Option String} {schedule : List (κ × AgentEnv)}

/-! ### What the gateway grants -/

/-- The gateway has come to where it is by its own steps, all of them in order. -/
def KeptInOrder (G : McpGateway) (B : ApprovalBackend A) (s : GatewayState A)
    (r : CallRun A) : Prop :=
  InOrder G B r ∧ Run.From (gatewaySystem G B) s r

theorem kept_start : KeptInOrder G B s (Run.start s) := by
  refine ⟨?_, .start⟩
  intro d older hd
  exact absurd (List.eq_nil_of_suffix_nil hd) (List.cons_ne_nil d older)

theorem kept_serveAgent {r : CallRun A} (hr : KeptInOrder G B s r) (request : GatewayToolRequest)
    (env : AgentEnv) : KeptInOrder G B s (G.serveAgent B request env r).2 := by
  obtain ⟨horder, hfrom⟩ := hr
  have hothers : InOrder G B (session (gatewaySystem G B) G.serve env.others r) :=
    session_invariant serve_keeps env.others horder
  have hothersFrom : Run.From (gatewaySystem G B) s
      (session (gatewaySystem G B) G.serve env.others r) := session_from G.serve env.others hfrom
  exact ⟨(callTool_keeps request hothers).run env.gateway,
    Procedure.run_from (GatewayCall.callTool request) (G.callTool request) env.gateway hothersFrom⟩

theorem kept_of_interleave :
    KeptInOrder G B s (agentsAt G B s agents messages userAuthTokens schedule).state := by
  have hstep : ∀ (r : Run agentInterface κ (CallRun A)) (c : κ) (o : AgentOp) (env : AgentEnv),
      KeptInOrder G B s r.state →
        KeptInOrder G B s (r.perform (agentSystem G B) c o env).state := by
    intro r c o env hr
    cases o with
    | uuid4 => exact hr
    | callTool request => exact kept_serveAgent hr request env
  exact interleave_invariant hstep schedule _ kept_start

/-- An approved record was approved, by a call of `approve_operation` and in time. -/
theorem exists_approvedBy {r : CallRun A} (hr : KeptInOrder G B s r) (hstart : NoApprovals B s)
    (hfresh : FreshApprovals B r.past) {d : CallStep A} {older : List (CallStep A)}
    (hd : d :: older <:+ r.past) {id : UUID} {rec : ApprovalRecord}
    (hrec : (B.ledger d.before.approvals).record id = some rec)
    (happroved : rec.status = .approved) :
    ∃ g ∈ older, ∃ approver now, ApprovedBy G id rec g approver now := by
  have hsub : older <:+ r.past := (List.suffix_cons d older).trans hd
  obtain ⟨g, hg, approver, now, hgranted⟩ := granted_of_approved (hr.2.at_step hd).1
    (hfresh.of_suffix hsub) hstart hrec happroved
  obtain ⟨approved, hevent⟩ := hgranted.op
  obtain ⟨rec₀, hrec₀, -, hsame⟩ := hgranted.before
  obtain ⟨token, hcaller, hauth, hperm, hai, hself⟩ :=
    hr.1.approveOk (hsub.subset hg) id approver now (congrArg Sigma.fst hevent)
  refine ⟨g, hg, approver, now, ⟨token, hcaller, hauth⟩, ⟨approved, hevent⟩, hai, hperm, ?_,
    hgranted.inTime⟩
  rw [hsame.requesterId]
  exact hself rec₀ hrec₀

/-! ### What an agent asks for -/

theorem exists_suffix_of_event {done : List AgentEvent} {e : AgentEvent}
    {request : GatewayToolRequest} (he : e ∈ done) (hop : e.1 = .callTool request) :
    ∃ x earlier, x :: earlier <:+ agentCalls done ∧ x.request = request := by
  induction done with
  | nil => cases he
  | cons first rest ih =>
      rcases List.mem_cons.mp he with rfl | he
      · obtain ⟨o, answer⟩ := e
        cases hop
        exact ⟨⟨request, answer⟩, agentCalls rest, List.suffix_refl _, rfl⟩
      · obtain ⟨x, earlier, hx, hrequest⟩ := ih he
        refine ⟨x, earlier, ?_, hrequest⟩
        obtain ⟨o, answer⟩ := first
        cases o with
        | uuid4 => exact hx
        | callTool other => exact hx.trans (List.suffix_cons _ _)

theorem permitted_of_sent {c : κ} {request : GatewayToolRequest}
    (hsent : ∃ e ∈ (agentsAt G B s agents messages userAuthTokens schedule).past,
      e.caller = c ∧ e.op = .callTool request) :
    ∃ earlier, (agents c).Permitted (messages c)
      ((agents c).provider.understandIntent (messages c)) (userAuthTokens c) request earlier := by
  obtain ⟨e, he, hc, hop⟩ := hsent
  have hgoverned := (AiEngineeringAgent.interleave_handle (agentSystem G B) (Run.start s) schedule
    agents messages userAuthTokens c).1
  obtain ⟨x, earlier, hx, hrequest⟩ := exists_suffix_of_event
    (mem_own.mpr ⟨e, he, hc, rfl⟩) hop
  have hpermitted := hgoverned x earlier hx
  rw [hrequest] at hpermitted
  exact ⟨earlier, hpermitted⟩

/-- The tool of an intent that executes an approved restart. -/
theorem eq_restart_of_mem_tools {name : String}
    (h : name ∈ AgentIntent.executeApprovedRestart.tools) : name = "restart_service" := by
  simpa [AgentIntent.tools, ToolSelectionPolicy.route] using h

/-- A governed tool runs for an agent's request only when the message of the agent executes an
approved restart of the device, under the record that the message names, which another principal
has approved before. -/
theorem agent_dispatch_approved (hstart : NoApprovals B s)
    (hfresh : FreshApprovals B
      (agentsAt G B s agents messages userAuthTokens schedule).state.past)
    {c : κ} {request : GatewayToolRequest}
    (hsent : ∃ e ∈ (agentsAt G B s agents messages userAuthTokens schedule).past,
      e.caller = c ∧ e.op = .callTool request)
    {d : CallStep A} {older : List (CallStep A)}
    (hd : d :: older <:+ (agentsAt G B s agents messages userAuthTokens schedule).state.past)
    (hcaller : d.caller = .callTool request) {metadata : ToolMetadata} {arguments : PyDict}
    (hop : d.op = .dispatch metadata arguments) (hgoverned : metadata.requiresApproval) :
    let intent := (agents c).provider.understandIntent (messages c)
    intent.intent = .executeApprovedRestart ∧ request.toolName = "restart_service" ∧
      ForDevice intent request.arguments ∧
      ∃ id rec, intent.approvalId = some id ∧
        (B.ledger d.before.approvals).record id = some rec ∧
        rec.toolName = metadata.toolName ∧
        rec.arguments.pyEq (stripUntrustedModelFields request.arguments) ∧
        ∃ g ∈ older, ∃ approver now, ApprovedBy G id rec g approver now := by
  intro intent
  have hkept : KeptInOrder G B s (agentsAt G B s agents messages userAuthTokens schedule).state :=
    kept_of_interleave
  obtain ⟨request', -, id, rec, hcaller', -, -, hid, hrec, happroved, hbinding, -⟩ :=
    (hkept.1 d older hd).2 metadata arguments hop hgoverned
  have hsame : request' = request := by
    rw [hcaller] at hcaller'
    cases hcaller'
    rfl
  subst hsame
  obtain ⟨earlier, hpermitted⟩ := permitted_of_sent hsent
  -- only the execution of an approved restart names an approval
  have happroval := hpermitted.approval
  rw [hid] at happroval
  have hintent : intent.intent = .executeApprovedRestart := by
    by_contra hne
    rw [if_neg hne] at happroval
    cases happroval
  rw [if_pos hintent] at happroval
  have htool : request'.toolName ∈ intent.intent.tools := hpermitted.tool
  rw [hintent] at htool
  obtain ⟨hname, hargs, -, -⟩ := of_checkBinding hbinding
  exact ⟨hintent, eq_restart_of_mem_tools htool, hpermitted.device, id, rec, happroval.symm, hrec,
    hname, hargs, exists_approvedBy hkept hstart hfresh hd hrec happroved⟩

end Agents

/-! ### An approved restart that an agent executes -/

/-- The small gateway with a service to restart. -/
def McpGateway.restarting : McpGateway :=
  { McpGateway.small with
    registry := [("restart_service",
      { ToolRegistry.restartDevice with toolName := "restart_service" })] }

/-- An agent that takes every message for the execution of the approval 5. -/
def AiEngineeringAgent.executing : AiEngineeringAgent where
  provider :=
    { understandIntent := fun _ =>
        { intent := .executeApprovedRestart, deviceId := some "dev-1", approvalId := some 5 }
      answerQuestion := fun _ _ => .answer "" }
  runtime := .plain
  floatText _ := []
  uuid5 _ := 7

theorem operatorToken_length : 8 ≤ "operator-token".length := by decide

theorem restartService_length : 1 ≤ "restart_service".length := by decide

theorem requestedRestart_key_length : 8 ≤ "restart-1".length ∧ "restart-1".length ≤ 160 := by
  decide

/-- The request that the restart is approved for. -/
def requestedRestart : GatewayToolRequest where
  authToken := "operator-token"
  toolName := "restart_service"
  arguments := (AiEngineeringAgent.executing.restartPlan "restart-request" "dev-1"
    "sensor-ingestor" "operator-token" none).arguments
  idempotencyKey := "restart-1"
  correlationId := 1
  authToken_length := operatorToken_length
  toolName_length := restartService_length
  idempotencyKey_length := requestedRestart_key_length
  workflowNodeId_length := length_of_noNode

/-- Before each call the operator asks for the restart, and an administrator approves it. -/
def executingEnv : AgentEnv where
  freshId := 9
  others := [(.callTool requestedRestart, Env.steps 5 20),
    (.approveOperation "admin-token" 5, Env.steps 6 20)]
  gateway _ := .at 7

abbrev approvedRun : CallRun ApprovalStore :=
  session (gatewaySystem .restarting ApprovalStore.backend) McpGateway.restarting.serve
    executingEnv.others (Run.start .inMemory)

abbrev executingRun : Run agentInterface Unit (CallRun ApprovalStore) :=
  agentsAt .restarting ApprovalStore.backend .inMemory (fun _ => .executing) (fun _ => "restart")
    (fun _ => some "operator-token") [((), executingEnv), ((), executingEnv)]

set_option maxRecDepth 4000 in
theorem executingRun_governed : ((executingRun.state.past.any fun d => d.op.governed && true) ∧
    FreshApprovals ApprovalStore.backend executingRun.state.past) ∧
      approvedRun.past.all fun d => !d.op.governed := by
  decide

set_option maxRecDepth 4000 in
theorem executingRun_sent : ∃ request, (∃ e ∈ executingRun.past, e.caller = () ∧
    e.op = .callTool request) ∧ executingRun.state =
      (McpGateway.restarting.serveAgent ApprovalStore.backend request executingEnv
        (Run.start .inMemory)).2 :=
  ⟨_, ⟨_, List.mem_cons_self, rfl, rfl⟩, rfl⟩

theorem agent_dispatch_approved_executing :
    ∃ d older, d :: older <:+ executingRun.state.past ∧ d.op.governed ∧
      ∃ id, ∃ g ∈ older, ∃ token, g.caller = .approveOperation token id := by
  obtain ⟨d, older, metadata, arguments, hd, -, hop, hgoverned⟩ :=
    exists_governed executingRun.state.past (fun _ => true) executingRun_governed.1.1
  obtain ⟨request, hsent, hstate⟩ := executingRun_sent
  obtain ⟨newer, hpast, hcallers⟩ := exists_new_of_run (S := gatewaySystem .restarting
    ApprovalStore.backend) (.callTool request) (McpGateway.restarting.callTool request)
    executingEnv.gateway approvedRun
  have hcaller : d.caller = .callTool request := by
    have hmem : d ∈ newer ++ approvedRun.past := by
      rw [← hpast]
      have hfound := hd.subset List.mem_cons_self
      rw [hstate] at hfound
      exact hfound
    rcases List.mem_append.mp hmem with hnew | hearlier
    · exact hcallers d hnew
    · -- nothing governed runs before the agent
      have hnone := List.all_eq_true.mp executingRun_governed.2 d hearlier
      rw [hop] at hnone
      simp [GatewayOp.governed, hgoverned] at hnone
  obtain ⟨-, -, -, id, rec, -, -, -, -, g, hg, approver, now, hby⟩ :=
    agent_dispatch_approved noApprovals_inMemory executingRun_governed.1.2 hsent hd hcaller hop
      hgoverned
  obtain ⟨token, hgcaller, -⟩ := hby.caller
  refine ⟨d, older, hd, ?_, id, g, hg, token, hgcaller⟩
  rw [hop]
  exact hgoverned

end McpOps
