import McpOps.Gateway.RecordHistory

/-!
# What a call does, step by step

The two decisive operations of the gateway are approving a record and dispatching a governed tool.
`ApproveOk` and `DispatchOk` say what the state must be like, and what the call must carry, when
one of them is performed by a call that runs by itself; `serve_keeps` says that every call
respects them, whatever its surroundings answer and wherever it stops.

## Strategy

Most of a call is `Plain`: it neither reserves, nor checks a status, nor does one of the two
decisive things.  A procedure of plain operations keeps every step in order (`keeps_of_plain`), so
the parts of a call need no more than the operations they use.

What is left is the path of a governed tool.

* `_approval_for_request` returns a record only when it is approved and matches
  (`approvalForRequest_keeps`, with `of_checkBinding` for the comparisons).
* From there to the dispatch nothing happens to the approvals (`Cleared`, which plain steps keep),
  as the call runs by itself.
* So dispatching is in order (`inOrder_dispatch`), and so is approving after the check of the
  principal (`inOrder_approve`).

`session_inOrder` is the sequence of calls.
-/

namespace McpOps

open Proc

/-! ## Rules for the invariant logic -/

section Rules

variable {σ ι κ ε α β : Type} {S : System gatewayInterface σ ι} {c : κ}
  {inv : Run gatewayInterface κ σ → Prop} {r : Run gatewayInterface κ σ}

theorem keeps_perform {post : Except ε β → Run gatewayInterface κ σ → Prop} {o : GatewayOp}
    {f : o.Ans → GatewayM ε β} :
    (perform o >>= f).Keeps S c inv post r ↔ ∀ i, inv (r.perform S c o i) ∧
      (f (S.answer o i r.state).1).Keeps S c inv post (r.perform S c o i) := Iff.rfl

theorem keeps_liftGateway {post : Except Exn β → Run gatewayInterface κ σ → Prop}
    {res : Except GatewayError α} {f : α → GatewayM Exn β}
    (herror : ∀ e, res = .error e → post (.error (.gateway e)) r)
    (hok : ∀ a, res = .ok a → (f a).Keeps S c inv post r) :
    (liftGateway res >>= f).Keeps S c inv post r := by
  cases res with
  | error e => exact herror e rfl
  | ok a => exact hok a rfl

theorem keeps_raiseOther {post : Except Exn β → Run gatewayInterface κ σ → Prop}
    {raised : Option (String × String)} {f : Unit → GatewayM Exn β}
    (herror : ∀ cls message, raised = some (cls, message) →
      post (.error (.other cls message)) r)
    (hok : raised = none → (f ()).Keeps S c inv post r) :
    (raiseOther raised >>= f).Keeps S c inv post r := by
  cases raised with
  | some raised => exact herror _ _ rfl
  | none => exact hok rfl

theorem keeps_liftExn {post : Except Exn β → Run gatewayInterface κ σ → Prop}
    {res : Except Exn α} {f : α → GatewayM Exn β}
    (herror : ∀ e, res = .error e → post (.error e) r)
    (hok : ∀ a, res = .ok a → (f a).Keeps S c inv post r) :
    (liftExn res >>= f).Keeps S c inv post r := by
  cases res with
  | error e => exact herror e rfl
  | ok a => exact hok a rfl

end Rules

section Checks

variable {G : McpGateway} {request : GatewayToolRequest} {metadata : ToolMetadata}
  {arguments : PyDict} {approval : ApprovalRecord}

/-- What `_approval_for_request` has established when its comparisons pass. -/
theorem of_checkBinding (h : G.checkBinding request metadata arguments approval = .ok ()) :
    approval.toolName = metadata.toolName ∧ approval.arguments.pyEq arguments ∧
      (approval.workflowId = none ∨ approval.workflowId = request.workflowId) ∧
      (approval.workflowNodeId = none ∨ approval.workflowNodeId = request.workflowNodeId) := by
  unfold McpGateway.checkBinding at h
  by_cases htool : approval.toolName ≠ metadata.toolName ∨ approval.arguments.pyEq arguments = false
  · simp [htool] at h
  · rw [not_or, not_not, Bool.not_eq_false] at htool
    simp only [htool.1, htool.2, ne_eq, not_true_eq_false, Bool.true_eq_false, or_self,
      if_false] at h
    split at h
    · cases h
    · split at h
      · cases h
      · rename_i hworkflow
        split at h
        · cases h
        · rename_i hnode
          exact ⟨htool.1, htool.2, by tauto, by tauto⟩

end Checks

section Calls

variable {A : Type} {G : McpGateway} {B : ApprovalBackend A}

/-- A step of a call. -/
abbrev CallStep (A : Type) := Step gatewayInterface GatewayCall (GatewayState A)

/-- A run of calls, one after another. -/
abbrev CallRun (A : Type) := Run gatewayInterface GatewayCall (GatewayState A)

/-- Only an `approve_operation` approves, for a principal that may do so and has not asked
for the approval itself. -/
def ApproveOk (G : McpGateway) (B : ApprovalBackend A) (d : CallStep A) : Prop :=
  ∀ id approver now, d.op = .approvals (.approve id approver now) →
    ∃ token, d.caller = .approveOperation token id ∧ G.authenticate token = .ok approver ∧
      hasPermission approver.role .approvalsApprove ∧ approver.principalType ≠ .aiAgent ∧
      ∀ rec, (B.ledger d.before.approvals).record id = some rec →
        approver.principalId ≠ rec.requesterId

/-- Only a `call_tool` dispatches a governed tool, and it does so while the record it names is
approved and matches it, just as when it checked the status. -/
def DispatchOk (G : McpGateway) (B : ApprovalBackend A) (older : List (CallStep A))
    (d : CallStep A) : Prop :=
  ∀ metadata arguments, d.op = .dispatch metadata arguments → metadata.requiresApproval →
    ∃ request principal id rec, d.caller = .callTool request ∧
      G.authenticate request.authToken = .ok principal ∧
      arguments = McpGateway.trustedDomainArguments
        (stripUntrustedModelFields request.arguments) principal metadata ∧
      request.approvalId = some id ∧ (B.ledger d.before.approvals).record id = some rec ∧
      rec.status = .approved ∧
      G.checkBinding request metadata (stripUntrustedModelFields request.arguments) rec = .ok () ∧
      ∃ e ∈ older, e.caller = d.caller ∧ e.op = .checkStatus rec ∧
        e.before.approvals = d.before.approvals

/-- Every step of the past was in order when it was made. -/
def InOrder (G : McpGateway) (B : ApprovalBackend A) (r : CallRun A) : Prop :=
  ∀ d older, d :: older <:+ r.past → ApproveOk G B d ∧ DispatchOk G B older d

theorem InOrder.approveOk {r : CallRun A} (hr : InOrder G B r) {d : CallStep A}
    (hd : d ∈ r.past) : ApproveOk G B d := by
  obtain ⟨newer, older, hpast⟩ := List.append_of_mem hd
  exact (hr d older ⟨newer, hpast.symm⟩).1

/-- The operations other than approving and dispatching. -/
def Quiet : GatewayOp → Prop
  | .approvals (.approve ..) => False
  | .dispatch .. => False
  | _ => True

theorem inOrder_perform {r : CallRun A} {c : GatewayCall} {o : GatewayOp} {i : Env}
    (hr : InOrder G B r)
    (hnew : ApproveOk G B ⟨c, o, ((gatewaySystem G B).answer o i r.state).1, r.state,
        ((gatewaySystem G B).answer o i r.state).2⟩ ∧
      DispatchOk G B r.past ⟨c, o, ((gatewaySystem G B).answer o i r.state).1, r.state,
        ((gatewaySystem G B).answer o i r.state).2⟩) :
    InOrder G B (r.perform (gatewaySystem G B) c o i) := by
  intro d older hd
  rcases List.suffix_cons_iff.mp hd with heq | hd
  · cases heq
    exact hnew
  · exact hr d older hd

theorem inOrder_quiet {r : CallRun A} {c : GatewayCall} {o : GatewayOp} {i : Env}
    (ho : Quiet o) (hr : InOrder G B r) : InOrder G B (r.perform (gatewaySystem G B) c o i) := by
  refine inOrder_perform hr ⟨?_, ?_⟩
  · rintro id approver now rfl
    exact ho.elim
  · rintro metadata arguments rfl
    exact ho.elim

/-- The operations that settle nothing about a call: neither a reservation, nor a status
check, nor one of the two decisive ones. -/
def Plain : GatewayOp → Prop
  | .approvals (.approve ..) => False
  | .dispatch .. => False
  | .reserve .. => False
  | .checkStatus .. => False
  | _ => True

theorem Plain.quiet {o : GatewayOp} (ho : Plain o) : Quiet o := by
  cases o with
  | approvals ao => cases ao <;> exact ho
  | dispatch => exact ho
  | _ => trivial

/-- A procedure of plain operations keeps every step in order. -/
theorem keeps_of_plain {ε α : Type} {p : GatewayM ε α} (hp : p.Uses Plain) {r : CallRun A}
    {c : GatewayCall} (hr : InOrder G B r) :
    p.Keeps (gatewaySystem G B) c (InOrder G B) (fun _ => InOrder G B) r :=
  hp.keeps (fun _ _ _ ho hr => inOrder_quiet ho.quiet hr) hr

/-! ## Finding governed dispatches -/

/-- A dispatch of a tool that needs an approval. -/
def GatewayOp.governed : GatewayOp → Bool
  | .dispatch metadata _ => metadata.requiresApproval
  | _ => false

/-- A governed dispatch of the past, with the steps before it. -/
theorem exists_governed {κ : Type} (past : List (Step gatewayInterface κ (GatewayState A)))
    (p : Step gatewayInterface κ (GatewayState A) → Bool)
    (h : past.any (fun d => d.op.governed && p d) = true) :
    ∃ d older metadata arguments, d :: older <:+ past ∧ p d ∧
      d.op = .dispatch metadata arguments ∧ metadata.requiresApproval := by
  obtain ⟨d, hd, hgoverned⟩ := List.any_eq_true.mp h
  rw [Bool.and_eq_true] at hgoverned
  obtain ⟨newer, older, rfl⟩ := List.append_of_mem hd
  obtain ⟨c, o, answer, before, after⟩ := d
  cases o with
  | dispatch metadata arguments =>
      exact ⟨_, older, metadata, arguments, List.suffix_append .., hgoverned.2, rfl, hgoverned.1⟩
  | _ => cases hgoverned.1

/-! ## Plain parts of a call -/

section PlainParts

variable {ε α : Type} {request : GatewayToolRequest} {principal : Principal}
  {metadata : ToolMetadata} {arguments : PyDict}

theorem uses_clock : (clock : GatewayM ε Time).Uses Plain := uses_perform (by trivial)

theorem uses_success {decision : GatewayDecision} {data : PyDict}
    {approvalStatus : Option ApprovalStatus} {executionStatus : String} :
    (G.success request principal metadata decision data approvalStatus executionStatus).Uses
      Plain :=
  uses_clock.bind fun _ => (uses_raiseOther _).bind fun _ =>
    (uses_perform (by trivial)).bind fun _ => trivial

theorem uses_failure {metadata : Option ToolMetadata} {exc : GatewayError} :
    (G.failure request principal metadata exc).Uses Plain :=
  uses_clock.bind fun _ => (uses_raiseOther _).bind fun _ =>
    (uses_perform (by trivial)).bind fun _ => trivial

theorem uses_requestApproval {now : Time} :
    (G.requestApproval request principal metadata arguments now).Uses Plain :=
  (uses_raiseOther _).bind fun _ => (uses_perform (by trivial)).bind fun _ =>
    (uses_perform (by trivial)).bind fun _ => (uses_perform (by trivial)).bind fun _ => uses_success

theorem uses_recordExecution {result : DispatchResult} (approval : Option ApprovalRecord) :
    (McpGateway.recordExecution principal result approval).Uses Plain := by
  cases approval with
  | none => trivial
  | some approval =>
      exact uses_clock.bind fun _ => (uses_perform (by trivial)).bind fun _ =>
        (uses_liftGateway _).bind fun _ => trivial

theorem uses_reportedStatus (approval : Option ApprovalRecord) :
    (McpGateway.reportedStatus approval).Uses Plain := by
  cases approval with
  | none => trivial
  | some approval => exact (uses_perform (by trivial)).bind fun _ => trivial

theorem uses_checkRequest {now : Time} :
    (G.checkRequest principal metadata arguments now).Uses Plain :=
  (uses_liftExn _).bind fun _ => (uses_liftExn _).bind fun _ => (uses_liftExn _).bind fun _ =>
    (uses_perform (by trivial)).bind fun _ => (uses_liftExn _).bind fun _ => uses_liftExn _

theorem uses_handleFailure (f : McpGateway.CallFailure) :
    (G.handleFailure request f).Uses Plain := by
  unfold McpGateway.handleFailure
  split
  · trivial
  · refine uses_failure.bind fun _ => ?_
    split
    · exact uses_clock.bind fun _ => (uses_perform (by trivial)).bind fun _ => trivial
    · trivial

end PlainParts

/-! ## The decisive parts -/

/-- The record that the request of `c` names is approved and matches it, and nothing has
happened to the approvals since `c` checked that. -/
def Cleared (G : McpGateway) (B : ApprovalBackend A) (c : GatewayCall)
    (request : GatewayToolRequest) (metadata : ToolMetadata) (r : CallRun A) : Prop :=
  ∃ id rec, request.approvalId = some id ∧ (B.ledger r.state.approvals).record id = some rec ∧
    rec.status = .approved ∧
    G.checkBinding request metadata (stripUntrustedModelFields request.arguments) rec = .ok () ∧
    ∃ e ∈ r.past, e.caller = c ∧ e.op = .checkStatus rec ∧ e.before.approvals = r.state.approvals

/-- A step that leaves the approvals alone leaves the request cleared. -/
theorem Cleared.perform {c : GatewayCall} {request : GatewayToolRequest}
    {metadata : ToolMetadata} {r : CallRun A} (h : Cleared G B c request metadata r)
    {o : GatewayOp} {i : Env}
    (ho : ((gatewaySystem G B).answer o i r.state).2.approvals = r.state.approvals) :
    Cleared G B c request metadata (r.perform (gatewaySystem G B) c o i) := by
  obtain ⟨id, rec, hid, hrec, hstatus, hbinding, e, he, hcaller, hop, hbefore⟩ := h
  refine ⟨id, rec, hid, ?_, hstatus, hbinding, e, List.mem_cons_of_mem _ he, hcaller, hop, ?_⟩
  · rw [Run.perform_state, ho, hrec]
  · rw [Run.perform_state, ho, hbefore]

section CallTool

variable {request : GatewayToolRequest} {principal : Principal} {metadata : ToolMetadata}
  {c : GatewayCall} {r : CallRun A}

/-- `_approval_for_request` returns a record only when it is approved and matches. -/
theorem approvalForRequest_keeps {now : Time} (hr : InOrder G B r) :
    (G.approvalForRequest request metadata (stripUntrustedModelFields request.arguments) now).Keeps
      (gatewaySystem G B) c (InOrder G B)
      (fun res r => InOrder G B r ∧ ∀ approval, res = .ok (some approval) →
        Cleared G B c request metadata r) r := by
  unfold McpGateway.approvalForRequest
  split
  · exact ⟨hr, fun _ h => by cases h⟩
  · exact ⟨hr, fun _ h => by cases h⟩
  · rename_i id _ hid
    refine keeps_perform.mpr fun env => ?_
    have hr₁ : InOrder G B (r.perform (gatewaySystem G B) c (.approvals (.get id now)) env) :=
      inOrder_quiet trivial hr
    refine ⟨hr₁, keeps_liftGateway (fun e _ => ⟨hr₁, fun _ h => by cases h⟩)
      fun approval hgot => ?_⟩
    -- the record that was got is in the store
    have hget : (_, _) = (B.ledger r.state.approvals).get id now :=
      B.refines (.get id now) env.freshId r.state.approvals
    obtain ⟨hrec, hsame, -, -⟩ := Ledger.get_ok (hget.symm.trans (Prod.ext hgot rfl))
    refine keeps_raiseOther (fun _ _ _ => ⟨hr₁, fun _ h => by cases h⟩) fun _ => ?_
    refine keeps_liftGateway (fun e _ => ⟨hr₁, fun _ h => by cases h⟩) fun _ hbinding => ?_
    refine keeps_perform.mpr fun env₂ => ⟨inOrder_quiet trivial hr₁, ?_⟩
    have hstored : (B.ledger (B.answer (.get id now) env.freshId r.state.approvals).2).record
        approval.approvalId = some approval := by
      rw [hsame, (B.ledger r.state.approvals).keyed id approval hrec, hrec]
    split
    · rename_i hstatus
      refine ⟨inOrder_quiet trivial hr₁, fun _ _ => ⟨id, approval, hid, ?_, ?_, hbinding,
        _, List.mem_cons_self .., rfl, rfl, rfl⟩⟩
      · exact (congrArg (Ledger.record · id) hsame).trans hrec
      · exact (B.status_stored approval _ hstored).symm.trans hstatus
    · refine keeps_perform.mpr fun env₃ => ⟨?_, ?_, fun _ h => by cases h⟩
      · exact inOrder_quiet trivial (inOrder_quiet trivial hr₁)
      · exact inOrder_quiet trivial (inOrder_quiet trivial hr₁)

/-- Dispatching the tool of a cleared request is in order. -/
theorem inOrder_dispatch {env : Env} (hr : InOrder G B r) (hc : c = .callTool request)
    (hauth : G.authenticate request.authToken = .ok principal)
    (hcleared : metadata.requiresApproval → Cleared G B c request metadata r) :
    InOrder G B (r.perform (gatewaySystem G B) c (.dispatch metadata
      (McpGateway.trustedDomainArguments (stripUntrustedModelFields request.arguments) principal
        metadata)) env) := by
  refine inOrder_perform hr ⟨fun _ _ _ h => (by cases h), ?_⟩
  intro metadata' arguments' hop hgoverned
  cases hop
  obtain ⟨id, rec, hid, hrec, hstatus, hbinding, hchecked⟩ := hcleared hgoverned
  exact ⟨request, principal, id, rec, hc, hauth, rfl, hid, hrec, hstatus, hbinding, hchecked⟩

theorem executeTool_keeps {approval : Option ApprovalRecord} (hr : InOrder G B r)
    (hc : c = .callTool request) (hauth : G.authenticate request.authToken = .ok principal)
    (hcleared : metadata.requiresApproval → Cleared G B c request metadata r) :
    (G.executeTool request principal metadata (stripUntrustedModelFields request.arguments)
      approval).Keeps (gatewaySystem G B) c (InOrder G B) (fun _ => InOrder G B) r := by
  have hrun : (G.runTool request principal metadata
      (stripUntrustedModelFields request.arguments)).Keeps (gatewaySystem G B) c (InOrder G B)
      (fun _ => InOrder G B) r := by
    refine keeps_perform.mpr fun env => ⟨inOrder_quiet trivial hr, ?_⟩
    refine keeps_perform.mpr fun env₂ =>
      ⟨inOrder_quiet trivial (inOrder_quiet trivial hr), keeps_perform.mpr fun env₃ => ?_⟩
    -- the approvals are as they were when the request was cleared
    have hstill := fun hgoverned => ((hcleared hgoverned).perform (o := .clock) (i := env)
      rfl).perform (o := .markRunning principal request.idempotencyKey env.clock) (i := env₂) rfl
    refine ⟨?_, keeps_of_plain ((uses_liftExn _).bind fun _ => by split <;> trivial) ?_⟩ <;>
      exact inOrder_dispatch (inOrder_quiet trivial (inOrder_quiet trivial hr)) hc hauth hstill
  refine Procedure.keeps_tryCatch.mpr (hrun.imp hr fun res r' _ hr' => ?_)
  cases res with
  | ok result => exact hr'
  | error exn =>
      refine keeps_of_plain ?_ hr'
      dsimp only
      split
      · exact uses_clock.bind fun _ => (uses_perform (by trivial)).bind fun _ =>
          (uses_liftGateway _).bind fun _ => trivial
      · trivial

theorem callReserved_keeps {now : Time} (hr : InOrder G B r) (hc : c = .callTool request)
    (hauth : G.authenticate request.authToken = .ok principal) :
    (G.callReserved request principal metadata (stripUntrustedModelFields request.arguments)
      now).Keeps (gatewaySystem G B) c (InOrder G B) (fun _ => InOrder G B) r := by
  refine Procedure.keeps_bind.mpr ((approvalForRequest_keeps hr).imp hr fun res r' _ hres => ?_)
  obtain ⟨hr', happroval⟩ := hres
  cases res with
  | error exn => exact hr'
  | ok approval =>
      dsimp only [Procedure.andThen]
      split
      · exact keeps_of_plain uses_requestApproval hr'
      · rename_i hgo
        -- a governed call goes on only with a record
        have hcleared : metadata.requiresApproval → Cleared G B c request metadata r' := by
          intro hgoverned
          cases approval with
          | none => exact absurd ⟨hgoverned, rfl⟩ hgo
          | some approval => exact happroval approval rfl
        refine Procedure.keeps_bind.mpr ((executeTool_keeps hr' hc hauth hcleared).imp hr'
          fun res r'' _ hr'' => ?_)
        cases res with
        | error exn => exact hr''
        | ok result =>
            refine keeps_of_plain ?_ hr''
            exact (uses_recordExecution _).bind fun _ => (uses_reportedStatus _).bind fun _ =>
              uses_success.bind fun _ => uses_clock.bind fun _ =>
                (uses_perform (by trivial)).bind fun _ => trivial


theorem callBody_keeps {now : Time} (hr : InOrder G B r) :
    (G.callBody request now).Keeps (gatewaySystem G B) (.callTool request) (InOrder G B)
      (fun _ => InOrder G B) r := by
  -- a part whose errors only get the local variables added
  have hmap : ∀ {α β : Type} {p : GatewayM Exn α} {f : α → GatewayM McpGateway.CallFailure β}
      {locals : Exn → McpGateway.CallFailure} {r : CallRun A},
      p.Keeps (gatewaySystem G B) (.callTool request) (InOrder G B)
        (fun res r => InOrder G B r ∧ ∀ a, res = .ok a → (f a).Keeps (gatewaySystem G B)
          (.callTool request) (InOrder G B) (fun _ => InOrder G B) r) r → InOrder G B r →
      (p.mapError locals >>= f).Keeps (gatewaySystem G B) (.callTool request) (InOrder G B)
        (fun _ => InOrder G B) r := by
    intro α β p f locals r hp hr
    refine Procedure.keeps_bind.mpr (Procedure.keeps_tryCatch.mpr (hp.imp hr ?_))
    rintro (exn | a) r - ⟨hr, hok⟩
    · exact hr
    · exact hok a rfl
  refine hmap ?_ hr
  cases hauth : G.authenticate request.authToken with
  | error e => exact ⟨hr, fun _ h => by cases h⟩
  | ok principal =>
      refine ⟨hr, fun _ h => ?_⟩
      cases h
      refine hmap ?_ hr
      cases G.metadata request.toolName with
      | error e => exact ⟨hr, fun _ h => by cases h⟩
      | ok metadata =>
          refine ⟨hr, fun _ h => ?_⟩
          cases h
          refine hmap ((keeps_of_plain uses_checkRequest hr).imp hr fun _ r hr _ =>
            ⟨hr, fun _ _ => ?_⟩) hr
          have hreserve : (perform (.reserve principal request.idempotencyKey now) >>=
              liftGateway : GatewayM Exn (Option GatewayToolResponse)).Keeps (gatewaySystem G B)
                (.callTool request) (InOrder G B) (fun _ => InOrder G B) r :=
            keeps_perform.mpr fun env => ⟨inOrder_quiet trivial hr,
              keeps_of_plain (uses_liftGateway _) (inOrder_quiet trivial hr)⟩
          refine hmap (hreserve.imp hr fun _ r hr _ => ⟨hr, fun replay _ => ?_⟩) hr
          cases replay with
          | some response => exact hr
          | none =>
              refine Procedure.keeps_tryCatch.mpr ((callReserved_keeps hr rfl hauth).imp hr ?_)
              rintro (exn | response) r - hr
              · exact hr
              · exact hr

theorem callTool_keeps (request : GatewayToolRequest) (hr : InOrder G B r) :
    (G.callTool request).Keeps (gatewaySystem G B) (.callTool request) (InOrder G B)
      (fun _ => InOrder G B) r := by
  refine keeps_perform.mpr fun env => ⟨inOrder_quiet trivial hr, ?_⟩
  have hr₁ := inOrder_quiet (c := .callTool request) (o := .clock) (i := env) trivial hr
  refine Procedure.keeps_tryCatch.mpr ((callBody_keeps hr₁).imp hr₁ ?_)
  rintro (failure | response) r - hr
  · exact keeps_of_plain (uses_handleFailure failure) hr
  · exact hr

end CallTool

/-! ## Approving -/

theorem deniedOnError_keeps {id : UUID} {p : GatewayM Exn GatewayToolResponse} {c : GatewayCall}
    {r : CallRun A} (hp : p.Keeps (gatewaySystem G B) c (InOrder G B) (fun _ => InOrder G B) r)
    (hr : InOrder G B r) :
    (McpGateway.deniedOnError id p).Keeps (gatewaySystem G B) c (InOrder G B)
      (fun _ => InOrder G B) r := by
  refine Procedure.keeps_tryCatch.mpr (hp.imp hr ?_)
  rintro (exn | response) r - hr
  · cases exn <;> exact hr
  · exact hr

/-- Approving for an authorized principal is in order. -/
theorem inOrder_approve {token : String} {id : UUID} {approver : Principal} {now : Time}
    {env : Env} {r : CallRun A} (hr : InOrder G B r) (hauth : G.authenticate token = .ok approver)
    (hperm : hasPermission approver.role .approvalsApprove)
    (hai : approver.principalType ≠ .aiAgent)
    (hself : ∀ rec, (B.ledger r.state.approvals).record id = some rec →
      approver.principalId ≠ rec.requesterId) :
    InOrder G B (r.perform (gatewaySystem G B) (.approveOperation token id)
      (.approvals (.approve id approver now)) env) := by
  refine inOrder_perform hr ⟨?_, fun _ _ h => (by cases h)⟩
  intro id' approver' now' hop
  cases hop
  exact ⟨token, rfl, hauth, hperm, hai, hself⟩

theorem approveOperation_keeps (token : String) (id : UUID) {r : CallRun A}
    (hr : InOrder G B r) :
    (G.approveOperation token id).Keeps (gatewaySystem G B) (.approveOperation token id)
      (InOrder G B) (fun _ => InOrder G B) r := by
  refine keeps_perform.mpr fun env => ⟨inOrder_quiet trivial hr, ?_⟩
  have hr₁ := inOrder_quiet (c := .approveOperation token id) (o := .clock) (i := env) trivial hr
  refine deniedOnError_keeps (keeps_liftGateway (fun _ _ => hr₁) fun principal hauth => ?_) hr₁
  refine keeps_perform.mpr fun env₂ => ⟨inOrder_quiet trivial hr₁, ?_⟩
  have hr₂ := inOrder_quiet (c := .approveOperation token id)
    (o := .approvals (.get id env.clock)) (i := env₂) trivial hr₁
  refine keeps_liftGateway (fun _ _ => hr₂) fun approval hgot => ?_
  refine keeps_liftExn (fun _ _ => hr₂) fun _ hauthorized => ?_
  -- what was authorized is the record that `approve` will find
  have hget : (_, _) = (B.ledger r.state.approvals).get id env.clock :=
    B.refines (.get id env.clock) env₂.freshId r.state.approvals
  obtain ⟨hrec, hsame, -, -⟩ := Ledger.get_ok (hget.symm.trans (Prod.ext hgot rfl))
  have hkey : approval.approvalId = id := (B.ledger r.state.approvals).keyed id approval hrec
  obtain ⟨hperm, hai, hself⟩ := GatewayAuthorizer.of_authorizeApproval hauthorized
  have hself' : ∀ rec, (B.ledger (B.answer (.get id env.clock) env₂.freshId
      r.state.approvals).2).record id = some rec → principal.principalId ≠ rec.requesterId := by
    intro rec hrec'
    rw [hsame, hrec] at hrec'
    cases hrec'
    exact hself
  rw [hkey]
  refine keeps_perform.mpr fun env₃ => ⟨?_, keeps_of_plain ?_ ?_⟩
  · exact inOrder_approve hr₂ hauth hperm hai hself'
  · exact (uses_liftGateway _).bind fun _ => trivial
  · exact inOrder_approve hr₂ hauth hperm hai hself'

/-- Every call keeps the past in order. -/
theorem serve_keeps (call : GatewayCall) (r : CallRun A) (hr : InOrder G B r) :
    (G.serve call).Keeps (gatewaySystem G B) call (InOrder G B) (fun _ _ => True) r := by
  have hkeeps : (G.serve call).Keeps (gatewaySystem G B) call (InOrder G B)
      (fun _ => InOrder G B) r := by
    cases call with
    | callTool request => exact callTool_keeps request hr
    | approveOperation token id => exact approveOperation_keeps token id hr
    | rejectOperation token id reason =>
        refine keeps_perform.mpr fun env => ⟨inOrder_quiet trivial hr, deniedOnError_keeps ?_ ?_⟩
        · refine keeps_of_plain ?_ (inOrder_quiet trivial hr)
          exact (uses_liftGateway _).bind fun _ => (uses_perform (by trivial)).bind fun _ =>
            (uses_liftGateway _).bind fun _ => (uses_liftExn _).bind fun _ =>
              (uses_perform (by trivial)).bind fun _ => (uses_liftGateway _).bind fun _ => trivial
        · exact inOrder_quiet trivial hr
    | listApprovals token =>
        refine keeps_perform.mpr fun env => ⟨inOrder_quiet trivial hr, deniedOnError_keeps ?_ ?_⟩
        · refine keeps_of_plain ?_ (inOrder_quiet trivial hr)
          exact (uses_liftGateway _).bind fun _ => (uses_liftExn _).bind fun _ =>
            (uses_perform (by trivial)).bind fun _ => trivial
        · exact inOrder_quiet trivial hr
    | getApproval token id =>
        refine keeps_perform.mpr fun env => ⟨inOrder_quiet trivial hr, deniedOnError_keeps ?_ ?_⟩
        · refine keeps_of_plain ?_ (inOrder_quiet trivial hr)
          exact (uses_liftGateway _).bind fun _ => (uses_liftExn _).bind fun _ =>
            (uses_perform (by trivial)).bind fun _ => (uses_liftGateway _).bind fun _ => trivial
        · exact inOrder_quiet trivial hr
  exact hkeeps.imp hr fun _ _ _ _ => trivial

/-- In every sequence of calls, each approval and each governed dispatch is in order. -/
theorem session_inOrder (calls : List (GatewayCall × List Env)) (s : GatewayState A) :
    InOrder G B (session (gatewaySystem G B) G.serve calls (Run.start s)) :=
  session_invariant serve_keeps calls fun _ _ hd => absurd (List.eq_nil_of_suffix_nil hd) (by simp)

end Calls

end McpOps
