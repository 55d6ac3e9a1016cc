import McpOps.Gateway.Persistence
import McpOps.Gateway.Pipeline

/-!
# Approvals and what they permit

The results on sequences of gateway calls.  A governed tool runs only under a record that another
principal has approved for just this operation, and approved before the record's deadline.
Neither the deadline nor the requester is looked at again when the approval is used.

* `governed_dispatch_approved`: every governed dispatch is preceded by the approval of the record
  that its request names.
* `governed_dispatch_approved_in_time`: that approval was given before the deadline, whichever
  store holds the record.
* `governed_dispatch_by_requester`: the dispatch is for the requester of the record, when every
  approved record that a request gets to check is the requester's own.

All three read a dispatch that is in order (`session_inOrder`) together with the history of its
record (`granted_of_approved`): a record that is approved was approved by a step of the past, and
an `approve` step comes from a principal that may do so (`approvedBy_of_approved`).  The runs at
the end use one approval after its deadline, and another for somebody else.
-/

namespace McpOps

open Proc

section Safety

variable {A : Type} {G : McpGateway} {B : ApprovalBackend A} {s : GatewayState A}

/-- The run of a sequence of calls, one after another, from the state `s`. -/
abbrev McpGateway.runCalls (G : McpGateway) (B : ApprovalBackend A) (s : GatewayState A)
    (calls : List (GatewayCall × List Env)) : CallRun A :=
  session (gatewaySystem G B) G.serve calls (Run.start s)

/-- No record has been opened yet. -/
def NoApprovals (B : ApprovalBackend A) (s : GatewayState A) : Prop :=
  ∀ id, (B.ledger s.approvals).record id = none

theorem noApprovals_inMemory : NoApprovals ApprovalStore.backend .inMemory :=
  fun _ => rfl

theorem noApprovals_sql : NoApprovals SqlAlchemyApprovalStore.backend { approvals := {} } :=
  fun _ => rfl

/-- The step of a past in which `approve_operation` approved the record `rec` of `id`, and
what is known about it. -/
structure ApprovedBy (G : McpGateway) (id : UUID) (rec : ApprovalRecord)
    (g : CallStep A) (approver : Principal) (now : Time) : Prop where
  caller : ∃ token, g.caller = .approveOperation token id ∧ G.authenticate token = .ok approver
  event : ∃ approved : ApprovalRecord, g.event = ⟨.approvals (.approve id approver now),
    (.ok approved : Except GatewayError ApprovalRecord)⟩
  notAi : approver.principalType ≠ .aiAgent
  permitted : hasPermission approver.role .approvalsApprove
  notRequester : approver.principalId ≠ rec.requesterId
  inTime : now < rec.expiresAt

/-- A record that is approved in a sequence of calls was approved by an
`approve_operation`. -/
theorem approvedBy_of_approved (hstart : NoApprovals B s) (calls : List (GatewayCall × List Env))
    (hfresh : FreshApprovals B (G.runCalls B s calls).past) {older : List (CallStep A)}
    {d : CallStep A} (hd : d :: older <:+ (G.runCalls B s calls).past) {id : UUID}
    {rec : ApprovalRecord} (hrec : (B.ledger d.before.approvals).record id = some rec)
    (happroved : rec.status = .approved) :
    ∃ g ∈ older, ∃ approver now, ApprovedBy G id rec g approver now := by
  have hrun : Run.From (gatewaySystem G B) s (G.runCalls B s calls) := session_from _ _ .start
  have hsub : older <:+ (G.runCalls B s calls).past := (List.suffix_cons d older).trans hd
  obtain ⟨g, hg, approver, now, hgranted⟩ := granted_of_approved (hrun.at_step hd).1
    (hfresh.of_suffix hsub) hstart hrec happroved
  obtain ⟨approved, hevent⟩ := hgranted.op
  obtain ⟨rec₀, hrec₀, -, hsame⟩ := hgranted.before
  obtain ⟨token, hcaller, hauth, hperm, hai, hself⟩ := (session_inOrder calls s).approveOk
    (hsub.subset hg) id approver now (congrArg Sigma.fst hevent)
  refine ⟨g, hg, approver, now, ⟨token, hcaller, hauth⟩, ⟨approved, hevent⟩, hai, hperm, ?_,
    hgranted.inTime⟩
  rw [hsame.requesterId]
  exact hself rec₀ hrec₀

/-! ## Approval safety -/

/-- Every governed dispatch is preceded by an approval of the record it names, made by
another principal that may approve and is no AI; the record is for the same tool, arguments,
workflow and node; and it has never been in a terminal status before. -/
theorem governed_dispatch_approved (hstart : NoApprovals B s)
    (calls : List (GatewayCall × List Env)) (hfresh : FreshApprovals B (G.runCalls B s calls).past)
    {older : List (CallStep A)} {d : CallStep A} (hd : d :: older <:+ (G.runCalls B s calls).past)
    {metadata : ToolMetadata} {arguments : PyDict} (hop : d.op = .dispatch metadata arguments)
    (hgoverned : metadata.requiresApproval) :
    ∃ request id rec, d.caller = .callTool request ∧ request.approvalId = some id ∧
      (B.ledger d.before.approvals).record id = some rec ∧
      (∃ g ∈ older, ∃ token approver now, ∃ approved : ApprovalRecord,
        g.caller = .approveOperation token id ∧ G.authenticate token = .ok approver ∧
        g.event = ⟨.approvals (.approve id approver now),
          (.ok approved : Except GatewayError ApprovalRecord)⟩ ∧
        approver.principalType ≠ .aiAgent ∧ hasPermission approver.role .approvalsApprove ∧
        approver.principalId ≠ rec.requesterId) ∧
      rec.toolName = metadata.toolName ∧
      rec.arguments.pyEq (stripUntrustedModelFields request.arguments) ∧
      (rec.workflowId = none ∨ rec.workflowId = request.workflowId) ∧
      (rec.workflowNodeId = none ∨ rec.workflowNodeId = request.workflowNodeId) ∧
      ∀ e ∈ older, ∀ earlier, (B.ledger e.after.approvals).record id = some earlier →
        ¬ earlier.status.terminal := by
  -- a dispatch has passed the checks on a stored record, which was approved before
  obtain ⟨request, -, id, rec, hcaller, -, -, hid, hrec, happroved, hbinding, -⟩ :=
    (session_inOrder calls s d older hd).2 metadata arguments hop hgoverned
  obtain ⟨htool, hargs, hworkflow, hnode⟩ := of_checkBinding hbinding
  refine ⟨request, id, rec, hcaller, hid, hrec, ?_, htool, hargs, hworkflow, hnode, ?_⟩
  · obtain ⟨g, hg, approver, now, hby⟩ :=
      approvedBy_of_approved hstart calls hfresh hd hrec happroved
    obtain ⟨token, hgcaller, hauth⟩ := hby.caller
    obtain ⟨approved, hevent⟩ := hby.event
    exact ⟨g, hg, token, approver, now, approved, hgcaller, hauth, hevent, hby.notAi,
      hby.permitted, hby.notRequester⟩
  · -- an approved record was never in a terminal status before
    have hrun : Run.From (gatewaySystem G B) s (G.runCalls B s calls) := session_from _ _ .start
    have hfresh' := hfresh.of_suffix ((List.suffix_cons d older).trans hd)
    exact fun e he earlier hearlier =>
      never_terminal_of_approved (hrun.at_step hd).1 hfresh' hrec happroved he hearlier

end Safety

/-! ### A restart that is asked for, approved and executed -/

/-- The operator asks for a restart at second 5 and an administrator approves it at
second 6. -/
def approvedRestart : List (GatewayCall × List Env) :=
  [(.callTool (restartRequest .operator 1 none), Env.steps 5 20),
    (.approveOperation "admin-token" 5, Env.steps 6 20)]

/-- The operator uses the approval at second `n`. -/
def executedRestart (n : ℕ) : List (GatewayCall × List Env) :=
  approvedRestart ++
    [(.callTool (restartRequest .operator 2 (some 5)), Env.steps n 40)]

abbrev restartRun (n : ℕ) : CallRun ApprovalStore :=
  McpGateway.small.runCalls ApprovalStore.backend .inMemory (executedRestart n)

abbrev restartRunSql (n : ℕ) : CallRun SqlAlchemyApprovalStore :=
  McpGateway.small.runCalls SqlAlchemyApprovalStore.backend { approvals := {} } (executedRestart n)

theorem restartRun_fresh : ((restartRun 7).past.any fun d => d.op.governed && true) ∧
    FreshApprovals ApprovalStore.backend (restartRun 7).past := by
  decide

/-- The restart is executed, under an approval that was given before. -/
theorem governed_dispatch_approved_restart :
    ∃ d older, d :: older <:+ (restartRun 7).past ∧ d.op.governed ∧
      ∃ id, ∃ g ∈ older, ∃ token, g.caller = .approveOperation token id := by
  obtain ⟨d, older, metadata, arguments, hd, -, hop, hgoverned⟩ :=
    exists_governed (restartRun 7).past (fun _ => true) restartRun_fresh.1
  obtain ⟨request, id, rec, -, -, -, ⟨g, hg, token, -, -, -, hcaller, -⟩, -⟩ :=
    governed_dispatch_approved noApprovals_inMemory (executedRestart 7) restartRun_fresh.2 hd hop
      hgoverned
  exact ⟨d, older, hd, by rw [hop]; exact hgoverned, id, g, hg, token, hcaller⟩

/-! ## The deadline of an approval

A record expires only while it is pending: the deadline is compared with the clock reading
of the call that approves it, and not again when the approval is used.
-/

/-- The restart at second 4000 is executed under a record that should have expired. -/
theorem restartRunSql_late : ((restartRunSql 4000).past.any fun d => d.op.governed &&
      ((SqlAlchemyApprovalStore.backend.ledger d.before.approvals).record 5).any
        fun rec => rec.status = .approved ∧ rec.expiresAt < seconds 4000) ∧
    FreshApprovals SqlAlchemyApprovalStore.backend (restartRunSql 4000).past := by
  decide

/-- The governed tool runs in a call all of whose clock readings are at second 4000, under a
record whose deadline was at second 3605, whichever store holds the record. -/
theorem approval_used_after_deadline :
    (∃ d older, d :: older <:+ (restartRun 4000).past ∧ d.op.governed ∧
      ∃ rec, (ApprovalStore.backend.ledger d.before.approvals).record 5 = some rec ∧
        rec.status = .approved ∧ rec.expiresAt < seconds 4000) ∧
    ∃ d older, d :: older <:+ (restartRunSql 4000).past ∧ d.op.governed ∧
      ∃ rec, (SqlAlchemyApprovalStore.backend.ledger d.before.approvals).record 5 = some rec ∧
        rec.status = .approved ∧ rec.expiresAt < seconds 4000 := by
  constructor
  · obtain ⟨d, older, metadata, arguments, hd, hlate, hop, hgoverned⟩ :=
      exists_governed (restartRun 4000).past
        (fun d => ((ApprovalStore.backend.ledger d.before.approvals).record 5).any
          fun rec => rec.status = .approved ∧ rec.expiresAt < seconds 4000) (by decide)
    obtain ⟨rec, hrec, hlate⟩ := (Option.any_eq_true _ _).mp hlate
    exact ⟨d, older, hd, by rw [hop]; exact hgoverned, rec, hrec, of_decide_eq_true hlate⟩
  · obtain ⟨d, older, metadata, arguments, hd, hlate, hop, hgoverned⟩ :=
      exists_governed (restartRunSql 4000).past
        (fun d => ((SqlAlchemyApprovalStore.backend.ledger d.before.approvals).record 5).any
          fun rec => rec.status = .approved ∧ rec.expiresAt < seconds 4000) restartRunSql_late.1
    obtain ⟨rec, hrec, hlate⟩ := (Option.any_eq_true _ _).mp hlate
    exact ⟨d, older, hd, by rw [hop]; exact hgoverned, rec, hrec, of_decide_eq_true hlate⟩

/-- A governed tool runs only under a record that was approved before its deadline, whichever
store holds the record. -/
theorem governed_dispatch_approved_in_time {A : Type} {G : McpGateway} {B : ApprovalBackend A}
    {s : GatewayState A} (hstart : NoApprovals B s) (calls : List (GatewayCall × List Env))
    (hfresh : FreshApprovals B (G.runCalls B s calls).past) {older : List (CallStep A)}
    {d : CallStep A} (hd : d :: older <:+ (G.runCalls B s calls).past) {metadata : ToolMetadata}
    {arguments : PyDict} (hop : d.op = .dispatch metadata arguments)
    (hgoverned : metadata.requiresApproval) :
    ∃ request id rec, d.caller = .callTool request ∧ request.approvalId = some id ∧
      (B.ledger d.before.approvals).record id = some rec ∧
      ∃ g ∈ older, ∃ token approver now, ∃ approved : ApprovalRecord,
        g.caller = .approveOperation token id ∧
        g.event = ⟨.approvals (.approve id approver now),
          (.ok approved : Except GatewayError ApprovalRecord)⟩ ∧
        now < rec.expiresAt := by
  obtain ⟨request, -, id, rec, hcaller, -, -, hid, hrec, happroved, -, -⟩ :=
    (session_inOrder calls s d older hd).2 metadata arguments hop hgoverned
  obtain ⟨g, hg, approver, now, hby⟩ :=
    approvedBy_of_approved hstart calls hfresh hd hrec happroved
  obtain ⟨token, hgcaller, -⟩ := hby.caller
  obtain ⟨approved, hevent⟩ := hby.event
  exact ⟨request, id, rec, hcaller, hid, hrec, g, hg, token, approver, now, approved, hgcaller,
    hevent, hby.inTime⟩

/-- The restart at second 4000 was approved in time, in a table as in memory. -/
theorem governed_dispatch_approved_in_time_restart :
    ∃ g ∈ (restartRunSql 4000).past, ∃ token id, g.caller = .approveOperation token id := by
  obtain ⟨d, older, metadata, arguments, hd, -, hop, hgoverned⟩ :=
    exists_governed (restartRunSql 4000).past _ restartRunSql_late.1
  obtain ⟨-, id, -, -, -, -, g, hg, token, -, -, -, hcaller, -⟩ :=
    governed_dispatch_approved_in_time noApprovals_sql
      (executedRestart 4000) restartRunSql_late.2 hd
      hop hgoverned
  exact ⟨g, hd.subset (List.mem_cons_of_mem _ hg), token, id, hcaller⟩

/-! ## The requester of an approval

The binding hash is recomputed with the requester of the record in place of the caller, so
it does not tell who uses the approval.
-/

/-- When the step `e` is the status check of a request and finds an approved record, the
request comes from the principal that opened the record. -/
def checkedByRequester {A : Type} (G : McpGateway) (B : ApprovalBackend A) (e : CallStep A) :
    Bool :=
  match e.caller, e.op with
  | .callTool request, .checkStatus approval =>
      match G.authenticate request.authToken,
        (B.ledger e.before.approvals).record approval.approvalId with
      | .ok principal, some rec =>
          rec.status ≠ .approved ∨ principal.principalId = rec.requesterId
      | _, _ => true
  | _, _ => true

/-- When every approved record that a request gets to check is the requester's own, governed
tools are dispatched for the requester of the record only. -/
theorem governed_dispatch_by_requester {A : Type} {G : McpGateway} {B : ApprovalBackend A}
    {s : GatewayState A} (calls : List (GatewayCall × List Env))
    (hown : ∀ e ∈ (G.runCalls B s calls).past, checkedByRequester G B e) {d : CallStep A}
    (hd : d ∈ (G.runCalls B s calls).past) (hgoverned : d.op.governed) :
    ∃ request principal id rec, d.caller = .callTool request ∧
      G.authenticate request.authToken = .ok principal ∧ request.approvalId = some id ∧
      (B.ledger d.before.approvals).record id = some rec ∧ rec.status = .approved ∧
      principal.principalId = rec.requesterId := by
  obtain ⟨newer, older, hpast⟩ := List.append_of_mem hd
  have hsuffix : d :: older <:+ (G.runCalls B s calls).past := ⟨newer, hpast.symm⟩
  obtain ⟨metadata, arguments, hop, hgov⟩ : ∃ metadata arguments,
      d.op = .dispatch metadata arguments ∧ metadata.requiresApproval := by
    cases hop : d.op with
    | dispatch metadata arguments =>
        rw [hop] at hgoverned
        exact ⟨metadata, arguments, rfl, hgoverned⟩
    | _ => rw [hop] at hgoverned; cases hgoverned
  obtain ⟨request, principal, id, rec, hcaller, hauth, -, hid, hrec, happroved, -, e, he, hecaller,
    heop, hbefore⟩ := (session_inOrder calls s d older hsuffix).2 metadata arguments hop hgov
  refine ⟨request, principal, id, rec, hcaller, hauth, hid, hrec, happroved, ?_⟩
  have hkey : rec.approvalId = id := (B.ledger d.before.approvals).keyed id rec hrec
  have hchecked := hown e (hsuffix.subset (List.mem_cons_of_mem _ he))
  simp only [checkedByRequester, hecaller.trans hcaller, heop, hauth, hbefore, hkey,
    hrec] at hchecked
  exact (of_decide_eq_true hchecked).resolve_left (not_not.mpr happroved)

/-- The operator's restart meets the condition. -/
theorem governed_dispatch_by_requester_restart :
    ∃ request principal id, ∃ d ∈ (restartRun 7).past, d.caller = .callTool request ∧
      McpGateway.small.authenticate request.authToken = .ok principal ∧
      ∃ rec, (ApprovalStore.backend.ledger d.before.approvals).record id = some rec ∧
        principal.principalId = rec.requesterId := by
  obtain ⟨d, older, metadata, arguments, hd, -, hop, hgoverned⟩ :=
    exists_governed (restartRun 7).past (fun _ => true) restartRun_fresh.1
  have hmem := hd.subset (List.mem_cons_self ..)
  obtain ⟨request, principal, id, rec, hcaller, hauth, -, hrec, -, hsame⟩ :=
    governed_dispatch_by_requester (executedRestart 7)
      (List.all_eq_true.mp (by decide)) hmem (by rw [hop]; exact hgoverned)
  exact ⟨request, principal, id, d, hmem, hcaller, hauth, rec, hrec, hsame⟩

/-- A second administrator uses the approval that the operator asked for. -/
def foreignRestart : List (GatewayCall × List Env) :=
  approvedRestart ++
    [(.callTool (restartRequest .secondAdmin 2 (some 5)), Env.steps 7 40)]

abbrev foreignRun : CallRun ApprovalStore :=
  McpGateway.small.runCalls ApprovalStore.backend .inMemory foreignRestart

/-- A step for a request that names record 5 and does not come from its requester. -/
def usesForeignApproval (d : CallStep ApprovalStore) : Bool :=
  match d.caller, (ApprovalStore.backend.ledger d.before.approvals).record 5 with
  | .callTool request, some rec =>
      match McpGateway.small.authenticate request.authToken with
      | .ok principal => request.approvalId = some 5 ∧ principal.principalId ≠ rec.requesterId
      | .error _ => false
  | _, _ => false

/-- The operator's approval executes the second administrator's request. -/
theorem approval_used_by_another :
    ∃ d ∈ foreignRun.past, d.op.governed ∧
      ∃ request principal rec, d.caller = .callTool request ∧ request.approvalId = some 5 ∧
        McpGateway.small.authenticate request.authToken = .ok principal ∧
        (ApprovalStore.backend.ledger d.before.approvals).record 5 = some rec ∧
        principal.principalId ≠ rec.requesterId := by
  obtain ⟨d, older, metadata, arguments, hd, hforeign, hop, hgoverned⟩ :=
    exists_governed foreignRun.past usesForeignApproval (by decide)
  have hmem : d ∈ foreignRun.past := hd.subset (List.mem_cons_self ..)
  unfold usesForeignApproval at hforeign
  split at hforeign
  · rename_i request rec hcaller hrec
    split at hforeign
    · rename_i principal hauth
      obtain ⟨hid, hne⟩ := of_decide_eq_true hforeign
      exact ⟨d, hmem, by rw [hop]; exact hgoverned, request, principal, rec, hcaller, hid, hauth,
        hrec, hne⟩
    · cases hforeign
  · cases hforeign

end McpOps
