import Mathlib.Logic.Relation
import McpOps.Gateway.Service
import McpOps.Lib.Interleaving

/-!
# The history of an approval record

What the life of one record, `Transition`, says about whole runs of the gateway, however its calls
are scheduled: a record that once was terminal stays terminal, and an approved record was approved
by an `approve` step before it expired.  New records get fresh ids throughout (`FreshApprovals`).

One step moves every record by a transition of its operation, or leaves it as it is
(`perform_transition`), and a record that appears was opened by the step and is pending
(`perform_new`).  The first needs fresh ids, as a new record would otherwise take the place of an
old one.  By induction a record that was seen after a step of the past has evolved into the
present one (`evolves_of_past`).

`granted_of_approved` finds the step that approved a record, going back along the run, and
`never_terminal_of_approved` is that nothing leads out of a terminal status.
-/

namespace McpOps

open Proc

/-- `r` becomes `r'` by any number of operations. -/
def Evolves : ApprovalRecord → ApprovalRecord → Prop :=
  Relation.ReflTransGen fun r r' => ∃ o, Transition o r r'

namespace Evolves

variable {r r' r'' : ApprovalRecord}

theorem refl (r : ApprovalRecord) : Evolves r r := Relation.ReflTransGen.refl

theorem step {o : ApprovalOp} (h : Evolves r r') (ho : Transition o r' r'') : Evolves r r'' :=
  h.tail ⟨o, ho⟩

theorem sameRequest (h : Evolves r r') : SameRequest r r' := by
  induction h with
  | refl => constructor <;> rfl
  | tail _ hstep ih =>
      obtain ⟨o, ho⟩ := hstep
      have hlast := ho.sameRequest
      constructor
      · exact hlast.approvalId.trans ih.approvalId
      · exact hlast.requesterId.trans ih.requesterId
      · exact hlast.toolName.trans ih.toolName
      · exact hlast.arguments.trans ih.arguments
      · exact hlast.expiresAt.trans ih.expiresAt
      · exact hlast.workflowId.trans ih.workflowId
      · exact hlast.workflowNodeId.trans ih.workflowNodeId
      · exact hlast.argumentsHash.trans ih.argumentsHash
      · exact hlast.approvalBindingHash.trans ih.approvalBindingHash

theorem terminal (h : Evolves r r') (hr : r.status.terminal) : r'.status.terminal := by
  induction h with
  | refl => exact hr
  | tail _ hstep ih => exact hstep.elim fun _ ho => ho.terminal ih

end Evolves

/-! ## One step of the gateway -/

section Steps

variable {A κ : Type} {G : McpGateway} {B : ApprovalBackend A}

/-- The id of the record that an event opens. -/
def openedId : Event gatewayInterface → Option UUID
  | ⟨.approvals (.create _ _), approval⟩ => some (ApprovalRecord.approvalId approval)
  | _ => none

/-- Ids made for new records were not in use. -/
def FreshApprovals (B : ApprovalBackend A)
    (past : List (Step gatewayInterface κ (GatewayState A))) :
    Prop :=
  ∀ d ∈ past, ∀ id ∈ openedId d.event, (B.ledger d.before.approvals).record id = none

/-- Freshness, in a form that evaluates. -/
theorem freshApprovals_iff_all {past : List (Step gatewayInterface κ (GatewayState A))} :
    past.all (fun d => (openedId d.event).all fun id =>
      ((B.ledger d.before.approvals).record id).isNone) ↔ FreshApprovals B past := by
  simp only [List.all_eq_true, Option.all_eq_true, Option.isNone_iff_eq_none]
  exact Iff.rfl

instance (past : List (Step gatewayInterface κ (GatewayState A))) :
    Decidable (FreshApprovals B past) := decidable_of_iff _ freshApprovals_iff_all

theorem FreshApprovals.of_cons {d : Step gatewayInterface κ (GatewayState A)}
    {past : List (Step gatewayInterface κ (GatewayState A))} (h : FreshApprovals B (d :: past)) :
    FreshApprovals B past := fun e he => h e (List.mem_cons_of_mem _ he)

theorem FreshApprovals.of_suffix {older past : List (Step gatewayInterface κ (GatewayState A))}
    (h : FreshApprovals B past) (hsuffix : older <:+ past) : FreshApprovals B older :=
  fun e he => h e (hsuffix.subset he)

/-- What the ledger allows a gateway operation: the methods of the approval store work on
it and everything else leaves it as it is. -/
def Ledger.AllowsOp : (o : GatewayOp) → UUID → Ledger → o.Ans → Ledger → Prop
  | .approvals o, fresh, l, a, l' => l.Allows o fresh a l'
  | _, _, l, _, l' => l' = l

theorem answer_ledger (G : McpGateway) (B : ApprovalBackend A) (o : GatewayOp) (env : Env)
    (s : GatewayState A) :
    (B.ledger s.approvals).AllowsOp o env.freshId ((gatewaySystem G B).answer o env s).1
      (B.ledger ((gatewaySystem G B).answer o env s).2.approvals) := by
  cases o with
  | approvals o => exact B.refines o env.freshId s.approvals
  | audit record => exact B.ledger_appendAudit record s.approvals
  | _ => rfl

/-- A step moves every record by a transition of its operation, or leaves it as it is. -/
theorem perform_transition {r : Run gatewayInterface κ (GatewayState A)} {c : κ} {o : GatewayOp}
    {env : Env} (hfresh : FreshApprovals B (r.perform (gatewaySystem G B) c o env).past) {id : UUID}
    {rec : ApprovalRecord} (hrec : (B.ledger r.state.approvals).record id = some rec) :
    ∃ rec', (B.ledger (r.perform (gatewaySystem G B) c o env).state.approvals).record id =
      some rec' ∧
      (rec' = rec ∨ ∃ ao, o = .approvals ao ∧ Transition ao rec rec') := by
  have hallows := answer_ledger G B o env r.state
  cases o with
  | approvals ao =>
      have hunused : ∀ q now, ao = .create q now →
          (B.ledger r.state.approvals).record env.freshId = none := by
        rintro q now rfl
        have hopened : ApprovalRecord.approvalId _ = env.freshId :=
          congrArg ApprovalRecord.approvalId hallows.1
        exact hfresh _ (List.mem_cons_self ..) env.freshId (congrArg some hopened)
      obtain ⟨rec', hrec', htrans⟩ := Ledger.allows_transition hallows hunused hrec
      exact ⟨rec', hrec', Or.inr ⟨ao, rfl, htrans⟩⟩
  | _ => exact ⟨rec, (congrArg (Ledger.record · id) hallows).trans hrec, Or.inl rfl⟩

/-- A record that appears in a step was opened by it, and is pending. -/
theorem perform_new {r : Run gatewayInterface κ (GatewayState A)} {c : κ} {o : GatewayOp}
    {env : Env} {id : UUID} (hid : (B.ledger r.state.approvals).record id = none)
    {rec : ApprovalRecord}
    (hrec : (B.ledger (r.perform (gatewaySystem G B) c o env).state.approvals).record id =
      some rec) :
    rec.status = .pending := by
  have hallows := answer_ledger G B o env r.state
  cases o with
  | approvals ao =>
      obtain ⟨q, now, -, -, rfl⟩ := Ledger.allows_new hallows hid hrec
      rfl
  | _ =>
      exact absurd (hrec.symm.trans ((congrArg (Ledger.record · id) hallows).trans hid)) (by simp)

/-! ## Whole runs -/

variable {s : GatewayState A}

/-- A record seen after a step of the past has evolved into the present one. -/
theorem evolves_of_past {r : Run gatewayInterface κ (GatewayState A)}
    (hr : Run.From (gatewaySystem G B) s r) (hfresh : FreshApprovals B r.past)
    {d : Step gatewayInterface κ (GatewayState A)} (hd : d ∈ r.past) {id : UUID}
    {rec : ApprovalRecord} (hrec : (B.ledger d.after.approvals).record id = some rec) :
    ∃ rec', (B.ledger r.state.approvals).record id = some rec' ∧ Evolves rec rec' := by
  induction hr with
  | start => cases hd
  | @perform r hr c o env ih =>
      rcases List.mem_cons.mp hd with rfl | hd
      · exact ⟨rec, hrec, .refl rec⟩
      · obtain ⟨rec₁, hrec₁, hevolves⟩ := ih hfresh.of_cons hd
        obtain ⟨rec₂, hrec₂, hlast⟩ := perform_transition hfresh hrec₁
        refine ⟨rec₂, hrec₂, ?_⟩
        rcases hlast with rfl | ⟨ao, -, htrans⟩
        · exact hevolves
        · exact hevolves.step htrans

/-- The step that approved the record of `id`, before it expired. -/
structure Granted (B : ApprovalBackend A) (id : UUID) (rec : ApprovalRecord) (approver : Principal)
    (now : Time) (d : Step gatewayInterface κ (GatewayState A)) : Prop where
  op : ∃ rec' : ApprovalRecord, d.event =
    ⟨.approvals (.approve id approver now), (.ok rec' : Except GatewayError ApprovalRecord)⟩
  before : ∃ rec₀, (B.ledger d.before.approvals).record id = some rec₀ ∧
    rec₀.status = .pending ∧ SameRequest rec₀ rec
  inTime : now < rec.expiresAt

/-- In a run that starts without approvals, every approved record was approved by a step of
the past, before it expired. -/
theorem granted_of_approved {r : Run gatewayInterface κ (GatewayState A)}
    (hr : Run.From (gatewaySystem G B) s r) (hfresh : FreshApprovals B r.past)
    (hstart : ∀ id, (B.ledger s.approvals).record id = none) {id : UUID} {rec : ApprovalRecord}
    (hrec : (B.ledger r.state.approvals).record id = some rec)
    (happroved : rec.status = .approved) :
    ∃ d ∈ r.past, ∃ approver now, Granted B id rec approver now d := by
  induction hr generalizing rec with
  | start =>
      rw [show (Run.start s : Run gatewayInterface κ (GatewayState A)).state = s from rfl,
        hstart] at hrec
      cases hrec
  | @perform r hr c o env ih =>
      cases hrec₀ : (B.ledger r.state.approvals).record id with
      | none =>
          rw [perform_new hrec₀ hrec] at happroved
          cases happroved
      | some rec₀ =>
          -- either the record was approved before, or this step approves it
          have hearlier : rec₀ = rec → ∃ d ∈ (r.perform (gatewaySystem G B) c o env).past,
              ∃ approver now, Granted B id rec approver now d := by
            rintro rfl
            obtain ⟨d, hd, hgranted⟩ := ih hfresh.of_cons hrec₀ happroved
            exact ⟨d, List.mem_cons_of_mem _ hd, hgranted⟩
          obtain ⟨rec', hrec', hlast⟩ := perform_transition hfresh hrec₀
          rw [hrec] at hrec'
          cases hrec'
          rcases hlast with rfl | ⟨ao, rfl, htrans⟩
          · exact hearlier rfl
          · rcases htrans.of_approved happroved with
              rfl | ⟨approver, now, rfl, hpending, hopen, heq⟩
            · exact hearlier rfl
            · have hkey : rec₀.approvalId = id := (B.ledger r.state.approvals).keyed id rec₀ hrec₀
              rw [hkey] at hrec ⊢
              have hanswer := Ledger.allows_approve
                (B.refines (.approve id approver now) env.freshId
                r.state.approvals) hrec₀ hpending hrec happroved
              refine ⟨_, List.mem_cons_self .., approver, now, ⟨rec, ?_⟩, ⟨rec₀, hrec₀, hpending,
                htrans.sameRequest⟩, ?_⟩
              · exact congrArg (Sigma.mk _) hanswer
              · rw [htrans.sameRequest.expiresAt]
                exact hopen

/-- While a record is approved, it has never been terminal. -/
theorem never_terminal_of_approved {r : Run gatewayInterface κ (GatewayState A)}
    (hr : Run.From (gatewaySystem G B) s r) (hfresh : FreshApprovals B r.past) {id : UUID}
    {rec : ApprovalRecord} (hrec : (B.ledger r.state.approvals).record id = some rec)
    (happroved : rec.status = .approved) {d : Step gatewayInterface κ (GatewayState A)}
    (hd : d ∈ r.past) {rec' : ApprovalRecord}
    (hrec' : (B.ledger d.after.approvals).record id = some rec') : ¬ rec'.status.terminal := by
  intro hterminal
  obtain ⟨rec₁, hrec₁, hevolves⟩ := evolves_of_past hr hfresh hd hrec'
  rw [hrec] at hrec₁
  cases hrec₁
  have := hevolves.terminal hterminal
  rw [happroved] at this
  cases this

end Steps

end McpOps
