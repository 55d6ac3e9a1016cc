import McpOps.Gateway.CallShape

/-!
# One approval, one execution

Between the status check of a request and the end of its execution, the record it uses stays
`APPROVED`, so another request may pass the check in the meantime and execute the operation again.
A request is in flight for a record from its passed check until it marks the record executed or
failed; as long as checks are passed only while no request is in flight, the approval executes at
most once, in every interleaving.

## Strategy

The shape of a call has at most one dispatch of a governed tool after a passed check, so it is
enough to count passed checks.  `Used` is the invariant after the first of them: the record has
left `PENDING`, and once nothing is in flight it is not `APPROVED` any more.

* A passed check has read the status of the record in the store (`approved_of_passes`).
* An attempt to settle a record leaves it not approved, whether the attempt succeeds or not
  (`not_approved_of_settles`).
* Nothing returns to `APPROVED`, by the life of a record.

With exclusive checks a second check finds nothing in flight, hence no approved record
(`passes_at_most_once`).  The last two runs are the same two requests, one after the other and
with the second between the check of the first and its dispatch.
-/

namespace McpOps

open Proc

section InFlight

variable {κ A : Type} [DecidableEq κ]

/-- A step of one of several callers. -/
abbrev GatewayStep (κ A : Type) := Step gatewayInterface κ (GatewayState A)

/-- An operation that marks the record of `id` executed or failed. -/
def GatewayOp.settles (id : UUID) : GatewayOp → Bool
  | .approvals (.markExecuted approval _ _ _) => approval.approvalId = id
  | .approvals (.markFailed approval _ _ _) => approval.approvalId = id
  | _ => false

/-- The callers that have passed the status check of the record of `id` and have not tried to
mark it executed or failed since. -/
def inFlight (id : UUID) : List (GatewayStep κ A) → List κ
  | [] => []
  | d :: older =>
      if GatewayEvent.passes (some id) d.event then d.caller :: inFlight id older
      else if d.op.settles id then (inFlight id older).filter (· ≠ d.caller)
      else inFlight id older

/-- Status checks of the record of `id` are passed only while no request is in flight. -/
def exclusiveChecks (id : UUID) : List (GatewayStep κ A) → Bool
  | [] => true
  | d :: older =>
      (!GatewayEvent.passes (some id) d.event || (inFlight id older).isEmpty) &&
        exclusiveChecks id older

theorem exclusiveChecks_cons {id : UUID} {d : GatewayStep κ A} {older : List (GatewayStep κ A)}
    (h : exclusiveChecks id (d :: older)) :
    (GatewayEvent.passes (some id) d.event → inFlight id older = []) ∧
      exclusiveChecks id older := by
  rw [exclusiveChecks, Bool.and_eq_true, Bool.or_eq_true, Bool.not_eq_true'] at h
  refine ⟨fun hpasses => ?_, h.2⟩
  rcases h.1 with hnot | hempty
  · rw [hpasses] at hnot
    cases hnot
  · exact List.isEmpty_iff.mp hempty

end InFlight

section Once

variable {κ : Type} {G : McpGateway} {s : GatewayState ApprovalStore}

/-- Every record whose status was checked had been got before. -/
def ChecksGot (past : List (GatewayStep κ ApprovalStore)) : Prop :=
  ∀ d older approval, d :: older <:+ past → d.op = .checkStatus approval →
    ∃ e ∈ older, ∃ id now, e.event =
      ⟨.approvals (.get id now), (.ok approval : Except GatewayError ApprovalRecord)⟩

theorem ChecksGot.of_cons {d : GatewayStep κ ApprovalStore}
    {past : List (GatewayStep κ ApprovalStore)} (h : ChecksGot (d :: past)) : ChecksGot past :=
  fun e older approval he => h e older approval (he.trans (List.suffix_cons d past))

/-- A record that was got is still in the store. -/
theorem recorded_of_got {r : Run gatewayInterface κ (GatewayState ApprovalStore)}
    (hr : Run.From (gatewaySystem G ApprovalStore.backend) s r)
    (hfresh : FreshApprovals ApprovalStore.backend r.past) {e : GatewayStep κ ApprovalStore}
    (he : e ∈ r.past) {id : UUID} {now : Time} {approval : ApprovalRecord}
    (hevent : e.event =
      ⟨.approvals (.get id now), (.ok approval : Except GatewayError ApprovalRecord)⟩) :
    ∃ rec, (ApprovalStore.backend.ledger r.state.approvals).record approval.approvalId =
      some rec := by
  obtain ⟨newer, older, hpast⟩ := List.append_of_mem he
  obtain ⟨-, env, henv⟩ := hr.at_step ⟨newer, hpast.symm⟩
  obtain ⟨c, o, answer, before, after⟩ := e
  cases hevent
  have hget : (_, _) = (ApprovalStore.backend.ledger before.approvals).get id now :=
    ApprovalStore.backend.refines (.get id now) env.freshId before.approvals
  have hanswer : (ApprovalStore.backend.answer (.get id now) env.freshId before.approvals).1 =
      .ok approval := congrArg Prod.fst henv
  obtain ⟨hrec, hsame, -, -⟩ := Ledger.get_ok (hget.symm.trans (Prod.ext hanswer rfl))
  have hafter : ApprovalStore.backend.ledger after.approvals =
      ApprovalStore.backend.ledger before.approvals :=
    (congrArg (fun p => ApprovalStore.backend.ledger p.2.approvals) henv).symm.trans hsame
  have hkey := (ApprovalStore.backend.ledger before.approvals).keyed id approval hrec
  have hstored : (ApprovalStore.backend.ledger after.approvals).record approval.approvalId =
      some approval := by rw [hafter, hkey, hrec]
  obtain ⟨rec, hrec', -⟩ := evolves_of_past hr hfresh he hstored
  exact ⟨rec, hrec'⟩

/-- A passed check has read the status of the record in the store. -/
theorem approved_of_passes {o : GatewayOp} {env : Env} {id : UUID}
    {r : Run gatewayInterface κ (GatewayState ApprovalStore)}
    (hpasses : GatewayEvent.passes (some id)
      ⟨o, ((gatewaySystem G ApprovalStore.backend).answer o env r.state).1⟩)
    {rec : ApprovalRecord}
    (hrec : (ApprovalStore.backend.ledger r.state.approvals).record id = some rec) :
    rec.status = .approved := by
  cases o with
  | checkStatus approval =>
      obtain ⟨hid, happroved⟩ := of_decide_eq_true hpasses
      cases hid
      rw [← happroved]
      show _ = ApprovalStore.liveStatus approval r.state.approvals
      rw [ApprovalStore.liveStatus, show r.state.approvals.approvals.get? approval.approvalId =
        some rec from hrec]
      rfl
  | _ => cases hpasses

/-- After an attempt to settle a record, it is not approved. -/
theorem not_approved_of_settles {c : κ} {o : GatewayOp} {env : Env} {id : UUID}
    {r : Run gatewayInterface κ (GatewayState ApprovalStore)} (hsettles : o.settles id)
    {rec : ApprovalRecord}
    (hrec : (ApprovalStore.backend.ledger
      (r.perform (gatewaySystem G ApprovalStore.backend) c o env).state.approvals).record id =
        some rec) : rec.status ≠ .approved := by
  cases o with
  | approvals ao =>
      have hallows := ApprovalStore.backend.refines ao env.freshId r.state.approvals
      cases ao with
      | markExecuted approval actor now result =>
          cases of_decide_eq_true hsettles
          exact Ledger.allows_settles (Or.inl ⟨result, rfl⟩) hallows hrec
      | markFailed approval actor now reason =>
          cases of_decide_eq_true hsettles
          exact Ledger.allows_settles (Or.inr ⟨reason, rfl⟩) hallows hrec
      | _ => cases hsettles
  | _ => cases hsettles

variable [DecidableEq κ]

/-- What is known of the record of `id` after one passed check: it has left `PENDING`, and
once nothing is in flight it is not `APPROVED` any more. -/
structure Used (id : UUID) (r : Run gatewayInterface κ (GatewayState ApprovalStore)) : Prop where
  once : r.past.countP (fun d => GatewayEvent.passes (some id) d.event) = 1
  record : ∃ rec, (ApprovalStore.backend.ledger r.state.approvals).record id = some rec ∧
    rec.status ≠ .pending ∧ (inFlight id r.past = [] → rec.status ≠ .approved)

/-- With exclusive checks, the check of a record is passed at most once. -/
theorem passes_at_most_once {r : Run gatewayInterface κ (GatewayState ApprovalStore)} {id : UUID}
    (hr : Run.From (gatewaySystem G ApprovalStore.backend) s r)
    (hfresh : FreshApprovals ApprovalStore.backend r.past) (hgot : ChecksGot r.past)
    (hexclusive : exclusiveChecks id r.past) :
    r.past.countP (fun d => GatewayEvent.passes (some id) d.event) = 0 ∨ Used id r := by
  induction hr with
  | start => exact Or.inl rfl
  | @perform r hr c o env ih =>
      have ih := ih hfresh.of_cons hgot.of_cons (exclusiveChecks_cons hexclusive).2
      by_cases hpasses : GatewayEvent.passes (some id)
          ⟨o, ((gatewaySystem G ApprovalStore.backend).answer o env r.state).1⟩
      · have hnone : inFlight id r.past = [] := (exclusiveChecks_cons hexclusive).1 hpasses
        rcases ih with hzero | hused
        · -- the first passed check
          cases o with
          | checkStatus approval =>
              have hid : approval.approvalId = id := by
                simpa using (of_decide_eq_true hpasses).1
              obtain ⟨e, he, k, now, hevent⟩ := hgot _ _ approval (List.suffix_refl _) rfl
              obtain ⟨rec, hrec⟩ := recorded_of_got hr hfresh.of_cons he hevent
              rw [hid] at hrec
              have happroved := approved_of_passes hpasses hrec
              refine Or.inr ⟨?_, rec, hrec, by simp [happroved], fun hempty => ?_⟩
              · rw [Run.perform_past, List.countP_cons_of_pos (by exact hpasses), hzero]
              · rw [Run.perform_past, inFlight, if_pos (by exact hpasses)] at hempty
                cases hempty
          | _ => cases hpasses
        · -- a second one would read an approved record
          obtain ⟨rec, hrec, -, hsettled⟩ := hused.record
          exact absurd (approved_of_passes hpasses hrec) (hsettled hnone)
      · have hcount : (r.perform (gatewaySystem G ApprovalStore.backend) c o env).past.countP
            (fun d => GatewayEvent.passes (some id) d.event) =
            r.past.countP (fun d => GatewayEvent.passes (some id) d.event) :=
          List.countP_cons_of_neg hpasses
        rcases ih with hzero | hused
        · exact Or.inl (hcount.trans hzero)
        · -- no check passes in this step, so the record is used as before, or further on
          obtain ⟨rec, hrec, hpending, hsettled⟩ := hused.record
          obtain ⟨rec', hrec', hlast⟩ := perform_transition hfresh hrec
          refine Or.inr ⟨hcount.trans hused.once, rec', hrec', fun hpending' => ?_,
            fun hempty happroved => ?_⟩
          · rcases hlast with rfl | ⟨ao, -, htrans⟩
            · exact hpending hpending'
            · exact hpending (htrans.of_pending hpending' ▸ hpending')
          · by_cases hsettles : o.settles id
            · exact not_approved_of_settles hsettles hrec' happroved
            · -- the step settles nothing, so the same check is in flight before and after
              rw [Run.perform_past, inFlight, if_neg (by exact hpasses),
                if_neg (by exact hsettles)] at hempty
              rcases hlast with rfl | ⟨ao, -, htrans⟩
              · exact hsettled hempty happroved
              · rcases htrans.of_approved happroved with rfl | ⟨-, -, -, hpending', -⟩
                · exact hsettled hempty happroved
                · exact hpending hpending'

/-! ## Interleaved calls -/

theorem checksGot_interleaveCalls (calls : κ → GatewayCall) (schedule : List (κ × Env)) :
    ChecksGot (G.interleaveCalls ApprovalStore.backend s calls schedule).past := by
  intro d older approval hd hop
  obtain ⟨_, _, _, _, htally, -⟩ :=
    interleave_callShape (G := G) (B := ApprovalStore.backend) (s := s) calls schedule d.caller
  have hown := own_suffix d.caller hd
  rw [own_cons_self] at hown
  obtain ⟨c, o, status, before, after⟩ := d
  cases hop
  obtain ⟨id, now, hgot⟩ := htally.got approval status _ hown
  obtain ⟨e, he, -, hevent⟩ := mem_own.mp hgot
  exact ⟨e, he, id, now, hevent⟩

/-- A dispatch of a governed tool on the strength of the record of `id`. -/
def dispatchesUnder (calls : κ → GatewayCall) (id : UUID) (d : GatewayStep κ ApprovalStore) :
    Bool :=
  d.op.governed ∧ (calls d.caller).namedApproval = some id

/-- When the status check of a record is passed only while no other request that passed it is
in flight, the record executes at most once, whatever the interleaving of the calls. -/
theorem approval_executes_once (calls : κ → GatewayCall) (schedule : List (κ × Env)) (id : UUID)
    (hfresh : FreshApprovals ApprovalStore.backend
      (G.interleaveCalls ApprovalStore.backend s calls schedule).past)
    (hexclusive : exclusiveChecks id
      (G.interleaveCalls ApprovalStore.backend s calls schedule).past) :
    (G.interleaveCalls ApprovalStore.backend s calls schedule).past.countP
      (dispatchesUnder calls id) ≤ 1 := by
  have hpassed : (G.interleaveCalls ApprovalStore.backend s calls schedule).past.countP
      (fun d => GatewayEvent.passes (some id) d.event) ≤ 1 := by
    rcases passes_at_most_once (interleave_from schedule _ .start) hfresh
      (checksGot_interleaveCalls calls schedule) hexclusive with hzero | hused
    · exact hzero.trans_le (Nat.zero_le 1)
    · exact hused.once.le
  refine le_trans ?_ hpassed
  -- each call dispatches a governed tool at most as often as it passes the check of its record
  refine countP_le_of_own
    (p := fun k e => GatewayOp.governed e.1 ∧ (calls k).namedApproval = some id)
    (q := fun _ e => GatewayEvent.passes (some id) e) fun k => ?_
  obtain ⟨reserved, passed, dispatched, governed, htally, -, -, hle⟩ :=
    interleave_callShape (G := G) (B := ApprovalStore.backend) (s := s) calls schedule k
  by_cases hnamed : (calls k).namedApproval = some id
  · simp only [hnamed, and_true, Bool.decide_eq_true]
    rw [htally.governed, ← hnamed, htally.passed]
    exact hle
  · simp [hnamed]

end Once

/-! ### Two requests that use one approval -/

/-- A request for a restart, its approval, and two requests that use the approval. -/
def restartPool : ℕ → GatewayCall
  | 0 => .callTool (restartRequest .operator 1 none)
  | 1 => .approveOperation "admin-token" 5
  | 2 => .callTool (restartRequest .operator 2 (some 5))
  | _ => .callTool (restartRequest .operator 3 (some 5))

abbrev poolRun (schedule : List (ℕ × Env)) : Run gatewayInterface ℕ (GatewayState ApprovalStore) :=
  McpGateway.small.interleaveCalls ApprovalStore.backend .inMemory restartPool schedule

/-- One after the other: the second request finds the record executed. -/
def inTurn : List (ℕ × Env) := turns 0 5 8 ++ turns 1 6 3 ++ turns 2 7 20 ++ turns 3 8 20

/-- The second request runs between the status check of the first and its dispatch. -/
def overtaking : List (ℕ × Env) :=
  turns 0 5 8 ++ turns 1 6 3 ++ turns 2 7 5 ++ turns 3 7 20 ++ turns 2 8 20

theorem approval_executes_once_inTurn :
    0 < (poolRun inTurn).past.countP (dispatchesUnder restartPool 5) ∧
      (poolRun inTurn).past.countP (dispatchesUnder restartPool 5) ≤ 1 := by
  have hinTurn : 0 < (poolRun inTurn).past.countP (dispatchesUnder restartPool 5) ∧
      FreshApprovals ApprovalStore.backend (poolRun inTurn).past ∧
      exclusiveChecks 5 (poolRun inTurn).past := by
    decide
  obtain ⟨hpos, hfresh, hexclusive⟩ := hinTurn
  exact ⟨hpos, approval_executes_once restartPool inTurn 5 hfresh hexclusive⟩

/-- Two requests with different idempotency keys execute one approval twice. -/
theorem approval_executes_twice :
    (poolRun overtaking).past.countP (dispatchesUnder restartPool 5) = 2 := by
  decide

end McpOps
