import McpOps.Gateway.Totality
import McpOps.Workflow.CallShape

/-!
# What the gateway makes of the policy's approvals

The engine goes on with a node that its policy allows with approval only, and leaves the asking
for the approval to the gateway.  The policy asks by the risk of the tool as well, the gateway
by `requires_approval` alone.

## Strategy

A call without an approval id is followed to its end here.  `Withheld` says that its tool was not
dispatched and that the answer does not say so, `Dispatched` that it was, and each function of the
gateway is taken into one of the two:

* asking for an approval, and the paths for success and failure without a tool, dispatch nothing
  (`requestApproval_withheld`, `success_withheld`, `failure_withheld`);
* running the tool dispatches it (`runTool_dispatches`);
* after the reservation, `requires_approval` decides (`callReserved_withheld`).

`callTool_withheld_iff` joins them: the tool is left alone exactly when something holds the call
(`Held`), a check of the gateway, its idempotency key, or `requires_approval`.
`policy_approval_enforced_iff` says it of the call that the engine makes for a node.  Under
`ALLOW_WITH_APPROVAL` the tool requires an approval or has a high risk
(`requiresApproval_or_highRisk`), and the last runs show the difference between the two.
-/

namespace McpOps

open Proc

/-- Under `ALLOW_WITH_APPROVAL` the tool requires an approval or has a high risk. -/
theorem requiresApproval_or_highRisk {P : WorkflowPolicyEvaluator} {metadata : ToolMetadata}
    {role environment : String} {phase : PolicyPhase} {node : WorkflowNode}
    (h : (P.decision metadata role environment phase node).decision = .allowWithApproval) :
    metadata.requiresApproval ∨ metadata.riskLevel ∈ highRisk := by
  unfold WorkflowPolicyEvaluator.decision at h
  dsimp only at h
  by_contra hnot
  rw [if_neg (c := metadata.requiresApproval ∨ _) hnot] at h
  repeat' split at h
  all_goals cases h

namespace McpGateway

section Withheld

variable {A κ : Type} {G : McpGateway} {B : ApprovalBackend A} {request : GatewayToolRequest}
  {s : GatewayState A} {run : ToolRun} {c : κ} {now : Time}
  {r : Run gatewayInterface κ (GatewayState A)} {principal : Principal} {metadata : ToolMetadata}
  {α ε : Type}

/-- A tool was dispatched. -/
def Dispatched (r : Run gatewayInterface κ (GatewayState A)) : Prop :=
  ∃ d ∈ r.past, ∃ metadata arguments, d.op = .dispatch metadata arguments

/-- No tool was dispatched, and the answer does not say that one was. -/
def Withheld (res : Except Exn GatewayToolResponse)
    (r : Run gatewayInterface κ (GatewayState A)) : Prop :=
  ¬ Dispatched r ∧ ∀ response, res = .ok response → response.decision ≠ .allowed

/-- After the checks: the key is taken by an operation that was not answered with `ALLOWED`, or it
is fresh and the tool requires an approval. -/
def HeldByKey (metadata : ToolMetadata) : Except GatewayError (Option GatewayToolResponse) → Prop
  | .error _ => True
  | .ok (some response) => response.decision ≠ .allowed
  | .ok none => metadata.requiresApproval

/-- What keeps a call without an approval id from its tool: a check of the gateway, its key, or
`requires_approval`. -/
def Held (G : McpGateway) (request : GatewayToolRequest) (s : GatewayState A) (now : Time) :
    Prop :=
  match G.checks request s now with
  | .error _ => True
  | .ok (principal, metadata) =>
      HeldByKey metadata (s.idempotency.reserve principal request.idempotencyKey now).1

theorem held_of_error {e : Exn} (h : G.checks request s now = .error e) : G.Held request s now := by
  rw [Held, h]
  trivial

theorem held_iff (h : G.checks request s now = .ok (principal, metadata)) :
    G.Held request s now ↔
      HeldByKey metadata (s.idempotency.reserve principal request.idempotencyKey now).1 := by
  rw [Held, h]

/-- The operations other than a dispatch. -/
def Undispatching : GatewayOp → Prop
  | .dispatch .. => False
  | _ => True

theorem dispatched_perform {o : GatewayOp} (ho : Undispatching o) (i : Time × UUID) :
    Dispatched (r.perform (G.duringRun B run) c o i) ↔ Dispatched r := by
  constructor
  · rintro ⟨d, hd, metadata, arguments, hop⟩
    rcases List.mem_cons.mp hd with rfl | hd
    · cases hop
      exact ho.elim
    · exact ⟨d, hd, metadata, arguments, hop⟩
  · rintro ⟨d, hd, hop⟩
    exact ⟨d, List.mem_cons_of_mem _ hd, hop⟩

/-- A dispatch stays in the past. -/
theorem Dispatched.perform (h : Dispatched r) (o : GatewayOp) (i : Time × UUID) :
    Dispatched (r.perform (G.duringRun B run) c o i) := by
  obtain ⟨d, hd, hop⟩ := h
  exact ⟨d, List.mem_cons_of_mem _ hd, hop⟩

theorem Dispatched.keeps (h : Dispatched r) (p : GatewayM ε α) :
    p.Keeps (G.duringRun B run) c (fun _ => True) (fun _ r => Dispatched r) r := by
  induction p generalizing r with
  | pure a => exact h
  | raise e => exact h
  | call o next ih => exact fun i => ⟨trivial, ih _ (h.perform o i)⟩

/-- Nothing was dispatched since `r`, and a response says `decision`. -/
def Decided (decision : GatewayDecision) (r : Run gatewayInterface κ (GatewayState A))
    (res : Except Exn GatewayToolResponse) (r' : Run gatewayInterface κ (GatewayState A)) : Prop :=
  (Dispatched r' ↔ Dispatched r) ∧ ∀ response, res = .ok response → response.decision = decision

theorem decided_of_error {decision : GatewayDecision} {r' : Run gatewayInterface κ (GatewayState A)}
    {e : Exn} (h : Dispatched r' ↔ Dispatched r) : Decided decision r (.error e) r' := by
  refine ⟨h, fun response hres => ?_⟩
  cases hres

theorem decided_of_response {decision : GatewayDecision}
    {r' : Run gatewayInterface κ (GatewayState A)} {response : GatewayToolResponse}
    (h : Dispatched r' ↔ Dispatched r) (hdecision : response.decision = decision) :
    Decided decision r (.ok response) r' := by
  refine ⟨h, fun response' hres => ?_⟩
  cases hres
  exact hdecision

/-- `_success` and `_failure` dispatch nothing. -/
theorem success_withheld {decision : GatewayDecision} {data : PyDict}
    {approvalStatus : Option ApprovalStatus} {executionStatus : String} :
    (G.success request principal metadata decision data approvalStatus executionStatus).Keeps
      (G.duringRun B run) c (fun _ => True) (Decided decision r) r := by
  refine fun i => ⟨trivial, ?_⟩
  have hread : Dispatched (r.perform (G.duringRun B run) c .clock i) ↔ Dispatched r :=
    dispatched_perform (by exact trivial) i
  refine keeps_raiseOther (fun _ _ _ => decided_of_error hread) fun _ => fun j => ⟨trivial, ?_⟩
  exact decided_of_response ((dispatched_perform (by exact trivial) j).trans hread) rfl

theorem failure_withheld {metadata : Option ToolMetadata} {exc : GatewayError} :
    (G.failure request principal metadata exc).Keeps (G.duringRun B run) c (fun _ => True)
      (Decided .denied r) r := by
  refine fun i => ⟨trivial, ?_⟩
  have hread : Dispatched (r.perform (G.duringRun B run) c .clock i) ↔ Dispatched r :=
    dispatched_perform (by exact trivial) i
  refine keeps_raiseOther (fun _ _ _ => decided_of_error hread) fun _ => fun j => ⟨trivial, ?_⟩
  exact decided_of_response ((dispatched_perform (by exact trivial) j).trans hread) rfl

/-- Asking for the approval answers `PENDING_APPROVAL`. -/
theorem requestApproval_withheld {arguments : PyDict} :
    (G.requestApproval request principal metadata arguments now).Keeps (G.duringRun B run) c
      (fun _ => True) (Decided .pendingApproval r) r := by
  refine keeps_raiseOther (fun _ _ _ => decided_of_error Iff.rfl) fun _ => ?_
  refine fun i => ⟨trivial, fun j => ⟨trivial, fun k => ⟨trivial, ?_⟩⟩⟩
  refine success_withheld.imp trivial fun res r' _ hres => ⟨hres.1.trans ?_, hres.2⟩
  exact ((dispatched_perform (by exact trivial) k).trans
    (dispatched_perform (by exact trivial) j)).trans (dispatched_perform (by exact trivial) i)

/-- Running the tool dispatches it. -/
theorem runTool_dispatches {arguments : PyDict} :
    (G.runTool request principal metadata arguments).Keeps (G.duringRun B run) c
      (fun _ => True) (fun _ r' => Dispatched r') r := by
  refine fun i => ⟨trivial, fun j => ⟨trivial, fun k => ⟨trivial, ?_⟩⟩⟩
  exact Dispatched.keeps ⟨_, List.mem_cons_self .., _, _, rfl⟩ _

/-- After the reservation of a call without an approval id, the tool is dispatched unless it
requires an approval. -/
theorem callReserved_withheld (happroval : request.approvalId = none) {arguments : PyDict}
    (hr : ¬ Dispatched r) :
    (G.callReserved request principal metadata arguments now).Keeps (G.duringRun B run) c
      (fun _ => True) (fun res r' =>
        (metadata.requiresApproval → ¬ Dispatched r' ∧
          ∀ response, res = .ok response → response.decision = .pendingApproval) ∧
        (metadata.requiresApproval = false → Dispatched r')) r := by
  have hnone : G.approvalForRequest request metadata arguments now = .pure none := by
    unfold approvalForRequest
    cases metadata.requiresApproval <;> rw [happroval] <;> rfl
  unfold callReserved
  rw [hnone]
  show Procedure.Keeps _ _ _ _ (if metadata.requiresApproval ∧ _ then _ else _) r
  by_cases hrequires : metadata.requiresApproval
  · rw [if_pos ⟨hrequires, rfl⟩]
    refine requestApproval_withheld.imp trivial fun res r' _ hres => ⟨fun _ => ?_, fun h => ?_⟩
    · exact ⟨fun h => hr (hres.1.mp h), hres.2⟩
    · rw [hrequires] at h
      cases h
  · rw [if_neg fun h => hrequires h.1]
    have hdispatched : ∀ (res : Except Exn GatewayToolResponse)
        (r' : Run gatewayInterface κ (GatewayState A)), Dispatched r' →
        (metadata.requiresApproval → ¬ Dispatched r' ∧
          ∀ response, res = .ok response → response.decision = .pendingApproval) ∧
        (metadata.requiresApproval = false → Dispatched r') :=
      fun _ _ h => ⟨fun hrequires' => absurd hrequires' hrequires, fun _ => h⟩
    refine Procedure.keeps_bind.mpr (Procedure.keeps_tryCatch.mpr
      (runTool_dispatches.imp trivial fun res r' _ hres => ?_))
    -- whatever comes after the dispatch, it stays in the past
    cases res with
    | ok result => exact (hres.keeps _).imp trivial fun res r _ h => hdispatched res r h
    | error exn =>
        refine (hres.keeps _).imp trivial fun res r _ h => ?_
        cases res with
        | ok result => exact (h.keeps _).imp trivial fun res r _ h => hdispatched res r h
        | error exn => exact hdispatched _ _ h

/-- Operations other than a dispatch dispatch nothing. -/
theorem keeps_undispatched {p : GatewayM ε α} (hp : p.Uses Undispatching) :
    p.Keeps (G.duringRun B run) c (fun _ => True) (fun _ r' => Dispatched r' ↔ Dispatched r) r := by
  have hstep : ∀ (r' : Run gatewayInterface κ (GatewayState A)) o i, Undispatching o →
      (Dispatched r' ↔ Dispatched r) →
      (Dispatched (r'.perform (G.duringRun B run) c o i) ↔ Dispatched r) :=
    fun r' o i ho hr' => (dispatched_perform ho i).trans hr'
  have hkeeps := hp.keeps hstep Iff.rfl
  exact hkeeps.weaken fun _ _ => trivial

theorem undispatching_of_plain {o : GatewayOp} (h : Plain o) : Undispatching o := by
  cases o with
  | dispatch => exact h
  | _ => trivial

/-- What the body of `call_tool` leaves: an answer, or an exception after which at most the
failure is audited. -/
def BodyWithheld (condition : Prop) :
    Except CallFailure GatewayToolResponse → Run gatewayInterface κ (GatewayState A) → Prop
  | .ok response, r => Withheld (.ok response) r ↔ condition
  | .error _, r => ¬ Dispatched r ↔ condition

theorem callBody_withheld (happroval : request.approvalId = none) (hr : r.state = s)
    (hnone : ¬ Dispatched r) (hquiet : ∀ d ∈ r.past, ∀ record, d.op ≠ .audit record) :
    (G.callBody request now).Keeps (G.duringRun B run) c (fun _ => True)
      (BodyWithheld (G.Held request s now)) r := by
  refine Procedure.keeps_mapError_bind ?_ trivial
  -- a call that is refused before it reserves a key dispatches nothing
  cases hauth : G.authenticate request.authToken with
  | error e =>
      have hchecks : G.checks request s now = .error (.gateway e) := by
        simp [checks, hauth]
      have hheld := held_of_error hchecks
      exact ⟨fun _ h => (by cases h), fun _ _ => iff_of_true hnone hheld⟩
  | ok principal =>
      refine ⟨fun _ h => ?_, fun _ h => (by cases h)⟩
      cases h
      refine Procedure.keeps_mapError_bind ?_ trivial
      cases hmetadata : G.metadata request.toolName with
      | error e =>
          have hchecks : G.checks request s now = .error e := by
            simp [checks, hauth, hmetadata]
          have hheld := held_of_error hchecks
          exact ⟨fun _ h => (by cases h), fun _ _ => iff_of_true hnone hheld⟩
      | ok metadata =>
          refine ⟨fun _ h => ?_, fun _ h => (by cases h)⟩
          cases h
          have hplain : (G.checkRequest principal metadata
              (stripUntrustedModelFields request.arguments) now).Uses Undispatching :=
            uses_checkRequest.mono fun _ => undispatching_of_plain
          refine Procedure.keeps_mapError_bind
            (((checkRequest_ends hr hquiet).and (keeps_undispatched hplain)).imp trivial ?_) trivial
          rintro res r' - ⟨⟨hres, hidempotency, -⟩, hsame⟩
          -- the checks dispatch nothing either
          have hnone' : ¬ Dispatched r' := fun h => hnone (hsame.mp h)
          cases res with
          | error e =>
              have hchecks : G.checks request s now = .error e := by
                simp [checks, hauth, hmetadata, ← hres]
              have hheld := held_of_error hchecks
              exact ⟨fun _ h => (by cases h), fun _ _ => iff_of_true hnone' hheld⟩
          | ok _ =>
              have hchecks : G.checks request s now = .ok (principal, metadata) := by
                simp [checks, hauth, hmetadata, ← hres]
              have hheld := held_iff hchecks
              refine ⟨fun _ _ => ?_, fun _ h => (by cases h)⟩
              refine Procedure.keeps_mapError_bind
                (keeps_perform.mpr fun i => ⟨trivial, ?_⟩) trivial
              have hanswer : ((G.duringRun B run).answer (.reserve principal request.idempotencyKey
                  now) i r'.state).1 =
                  (s.idempotency.reserve principal request.idempotencyKey now).1 := by
                rw [← hidempotency]
                rfl
              have hnone'' : ¬ Dispatched (r'.perform (G.duringRun B run) c (.reserve principal
                  request.idempotencyKey now) i) :=
                fun h => hnone' ((dispatched_perform (by exact trivial) i).mp h)
              rw [hanswer]
              cases hreserve : (s.idempotency.reserve principal request.idempotencyKey now).1 with
              | error exc =>
                  rw [hreserve] at hheld
                  exact ⟨fun _ h => (by cases h),
                    fun _ _ => iff_of_true hnone'' (hheld.mpr trivial)⟩
              | ok replay =>
                  rw [hreserve] at hheld
                  refine ⟨fun _ h => ?_, fun _ h => (by cases h)⟩
                  cases h
                  -- a replay shows what was decided before; otherwise the tool decides
                  cases replay with
                  | some response =>
                      refine Iff.trans ?_ hheld.symm
                      refine ⟨fun h => h.2 response rfl, fun h => ⟨hnone'', fun response' h' => ?_⟩⟩
                      cases h'
                      exact h
                  | none =>
                      have hheld : G.Held request s now ↔ metadata.requiresApproval := hheld
                      refine Procedure.keeps_tryCatch.mpr
                        ((callReserved_withheld happroval hnone'').imp trivial ?_)
                      rintro res r'' - ⟨hpending, hdispatched⟩
                      by_cases hrequires : metadata.requiresApproval
                      · obtain ⟨hnot, hdecision⟩ := hpending hrequires
                        have hG := hheld.mpr hrequires
                        cases res with
                        | error exn => exact iff_of_true hnot hG
                        | ok response =>
                            refine iff_of_true ⟨hnot, fun response' h' => ?_⟩ hG
                            cases h'
                            rw [hdecision response rfl]
                            decide
                      · -- a tool that needs no approval is dispatched, whatever comes of it
                        have hdone := hdispatched (by simpa using hrequires)
                        cases res with
                        | ok response =>
                            exact iff_of_false (fun h => h.1 hdone) (hrequires ∘ hheld.mp)
                        | error exn =>
                            exact iff_of_false (fun h => h hdone) (hrequires ∘ hheld.mp)

/-- The exception handler of `call_tool` answers with a denial or lets the exception through. -/
theorem handleFailure_withheld {f : CallFailure} {condition : Prop}
    (h : ¬ Dispatched r ↔ condition) :
    (G.handleFailure request f).Keeps (G.duringRun B run) c (fun _ => True)
      (fun res r' => Withheld res r' ↔ condition) r := by
  obtain ⟨principal, metadata, reserved, exn⟩ := f
  cases exn with
  | other cls message =>
      refine Iff.trans ⟨fun h => h.1, fun h => ⟨h, fun response hres => ?_⟩⟩ h
      cases hres
  | gateway exc =>
      refine Procedure.keeps_bind.mpr (failure_withheld.imp trivial ?_)
      rintro (exn | response) r' - ⟨hsame, hdecision⟩
      · -- the record of the failure could not be made
        refine Iff.trans ⟨fun h => ?_, fun h => ⟨?_, fun response hres => ?_⟩⟩ h
        · rw [← hsame]
          exact h.1
        · rw [hsame]
          exact h
        · cases hres
      -- a failure is reported as a denial, and nothing is dispatched for it
      have hdenied : ∀ r'' : Run gatewayInterface κ (GatewayState A),
          (Dispatched r'' ↔ Dispatched r') → (Withheld (.ok response) r'' ↔ condition) := by
        intro r'' hsame'
        refine Iff.trans ⟨fun h => ?_, fun h => ⟨?_, fun response' hres => ?_⟩⟩ h
        · rw [← hsame, ← hsame']
          exact h.1
        · rw [hsame', hsame]
          exact h
        · cases hres
          rw [hdecision response rfl]
          decide
      cases principal with
      | none => exact hdenied r' Iff.rfl
      | some principal =>
          cases reserved with
          | false => exact hdenied r' Iff.rfl
          | true =>
              refine fun i => ⟨trivial, fun j => ⟨trivial, hdenied _ ?_⟩⟩
              exact (dispatched_perform (by exact trivial) j).trans
                (dispatched_perform (by exact trivial) i)

/-- A call without an approval id leaves its tool alone exactly when something holds it. -/
theorem callTool_withheld_iff (happroval : request.approvalId = none) (s : GatewayState A)
    (run : ToolRun) (c : κ) (inputs : ℕ → Time × UUID) :
    Withheld ((G.callTool request).run (G.duringRun B run) c inputs (.start s)).1
        ((G.callTool request).run (G.duringRun B run) c inputs (.start s)).2 ↔
      G.Held request s (inputs 0).1 := by
  have hcall : ∀ r : Run gatewayInterface κ (GatewayState A), r.state = s → ¬ Dispatched r →
      (∀ d ∈ r.past, ∀ record, d.op ≠ .audit record) →
      ((G.callBody request (inputs 0).1).tryCatch (G.handleFailure request)).Keeps
        (G.duringRun B run) c (fun _ => True)
        (fun res r => Withheld res r ↔ G.Held request s (inputs 0).1) r := by
    intro r hr hnone hquiet
    refine Procedure.keeps_tryCatch.mpr
      ((callBody_withheld happroval hr hnone hquiet).imp trivial ?_)
    rintro (f | response) r' - hends
    · exact handleFailure_withheld hends
    · exact hends
  have hnone : ¬ Dispatched ((Run.start s : Run gatewayInterface κ (GatewayState A)).perform
      (G.duringRun B run) c .clock (inputs 0)) := by
    intro h
    obtain ⟨d, hd, -⟩ := (dispatched_perform (by exact trivial) (inputs 0)).mp h
    cases hd
  have hquiet : ∀ d ∈ ((Run.start s : Run gatewayInterface κ (GatewayState A)).perform
      (G.duringRun B run) c .clock (inputs 0)).past, ∀ record, d.op ≠ .audit record := by
    intro d hd record
    rcases List.mem_cons.mp hd with rfl | hd
    · simp
    · cases hd
  exact (hcall _ rfl hnone hquiet).run fun n => inputs (n + 1)

end Withheld

end McpGateway

/-! ## The call of the engine -/

namespace McpGateway

/-- The checks of a tool in the registry end with its metadata. -/
theorem held_iff_of_lookup {A : Type} {G : McpGateway} {request : GatewayToolRequest}
    {metadata : ToolMetadata} (hmetadata : G.registry.lookup request.toolName = some metadata)
    (s : GatewayState A) (now : Time) :
    G.Held request s now ↔ (∃ e, G.checks request s now = .error e) ∨
      ∃ principal, G.checks request s now = .ok (principal, metadata) ∧
        HeldByKey metadata (s.idempotency.reserve principal request.idempotencyKey now).1 := by
  -- the metadata of the checks are those of the lookup
  have hsame : ∀ principal metadata', G.checks request s now = .ok (principal, metadata') →
      metadata' = metadata := by
    intro principal metadata' h
    have hfound : G.metadata request.toolName = .ok metadata := by
      rw [McpGateway.metadata, hmetadata]
    unfold checks at h
    rw [hfound] at h
    split at h
    · cases h
    · dsimp only at h
      split at h <;> cases h
      rfl
  cases hchecks : G.checks request s now with
  | error e => exact iff_of_true (held_of_error hchecks) (Or.inl ⟨e, rfl⟩)
  | ok checked =>
      obtain ⟨principal, metadata'⟩ := checked
      cases hsame principal metadata' hchecks
      rw [held_iff hchecks]
      constructor
      · exact fun h => Or.inr ⟨principal, rfl, h⟩
      · rintro (⟨e, he⟩ | ⟨principal', h, hheld⟩)
        · cases he
        · cases h
          exact hheld

end McpGateway

/-- When the execution policy allows a node with approval only, its tool requires an approval or
has a high risk; and the call that the engine makes for the node leaves the tool alone exactly
when a check of the gateway refuses the call, its key is taken, or the tool requires an
approval. -/
theorem policy_approval_enforced_iff {A κ : Type} {G : McpGateway} {B : ApprovalBackend A}
    {P : WorkflowPolicyEvaluator} {node : WorkflowNode} {metadata : ToolMetadata}
    {role environment : String} (hpolicy : P.registry.lookup node.toolName = some metadata)
    (hgateway : G.registry.lookup node.toolName = some metadata)
    (hdecides : P.decides node role environment .execution = .allowWithApproval)
    (happroval : node.approvalId = none) {request : GatewayToolRequest}
    (hrequest : Requests node request) (s : GatewayState A) (run : ToolRun) (c : κ)
    (inputs : ℕ → Time × UUID) :
    (metadata.requiresApproval ∨ metadata.riskLevel ∈ highRisk) ∧
    (McpGateway.Withheld ((G.callTool request).run (G.duringRun B run) c inputs (.start s)).1
        ((G.callTool request).run (G.duringRun B run) c inputs (.start s)).2 ↔
      (∃ e, G.checks request s (inputs 0).1 = .error e) ∨
        ∃ principal, G.checks request s (inputs 0).1 = .ok (principal, metadata) ∧
          McpGateway.HeldByKey metadata
            (s.idempotency.reserve principal request.idempotencyKey (inputs 0).1).1) := by
  refine ⟨?_, ?_⟩
  · rw [WorkflowPolicyEvaluator.decides, WorkflowPolicyEvaluator.verdict, hpolicy] at hdecides
    exact requiresApproval_or_highRisk hdecides
  · rw [← McpGateway.held_iff_of_lookup (by rw [hrequest.toolName, hgateway])]
    exact McpGateway.callTool_withheld_iff (hrequest.approvalId.trans happroval) s run c inputs

/-! ### A restart that a workflow asks for -/

/-- The first attempt at restarting a device in a workflow. -/
def restartAttempt : WorkflowNode where
  id := "restart"
  workflowId := some 5
  toolName := "restart_device"
  toolServer := "device-mcp"
  description := "Restart the device."
  arguments := [("device_id", .str "dev-1")]
  riskLevel := "HIGH"
  executionStatus := .running
  attempts := 1
  id_length := restartId_length

theorem restartAttempt_key_length : 8 ≤ restartAttempt.idempotencyKey.length ∧
    restartAttempt.idempotencyKey.length ≤ 160 := by
  simp only [restartAttempt, WorkflowNode.idempotencyKey, Option.elim_some, toString,
    String.length_append, UUID.length_str]
  decide

theorem restartAttempt_tool_length : 1 ≤ restartAttempt.toolName.length := by decide

theorem restartAttempt_node_length :
    ∀ nodeId ∈ some restartAttempt.id, nodeId.length ≤ 120 := by
  rintro _ ⟨⟩
  decide

/-- The call that is made for it. -/
def restartAttemptRequest : GatewayToolRequest where
  authToken := SmallUser.operator.token
  toolName := restartAttempt.toolName
  arguments := restartAttempt.arguments
  idempotencyKey := restartAttempt.idempotencyKey
  correlationId := 1
  workflowId := restartAttempt.workflowId
  workflowNodeId := some restartAttempt.id
  authToken_length := SmallUser.operator.token_length
  toolName_length := restartAttempt_tool_length
  idempotencyKey_length := restartAttempt_key_length
  workflowNodeId_length := restartAttempt_node_length

theorem requests_restartAttempt : Requests restartAttempt restartAttemptRequest :=
  ⟨rfl, rfl, rfl, rfl, rfl⟩

/-- A tool of high risk that was registered without `requires_approval`. -/
def unflaggedRestart : ToolMetadata := { ToolRegistry.restartDevice with requiresApproval := false }

/-- The policies that look at one tool. -/
def policyOn (metadata : ToolMetadata) : WorkflowPolicyEvaluator where
  registry := [("restart_device", metadata)]
  runtime := .plain

/-- The small gateway with one tool. -/
def gatewayOn (metadata : ToolMetadata) : McpGateway :=
  { McpGateway.small with registry := [("restart_device", metadata)] }

/-- The flagged tool waits for its approval in staging. -/
theorem policy_approval_enforced_flagged :
    McpGateway.Withheld
      (((gatewayOn ToolRegistry.restartDevice).callTool restartAttemptRequest).run
        ((gatewayOn ToolRegistry.restartDevice).duringRun ApprovalStore.backend (Env.at 5).toolRun)
        () (fun _ => (seconds 5, 1)) (.start .inMemory)).1
      (((gatewayOn ToolRegistry.restartDevice).callTool restartAttemptRequest).run
        ((gatewayOn ToolRegistry.restartDevice).duringRun ApprovalStore.backend (Env.at 5).toolRun)
        () (fun _ => (seconds 5, 1)) (.start .inMemory)).2 := by
  have hdecides : (policyOn ToolRegistry.restartDevice).decides restartAttempt "OPERATOR" "staging"
      .execution = .allowWithApproval := by
    decide
  refine (policy_approval_enforced_iff rfl rfl hdecides rfl requests_restartAttempt .inMemory _ ()
    _).2.mpr ?_
  exact .inr ⟨⟨"operator-1", .operator, .human⟩, by rfl, rfl⟩

/-- The unflagged one is restarted. -/
theorem unflagged_restart_dispatched :
    ¬ ∀ (A κ : Type) (G : McpGateway) (B : ApprovalBackend A) (P : WorkflowPolicyEvaluator)
      (node : WorkflowNode) (metadata : ToolMetadata) (role environment : String),
      P.registry.lookup node.toolName = some metadata →
      G.registry.lookup node.toolName = some metadata →
      P.decides node role environment .execution = .allowWithApproval → node.approvalId = none →
      ∀ request, Requests node request → ∀ (s : GatewayState A) (run : ToolRun) (c : κ) inputs,
        McpGateway.Withheld ((G.callTool request).run (G.duringRun B run) c inputs (.start s)).1
          ((G.callTool request).run (G.duringRun B run) c inputs (.start s)).2 := by
  intro hclaim
  have hwithheld := hclaim ApprovalStore Unit (gatewayOn unflaggedRestart) ApprovalStore.backend
    (policyOn unflaggedRestart) restartAttempt unflaggedRestart "OPERATOR" "staging" rfl rfl
    (by decide) rfl restartAttemptRequest requests_restartAttempt .inMemory (Env.at 5).toolRun ()
    (fun _ => (seconds 5, 1))
  rw [McpGateway.callTool_withheld_iff rfl] at hwithheld
  have hchecks : (gatewayOn unflaggedRestart).checks restartAttemptRequest
      (GatewayState.inMemory : GatewayState ApprovalStore) (seconds 5) =
      .ok (⟨"operator-1", .operator, .human⟩, unflaggedRestart) := by
    rfl
  rw [McpGateway.held_iff hchecks] at hwithheld
  cases hwithheld

end McpOps
