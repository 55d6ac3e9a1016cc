import McpOps.Gateway.Replay
import McpOps.Python.Json
import McpOps.Workflow.RunSafety

/-!
# The tool calls of a workflow

Every tool call of a sequence of calls on the engine has an idempotency key made of the
workflow, the node and the number of the attempt.  The attempts of a node are numbered in the
order of the calls, so keys are repeated in one place only: the compensation of a node shares
the key of the attempt that has failed.  The second part is about tools that must not be tried
again.

## Strategy

`Dispatch` gathers what is known of one tool call of a history: its workflow as it is stored, its
node there, and the node as the call has read it.  Two tool calls are then compared.

* By one call: the second one for a node is the compensation after an attempt that was refused
  (`Traced.compensates`).
* By different calls: the later call has read the workflow after the earlier one had stored its
  attempt (`Traced.before_opening`), and the numbers of attempts never go down
  (`Traced.attemptsReach_step`).  So the later number is greater.

`idempotencyKey_injective` turns equal keys into equal nodes and numbers (`Dispatch.eq_of_key`), and
`runCalls_keysDistinct` follows.  For tools that must not be tried again, a second hand-over needs a
call that takes the node up again, which is what `NeverTakesUpAgain` excludes, or a compensation
with the tool itself (`runCalls_attemptedOnce`).  The runs at the end show that neither condition
can be dropped.
-/

namespace McpOps

open Proc WorkflowPlanningService

/-! ## Keys -/

/-- The part after the last `x` of a list is determined by the list. -/
theorem append_cons_inj_right {α : Type} {x : α} {p p' d d' : List α} (hd : x ∉ d) (hd' : x ∉ d')
    (h : p ++ x :: d = p' ++ x :: d') : p = p' ∧ d = d' := by
  rcases List.append_eq_append_iff.mp h with ⟨l, rfl, hl⟩ | ⟨l, rfl, hl⟩
  · cases l with
    | nil => exact ⟨(List.append_nil p).symm, (List.cons.inj hl).2⟩
    | cons y l =>
        obtain ⟨-, rfl⟩ := List.cons.inj hl
        exact absurd (List.mem_append_right l (List.mem_cons_self ..)) hd
  · cases l with
    | nil => exact ⟨List.append_nil p', (List.cons.inj hl).2.symm⟩
    | cons y l =>
        obtain ⟨-, rfl⟩ := List.cons.inj hl
        exact absurd (List.mem_append_right l (List.mem_cons_self ..)) hd'

/-- A key tells the workflow, the node and the number of the attempt, also when the id of the
node looks like the end of a key. -/
theorem idempotencyKey_injective {n n' : WorkflowNode} {w w' : UUID} (hw : n.workflowId = some w)
    (hw' : n'.workflowId = some w') (h : n.idempotencyKey = n'.idempotencyKey) :
    w = w' ∧ n.id = n'.id ∧ max n.attempts 1 = max n'.attempts 1 := by
  have hdash : ∀ k : ℕ, '-' ∉ Nat.toDigits 10 k := fun k hmem => by
    have hdigit := Nat.isDigit_of_mem_toDigits (by decide) (by decide) hmem
    cases hdigit
  have hform : ∀ {n : WorkflowNode} {w : UUID}, n.workflowId = some w → n.idempotencyKey.toList =
      ("workflow-".toList ++ (UUID.str w).toList ++ ("-".toList ++ n.id.toList ++
        "-attempt".toList)) ++ '-' :: Nat.toDigits 10 (max n.attempts 1) := by
    intro n w hw
    rw [WorkflowNode.idempotencyKey, hw]
    simp [String.toList_append, toString]
  have hlist := congrArg String.toList h
  rw [hform hw, hform hw'] at hlist
  obtain ⟨hfront, hdigits⟩ := append_cons_inj_right (hdash _) (hdash _) hlist
  obtain ⟨hfront, hid⟩ := List.append_inj hfront (by simp [String.length_toList, UUID.length_str])
  obtain ⟨-, hstr⟩ := List.append_inj hfront rfl
  obtain ⟨hid, -⟩ := List.append_inj' hid rfl
  obtain ⟨-, hid⟩ := List.append_inj hid rfl
  exact ⟨UUID.str_injective (String.toList_inj.mp hstr), String.toList_inj.mp hid,
    toDigits_injective hdigits⟩

/-! ## Two tool calls of one history -/

section Calls

variable {E : WorkflowPlanningService} {calls : ℕ → WorkflowCall} {s : InMemoryWorkflowRepository}
  {r : EngineRun}

theorem mem_sent {done earlier : List EngineEvent} {request : GatewayToolRequest}
    {answer : Except ClientError GatewayToolResponse}
    (h : ⟨.callTool request, answer⟩ :: earlier <:+ done) :
    ⟨request, answer, touched earlier⟩ ∈ sent done := by
  induction done with
  | nil => exact absurd (List.eq_nil_of_suffix_nil h) (List.cons_ne_nil _ _)
  | cons e rest ih =>
      rcases List.suffix_cons_iff.mp h with heq | h
      · obtain ⟨rfl, rfl⟩ := List.cons.inj heq
        exact List.mem_cons_self ..
      · have hmem := ih h
        obtain ⟨o, a⟩ := e
        cases o with
        | callTool request => exact List.mem_cons_of_mem _ hmem
        | _ => exact hmem

/-- A call reads one workflow. -/
theorem opened_of_suffix {call : WorkflowCall} {done earlier : List EngineEvent}
    (hok : AllOk E call done) (h : earlier <:+ done) {workflow : Workflow}
    (hopened : opened earlier = some workflow) : opened done = some workflow := by
  induction done with
  | nil =>
      rw [List.eq_nil_of_suffix_nil h] at hopened
      exact hopened
  | cons e rest ih =>
      rcases List.suffix_cons_iff.mp h with heq | h
      · exact heq ▸ hopened
      · have hrest := ih (fun e' earlier h' => hok e' earlier (h'.trans (List.suffix_cons _ _))) h
        have hgot : EngineEvent.got e = none := by
          obtain ⟨o, a⟩ := e
          cases o with
          | getWorkflow workflowId =>
              obtain ⟨-, hnil⟩ := (hok _ _ (List.suffix_refl _)).gets workflowId rfl
              rw [hnil] at hrest
              cases hrest
          | _ => rfl
        rw [opened, List.findSome?_cons, hgot]
        exact hrest

/-- A tool call: its workflow as it is stored, its node, and the node as its call has read it. -/
structure Dispatch (E : WorkflowPlanningService) (calls : ℕ → WorkflowCall) (d : EngineStep)
    (older : List EngineStep) (request : GatewayToolRequest) (workflow₀ workflow : Workflow)
    (node₀ node : WorkflowNode) : Prop where
  opened : opened (own d.caller older) = some workflow₀
  stored : d.before.getWorkflow workflow.id = some workflow
  sound : workflow.Sound
  sound₀ : workflow₀.Sound
  id : workflow.id = (calls d.caller).workflowId
  mem : node ∈ workflow.nodes
  mem₀ : node₀ ∈ workflow₀.nodes
  hands : Hands E node request (sent (own d.caller older))
  takesUp : E.takesUp (calls d.caller) node₀
  plan : node.plan = node₀.plan
  attempts : node.attempts = node₀.attempts + 1

theorem Traced.dispatch (h : Traced E calls s r) (hunraced : Unraced calls r) {d : EngineStep}
    {older : List EngineStep} (hd : After r d older) {request : GatewayToolRequest}
    (hcall : d.op = .callTool request) :
    ∃ workflow₀ workflow node₀ node,
      Dispatch E calls d older request workflow₀ workflow node₀ node := by
  obtain ⟨workflow₀, workflow, hopened, hstored, -, node, hnode, hhands, -, node₀, hmem₀, htakes,
    hplan, hattempts, -⟩ := h.sends_stored hunraced hd hcall
  obtain ⟨hid, hsound⟩ := h.sound_before hd _ _ hstored
  obtain ⟨d₀, older₀, hd₀, -, -, hread⟩ := (h.before hd).opened_step hopened
  have hsound₀ := (h.before hd).sound_before hd₀ _ _ hread
  exact ⟨workflow₀, workflow, node₀, node, hopened, by rwa [hid], hsound, hsound₀.2, hid, hnode,
    hmem₀, hhands, htakes, hplan, hattempts⟩

theorem Dispatch.workflowId {d : EngineStep} {older : List EngineStep}
    {request : GatewayToolRequest} {workflow₀ workflow : Workflow} {node₀ node : WorkflowNode}
    (h : Dispatch E calls d older request workflow₀ workflow node₀ node) :
    node.workflowId = some workflow.id := h.sound.workflowId node h.mem

/-- An earlier step of an earlier call came before the call read its workflow. -/
theorem Traced.before_opening (h : Traced E calls s r) (hordered : Ordered r.past)
    {d e : EngineStep} {older older' : List EngineStep} (he : After r e older')
    (hd : d :: older <:+ older') (hcaller : d.caller < e.caller) {workflow₀ : Workflow}
    (hopened : opened (own e.caller older') = some workflow₀) :
    ∃ d₀ older₀, After r d₀ older₀ ∧ d₀.caller = e.caller ∧
      d₀.op = .getWorkflow (calls e.caller).workflowId ∧
      d₀.before.getWorkflow (calls e.caller).workflowId = some workflow₀ ∧
      d :: older <:+ older₀ := by
  obtain ⟨d₀, older₀, hd₀, hsame, hget, hread⟩ := (h.before he).opened_step hopened
  refine ⟨d₀, older₀, hd₀.trans ((List.suffix_cons e older').trans he), hsame, hget, hread, ?_⟩
  rcases List.suffix_or_suffix_of_suffix hd hd₀ with hle | hle
  · rcases List.suffix_cons_iff.mp hle with heq | hle
    · cases heq
      exact absurd hsame hcaller.ne
    · exact hle
  · rcases List.suffix_cons_iff.mp hle with heq | hle
    · cases heq
      exact absurd hsame hcaller.ne
    · -- the call would have read its workflow before an earlier call was over
      have hpairs := (hordered.of_suffix ((hd.trans (List.suffix_cons e older')).trans he))
      have hge := (List.pairwise_cons.mp hpairs).1 _
        (List.mem_map_of_mem (hle.mem (List.mem_cons_self ..)))
      omega

theorem Traced.caller_le (hordered : Ordered r.past) {d e : EngineStep}
    {older older' : List EngineStep} (he : After r e older') (hd : d :: older <:+ older') :
    d.caller ≤ e.caller :=
  (List.pairwise_cons.mp (hordered.of_suffix he)).1 _
    (List.mem_map_of_mem (hd.mem (List.mem_cons_self ..)))

/-- A second tool call for a node by the same call is the compensation after an attempt that
was refused. -/
theorem Traced.compensates (h : Traced E calls s r) (hunraced : Unraced calls r)
    {d e : EngineStep} {older older' : List EngineStep} (he : After r e older')
    (hd : d :: older <:+ older') (hcaller : d.caller = e.caller)
    {request request' : GatewayToolRequest} {answer : Except ClientError GatewayToolResponse}
    (hevent : d.event = ⟨.callTool request, answer⟩)
    {workflow₀ workflow workflow₀' workflow' : Workflow} {node₀ node node₀' node' : WorkflowNode}
    (hdispatch : Dispatch E calls d older request workflow₀ workflow node₀ node)
    (hdispatch' : Dispatch E calls e older' request' workflow₀' workflow' node₀' node')
    (hid : node.id = node'.id) :
    node.executionStatus = .running ∧ node'.plan = node.plan ∧ E.Refuses node answer ∧
      ∃ tool, tool ≠ "" ∧ node'.compensationTool = some tool ∧ request'.toolName = tool := by
  have hown : ⟨.callTool request, answer⟩ :: own e.caller older <:+ own e.caller older' := by
    rw [← hevent, ← hcaller, ← own_cons_self]
    exact own_suffix d.caller hd
  have hmem := mem_sent hown
  have habout : node.id = node'.id → Handed.About node'.id
      ⟨request, answer, touched (own e.caller older)⟩ := fun hid => by
    rw [Handed.About, hdispatch.hands.request.1, hid]
  rcases hdispatch'.hands with ⟨-, -, hunsent⟩ | ⟨-, ⟨tool, hne, htool, hrequest⟩, hrefuses⟩
  · exact absurd (habout hid) (hunsent _ hmem)
  · obtain ⟨hrefuses, stored, hstored, m, hm, hmid, hrunning⟩ := hrefuses _ hmem (habout hid)
    -- the node that was attempted is the one in the stored workflow
    have hd' : After r d older := hd.trans ((List.suffix_cons e older').trans he)
    have hcall : d.op = .callTool request := congrArg Sigma.fst hevent
    have htouched := hunraced d older hd' (Or.inr ⟨request, hcall⟩)
    rw [← hdispatch.id, hdispatch.stored, hcaller] at htouched
    rw [← htouched] at hstored
    cases hstored
    have hsame := List.inj_on_of_nodup_map hdispatch.sound.nodup hm hdispatch.mem
      (hmid.trans hid.symm)
    subst hsame
    -- both were read as the same node
    have hopened := opened_of_suffix ((h.before he).allOk e.caller)
      ((List.suffix_cons _ _).trans hown) (hcaller ▸ hdispatch.opened)
    have hworkflow₀ := Option.some.inj (hopened.symm.trans hdispatch'.opened)
    subst hworkflow₀
    have hnode₀ := List.inj_on_of_nodup_map hdispatch.sound₀.nodup hdispatch.mem₀ hdispatch'.mem₀
      (by rw [← id_of_plan hdispatch.plan, ← id_of_plan hdispatch'.plan, hid])
    subst hnode₀
    have hplan : node'.plan = m.plan := hdispatch'.plan.trans hdispatch.plan.symm
    refine ⟨hrunning, hplan, ?_, tool, hne, htool, hrequest.toolName⟩
    refine (refuses_congr hplan ?_).mp hrefuses
    rw [hdispatch.attempts, hdispatch'.attempts]

/-! ## Distinct keys -/

/-- The request of a tool call. -/
def request? (d : EngineStep) : Option GatewayToolRequest :=
  match d.op with
  | .callTool request => some request
  | _ => none

/-- The requests of all tool calls, the last one first. -/
def requests (r : EngineRun) : List GatewayToolRequest := r.past.filterMap request?

/-- All tool calls have different idempotency keys. -/
def KeysDistinct (r : EngineRun) : Prop := ((requests r).map (·.idempotencyKey)).Nodup

/-- A gateway whose store holds no response answers none of the requests with what it has
answered to another one. -/
def NoneReplayed (requests : List GatewayToolRequest) : Prop :=
  ∀ (A : Type) (G : McpGateway) (B : ApprovalBackend A) (s : GatewayState A),
    (∀ key rec, s.idempotency.keys.get? key = some rec → rec.response = none) →
    ∀ (schedule : List (Fin requests.length × Env)) d older,
      d :: older <:+ (G.interleaveCalls B s (fun i => .callTool (requests.get i)) schedule).past →
      ∀ principal idempotencyKey now response, d.event = ⟨.reserve principal idempotencyKey now,
        (.ok (some response) : Except GatewayError (Option GatewayToolResponse))⟩ →
        lastCompletion (principal.principalId, idempotencyKey) older = some (d.caller, response)

theorem request?_eq_some {d : EngineStep} {request : GatewayToolRequest} :
    request? d = some request ↔ d.op = .callTool request := by
  rw [request?]
  cases d.op <;> simp

/-- Requests with different keys are not answered with each other's responses. -/
theorem noneReplayed_of_nodup {requests : List GatewayToolRequest}
    (h : (requests.map (·.idempotencyKey)).Nodup) : NoneReplayed requests := by
  intro A G B s hstart schedule d older hd principal idempotencyKey now response hevent
  obtain ⟨c, hlast, principal', principal'', key, ⟨request, hc, -, hkey⟩, ⟨request', hd', -, hkey'⟩,
    -⟩ := exists_completion_of_replay hstart hd hevent
  cases hc
  cases hd'
  have hinj := List.nodup_iff_injective_get.mp h
  have hsame : c = d.caller := by
    have hcast := @hinj (c.cast (by simp)) (d.caller.cast (by simp))
      (by simpa using hkey.trans hkey'.symm)
    simpa [Fin.ext_iff] using hcast
  rw [hlast, hsame]

/-- What is related to everything before it, at every place of a history. -/
theorem pairwise_of_suffix {α : Type} {R : α → α → Prop} {l : List α}
    (h : ∀ a rest, a :: rest <:+ l → ∀ b ∈ rest, R a b) : l.Pairwise R := by
  induction l with
  | nil => exact .nil
  | cons a rest ih =>
      refine .cons (h a rest (List.suffix_refl _)) (ih fun b later hb => ?_)
      exact h b later (hb.trans (List.suffix_cons _ _))

/-- The engine takes the answer for the node as a failure that is not to be retried. -/
def WorkflowPlanningService.refuses (E : WorkflowPlanningService) (node : WorkflowNode) :
    Except ClientError GatewayToolResponse → Bool
  | .ok response =>
      response.decision ≠ .pendingApproval && !response.ok &&
        !(transientFailure response && retryAllowed node (E.toolRegistry.lookup node.toolName))
  | .error (.other ..) => false
  | .error _ => !retryAllowed node (E.toolRegistry.lookup node.toolName)

/-- What a client raises is a failure that may be retried. -/
theorem refuses_failureResponse {node : WorkflowNode} {code message : String}
    (hcode : code ∈ ["timeout", "network_failure", "tool_server_unavailable"]) :
    (∃ response, (failureResponse node code message).Returns response ∧
      response.decision ≠ .pendingApproval ∧ response.ok = false ∧
      ¬ (transientFailure response ∧ retryAllowed node (E.toolRegistry.lookup node.toolName))) ↔
      retryAllowed node (E.toolRegistry.lookup node.toolName) = false := by
  have htransient : ∀ response, (failureResponse node code message).Returns response →
      transientFailure response ∧ response.decision = .denied ∧ response.ok = false := by
    intro response h
    obtain ⟨id, -, h⟩ := Procedure.returns_bind.mp h
    rw [← Procedure.returns_pure.mp h]
    refine ⟨?_, rfl, rfl⟩
    simp only [List.mem_cons, List.not_mem_nil, or_false] at hcode
    rcases hcode with rfl | rfl | rfl <;> rfl
  constructor
  · rintro ⟨response, hresponse, -, -, hretry⟩
    exact Bool.eq_false_iff.mpr fun h => hretry ⟨(htransient response hresponse).1, h⟩
  · intro hretry
    refine ⟨_, Procedure.returns_bind.mpr ⟨0, ⟨0, rfl⟩, rfl⟩, (fun h => by cases h), rfl,
      fun h => ?_⟩
    rw [hretry] at h
    cases h.2

theorem refuses_iff {node : WorkflowNode} {answer : Except ClientError GatewayToolResponse} :
    E.Refuses node answer ↔ E.refuses node answer := by
  rw [WorkflowPlanningService.Refuses, WorkflowPlanningService.refuses.eq_def]
  cases answer with
  | ok response =>
      simp [responseOf, imp_iff_not_or, and_assoc]
  | error e =>
      cases e with
      | timeout message =>
          rw [Bool.not_eq_true']
          exact refuses_failureResponse (by decide)
      | connection message =>
          rw [Bool.not_eq_true']
          exact refuses_failureResponse (by decide)
      | runtime message =>
          rw [Bool.not_eq_true']
          exact refuses_failureResponse (by decide)
      | other cls message =>
          refine ⟨fun hrefuses => ?_, fun h => by cases h⟩
          obtain ⟨_, hreturns, -⟩ := hrefuses
          exact absurd hreturns id

/-- An attempt at a node of a kind is refused. -/
def refusesAttempt (E : WorkflowPlanningService) (calls : ℕ → WorkflowCall)
    (kind : WorkflowNode → Bool) : EngineStep → Bool
  | ⟨caller, .callTool request, answer, before, _⟩ =>
      (before.getWorkflow (calls caller).workflowId).any fun workflow =>
        workflow.nodes.any fun node => request.workflowNodeId = some node.id ∧
          node.executionStatus = .running ∧ kind node ∧ E.refuses node answer
  | _ => false

/-- No attempt at a node with a compensation tool is refused. -/
def NeverCompensates (E : WorkflowPlanningService) (calls : ℕ → WorkflowCall) (r : EngineRun) :
    Prop :=
  ∀ d ∈ r.past, refusesAttempt E calls (fun node => node.compensationTool.any (· ≠ "")) d = false

theorem Dispatch.refusesAttempt {d : EngineStep} {older : List EngineStep}
    {request : GatewayToolRequest} {answer : Except ClientError GatewayToolResponse}
    {workflow₀ workflow : Workflow} {node₀ node : WorkflowNode}
    (h : Dispatch E calls d older request workflow₀ workflow node₀ node)
    (hevent : d.event = ⟨.callTool request, answer⟩) (hrunning : node.executionStatus = .running)
    (kind : WorkflowNode → Bool) (hkind : kind node) (hrefuses : E.Refuses node answer) :
    refusesAttempt E calls kind d = true := by
  obtain ⟨caller, op, answer', before, after⟩ := d
  cases hevent
  have hstored := h.stored
  rw [h.id] at hstored
  simp only [McpOps.refusesAttempt]
  rw [show before.getWorkflow (calls caller).workflowId = some workflow from hstored,
    Option.any_some, List.any_eq_true]
  exact ⟨node, h.mem, decide_eq_true ⟨h.hands.request.1, hrunning, hkind, refuses_iff.mp hrefuses⟩⟩

theorem exists_event {d : EngineStep} {request : GatewayToolRequest}
    (hcall : d.op = .callTool request) : ∃ answer, d.event = ⟨.callTool request, answer⟩ := by
  obtain ⟨caller, op, answer, before, after⟩ := d
  cases hcall
  exact ⟨answer, rfl⟩

/-- Whether the node of the id has been attempted so often in the stored workflow. -/
def AttemptsReach (workflowId : UUID) (nodeId : String) (attempts : ℕ)
    (s : InMemoryWorkflowRepository) : Prop :=
  ∃ workflow, s.getWorkflow workflowId = some workflow ∧
    ∃ node ∈ workflow.nodes, node.id = nodeId ∧ attempts ≤ node.attempts

/-- The numbers of attempts never go down. -/
theorem Traced.attemptsReach_step (h : Traced E calls s r) (hunraced : Unraced calls r)
    {d : EngineStep} {older : List EngineStep} (hd : After r d older) {workflowId : UUID}
    {nodeId : String} {attempts : ℕ} (hreach : AttemptsReach workflowId nodeId attempts d.before) :
    AttemptsReach workflowId nodeId attempts d.after := by
  cases hsaved : d.op.saved with
  | none =>
      rw [h.after_eq_before hd hsaved]
      exact hreach
  | some new =>
      obtain ⟨workflow₀, workflow, -, hstored, hsaves, hafter⟩ := h.saves_stored hunraced hd hsaved
      obtain ⟨workflow', hstored', node, hnode, rfl, hle⟩ := hreach
      rw [AttemptsReach, hafter]
      split
      · rename_i hid
        rw [hid, hstored] at hstored'
        cases hstored'
        obtain ⟨i, hi, rfl⟩ := List.getElem_of_mem hnode
        have hi' : i < new.nodes.length := hsaves.nodes.length_eq ▸ hi
        have hstep := hsaves.nodes.get hi hi'
        exact ⟨new, rfl, _, List.getElem_mem hi', id_of_plan hstep.plan, hle.trans hstep.attempts⟩
      · exact ⟨workflow', hstored', node, hnode, rfl, hle⟩

/-- Tool calls with the same key are for one attempt at one node. -/
theorem Dispatch.eq_of_key {d e : EngineStep} {older older' : List EngineStep}
    {request request' : GatewayToolRequest} {workflow₀ workflow workflow₀' workflow' : Workflow}
    {node₀ node node₀' node' : WorkflowNode}
    (h : Dispatch E calls d older request workflow₀ workflow node₀ node)
    (h' : Dispatch E calls e older' request' workflow₀' workflow' node₀' node')
    (hkey : request.idempotencyKey = request'.idempotencyKey) :
    workflow.id = workflow'.id ∧ node.id = node'.id ∧ node.attempts = node'.attempts := by
  rw [h.hands.request.2.2.1, h'.hands.request.2.2.1] at hkey
  obtain ⟨hworkflow, hnode, hattempts⟩ :=
    idempotencyKey_injective h.workflowId h'.workflowId hkey
  have hleast := h.attempts
  have hleast' := h'.attempts
  exact ⟨hworkflow, hnode, by omega⟩

/-- Calls that come one after the other, in which no attempt at a node with a compensation tool
is refused, have distinct keys. -/
theorem Traced.keysDistinct (h : Traced E calls s r) (hordered : Ordered r.past)
    (hnever : NeverCompensates E calls r) : KeysDistinct r := by
  have hunraced := h.unraced hordered
  refine List.pairwise_map.mpr (List.pairwise_filterMap.mpr (pairwise_of_suffix
    fun e older' he d hmem request' hrequest' request hrequest hsame => ?_))
  have hcall' := request?_eq_some.mp hrequest'
  have hcall := request?_eq_some.mp hrequest
  -- `d` is the earlier call and `e` the later one
  obtain ⟨newer, older, hsplit⟩ := List.append_of_mem hmem
  have hd : d :: older <:+ older' := ⟨newer, hsplit.symm⟩
  have hd' : After r d older := hd.trans ((List.suffix_cons e older').trans he)
  obtain ⟨workflow₀, workflow, node₀, node, hdispatch⟩ := h.dispatch hunraced hd' hcall
  obtain ⟨workflow₀', workflow', node₀', node', hdispatch'⟩ := h.dispatch hunraced he hcall'
  obtain ⟨hworkflow, hid, hattempts⟩ := hdispatch.eq_of_key hdispatch' hsame.symm
  rcases (Traced.caller_le hordered he hd).lt_or_eq with hcaller | hcaller
  · -- the later call has read the number of the attempt
    obtain ⟨d₀, older₀, hd₀, -, -, hread, hle⟩ :=
      h.before_opening hordered he hd hcaller hdispatch'.opened
    have hreach : AttemptsReach workflow.id node.id node.attempts d.before :=
      ⟨workflow, hdispatch.stored, node, hdispatch.mem, rfl, le_rfl⟩
    obtain ⟨read, hstored, n, hn, hnid, hn'⟩ := h.reached.chain_before
      (R := fun s t => AttemptsReach workflow.id node.id node.attempts s →
        AttemptsReach workflow.id node.id node.attempts t)
      (fun _ _ _ hst htu hs => htu (hst hs))
      (fun d older hd => h.attemptsReach_step hunraced hd) hd₀ hle hreach
    rw [hworkflow, hdispatch'.id, hread] at hstored
    cases hstored
    have hread := List.inj_on_of_nodup_map hdispatch'.sound₀.nodup hn hdispatch'.mem₀
      (by rw [hnid, hid, id_of_plan hdispatch'.plan])
    subst hread
    have hnext := hdispatch'.attempts
    omega
  · -- two calls for one node in one operation: the second one compensates
    obtain ⟨answer, hevent⟩ := exists_event hcall
    obtain ⟨hrunning, hplan, hrefuses, tool, hne, htool, -⟩ :=
      h.compensates hunraced he hd hcaller hevent hdispatch hdispatch' hid
    have hcompensable : node.compensationTool.any (· ≠ "") := by
      rw [← compensationTool_of_plan hplan, htool]
      exact decide_eq_true hne
    have htrue := hdispatch.refusesAttempt hevent hrunning
      (fun node => node.compensationTool.any (· ≠ "")) hcompensable hrefuses
    rw [hnever d (hd'.mem (List.mem_cons_self ..))] at htrue
    cases htrue

/-- In every sequence of calls, some of them abandoned on the way, in which no attempt at a node
with a compensation tool is refused, all tool calls have different keys, and the gateway answers
each of them on its own merits. -/
theorem runCalls_keysDistinct (hs : E.AcceptsAll s) (calls : ℕ → WorkflowCall)
    {schedule : List (ℕ × EngineEnv)} (hsequential : Sequential schedule)
    (hnever : NeverCompensates E calls (E.runCalls s calls schedule)) :
    KeysDistinct (E.runCalls s calls schedule) ∧
      NoneReplayed (requests (E.runCalls s calls schedule)) := by
  have hdistinct := (runCalls_traced hs.sound calls schedule).keysDistinct
    (runCalls_ordered hsequential) hnever
  exact ⟨hdistinct, noneReplayed_of_nodup hdistinct⟩

end Calls

/-- A reading that has failed is retried under another key. -/
theorem runCalls_keysDistinct_retried :
    KeysDistinct (WorkflowPlanningService.small.runCalls (.holding readOnce) retryFirst
      (engineTurns 0 (.at 6 (.ok unavailableResponse)) 32 ++
        engineTurns 1 (.at 8 (.ok succeededResponse)) 40)) ∧
      NoneReplayed (requests (WorkflowPlanningService.small.runCalls (.holding readOnce) retryFirst
        (engineTurns 0 (.at 6 (.ok unavailableResponse)) 32 ++
          engineTurns 1 (.at 8 (.ok succeededResponse)) 40))) :=
  runCalls_keysDistinct (acceptsAll_holding readOnce) _ (sequential_turns zero_le_one ..)
    (by unfold NeverCompensates; decide +kernel)

/-- The compensation of a node has the key of the attempt that has failed. -/
theorem compensated_under_same_key :
    ¬ ∀ (E : WorkflowPlanningService) (s : InMemoryWorkflowRepository) (calls : ℕ → WorkflowCall)
      (schedule : List (ℕ × EngineEnv)), E.AcceptsAll s → Sequential schedule →
        KeysDistinct (E.runCalls s calls schedule) := by
  intro hclaim
  have hdistinct := hclaim .small (.holding ticketOnce) (fun _ => .execute 5 "ENGINEER" none)
    (engineTurns 0 (.at 6 (.ok unavailableResponse)) 33) (acceptsAll_holding ticketOnce)
    (sequential_turn ..)
  unfold KeysDistinct at hdistinct
  exact absurd hdistinct (by decide +kernel)

/-! ## Tools that must not be tried again -/

section Once

variable {E : WorkflowPlanningService} {calls : ℕ → WorkflowCall} {s : InMemoryWorkflowRepository}
  {r : EngineRun}

/-- A step hands a node its own tool, which is neither idempotent nor safe to retry. -/
def handsOnce (E : WorkflowPlanningService) (workflowId : UUID) (nodeId : String)
    (d : EngineStep) : Bool :=
  (request? d).any fun request =>
    request.workflowId = some workflowId && request.workflowNodeId = some nodeId &&
      (d.before.getWorkflow workflowId).any fun workflow => workflow.nodes.any fun node =>
        node.id = nodeId && request.toolName = node.toolName &&
          !metadataRetryable (E.toolRegistry.lookup node.toolName)

/-- A tool call that is answered with a pending approval. -/
def answeredPending (d : EngineStep) : Bool :=
  match d.event with
  | ⟨.callTool _, .ok response⟩ => response.decision = .pendingApproval
  | _ => false

/-- Once a node has been handed its tool, and the answer was not a pending approval, the tool is
not handed to it again. -/
def AttemptedOnce (E : WorkflowPlanningService) (r : EngineRun) : Prop :=
  ∀ e newer, After r e newer → ∀ d ∈ newer, ∀ workflowId nodeId,
    handsOnce E workflowId nodeId d → handsOnce E workflowId nodeId e → answeredPending d

/-- A call reads a node that it takes up, although the tool of the node must not be tried again
and was handed to it before. -/
def takesUpAgain (E : WorkflowPlanningService) (calls : ℕ → WorkflowCall) (d : EngineStep)
    (older : List EngineStep) : Bool :=
  match d.op with
  | .getWorkflow workflowId =>
      (d.before.getWorkflow workflowId).any fun workflow => workflow.nodes.any fun node =>
        E.takesUp (calls d.caller) node && older.any fun d =>
          handsOnce E workflowId node.id d && !answeredPending d
  | _ => false

/-- No call takes up a node again whose tool must not be tried again. -/
def NeverTakesUpAgain (E : WorkflowPlanningService) (calls : ℕ → WorkflowCall) :
    List EngineStep → Bool
  | [] => true
  | d :: older => !takesUpAgain E calls d older && NeverTakesUpAgain E calls older

/-- No attempt at a node that is its own compensation is refused. -/
def NeverCompensatesWithItself (E : WorkflowPlanningService) (calls : ℕ → WorkflowCall)
    (r : EngineRun) : Prop :=
  ∀ d ∈ r.past, refusesAttempt E calls
    (fun node => !metadataRetryable (E.toolRegistry.lookup node.toolName) &&
      node.compensationTool = some node.toolName) d = false

theorem takesUpAgain_of_suffix {past older : List EngineStep} {d : EngineStep}
    (h : NeverTakesUpAgain E calls past) (hd : d :: older <:+ past) :
    takesUpAgain E calls d older = false := by
  induction past with
  | nil => exact absurd (List.eq_nil_of_suffix_nil hd) (List.cons_ne_nil _ _)
  | cons e rest ih =>
      rw [NeverTakesUpAgain, Bool.and_eq_true, Bool.not_eq_true'] at h
      rcases List.suffix_cons_iff.mp hd with heq | hd
      · cases heq
        exact h.1
      · exact ih h.2 hd

/-- What is handed over is the tool of the node that is stored. -/
theorem Dispatch.of_handsOnce {d : EngineStep} {older : List EngineStep}
    {request : GatewayToolRequest} {workflow₀ workflow : Workflow} {node₀ node : WorkflowNode}
    (h : Dispatch E calls d older request workflow₀ workflow node₀ node)
    (hcall : d.op = .callTool request) {workflowId : UUID} {nodeId : String}
    (hhands : handsOnce E workflowId nodeId d) :
    workflow.id = workflowId ∧ node.id = nodeId ∧ request.toolName = node.toolName ∧
      metadataRetryable (E.toolRegistry.lookup node.toolName) = false := by
  obtain ⟨hid, hworkflowId, -⟩ := h.hands.request
  rw [handsOnce, request?_eq_some.mpr hcall, Option.any_some] at hhands
  simp only [Bool.and_eq_true, decide_eq_true_eq, Option.any_eq_true, List.any_eq_true,
    Bool.not_eq_true'] at hhands
  obtain ⟨⟨hworkflow, hnode⟩, stored, hstored, m, hm, ⟨hmid, htool⟩, hretryable⟩ := hhands
  rw [hworkflowId, h.workflowId] at hworkflow
  cases hworkflow
  rw [hid] at hnode
  cases hnode
  rw [h.stored] at hstored
  cases hstored
  have hsame := List.inj_on_of_nodup_map h.sound.nodup hm h.mem hmid
  subst hsame
  exact ⟨rfl, rfl, htool, hretryable⟩

theorem exists_call_of_handsOnce {d : EngineStep} {workflowId : UUID} {nodeId : String}
    (h : handsOnce E workflowId nodeId d) : ∃ request, d.op = .callTool request := by
  obtain ⟨request, hrequest, -⟩ := (Option.any_eq_true ..).mp h
  exact ⟨request, request?_eq_some.mp hrequest⟩

/-- In every sequence of calls, some of them abandoned on the way, in which no call takes up a
node again whose tool must not be tried again, and none is compensated with its own tool, such
tools are attempted once. -/
theorem runCalls_attemptedOnce (hs : E.AcceptsAll s) (calls : ℕ → WorkflowCall)
    {schedule : List (ℕ × EngineEnv)} (hsequential : Sequential schedule)
    (hagain : NeverTakesUpAgain E calls (E.runCalls s calls schedule).past)
    (hitself : NeverCompensatesWithItself E calls (E.runCalls s calls schedule)) :
    AttemptedOnce E (E.runCalls s calls schedule) := by
  have htraced := runCalls_traced (E := E) hs.sound calls schedule
  have hordered : Ordered (E.runCalls s calls schedule).past := runCalls_ordered hsequential
  have hunraced := htraced.unraced hordered
  intro e newer he d hmem workflowId nodeId hhands hhands'
  -- `d` is the earlier call and `e` the later one
  obtain ⟨later, older, hsplit⟩ := List.append_of_mem hmem
  have hd : d :: older <:+ newer := ⟨later, hsplit.symm⟩
  have hd' : After _ d older := hd.trans ((List.suffix_cons e newer).trans he)
  obtain ⟨request, hcall⟩ := exists_call_of_handsOnce hhands
  obtain ⟨request', hcall'⟩ := exists_call_of_handsOnce hhands'
  obtain ⟨workflow₀, workflow, node₀, node, hdispatch⟩ := htraced.dispatch hunraced hd' hcall
  obtain ⟨workflow₀', workflow', node₀', node', hdispatch'⟩ := htraced.dispatch hunraced he hcall'
  obtain ⟨hid, hnode, htool, hretryable⟩ := hdispatch.of_handsOnce hcall hhands
  obtain ⟨hid', hnode', htool', -⟩ := hdispatch'.of_handsOnce hcall' hhands'
  by_contra hpending
  rcases (Traced.caller_le hordered he hd).lt_or_eq with hcaller | hcaller
  · -- the later call has read the node after it was handed over
    obtain ⟨d₀, older₀, hd₀, hsame, hget, hread, hle⟩ :=
      htraced.before_opening hordered he hd hcaller hdispatch'.opened
    have hfalse := takesUpAgain_of_suffix hagain
      (hd₀ : After (E.runCalls s calls schedule) d₀ older₀)
    have hnode₀ : node₀'.id = nodeId := (id_of_plan hdispatch'.plan).symm.trans hnode'
    rw [← hdispatch'.id, hid'] at hget hread
    rw [takesUpAgain, hget] at hfalse
    simp only [hread, Option.any_some, List.any_eq_false] at hfalse
    refine hfalse node₀' hdispatch'.mem₀ ?_
    rw [Bool.and_eq_true, List.any_eq_true, hsame, hnode₀]
    exact ⟨hdispatch'.takesUp, d, hle.mem (List.mem_cons_self ..), by
      rw [hhands, Bool.eq_false_iff.mpr hpending]
      rfl⟩
  · -- the later one is the compensation
    obtain ⟨answer, hevent⟩ := exists_event hcall
    obtain ⟨hrunning, hplan, hrefuses, tool, hne, hcompensation, hrequest⟩ :=
      htraced.compensates hunraced he hd hcaller hevent hdispatch hdispatch'
        (hnode.trans hnode'.symm)
    have hitself' : node.compensationTool = some node.toolName := by
      rw [← compensationTool_of_plan hplan, hcompensation, ← hrequest, htool',
        toolName_of_plan hplan]
    have htrue := hdispatch.refusesAttempt hevent hrunning
      (fun node => !metadataRetryable (E.toolRegistry.lookup node.toolName) &&
        node.compensationTool = some node.toolName) (by simp [hretryable, hitself']) hrefuses
    rw [hitself d (hd'.mem (List.mem_cons_self ..))] at htrue
    cases htrue

end Once

/-- A plan is executed, and then resumed. -/
def executeThenResume : ℕ → WorkflowCall
  | 0 => .execute 5 "ENGINEER" none
  | _ => .resume 5 "ENGINEER" none

/-- A ticket that has been opened is not opened again. -/
theorem runCalls_attemptedOnce_opened :
    AttemptedOnce .small (WorkflowPlanningService.small.runCalls (.holding ticketOnce)
      executeThenResume (engineTurns 0 (.at 6 (.ok succeededResponse)) 32 ++
        engineTurns 1 (.at 8 (.ok succeededResponse)) 20)) :=
by
  have hconditions : NeverTakesUpAgain .small executeThenResume
        (WorkflowPlanningService.small.runCalls (.holding ticketOnce) executeThenResume
          (engineTurns 0 (.at 6 (.ok succeededResponse)) 32 ++
            engineTurns 1 (.at 8 (.ok succeededResponse)) 20)).past ∧
      NeverCompensatesWithItself .small executeThenResume
        (WorkflowPlanningService.small.runCalls (.holding ticketOnce) executeThenResume
          (engineTurns 0 (.at 6 (.ok succeededResponse)) 32 ++
            engineTurns 1 (.at 8 (.ok succeededResponse)) 20)) := by
    unfold NeverCompensatesWithItself
    decide +kernel
  exact runCalls_attemptedOnce (acceptsAll_holding ticketOnce) _ (sequential_turns zero_le_one ..)
    hconditions.1 hconditions.2

/-- A call that ends after the ticket was opened, and before that was saved, lets `resume` open
the ticket again. -/
theorem resumed_attempted_twice :
    ¬ ∀ (E : WorkflowPlanningService) (s : InMemoryWorkflowRepository) (calls : ℕ → WorkflowCall)
      (schedule : List (ℕ × EngineEnv)), E.AcceptsAll s → Sequential schedule →
        AttemptedOnce E (E.runCalls s calls schedule) := by
  intro hclaim
  have honce := hclaim .small (.holding ticketOnce) executeThenResume
    (engineTurns 0 (.at 6 (.ok succeededResponse)) 22 ++
      engineTurns 1 (.at 8 (.ok succeededResponse)) 24) (acceptsAll_holding ticketOnce)
    (sequential_turns zero_le_one ..)
  generalize hrun : WorkflowPlanningService.small.runCalls _ _ _ = r at honce
  -- the last step is the second attempt
  have hsteps : (r.past.head?.any fun e => handsOnce .small 5 "ticket" e) ∧
      r.past.tail.any fun d => handsOnce .small 5 "ticket" d && !answeredPending d := by
    subst hrun
    decide +kernel
  obtain ⟨hlast, hearlier⟩ := hsteps
  obtain ⟨e, he, hlater⟩ := (Option.any_eq_true ..).mp hlast
  obtain ⟨d, hd, hearlier⟩ := List.any_eq_true.mp hearlier
  obtain ⟨newer, hpast⟩ := List.head?_eq_some_iff.mp he
  rw [hpast] at hd
  rw [Bool.and_eq_true, Bool.not_eq_true'] at hearlier
  have hpending := honce e newer (by rw [After, hpast]) d hd 5 "ticket" hearlier.1 hlater
  rw [hearlier.2] at hpending
  cases hpending

end McpOps
