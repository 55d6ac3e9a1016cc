import McpOps.Gateway.ApprovalEvents
import McpOps.Gateway.ApprovalOrder
import McpOps.Gateway.ApprovalTransactions
import McpOps.Gateway.SqlIdempotency
import McpOps.Gateway.SqlRateLimits
import McpOps.Lib.Lockstep

/-!
# The gateway over the SQL stores

The same gateway over `SqlAlchemyFixedWindowRateLimiter`, `SqlAlchemyIdempotencyStore` and
`SqlAlchemyApprovalStore`, with tables that take every row.  Called by one caller at a time, with
the calls beginning one after another, it answers every sequence of calls as the gateway over the
stores in memory does (`answers_sqlGateway`).

## Strategy

The procedures of both gateways are the same, so they are run in lockstep.  Two things stand in
the way of a relation that every operation keeps.

* **Time.**  Each store agrees with its table up to the last time that something was put into it:
  the reading with which the present call began, once the call has come to that store, and an
  earlier reading before.  `Reach` says which.
* **Statuses.**  A record handed out in memory shows its present status, a copy from the table the
  status it was read with.  The two are the same where the gateway decides by them, but not where
  it reports the status of an executed approval.  That status goes into the audit log and nowhere
  else.
-/

namespace McpOps

open Proc Procedure

/-! ## The system -/

/-- The tables the calls share. -/
structure SqlGatewayState where
  rateLimiter : SqlAlchemyFixedWindowRateLimiter := {}
  idempotency : SqlAlchemyIdempotencyStore := {}
  approvals : SqlAlchemyApprovalStore := {}

/-- How the gateway's surroundings answer its operations over the tables. -/
def sqlGatewaySystem (G : McpGateway) (reads : ReadsUuids G.runtime) :
    System gatewayInterface SqlGatewayState Env where
  answer o env s :=
    match o with
    | .clock => (env.clock, s)
    | .checkRate principal toolName rateLimit now =>
        let (a, rateLimiter) := s.rateLimiter.check principal toolName rateLimit now
        (a, { s with rateLimiter })
    | .reserve principal idempotencyKey now =>
        let (a, idempotency) := s.idempotency.reserve reads principal idempotencyKey now
        (a, { s with idempotency })
    | .markRunning principal idempotencyKey _ =>
        ((), { s with idempotency := s.idempotency.markRunning principal idempotencyKey })
    | .complete principal idempotencyKey response status now =>
        ((), { s with
          idempotency := s.idempotency.complete principal idempotencyKey response status now })
    | .approvals o =>
        let (a, approvals) := s.approvals.answer o env.freshId
        (a, { s with approvals })
    | .checkStatus approval => (SqlAlchemyApprovalStore.backend.status approval s.approvals, s)
    | .readStatus approval => (SqlAlchemyApprovalStore.backend.status approval s.approvals, s)
    | .audit record => ((), { s with approvals := s.approvals.appendAudit record })
    | .dispatch metadata _ => (G.executeWithDeadline metadata env.toolRun, s)

/-- The rate limits of the registered tools are written as the limiters read them, and no two tools
that accept calls have different windows. -/
structure McpGateway.DeclaresLimits (G : McpGateway) (limits : String → RateLimit)
    (tools : Set String) : Prop where
  declared : ∀ name metadata, G.registry.lookup name = some metadata →
    metadata.toolName ∈ tools ∧ metadata.rateLimit = (limits metadata.toolName).text
  oneWindow : ¬ SqlAlchemyFixedWindowRateLimiter.MixedWindows limits tools

/-! ## Agreement -/

/-- How far a call has come: the times up to which the calls counted, the keys reserved and the
approvals made are known, and the key that the call holds. -/
structure Reach where
  counted : Time
  reserved : Time
  made : Time
  held : Option IdempotencyKey

/-- The memory and the tables hold the same. -/
structure Agrees (limits : String → RateLimit) (tools : Set String) (reach : Reach)
    (s : GatewayState ApprovalStore) (t : SqlGatewayState) : Prop where
  counts : ∃ history,
    FixedWindowRateLimiter.Remembers limits reach.counted s.rateLimiter history ∧
      SqlAlchemyFixedWindowRateLimiter.Remembers limits tools reach.counted t.rateLimiter history
  idempotency : s.idempotency.AgreesWith reach.reserved t.idempotency
  hasRoom : 0 < s.idempotency.maxEntries
  held : ∀ key ∈ reach.held, (s.idempotency.keys.get? key).isSome
  ledger : s.approvals.ledger = t.approvals.ledger
  inOrder : s.approvals.ledger.MadeInOrder reach.made

/-- Nothing is held between two calls, and everything is known up to one time. -/
def Reach.idle (last : Time) : Reach := ⟨last, last, last, none⟩

section Agreement

variable {G : McpGateway} {reads : ReadsUuids G.runtime} {limits : String → RateLimit}
  {tools : Set String} {reach : Reach} {s : GatewayState ApprovalStore} {t : SqlGatewayState}
  {now : Time}

/-- A verdict of the limiter in memory, as the answer of `check`. -/
theorem FixedWindowRateLimiter.check_eq (limits : String → RateLimit) (c : LimitedCall)
    (s : FixedWindowRateLimiter) :
    s.check c.principal c.toolName (limits c.toolName).text c.now =
      (if (s.step limits c).1 then .ok () else .error (rateLimitExceeded c.toolName),
        (s.step limits c).2) := by
  unfold step
  simp only [check, parseRateLimit_text]
  split <;> rfl

/-- A verdict of the limiter over the table, as the answer of `check`. -/
theorem SqlAlchemyFixedWindowRateLimiter.check_eq (limits : String → RateLimit) (c : LimitedCall)
    (s : SqlAlchemyFixedWindowRateLimiter) :
    s.check c.principal c.toolName (limits c.toolName).text c.now =
      (if (s.step limits c).1 then .ok () else .error (rateLimitExceeded c.toolName),
        (s.step limits c).2) := by
  unfold step
  simp only [check, parseRateLimit_text]
  split <;> rfl

/-- Both limiters decide a call alike. -/
theorem Agrees.checkRate (h : Agrees limits tools reach s t)
    (hwindow : ¬ SqlAlchemyFixedWindowRateLimiter.MixedWindows limits tools)
    (principal : Principal) {toolName : String} (htool : toolName ∈ tools)
    (hle : reach.counted ≤ now) :
    (s.rateLimiter.check principal toolName (limits toolName).text now).1 =
        (t.rateLimiter.check principal toolName (limits toolName).text now).1 ∧
      Agrees limits tools { reach with counted := now }
        { s with
          rateLimiter :=
            (s.rateLimiter.check principal toolName (limits toolName).text now).2 }
        { t with
          rateLimiter :=
            (t.rateLimiter.check principal toolName (limits toolName).text now).2 } := by
  obtain ⟨history, hmemory, htable⟩ := h.counts
  set c : LimitedCall := ⟨principal, toolName, now⟩
  have hmemory' := hmemory.step (c := c) hle
  have htable' := htable.step (c := c) hwindow htool hle
  have hs := FixedWindowRateLimiter.check_eq limits c s.rateLimiter
  have ht := SqlAlchemyFixedWindowRateLimiter.check_eq limits c t.rateLimiter
  rw [hs, ht, hmemory'.1, htable'.1]
  exact ⟨rfl, ⟨_, hmemory'.2, htable'.2⟩, h.idempotency, h.hasRoom, h.held, h.ledger, h.inOrder⟩

variable (reads) in
/-- Both idempotency stores answer an attempt to reserve alike, and hold a key that is granted. -/
theorem Agrees.reserve (h : Agrees limits tools reach s t) (principal : Principal)
    (idempotencyKey : String) (hlt : reach.reserved < now) :
    let memory := s.idempotency.reserve principal idempotencyKey now
    let table := t.idempotency.reserve reads principal idempotencyKey now
    memory.1 = table.1 ∧
      Agrees limits tools { reach with reserved := now, held := none }
        { s with idempotency := memory.2 } { t with idempotency := table.2 } ∧
      (memory.1 = .ok none →
        Agrees limits tools
          { reach with reserved := now, held := some (principal.principalId, idempotencyKey) }
          { s with idempotency := memory.2 } { t with idempotency := table.2 }) := by
  intro memory table
  obtain ⟨hanswer, hstate, hheld⟩ :=
    h.idempotency.reserve reads hlt
      h.hasRoom
  have hroom : 0 < memory.2.maxEntries := by
    rw [IdempotencyStore.maxEntries_reserve]
    exact h.hasRoom
  refine ⟨hanswer, ?_, fun hgranted => ?_⟩
  · exact ⟨h.counts, hstate, hroom, by simp, h.ledger, h.inOrder⟩
  · refine ⟨h.counts, hstate, hroom, fun key hkey => ?_, h.ledger, h.inOrder⟩
    obtain rfl := Option.some.inj hkey
    exact hheld hgranted

/-- Both approval stores make a record alike. -/
theorem Agrees.create (h : Agrees limits tools reach s t) (q : ApprovalRequest) (fresh : UUID)
    (hlt : reach.made < now) :
    (s.approvals.create q now fresh).1 = (t.approvals.create q now fresh).1 ∧
      Agrees limits tools { reach with made := now }
        { s with approvals := (s.approvals.create q now fresh).2 }
        { t with approvals := (t.approvals.create q now fresh).2 } := by
  obtain ⟨hanswer, hledger⟩ := ApprovalBackend.answer_alike ApprovalStore.listsInOrder
    SqlAlchemyApprovalStore.listsInOrder h.ledger h.inOrder (.create q now) fresh
  refine ⟨hanswer, h.counts, h.idempotency, h.hasRoom, h.held, hledger, ?_⟩
  obtain ⟨hmade, hnext⟩ := ApprovalStore.answer_allows (.create q now) fresh s.approvals
  have horder : ((s.approvals.ledger).put (q.record fresh now s.approvals.ledger.ttl)).MadeInOrder
      now := h.inOrder.create hlt
  rw [← hmade, ← hnext] at horder
  exact horder

/-- The operations that move no time on and decide nothing by a status. -/
def Ordinary (held : Option IdempotencyKey) : GatewayOp → Prop
  | .clock => True
  | .markRunning principal idempotencyKey _ => held = some (principal.principalId, idempotencyKey)
  | .complete principal idempotencyKey .. => held = some (principal.principalId, idempotencyKey)
  | .approvals o => ∀ q now, o ≠ .create q now
  | .audit _ => True
  | .dispatch .. => True
  | _ => False

variable (reads) in
/-- Ordinary operations are answered alike and keep the agreement. -/
theorem Agrees.ordinary (h : Agrees limits tools reach s t) {o : GatewayOp}
    (ho : Ordinary reach.held o) (env : Env) :
    ((gatewaySystem G ApprovalStore.backend).answer o env s).1 =
        ((sqlGatewaySystem G reads).answer o env t).1 ∧
      Agrees limits tools reach ((gatewaySystem G ApprovalStore.backend).answer o env s).2
        ((sqlGatewaySystem G reads).answer o env t).2 := by
  cases o with
  | clock => exact ⟨rfl, h⟩
  | dispatch metadata arguments => exact ⟨rfl, h⟩
  | audit record =>
      exact ⟨rfl, h.counts, h.idempotency, h.hasRoom, h.held, h.ledger, h.inOrder⟩
  | markRunning principal idempotencyKey _ =>
      -- a marked key keeps its record in both stores
      have hkey := h.held _ ho
      refine ⟨rfl, h.counts, h.idempotency.markRunning hkey, ?_, fun key hmem => ?_, h.ledger,
        h.inOrder⟩
      · have hmax := IdempotencyStore.maxEntries_perform (.markRunning principal idempotencyKey)
          s.idempotency
        exact hmax ▸ h.hasRoom
      · obtain ⟨record, hrecord⟩ := Option.isSome_iff_exists.mp (h.held key hmem)
        obtain ⟨held, hheld⟩ := Option.isSome_iff_exists.mp hkey
        show ((s.idempotency.markRunning principal idempotencyKey).keys.get? key).isSome
        rw [IdempotencyStore.markRunning]
        simp only [hheld, Dict.get?_set]
        split
        · rfl
        · rw [hrecord]
          rfl
  | complete principal idempotencyKey response status completedAt =>
      have hkey := h.held _ ho
      refine ⟨rfl, h.counts, h.idempotency.complete hkey response status completedAt, h.hasRoom,
        fun key hmem => ?_, h.ledger, h.inOrder⟩
      show ((s.idempotency.complete principal idempotencyKey response status completedAt).keys.get?
        key).isSome
      rw [IdempotencyStore.complete]
      simp only [Dict.get?_set]
      split
      · rfl
      · exact h.held key hmem
  | approvals o =>
      -- approvals: both stores show one ledger, so they answer alike
      obtain ⟨hanswer, hledger⟩ := ApprovalBackend.answer_alike ApprovalStore.listsInOrder
        SqlAlchemyApprovalStore.listsInOrder h.ledger h.inOrder o env.freshId
      exact ⟨hanswer, h.counts, h.idempotency, h.hasRoom, h.held, hledger,
        h.inOrder.step (ApprovalStore.answer_allows o env.freshId s.approvals) ho⟩
  | checkRate => exact ho.elim
  | reserve => exact ho.elim
  | checkStatus => exact ho.elim
  | readStatus => exact ho.elim

variable (reads) in
/-- Code of ordinary operations does the same on both. -/
theorem Agrees.lockstep {ε α : Type} (h : Agrees limits tools reach s t) {p : GatewayM ε α}
    (hp : p.Uses (Ordinary reach.held)) :
    Lockstep (gatewaySystem G ApprovalStore.backend) (sqlGatewaySystem G reads)
      (Same (Agrees limits tools reach)) p p s t :=
  hp.lockstep (fun _ env _ _ ho h => h.ordinary reads ho env) h

/-- What is known up to a time is known up to a later one. -/
theorem Agrees.mono (h : Agrees limits tools reach s t) {later : Reach}
    (hcounted : reach.counted ≤ later.counted) (hreserved : reach.reserved ≤ later.reserved)
    (hmade : reach.made ≤ later.made) (hheld : ∀ key ∈ later.held, key ∈ reach.held) :
    Agrees limits tools later s t where
  counts := by
    obtain ⟨history, hmemory, htable⟩ := h.counts
    exact ⟨history, ⟨hmemory.sorted, fun key => (hmemory.remembers key).mono hcounted⟩,
      fun key hkey hcount => (htable key hkey hcount).mono hcounted⟩
  idempotency := h.idempotency.mono hreserved
  hasRoom := h.hasRoom
  held key hkey := h.held key (hheld key hkey)
  ledger := h.ledger
  inOrder := h.inOrder.mono hmade

/-- A record in the ledger shows the same status in memory and as a copy from the table. -/
theorem Agrees.status_eq (h : Agrees limits tools reach s t) {r : ApprovalRecord}
    (hstored : s.approvals.ledger.record r.approvalId = some r) :
    ApprovalStore.backend.status r s.approvals =
      SqlAlchemyApprovalStore.backend.status r t.approvals := by
  have hstored' : t.approvals.ledger.record r.approvalId = some r := h.ledger ▸ hstored
  rw [ApprovalStore.backend.status_stored r s.approvals hstored,
    SqlAlchemyApprovalStore.backend.status_stored r t.approvals hstored']

end Agreement

/-! ## Code of ordinary operations -/

section Ordinary

variable {G : McpGateway} {request : GatewayToolRequest} {principal : Principal}
  {metadata : ToolMetadata} {arguments : PyDict} {held : Option IdempotencyKey} {α ε : Type}

theorem ordinary_failure {metadata : Option ToolMetadata} {exc : GatewayError} :
    (G.failure request principal metadata exc).Uses (Ordinary held) :=
  (uses_perform (by trivial)).bind fun _ => (uses_raiseOther _).bind fun _ =>
    (uses_perform (by trivial)).bind fun _ => trivial

theorem ordinary_executeTool {approval : Option ApprovalRecord}
    (hheld : held = some (principal.principalId, request.idempotencyKey)) :
    (G.executeTool request principal metadata arguments approval).Uses (Ordinary held) := by
  refine Procedure.Uses.tryCatch ?_ fun exn => ?_
  · refine (uses_perform (by trivial)).bind fun _ =>
      (uses_perform (by exact hheld)).bind fun _ => ?_
    refine (uses_perform (by trivial)).bind fun _ => (uses_liftExn _).bind fun _ => ?_
    split <;> trivial
  · split
    · exact (uses_perform (by trivial)).bind fun _ =>
        (uses_perform (by simp [Ordinary])).bind fun _ =>
          (uses_liftGateway _).bind fun _ => trivial
    · trivial

theorem ordinary_recordExecution {result : DispatchResult} (approval : Option ApprovalRecord) :
    (McpGateway.recordExecution principal result approval).Uses (Ordinary held) := by
  cases approval with
  | none => trivial
  | some approval =>
      exact (uses_perform (by trivial)).bind fun _ =>
        (uses_perform (by simp [Ordinary])).bind fun _ =>
          (uses_liftGateway _).bind fun _ => trivial

/-- A failure completes the operation of a key that the call holds. -/
theorem ordinary_handleFailure {f : McpGateway.CallFailure}
    (hf : ∀ principal, f.principal = some principal → f.idempotencyReserved = true →
      held = some (principal.principalId, request.idempotencyKey)) :
    (G.handleFailure request f).Uses (Ordinary held) := by
  unfold McpGateway.handleFailure
  split
  · trivial
  · refine ordinary_failure.bind fun response => ?_
    split
    · rename_i principal hprincipal hreserved
      exact (uses_perform (by trivial)).bind fun _ =>
        (uses_perform (by exact hf principal hprincipal hreserved)).bind fun _ => trivial
    · trivial

end Ordinary

/-! ## The calls -/

section Calls

variable {G : McpGateway} {reads : ReadsUuids G.runtime} {limits : String → RateLimit}
  {tools : Set String} {reach : Reach} {s : GatewayState ApprovalStore} {t : SqlGatewayState}
  {now last : Time} {request : GatewayToolRequest} {principal : Principal}
  {metadata : ToolMetadata} {arguments : PyDict} {ε α β : Type}

/-- `p` on the memory and `q` on the tables come to the same, and what they leave agrees. -/
abbrev AnswersAlike (G : McpGateway) (reads : ReadsUuids G.runtime) (limits : String → RateLimit)
    (tools : Set String) (reach : Reach) (p q : GatewayM ε α)
    (s : GatewayState ApprovalStore) (t : SqlGatewayState) : Prop :=
  Lockstep (gatewaySystem G ApprovalStore.backend) (sqlGatewaySystem G reads)
    (Same (Agrees limits tools reach)) p q s t

/-- The gateway decides alike by the status of a record in the ledger. -/
theorem Agrees.checkStatus {post : Except ε α → GatewayState ApprovalStore → Except ε β →
      SqlGatewayState → Prop}
    (h : Agrees limits tools reach s t) {r : ApprovalRecord}
    (hstored : s.approvals.ledger.record r.approvalId = some r) {f : ApprovalStatus → GatewayM ε α}
    {g : ApprovalStatus → GatewayM ε β}
    (hrest : ∀ status, Lockstep (gatewaySystem G ApprovalStore.backend) (sqlGatewaySystem G reads)
      post (f status) (g status) s t) :
    Lockstep (gatewaySystem G ApprovalStore.backend) (sqlGatewaySystem G reads) post
      (perform (.checkStatus r) >>= f) (perform (.checkStatus r) >>= g) s t := by
  intro env
  show Lockstep _ _ post (f (ApprovalStore.backend.status r s.approvals))
    (g (SqlAlchemyApprovalStore.backend.status r t.approvals)) s t
  rw [← h.status_eq hstored]
  exact hrest _

/-- The gateway reports the status of a record in the ledger alike. -/
theorem Agrees.readStatus {post : Except ε α → GatewayState ApprovalStore → Except ε β →
      SqlGatewayState → Prop}
    (h : Agrees limits tools reach s t) {r : ApprovalRecord}
    (hstored : s.approvals.ledger.record r.approvalId = some r) {f : ApprovalStatus → GatewayM ε α}
    {g : ApprovalStatus → GatewayM ε β}
    (hrest : ∀ status, Lockstep (gatewaySystem G ApprovalStore.backend) (sqlGatewaySystem G reads)
      post (f status) (g status) s t) :
    Lockstep (gatewaySystem G ApprovalStore.backend) (sqlGatewaySystem G reads) post
      (perform (.readStatus r) >>= f) (perform (.readStatus r) >>= g) s t := by
  intro env
  show Lockstep _ _ post (f (ApprovalStore.backend.status r s.approvals))
    (g (SqlAlchemyApprovalStore.backend.status r t.approvals)) s t
  rw [← h.status_eq hstored]
  exact hrest _

/-- Success is reported alike, whatever status goes into the audit log. -/
theorem Agrees.success (h : Agrees limits tools reach s t) {decision : GatewayDecision}
    {data : PyDict} (status status' : Option ApprovalStatus) {executionStatus : String} :
    AnswersAlike G reads limits tools reach
      (G.success request principal metadata decision data status executionStatus)
      (G.success request principal metadata decision data status' executionStatus) s t := by
  refine (h.lockstep reads (p := clock) (uses_perform (by trivial))).bind_same
    (fun e s t h => ⟨rfl, h⟩) fun reading s t h => ?_
  refine (h.lockstep reads (uses_raiseOther _)).bind_same (fun e s t h => ⟨rfl, h⟩)
    fun _ s t h => ?_
  -- the two audit records differ in the status
  intro env
  exact ⟨rfl, h.counts, h.idempotency, h.hasRoom, h.held, h.ledger, h.inOrder⟩

/-- The approval of a request is looked up and judged alike. -/
theorem Agrees.approvalForRequest (h : Agrees limits tools reach s t) :
    AnswersAlike G reads limits tools reach (G.approvalForRequest request metadata arguments now)
      (G.approvalForRequest request metadata arguments now) s t := by
  unfold McpGateway.approvalForRequest
  split
  · exact ⟨rfl, h⟩
  · exact ⟨rfl, h⟩
  · rename_i approvalId _ _
    intro env
    obtain ⟨hanswer, hstate⟩ := h.ordinary (G := G) reads
      (o := .approvals (.get approvalId now)) (by simp [Ordinary]) env
    rw [← hanswer]
    have hgot : ((gatewaySystem G ApprovalStore.backend).answer (.approvals (.get approvalId now))
      env s).1 = (s.approvals.get approvalId now).1 := rfl
    rw [hgot]
    cases hcase : (s.approvals.get approvalId now).1 with
    | error e => exact ⟨rfl, hstate⟩
    | ok approval =>
        -- the record is the one in the ledger
        have hget := ApprovalStore.ledger_get approvalId now s.approvals
        rw [hcase] at hget
        obtain ⟨hrecord, hsame, -⟩ := Ledger.get_ok hget.symm
        have hkey := s.approvals.ledger.keyed approvalId approval hrecord
        have hstored : (s.approvals.get approvalId now).2.ledger.record approval.approvalId =
            some approval := by
          rw [hsame, hkey, hrecord]
        show Lockstep _ _ _ (raiseOther (hashArgumentsRaises G.runtime arguments) >>= _)
          (raiseOther (hashArgumentsRaises G.runtime arguments) >>= _) _ _
        cases hashArgumentsRaises G.runtime arguments with
        | some raised => exact (⟨rfl, hstate⟩ : Same (Agrees limits tools reach) _ _ _ _)
        | none => ?_
        show Lockstep _ _ _ (liftGateway (G.checkBinding request metadata arguments approval) >>= _)
          (liftGateway (G.checkBinding request metadata arguments approval) >>= _) _ _
        cases G.checkBinding request metadata arguments approval with
        | error e => exact (⟨rfl, hstate⟩ : Same (Agrees limits tools reach) _ _ _ _)
        | ok checked =>
            refine hstate.checkStatus hstored fun status => ?_
            split
            · exact ⟨rfl, hstate⟩
            · exact hstate.readStatus hstored fun status => ⟨rfl, hstate⟩

/-- An approval is asked for alike. -/
theorem Agrees.requestApproval (h : Agrees limits tools reach s t) (hlt : reach.made < now) :
    AnswersAlike G reads limits tools { reach with made := now }
      (G.requestApproval request principal metadata arguments now)
      (G.requestApproval request principal metadata arguments now) s t := by
  refine (h.lockstep reads (uses_raiseOther _)).bind_same
    (fun e s t h => ⟨rfl, h.mono le_rfl le_rfl hlt.le fun key hkey => hkey⟩) fun _ s t h => ?_
  intro env
  set q : ApprovalRequest :=
    { principal
      toolName := metadata.toolName
      arguments
      riskLevel := metadata.riskLevel
      workflowId := request.workflowId
      workflowNodeId := request.workflowNodeId
      argumentsHash := some (hashArguments G.runtime arguments)
      approvalBindingHash := some (approvalBindingHash G.runtime request principal.principalId
        metadata.toolName arguments) } with hq
  obtain ⟨hanswer, hstate⟩ := h.create q env.freshId hlt
  have hmade : ((sqlGatewaySystem G reads).answer (.approvals (.create q now)) env t).1 =
      (s.approvals.create q now env.freshId).1 := hanswer.symm
  rw [hmade]
  have hallows := ApprovalStore.answer_allows (.create q now) env.freshId s.approvals
  -- the record that was made is there when its status is read
  have hstored : (s.approvals.create q now env.freshId).2.ledger.record
      (s.approvals.create q now env.freshId).1.approvalId =
        some (s.approvals.create q now env.freshId).1 := by
    have hnext : (s.approvals.create q now env.freshId).2.ledger =
      s.approvals.ledger.put (s.approvals.create q now env.freshId).1 := hallows.2
    rw [hnext]
    exact Ledger.put_record_self _ rfl
  refine hstate.readStatus hstored fun shown => ?_
  exact hstate.readStatus hstored fun status => hstate.success _ _

/-- The status that is reported in the end may differ. -/
theorem Agrees.reportedStatus (h : Agrees limits tools reach s t)
    (approval : Option ApprovalRecord) :
    Lockstep (gatewaySystem G ApprovalStore.backend) (sqlGatewaySystem G reads)
      (fun x s y t => (∃ a b, x = .ok a ∧ y = .ok b) ∧ Agrees limits tools reach s t)
      (McpGateway.reportedStatus approval) (McpGateway.reportedStatus approval) s t := by
  cases approval with
  | none => exact ⟨⟨none, none, rfl, rfl⟩, h⟩
  | some approval => exact fun env => ⟨⟨_, _, rfl, rfl⟩, h⟩

variable (reads) in
/-- After a granted reservation a call goes on alike. -/
theorem Agrees.callReserved (h : Agrees limits tools reach s t)
    (hheld : reach.held = some (principal.principalId, request.idempotencyKey))
    (hlt : reach.made < now) :
    AnswersAlike G reads limits tools { reach with made := now }
      (G.callReserved request principal metadata arguments now)
      (G.callReserved request principal metadata arguments now) s t := by
  have hlater : ∀ {s t}, Agrees limits tools reach s t →
      Agrees limits tools { reach with made := now } s t :=
    fun h => h.mono le_rfl le_rfl hlt.le fun key hkey => hkey
  refine h.approvalForRequest.bind_same (fun e s t h => ⟨rfl, hlater h⟩) fun approval s t h => ?_
  split
  · exact h.requestApproval hlt
  · refine ((hlater h).lockstep reads (ordinary_executeTool hheld)).bind_same
      (fun e s t h => ⟨rfl, h⟩) fun result s t h => ?_
    refine (h.lockstep reads (ordinary_recordExecution approval)).bind_same
      (fun e s t h => ⟨rfl, h⟩) fun _ s t h => ?_
    refine (h.reportedStatus approval).bind ?_
    rintro x s y t ⟨⟨status, status', rfl, rfl⟩, h⟩
    refine (h.success status status').bind_same (fun e s t h => ⟨rfl, h⟩) fun response s t h => ?_
    refine h.lockstep reads ((uses_perform (by trivial)).bind fun _ => ?_)
    exact (uses_perform (by exact hheld)).bind fun _ => trivial

variable (reads principal arguments) in
/-- The checks before the reservation turn out alike. -/
theorem Agrees.checkRequest (h : Agrees limits tools reach s t) (hle : reach.counted ≤ now)
    (hwindow : ¬ SqlAlchemyFixedWindowRateLimiter.MixedWindows limits tools)
    (htool : metadata.toolName ∈ tools)
    (hlimit : metadata.rateLimit = (limits metadata.toolName).text) :
    AnswersAlike G reads limits tools { reach with counted := now }
      (G.checkRequest principal metadata arguments now)
      (G.checkRequest principal metadata arguments now) s t := by
  have hlater : ∀ {s t}, Agrees limits tools reach s t →
      Agrees limits tools { reach with counted := now } s t :=
    fun h => h.mono hle le_rfl le_rfl fun key hkey => hkey
  refine (h.lockstep reads (uses_liftExn _)).bind_same (fun e s t h => ⟨rfl, hlater h⟩)
    fun _ s t h => ?_
  refine (h.lockstep reads (uses_liftExn _)).bind_same (fun e s t h => ⟨rfl, hlater h⟩)
    fun _ s t h => ?_
  refine (h.lockstep reads (uses_liftExn _)).bind_same (fun e s t h => ⟨rfl, hlater h⟩)
    fun _ s t h => ?_
  intro env
  obtain ⟨hanswer, hstate⟩ := h.checkRate hwindow principal htool hle
  rw [← hlimit] at hanswer hstate
  have hverdict : ((sqlGatewaySystem G reads).answer
      (.checkRate principal metadata.toolName metadata.rateLimit now) env t).1 =
        (s.rateLimiter.check principal metadata.toolName metadata.rateLimit now).1 := hanswer.symm
  rw [hverdict]
  refine (hstate.lockstep reads (uses_liftExn _)).bind_same (fun e s t h => ⟨rfl, h⟩)
    fun _ s t h => ?_
  exact h.lockstep reads (uses_liftExn _)

/-- What the body of `call_tool` leaves: everything is known up to the reading with which the call
began, and a failure after the reservation still holds the key. -/
def BodyAlike (limits : String → RateLimit) (tools : Set String) (now : Time)
    (request : GatewayToolRequest) (x : Except McpGateway.CallFailure GatewayToolResponse)
    (s : GatewayState ApprovalStore) (y : Except McpGateway.CallFailure GatewayToolResponse)
    (t : SqlGatewayState) : Prop :=
  x = y ∧ ∃ held, Agrees limits tools ⟨now, now, now, held⟩ s t ∧ ∀ f, x = .error f →
    ∀ principal, f.principal = some principal → f.idempotencyReserved = true →
      held = some (principal.principalId, request.idempotencyKey)

/-- An end of the body before a key is held. -/
theorem Agrees.bodyAlike (h : Agrees limits tools reach s t) (hcounted : reach.counted ≤ now)
    (hreserved : reach.reserved ≤ now) (hmade : reach.made ≤ now)
    {x : Except McpGateway.CallFailure GatewayToolResponse}
    (hfree : ∀ f, x = .error f → f.idempotencyReserved = false) :
    BodyAlike limits tools now request x s x t := by
  refine ⟨rfl, none, h.mono hcounted hreserved hmade (by simp), ?_⟩
  intro f hf principal _ hreserved
  rw [hfree f hf] at hreserved
  cases hreserved

/-- The reservation of a call with what follows it: the answer from the store, or the rest of the
call. -/
theorem Agrees.reservation
    (h : Agrees limits tools { Reach.idle last with counted := now } s t) (hle : last ≤ now)
    (hlt : last < now) {next : Option GatewayToolResponse →
      GatewayM McpGateway.CallFailure GatewayToolResponse}
    (hreplay : ∀ response, next (some response) = .pure response)
    (hrest : next none = (G.callReserved request principal metadata arguments now).mapError
      fun exn => { principal, metadata, idempotencyReserved := true, exn }) :
    let reservation : GatewayM McpGateway.CallFailure (Option GatewayToolResponse) := (do
      liftGateway (← perform (.reserve principal request.idempotencyKey now))).mapError
        fun exn => { principal, metadata, exn }
    Lockstep (gatewaySystem G ApprovalStore.backend) (sqlGatewaySystem G reads)
      (BodyAlike limits tools now request) (reservation >>= next) (reservation >>= next) s t := by
  intro reservation env
  obtain ⟨hanswer, hfree, hgranted⟩ :=
    h.reserve reads principal request.idempotencyKey hlt
  have hverdict : ((sqlGatewaySystem G reads).answer
      (.reserve principal request.idempotencyKey now) env t).1 =
        (s.idempotency.reserve principal request.idempotencyKey now).1 := hanswer.symm
  have hverdict' : ((gatewaySystem G ApprovalStore.backend).answer
      (.reserve principal request.idempotencyKey now) env s).1 =
        (s.idempotency.reserve principal request.idempotencyKey now).1 := rfl
  rw [hverdict, hverdict']
  cases hcase : (s.idempotency.reserve principal request.idempotencyKey now).1 with
  | error e =>
      exact hfree.bodyAlike (x := .error { principal, metadata, exn := .gateway e }) le_rfl le_rfl
        hle fun f hf => by cases hf; rfl
  | ok replay =>
      cases replay with
      | some response =>
          -- a completed request is replayed, and nothing else happens
          show Lockstep _ _ _ (next (some response)) (next (some response)) _ _
          rw [hreplay]
          exact hfree.bodyAlike (x := .ok response) le_rfl le_rfl hle fun f hf => by cases hf
      | none =>
          -- the key is held from here on
          show Lockstep _ _ _ (next none) (next none) _ _
          rw [hrest]
          refine ((hgranted hcase).callReserved (G := G) reads rfl hlt).tryCatch ?_
          rintro (e | response) s _ t ⟨rfl, h⟩
          · refine ⟨rfl, some (principal.principalId, request.idempotencyKey), h, ?_⟩
            intro f hf holder hholder _
            cases hf
            cases hholder
            rfl
          · exact ⟨rfl, _, h, fun f hf => by cases hf⟩

theorem lookup_of_metadata {toolName : String} (h : G.metadata toolName = .ok metadata) :
    G.registry.lookup toolName = some metadata := by
  unfold McpGateway.metadata at h
  split at h
  · rename_i found hfound
    rw [hfound, Except.ok.inj h]
  · cases h

/-- The body of a call comes to the same. -/
theorem Agrees.callBody (h : Agrees limits tools (.idle last) s t)
    (hlimits : G.DeclaresLimits limits tools) (hlt : last < now) :
    Lockstep (gatewaySystem G ApprovalStore.backend) (sqlGatewaySystem G reads)
      (BodyAlike limits tools now request) (G.callBody request now) (G.callBody request now)
      s t := by
  have hle := hlt.le
  have hearly : ∀ (f : McpGateway.CallFailure) s t, Agrees limits tools (.idle last) s t →
      f.idempotencyReserved = false →
        BodyAlike limits tools now request (.error f) s (.error f) t :=
    fun f s t h hf => h.bodyAlike hle hle hle fun f' hf' => by cases hf'; exact hf
  unfold McpGateway.callBody
  cases G.authenticate request.authToken with
  | error e => exact hearly _ s t h rfl
  | ok principal =>
      show Lockstep _ _ _
        ((liftExn (G.metadata request.toolName)).mapError _ >>= _)
        ((liftExn (G.metadata request.toolName)).mapError _ >>= _) s t
      cases hmetadata : G.metadata request.toolName with
      | error e => exact hearly _ s t h rfl
      | ok metadata =>
          obtain ⟨htool, hlimit⟩ := hlimits.declared _ _ (lookup_of_metadata hmetadata)
          have hchecked := h.checkRequest (G := G) reads principal
            (stripUntrustedModelFields request.arguments) hle hlimits.oneWindow htool hlimit
          refine hchecked.mapError_bind (fun e s t h => ?_) fun _ s t h => ?_
          · exact h.bodyAlike (x := .error { principal, metadata, exn := e }) le_rfl hle hle
              fun f hf => by cases hf; rfl
          · exact h.reservation hle hlt (fun response => rfl) rfl

/-- A call that begins with the reading `now` comes to the same. -/
theorem Agrees.callTool (h : Agrees limits tools (.idle last) s t)
    (hlimits : G.DeclaresLimits limits tools) (hlt : last < now) :
    AnswersAlike G reads limits tools (.idle now)
      ((G.callBody request now).tryCatch (G.handleFailure request))
      ((G.callBody request now).tryCatch (G.handleFailure request)) s t := by
  have hidle : ∀ {held s t}, Agrees limits tools ⟨now, now, now, held⟩ s t →
      Agrees limits tools (.idle now) s t :=
    fun h => h.mono le_rfl le_rfl le_rfl (by simp [Reach.idle])
  refine (h.callBody hlimits hlt).tryCatch ?_
  rintro (f | response) s _ t ⟨rfl, held, h, hheld⟩
  · have hhandled := h.lockstep (G := G) reads (ordinary_handleFailure (G := G) (hheld f rfl))
    exact hhandled.imp fun x s y t hsame => ⟨hsame.1, hidle hsame.2⟩
  · exact ⟨rfl, hidle h⟩

/-- The operations on approvals are ordinary after the reading of the clock. -/
theorem ordinary_approvalCalls (held : Option IdempotencyKey) (call : GatewayCall)
    (hcall : ∀ request, call ≠ .callTool request) :
    ∃ next : Time → GatewayM Exn GatewayToolResponse, G.serve call = clock >>= next ∧
      ∀ now, (next now).Uses (Ordinary held) := by
  cases call with
  | callTool request => exact absurd rfl (hcall request)
  | approveOperation authToken approvalId =>
      refine ⟨_, rfl, fun now => uses_deniedOnError ?_⟩
      refine (uses_liftGateway _).bind fun principal => ?_
      refine (uses_perform (by simp [Ordinary])).bind fun got => ?_
      refine (uses_liftGateway _).bind fun approval => (uses_liftExn _).bind fun _ => ?_
      refine (uses_perform (by simp [Ordinary])).bind fun got => ?_
      exact (uses_liftGateway _).bind fun approved => trivial
  | rejectOperation authToken approvalId reason =>
      refine ⟨_, rfl, fun now => uses_deniedOnError ?_⟩
      refine (uses_liftGateway _).bind fun principal => ?_
      refine (uses_perform (by simp [Ordinary])).bind fun got => ?_
      refine (uses_liftGateway _).bind fun approval => (uses_liftExn _).bind fun _ => ?_
      refine (uses_perform (by simp [Ordinary])).bind fun got => ?_
      exact (uses_liftGateway _).bind fun rejected => trivial
  | listApprovals authToken =>
      refine ⟨_, rfl, fun now => uses_deniedOnError ?_⟩
      refine (uses_liftGateway _).bind fun principal => (uses_liftExn _).bind fun _ => ?_
      exact (uses_perform (by simp [Ordinary])).bind fun approvals => trivial
  | getApproval authToken approvalId =>
      refine ⟨_, rfl, fun now => uses_deniedOnError ?_⟩
      refine (uses_liftGateway _).bind fun principal => (uses_liftExn _).bind fun _ => ?_
      refine (uses_perform (by simp [Ordinary])).bind fun got => ?_
      exact (uses_liftGateway _).bind fun approval => trivial

variable (reads) in
/-- Every call reads the clock first, and goes on alike on the memory and on the tables. -/
theorem Agrees.serve (h : Agrees limits tools (.idle last) s t)
    (hlimits : G.DeclaresLimits limits tools) (call : GatewayCall) :
    ∃ next : Time → GatewayM Exn GatewayToolResponse, G.serve call = clock >>= next ∧
      ∀ now, last < now →
        AnswersAlike G reads limits tools (.idle now) (next now) (next now) s t := by
  by_cases hcall : ∃ request, call = .callTool request
  · obtain ⟨request, rfl⟩ := hcall
    exact ⟨_, rfl, fun now hlt => h.callTool hlimits hlt⟩
  · obtain ⟨next, hserve, hordinary⟩ := ordinary_approvalCalls (G := G) none call
      fun request hrequest => hcall ⟨request, hrequest⟩
    refine ⟨next, hserve, fun now hlt => ?_⟩
    have hnow : Agrees limits tools (.idle now) s t :=
      h.mono hlt.le hlt.le hlt.le fun key hkey => hkey
    exact hnow.lockstep reads (hordinary now)

variable (reads) in
/-- A whole call, run to its end. -/
theorem Agrees.run (h : Agrees limits tools (.idle last) s t)
    (hlimits : G.DeclaresLimits limits tools) (call : GatewayCall) {inputs : ℕ → Env}
    (hlt : last < (inputs 0).clock) {κ : Type} {c : κ}
    {r : Run gatewayInterface κ (GatewayState ApprovalStore)}
    {q : Run gatewayInterface κ SqlGatewayState} (hr : r.state = s) (hq : q.state = t) :
    Same (Agrees limits tools (.idle (inputs 0).clock))
      ((G.serve call).run (gatewaySystem G ApprovalStore.backend) c inputs r).1
      ((G.serve call).run (gatewaySystem G ApprovalStore.backend) c inputs r).2.state
      ((G.serve call).run (sqlGatewaySystem G reads) c inputs q).1
      ((G.serve call).run (sqlGatewaySystem G reads) c inputs q).2.state := by
  obtain ⟨next, hserve, hnext⟩ := h.serve reads hlimits call
  subst hr hq
  rw [hserve]
  exact (hnext _ hlt).run
    (r := r.perform (gatewaySystem G ApprovalStore.backend) c .clock (inputs 0))
    (w := q.perform (sqlGatewaySystem G reads) c .clock (inputs 0))

end Calls

/-! ## Sequences of calls -/

/-- A gateway over empty stores in memory. -/
def GatewayState.fresh (idempotencyTtl : ℤ) (maxEntries : ℕ) (approvalTtl : ℤ) :
    GatewayState ApprovalStore where
  idempotency := { ttlSeconds := idempotencyTtl, maxEntries }
  approvals := { ttlSeconds := approvalTtl, keyed := ApprovalStore.keyed_empty }

/-- A gateway over empty tables. -/
def SqlGatewayState.fresh (idempotencyTtl : ℤ) (maxEntries : ℕ) (approvalTtl : ℤ) :
    SqlGatewayState where
  idempotency := { ttlSeconds := idempotencyTtl, maxEntries }
  approvals :=
    { ttlSeconds := approvalTtl, keyed := SqlAlchemyApprovalStore.keyed_empty }

/-- What the calls are answered, one after another, each with its own surroundings. -/
def McpGateway.answers {σ : Type} (G : McpGateway) (S : System gatewayInterface σ Env) (s : σ)
    (calls : List (GatewayCall × (ℕ → Env))) : List (Except Exn GatewayToolResponse) :=
  outcomes S () (calls.map fun call => (G.serve call.1, call.2)) (.start s)

theorem Agrees.fresh (limits : String → RateLimit) (tools : Set String) (last : Time)
    (idempotencyTtl approvalTtl : ℤ) {maxEntries : ℕ} (hmax : 0 < maxEntries) :
    Agrees limits tools (.idle last) (.fresh idempotencyTtl maxEntries approvalTtl)
      (.fresh idempotencyTtl maxEntries approvalTtl) where
  counts := ⟨fun _ => [], .empty limits last, fun _ _ _ => SlidingWindow.Limit.Remembers.nil⟩
  idempotency := IdempotencyStore.AgreesWith.of_mirrors rfl rfl (Nat.zero_le _) (fun _ => rfl)
    ⟨fun _ _ h => (by cases h), fun _ _ _ _ h => (by cases h)⟩
  hasRoom := hmax
  held _ hkey := by cases hkey
  ledger := rfl
  inOrder := ⟨fun _ _ h => (by cases h), fun _ _ _ _ h => (by cases h)⟩

/-- Calls that begin one after another are answered over tables that take everything as over the
stores in memory. -/
theorem answers_sqlGateway {G : McpGateway} (reads : ReadsUuids G.runtime)
    {limits : String → RateLimit} {tools : Set String} (hlimits : G.DeclaresLimits limits tools)
    (idempotencyTtl approvalTtl : ℤ) {maxEntries : ℕ} (hmax : 0 < maxEntries)
    (calls : List (GatewayCall × (ℕ → Env)))
    (hclock : calls.Pairwise fun a b => (a.2 0).clock < (b.2 0).clock) :
    G.answers (sqlGatewaySystem G reads) (.fresh idempotencyTtl maxEntries approvalTtl) calls =
      G.answers (gatewaySystem G ApprovalStore.backend)
        (.fresh idempotencyTtl maxEntries approvalTtl) calls := by
  refine (outcomes_congr (R := fun entries s t => ∃ calls : List (GatewayCall × (ℕ → Env)),
    entries = calls.map (fun call => (G.serve call.1, call.2)) ∧
      calls.Pairwise (fun a b => (a.2 0).clock < (b.2 0).clock) ∧
      ∃ last, (∀ call ∈ calls, last < (call.2 0).clock) ∧
        Agrees limits tools (.idle last) s t) ?_ ⟨calls, rfl, hclock, ?_⟩).symm
  · rintro p inputs rest r q ⟨calls, hentries, hclock, last, hlater, h⟩
    -- the first call is answered alike, and leaves agreeing stores for the others
    cases calls with
    | nil => cases hentries
    | cons call calls =>
        obtain ⟨hentry, hrest⟩ := List.cons.inj hentries
        obtain ⟨rfl, rfl⟩ := Prod.mk.inj hentry
        obtain ⟨hfirst, hpairs⟩ := List.pairwise_cons.mp hclock
        have hrun := h.run reads hlimits call.1 (hlater call (List.mem_cons_self ..))
          (c := ()) (r := r) (q := q) rfl rfl
        exact ⟨hrun.1, calls, hrest, hpairs, (call.2 0).clock, hfirst, hrun.2⟩
  · -- nothing has happened before the first call
    cases calls with
    | nil => exact ⟨0, by simp, .fresh limits tools 0 idempotencyTtl approvalTtl hmax⟩
    | cons call calls =>
        refine ⟨(call.2 0).clock - 1, fun later hlater => ?_,
          .fresh limits tools _ idempotencyTtl approvalTtl hmax⟩
        rcases List.mem_cons.mp hlater with rfl | hlater
        · exact sub_one_lt _
        · exact (sub_one_lt _).trans ((List.pairwise_cons.mp hclock).1 later hlater)

end McpOps
