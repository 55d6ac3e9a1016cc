import McpOps.Gateway.Pipeline

/-!
# What a call does by itself

Whatever else happens at the same time, the events of one call have a fixed shape: it reserves at
most once and dispatches at most once, not without a reservation, and a governed tool not without
having found the record it names `APPROVED`.  `CallShape` counts the events to say so;
`interleave_callShape` is the result for calls in any interleaving.

## Strategy

A `Tally` has four numbers of events, and three kinds of events change one of them: a reservation
that succeeds, a passed status check and a dispatch.  All other events are `Idle`.

`Emits` is a predicate on code relative to the tally so far.  Plain procedures change no numbers
(`emits_of_plain`), which leaves three functions of the source: `_approval_for_request`, which
returns a record only after a passed check (`approvalForRequest_emits`), the run of the tool, with
one dispatch (`executeTool_emits`), and the body of `call_tool` around them.  `serve_emits`
collects the operations of the gateway.

The shape is about the events of a call only.  What it says of the state, such as that the record
is still approved at the dispatch, needs to know what other calls do, and is not said here.
-/

namespace McpOps

open Proc

/-- An event of a gateway. -/
abbrev GatewayEvent := Event gatewayInterface

namespace GatewayEvent

/-- A reservation that succeeds: `reserve` returns `None`. -/
def reserves : GatewayEvent → Bool
  | ⟨.reserve .., .ok none⟩ => true
  | _ => false

/-- The dispatch of a tool. -/
def dispatches : GatewayEvent → Bool
  | ⟨.dispatch .., _⟩ => true
  | _ => false

/-- A status check that finds the record of `id` approved. -/
def passes (id : Option UUID) : GatewayEvent → Bool
  | ⟨.checkStatus approval, status⟩ =>
      some approval.approvalId = id ∧ (status : ApprovalStatus) = .approved
  | _ => false

/-- What every answer of a gateway satisfies: a record is got under its own id. -/
def Valid : GatewayEvent → Prop
  | ⟨.approvals (.get id _), .ok approval⟩ => ApprovalRecord.approvalId approval = id
  | _ => True

end GatewayEvent

theorem valid_answer {A : Type} (G : McpGateway) (B : ApprovalBackend A) (o : GatewayOp)
    (env : Env) (s : GatewayState A) :
    GatewayEvent.Valid ⟨o, ((gatewaySystem G B).answer o env s).1⟩ := by
  cases o with
  | approvals ao =>
      cases ao with
      | get id now =>
          cases hgot : (B.answer (.get id now) env.freshId s.approvals).1 with
          | error e => simp [gatewaySystem, hgot, GatewayEvent.Valid]
          | ok approval =>
              have hget : (_, _) = (B.ledger s.approvals).get id now :=
                B.refines (.get id now) env.freshId s.approvals
              obtain ⟨hrec, -⟩ := Ledger.get_ok (hget.symm.trans (Prod.ext hgot rfl))
              simpa [gatewaySystem, hgot, GatewayEvent.Valid] using
                (B.ledger s.approvals).keyed id approval hrec
      | _ => trivial
  | _ => trivial

/-- The operations that count for nothing in the shape of a call. -/
def Idle : GatewayOp → Prop
  | .dispatch .. => False
  | .reserve .. => False
  | .checkStatus .. => False
  | _ => True

theorem Plain.idle {o : GatewayOp} (ho : Plain o) : Idle o := by
  cases o with
  | dispatch => exact ho
  | reserve => exact ho
  | checkStatus => exact ho
  | _ => trivial

/-! ## The shape of a call -/

/-- The numbers of reservations, passed status checks, dispatches and governed dispatches
among the events of a call that names the record of `id`. -/
structure Tally (id : Option UUID) (reserved passed dispatched governed : ℕ)
    (done : List GatewayEvent) : Prop where
  reserved : done.countP GatewayEvent.reserves = reserved
  passed : done.countP (GatewayEvent.passes id) = passed
  dispatched : done.countP GatewayEvent.dispatches = dispatched
  governed : done.countP (fun e => GatewayOp.governed e.1) = governed
  /-- every record whose status was checked had been got -/
  got : ∀ approval status rest, ⟨.checkStatus approval, status⟩ :: rest <:+ done →
    ∃ id now, ⟨.approvals (.get id now), (.ok approval : Except GatewayError ApprovalRecord)⟩ ∈ rest

/-- A call reserves at most once, dispatches only what it reserved, and governed tools only
after it passed a status check. -/
def CallShape (id : Option UUID) (done : List GatewayEvent) : Prop :=
  ∃ reserved passed dispatched governed, Tally id reserved passed dispatched governed done ∧
    reserved ≤ 1 ∧ dispatched ≤ reserved ∧ governed ≤ passed

namespace Tally

variable {id : Option UUID} {reserved passed dispatched governed : ℕ} {done : List GatewayEvent}

theorem start (id : Option UUID) : Tally id 0 0 0 0 [] where
  reserved := rfl
  passed := rfl
  dispatched := rfl
  governed := rfl
  got _ _ _ h := absurd (List.eq_nil_of_suffix_nil h) (by simp)

/-- An idle event changes none of the numbers. -/
theorem idle (h : Tally id reserved passed dispatched governed done) {e : GatewayEvent}
    (he : Idle e.1) : Tally id reserved passed dispatched governed (e :: done) := by
  obtain ⟨o, a⟩ := e
  have hcounts : GatewayEvent.reserves ⟨o, a⟩ = false ∧ GatewayEvent.passes id ⟨o, a⟩ = false ∧
      GatewayEvent.dispatches ⟨o, a⟩ = false ∧ GatewayOp.governed o = false ∧
      ∀ approval, o ≠ .checkStatus approval := by
    cases o with
    | reserve => exact he.elim
    | checkStatus => exact he.elim
    | dispatch => exact he.elim
    | _ => exact ⟨rfl, rfl, rfl, rfl, fun _ h => by cases h⟩
  obtain ⟨hr, hp, hd, hg, hcheck⟩ := hcounts
  refine ⟨?_, ?_, ?_, ?_, fun approval status rest hrest => ?_⟩
  · rw [List.countP_cons_of_neg (by simp [hr]), h.reserved]
  · rw [List.countP_cons_of_neg (by simp [hp]), h.passed]
  · rw [List.countP_cons_of_neg (by simp [hd]), h.dispatched]
  · rw [List.countP_cons_of_neg (by simp [hg]), h.governed]
  · rcases List.suffix_cons_iff.mp hrest with heq | hrest
    · cases heq
      exact absurd rfl (hcheck approval)
    · exact h.got approval status rest hrest

theorem plain (h : Tally id reserved passed dispatched governed done) {e : GatewayEvent}
    (he : Plain e.1) : Tally id reserved passed dispatched governed (e :: done) := h.idle he.idle

/-- A reservation counts when it succeeds. -/
theorem reserve (h : Tally id reserved passed dispatched governed done) (principal : Principal)
    (key : String) (now : Time) (a : Except GatewayError (Option GatewayToolResponse)) :
    Tally id (reserved + if GatewayEvent.reserves ⟨.reserve principal key now, a⟩ then 1 else 0)
      passed dispatched governed (⟨.reserve principal key now, a⟩ :: done) where
  reserved := by rw [List.countP_cons, h.reserved]
  passed := by rw [List.countP_cons_of_neg (by simp [GatewayEvent.passes]), h.passed]
  dispatched := by rw [List.countP_cons_of_neg (by simp [GatewayEvent.dispatches]), h.dispatched]
  governed := by rw [List.countP_cons_of_neg (by simp [GatewayOp.governed]), h.governed]
  got approval status rest hrest := by
    rcases List.suffix_cons_iff.mp hrest with heq | hrest
    · cases heq
    · exact h.got approval status rest hrest

/-- A status check counts when it finds the named record approved. -/
theorem check (h : Tally id reserved passed dispatched governed done) {approval : ApprovalRecord}
    (hgot : ∃ id now,
      ⟨.approvals (.get id now), (.ok approval : Except GatewayError ApprovalRecord)⟩ ∈ done)
    (status : ApprovalStatus) :
    Tally id reserved
      (passed + if GatewayEvent.passes id ⟨.checkStatus approval, status⟩ then 1 else 0)
      dispatched governed (⟨.checkStatus approval, status⟩ :: done) where
  reserved := by rw [List.countP_cons_of_neg (by simp [GatewayEvent.reserves]), h.reserved]
  passed := by rw [List.countP_cons, h.passed]
  dispatched := by rw [List.countP_cons_of_neg (by simp [GatewayEvent.dispatches]), h.dispatched]
  governed := by rw [List.countP_cons_of_neg (by simp [GatewayOp.governed]), h.governed]
  got approval' status' rest hrest := by
    rcases List.suffix_cons_iff.mp hrest with heq | hrest
    · cases heq
      exact hgot
    · exact h.got approval' status' rest hrest

/-- A dispatch counts, and once more when the tool is governed. -/
theorem dispatch (h : Tally id reserved passed dispatched governed done) {metadata : ToolMetadata}
    {arguments : PyDict} (a : Except Exn DispatchResult) :
    Tally id reserved passed (dispatched + 1)
      (governed + if metadata.requiresApproval then 1 else 0)
      (⟨.dispatch metadata arguments, a⟩ :: done) where
  reserved := by rw [List.countP_cons_of_neg (by simp [GatewayEvent.reserves]), h.reserved]
  passed := by rw [List.countP_cons_of_neg (by simp [GatewayEvent.passes]), h.passed]
  dispatched := by rw [List.countP_cons_of_pos (by rfl), h.dispatched]
  governed := by rw [List.countP_cons, h.governed]; rfl
  got approval status rest hrest := by
    rcases List.suffix_cons_iff.mp hrest with heq | hrest
    · cases heq
    · exact h.got approval status rest hrest

end Tally

theorem CallShape.plain {id : Option UUID} {done : List GatewayEvent} (h : CallShape id done)
    {e : GatewayEvent} (he : Plain e.1) : CallShape id (e :: done) := by
  obtain ⟨reserved, passed, dispatched, governed, htally, hbounds⟩ := h
  exact ⟨reserved, passed, dispatched, governed, htally.plain he, hbounds⟩

/-! ## Every call has the shape -/

section Rules

variable {ε α β : Type} {good : List GatewayEvent → Prop} {done : List GatewayEvent}

theorem emits_perform {post : Except ε β → List GatewayEvent → Prop} {o : GatewayOp}
    {f : o.Ans → GatewayM ε β} :
    (perform o >>= f).Emits GatewayEvent.Valid good post done ↔
      ∀ a, GatewayEvent.Valid ⟨o, a⟩ → good (⟨o, a⟩ :: done) ∧
        (f a).Emits GatewayEvent.Valid good post (⟨o, a⟩ :: done) := Iff.rfl

theorem emits_liftGateway {post : Except Exn β → List GatewayEvent → Prop}
    {res : Except GatewayError α} {f : α → GatewayM Exn β}
    (herror : ∀ e, res = .error e → post (.error (.gateway e)) done)
    (hok : ∀ a, res = .ok a → (f a).Emits GatewayEvent.Valid good post done) :
    (liftGateway res >>= f).Emits GatewayEvent.Valid good post done := by
  cases res with
  | error e => exact herror e rfl
  | ok a => exact hok a rfl

theorem emits_raiseOther {post : Except Exn β → List GatewayEvent → Prop}
    {raised : Option (String × String)} {f : Unit → GatewayM Exn β}
    (herror : ∀ cls message, post (.error (.other cls message)) done)
    (hok : (f ()).Emits GatewayEvent.Valid good post done) :
    (raiseOther raised >>= f).Emits GatewayEvent.Valid good post done := by
  cases raised with
  | some raised => exact herror _ _
  | none => exact hok

/-- Plain procedures change no numbers. -/
theorem emits_of_plain {p : GatewayM ε α} (hp : p.Uses Plain) {id : Option UUID}
    {reserved passed dispatched governed : ℕ}
    (h : Tally id reserved passed dispatched governed done)
    (hbounds : reserved ≤ 1 ∧ dispatched ≤ reserved ∧ governed ≤ passed) :
    p.Emits GatewayEvent.Valid (CallShape id)
      (fun _ => Tally id reserved passed dispatched governed) done :=
  hp.emits (fun _ h => ⟨_, _, _, _, h, hbounds⟩) (fun _ _ he _ h => h.plain he) h

theorem emits_of_plain' {p : GatewayM ε α} (hp : p.Uses Plain) {id : Option UUID}
    (h : CallShape id done) :
    p.Emits GatewayEvent.Valid (CallShape id) (fun _ => CallShape id) done :=
  hp.emits (fun _ h => h) (fun _ _ he _ h => h.plain he) h

end Rules

section CallTool

variable {G : McpGateway} {request : GatewayToolRequest} {principal : Principal}
  {metadata : ToolMetadata} {arguments : PyDict} {now : Time} {done : List GatewayEvent}

/-- `_approval_for_request` returns a record only after a passed status check. -/
theorem approvalForRequest_emits (h : Tally request.approvalId 1 0 0 0 done) :
    (G.approvalForRequest request metadata arguments now).Emits GatewayEvent.Valid
      (CallShape request.approvalId)
      (fun res done => CallShape request.approvalId done ∧ ∀ approval, res = .ok approval →
        Tally request.approvalId 1 (if approval.isSome then 1 else 0) 0 0 done) done := by
  have hshape : CallShape request.approvalId done := ⟨_, _, _, _, h, by decide⟩
  unfold McpGateway.approvalForRequest
  split
  · exact ⟨hshape, fun _ h' => by cases h'; exact h⟩
  · exact ⟨hshape, fun _ h' => by cases h'; exact h⟩
  · rename_i id _ hid
    refine emits_perform.mpr fun got hgot => ⟨hshape.plain trivial, ?_⟩
    have h₁ := h.plain (e := ⟨.approvals (.get id now), got⟩) trivial
    have hshape₁ : CallShape request.approvalId (⟨.approvals (.get id now), got⟩ :: done) :=
      hshape.plain trivial
    refine emits_liftGateway (fun _ _ => ⟨hshape₁, fun _ h' => by cases h'⟩) fun approval hres => ?_
    subst hres
    refine emits_raiseOther (fun _ _ => ⟨hshape₁, fun _ h' => by cases h'⟩) ?_
    refine emits_liftGateway (fun _ _ => ⟨hshape₁, fun _ h' => by cases h'⟩) fun _ _ => ?_
    have hchecked := h₁.check ⟨id, now, List.mem_cons_self ..⟩
    refine emits_perform.mpr fun status _ => ?_
    have hshape₂ : CallShape request.approvalId (⟨.checkStatus approval, status⟩ ::
        ⟨.approvals (.get id now), .ok approval⟩ :: done) :=
      ⟨_, _, _, _, hchecked status, by decide, by decide, by omega⟩
    refine ⟨hshape₂, ?_⟩
    split
    · rename_i happroved
      refine ⟨hshape₂, fun _ h' => ?_⟩
      cases h'
      -- the record that was got is the one the request names
      have hpasses : GatewayEvent.passes request.approvalId ⟨.checkStatus approval, status⟩ := by
        have hkey : approval.approvalId = id := hgot
        simpa [GatewayEvent.passes, hid, hkey] using happroved
      simpa [hpasses] using hchecked status
    · exact emits_perform.mpr fun _ _ =>
        ⟨hshape₂.plain trivial, hshape₂.plain trivial, fun _ h' => by cases h'⟩

/-- One dispatch, of a governed tool only after a passed status check. -/
theorem executeTool_emits {approval : Option ApprovalRecord} {passed : ℕ}
    (h : Tally request.approvalId 1 passed 0 0 done)
    (hpassed : metadata.requiresApproval → passed = 1) :
    (G.executeTool request principal metadata arguments approval).Emits GatewayEvent.Valid
      (CallShape request.approvalId) (fun _ => CallShape request.approvalId) done := by
  have hshape : CallShape request.approvalId done := ⟨_, _, _, _, h, by omega⟩
  -- running the tool adds a mark and one dispatch
  have hrun : (G.runTool request principal metadata arguments).Emits GatewayEvent.Valid
      (CallShape request.approvalId) (fun _ => CallShape request.approvalId) done := by
    refine emits_perform.mpr fun (t : Time) _ => ?_
    have h₁ := h.plain (e := ⟨.clock, t⟩) trivial
    refine ⟨⟨_, _, _, _, h₁, by omega⟩, emits_perform.mpr fun (_ : Unit) _ => ?_⟩
    have h₂ := h₁.plain (e := ⟨.markRunning principal request.idempotencyKey t, ()⟩) trivial
    refine ⟨⟨_, _, _, _, h₂, by omega⟩, emits_perform.mpr fun result _ => ?_⟩
    have hdispatched : CallShape request.approvalId (⟨.dispatch metadata
        (McpGateway.trustedDomainArguments arguments principal metadata), result⟩ ::
        ⟨.markRunning principal request.idempotencyKey t, ()⟩ :: ⟨.clock, t⟩ :: done) := by
      refine ⟨_, _, _, _, h₂.dispatch result, by decide, by decide, ?_⟩
      split
      · exact (hpassed ‹_›).ge
      · exact Nat.zero_le _
    exact ⟨hdispatched,
      emits_of_plain' ((uses_liftExn _).bind fun _ => by split <;> trivial) hdispatched⟩
  refine Procedure.emits_tryCatch.mpr (hrun.imp hshape fun res done' _ hshape' => ?_)
  cases res with
  | ok result => exact hshape'
  | error exn =>
      -- a failure is recorded, and nothing is dispatched again
      refine emits_of_plain' ?_ hshape'
      dsimp only
      split
      · exact uses_clock.bind fun _ => (uses_perform (by trivial)).bind fun _ =>
          (uses_liftGateway _).bind fun _ => trivial
      · trivial

theorem callReserved_emits (h : Tally request.approvalId 1 0 0 0 done) :
    (G.callReserved request principal metadata arguments now).Emits GatewayEvent.Valid
      (CallShape request.approvalId) (fun _ => CallShape request.approvalId) done := by
  have hshape : CallShape request.approvalId done := ⟨_, _, _, _, h, by decide⟩
  refine Procedure.emits_bind.mpr
    ((approvalForRequest_emits h).imp hshape fun res done' _ hres => ?_)
  obtain ⟨hshape', htally⟩ := hres
  cases res with
  | error exn => exact hshape'
  | ok approval =>
      dsimp only [Procedure.emitsThen]
      split
      · exact emits_of_plain' uses_requestApproval hshape'
      · rename_i hgo
        have hpassed : metadata.requiresApproval → (if approval.isSome then 1 else 0) = 1 := by
          intro hgoverned
          cases approval with
          | none => exact absurd ⟨hgoverned, rfl⟩ hgo
          | some approval => rfl
        refine Procedure.emits_bind.mpr ((executeTool_emits (htally approval rfl) hpassed).imp
          hshape' fun res done'' _ hshape'' => ?_)
        cases res with
        | error exn => exact hshape''
        | ok result =>
            refine emits_of_plain' ?_ hshape''
            exact (uses_recordExecution _).bind fun _ => (uses_reportedStatus _).bind fun _ =>
              uses_success.bind fun _ => uses_clock.bind fun _ =>
                (uses_perform (by trivial)).bind fun _ => trivial

theorem callBody_emits (h : Tally request.approvalId 0 0 0 0 done) :
    (G.callBody request now).Emits GatewayEvent.Valid (CallShape request.approvalId)
      (fun _ => CallShape request.approvalId) done := by
  have hshape : CallShape request.approvalId done := ⟨_, _, _, _, h, by decide⟩
  -- a part whose errors only get the local variables added
  have hmap : ∀ {α β : Type} {p : GatewayM Exn α} {f : α → GatewayM McpGateway.CallFailure β}
      {locals : Exn → McpGateway.CallFailure} {done : List GatewayEvent},
      p.Emits GatewayEvent.Valid (CallShape request.approvalId)
        (fun res done => CallShape request.approvalId done ∧ ∀ a, res = .ok a →
          (f a).Emits GatewayEvent.Valid (CallShape request.approvalId)
            (fun _ => CallShape request.approvalId) done) done →
      CallShape request.approvalId done →
      (p.mapError locals >>= f).Emits GatewayEvent.Valid (CallShape request.approvalId)
        (fun _ => CallShape request.approvalId) done := by
    intro α β p f locals done hp hshape
    refine Procedure.emits_bind.mpr (Procedure.emits_tryCatch.mpr (hp.imp hshape ?_))
    rintro (exn | a) done - ⟨hshape, hok⟩
    · exact hshape
    · exact hok a rfl
  refine hmap ?_ hshape
  cases G.authenticate request.authToken with
  | error e => exact ⟨hshape, fun _ h' => by cases h'⟩
  | ok principal =>
      refine ⟨hshape, fun _ h' => ?_⟩
      cases h'
      refine hmap ?_ hshape
      cases G.metadata request.toolName with
      | error e => exact ⟨hshape, fun _ h' => by cases h'⟩
      | ok metadata =>
          refine ⟨hshape, fun _ h' => ?_⟩
          cases h'
          refine hmap ((emits_of_plain uses_checkRequest h (by decide)).imp hshape
            fun _ done hshape h => ⟨hshape, fun _ _ => ?_⟩) hshape
          refine hmap (emits_perform.mpr fun replay _ => ?_) hshape
          have hreserved := h.reserve principal request.idempotencyKey now replay
          have hshape' : CallShape request.approvalId
              (⟨.reserve principal request.idempotencyKey now, replay⟩ :: done) :=
            ⟨_, _, _, _, hreserved, by split <;> decide, by omega, by decide⟩
          refine ⟨hshape', ?_⟩
          cases replay with
          | error e => exact ⟨hshape', fun _ h' => by cases h'⟩
          | ok replay =>
              refine ⟨hshape', fun _ h' => ?_⟩
              cases h'
              cases replay with
              | some response => exact hshape'
              | none =>
                  refine Procedure.emits_tryCatch.mpr
                    ((callReserved_emits hreserved).imp hshape' ?_)
                  rintro (exn | response) done - hshape
                  · exact hshape
                  · exact hshape

theorem callTool_emits (request : GatewayToolRequest) :
    (G.callTool request).Emits GatewayEvent.Valid (CallShape request.approvalId)
      (fun _ => CallShape request.approvalId) [] := by
  refine emits_perform.mpr fun (now : Time) _ => ?_
  have h := (Tally.start request.approvalId).plain (e := ⟨.clock, now⟩) trivial
  have hshape : CallShape request.approvalId [⟨.clock, now⟩] := ⟨_, _, _, _, h, by decide⟩
  refine ⟨hshape, Procedure.emits_tryCatch.mpr ((callBody_emits h).imp hshape ?_)⟩
  rintro (failure | response) done - hshape
  · exact emits_of_plain' (uses_handleFailure failure) hshape
  · exact hshape

end CallTool

/-! ### The other operations and the whole gateway -/

/-- The record that a call names to execute it. -/
def GatewayCall.namedApproval : GatewayCall → Option UUID
  | .callTool request => request.approvalId
  | _ => none

section Serve

variable {G : McpGateway}

theorem uses_idle_of_plain {ε α : Type} {p : GatewayM ε α} (hp : p.Uses Plain) : p.Uses Idle :=
  hp.mono fun _ => Plain.idle

theorem uses_approveOperation (token : String) (id : UUID) :
    (G.approveOperation token id).Uses Idle := by
  refine (uses_idle_of_plain uses_clock).bind fun now => uses_deniedOnError ?_
  refine (uses_idle_of_plain (uses_liftGateway _)).bind fun principal => ?_
  refine (uses_idle_of_plain (uses_perform (by trivial))).bind fun got => ?_
  refine (uses_idle_of_plain (uses_liftGateway _)).bind fun approval => ?_
  refine (uses_idle_of_plain (uses_liftExn _)).bind fun _ => ⟨trivial, fun approved => ?_⟩
  exact (uses_idle_of_plain (uses_liftGateway _)).bind fun _ => trivial

theorem uses_rejectOperation (token : String) (id : UUID) (reason : String) :
    (G.rejectOperation token id reason).Uses Plain :=
  uses_clock.bind fun _ => uses_deniedOnError ((uses_liftGateway _).bind fun _ =>
    (uses_perform (by trivial)).bind fun _ => (uses_liftGateway _).bind fun _ =>
      (uses_liftExn _).bind fun _ => (uses_perform (by trivial)).bind fun _ =>
        (uses_liftGateway _).bind fun _ => trivial)

theorem uses_listApprovals (token : String) : (G.listApprovals token).Uses Plain :=
  uses_clock.bind fun _ => uses_deniedOnError ((uses_liftGateway _).bind fun _ =>
    (uses_liftExn _).bind fun _ => (uses_perform (by trivial)).bind fun _ => trivial)

theorem uses_getApproval (token : String) (id : UUID) : (G.getApproval token id).Uses Plain :=
  uses_clock.bind fun _ => uses_deniedOnError ((uses_liftGateway _).bind fun _ =>
    (uses_liftExn _).bind fun _ => (uses_perform (by trivial)).bind fun _ =>
      (uses_liftGateway _).bind fun _ => trivial)

/-- Every call has the shape. -/
theorem serve_emits (call : GatewayCall) :
    (G.serve call).Emits
      GatewayEvent.Valid (CallShape call.namedApproval) (fun _ _ => True) [] := by
  have hidle : ∀ {p : GatewayM Exn GatewayToolResponse}, p.Uses Idle →
      p.Emits GatewayEvent.Valid (CallShape none) (fun _ => Tally none 0 0 0 0) [] := fun hp =>
    hp.emits (fun _ h => ⟨_, _, _, _, h, by decide⟩) (fun _ _ he _ h => h.idle he) (.start none)
  have hshape : CallShape none [] := ⟨_, _, _, _, .start none, by decide⟩
  cases call with
  | callTool request =>
      exact (callTool_emits request).imp ⟨_, _, _, _, .start _, by decide⟩ fun _ _ _ _ => trivial
  | approveOperation token id =>
      exact (hidle (uses_approveOperation token id)).imp hshape fun _ _ _ _ => trivial
  | rejectOperation token id reason =>
      exact (hidle (uses_idle_of_plain (uses_rejectOperation token id reason))).imp hshape
        fun _ _ _ _ => trivial
  | listApprovals token =>
      exact (hidle (uses_idle_of_plain (uses_listApprovals token))).imp hshape
        fun _ _ _ _ => trivial
  | getApproval token id =>
      exact (hidle (uses_idle_of_plain (uses_getApproval token id))).imp hshape
        fun _ _ _ _ => trivial

/-- The run of calls at the same time, along a schedule. -/
abbrev McpGateway.interleaveCalls {κ A : Type} [DecidableEq κ] (G : McpGateway)
    (B : ApprovalBackend A) (s : GatewayState A) (calls : κ → GatewayCall)
    (schedule : List (κ × Env)) : Run gatewayInterface κ (GatewayState A) :=
  (interleave (gatewaySystem G B) (fun k => G.serve (calls k)) schedule (Run.start s)).2

/-- `count` turns of caller `k` at second `n`. -/
def turns (k n count : ℕ) : List (ℕ × Env) := List.replicate count (k, .at n)

/-- In every interleaving the events of each call have the shape. -/
theorem interleave_callShape {κ A : Type} [DecidableEq κ] {B : ApprovalBackend A}
    {s : GatewayState A} (calls : κ → GatewayCall) (schedule : List (κ × Env)) (k : κ) :
    CallShape (calls k).namedApproval (own k (G.interleaveCalls B s calls schedule).past) :=
  have hstart : ∀ k, CallShape (calls k).namedApproval
      (own k (Run.start s : Run gatewayInterface κ (GatewayState A)).past) :=
    fun _ => ⟨_, _, _, _, .start _, by decide⟩
  (interleave_emits (fun _ => True) (fun o env s _ => valid_answer G B o env s)
    (fun _ _ _ _ _ _ _ => trivial) schedule _ trivial hstart fun k => serve_emits (calls k)).2 k

end Serve

end McpOps
