import McpOps.Gateway.Idempotency

/-!
# Replays

A completed response stays in the store under the principal and the idempotency key of its request
and is the answer to every later request under them, whatever tool and arguments that names.
`replays_faithful_iff` says when all the answers given in this way fit their requests.

## Strategy

Whose response is it that is replayed?

* A call reserves and completes its own key only (`onOwnKey_serve`).  This is about the operations
  of a call, so it is proved over its code, with `Uses`.
* Every response in the store is that of the last completion of its key (`HoldsCompletions`).  An
  attempt to reserve, a sweep and marking a key leave no response that was not there before
  (`of_get?_reserve`, `of_get?_expire`, `of_get?_markRunning`).

So a replayed response was left by the last completion of its key (`exists_completion_of_replay`),
and the replay is faithful if and only if that completion was for the same operation.  The
condition `KeysNotReused` says this of the state before the request.
-/

namespace McpOps

open Proc

/-! ## Whose keys a call uses -/

/-- The call is a `call_tool` of `principal` under `idempotencyKey`. -/
def GatewayCall.UsesKey (G : McpGateway) (call : GatewayCall) (principal : Principal)
    (idempotencyKey : String) : Prop :=
  ∃ request, call = .callTool request ∧ G.authenticate request.authToken = .ok principal ∧
    request.idempotencyKey = idempotencyKey

/-- Reservations and completions are made for the call's own principal and key. -/
def OnOwnKey (G : McpGateway) (call : GatewayCall) : GatewayOp → Prop
  | .reserve principal idempotencyKey _ => call.UsesKey G principal idempotencyKey
  | .complete principal idempotencyKey .. => call.UsesKey G principal idempotencyKey
  | _ => True

/-- The operations other than reservations and completions. -/
def Keyless : GatewayOp → Prop
  | .reserve .. => False
  | .complete .. => False
  | _ => True

section Uses

variable {G : McpGateway} {request : GatewayToolRequest} {principal : Principal}
  {metadata : ToolMetadata} {arguments : PyDict} {now : Time} {call : GatewayCall} {α ε : Type}

theorem onOwnKey_of_keyless {p : GatewayM ε α} (hp : p.Uses Keyless) :
    p.Uses (OnOwnKey G call) := by
  refine hp.mono fun o ho => ?_
  cases o with
  | reserve => exact ho.elim
  | complete => exact ho.elim
  | _ => trivial

theorem keyless_success {decision : GatewayDecision} {data : PyDict}
    {approvalStatus : Option ApprovalStatus} {executionStatus : String} :
    (G.success request principal metadata decision data approvalStatus executionStatus).Uses
      Keyless :=
  (uses_perform (by trivial)).bind fun _ => (uses_raiseOther _).bind fun _ =>
    (uses_perform (by trivial)).bind fun _ => trivial

theorem keyless_approvalForRequest :
    (G.approvalForRequest request metadata arguments now).Uses Keyless := by
  unfold McpGateway.approvalForRequest
  split
  · trivial
  · trivial
  · refine (uses_perform (by trivial)).bind fun got =>
      (uses_liftGateway _).bind fun approval => (uses_raiseOther _).bind fun _ => ?_
    refine (uses_liftGateway _).bind fun _ => (uses_perform (by trivial)).bind fun status => ?_
    split
    · trivial
    · exact (uses_perform (by trivial)).bind fun _ => trivial

theorem keyless_executeTool {approval : Option ApprovalRecord} :
    (G.executeTool request principal metadata arguments approval).Uses Keyless := by
  refine Procedure.Uses.tryCatch ?_ fun exn => ?_
  · refine (uses_perform (by trivial)).bind fun _ => (uses_perform (by trivial)).bind fun _ => ?_
    refine (uses_perform (by trivial)).bind fun _ => (uses_liftExn _).bind fun _ => ?_
    split <;> trivial
  · split
    · exact (uses_perform (by trivial)).bind fun _ => (uses_perform (by trivial)).bind fun _ =>
        (uses_liftGateway _).bind fun _ => trivial
    · trivial

theorem keyless_recordExecution {result : DispatchResult} (approval : Option ApprovalRecord) :
    (McpGateway.recordExecution principal result approval).Uses Keyless := by
  cases approval with
  | none => trivial
  | some approval =>
      exact (uses_perform (by trivial)).bind fun _ => (uses_perform (by trivial)).bind fun _ =>
        (uses_liftGateway _).bind fun _ => trivial

theorem keyless_reportedStatus (approval : Option ApprovalRecord) :
    (McpGateway.reportedStatus approval).Uses Keyless := by
  cases approval with
  | none => trivial
  | some approval => exact (uses_perform (by trivial)).bind fun _ => trivial

theorem onOwnKey_callReserved (hauth : G.authenticate request.authToken = .ok principal) :
    (G.callReserved request principal metadata arguments now).Uses
      (OnOwnKey G (.callTool request)) := by
  refine (onOwnKey_of_keyless keyless_approvalForRequest).bind fun approval => ?_
  split
  · exact onOwnKey_of_keyless ((uses_raiseOther _).bind fun _ =>
      (uses_perform (by trivial)).bind fun _ => (uses_perform (by trivial)).bind fun _ =>
        (uses_perform (by trivial)).bind fun _ => keyless_success)
  · refine (onOwnKey_of_keyless keyless_executeTool).bind fun result => ?_
    refine (onOwnKey_of_keyless (keyless_recordExecution approval)).bind fun _ => ?_
    refine (onOwnKey_of_keyless (keyless_reportedStatus approval)).bind fun status => ?_
    refine (onOwnKey_of_keyless keyless_success).bind fun response => ?_
    refine (onOwnKey_of_keyless (uses_perform (by trivial))).bind fun _ => ?_
    exact ⟨⟨request, rfl, hauth, rfl⟩, fun _ => trivial⟩

/-- The failures that leave the body of `call_tool` name the principal of the request, if any. -/
def OfRequest (G : McpGateway) (request : GatewayToolRequest) (f : McpGateway.CallFailure) : Prop :=
  ∀ principal, f.principal = some principal → G.authenticate request.authToken = .ok principal

theorem onOwnKey_handleFailure {f : McpGateway.CallFailure} (hf : OfRequest G request f) :
    (G.handleFailure request f).Uses (OnOwnKey G (.callTool request)) := by
  unfold McpGateway.handleFailure
  split
  · trivial
  · refine (onOwnKey_of_keyless ?_).bind fun response => ?_
    · exact (uses_perform (by trivial)).bind fun _ => (uses_raiseOther _).bind fun _ =>
        (uses_perform (by trivial)).bind fun _ => trivial
    · split
      · rename_i principal hprincipal _
        refine (onOwnKey_of_keyless (uses_perform (by trivial))).bind fun _ => ?_
        exact ⟨⟨request, rfl, hf principal hprincipal, rfl⟩, fun _ => trivial⟩
      · trivial

theorem returns_liftGateway {res : Except GatewayError α} {a : α} :
    (liftGateway res).Returns a ↔ res = .ok a := by
  cases res with
  | ok a' => simp [liftGateway]
  | error e => simp [liftGateway]

theorem returns_liftExn {res : Except Exn α} {a : α} :
    (liftExn res).Returns a ↔ res = .ok a := by
  cases res with
  | ok a' => simp [liftExn]
  | error e => simp [liftExn]

theorem ofRequest_callBody {f : McpGateway.CallFailure} (h : (G.callBody request now).Raises f) :
    OfRequest G request f := by
  have hlocals : ∀ {β : Type} {p : GatewayM Exn β} {locals : Exn → McpGateway.CallFailure},
      (p.mapError locals).Raises f →
      (∀ exn principal, (locals exn).principal = some principal →
        G.authenticate request.authToken = .ok principal) → OfRequest G request f := by
    intro β p locals hraises hprincipal
    obtain ⟨exn, -, rfl⟩ := Procedure.raises_mapError.mp hraises
    exact hprincipal exn
  rcases Procedure.raises_bind.mp h with hauth | ⟨principal, hauth, h⟩
  · exact hlocals hauth fun _ _ h => by cases h
  · have hauth : G.authenticate request.authToken = .ok principal :=
      returns_liftGateway.mp (Procedure.returns_mapError.mp hauth)
    have hsame : ∀ principal', some principal = some principal' →
        G.authenticate request.authToken = .ok principal' := by
      rintro _ ⟨⟩
      exact hauth
    rcases Procedure.raises_bind.mp h with hraises | ⟨metadata, -, h⟩
    · exact hlocals hraises fun _ => hsame
    · rcases Procedure.raises_bind.mp h with hraises | ⟨_, -, h⟩
      · exact hlocals hraises fun _ => hsame
      · rcases Procedure.raises_bind.mp h with hraises | ⟨replay, -, h⟩
        · exact hlocals hraises fun _ => hsame
        · cases replay with
          | some response => exact h.elim
          | none => exact hlocals h fun _ => hsame

theorem onOwnKey_callTool : (G.callTool request).Uses (OnOwnKey G (.callTool request)) := by
  refine (onOwnKey_of_keyless (uses_perform (by trivial))).bind fun (now : Time) => ?_
  refine Procedure.Uses.tryCatch_raises ?_ fun f hf =>
    onOwnKey_handleFailure (ofRequest_callBody hf)
  have hmap : ∀ {β : Type} {p : GatewayM Exn β} {locals : Exn → McpGateway.CallFailure},
      p.Uses (OnOwnKey G (.callTool request)) →
      (p.mapError locals).Uses (OnOwnKey G (.callTool request)) :=
    fun hp => hp.tryCatch fun _ => trivial
  have hlift : (liftGateway (G.authenticate request.authToken)).Uses
      (OnOwnKey G (.callTool request)) := onOwnKey_of_keyless (uses_liftGateway _)
  refine (hmap hlift).bind_returns fun principal hprincipal => ?_
  have hauth : G.authenticate request.authToken = .ok principal :=
    returns_liftGateway.mp (Procedure.returns_mapError.mp hprincipal)
  refine (hmap (onOwnKey_of_keyless (uses_liftExn _))).bind fun metadata => ?_
  refine (hmap (onOwnKey_of_keyless ?_)).bind fun _ => ?_
  · exact (uses_liftExn _).bind fun _ => (uses_liftExn _).bind fun _ =>
      (uses_liftExn _).bind fun _ => (uses_perform (by trivial)).bind fun _ =>
        (uses_liftExn _).bind fun _ => uses_liftExn _
  · refine (hmap ?_).bind fun replay => ?_
    · exact ⟨⟨request, rfl, hauth, rfl⟩, fun _ => onOwnKey_of_keyless (uses_liftGateway _)⟩
    · cases replay with
      | some response => trivial
      | none => exact hmap (onOwnKey_callReserved hauth)

/-- Every call reserves and completes its own keys only. -/
theorem onOwnKey_serve (call : GatewayCall) : (G.serve call).Uses (OnOwnKey G call) := by
  cases call with
  | callTool request => exact onOwnKey_callTool
  | approveOperation token id =>
      exact onOwnKey_of_keyless ((uses_perform (by trivial)).bind fun _ => uses_deniedOnError
        ((uses_liftGateway _).bind fun _ => (uses_perform (by trivial)).bind fun _ =>
          (uses_liftGateway _).bind fun _ => (uses_liftExn _).bind fun _ =>
            (uses_perform (by trivial)).bind fun _ => (uses_liftGateway _).bind fun _ =>
              trivial))
  | rejectOperation token id reason =>
      exact onOwnKey_of_keyless ((uses_perform (by trivial)).bind fun _ => uses_deniedOnError
        ((uses_liftGateway _).bind fun _ => (uses_perform (by trivial)).bind fun _ =>
          (uses_liftGateway _).bind fun _ => (uses_liftExn _).bind fun _ =>
            (uses_perform (by trivial)).bind fun _ => (uses_liftGateway _).bind fun _ =>
              trivial))
  | listApprovals token =>
      exact onOwnKey_of_keyless ((uses_perform (by trivial)).bind fun _ => uses_deniedOnError
        ((uses_liftGateway _).bind fun _ => (uses_liftExn _).bind fun _ =>
          (uses_perform (by trivial)).bind fun _ => trivial))
  | getApproval token id =>
      exact onOwnKey_of_keyless ((uses_perform (by trivial)).bind fun _ => uses_deniedOnError
        ((uses_liftGateway _).bind fun _ => (uses_liftExn _).bind fun _ =>
          (uses_perform (by trivial)).bind fun _ => (uses_liftGateway _).bind fun _ =>
            trivial))

end Uses

/-! ## What the store holds -/

namespace IdempotencyStore

/-- The response that is held under a key at `now`: one of a terminal status that the sweep
leaves. -/
def completedResponse (principal : Principal) (idempotencyKey : String) (now : Time)
    (s : IdempotencyStore) : Option GatewayToolResponse :=
  ((s.expire now).keys.get? (principal.principalId, idempotencyKey)).bind fun rec =>
    if rec.status.terminal then rec.response else none

/-- A reservation is answered with the response that is held. -/
theorem reserve_eq_some_iff {principal : Principal} {idempotencyKey : String} {now : Time}
    {s : IdempotencyStore} {response : GatewayToolResponse} :
    (s.reserve principal idempotencyKey now).1 = .ok (some response) ↔
      s.completedResponse principal idempotencyKey now = some response := by
  rw [completedResponse, reserve]
  cases hget : (s.expire now).keys.get? (principal.principalId, idempotencyKey) with
  | none => simp
  | some rec =>
      cases hstatus : rec.status.terminal <;> cases hresponse : rec.response <;>
        simp [hstatus, hresponse]

/-- What a sweep leaves was there before. -/
theorem of_get?_expire {now : Time} {s : IdempotencyStore} {key : IdempotencyKey}
    {rec : IdempotencyRecord} (h : (s.expire now).keys.get? key = some rec) :
    s.keys.get? key = some rec := by
  rw [get?_expire, Option.filter_eq_some_iff] at h
  exact h.1

theorem of_get?_evict {maxEntries : ℕ} {key : IdempotencyKey} {rec : IdempotencyRecord}
    (fuel : ℕ) {keys : Dict IdempotencyKey IdempotencyRecord}
    (h : (evict maxEntries fuel keys).get? key = some rec) : keys.get? key = some rec := by
  induction fuel generalizing keys with
  | zero => exact h
  | succ fuel ih =>
      rw [evict] at h
      split at h
      · split at h
        · have herased := ih h
          rw [Dict.get?_erase] at herased
          split at herased
          · cases herased
          · exact herased
        · exact h
      · exact h

/-- An attempt to reserve leaves no response that was not there before. -/
theorem of_get?_reserve {principal : Principal} {idempotencyKey : String} {now : Time}
    {s : IdempotencyStore} {key : IdempotencyKey} {rec : IdempotencyRecord}
    {response : GatewayToolResponse}
    (h : (s.reserve principal idempotencyKey now).2.keys.get? key = some rec)
    (hresponse : rec.response = some response) : s.keys.get? key = some rec := by
  rw [reserve] at h
  cases hget : (s.expire now).keys.get? (principal.principalId, idempotencyKey) with
  | some existing =>
      simp only [hget] at h
      have hkept : (s.expire now).keys.get? key = some rec := by
        split at h <;> exact h
      exact of_get?_expire hkept
  | none =>
      simp only [hget] at h
      have hinserted := of_get?_evict _ h
      rw [insertReservation, Dict.get?_set] at hinserted
      split at hinserted
      · cases hinserted
        cases hresponse
      · exact of_get?_expire hinserted

/-- Marking a key changes no response. -/
theorem of_get?_markRunning {principal : Principal} {idempotencyKey : String}
    {s : IdempotencyStore} {key : IdempotencyKey} {rec : IdempotencyRecord}
    (h : (s.markRunning principal idempotencyKey).keys.get? key = some rec) :
    ∃ rec', s.keys.get? key = some rec' ∧ rec'.response = rec.response := by
  rw [markRunning] at h
  split at h
  · rename_i existing hget
    rw [Dict.get?_set] at h
    split at h
    · rename_i hkey
      cases h
      exact ⟨existing, hkey ▸ hget, rfl⟩
    · exact ⟨rec, h, rfl⟩
  · exact ⟨rec, h, rfl⟩

end IdempotencyStore

/-! ## Completions of a run -/

section Completions

variable {A κ : Type} {G : McpGateway} {B : ApprovalBackend A}

/-- The call that completes `key` in a step, with the response it leaves. -/
def completion (key : IdempotencyKey) (d : Step gatewayInterface κ (GatewayState A)) :
    Option (κ × GatewayToolResponse) :=
  match d.op with
  | .complete principal idempotencyKey response _ _ =>
      if (principal.principalId, idempotencyKey) = key then some (d.caller, response) else none
  | _ => none

/-- The last completion of `key`. -/
def lastCompletion (key : IdempotencyKey)
    (past : List (Step gatewayInterface κ (GatewayState A))) :
    Option (κ × GatewayToolResponse) := past.findSome? (completion key)

/-- Every response in the store is that of the last completion of its key. -/
def HoldsCompletions (r : Run gatewayInterface κ (GatewayState A)) : Prop :=
  ∀ key rec response, r.state.idempotency.keys.get? key = some rec → rec.response = some response →
    ∃ c, lastCompletion key r.past = some (c, response)

theorem lastCompletion_of_none {key : IdempotencyKey}
    {d : Step gatewayInterface κ (GatewayState A)}
    {past : List (Step gatewayInterface κ (GatewayState A))} (hd : completion key d = none) :
    lastCompletion key (d :: past) = lastCompletion key past := by
  rw [lastCompletion, List.findSome?_cons, hd]
  rfl

theorem lastCompletion_of_some {key : IdempotencyKey}
    {d : Step gatewayInterface κ (GatewayState A)}
    {past : List (Step gatewayInterface κ (GatewayState A))} {last : κ × GatewayToolResponse}
    (hd : completion key d = some last) : lastCompletion key (d :: past) = some last := by
  rw [lastCompletion, List.findSome?_cons, hd]

theorem holdsCompletions_perform {r : Run gatewayInterface κ (GatewayState A)}
    (hr : HoldsCompletions r) (c : κ) (o : GatewayOp) (env : Env) :
    HoldsCompletions (r.perform (gatewaySystem G B) c o env) := by
  intro key rec response hrec hresponse
  cases o with
  | reserve principal idempotencyKey now =>
      rw [Run.perform_past, lastCompletion_of_none rfl]
      exact hr key rec response (IdempotencyStore.of_get?_reserve hrec hresponse) hresponse
  | markRunning principal idempotencyKey now =>
      obtain ⟨rec', hrec', hsame⟩ := IdempotencyStore.of_get?_markRunning hrec
      rw [Run.perform_past, lastCompletion_of_none rfl]
      exact hr key rec' response hrec' (hsame.trans hresponse)
  | complete principal idempotencyKey response' status now =>
      -- only a completion changes what is stored under a key, and only under its own
      have hset : (r.state.idempotency.complete
          principal idempotencyKey response' status now).keys.get?
          key = some rec := hrec
      rw [IdempotencyStore.complete, Dict.get?_set] at hset
      by_cases hkey : key = (principal.principalId, idempotencyKey)
      · rw [if_pos hkey] at hset
        cases hset
        cases hresponse
        exact ⟨c, lastCompletion_of_some (if_pos hkey.symm)⟩
      · rw [if_neg hkey] at hset
        obtain ⟨c', hlast⟩ := hr key rec response hset hresponse
        have hother : completion key ⟨c, .complete principal idempotencyKey response' status now,
            ((gatewaySystem G B).answer (.complete principal idempotencyKey response' status now)
              env r.state).1, r.state, ((gatewaySystem G B).answer
                (.complete principal idempotencyKey response' status now) env r.state).2⟩ = none :=
          if_neg (Ne.symm hkey)
        exact ⟨c', (lastCompletion_of_none hother).trans hlast⟩
  | _ =>
      rw [Run.perform_past, lastCompletion_of_none rfl]
      exact hr key rec response hrec hresponse

theorem holdsCompletions_of_from {s : GatewayState A}
    (hstart : ∀ key rec, s.idempotency.keys.get? key = some rec → rec.response = none)
    {r : Run gatewayInterface κ (GatewayState A)} (hr : Run.From (gatewaySystem G B) s r) :
    HoldsCompletions r := by
  induction hr with
  | start =>
      intro key rec response hrec hresponse
      rw [hstart key rec hrec] at hresponse
      cases hresponse
  | perform _ c o env ih => exact holdsCompletions_perform ih c o env

theorem exists_of_lastCompletion {key : IdempotencyKey}
    {past : List (Step gatewayInterface κ (GatewayState A))} {c : κ}
    {response : GatewayToolResponse} (h : lastCompletion key past = some (c, response)) :
    ∃ d ∈ past, ∃ principal status now, d.caller = c ∧
      d.op = .complete principal key.2 response status now ∧ principal.principalId = key.1 := by
  obtain ⟨d, hd, hcompletion⟩ := List.exists_of_findSome?_eq_some h
  refine ⟨d, hd, ?_⟩
  rw [completion] at hcompletion
  split at hcompletion
  · rename_i principal idempotencyKey response' status now hop
    split at hcompletion
    · rename_i hkey
      cases hkey
      cases hcompletion
      exact ⟨principal, status, now, rfl, hop, rfl⟩
    · cases hcompletion
  · cases hcompletion

/-! ## Replayed answers -/

/-- Both calls are made by the same principal under the same idempotency key. -/
def SameKey (G : McpGateway) (call call' : GatewayCall) : Prop :=
  ∃ principal principal' idempotencyKey, call.UsesKey G principal idempotencyKey ∧
    call'.UsesKey G principal' idempotencyKey ∧ principal.principalId = principal'.principalId

/-- Both calls ask for the same tool with the same arguments. -/
def SameOperation (call call' : GatewayCall) : Prop :=
  ∃ request request', call = .callTool request ∧ call' = .callTool request' ∧
    request.toolName = request'.toolName ∧
    (stripUntrustedModelFields request.arguments).pyEq
      (stripUntrustedModelFields request'.arguments)

/-- Every response that is replayed was produced by an earlier call of the same principal under
the same key, and for the same operation. -/
def ReplaysFaithful (G : McpGateway) (calls : κ → GatewayCall)
    (past : List (Step gatewayInterface κ (GatewayState A))) : Prop :=
  ∀ d older, d :: older <:+ past → ∀ principal idempotencyKey now response,
    d.event = ⟨.reserve principal idempotencyKey now,
      (.ok (some response) : Except GatewayError (Option GatewayToolResponse))⟩ →
    ∃ c, lastCompletion (principal.principalId, idempotencyKey) older = some (c, response) ∧
      SameKey G (calls c) (calls d.caller) ∧ SameOperation (calls c) (calls d.caller)

/-- Whoever asks under a key for which the store holds a response asks for what that was
completed for. -/
def KeysNotReused (calls : κ → GatewayCall)
    (past : List (Step gatewayInterface κ (GatewayState A))) : Prop :=
  ∀ d older, d :: older <:+ past → ∀ principal idempotencyKey now,
    d.op = .reserve principal idempotencyKey now →
    (d.before.idempotency.completedResponse principal idempotencyKey now).isSome →
    ∀ c response, lastCompletion (principal.principalId, idempotencyKey) older =
      some (c, response) →
      SameOperation (calls c) (calls d.caller)

/-- The answer of a reservation is the response that the store held. -/
theorem completedResponse_of_step {s : GatewayState A}
    {r : Run gatewayInterface κ (GatewayState A)} (hr : Run.From (gatewaySystem G B) s r)
    {d : Step gatewayInterface κ (GatewayState A)}
    {older : List (Step gatewayInterface κ (GatewayState A))} (hd : d :: older <:+ r.past)
    {principal : Principal} {idempotencyKey : String} {now : Time}
    (hop : d.op = .reserve principal idempotencyKey now) (response : GatewayToolResponse) :
    d.event = ⟨.reserve principal idempotencyKey now,
      (.ok (some response) : Except GatewayError (Option GatewayToolResponse))⟩ ↔
    d.before.idempotency.completedResponse principal idempotencyKey now = some response := by
  obtain ⟨-, env, hstep⟩ := hr.at_step hd
  obtain ⟨c, o, answer, before, after⟩ := d
  cases hop
  have hanswer : (before.idempotency.reserve principal idempotencyKey now).1 = answer :=
    congrArg Prod.fst hstep
  rw [← IdempotencyStore.reserve_eq_some_iff, hanswer]
  simp [Step.event]

/-- A response that is replayed was left by the last completion of its key. -/
theorem exists_completion_of_replay [DecidableEq κ] {s : GatewayState A}
    (hstart : ∀ key rec, s.idempotency.keys.get? key = some rec → rec.response = none)
    {calls : κ → GatewayCall} {schedule : List (κ × Env)}
    {d : Step gatewayInterface κ (GatewayState A)}
    {older : List (Step gatewayInterface κ (GatewayState A))}
    (hd : d :: older <:+ (G.interleaveCalls B s calls schedule).past)
    {principal : Principal} {idempotencyKey : String} {now : Time} {response : GatewayToolResponse}
    (hevent : d.event = ⟨.reserve principal idempotencyKey now,
      (.ok (some response) : Except GatewayError (Option GatewayToolResponse))⟩) :
    ∃ c, lastCompletion (principal.principalId, idempotencyKey) older = some (c, response) ∧
      SameKey G (calls c) (calls d.caller) := by
  have hfrom : Run.From (gatewaySystem G B) s (G.interleaveCalls B s calls schedule) :=
    interleave_from schedule _ .start
  have hown : ∀ d ∈ (G.interleaveCalls B s calls schedule).past,
      OnOwnKey G (calls d.caller) d.op :=
    interleave_uses schedule _ (by simp [Run.start]) fun k => onOwnKey_serve (calls k)
  have hop : d.op = .reserve principal idempotencyKey now := congrArg Sigma.fst hevent
  have hheld := (completedResponse_of_step hfrom hd hop response).mp hevent
  -- the response in the store is that of the last completion of the key
  have hholds : HoldsCompletions ⟨d.before, older⟩ :=
    holdsCompletions_of_from hstart (hfrom.at_step hd).1
  obtain ⟨c, hlast⟩ : ∃ c, lastCompletion (principal.principalId, idempotencyKey) older =
      some (c, response) := by
    rw [IdempotencyStore.completedResponse, Option.bind_eq_some_iff] at hheld
    obtain ⟨rec, hrec, hresponse⟩ := hheld
    split at hresponse
    · exact hholds _ rec response (IdempotencyStore.of_get?_expire hrec) hresponse
    · cases hresponse
  refine ⟨c, hlast, ?_⟩
  obtain ⟨e, he, principal', status, t, hcaller, hcomplete, hid⟩ := exists_of_lastCompletion hlast
  have hpast := (List.suffix_cons d older).trans hd
  have huses := hown e (hpast.subset he)
  have huses' := hown d (hd.subset (List.mem_cons_self ..))
  rw [hcomplete, hcaller] at huses
  rw [hop] at huses'
  exact ⟨principal', principal, idempotencyKey, huses, huses', hid⟩

/-- In every interleaving the replayed answers are faithful if and only if no key is used again
for something else while the store holds a response for it. -/
theorem replays_faithful_iff [DecidableEq κ] {s : GatewayState A}
    (hstart : ∀ key rec, s.idempotency.keys.get? key = some rec → rec.response = none)
    (calls : κ → GatewayCall) (schedule : List (κ × Env)) :
    ReplaysFaithful G calls (G.interleaveCalls B s calls schedule).past ↔
      KeysNotReused calls (G.interleaveCalls B s calls schedule).past := by
  have hfrom : Run.From (gatewaySystem G B) s (G.interleaveCalls B s calls schedule) :=
    interleave_from schedule _ .start
  constructor
  · intro hfaithful d older hd principal idempotencyKey now hop hheld c response hlast
    obtain ⟨response', hresponse⟩ := Option.isSome_iff_exists.mp hheld
    have hevent := (completedResponse_of_step hfrom hd hop response').mpr hresponse
    obtain ⟨c', hlast', -, hsame⟩ := hfaithful d older hd _ _ _ _ hevent
    rw [hlast] at hlast'
    cases hlast'
    exact hsame
  · intro hkeys d older hd principal idempotencyKey now response hevent
    have hop : d.op = .reserve principal idempotencyKey now := congrArg Sigma.fst hevent
    have hheld := (completedResponse_of_step hfrom hd hop response).mp hevent
    obtain ⟨c, hlast, hkey⟩ := exists_completion_of_replay hstart hd hevent
    exact ⟨c, hlast, hkey, hkeys d older hd principal idempotencyKey now hop (by simp [hheld]) c
      response hlast⟩

end Completions

/-! ### A key that is used again -/

theorem getDeviceStatus_length : 1 ≤ "get_device_status".length := by decide

/-- A request for the status of a device. -/
def deviceStatusRequest (device : String) : GatewayToolRequest :=
  { restartRequest .operator 1 none with
    toolName := "get_device_status"
    arguments := [("device_id", .str device)]
    toolName_length := getDeviceStatus_length }

/-- Two calls, one after the other. -/
abbrev replayRun (calls : ℕ → GatewayCall) : Run gatewayInterface ℕ (GatewayState ApprovalStore) :=
  McpGateway.small.interleaveCalls ApprovalStore.backend .inMemory calls
    (turns 0 5 10 ++ turns 1 6 3)

/-- A replayed answer. -/
def GatewayEvent.replays : GatewayEvent → Bool
  | ⟨.reserve .., .ok (some _)⟩ => true
  | _ => false

theorem replays_faithful_iff_sameDevice :
    (replayRun fun _ => .callTool (deviceStatusRequest "dev-1")).past.any
        (fun d => GatewayEvent.replays d.event) ∧
      ReplaysFaithful McpGateway.small (fun _ => .callTool (deviceStatusRequest "dev-1"))
        (replayRun fun _ => .callTool (deviceStatusRequest "dev-1")).past :=
  ⟨by decide,
    (replays_faithful_iff (G := McpGateway.small) (B := ApprovalStore.backend) (s := .inMemory)
      (fun _ _ h => by cases h) _ _).mpr fun _ _ _ _ _ _ _ _ _ _ _ =>
        ⟨_, _, rfl, rfl, rfl, by decide⟩⟩

/-- The second call asks for another device under the key of the first. -/
def otherDevicePool : ℕ → GatewayCall
  | 0 => .callTool (deviceStatusRequest "dev-1")
  | _ => .callTool (deviceStatusRequest "dev-2")

/-- The caller that asks in the last step, and the one that last completed the key. -/
def replayedTo : List (Step gatewayInterface ℕ (GatewayState ApprovalStore)) → Option (ℕ × ℕ)
  | [] => none
  | d :: older =>
      match d.op with
      | .reserve principal idempotencyKey _ =>
          (lastCompletion (principal.principalId, idempotencyKey) older).map fun last =>
            (d.caller, last.1)
      | _ => none

/-- The answer about one device is replayed to a request for another. -/
theorem replay_for_another_device :
    ¬ ReplaysFaithful McpGateway.small otherDevicePool (replayRun otherDevicePool).past := by
  have hlast : (replayRun otherDevicePool).past.head?.any fun d =>
      GatewayEvent.replays d.event := by
    decide
  have hcallers : replayedTo (replayRun otherDevicePool).past = some (1, 0) := by decide
  intro hfaithful
  generalize (replayRun otherDevicePool).past = past at hlast hcallers hfaithful
  cases past with
  | nil => cases hcallers
  | cons d older =>
      obtain ⟨c, o, answer, before, after⟩ := d
      cases o with
      | reserve principal idempotencyKey now =>
          cases answer with
          | error e => cases hlast
          | ok replay =>
              cases replay with
              | none => cases hlast
              | some response =>
                  -- the replayed response was completed by the second caller, for another device
                  obtain ⟨c', hcompleted, -, hsame⟩ := hfaithful _ _
                    (List.suffix_refl _) _ _ _ _ rfl
                  simp only [replayedTo, hcompleted, Option.map_some, Option.some.injEq,
                    Prod.mk.injEq] at hcallers
                  obtain ⟨rfl, rfl⟩ := hcallers
                  obtain ⟨_, _, hfirst, hsecond, -, harguments⟩ := hsame
                  cases hfirst
                  cases hsecond
                  exact absurd harguments (by decide)
      | _ => cases hcallers

end McpOps
