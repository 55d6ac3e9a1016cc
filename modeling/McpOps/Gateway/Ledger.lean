import McpOps.Gateway.Stores
import McpOps.Lib.Procedure

/-!
# The approval ledger

What an approval store is for, apart from how it keeps its records: a ledger with one
record under each id, in which a request for approval is opened as `PENDING` and then moves
through the statuses of its life.  `Ledger.Allows` says which answer and which next ledger
each operation may have, `Transition` what an operation can make of a single record, and
`allows_transition` that these agree.

An `ApprovalBackend` is an approval store together with the ledger it stands for and the
proof that its operations do what the ledger allows.  The gateway is modelled over an
arbitrary backend.

The facts about a record's life are proved for `Transition`, where there is nothing but the record:
what was asked for never changes (`sameRequest`), no operation leads out of a terminal status
(`terminal`), nothing returns to `PENDING` (`of_pending`), and a record becomes `APPROVED` by
`approve` only, and before it expires (`of_approved`).  Through `allows_transition` they hold of
every backend.

The in-memory store is the first backend.  Its records are a dictionary, and `answer_allows` goes
through its methods; the SQLAlchemy store follows in a module of its own.
-/

namespace McpOps

/-- The methods of an approval store. -/
inductive ApprovalOp where
  | create (q : ApprovalRequest) (now : Time)
  | get (approvalId : UUID) (now : Time)
  | detail (approvalId : UUID) (now : Time)
  | listApprovals (now : Time)
  | approve (approvalId : UUID) (approver : Principal) (now : Time)
  | reject (approvalId : UUID) (rejector : Principal) (reason : String) (now : Time)
  | markExecuted (approval : ApprovalRecord) (actor : Principal) (now : Time) (result : PyDict)
  | markFailed (approval : ApprovalRecord) (actor : Principal) (now : Time) (reason : String)

/-- What a method answers. -/
@[reducible] def ApprovalOp.Ans : ApprovalOp → Type
  | .create .. => ApprovalRecord
  | .listApprovals .. => List ApprovalRecord
  | .get .. => Except GatewayError ApprovalRecord
  | .detail .. => Except GatewayError ApprovalRecord
  | .approve .. => Except GatewayError ApprovalRecord
  | .reject .. => Except GatewayError ApprovalRecord
  | .markExecuted .. => Except GatewayError ApprovalRecord
  | .markFailed .. => Except GatewayError ApprovalRecord

/-! ## The ledger and its operations -/

/-- The record under each id, and how long a request for approval stays open. -/
structure Ledger where
  ttl : Time
  record : UUID → Option ApprovalRecord
  keyed : ∀ id r, record id = some r → r.approvalId = id

namespace ApprovalRecord

/-- The record at time `now`, expired if it was still pending at its deadline. -/
def lapse (now : Time) (r : ApprovalRecord) : ApprovalRecord :=
  if r.status = .pending ∧ r.expiresAt ≤ now then
    { r with status := .expired, version := r.version + 1 }
  else r

@[simp] theorem lapse_approvalId (now : Time) (r : ApprovalRecord) :
    (r.lapse now).approvalId = r.approvalId := by
  unfold lapse
  split <;> rfl

/-- The record approved by `approver`. -/
def grantedBy (approver : Principal) (now : Time) (r : ApprovalRecord) : ApprovalRecord :=
  { r with
    status := .approved
    approvedBy := some approver.principalId
    approvedAt := some now
    version := r.version + 1 }

/-- The record rejected by `rejector`. -/
def refusedBy (rejector : Principal) (reason : String) (now : Time) (r : ApprovalRecord) :
    ApprovalRecord :=
  { r with
    status := .rejected
    rejectedBy := some rejector.principalId
    rejectedAt := some now
    failureReason := some reason
    version := r.version + 1 }

/-- The record after a successful execution. -/
def executed (now : Time) (result : PyDict) (r : ApprovalRecord) : ApprovalRecord :=
  { r with
    status := .executed
    executedAt := some now
    executionResult := some result
    version := r.version + 1 }

/-- The record after a failed execution. -/
def failedWith (reason : String) (r : ApprovalRecord) : ApprovalRecord :=
  { r with status := .failed, failureReason := some reason, version := r.version + 1 }

end ApprovalRecord

namespace Ledger

@[ext] theorem ext {l l' : Ledger} (httl : l.ttl = l'.ttl) (hrec : l.record = l'.record) :
    l = l' := by
  cases l
  cases l'
  congr

/-- Enter `r` under its own id. -/
def put (r : ApprovalRecord) (l : Ledger) : Ledger where
  ttl := l.ttl
  record := Function.update l.record r.approvalId (some r)
  keyed := by
    intro id r' h
    by_cases hid : id = r.approvalId
    · rw [hid, Function.update_self] at h
      cases h
      exact hid.symm
    · rw [Function.update_of_ne hid] at h
      exact l.keyed id r' h

theorem put_record_self {id : UUID} {r : ApprovalRecord} (l : Ledger) (h : r.approvalId = id) :
    (l.put r).record id = some r := by
  rw [← h]
  exact Function.update_self ..

theorem put_record_of_ne {id : UUID} {r : ApprovalRecord} (l : Ledger) (h : id ≠ r.approvalId) :
    (l.put r).record id = l.record id := Function.update_of_ne h ..

/-- Every record at time `now`. -/
def expirePending (now : Time) (l : Ledger) : Ledger where
  ttl := l.ttl
  record := fun id => (l.record id).map (·.lapse now)
  keyed := by
    intro id r h
    obtain ⟨r₀, hr₀, rfl⟩ := Option.map_eq_some_iff.mp h
    rw [ApprovalRecord.lapse_approvalId]
    exact l.keyed id r₀ hr₀

def detail (id : UUID) (now : Time) (l : Ledger) : Except GatewayError ApprovalRecord × Ledger :=
  match l.record id with
  | none => (.error (approvalNotFound id), l)
  | some r => (.ok (r.lapse now), l.put (r.lapse now))

def get (id : UUID) (now : Time) (l : Ledger) : Except GatewayError ApprovalRecord × Ledger :=
  match l.detail id now with
  | (.error e, l) => (.error e, l)
  | (.ok r, l) => if r.status = .expired then (.error approvalExpired, l) else (.ok r, l)

/-- Move the record of `id` with `f` if it can be got and its status is `start`. -/
def move (start : ApprovalStatus) (refusal : ApprovalStatus → GatewayError)
    (f : ApprovalRecord → ApprovalRecord) (id : UUID) (now : Time) (l : Ledger) :
    Except GatewayError ApprovalRecord × Ledger :=
  match l.get id now with
  | (.error e, l) => (.error e, l)
  | (.ok r, l) =>
      if r.status = start then (.ok (f r), l.put (f r)) else (.error (refusal r.status), l)

def fail (id : UUID) (reason : String) (l : Ledger) :
    Except GatewayError ApprovalRecord × Ledger :=
  match l.record id with
  | none => (.error (approvalNotFound id), l)
  | some r =>
      if r.status = .approved ∨ r.status = .pending then
        (.ok (r.failedWith reason), l.put (r.failedWith reason))
      else (.error (cannotFail r.status), l)

/-- The answers and the next ledgers an operation may have, when `fresh` is the id made for
a new record. -/
def Allows : (o : ApprovalOp) → UUID → Ledger → o.Ans → Ledger → Prop
  | .create q now, fresh, l, a, l' => a = q.record fresh now l.ttl ∧ l' = l.put a
  | .get id now, _, l, a, l' => (a, l') = l.get id now
  | .detail id now, _, l, a, l' => (a, l') = l.detail id now
  | .listApprovals now, _, l, a, l' =>
      l' = l.expirePending now ∧ ∀ r, List.Mem r a ↔ ∃ id, l'.record id = some r
  | .approve id approver now, _, l, a, l' =>
      (a, l') = l.move .pending notPending (·.grantedBy approver now) id now
  | .reject id rejector reason now, _, l, a, l' =>
      (a, l') = l.move .pending notPending (·.refusedBy rejector reason now) id now
  | .markExecuted approval _ now result, _, l, a, l' =>
      (a, l') = l.move .approved notApproved (·.executed now result) approval.approvalId now
  | .markFailed approval _ _ reason, _, l, a, l' => (a, l') = l.fail approval.approvalId reason

/-! ### What the operations do -/

theorem put_of_record {r : ApprovalRecord} {l : Ledger} (h : l.record r.approvalId = some r) :
    l.put r = l :=
  ext rfl (Function.update_eq_self_iff.mpr h.symm)

theorem get_snd (id : UUID) (now : Time) (l : Ledger) : (l.get id now).2 = (l.detail id now).2 := by
  unfold get
  rcases l.detail id now with ⟨_ | r, l'⟩
  · rfl
  · dsimp only
    split <;> rfl

/-- The record that can be got is the one in the ledger, which stays as it is. -/
theorem get_ok {id : UUID} {now : Time} {l l' : Ledger} {r : ApprovalRecord}
    (h : l.get id now = (.ok r, l')) :
    l.record id = some r ∧ l' = l ∧ r.status ≠ .expired ∧
      (r.status = .pending → now < r.expiresAt) := by
  unfold get detail at h
  cases hr : l.record id with
  | none => simp [hr] at h
  | some r₀ =>
      simp only [hr] at h
      split at h
      · simp at h
      · rename_i hstatus
        simp only [Prod.mk.injEq, Except.ok.injEq] at h
        obtain ⟨rfl, rfl⟩ := h
        -- a record that did not lapse is unchanged
        have hsame : r₀.lapse now = r₀ := by
          unfold ApprovalRecord.lapse at hstatus ⊢
          split at hstatus
          · exact absurd rfl hstatus
          · rw [if_neg ‹_›]
        rw [hsame] at hstatus ⊢
        have hkey : l.record r₀.approvalId = some r₀ := by rw [l.keyed id r₀ hr, hr]
        refine ⟨rfl, put_of_record hkey, hstatus, fun hpending => ?_⟩
        by_contra hlate
        rw [ApprovalRecord.lapse, if_pos ⟨hpending, Int.not_lt.mp hlate⟩] at hsame
        exact hstatus (hsame ▸ rfl)

/-- An approved record can be got at any time. -/
theorem get_of_approved {id : UUID} {now : Time} {l : Ledger} {r : ApprovalRecord}
    (h : l.record id = some r) (hstatus : r.status = .approved) : l.get id now = (.ok r, l) := by
  have hsame : r.lapse now = r := by
    rw [ApprovalRecord.lapse, if_neg]
    simp [hstatus]
  have hkey : l.record r.approvalId = some r := by rw [l.keyed id r h, h]
  simp [get, detail, h, hsame, hstatus, put_of_record hkey]

/-- When a record cannot be got, there is none or it has expired. -/
theorem get_error {id : UUID} {now : Time} {l l' : Ledger} {e : GatewayError}
    (h : l.get id now = (.error e, l')) {r : ApprovalRecord} (hr : l'.record id = some r) :
    r.status = .expired := by
  unfold get detail at h
  cases hr₀ : l.record id with
  | none =>
      simp only [hr₀, Prod.mk.injEq] at h
      rw [← h.2, hr₀] at hr
      cases hr
  | some r₀ =>
      simp only [hr₀] at h
      split at h
      · rename_i hexpired
        simp only [Prod.mk.injEq] at h
        rw [← h.2, put_record_self l (by simp [l.keyed id r₀ hr₀])] at hr
        cases hr
        exact hexpired
      · simp at h

/-- A move either fails and has only looked the record up, or it succeeds from the right
status. -/
theorem move_cases {start : ApprovalStatus} {refusal : ApprovalStatus → GatewayError}
    {f : ApprovalRecord → ApprovalRecord} {id : UUID} {now : Time} {l l' : Ledger}
    {a : Except GatewayError ApprovalRecord} (h : (a, l') = l.move start refusal f id now) :
    ((∃ e, a = .error e) ∧ l' = (l.detail id now).2) ∨
      ∃ r, l.record id = some r ∧ r.status = start ∧ (r.status = .pending → now < r.expiresAt) ∧
        a = .ok (f r) ∧ l' = l.put (f r) := by
  unfold move at h
  rw [← get_snd]
  rcases hget : l.get id now with ⟨e | r, l₁⟩
  · simp only [hget, Prod.mk.injEq] at h
    exact Or.inl ⟨⟨e, h.1⟩, h.2⟩
  · obtain ⟨hrec, rfl, -, hopen⟩ := get_ok hget
    simp only [hget] at h
    split at h
    · rename_i hstart
      simp only [Prod.mk.injEq] at h
      exact Or.inr ⟨r, hrec, hstart, hopen, h.1, h.2⟩
    · simp only [Prod.mk.injEq] at h
      exact Or.inl ⟨⟨_, h.1⟩, h.2⟩

/-- After a move, tried or done, the record is no longer where the move starts. -/
theorem move_leaves {start : ApprovalStatus} {refusal : ApprovalStatus → GatewayError}
    {f : ApprovalRecord → ApprovalRecord} {id : UUID} {now : Time} {l l' : Ledger}
    {a : Except GatewayError ApprovalRecord} (h : (a, l') = l.move start refusal f id now)
    (hstart : start ≠ .expired) (hf : ∀ r, (f r).status ≠ start)
    (hid : ∀ r, (f r).approvalId = r.approvalId) {r : ApprovalRecord}
    (hr : l'.record id = some r) : r.status ≠ start := by
  unfold move at h
  rcases hget : l.get id now with ⟨e | r₁, l₁⟩
  · simp only [hget, Prod.mk.injEq] at h
    rw [get_error hget (h.2 ▸ hr)]
    exact hstart.symm
  · obtain ⟨hrec, rfl, -, -⟩ := get_ok hget
    simp only [hget] at h
    split at h
    · simp only [Prod.mk.injEq] at h
      rw [h.2, put_record_self l₁ (by rw [hid, l₁.keyed id r₁ hrec])] at hr
      cases hr
      exact hf r₁
    · simp only [Prod.mk.injEq] at h
      rw [h.2, hrec] at hr
      cases hr
      assumption

/-- A failure is recorded, or the record was neither approved nor pending. -/
theorem fail_cases {id : UUID} {reason : String} {l l' : Ledger}
    {a : Except GatewayError ApprovalRecord} (h : (a, l') = l.fail id reason) :
    (l' = l ∧ ∀ r, l.record id = some r → r.status ≠ .approved) ∨
      ∃ r, l.record id = some r ∧ (r.status = .approved ∨ r.status = .pending) ∧
        l' = l.put (r.failedWith reason) := by
  unfold fail at h
  cases hr : l.record id with
  | none =>
      simp only [hr, Prod.mk.injEq] at h
      exact Or.inl ⟨h.2, fun r hr' => by cases hr'⟩
  | some r =>
      simp only [hr] at h
      split at h
      · simp only [Prod.mk.injEq] at h
        exact Or.inr ⟨r, rfl, ‹_›, h.2⟩
      · rename_i hopen
        simp only [Prod.mk.injEq] at h
        refine Or.inl ⟨h.2, fun r' hr' happroved => ?_⟩
        cases hr'
        exact hopen (Or.inl happroved)

/-- Entering a moved record creates none. -/
theorem put_moved_none {id k : UUID} {r r' : ApprovalRecord} {l : Ledger}
    (hid : l.record id = none) (hk : l.record k = some r) (hr' : r'.approvalId = r.approvalId) :
    (l.put r').record id = none := by
  have hne : id ≠ r'.approvalId := by
    rintro rfl
    rw [hr', l.keyed k r hk, hk] at hid
    cases hid
  exact (put_record_of_ne l hne).trans hid

end Ledger

/-! ## The life of one record -/

/-- What operation `o` can make of a record. -/
inductive Transition : ApprovalOp → ApprovalRecord → ApprovalRecord → Prop where
  | stays (o : ApprovalOp) (r : ApprovalRecord) : Transition o r r
  | expires (o : ApprovalOp) (r : ApprovalRecord) (hpending : r.status = .pending) :
      Transition o r { r with status := .expired, version := r.version + 1 }
  | granted (r : ApprovalRecord) (approver : Principal) (now : Time)
      (hpending : r.status = .pending) (hopen : now < r.expiresAt) :
      Transition (.approve r.approvalId approver now) r (r.grantedBy approver now)
  | refused (r : ApprovalRecord) (rejector : Principal) (reason : String) (now : Time)
      (hpending : r.status = .pending) :
      Transition (.reject r.approvalId rejector reason now) r (r.refusedBy rejector reason now)
  | executed (r approval : ApprovalRecord) (actor : Principal) (now : Time) (result : PyDict)
      (hid : approval.approvalId = r.approvalId) (happroved : r.status = .approved) :
      Transition (.markExecuted approval actor now result) r (r.executed now result)
  | failed (r approval : ApprovalRecord) (actor : Principal) (now : Time) (reason : String)
      (hid : approval.approvalId = r.approvalId)
      (hopen : r.status = .approved ∨ r.status = .pending) :
      Transition (.markFailed approval actor now reason) r (r.failedWith reason)

/-- Two records that were opened by the same request. -/
structure SameRequest (r r' : ApprovalRecord) : Prop where
  approvalId : r'.approvalId = r.approvalId
  requesterId : r'.requesterId = r.requesterId
  toolName : r'.toolName = r.toolName
  arguments : r'.arguments = r.arguments
  expiresAt : r'.expiresAt = r.expiresAt
  workflowId : r'.workflowId = r.workflowId
  workflowNodeId : r'.workflowNodeId = r.workflowNodeId
  argumentsHash : r'.argumentsHash = r.argumentsHash
  approvalBindingHash : r'.approvalBindingHash = r.approvalBindingHash

namespace Transition

variable {o : ApprovalOp} {r r' : ApprovalRecord}

theorem lapse (o : ApprovalOp) (now : Time) (r : ApprovalRecord) :
    Transition o r (r.lapse now) := by
  unfold ApprovalRecord.lapse
  split
  · exact .expires o r (And.left ‹_›)
  · exact .stays o r

/-- What was asked for never changes. -/
theorem sameRequest (h : Transition o r r') : SameRequest r r' := by
  cases h <;> constructor <;> rfl

/-- No operation leads out of a terminal status. -/
theorem terminal (h : Transition o r r') (hr : r.status.terminal) : r'.status.terminal := by
  cases h with
  | stays => exact hr
  | expires _ _ hpending => rw [hpending] at hr; cases hr
  | granted _ _ _ hpending => rw [hpending] at hr; cases hr
  | refused _ _ _ _ hpending => rw [hpending] at hr; cases hr
  | executed _ _ _ _ _ _ happroved => rw [happroved] at hr; cases hr
  | failed _ _ _ _ _ _ hopen =>
      rcases hopen with hopen | hopen <;> rw [hopen] at hr <;> cases hr

/-- Nothing returns to `PENDING`. -/
theorem of_pending (h : Transition o r r') (hr : r'.status = .pending) : r = r' := by
  cases h with
  | stays => rfl
  | expires => cases hr
  | granted => cases hr
  | refused => cases hr
  | executed => cases hr
  | failed => cases hr

/-- A record becomes `APPROVED` by `approve` only, and before it expires. -/
theorem of_approved (h : Transition o r r') (hr : r'.status = .approved) :
    r = r' ∨ ∃ approver now, o = .approve r.approvalId approver now ∧ r.status = .pending ∧
      now < r.expiresAt ∧ r' = r.grantedBy approver now := by
  cases h with
  | stays => exact Or.inl rfl
  | expires => cases hr
  | granted _ approver now hpending hopen =>
      exact Or.inr ⟨approver, now, rfl, hpending, hopen, rfl⟩
  | refused => cases hr
  | executed => cases hr
  | failed => cases hr

end Transition

/-! ### The ledger moves every record by a transition -/

namespace Ledger

variable {o : ApprovalOp} {fresh id : UUID} {l l' : Ledger} {a : o.Ans}

/-- Entering `r'` in place of the record of its id is a transition of every record. -/
theorem put_transition {k : UUID} {r r' : ApprovalRecord} (hk : l.record k = some r)
    (hr' : Transition o r r') {rid : ApprovalRecord} (hid : l.record id = some rid) :
    ∃ r'', (l.put r').record id = some r'' ∧ Transition o rid r'' := by
  have hkey : r'.approvalId = k := hr'.sameRequest.approvalId.trans (l.keyed k r hk)
  by_cases h : id = k
  · subst h
    rw [hk] at hid
    cases hid
    exact ⟨r', put_record_self l hkey, hr'⟩
  · exact ⟨rid, (put_record_of_ne l (hkey ▸ h)).trans hid, .stays o rid⟩

theorem detail_transition (o : ApprovalOp) (k : UUID) (now : Time) {r : ApprovalRecord}
    (hid : l.record id = some r) :
    ∃ r', (l.detail k now).2.record id = some r' ∧ Transition o r r' := by
  unfold detail
  cases hk : l.record k with
  | none => exact ⟨r, hid, .stays o r⟩
  | some rk => exact put_transition hk (.lapse o now rk) hid

theorem move_transition {start : ApprovalStatus} {refusal : ApprovalStatus → GatewayError}
    {f : ApprovalRecord → ApprovalRecord} {k : UUID} {now : Time}
    {a : Except GatewayError ApprovalRecord} (h : (a, l') = l.move start refusal f k now)
    (hf : ∀ r, l.record k = some r → r.status = start → (r.status = .pending → now < r.expiresAt) →
      Transition o r (f r)) {r : ApprovalRecord} (hid : l.record id = some r) :
    ∃ r', l'.record id = some r' ∧ Transition o r r' := by
  rcases move_cases h with ⟨-, rfl⟩ | ⟨rk, hk, hstart, hopen, -, rfl⟩
  · exact detail_transition o k now hid
  · exact put_transition hk (hf rk hk hstart hopen) hid

/-- Each operation moves each record by a transition; a new record may only overwrite one
whose id was not fresh. -/
theorem allows_transition (h : Allows o fresh l a l')
    (hfresh : ∀ q now, o = .create q now → l.record fresh = none) {r : ApprovalRecord}
    (hid : l.record id = some r) : ∃ r', l'.record id = some r' ∧ Transition o r r' := by
  cases o with
  | create q now =>
      -- a new record has an id of its own
      obtain ⟨rfl, rfl⟩ := h
      have hne : id ≠ fresh := by
        rintro rfl
        rw [hfresh q now rfl] at hid
        cases hid
      exact ⟨r, (put_record_of_ne l hne).trans hid, .stays _ r⟩
  | get k now =>
      have hl : l' = (l.get k now).2 := congrArg Prod.snd h
      rw [hl, get_snd]
      exact detail_transition _ k now hid
  | detail k now =>
      have hl : l' = (l.detail k now).2 := congrArg Prod.snd h
      rw [hl]
      exact detail_transition _ k now hid
  | listApprovals now =>
      rw [h.1]
      exact ⟨r.lapse now, Option.map_eq_some_iff.mpr ⟨r, hid, rfl⟩, .lapse _ now r⟩
  | approve k approver now =>
      -- the record that moves is the one under its own id, and what moves it allows the transition
      refine move_transition h (fun rk hk hstart hopen => ?_) hid
      rw [← l.keyed k rk hk]
      exact .granted rk approver now hstart (hopen hstart)
  | reject k rejector reason now =>
      refine move_transition h (fun rk hk hstart hopen => ?_) hid
      rw [← l.keyed k rk hk]
      exact .refused rk rejector reason now hstart
  | markExecuted approval actor now result =>
      exact move_transition h (fun rk hk hstart _ =>
        .executed rk approval actor now result (l.keyed _ rk hk).symm hstart) hid
  | markFailed approval actor now reason =>
      rcases fail_cases h with ⟨rfl, -⟩ | ⟨rk, hk, hopen, rfl⟩
      · exact ⟨r, hid, .stays _ r⟩
      · exact put_transition hk
          (.failed rk approval actor now reason (l.keyed _ rk hk).symm hopen) hid

/-- A record appears only by a request for it. -/
theorem allows_new (h : Allows o fresh l a l') (hid : l.record id = none) {r : ApprovalRecord}
    (hr : l'.record id = some r) :
    ∃ q now, o = .create q now ∧ id = fresh ∧ r = q.record fresh now l.ttl := by
  have hdetail : ∀ k now, (l.detail k now).2.record id = none := by
    intro k now
    unfold detail
    cases hk : l.record k with
    | none => exact hid
    | some rk => exact put_moved_none hid hk (ApprovalRecord.lapse_approvalId now rk)
  have hmove : ∀ {start refusal f k now} {a : Except GatewayError ApprovalRecord},
      (a, l') = l.move start refusal f k now → (∀ r, (f r).approvalId = r.approvalId) →
        l'.record id = none := by
    intro start refusal f k now a h hf
    rcases move_cases h with ⟨-, rfl⟩ | ⟨rk, hk, -, -, -, rfl⟩
    · exact hdetail k now
    · exact put_moved_none hid hk (hf rk)
  -- every operation but `create` leaves the id unused
  have hnone : (∀ q now, o ≠ .create q now) → l'.record id = none := by
    intro hcreate
    cases o with
    | create q now => exact absurd rfl (hcreate q now)
    | get k now => rw [show l' = (l.get k now).2 from congrArg Prod.snd h, get_snd, hdetail]
    | detail k now => rw [show l' = (l.detail k now).2 from congrArg Prod.snd h, hdetail]
    | listApprovals now => rw [h.1]; exact congrArg (Option.map _) hid
    | approve k approver now => exact hmove h fun _ => rfl
    | reject k rejector reason now => exact hmove h fun _ => rfl
    | markExecuted approval actor now result => exact hmove h fun _ => rfl
    | markFailed approval actor now reason =>
        rcases fail_cases h with ⟨rfl, -⟩ | ⟨rk, hk, -, rfl⟩
        · exact hid
        · exact put_moved_none hid hk rfl
  by_cases hcreate : ∃ q now, o = .create q now
  · obtain ⟨q, now, rfl⟩ := hcreate
    obtain ⟨rfl, rfl⟩ := h
    by_cases hk : id = fresh
    · subst hk
      rw [put_record_self l (by rfl)] at hr
      cases hr
      exact ⟨q, now, rfl, rfl, rfl⟩
    · rw [put_record_of_ne l hk, hid] at hr
      cases hr
  · rw [hnone fun q now ho => hcreate ⟨q, now, ho⟩] at hr
    cases hr

/-- An attempt to record the end of an execution leaves no approval behind. -/
theorem allows_settles {approval : ApprovalRecord} {actor : Principal} {now : Time}
    (ho : (∃ result, o = .markExecuted approval actor now result) ∨
      ∃ reason, o = .markFailed approval actor now reason)
    (h : Allows o fresh l a l') {r : ApprovalRecord}
    (hr : l'.record approval.approvalId = some r) : r.status ≠ .approved := by
  rcases ho with ⟨result, rfl⟩ | ⟨reason, rfl⟩
  · exact move_leaves h (by decide) (fun _ => by simp [ApprovalRecord.executed])
      (fun _ => rfl) hr
  · rcases fail_cases h with ⟨rfl, hother⟩ | ⟨rk, hk, -, rfl⟩
    · exact hother r hr
    · have hkey : (rk.failedWith reason).approvalId = approval.approvalId := l.keyed _ rk hk
      rw [put_record_self l hkey] at hr
      cases hr
      simp [ApprovalRecord.failedWith]

/-- Approving a record answers with it. -/
theorem allows_approve {approver : Principal} {now : Time} {a : Except GatewayError ApprovalRecord}
    (h : Allows (.approve id approver now) fresh l a l') {r r' : ApprovalRecord}
    (hr : l.record id = some r) (hpending : r.status = .pending) (hr' : l'.record id = some r')
    (happroved : r'.status = .approved) : a = .ok r' := by
  rcases move_cases h with ⟨-, rfl⟩ | ⟨r₀, hr₀, -, -, rfl, rfl⟩
  · obtain ⟨r₁, hr₁, htrans⟩ := detail_transition (.get id now) id now hr
    rw [hr'] at hr₁
    cases hr₁
    rcases htrans.of_approved happroved with rfl | ⟨_, _, ho, -⟩
    · rw [hpending] at happroved
      cases happroved
    · cases ho
  · have hkey : (r₀.grantedBy approver now).approvalId = id := l.keyed id r₀ hr₀
    rw [put_record_self l hkey] at hr'
    cases hr'
    rfl

end Ledger

/-! ## Stores that stand for a ledger -/

/-- An approval store over states of type `A`, the ledger each state stands for, and the
proof that the store does what the ledger allows. -/
structure ApprovalBackend (A : Type) where
  answer : (o : ApprovalOp) → UUID → A → o.Ans × A
  /-- `approval.status` of a record handed out earlier -/
  status : ApprovalRecord → A → ApprovalStatus
  /-- `audit_log.append(record)` on the attached log -/
  appendAudit : AuditRecord → A → A
  ledger : A → Ledger
  refines : ∀ o fresh a,
    (ledger a).Allows o fresh (answer o fresh a).1 (ledger (answer o fresh a).2)
  ledger_appendAudit : ∀ record a, ledger (appendAudit record a) = ledger a
  status_stored : ∀ r a, (ledger a).record r.approvalId = some r → status r a = r.status

/-- A store moves records as the ledger does when it gets them as the ledger does, and then
enters the moved record or refuses. -/
theorem Ledger.move_of_get {A : Type} (view : A → Ledger) {l : Ledger} {id : UUID} {now : Time}
    {got res : Except GatewayError ApprovalRecord × A} {start : ApprovalStatus}
    {refusal : ApprovalStatus → GatewayError} {f : ApprovalRecord → ApprovalRecord}
    (hget : (got.1, view got.2) = l.get id now)
    (herror : ∀ e s, got = (.error e, s) → res = (.error e, s))
    (hmoved : ∀ r s, got = (.ok r, s) → r.status = start →
      res.1 = .ok (f r) ∧ view res.2 = (view s).put (f r))
    (hrefused : ∀ r s, got = (.ok r, s) → r.status ≠ start →
      res = (.error (refusal r.status), s)) :
    (res.1, view res.2) = l.move start refusal f id now := by
  rw [Ledger.move, ← hget]
  obtain ⟨e | r, s⟩ := got
  · rw [herror e s rfl]
  · by_cases hstart : r.status = start
    · obtain ⟨h1, h2⟩ := hmoved r s rfl hstart
      rw [h1, h2]
      simp [hstart]
    · rw [hrefused r s rfl hstart]
      simp [hstart]

/-! ### The in-memory store -/

namespace ApprovalStore

/-- The ledger of an in-memory store. -/
def ledger (s : ApprovalStore) : Ledger := ⟨seconds s.ttlSeconds, s.approvals.get?, s.keyed⟩

@[simp] theorem ledger_put (r : ApprovalRecord) (s : ApprovalStore) :
    (s.put r).ledger = s.ledger.put r :=
  Ledger.ext rfl (funext fun id => by simp [ledger, put, Ledger.put, Dict.get?_set,
    Function.update_apply])

@[simp] theorem ledger_recordTransition (r : ApprovalRecord) (eventType : String)
    (actor : Principal) (now : Time) (executionStatus summary : String) (s : ApprovalStore) :
    (s.recordTransition r eventType actor now executionStatus summary).ledger = s.ledger := rfl

theorem expireIfNeeded_fst (r : ApprovalRecord) (now : Time) (s : ApprovalStore) :
    (s.expireIfNeeded r now).1 = r.lapse now := by
  unfold expireIfNeeded ApprovalRecord.lapse
  split <;> rfl

theorem ledger_expireIfNeeded {r : ApprovalRecord} {s : ApprovalStore}
    (hr : s.ledger.record r.approvalId = some r) (now : Time) :
    (s.expireIfNeeded r now).2.ledger = s.ledger.put (r.lapse now) := by
  unfold expireIfNeeded ApprovalRecord.lapse
  split
  · simp
  · exact (Ledger.put_of_record hr).symm

theorem ledger_detail (id : UUID) (now : Time) (s : ApprovalStore) :
    ((s.detail id now).1, (s.detail id now).2.ledger) = s.ledger.detail id now := by
  unfold detail Ledger.detail
  rw [show s.ledger.record id = s.approvals.get? id from rfl]
  cases hr : s.approvals.get? id with
  | none => rfl
  | some r =>
      have hkey : s.ledger.record r.approvalId = some r := by
        rw [s.keyed id r hr]
        exact hr
      exact Prod.ext (congrArg Except.ok (expireIfNeeded_fst r now s))
        (ledger_expireIfNeeded hkey now)

theorem ledger_get (id : UUID) (now : Time) (s : ApprovalStore) :
    ((s.get id now).1, (s.get id now).2.ledger) = s.ledger.get id now := by
  unfold get Ledger.get
  rw [← ledger_detail]
  rcases s.detail id now with ⟨e | r, s'⟩
  · rfl
  · dsimp only
    split <;> rfl

/-- Expiring the records `rs` one by one, each still as it is in the store. -/
theorem ledger_expireAll (now : Time) (rs : List ApprovalRecord) (s : ApprovalStore)
    (hrs : ∀ r ∈ rs, s.ledger.record r.approvalId = some r)
    (hnodup : (rs.map (·.approvalId)).Nodup) (id : UUID) :
    (rs.foldl (fun s r => (expireIfNeeded r now s).2) s).ledger.record id =
      if id ∈ rs.map (·.approvalId) then (s.ledger.record id).map (·.lapse now)
      else s.ledger.record id := by
  induction rs generalizing s with
  | nil => rfl
  | cons r rest ih =>
      rw [List.map_cons, List.nodup_cons] at hnodup
      have hr := hrs r (List.mem_cons_self ..)
      have hput := ledger_expireIfNeeded hr now
      -- the head changes nothing under the other ids
      have hother : ∀ k, k ≠ r.approvalId →
          (expireIfNeeded r now s).2.ledger.record k = s.ledger.record k := by
        intro k hk
        rw [hput, Ledger.put_record_of_ne _ (by rwa [ApprovalRecord.lapse_approvalId])]
      rw [List.foldl_cons, ih _ (fun r' hr' => ?_) hnodup.2]
      · by_cases hid : id = r.approvalId
        · rw [if_neg (hid ▸ hnodup.1), if_pos (by simp [hid]), hput, hid, hr]
          exact Ledger.put_record_self _ (ApprovalRecord.lapse_approvalId now r)
        · rw [hother id hid]
          simp [hid]
      · rw [hother r'.approvalId fun h => hnodup.1 (h ▸ List.mem_map_of_mem hr')]
        exact hrs r' (List.mem_cons_of_mem _ hr')

theorem ttlSeconds_expireIfNeeded (r : ApprovalRecord) (now : Time) (s : ApprovalStore) :
    (s.expireIfNeeded r now).2.ttlSeconds = s.ttlSeconds := by
  unfold expireIfNeeded
  split <;> rfl

theorem ledger_expirePending (now : Time) (s : ApprovalStore) :
    (s.expirePending now).ledger = s.ledger.expirePending now := by
  refine Ledger.ext ?_ (funext fun id => ?_)
  · refine List.foldlRecOn
      (motive := fun (t : ApprovalStore) => t.ledger.ttl = s.ledger.ttl) _ _ rfl ?_
    intro t ht r _
    rw [← ht]
    exact congrArg seconds (ttlSeconds_expireIfNeeded r now t)
  · have hids : s.approvals.values.map (·.approvalId) = s.approvals.keys := by
      simp only [Dict.values, Dict.keys, List.map_map]
      exact List.map_congr_left fun e he => s.keyed e.1 e.2 (Dict.get?_eq_some_iff.mpr he)
    have hstored : ∀ r ∈ s.approvals.values, s.ledger.record r.approvalId = some r := by
      intro r hr
      obtain ⟨k, hk⟩ := Dict.mem_values.mp hr
      rw [s.keyed k r hk]
      exact hk
    rw [expirePending, ledger_expireAll now _ s hstored (hids ▸ s.approvals.nodup), hids]
    split
    · rfl
    · have hnone : s.ledger.record id = none := Dict.get?_eq_none_iff.mpr ‹_›
      simp [Ledger.expirePending, hnone]

/-- The methods of the in-memory store. -/
def answer (o : ApprovalOp) (fresh : UUID) (s : ApprovalStore) : o.Ans × ApprovalStore :=
  match o with
  | .create q now => s.create q now fresh
  | .get id now => s.get id now
  | .detail id now => s.detail id now
  | .listApprovals now => s.listApprovals now
  | .approve id approver now => s.approve id approver now
  | .reject id rejector reason now => s.reject id rejector reason now
  | .markExecuted approval actor now result => s.markExecuted approval actor now result
  | .markFailed approval actor now reason => s.markFailed approval actor now reason

/-- The in-memory store does what the ledger allows. -/
theorem answer_allows (o : ApprovalOp) (fresh : UUID) (s : ApprovalStore) :
    s.ledger.Allows o fresh (s.answer o fresh).1 (s.answer o fresh).2.ledger := by
  cases o with
  | create q now => exact ⟨rfl, by simp [answer, create]⟩
  | get id now => exact ledger_get id now s
  | detail id now => exact ledger_detail id now s
  | listApprovals now =>
      refine ⟨ledger_expirePending now s, fun r => ?_⟩
      have hall : r ∈ (s.expirePending now).approvals.values.filter (fun _ => true) ↔
          r ∈ (s.expirePending now).approvals.values := by simp
      exact List.mem_mergeSort.trans (hall.trans Dict.mem_values)
  | approve id approver now =>
      refine Ledger.move_of_get ledger (ledger_get id now s) ?_ ?_ ?_ <;>
        intro _ _ hget <;> simp +contextual [answer, approve, hget, ApprovalRecord.grantedBy]
  | reject id rejector reason now =>
      refine Ledger.move_of_get ledger (ledger_get id now s) ?_ ?_ ?_ <;>
        intro _ _ hget <;> simp +contextual [answer, reject, hget, ApprovalRecord.refusedBy]
  | markExecuted approval actor now result =>
      refine Ledger.move_of_get ledger (ledger_get approval.approvalId now s) ?_ ?_ ?_ <;>
        intro _ _ hget <;> simp +contextual [answer, markExecuted, hget, ApprovalRecord.executed]
  | markFailed approval actor now reason =>
      -- only a failure looks at the record without expiring it first
      show ((s.markFailed approval actor now reason).1,
        (s.markFailed approval actor now reason).2.ledger) =
          s.ledger.fail approval.approvalId reason
      unfold markFailed Ledger.fail
      rw [show s.ledger.record approval.approvalId = s.approvals.get? approval.approvalId from rfl]
      cases s.approvals.get? approval.approvalId with
      | none => rfl
      | some r =>
          dsimp only
          split
          · simp [ApprovalRecord.failedWith]
          · rfl

/-- The in-memory approval store. -/
def backend : ApprovalBackend ApprovalStore where
  answer o fresh s := s.answer o fresh
  status := liveStatus
  appendAudit := appendAudit
  ledger := ledger
  refines := answer_allows
  ledger_appendAudit _ _ := rfl
  status_stored r s h := by
    rw [liveStatus, show s.approvals.get? r.approvalId = some r from h]
    rfl

end ApprovalStore

end McpOps
