import Mathlib.Data.List.Forall2
import Mathlib.Logic.Relation
import McpOps.Gateway.Ledger

/-!
# The events of the approval store

Every change a store makes to a record is written down as an event of the record.
`RecordView.Advances` says what one step can do to a record and its events: nothing, one
transition with one event, or the opening of the record with its first event.  What many such
steps come to is the same for every store (`RecordView.evolves`): the version of the record counts
its events, and its events spell a path through the state machine.

## Strategy

The in-memory store also writes to the attached audit log.  `Outcome` says what becomes of a call
of one of its methods: it raises and has at most recorded an expiry, or it answers and has
advanced each record, with an audit record for each event (`Logs`).

* Two changes are made by all methods: entering a moved record with its event (`advances_moved`),
  and expiring what is overdue (`advances_expireIfNeeded`).
* The methods that get a record, move it if its status allows that and refuse otherwise are one
  lemma with parameters (`outcome_of_get`), and `outcome_apply` collects all methods.

`approval_state_machine` is the sequence of calls.  That there is at most one decision about a
record is a fact about paths (`ApprovalStatus.countP_decision_le`).
-/

namespace McpOps

/-- The transitions of the approval state machine. -/
inductive ApprovalStatus.Moves : ApprovalStatus → ApprovalStatus → Prop where
  | approve : Moves .pending .approved
  | reject : Moves .pending .rejected
  | expire : Moves .pending .expired
  | abandon : Moves .pending .failed
  | execute : Moves .approved .executed
  | fail : Moves .approved .failed

namespace ApprovalStatus.Moves

variable {st st' : ApprovalStatus}

theorem ne (h : Moves st st') : st' ≠ st := by
  cases h <;> simp

/-- No transition leads out of a terminal status. -/
theorem not_terminal (h : Moves st st') : st.terminal = false := by
  cases h <;> rfl

end ApprovalStatus.Moves

/-- Whether it takes an approval, a rejection or an expiry to come to the status. -/
def ApprovalStatus.decision : ApprovalStatus → Bool
  | .approved => true
  | .rejected => true
  | .expired => true
  | _ => false

/-- Past `PENDING` no decision follows. -/
theorem ApprovalStatus.countP_decision_eq_zero {st : ApprovalStatus}
    {statuses : List ApprovalStatus}
    (h : (st :: statuses).IsChain Moves) (hst : st ≠ .pending) :
    statuses.countP decision = 0 := by
  induction statuses generalizing st with
  | nil => rfl
  | cons st' rest ih =>
      rw [List.isChain_cons_cons] at h
      have hdecision : st'.decision = false ∧ st' ≠ .pending := by
        cases h.1 <;> simp [decision] at hst ⊢
      rw [List.countP_cons_of_neg (by simp [hdecision.1])]
      exact ih h.2 hdecision.2

/-- On a path through the state machine there is at most one decision. -/
theorem ApprovalStatus.countP_decision_le {st : ApprovalStatus} {statuses : List ApprovalStatus}
    (h : (st :: statuses).IsChain Moves) : statuses.countP decision ≤ 1 := by
  cases statuses with
  | nil => exact Nat.zero_le 1
  | cons st' rest =>
      rw [List.isChain_cons_cons] at h
      have hst' : st' ≠ .pending := by
        cases h.1 <;> simp
      rw [List.countP_cons, ApprovalStatus.countP_decision_eq_zero h.2 hst']
      split <;> simp

/-! ## A record and its events -/

/-- A record, if there is one, with its events. -/
@[ext] structure RecordView where
  record : Option ApprovalRecord
  events : List ApprovalEvent

namespace RecordView

def status (v : RecordView) : Option ApprovalStatus := v.record.map (·.status)

/-- The version of the record, 0 before it is opened. -/
def version (v : RecordView) : ℕ := (v.record.map (·.version)).getD 0

/-- What a step can do to a record and its events. -/
inductive Advances (v : RecordView) : RecordView → Prop where
  | stays : Advances v v
  | moves (r r' : ApprovalRecord) (e : ApprovalEvent) (hr : v.record = some r)
      (hmoves : r.status.Moves r'.status) (hversion : r'.version = r.version + 1)
      (hstatus : e.status = r'.status) : Advances v ⟨some r', v.events ++ [e]⟩
  | opens (r : ApprovalRecord) (e : ApprovalEvent) (hnone : v.record = none)
      (hpending : r.status = .pending) (hversion : r.version = 1) (hstatus : e.status = r.status) :
      Advances v ⟨some r, v.events ++ [e]⟩

variable {v v' : RecordView}

/-- The events spell the status a step leads to, where it is a new one. -/
theorem Advances.statuses (h : Advances v v') :
    v'.events.map (·.status) = v.events.map (·.status) ++
      if v'.status = v.status then [] else v'.status.toList := by
  cases h with
  | stays => simp
  | moves r r' e hr hmoves hversion hstatus => simp [status, hr, hstatus, hmoves.ne]
  | opens r e hnone hpending hversion hstatus => simp [status, hnone, hstatus]

/-- A record keeps its identity or makes one transition. -/
theorem Advances.record (h : Advances v v') {r : ApprovalRecord} (hr : v.record = some r) :
    ∃ r', v'.record = some r' ∧ (r' = r ∨ r.status.Moves r'.status) := by
  cases h with
  | stays => exact ⟨r, hr, Or.inl rfl⟩
  | moves r₁ r' e hr₁ hmoves =>
      rw [hr] at hr₁
      cases hr₁
      exact ⟨r', rfl, Or.inr hmoves⟩
  | opens r' e hnone =>
      rw [hr] at hnone
      cases hnone

/-- A terminal record stays as it is. -/
theorem Advances.terminal (h : Advances v v') {r : ApprovalRecord} (hr : v.record = some r)
    (hterminal : r.status.terminal) : v'.record = some r := by
  obtain ⟨r', hr', rfl | hmoves⟩ := h.record hr
  · exact hr'
  · rw [hmoves.not_terminal] at hterminal
    cases hterminal

/-- Many steps add events that go on from the status of the record, one for each version. -/
theorem evolves (h : Relation.ReflTransGen Advances v v') :
    ∃ new, v'.events = v.events ++ new ∧ v'.version = v.version + new.length ∧
      (v.status.toList ++ new.map (·.status)).IsChain ApprovalStatus.Moves ∧
      (v.status = none → ∀ e ∈ new.head?, e.status = .pending) := by
  -- from the first step on: what a step adds comes before what follows
  induction h using Relation.ReflTransGen.head_induction_on with
  | refl =>
      refine ⟨[], by simp, rfl, ?_, fun _ e he => by cases he⟩
      rw [List.map_nil, List.append_nil]
      cases v'.status with
      | none => exact .nil
      | some st => exact .singleton st
  | @head v v₁ hstep _ ih =>
      obtain ⟨new, hevents, hversion, hchain, hhead⟩ := ih
      cases hstep with
      | stays => exact ⟨new, hevents, hversion, hchain, hhead⟩
      | moves r r' e hr hmoves hversion' hstatus =>
          refine ⟨e :: new, by simp [hevents], ?_, ?_, fun hnone => ?_⟩
          · simp only [version, hr, Option.map_some, Option.getD_some,
              List.length_cons] at hversion ⊢
            omega
          · simp only [status, hr, Option.map_some, Option.toList_some, List.map_cons, hstatus,
              List.cons_append, List.nil_append] at hchain ⊢
            exact .cons_cons hmoves hchain
          · rw [status, hr] at hnone
            cases hnone
      | opens r e hnone hpending hversion' hstatus =>
          refine ⟨e :: new, by simp [hevents], ?_, ?_, fun _ e' he' => ?_⟩
          · simp only [version, hnone, Option.map_some, Option.getD_some, Option.map_none,
              Option.getD_none, List.length_cons] at hversion ⊢
            omega
          · simpa [status, hnone, hstatus] using hchain
          · cases he'
            exact hstatus.trans hpending

/-- A record is never lost. -/
theorem record_of_steps (h : Relation.ReflTransGen Advances v v') {r : ApprovalRecord}
    (hr : v.record = some r) : ∃ r', v'.record = some r' := by
  induction h with
  | refl => exact ⟨r, hr⟩
  | tail _ hstep ih =>
      obtain ⟨r₁, hr₁⟩ := ih
      obtain ⟨r', hr', -⟩ := hstep.record hr₁
      exact ⟨r', hr'⟩

end RecordView

/-! ## The calls of the in-memory store -/

/-- A call of a method of the store, with the id that a new record is given. -/
inductive StoreCall where
  | create (q : ApprovalRequest) (now : Time) (fresh : UUID)
  | get (approvalId : UUID) (now : Time)
  | detail (approvalId : UUID) (now : Time)
  | listApprovals (now : Time) (status : Option ApprovalStatus)
  | approve (approvalId : UUID) (approver : Principal) (now : Time)
  | reject (approvalId : UUID) (rejector : Principal) (reason : String) (now : Time)
  | expirePending (now : Time)
  | markExecuted (approval : ApprovalRecord) (actor : Principal) (now : Time) (result : PyDict)
  | markFailed (approval : ApprovalRecord) (actor : Principal) (now : Time) (reason : String)

/-- The time a call is given. -/
def StoreCall.now : StoreCall → Time
  | .create _ now _ => now
  | .get _ now => now
  | .detail _ now => now
  | .listApprovals now _ => now
  | .approve _ _ now => now
  | .reject _ _ _ now => now
  | .expirePending now => now
  | .markExecuted _ _ now _ => now
  | .markFailed _ _ now _ => now

/-- The error a method raises, if it does, and the store it leaves. -/
def raised {α : Type} : Except GatewayError α × ApprovalStore → Option GatewayError × ApprovalStore
  | (.ok _, s) => (none, s)
  | (.error e, s) => (some e, s)

@[simp] theorem raised_snd {α : Type} (x : Except GatewayError α × ApprovalStore) :
    (raised x).2 = x.2 := by
  obtain ⟨_ | _, s⟩ := x <;> rfl

/-- The error a call raises and the store it leaves. -/
def StoreCall.apply (s : ApprovalStore) : StoreCall → Option GatewayError × ApprovalStore
  | .create q now fresh => (none, (s.create q now fresh).2)
  | .get id now => raised (s.get id now)
  | .detail id now => raised (s.detail id now)
  | .listApprovals now status => (none, (s.listApprovals now status).2)
  | .approve id approver now => raised (s.approve id approver now)
  | .reject id rejector reason now => raised (s.reject id rejector reason now)
  | .expirePending now => (none, s.expirePending now)
  | .markExecuted approval actor now result =>
      raised (s.markExecuted approval actor now result)
  | .markFailed approval actor now reason =>
      raised (s.markFailed approval actor now reason)

namespace ApprovalStore

theorem keyed_empty (id : UUID) (r : ApprovalRecord)
    (h : (Dict.empty : Dict UUID ApprovalRecord).get? id = some r) : r.approvalId = id := by
  cases h

/-- A store with no approvals and the audit log it is attached to. -/
def new (ttlSeconds : ℤ) (log : List AuditRecord) : ApprovalStore :=
  { ttlSeconds := ttlSeconds, keyed := keyed_empty, auditLog := log }

/-- The record of `id` with its events. -/
def view (id : UUID) (s : ApprovalStore) : RecordView :=
  ⟨s.approvals.get? id, s.events.filter (·.approvalId = id)⟩

/-- The store after `calls`. -/
def after (s : ApprovalStore) : List StoreCall → ApprovalStore
  | [] => s
  | c :: rest => after (c.apply s).2 rest

/-- If `c` creates a record, then under an id that no record has. -/
def FreshId (s : ApprovalStore) : StoreCall → Prop
  | .create _ _ fresh => s.approvals.get? fresh = none
  | _ => True

/-- Every call creates records under fresh ids only. -/
def FreshIds (s : ApprovalStore) : List StoreCall → Prop
  | [] => True
  | c :: rest => FreshId s c ∧ FreshIds (c.apply s).2 rest

/-- The transitions of the record of `id` during `calls`: the statuses it comes to have. -/
def transitions (id : UUID) (s : ApprovalStore) : List StoreCall → List ApprovalStatus
  | [] => []
  | c :: rest =>
      let s' := (c.apply s).2
      (if (s'.view id).status = (s.view id).status then [] else (s'.view id).status.toList) ++
        transitions id s' rest

/-! ## One call and one record -/

section OneRecord

variable {s : ApprovalStore} {id : UUID} {r r' : ApprovalRecord}

/-- Entering `r` with its event. -/
theorem view_put_recordTransition (id : UUID) (r : ApprovalRecord) (eventType : String)
    (actor : Principal) (now : Time) (executionStatus summary : String) (s : ApprovalStore) :
    ((s.put r).recordTransition r eventType actor now executionStatus summary).view id =
      if id = r.approvalId then
        ⟨some r, (s.view id).events ++ [transitionEvent r eventType actor now]⟩
      else s.view id := by
  by_cases h : id = r.approvalId
  · simp [view, put, recordTransition, transitionEvent, h]
  · have hne : r.approvalId ≠ id := Ne.symm h
    simp [view, put, recordTransition, transitionEvent, Dict.get?_set, h, hne]

/-- Entering a moved record with its event. -/
theorem advances_moved {m : ApprovalRecord} (hr : s.approvals.get? r.approvalId = some r)
    (hid : m.approvalId = r.approvalId) (hmoves : r.status.Moves m.status)
    (hversion : m.version = r.version + 1) (eventType : String) (actor : Principal)
    (now : Time) (executionStatus summary : String) (id : UUID) :
    (s.view id).Advances
      (((s.put m).recordTransition m eventType actor now executionStatus summary).view id) := by
  rw [view_put_recordTransition]
  split
  · rename_i h
    rw [h]
    exact .moves r m _ (hid ▸ hr) hmoves hversion rfl
  · exact .stays

theorem advances_create (q : ApprovalRequest) (now : Time) {fresh : UUID}
    (hfresh : s.approvals.get? fresh = none) (id : UUID) :
    (s.view id).Advances ((s.create q now fresh).2.view id) := by
  rw [create, view_put_recordTransition]
  split
  · rename_i h
    rw [h]
    exact .opens _ _ hfresh rfl rfl rfl
  · exact .stays

theorem view_expireIfNeeded_of_ne (h : id ≠ r.approvalId) (now : Time) (s : ApprovalStore) :
    (s.expireIfNeeded r now).2.view id = s.view id := by
  unfold expireIfNeeded
  split
  · rw [view_put_recordTransition, if_neg h]
  · rfl

theorem advances_expireIfNeeded (hr : s.approvals.get? r.approvalId = some r) (now : Time)
    (id : UUID) : (s.view id).Advances ((s.expireIfNeeded r now).2.view id) := by
  unfold expireIfNeeded
  split
  · rename_i hdue
    have hmoves : r.status.Moves .expired := by
      rw [hdue.1]
      exact .expire
    let expired := { r with status := .expired, version := r.version + 1 }
    exact advances_moved (m := expired) hr rfl hmoves rfl _ _ _ _ _ id
  · exact .stays

/-- Expiring records leaves the others alone. -/
theorem view_expireAll_of_notMem (now : Time) (rs : List ApprovalRecord) (s : ApprovalStore)
    (hid : id ∉ rs.map (·.approvalId)) :
    (rs.foldl (fun s r => (s.expireIfNeeded r now).2) s).view id = s.view id := by
  induction rs generalizing s with
  | nil => rfl
  | cons r rest ih =>
      rw [List.map_cons, List.mem_cons, not_or] at hid
      rw [List.foldl_cons, ih _ hid.2, view_expireIfNeeded_of_ne hid.1]

/-- Expiring the records `rs` one by one, each still as it is in the store. -/
theorem advances_expireAll (now : Time) (rs : List ApprovalRecord) (s : ApprovalStore)
    (hrs : ∀ r ∈ rs, s.approvals.get? r.approvalId = some r)
    (hnodup : (rs.map (·.approvalId)).Nodup) (id : UUID) :
    (s.view id).Advances ((rs.foldl (fun s r => (s.expireIfNeeded r now).2) s).view id) := by
  induction rs generalizing s with
  | nil => exact .stays
  | cons r rest ih =>
      rw [List.map_cons, List.nodup_cons] at hnodup
      have hr := hrs r (List.mem_cons_self ..)
      rw [List.foldl_cons]
      by_cases hid : id = r.approvalId
      · rw [view_expireAll_of_notMem now rest _ (hid ▸ hnodup.1)]
        exact advances_expireIfNeeded hr now id
      · rw [← view_expireIfNeeded_of_ne hid now s]
        refine ih _ (fun r' hr' => ?_) hnodup.2
        have hne : r'.approvalId ≠ r.approvalId :=
          fun h => hnodup.1 (h ▸ List.mem_map_of_mem hr')
        have hview := congrArg RecordView.record (view_expireIfNeeded_of_ne hne now s)
        exact hview.trans (hrs r' (List.mem_cons_of_mem _ hr'))

end OneRecord

/-! ## One call and the audit log -/

/-- The audit record `a` tells of the event `e`. -/
def Tells (e : ApprovalEvent) (a : AuditRecord) : Prop :=
  a.correlationId = e.approvalId ∧ a.toolName = e.eventType ∧ a.timestamp = e.timestamp ∧
    a.actorId = e.actorId ∧ a.approvalStatus = some e.status

/-- The audit log gains a record for each event. -/
def Logs (s s' : ApprovalStore) : Prop :=
  ∃ es as, s'.events = s.events ++ es ∧ s'.auditLog = s.auditLog ++ as ∧ List.Forall₂ Tells es as

section Audit

variable {s s' s'' : ApprovalStore}

theorem Logs.refl (s : ApprovalStore) : Logs s s := ⟨[], [], by simp⟩

theorem Logs.trans (h : Logs s s') (h' : Logs s' s'') : Logs s s'' := by
  obtain ⟨es, as, he, ha, htells⟩ := h
  obtain ⟨es', as', he', ha', htells'⟩ := h'
  refine ⟨es ++ es', as ++ as', ?_, ?_, List.rel_append htells htells'⟩
  · rw [he', he, List.append_assoc]
  · rw [ha', ha, List.append_assoc]

theorem logs_put_recordTransition (r r' : ApprovalRecord) (eventType : String)
    (actor : Principal) (now : Time) (executionStatus summary : String) (s : ApprovalStore) :
    Logs s ((s.put r').recordTransition r eventType actor now executionStatus summary) :=
  ⟨[transitionEvent r eventType actor now],
    [transitionAudit r eventType actor now executionStatus summary], rfl, rfl,
    .cons ⟨rfl, rfl, rfl, rfl, rfl⟩ .nil⟩

theorem logs_expireIfNeeded (r : ApprovalRecord) (now : Time) (s : ApprovalStore) :
    Logs s (s.expireIfNeeded r now).2 := by
  unfold expireIfNeeded
  split
  · exact logs_put_recordTransition ..
  · exact .refl s

theorem logs_expirePending (now : Time) (s : ApprovalStore) : Logs s (s.expirePending now) := by
  unfold expirePending
  refine List.foldlRecOn (motive := fun t => Logs s t) _ _ (.refl s) ?_
  intro t ht r _
  exact ht.trans (logs_expireIfNeeded r now t)

end Audit

/-! ## What a call does -/

/-- A record that was pending at its deadline is expired, and nothing else happens. -/
def RecordsExpiry (now : Time) (s s' : ApprovalStore) : Prop :=
  ∃ r, s.approvals.get? r.approvalId = some r ∧ r.status = .pending ∧ r.expiresAt ≤ now ∧
    s' = (s.expireIfNeeded r now).2

/-- What becomes of a call at time `now`: it raises and has at most recorded an expiry, or it
answers and has advanced each record. -/
inductive Outcome (now : Time) (s : ApprovalStore) : Option GatewayError × ApprovalStore → Prop
  | raises (e : GatewayError) (s' : ApprovalStore) (h : s' = s ∨ RecordsExpiry now s s') :
      Outcome now s (some e, s')
  | answers (s' : ApprovalStore) (hadvances : ∀ id, (s.view id).Advances (s'.view id))
      (hlogs : Logs s s') :
      Outcome now s (none, s')

theorem RecordsExpiry.advances {now : Time} {s s' : ApprovalStore} (h : RecordsExpiry now s s')
    (id : UUID) : (s.view id).Advances (s'.view id) := by
  obtain ⟨r, hr, -, -, rfl⟩ := h
  exact advances_expireIfNeeded hr now id

theorem RecordsExpiry.logs {now : Time} {s s' : ApprovalStore} (h : RecordsExpiry now s s') :
    Logs s s' := by
  obtain ⟨r, -, -, -, rfl⟩ := h
  exact logs_expireIfNeeded r now s

namespace Outcome

variable {now : Time} {s : ApprovalStore} {x : Option GatewayError × ApprovalStore}

theorem advances (h : Outcome now s x) (id : UUID) :
    (s.view id).Advances (x.2.view id) := by
  cases h with
  | raises e s' h =>
      rcases h with rfl | h
      · exact .stays
      · exact h.advances id
  | answers s' hadvances => exact hadvances id

theorem logs (h : Outcome now s x) : Logs s x.2 := by
  cases h with
  | raises e s' h =>
      rcases h with rfl | h
      · exact .refl s'
      · exact h.logs
  | answers s' _ hlogs => exact hlogs

theorem of_raises (h : Outcome now s x) {e : GatewayError} (he : x.1 = some e) :
    x.2 = s ∨ RecordsExpiry now s x.2 := by
  cases h with
  | raises _ _ h => exact h
  | answers => cases he

end Outcome

section Calls

variable (s : ApprovalStore) (id : UUID) (now : Time)

/-- Looking a record up finds none, finds it as it is, or expires it. -/
theorem detail_cases :
    (s.approvals.get? id = none ∧ s.detail id now = (.error (approvalNotFound id), s)) ∨
      (∃ r, s.approvals.get? id = some r ∧ s.detail id now = (.ok r, s)) ∨
      ∃ r s', r.status = .expired ∧ RecordsExpiry now s s' ∧ s.detail id now = (.ok r, s') := by
  unfold detail
  cases hr : s.approvals.get? id with
  | none => exact Or.inl ⟨rfl, rfl⟩
  | some r =>
      right
      by_cases hdue : r.status = .pending ∧ r.expiresAt ≤ now
      · have hkey : s.approvals.get? r.approvalId = some r := by rw [s.keyed id r hr, hr]
        right
        refine ⟨(s.expireIfNeeded r now).1, _, ?_, ⟨r, hkey, hdue.1, hdue.2, rfl⟩, rfl⟩
        rw [expireIfNeeded, if_pos hdue]
      · left
        exact ⟨r, rfl, by simp [expireIfNeeded, hdue]⟩

/-- Getting a record answers with it and leaves the store, or raises. -/
theorem get_cases :
    (∃ r, s.approvals.get? id = some r ∧ s.get id now = (.ok r, s)) ∨
      ∃ e s', s.get id now = (.error e, s') ∧ (s' = s ∨ RecordsExpiry now s s') := by
  unfold get
  rcases detail_cases s id now with ⟨-, h⟩ | ⟨r, hr, h⟩ | ⟨r, s', hexpired, hrecords, h⟩
  · exact Or.inr ⟨approvalNotFound id, s, by rw [h], Or.inl rfl⟩
  · by_cases hexpired : r.status = .expired
    · exact Or.inr ⟨approvalExpired, s, by simp [h, hexpired], Or.inl rfl⟩
    · exact Or.inl ⟨r, hr, by simp [h, hexpired]⟩
  · exact Or.inr ⟨approvalExpired, s', by simp [h, hexpired], Or.inr hrecords⟩

/-- What becomes of a method that gets the record, moves it with `f` if its status is `start`,
and refuses otherwise. -/
theorem outcome_of_get {res : Except GatewayError ApprovalRecord × ApprovalStore}
    (start : ApprovalStatus) (f : ApprovalRecord → ApprovalRecord)
    (hid : ∀ r, (f r).approvalId = r.approvalId)
    (hmoves : ∀ r : ApprovalRecord, r.status = start → r.status.Moves (f r).status)
    (hversion : ∀ r, (f r).version = r.version + 1)
    (herror : ∀ e s', s.get id now = (.error e, s') → res = (.error e, s'))
    (hmoved : ∀ r, s.get id now = (.ok r, s) → r.status = start →
      ∃ eventType actor executionStatus summary, res = (.ok (f r),
        (s.put (f r)).recordTransition (f r) eventType actor now executionStatus summary))
    (hrefused : ∀ r, s.get id now = (.ok r, s) → r.status ≠ start → ∃ e, res = (.error e, s)) :
    Outcome now s (raised res) := by
  rcases get_cases s id now with ⟨r, hr, hget⟩ | ⟨e, s', hget, hs'⟩
  · by_cases hstart : r.status = start
    · have hkey : s.approvals.get? r.approvalId = some r := by rw [s.keyed id r hr, hr]
      obtain ⟨_, _, _, _, hres⟩ := hmoved r hget hstart
      rw [hres]
      refine .answers _ (fun k => ?_) (logs_put_recordTransition ..)
      exact advances_moved hkey (hid r) (hmoves r hstart) (hversion r) _ _ _ _ _ k
    · obtain ⟨e, he⟩ := hrefused r hget hstart
      rw [he]
      exact .raises e s (Or.inl rfl)
  · rw [herror e s' hget]
    exact .raises e s' hs'

theorem outcome_detail : Outcome now s (raised (s.detail id now)) := by
  rcases detail_cases s id now with ⟨-, h⟩ | ⟨r, -, h⟩ | ⟨r, s', -, hrecords, h⟩
  · rw [h]
    exact .raises _ s (Or.inl rfl)
  · rw [h]
    exact .answers s (fun _ => .stays) (.refl s)
  · rw [h]
    exact .answers s' hrecords.advances hrecords.logs

theorem outcome_get : Outcome now s (raised (s.get id now)) := by
  rcases get_cases s id now with ⟨r, -, h⟩ | ⟨e, s', h, hs'⟩
  · rw [h]
    exact .answers s (fun _ => .stays) (.refl s)
  · rw [h]
    exact .raises e s' hs'

theorem outcome_approve (approver : Principal) :
    Outcome now s (raised (s.approve id approver now)) := by
  refine outcome_of_get s id now .pending (·.grantedBy approver now)
    (fun _ => rfl) (fun r hr => ?_) (fun _ => rfl) ?_ ?_ ?_
  · rw [hr]
    exact .approve
  · intro e s' h
    simp only [approve, h]
  · intro r h hr
    refine ⟨"approval.approved", approver, "APPROVED", "Approval granted.", ?_⟩
    simp only [approve, h, hr, if_pos]
    rfl
  · intro r h hr
    exact ⟨notPending r.status, by simp only [approve, h, hr, if_false]⟩

theorem outcome_reject (rejector : Principal) (reason : String) :
    Outcome now s (raised (s.reject id rejector reason now)) := by
  refine outcome_of_get s id now .pending (·.refusedBy rejector reason now)
    (fun _ => rfl) (fun r hr => ?_) (fun _ => rfl) ?_ ?_ ?_
  · rw [hr]
    exact .reject
  · intro e s' h
    simp only [reject, h]
  · intro r h hr
    refine ⟨"approval.rejected", rejector, "REJECTED", reason, ?_⟩
    simp only [reject, h, hr, if_pos]
    rfl
  · intro r h hr
    exact ⟨notPending r.status, by simp only [reject, h, hr, if_false]⟩

theorem outcome_markExecuted (approval : ApprovalRecord) (actor : Principal) (result : PyDict) :
    Outcome now s (raised (s.markExecuted approval actor now result)) := by
  refine outcome_of_get s approval.approvalId now .approved (·.executed now result)
    (fun _ => rfl) (fun r hr => ?_) (fun _ => rfl) ?_ ?_ ?_
  · rw [hr]
    exact .execute
  · intro e s' h
    simp only [markExecuted, h]
  · intro r h hr
    refine ⟨"approval.executed", actor, "EXECUTED", "Approved operation executed.", ?_⟩
    simp only [markExecuted, h, hr, if_pos]
    rfl
  · intro r h hr
    exact ⟨notApproved r.status, by simp only [markExecuted, h, hr, if_false]⟩

theorem outcome_markFailed (approval : ApprovalRecord) (actor : Principal) (reason : String) :
    Outcome now s (raised (s.markFailed approval actor now reason)) := by
  unfold markFailed
  cases hr : s.approvals.get? approval.approvalId with
  | none => exact .raises _ s (Or.inl rfl)
  | some r =>
      have hkey : s.approvals.get? r.approvalId = some r := by rw [s.keyed _ r hr, hr]
      by_cases hopen : r.status = .approved ∨ r.status = .pending
      · have hmoves : r.status.Moves (r.failedWith reason).status := by
          rcases hopen with h | h
          · rw [h]
            exact .fail
          · rw [h]
            exact .abandon
        simp only [if_pos hopen]
        refine .answers _ (fun k => ?_) (logs_put_recordTransition ..)
        exact advances_moved (m := r.failedWith reason) hkey rfl hmoves rfl _ _ _ _ _ k
      · simp only [if_neg hopen]
        exact .raises _ s (Or.inl rfl)

theorem outcome_expirePending : Outcome now s (none, s.expirePending now) := by
  have hids : s.approvals.values.map (·.approvalId) = s.approvals.keys := by
    simp only [Dict.values, Dict.keys, List.map_map]
    exact List.map_congr_left fun e he => s.keyed e.1 e.2 (Dict.get?_eq_some_iff.mpr he)
  refine .answers _ (advances_expireAll now s.approvals.values s (fun r hr => ?_) ?_)
    (logs_expirePending now s)
  · obtain ⟨k, hk⟩ := Dict.mem_values.mp hr
    rw [s.keyed k r hk, hk]
  · rw [hids]
    exact s.approvals.nodup

end Calls

theorem outcome_apply (s : ApprovalStore) {c : StoreCall} (hfresh : FreshId s c) :
    Outcome c.now s (c.apply s) := by
  cases c with
  | create q now fresh =>
      exact .answers _ (advances_create q now hfresh) (logs_put_recordTransition ..)
  | get id now => exact outcome_get s id now
  | detail id now => exact outcome_detail s id now
  | listApprovals now status => exact outcome_expirePending s now
  | approve id approver now => exact outcome_approve s id now approver
  | reject id rejector reason now => exact outcome_reject s id now rejector reason
  | expirePending now => exact outcome_expirePending s now
  | markExecuted approval actor now result => exact outcome_markExecuted s now approval actor result
  | markFailed approval actor now reason => exact outcome_markFailed s now approval actor reason

/-! ## A sequence of calls -/

/-- The statuses of a record from its opening on, each reached from the one before. -/
def Lifecycle (statuses : List ApprovalStatus) : Prop :=
  (∀ st ∈ statuses.head?, st = .pending) ∧ statuses.IsChain ApprovalStatus.Moves

section Runs

variable {s : ApprovalStore} {calls : List StoreCall}

theorem view_after (hfresh : FreshIds s calls) (id : UUID) :
    Relation.ReflTransGen RecordView.Advances (s.view id) ((s.after calls).view id) := by
  induction calls generalizing s with
  | nil => exact .refl
  | cons c rest ih => exact .head ((outcome_apply s hfresh.1).advances id) (ih hfresh.2)

theorem logs_after (hfresh : FreshIds s calls) : Logs s (s.after calls) := by
  induction calls generalizing s with
  | nil => exact .refl s
  | cons c rest ih => exact (outcome_apply s hfresh.1).logs.trans (ih hfresh.2)

/-- The events of a record spell its transitions. -/
theorem events_after (hfresh : FreshIds s calls) (id : UUID) :
    ((s.after calls).view id).events.map (·.status) =
      (s.view id).events.map (·.status) ++ transitions id s calls := by
  induction calls generalizing s with
  | nil => simp [after, transitions]
  | cons c rest ih =>
      rw [after, ih hfresh.2, ((outcome_apply s hfresh.1).advances id).statuses,
        List.append_assoc]
      rfl

end Runs

/-- The state machine of the in-memory approval store. -/
theorem approval_state_machine (ttlSeconds : ℤ) (log : List AuditRecord)
    (calls : List StoreCall) (hfresh : FreshIds (new ttlSeconds log) calls) :
    let s := (new ttlSeconds log).after calls
    (∀ id, Lifecycle (transitions id (new ttlSeconds log) calls) ∧
      (s.view id).events.map (·.status) = transitions id (new ttlSeconds log) calls) ∧
    (∀ id r, s.approvals.get? id = some r → r.version = (s.view id).events.length) ∧
    (∃ as, s.auditLog = log ++ as ∧ List.Forall₂ Tells s.events as) ∧
    ∀ c, FreshId s c →
      (∀ id r, s.approvals.get? id = some r →
        ∃ r', (c.apply s).2.approvals.get? id = some r' ∧ (r' = r ∨ r.status.Moves r'.status)) ∧
      (∀ id r, s.approvals.get? id = some r → r.status.terminal →
        (c.apply s).2.approvals.get? id = some r) ∧
      ∀ e, (c.apply s).1 = some e → (c.apply s).2 = s ∨ RecordsExpiry c.now s (c.apply s).2 := by
  intro s
  have hevents : ∀ id, (s.view id).events.map (·.status) =
      transitions id (new ttlSeconds log) calls := events_after hfresh
  refine ⟨fun id => ⟨?_, hevents id⟩, ?_, ?_, fun c hc => ⟨?_, ?_, ?_⟩⟩
  · -- a record begins unseen, so what it has gone through begins with `PENDING`
    obtain ⟨newer, hnew, -, hchain, hhead⟩ := RecordView.evolves (view_after hfresh id)
    have hspell : newer.map (·.status) = transitions id (new ttlSeconds log) calls := by
      rw [← hevents id]
      exact congrArg (List.map (·.status)) hnew.symm
    refine ⟨fun st hst => ?_, hspell ▸ hchain⟩
    rw [← hspell, List.head?_map] at hst
    obtain ⟨e, he, rfl⟩ := Option.map_eq_some_iff.mp hst
    exact hhead rfl e he
  · -- the version counts the events, since both begin with none
    intro id r hr
    obtain ⟨newer, hnew, hversion, -⟩ := RecordView.evolves (view_after hfresh id)
    have hr' : (s.view id).version = r.version := by
      rw [RecordView.version, show (s.view id).record = some r from hr]
      rfl
    rw [← hr', hversion, hnew, List.length_append]
    rfl
  · obtain ⟨es, as, hes, has, htells⟩ := logs_after hfresh
    refine ⟨as, has, ?_⟩
    rw [show s.events = es from hes]
    exact htells
  · intro id r hr
    exact ((outcome_apply s hc).advances id).record hr
  · intro id r hr hterminal
    exact ((outcome_apply s hc).advances id).terminal hr hterminal
  · intro e he
    exact (outcome_apply s hc).of_raises he

/-- A request for a restart, its approval and its execution. -/
def restartCalls : List StoreCall :=
  let request : ApprovalRequest :=
    { principal := ⟨"operator-1", .operator, .human⟩, toolName := "restart_device",
      arguments := [], riskLevel := .high, workflowId := none, workflowNodeId := none,
      argumentsHash := none, approvalBindingHash := none }
  [.create request 0 5, .approve 5 ⟨"admin-1", .admin, .human⟩ 10,
    .markExecuted (request.record 5 0 (seconds 3600)) ⟨"operator-1", .operator, .human⟩ 20 []]

theorem approval_state_machine_restart :
    transitions 5 (new 3600 []) restartCalls = [.pending, .approved, .executed] ∧
      (((new 3600 []).after restartCalls).view 5).events.map (·.status) =
        [.pending, .approved, .executed] := by
  have hmoves : transitions 5 (new 3600 []) restartCalls = [.pending, .approved, .executed] := by
    rfl
  have hfresh : FreshIds (new 3600 []) restartCalls := ⟨rfl, trivial, trivial, trivial⟩
  exact ⟨hmoves, (((approval_state_machine 3600 [] restartCalls hfresh).1 5).2).trans hmoves⟩

end ApprovalStore

end McpOps
