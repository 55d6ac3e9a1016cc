import McpOps.Gateway.Persistence
import Mathlib.Algebra.Order.Group.Int
import Mathlib.Data.List.Perm.Basic

/-!
# Approval stores that answer alike

The ledger decides what an approval store answers, apart from the order in which it lists its
records.  Both stores list them by the time of their making, so where the records were made one
after another there is one order only, and stores with the same ledger answer every operation
alike.

No operation changes when a record was made (`createdAt_eq`), and only `create` makes one, so that
`MadeInOrder` goes on as long as the clock does (`MadeInOrder.step`, `MadeInOrder.create`).  Where
records were made at different times, a list of them that is sorted by these times and has each of
them once is determined (`MadeInOrder.list_unique`).  `ApprovalBackend.answer_alike` is the
comparison for one operation.
-/

namespace McpOps

namespace Transition

/-- No operation changes when a record was made. -/
theorem createdAt_eq {o : ApprovalOp} {r r' : ApprovalRecord} (h : Transition o r r') :
    r'.createdAt = r.createdAt := by
  cases h <;> rfl

end Transition

namespace Ledger

variable {l l' l'' : Ledger} {fresh : UUID} {last now : Time}

/-- Up to `last` the records were made one after another. -/
structure MadeInOrder (last : Time) (l : Ledger) : Prop where
  early : ∀ id r, l.record id = some r → r.createdAt ≤ last
  distinct : ∀ id id' r r', l.record id = some r → l.record id' = some r' →
    r.createdAt = r'.createdAt → id = id'

theorem MadeInOrder.mono (h : l.MadeInOrder last) (hle : last ≤ now) : l.MadeInOrder now :=
  ⟨fun id r hr => (h.early id r hr).trans hle, h.distinct⟩

/-- Only `create` makes a record. -/
theorem MadeInOrder.step {o : ApprovalOp} {a : o.Ans} (h : l.MadeInOrder last)
    (hallows : Allows o fresh l a l') (hother : ∀ q now, o ≠ .create q now) :
    l'.MadeInOrder last := by
  have hbefore : ∀ id r', l'.record id = some r' →
      ∃ r, l.record id = some r ∧ r.createdAt = r'.createdAt := by
    intro id r' hr'
    cases hid : l.record id with
    | none =>
        obtain ⟨q, now, ho, -⟩ := allows_new hallows hid hr'
        exact absurd ho (hother q now)
    | some r =>
        obtain ⟨r'', hr'', htransition⟩ :=
          allows_transition hallows (fun q now ho => absurd ho (hother q now)) hid
        obtain rfl := Option.some.inj (hr''.symm.trans hr')
        exact ⟨r, rfl, htransition.createdAt_eq.symm⟩
  refine ⟨fun id r' hr' => ?_, fun id id' r₁ r₂ h₁ h₂ heq => ?_⟩
  · obtain ⟨r, hr, htime⟩ := hbefore id r' hr'
    exact htime ▸ h.early id r hr
  · obtain ⟨s₁, hs₁, htime₁⟩ := hbefore id r₁ h₁
    obtain ⟨s₂, hs₂, htime₂⟩ := hbefore id' r₂ h₂
    exact h.distinct id id' s₁ s₂ hs₁ hs₂ (by rw [htime₁, htime₂, heq])

/-- A record that is made later than the others. -/
theorem MadeInOrder.create {q : ApprovalRequest} (h : l.MadeInOrder last) (hlt : last < now) :
    (l.put (q.record fresh now l.ttl)).MadeInOrder now := by
  set made := q.record fresh now l.ttl with hmade
  have hcases : ∀ id r, (l.put made).record id = some r →
      id = fresh ∧ r = made ∨ l.record id = some r := by
    intro id r hr
    by_cases hid : id = fresh
    · have hmadeId : made.approvalId = fresh := rfl
      rw [hid, put_record_self l hmadeId] at hr
      exact .inl ⟨hid, (Option.some.inj hr).symm⟩
    · rw [put_record_of_ne l hid] at hr
      exact .inr hr
  have htime : made.createdAt = now := rfl
  refine ⟨fun id r hr => ?_, fun id id' r r' hr hr' heq => ?_⟩
  · rcases hcases id r hr with ⟨-, rfl⟩ | hold
    · exact le_rfl
    · exact (h.early id r hold).trans hlt.le
  · rcases hcases id r hr with ⟨rfl, rfl⟩ | hold <;>
      rcases hcases id' r' hr' with ⟨rfl, rfl⟩ | hold'
    · rfl
    · have hle : now ≤ last := htime ▸ heq.le.trans (h.early id' r' hold')
      exact absurd hle (not_le.mpr hlt)
    · have hle : now ≤ last := htime ▸ heq.ge.trans (h.early id r hold)
      exact absurd hle (not_le.mpr hlt)
    · exact h.distinct id id' r r' hold hold' heq

/-- There is one way to list the records of a ledger by the time of their making, when they were
made one after another. -/
theorem MadeInOrder.list_unique (h : l.MadeInOrder last) {a b : List ApprovalRecord}
    (ha : ∀ r, r ∈ a ↔ ∃ id, l.record id = some r) (hb : ∀ r, r ∈ b ↔ ∃ id, l.record id = some r)
    (haNodup : a.Nodup) (hbNodup : b.Nodup)
    (haSorted : a.Pairwise fun r r' => r.createdAt ≤ r'.createdAt)
    (hbSorted : b.Pairwise fun r r' => r.createdAt ≤ r'.createdAt) : a = b := by
  have hperm : a.Perm b :=
    (List.perm_ext_iff_of_nodup haNodup hbNodup).mpr fun r => (ha r).trans (hb r).symm
  refine List.Perm.eq_of_pairwise (fun r r' hr hr' hle hge => ?_) haSorted hbSorted hperm
  obtain ⟨id, hid⟩ := (ha r).mp hr
  obtain ⟨id', hid'⟩ := (hb r').mp hr'
  obtain rfl := h.distinct id id' r r' hid hid' (le_antisymm hle hge)
  exact Option.some.inj (hid.symm.trans hid')

end Ledger

/-! ## Listing in order -/

/-- A store that lists its records by the time of their making, each of them once. -/
structure ApprovalBackend.ListsInOrder {A : Type} (B : ApprovalBackend A) : Prop where
  nodup : ∀ now fresh (a : A), List.Nodup (B.answer (.listApprovals now) fresh a).1
  sorted : ∀ now fresh (a : A),
    List.Pairwise (fun r r' => r.createdAt ≤ r'.createdAt) (B.answer (.listApprovals now) fresh a).1

theorem pairwise_mergeSort_createdAt (rs : List ApprovalRecord) :
    (rs.mergeSort fun a b => decide (a.createdAt ≤ b.createdAt)).Pairwise
      fun r r' => r.createdAt ≤ r'.createdAt := by
  refine (List.pairwise_mergeSort (fun a b c hab hbc => ?_) (fun a b => ?_) rs).imp
    fun hle => of_decide_eq_true hle
  · exact decide_eq_true ((of_decide_eq_true hab).trans (of_decide_eq_true hbc))
  · simpa using le_total a.createdAt b.createdAt

theorem ApprovalStore.listsInOrder : ApprovalStore.backend.ListsInOrder where
  nodup now fresh s := by
    have hids : (s.expirePending now).approvals.values.map (·.approvalId) =
        (s.expirePending now).approvals.keys := by
      simp only [Dict.values, Dict.keys, List.map_map]
      exact List.map_congr_left fun e he =>
        (s.expirePending now).keyed e.1 e.2 (Dict.get?_eq_some_iff.mpr he)
    have hnodup : (s.expirePending now).approvals.values.Nodup :=
      List.Nodup.of_map (·.approvalId) (hids ▸ (s.expirePending now).approvals.nodup)
    exact (List.mergeSort_perm ..).nodup_iff.mpr (hnodup.filter _)
  sorted now fresh s := pairwise_mergeSort_createdAt _

theorem SqlAlchemyApprovalStore.listsInOrder : SqlAlchemyApprovalStore.backend.ListsInOrder where
  nodup now fresh s := by
    have hids : ((s.expirePending now).rows.values.map (·.record)).map (·.approvalId) =
        (s.expirePending now).rows.keys := by
      simp only [Dict.values, Dict.keys, List.map_map]
      exact List.map_congr_left fun e he =>
        (s.expirePending now).keyed e.1 e.2 (Dict.get?_eq_some_iff.mpr he)
    have hnodup : ((s.expirePending now).rows.values.map (·.record)).Nodup :=
      List.Nodup.of_map (·.approvalId) (hids ▸ (s.expirePending now).rows.nodup)
    exact (List.mergeSort_perm ..).nodup_iff.mpr hnodup
  sorted now fresh s := pairwise_mergeSort_createdAt _

/-! ## Equal ledgers -/

/-- Stores with the same ledger answer an operation alike and keep the same ledger. -/
theorem ApprovalBackend.answer_alike {A A' : Type} {B : ApprovalBackend A}
    {B' : ApprovalBackend A'} (hB : B.ListsInOrder) (hB' : B'.ListsInOrder) {last : Time} {a : A}
    {a' : A'} (hledger : B.ledger a = B'.ledger a') (horder : (B.ledger a).MadeInOrder last)
    (o : ApprovalOp) (fresh : UUID) :
    (B.answer o fresh a).1 = (B'.answer o fresh a').1 ∧
      B.ledger (B.answer o fresh a).2 = B'.ledger (B'.answer o fresh a').2 := by
  have hallows := B.refines o fresh a
  have hallows' := B'.refines o fresh a'
  rw [← hledger] at hallows'
  cases o with
  | create q now =>
      obtain ⟨hanswer, hstate⟩ := hallows
      obtain ⟨hanswer', hstate'⟩ := hallows'
      rw [hstate, hstate', hanswer, hanswer']
      exact ⟨rfl, rfl⟩
  | listApprovals now =>
      have hnext := horder.step hallows fun q now' => by simp
      obtain ⟨hstate, hmem⟩ := hallows
      obtain ⟨hstate', hmem'⟩ := hallows'
      have hsame := hstate.trans hstate'.symm
      refine ⟨?_, hsame⟩
      exact hnext.list_unique hmem (hsame ▸ hmem') (hB.nodup ..) (hB'.nodup ..) (hB.sorted ..)
        (hB'.sorted ..)
  | get id now => exact Prod.mk.inj (hallows.trans hallows'.symm)
  | detail id now => exact Prod.mk.inj (hallows.trans hallows'.symm)
  | approve id approver now => exact Prod.mk.inj (hallows.trans hallows'.symm)
  | reject id rejector reason now => exact Prod.mk.inj (hallows.trans hallows'.symm)
  | markExecuted approval actor now result => exact Prod.mk.inj (hallows.trans hallows'.symm)
  | markFailed approval actor now reason => exact Prod.mk.inj (hallows.trans hallows'.symm)

end McpOps
