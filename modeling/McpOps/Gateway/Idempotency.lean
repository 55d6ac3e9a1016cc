import McpOps.Gateway.CallShape
import McpOps.Gateway.RemoteClient

/-!
# Idempotency keys

A reservation of a key stays in the store until a sweep finds it older than the time to live,
whatever the calls do with it, so the next reservation of the key succeeds no earlier.  This
needs a clock that does not go back from reservation to reservation, and a store that has
room for every reservation.

## Strategy

* The store: `reserve_none` says what a successful reservation has found and what it leaves;
  `expire_keeps`, `reserve_keeps`, `markRunning_keeps` and `complete_keeps` say that an entry keeps
  its age through every other operation.
* A step: `perform_keeps_entry` collects these.  An entry is removed only by an attempt to reserve
  that finds it too old.
* A run: `entry_of_reservation` follows an entry by induction from the reservation that made it,
  and `reservations_apart` compares it with a later one.

`idempotency_at_most_once` adds that a call dispatches at most once, and only after it has reserved
its key.
-/

namespace McpOps

open Proc

/-! ## The store -/

namespace IdempotencyStore

variable {s : IdempotencyStore} {key : IdempotencyKey} {rec : IdempotencyRecord}

/-- A reservation fits into the store: its entry makes it no larger than `max_entries`. -/
def hasRoom (principal : Principal) (idempotencyKey : String) (now : Time)
    (s : IdempotencyStore) : Bool :=
  ((s.expire now).insertReservation principal idempotencyKey now).keys.size ≤ s.maxEntries

theorem get?_expire (now : Time) (s : IdempotencyStore) (key : IdempotencyKey) :
    (s.expire now).keys.get? key =
      (s.keys.get? key).filter fun r => ¬ r.createdAt ≤ now - seconds s.ttlSeconds :=
  Dict.get?_filter ..

/-- A sweep keeps what is younger than the time to live. -/
theorem expire_keeps {now : Time} (h : s.keys.get? key = some rec)
    (hyoung : now < rec.createdAt + seconds s.ttlSeconds) :
    (s.expire now).keys.get? key = some rec := by
  have hkept : ¬ rec.createdAt ≤ now - seconds s.ttlSeconds := fun hold =>
    absurd hyoung (Int.not_lt.mpr (Int.add_le_of_le_sub_right hold))
  rw [get?_expire, h, Option.filter_some, if_pos (decide_eq_true hkept)]

theorem evictOldestIfNeeded_of_le (h : s.keys.size ≤ s.maxEntries) :
    s.evictOldestIfNeeded = s := by
  have hevict : ∀ fuel, evict s.maxEntries fuel s.keys = s.keys := by
    intro fuel
    cases fuel with
    | zero => rfl
    | succ fuel => rw [evict, if_neg (Nat.not_lt.mpr h)]
  rw [evictOldestIfNeeded, hevict]

/-- A successful reservation found no entry after the sweep, and leaves a new one. -/
theorem reserve_none {principal : Principal} {idempotencyKey : String} {now : Time}
    (hroom : s.hasRoom principal idempotencyKey now)
    (h : (s.reserve principal idempotencyKey now).1 = .ok none) :
    (s.expire now).keys.get? (principal.principalId, idempotencyKey) = none ∧
      (s.reserve principal idempotencyKey now).2.keys.get? (principal.principalId, idempotencyKey) =
        some { createdAt := now } := by
  unfold reserve at h ⊢
  cases hget : (s.expire now).keys.get? (principal.principalId, idempotencyKey) with
  | some existing =>
      simp only [hget] at h
      split at h <;> cases h
  | none =>
      simp only [hget]
      rw [evictOldestIfNeeded_of_le (of_decide_eq_true hroom)]
      exact ⟨trivial, Dict.get?_set_self ..⟩

/-- A reservation at `now` keeps the entries younger than the time to live. -/
theorem reserve_keeps {principal : Principal} {idempotencyKey : String} {now : Time}
    (hroom : s.hasRoom principal idempotencyKey now) (h : s.keys.get? key = some rec)
    (hyoung : now < rec.createdAt + seconds s.ttlSeconds) :
    (s.reserve principal idempotencyKey now).2.keys.get? key = some rec := by
  have hkept := expire_keeps h hyoung
  unfold reserve
  cases hget : (s.expire now).keys.get? (principal.principalId, idempotencyKey) with
  | some existing =>
      simp only [hget]
      split <;> exact hkept
  | none =>
      simp only [hget]
      rw [evictOldestIfNeeded_of_le (of_decide_eq_true hroom)]
      have hne : key ≠ (principal.principalId, idempotencyKey) := by
        rintro rfl
        rw [hkept] at hget
        cases hget
      rw [insertReservation, Dict.get?_set_of_ne hne, hkept]

@[simp] theorem ttlSeconds_reserve (principal : Principal) (idempotencyKey : String) (now : Time)
    (s : IdempotencyStore) :
    (s.reserve principal idempotencyKey now).2.ttlSeconds = s.ttlSeconds := by
  unfold reserve
  dsimp only
  split
  · split <;> rfl
  · rfl

@[simp] theorem ttlSeconds_markRunning (principal : Principal) (idempotencyKey : String)
    (s : IdempotencyStore) :
    (s.markRunning principal idempotencyKey).ttlSeconds = s.ttlSeconds := by
  unfold markRunning
  split <;> rfl

/-- Marking a key keeps the age of every entry. -/
theorem markRunning_keeps (principal : Principal) (idempotencyKey : String)
    (h : s.keys.get? key = some rec) :
    ∃ rec', (s.markRunning principal idempotencyKey).keys.get? key = some rec' ∧
      rec'.createdAt = rec.createdAt := by
  unfold markRunning
  cases hget : s.keys.get? (principal.principalId, idempotencyKey) with
  | none => exact ⟨rec, h, rfl⟩
  | some existing =>
      dsimp only
      rw [Dict.get?_set]
      split
      · rename_i hkey
        rw [← hkey, h] at hget
        cases hget
        exact ⟨_, rfl, rfl⟩
      · exact ⟨rec, h, rfl⟩

/-- Completing a key keeps the age of every entry. -/
theorem complete_keeps (principal : Principal) (idempotencyKey : String)
    (response : GatewayToolResponse) (status : IdempotencyOperationStatus) (now : Time)
    (h : s.keys.get? key = some rec) :
    ∃ rec', (s.complete principal idempotencyKey response status now).keys.get? key = some rec' ∧
      rec'.createdAt = rec.createdAt := by
  unfold complete
  dsimp only
  rw [Dict.get?_set]
  split
  · rename_i hkey
    rw [← hkey, h]
    exact ⟨_, rfl, rfl⟩
  · exact ⟨rec, h, rfl⟩

end IdempotencyStore

/-! ## Reservations of a run -/

section Reservations

variable {A κ : Type} {G : McpGateway} {B : ApprovalBackend A}

/-- The clock reading that an attempt to reserve a key is made with. -/
def attemptedAt : GatewayEvent → Option Time
  | ⟨.reserve _ _ now, _⟩ => some now
  | _ => none

/-- The key that is reserved, and when. -/
def reservation : GatewayEvent → Option (IdempotencyKey × Time)
  | ⟨.reserve principal idempotencyKey now, .ok none⟩ =>
      some ((principal.principalId, idempotencyKey), now)
  | _ => none

/-- The reservations of the steps, newest first. -/
def reservations (past : List (Step gatewayInterface κ (GatewayState A))) :
    List (IdempotencyKey × Time) :=
  past.filterMap fun d => reservation d.event

/-- The clock does not go back from one attempt to reserve to the next. -/
def steadyClock (past : List (Step gatewayInterface κ (GatewayState A))) : Bool :=
  (past.filterMap fun d => attemptedAt d.event).Pairwise fun later earlier => earlier ≤ later

/-- No reservation evicts an entry. -/
def neverFull (past : List (Step gatewayInterface κ (GatewayState A))) : Bool :=
  past.all fun d =>
    match d.op with
    | .reserve principal idempotencyKey now =>
        d.before.idempotency.hasRoom principal idempotencyKey now
    | _ => true

/-- A step keeps an entry and its age, except that an attempt to reserve removes what has
reached the time to live. -/
theorem perform_keeps_entry {r : Run gatewayInterface κ (GatewayState A)} {c : κ} {o : GatewayOp}
    {env : Env} (hroom : neverFull (r.perform (gatewaySystem G B) c o env).past)
    {key : IdempotencyKey} {rec : IdempotencyRecord}
    (hrec : r.state.idempotency.keys.get? key = some rec) :
    (∃ rec', (r.perform (gatewaySystem G B) c o env).state.idempotency.keys.get? key = some rec' ∧
      rec'.createdAt = rec.createdAt) ∨
    ∃ now, attemptedAt ⟨o, ((gatewaySystem G B).answer o env r.state).1⟩ = some now ∧
      rec.createdAt + seconds r.state.idempotency.ttlSeconds ≤ now := by
  cases o with
  | reserve principal idempotencyKey now =>
      by_cases hyoung : now < rec.createdAt + seconds r.state.idempotency.ttlSeconds
      · have hhere := (Bool.and_eq_true_iff.mp hroom).1
        exact Or.inl ⟨rec, IdempotencyStore.reserve_keeps hhere hrec hyoung, rfl⟩
      · exact Or.inr ⟨now, rfl, Int.not_lt.mp hyoung⟩
  | markRunning principal idempotencyKey now =>
      exact Or.inl (IdempotencyStore.markRunning_keeps principal idempotencyKey hrec)
  | complete principal idempotencyKey response status now =>
      exact Or.inl (IdempotencyStore.complete_keeps principal idempotencyKey response status
        now hrec)
  | _ => exact Or.inl ⟨rec, hrec, rfl⟩

/-- A reservation finds no entry after the sweep it makes, and leaves one of its own age. -/
theorem entry_of_reserve {r : Run gatewayInterface κ (GatewayState A)} {c : κ} {o : GatewayOp}
    {env : Env} (hroom : neverFull (r.perform (gatewaySystem G B) c o env).past)
    {key : IdempotencyKey} {now : Time}
    (hreserved : reservation ⟨o, ((gatewaySystem G B).answer o env r.state).1⟩ = some (key, now)) :
    attemptedAt ⟨o, ((gatewaySystem G B).answer o env r.state).1⟩ = some now ∧
      (r.state.idempotency.expire now).keys.get? key = none ∧
      ∃ rec, (r.perform (gatewaySystem G B) c o env).state.idempotency.keys.get? key = some rec ∧
        rec.createdAt = now := by
  cases o with
  | reserve principal idempotencyKey t =>
      have hhere := (Bool.and_eq_true_iff.mp hroom).1
      cases hanswer : (r.state.idempotency.reserve principal idempotencyKey t).1 with
      | error e => simp [reservation, gatewaySystem, hanswer] at hreserved
      | ok replay =>
          cases replay with
          | some response => simp [reservation, gatewaySystem, hanswer] at hreserved
          | none =>
              obtain ⟨rfl, rfl⟩ : (principal.principalId, idempotencyKey) = key ∧ t = now := by
                simpa [reservation, gatewaySystem, hanswer] using hreserved
              obtain ⟨hnone, hentry⟩ := IdempotencyStore.reserve_none hhere hanswer
              exact ⟨rfl, hnone, _, hentry, rfl⟩
  | _ => cases hreserved

/-- The time to live is never changed. -/
theorem ttlSeconds_of_from {s : GatewayState A} {r : Run gatewayInterface κ (GatewayState A)}
    (hr : Run.From (gatewaySystem G B) s r) :
    r.state.idempotency.ttlSeconds = s.idempotency.ttlSeconds := by
  induction hr with
  | start => rfl
  | @perform r hr c o env ih =>
      rw [← ih]
      cases o with
      | reserve principal idempotencyKey now =>
          exact IdempotencyStore.ttlSeconds_reserve ..
      | markRunning principal idempotencyKey now =>
          exact IdempotencyStore.ttlSeconds_markRunning ..
      | _ => rfl

/-- A reserved key has its entry until an attempt to reserve is made a time to live later. -/
theorem entry_of_reservation {s : GatewayState A} {r : Run gatewayInterface κ (GatewayState A)}
    (hr : Run.From (gatewaySystem G B) s r) (hroom : neverFull r.past) {key : IdempotencyKey}
    {reservedAt : Time} (hreserved : (key, reservedAt) ∈ reservations r.past) :
    (∃ rec, r.state.idempotency.keys.get? key = some rec ∧ rec.createdAt = reservedAt) ∨
    ∃ now ∈ r.past.filterMap fun d => attemptedAt d.event,
      reservedAt + seconds s.idempotency.ttlSeconds ≤ now := by
  induction hr with
  | start => cases hreserved
  | @perform r hr c o env ih =>
      have hearlier : neverFull r.past := (Bool.and_eq_true_iff.mp hroom).2
      rcases List.mem_filterMap.mp hreserved with ⟨d, hd, hkey⟩
      rcases List.mem_cons.mp hd with rfl | hd
      · exact Or.inl (entry_of_reserve hroom hkey).2.2
      · rcases ih hearlier (List.mem_filterMap.mpr ⟨d, hd, hkey⟩) with ⟨rec, hrec, hage⟩ | hlate
        · rcases perform_keeps_entry hroom hrec with ⟨rec', hrec', hage'⟩ | ⟨now, hnow, hold⟩
          · exact Or.inl ⟨rec', hrec', hage'.trans hage⟩
          · refine Or.inr ⟨now, List.mem_filterMap.mpr ⟨_, List.mem_cons_self .., hnow⟩, ?_⟩
            rwa [hage, ttlSeconds_of_from hr] at hold
        · obtain ⟨now, hnow, hold⟩ := hlate
          obtain ⟨e, he, hattempt⟩ := List.mem_filterMap.mp hnow
          exact Or.inr ⟨now, List.mem_filterMap.mpr ⟨e, List.mem_cons_of_mem _ he, hattempt⟩, hold⟩

/-- Two reservations of a key are a time to live apart. -/
theorem reservations_apart {s : GatewayState A} {r : Run gatewayInterface κ (GatewayState A)}
    (hr : Run.From (gatewaySystem G B) s r) (hclock : steadyClock r.past)
    (hroom : neverFull r.past) :
    (reservations r.past).Pairwise fun later earlier =>
      later.1 = earlier.1 → earlier.2 + seconds s.idempotency.ttlSeconds ≤ later.2 := by
  induction hr with
  | start => exact .nil
  | @perform r hr c o env ih =>
      have hroom' : neverFull r.past := (Bool.and_eq_true_iff.mp hroom).2
      have hclock' : steadyClock r.past :=
        decide_eq_true ((of_decide_eq_true hclock).sublist
          ((List.sublist_cons_self ..).filterMap _))
      cases hnew : reservation ⟨o, ((gatewaySystem G B).answer o env r.state).1⟩ with
      | none =>
          have hsame : reservations (r.perform (gatewaySystem G B) c o env).past =
              reservations r.past := List.filterMap_cons_none hnew
          exact hsame ▸ ih hclock' hroom'
      | some new =>
          have hcons : reservations (r.perform (gatewaySystem G B) c o env).past =
              new :: reservations r.past := List.filterMap_cons_some hnew
          rw [hcons]
          refine List.pairwise_cons.mpr ⟨fun earlier hearlier hsame => ?_, ih hclock' hroom'⟩
          obtain ⟨hattempt, hnone, -⟩ := entry_of_reserve hroom hnew
          rcases entry_of_reservation hr hroom' hearlier with ⟨rec, hrec, hage⟩ | ⟨t, ht, hlate⟩
          · -- the entry is still there, so the sweep of this reservation removed it
            rw [← ttlSeconds_of_from hr, ← hage]
            refine Int.not_lt.mp fun hyoung => ?_
            rw [hsame, IdempotencyStore.expire_keeps hrec hyoung] at hnone
            cases hnone
          · -- it was removed by an attempt in between, and the clock went on from there
            have hcons' : ((r.perform (gatewaySystem G B) c o env).past.filterMap
                fun d => attemptedAt d.event) =
                  new.2 :: r.past.filterMap fun d => attemptedAt d.event :=
              List.filterMap_cons_some hattempt
            have hsteady := of_decide_eq_true hclock
            rw [hcons'] at hsteady
            exact Int.le_trans hlate ((List.pairwise_cons.mp hsteady).1 t ht)

/-- In every interleaving of calls, two reservations of one key are a time to live apart and
a call dispatches at most once, on the strength of its own reservation.  A client that sends a
request again only adds a call of the same request. -/
theorem idempotency_at_most_once [DecidableEq κ] {s : GatewayState A} (calls : κ → GatewayCall)
    (schedule : List (κ × Env)) (hclock : steadyClock (G.interleaveCalls B s calls schedule).past)
    (hroom : neverFull (G.interleaveCalls B s calls schedule).past) :
    ((reservations (G.interleaveCalls B s calls schedule).past).Pairwise fun later earlier =>
      later.1 = earlier.1 → earlier.2 + seconds s.idempotency.ttlSeconds ≤ later.2) ∧
    (∀ k, (own k (G.interleaveCalls B s calls schedule).past).countP GatewayEvent.dispatches ≤
        (own k (G.interleaveCalls B s calls schedule).past).countP GatewayEvent.reserves ∧
      (own k (G.interleaveCalls B s calls schedule).past).countP GatewayEvent.reserves ≤ 1) ∧
    ∀ (client : RemoteMcpGatewayClient) (request : GatewayToolRequest),
      (client.callTool request).Uses fun (o : PostOp) => o = .post request := by
  refine ⟨reservations_apart (interleave_from schedule _ .start) hclock hroom, fun k => ?_,
    RemoteMcpGatewayClient.callTool_uses⟩
  obtain ⟨reserved, passed, dispatched, governed, htally, hreserved, hdispatched, -⟩ :=
    interleave_callShape (G := G) (B := B) (s := s) calls schedule k
  rw [htally.dispatched, htally.reserved]
  exact ⟨hdispatched, hreserved⟩

end Reservations

/-! ### A request that is sent three times -/

/-- A request for the status of a device, each time under the same key. -/
def statusPool : ℕ → GatewayCall := fun _ => .callTool
  { restartRequest .operator 1 none with
    toolName := "get_device_status"
    toolName_length := by decide }

/-- The second call comes in while the first is on its way, the third an hour later. -/
def sentAgain : List (ℕ × Env) :=
  turns 0 5 4 ++ turns 1 6 9 ++ turns 0 7 9 ++ turns 2 3605 12

abbrev statusRun : Run gatewayInterface ℕ (GatewayState ApprovalStore) :=
  McpGateway.small.interleaveCalls ApprovalStore.backend .inMemory statusPool sentAgain

theorem idempotency_at_most_once_sentAgain :
    (reservations statusRun.past).length = 2 ∧
      (reservations statusRun.past).Pairwise fun later earlier =>
        later.1 = earlier.1 → earlier.2 + seconds 3600 ≤ later.2 :=
  ⟨by decide,
    (idempotency_at_most_once (G := McpGateway.small) (B := ApprovalStore.backend)
      (s := .inMemory) statusPool sentAgain (by decide) (by decide)).1⟩

end McpOps
