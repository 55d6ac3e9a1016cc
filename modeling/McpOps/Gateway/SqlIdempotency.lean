import McpOps.Gateway.IdempotencyCapacity
import McpOps.Gateway.RemoteClient
import McpOps.Gateway.Replay
import Mathlib.Algebra.Order.Group.Int
import Mathlib.Tactic.Ring

/-!
# The SQLAlchemy idempotency store

The idempotency records as rows of a table, with the status as a text and the response as JSON.
Every row of the table was written by the store, so reading a response back never fails;
`WrittenIdempotencyRow` carries that.  A row that has outlived its time is deleted by the next
reservation that is granted, while a refusal rolls the deletion back.  The table `AgreesWith` the
store in memory when both hold the same records, apart from such rows.

## Strategy

A response is read back as it was written (`responseFromJson_modelDump`), if ids are; a JSON column
gives back what was written to it.  So a written row is answered as its record is
(`answer_ofRecord`).

`AgreesWith` goes through the operations of both stores: `reserve_free` and `reserve_taken`, then
`markRunning` and `complete`.  Two things need more than the records themselves.

* The sweep.  In memory it comes first in every reservation, in the table it may be rolled back, so
  the table may hold more rows than there are records, all of which have outlived their time.
* Eviction.  Both stores lose an oldest record.  It is the same one since records are made one after
  another (`MadeInOrder`), and the record made last is kept (`makeRoom`).
-/

namespace McpOps

/-! ## Responses as JSON -/

/-- `response.model_dump(mode="json")`. -/
def GatewayToolResponse.modelDump (r : GatewayToolResponse) : PyDict :=
  [("ok", .bool r.ok), ("decision", .str r.decision.value),
    ("correlation_id", .str (UUID.str r.correlationId)), ("data", .dict r.data),
    ("error", r.error.elim .null fun error => .dict (error.map fun e => (e.1, .str e.2)))]

/-- `_response_from_json(payload)`. -/
def responseFromJson (rt : Runtime) (payload : PyDict) : Except Exn GatewayToolResponse :=
  gatewayResponseFromJson rt (.dict payload)

/-- `UUID(str(u))` is `u`. -/
structure ReadsUuids (rt : Runtime) : Prop where
  parseUuid_str : ∀ u : UUID, rt.parseUuid (UUID.str u) = some u

theorem textEntries_map_str (error : List (String × String)) :
    textEntries (error.map fun e => (e.1, .str e.2)) = some error := by
  induction error with
  | nil => rfl
  | cons e rest ih => rw [List.map_cons, textEntries, ih, Option.map_some]

/-- A response is read back as it was written. -/
theorem responseFromJson_modelDump {rt : Runtime} (h : ReadsUuids rt) (r : GatewayToolResponse) :
    responseFromJson rt r.modelDump = .ok r := by
  have hdecision : GatewayDecision.ofValue? r.decision.value = some r.decision := by
    cases r.decision <;> decide
  have herror : errorField (some
      (r.error.elim .null fun error => .dict (error.map fun e => (e.1, .str e.2)))) =
        some r.error := by
    cases r.error with
    | none => rfl
    | some error =>
        rw [Option.elim_some, errorField, textEntries_map_str]
        rfl
  simp only [responseFromJson, gatewayResponseFromJson, GatewayToolResponse.modelDump,
    PyDict.get?, List.lookup_cons, List.lookup_nil]
  simp [coerceDecision, coerceCorrelationId, hdecision, h.parseUuid_str, validateResponse,
    PyDict.get?, List.lookup_cons, dictField, herror, responseFields, Except.bind]

/-! ## Rows -/

/-- The text of a status. -/
def IdempotencyOperationStatus.value : IdempotencyOperationStatus → String
  | .reserved => "RESERVED"
  | .running => "RUNNING"
  | .succeeded => "SUCCEEDED"
  | .transientFailed => "TRANSIENT_FAILED"
  | .permanentFailed => "PERMANENT_FAILED"

/-- The texts of the statuses that `reserve` answers from. -/
def terminalStatusTexts : List String := ["SUCCEEDED", "TRANSIENT_FAILED", "PERMANENT_FAILED"]

theorem value_mem_terminalStatusTexts (status : IdempotencyOperationStatus) :
    status.value ∈ terminalStatusTexts ↔ status.terminal = true := by
  cases status <;> decide

/-- A row of `gateway_idempotency_keys`, without its primary key. -/
structure GatewayIdempotencyRow where
  createdAt : Time
  status : String
  responseJson : Option PyDict

/-- The columns of a record. -/
def idempotencyRow (r : IdempotencyRecord) : GatewayIdempotencyRow :=
  ⟨r.createdAt, r.status.value, r.response.map GatewayToolResponse.modelDump⟩

/-- A row that was written from a record. -/
def WrittenIdempotencyRow := { row : GatewayIdempotencyRow // ∃ r, row = idempotencyRow r }

namespace WrittenIdempotencyRow

/-- The row of `r`. -/
def ofRecord (r : IdempotencyRecord) : WrittenIdempotencyRow := ⟨idempotencyRow r, r, rfl⟩

/-- The row of a key that has just been reserved. -/
def reservedAt (now : Time) : WrittenIdempotencyRow := ofRecord { createdAt := now }

/-- The row with `status` running. -/
def running (row : WrittenIdempotencyRow) : WrittenIdempotencyRow where
  val := { row.1 with status := IdempotencyOperationStatus.running.value }
  property := by
    obtain ⟨_, r, rfl⟩ := row
    exact ⟨{ r with status := .running }, rfl⟩

/-- The row with the end of its operation, or a new one. -/
def completed (row : Option WrittenIdempotencyRow) (response : GatewayToolResponse)
    (status : IdempotencyOperationStatus) (now : Time) : WrittenIdempotencyRow where
  val :=
    { createdAt := row.elim now (·.1.createdAt)
      status := status.value
      responseJson := some response.modelDump }
  property := ⟨⟨row.elim now (·.1.createdAt), status, some response⟩, rfl⟩

/-- A response in a written row can be read. -/
theorem isSome_response {rt : Runtime} (reads : ReadsUuids rt) (row : WrittenIdempotencyRow)
    {payload : PyDict} (h : row.1.responseJson = some payload) :
    (responseFromJson rt payload).toOption.isSome := by
  obtain ⟨_, r, rfl⟩ := row
  obtain ⟨response, -, rfl⟩ := Option.map_eq_some_iff.mp h
  rw [responseFromJson_modelDump reads]
  rfl

/-- The response in a row. -/
def response {rt : Runtime} (reads : ReadsUuids rt) (row : WrittenIdempotencyRow)
    (payload : PyDict) (h : row.1.responseJson = some payload) : GatewayToolResponse :=
  (responseFromJson rt payload).toOption.get (row.isSome_response reads h)

/-- What `reserve` makes of the row of its key. -/
def answer {rt : Runtime} (reads : ReadsUuids rt) (row : WrittenIdempotencyRow) :
    Except GatewayError (Option GatewayToolResponse) :=
  let duplicate := ⟨.duplicateOperation, "Duplicate operation idempotency key."⟩
  match h : row.1.responseJson with
  | some payload =>
      if row.1.status ∈ terminalStatusTexts ∧ payload ≠ [] then
        .ok (some (row.response reads payload h))
      else .error duplicate
  | none => .error duplicate

/-- The row of a record is answered as the record is. -/
theorem answer_ofRecord {rt : Runtime} (reads : ReadsUuids rt) (r : IdempotencyRecord) :
    (ofRecord r).answer reads =
      if r.status.terminal then
        r.response.elim
          (.error ⟨.duplicateOperation, "Duplicate operation idempotency key."⟩)
          fun response => .ok (some response)
      else .error ⟨.duplicateOperation, "Duplicate operation idempotency key."⟩ := by
  obtain ⟨createdAt, status, response⟩ := r
  cases response with
  | none =>
      rw [answer]
      split
      · rename_i payload h
        cases h
      · simp
  | some response =>
      have hread := responseFromJson_modelDump reads response
      rw [answer]
      split
      · rename_i payload h
        obtain rfl : response.modelDump = payload := Option.some.inj h
        have hne : response.modelDump ≠ [] := List.cons_ne_nil _ _
        by_cases hterminal : status.terminal = true
        · rw [if_pos ⟨(value_mem_terminalStatusTexts status).mpr hterminal, hne⟩, if_pos hterminal]
          simp [WrittenIdempotencyRow.response, hread, Except.toOption]
        · rw [if_neg fun h => hterminal ((value_mem_terminalStatusTexts status).mp h.1),
            if_neg hterminal]
      · rename_i h
        cases h

end WrittenIdempotencyRow

/-! ## The store -/

/-- The committed rows under their primary keys. -/
structure SqlAlchemyIdempotencyStore where
  ttlSeconds : ℤ := 3600
  maxEntries : ℕ := 10000
  rows : Dict IdempotencyKey WrittenIdempotencyRow := Dict.empty

namespace SqlAlchemyIdempotencyStore

/-- The rows that are left when those created `ttl_seconds` ago or earlier are deleted. -/
def unexpired (now : Time) (s : SqlAlchemyIdempotencyStore) :
    Dict IdempotencyKey WrittenIdempotencyRow :=
  s.rows.filter fun _ row => ¬ row.1.createdAt ≤ now - seconds s.ttlSeconds

/-- The rows without the oldest ones, so many as there are more than `maxEntries`; rows of one
time in the order they were added. -/
def deleteOverflow (maxEntries : ℕ) (rows : Dict IdempotencyKey WrittenIdempotencyRow) :
    Dict IdempotencyKey WrittenIdempotencyRow :=
  if maxEntries < rows.size then
    let oldest := rows.entries.mergeSort fun a b => a.2.1.createdAt ≤ b.2.1.createdAt
    (oldest.take (rows.size - maxEntries)).foldl (fun rows e => rows.erase e.1) rows
  else rows

/-- `reserve(principal, idempotency_key, now)`: what finds its key taken is not committed. -/
def reserve {rt : Runtime} (reads : ReadsUuids rt) (principal : Principal)
    (idempotencyKey : String) (now : Time) (s : SqlAlchemyIdempotencyStore) :
    Except GatewayError (Option GatewayToolResponse) × SqlAlchemyIdempotencyStore :=
  let key := (principal.principalId, idempotencyKey)
  match (s.unexpired now).get? key with
  | some existing => (existing.answer reads, s)
  | none =>
      (.ok none,
        { s with
          rows := deleteOverflow s.maxEntries ((s.unexpired now).set key (.reservedAt now)) })

/-- `mark_running(principal, idempotency_key, now)`. -/
def markRunning (principal : Principal) (idempotencyKey : String)
    (s : SqlAlchemyIdempotencyStore) : SqlAlchemyIdempotencyStore :=
  match s.rows.get? (principal.principalId, idempotencyKey) with
  | some row => { s with rows := s.rows.set (principal.principalId, idempotencyKey) row.running }
  | none => s

/-- `complete(principal, idempotency_key, response, status, now)`. -/
def complete (principal : Principal) (idempotencyKey : String) (response : GatewayToolResponse)
    (status : IdempotencyOperationStatus) (now : Time) (s : SqlAlchemyIdempotencyStore) :
    SqlAlchemyIdempotencyStore :=
  let key := (principal.principalId, idempotencyKey)
  { s with rows := s.rows.set key (.completed (s.rows.get? key) response status now) }

end SqlAlchemyIdempotencyStore

/-! ## The table and the store in memory -/

/-- The rows are those of the records. -/
def Mirrors (rows : Dict IdempotencyKey WrittenIdempotencyRow)
    (keys : Dict IdempotencyKey IdempotencyRecord) : Prop :=
  ∀ key, rows.get? key = (keys.get? key).map .ofRecord

theorem Mirrors.set {rows : Dict IdempotencyKey WrittenIdempotencyRow}
    {keys : Dict IdempotencyKey IdempotencyRecord} (h : Mirrors rows keys) (key : IdempotencyKey)
    (record : IdempotencyRecord) :
    Mirrors (rows.set key (.ofRecord record)) (keys.set key record) := by
  intro key'
  rw [Dict.get?_set, Dict.get?_set]
  split
  · rfl
  · exact h key'

theorem Mirrors.erase {rows : Dict IdempotencyKey WrittenIdempotencyRow}
    {keys : Dict IdempotencyKey IdempotencyRecord} (h : Mirrors rows keys) (key : IdempotencyKey) :
    Mirrors (rows.erase key) (keys.erase key) := by
  intro key'
  rw [Dict.get?_erase, Dict.get?_erase]
  split
  · rfl
  · exact h key'

theorem Mirrors.size_eq {rows : Dict IdempotencyKey WrittenIdempotencyRow}
    {keys : Dict IdempotencyKey IdempotencyRecord} (h : Mirrors rows keys) :
    rows.size = keys.size := by
  refine Dict.size_eq_of_keys fun key => not_iff_not.mp ?_
  rw [← Dict.get?_eq_none_iff, ← Dict.get?_eq_none_iff, h key, Option.map_eq_none_iff]

/-- Up to `last` the records were made one after another. -/
structure MadeInOrder (last : Time) (keys : Dict IdempotencyKey IdempotencyRecord) : Prop where
  early : ∀ key record, keys.get? key = some record → record.createdAt ≤ last
  distinct : ∀ key key' record record', keys.get? key = some record →
    keys.get? key' = some record' → record.createdAt = record'.createdAt → key = key'

/-- Both hold the same records, made one after another up to `last`, and as many as there is room
for.  Rows without a record have outlived their time. -/
structure IdempotencyStore.AgreesWith (last : Time) (s : IdempotencyStore)
    (t : SqlAlchemyIdempotencyStore) : Prop where
  ttlSeconds : t.ttlSeconds = s.ttlSeconds
  maxEntries : t.maxEntries = s.maxEntries
  size_le : s.keys.size ≤ s.maxEntries
  stored : ∀ key record, s.keys.get? key = some record → t.rows.get? key = some (.ofRecord record)
  stale : ∀ key row, t.rows.get? key = some row → s.keys.get? key = none →
    row.1.createdAt ≤ last - seconds s.ttlSeconds
  inOrder : MadeInOrder last s.keys

/-! ### The oldest record -/

/-- The key that is evicted is that of a record that no other is older than. -/
theorem IdempotencyStore.oldestKey_least {entries : List (IdempotencyKey × IdempotencyRecord)}
    {key : IdempotencyKey} (h : oldestKey entries = some key) :
    ∃ record, (key, record) ∈ entries ∧ ∀ e ∈ entries, record.createdAt ≤ e.2.createdAt := by
  -- `min` keeps the first least entry it has seen
  have hfold : ∀ (rest : List (IdempotencyKey × IdempotencyRecord)) (e),
      let m := rest.foldl (fun m e => if e.2.createdAt < m.2.createdAt then e else m) e
      m ∈ e :: rest ∧ ∀ d ∈ e :: rest, m.2.createdAt ≤ d.2.createdAt := by
    intro rest
    induction rest with
    | nil =>
        intro e
        refine ⟨List.mem_cons_self .., fun d hd => ?_⟩
        rw [List.mem_singleton.mp hd]
        exact le_rfl
    | cons d rest ih =>
        intro e
        rw [List.foldl_cons]
        split
        · next hlt =>
          obtain ⟨hmem, hleast⟩ := ih d
          refine ⟨List.mem_cons_of_mem _ hmem, fun x hx => ?_⟩
          rcases List.mem_cons.mp hx with rfl | hx
          · exact (hleast d (List.mem_cons_self ..)).trans hlt.le
          · exact hleast x hx
        · next hge =>
          obtain ⟨hmem, hleast⟩ := ih e
          refine ⟨?_, fun x hx => ?_⟩
          · rcases List.mem_cons.mp hmem with heq | hmem
            · rw [heq]
              exact List.mem_cons_self ..
            · exact List.mem_cons_of_mem _ (List.mem_cons_of_mem _ hmem)
          · rcases List.mem_cons.mp hx with rfl | hx
            · exact hleast x (List.mem_cons_self ..)
            · rcases List.mem_cons.mp hx with rfl | hx
              · exact (hleast e (List.mem_cons_self ..)).trans (not_lt.mp hge)
              · exact hleast x (List.mem_cons_of_mem _ hx)
  cases entries with
  | nil => cases h
  | cons e rest =>
      cases h
      exact ⟨_, (hfold rest e).1, (hfold rest e).2⟩

/-- One row too many costs one that no other is older than. -/
theorem SqlAlchemyIdempotencyStore.deleteOverflow_of_size {maxEntries : ℕ}
    {rows : Dict IdempotencyKey WrittenIdempotencyRow} (hsize : rows.size = maxEntries + 1) :
    ∃ key row, rows.get? key = some row ∧
      (∀ key' row', rows.get? key' = some row' → row.1.createdAt ≤ row'.1.createdAt) ∧
      deleteOverflow maxEntries rows = rows.erase key := by
  set le : IdempotencyKey × WrittenIdempotencyRow → IdempotencyKey × WrittenIdempotencyRow → Bool :=
    fun a b => decide (a.2.1.createdAt ≤ b.2.1.createdAt) with hle
  have hperm : (rows.entries.mergeSort le).Perm rows.entries := List.mergeSort_perm ..
  have hsorted : (rows.entries.mergeSort le).Pairwise fun a b => le a b = true := by
    refine List.pairwise_mergeSort (fun a b c hab hbc => ?_) (fun a b => ?_) _
    · exact decide_eq_true ((of_decide_eq_true hab).trans (of_decide_eq_true hbc))
    · simpa [hle] using le_total a.2.1.createdAt b.2.1.createdAt
  -- one row is too many, and the first of the sorted ones goes
  cases hoverflow : rows.entries.mergeSort le with
  | nil =>
      have hlength := hperm.length_eq
      rw [hoverflow] at hlength
      have hnone : rows.entries.length = maxEntries + 1 := hsize
      simp [hnone] at hlength
  | cons e rest =>
      rw [hoverflow] at hperm hsorted
      refine ⟨e.1, e.2, Dict.get?_eq_some_iff.mpr (hperm.subset (List.mem_cons_self ..)), ?_, ?_⟩
      · intro key' row' hrow
        have hmem := hperm.symm.subset (Dict.get?_eq_some_iff.mp hrow)
        rcases List.mem_cons.mp hmem with heq | hmem
        · rw [← heq]
        · exact of_decide_eq_true ((List.pairwise_cons.mp hsorted).1 _ hmem)
      · have hone : rows.size - maxEntries = 1 := by omega
        rw [deleteOverflow, if_pos (by omega), hone]
        simp only [← hle, hoverflow]
        rfl

namespace IdempotencyStore.AgreesWith

variable {last now : Time} {s : IdempotencyStore} {t : SqlAlchemyIdempotencyStore}
  {principal : Principal} {idempotencyKey : String}

/-- Later on they agree as well. -/
theorem mono (h : AgreesWith last s t) (hle : last ≤ now) : AgreesWith now s t where
  ttlSeconds := h.ttlSeconds
  maxEntries := h.maxEntries
  size_le := h.size_le
  stored := h.stored
  stale key row hrow hnone := (h.stale key row hrow hnone).trans (Int.sub_le_sub_right hle _)
  inOrder :=
    ⟨fun key record hrecord => (h.inOrder.early key record hrecord).trans hle, h.inOrder.distinct⟩

/-- What the deletion leaves in the table is what the sweep leaves in memory. -/
theorem mirrors_unexpired (h : AgreesWith last s t) (hle : last ≤ now) :
    Mirrors (t.unexpired now) (s.expire now).keys := by
  intro key
  rw [SqlAlchemyIdempotencyStore.unexpired, Dict.get?_filter, get?_expire, h.ttlSeconds]
  cases hrecord : s.keys.get? key with
  | some record =>
      rw [h.stored key record hrecord, Option.filter_some, Option.filter_some]
      by_cases hold : record.createdAt ≤ now - seconds s.ttlSeconds
      · simp [WrittenIdempotencyRow.ofRecord, idempotencyRow, hold]
      · simp [WrittenIdempotencyRow.ofRecord, idempotencyRow, hold]
  | none =>
      cases hrow : t.rows.get? key with
      | none => rfl
      | some row =>
          -- a row without a record has outlived its time
          have hold : row.1.createdAt ≤ now - seconds s.ttlSeconds :=
            (h.mono hle).stale key row hrow hrecord
          simp [Option.filter_some, hold]

/-- The sweep in memory leaves stores that agree. -/
theorem expire (h : AgreesWith last s t) (hle : last ≤ now) : AgreesWith now (s.expire now) t where
  ttlSeconds := h.ttlSeconds
  maxEntries := h.maxEntries
  size_le := (size_expire_le now s).trans h.size_le
  stored key record hrecord := h.stored key record (of_get?_expire hrecord)
  stale key row hrow hnone := by
    cases hrecord : s.keys.get? key with
    | none => exact (h.mono hle).stale key row hrow hrecord
    | some record =>
        rw [h.stored key record hrecord, Option.some.injEq] at hrow
        subst hrow
        rw [get?_expire, hrecord, Option.filter_some] at hnone
        split at hnone
        · cases hnone
        · next hold =>
          have hold' : record.createdAt ≤ now - seconds s.ttlSeconds := by
            simpa using hold
          exact hold'
  inOrder := by
    have hlater := (h.mono hle).inOrder
    exact ⟨fun key record hrecord => hlater.early key record (of_get?_expire hrecord),
      fun key key' record record' hrecord hrecord' =>
        hlater.distinct key key' record record' (of_get?_expire hrecord) (of_get?_expire hrecord')⟩

/-- Stores that hold the same agree. -/
theorem of_mirrors (httl : t.ttlSeconds = s.ttlSeconds) (hmax : t.maxEntries = s.maxEntries)
    (hsize : s.keys.size ≤ s.maxEntries) (hmirrors : Mirrors t.rows s.keys)
    (horder : MadeInOrder last s.keys) : AgreesWith last s t where
  ttlSeconds := httl
  maxEntries := hmax
  size_le := hsize
  stored key record hrecord := by rw [hmirrors key, hrecord, Option.map_some]
  stale key row hrow hnone := by
    rw [hmirrors key, hnone] at hrow
    cases hrow
  inOrder := horder

/-- A new record is made after the others. -/
theorem madeInOrder_set {keys : Dict IdempotencyKey IdempotencyRecord} (h : MadeInOrder last keys)
    (hlt : last < now) (key : IdempotencyKey) :
    MadeInOrder now (keys.set key { createdAt := now }) where
  early key' record hrecord := by
    rw [Dict.get?_set] at hrecord
    split at hrecord
    · cases hrecord
      exact le_rfl
    · exact (h.early key' record hrecord).trans hlt.le
  distinct key₁ key₂ record₁ record₂ h₁ h₂ heq := by
    rw [Dict.get?_set] at h₁ h₂
    split at h₁ <;> split at h₂
    · next hkey₁ hkey₂ => rw [hkey₁, hkey₂]
    · cases h₁
      have hearly : now ≤ last := heq.le.trans (h.early key₂ record₂ h₂)
      exact absurd hearly (not_le.mpr hlt)
    · cases h₂
      have hearly : now ≤ last := heq.ge.trans (h.early key₁ record₁ h₁)
      exact absurd hearly (not_le.mpr hlt)
    · exact h.distinct key₁ key₂ record₁ record₂ h₁ h₂ heq

/-- With a record too many, both lose the same one, and not the one made last. -/
theorem evict {rows : Dict IdempotencyKey WrittenIdempotencyRow} {u : IdempotencyStore}
    (hmirrors : Mirrors rows u.keys) (horder : MadeInOrder now u.keys)
    (hsize : u.keys.size = u.maxEntries + 1) :
    ∃ key record, u.keys.get? key = some record ∧
      (∀ key' record', u.keys.get? key' = some record' → record.createdAt ≤ record'.createdAt) ∧
      u.evictOldestIfNeeded = { u with keys := u.keys.erase key } ∧
      SqlAlchemyIdempotencyStore.deleteOverflow u.maxEntries rows = rows.erase key := by
  have hentries : u.keys.entries ≠ [] := by
    intro hnil
    rw [Dict.size, hnil] at hsize
    exact absurd hsize (Nat.succ_ne_zero _).symm
  obtain ⟨key, hkey⟩ := exists_oldestKey hentries
  obtain ⟨record, hmem, hleast⟩ := oldestKey_least hkey
  have hrecord : u.keys.get? key = some record := Dict.get?_eq_some_iff.mpr hmem
  obtain ⟨key', row, hrow, hleast', hdeleted⟩ :=
    SqlAlchemyIdempotencyStore.deleteOverflow_of_size (hmirrors.size_eq.trans hsize)
  obtain ⟨record', hrecord', rfl⟩ := Option.map_eq_some_iff.mp (hmirrors key' ▸ hrow)
  -- both are the oldest, and no two records are equally old
  have hle : record.createdAt ≤ record'.createdAt := hleast _ (Dict.get?_eq_some_iff.mp hrecord')
  have hge : record'.createdAt ≤ record.createdAt :=
    hleast' key (.ofRecord record) (by rw [hmirrors key, hrecord, Option.map_some])
  have hsame : key = key' :=
    horder.distinct key key' record record' hrecord hrecord' (le_antisymm hle hge)
  refine ⟨key, record, hrecord, fun k r hk => hleast _ (Dict.get?_eq_some_iff.mp hk),
    evictOldestIfNeeded_of_size hsize hkey, ?_⟩
  rw [hdeleted, hsame]

/-- Making room for a new record keeps it, and leaves what mirrors each other. -/
theorem makeRoom {rows : Dict IdempotencyKey WrittenIdempotencyRow} {u : IdempotencyStore}
    {key : IdempotencyKey} (hmirrors : Mirrors rows u.keys) (horder : MadeInOrder now u.keys)
    (hnew : u.keys.get? key = some { createdAt := now }) (hsize : u.keys.size ≤ u.maxEntries + 1)
    (hother : u.maxEntries < u.keys.size →
      ∃ other record, other ≠ key ∧ u.keys.get? other = some record) :
    AgreesWith now u.evictOldestIfNeeded
        { ttlSeconds := u.ttlSeconds
          maxEntries := u.maxEntries
          rows := SqlAlchemyIdempotencyStore.deleteOverflow u.maxEntries rows } ∧
      (u.evictOldestIfNeeded.keys.get? key).isSome := by
  by_cases hfull : u.maxEntries < u.keys.size
  · have hover : u.keys.size = u.maxEntries + 1 := by omega
    obtain ⟨oldest, record, hrecord, hleast, hevicted, hdeleted⟩ := evict hmirrors horder hover
    obtain ⟨other, older, hne, holder⟩ := hother hfull
    -- the other record is older than the new one
    have hkept : key ≠ oldest := by
      rintro rfl
      obtain rfl := Option.some.inj (hnew.symm.trans hrecord)
      have hsame := le_antisymm (horder.early other older holder) (hleast other older holder)
      exact hne (horder.distinct other key older _ holder hnew hsame)
    have hless : (u.keys.erase oldest).size ≤ u.maxEntries := by
      have := Dict.size_erase_of_mem (d := u.keys) (mem_keys_of_get? hrecord)
      omega
    have hbefore : ∀ k r, (u.keys.erase oldest).get? k = some r → u.keys.get? k = some r := by
      intro k r hk
      rw [Dict.get?_erase] at hk
      split at hk
      · cases hk
      · exact hk
    rw [hevicted, hdeleted]
    refine ⟨of_mirrors rfl rfl hless (hmirrors.erase oldest) ⟨?_, ?_⟩, ?_⟩
    · exact fun k r hk => horder.early k r (hbefore k r hk)
    · exact fun k k' r r' hk hk' =>
        horder.distinct k k' r r' (hbefore k r hk) (hbefore k' r' hk')
    · rw [Dict.get?_erase, if_neg hkept, hnew]
      rfl
  · have hkept : u.evictOldestIfNeeded = u := by
      rw [evictOldestIfNeeded]
      cases u.keys.size with
      | zero => rfl
      | succ n => rw [IdempotencyStore.evict, if_neg hfull]
    rw [hkept, SqlAlchemyIdempotencyStore.deleteOverflow, if_neg (hmirrors.size_eq ▸ hfull), hnew]
    exact ⟨of_mirrors rfl rfl (not_lt.mp hfull) hmirrors horder, rfl⟩

/-- Both grant a key that is free. -/
theorem reserve_free {rt : Runtime} (h : AgreesWith last s t) (reads : ReadsUuids rt)
    (hlt : last < now) (hmax : 0 < s.maxEntries)
    (hfree : (s.expire now).keys.get? (principal.principalId, idempotencyKey) = none) :
    (t.reserve reads principal idempotencyKey now).1 = .ok none ∧
      AgreesWith now (s.reserve principal idempotencyKey now).2
        (t.reserve reads principal idempotencyKey now).2 ∧
      ((s.reserve principal idempotencyKey now).2.keys.get?
        (principal.principalId, idempotencyKey)).isSome := by
  set key := (principal.principalId, idempotencyKey) with hkeyName
  have hmirrors := h.mirrors_unexpired hlt.le
  have hnotMem : key ∉ (s.expire now).keys.keys := Dict.get?_eq_none_iff.mp hfree
  have hrow : (t.unexpired now).get? key = none := by
    rw [hmirrors key, hfree, Option.map_none]
  set u := (s.expire now).insertReservation principal idempotencyKey now with hu
  have hmemory : s.reserve principal idempotencyKey now = (.ok none, u.evictOldestIfNeeded) :=
    reserve_of_notMem hnotMem
  have htable : t.reserve reads principal idempotencyKey now =
      (.ok none,
        { ttlSeconds := u.ttlSeconds
          maxEntries := u.maxEntries
          rows := SqlAlchemyIdempotencyStore.deleteOverflow u.maxEntries
            ((t.unexpired now).set key (.reservedAt now)) }) := by
    simp only [SqlAlchemyIdempotencyStore.reserve, ← hkeyName, hrow, h.maxEntries, h.ttlSeconds]
    rfl
  have hswept : MadeInOrder last (s.expire now).keys :=
    ⟨fun k r hr => h.inOrder.early k r (of_get?_expire hr),
      fun k k' r r' hr hr' =>
        h.inOrder.distinct k k' r r' (of_get?_expire hr) (of_get?_expire hr')⟩
  have hsize : u.keys.size = (s.expire now).keys.size + 1 := Dict.size_set_of_notMem hnotMem _
  have hroom : (s.expire now).keys.size ≤ s.maxEntries := (size_expire_le now s).trans h.size_le
  rw [hmemory, htable]
  refine ⟨rfl, makeRoom (hmirrors.set key _) (madeInOrder_set hswept hlt key)
    (Dict.get?_set_self ..) (hsize ▸ Nat.succ_le_succ hroom) fun hfull => ?_⟩
  -- when the store overflows it holds an older entry, so the new one stays
  have hpos : 0 < (s.expire now).keys.size := by
    have hover : s.maxEntries < (s.expire now).keys.size + 1 := hsize ▸ hfull
    omega
  obtain ⟨e, rest, he⟩ := List.exists_cons_of_length_pos hpos
  have hother : (s.expire now).keys.get? e.1 = some e.2 :=
    Dict.get?_eq_some_iff.mpr (he ▸ List.mem_cons_self ..)
  have hne : e.1 ≠ key := by
    intro heq
    rw [heq, hfree] at hother
    cases hother
  exact ⟨e.1, e.2, hne, (Dict.get?_set_of_ne hne _ _).trans hother⟩

/-- Both refuse a key that is taken, or answer from its record. -/
theorem reserve_taken {rt : Runtime} (h : AgreesWith last s t) (reads : ReadsUuids rt)
    (hlt : last < now) {existing : IdempotencyRecord}
    (htaken : (s.expire now).keys.get? (principal.principalId, idempotencyKey) = some existing) :
    (s.reserve principal idempotencyKey now).1 =
        (t.reserve reads principal idempotencyKey now).1 ∧
      AgreesWith now (s.reserve principal idempotencyKey now).2
        (t.reserve reads principal idempotencyKey now).2 := by
  have hrow : (t.unexpired now).get? (principal.principalId, idempotencyKey) =
      some (.ofRecord existing) := by
    rw [h.mirrors_unexpired hlt.le, htaken, Option.map_some]
  have htable : t.reserve reads principal idempotencyKey now =
      ((WrittenIdempotencyRow.ofRecord existing).answer reads, t) := by
    simp only [SqlAlchemyIdempotencyStore.reserve, hrow]
  rw [htable, (reserve_of_mem (mem_keys_of_get? htaken)).2, WrittenIdempotencyRow.answer_ofRecord]
  refine ⟨?_, h.expire hlt.le⟩
  simp only [IdempotencyStore.reserve, htaken]
  cases existing.status.terminal <;> cases existing.response <;> rfl

/-- Both answer an attempt to reserve a key alike, and a key that is granted is held. -/
theorem reserve {rt : Runtime} (h : AgreesWith last s t) (reads : ReadsUuids rt) (hlt : last < now)
    (hmax : 0 < s.maxEntries) :
    (s.reserve principal idempotencyKey now).1 =
        (t.reserve reads principal idempotencyKey now).1 ∧
      AgreesWith now (s.reserve principal idempotencyKey now).2
        (t.reserve reads principal idempotencyKey now).2 ∧
      ((s.reserve principal idempotencyKey now).1 = .ok none →
        ((s.reserve principal idempotencyKey now).2.keys.get?
          (principal.principalId, idempotencyKey)).isSome) := by
  cases hexisting : (s.expire now).keys.get? (principal.principalId, idempotencyKey) with
  | some existing =>
      obtain ⟨hsame, hstate⟩ := h.reserve_taken reads hlt hexisting
      refine ⟨hsame, hstate, fun hnone => absurd hnone ?_⟩
      exact (reserve_of_mem (mem_keys_of_get? hexisting)).1
  | none =>
      obtain ⟨hanswer, hstate, hheld⟩ := h.reserve_free reads hlt hmax hexisting
      refine ⟨?_, hstate, fun _ => hheld⟩
      rw [hanswer, reserve_of_notMem (Dict.get?_eq_none_iff.mp hexisting)]

/-- A change of a held record that keeps its time, made in both. -/
theorem set (h : AgreesWith last s t) {key : IdempotencyKey} {record : IdempotencyRecord}
    (record' : IdempotencyRecord) (hheld : s.keys.get? key = some record)
    (htime : record'.createdAt = record.createdAt) :
    AgreesWith last { s with keys := s.keys.set key record' }
      { t with rows := t.rows.set key (.ofRecord record') } where
  ttlSeconds := h.ttlSeconds
  maxEntries := h.maxEntries
  size_le := by
    rw [Dict.size_set_of_mem (mem_keys_of_get? hheld)]
    exact h.size_le
  stored key' r hr := by
    rw [Dict.get?_set] at hr ⊢
    split at hr
    · next heq =>
      rw [if_pos heq, Option.some.inj hr]
    · next hne =>
      rw [if_neg hne]
      exact h.stored key' r hr
  stale key' row hrow hnone := by
    rw [Dict.get?_set] at hrow hnone
    split at hnone
    · cases hnone
    · next hne =>
      rw [if_neg hne] at hrow
      exact h.stale key' row hrow hnone
  inOrder := by
    -- under every key the time is as it was
    have hbefore : ∀ k r, (s.keys.set key record').get? k = some r →
        ∃ r₀, s.keys.get? k = some r₀ ∧ r₀.createdAt = r.createdAt := by
      intro k r hr
      rw [Dict.get?_set] at hr
      split at hr
      · next heq =>
        cases hr
        exact ⟨record, heq ▸ hheld, htime.symm⟩
      · exact ⟨r, hr, rfl⟩
    refine ⟨fun k r hr => ?_, fun k k' r r' hr hr' heq => ?_⟩
    · obtain ⟨r₀, hr₀, hsame⟩ := hbefore k r hr
      exact hsame ▸ h.inOrder.early k r₀ hr₀
    · obtain ⟨r₀, hr₀, hsame⟩ := hbefore k r hr
      obtain ⟨r₀', hr₀', hsame'⟩ := hbefore k' r' hr'
      exact h.inOrder.distinct k k' r₀ r₀' hr₀ hr₀' (by rw [hsame, hsame', heq])

/-- A held key is marked in both. -/
theorem markRunning (h : AgreesWith last s t)
    (hheld : (s.keys.get? (principal.principalId, idempotencyKey)).isSome) :
    AgreesWith last (s.markRunning principal idempotencyKey)
      (t.markRunning principal idempotencyKey) := by
  obtain ⟨record, hrecord⟩ := Option.isSome_iff_exists.mp hheld
  rw [IdempotencyStore.markRunning, SqlAlchemyIdempotencyStore.markRunning]
  simp only [hrecord, h.stored _ _ hrecord]
  exact h.set { record with status := .running } hrecord rfl

/-- The operation of a held key is completed in both. -/
theorem complete (h : AgreesWith last s t)
    (hheld : (s.keys.get? (principal.principalId, idempotencyKey)).isSome)
    (response : GatewayToolResponse) (status : IdempotencyOperationStatus) (completedAt : Time) :
    AgreesWith last (s.complete principal idempotencyKey response status completedAt)
      (t.complete principal idempotencyKey response status completedAt) := by
  obtain ⟨record, hrecord⟩ := Option.isSome_iff_exists.mp hheld
  rw [IdempotencyStore.complete, SqlAlchemyIdempotencyStore.complete]
  simp only [hrecord, h.stored _ _ hrecord]
  exact h.set ⟨record.createdAt, status, some response⟩ hrecord rfl

end IdempotencyStore.AgreesWith

/-! ### Identifiers of small examples -/

theorem foldlM_hexDigits (width n init : ℕ) :
    (hexDigits width n).foldlM (fun m c => (hexDigit? c).map (16 * m + ·)) init =
      some (init * 16 ^ width + n % 16 ^ width) := by
  have hdigit : ∀ d < 16, hexDigit? (Nat.digitChar d) = some d := by decide
  induction width generalizing n with
  | zero => simp [hexDigits, Nat.mod_one]
  | succ width ih =>
      have hlast := hdigit (n % 16) (Nat.mod_lt n (Nat.succ_pos 15))
      have hsplit : n % 16 ^ (width + 1) = n % 16 + 16 * (n / 16 % 16 ^ width) := by
        rw [Nat.pow_succ', Nat.mod_mul]
      rw [hexDigits, List.foldlM_append, ih]
      simp only [Option.bind_eq_bind, Option.bind_some, List.foldlM_cons, List.foldlM_nil, hlast,
        Option.map_some, Option.pure_def, Option.some.injEq]
      rw [hsplit, Nat.pow_succ']
      ring

theorem dash_notMem_hexDigits (width n : ℕ) : '-' ∉ hexDigits width n := by
  have hdigit : ∀ d < 16, '-' ≠ Nat.digitChar d := by decide
  induction width generalizing n with
  | zero => exact List.not_mem_nil
  | succ width ih =>
      rw [hexDigits, List.mem_append, List.mem_singleton, not_or]
      exact ⟨ih (n / 16), hdigit (n % 16) (Nat.mod_lt n (Nat.succ_pos 15))⟩

/-- Without the dashes, groups of digits are the digits. -/
theorem filter_groups {l : List Char} (hlength : l.length = 32) (hdash : '-' ∉ l) :
    ((l.drop 0).take 8 ++ ['-'] ++ (l.drop 8).take 4 ++ ['-'] ++ (l.drop 12).take 4 ++ ['-'] ++
      (l.drop 16).take 4 ++ ['-'] ++ (l.drop 20).take 12).filter (· ≠ '-') = l := by
  have hgroup : ∀ first size,
      ((l.drop first).take size).filter (· ≠ '-') = (l.drop first).take size := by
    intro first size
    refine List.filter_eq_self.mpr fun c hc => decide_eq_true ?_
    rintro rfl
    exact hdash (List.mem_of_mem_drop (List.mem_of_mem_take hc))
  have hnone : ['-'].filter (· ≠ '-') = [] := by decide
  simp only [List.filter_append, hgroup, hnone, List.append_nil]
  simp only [List.append_assoc]
  exact (eq_groups hlength).symm

theorem readsUuids_plain : ReadsUuids .plain where
  parseUuid_str u := by
    have hlength := length_hexDigits 32 u.toNat
    have htext : (UUID.str u).toList.filter (· ≠ '-') = hexDigits 32 u.toNat := by
      simp only [UUID.str, String.toList_append, String.toList_ofList]
      exact filter_groups hlength (dash_notMem_hexDigits 32 u.toNat)
    have hlt : u.toNat % 16 ^ 32 = u.toNat := Nat.mod_eq_of_lt u.isLt
    simp only [Runtime.plain, htext, hlength, if_true, foldlM_hexDigits, Nat.zero_mul,
      Nat.zero_add, hlt, Option.map_some, BitVec.ofNat_toNat, BitVec.setWidth_eq]

end McpOps
