import McpOps.Gateway.Replay

/-!
# The capacity of the idempotency store

`reserve` makes room by removing the oldest record, whatever its status, and `complete` stores
its record without making room.  So the store stays within `max_entries` and keeps what is in
flight as long as the oldest record of a full store is that of a completed operation, and
no completion comes to a full store that has lost its key.

## Strategy

`KeepsInFlight` is what the capacity promises about one operation, and `Fits` the condition on the
operation and the store that it meets.  The two are compared for one operation
(`keepsInFlight_iff_fits`), in both directions, by what kind of key comes to what kind of store.

* A present key is refused or answered, and the store is only swept (`reserve_of_mem`).
* A new key that comes to a store with room is reserved (`keepsInFlight_of_room`).
* A new key that comes to a full store takes the place of the oldest record, so all depends on that
  record (`keepsInFlight_iff_of_full`).

For a run the comparison is made at every step (`holdsCapacity_iff_fits`).  That no key is reserved
twice follows from what is kept: an open record stays open and keeps its age (`keeps_open`), so the
second reservation finds it (`neverReservedTwice_of_keepsInFlight`).
-/

namespace McpOps

/-! ## Operations -/

inductive IdempotencyOp where
  | reserve (principal : Principal) (idempotencyKey : String) (now : Time)
  | markRunning (principal : Principal) (idempotencyKey : String)
  | complete (principal : Principal) (idempotencyKey : String) (response : GatewayToolResponse)
      (status : IdempotencyOperationStatus) (now : Time)

/-- The store after an operation. -/
def IdempotencyOp.perform : IdempotencyOp → IdempotencyStore → IdempotencyStore
  | .reserve principal idempotencyKey now, s => (s.reserve principal idempotencyKey now).2
  | .markRunning principal idempotencyKey, s => s.markRunning principal idempotencyKey
  | .complete principal idempotencyKey response status now, s =>
      s.complete principal idempotencyKey response status now

/-- The store after several operations. -/
def performAll (s : IdempotencyStore) (ops : List IdempotencyOp) : IdempotencyStore :=
  ops.foldl (fun s op => op.perform s) s

theorem performAll_append (s : IdempotencyStore) (ops later : List IdempotencyOp) :
    performAll s (ops ++ later) = performAll (performAll s ops) later :=
  List.foldl_append ..

/-- `P` holds of every operation and the store it meets. -/
def AtEveryStep (P : IdempotencyOp → IdempotencyStore → Prop) :
    IdempotencyStore → List IdempotencyOp → Prop
  | _, [] => True
  | s, op :: rest => P op s ∧ AtEveryStep P (op.perform s) rest

theorem atEveryStep_append {P : IdempotencyOp → IdempotencyStore → Prop} {s : IdempotencyStore}
    {ops later : List IdempotencyOp} :
    AtEveryStep P s (ops ++ later) ↔
      AtEveryStep P s ops ∧ AtEveryStep P (performAll s ops) later := by
  induction ops generalizing s with
  | nil => simp [AtEveryStep, performAll]
  | cons op rest ih => rw [List.cons_append, AtEveryStep, AtEveryStep, ih, and_assoc]; rfl

/-- The time at which an operation sweeps the store, if it does. -/
def IdempotencyOp.sweptAt : IdempotencyOp → Option Time
  | .reserve _ _ now => some now
  | _ => none

/-- An operation completes a key. -/
def IdempotencyOp.Completes (key : IdempotencyKey) : IdempotencyOp → Prop
  | .complete principal idempotencyKey _ _ _ => (principal.principalId, idempotencyKey) = key
  | _ => False

namespace IdempotencyStore

variable {s : IdempotencyStore} {principal : Principal} {idempotencyKey : String} {now : Time}

/-! ## Making room -/

theorem oldestKey_mem {entries : List (IdempotencyKey × IdempotencyRecord)} {key : IdempotencyKey}
    (h : oldestKey entries = some key) : key ∈ entries.map Prod.fst := by
  have hfold : ∀ (rest : List (IdempotencyKey × IdempotencyRecord)) (e),
      rest.foldl (fun m e => if e.2.createdAt < m.2.createdAt then e else m) e ∈ e :: rest := by
    intro rest
    induction rest with
    | nil => intro e; exact List.mem_cons_self ..
    | cons d rest ih =>
        intro e
        rw [List.foldl_cons]
        split
        · exact List.mem_cons_of_mem _ (ih d)
        · rcases List.mem_cons.mp (ih e) with heq | hmem
          · rw [heq]
            exact List.mem_cons_self ..
          · exact List.mem_cons_of_mem _ (List.mem_cons_of_mem _ hmem)
  cases entries with
  | nil => cases h
  | cons e rest =>
      cases h
      exact List.mem_map_of_mem (hfold rest e)

theorem exists_oldestKey {entries : List (IdempotencyKey × IdempotencyRecord)}
    (h : entries ≠ []) : ∃ key, oldestKey entries = some key := by
  cases entries with
  | nil => exact absurd rfl h
  | cons e rest => exact ⟨_, rfl⟩

/-- One record too many costs the oldest one. -/
theorem evictOldestIfNeeded_of_size {key : IdempotencyKey} (hsize : s.keys.size = s.maxEntries + 1)
    (hkey : oldestKey s.keys.entries = some key) :
    s.evictOldestIfNeeded = { s with keys := s.keys.erase key } := by
  have herase : (s.keys.erase key).size = s.maxEntries := by
    have := Dict.size_erase_of_mem (d := s.keys) (oldestKey_mem hkey)
    omega
  have hrest : ∀ fuel, evict s.maxEntries fuel (s.keys.erase key) = s.keys.erase key := by
    intro fuel
    cases fuel with
    | zero => rfl
    | succ fuel => rw [evict, herase, if_neg (Nat.lt_irrefl _)]
  rw [evictOldestIfNeeded, hsize, evict, if_pos (by omega)]
  simp only [hkey, hrest]

/-! ## One operation -/

@[simp] theorem maxEntries_reserve (principal : Principal) (idempotencyKey : String) (now : Time)
    (s : IdempotencyStore) :
    (s.reserve principal idempotencyKey now).2.maxEntries = s.maxEntries := by
  unfold reserve
  dsimp only
  split
  · split <;> rfl
  · rfl

@[simp] theorem maxEntries_perform (op : IdempotencyOp) (s : IdempotencyStore) :
    (op.perform s).maxEntries = s.maxEntries := by
  cases op with
  | reserve principal idempotencyKey now => exact maxEntries_reserve ..
  | markRunning principal idempotencyKey =>
      rw [IdempotencyOp.perform, markRunning]
      split <;> rfl
  | complete => rfl

theorem size_expire_le (now : Time) (s : IdempotencyStore) :
    (s.expire now).keys.size ≤ s.keys.size := List.length_filter_le ..

/-- A present key is refused or answered, and the store is only swept. -/
theorem reserve_of_mem (h : (principal.principalId, idempotencyKey) ∈ (s.expire now).keys.keys) :
    (s.reserve principal idempotencyKey now).1 ≠ .ok none ∧
      (s.reserve principal idempotencyKey now).2 = s.expire now := by
  obtain ⟨existing, hget⟩ :=
    Option.ne_none_iff_exists'.mp fun hnone => Dict.get?_eq_none_iff.mp hnone h
  simp only [reserve, hget]
  split
  · exact ⟨by simp, rfl⟩
  · exact ⟨by simp, rfl⟩

/-- An absent key is reserved, and room is made for it. -/
theorem reserve_of_notMem
    (h : (principal.principalId, idempotencyKey) ∉ (s.expire now).keys.keys) :
    s.reserve principal idempotencyKey now =
      (.ok none,
        ((s.expire now).insertReservation principal idempotencyKey now).evictOldestIfNeeded) := by
  simp only [reserve, Dict.get?_eq_none_iff.mpr h]

/-- What the sweep leaves is younger than the time to live. -/
theorem young_of_get?_expire {key : IdempotencyKey} {record : IdempotencyRecord}
    (h : (s.expire now).keys.get? key = some record) :
    now < record.createdAt + seconds s.ttlSeconds := by
  rw [get?_expire, Option.filter_eq_some_iff] at h
  obtain ⟨-, hyoung⟩ := h
  refine Int.not_le.mp fun hold => ?_
  exact of_decide_eq_true hyoung (Int.le_sub_right_of_add_le hold)

/-! ## What an operation keeps, and when -/

/-- What the capacity promises about one operation: the store stays within `max_entries`, a
record in flight stays in it, and so does a new reservation. -/
structure KeepsInFlight (op : IdempotencyOp) (s : IdempotencyStore) : Prop where
  size_le : (op.perform s).keys.size ≤ s.maxEntries
  keeps : ∀ key record, s.keys.get? key = some record → ¬ record.status.terminal →
    (∀ now, op.sweptAt = some now → now < record.createdAt + seconds s.ttlSeconds) →
      key ∈ (op.perform s).keys.keys
  reserved : ∀ principal idempotencyKey now, op = .reserve principal idempotencyKey now →
    (s.reserve principal idempotencyKey now).1 = .ok none →
      (op.perform s).keys.get? (principal.principalId, idempotencyKey) =
        some { createdAt := now }

/-- The condition on an operation and the store it meets: a new key comes to a full store only
when its oldest record is that of a completed operation, and a completion whose key is absent
finds room. -/
def Fits : IdempotencyOp → IdempotencyStore → Prop
  | .reserve principal idempotencyKey now, s =>
      (principal.principalId, idempotencyKey) ∉ (s.expire now).keys.keys →
        s.maxEntries ≤ (s.expire now).keys.size →
          ∃ key record,
            oldestKey ((s.expire now).insertReservation principal idempotencyKey now).keys.entries =
              some key ∧
            (s.expire now).keys.get? key = some record ∧ record.status.terminal
  | .markRunning _ _, _ => True
  | .complete principal idempotencyKey _ _ _, s =>
      (principal.principalId, idempotencyKey) ∈ s.keys.keys ∨ s.keys.size < s.maxEntries

variable {key : IdempotencyKey} {record : IdempotencyRecord}

theorem mem_keys_of_get? (h : s.keys.get? key = some record) : key ∈ s.keys.keys :=
  not_not.mp fun hnot => by simp [Dict.get?_eq_none_iff.mpr hnot] at h

/-- A new key that comes to a store with room. -/
theorem keepsInFlight_of_room
    (hnew : (principal.principalId, idempotencyKey) ∉ (s.expire now).keys.keys)
    (hroom : (s.expire now).keys.size < s.maxEntries) :
    KeepsInFlight (.reserve principal idempotencyKey now) s := by
  have hsize : ((s.expire now).insertReservation principal idempotencyKey now).keys.size ≤
      s.maxEntries := by
    have hset : ((s.expire now).insertReservation principal idempotencyKey now).keys.size =
        (s.expire now).keys.size + 1 := Dict.size_set_of_notMem hnew _
    omega
  have hperform : IdempotencyOp.perform (.reserve principal idempotencyKey now) s =
      (s.expire now).insertReservation principal idempotencyKey now := by
    rw [IdempotencyOp.perform, reserve_of_notMem hnew]
    exact evictOldestIfNeeded_of_le hsize
  constructor
  · rw [hperform]
    exact hsize
  · intro key record hrecord _ hyoung
    rw [hperform, insertReservation, Dict.mem_keys_set]
    exact .inr (mem_keys_of_get? (expire_keeps hrecord (hyoung now rfl)))
  · rintro _ _ _ ⟨⟩ _
    rw [hperform, insertReservation, Dict.get?_set_self]

/-- A new key that comes to a full store, with the record that makes room. -/
theorem keepsInFlight_iff_of_full
    (hnew : (principal.principalId, idempotencyKey) ∉ (s.expire now).keys.keys)
    (hfull : (s.expire now).keys.size = s.maxEntries)
    (hkey : oldestKey
      ((s.expire now).insertReservation principal idempotencyKey now).keys.entries = some key) :
    KeepsInFlight (.reserve principal idempotencyKey now) s ↔
      ∃ record, (s.expire now).keys.get? key = some record ∧ record.status.terminal := by
  have hsize : ((s.expire now).insertReservation principal idempotencyKey now).keys.size =
      s.maxEntries + 1 := by
    rw [← hfull]
    exact Dict.size_set_of_notMem hnew _
  have hmem : key ∈ ((s.expire now).insertReservation principal idempotencyKey now).keys.keys :=
    oldestKey_mem hkey
  have hperform : (IdempotencyOp.perform (.reserve principal idempotencyKey now) s).keys =
      ((s.expire now).insertReservation principal idempotencyKey now).keys.erase key := by
    rw [IdempotencyOp.perform, reserve_of_notMem hnew, evictOldestIfNeeded_of_size hsize hkey]
  constructor
  · intro hkeeps
    rw [insertReservation, Dict.mem_keys_set] at hmem
    rcases hmem with hself | hold
    · -- the new reservation itself makes room
      have hreserved := hkeeps.reserved principal idempotencyKey now rfl
        (by rw [reserve_of_notMem hnew])
      rw [hperform, Dict.get?_erase, if_pos hself.symm] at hreserved
      cases hreserved
    · -- an older reservation makes room; were it in flight, it would have been kept
      obtain ⟨record, hrecord⟩ :=
        Option.ne_none_iff_exists'.mp fun hnone => Dict.get?_eq_none_iff.mp hnone hold
      refine ⟨record, hrecord, ?_⟩
      by_contra hopen
      have hkept := hkeeps.keeps key record (of_get?_expire hrecord) hopen
        (by rintro _ ⟨⟩; exact young_of_get?_expire hrecord)
      refine Dict.get?_eq_none_iff.mp ?_ hkept
      rw [hperform, Dict.get?_erase, if_pos rfl]
  · rintro ⟨record, hrecord, hterminal⟩
    -- the entry that goes is not the new one
    have hne : (principal.principalId, idempotencyKey) ≠ key := by
      rintro rfl
      exact hnew (mem_keys_of_get? hrecord)
    constructor
    · have hsizeErase := Dict.size_erase_of_mem hmem
      rw [hperform]
      omega
    · intro key' record' hrecord' hopen hyoung
      have hkept := expire_keeps hrecord' (hyoung now rfl)
      -- an entry in flight is not the one that goes, since that one has ended
      have hne' : key' ≠ key := by
        rintro rfl
        rw [hrecord] at hkept
        cases hkept
        exact hopen hterminal
      apply not_not.mp
      intro hnot
      have hnone := Dict.get?_eq_none_iff.mpr hnot
      rw [hperform, Dict.get?_erase, if_neg hne', insertReservation, Dict.get?_set] at hnone
      split at hnone
      · cases hnone
      · rw [hkept] at hnone
        cases hnone
    · rintro _ _ _ ⟨⟩ _
      rw [hperform, Dict.get?_erase, if_neg hne, insertReservation, Dict.get?_set_self]

/-- From a store within its capacity, an operation keeps the promises exactly when it fits. -/
theorem keepsInFlight_iff_fits (op : IdempotencyOp) (hsize : s.keys.size ≤ s.maxEntries) :
    KeepsInFlight op s ↔ Fits op s := by
  cases op with
  | reserve principal idempotencyKey now =>
      have hswept := size_expire_le now s
      by_cases hmem : (principal.principalId, idempotencyKey) ∈ (s.expire now).keys.keys
      · obtain ⟨hanswer, hstore⟩ := reserve_of_mem hmem
        refine iff_of_true ⟨?_, ?_, ?_⟩ fun hnew => absurd hmem hnew
        · rw [IdempotencyOp.perform, hstore]
          omega
        · intro key record hrecord _ hyoung
          rw [IdempotencyOp.perform, hstore]
          exact mem_keys_of_get? (expire_keeps hrecord (hyoung now rfl))
        · rintro _ _ _ ⟨⟩ hnone
          exact absurd hnone hanswer
      · -- a new key: there is room for it, or the oldest entry makes room
        by_cases hroom : (s.expire now).keys.size < s.maxEntries
        · refine iff_of_true (keepsInFlight_of_room hmem hroom) fun _ hfull => ?_
          omega
        · have hne : ((s.expire now).insertReservation principal idempotencyKey now).keys.entries ≠
              [] := by
            rw [insertReservation, Dict.entries_set_of_notMem hmem]
            simp
          obtain ⟨key, hkey⟩ := exists_oldestKey hne
          rw [keepsInFlight_iff_of_full hmem (by omega) hkey, Fits]
          constructor
          · rintro ⟨record, hrecord, hterminal⟩ _ _
            exact ⟨key, record, hkey, hrecord, hterminal⟩
          · intro hfits
            obtain ⟨key', record, hkey', hrecord, hterminal⟩ := hfits hmem (by omega)
            cases hkey.symm.trans hkey'
            exact ⟨record, hrecord, hterminal⟩
  | markRunning principal idempotencyKey =>
      refine iff_of_true ⟨?_, ?_, ?_⟩ trivial
      · rw [IdempotencyOp.perform, markRunning]
        split
        · next hget => exact (Dict.size_set_of_mem (mem_keys_of_get? hget) _).trans_le hsize
        · exact hsize
      · intro key record hrecord _ _
        obtain ⟨record', hrecord', -⟩ := markRunning_keeps principal idempotencyKey hrecord
        exact mem_keys_of_get? hrecord'
      · rintro _ _ _ ⟨⟩
  | complete principal idempotencyKey response status now =>
      have hkeeps : ∀ key record, s.keys.get? key = some record →
          key ∈ (s.complete principal idempotencyKey response status now).keys.keys := by
        intro key record hrecord
        obtain ⟨record', hrecord', -⟩ :=
          complete_keeps principal idempotencyKey response status now hrecord
        exact mem_keys_of_get? hrecord'
      -- completing never drops an entry, so only the size matters
      have hpromise : KeepsInFlight (.complete principal idempotencyKey response status now) s ↔
          (s.complete principal idempotencyKey response status now).keys.size ≤ s.maxEntries := by
        refine ⟨KeepsInFlight.size_le, fun h => ⟨h, ?_, ?_⟩⟩
        · exact fun key record hrecord _ _ => hkeeps key record hrecord
        · rintro _ _ _ ⟨⟩
      rw [hpromise, Fits]
      by_cases hmem : (principal.principalId, idempotencyKey) ∈ s.keys.keys
      · have hsame : (s.complete principal idempotencyKey response status now).keys.size =
            s.keys.size := Dict.size_set_of_mem hmem _
        exact iff_of_true (hsame.trans_le hsize) (.inl hmem)
      · have hmore : (s.complete principal idempotencyKey response status now).keys.size =
            s.keys.size + 1 := Dict.size_set_of_notMem hmem _
        rw [hmore]
        exact ⟨fun h => .inr h, fun h => h.resolve_left hmem⟩

/-! ## Runs -/

theorem atEveryStep_keepsInFlight_iff (ops : List IdempotencyOp)
    (hsize : s.keys.size ≤ s.maxEntries) :
    AtEveryStep KeepsInFlight s ops ↔ AtEveryStep Fits s ops := by
  induction ops generalizing s with
  | nil => exact Iff.rfl
  | cons op rest ih =>
      rw [AtEveryStep, AtEveryStep, keepsInFlight_iff_fits op hsize]
      refine and_congr_right fun hfits => ih ?_
      rw [maxEntries_perform]
      exact ((keepsInFlight_iff_fits op hsize).mpr hfits).size_le

/-- A reservation leaves a record that the sweep leaves as it is, where it leaves it. -/
theorem get?_reserve_of_mem (hget : s.keys.get? key = some record)
    (hyoung : now < record.createdAt + seconds s.ttlSeconds)
    (hmem : key ∈ (s.reserve principal idempotencyKey now).2.keys.keys) :
    (s.reserve principal idempotencyKey now).2.keys.get? key = some record := by
  have hkept := expire_keeps hget hyoung
  by_cases hpresent : (principal.principalId, idempotencyKey) ∈ (s.expire now).keys.keys
  · rw [(reserve_of_mem hpresent).2]
    exact hkept
  · obtain ⟨record', hget'⟩ :=
      Option.ne_none_iff_exists'.mp fun hnone => Dict.get?_eq_none_iff.mp hnone hmem
    have hbefore : (s.expire now).keys.get? key = some record' := by
      rw [reserve_of_notMem hpresent] at hget'
      have hinserted := of_get?_evict _ hget'
      rw [insertReservation, Dict.get?_set, if_neg] at hinserted
      · exact hinserted
      · rintro rfl
        exact hpresent (mem_keys_of_get? hkept)
    rw [hget', ← hbefore, hkept]

@[simp] theorem ttlSeconds_perform (op : IdempotencyOp) (s : IdempotencyStore) :
    (op.perform s).ttlSeconds = s.ttlSeconds := by
  cases op with
  | reserve principal idempotencyKey now => exact ttlSeconds_reserve ..
  | markRunning principal idempotencyKey => exact ttlSeconds_markRunning ..
  | complete => rfl

/-- An open record stays open and keeps its age as long as it is young and not completed. -/
theorem keeps_open {ops : List IdempotencyOp} (hops : AtEveryStep KeepsInFlight s ops)
    (hget : s.keys.get? key = some record) (hopen : ¬ record.status.terminal)
    (hcompletes : ∀ op ∈ ops, ¬ op.Completes key)
    (hyoung : ∀ op ∈ ops, ∀ now, op.sweptAt = some now →
      now < record.createdAt + seconds s.ttlSeconds) :
    ∃ record', (performAll s ops).keys.get? key = some record' ∧
      record'.createdAt = record.createdAt ∧ ¬ record'.status.terminal := by
  induction ops generalizing s record with
  | nil => exact ⟨record, hget, rfl, hopen⟩
  | cons op rest ih =>
      obtain ⟨hop, hrest⟩ := hops
      rw [List.forall_mem_cons] at hcompletes hyoung
      -- one operation keeps the entry open; the others follow by induction
      have hstep : ∃ record', (op.perform s).keys.get? key = some record' ∧
          record'.createdAt = record.createdAt ∧ ¬ record'.status.terminal := by
        have hmem := hop.keeps key record hget hopen hyoung.1
        cases op with
        | reserve principal idempotencyKey now =>
            exact ⟨record, get?_reserve_of_mem hget (hyoung.1 now rfl) hmem, rfl, hopen⟩
        | markRunning principal idempotencyKey =>
            rw [IdempotencyOp.perform, markRunning]
            split
            · next existing hexisting =>
              rw [Dict.get?_set]
              split
              · next hkey =>
                rw [hkey, hexisting] at hget
                cases hget
                exact ⟨_, rfl, rfl, by simp [IdempotencyOperationStatus.terminal]⟩
              · exact ⟨record, hget, rfl, hopen⟩
            · exact ⟨record, hget, rfl, hopen⟩
        | complete principal idempotencyKey response status now =>
            have hne : key ≠ (principal.principalId, idempotencyKey) :=
              fun hkey => hcompletes.1 hkey.symm
            refine ⟨record, ?_, rfl, hopen⟩
            rw [IdempotencyOp.perform, complete, Dict.get?_set_of_ne hne, hget]
      obtain ⟨record', hget', hage, hopen'⟩ := hstep
      obtain ⟨record'', hget'', hage', hopen''⟩ := ih hrest hget' hopen' hcompletes.2
        (by rw [hage, ttlSeconds_perform]; exact hyoung.2)
      exact ⟨record'', hget'', hage'.trans hage, hopen''⟩

/-- A key that was reserved, not completed since, and is younger than the time to live at every
sweep up to `now`, is not reserved again at `now`. -/
def NeverReservedTwice (s : IdempotencyStore) (ops : List IdempotencyOp) : Prop :=
  ∀ (before between later : List IdempotencyOp) (first second : Principal)
    (idempotencyKey : String) (reservedAt now : Time),
    ops = before ++ .reserve first idempotencyKey reservedAt ::
      (between ++ .reserve second idempotencyKey now :: later) →
    second.principalId = first.principalId →
    ((performAll s before).reserve first idempotencyKey reservedAt).1 = .ok none →
    (∀ op ∈ between, ¬ op.Completes (first.principalId, idempotencyKey)) →
    (∀ op ∈ between, ∀ t, op.sweptAt = some t → t < reservedAt + seconds s.ttlSeconds) →
    now < reservedAt + seconds s.ttlSeconds →
      ((performAll s (before ++ .reserve first idempotencyKey reservedAt :: between)).reserve
        second idempotencyKey now).1 ≠ .ok none

@[simp] theorem ttlSeconds_performAll (ops : List IdempotencyOp) (s : IdempotencyStore) :
    (performAll s ops).ttlSeconds = s.ttlSeconds := by
  induction ops generalizing s with
  | nil => rfl
  | cons op rest ih => exact (ih (op.perform s)).trans (ttlSeconds_perform op s)

/-- What is kept in flight is not reserved twice. -/
theorem neverReservedTwice_of_keepsInFlight {ops : List IdempotencyOp}
    (hops : AtEveryStep KeepsInFlight s ops) : NeverReservedTwice s ops := by
  rintro before between later first second idempotencyKey reservedAt now rfl hprincipal hreserved
    hcompletes hyoung hnow
  rw [atEveryStep_append, AtEveryStep, atEveryStep_append] at hops
  obtain ⟨-, hfirst, hbetween, -⟩ := hops
  have hentry := hfirst.reserved first idempotencyKey reservedAt rfl hreserved
  obtain ⟨record, hget, hage, -⟩ := keeps_open hbetween hentry
    (by simp [IdempotencyOperationStatus.terminal]) hcompletes (by simpa using hyoung)
  have hstate : performAll s (before ++ .reserve first idempotencyKey reservedAt :: between) =
      performAll (IdempotencyOp.perform (.reserve first idempotencyKey reservedAt)
        (performAll s before)) between := by
    rw [performAll_append]
    rfl
  rw [hstate]
  refine (reserve_of_mem ?_).1
  rw [hprincipal]
  refine mem_keys_of_get? (expire_keeps hget ?_)
  rw [hage]
  simpa using hnow

/-- What the capacity promises about a run. -/
structure HoldsCapacity (s : IdempotencyStore) (ops : List IdempotencyOp) : Prop where
  keeps : AtEveryStep KeepsInFlight s ops
  once : NeverReservedTwice s ops

end IdempotencyStore

open IdempotencyStore

/-- **Capacity.**  A run from the empty store stays within `max_entries` and loses nothing that
is in flight exactly when every operation fits into the store it meets. -/
theorem holdsCapacity_iff_fits (ttlSeconds : ℤ) (maxEntries : ℕ) (ops : List IdempotencyOp) :
    HoldsCapacity { ttlSeconds, maxEntries } ops ↔
      AtEveryStep Fits { ttlSeconds, maxEntries } ops := by
  have hsize : (Dict.empty : Dict IdempotencyKey IdempotencyRecord).size ≤ maxEntries :=
    Nat.zero_le _
  have hiff := atEveryStep_keepsInFlight_iff (s := { ttlSeconds, maxEntries }) ops hsize
  exact ⟨fun h => hiff.mp h.keeps, fun h =>
    ⟨hiff.mpr h, neverReservedTwice_of_keepsInFlight (hiff.mpr h)⟩⟩

/-- The answer that completes the first of two operations. -/
def firstResponse : GatewayToolResponse where
  ok := true
  decision := .allowed
  correlationId := 1

/-- Two keys reserved in a store for one, and the first of them completed. -/
def twoOperations : List IdempotencyOp :=
  let operator := ⟨"operator-1", .operator, .human⟩
  [.reserve operator "restart-1" 0, .reserve operator "restart-2" 1,
    .complete operator "restart-1" firstResponse .succeeded 2]

/-- The second reservation takes the place of the first, which is in flight, and the completion
of the first makes the store larger than it may be. -/
theorem twoOperations_exceed :
    (performAll { maxEntries := 1 } (twoOperations.take 2)).keys.get? ("operator-1", "restart-1") =
        none ∧
      (performAll { maxEntries := 1 } twoOperations).keys.size = 2 ∧
      ¬ HoldsCapacity { maxEntries := 1 } twoOperations := by
  have hsize : (performAll { maxEntries := 1 } twoOperations).keys.size = 2 := by decide
  refine ⟨by decide, hsize, fun h => ?_⟩
  obtain ⟨-, -, hlast, -⟩ := h.keeps
  exact absurd (hsize.symm.trans_le hlast.size_le) (by decide)

end McpOps
