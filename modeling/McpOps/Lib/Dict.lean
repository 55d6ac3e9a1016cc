import Mathlib.Data.List.Basic
import Mathlib.Data.List.Nodup

/-!
# Dictionaries in insertion order

A finite map kept as the list of its entries, oldest key first, as Python's `dict` keeps it:
storing under a present key replaces the value in place, storing under a new key appends.  The
order is observable (it decides ties of `min` and of stable sorts), so the map is not quotiented
by it.

A `Dict` carries the proof that its keys are distinct, so a dictionary with a key twice cannot be
built.

## Main lemmas

* `get?_eq_some_iff`: looking up and being among the entries are the same.
* `get?_set`, `get?_erase`, `get?_filter`, `get?_mapValues`: what each operation does to a look-up.
* `entries_set_of_notMem`, `entries_foldl_set`: new keys come at the end, in turn, so a dictionary
  that is built from distinct keys has its entries in the order in which they were stored.
* `of_get?_foldl_set`: a value comes from what was stored, or was there before.
* `size_set_of_mem`, `size_set_of_notMem`, `size_erase_of_mem`: the number of keys.
-/

/-- A finite map with its keys in insertion order. -/
structure Dict (κ ν : Type) where
  entries : List (κ × ν)
  nodup : (entries.map Prod.fst).Nodup

namespace Dict

variable {κ ν : Type}

@[ext] theorem ext {d e : Dict κ ν} (h : d.entries = e.entries) : d = e := by
  cases d
  cases e
  congr

/-- The empty dictionary. -/
def empty : Dict κ ν := ⟨[], List.nodup_nil⟩

/-- The number of keys. -/
def size (d : Dict κ ν) : ℕ := d.entries.length

/-- The keys, oldest first. -/
def keys (d : Dict κ ν) : List κ := d.entries.map Prod.fst

/-- The values, oldest key first. -/
def values (d : Dict κ ν) : List ν := d.entries.map Prod.snd

/-- Keep the entries that satisfy `p`. -/
def filter (d : Dict κ ν) (p : κ → ν → Bool) : Dict κ ν where
  entries := d.entries.filter fun e => p e.1 e.2
  nodup := d.nodup.sublist (List.filter_sublist.map _)

/-- Replace every value. -/
def mapValues (d : Dict κ ν) (f : κ → ν → ν) : Dict κ ν where
  entries := d.entries.map fun e => (e.1, f e.1 e.2)
  nodup := by
    rw [List.map_map]
    exact d.nodup

variable [DecidableEq κ]

/-- The value under `k`, if any. -/
def get? (d : Dict κ ν) (k : κ) : Option ν :=
  (d.entries.find? fun e => e.1 = k).map Prod.snd

/-- Remove `k`. -/
def erase (d : Dict κ ν) (k : κ) : Dict κ ν := d.filter fun k' _ => k' ≠ k

/-- The entries after storing `v` under `k`. -/
def setEntries (k : κ) (v : ν) : List (κ × ν) → List (κ × ν)
  | [] => [(k, v)]
  | e :: rest => if e.1 = k then (k, v) :: rest else e :: setEntries k v rest

theorem mem_keys_setEntries {k k' : κ} {v : ν} {l : List (κ × ν)} :
    k' ∈ (setEntries k v l).map Prod.fst ↔ k' = k ∨ k' ∈ l.map Prod.fst := by
  induction l with
  | nil => simp [setEntries]
  | cons e rest ih =>
      by_cases h : e.1 = k
      · simp [setEntries, h]
      · simp only [setEntries, if_neg h, List.map_cons, List.mem_cons, ih]
        tauto

theorem nodup_setEntries {k : κ} {v : ν} {l : List (κ × ν)} (h : (l.map Prod.fst).Nodup) :
    ((setEntries k v l).map Prod.fst).Nodup := by
  induction l with
  | nil => simp [setEntries]
  | cons e rest ih =>
      rw [List.map_cons, List.nodup_cons] at h
      by_cases hk : e.1 = k
      · rw [setEntries, if_pos hk, List.map_cons, List.nodup_cons]
        exact ⟨hk ▸ h.1, h.2⟩
      · rw [setEntries, if_neg hk, List.map_cons, List.nodup_cons]
        refine ⟨fun hmem => ?_, ih h.2⟩
        rcases mem_keys_setEntries.mp hmem with heq | hmem
        · exact hk heq
        · exact h.1 hmem

/-- Store `v` under `k`: in place when `k` is present, at the end otherwise. -/
def set (d : Dict κ ν) (k : κ) (v : ν) : Dict κ ν :=
  ⟨setEntries k v d.entries, nodup_setEntries d.nodup⟩

@[simp] theorem get?_empty (k : κ) : (empty : Dict κ ν).get? k = none := rfl

theorem get?_eq_some_iff {d : Dict κ ν} {k : κ} {v : ν} :
    d.get? k = some v ↔ (k, v) ∈ d.entries := by
  obtain ⟨l, hl⟩ := d
  simp only [get?]
  induction l with
  | nil => simp
  | cons e rest ih =>
      obtain ⟨k', v'⟩ := e
      rw [List.map_cons, List.nodup_cons] at hl
      by_cases hk : k' = k
      · subst hk
        have hnot : ∀ w, (k', w) ∉ rest :=
          fun w hw => hl.1 (List.mem_map.mpr ⟨(k', w), hw, rfl⟩)
        simp [hnot, eq_comm]
      · simp only [List.find?_cons, hk, decide_false, List.mem_cons, Prod.mk.injEq]
        rw [ih hl.2]
        simp [Ne.symm hk]

theorem get?_eq_none_iff {d : Dict κ ν} {k : κ} : d.get? k = none ↔ k ∉ d.keys := by
  simp only [get?, keys, Option.map_eq_none_iff, List.find?_eq_none, List.mem_map,
    decide_eq_true_eq]
  exact ⟨fun h ⟨e, he, hk⟩ => h e he hk, fun h e he hk => h ⟨e, he, hk⟩⟩

theorem mem_setEntries {k k' : κ} {v w : ν} {l : List (κ × ν)} (h : (l.map Prod.fst).Nodup) :
    (k', w) ∈ setEntries k v l ↔ (k' = k ∧ w = v) ∨ (k' ≠ k ∧ (k', w) ∈ l) := by
  induction l with
  | nil => simp [setEntries]
  | cons e rest ih =>
      obtain ⟨a, b⟩ := e
      rw [List.map_cons, List.nodup_cons] at h
      by_cases hk : a = k
      · subst hk
        have hnot : ∀ w, (a, w) ∉ rest :=
          fun w hw => h.1 (List.mem_map.mpr ⟨(a, w), hw, rfl⟩)
        simp only [setEntries, if_true, List.mem_cons, Prod.mk.injEq]
        by_cases hk' : k' = a
        · subst hk'
          simp [hnot]
        · simp [hk']
      · simp only [setEntries, if_neg hk, List.mem_cons, Prod.mk.injEq, ih h.2]
        by_cases hk' : k' = k
        · subst hk'
          simp [Ne.symm hk]
        · simp [hk']

@[simp] theorem get?_set_self (d : Dict κ ν) (k : κ) (v : ν) : (d.set k v).get? k = some v :=
  get?_eq_some_iff.mpr ((mem_setEntries d.nodup).mpr (Or.inl ⟨rfl, rfl⟩))

theorem get?_set_of_ne {k k' : κ} (h : k' ≠ k) (d : Dict κ ν) (v : ν) :
    (d.set k v).get? k' = d.get? k' := by
  ext w
  rw [get?_eq_some_iff, get?_eq_some_iff, set, mem_setEntries d.nodup]
  simp [h]

/-- A new key is stored at the end. -/
theorem entries_set_of_notMem {d : Dict κ ν} {k : κ} (h : k ∉ d.keys) (v : ν) :
    (d.set k v).entries = d.entries ++ [(k, v)] := by
  have hentries : ∀ l : List (κ × ν), k ∉ l.map Prod.fst → setEntries k v l = l ++ [(k, v)] := by
    intro l hl
    induction l with
    | nil => rfl
    | cons e rest ih =>
        rw [List.map_cons, List.mem_cons, not_or] at hl
        rw [setEntries, if_neg (Ne.symm hl.1), ih hl.2, List.cons_append]
  exact hentries d.entries h

theorem mem_keys_set {d : Dict κ ν} {k k' : κ} {v : ν} :
    k' ∈ (d.set k v).keys ↔ k' = k ∨ k' ∈ d.keys := mem_keys_setEntries

/-- Storing values under new, distinct keys appends them in turn. -/
theorem entries_foldl_set {α : Type} (f : α → κ) (g : α → ν) {l : List α} {d : Dict κ ν}
    (h : (d.keys ++ l.map f).Nodup) :
    (l.foldl (fun d a => d.set (f a) (g a)) d).entries =
      d.entries ++ l.map fun a => (f a, g a) := by
  induction l generalizing d with
  | nil => simp
  | cons a rest ih =>
      have hnew : f a ∉ d.keys := fun hmem =>
        (List.nodup_append.mp h).2.2 _ hmem _ (List.mem_cons_self ..) rfl
      have hkeys : (d.set (f a) (g a)).keys = d.keys ++ [f a] := by
        rw [keys, entries_set_of_notMem hnew, List.map_append]
        rfl
      rw [List.foldl_cons, ih (by rw [hkeys, List.append_assoc]; exact h),
        entries_set_of_notMem hnew, List.append_assoc]
      rfl

/-- The keys of values that are stored in turn. -/
theorem mem_keys_foldl_set {α : Type} (f : α → κ) (g : α → ν) (l : List α) (d : Dict κ ν) {k : κ} :
    k ∈ (l.foldl (fun d a => d.set (f a) (g a)) d).keys ↔ k ∈ d.keys ∨ ∃ a ∈ l, f a = k := by
  induction l generalizing d with
  | nil => simp
  | cons a rest ih =>
      rw [List.foldl_cons, ih, mem_keys_set]
      simp only [List.mem_cons, exists_eq_or_imp]
      tauto

theorem get?_set (d : Dict κ ν) (k k' : κ) (v : ν) :
    (d.set k v).get? k' = if k' = k then some v else d.get? k' := by
  split
  · rename_i h
    rw [h, get?_set_self]
  · exact get?_set_of_ne ‹_› d v

/-- A value that is found comes from those that were stored in turn, or was there before. -/
theorem of_get?_foldl_set {α : Type} (f : α → κ) (g : α → ν) (l : List α) (d : Dict κ ν) {k : κ}
    {v : ν} (h : (l.foldl (fun d a => d.set (f a) (g a)) d).get? k = some v) :
    d.get? k = some v ∨ ∃ a ∈ l, f a = k ∧ g a = v := by
  induction l generalizing d with
  | nil => exact .inl h
  | cons a rest ih =>
      rcases ih _ h with hset | ⟨b, hb, hkey, hvalue⟩
      · rw [get?_set] at hset
        split at hset
        · rename_i heq
          exact .inr ⟨a, List.mem_cons_self .., heq.symm, Option.some_inj.mp hset⟩
        · exact .inl hset
      · exact .inr ⟨b, List.mem_cons_of_mem _ hb, hkey, hvalue⟩

theorem get?_filter (d : Dict κ ν) (p : κ → ν → Bool) (k : κ) :
    (d.filter p).get? k = (d.get? k).filter (p k) := by
  ext w
  rw [get?_eq_some_iff, filter, List.mem_filter, ← get?_eq_some_iff, Option.filter_eq_some_iff]

theorem get?_mapValues (d : Dict κ ν) (f : κ → ν → ν) (k : κ) :
    (d.mapValues f).get? k = (d.get? k).map (f k) := by
  ext w
  rw [get?_eq_some_iff, Option.map_eq_some_iff, mapValues, List.mem_map]
  constructor
  · rintro ⟨⟨k', v⟩, hmem, heq⟩
    rw [Prod.mk.injEq] at heq
    obtain ⟨rfl, rfl⟩ := heq
    exact ⟨v, get?_eq_some_iff.mpr hmem, rfl⟩
  · rintro ⟨v, hv, rfl⟩
    exact ⟨(k, v), get?_eq_some_iff.mp hv, rfl⟩

theorem get?_erase (d : Dict κ ν) (k k' : κ) :
    (d.erase k).get? k' = if k' = k then none else d.get? k' := by
  rw [erase, get?_filter]
  by_cases h : k' = k
  · cases d.get? k' <;> simp [h]
  · cases d.get? k' <;> simp [h]

/-! ### Sizes -/

omit [DecidableEq κ] in
theorem size_eq_length_keys (d : Dict κ ν) : d.size = d.keys.length :=
  (List.length_map Prod.fst).symm

omit [DecidableEq κ] in
/-- Dictionaries with the same keys have the same size. -/
theorem size_eq_of_keys {ν' : Type} {d : Dict κ ν} {e : Dict κ ν'}
    (h : ∀ k, k ∈ d.keys ↔ k ∈ e.keys) : d.size = e.size := by
  rw [size_eq_length_keys, size_eq_length_keys]
  exact ((List.perm_ext_iff_of_nodup d.nodup e.nodup).mpr h).length_eq

theorem size_set_of_notMem {d : Dict κ ν} {k : κ} (h : k ∉ d.keys) (v : ν) :
    (d.set k v).size = d.size + 1 := by
  rw [size, entries_set_of_notMem h, List.length_append]
  rfl

theorem size_set_of_mem {d : Dict κ ν} {k : κ} (h : k ∈ d.keys) (v : ν) :
    (d.set k v).size = d.size := by
  have hlength : ∀ l : List (κ × ν), k ∈ l.map Prod.fst →
      (setEntries k v l).length = l.length := by
    intro l hl
    induction l with
    | nil => cases hl
    | cons e rest ih =>
        rw [setEntries]
        split
        · rfl
        · next hne =>
          have hrest : k ∈ rest.map Prod.fst :=
            (List.mem_cons.mp hl).resolve_left fun heq => hne heq.symm
          rw [List.length_cons, List.length_cons, ih hrest]
  exact hlength d.entries h

theorem size_erase_of_mem {d : Dict κ ν} {k : κ} (h : k ∈ d.keys) :
    (d.erase k).size + 1 = d.size := by
  have hkeys : (d.erase k).keys = d.keys.erase k := by
    have hnodup : d.keys.Nodup := d.nodup
    rw [hnodup.erase_eq_filter, keys, keys, erase, filter, List.filter_map]
    congr 1
    apply List.filter_congr
    intro e _
    by_cases hk : e.1 = k <;> simp [hk]
  have hpos : 0 < d.keys.length := List.length_pos_of_mem h
  rw [size_eq_length_keys, hkeys, List.length_erase_of_mem h, size_eq_length_keys]
  omega

theorem mem_values {d : Dict κ ν} {v : ν} : v ∈ d.values ↔ ∃ k, d.get? k = some v := by
  simp only [values, List.mem_map, get?_eq_some_iff]
  exact ⟨fun ⟨e, he, hv⟩ => ⟨e.1, hv ▸ he⟩, fun ⟨k, hk⟩ => ⟨(k, v), hk, rfl⟩⟩

/-- Where the values tell their keys, those of key `k` are the value under `k`. -/
theorem filter_values {d : Dict κ ν} {f : ν → κ} (h : ∀ k v, d.get? k = some v → f v = k) (k : κ) :
    d.values.filter (fun v => f v = k) = (d.get? k).toList := by
  have hkey : ∀ e ∈ d.entries, f e.2 = e.1 := fun e he => h e.1 e.2 (get?_eq_some_iff.mpr he)
  clear h
  obtain ⟨entries, hnodup⟩ := d
  simp only [get?, values] at hkey ⊢
  induction entries with
  | nil => rfl
  | cons e rest ih =>
      rw [List.map_cons, List.nodup_cons] at hnodup
      have he := hkey e (List.mem_cons_self ..)
      by_cases hk : e.1 = k
      · -- no later entry has the key of this one
        have hrest : (rest.map Prod.snd).filter (fun v => f v = k) = [] := by
          rw [List.filter_eq_nil_iff]
          intro v hv hkv
          obtain ⟨e', he', rfl⟩ := List.mem_map.mp hv
          have hkey' := hkey e' (List.mem_cons_of_mem _ he')
          rw [of_decide_eq_true hkv, ← hk] at hkey'
          exact hnodup.1 (List.mem_map.mpr ⟨e', he', hkey'.symm⟩)
        simp [he, hk, hrest]
      · simp only [List.map_cons, List.filter_cons, List.find?_cons, he, hk, decide_false]
        exact ih hnodup.2 fun e' he' => hkey e' (List.mem_cons_of_mem _ he')

/-- `d.setdefault(k, v)`. -/
def setDefault (d : Dict κ ν) (k : κ) (v : ν) : Dict κ ν := if k ∈ d.keys then d else d.set k v

theorem get?_setDefault (d : Dict κ ν) (k k' : κ) (v : ν) :
    (d.setDefault k v).get? k' = (d.get? k').or (if k' = k then some v else none) := by
  rw [setDefault]
  by_cases hk : k' = k
  · subst hk
    by_cases hmem : k' ∈ d.keys
    · obtain ⟨w, hw⟩ := Option.ne_none_iff_exists'.mp fun h => get?_eq_none_iff.mp h hmem
      rw [if_pos hmem, hw, Option.some_or]
    · rw [if_neg hmem, get?_set_self, get?_eq_none_iff.mpr hmem, if_pos rfl, Option.none_or]
  · rw [if_neg hk, Option.or_none]
    split
    · rfl
    · exact get?_set_of_ne hk d v

/-- Storing one value under several keys, where they have none yet. -/
theorem get?_foldl_setDefault (keys : List κ) (d : Dict κ ν) (k : κ) (v : ν) :
    (keys.foldl (fun d k => d.setDefault k v) d).get? k =
      (d.get? k).or (if k ∈ keys then some v else none) := by
  induction keys generalizing d with
  | nil => simp
  | cons first rest ih =>
      rw [List.foldl_cons, ih, get?_setDefault, Option.or_assoc]
      by_cases hfirst : k = first
      · simp [hfirst]
      · simp [hfirst]

end Dict
