import Mathlib.Algebra.Order.Ring.Unbundled.Rat
import Mathlib.Data.List.Lex
import Mathlib.Data.List.Sort
import Mathlib.Data.Prod.Lex
import Mathlib.Data.String.Basic
import McpOps.Lib.Ranking
import McpOps.Python.Value

/-!
# Sorting, minima and iteration

`sorted` and `min` with a key of numbers and texts, compared like a tuple; the keys need not be in
a total order, as `nan` is in none.  The iteration over a `set`, whose order is not fixed.

`sortedBy` asks only `<`, as Python does, so it is defined for keys with `nan` too, and keeps the
items whatever the keys (`sortedBy_perm`).  For keys of one form without `nan`
there is an order behind `<`: `PyFloat.rank` and `SortKey.rank` give the place of a number and of a
key, and `sortedBy_eq_sortOn` says that the sort is the sort by these places.
-/

namespace McpOps

/-! ## The order of texts, for `Finset.sort` -/

instance isTrans_text : IsTrans String (· ≤ ·) := ⟨fun _ _ _ => le_trans⟩

instance antisymm_text : Std.Antisymm fun a b : String => a ≤ b := ⟨fun _ _ => le_antisymm⟩

/-! ## Keys -/

/-- `-x`. -/
def PyFloat.neg : PyFloat → PyFloat
  | .finite q => .finite (-q)
  | .posInf => .negInf
  | .negInf => .posInf
  | .nan => .nan

/-- A key: a tuple of numbers, and then texts. -/
structure SortKey where
  numbers : List PyFloat
  texts : List String

/-- `a < b` for the numbers of two keys, or `rest` where they are equal. -/
def numbersLt (rest : Bool) : List PyFloat → List PyFloat → Bool
  | x :: xs, y :: ys => if x.eq y then numbersLt rest xs ys else x.lt y
  | _, _ => rest

/-- `a < b`, for keys of one form. -/
def SortKey.lt (a b : SortKey) : Bool :=
  numbersLt (decide (a.texts < b.texts)) a.numbers b.numbers

/-- `sorted(items, key=key)`, which keeps items in their order unless one is smaller. -/
def sortedBy {α : Type} (key : α → SortKey) (items : List α) : List α :=
  items.mergeSort fun a b => !(key b).lt (key a)

/-- `min(items, key=key)`, the first of the smallest ones. -/
def minBy {α : Type} (key : α → PyFloat) : List α → Option α
  | [] => none
  | first :: rest =>
      some (rest.foldl (fun best a => if (key a).lt (key best) then a else best) first)

/-- An order in which a `set` is iterated over. -/
structure SetOrder where
  iterate : List String → List String
  perm : ∀ names, (iterate names).Perm names

/-- The order of insertion. -/
def SetOrder.inserted : SetOrder where
  iterate names := names
  perm := .refl

/-! ## Numbers and keys in order -/

/-- The place of a number; `nan` has none, and is put last. -/
def PyFloat.rank : PyFloat → ℤ ×ₗ ℚ
  | .negInf => toLex (-1, 0)
  | .finite q => toLex (0, q)
  | .posInf => toLex (1, 0)
  | .nan => toLex (2, 0)

theorem PyFloat.eq_iff_rank {x y : PyFloat} (hx : x ≠ .nan) (hy : y ≠ .nan) :
    x.eq y = decide (x.rank = y.rank) := by
  cases x <;> cases y <;> simp_all [PyFloat.eq, PyFloat.rank]

theorem PyFloat.lt_iff_rank {x y : PyFloat} (hx : x ≠ .nan) (hy : y ≠ .nan) :
    x.lt y = decide (x.rank < y.rank) := by
  cases x <;> cases y <;> simp_all [PyFloat.lt, PyFloat.rank, Prod.Lex.toLex_lt_toLex]

/-- The place of a key: the numbers in their order, and then the texts. -/
def SortKey.rank (key : SortKey) : List (ℤ ×ₗ ℚ) ×ₗ List String :=
  toLex (key.numbers.map PyFloat.rank, key.texts)

theorem numbersLt_iff_rank {rest : Bool} {xs ys : List PyFloat} (hlength : xs.length = ys.length)
    (hx : ∀ x ∈ xs, x ≠ .nan) (hy : ∀ y ∈ ys, y ≠ .nan) :
    numbersLt rest xs ys ↔ xs.map PyFloat.rank < ys.map PyFloat.rank ∨
      xs.map PyFloat.rank = ys.map PyFloat.rank ∧ rest := by
  induction xs generalizing ys with
  | nil =>
      cases ys with
      | nil => simp [numbersLt]
      | cons y ys => cases hlength
  | cons x xs ih =>
      cases ys with
      | nil => cases hlength
      | cons y ys =>
          have hnumberX := hx x (List.mem_cons_self ..)
          have hnumberY := hy y (List.mem_cons_self ..)
          have hih := ih (Nat.succ.inj hlength) (fun x hxs => hx x (List.mem_cons_of_mem _ hxs))
            fun y hys => hy y (List.mem_cons_of_mem _ hys)
          rw [numbersLt, PyFloat.eq_iff_rank hnumberX hnumberY,
            PyFloat.lt_iff_rank hnumberX hnumberY, List.map_cons, List.map_cons,
            List.cons_lt_cons_iff]
          by_cases heq : x.rank = y.rank
          · simp [heq, hih]
          · simp [heq]

section Sorting

variable {α : Type} {key : α → SortKey} {items : List α} {a : α}

theorem sortedBy_perm (key : α → SortKey) (items : List α) : (sortedBy key items).Perm items :=
  List.mergeSort_perm ..

@[simp] theorem mem_sortedBy : a ∈ sortedBy key items ↔ a ∈ items :=
  (sortedBy_perm key items).mem_iff

@[simp] theorem length_sortedBy : (sortedBy key items).length = items.length :=
  (sortedBy_perm key items).length_eq

/-- Sorting by keys of one form without `nan` is sorting by their places. -/
theorem sortedBy_eq_sortOn (key : α → SortKey) (items : List α) (width : ℕ)
    (hlength : ∀ a ∈ items, (key a).numbers.length = width)
    (hnumbers : ∀ a ∈ items, ∀ x ∈ (key a).numbers, x ≠ .nan) :
    sortedBy key items = Ranking.sortOn (fun a => (key a).rank) items := by
  have hmap := List.map_mergeSort (l := items) (f := id) (r := fun a b => !(key b).lt (key a))
    (s := fun a b => decide ((key a).rank ≤ (key b).rank)) fun a ha b hb => by
      have hrank : (key b).lt (key a) ↔ (key b).rank < (key a).rank := by
        rw [SortKey.lt, numbersLt_iff_rank ((hlength b hb).trans (hlength a ha).symm)
          (hnumbers b hb) (hnumbers a ha), SortKey.rank, SortKey.rank, Prod.Lex.toLex_lt_toLex,
          decide_eq_true_iff]
      rw [Bool.eq_iff_iff, Bool.not_eq_true', ← Bool.not_eq_true, hrank, not_lt,
        decide_eq_true_iff]
      exact Iff.rfl
  rwa [List.map_id, List.map_id] at hmap

theorem mem_of_minBy {key : α → PyFloat} (h : minBy key items = some a) : a ∈ items := by
  cases items with
  | nil => cases h
  | cons first rest =>
      rw [minBy, Option.some_inj] at h
      subst h
      induction rest generalizing first with
      | nil => exact List.mem_singleton_self first
      | cons next rest ih =>
          rw [List.foldl_cons]
          split
          · exact List.mem_cons_of_mem _ (ih next)
          · rcases List.mem_cons.mp (ih first) with heq | hmem
            · rw [heq]
              exact List.mem_cons_self ..
            · exact List.mem_cons_of_mem _ (List.mem_cons_of_mem _ hmem)

end Sorting

end McpOps
