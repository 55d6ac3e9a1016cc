import Mathlib.Data.List.Basic
import Mathlib.Data.List.Infix
import Mathlib.Data.List.Count

/-!
# Substituting the matches of a pattern

A pattern is given by the length of its match at the start of a list, which may depend on the
item before.  `substitute` rewrites the leftmost matches, one after another.

The second half is about a list with a hole at its end, into which several lists can be put: what
`substitute` does before the hole does not depend on what is put in, up to one match that may
still be open there (`openMatch`), as long as the pattern itself does not (`Indifferent`).
-/

namespace Substitution

variable {α : Type} (find : Option α → List α → Option ℕ) (rewrite : List α → List α)

/-- The leftmost matches rewritten; the first `skip` items belong to a match that has been
rewritten already, and `prev` is the item before. -/
def substitute : (skip : ℕ) → (prev : Option α) → List α → List α
  | _, _, [] => []
  | skip + 1, _, x :: rest => substitute skip (some x) rest
  | 0, prev, x :: rest =>
      match find prev (x :: rest) with
      | some n => rewrite ((x :: rest).take n) ++ substitute (n - 1) (some x) rest
      | none => x :: substitute 0 (some x) rest

variable {find rewrite}

theorem substitute_nil (skip : ℕ) (prev : Option α) :
    substitute find rewrite skip prev [] = [] := by
  cases skip <;> rfl

theorem substitute_of_none {prev : Option α} {x : α} {rest : List α}
    (h : find prev (x :: rest) = none) :
    substitute find rewrite 0 prev (x :: rest) =
      x :: substitute find rewrite 0 (some x) rest := by
  rw [substitute, h]

theorem substitute_of_some {prev : Option α} {x : α} {rest : List α} {n : ℕ}
    (h : find prev (x :: rest) = some n) :
    substitute find rewrite 0 prev (x :: rest) =
      rewrite ((x :: rest).take n) ++ substitute find rewrite (n - 1) (some x) rest := by
  rw [substitute, h]

/-- Skipping items leaves the rest, with the last of them before it. -/
theorem substitute_append {skipped : List α} {prev : Option α} {rest : List α} :
    substitute find rewrite skipped.length prev (skipped ++ rest) =
      substitute find rewrite 0 (skipped.getLast?.or prev) rest := by
  induction skipped generalizing prev with
  | nil => rfl
  | cons x skipped ih =>
      rw [List.length_cons, List.cons_append, substitute, ih]
      congr 1
      cases skipped with
      | nil => rfl
      | cons y skipped => rw [List.getLast?_cons_cons, List.getLast?_eq_some_getLast (by simp)]; rfl

/-- A match at the start is rewritten, and the rest comes after it. -/
theorem substitute_match {prev : Option α} {m rest : List α} (hne : m ≠ [])
    (h : find prev (m ++ rest) = some m.length) :
    substitute find rewrite 0 prev (m ++ rest) =
      rewrite m ++ substitute find rewrite 0 m.getLast? rest := by
  obtain ⟨x, m, rfl⟩ := List.exists_cons_of_ne_nil hne
  have hlast : m.getLast?.or (some x) = (x :: m).getLast? := by
    rw [List.getLast?_cons]
    cases m.getLast? with
    | none => rfl
    | some y => rfl
  have hfind : find prev (x :: (m ++ rest)) = some (m.length + 1) := h
  rw [List.cons_append, substitute_of_some hfind, Nat.add_sub_cancel, substitute_append, hlast,
    List.take_succ_cons, List.take_left]

/-- What every rewritten match keeps the number of, the substitution keeps the number of. -/
theorem count_substitute [BEq α] {a : α}
    (h : ∀ prev text n, find prev text = some n →
      1 ≤ n ∧ (rewrite (text.take n)).count a = (text.take n).count a)
    (skip : ℕ) (prev : Option α) (text : List α) :
    (substitute find rewrite skip prev text).count a = (text.drop skip).count a := by
  induction text generalizing skip prev with
  | nil => rw [substitute_nil, List.drop_nil]
  | cons x rest ih =>
      cases skip with
      | succ skip => rw [substitute, ih, List.drop_succ_cons]
      | zero =>
          cases hfind : find prev (x :: rest) with
          | none =>
              rw [substitute_of_none hfind, List.count_cons, ih, List.drop_zero, List.drop_zero,
                List.count_cons]
          | some n =>
              obtain ⟨hn, hcount⟩ := h prev _ n hfind
              obtain ⟨n, rfl⟩ := Nat.exists_eq_add_of_le' hn
              rw [substitute_of_some hfind, List.count_append, hcount, ih, List.drop_zero,
                ← List.count_append, Nat.add_sub_cancel, List.take_succ_cons, List.cons_append,
                List.take_append_drop]

/-! ## Lists with a hole -/

variable (find rewrite)

/-- The part of the list that belongs to a match which goes on beyond its end, when `probe` comes
next. -/
def openMatch (probe : List α) : (skip : ℕ) → (prev : Option α) → List α → Option (List α)
  | _, _, [] => none
  | skip + 1, _, x :: rest => openMatch probe skip (some x) rest
  | 0, prev, x :: rest =>
      match find prev (x :: rest ++ probe) with
      | some n =>
          if rest.length + 1 < n then some (x :: rest) else openMatch probe (n - 1) (some x) rest
      | none => openMatch probe 0 (some x) rest

/-- What the substitution makes of the list up to the open match or its end. -/
def settled (probe : List α) : (skip : ℕ) → (prev : Option α) → List α → List α
  | _, _, [] => []
  | skip + 1, _, x :: rest => settled probe skip (some x) rest
  | 0, prev, x :: rest =>
      match find prev (x :: rest ++ probe) with
      | some n =>
          if rest.length + 1 < n then []
          else rewrite ((x :: rest).take n) ++ settled probe (n - 1) (some x) rest
      | none => x :: settled probe 0 (some x) rest

/-- The pattern matches at the end of `l` with `filling` next as it does with `probe` next, except
that a match that goes on beyond the end takes `reach` items of the filling. -/
def Indifferent (probe l filling : List α) (reach : ℕ) : Prop :=
  ∀ prev, find prev (l ++ filling) =
    (find prev (l ++ probe)).map fun n => if l.length < n then l.length + reach else n

variable {find rewrite}

/-- An open match begins where the pattern finds one. -/
theorem openMatch_eq_some {probe m : List α} {l : List α} {skip : ℕ} {prev : Option α}
    (h : openMatch find probe skip prev l = some m) :
    m ≠ [] ∧ ∃ prev', (find prev' (m ++ probe)).isSome := by
  induction l generalizing skip prev with
  | nil => cases skip <;> cases h
  | cons x rest ih =>
      cases skip with
      | succ skip => exact ih h
      | zero =>
          cases hfind : find prev (x :: rest ++ probe) with
          | none =>
              rw [openMatch, hfind] at h
              exact ih h
          | some n =>
              rw [openMatch, hfind] at h
              dsimp only at h
              split_ifs at h
              · cases h
                refine ⟨List.cons_ne_nil _ _, prev, ?_⟩
                rw [hfind]
                rfl
              · exact ih h

/-- A list with nothing open at its end is settled before its filling is looked at. -/
theorem substitute_of_openMatch_none {probe filling : List α} {reach : ℕ} {l : List α}
    (hind : ∀ l', l' ≠ [] → l' <:+ l → Indifferent find probe l' filling reach)
    {skip : ℕ} {prev : Option α} (hskip : skip ≤ l.length)
    (hopen : openMatch find probe skip prev l = none) :
    substitute find rewrite skip prev (l ++ filling) =
      settled find rewrite probe skip prev l ++
        substitute find rewrite 0 (l.getLast?.or prev) filling := by
  induction l generalizing skip prev with
  | nil =>
      obtain rfl : skip = 0 := Nat.le_zero.mp hskip
      rfl
  | cons x rest ih =>
      have hrest : ∀ l', l' ≠ [] → l' <:+ rest → Indifferent find probe l' filling reach :=
        fun l' hne hsuffix => hind l' hne (hsuffix.trans (List.suffix_cons ..))
      have hlast : (rest.getLast?.or (some x)) = ((x :: rest).getLast?.or prev) := by
        cases rest with
        | nil => rfl
        | cons y rest => rw [List.getLast?_cons_cons, List.getLast?_eq_some_getLast (by simp)]; rfl
      cases skip with
      | succ skip =>
          -- a position inside an earlier match: nothing is searched here
          rw [List.cons_append, substitute, settled, ← hlast]
          exact ih hrest (Nat.le_of_succ_le_succ hskip) hopen
      | zero =>
          have hfind : find prev (x :: (rest ++ filling)) = _ :=
            hind (x :: rest) (List.cons_ne_nil _ _) (List.suffix_refl _) prev
          cases hprobe : find prev (x :: rest ++ probe) with
          | none =>
              rw [hprobe, Option.map_none] at hfind
              rw [openMatch, hprobe] at hopen
              rw [List.cons_append, substitute_of_none hfind, settled, hprobe, ← hlast]
              exact congrArg (x :: ·) (ih hrest (Nat.zero_le _) hopen)
          | some n =>
              -- a match that ends before the hole is the same whatever fills the hole
              rw [openMatch, hprobe] at hopen
              dsimp only at hopen
              split at hopen
              · cases hopen
              · rename_i hn
                rw [hprobe, Option.map_some, List.length_cons, if_neg hn] at hfind
                rw [List.cons_append, substitute_of_some hfind, settled, hprobe]
                dsimp only
                rw [if_neg hn, List.append_assoc, ← hlast]
                have htake : (x :: (rest ++ filling)).take n = (x :: rest).take n := by
                  rw [← List.cons_append, List.take_append_of_le_length]
                  rw [List.length_cons]
                  omega
                rw [htake]
                exact congrArg (_ ++ ·) (ih hrest (by omega) hopen)

/-- A match that is open at the end takes the first items of the filling, and is rewritten with
them. -/
theorem substitute_of_openMatch_some {probe filling : List α} {reach : ℕ} {l m : List α}
    (hreach : 1 ≤ reach) (hlength : reach ≤ filling.length)
    (hind : ∀ l', l' ≠ [] → l' <:+ l → Indifferent find probe l' filling reach)
    {skip : ℕ} {prev : Option α} (hopen : openMatch find probe skip prev l = some m) :
    substitute find rewrite skip prev (l ++ filling) =
      settled find rewrite probe skip prev l ++ rewrite (m ++ filling.take reach) ++
        substitute find rewrite 0 (filling.take reach).getLast? (filling.drop reach) := by
  induction l generalizing skip prev with
  | nil => cases skip <;> cases hopen
  | cons x rest ih =>
      have hrest : ∀ l', l' ≠ [] → l' <:+ rest → Indifferent find probe l' filling reach :=
        fun l' hne hsuffix => hind l' hne (hsuffix.trans (List.suffix_cons ..))
      cases skip with
      | succ skip =>
          rw [List.cons_append, substitute, settled]
          exact ih hrest hopen
      | zero =>
          have hfind : find prev (x :: (rest ++ filling)) = _ :=
            hind (x :: rest) (List.cons_ne_nil _ _) (List.suffix_refl _) prev
          cases hprobe : find prev (x :: rest ++ probe) with
          | none =>
              rw [hprobe, Option.map_none] at hfind
              rw [openMatch, hprobe] at hopen
              rw [List.cons_append, substitute_of_none hfind, settled, hprobe]
              simpa using ih hrest hopen
          | some n =>
              rw [openMatch, hprobe] at hopen
              dsimp only at hopen
              split at hopen
              · -- the match that is open at the hole takes `reach` elements of what fills it
                rename_i hn
                cases hopen
                rw [hprobe, Option.map_some, List.length_cons, if_pos hn] at hfind
                have hsplit : rest ++ filling =
                    (rest ++ filling.take reach) ++ filling.drop reach := by
                  rw [List.append_assoc, List.take_append_drop]
                have hskipped : rest.length + 1 + reach - 1 =
                    (rest ++ filling.take reach).length := by
                  rw [List.length_append, List.length_take, Nat.min_eq_left hlength]
                  omega
                have htake : (x :: (rest ++ filling)).take (rest.length + 1 + reach) =
                    x :: rest ++ filling.take reach := by
                  rw [Nat.add_right_comm, List.take_succ_cons, List.take_length_add_append]
                  rfl
                have hne : filling.take reach ≠ [] := by
                  intro hnil
                  have := congrArg List.length hnil
                  rw [List.length_take, Nat.min_eq_left hlength, List.length_nil] at this
                  omega
                have hlast : ((rest ++ filling.take reach).getLast?.or (some x)) =
                    (filling.take reach).getLast? := by
                  rw [List.getLast?_append_of_ne_nil _ hne, List.getLast?_eq_some_getLast hne]
                  rfl
                rw [List.cons_append, substitute_of_some hfind, settled, hprobe, htake, hskipped,
                  hsplit, substitute_append, hlast]
                dsimp only
                rw [if_pos hn, List.nil_append]
              · -- a match that ends before the hole is the same whatever fills the hole
                rename_i hn
                rw [hprobe, Option.map_some, List.length_cons, if_neg hn] at hfind
                rw [List.cons_append, substitute_of_some hfind, settled, hprobe]
                dsimp only
                rw [if_neg hn]
                have htake : (x :: (rest ++ filling)).take n = (x :: rest).take n := by
                  rw [← List.cons_append, List.take_append_of_le_length]
                  rw [List.length_cons]
                  omega
                rw [htake]
                simpa using ih hrest hopen

end Substitution
