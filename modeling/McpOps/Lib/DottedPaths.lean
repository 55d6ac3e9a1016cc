import Mathlib.Data.List.Basic

/-!
# Dotted paths

The pieces of a list between separators, empty ones left out, and the walk along names from one
value to the next.

Both are over any type: `pieces` is what splitting at a separator and dropping empty pieces gives,
and `follow` takes the names one by one with a step that may fail.

## Main lemmas

* `pieces_append_cons`: a separator in the middle splits the pieces.
* `pieces_append_of_forall_eq`: separators at the end change nothing.
* `flatten_pieces`: the pieces are the list without its separators.
* `follow_nest` and `eq_of_follow_nest`: a leaf that is nested under some names is found along these
  names, and along no others.
-/

namespace DottedPath

/-! ## Pieces -/

section Pieces

variable {α : Type*} [DecidableEq α] {sep : α}

/-- The pieces of a list between the separators that are not empty. -/
def pieces (sep : α) (l : List α) : List (List α) := (l.splitOn sep).filter (· ≠ [])

@[simp] theorem pieces_nil : pieces sep [] = [] := rfl

theorem pieces_append_cons (a b : List α) :
    pieces sep (a ++ sep :: b) = pieces sep a ++ pieces sep b := by
  rw [pieces, List.splitOn_append_cons_self, List.filter_append]
  rfl

/-- A list without a separator is one piece. -/
theorem pieces_of_notMem {a : List α} (hne : a ≠ []) (hsep : sep ∉ a) : pieces sep a = [a] := by
  rw [pieces, List.splitOn_eq_singleton hsep, List.filter_cons_of_pos (by simpa using hne)]
  rfl

/-- Separators at the end change nothing. -/
theorem pieces_append_of_forall_eq (a : List α) {b : List α} (hb : ∀ c ∈ b, c = sep) :
    pieces sep (a ++ b) = pieces sep a := by
  induction b generalizing a with
  | nil => rw [List.append_nil]
  | cons c b ih =>
      have hc : c = sep := hb c (List.mem_cons_self ..)
      have hrest : pieces sep ([] ++ b) = pieces sep [] :=
        ih [] fun c' hc' => hb c' (List.mem_cons_of_mem c hc')
      rw [hc, pieces_append_cons]
      rw [List.nil_append, pieces_nil] at hrest
      rw [hrest, List.append_nil]

/-- What is left of a list without its separators. -/
theorem flatten_pieces (l : List α) : (pieces sep l).flatten = l.filter (· ≠ sep) := by
  have hempty : ∀ ls : List (List α), (ls.filter (· ≠ [])).flatten = ls.flatten := by
    intro ls
    induction ls with
    | nil => rfl
    | cons piece ls ih =>
        by_cases hpiece : piece = []
        · rw [List.filter_cons_of_neg (by simpa using hpiece), ih, hpiece]
          rfl
        · rw [List.filter_cons_of_pos (by simpa using hpiece), List.flatten_cons,
            List.flatten_cons, ih]
  rw [pieces, hempty]
  induction l with
  | nil => rfl
  | cons c l ih =>
      rw [List.splitOn_cons_eq_if_modifyHead]
      by_cases hc : c = sep
      · rw [if_pos (by simpa using hc), List.filter_cons_of_neg (by simpa using hc), ← ih]
        rfl
      · rw [if_neg (by simpa using hc), List.filter_cons_of_pos (by simpa using hc), ← ih]
        obtain ⟨first, rest, hsplit⟩ := List.exists_cons_of_ne_nil (List.splitOn_ne_nil sep l)
        rw [hsplit]
        rfl

end Pieces

/-! ## Walks -/

section Walks

variable {K V : Type*} (child : V → K → Option V) (wrap : K → V → V)

/-- The value that is reached along the names. -/
def follow (names : List K) (value : V) : Option V := names.foldlM child value

/-- The value that holds nothing but `leaf`, along the names. -/
def nest (names : List K) (leaf : V) : V := names.foldr wrap leaf

variable {child wrap}

theorem follow_cons (name : K) (names : List K) (value : V) :
    follow child (name :: names) value = (child value name).bind (follow child names) := rfl

theorem follow_nest (hchild : ∀ name value, child (wrap name value) name = some value)
    (names : List K) (leaf : V) : follow child names (nest wrap names leaf) = some leaf := by
  induction names with
  | nil => rfl
  | cons name names ih =>
      have hfirst : child (nest wrap (name :: names) leaf) name =
          some (nest wrap names leaf) := hchild name _
      rw [follow_cons, hfirst]
      exact ih

/-- The leaf of a nest is found along its own names only. -/
theorem eq_of_follow_nest (hchild : ∀ name value, child (wrap name value) name = some value)
    (honly : ∀ name value other, other ≠ name → child (wrap name value) other = none) {leaf : V}
    (hleaf : ∀ name, child leaf name = none) (hwrap : ∀ name value, wrap name value ≠ leaf)
    {names others : List K}
    (hfollow : follow child others (nest wrap names leaf) = some leaf) : others = names := by
  induction names generalizing others with
  | nil =>
      cases others with
      | nil => rfl
      | cons other others =>
          have hnone : child (nest wrap [] leaf) other = none := hleaf other
          rw [follow_cons, hnone] at hfollow
          cases hfollow
  | cons name names ih =>
      cases others with
      | nil => exact absurd (Option.some.inj hfollow) (hwrap name _)
      | cons other others =>
          rw [follow_cons] at hfollow
          by_cases hname : other = name
          · have hfirst : child (nest wrap (name :: names) leaf) name =
                some (nest wrap names leaf) := hchild name _
            rw [hname, hfirst] at hfollow
            rw [hname, ih hfollow]
          · have hnone : child (nest wrap (name :: names) leaf) other = none :=
              honly name _ other hname
            rw [hnone] at hfollow
            cases hfollow

end Walks

end DottedPath
