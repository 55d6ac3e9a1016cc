import Mathlib.Data.List.Basic
import Mathlib.Data.List.DropRight
import Mathlib.Data.List.Infix

/-!
# Runs without separators

The words of a list are its longest runs without separators.  Operations that change separators
only, or cut a list at separators, keep every such run somewhere; a cut at a position keeps the runs
that do not go on behind it.

## Strategy

Each operation is a function over lists with a predicate for separators, and has one lemma that
follows an unbroken run through it:

* `infix_trim`: separators at both ends are removed;
* `infix_collapse`: runs of separators become one;
* `infix_splitBehind`: the list is split between separators that stand behind a mark;
* `infix_take_or_cutOff`: the list is cut behind so many members, and what is lost is `cutOff`.

The lemmas about a list that begins with the run (`prefix_collapse`, `prefix_splitBehind`) carry the
inductions; those about an infix follow from them.
-/

namespace Runs

variable {α : Type} {sep : α → Bool} {w l l' : List α} {a : α}

/-- No member is a separator. -/
def Unbroken (sep : α → Bool) (w : List α) : Prop := ∀ a ∈ w, sep a = false

/-- The longest runs without separators, in order. -/
def words (sep : α → Bool) (l : List α) : List (List α) :=
  (l.splitOnP sep).filter fun w => !w.isEmpty

/-! ## Words -/

theorem splitOnP_head_prefix (sep : α → Bool) (l : List α) :
    ∃ first rest, l.splitOnP sep = first :: rest ∧ first <+: l := by
  cases l with
  | nil => exact ⟨[], [], List.splitOnP_nil, List.prefix_rfl⟩
  | cons a l =>
      obtain ⟨first, rest, hsplit, hpre⟩ := splitOnP_head_prefix sep l
      rw [List.splitOnP_cons_eq_if_modifyHead, hsplit]
      split
      · exact ⟨[], _, rfl, List.nil_prefix⟩
      · exact ⟨a :: first, rest, rfl, List.cons_prefix_cons.mpr ⟨rfl, hpre⟩⟩

theorem mem_splitOnP (h : w ∈ l.splitOnP sep) : Unbroken sep w ∧ w <:+: l := by
  induction l generalizing w with
  | nil =>
      rw [List.splitOnP_nil, List.mem_singleton] at h
      subst h
      exact ⟨fun _ ha => (by cases ha), List.infix_rfl⟩
  | cons a l ih =>
      obtain ⟨first, rest, hsplit, hpre⟩ := splitOnP_head_prefix sep l
      rw [List.splitOnP_cons_eq_if_modifyHead, hsplit] at h
      rw [hsplit] at ih
      split at h
      · rcases List.mem_cons.mp h with rfl | h
        · exact ⟨fun _ ha => (by cases ha), List.nil_infix⟩
        · exact ⟨(ih h).1, (ih h).2.trans (List.suffix_cons a l).isInfix⟩
      · rename_i hnot
        rcases List.mem_cons.mp h with rfl | h
        · refine ⟨?_, (List.cons_prefix_cons.mpr ⟨rfl, hpre⟩).isInfix⟩
          intro b hb
          rcases List.mem_cons.mp hb with rfl | hb
          · exact Bool.eq_false_iff.mpr hnot
          · exact (ih (List.mem_cons_self ..)).1 b hb
        · have hmem := ih (List.mem_cons_of_mem _ h)
          exact ⟨hmem.1, hmem.2.trans (List.suffix_cons a l).isInfix⟩

/-- A word is a run. -/
theorem of_mem_words (h : w ∈ words sep l) : w ≠ [] ∧ Unbroken sep w ∧ w <:+: l := by
  obtain ⟨hmem, hne⟩ := List.mem_filter.mp h
  exact ⟨by simpa using hne, mem_splitOnP hmem⟩

theorem words_append_cons (l l' : List α) (ha : sep a) :
    words sep (l ++ a :: l') = words sep l ++ words sep l' := by
  rw [words, List.splitOnP_append_cons l l' ha, List.filter_append, words, words]

@[simp] theorem words_nil : words sep ([] : List α) = [] := rfl

theorem words_cons (l : List α) (ha : sep a) : words sep (a :: l) = words sep l :=
  words_append_cons [] l ha

theorem words_of_unbroken (h : Unbroken sep w) (hne : w ≠ []) : words sep w = [w] := by
  rw [words, List.splitOnP_eq_singleton h, List.filter_cons_of_pos (by simpa using hne),
    List.filter_nil]

/-- Separators have no words. -/
theorem words_append_of_sep (h : ∀ a ∈ l, sep a) (l' : List α) :
    words sep (l ++ l') = words sep l' := by
  induction l with
  | nil => rfl
  | cons a rest ih =>
      rw [List.cons_append, words_cons _ (h a (List.mem_cons_self ..)),
        ih fun b hb => h b (List.mem_cons_of_mem _ hb)]

/-- Words end where a list begins with a separator. -/
theorem words_append_of_head (l : List α) (h : ∀ a, l'.head? = some a → sep a) :
    words sep (l ++ l') = words sep l ++ words sep l' := by
  cases l' with
  | nil => rw [List.append_nil, words_nil, List.append_nil]
  | cons a rest =>
      have ha := h a rfl
      rw [words_append_cons l rest ha, words_cons rest ha]

/-! ## Runs in other lists -/

section Infix

variable (hw : Unbroken sep w) (hne : w ≠ [])

include hw hne

theorem not_prefix_sep (ha : sep a) : ¬w <+: a :: l := by
  intro hpre
  cases w with
  | nil => exact hne rfl
  | cons b rest =>
      obtain ⟨rfl, -⟩ := List.cons_prefix_cons.mp hpre
      rw [hw b (List.mem_cons_self ..)] at ha
      cases ha

theorem infix_dropWhile (h : w <:+: l) : w <:+: l.dropWhile sep := by
  induction l with
  | nil => exact h
  | cons a rest ih =>
      by_cases ha : sep a
      · rw [List.dropWhile_cons_of_pos ha]
        exact ih ((List.infix_cons_iff.mp h).resolve_left (not_prefix_sep hw hne ha))
      · rw [List.dropWhile_cons_of_neg ha]
        exact h

end Infix

/-! ## Trimming and collapsing -/

/-- The list without the separators at both ends. -/
def trim (sep : α → Bool) (l : List α) : List α :=
  (l.dropWhile sep).rdropWhile sep

theorem infix_trim (hw : Unbroken sep w) (hne : w ≠ []) (h : w <:+: l) : w <:+: trim sep l := by
  have hreverse : Unbroken sep w.reverse := fun a ha => hw a (List.mem_reverse.mp ha)
  have hback := infix_dropWhile hreverse (by simpa using hne) (infix_dropWhile hw hne h).reverse
  have hforth := hback.reverse
  rwa [List.reverse_reverse] at hforth

theorem exists_mem_trim (h : trim sep l ≠ []) : ∃ a ∈ trim sep l, sep a = false := by
  refine ⟨_, List.getLast_mem h, ?_⟩
  exact Bool.eq_false_iff.mpr (List.rdropWhile_last_not sep _ h)

/-- Every run of separators becomes one `blank`; `after` tells whether one has been left. -/
def collapse (sep : α → Bool) (blank : α) : (after : Bool) → List α → List α
  | _, [] => []
  | after, a :: rest =>
      if sep a then
        if after then collapse sep blank true rest else blank :: collapse sep blank true rest
      else a :: collapse sep blank false rest

theorem prefix_collapse (hw : Unbroken sep w) (blank : α) (after : Bool) (h : w <+: l) :
    w <+: collapse sep blank after l := by
  induction l generalizing w after with
  | nil => exact h
  | cons a rest ih =>
      cases w with
      | nil => exact List.nil_prefix
      | cons b w =>
          obtain ⟨rfl, hrest⟩ := List.cons_prefix_cons.mp h
          rw [collapse, if_neg (Bool.eq_false_iff.mp (hw b (List.mem_cons_self ..)))]
          exact List.cons_prefix_cons.mpr
            ⟨rfl, ih (fun c hc => hw c (List.mem_cons_of_mem _ hc)) false hrest⟩

theorem infix_collapse (hw : Unbroken sep w) (blank : α) (after : Bool) (h : w <:+: l) :
    w <:+: collapse sep blank after l := by
  induction l generalizing after with
  | nil => exact h
  | cons a rest ih =>
      rcases List.infix_cons_iff.mp h with hpre | hrest
      · exact (prefix_collapse hw blank after hpre).isInfix
      · rw [collapse]
        split
        · split
          · exact ih true hrest
          · exact (ih true hrest).trans (List.suffix_cons ..).isInfix
        · exact (ih false hrest).trans (List.suffix_cons ..).isInfix

/-! ## Splitting behind marks -/

/-- The pieces between runs of separators that stand behind a mark: `marked` tells whether the last
member was a mark, and `gap` whether such a run has begun. -/
def splitBehind (sep mark : α → Bool) : (marked gap : Bool) → List α → List (List α)
  | _, _, [] => [[]]
  | marked, gap, a :: rest =>
      if sep a ∧ gap then splitBehind sep mark false true rest
      else if sep a ∧ marked then [] :: splitBehind sep mark false true rest
      else (splitBehind sep mark (mark a) false rest).modifyHead (a :: ·)

theorem splitBehind_ne_nil (sep mark : α → Bool) (marked gap : Bool) (l : List α) :
    splitBehind sep mark marked gap l ≠ [] := by
  induction l generalizing marked gap with
  | nil => exact List.cons_ne_nil _ _
  | cons a rest ih =>
      rw [splitBehind]
      split
      · exact ih false true
      · split
        · exact List.cons_ne_nil _ _
        · rw [ne_eq, List.modifyHead_eq_nil_iff]
          exact ih _ _

/-- What a list of pieces begins with. -/
theorem prefix_splitBehind (hw : Unbroken sep w) (hne : w ≠ []) (mark : α → Bool)
    (marked gap : Bool) (h : w <+: l) :
    ∃ piece rest, splitBehind sep mark marked gap l = piece :: rest ∧ w <+: piece := by
  induction l generalizing w marked gap with
  | nil => exact absurd (List.prefix_nil.mp h) hne
  | cons a rest ih =>
      cases w with
      | nil => exact absurd rfl hne
      | cons b w =>
          obtain ⟨rfl, hrest⟩ := List.cons_prefix_cons.mp h
          have hb : ¬sep b = true := Bool.eq_false_iff.mp (hw b (List.mem_cons_self ..))
          rw [splitBehind, if_neg fun h => hb h.1, if_neg fun h => hb h.1]
          cases w with
          | nil =>
              cases hsplit : splitBehind sep mark (mark b) false rest with
              | nil => cases splitBehind_ne_nil _ _ _ _ _ hsplit
              | cons piece pieces =>
                  exact ⟨b :: piece, pieces, rfl,
                    List.cons_prefix_cons.mpr ⟨rfl, List.nil_prefix⟩⟩
          | cons c w =>
              obtain ⟨piece, pieces, hsplit, hpre⟩ := ih
                (fun d hd => hw d (List.mem_cons_of_mem _ hd)) (List.cons_ne_nil c w) (mark b) false
                hrest
              rw [hsplit]
              exact ⟨b :: piece, pieces, rfl, List.cons_prefix_cons.mpr ⟨rfl, hpre⟩⟩

theorem infix_splitBehind (hw : Unbroken sep w) (hne : w ≠ []) (mark : α → Bool)
    (marked gap : Bool) (h : w <:+: l) :
    ∃ piece ∈ splitBehind sep mark marked gap l, w <:+: piece := by
  induction l generalizing marked gap with
  | nil => exact absurd (List.infix_nil.mp h) hne
  | cons a rest ih =>
      rcases List.infix_cons_iff.mp h with hpre | hrest
      · obtain ⟨piece, pieces, hsplit, hpiece⟩ :=
          prefix_splitBehind hw hne mark marked gap hpre
        exact ⟨piece, hsplit ▸ List.mem_cons_self .., hpiece.isInfix⟩
      · rw [splitBehind]
        split
        · exact ih false true hrest
        · split
          · obtain ⟨piece, hpiece, hin⟩ := ih false true hrest
            exact ⟨piece, List.mem_cons_of_mem _ hpiece, hin⟩
          · obtain ⟨piece, hpiece, hin⟩ := ih (mark a) false hrest
            cases hsplit : splitBehind sep mark (mark a) false rest with
            | nil => cases splitBehind_ne_nil _ _ _ _ _ hsplit
            | cons first pieces =>
                rw [hsplit] at hpiece
                rcases List.mem_cons.mp hpiece with rfl | hlater
                · exact ⟨a :: piece, List.mem_cons_self ..,
                    hin.trans (List.suffix_cons ..).isInfix⟩
                · exact ⟨piece, List.mem_cons_of_mem _ hlater, hin⟩

/-! ## Cutting -/

/-- The run that a list ends with. -/
def lastRun (sep : α → Bool) (l : List α) : List α :=
  l.rtakeWhile fun a => !sep a

/-- What a cut behind `n` members loses: the rest, with the run that ends at the cut. -/
def cutOff (sep : α → Bool) (n : ℕ) (l : List α) : List α :=
  if l.length ≤ n then [] else lastRun sep (l.take n) ++ l.drop n

theorem prefix_takeWhile {p : α → Bool} (hw : ∀ a ∈ w, p a) (h : w <+: l) :
    w <+: l.takeWhile p := by
  induction l generalizing w with
  | nil => exact h
  | cons a rest ih =>
      cases w with
      | nil => exact List.nil_prefix
      | cons b w =>
          obtain ⟨rfl, hrest⟩ := List.cons_prefix_cons.mp h
          rw [List.takeWhile_cons_of_pos (hw b (List.mem_cons_self ..))]
          exact List.cons_prefix_cons.mpr
            ⟨rfl, ih (fun c hc => hw c (List.mem_cons_of_mem _ hc)) hrest⟩

theorem suffix_lastRun (hw : Unbroken sep w) (h : w <:+ l) : w <:+ lastRun sep l := by
  rw [← List.reverse_prefix, lastRun, List.rtakeWhile, List.reverse_reverse]
  refine prefix_takeWhile (fun a ha => ?_) (List.reverse_prefix.mpr h)
  rw [hw a (List.mem_reverse.mp ha)]
  rfl

/-- A run is before the cut, or among what the cut loses. -/
theorem infix_take_or_cutOff (hw : Unbroken sep w) (n : ℕ) (h : w <:+: l) :
    w <:+: l.take n ∨ w <:+: cutOff sep n l := by
  rw [cutOff]
  split
  · rename_i hshort
    rw [List.take_of_length_le hshort]
    exact .inl h
  · rw [← List.take_append_drop n l] at h
    rcases List.infix_append_iff.mp h with hleft | hright | ⟨w₁, w₂, rfl, hsuffix, hpre⟩
    · exact .inl hleft
    · exact .inr (hright.trans List.infix_append_right)
    · right
      have hlast := suffix_lastRun (fun a ha => hw a (List.mem_append_left _ ha)) hsuffix
      obtain ⟨before, hbefore⟩ := hlast
      obtain ⟨after, hafter⟩ := hpre
      rw [← hbefore, ← hafter]
      exact ⟨before, after, by simp⟩

end Runs
