import Mathlib.Data.List.Forall2

/-!
# Traversals that may fail

What `List.mapM` returns in `Except` and in `Option`, element by element.

A traversal succeeds when every element does (`exists_mapM_eq_ok`), its results stand against the
elements by `List.Forall₂` (`mapM_eq_ok`, `mapM_eq_some`), and it fails with what one of the
elements fails with (`mapM_eq_error`).  `mem_of_forall₂` and `exists_of_forall₂` go from a result to
its element and back, `forall₂_trans` composes two traversals, and `filterMap_of_mapM` is for
results of which only some are there.
-/

namespace Traversal

variable {α β ε : Type} {f : α → Except ε β} {l : List α} {bs : List β}

/-- What comes of two steps comes of the second, after the first. -/
theorem bind_eq_ok {x : Except ε α} {g : α → Except ε β} {b : β} :
    (x >>= g) = .ok b ↔ ∃ a, x = .ok a ∧ g a = .ok b := by
  cases x with
  | error e =>
      constructor
      · intro h
        cases h
      · rintro ⟨_, h, -⟩
        cases h
  | ok a => exact ⟨fun h => ⟨a, rfl, h⟩, fun ⟨_, ha, h⟩ => by cases ha; exact h⟩

/-- What `mapM` returns, element by element. -/
theorem mapM_eq_ok (h : l.mapM f = .ok bs) : List.Forall₂ (fun a b => f a = .ok b) l bs := by
  induction l generalizing bs with
  | nil =>
      cases h
      exact .nil
  | cons a rest ih =>
      rw [List.mapM_cons] at h
      cases ha : f a with
      | error e =>
          rw [ha] at h
          cases h
      | ok b =>
          cases hrest : rest.mapM f with
          | error e =>
              rw [ha, hrest] at h
              cases h
          | ok rest' =>
              rw [ha, hrest] at h
              cases h
              exact .cons ha (ih hrest)

/-- `mapM` succeeds when each element does. -/
theorem exists_mapM_eq_ok (h : ∀ a ∈ l, ∃ b, f a = .ok b) : ∃ bs, l.mapM f = .ok bs := by
  induction l with
  | nil => exact ⟨[], rfl⟩
  | cons a rest ih =>
      obtain ⟨b, hb⟩ := h a (List.mem_cons_self ..)
      obtain ⟨bs, hbs⟩ := ih fun a ha => h a (List.mem_cons_of_mem _ ha)
      refine ⟨b :: bs, ?_⟩
      rw [List.mapM_cons, hb, hbs]
      rfl

/-- `mapM` fails with what one of the elements fails with. -/
theorem mapM_eq_error {e : ε} (h : l.mapM f = .error e) : ∃ a ∈ l, f a = .error e := by
  induction l with
  | nil => cases h
  | cons a rest ih =>
      rw [List.mapM_cons] at h
      cases ha : f a with
      | error e' =>
          rw [ha] at h
          cases h
          exact ⟨a, List.mem_cons_self .., ha⟩
      | ok b =>
          cases hrest : rest.mapM f with
          | error e' =>
              rw [ha, hrest] at h
              cases h
              obtain ⟨c, hc, hfc⟩ := ih hrest
              exact ⟨c, List.mem_cons_of_mem _ hc, hfc⟩
          | ok rest' =>
              rw [ha, hrest] at h
              cases h

/-- The results are those of the elements. -/
theorem mem_of_forall₂ {R : α → β → Prop} (h : List.Forall₂ R l bs) {b : β} (hb : b ∈ bs) :
    ∃ a ∈ l, R a b := by
  induction h with
  | nil => cases hb
  | cons hab _ ih =>
      rcases List.mem_cons.mp hb with rfl | hb
      · exact ⟨_, List.mem_cons_self .., hab⟩
      · obtain ⟨c, hc, hcb⟩ := ih hb
        exact ⟨c, List.mem_cons_of_mem _ hc, hcb⟩

/-- Each element has its result. -/
theorem exists_of_forall₂ {R : α → β → Prop} (h : List.Forall₂ R l bs) {a : α} (ha : a ∈ l) :
    ∃ b ∈ bs, R a b := by
  induction h with
  | nil => cases ha
  | cons hab _ ih =>
      rcases List.mem_cons.mp ha with rfl | ha
      · exact ⟨_, List.mem_cons_self .., hab⟩
      · obtain ⟨c, hc, hac⟩ := ih ha
        exact ⟨c, List.mem_cons_of_mem _ hc, hac⟩

/-- The results of the results are reached through them. -/
theorem forall₂_trans {γ : Type*} {R : α → β → Prop} {S : β → γ → Prop} {cs : List γ}
    (h : List.Forall₂ R l bs) (hcs : List.Forall₂ S bs cs) :
    List.Forall₂ (fun a c => ∃ b, R a b ∧ S b c) l cs := by
  induction h generalizing cs with
  | nil =>
      cases hcs
      exact .nil
  | cons hab _ ih =>
      cases hcs with
      | cons hbc hrest => exact .cons ⟨_, hab, hbc⟩ (ih hrest)

/-- The results that are there, of a traversal that succeeds. -/
theorem filterMap_of_mapM {f : α → Except ε (Option β)} {outcomes : List (Option β)}
    (h : l.mapM f = .ok outcomes) :
    outcomes.filterMap id = l.filterMap fun a => (f a).toOption.join := by
  have hall := mapM_eq_ok h
  clear h
  induction hall with
  | nil => rfl
  | @cons a outcome rest outcomes houtcome _ ih =>
      have hhead : (f a).toOption.join = outcome := by rw [houtcome]; rfl
      rw [List.filterMap_cons, List.filterMap_cons, hhead, ih]
      rfl

/-- What `mapM` returns in `Option`, element by element. -/
theorem mapM_eq_some {f : α → Option β} (h : l.mapM f = some bs) :
    List.Forall₂ (fun a b => f a = some b) l bs := by
  induction l generalizing bs with
  | nil =>
      cases h
      exact .nil
  | cons a rest ih =>
      rw [List.mapM_cons] at h
      obtain ⟨b, hb, h⟩ := Option.bind_eq_some_iff.mp h
      obtain ⟨rest', hrest, h⟩ := Option.bind_eq_some_iff.mp h
      cases h
      exact .cons hb (ih hrest)

/-- The results in another order are those of the elements in another order. -/
theorem exists_filterMap_eq {f : α → Option β} {g : β → α} {cs : List α} {l : List β}
    (hg : ∀ a b, f a = some b → g b = a) (h : l.Perm (cs.filterMap f)) :
    ∃ as : List α, as.Perm cs ∧ as.filterMap f = l := by
  -- the elements without a result may go anywhere, so they are put last
  refine ⟨l.map g ++ cs.filter fun a => (f a).isNone, ?_, ?_⟩
  · refine ((h.map g).append_right _).trans ?_
    clear h
    induction cs with
    | nil => exact .nil
    | cons a rest ih =>
        cases ha : f a with
        | none =>
            rw [List.filterMap_cons_none ha, List.filter_cons_of_pos (by rw [ha]; rfl)]
            exact List.perm_middle.trans (ih.cons a)
        | some b =>
            rw [List.filterMap_cons_some ha, List.filter_cons_of_neg (by rw [ha]; simp),
              List.map_cons, hg a b ha]
            exact ih.cons a
  · have hnone : (cs.filter fun a => (f a).isNone).filterMap f = [] := by
      rw [List.filterMap_eq_nil_iff]
      intro a ha
      exact Option.isNone_iff_eq_none.mp (List.mem_filter.mp ha).2
    have hsome : ∀ b ∈ l, f (g b) = some b := by
      intro b hb
      obtain ⟨a, -, ha⟩ := List.mem_filterMap.mp (h.subset hb)
      rw [hg a b ha, ha]
    rw [List.filterMap_append, hnone, List.append_nil, List.filterMap_map]
    clear h hnone
    induction l with
    | nil => rfl
    | cons b rest ih =>
        have hb : (f ∘ g) b = some b := hsome b (List.mem_cons_self ..)
        rw [List.filterMap_cons_some hb, ih fun c hc => hsome c (List.mem_cons_of_mem _ hc)]

end Traversal
