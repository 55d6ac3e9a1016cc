import Mathlib.Data.Finset.Union

/-!
# Coverage by a selection

What the members of a list cover together, and how coverage behaves when members are added,
reordered and replaced.  A member may be replaced without loss when the others cover all that it
covers.

`covered` is a union, so it is monotone (`covered_mono`) and blind to the order (`covered_perm`).
The step that a replacement needs is `covered_set`: what the selection covers of `wanted` is still
covered after one member is replaced, if the others cover that member's part.  It rests on
`mem_set_of_nodup`, which says who is left after the replacement.
-/

namespace Coverage

variable {α κ : Type*} [DecidableEq κ] {f : α → Finset κ} {l l' : List α} {a b : α} {k : κ}

/-- What the members of `l` cover. -/
def covered (f : α → Finset κ) (l : List α) : Finset κ := (l.map f).foldr (· ∪ ·) ∅

@[simp] theorem covered_nil : covered f [] = ∅ := rfl

@[simp] theorem covered_cons : covered f (a :: l) = f a ∪ covered f l := rfl

theorem mem_covered : k ∈ covered f l ↔ ∃ a ∈ l, k ∈ f a := by
  induction l with
  | nil => simp
  | cons a rest ih => simp [ih]

/-- A larger selection covers more. -/
theorem covered_mono (h : l ⊆ l') : covered f l ⊆ covered f l' := by
  intro k hk
  obtain ⟨a, ha, hak⟩ := mem_covered.mp hk
  exact mem_covered.mpr ⟨a, h ha, hak⟩

/-- Coverage does not depend on the order. -/
theorem covered_perm (h : l.Perm l') : covered f l = covered f l' :=
  Finset.Subset.antisymm (covered_mono h.subset) (covered_mono h.symm.subset)

/-- The members other than the one at `i`. -/
theorem mem_eraseIdx_of_ne {i j : ℕ} (hj : l[j]? = some a) (hne : j ≠ i) : a ∈ l.eraseIdx i :=
  List.mem_eraseIdx_iff_getElem?.mpr ⟨j, hne, hj⟩

/-- The members of a list without repetitions in which one is replaced. -/
theorem mem_set_of_nodup {c : α} {i : ℕ} (h : l.Nodup) (hi : l[i]? = some a) :
    c ∈ l.set i b ↔ c = b ∨ c ≠ a ∧ c ∈ l := by
  have hlt := (List.getElem?_eq_some_iff.mp hi).1
  constructor
  · intro hc
    obtain ⟨j, hj⟩ := List.mem_iff_getElem?.mp hc
    by_cases hne : j = i
    · rw [hne, List.getElem?_set_self hlt] at hj
      exact .inl (Option.some_inj.mp hj).symm
    · rw [List.getElem?_set_ne (Ne.symm hne)] at hj
      refine .inr ⟨fun heq => hne ?_, List.mem_of_getElem? hj⟩
      rw [heq] at hj
      exact ((List.getElem?_inj hlt h).mp (hi.trans hj.symm)).symm
  · rintro (rfl | ⟨hne, hc⟩)
    · exact List.mem_set hlt _
    · obtain ⟨j, hj⟩ := List.mem_iff_getElem?.mp hc
      refine List.mem_iff_getElem?.mpr ⟨j, ?_⟩
      rw [List.getElem?_set_ne, hj]
      rintro rfl
      exact hne (Option.some_inj.mp (hj.symm.trans hi))

/-- A member whose part of `wanted` the others cover may be replaced: what is covered of `wanted`
stays covered. -/
theorem covered_set {wanted : Finset κ} {i : ℕ} (hi : l[i]? = some a)
    (hredundant : f a ∩ wanted ⊆ covered f (l.eraseIdx i)) (b : α) :
    covered f l ∩ wanted ⊆ covered f (l.set i b) := by
  intro k hk
  obtain ⟨hcovered, hwanted⟩ := Finset.mem_inter.mp hk
  have hother : k ∈ covered f (l.eraseIdx i) := by
    obtain ⟨c, hc, hck⟩ := mem_covered.mp hcovered
    obtain ⟨j, hj⟩ := List.mem_iff_getElem?.mp hc
    by_cases hne : j = i
    · rw [hne, hi] at hj
      cases hj
      exact hredundant (Finset.mem_inter.mpr ⟨hck, hwanted⟩)
    · exact mem_covered.mpr ⟨c, mem_eraseIdx_of_ne hj hne, hck⟩
  obtain ⟨c, hc, hck⟩ := mem_covered.mp hother
  obtain ⟨j, hne, hj⟩ := List.mem_eraseIdx_iff_getElem?.mp hc
  refine mem_covered.mpr ⟨c, List.mem_iff_getElem?.mpr ⟨j, ?_⟩, hck⟩
  rw [List.getElem?_set_ne hne.symm, hj]

end Coverage
