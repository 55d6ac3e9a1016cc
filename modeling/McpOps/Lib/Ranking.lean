import Mathlib.Data.List.Count
import Mathlib.Data.List.Sort
import Mathlib.Logic.Function.Basic
import Mathlib.Order.Defs.LinearOrder

/-!
# Rankings

Sorting by a rank, and keeping at most so many members of each group.  A stable sort leaves members
of one rank in the order in which they come; how far a ranking depends on that order is a matter of
its ties.

## Strategy

`best` is a sort by rank, a limit per group (`limitPer`) and a cut after `k` members.  A member is
`Crowded` when the members of a smaller rank leave it no place, in its group or at all.

* Crowded members can be left out: `take_limitPer_filter` for a sorted list, `best_filter` for the
  whole.  What is left has ties only between members that are not crowded out, so
  `best_eq_of_perm`: without such ties the order of the members makes no difference.
* Conversely `best_ne`: of two tied members that are not crowded out the one that comes first is
  selected first, so the order does make a difference.

`pool` is what an index returns, the first members by rank.  The order matters to a pool where it
ends among the members of a rank (`CutAt`).  `best_pool_eq_of_perm` and `exists_mem_best_pool` are
the two directions for the best members of a pool.
-/

namespace Ranking

variable {α κ ρ : Type}

/-! ## Limits per group -/

section Limits

variable [DecidableEq κ]

/-- Keep at most `n` members of each group, of which `seen` have been kept already. -/
def limitPer (group : α → κ) (n : ℕ) (seen : κ → ℕ) : List α → List α
  | [] => []
  | a :: rest =>
      if n ≤ seen (group a) then limitPer group n seen rest
      else a :: limitPer group n (Function.update seen (group a) (seen (group a) + 1)) rest

variable {group : α → κ} {n : ℕ} {seen : κ → ℕ} {l l' : List α}

theorem limitPer_sublist (group : α → κ) (n : ℕ) (seen : κ → ℕ) (l : List α) :
    (limitPer group n seen l).Sublist l := by
  induction l generalizing seen with
  | nil => exact .slnil
  | cons a rest ih =>
      rw [limitPer]
      split
      · exact (ih seen).cons a
      · exact (ih _).cons_cons a

/-- How many members of a group are kept. -/
theorem count_limitPer (group : α → κ) (n : ℕ) (seen : κ → ℕ) (l : List α) (k : κ) :
    ((limitPer group n seen l).map group).count k = min ((l.map group).count k) (n - seen k) := by
  induction l generalizing seen with
  | nil => simp [limitPer]
  | cons a rest ih =>
      rw [limitPer]
      by_cases hkey : group a = k
      · subst hkey
        split
        · rw [ih, List.map_cons, List.count_cons_self]
          omega
        · rw [List.map_cons, List.count_cons_self, List.map_cons, List.count_cons_self, ih,
            Function.update_self]
          omega
      · have hne : (group a == k) = false := beq_eq_false_iff_ne.mpr hkey
        split
        · rw [ih, List.map_cons, List.count_cons_of_ne hkey]
        · rw [List.map_cons, List.count_cons_of_ne hkey, List.map_cons, List.count_cons_of_ne hkey,
            ih, Function.update_of_ne (Ne.symm hkey)]

/-- Where no group is too large, all members are kept. -/
theorem limitPer_eq_self (h : ∀ k, seen k + (l.map group).count k ≤ n) :
    limitPer group n seen l = l := by
  have hkeys : ((limitPer group n seen l).map group).Perm (l.map group) := by
    rw [List.perm_iff_count]
    intro k
    rw [count_limitPer]
    have hk := h k
    omega
  have hlength := hkeys.length_eq
  rw [List.length_map, List.length_map] at hlength
  exact (limitPer_sublist group n seen l).eq_of_length hlength

/-- How many members are kept does not depend on their order. -/
theorem length_limitPer_perm (group : α → κ) (n : ℕ) (seen : κ → ℕ) (h : l.Perm l') :
    (limitPer group n seen l).length = (limitPer group n seen l').length := by
  have hkeys : ((limitPer group n seen l).map group).Perm
      ((limitPer group n seen l').map group) := by
    rw [List.perm_iff_count]
    intro k
    rw [count_limitPer, count_limitPer, (h.map group).count_eq]
  simpa using hkeys.length_eq

/-- The members that come later are limited by what has been kept before them. -/
theorem limitPer_append (group : α → κ) (n : ℕ) (seen : κ → ℕ) (l l' : List α) :
    limitPer group n seen (l ++ l') = limitPer group n seen l ++
      limitPer group n (fun k => seen k + ((limitPer group n seen l).map group).count k) l' := by
  induction l generalizing seen with
  | nil => simp [limitPer]
  | cons a rest ih =>
      rw [List.cons_append, limitPer, limitPer]
      split
      · exact ih seen
      · rw [ih, List.cons_append, List.map_cons]
        congr 3
        funext k
        by_cases hkey : k = group a
        · subst hkey
          rw [Function.update_self, List.count_cons_self]
          omega
        · rw [Function.update_of_ne hkey, List.count_cons_of_ne (Ne.symm hkey)]

/-- A member that finds its group full, or the places taken, can be left out. -/
theorem take_limitPer_append_cons (a : α) (l l' : List α) {k : ℕ}
    (h : n ≤ ((limitPer group n (fun _ => 0) l).map group).count (group a) ∨
      k ≤ (limitPer group n (fun _ => 0) l).length) :
    (limitPer group n (fun _ => 0) (l ++ a :: l')).take k =
      (limitPer group n (fun _ => 0) (l ++ l')).take k := by
  rw [limitPer_append, limitPer_append group n _ l l']
  rcases h with hfull | htaken
  · rw [limitPer, if_pos (by rwa [Nat.zero_add])]
  · rw [List.take_append_of_le_length htaken, List.take_append_of_le_length htaken]

/-- Among more members no fewer are kept. -/
theorem length_limitPer_le (group : α → κ) (n : ℕ) (seen : κ → ℕ) (h : l.Subperm l') :
    (limitPer group n seen l).length ≤ (limitPer group n seen l').length := by
  obtain ⟨found, hfound, hsublist⟩ := h
  obtain ⟨others, hothers⟩ := hsublist.exists_perm_append
  rw [length_limitPer_perm group n seen hothers, limitPer_append, List.length_append,
    length_limitPer_perm group n seen hfound]
  exact Nat.le_add_right ..

end Limits

/-! ## Sorting by rank -/

section Sorting

variable [LinearOrder ρ] {rank : α → ρ} {l l' : List α} {a b : α}

/-- The members by rank, those of one rank in their order. -/
def sortOn (rank : α → ρ) (l : List α) : List α := l.mergeSort fun a b => decide (rank a ≤ rank b)

theorem sortOn_perm (rank : α → ρ) (l : List α) : (sortOn rank l).Perm l := List.mergeSort_perm ..

theorem rank_trans (rank : α → ρ) (a b c : α) (hab : decide (rank a ≤ rank b))
    (hbc : decide (rank b ≤ rank c)) : decide (rank a ≤ rank c) :=
  decide_eq_true ((of_decide_eq_true hab).trans (of_decide_eq_true hbc))

theorem rank_total (rank : α → ρ) (a b : α) :
    (decide (rank a ≤ rank b) || decide (rank b ≤ rank a)) = true := by
  simpa using le_total (rank a) (rank b)

theorem pairwise_sortOn (rank : α → ρ) (l : List α) :
    (sortOn rank l).Pairwise fun a b => rank a ≤ rank b := by
  have hsorted := List.pairwise_mergeSort (rank_trans rank) (rank_total rank) l
  exact hsorted.imp of_decide_eq_true

/-- Without ties the ranking does not depend on the order of the members. -/
theorem sortOn_eq_of_perm (h : l.Perm l')
    (hties : ∀ a ∈ l, ∀ b ∈ l, rank a = rank b → a = b) : sortOn rank l = sortOn rank l' := by
  refine List.Perm.eq_of_pairwise ?_ (pairwise_sortOn rank l) (pairwise_sortOn rank l')
    ((sortOn_perm rank l).trans (h.trans (sortOn_perm rank l').symm))
  intro a b ha hb hab hba
  exact hties a ((sortOn_perm rank l).subset ha) b (h.symm.subset ((sortOn_perm rank l').subset hb))
    (le_antisymm hab hba)

/-- The first member comes before all of its rank: what precedes it are the members of a smaller
rank. -/
theorem sortOn_cons (rank : α → ρ) (a : α) (l : List α) :
    ∃ before after, sortOn rank (a :: l) = before ++ a :: after ∧
      before.Perm (l.filter fun b => decide (rank b < rank a)) := by
  obtain ⟨before, after, hcons, hrest, hbefore⟩ :=
    List.mergeSort_cons (rank_trans rank) (rank_total rank) a l
  refine ⟨before, after, hcons, ?_⟩
  have hperm : (before ++ after).Perm l := hrest ▸ List.mergeSort_perm ..
  have hsmaller : ∀ b ∈ before, rank b < rank a := by
    intro b hb
    have hnot := hbefore b hb
    simpa using hnot
  have hlater : ∀ b ∈ after, ¬rank b < rank a := by
    intro b hb
    have hsorted := pairwise_sortOn rank (a :: l)
    rw [sortOn, hcons] at hsorted
    have htail := (List.pairwise_append.mp hsorted).2.1
    exact not_lt.mpr ((List.pairwise_cons.mp htail).1 b hb)
  have hfilter := hperm.filter fun b => decide (rank b < rank a)
  rw [List.filter_append, List.filter_eq_self.mpr fun b hb => decide_eq_true (hsmaller b hb),
    List.filter_eq_nil_iff.mpr fun b hb => by simpa using hlater b hb, List.append_nil] at hfilter
  exact hfilter

end Sorting

/-! ## The best members -/

section Best

variable [DecidableEq κ] [LinearOrder ρ] {rank : α → ρ} {group : α → κ} {n k : ℕ}
  {l l' : List α} {a b : α}

/-- The members of a smaller rank. -/
def better (rank : α → ρ) (l : List α) (a : α) : List α :=
  l.filter fun b => decide (rank b < rank a)

/-- The first `k` members by rank, with at most `n` of each group. -/
def best (rank : α → ρ) (group : α → κ) (n k : ℕ) (l : List α) : List α :=
  (limitPer group n (fun _ => 0) (sortOn rank l)).take k

/-- Those of a smaller rank leave no place: neither in the group, nor at all. -/
def Crowded (group : α → κ) (n k : ℕ) (smaller : List α) (a : α) : Prop :=
  n ≤ (smaller.map group).count (group a) ∨
    k ≤ (limitPer group n (fun _ => 0) smaller).length

theorem Crowded.mono (h : Crowded group n k l a) (hsub : l.Subperm l')
    (hgroup : group b = group a) : Crowded group n k l' b := by
  rcases h with hfull | htaken
  · obtain ⟨found, hfound, hsublist⟩ := hsub
    refine .inl (hfull.trans ?_)
    rw [hgroup, ← (hfound.map group).count_eq]
    exact (hsublist.map group).count_le (group a)
  · exact .inr (htaken.trans (length_limitPer_le group n _ hsub))

/-- Crowded members can be left out of a sorted list. -/
theorem take_limitPer_filter (p : α → Bool) (l l' : List α)
    (hsorted : (l ++ l').Pairwise fun a b => rank a ≤ rank b)
    (h : ∀ a ∈ l', ¬p a → Crowded group n k (better rank (l ++ l') a) a) :
    (limitPer group n (fun _ => 0) (l ++ l')).take k =
      (limitPer group n (fun _ => 0) (l ++ l'.filter p)).take k := by
  induction l' generalizing l with
  | nil => rfl
  | cons a rest ih =>
      have hih := ih (l ++ [a]) (by rwa [List.append_assoc]) fun b hb hpb => by
        rw [List.append_assoc]
        exact h b (List.mem_cons_of_mem _ hb) hpb
      rw [List.append_assoc, List.singleton_append, List.append_assoc,
        List.singleton_append] at hih
      rw [hih]
      by_cases hpa : p a
      · rw [List.filter_cons_of_pos hpa]
      · rw [List.filter_cons_of_neg hpa]
        refine take_limitPer_append_cons a l (rest.filter p) ?_
        -- what has a smaller rank than `a` comes before it
        have hsub : (better rank (l ++ a :: rest) a).Subperm l := by
          have hlater : ∀ b ∈ a :: rest, ¬rank b < rank a := by
            intro b hb
            rcases List.mem_cons.mp hb with rfl | hb
            · exact lt_irrefl _
            · have hrest := (List.pairwise_append.mp hsorted).2.1
              exact not_lt.mpr ((List.pairwise_cons.mp hrest).1 b hb)
          have hnone : (a :: rest).filter (fun b => decide (rank b < rank a)) = [] :=
            List.filter_eq_nil_iff.mpr fun b hb => by simpa using hlater b hb
          rw [better, List.filter_append, hnone, List.append_nil]
          exact List.filter_sublist.subperm
        rcases (h a (List.mem_cons_self ..) hpa).mono hsub rfl with hfull | htaken
        · left
          rw [count_limitPer]
          omega
        · exact .inr htaken

theorem better_perm (rank : α → ρ) (a : α) (h : l.Perm l') :
    (better rank l a).Perm (better rank l' a) := h.filter _

/-- Crowded members can be left out. -/
theorem best_filter (p : α → Bool)
    (hties : ∀ a ∈ l, p a → ∀ b ∈ l, p b → rank a = rank b → a = b)
    (h : ∀ a ∈ l, ¬p a → Crowded group n k (better rank l a) a) :
    best rank group n k l = best rank group n k (l.filter p) := by
  have hsorted : (limitPer group n (fun _ => 0) (sortOn rank l)).take k =
      (limitPer group n (fun _ => 0) ((sortOn rank l).filter p)).take k := by
    refine take_limitPer_filter p [] (sortOn rank l) (pairwise_sortOn rank l) fun a ha hpa => ?_
    have hmem := (sortOn_perm rank l).mem_iff.mp ha
    exact (h a hmem hpa).mono (better_perm rank a (sortOn_perm rank l).symm).subperm rfl
  rw [best, best, hsorted]
  congr 2
  -- what is left has no ties
  refine List.Perm.eq_of_pairwise ?_ ((pairwise_sortOn rank l).filter p)
    (pairwise_sortOn rank (l.filter p))
    (((sortOn_perm rank l).filter p).trans (sortOn_perm rank (l.filter p)).symm)
  intro a b ha hb hab hba
  have hmemA := List.mem_filter.mp (((sortOn_perm rank l).filter p).mem_iff.mp ha)
  have hmemB := List.mem_filter.mp ((sortOn_perm rank (l.filter p)).mem_iff.mp hb)
  exact hties a hmemA.1 hmemA.2 b hmemB.1 hmemB.2 (le_antisymm hab hba)

instance (group : α → κ) (n k : ℕ) (smaller : List α) (a : α) :
    Decidable (Crowded group n k smaller a) := inferInstanceAs (Decidable (_ ∨ _))

/-- The best members do not depend on the order where tied ones are crowded out. -/
theorem best_eq_of_perm (h : l.Perm l') (hties : ∀ a ∈ l, ∀ b ∈ l, a ≠ b → rank a = rank b →
    Crowded group n k (better rank l a) a) : best rank group n k l = best rank group n k l' := by
  set p : α → Bool := fun a => decide ¬Crowded group n k (better rank l a) a with hp
  have hdistinct : ∀ a ∈ l, p a → ∀ b ∈ l, p b → rank a = rank b → a = b := by
    intro a ha hpa b hb _ hrank
    by_contra hne
    exact of_decide_eq_true hpa (hties a ha b hb hne hrank)
  have hcrowded : ∀ a, ¬p a → Crowded group n k (better rank l a) a := fun a hpa => by
    simpa [hp] using hpa
  have hleft : best rank group n k l = best rank group n k (l.filter p) :=
    best_filter p hdistinct fun a _ hpa => hcrowded a hpa
  have hright : best rank group n k l' = best rank group n k (l'.filter p) :=
    best_filter p
      (fun a ha hpa b hb hpb => hdistinct a (h.mem_iff.mpr ha) hpa b (h.mem_iff.mpr hb) hpb)
      fun a _ hpa => (hcrowded a hpa).mono (better_perm rank a h).subperm rfl
  rw [hleft, hright, best, best, sortOn_eq_of_perm (h.filter p)]
  intro a ha b hb hrank
  have hmemA := List.mem_filter.mp ha
  have hmemB := List.mem_filter.mp hb
  exact hdistinct a hmemA.1 hmemA.2 b hmemB.1 hmemB.2 hrank

/-- The first member is the first of its rank to be selected, unless it is crowded out. -/
theorem getElem?_best_cons (h : ¬Crowded group n k (better rank l a) a) :
    (best rank group n k (a :: l))[(limitPer group n (fun _ => 0) (better rank l a)).length]? =
      some a := by
  obtain ⟨before, after, hsorted, hperm⟩ := sortOn_cons rank a l
  rw [Crowded, not_or, not_le, not_le] at h
  have hlength := length_limitPer_perm group n (fun _ => 0) hperm
  have hcount : ((limitPer group n (fun _ => 0) before).map group).count (group a) < n := by
    rw [count_limitPer, (hperm.map group).count_eq]
    exact (min_le_left ..).trans_lt h.1
  rw [better, ← hlength, best, hsorted, limitPer_append, limitPer, if_neg (by omega),
    List.getElem?_take_of_lt (by rw [hlength]; exact h.2), List.getElem?_append_right (le_refl _),
    Nat.sub_self, List.getElem?_cons_zero]

theorem better_cons_of_le (h : rank a ≤ rank b) : better rank (b :: l) a = better rank l a :=
  List.filter_cons_of_neg (by simpa using h)

/-- Of two tied members that are not crowded out the first one is selected first. -/
theorem best_ne (hne : a ≠ b) (hrank : rank a = rank b) (hgroup : group a = group b)
    (h : ¬Crowded group n k (better rank l a) a) :
    best rank group n k (a :: b :: l) ≠ best rank group n k (b :: a :: l) := by
  intro heq
  have hsame : better rank l b = better rank l a := by rw [better, better, hrank]
  have hfreeA : ¬Crowded group n k (better rank (b :: l) a) a := by
    rwa [better_cons_of_le hrank.le]
  have hfirst := getElem?_best_cons hfreeA
  have hfreeB : ¬Crowded group n k (better rank (a :: l) b) b := by
    rw [better_cons_of_le hrank.ge, hsame]
    exact fun hcrowded => h (hcrowded.mono (.refl _) hgroup)
  have hsecond := getElem?_best_cons (l := a :: l) (a := b) hfreeB
  rw [better_cons_of_le hrank.le, heq] at hfirst
  rw [better_cons_of_le hrank.ge, hsame, hfirst] at hsecond
  exact hne (Option.some.inj hsecond)

/-- Without ties, a member that is not crowded out is selected. -/
theorem mem_best (ha : a ∈ l)
    (hties : ∀ a ∈ l, ∀ b ∈ l, rank a = rank b → a = b)
    (h : ¬Crowded group n k (better rank l a) a) : a ∈ best rank group n k l := by
  obtain ⟨before, after, hsplit⟩ := List.append_of_mem ha
  have hperm : l.Perm (a :: (before ++ after)) := hsplit ▸ List.perm_middle
  have hbetter : (better rank (before ++ after) a).Perm (better rank l a) := by
    have hcons := better_perm rank a hperm
    rw [better_cons_of_le (le_refl _)] at hcons
    exact hcons.symm
  rw [best_eq_of_perm hperm fun a ha b hb hne hrank => absurd (hties a ha b hb hrank) hne]
  exact List.mem_of_getElem? (getElem?_best_cons fun hcrowded =>
    h (hcrowded.mono hbetter.subperm rfl))

theorem best_subset (rank : α → ρ) (group : α → κ) (n k : ℕ) (l : List α) :
    best rank group n k l ⊆ l := fun _ ha =>
  (sortOn_perm rank l).subset ((limitPer_sublist ..).subset (List.mem_of_mem_take ha))

end Best

/-! ## Pools -/

section Pools

variable [LinearOrder ρ] {rank : α → ρ} {size : ℕ} {l l' : List α} {a b : α}

/-- The first `size` members by rank. -/
def pool (rank : α → ρ) (size : ℕ) (l : List α) : List α := (sortOn rank l).take size

/-- The members of no larger rank. -/
def upTo (rank : α → ρ) (l : List α) (a : α) : List α := l.filter fun b => decide (rank b ≤ rank a)

/-- The pool ends among the members of the rank of this one. -/
def CutAt (rank : α → ρ) (size : ℕ) (l : List α) (a : α) : Prop :=
  (better rank l a).length < size ∧ size < (upTo rank l a).length

instance (rank : α → ρ) (size : ℕ) (l : List α) (a : α) : Decidable (CutAt rank size l a) :=
  inferInstanceAs (Decidable (_ ∧ _))

theorem upTo_perm (rank : α → ρ) (a : α) (h : l.Perm l') : (upTo rank l a).Perm (upTo rank l' a) :=
  h.filter _

theorem CutAt.of_perm (h : CutAt rank size l a) (hperm : l.Perm l') : CutAt rank size l' a := by
  rw [CutAt, ← (better_perm rank a hperm).length_eq, ← (upTo_perm rank a hperm).length_eq]
  exact h

theorem pool_subset (rank : α → ρ) (size : ℕ) (l : List α) : pool rank size l ⊆ l := fun _ ha =>
  (sortOn_perm rank l).subset (List.mem_of_mem_take ha)

theorem nodup_pool (rank : α → ρ) (size : ℕ) (h : l.Nodup) : (pool rank size l).Nodup :=
  ((sortOn_perm rank l).nodup_iff.mpr h).sublist (List.take_sublist ..)

theorem pool_append_drop (rank : α → ρ) (size : ℕ) (l : List α) :
    sortOn rank l = pool rank size l ++ (sortOn rank l).drop size :=
  (List.take_append_drop ..).symm

/-- The members that are sorted after the pool have no smaller rank than those in it. -/
theorem rank_le_of_mem_drop (ha : a ∈ pool rank size l) (hb : b ∈ (sortOn rank l).drop size) :
    rank a ≤ rank b := by
  have hsorted := pairwise_sortOn rank l
  rw [pool_append_drop rank size l] at hsorted
  exact (List.pairwise_append.mp hsorted).2.2 a ha b hb

theorem mem_pool_or_drop (ha : a ∈ l) :
    a ∈ pool rank size l ∨ a ∈ (sortOn rank l).drop size := by
  have hmem := (sortOn_perm rank l).mem_iff.mpr ha
  rwa [pool_append_drop rank size l, List.mem_append] at hmem

/-- A member with few others up to its rank is in the pool. -/
theorem mem_pool_of_upTo_le (ha : a ∈ l) (h : (upTo rank l a).length ≤ size) :
    a ∈ pool rank size l := by
  by_contra hnot
  have hdrop := (mem_pool_or_drop ha).resolve_left hnot
  have hall : (pool rank size l).filter (fun b => decide (rank b ≤ rank a)) = pool rank size l :=
    List.filter_eq_self.mpr fun b hb => decide_eq_true (rank_le_of_mem_drop hb hdrop)
  have hcount := ((upTo_perm rank a (sortOn_perm rank l)).length_eq).trans_le h
  rw [upTo, pool_append_drop rank size l, List.filter_append, List.length_append, hall, pool,
    List.length_take] at hcount
  have hpos : 0 < (((sortOn rank l).drop size).filter fun b => decide (rank b ≤ rank a)).length :=
    List.length_pos_of_mem (List.mem_filter.mpr ⟨hdrop, by simp⟩)
  have hlength : size < (sortOn rank l).length := by
    have hne := List.length_pos_of_mem hdrop
    rw [List.length_drop] at hne
    omega
  omega

/-- Those of a smaller rank than a member of the pool leave it a place. -/
theorem length_better_lt (ha : a ∈ pool rank size l) : (better rank l a).length < size := by
  have hnone : ((sortOn rank l).drop size).filter (fun b => decide (rank b < rank a)) = [] :=
    List.filter_eq_nil_iff.mpr fun b hb => by simpa using rank_le_of_mem_drop ha hb
  have hlt : ((pool rank size l).filter fun b => decide (rank b < rank a)).length <
      (pool rank size l).length :=
    List.length_filter_lt_length_iff_exists.mpr ⟨a, ha, by simp⟩
  rw [← (better_perm rank a (sortOn_perm rank l)).length_eq, better, pool_append_drop rank size l,
    List.filter_append, hnone, List.append_nil]
  exact hlt.trans_le (List.length_take_le ..)

/-- Those of a smaller rank are in the pool, if they are not too many. -/
theorem better_subperm_pool (hnodup : l.Nodup) (h : (better rank l a).length ≤ size) :
    (better rank l a).Subperm (pool rank size l) := by
  refine List.subperm_of_subset (hnodup.filter _) fun b hb => ?_
  obtain ⟨hmem, hlt⟩ := List.mem_filter.mp hb
  refine mem_pool_of_upTo_le hmem (le_trans ?_ h)
  exact (List.monotone_filter_right l fun c hc =>
    decide_eq_true ((of_decide_eq_true hc).trans_lt (of_decide_eq_true hlt))).length_le

/-- The first of its rank is in the pool, if those of a smaller rank leave it a place. -/
theorem mem_pool_cons (h : (better rank l a).length < size) : a ∈ pool rank size (a :: l) := by
  obtain ⟨before, after, hsorted, hperm⟩ := sortOn_cons rank a l
  have hlength : before.length < size := hperm.length_eq.trans_lt h
  rw [pool, hsorted, List.take_append, List.mem_append]
  refine .inr ?_
  obtain ⟨places, hplaces⟩ : ∃ places, size - before.length = places + 1 :=
    ⟨size - before.length - 1, by omega⟩
  rw [hplaces, List.take_succ_cons]
  exact List.mem_cons_self ..

/-- The last of its rank is not in the pool, if those up to its rank are too many. -/
theorem notMem_pool_concat (hnodup : (l ++ [a]).Nodup)
    (h : size < (upTo rank (l ++ [a]) a).length) : a ∉ pool rank size (l ++ [a]) := by
  intro ha
  have hsorted := (sortOn_perm rank (l ++ [a])).nodup_iff.mpr hnodup
  rw [pool_append_drop rank size, List.nodup_append] at hsorted
  -- what is sorted after the pool has a larger rank: one of the same rank comes before the last
  have hlarger : ∀ b ∈ (sortOn rank (l ++ [a])).drop size, ¬rank b ≤ rank a := by
    intro b hb hle
    have hne : a ≠ b := hsorted.2.2 a ha b hb
    have hmem : b ∈ l := by
      have hall := (sortOn_perm rank (l ++ [a])).mem_iff.mp (List.mem_of_mem_drop hb)
      rcases List.mem_append.mp hall with hmem | hlast
      · exact hmem
      · exact absurd (List.mem_singleton.mp hlast).symm hne
    have hpair : [b, a].Sublist (sortOn rank (l ++ [a])) :=
      List.pair_sublist_mergeSort (rank_trans rank) (rank_total rank) (decide_eq_true hle)
        ((List.singleton_sublist.mpr hmem).append (List.Sublist.refl [a]))
    rw [pool_append_drop rank size, List.sublist_append_iff] at hpair
    obtain ⟨first, second, hsplit, hfirst, hsecond⟩ := hpair
    cases first with
    | nil =>
        rw [List.nil_append] at hsplit
        have hdrop : a ∈ (sortOn rank (l ++ [a])).drop size :=
          hsecond.subset (hsplit ▸ List.mem_cons_of_mem _ (List.mem_singleton_self a))
        exact hsorted.2.2 a ha a hdrop rfl
    | cons c rest =>
        obtain ⟨rfl, -⟩ := List.cons.inj hsplit
        exact hsorted.2.2 b (hfirst.subset (List.mem_cons_self ..)) b hb rfl
  have hnone : ((sortOn rank (l ++ [a])).drop size).filter
      (fun b => decide (rank b ≤ rank a)) = [] :=
    List.filter_eq_nil_iff.mpr fun b hb => by simpa using hlarger b hb
  rw [← (upTo_perm rank a (sortOn_perm rank _)).length_eq, upTo, pool_append_drop rank size,
    List.filter_append, hnone, List.append_nil] at h
  have hlength : (pool rank size (l ++ [a])).length ≤ size := List.length_take_le ..
  exact absurd (h.trans_le ((List.length_filter_le ..).trans hlength)) (lt_irrefl _)

end Pools

/-! ## The best members of a pool -/

section BestOfPool

variable [DecidableEq κ] [LinearOrder ρ] {σ : Type} [LinearOrder σ]
  {rank : α → ρ} {rerank : α → σ} {group : α → κ} {n k size : ℕ} {l l' : List α} {a b : α}

/-- Where the pool does not end among the members of a rank, or these are crowded out, they can be
left out. -/
theorem best_pool_filter (p : α → Bool) (hnodup : l.Nodup)
    (hdistinct : ∀ a ∈ l, ∀ b ∈ l, rerank a = rerank b → a = b)
    (h : ∀ a ∈ l, ¬p a → CutAt rank size l a ∧
      Crowded group n k (better rerank (better rank l a) a) a) :
    best rerank group n k (pool rank size l) =
      best rerank group n k ((pool rank size l).filter p) := by
  refine best_filter p (fun a ha _ b hb _ hrank =>
    hdistinct a (pool_subset _ _ _ ha) b (pool_subset _ _ _ hb) hrank) fun a ha hpa => ?_
  obtain ⟨hcut, hcrowded⟩ := h a (pool_subset _ _ _ ha) hpa
  exact hcrowded.mono ((better_subperm_pool hnodup hcut.1.le).filter _) rfl

/-- The best members of the pool do not depend on the order where the members of a rank among which
the pool ends are crowded out. -/
theorem best_pool_eq_of_perm (h : l.Perm l') (hnodup : l.Nodup)
    (hdistinct : ∀ a ∈ l, ∀ b ∈ l, rerank a = rerank b → a = b)
    (hcut : ∀ a ∈ l, CutAt rank size l a →
      Crowded group n k (better rerank (better rank l a) a) a) :
    best rerank group n k (pool rank size l) = best rerank group n k (pool rank size l') := by
  set p : α → Bool := fun a => decide ¬CutAt rank size l a with hp
  have hcutAt : ∀ a, ¬p a → CutAt rank size l a := fun a hpa => by simpa [hp] using hpa
  have hleft := best_pool_filter p hnodup hdistinct fun a ha hpa =>
    ⟨hcutAt a hpa, hcut a ha (hcutAt a hpa)⟩
  -- the other order cuts the same members off, so the same ones can be left out
  have hright : best rerank group n k (pool rank size l') =
      best rerank group n k ((pool rank size l').filter p) := by
    refine best_pool_filter p (h.nodup_iff.mp hnodup)
      (fun a ha b hb => hdistinct a (h.mem_iff.mpr ha) b (h.mem_iff.mpr hb)) fun a ha hpa => ?_
    exact ⟨(hcutAt a hpa).of_perm h, (hcut a (h.mem_iff.mpr ha) (hcutAt a hpa)).mono
      ((better_perm rank a h).filter _).subperm rfl⟩
  have hpools : ((pool rank size l).filter p).Perm ((pool rank size l').filter p) := by
    rw [List.perm_ext_iff_of_nodup ((nodup_pool _ _ hnodup).filter _)
      ((nodup_pool _ _ (h.nodup_iff.mp hnodup)).filter _)]
    intro a
    rw [List.mem_filter, List.mem_filter, and_congr_left_iff]
    intro hpa
    have hwhole : ¬CutAt rank size l a := of_decide_eq_true hpa
    have hbetter := (better_perm rank a h).length_eq
    have hupTo := (upTo_perm rank a h).length_eq
    -- a member whose rank is not cut is in both pools or in neither
    rw [CutAt, not_and, not_lt] at hwhole
    constructor
    · intro ha
      refine mem_pool_of_upTo_le (h.subset (pool_subset _ _ _ ha)) ?_
      rw [← hupTo]
      exact hwhole (length_better_lt ha)
    · intro ha
      refine mem_pool_of_upTo_le (h.symm.subset (pool_subset _ _ _ ha)) (hwhole ?_)
      rw [hbetter]
      exact length_better_lt ha
  rw [hleft, hright]
  refine best_eq_of_perm hpools fun a ha b hb hne hrank => absurd ?_ hne
  exact hdistinct a (pool_subset _ _ _ (List.mem_of_mem_filter ha)) b
    (pool_subset _ _ _ (List.mem_of_mem_filter hb)) hrank

/-- Where the pool ends among the members of a rank, and one of them is not crowded out, one of them
is selected when it comes first, and not when it comes last. -/
theorem exists_mem_best_pool (ha : a ∈ l) (hnodup : l.Nodup)
    (hdistinct : ∀ a ∈ l, ∀ b ∈ l, rerank a = rerank b → a = b)
    (hgroup : ∀ b ∈ l, rank b = rank a → group b = group a) (hcut : CutAt rank size l a)
    (h : ¬Crowded group n k (better rerank (better rank l a) a) a) :
    ∃ b ∈ l, ∀ rest, l.Perm (b :: rest) →
      b ∈ best rerank group n k (pool rank size (b :: rest)) ∧
        b ∉ best rerank group n k (pool rank size (rest ++ [b])) := by
  -- the first of those of this rank, when they are ranked again
  obtain ⟨b, hb, hrank, hfirst⟩ : ∃ b ∈ l, rank b = rank a ∧
      ∀ c ∈ l, rank c = rank a → rerank b ≤ rerank c := by
    have hmem : ∀ c, c ∈ sortOn rerank (l.filter fun c => decide (rank c = rank a)) ↔
        c ∈ l ∧ rank c = rank a := by
      intro c
      rw [(sortOn_perm rerank _).mem_iff, List.mem_filter, decide_eq_true_iff]
    cases hsorted : sortOn rerank (l.filter fun c => decide (rank c = rank a)) with
    | nil =>
        have hnil := (hmem a).mpr ⟨ha, rfl⟩
        rw [hsorted] at hnil
        cases hnil
    | cons b rest =>
        have hpairwise := pairwise_sortOn rerank (l.filter fun c => decide (rank c = rank a))
        rw [hsorted, List.pairwise_cons] at hpairwise
        obtain ⟨hb, hrank⟩ := (hmem b).mp (hsorted ▸ List.mem_cons_self ..)
        refine ⟨b, hb, hrank, fun c hc hrankC => ?_⟩
        have hcsorted := (hmem c).mpr ⟨hc, hrankC⟩
        rw [hsorted] at hcsorted
        rcases List.mem_cons.mp hcsorted with rfl | hrest
        · exact le_refl _
        · exact hpairwise.1 c hrest
  have hsame : better rank l b = better rank l a := by rw [better, better, hrank]
  have hfree : ¬Crowded group n k (better rerank (better rank l b) b) b := by
    intro hcrowded
    refine h (hcrowded.mono ?_ (hgroup b hb hrank).symm)
    rw [hsame]
    exact (List.monotone_filter_right _ fun c hc =>
      decide_eq_true ((of_decide_eq_true hc).trans_le (hfirst a ha rfl))).subperm
  have hcutB : CutAt rank size l b := by
    rw [CutAt, hsame, upTo, hrank]
    exact hcut
  refine ⟨b, hb, fun rest hperm => ⟨?_, fun hselected => ?_⟩⟩
  · have hbetter := better_perm rank b hperm
    rw [better_cons_of_le (le_refl _)] at hbetter
    have hpool := mem_pool_cons (hbetter.length_eq.symm.trans_lt hcutB.1)
    refine mem_best hpool (fun c hc d hd =>
      hdistinct c (hperm.symm.subset (pool_subset _ _ _ hc)) d
        (hperm.symm.subset (pool_subset _ _ _ hd))) fun hcrowded => hfree (hcrowded.mono ?_ rfl)
    -- those of the pool that are ranked before it have a smaller rank
    refine List.subperm_of_subset ((nodup_pool _ _ (hperm.nodup_iff.mp hnodup)).filter _)
      fun c hc => ?_
    obtain ⟨hcpool, hlt⟩ := List.mem_filter.mp hc
    have hcl := hperm.symm.subset (pool_subset _ _ _ hcpool)
    refine List.mem_filter.mpr ⟨List.mem_filter.mpr ⟨hcl, decide_eq_true ?_⟩, hlt⟩
    rcases lt_trichotomy (rank c) (rank b) with hsmaller | htied | hlarger
    · exact hsmaller
    · exact absurd (hfirst c hcl (htied.trans hrank)) (not_le.mpr (of_decide_eq_true hlt))
    · have hfew := length_better_lt hcpool
      rw [← (better_perm rank c hperm).length_eq] at hfew
      have hle : (upTo rank l b).length ≤ (better rank l c).length :=
        (List.monotone_filter_right _ fun d hd =>
          decide_eq_true ((of_decide_eq_true hd).trans_lt hlarger)).length_le
      exact absurd (hcutB.2.trans_le hle) (not_lt.mpr hfew.le)
  · have hpermLast : l.Perm (rest ++ [b]) := hperm.trans (List.perm_append_singleton ..).symm
    refine notMem_pool_concat (hpermLast.nodup_iff.mp hnodup) ?_ (best_subset _ _ _ _ _ hselected)
    exact (hcutB.of_perm hpermLast).2

end BestOfPool

/-! ## Other members of the same ranks -/

section Map

variable {β : Type} [DecidableEq κ] [LinearOrder ρ] {f : α → β}

theorem limitPer_map (f : α → β) (group : β → κ) (n : ℕ) (seen : κ → ℕ) (l : List α) :
    limitPer group n seen (l.map f) = (limitPer (fun a => group (f a)) n seen l).map f := by
  induction l generalizing seen with
  | nil => rfl
  | cons a rest ih =>
      rw [List.map_cons, limitPer, limitPer]
      split
      · exact ih seen
      · rw [ih, List.map_cons]

theorem sortOn_map (f : α → β) (rank : β → ρ) (l : List α) :
    sortOn rank (l.map f) = (sortOn (fun a => rank (f a)) l).map f :=
  (List.map_mergeSort (f := f) (l := l) fun _ _ _ _ => rfl).symm

theorem best_map (f : α → β) (rank : β → ρ) (group : β → κ) (n k : ℕ) (l : List α) :
    best rank group n k (l.map f) =
      (best (fun a => rank (f a)) (fun a => group (f a)) n k l).map f := by
  rw [best, best, sortOn_map, limitPer_map, List.map_take]

end Map

end Ranking
