import McpOps.Lib.Ranking

/-!
# First positions

Sorting by the place at which a name first occurs in a list, as in
`sorted(items, key=lambda item: names.index(item.name))`.  The names come out in the order of the
list, without repetitions.

`pairwise_eraseDups` has the names without repetitions in the order of their first positions, by
`idxOf_lt_of_filter`: leaving out later occurrences changes no comparison.  `map_sortOn_idxOf` is
the result about the sort, for items with distinct names.
-/

namespace Positions

open Ranking

variable {α β : Type} [DecidableEq β]

/-- What is left out between two members does not change which of them comes first. -/
theorem idxOf_lt_of_filter {p : β → Bool} {l : List β} {b c : β} (hb : p b) (hc : p c)
    (h : (l.filter p).idxOf b < (l.filter p).idxOf c) : l.idxOf b < l.idxOf c := by
  induction l with
  | nil => simp at h
  | cons d rest ih =>
      by_cases hdb : d = b
      · subst hdb
        -- `c` is not the first of the filtered list, so it is not `d`
        have hdc : d ≠ c := by
          intro heq
          rw [heq] at h
          omega
        rw [List.idxOf_cons_self, List.idxOf_cons_ne _ hdc]
        omega
      · by_cases hdc : d = c
        · subst hdc
          rw [List.filter_cons_of_pos hc, List.idxOf_cons_self] at h
          omega
        · rw [List.idxOf_cons_ne _ hdb, List.idxOf_cons_ne _ hdc]
          apply Nat.succ_lt_succ
          apply ih
          by_cases hd : p d
          · rw [List.filter_cons_of_pos hd, List.idxOf_cons_ne _ hdb, List.idxOf_cons_ne _ hdc] at h
            omega
          · rwa [List.filter_cons_of_neg hd] at h

/-- Without repetitions the members of a list stand in the order of their first positions. -/
theorem pairwise_eraseDups (l : List β) :
    l.eraseDups.Pairwise fun b c => l.idxOf b < l.idxOf c := by
  -- induction on the length: `eraseDups` goes on with the rest without the first member
  induction hn : l.length using Nat.strong_induction_on generalizing l with
  | _ n ih =>
      match l with
      | [] => simp
      | b :: rest =>
          have hlength : (rest.filter fun c => !c == b).length < n := by
            have hle := List.length_filter_le (fun c => !c == b) rest
            simp only [List.length_cons] at hn
            omega
          have hrest := ih _ hlength (rest.filter fun c => !c == b) rfl
          rw [List.eraseDups_cons, List.pairwise_cons]
          have hne : ∀ c ∈ (rest.filter fun c => !c == b).eraseDups, b ≠ c := by
            intro c hc
            rw [List.mem_eraseDups, List.mem_filter] at hc
            intro heq
            simp [heq] at hc
          constructor
          · intro c hc
            rw [List.idxOf_cons_self, List.idxOf_cons_ne _ (hne c hc)]
            omega
          · apply hrest.imp_of_mem
            intro c d hc hd hlt
            rw [List.idxOf_cons_ne _ (hne c hc), List.idxOf_cons_ne _ (hne d hd)]
            apply Nat.succ_lt_succ
            have hcb := hne c hc
            have hdb := hne d hd
            exact idxOf_lt_of_filter (p := fun c => !c == b) (by simpa using hcb.symm)
              (by simpa using hdb.symm) hlt

theorem nodup_eraseDups (l : List β) : l.eraseDups.Nodup := by
  apply (pairwise_eraseDups l).imp
  intro b c hlt heq
  rw [heq] at hlt
  omega

/-- A list with repetitions, followed by other members without any. -/
theorem eraseDups_append_of_nodup {l l' : List β} (hnodup : l'.Nodup)
    (hdisjoint : ∀ b ∈ l', b ∉ l) : (l ++ l').eraseDups = l.eraseDups ++ l' := by
  have hremove : l'.removeAll l = l' := by
    rw [List.removeAll, List.filter_eq_self]
    intro b hb
    simpa using hdisjoint b hb
  have herase : l'.eraseDups = l' := by
    have hordered : l'.eraseDups.Pairwise fun b c => l'.idxOf b < l'.idxOf c :=
      pairwise_eraseDups l'
    refine List.Perm.eq_of_pairwise ?_ hordered ?_ ?_
    · intro b c _ _ hbc hcb
      omega
    · rw [List.pairwise_iff_getElem]
      intro i j hi hj hij
      rwa [hnodup.idxOf_getElem, hnodup.idxOf_getElem]
    · rw [List.perm_ext_iff_of_nodup (nodup_eraseDups l') hnodup]
      intro b
      exact List.mem_eraseDups
  rw [List.eraseDups_append, hremove, herase]

/-- Items sorted by the first positions of their names. -/
theorem map_sortOn_idxOf {f : α → β} {items : List α} {l : List β} (hnodup : (items.map f).Nodup)
    (hmem : ∀ b, b ∈ items.map f ↔ b ∈ l) :
    (sortOn (fun a => l.idxOf (f a)) items).map f = l.eraseDups := by
  have hperm := (sortOn_perm (fun a => l.idxOf (f a)) items).map f
  have hsorted : ((sortOn (fun a => l.idxOf (f a)) items).map f).Pairwise
      fun b c => l.idxOf b ≤ l.idxOf c := by
    rw [List.pairwise_map]
    exact pairwise_sortOn _ items
  refine List.Perm.eq_of_pairwise ?_ hsorted ?_ ?_
  · intro b c hb _ hbc hcb
    have hb' : b ∈ l := (hmem b).mp (hperm.mem_iff.mp hb)
    exact (List.idxOf_inj hb').mp (by omega)
  · apply (pairwise_eraseDups l).imp
    intro b c hlt
    omega
  · rw [List.perm_ext_iff_of_nodup (hperm.nodup_iff.mpr hnodup) (nodup_eraseDups l)]
    intro b
    rw [hperm.mem_iff, hmem, List.mem_eraseDups]

end Positions
