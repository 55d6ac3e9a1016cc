import Mathlib.Data.List.Pairwise
import Mathlib.Logic.Function.Basic
import Mathlib.Order.Lattice
import Mathlib.Order.Nat
import Mathlib.Tactic.Tauto

/-!
# Best-first search

`search` takes the path of least score off the frontier, the oldest one where several are
least, and returns it if it ends at the goal.  Otherwise it settles the node where the path ends
and adds the path's extensions, unless the node is settled already or the score is infinite.  Paths
are trails: lists of edges, newest first.

## Strategy

Scores need not be sums.  A trail is scored from its oldest edge on, and all that is asked is that
a further edge does not lower a score and keeps the order of two scores.  Sums of weights that are
not negative are scores of this kind, and so are their rounded sums, which may overflow.

The order in which trails leave the frontier is a total one, so that what is found first is
described without the search: it is the least walk to the goal in that order.  A walk of an infinite
score may be missed, but it comes after all others.

* `Precedes`: the order in which paths leave the frontier.  It compares scores, then
  the paths without their last edges, then the places of the last edges.
  Extensions keep it, and every extension comes after its path.
* `Sound`: what holds at every round, kept by `Sound.skip` and `Sound.expand`.
* `Sound.search_found`: what is returned is a walk to the goal, and first among those of a finite
  score.
* `Sound.search_exhausted`: an exhausted search means that there is no such walk.
* `search_isSome`: more rounds than there are paths on the frontier and edges suffice.
-/

namespace BestFirst

variable {V E S : Type} [LinearOrder S]

/-- The score of a trail, from that of the empty one. -/
def scoreFrom (base : S) (extend : S → E → S) (p : List E) : S :=
  p.foldr (fun a s => extend s a) base

/-- A multigraph whose trails are scored, in the order in which the edges are tried.  Places tell
apart edges that are equal in all else. -/
structure Graph (V E S : Type) [LinearOrder S] where
  edges : List E
  src : E → V
  dst : E → V
  /-- The score of the empty trail. -/
  base : S
  /-- The score of a trail with one more edge. -/
  extend : S → E → S
  /-- Trails of such a score are not extended. -/
  infinite : S → Bool
  /-- The place of an edge in the list. -/
  place : E → ℕ
  le_extend : ∀ a ∈ edges, ∀ p, (∀ c ∈ p, c ∈ edges) →
    scoreFrom base extend p ≤ extend (scoreFrom base extend p) a
  extend_mono : ∀ a ∈ edges, ∀ p q, (∀ c ∈ p, c ∈ edges) → (∀ c ∈ q, c ∈ edges) →
    scoreFrom base extend p ≤ scoreFrom base extend q →
      extend (scoreFrom base extend p) a ≤ extend (scoreFrom base extend q) a
  infinite_of_le : ∀ s t, infinite s → s ≤ t → infinite t
  places : edges.Pairwise fun a b => place a < place b

namespace Graph

variable (G : Graph V E S)

/-- The score of a trail. -/
def score (p : List E) : S := scoreFrom G.base G.extend p

@[simp] theorem score_nil : G.score [] = G.base := rfl

@[simp] theorem score_cons (a : E) (p : List E) : G.score (a :: p) = G.extend (G.score p) a := rfl

/-- The trail `p` leads from `u` to `v`. -/
inductive Walk (u : V) : List E → V → Prop
  | nil : Walk u [] u
  | cons {a : E} {p : List E} (h : Walk u p (G.src a)) (ha : a ∈ G.edges) :
      Walk u (a :: p) (G.dst a)

/-- The nodes of a trail from `u`. -/
def nodes (u : V) (p : List E) : List V := p.map G.dst ++ [u]

variable {G} {u v : V} {p q r : List E} {a b : E}

theorem Walk.end_mem_nodes (h : G.Walk u p v) : v ∈ G.nodes u p := by
  cases h with
  | nil => exact List.mem_singleton.mpr rfl
  | cons => exact List.mem_cons_self ..

theorem Walk.end_unique {w : V} (h : G.Walk u p v) (h' : G.Walk u p w) : v = w := by
  cases h with
  | nil => cases h'; rfl
  | cons => cases h'; rfl

/-- The beginning of a walk is a walk. -/
theorem Walk.of_append (h : G.Walk u (q ++ p) v) : ∃ w, G.Walk u p w := by
  induction q generalizing v with
  | nil => exact ⟨v, h⟩
  | cons a q ih =>
      cases h with
      | cons h => exact ih h

/-- A walk goes on from the end of its beginning. -/
theorem Walk.exists_next {w : V} (h : G.Walk u (q ++ p) v) (hp : G.Walk u p w) (hne : w ≠ v) :
    ∃ a ∈ q, G.src a = w := by
  induction q generalizing v with
  | nil => exact absurd (hp.end_unique h) hne
  | cons a q ih =>
      cases h with
      | cons h =>
          by_cases hw : w = G.src a
          · exact ⟨a, List.mem_cons_self .., hw.symm⟩
          · obtain ⟨b, hb, hsrc⟩ := ih h hw
            exact ⟨b, List.mem_cons_of_mem a hb, hsrc⟩

/-- On a trail without repeated nodes two beginnings that end alike are the same. -/
theorem Walk.eq_of_suffix (hp : G.Walk u p v) (hq : G.Walk u q v) (hpr : p <:+ r) (hqr : q <:+ r)
    (hnodup : (G.nodes u r).Nodup) : p = q := by
  have hextension : ∀ {p q : List E}, G.Walk u p v → G.Walk u q v → q <:+ r → p <:+ q → p = q := by
    intro p q hp hq hqr hpq
    obtain ⟨t, rfl⟩ := hpq
    cases t with
    | nil => rfl
    | cons a t =>
        -- the end of `q` stands on it a second time, as the end of `p`
        have hnodes : (G.nodes u (a :: t ++ p)).Nodup := by
          obtain ⟨front, rfl⟩ := hqr
          rw [nodes, List.map_append, List.append_assoc] at hnodup
          exact (List.nodup_append.mp hnodup).2.1
        have hend : v = G.dst a := by
          cases hq
          rfl
        have hmem : G.dst a ∈ G.nodes u (t ++ p) := by
          rw [nodes, List.map_append, List.append_assoc]
          exact List.mem_append_right _ (hend ▸ hp.end_mem_nodes)
        exact absurd hmem (List.nodup_cons.mp hnodes).1
  rcases List.suffix_or_suffix_of_suffix hpr hqr with h | h
  · exact hextension hp hq hqr h
  · exact (hextension hq hp hpr h).symm

/-- A walk along the edges of a walk without repeated nodes is its beginning. -/
theorem Walk.suffix_of_subset (hr : G.Walk u r v) (hnodup : (G.nodes u r).Nodup) {w : V}
    (hp : G.Walk u p w) (hsubset : ∀ a ∈ p, a ∈ r) : p <:+ r := by
  induction hp with
  | nil => exact List.nil_suffix
  | @cons a p hp _ ih =>
      rw [List.forall_mem_cons] at hsubset
      have hsuffix := ih hsubset.2
      obtain ⟨newer, older, hsplit⟩ := List.append_of_mem hsubset.1
      have holder : G.Walk u older (G.src a) := by
        rw [hsplit] at hr
        obtain ⟨_, hwalk⟩ := hr.of_append
        cases hwalk with
        | cons h => exact h
      have heq : p = older := hp.eq_of_suffix holder hsuffix
        (hsplit ▸ (List.suffix_cons a older).trans (List.suffix_append newer _)) hnodup
      rw [heq, hsplit]
      exact List.suffix_append newer _

/-! ## The order of paths -/

section Order

variable (G) in
/-- The order in which trails are taken up. -/
def Precedes : List E → List E → Prop
  | _, [] => False
  | [], _ :: _ => True
  | a :: p, b :: q =>
      G.score (a :: p) < G.score (b :: q) ∨
        G.score (a :: p) = G.score (b :: q) ∧
          (Precedes p q ∨ p = q ∧ G.place a < G.place b)

theorem precedes_irrefl (p : List E) : ¬ G.Precedes p p := by
  induction p with
  | nil => exact id
  | cons a p ih =>
      rintro (hlt | ⟨-, hp | ⟨-, hindex⟩⟩)
      · exact lt_irrefl _ hlt
      · exact ih hp
      · exact lt_irrefl _ hindex

theorem Precedes.trans (h : G.Precedes p q) (h' : G.Precedes q r) : G.Precedes p r := by
  induction p generalizing q r with
  | nil =>
      cases r with
      | nil => cases q <;> cases h'
      | cons => trivial
  | cons a p ih =>
      cases q with
      | nil => cases h
      | cons b q =>
          cases r with
          | nil => cases h'
          | cons c r =>
              rcases h with h | ⟨heq, h⟩
              · rcases h' with h' | ⟨heq', -⟩
                · exact .inl (h.trans h')
                · exact .inl (heq' ▸ h)
              · rcases h' with h' | ⟨heq', h'⟩
                · exact .inl (heq ▸ h')
                · refine .inr ⟨heq.trans heq', ?_⟩
                  rcases h with h | ⟨rfl, hindex⟩
                  · rcases h' with h' | ⟨rfl, -⟩
                    · exact .inl (ih h h')
                    · exact .inl h
                  · rcases h' with h' | ⟨rfl, hindex'⟩
                    · exact .inl h'
                    · exact .inr ⟨rfl, hindex.trans hindex'⟩

/-- `p` comes no later than `q`. -/
def NoLater (G : Graph V E S) (p q : List E) : Prop := G.Precedes p q ∨ p = q

theorem NoLater.refl (p : List E) : G.NoLater p p := .inr rfl

theorem NoLater.trans (h : G.NoLater p q) (h' : G.NoLater q r) : G.NoLater p r := by
  rcases h with h | rfl
  · rcases h' with h' | rfl
    · exact .inl (h.trans h')
    · exact .inl h
  · exact h'

theorem NoLater.antisymm (h : G.NoLater p q) (h' : G.NoLater q p) : p = q := by
  rcases h with h | h
  · rcases h' with h' | h'
    · exact absurd (h.trans h') (precedes_irrefl p)
    · exact h'.symm
  · exact h

theorem nil_noLater (p : List E) : G.NoLater [] p := by
  cases p with
  | nil => exact .refl []
  | cons => exact .inl trivial

theorem base_le_score (hp : ∀ a ∈ p, a ∈ G.edges) : G.base ≤ G.score p := by
  induction p with
  | nil => exact le_rfl
  | cons a p ih =>
      rw [List.forall_mem_cons] at hp
      exact (ih hp.2).trans (G.le_extend a hp.1 p hp.2)

theorem NoLater.score_le (hq : ∀ a ∈ q, a ∈ G.edges) (h : G.NoLater p q) :
    G.score p ≤ G.score q := by
  rcases h with h | rfl
  · cases q with
    | nil => cases p <;> cases h
    | cons b q =>
        cases p with
        | nil => exact base_le_score hq
        | cons a p =>
            rcases h with h | ⟨h, -⟩
            · exact h.le
            · exact h.le
  · exact le_rfl

/-- A trail precedes its extensions. -/
theorem precedes_cons (hp : ∀ c ∈ a :: p, c ∈ G.edges) : G.Precedes p (a :: p) := by
  induction p generalizing a with
  | nil => trivial
  | cons b p ih =>
      rw [List.forall_mem_cons] at hp
      have hle : G.score (b :: p) ≤ G.score (a :: b :: p) := G.le_extend a hp.1 (b :: p) hp.2
      rcases hle.lt_or_eq with hlt | heq
      · exact .inl hlt
      · exact .inr ⟨heq, .inl (ih hp.2)⟩

/-- A trail of smaller score comes first. -/
theorem precedes_of_score_lt (hp : ∀ c ∈ p, c ∈ G.edges) (h : G.score p < G.score q) :
    G.Precedes p q := by
  cases q with
  | nil => exact absurd h (not_lt.mpr (base_le_score hp))
  | cons b q =>
      cases p with
      | nil => trivial
      | cons a p => exact .inl h

/-- Extending by the same edge keeps the order.  Different scores may become equal, and then the
order of the shorter trails decides. -/
theorem NoLater.cons (hp : ∀ c ∈ p, c ∈ G.edges) (hq : ∀ c ∈ q, c ∈ G.edges)
    (h : G.NoLater p q) (ha : a ∈ G.edges) : G.NoLater (a :: p) (a :: q) := by
  have hscore : G.score (a :: p) ≤ G.score (a :: q) :=
    G.extend_mono a ha p q hp hq (h.score_le hq)
  rcases h with h | rfl
  · rcases hscore.lt_or_eq with hlt | heq
    · exact .inl (.inl hlt)
    · exact .inl (.inr ⟨heq, .inl h⟩)
  · exact .refl _

end Order

end Graph

/-! ## The search -/

/-- A path on the frontier: its score, its last node and its trail. -/
structure Entry (V E S : Type) where
  cost : S
  node : V
  trail : List E

/-- Take out the first entry of least cost. -/
def popLeast : List (Entry V E S) → Option (Entry V E S × List (Entry V E S))
  | [] => none
  | f :: rest =>
      match popLeast rest with
      | none => some (f, [])
      | some (e, others) => if e.cost < f.cost then some (e, f :: others) else some (f, rest)

theorem popLeast_eq_none {frontier : List (Entry V E S)} (h : popLeast frontier = none) :
    frontier = [] := by
  cases frontier with
  | nil => rfl
  | cons f rest =>
      rw [popLeast] at h
      split at h
      · cases h
      · split at h <;> cases h

/-- The entry taken out costs less than those before it and no more than those after it. -/
theorem popLeast_eq_some {frontier rest : List (Entry V E S)} {e : Entry V E S}
    (h : popLeast frontier = some (e, rest)) :
    ∃ front back, frontier = front ++ e :: back ∧ rest = front ++ back ∧
      (∀ f ∈ front, e.cost < f.cost) ∧ ∀ f ∈ back, e.cost ≤ f.cost := by
  induction frontier generalizing e rest with
  | nil => cases h
  | cons f tail ih =>
      rw [popLeast] at h
      split at h
      · next hnone =>
        cases h
        exact ⟨[], [], by rw [popLeast_eq_none hnone]; rfl, rfl, by simp, by simp⟩
      · next m others hsome =>
        obtain ⟨front, back, htail, hothers, hfront, hback⟩ := ih hsome
        split at h
        · next hlt =>
          cases h
          refine ⟨f :: front, back, by rw [htail]; rfl, by rw [hothers]; rfl, ?_, hback⟩
          exact List.forall_mem_cons.mpr ⟨hlt, hfront⟩
        · next hge =>
          cases h
          refine ⟨[], tail, rfl, rfl, by simp, fun g hg => ?_⟩
          have hle : f.cost ≤ m.cost := not_lt.mp hge
          rw [htail, List.mem_append, List.mem_cons] at hg
          rcases hg with hg | rfl | hg
          · exact hle.trans (hfront g hg).le
          · exact hle
          · exact hle.trans (hback g hg)

theorem length_of_popLeast {frontier rest : List (Entry V E S)} {e : Entry V E S}
    (hpop : popLeast frontier = some (e, rest)) :
    frontier.length = rest.length + 1 := by
  obtain ⟨front, back, rfl, rfl, -⟩ := popLeast_eq_some hpop
  simp only [List.length_append, List.length_cons]
  omega

namespace Graph

variable (G : Graph V E S) (u goal : V)

/-- The order in which trails are added to the frontier. -/
def Pushed : List E → List E → Prop
  | [], _ => True
  | _ :: _, [] => False
  | a :: p, b :: q => G.Precedes p q ∨ p = q ∧ G.place a < G.place b

/-- What holds at every round. -/
structure Sound (frontier : List (Entry V E S)) (settled : V → Option (List E)) : Prop where
  walks : ∀ f ∈ frontier, G.Walk u f.trail f.node
  costs : ∀ f ∈ frontier, f.cost = G.score f.trail
  order : frontier.Pairwise fun f g => G.Pushed f.trail g.trail
  settledWalks : ∀ v q, settled v = some q → G.Walk u q v
  noLater : ∀ v q, settled v = some q → ∀ f ∈ frontier, G.NoLater q f.trail
  parents : ∀ f ∈ frontier, ∀ a p, f.trail = a :: p → settled (G.src a) = some p
  onTrail : ∀ f ∈ frontier, ∀ w ∈ G.nodes u f.trail, w = f.node ∨ ∃ q, settled w = some q
  root : settled u = some [] ∨ (∃ f ∈ frontier, f.trail = []) ∨ G.infinite G.base
  closed : ∀ v q, settled v = some q → ∀ a ∈ G.edges, G.src a = v →
    (∃ q', settled (G.dst a) = some q' ∧ G.NoLater q' (a :: q)) ∨
      (∃ f ∈ frontier, f.node = G.dst a ∧ G.NoLater f.trail (a :: q)) ∨
        G.infinite (G.score (a :: q))
  unsettled : settled goal = none

variable {G u goal} {frontier rest : List (Entry V E S)}
  {settled : V → Option (List E)} {e : Entry V E S}

theorem Walk.mem_edges {v : V} {p : List E} (h : G.Walk u p v) : ∀ a ∈ p, a ∈ G.edges := by
  induction h with
  | nil => simp
  | cons _ ha ih => exact List.forall_mem_cons.mpr ⟨ha, ih⟩

/-- Of two trails of one score the one that was added first comes no later. -/
theorem Pushed.noLater {p q : List E} (h : G.Pushed p q) (hscore : G.score p = G.score q) :
    G.NoLater p q := by
  cases p with
  | nil => exact nil_noLater q
  | cons a p =>
      cases q with
      | nil => cases h
      | cons b q => exact .inl (.inr ⟨hscore, h⟩)

/-- What is taken off the frontier comes first. -/
theorem Sound.popLeast_noLater (h : G.Sound u goal frontier settled)
    (hpop : popLeast frontier = some (e, rest)) : ∀ f ∈ frontier, G.NoLater e.trail f.trail := by
  obtain ⟨front, back, hfrontier, -, hfront, hback⟩ := popLeast_eq_some hpop
  have he : e ∈ frontier := by simp [hfrontier]
  have hcheaper : ∀ f ∈ frontier, e.cost < f.cost → G.NoLater e.trail f.trail := by
    intro f hf hlt
    rw [h.costs e he, h.costs f hf] at hlt
    exact .inl (precedes_of_score_lt (h.walks e he).mem_edges hlt)
  intro f hf
  have hplace := hf
  rw [hfrontier, List.mem_append, List.mem_cons] at hplace
  rcases hplace with hmem | rfl | hmem
  · exact hcheaper f hf (hfront f hmem)
  · exact .refl _
  · rcases (hback f hmem).lt_or_eq with hlt | heq
    · exact hcheaper f hf hlt
    · have horder := h.order
      rw [hfrontier, List.pairwise_append, List.pairwise_cons] at horder
      rw [h.costs e he, h.costs f hf] at heq
      exact (horder.2.1.1 f hmem).noLater heq

/-- Every walk from `u` is covered: its end is settled no later, or the frontier has a path that
comes no later, or its score is infinite. -/
theorem Sound.covers (h : G.Sound u goal frontier settled) {v : V} {p : List E}
    (hwalk : G.Walk u p v) :
    (∃ q, settled v = some q ∧ G.NoLater q p) ∨ (∃ f ∈ frontier, G.NoLater f.trail p) ∨
      G.infinite (G.score p) := by
  induction hwalk with
  | nil =>
      rcases h.root with hroot | ⟨f, hf, htrail⟩ | hinfinite
      · exact .inl ⟨[], hroot, .refl []⟩
      · exact .inr (.inl ⟨f, hf, by rw [htrail]; exact .refl []⟩)
      · exact .inr (.inr hinfinite)
  | @cons a p hwalk ha ih =>
      have hmem := (hwalk.cons ha).mem_edges
      rcases ih with ⟨q, hq, hle⟩ | ⟨f, hf, hle⟩ | hinfinite
      · -- the end of the shorter walk is settled, so its edges are covered
        have hextended := hle.cons (h.settledWalks _ q hq).mem_edges hwalk.mem_edges ha
        rcases h.closed _ q hq a ha rfl with ⟨q', hq', hle'⟩ | ⟨f, hf, -, hle'⟩ | hinfinite
        · exact .inl ⟨q', hq', hle'.trans hextended⟩
        · exact .inr (.inl ⟨f, hf, hle'.trans hextended⟩)
        · exact .inr (.inr (G.infinite_of_le _ _ hinfinite (hextended.score_le hmem)))
      · exact .inr (.inl ⟨f, hf, hle.trans (.inl (precedes_cons hmem))⟩)
      · exact .inr (.inr (G.infinite_of_le _ _ hinfinite (G.le_extend a ha p hwalk.mem_edges)))

/-- What is taken off the frontier comes no later than any walk to the goal of a finite score. -/
theorem Sound.noLater_walk (h : G.Sound u goal frontier settled)
    (hpop : popLeast frontier = some (e, rest)) {p : List E} (hp : G.Walk u p goal)
    (hfinite : G.infinite (G.score p) = false) : G.NoLater e.trail p := by
  rcases h.covers hp with ⟨q, hq, -⟩ | ⟨g, hg, hle⟩ | hinfinite
  · rw [h.unsettled] at hq
    cases hq
  · exact (h.popLeast_noLater hpop g hg).trans hle
  · rw [hfinite] at hinfinite
    cases hinfinite

variable (G) in
/-- The search starts with the empty path. -/
def start (u : V) : Entry V E S := ⟨G.base, u, []⟩

variable (G u goal) in
theorem sound_start : G.Sound u goal [G.start u] fun _ => none := by
  constructor
  case root => exact .inr (.inl ⟨G.start u, by simp, rfl⟩)
  case walks =>
    intro f hf
    rw [List.mem_singleton.mp hf]
    exact .nil
  case costs => simp [start]
  case order => exact List.pairwise_singleton ..
  case onTrail => simp [start, nodes]
  case parents => simp [start]
  all_goals simp

theorem mem_of_popLeast (hpop : popLeast frontier = some (e, rest)) (f : Entry V E S) :
    f ∈ frontier ↔ f = e ∨ f ∈ rest := by
  obtain ⟨front, back, rfl, rfl, -⟩ := popLeast_eq_some hpop
  simp only [List.mem_append, List.mem_cons]
  tauto

/-- A round whose path ends at a settled node or has an infinite score. -/
theorem Sound.skip (h : G.Sound u goal frontier settled)
    (hpop : popLeast frontier = some (e, rest))
    (hskip : (settled e.node).isSome ∨ G.infinite e.cost) :
    G.Sound u goal rest settled := by
  have hmem := mem_of_popLeast hpop
  have hrest : ∀ f ∈ rest, f ∈ frontier := fun f hf => (hmem f).mpr (.inr hf)
  have he : e ∈ frontier := (hmem e).mpr (.inl rfl)
  rw [h.costs e he] at hskip
  constructor
  · exact fun f hf => h.walks f (hrest f hf)
  · exact fun f hf => h.costs f (hrest f hf)
  · obtain ⟨front, back, rfl, rfl, -⟩ := popLeast_eq_some hpop
    exact h.order.sublist ((List.sublist_cons_self e back).append_left front)
  · exact h.settledWalks
  · exact fun v q hq f hf => h.noLater v q hq f (hrest f hf)
  · exact fun f hf => h.parents f (hrest f hf)
  · exact fun f hf => h.onTrail f (hrest f hf)
  · rcases h.root with hroot | ⟨f, hf, htrail⟩ | hinfinite
    · exact .inl hroot
    · rcases (hmem f).mp hf with rfl | hf
      · rw [htrail] at hskip
        rcases hskip with hsettled | hinfinite
        · -- the empty path ends at `u`, which nothing but it can have settled
          obtain ⟨q, hq⟩ := Option.isSome_iff_exists.mp hsettled
          have hu : f.node = u := by
            have hwalk := h.walks f he
            rw [htrail] at hwalk
            cases hwalk
            rfl
          have hle := h.noLater _ q hq f he
          rw [htrail] at hle
          rw [hu, hle.antisymm (nil_noLater q)] at hq
          exact .inl hq
        · exact .inr (.inr hinfinite)
      · exact .inr (.inl ⟨f, hf, htrail⟩)
    · exact .inr (.inr hinfinite)
  · intro v q' hq' a ha hsrc
    rcases h.closed v q' hq' a ha hsrc with hdone | ⟨f, hf, hnode, hle⟩ | hinfinite
    · exact .inl hdone
    · -- an extension that was on the frontier as `e` ends at a settled node, or is infinite
      rcases (hmem f).mp hf with rfl | hf
      · rcases hskip with hsettled | hinfinite
        · obtain ⟨q, hq⟩ := Option.isSome_iff_exists.mp hsettled
          exact .inl ⟨q, hnode ▸ hq, (h.noLater _ q hq f he).trans hle⟩
        · have hedges : ∀ c ∈ a :: q', c ∈ G.edges :=
            List.forall_mem_cons.mpr ⟨ha, (h.settledWalks v q' hq').mem_edges⟩
          exact .inr (.inr (G.infinite_of_le _ _ hinfinite (hle.score_le hedges)))
      · exact .inr (.inl ⟨f, hf, hnode, hle⟩)
    · exact .inr (.inr hinfinite)
  · exact h.unsettled

/-! ### The rounds -/

section Search

variable [DecidableEq V]

variable (G) in
/-- The path of `e` followed by the edge `a`. -/
def follow (e : Entry V E S) (a : E) : Entry V E S :=
  ⟨G.extend e.cost a, G.dst a, a :: e.trail⟩

variable (G u) in
/-- The extensions of the path of `e` to nodes that are not on it. -/
def extensions (e : Entry V E S) : List (Entry V E S) :=
  ((G.edges.filter fun a => G.src a = e.node).filter
    fun a => G.dst a ∉ G.nodes u e.trail).map (G.follow e)

variable (G u goal) in
/-- The search from `frontier`, in at most so many rounds.  `settled` has the trail that a node
was settled with. -/
def search : ℕ → List (Entry V E S) → (V → Option (List E)) → Option (Option (Entry V E S))
  | 0, _, _ => none
  | fuel + 1, frontier, settled =>
      match popLeast frontier with
      | none => some none
      | some (e, rest) =>
          if e.node = goal then some (some e)
          else if (settled e.node).isSome ∨ G.infinite e.cost then search fuel rest settled
          else
            search fuel (rest ++ G.extensions u e) (Function.update settled e.node (some e.trail))

theorem mem_extensions {f : Entry V E S} :
    f ∈ G.extensions u e ↔
      ∃ a ∈ G.edges, G.src a = e.node ∧ G.dst a ∉ G.nodes u e.trail ∧ f = G.follow e a := by
  simp only [extensions, List.mem_map, List.mem_filter, decide_eq_true_eq]
  constructor
  · rintro ⟨a, ⟨⟨ha, hsrc⟩, hdst⟩, rfl⟩
    exact ⟨a, ha, hsrc, hdst, rfl⟩
  · rintro ⟨a, ha, hsrc, hdst, rfl⟩
    exact ⟨a, ⟨⟨ha, hsrc⟩, hdst⟩, rfl⟩

/-- A round that settles the end of its path. -/
theorem Sound.expand (h : G.Sound u goal frontier settled)
    (hpop : popLeast frontier = some (e, rest)) (hgoal : e.node ≠ goal)
    (hnew : settled e.node = none) :
    G.Sound u goal (rest ++ G.extensions u e)
      (Function.update settled e.node (some e.trail)) := by
  have hmem := mem_of_popLeast hpop
  have hrest : ∀ f ∈ rest, f ∈ frontier := fun f hf => (hmem f).mpr (.inr hf)
  have he : e ∈ frontier := (hmem e).mpr (.inl rfl)
  have hfirst := h.popLeast_noLater hpop
  have hwalk := h.walks e he
  -- what was settled still is
  have hkept : ∀ v q, settled v = some q →
      Function.update settled e.node (some e.trail) v = some q := by
    intro v q hq
    have hne : v ≠ e.node := by
      rintro rfl
      rw [hnew] at hq
      cases hq
    rw [Function.update_of_ne hne, hq]
  have hextended : ∀ a ∈ G.edges, G.src a = e.node → G.Walk u (a :: e.trail) (G.dst a) :=
    fun a ha hsrc => Walk.cons (hsrc ▸ hwalk) ha
  have hafter : ∀ a ∈ G.edges, G.src a = e.node → G.NoLater e.trail (a :: e.trail) :=
    fun a ha hsrc => .inl (precedes_cons (hextended a ha hsrc).mem_edges)
  constructor
  case walks =>
    intro f hf
    rcases List.mem_append.mp hf with hf | hf
    · exact h.walks f (hrest f hf)
    · obtain ⟨a, ha, hsrc, -, rfl⟩ := mem_extensions.mp hf
      exact hextended a ha hsrc
  case costs =>
    intro f hf
    rcases List.mem_append.mp hf with hf | hf
    · exact h.costs f (hrest f hf)
    · obtain ⟨a, -, -, -, rfl⟩ := mem_extensions.mp hf
      rw [follow, score_cons, h.costs e he]
  case order =>
    rw [List.pairwise_append]
    refine ⟨?_, ?_, fun f hf g hg => ?_⟩
    · obtain ⟨front, back, rfl, rfl, -⟩ := popLeast_eq_some hpop
      exact h.order.sublist ((List.sublist_cons_self e back).append_left front)
    · rw [extensions, List.pairwise_map]
      exact ((G.places.filter _).filter _).imp fun hlt => .inr ⟨rfl, hlt⟩
    · obtain ⟨b, -, -, -, rfl⟩ := mem_extensions.mp hg
      cases htrail : f.trail with
      | nil => trivial
      | cons a p =>
          -- the path that `f` extends was settled before `e`, at another node
          have hparent := h.parents f (hrest f hf) a p htrail
          rcases h.noLater _ p hparent e he with hlt | rfl
          · exact .inl hlt
          · have hnode := (h.settledWalks _ _ hparent).end_unique hwalk
            rw [hnode, hnew] at hparent
            cases hparent
  case settledWalks =>
    intro v q hq
    by_cases hv : v = e.node
    · rw [hv, Function.update_self] at hq
      cases hq
      exact hv ▸ hwalk
    · rw [Function.update_of_ne hv] at hq
      exact h.settledWalks v q hq
  case noLater =>
    intro v q hq f hf
    have hq' : G.NoLater q e.trail ∧ (f ∈ frontier → G.NoLater q f.trail) := by
      by_cases hv : v = e.node
      · rw [hv, Function.update_self] at hq
        cases hq
        exact ⟨.refl _, hfirst f⟩
      · rw [Function.update_of_ne hv] at hq
        exact ⟨h.noLater v q hq e he, h.noLater v q hq f⟩
    rcases List.mem_append.mp hf with hf | hf
    · exact hq'.2 (hrest f hf)
    · obtain ⟨a, ha, hsrc, -, rfl⟩ := mem_extensions.mp hf
      exact hq'.1.trans (hafter a ha hsrc)
  case parents =>
    intro f hf a p htrail
    rcases List.mem_append.mp hf with hf | hf
    · exact hkept _ p (h.parents f (hrest f hf) a p htrail)
    · obtain ⟨b, -, hsrc, -, rfl⟩ := mem_extensions.mp hf
      cases htrail
      rw [hsrc, Function.update_self]
  case onTrail =>
    intro f hf w hw
    rcases List.mem_append.mp hf with hf | hf
    · refine (h.onTrail f (hrest f hf) w hw).imp_right ?_
      rintro ⟨q, hq⟩
      exact ⟨q, hkept w q hq⟩
    · obtain ⟨a, -, -, -, rfl⟩ := mem_extensions.mp hf
      rcases List.mem_cons.mp hw with rfl | hw
      · exact .inl rfl
      · right
        rcases h.onTrail e he w hw with rfl | ⟨q, hq⟩
        · exact ⟨e.trail, Function.update_self ..⟩
        · exact ⟨q, hkept w q hq⟩
  case root =>
    rcases h.root with hroot | ⟨f, hf, htrail⟩ | hinfinite
    · exact .inl (hkept u [] hroot)
    · rcases (hmem f).mp hf with rfl | hf
      · left
        rw [htrail] at hwalk
        cases hwalk
        rw [Function.update_self, htrail]
      · exact .inr (.inl ⟨f, List.mem_append_left _ hf, htrail⟩)
    · exact .inr (.inr hinfinite)
  case closed =>
    intro v q hq a ha hsrc
    by_cases hv : v = e.node
    · rw [hv, Function.update_self] at hq
      cases hq
      rw [hv] at hsrc
      by_cases hdst : G.dst a ∈ G.nodes u e.trail
      · left
        rcases h.onTrail e he _ hdst with heq | ⟨q', hq'⟩
        · exact ⟨e.trail, by rw [heq, Function.update_self], hafter a ha hsrc⟩
        · exact ⟨q', hkept _ q' hq', (h.noLater _ q' hq' e he).trans (hafter a ha hsrc)⟩
      · right
        left
        exact ⟨G.follow e a, List.mem_append_right _ (mem_extensions.mpr ⟨a, ha, hsrc, hdst, rfl⟩),
          rfl, .refl _⟩
    · rw [Function.update_of_ne hv] at hq
      rcases h.closed v q hq a ha hsrc with ⟨q', hq', hle⟩ | ⟨f, hf, hnode, hle⟩ | hinfinite
      · exact .inl ⟨q', hkept _ q' hq', hle⟩
      · rcases (hmem f).mp hf with rfl | hf
        · exact .inl ⟨f.trail, by rw [← hnode, Function.update_self], hle⟩
        · exact .inr (.inl ⟨f, List.mem_append_left _ hf, hnode, hle⟩)
      · exact .inr (.inr hinfinite)
  case unsettled =>
    rw [Function.update_of_ne (Ne.symm hgoal)]
    exact h.unsettled

/-! ### The whole search -/

/-- What is returned is a walk to the goal that no other of a finite score precedes. -/
theorem Sound.search_found {fuel : ℕ} (h : G.Sound u goal frontier settled)
    (hfound : G.search u goal fuel frontier settled = some (some e)) :
    G.Walk u e.trail goal ∧ e.node = goal ∧ e.cost = G.score e.trail ∧
      ∀ p, G.Walk u p goal → G.infinite (G.score p) = false → G.NoLater e.trail p := by
  induction fuel generalizing frontier settled with
  | zero => cases hfound
  | succ fuel ih =>
      rw [search] at hfound
      split at hfound
      · cases hfound
      · next f rest hpop =>
        have hf : f ∈ frontier := (mem_of_popLeast hpop f).mpr (.inl rfl)
        split at hfound
        · next hgoal =>
          cases hfound
          exact ⟨hgoal ▸ h.walks e hf, hgoal, h.costs e hf, fun p => h.noLater_walk hpop⟩
        · next hgoal =>
          split at hfound
          · next hskip => exact ih (h.skip hpop hskip) hfound
          · next hskip =>
            exact ih (h.expand hpop hgoal
              (Option.not_isSome_iff_eq_none.mp fun hsome => hskip (.inl hsome))) hfound

variable (G u goal) in
/-- The first walk to the goal. -/
def IsFirst (p : List E) : Prop := G.Walk u p goal ∧ ∀ q, G.Walk u q goal → G.NoLater p q

/-- What is returned is the first walk, if its score is finite. -/
theorem Sound.eq_of_isFirst {fuel : ℕ} {p : List E} (h : G.Sound u goal frontier settled)
    (hfound : G.search u goal fuel frontier settled = some (some e)) (hp : G.IsFirst u goal p)
    (hfinite : G.infinite (G.score p) = false) : e.trail = p := by
  obtain ⟨hwalk, -, -, hfirst⟩ := h.search_found hfound
  exact (hfirst p hp.1 hfinite).antisymm (hp.2 _ hwalk)

/-- If the frontier runs out, no walk of a finite score leads to the goal. -/
theorem Sound.search_exhausted {fuel : ℕ} (h : G.Sound u goal frontier settled)
    (hnone : G.search u goal fuel frontier settled = some none) (p : List E)
    (hp : G.Walk u p goal) : G.infinite (G.score p) := by
  induction fuel generalizing frontier settled with
  | zero => cases hnone
  | succ fuel ih =>
      rw [search] at hnone
      split at hnone
      · next hpop =>
        rcases h.covers hp with ⟨q, hq, -⟩ | ⟨g, hg, -⟩ | hinfinite
        · rw [h.unsettled] at hq
          cases hq
        · rw [popLeast_eq_none hpop] at hg
          cases hg
        · exact hinfinite
      · next f rest hpop =>
        split at hnone
        · cases hnone
        · next hgoal =>
          split at hnone
          · next hskip => exact ih (h.skip hpop hskip) hnone
          · next hskip =>
            exact ih (h.expand hpop hgoal
              (Option.not_isSome_iff_eq_none.mp fun hsome => hskip (.inl hsome))) hnone

/-- More rounds do not change the result. -/
theorem search_of_le {fuel more : ℕ} {found : Option (Entry V E S)} (hle : fuel ≤ more)
    (h : G.search u goal fuel frontier settled = some found) :
    G.search u goal more frontier settled = some found := by
  induction fuel generalizing more frontier settled with
  | zero => cases h
  | succ fuel ih =>
      obtain ⟨more, rfl⟩ : ∃ k, more = k + 1 := ⟨more - 1, by omega⟩
      have hle' : fuel ≤ more := Nat.le_of_succ_le_succ hle
      rw [search] at h ⊢
      split at h
      · exact h
      · split at h
        · next hgoal =>
          rw [if_pos hgoal]
          exact h
        · next hgoal =>
          rw [if_neg hgoal]
          split at h
          · next hsettled =>
            rw [if_pos hsettled]
            exact ih hle' h
          · next hsettled =>
            rw [if_neg hsettled]
            exact ih hle' h

variable (G) in
/-- The edges that may still be tried. -/
def remaining (settled : V → Option (List E)) : List E :=
  G.edges.filter fun a => (settled (G.src a)).isNone

/-- A round takes one path off and adds no more than it uses up of the edges. -/
theorem length_expand_le (hnew : settled e.node = none) :
    (G.extensions u e).length +
        (G.remaining (Function.update settled e.node (some e.trail))).length ≤
      (G.remaining settled).length := by
  have hout : (G.extensions u e).length ≤ (G.edges.filter fun a => G.src a = e.node).length := by
    rw [extensions, List.length_map]
    exact List.length_filter_le ..
  have hcount : ∀ l : List E, (l.filter fun a => G.src a = e.node).length +
      (l.filter fun a =>
        (Function.update settled e.node (some e.trail) (G.src a)).isNone).length ≤
      (l.filter fun a => (settled (G.src a)).isNone).length := by
    intro l
    induction l with
    | nil => simp
    | cons a l ih =>
        by_cases hsrc : G.src a = e.node
        · simp only [List.filter_cons, hsrc, hnew, Function.update_self, decide_true,
            Option.isNone_some, Option.isNone_none, if_true, List.length_cons, Bool.false_eq_true,
            if_false]
          omega
        · rw [List.filter_cons_of_neg (by simpa using hsrc), List.filter_cons, List.filter_cons,
            Function.update_of_ne hsrc]
          split
          · simp only [List.length_cons]
            omega
          · exact ih
  have hedges := hcount G.edges
  rw [remaining, remaining]
  omega

/-- The search ends. -/
theorem search_isSome {fuel : ℕ}
    (hfuel : frontier.length + (G.remaining settled).length < fuel) :
    (G.search u goal fuel frontier settled).isSome := by
  induction fuel generalizing frontier settled with
  | zero => omega
  | succ fuel ih =>
      rw [search]
      split
      · rfl
      · next e rest hpop =>
        have hlength := length_of_popLeast hpop
        split
        · rfl
        · split
          · exact ih (by omega)
          · next hsettled =>
            have hle := length_expand_le (G := G) (u := u)
              (Option.not_isSome_iff_eq_none.mp fun hsome => hsettled (.inl hsome))
            refine ih ?_
            rw [List.length_append]
            omega

end Search

end Graph

end BestFirst
