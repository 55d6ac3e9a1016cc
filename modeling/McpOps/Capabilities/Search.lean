import McpOps.Capabilities.Graph
import McpOps.Lib.BestFirst
import Mathlib.Algebra.Order.Ring.Rat
import Mathlib.Data.List.Forall2
import Mathlib.Tactic.NormNum
import Mathlib.Tactic.Positivity

/-!
# The searches as best-first searches

`_dijkstra` is a best-first search by the score of the edges: sequence numbers make the heap
return the oldest of the cheapest entries, and `best` skips a node exactly when it is settled or was
reached at an infinite score.  `_bfs` is a best-first search in which every edge weighs one.

## Strategy

The heap is compared with the frontier of the abstract search entry by entry, in the order of the
sequence numbers.  One round of `_dijkstra` pops what the search takes off (`heappop_matches`) and
pushes what the search adds (`relax_matches`), unless a check of the policy raises.  This holds
however sums are rounded; that the path found is optimal is then read off the abstract search for
the exact sums.

* `capabilityGraph`: the usable edges, with rounded sums of weights as the scores of trails.
* `dijkstraLoop_eq`, `dijkstra_eq`: `_dijkstra` is the search by scores, unless a check raises.
* `isPath_of_walk`, `exists_walk_of_isPath`: paths along usable edges are walks of their graph.
* `dijkstra_optimal`: with exact sums the path found has the least score.
-/

namespace McpOps

open BestFirst Rounding

/-! ## The graph of the usable edges -/

theorem edgePenalty_nonneg (riskWeight : Bool) (edge : CapabilityEdge) :
    0 ≤ edgePenalty riskWeight edge := by
  have hpenalty : 0 ≤ riskPenalty edge.risk := by
    rw [riskPenalty]
    repeat' split
    all_goals norm_num
  rw [edgePenalty]
  split
  · exact hpenalty
  · exact mul_nonneg hpenalty (by norm_num)

theorem latencyPenalty_nonneg (edge : CapabilityEdge) : 0 ≤ latencyPenalty edge := by
  rw [latencyPenalty]
  split <;> norm_num

theorem isRounding_exactly : IsRounding exactly := isRounding_id

theorem isRounding_asFloats : IsRounding asFloats :=
  isRounding_overflowing (Nat.succ_pos 52) (by positivity)

section Rounded

variable {round : ScoreRounding}

theorem roundedEdgeScore_nonneg (hround : IsRounding round) (riskWeight : Bool)
    (edge : CapabilityEdge) : 0 ≤ roundedEdgeScore round riskWeight edge := by
  have hpenalty := hround.nonneg (WithTop.coe_nonneg.mpr (edgePenalty_nonneg riskWeight edge))
  have hlatency := hround.nonneg (WithTop.coe_nonneg.mpr (latencyPenalty_nonneg edge))
  have hcost : (0 : Score) ≤ edge.cost := WithTop.coe_nonneg.mpr edge.cost_nonneg
  exact hround.nonneg (add_nonneg (hround.nonneg (add_nonneg hcost hpenalty)) hlatency)

/-- The score of a trail with one more edge. -/
def roundedExtend (round : ScoreRounding) (weight : CapabilityEdge → Score) (s : Score)
    (a : CapabilityEdge × ℕ) : Score :=
  round (s + weight a.1)

variable {weight : CapabilityEdge → Score}

/-- The scores of trails are rounded. -/
theorem rounded_scoreFrom (hround : IsRounding round) (hweight : ∀ edge, 0 ≤ weight edge)
    (p : List (CapabilityEdge × ℕ)) :
    0 ≤ scoreFrom 0 (roundedExtend round weight) p ∧
      round (scoreFrom 0 (roundedExtend round weight) p) =
        scoreFrom 0 (roundedExtend round weight) p := by
  induction p with
  | nil => exact ⟨le_rfl, hround.zero⟩
  | cons a p ih =>
      have hsum : 0 ≤ scoreFrom 0 (roundedExtend round weight) p + weight a.1 :=
        add_nonneg ih.1 (hweight a.1)
      exact ⟨hround.nonneg hsum, hround.idem _ hsum⟩

theorem le_roundedExtend (hround : IsRounding round) (hweight : ∀ edge, 0 ≤ weight edge)
    (a : CapabilityEdge × ℕ) (p : List (CapabilityEdge × ℕ)) :
    scoreFrom 0 (roundedExtend round weight) p ≤
      roundedExtend round weight (scoreFrom 0 (roundedExtend round weight) p) a :=
  have hp := rounded_scoreFrom hround hweight p
  hround.le_round_add hp.1 hp.2 (hweight a.1)

theorem roundedExtend_mono (hround : IsRounding round) (hweight : ∀ edge, 0 ≤ weight edge)
    (a : CapabilityEdge × ℕ) (p q : List (CapabilityEdge × ℕ))
    (h : scoreFrom 0 (roundedExtend round weight) p ≤ scoreFrom 0 (roundedExtend round weight) q) :
    roundedExtend round weight (scoreFrom 0 (roundedExtend round weight) p) a ≤
      roundedExtend round weight (scoreFrom 0 (roundedExtend round weight) q) a :=
  hround.round_add_mono (rounded_scoreFrom hround hweight p).1 (hweight a.1) h

/-- No score but the infinite one is as great. -/
theorem infinite_of_le (s t : Score) (hs : decide (s = ⊤)) (hst : s ≤ t) : decide (t = ⊤) := by
  rw [decide_eq_true_eq] at hs ⊢
  rw [hs] at hst
  exact top_le_iff.mp hst

theorem pairwise_filter_zipIdx (edges : List CapabilityEdge) (usable : CapabilityEdge → Bool) :
    (edges.zipIdx.filter fun a => usable a.1).Pairwise fun a b => a.2 < b.2 := by
  have hplaces : ∀ (l : List CapabilityEdge) (n : ℕ),
      (l.zipIdx n).Pairwise fun a b => a.2 < b.2 := by
    intro l
    induction l with
    | nil => simp
    | cons edge rest ih =>
        intro n
        rw [List.zipIdx_cons, List.pairwise_cons]
        refine ⟨fun b hb => ?_, ih (n + 1)⟩
        exact (List.mem_zipIdx hb).1
  exact (hplaces edges 0).filter _

/-- The edges that are `usable`, each with its place among all of them. -/
def capabilityGraph (edges : List CapabilityEdge) (usable : CapabilityEdge → Bool)
    (hround : IsRounding round) (hweight : ∀ edge, 0 ≤ weight edge) :
    Graph String (CapabilityEdge × ℕ) Score where
  edges := edges.zipIdx.filter fun a => usable a.1
  src a := a.1.sourceType
  dst a := a.1.destinationType
  base := 0
  extend := roundedExtend round weight
  infinite s := s = ⊤
  place := Prod.snd
  le_extend a _ p _ := le_roundedExtend hround hweight a p
  extend_mono a _ p q _ _ h := roundedExtend_mono hround hweight a p q h
  infinite_of_le := infinite_of_le
  places := pairwise_filter_zipIdx edges usable

end Rounded

/-- The edges of a trail in the order in which they are passed. -/
def pathOf (trail : List (CapabilityEdge × ℕ)) : List CapabilityEdge :=
  (trail.map Prod.fst).reverse

/-- The check of an edge comes out positive. -/
def passes (allowed : CapabilityEdge → Except EngineError Bool) (edge : CapabilityEdge) : Bool :=
  match allowed edge with
  | .ok answer => answer
  | .error _ => false

/-! ## The heap and the frontier -/

section Heap

variable {G : Graph String (CapabilityEdge × ℕ) Score} {source : String}

/-- An entry of the heap is that of the frontier. -/
structure Matches (G : Graph String (CapabilityEdge × ℕ) Score) (source : String)
    (entry : HeapEntry)
    (f : Entry String (CapabilityEdge × ℕ) Score) : Prop where
  cost : entry.cost = f.cost
  current : entry.current = f.node
  nodes : entry.nodes = (G.nodes source f.trail).reverse
  edges : entry.edges = pathOf f.trail

/-- The heap, in the order of the sequence numbers, is the frontier. -/
structure HeapMatches (G : Graph String (CapabilityEdge × ℕ) Score) (source : String)
    (heap : List HeapEntry) (sequence : ℕ)
    (frontier : List (Entry String (CapabilityEdge × ℕ) Score)) :
    Prop where
  entries : List.Forall₂ (Matches G source) heap frontier
  increasing : heap.Pairwise fun f g => f.sequence < g.sequence
  below : ∀ entry ∈ heap, entry.sequence < sequence

/-- `heappop` takes out what the search takes off the frontier. -/
theorem heappop_matches {heap : List HeapEntry}
    {frontier : List (Entry String (CapabilityEdge × ℕ) Score)}
    (hentries : List.Forall₂ (Matches G source) heap frontier)
    (hincreasing : heap.Pairwise fun f g => f.sequence < g.sequence) :
    (popLeast frontier = none → heappop heap = none) ∧
      ∀ e rest, popLeast frontier = some (e, rest) →
        ∃ entry heap', heappop heap = some (entry, heap') ∧ Matches G source entry e ∧
          List.Forall₂ (Matches G source) heap' rest ∧ heap'.Sublist heap ∧ entry ∈ heap := by
  induction hentries with
  | nil => exact ⟨fun _ => rfl, by simp [popLeast]⟩
  | @cons first g heap frontier hfirst _ ih =>
      rw [List.pairwise_cons] at hincreasing
      obtain ⟨ihnone, ihsome⟩ := ih hincreasing.2
      refine ⟨fun hnone => absurd (popLeast_eq_none hnone) (List.cons_ne_nil _ _), ?_⟩
      intro e rest hpop
      rw [popLeast] at hpop
      split at hpop
      · next hnone =>
        cases hpop
        have hempty := popLeast_eq_none hnone
        have hheap : heap = [] := by
          subst hempty
          cases ‹List.Forall₂ _ heap []›
          rfl
        subst hheap
        exact ⟨first, [], rfl, hfirst, .nil, List.nil_sublist _, List.mem_cons_self ..⟩
      · next m others hsome =>
        obtain ⟨entry, heap', hheappop, hmatches, hrest, hsublist, hmem⟩ := ihsome m others hsome
        -- the popped entry is newer than the first one
        have hbefore : entry.before first = decide (m.cost < g.cost) := by
          have hnewer := hincreasing.1 entry hmem
          rw [HeapEntry.before, hmatches.cost, hfirst.cost, decide_eq_decide]
          exact ⟨fun h => h.resolve_right fun h => absurd h.2 hnewer.not_gt, .inl⟩
        rw [heappop, hheappop]
        simp only [hbefore, decide_eq_true_eq]
        split at hpop
        · next hlt =>
          cases hpop
          rw [if_pos hlt]
          exact ⟨entry, first :: heap', rfl, hmatches, .cons hfirst hrest, hsublist.cons_cons first,
            List.mem_cons_of_mem _ hmem⟩
        · next hge =>
          cases hpop
          rw [if_neg hge]
          exact ⟨first, heap, rfl, hfirst, ‹_›, List.sublist_cons_self .., List.mem_cons_self ..⟩

variable {round : ScoreRounding} {allowed : CapabilityEdge → Except EngineError Bool}
  {riskWeight : Bool}

/-- `relax` adds to the heap what the search adds to the frontier. -/
theorem relax_matches {entry : HeapEntry} {e : Entry String (CapabilityEdge × ℕ) Score}
    (hdst : ∀ a, G.dst a = a.1.destinationType)
    (hextend : G.extend = roundedExtend round (roundedEdgeScore round riskWeight))
    (hentry : Matches G source entry e)
    {l : List (CapabilityEdge × ℕ)} {heap heap' : List HeapEntry} {sequence sequence' : ℕ}
    {frontier : List (Entry String (CapabilityEdge × ℕ) Score)}
    (h : HeapMatches G source heap sequence frontier)
    (hok : relax round allowed riskWeight entry (l.map Prod.fst) heap sequence =
      .ok (heap', sequence')) :
    HeapMatches G source heap' sequence' (frontier ++
      ((l.filter fun a => passes allowed a.1).filter
        fun a => G.dst a ∉ G.nodes source e.trail).map (G.follow e)) := by
  induction l generalizing heap sequence frontier with
  | nil =>
      cases hok
      simpa using h
  | cons a l ih =>
      rw [List.map_cons, relax] at hok
      have hvisited : a.1.destinationType ∈ entry.nodes ↔ G.dst a ∈ G.nodes source e.trail := by
        rw [hentry.nodes, List.mem_reverse, hdst]
      split at hok
      · cases hok
      · -- an edge that the policy refuses is none of those that pass
        next hallowed =>
        have hpasses : ¬ passes allowed a.1 := by simp [passes, hallowed]
        rw [List.filter_cons_of_neg (by simpa using hpasses)]
        exact ih h hok
      · next hallowed =>
        have hpasses : passes allowed a.1 := by simp [passes, hallowed]
        rw [List.filter_cons_of_pos (by simpa using hpasses)]
        split at hok
        · -- its end is on the path already, in the heap's list as in the trail
          next hmem =>
          rw [List.filter_cons_of_neg (by simpa using hvisited.mp hmem)]
          exact ih h hok
        · next hmem =>
          -- the entry that is pushed follows the abstract one by the edge
          have hnew : G.dst a ∉ G.nodes source e.trail := fun hv => hmem (hvisited.mpr hv)
          rw [List.filter_cons_of_pos (by simpa using hnew), List.map_cons, List.append_cons]
          refine ih ⟨?_, ?_, ?_⟩ hok
          · refine List.rel_append h.entries (.cons ⟨?_, ?_, ?_, ?_⟩ .nil)
            · rw [Graph.follow, hentry.cost, hextend]
              rfl
            · exact (hdst a).symm
            · rw [Graph.follow, Graph.nodes, List.map_cons, List.cons_append, List.reverse_cons,
                hentry.nodes, hdst]
              rfl
            · rw [Graph.follow, pathOf, List.map_cons, List.reverse_cons, hentry.edges]
              rfl
          · rw [List.pairwise_append]
            refine ⟨h.increasing, List.pairwise_singleton .., fun f hf g hg => ?_⟩
            rw [List.mem_singleton.mp hg]
            exact h.below f hf
          · intro f hf
            rcases List.mem_append.mp hf with hf | hf
            · exact (h.below f hf).trans (Nat.lt_succ_self _)
            · rw [List.mem_singleton.mp hf]
              exact Nat.lt_succ_self _

/-- `relax` raises only what a check raises. -/
theorem relax_error {entry : HeapEntry} {edges : List CapabilityEdge} {heap : List HeapEntry}
    {sequence : ℕ} {err : EngineError}
    (herr : relax round allowed riskWeight entry edges heap sequence = .error err) :
    ∃ edge ∈ edges, allowed edge = .error err := by
  induction edges generalizing heap sequence with
  | nil => cases herr
  | cons edge rest ih =>
      have hlater : (∃ edge ∈ rest, allowed edge = .error err) →
          ∃ edge' ∈ edge :: rest, allowed edge' = .error err := by
        rintro ⟨edge', hmem, hraises⟩
        exact ⟨edge', List.mem_cons_of_mem _ hmem, hraises⟩
      rw [relax] at herr
      split at herr
      · next hraises =>
        cases herr
        exact ⟨edge, List.mem_cons_self .., hraises⟩
      · exact hlater (ih herr)
      · split at herr
        · exact hlater (ih herr)
        · exact hlater (ih herr)

end Heap

/-! ## `_dijkstra` -/

section Dijkstra

variable (S : CapabilityGraphService) (allowed : CapabilityEdge → Except EngineError Bool)

/-- The edges that `_dijkstra` may use, weighted by their scores. -/
def scoreGraph {round : ScoreRounding} (hround : IsRounding round) (riskWeight : Bool) :
    Graph String (CapabilityEdge × ℕ) Score :=
  capabilityGraph S.edges (fun edge => edge.enabled && passes allowed edge) hround
    (roundedEdgeScore_nonneg hround riskWeight)

/-- The result of a search that ends with `found`. -/
def searchResult (G : Graph String (CapabilityEdge × ℕ) Score) (request : CapabilityPathRequest)
    (source goal : String) :
    Option (Entry String (CapabilityEdge × ℕ) Score) → Except EngineError CapabilityPath
  | none => .ok (unreachable request source goal)
  | some e => .ok (pathFromEdges request (G.nodes source e.trail).reverse (pathOf e.trail))

/-- The edges out of a node, with their places. -/
theorem outgoing_eq (node : String) :
    S.outgoing node = (S.edges.zipIdx.filter fun a =>
      decide (a.1.sourceType = node ∧ a.1.enabled)).map Prod.fst := by
  have hmap : ∀ (p : CapabilityEdge → Bool) (l : List CapabilityEdge) (n : ℕ),
      ((l.zipIdx n).filter fun a => p a.1).map Prod.fst = l.filter p := by
    intro p l
    induction l with
    | nil => simp
    | cons edge rest ih =>
        intro n
        rw [List.zipIdx_cons, List.filter_cons, List.filter_cons]
        split
        · rw [List.map_cons, ih]
        · exact ih (n + 1)
  exact (hmap (fun edge => decide (edge.sourceType = node ∧ edge.enabled)) S.edges 0).symm

variable {S allowed} {round : ScoreRounding} {hround : IsRounding round} {riskWeight : Bool}
  {request : CapabilityPathRequest} {source goal : String}

variable (hround) in
/-- The usable edges out of a node. -/
theorem filter_passes_outgoing (node : String) :
    ((S.edges.zipIdx.filter fun a => decide (a.1.sourceType = node ∧ a.1.enabled)).filter
        fun a => passes allowed a.1) =
      (scoreGraph S allowed hround riskWeight).edges.filter
        fun a => (scoreGraph S allowed hround riskWeight).src a = node := by
  rw [scoreGraph, capabilityGraph, List.filter_filter, List.filter_filter]
  apply List.filter_congr
  intro a _
  by_cases hsource : a.1.sourceType = node <;> simp [hsource, Bool.and_comm]

/-- A check raises at a node that the search comes to before any walk to the goal. -/
def RaisesFirst (S : CapabilityGraphService) (allowed : CapabilityEdge → Except EngineError Bool)
    (G : Graph String (CapabilityEdge × ℕ) Score) (source goal : String)
    (err : EngineError) : Prop :=
  ∃ node trail, G.Walk source trail node ∧ node ≠ goal ∧
    (∀ p, G.Walk source p goal → G.infinite (G.score p) = false → G.NoLater trail p) ∧
    ∃ edge ∈ S.outgoing node, allowed edge = .error err

/-- The loop of `_dijkstra` is the search by scores, unless a check raises. -/
theorem dijkstraLoop_eq {fuel : ℕ} {heap : List HeapEntry} {sequence : ℕ}
    {best : String → Option Score} {frontier : List (Entry String (CapabilityEdge × ℕ) Score)}
    {settled : String → Option (List (CapabilityEdge × ℕ))}
    (hheap : HeapMatches (scoreGraph S allowed hround riskWeight) source heap sequence frontier)
    (hbest : ∀ node, best node = (settled node).map (scoreGraph S allowed hround riskWeight).score)
    (hsound : (scoreGraph S allowed hround riskWeight).Sound source goal frontier settled) :
    (∃ err, S.dijkstraLoop round allowed request source goal riskWeight fuel heap sequence best =
        some (.error err) ∧
          RaisesFirst S allowed (scoreGraph S allowed hround riskWeight) source goal err) ∨
      S.dijkstraLoop round allowed request source goal riskWeight fuel heap sequence best =
        ((scoreGraph S allowed hround riskWeight).search source goal fuel frontier settled).map
          (searchResult (scoreGraph S allowed hround riskWeight) request source goal) := by
  induction fuel generalizing heap sequence best frontier settled with
  | zero => exact .inr rfl
  | succ fuel ih =>
      obtain ⟨hnone, hsome⟩ := heappop_matches hheap.entries hheap.increasing
      rw [CapabilityGraphService.dijkstraLoop, Graph.search]
      cases hpop : popLeast frontier with
      | none =>
          right
          simp only [hnone hpop]
          rfl
      | some popped =>
          obtain ⟨e, rest⟩ := popped
          obtain ⟨entry, heap', hheappop, hmatches, hrest, hsublist, hentry⟩ := hsome e rest hpop
          have hheap' : HeapMatches
              (scoreGraph S allowed hround riskWeight) source heap' sequence rest :=
            ⟨hrest, hheap.increasing.sublist hsublist,
              fun f hf => hheap.below f (hsublist.subset hf)⟩
          have he : e ∈ frontier := (Graph.mem_of_popLeast hpop e).mpr (.inl rfl)
          simp only [hheappop]
          by_cases hgoal : e.node = goal
          · right
            rw [if_pos hgoal, if_pos (hmatches.current.trans hgoal), hmatches.nodes,
              hmatches.edges]
            rfl
          · rw [if_neg hgoal, if_neg (by rwa [hmatches.current]), hmatches.current, hbest]
            have hskip : ((settled e.node).map
                (scoreGraph S allowed hround riskWeight).score).getD ⊤ ≤ entry.cost ↔
                  (settled e.node).isSome ∨
                    (scoreGraph S allowed hround riskWeight).infinite e.cost := by
              cases hsettled : settled e.node with
              | some q =>
                  -- what is settled was settled at no greater cost
                  refine iff_of_true ?_ (.inl rfl)
                  rw [Option.map_some, Option.getD_some, hmatches.cost, hsound.costs e he]
                  exact (hsound.noLater _ q hsettled e he).score_le (hsound.walks e he).mem_edges
              | none =>
                  have hinfinite : (scoreGraph S allowed hround riskWeight).infinite e.cost ↔
                      e.cost = ⊤ := decide_eq_true_iff
                  rw [hinfinite, hmatches.cost]
                  exact top_le_iff.trans (or_iff_right Bool.false_ne_true).symm
            by_cases hdone : (settled e.node).isSome ∨
                (scoreGraph S allowed hround riskWeight).infinite e.cost
            · rw [if_pos (hskip.mpr hdone), if_pos hdone]
              exact ih hheap' hbest (hsound.skip hpop hdone)
            · rw [if_neg (hskip.not.mpr hdone), if_neg hdone, outgoing_eq]
              have hnew : settled e.node = none :=
                Option.not_isSome_iff_eq_none.mp fun hsome => hdone (.inl hsome)
              cases hrelax : relax round allowed riskWeight entry
                  ((S.edges.zipIdx.filter fun a =>
                    decide (a.1.sourceType = e.node ∧ a.1.enabled)).map Prod.fst)
                  heap' sequence with
              | error err =>
                  left
                  obtain ⟨edge, hedge, hraises⟩ := relax_error hrelax
                  rw [← outgoing_eq] at hedge
                  exact ⟨err, rfl, e.node, e.trail, hsound.walks e he, hgoal,
                    fun p => hsound.noLater_walk hpop, edge, hedge, hraises⟩
              | ok relaxed =>
                  obtain ⟨heap'', sequence'⟩ := relaxed
                  have hnext := relax_matches (G := scoreGraph S allowed hround riskWeight)
                    (fun _ => rfl) rfl hmatches hheap' hrelax
                  rw [filter_passes_outgoing hround] at hnext
                  refine ih hnext (fun node => ?_) (hsound.expand hpop hgoal hnew)
                  rw [Function.update_apply, Function.update_apply]
                  split
                  · rw [Option.map_some, hmatches.cost, hsound.costs e he]
                  · exact hbest node

variable (S allowed hround riskWeight request source goal) in
/-- `_dijkstra` is the search by scores, unless a check raises. -/
theorem dijkstra_eq (fuel : ℕ) :
    (∃ err, S.dijkstra round allowed request source goal riskWeight fuel = some (.error err) ∧
        RaisesFirst S allowed (scoreGraph S allowed hround riskWeight) source goal err) ∨
      S.dijkstra round allowed request source goal riskWeight fuel =
        ((scoreGraph S allowed hround riskWeight).search source goal fuel
          [(scoreGraph S allowed hround riskWeight).start source] fun _ => none).map
          (searchResult (scoreGraph S allowed hround riskWeight) request source goal) := by
  refine dijkstraLoop_eq ⟨.cons ⟨rfl, rfl, rfl, rfl⟩ .nil, ?_, ?_⟩ (fun _ => rfl)
    (Graph.sound_start _ _ _)
  · exact List.pairwise_singleton ..
  · simp

/-- More rounds do not change what `_dijkstra` does. -/
theorem dijkstraLoop_of_le {fuel more : ℕ} {heap : List HeapEntry} {sequence : ℕ}
    {best : String → Option Score} {result : Except EngineError CapabilityPath}
    (hle : fuel ≤ more)
    (h : S.dijkstraLoop round allowed request source goal riskWeight fuel heap sequence best =
      some result) :
    S.dijkstraLoop round allowed request source goal riskWeight more heap sequence best =
      some result := by
  induction fuel generalizing more heap sequence best with
  | zero => cases h
  | succ fuel ih =>
      -- with more fuel the loop takes the same branches
      obtain ⟨more, rfl⟩ : ∃ k, more = k + 1 := ⟨more - 1, by omega⟩
      have hle' : fuel ≤ more := Nat.le_of_succ_le_succ hle
      rw [CapabilityGraphService.dijkstraLoop] at h ⊢
      split at h
      · exact h
      · split at h
        · next hgoal =>
          rw [if_pos hgoal]
          exact h
        · next hgoal =>
          rw [if_neg hgoal]
          split at h
          · next hskip =>
            rw [if_pos hskip]
            exact ih hle' h
          · next hskip =>
            rw [if_neg hskip]
            split at h
            · exact h
            · exact ih hle' h

end Dijkstra

/-! ## Paths -/

/-- `path` leads from `source` to `goal` along edges of the graph that are `usable`. -/
def IsPath (edges : List CapabilityEdge) (usable : CapabilityEdge → Bool) :
    String → List CapabilityEdge → String → Prop
  | source, [], goal => source = goal
  | source, edge :: rest, goal =>
      (edge ∈ edges ∧ usable edge ∧ edge.sourceType = source) ∧
        IsPath edges usable edge.destinationType rest goal

section Paths

variable {edges path : List CapabilityEdge} {usable : CapabilityEdge → Bool}
  {round : ScoreRounding} {hround : IsRounding round} {weight : CapabilityEdge → Score}
  {hweight : ∀ edge, 0 ≤ weight edge} {source goal : String}

theorem isPath_append {last : CapabilityEdge} :
    IsPath edges usable source (path ++ [last]) goal ↔
      IsPath edges usable source path last.sourceType ∧
        (last ∈ edges ∧ usable last) ∧ last.destinationType = goal := by
  induction path generalizing source with
  | nil =>
      simp only [List.nil_append, IsPath]
      constructor
      · rintro ⟨⟨hmem, husable, hsource⟩, hgoal⟩
        exact ⟨hsource.symm, ⟨hmem, husable⟩, hgoal⟩
      · rintro ⟨hsource, ⟨hmem, husable⟩, hgoal⟩
        exact ⟨⟨hmem, husable, hsource.symm⟩, hgoal⟩
  | cons edge rest ih => simp only [List.cons_append, IsPath, ih, and_assoc]

theorem pathOf_cons (a : CapabilityEdge × ℕ) (trail : List (CapabilityEdge × ℕ)) :
    pathOf (a :: trail) = pathOf trail ++ [a.1] := by
  rw [pathOf, List.map_cons, List.reverse_cons]
  rfl

/-- A walk of the graph of usable edges is a path along them. -/
theorem isPath_of_walk {trail : List (CapabilityEdge × ℕ)}
    (h : (capabilityGraph edges usable hround hweight).Walk source trail goal) :
    IsPath edges usable source (pathOf trail) goal := by
  induction h with
  | nil => rfl
  | @cons a trail _ ha ih =>
      obtain ⟨hplace, husable⟩ := List.mem_filter.mp ha
      have hmem : a.1 ∈ edges := by
        have := List.mem_map_of_mem (f := Prod.fst) hplace
        rwa [List.zipIdx_map_fst] at this
      rw [pathOf_cons, isPath_append]
      exact ⟨ih, ⟨hmem, husable⟩, rfl⟩

/-- A path along usable edges is a walk of their graph. -/
theorem exists_walk_of_isPath (h : IsPath edges usable source path goal) :
    ∃ trail, (capabilityGraph edges usable hround hweight).Walk source trail goal ∧
      pathOf trail = path := by
  induction path using List.reverseRecOn generalizing goal with
  | nil =>
      cases h
      exact ⟨[], .nil, rfl⟩
  | append_singleton path last ih =>
      obtain ⟨hpath, ⟨hmem, husable⟩, rfl⟩ := isPath_append.mp h
      obtain ⟨trail, hwalk, htrail⟩ := ih hpath
      obtain ⟨i, hi, hlast⟩ := List.getElem_of_mem hmem
      have hplace : (last, i) ∈ (capabilityGraph edges usable hround hweight).edges := by
        refine List.mem_filter.mpr ⟨?_, husable⟩
        rw [List.mem_zipIdx_iff_getElem?, List.getElem?_eq_getElem hi, hlast]
      exact ⟨(last, i) :: trail, .cons hwalk hplace, by rw [pathOf_cons, htrail]⟩

/-- The nodes of a trail in the order in which they are passed. -/
theorem reverse_nodes (trail : List (CapabilityEdge × ℕ)) :
    ((capabilityGraph edges usable hround hweight).nodes source trail).reverse =
      source :: (pathOf trail).map (·.destinationType) := by
  rw [Graph.nodes, List.reverse_append, pathOf, List.map_reverse, List.map_map]
  rfl

end Paths

/-- Two rounds more than there are edges suffice. -/
theorem exists_search_of_length (edges : List CapabilityEdge)
    (G : Graph String (CapabilityEdge × ℕ) Score) (hlength : G.edges.length ≤ edges.zipIdx.length)
    (source goal : String) :
    ∃ found, ∀ fuel, edges.length + 2 ≤ fuel →
      G.search source goal fuel [G.start source] (fun _ => none) = some found := by
  have hsome : (G.search source goal (edges.length + 2) [G.start source]
      fun _ => none).isSome := by
    apply Graph.search_isSome
    have hremaining : (G.remaining fun _ => none).length ≤ G.edges.length :=
      List.length_filter_le ..
    rw [List.length_zipIdx] at hlength
    rw [List.length_singleton]
    omega
  obtain ⟨found, hfound⟩ := Option.isSome_iff_exists.mp hsome
  exact ⟨found, fun fuel hfuel => Graph.search_of_le hfuel hfound⟩

/-- The edges that `_dijkstra` may use with a check that never raises. -/
def usableEdge (allowed : CapabilityEdge → Bool) (edge : CapabilityEdge) : Bool :=
  edge.enabled && allowed edge

/-- The exact score of a trail is the sum of the scores along the path. -/
theorem score_exactly {S : CapabilityGraphService}
    {check : CapabilityEdge → Except EngineError Bool} {riskWeight : Bool}
    (trail : List (CapabilityEdge × ℕ)) :
    (scoreGraph S check isRounding_exactly riskWeight).score trail =
      (((pathOf trail).map (edgeScore riskWeight)).sum : ℚ) := by
  induction trail with
  | nil => rfl
  | cons a trail ih =>
      have hedge : roundedEdgeScore exactly riskWeight a.1 = (edgeScore riskWeight a.1 : ℚ) := rfl
      rw [Graph.score_cons, ih, pathOf_cons, List.map_append, List.sum_append, List.map_singleton,
        List.sum_singleton, WithTop.coe_add, ← hedge]
      rfl

/-- **Optimality.**  With any check of the edges and exact sums, `_dijkstra` ends; it finds a path
exactly when there is one along enabled and allowed edges, and then a path of least score. -/
theorem dijkstra_optimal (S : CapabilityGraphService) (allowed : CapabilityEdge → Bool)
    (request : CapabilityPathRequest) (source goal : String) (riskWeight : Bool) :
    ∃ path : CapabilityPath,
      (∀ fuel, S.edges.length + 2 ≤ fuel →
        S.dijkstra exactly (fun edge => .ok (allowed edge)) request source goal riskWeight fuel =
          some (.ok path)) ∧
      (path.reachable ↔ ∃ edges, IsPath S.edges (usableEdge allowed) source edges goal) ∧
      (path.reachable →
        IsPath S.edges (usableEdge allowed) source path.edges goal ∧
          path.nodes = source :: path.edges.map (·.destinationType) ∧
          ∀ edges, IsPath S.edges (usableEdge allowed) source edges goal →
            (path.edges.map (edgeScore riskWeight)).sum ≤
              (edges.map (edgeScore riskWeight)).sum) := by
  set check : CapabilityEdge → Except EngineError Bool := fun edge => .ok (allowed edge)
  set G := scoreGraph S check isRounding_exactly riskWeight with hG
  have hsound := Graph.sound_start G source goal
  obtain ⟨found, hfound⟩ := exists_search_of_length S.edges G (List.length_filter_le ..) source goal
  -- no exact score is infinite
  have hfinite : ∀ trail, G.infinite (G.score trail) = false := by
    intro trail
    rw [hG, score_exactly]
    exact decide_eq_false (p := ((((pathOf trail).map (edgeScore riskWeight)).sum : ℚ) : Score) = ⊤)
      WithTop.coe_ne_top
  have hresult : ∀ fuel, S.edges.length + 2 ≤ fuel →
      S.dijkstra exactly check request source goal riskWeight fuel =
        some (searchResult G request source goal found) := by
    intro fuel hfuel
    rcases dijkstra_eq S check isRounding_exactly riskWeight request source goal fuel with
      ⟨err, -, -, -, -, -, -, edge, -, hraises⟩ | heq
    · cases hraises
    · rw [heq, hfound fuel hfuel, Option.map_some]
  cases found with
  | none =>
      refine ⟨unreachable request source goal, hresult, ?_, fun h => absurd h Bool.false_ne_true⟩
      refine iff_of_false Bool.false_ne_true ?_
      rintro ⟨edges, hpath⟩
      obtain ⟨trail, hwalk, -⟩ := exists_walk_of_isPath hpath
      have hinfinite := hsound.search_exhausted (hfound _ le_rfl) trail hwalk
      rw [hfinite] at hinfinite
      cases hinfinite
  | some e =>
      obtain ⟨hwalk, -, -, hfirst⟩ := hsound.search_found (hfound _ le_rfl)
      have hpath : IsPath S.edges (usableEdge allowed) source (pathOf e.trail) goal :=
        isPath_of_walk hwalk
      refine ⟨_, hresult, iff_of_true rfl ⟨_, hpath⟩, fun _ => ⟨hpath, reverse_nodes _, ?_⟩⟩
      intro edges hedges
      obtain ⟨trail, hwalk', rfl⟩ := exists_walk_of_isPath hedges
      have hle : G.score e.trail ≤ G.score trail :=
        (hfirst trail hwalk' (hfinite trail)).score_le hwalk'.mem_edges
      rwa [hG, score_exactly, score_exactly, WithTop.coe_le_coe] at hle

end McpOps
