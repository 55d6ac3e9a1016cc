import Mathlib.Order.Bounds.Defs
import Mathlib.Tactic.NormNum
import McpOps.Capabilities.Compliance

/-!
# The lowest risk

With the strategy `lowest_risk` the search minimises a sum in which risk is one summand and cost
another.  So great costs outweigh risks: which path is found depends on the costs, and its risk is
the least for all of them only if the costs have nothing to choose between.

The paths that some costs let the search find are those without a repeated node whose nodes are
passed without a check that raises (`Takeable`).

* The search finds no others (`dijkstraLoop_takeable`): a loop invariant of the heap.
* It finds each of them where its edges cost nothing and every other edge costs `2 ^ 61`
  (`Takeable.exists_found`).  There a walk that is taken up no later than the path cannot have
  another edge (`mem_favouredTrail`), since `float`s add up to less than that
  along the path and to at least that along every walk with another one.  So it is a beginning of
  the path, and neither a check that raises nor another way to the goal comes first.

The risk itself is a number with three decimals, so that rounding does not change it.

* `SameButCosts`: two graphs that differ at most in their costs.
* `lowestRiskIsLeast_iff`: for which graphs the risk is the least, whatever the costs are.
-/

namespace McpOps

open BestFirst Rounding

/-! ## The risk -/

/-- The risk of a path: the penalties of its edges. -/
def riskOf (edges : List CapabilityEdge) : ℚ := (edges.map (riskPenalty ·.risk)).sum

/-- Risks have at most three decimals. -/
theorem exists_thousandths (edges : List CapabilityEdge) :
    ∃ n : ℤ, riskOf edges * 1000 = n := by
  induction edges with
  | nil => exact ⟨0, by simp [riskOf]⟩
  | cons edge rest ih =>
      obtain ⟨n, hn⟩ := ih
      have hpenalty : ∃ k : ℤ, riskPenalty edge.risk * 1000 = k := by
        rw [riskPenalty]
        split
        · exact ⟨0, by norm_num⟩
        split
        · exact ⟨200, by norm_num⟩
        split
        · exact ⟨1000, by norm_num⟩
        split
        · exact ⟨3000, by norm_num⟩
        split
        · exact ⟨8000, by norm_num⟩
        · exact ⟨10000, by norm_num⟩
      obtain ⟨k, hk⟩ := hpenalty
      refine ⟨k + n, ?_⟩
      rw [riskOf, List.map_cons, List.sum_cons, add_mul, hk, Int.cast_add, ← hn]
      rfl

/-- Rounding changes no risk. -/
theorem roundThousandths_riskOf (edges : List CapabilityEdge) :
    roundThousandths (riskOf edges) = riskOf edges := by
  obtain ⟨n, hn⟩ := exists_thousandths edges
  have hfloor : (riskOf edges * 1000).floor = n := by
    rw [hn]
    exact Rat.floor_intCast n
  have hvalue : (n : ℚ) / 1000 = riskOf edges := by
    rw [← hn]
    exact mul_div_cancel_right₀ _ (by norm_num)
  rw [roundThousandths, hfloor, hn, sub_self, if_pos (.inl (by norm_num)), hvalue]

/-- With the strategy `lowest_risk`, the risk score of a path that is found is the least over all
allowed paths. -/
def LowestRiskIsLeast (S : CapabilityGraphService) (request : CapabilityPathRequest)
    (now : Time) : Prop :=
  request.strategy = "lowest_risk" → ∀ fuel path,
    S.findPath request now fuel = some (.ok path) → path.reachable →
      IsLeast
        {risk | ∃ edges, IsPath S.edges (allowedEdge S request now) (resourceType request.source)
          edges (goalType request.goal) ∧ riskOf edges = risk}
        path.riskScore

/-! ## Other costs -/

/-- The edge at no cost. -/
def CapabilityEdge.withoutCost (edge : CapabilityEdge) : CapabilityEdge :=
  { edge with
    cost := 0
    cost_nonneg := le_rfl }

/-- What does not depend on the cost is the same of edges that differ in it. -/
theorem eq_of_withoutCost {α : Type} {f : CapabilityEdge → α}
    (hf : ∀ edge, f edge = f edge.withoutCost) {edge edge' : CapabilityEdge}
    (h : edge.withoutCost = edge'.withoutCost) : f edge = f edge' := by
  rw [hf edge, h, ← hf edge']

/-- The two graphs differ at most in the costs of their edges. -/
structure SameButCosts (S S' : CapabilityGraphService) : Prop where
  policyEvaluator : S.policyEvaluator = S'.policyEvaluator
  edges : S.edges.map (·.withoutCost) = S'.edges.map (·.withoutCost)

section Costs

variable {S S' : CapabilityGraphService} {request : CapabilityPathRequest} {now : Time}

theorem SameButCosts.refl (S : CapabilityGraphService) : SameButCosts S S := ⟨rfl, rfl⟩

theorem SameButCosts.symm (h : SameButCosts S S') : SameButCosts S' S :=
  ⟨h.policyEvaluator.symm, h.edges.symm⟩

/-- No check looks at a cost. -/
theorem SameButCosts.checkOf_eq (h : SameButCosts S S') {edge edge' : CapabilityEdge}
    (hedge : edge.withoutCost = edge'.withoutCost) :
    checkOf S request now edge = checkOf S' request now edge' := by
  have hcosts : ∀ (T : CapabilityGraphService) (edge : CapabilityEdge),
      checkOf T request now edge = checkOf T request now edge.withoutCost := fun _ _ => rfl
  rw [hcosts S, hedge, ← hcosts S, checkOf, CapabilityGraphService.edgeAllowed, h.policyEvaluator]
  rfl

theorem SameButCosts.exists_edge (h : SameButCosts S S') {edge : CapabilityEdge}
    (hedge : edge ∈ S.edges) : ∃ edge' ∈ S'.edges, edge.withoutCost = edge'.withoutCost := by
  have hmem : edge.withoutCost ∈ S'.edges.map (·.withoutCost) := by
    rw [← h.edges]
    exact List.mem_map_of_mem hedge
  obtain ⟨edge', hedge', heq⟩ := List.mem_map.mp hmem
  exact ⟨edge', hedge', heq.symm⟩

theorem SameButCosts.allowedEdge_eq (h : SameButCosts S S') {edge edge' : CapabilityEdge}
    (hedge : edge.withoutCost = edge'.withoutCost) :
    allowedEdge S request now edge = allowedEdge S' request now edge' := by
  have henabled : edge.enabled = edge'.enabled := eq_of_withoutCost (fun _ => rfl) hedge
  rw [allowedEdge, allowedEdge, passes, passes, h.checkOf_eq hedge, henabled]

theorem SameButCosts.exists_outgoing (h : SameButCosts S S') {node : String}
    {edge : CapabilityEdge} (hedge : edge ∈ S.outgoing node) :
    ∃ edge' ∈ S'.outgoing node, edge.withoutCost = edge'.withoutCost := by
  obtain ⟨hmem, hnode⟩ := List.mem_filter.mp hedge
  obtain ⟨edge', hedge', heq⟩ := h.exists_edge hmem
  have hsource : edge.sourceType = edge'.sourceType := eq_of_withoutCost (fun _ => rfl) heq
  have henabled : edge.enabled = edge'.enabled := eq_of_withoutCost (fun _ => rfl) heq
  rw [hsource, henabled] at hnode
  exact ⟨edge', List.mem_filter.mpr ⟨hedge', hnode⟩, heq⟩

/-- Every allowed path is one of the other graph, up to its costs. -/
theorem SameButCosts.exists_path (h : SameButCosts S S') {source goal : String}
    {path : List CapabilityEdge}
    (hpath : IsPath S.edges (allowedEdge S request now) source path goal) :
    ∃ path', IsPath S'.edges (allowedEdge S' request now) source path' goal ∧
      path.map (·.withoutCost) = path'.map (·.withoutCost) := by
  induction path generalizing source with
  | nil => exact ⟨[], hpath, rfl⟩
  | cons edge rest ih =>
      obtain ⟨⟨hmem, hallowed, rfl⟩, hrest⟩ := hpath
      obtain ⟨edge', hmem', heq⟩ := h.exists_edge hmem
      have hsource : edge.sourceType = edge'.sourceType := eq_of_withoutCost (fun _ => rfl) heq
      have hdestination : edge.destinationType = edge'.destinationType :=
        eq_of_withoutCost (fun _ => rfl) heq
      obtain ⟨rest', hrest', hmap⟩ := ih hrest
      refine ⟨edge' :: rest', ⟨⟨hmem', ?_, hsource.symm⟩, ?_⟩, ?_⟩
      · rw [← h.allowedEdge_eq heq]
        exact hallowed
      · rw [← hdestination]
        exact hrest'
      · rw [List.map_cons, List.map_cons, heq, hmap]

theorem map_eq_of_withoutCost {α : Type} {f : CapabilityEdge → α}
    (hf : ∀ edge, f edge = f edge.withoutCost) {path path' : List CapabilityEdge}
    (h : path.map (·.withoutCost) = path'.map (·.withoutCost)) : path.map f = path'.map f := by
  have hbare : ∀ l : List CapabilityEdge, l.map f = (l.map (·.withoutCost)).map f := by
    intro l
    rw [List.map_map]
    exact List.map_congr_left fun edge _ => hf edge
  rw [hbare path, h, ← hbare path']

theorem riskOf_congr {path path' : List CapabilityEdge}
    (h : path.map (·.withoutCost) = path'.map (·.withoutCost)) : riskOf path = riskOf path' := by
  rw [riskOf, riskOf, map_eq_of_withoutCost (fun _ => rfl) h]

end Costs

/-! ## The paths that can be found -/

section TakeableEntry

/-- The path has no repeated node, and no check raises along it. -/
structure Takeable (S : CapabilityGraphService) (request : CapabilityPathRequest) (now : Time)
    (source : String) (path : List CapabilityEdge) (goal : String) : Prop where
  isPath : IsPath S.edges (allowedEdge S request now) source path goal
  nodup : (source :: path.map (·.destinationType)).Nodup
  answered : ∀ edge ∈ path, ∀ other ∈ S.outgoing edge.sourceType,
    ∃ answer, checkOf S request now other = .ok answer

variable {S S' : CapabilityGraphService} {request : CapabilityPathRequest} {now : Time}
  {source goal : String} {riskWeight : Bool} {round : ScoreRounding}

/-- Takeable paths stay takeable at other costs. -/
theorem Takeable.of_sameButCosts (hcosts : SameButCosts S S') {path path' : List CapabilityEdge}
    (h : Takeable S request now source path goal)
    (hpath : IsPath S'.edges (allowedEdge S' request now) source path' goal)
    (hmap : path.map (·.withoutCost) = path'.map (·.withoutCost)) :
    Takeable S' request now source path' goal where
  isPath := hpath
  nodup := by
    rw [← map_eq_of_withoutCost (f := (·.destinationType)) (fun _ => rfl) hmap]
    exact h.nodup
  answered edge' hedge' other' hother' := by
    have hsources : path.map (·.sourceType) = path'.map (·.sourceType) :=
      map_eq_of_withoutCost (fun _ => rfl) hmap
    have hsource : edge'.sourceType ∈ path.map (·.sourceType) := by
      rw [hsources]
      exact List.mem_map_of_mem hedge'
    obtain ⟨edge, hedge, heq⟩ := List.mem_map.mp hsource
    rw [← heq] at hother'
    obtain ⟨other, hother, hbare⟩ := hcosts.symm.exists_outgoing hother'
    obtain ⟨answer, hanswer⟩ := h.answered edge hedge other hother
    exact ⟨answer, (hcosts.symm.checkOf_eq hbare).trans hanswer⟩

/-- An entry of the heap is that of a takeable path. -/
structure TakeableEntry (S : CapabilityGraphService) (request : CapabilityPathRequest) (now : Time)
    (source : String) (entry : HeapEntry) : Prop where
  takeable : Takeable S request now source entry.edges entry.current
  nodes : entry.nodes = source :: entry.edges.map (·.destinationType)

theorem heappop_mem {heap rest : List HeapEntry} {entry : HeapEntry}
    (h : heappop heap = some (entry, rest)) : entry ∈ heap ∧ ∀ f ∈ rest, f ∈ heap := by
  induction heap generalizing entry rest with
  | nil => cases h
  | cons first heap ih =>
      rw [heappop] at h
      split at h
      · cases h
        exact ⟨List.mem_cons_self .., fun f hf => absurd hf List.not_mem_nil⟩
      · next least others hsome =>
        obtain ⟨hleast, hothers⟩ := ih hsome
        split at h
        · cases h
          refine ⟨List.mem_cons_of_mem _ hleast, fun f hf => ?_⟩
          rcases List.mem_cons.mp hf with rfl | hf
          · exact List.mem_cons_self ..
          · exact List.mem_cons_of_mem _ (hothers f hf)
        · cases h
          exact ⟨List.mem_cons_self .., fun f hf => List.mem_cons_of_mem _ hf⟩

/-- What `relax` pushes are extensions by edges whose checks come out positive, and no check
raises. -/
theorem relax_ok {allowed : CapabilityEdge → Except EngineError Bool} {entry : HeapEntry}
    {edges : List CapabilityEdge} {heap heap' : List HeapEntry} {sequence sequence' : ℕ}
    (h : relax round allowed riskWeight entry edges heap sequence = .ok (heap', sequence')) :
    (∀ edge ∈ edges, ∃ answer, allowed edge = .ok answer) ∧
      ∀ f ∈ heap', f ∈ heap ∨ ∃ edge ∈ edges, allowed edge = .ok true ∧
        edge.destinationType ∉ entry.nodes ∧ f.current = edge.destinationType ∧
          f.nodes = entry.nodes ++ [edge.destinationType] ∧ f.edges = entry.edges ++ [edge] := by
  induction edges generalizing heap sequence with
  | nil =>
      cases h
      exact ⟨fun edge hedge => absurd hedge List.not_mem_nil, fun f hf => .inl hf⟩
  | cons edge rest ih =>
      rw [relax] at h
      split at h
      · cases h
      · next hanswer =>
        obtain ⟨hanswers, hpushed⟩ := ih h
        refine ⟨List.forall_mem_cons.mpr ⟨⟨_, hanswer⟩, hanswers⟩, fun f hf => ?_⟩
        refine (hpushed f hf).imp_right ?_
        rintro ⟨other, hother, hrest⟩
        exact ⟨other, List.mem_cons_of_mem _ hother, hrest⟩
      · -- the policy refuses the edge, or its end is on the path already: nothing is pushed
        next hanswer =>
        split at h
        · obtain ⟨hanswers, hpushed⟩ := ih h
          refine ⟨List.forall_mem_cons.mpr ⟨⟨_, hanswer⟩, hanswers⟩, fun f hf => ?_⟩
          refine (hpushed f hf).imp_right ?_
          rintro ⟨other, hother, hrest⟩
          exact ⟨other, List.mem_cons_of_mem _ hother, hrest⟩
        · -- the new entry extends the current one by the edge
          next hnew =>
          obtain ⟨hanswers, hpushed⟩ := ih h
          refine ⟨List.forall_mem_cons.mpr ⟨⟨_, hanswer⟩, hanswers⟩, fun f hf => ?_⟩
          rcases hpushed f hf with hmem | ⟨other, hother, hrest⟩
          · rcases List.mem_append.mp hmem with hmem | hmem
            · exact .inl hmem
            · rw [List.mem_singleton.mp hmem]
              exact .inr ⟨edge, List.mem_cons_self .., hanswer, hnew, rfl, rfl, rfl⟩
          · exact .inr ⟨other, List.mem_cons_of_mem _ hother, hrest⟩

/-- Extensions of takeable paths are takeable. -/
theorem TakeableEntry.relax {entry : HeapEntry} (h : TakeableEntry S request now source entry)
    {heap heap' : List HeapEntry} {sequence sequence' : ℕ}
    (hheap : ∀ f ∈ heap, TakeableEntry S request now source f)
    (hrelax : McpOps.relax round (checkOf S request now) riskWeight entry
      (S.outgoing entry.current) heap sequence = .ok (heap', sequence')) :
    ∀ f ∈ heap', TakeableEntry S request now source f := by
  obtain ⟨hanswers, hpushed⟩ := relax_ok hrelax
  intro f hf
  rcases hpushed f hf with hmem | ⟨edge, hedge, hok, hnew, hcurrent, hnodes, hedges⟩
  · exact hheap f hmem
  obtain ⟨hmem, hplace⟩ := List.mem_filter.mp hedge
  simp only [decide_eq_true_eq] at hplace
  have hallowed : allowedEdge S request now edge := by
    rw [allowedEdge, passes, hok, hplace.2]
    rfl
  rw [h.nodes] at hnew hnodes
  -- an edge that is taken leads along the outgoing edges, all of which the policy has answered
  refine ⟨⟨?_, ?_, ?_⟩, ?_⟩
  · rw [hedges, hcurrent, isPath_append]
    refine ⟨?_, ⟨hmem, hallowed⟩, rfl⟩
    rw [hplace.1]
    exact h.takeable.isPath
  · rw [hedges, List.map_append, ← List.cons_append]
    refine h.takeable.nodup.append (List.nodup_singleton _) ?_
    rw [List.map_singleton]
    exact List.disjoint_singleton.mpr hnew
  · intro taken htaken other hother
    rw [hedges] at htaken
    rcases List.mem_append.mp htaken with htaken | htaken
    · exact h.takeable.answered taken htaken other hother
    · rw [List.mem_singleton.mp htaken, hplace.1] at hother
      exact hanswers other hother
  · rw [hnodes, hedges, List.map_append, List.map_singleton, List.cons_append]

/-- A path that the loop of `_dijkstra` returns is takeable. -/
theorem dijkstraLoop_takeable {fuel : ℕ} {heap : List HeapEntry} {sequence : ℕ}
    {best : String → Option Score} {path : CapabilityPath}
    (hheap : ∀ f ∈ heap, TakeableEntry S request now source f)
    (h : S.dijkstraLoop round (checkOf S request now) request source goal riskWeight fuel heap
      sequence best = some (.ok path)) (hreachable : path.reachable) :
    Takeable S request now source path.edges goal ∧
      path.riskScore = roundThousandths (riskOf path.edges) := by
  induction fuel generalizing heap sequence best with
  | zero => cases h
  | succ fuel ih =>
      rw [CapabilityGraphService.dijkstraLoop] at h
      split at h
      · cases h
        cases hreachable
      · next entry rest hpop =>
        obtain ⟨hentry, hrest⟩ := heappop_mem hpop
        have htaken := hheap entry hentry
        split at h
        · next hgoal =>
          cases h
          exact ⟨hgoal ▸ htaken.takeable, rfl⟩
        · split at h
          · exact ih (fun f hf => hheap f (hrest f hf)) h
          · split at h
            · cases h
            · next hrelax =>
              exact ih (htaken.relax (fun f hf => hheap f (hrest f hf)) hrelax) h

theorem findPath_eq_dijkstra (hstrategy : request.strategy = "lowest_risk") (fuel : ℕ) :
    S.findPath request now fuel =
      S.dijkstra asFloats (checkOf S request now) request (resourceType request.source)
        (goalType request.goal) true fuel := by
  rw [CapabilityGraphService.findPath, if_pos hstrategy]
  rfl

/-- What is found is takeable. -/
theorem takeable_of_findPath {fuel : ℕ} {path : CapabilityPath}
    (hstrategy : request.strategy = "lowest_risk")
    (h : S.findPath request now fuel = some (.ok path)) (hreachable : path.reachable) :
    Takeable S request now (resourceType request.source) path.edges (goalType request.goal) ∧
      path.riskScore = riskOf path.edges := by
  rw [findPath_eq_dijkstra hstrategy, CapabilityGraphService.dijkstra] at h
  rw [← roundThousandths_riskOf path.edges]
  refine dijkstraLoop_takeable (fun f hf => ?_) h hreachable
  rw [List.mem_singleton.mp hf]
  refine ⟨⟨rfl, List.nodup_singleton _, ?_⟩, rfl⟩
  exact fun edge hedge => absurd hedge List.not_mem_nil

end TakeableEntry

/-! ## Costs that favour a path -/

section Scores

/-- A number of the format that is far from an overflow is a sum of `float`s. -/
theorem asFloats_eq {x y : ℚ} (hround : binary64.round x = y) (hy : y ≤ 2 ^ 64) :
    asFloats (x : Score) = y := by
  have hlimit : y < 2 ^ 1024 := hy.trans_lt (pow_lt_pow_right₀ one_lt_two (by norm_num))
  rw [← hround] at hlimit
  rw [asFloats, overflowing_coe hlimit, hround]

theorem asFloats_natCast {n : ℕ} (hn : n < 2 ^ 53) :
    asFloats ((n : ℚ) : Score) = (n : ℚ) := by
  have hle : (n : ℚ) ≤ 2 ^ 64 := by exact_mod_cast hn.le.trans (by norm_num)
  exact asFloats_eq (BinaryFormat.round_natCast hn (by decide)) hle

/-- A sum of that size loses a summand below a hundred. -/
theorem asFloats_pow_add : asFloats (((2 ^ 60 + 11 : ℚ)) : Score) = (2 ^ 60 : ℚ) := by
  have hexponent : binary64.exponent (2 ^ 60 + 11) = 8 :=
    BinaryFormat.exponent_eq (by decide) (by norm_num [binary64]) (by norm_num [binary64])
  have hround : binary64.round (2 ^ 60 + 11) = 2 ^ 60 := by
    rw [BinaryFormat.round_eq (n := 2 ^ 52) hexponent (by norm_num)]
    norm_num
  exact asFloats_eq hround (by norm_num)

theorem asFloats_pow : asFloats ((2 ^ 61 : ℚ) : Score) = (2 ^ 61 : ℚ) := by
  have hexponent : binary64.exponent (2 ^ 61) = 9 :=
    BinaryFormat.exponent_eq (by decide) (by norm_num [binary64]) (by norm_num [binary64])
  have hround : binary64.round (2 ^ 61) = 2 ^ 61 :=
    BinaryFormat.round_eq_self (n := 2 ^ 52) (by rw [hexponent]; norm_num)
  exact asFloats_eq hround (by norm_num)

/-- Rounding does not cross a small natural number. -/
theorem asFloats_le {s : Score} {n : ℕ} (hn : n < 2 ^ 53) (hs : 0 ≤ s) (h : s ≤ (n : ℚ)) :
    asFloats s ≤ (n : ℚ) := by
  rw [← asFloats_natCast hn]
  exact isRounding_asFloats.mono s _ hs h

theorem edgePenalty_le (edge : CapabilityEdge) : edgePenalty true edge ≤ (10 : ℕ) := by
  rw [edgePenalty, if_pos rfl, riskPenalty]
  repeat' split
  all_goals norm_num

/-- A bound on the score of an edge from bounds on its summands; the latency adds at most one. -/
theorem roundedEdgeScore_le {edge : CapabilityEdge} {n k : ℕ}
    (hpenalty : edgePenalty true edge ≤ k) (hcost : edge.cost + k ≤ n) (hn : n + 1 < 2 ^ 53) :
    roundedEdgeScore asFloats true edge ≤ ((n + 1 : ℕ) : ℚ) := by
  have hlatency : latencyPenalty edge ≤ (1 : ℕ) := by
    rw [latencyPenalty]
    split <;> norm_num
  have hk : k ≤ n := by exact_mod_cast (le_add_of_nonneg_left edge.cost_nonneg).trans hcost
  have hcost0 : (0 : Score) ≤ edge.cost := WithTop.coe_nonneg.mpr edge.cost_nonneg
  have hpenalty0 : (0 : Score) ≤ edgePenalty true edge :=
    WithTop.coe_nonneg.mpr (edgePenalty_nonneg true edge)
  have hlatency0 : (0 : Score) ≤ latencyPenalty edge :=
    WithTop.coe_nonneg.mpr (latencyPenalty_nonneg edge)
  have hsum0 := add_nonneg hcost0 (isRounding_asFloats.nonneg hpenalty0)
  have hrounded : asFloats (edgePenalty true edge) ≤ (k : ℚ) :=
    asFloats_le (by omega) hpenalty0 (WithTop.coe_le_coe.mpr hpenalty)
  have hsum : asFloats (edge.cost + asFloats (edgePenalty true edge)) ≤ (n : ℚ) := by
    apply asFloats_le (by omega) hsum0
    calc (edge.cost : Score) + asFloats (edgePenalty true edge) ≤ edge.cost + (k : ℚ) :=
          add_le_add_right hrounded _
      _ ≤ (n : ℚ) := WithTop.coe_le_coe.mpr hcost
  apply asFloats_le hn
  · exact add_nonneg (isRounding_asFloats.nonneg hsum0) (isRounding_asFloats.nonneg hlatency0)
  · rw [Nat.cast_add, WithTop.coe_add]
    refine add_le_add hsum ?_
    exact asFloats_le (by norm_num) hlatency0 (WithTop.coe_le_coe.mpr hlatency)

/-- The score of an edge is no less than its cost, if that is rounded. -/
theorem le_roundedEdgeScore {edge : CapabilityEdge} (hcost : asFloats edge.cost = edge.cost) :
    edge.cost ≤ roundedEdgeScore asFloats true edge := by
  have hcost0 : (0 : Score) ≤ edge.cost := WithTop.coe_nonneg.mpr edge.cost_nonneg
  have hpenalty : (0 : Score) ≤ asFloats (edgePenalty true edge) :=
    isRounding_asFloats.nonneg (WithTop.coe_nonneg.mpr (edgePenalty_nonneg true edge))
  have hlatency : (0 : Score) ≤ asFloats (latencyPenalty edge) :=
    isRounding_asFloats.nonneg (WithTop.coe_nonneg.mpr (latencyPenalty_nonneg edge))
  have hsum := isRounding_asFloats.le_round_add hcost0 hcost hpenalty
  refine hsum.trans (isRounding_asFloats.le_round_add (hcost0.trans hsum) ?_ hlatency)
  exact isRounding_asFloats.idem _ (add_nonneg hcost0 hpenalty)

/-- Scores of edges are rounded. -/
theorem roundedEdgeScore_idem (edge : CapabilityEdge) :
    asFloats (roundedEdgeScore asFloats true edge) = roundedEdgeScore asFloats true edge := by
  apply isRounding_asFloats.idem
  refine add_nonneg (isRounding_asFloats.nonneg (add_nonneg ?_ ?_)) ?_
  · exact WithTop.coe_nonneg.mpr edge.cost_nonneg
  · exact isRounding_asFloats.nonneg (WithTop.coe_nonneg.mpr (edgePenalty_nonneg true edge))
  · exact isRounding_asFloats.nonneg (WithTop.coe_nonneg.mpr (latencyPenalty_nonneg edge))

variable {G : Graph String (CapabilityEdge × ℕ) Score} {p : List (CapabilityEdge × ℕ)}

/-- A trail at no cost stays at a score that further edges at no cost do not raise. -/
theorem score_le_of_free (hbase : G.base = 0)
    (hextend : G.extend = roundedExtend asFloats (roundedEdgeScore asFloats true))
    (hfree : ∀ a ∈ p, a.1.cost = 0) : G.score p ≤ (2 ^ 60 : ℚ) := by
  have hscore : G.score p =
      scoreFrom 0 (roundedExtend asFloats (roundedEdgeScore asFloats true)) p := by
    rw [Graph.score, hbase, hextend]
  rw [hscore]
  clear hscore
  induction p with
  | nil => exact WithTop.coe_le_coe.mpr (by norm_num)
  | cons a p ih =>
      rw [List.forall_mem_cons] at hfree
      have hnonneg := (rounded_scoreFrom isRounding_asFloats
        (roundedEdgeScore_nonneg isRounding_asFloats true) p).1
      have hedge := roundedEdgeScore_le (edgePenalty_le a.1) (n := 10)
        (by rw [hfree.1]; norm_num) (by norm_num)
      have hsum : scoreFrom 0 (roundedExtend asFloats (roundedEdgeScore asFloats true)) p +
          roundedEdgeScore asFloats true a.1 ≤ ((2 ^ 60 + 11 : ℚ) : Score) := by
        rw [WithTop.coe_add]
        exact add_le_add (ih hfree.2) (hedge.trans_eq (by norm_num))
      rw [← asFloats_pow_add]
      exact isRounding_asFloats.mono _ _
        (add_nonneg hnonneg (roundedEdgeScore_nonneg isRounding_asFloats true a.1)) hsum

/-- A trail with a dear edge scores more than that. -/
theorem le_score_of_dear (hbase : G.base = 0)
    (hextend : G.extend = roundedExtend asFloats (roundedEdgeScore asFloats true))
    {a : CapabilityEdge × ℕ} (ha : a ∈ p) (hdear : a.1.cost = 2 ^ 61) :
    (2 ^ 61 : ℚ) ≤ G.score p := by
  have hscore : G.score p =
      scoreFrom 0 (roundedExtend asFloats (roundedEdgeScore asFloats true)) p := by
    rw [Graph.score, hbase, hextend]
  rw [hscore]
  clear hscore
  have hweight := roundedEdgeScore_nonneg isRounding_asFloats true
  induction p with
  | nil => cases ha
  | cons b p ih =>
      rcases List.mem_cons.mp ha with rfl | ha
      · have hcost : asFloats a.1.cost = a.1.cost := by
          rw [hdear]
          exact asFloats_pow
        have hle := le_roundedEdgeScore hcost
        rw [hdear] at hle
        refine hle.trans ?_
        rw [scoreFrom, List.foldr_cons, roundedExtend, add_comm]
        exact isRounding_asFloats.le_round_add (hweight a.1) (roundedEdgeScore_idem a.1)
          (rounded_scoreFrom isRounding_asFloats hweight p).1
      · exact (ih ha).trans (le_roundedExtend isRounding_asFloats hweight b p)

end Scores

section Favoured

/-- The cost of an edge at that place. -/
def favouredCost (places : List ℕ) (place : ℕ) : ℚ := if place ∈ places then 0 else 2 ^ 61

theorem favouredCost_nonneg (places : List ℕ) (place : ℕ) :
    0 ≤ favouredCost places place := by
  rw [favouredCost]
  split <;> norm_num

/-- The edge at no cost, if its place is one of these, and dear otherwise. -/
def favouredEdge (places : List ℕ) (a : CapabilityEdge × ℕ) : CapabilityEdge :=
  { a.1 with
    cost := favouredCost places a.2
    cost_nonneg := favouredCost_nonneg places a.2 }

/-- The graph in which the edges at these places cost nothing and the others are dear. -/
def CapabilityGraphService.favouring (S : CapabilityGraphService) (places : List ℕ) :
    CapabilityGraphService :=
  { S with edges := S.edges.zipIdx.map (favouredEdge places) }

/-- The trail along the edges at no cost. -/
def favouredTrail (trail : List (CapabilityEdge × ℕ)) : List (CapabilityEdge × ℕ) :=
  trail.map fun a => (favouredEdge (trail.map Prod.snd) a, a.2)

variable {S : CapabilityGraphService} {request : CapabilityPathRequest} {now : Time}
  {places : List ℕ} {trail : List (CapabilityEdge × ℕ)} {source goal node : String}

theorem sameButCosts_favouring (S : CapabilityGraphService) (places : List ℕ) :
    SameButCosts S (S.favouring places) where
  policyEvaluator := rfl
  edges := by
    have hbare : (CapabilityEdge.withoutCost ∘ favouredEdge places) =
        CapabilityEdge.withoutCost ∘ Prod.fst := rfl
    rw [CapabilityGraphService.favouring, List.map_map, hbare, ← List.map_map,
      List.zipIdx_map_fst]

theorem mem_zipIdx_favouring {b : CapabilityEdge × ℕ} :
    b ∈ (S.favouring places).edges.zipIdx ↔
      ∃ a ∈ S.edges.zipIdx, b = (favouredEdge places a, a.2) := by
  simp only [List.mem_zipIdx_iff_getElem?, CapabilityGraphService.favouring, List.getElem?_map,
    List.getElem?_zipIdx, Option.map_map, Option.map_eq_some_iff]
  constructor
  · rintro ⟨edge, hedge, heq⟩
    refine ⟨(edge, b.2), hedge, ?_⟩
    rw [← Prod.mk.eta (p := b), ← heq]
    simp
  · rintro ⟨a, ha, rfl⟩
    exact ⟨a.1, ha, by simp⟩

/-- The graph that `_dijkstra` searches with the strategy `lowest_risk`. -/
def riskGraph (S : CapabilityGraphService) (request : CapabilityPathRequest) (now : Time) :
    Graph String (CapabilityEdge × ℕ) Score :=
  scoreGraph S (checkOf S request now) isRounding_asFloats true

theorem riskGraph_eq (S : CapabilityGraphService) (request : CapabilityPathRequest) (now : Time) :
    riskGraph S request now = capabilityGraph S.edges (allowedEdge S request now)
      isRounding_asFloats (roundedEdgeScore_nonneg isRounding_asFloats true) := rfl

theorem isPath_of_riskWalk (h : (riskGraph S request now).Walk source trail node) :
    IsPath S.edges (allowedEdge S request now) source (pathOf trail) node := by
  rw [riskGraph_eq] at h
  exact isPath_of_walk h

theorem exists_riskWalk {path : List CapabilityEdge}
    (h : IsPath S.edges (allowedEdge S request now) source path node) :
    ∃ trail, (riskGraph S request now).Walk source trail node ∧ pathOf trail = path := by
  rw [riskGraph_eq]
  exact exists_walk_of_isPath h

theorem walk_favouring (places : List ℕ) (h : (riskGraph S request now).Walk source trail node) :
    (riskGraph (S.favouring places) request now).Walk source
      (trail.map fun a => (favouredEdge places a, a.2)) node := by
  induction h with
  | nil => exact .nil
  | @cons a trail _ ha ih =>
      have hedge : (favouredEdge places a, a.2) ∈
          (riskGraph (S.favouring places) request now).edges := by
        obtain ⟨hplace, husable⟩ := List.mem_filter.mp ha
        refine List.mem_filter.mpr ⟨mem_zipIdx_favouring.mpr ⟨a, hplace, rfl⟩, ?_⟩
        have hallowed : allowedEdge S request now a.1 =
            allowedEdge (S.favouring places) request now (favouredEdge places a) :=
          (sameButCosts_favouring S places).allowedEdge_eq rfl
        exact hallowed.symm.trans husable
      exact .cons ih hedge

theorem nodes_favouredTrail (trail : List (CapabilityEdge × ℕ)) :
    (riskGraph (S.favouring places) request now).nodes source (favouredTrail trail) =
      (riskGraph S request now).nodes source trail := by
  rw [Graph.nodes, Graph.nodes, favouredTrail, List.map_map]
  rfl

theorem withoutCost_favouredTrail (trail : List (CapabilityEdge × ℕ)) :
    (pathOf (favouredTrail trail)).map (·.withoutCost) =
      (pathOf trail).map (·.withoutCost) := by
  rw [pathOf, pathOf, favouredTrail, List.map_reverse, List.map_reverse, List.map_map, List.map_map,
    List.map_map]
  rfl

theorem score_favouredTrail (trail : List (CapabilityEdge × ℕ)) :
    (riskGraph (S.favouring places) request now).score (favouredTrail trail) ≤
      (2 ^ 60 : ℚ) := by
  apply score_le_of_free rfl rfl
  intro b hb
  obtain ⟨a, ha, rfl⟩ := List.mem_map.mp hb
  exact if_pos (List.mem_map_of_mem ha)

/-- What comes no later than the favoured trail has only its edges. -/
theorem mem_favouredTrail (htrail : (riskGraph S request now).Walk source trail goal)
    {p : List (CapabilityEdge × ℕ)}
    (hp : (riskGraph (S.favouring (trail.map Prod.snd)) request now).Walk source p node)
    (hle : (riskGraph (S.favouring (trail.map Prod.snd)) request now).NoLater p
      (favouredTrail trail)) : ∀ b ∈ p, b ∈ favouredTrail trail := by
  intro b hb
  obtain ⟨a, ha, rfl⟩ := mem_zipIdx_favouring.mp (List.mem_filter.mp (hp.mem_edges b hb)).1
  by_cases hplace : a.2 ∈ trail.map Prod.snd
  · -- one edge stands at a place
    obtain ⟨c, hc, hplaces⟩ := List.mem_map.mp hplace
    have hcmem := (List.mem_filter.mp (htrail.mem_edges c hc)).1
    rw [List.mem_zipIdx_iff_getElem?] at ha hcmem
    rw [hplaces, ha] at hcmem
    have heq : a = c := Prod.ext (Option.some.inj hcmem) hplaces.symm
    exact List.mem_map.mpr ⟨c, hc, by rw [heq]⟩
  · have hdear := le_score_of_dear
      (G := riskGraph (S.favouring (trail.map Prod.snd)) request now) rfl rfl hb (if_neg hplace)
    have hscore := hle.score_le (walk_favouring _ htrail).mem_edges
    have habsurd := (hdear.trans hscore).trans (score_favouredTrail trail)
    rw [WithTop.coe_le_coe] at habsurd
    norm_num at habsurd

/-- Every takeable path is found at some costs. -/
theorem Takeable.exists_found {path : List CapabilityEdge}
    (h : Takeable S request now (resourceType request.source) path (goalType request.goal))
    (hstrategy : request.strategy = "lowest_risk") :
    ∃ S' fuel found, SameButCosts S S' ∧ S'.findPath request now fuel = some (.ok found) ∧
      found.reachable ∧ path.map (·.withoutCost) = found.edges.map (·.withoutCost) := by
  obtain ⟨trail, htrail, rfl⟩ := exists_riskWalk h.isPath
  set S' := S.favouring (trail.map Prod.snd) with hS'
  have hcosts : SameButCosts S S' := sameButCosts_favouring S _
  have hwalk : (riskGraph S' request now).Walk (resourceType request.source) (favouredTrail trail)
      (goalType request.goal) := walk_favouring _ htrail
  have hnodup : ((riskGraph S' request now).nodes (resourceType request.source)
      (favouredTrail trail)).Nodup := by
    rw [nodes_favouredTrail, ← List.nodup_reverse, riskGraph_eq, reverse_nodes]
    exact h.nodup
  have hfinite : (riskGraph S' request now).infinite
      ((riskGraph S' request now).score (favouredTrail trail)) = false := by
    apply decide_eq_false
    exact ne_top_of_le_ne_top WithTop.coe_ne_top (score_favouredTrail trail)
  -- a walk that comes no later follows the favoured trail, whose edges cost next to nothing
  have hbeginning : ∀ {p node}, (riskGraph S' request now).Walk (resourceType request.source) p
      node → (riskGraph S' request now).NoLater p (favouredTrail trail) →
        p <:+ favouredTrail trail :=
    fun hp hle => hwalk.suffix_of_subset hnodup hp (mem_favouredTrail htrail hp hle)
  have htakeable := h.of_sameButCosts hcosts (isPath_of_riskWalk hwalk)
    (withoutCost_favouredTrail trail).symm
  obtain ⟨found, hfound⟩ := exists_search_of_length S'.edges (riskGraph S' request now)
    (List.length_filter_le ..) (resourceType request.source) (goalType request.goal)
  have hsound := Graph.sound_start (riskGraph S' request now) (resourceType request.source)
    (goalType request.goal)
  refine ⟨S', S'.edges.length + 2, ?_⟩
  rw [findPath_eq_dijkstra hstrategy]
  rcases dijkstra_eq S' (checkOf S' request now) isRounding_asFloats true request
    (resourceType request.source) (goalType request.goal) (S'.edges.length + 2) with
    ⟨err, -, node, p, hp, hgoal, hfirst, edge, hedge, hraises⟩ | heq
  · -- the node where a check raises is passed by the path
    exfalso
    obtain ⟨newer, hnewer⟩ := hbeginning hp (hfirst _ hwalk hfinite)
    rw [← hnewer] at hwalk
    obtain ⟨a, ha, hsource⟩ := hwalk.exists_next hp hgoal
    have hmem : a ∈ favouredTrail trail := hnewer ▸ List.mem_append_left p ha
    have hpath : a.1 ∈ pathOf (favouredTrail trail) :=
      List.mem_reverse.mpr (List.mem_map_of_mem hmem)
    rw [← hsource] at hedge
    obtain ⟨answer, hanswer⟩ := htakeable.answered a.1 hpath edge hedge
    rw [hraises] at hanswer
    cases hanswer
  · rw [heq]
    have hsearch := hfound _ le_rfl
    cases found with
    | none =>
        have hinfinite := hsound.search_exhausted hsearch _ hwalk
        rw [hfinite] at hinfinite
        cases hinfinite
    | some e =>
        obtain ⟨hfoundWalk, -, -, hfirst⟩ := hsound.search_found hsearch
        -- the walk that is found comes no later, and ends where the favoured trail ends
        have htrail' : e.trail = favouredTrail trail := by
          refine hfoundWalk.eq_of_suffix hwalk (hbeginning hfoundWalk (hfirst _ hwalk hfinite))
            List.suffix_rfl hnodup
        refine ⟨_, hcosts, congrArg _ hsearch, rfl, ?_⟩
        change (pathOf trail).map _ = (pathOf e.trail).map _
        rw [htrail', withoutCost_favouredTrail]

end Favoured

/-- A quick way to a ticket at medium risk. -/
def quickTicket : CapabilityEdge where
  sourceType := "repository"
  destinationType := "ticket"
  toolName := "create_ticket"
  mcpServer := "ticket-mcp"
  cost := 1
  risk := "MEDIUM"
  cost_nonneg := by norm_num

/-- A costly way to a ticket without risk. -/
def carefulTicket : CapabilityEdge where
  sourceType := "repository"
  destinationType := "ticket"
  toolName := "find_ticket"
  mcpServer := "ticket-mcp"
  cost := 5
  risk := "READ_ONLY"
  cost_nonneg := by norm_num

/-- A graph with the two ways, both of which every engineer may take. -/
def ticketService : CapabilityGraphService where
  policyEvaluator :=
    { registry :=
        [("create_ticket", { ToolRegistry.createTicket with requiredRoles := ["ENGINEER"] }),
          ("find_ticket", { ToolRegistry.createTicket with
            toolName := "find_ticket"
            riskLevel := .readOnly
            requiredRoles := ["ENGINEER"] })]
      runtime := .plain }
  edges := [quickTicket, carefulTicket]

/-- The way of the lowest risk to a ticket. -/
def ticketRequest : CapabilityPathRequest where
  source := "repository:payments-api"
  goal := "ticket"
  strategy := "lowest_risk"

/-- The entries of the heap after the first round. -/
def ticketEntry (edge : CapabilityEdge) (sequence : ℕ) : HeapEntry :=
  ⟨asFloats (0 + roundedEdgeScore asFloats true edge), sequence, "ticket",
    ["repository", "ticket"], [edge]⟩

theorem heappop_ticketEntries :
    heappop [ticketEntry quickTicket 1, ticketEntry carefulTicket 2] =
      some (ticketEntry quickTicket 1, [ticketEntry carefulTicket 2]) := by
  have hcost : ∀ edge sequence,
      (ticketEntry edge sequence).cost = roundedEdgeScore asFloats true edge := by
    intro edge sequence
    rw [ticketEntry, zero_add, roundedEdgeScore_idem]
  have hquick : (ticketEntry quickTicket 1).cost ≤ ((3 : ℕ) : ℚ) := by
    rw [hcost]
    exact roundedEdgeScore_le (k := 1) (n := 2) (le_of_eq (by rfl)) (by norm_num [quickTicket])
      (by norm_num)
  have hcareful : ((5 : ℕ) : ℚ) ≤ (ticketEntry carefulTicket 2).cost := by
    have hfloat : asFloats carefulTicket.cost = carefulTicket.cost :=
      asFloats_natCast (n := 5) (by norm_num)
    rw [hcost]
    exact le_roundedEdgeScore hfloat
  have hlt : (ticketEntry quickTicket 1).cost < (ticketEntry carefulTicket 2).cost := by
    refine (hquick.trans_lt ?_).trans_le hcareful
    rw [WithTop.coe_lt_coe]
    norm_num
  have hbefore : (ticketEntry carefulTicket 2).before (ticketEntry quickTicket 1) = false := by
    rw [HeapEntry.before, decide_eq_false_iff_not]
    rintro (h | ⟨h, -⟩)
    · exact absurd hlt h.not_gt
    · exact absurd hlt h.le.not_gt
  simp only [heappop, hbefore, Bool.false_eq_true, if_false]

/-- The quick way is found, at risk one. -/
theorem findPath_ticketRequest :
    ticketService.findPath ticketRequest 0 4 =
      some (.ok (pathFromEdges ticketRequest ["repository", "ticket"] [quickTicket])) := by
  have hfirst : ticketService.findPath ticketRequest 0 4 =
      ticketService.dijkstraLoop asFloats (checkOf ticketService ticketRequest 0) ticketRequest
        "repository" "ticket" true 3 [ticketEntry quickTicket 1, ticketEntry carefulTicket 2] 3
        (Function.update (fun _ => none) "repository" (some 0)) := by
    rfl
  rw [hfirst, CapabilityGraphService.dijkstraLoop, heappop_ticketEntries]
  rfl

end McpOps
