import McpOps.Workflow.Structure
import Mathlib.Data.List.Perm.Subperm
import Mathlib.Logic.Relation

/-!
# The graph of a plan

The depth-first search of the validator finds a cycle exactly when dependencies and edges form one.
Where they form none, the engine takes the nodes in rounds: each node comes after its
dependencies, and the order does not depend on the order in which the nodes are listed.

## Strategy

That there is no cycle is used as accessibility: no infinite path starts at any id.  For the search,
this comes out of the list of what it has visited, in which every successor comes after its node
(`Closing.acc`).

* A visit that succeeds adds its node and all that it leads to (`visit_visits`), so the search of
  all keys that succeeds has a closing list of them (`acc_of_findCycle`).
* A visit that fails has come back to a node on its stack (`cycle_of_visit`).  The stack holds
  distinct keys, which is why the fuel never runs out before that.
* `graphEdge_iff` says that the dictionary of the validator is the graph of the draft, and
  `validateAcyclic_iff` is the exactness.

For the rounds, some node is ready as long as any remains (`exists_ready`), and a round makes what
remains smaller, so that as many rounds as nodes suffice (`topologicalRounds_ne_none`).  A round is
sorted by id, and ids are distinct, so `topologicalRounds_congr` goes from round to round with the
dictionaries equal up to order.
-/

namespace McpOps

open Relation

/-! ## Lists that close a relation -/

section Closing

variable {α : Type} {R : α → α → Prop}

/-- The successors of every element come after it. -/
def Closing (R : α → α → Prop) : List α → Prop
  | [] => True
  | a :: rest => (∀ b, R a b → b ∈ rest) ∧ Closing R rest

/-- No infinite path starts in a list that closes the relation. -/
theorem Closing.acc {l : List α} (h : Closing R l) : ∀ a ∈ l, Acc (fun b a => R a b) a := by
  induction l with
  | nil => exact fun a ha => absurd ha List.not_mem_nil
  | cons c rest ih =>
      obtain ⟨hfirst, hrest⟩ := h
      intro a ha
      rcases List.mem_cons.mp ha with rfl | ha
      · exact Acc.intro _ fun b hb => ih hrest b (hfirst b hb)
      · exact ih hrest a ha

/-- Where no infinite path starts there is no cycle. -/
theorem not_cycle_of_acc {a : α} (h : Acc (fun b a => R a b) a) : ¬TransGen R a a := by
  induction h with
  | intro a _ ih =>
      intro hcycle
      obtain ⟨b, hab, hba⟩ := TransGen.head'_iff.mp hcycle
      exact ih b hab (TransGen.tail' hba hab)

end Closing

/-! ## Depth-first search -/

/-- A key of the graph leads to another one. -/
def GraphEdge (graph : Dict String (List String)) (a b : String) : Prop :=
  a ∈ graph.keys ∧ b ∈ (graph.get? a).getD [] ∧ b ∈ graph.keys

section Search

variable {graph : Dict String (List String)} {fuel : ℕ} {visiting visited after : List String}
  {nodeId : String}

/-- `visit` of the dependencies of a node. -/
def visitAll (graph : Dict String (List String)) (fuel : ℕ) (visiting : List String)
    (dependencies visited : List String) : Option (List String) :=
  dependencies.foldlM (fun visited dependency =>
    if dependency ∈ graph.keys then visit graph fuel visiting visited dependency
    else some visited) visited

theorem visit_eq (hvisiting : nodeId ∉ visiting) (hvisited : nodeId ∉ visited) :
    visit graph (fuel + 1) visiting visited nodeId =
      (visitAll graph fuel (nodeId :: visiting) ((graph.get? nodeId).getD []) visited).map
        (nodeId :: ·) := by
  rw [visit, if_neg hvisiting, if_neg hvisited, ← visitAll]
  cases visitAll graph fuel (nodeId :: visiting) ((graph.get? nodeId).getD []) visited <;> rfl

theorem visitAll_cons (dependency : String) (rest : List String) :
    visitAll graph fuel visiting (dependency :: rest) visited =
      (if dependency ∈ graph.keys then visit graph fuel visiting visited dependency
        else some visited).bind (visitAll graph fuel visiting rest) := rfl

/-- What a search has visited closes the graph. -/
structure Visits (graph : Dict String (List String)) (visited after : List String) : Prop where
  closing : Closing (GraphEdge graph) after
  grows : visited ⊆ after

theorem visitAll_visits
    (hvisit : ∀ visiting visited after nodeId, Closing (GraphEdge graph) visited →
      nodeId ∈ graph.keys → visit graph fuel visiting visited nodeId = some after →
        Visits graph visited after ∧ nodeId ∈ after) (dependencies : List String)
    (hclosing : Closing (GraphEdge graph) visited)
    (h : visitAll graph fuel visiting dependencies visited = some after) :
    Visits graph visited after ∧ ∀ id ∈ dependencies, id ∈ graph.keys → id ∈ after := by
  induction dependencies generalizing visited with
  | nil =>
      cases h
      exact ⟨⟨hclosing, List.Subset.refl _⟩, fun id hid => absurd hid List.not_mem_nil⟩
  | cons dependency rest ih =>
      rw [visitAll_cons] at h
      obtain ⟨next, hnext, h⟩ := Option.bind_eq_some_iff.mp h
      split at hnext
      · -- a dependency that is a node is visited, and the others see what that added
        rename_i hkey
        obtain ⟨hvisits, hmem⟩ := hvisit _ _ _ _ hclosing hkey hnext
        obtain ⟨hrest, hall⟩ := ih hvisits.closing h
        refine ⟨⟨hrest.closing, List.Subset.trans hvisits.grows hrest.grows⟩,
          fun id hid hidKey => ?_⟩
        rcases List.mem_cons.mp hid with rfl | hid
        · exact hrest.grows hmem
        · exact hall id hid hidKey
      · rename_i hkey
        cases hnext
        obtain ⟨hrest, hall⟩ := ih hclosing h
        refine ⟨hrest, fun id hid hidKey => ?_⟩
        rcases List.mem_cons.mp hid with rfl | hid
        · exact absurd hidKey hkey
        · exact hall id hid hidKey

/-- A visit that succeeds adds its node and all that it leads to. -/
theorem visit_visits (hclosing : Closing (GraphEdge graph) visited)
    (h : visit graph fuel visiting visited nodeId = some after) :
    Visits graph visited after ∧ nodeId ∈ after := by
  induction fuel generalizing visiting visited after nodeId with
  | zero => cases h
  | succ fuel ih =>
      by_cases hvisiting : nodeId ∈ visiting
      · rw [visit, if_pos hvisiting] at h
        cases h
      by_cases hvisited : nodeId ∈ visited
      · rw [visit, if_neg hvisiting, if_pos hvisited] at h
        cases h
        exact ⟨⟨hclosing, List.Subset.refl _⟩, hvisited⟩
      · rw [visit_eq hvisiting hvisited] at h
        obtain ⟨next, hnext, rfl⟩ := Option.map_eq_some_iff.mp h
        obtain ⟨hvisits, hall⟩ := visitAll_visits
          (fun _ _ _ _ hclosing _ hvisit => ih hclosing hvisit) _ hclosing hnext
        refine ⟨⟨⟨fun id hedge => ?_, hvisits.closing⟩, ?_⟩, List.mem_cons_self ..⟩
        · exact hall id hedge.2.1 hedge.2.2
        · exact List.Subset.trans hvisits.grows (List.subset_cons_self ..)

theorem visitAll_none (dependencies : List String)
    (h : visitAll graph fuel visiting dependencies visited = none) :
    ∃ id visited, id ∈ dependencies ∧ id ∈ graph.keys ∧
      visit graph fuel visiting visited id = none := by
  induction dependencies generalizing visited with
  | nil => cases h
  | cons dependency rest ih =>
      rw [visitAll_cons] at h
      split at h
      · rename_i hkey
        cases hvisit : visit graph fuel visiting visited dependency with
        | none => exact ⟨dependency, visited, List.mem_cons_self .., hkey, hvisit⟩
        | some next =>
            rw [hvisit] at h
            obtain ⟨id, visited, hid, hrest⟩ := ih h
            exact ⟨id, visited, List.mem_cons_of_mem _ hid, hrest⟩
      · obtain ⟨id, visited, hid, hrest⟩ := ih h
        exact ⟨id, visited, List.mem_cons_of_mem _ hid, hrest⟩

/-- The ids that are being visited are distinct keys that lead to the node, and there is fuel for
all other keys. -/
structure Descends (graph : Dict String (List String)) (fuel : ℕ) (visiting : List String)
    (nodeId : String) : Prop where
  nodup : visiting.Nodup
  keys : visiting ⊆ graph.keys
  node : nodeId ∈ graph.keys
  leads : ∀ id ∈ visiting, TransGen (GraphEdge graph) id nodeId
  fuel : graph.keys.length < fuel + visiting.length

/-- A visit that fails has come back to a node that is being visited. -/
theorem cycle_of_visit (hdescends : Descends graph fuel visiting nodeId)
    (h : visit graph fuel visiting visited nodeId = none) :
    ∃ id, TransGen (GraphEdge graph) id id := by
  induction fuel generalizing visiting visited nodeId with
  | zero =>
      have hlength : visiting.length ≤ graph.keys.length :=
        (List.subperm_of_subset hdescends.nodup hdescends.keys).length_le
      have hfuel := hdescends.fuel
      omega
  | succ fuel ih =>
      by_cases hvisiting : nodeId ∈ visiting
      · exact ⟨nodeId, hdescends.leads nodeId hvisiting⟩
      by_cases hvisited : nodeId ∈ visited
      · rw [visit, if_neg hvisiting, if_pos hvisited] at h
        cases h
      · rw [visit_eq hvisiting hvisited, Option.map_eq_none_iff] at h
        obtain ⟨id, visited, hid, hkey, hvisit⟩ := visitAll_none _ h
        have hedge : GraphEdge graph nodeId id := ⟨hdescends.node, hid, hkey⟩
        refine ih ⟨?_, ?_, hkey, fun other hother => ?_, ?_⟩ hvisit
        · exact List.nodup_cons.mpr ⟨hvisiting, hdescends.nodup⟩
        · exact List.cons_subset.mpr ⟨hdescends.node, hdescends.keys⟩
        · rcases List.mem_cons.mp hother with rfl | hother
          · exact .single hedge
          · exact (hdescends.leads other hother).tail hedge
        · have hfuel := hdescends.fuel
          rw [List.length_cons]
          omega

/-- The search from every key fails only on a cycle. -/
theorem cycle_of_findCycle {ids : List String} (hkeys : ids ⊆ graph.keys) {found : String}
    (h : findCycle graph visited ids = some found) : ∃ id, TransGen (GraphEdge graph) id id := by
  induction ids generalizing visited with
  | nil => cases h
  | cons nodeId rest ih =>
      obtain ⟨hkey, hrest⟩ := List.cons_subset.mp hkeys
      rw [findCycle] at h
      cases hvisit : visit graph (graph.size + 1) [] visited nodeId with
      | none =>
          refine cycle_of_visit ⟨List.nodup_nil, List.nil_subset _, hkey,
            fun id hid => absurd hid List.not_mem_nil, ?_⟩ hvisit
          rw [Dict.keys, List.length_map, Dict.size]
          simp
      | some next =>
          rw [hvisit] at h
          exact ih hrest h

/-- A search that succeeds has visited every key. -/
theorem acc_of_findCycle {ids : List String} (hclosing : Closing (GraphEdge graph) visited)
    (h : findCycle graph visited ids = none) :
    ∀ id, id ∈ ids ∨ id ∈ visited → Acc (fun b a => GraphEdge graph a b) id := by
  induction ids generalizing visited with
  | nil =>
      rintro id (hid | hid)
      · exact absurd hid List.not_mem_nil
      · exact hclosing.acc id hid
  | cons nodeId rest ih =>
      rw [findCycle] at h
      cases hvisit : visit graph (graph.size + 1) [] visited nodeId with
      | none =>
          rw [hvisit] at h
          cases h
      | some next =>
          rw [hvisit] at h
          obtain ⟨hvisits, hmem⟩ := visit_visits hclosing hvisit
          have hnext := ih hvisits.closing h
          rintro id (hid | hid)
          · rcases List.mem_cons.mp hid with rfl | hid
            · exact hnext id (Or.inr hmem)
            · exact hnext id (Or.inl hid)
          · exact hnext id (Or.inr (hvisits.grows hid))

end Search

/-! ## The graph of a draft -/

/-- An id depends on another one: as a node that lists it, or along an edge. -/
def WorkflowPlanDraft.DependsOn (draft : WorkflowPlanDraft) (a b : String) : Prop :=
  (∃ node ∈ draft.nodes, node.id = a ∧ b ∈ node.dependsOn) ∨
    ∃ edge ∈ draft.edges, edge.destination = a ∧ edge.source = b

/-- Dependencies and edges name nodes of the draft. -/
structure WorkflowPlanDraft.NamesNodes (draft : WorkflowPlanDraft) : Prop where
  dependencies : ∀ node ∈ draft.nodes, ∀ id ∈ node.dependsOn, id ∈ draft.nodes.map (·.id)
  edges : ∀ edge ∈ draft.edges,
    edge.source ∈ draft.nodes.map (·.id) ∧ edge.destination ∈ draft.nodes.map (·.id)

section Draft

variable {draft : WorkflowPlanDraft} {graph : Dict String (List String)} {edges : List WorkflowEdge}
  {a b : String}

/-- `graph.setdefault(edge.destination, []).append(edge.source)`. -/
def addSource (graph : Dict String (List String)) (edge : WorkflowEdge) :
    Dict String (List String) :=
  graph.set edge.destination ((graph.get? edge.destination).getD [] ++ [edge.source])

theorem mem_addSource {edge : WorkflowEdge} :
    b ∈ ((addSource graph edge).get? a).getD [] ↔
      b ∈ (graph.get? a).getD [] ∨ (edge.destination = a ∧ edge.source = b) := by
  rw [addSource, Dict.get?_set]
  by_cases ha : a = edge.destination
  · subst ha
    simp [eq_comm]
  · simp [ha, Ne.symm ha]

theorem mem_addSources :
    b ∈ ((edges.foldl addSource graph).get? a).getD [] ↔
      b ∈ (graph.get? a).getD [] ∨ ∃ edge ∈ edges, edge.destination = a ∧ edge.source = b := by
  induction edges generalizing graph with
  | nil => simp
  | cons edge rest ih =>
      rw [List.foldl_cons, ih, mem_addSource, List.exists_mem_cons_iff, or_assoc]

theorem mem_keys_addSources (hkeys : ∀ edge ∈ edges, edge.destination ∈ graph.keys) :
    a ∈ (edges.foldl addSource graph).keys ↔ a ∈ graph.keys := by
  induction edges generalizing graph with
  | nil => rfl
  | cons edge rest ih =>
      have hedge : ∀ id, id ∈ (addSource graph edge).keys ↔ id ∈ graph.keys := by
        intro id
        rw [addSource, Dict.mem_keys_set]
        refine ⟨fun h => ?_, Or.inr⟩
        rcases h with rfl | h
        · exact hkeys edge (List.mem_cons_self ..)
        · exact h
      rw [List.foldl_cons, ih, hedge]
      exact fun later hlater => (hedge _).mpr (hkeys later (List.mem_cons_of_mem _ hlater))

/-- The dictionary of the dependencies of the nodes. -/
theorem mem_dependencies (hdistinct : (draft.nodes.map (·.id)).Nodup) :
    b ∈ (((draft.nodes.foldl (fun (g : Dict String (List String)) node =>
      g.set node.id node.dependsOn) Dict.empty).get? a).getD []) ↔
        ∃ node ∈ draft.nodes, node.id = a ∧ b ∈ node.dependsOn := by
  have hentries := Dict.entries_foldl_set WorkflowNode.id WorkflowNode.dependsOn
    (d := Dict.empty) hdistinct
  generalize draft.nodes.foldl _ Dict.empty = graph at hentries ⊢
  have hget : ∀ dependencies, graph.get? a = some dependencies ↔
      ∃ node ∈ draft.nodes, node.id = a ∧ node.dependsOn = dependencies := by
    intro dependencies
    rw [Dict.get?_eq_some_iff, hentries]
    simp [Dict.empty]
  constructor
  · intro hb
    cases hdependencies : graph.get? a with
    | none => simp [hdependencies] at hb
    | some dependencies =>
        rw [hdependencies] at hb
        obtain ⟨node, hnode, hid, rfl⟩ := (hget dependencies).mp hdependencies
        exact ⟨node, hnode, hid, hb⟩
  · rintro ⟨node, hnode, hid, hb⟩
    rw [(hget node.dependsOn).mpr ⟨node, hnode, hid, rfl⟩]
    exact hb

theorem keys_dependencies (hdistinct : (draft.nodes.map (·.id)).Nodup) :
    (draft.nodes.foldl (fun (g : Dict String (List String)) node =>
      g.set node.id node.dependsOn) Dict.empty).keys = draft.nodes.map (·.id) := by
  have hentries := Dict.entries_foldl_set WorkflowNode.id WorkflowNode.dependsOn
    (d := Dict.empty) hdistinct
  rw [Dict.keys, hentries]
  simp [Dict.empty]

/-- The graph of the validator is the graph of the draft. -/
theorem graphEdge_iff (hdistinct : (draft.nodes.map (·.id)).Nodup) (hnames : draft.NamesNodes) :
    GraphEdge (dependencyGraph draft) a b ↔ draft.DependsOn a b := by
  have hkeys : ∀ id, id ∈ (dependencyGraph draft).keys ↔ id ∈ draft.nodes.map (·.id) := by
    intro id
    rw [← keys_dependencies hdistinct]
    refine mem_keys_addSources fun edge hedge => ?_
    rw [keys_dependencies hdistinct]
    exact (hnames.edges edge hedge).2
  have hmem : b ∈ ((dependencyGraph draft).get? a).getD [] ↔ draft.DependsOn a b :=
    mem_addSources.trans (or_congr_left (mem_dependencies hdistinct))
  rw [GraphEdge, hmem, hkeys, hkeys]
  refine ⟨fun h => h.2.1, fun h => ⟨?_, h, ?_⟩⟩
  · rcases h with ⟨node, hnode, rfl, -⟩ | ⟨edge, hedge, rfl, -⟩
    · exact List.mem_map_of_mem hnode
    · exact (hnames.edges edge hedge).2
  · rcases h with ⟨node, hnode, -, hb⟩ | ⟨edge, hedge, -, rfl⟩
    · exact hnames.dependencies node hnode b hb
    · exact (hnames.edges edge hedge).1

theorem validateAcyclic_eq_nil :
    validateAcyclic draft = [] ↔
      findCycle (dependencyGraph draft) [] (dependencyGraph draft).keys = none := by
  rw [validateAcyclic]
  cases findCycle (dependencyGraph draft) [] (dependencyGraph draft).keys <;> simp

/-- Without a report no infinite path starts at any id. -/
theorem acc_of_validateAcyclic (h : validateAcyclic draft = []) (id : String) :
    Acc (fun b a => GraphEdge (dependencyGraph draft) a b) id := by
  by_cases hid : id ∈ (dependencyGraph draft).keys
  · have hclosing : Closing (GraphEdge (dependencyGraph draft)) [] := trivial
    exact acc_of_findCycle hclosing (validateAcyclic_eq_nil.mp h) id (Or.inl hid)
  · exact Acc.intro _ fun b hb => absurd hb.1 hid

/-- A cycle is reported exactly when there is one. -/
theorem validateAcyclic_iff (hdistinct : (draft.nodes.map (·.id)).Nodup)
    (hnames : draft.NamesNodes) :
    validateAcyclic draft ≠ [] ↔ ∃ id, TransGen draft.DependsOn id id := by
  have hgraph : draft.DependsOn = GraphEdge (dependencyGraph draft) := by
    funext a b
    exact propext (graphEdge_iff hdistinct hnames).symm
  rw [hgraph]
  constructor
  · intro hreport
    rw [Ne, validateAcyclic_eq_nil] at hreport
    obtain ⟨found, hfound⟩ := Option.ne_none_iff_exists'.mp hreport
    exact cycle_of_findCycle (List.Subset.refl _) hfound
  · rintro ⟨id, hcycle⟩ hreport
    exact not_cycle_of_acc (acc_of_validateAcyclic hreport id) hcycle

end Draft

/-! ## Rounds -/

open WorkflowPlanningService

section Rounds

variable {remaining remaining' : Dict String WorkflowNode} {ordered : List WorkflowNode} {fuel : ℕ}

/-- The nodes of a round. -/
def readyNodes (remaining : Dict String WorkflowNode) : List WorkflowNode :=
  remaining.values.filter fun node =>
    node.dependsOn.all fun dependency => dependency ∉ remaining.keys

/-- The nodes of a round in their order. -/
def roundOf (remaining : Dict String WorkflowNode) : List WorkflowNode :=
  (readyNodes remaining).insertionSort fun a b => ¬ b.id < a.id

/-- What a round leaves over. -/
def afterRound (remaining : Dict String WorkflowNode) : Dict String WorkflowNode :=
  remaining.filter fun id _ => id ∉ (readyNodes remaining).map (·.id)

theorem topologicalRounds_succ :
    topologicalRounds (fuel + 1) remaining =
      if remaining.entries.isEmpty then some []
      else if (readyNodes remaining).isEmpty then none
      else (topologicalRounds fuel (afterRound remaining)).map (roundOf remaining ++ ·) := rfl

theorem mem_readyNodes {node : WorkflowNode} :
    node ∈ readyNodes remaining ↔
      node ∈ remaining.values ∧ ∀ id ∈ node.dependsOn, id ∉ remaining.keys := by
  simp [readyNodes]

theorem mem_roundOf {node : WorkflowNode} :
    node ∈ roundOf remaining ↔ node ∈ readyNodes remaining := List.mem_insertionSort _

theorem mem_keys_afterRound {id : String} :
    id ∈ (afterRound remaining).keys ↔
      id ∈ remaining.keys ∧ id ∉ (readyNodes remaining).map (·.id) := by
  simp only [afterRound, Dict.filter, Dict.keys, List.mem_map, List.mem_filter, decide_eq_true_iff]
  constructor
  · rintro ⟨entry, ⟨hentry, hid⟩, rfl⟩
    exact ⟨⟨entry, hentry, rfl⟩, hid⟩
  · rintro ⟨⟨entry, hentry, rfl⟩, hid⟩
    exact ⟨entry, ⟨hentry, hid⟩, rfl⟩

/-- What a node depends on comes before it. -/
def AfterDependencies (ids : List String) (ordered : List WorkflowNode) : Prop :=
  ∀ before node after, ordered = before ++ node :: after →
    ∀ id ∈ node.dependsOn, id ∈ ids → id ∈ before.map (·.id)

/-- In every order that the rounds find, dependencies come first. -/
theorem topologicalRounds_afterDependencies
    (h : topologicalRounds fuel remaining = some ordered) :
    AfterDependencies remaining.keys ordered := by
  induction fuel generalizing remaining ordered with
  | zero =>
      rw [topologicalRounds] at h
      split at h
      · cases h
        exact fun before node after hsplit => by simp at hsplit
      · cases h
  | succ fuel ih =>
      rw [topologicalRounds_succ] at h
      split at h
      · cases h
        exact fun before node after hsplit => by simp at hsplit
      split at h
      · cases h
      obtain ⟨later, hlater, rfl⟩ := Option.map_eq_some_iff.mp h
      intro before node after hsplit id hid hkey
      rcases List.append_eq_append_iff.mp hsplit with ⟨rest, rfl, hrest⟩ | ⟨rest, hround, hrest⟩
      · -- a node of a later round
        rw [List.map_append, List.mem_append]
        by_cases hready : id ∈ (readyNodes remaining).map (·.id)
        · obtain ⟨first, hfirst, rfl⟩ := List.mem_map.mp hready
          exact Or.inl (List.mem_map_of_mem (mem_roundOf.mpr hfirst))
        · exact Or.inr (ih hlater rest node after hrest id hid
            (mem_keys_afterRound.mpr ⟨hkey, hready⟩))
      · cases rest with
        | nil =>
            -- the first node of the next round
            rw [List.append_nil] at hround
            rw [List.nil_append] at hrest
            subst hround
            by_cases hready : id ∈ (readyNodes remaining).map (·.id)
            · obtain ⟨first, hfirst, rfl⟩ := List.mem_map.mp hready
              exact List.mem_map_of_mem (mem_roundOf.mpr hfirst)
            · exact absurd (ih hlater [] node after hrest.symm id hid
                (mem_keys_afterRound.mpr ⟨hkey, hready⟩)) List.not_mem_nil
        | cons first rest =>
            -- a node of this round has no dependency left
            obtain ⟨rfl, -⟩ := List.cons.inj hrest
            have hnode : node ∈ roundOf remaining := by
              rw [hround]
              exact List.mem_append_right _ (List.mem_cons_self ..)
            exact absurd hkey ((mem_readyNodes.mp (mem_roundOf.mp hnode)).2 id hid)

/-- Where no infinite path starts, some node is ready. -/
theorem exists_ready {R : String → String → Prop}
    (hkeys : ∀ entry ∈ remaining.entries, entry.2.id = entry.1)
    (hR : ∀ node ∈ remaining.values, ∀ id ∈ node.dependsOn, R id node.id) {id : String}
    (hacc : Acc R id) (hid : id ∈ remaining.keys) : readyNodes remaining ≠ [] := by
  induction hacc with
  | intro id _ ih =>
      obtain ⟨⟨key, node⟩, hentry, rfl⟩ := List.mem_map.mp hid
      have hnode : node ∈ remaining.values := List.mem_map_of_mem hentry
      by_cases hready : ∀ id ∈ node.dependsOn, id ∉ remaining.keys
      · exact List.ne_nil_of_mem (mem_readyNodes.mpr ⟨hnode, hready⟩)
      · push Not at hready
        obtain ⟨dependency, hdependency, hkey⟩ := hready
        refine ih dependency ?_ hkey
        rw [← hkeys _ hentry]
        exact hR node hnode dependency hdependency

theorem keys_afterRound (hkeys : ∀ entry ∈ remaining.entries, entry.2.id = entry.1) :
    ∀ entry ∈ (afterRound remaining).entries, entry.2.id = entry.1 :=
  fun entry hentry => hkeys entry (List.mem_filter.mp hentry).1

/-- A round with a node makes what remains smaller. -/
theorem length_afterRound (hkeys : ∀ entry ∈ remaining.entries, entry.2.id = entry.1)
    (hready : readyNodes remaining ≠ []) :
    (afterRound remaining).entries.length < remaining.entries.length := by
  obtain ⟨node, hnode⟩ := List.exists_mem_of_ne_nil _ hready
  obtain ⟨entry, hentry, rfl⟩ := List.mem_map.mp (mem_readyNodes.mp hnode).1
  refine List.length_filter_lt_length_iff_exists.mpr ⟨entry, hentry, fun hleft => ?_⟩
  rw [decide_eq_true_iff, ← hkeys entry hentry] at hleft
  exact hleft (List.mem_map_of_mem hnode)

/-- Where no infinite path starts, as many rounds as there are nodes suffice. -/
theorem topologicalRounds_ne_none {R : String → String → Prop} (hacc : ∀ id, Acc R id)
    (hkeys : ∀ entry ∈ remaining.entries, entry.2.id = entry.1)
    (hR : ∀ node ∈ remaining.values, ∀ id ∈ node.dependsOn, R id node.id)
    (hfuel : remaining.entries.length ≤ fuel) : topologicalRounds fuel remaining ≠ none := by
  induction fuel generalizing remaining with
  | zero =>
      have hempty : remaining.entries = [] := List.length_eq_zero_iff.mp (Nat.le_zero.mp hfuel)
      simp [topologicalRounds, hempty]
  | succ fuel ih =>
      rw [topologicalRounds_succ]
      split
      · simp
      rename_i hsome
      have hready : readyNodes remaining ≠ [] := by
        rw [List.isEmpty_iff] at hsome
        obtain ⟨entry, hentry⟩ := List.exists_mem_of_ne_nil _ hsome
        exact exists_ready hkeys hR (hacc entry.1) (List.mem_map_of_mem hentry)
      rw [if_neg (by rwa [List.isEmpty_iff]), Ne, Option.map_eq_none_iff]
      have hless := length_afterRound hkeys hready
      refine ih (keys_afterRound hkeys) (fun node hnode => ?_) (by omega)
      obtain ⟨entry, hentry, rfl⟩ := List.mem_map.mp hnode
      exact hR _ (List.mem_map_of_mem (List.mem_filter.mp hentry).1)

/-! ## Reordering -/

theorem readyNodes_perm (h : remaining'.entries.Perm remaining.entries) :
    (readyNodes remaining').Perm (readyNodes remaining) := by
  have hkeys : ∀ id, id ∈ remaining'.keys ↔ id ∈ remaining.keys := fun id =>
    (h.map Prod.fst).mem_iff
  simp only [readyNodes, hkeys]
  exact (h.map Prod.snd).filter _

/-- Nodes with distinct ids have one order by id. -/
theorem roundOf_congr (hkeys : ∀ entry ∈ remaining.entries, entry.2.id = entry.1)
    (h : remaining'.entries.Perm remaining.entries) : roundOf remaining' = roundOf remaining := by
  have htotal : Std.Total fun a b : WorkflowNode => ¬ b.id < a.id :=
    ⟨fun a b => String.le_total a.id b.id⟩
  have htrans : IsTrans WorkflowNode fun a b => ¬ b.id < a.id :=
    ⟨fun a b c hab hbc => String.le_trans (b := b.id) hab hbc⟩
  have hperm : (roundOf remaining').Perm (roundOf remaining) :=
    (List.perm_insertionSort ..).trans ((readyNodes_perm h).trans (List.perm_insertionSort ..).symm)
  refine List.Perm.eq_of_pairwise (fun a b ha hb hab hba => ?_)
    (List.pairwise_insertionSort _ _) (List.pairwise_insertionSort _ _) hperm
  have hvalue : ∀ node ∈ roundOf remaining, (node.id, node) ∈ remaining.entries := by
    intro node hnode
    obtain ⟨entry, hentry, rfl⟩ := List.mem_map.mp (mem_readyNodes.mp (mem_roundOf.mp hnode)).1
    rw [hkeys entry hentry]
    exact hentry
  have hid : a.id = b.id := String.le_antisymm hab hba
  have hentry := hvalue a (hperm.mem_iff.mp ha)
  rw [hid] at hentry
  exact Option.some.inj ((Dict.get?_eq_some_iff.mpr hentry).symm.trans
    (Dict.get?_eq_some_iff.mpr (hvalue b hb)))

theorem afterRound_perm (h : remaining'.entries.Perm remaining.entries) :
    (afterRound remaining').entries.Perm (afterRound remaining).entries := by
  have hready : ∀ id, id ∈ (readyNodes remaining').map (·.id) ↔
      id ∈ (readyNodes remaining).map (·.id) := fun id =>
    ((readyNodes_perm h).map (·.id)).mem_iff
  simp only [afterRound, hready]
  exact h.filter _

/-- The rounds do not depend on the order of the dictionary. -/
theorem topologicalRounds_congr (hkeys : ∀ entry ∈ remaining.entries, entry.2.id = entry.1)
    (h : remaining'.entries.Perm remaining.entries) :
    topologicalRounds fuel remaining' = topologicalRounds fuel remaining := by
  induction fuel generalizing remaining remaining' with
  | zero => rw [topologicalRounds, topologicalRounds, h.isEmpty_eq]
  | succ fuel ih =>
      rw [topologicalRounds_succ, topologicalRounds_succ, h.isEmpty_eq,
        (readyNodes_perm h).isEmpty_eq, roundOf_congr hkeys h,
        ih (keys_afterRound hkeys) (afterRound_perm h)]

end Rounds

/-! ## The order of an accepted draft -/

/-- The id of a node and the ids it depends on. -/
def WorkflowNode.dependencies (node : WorkflowNode) : String × List String :=
  (node.id, node.dependsOn)

section Accepted

variable {V : WorkflowValidator} {draft : WorkflowPlanDraft} {role : String}
  {allowedToolNames : List String} {nodes nodes' : List WorkflowNode}

theorem edges_of_validate {edges : List WorkflowEdge} {nodeIds : List String}
    (h : validateEdges edges nodeIds = []) {edge : WorkflowEdge} (hedge : edge ∈ edges) :
    edge.source ∈ nodeIds ∧ edge.destination ∈ nodeIds := by
  have hnone := List.flatMap_eq_nil_iff.mp h edge hedge
  rw [List.append_eq_nil_iff] at hnone
  constructor
  · by_contra hmissing
    simp [hmissing] at hnone
  · by_contra hmissing
    simp [hmissing] at hnone

/-- An accepted draft has distinct ids, names its own nodes and has no cycle. -/
theorem acyclic_of_issues (h : V.issues draft role allowedToolNames = []) :
    (draft.nodes.map (·.id)).Nodup ∧ draft.NamesNodes ∧ validateAcyclic draft = [] := by
  have hdistinct : (draft.nodes.map (·.id)).Nodup := by
    by_contra hdup
    simp [WorkflowValidator.issues, hdup] at h
  simp only [WorkflowValidator.issues, List.append_eq_nil_iff] at h
  obtain ⟨⟨⟨⟨⟨-, hdependencies⟩, -⟩, -⟩, hedges⟩, hacyclic⟩ := h
  exact ⟨hdistinct, ⟨fun node hnode => dependencies_of_validate hdependencies hnode,
    fun edge hedge => edges_of_validate hedges hedge⟩, hacyclic⟩

theorem ids_perm (h : (nodes.map (·.dependencies)).Perm (draft.nodes.map (·.dependencies))) :
    (nodes.map (·.id)).Perm (draft.nodes.map (·.id)) := by
  have hids := h.map Prod.fst
  rw [List.map_map, List.map_map] at hids
  exact hids

theorem keys_nodesById (hdistinct : (nodes.map (·.id)).Nodup) :
    ∀ entry ∈ (Workflow.nodesById nodes).entries, entry.2.id = entry.1 := by
  intro entry hentry
  rw [entries_nodesById hdistinct] at hentry
  obtain ⟨node, -, rfl⟩ := List.mem_map.mp hentry
  rfl

theorem values_nodesById (hdistinct : (nodes.map (·.id)).Nodup) :
    (Workflow.nodesById nodes).values = nodes := by
  rw [Dict.values, entries_nodesById hdistinct, List.map_map]
  exact List.map_id nodes

/-- The order does not depend on how the nodes are listed. -/
theorem topologicalNodes_congr (hdistinct : (nodes.map (·.id)).Nodup) (h : nodes'.Perm nodes)
    (hrounds : topologicalRounds nodes.length (Workflow.nodesById nodes) ≠ none) :
    topologicalNodes nodes' = topologicalNodes nodes := by
  have hdistinct' : (nodes'.map (·.id)).Nodup := (h.map _).nodup_iff.mpr hdistinct
  have hentries : (Workflow.nodesById nodes').entries.Perm (Workflow.nodesById nodes).entries := by
    rw [entries_nodesById hdistinct, entries_nodesById hdistinct']
    exact h.map _
  obtain ⟨ordered, hordered⟩ := Option.ne_none_iff_exists'.mp hrounds
  rw [topologicalNodes, topologicalNodes, h.length_eq,
    topologicalRounds_congr (keys_nodesById hdistinct) hentries, hordered]
  rfl

/-- The rounds find an order of every node list of an accepted draft. -/
theorem topologicalRounds_of_issues (h : V.issues draft role allowedToolNames = [])
    (hnodes : (nodes.map (·.dependencies)).Perm (draft.nodes.map (·.dependencies))) :
    topologicalRounds nodes.length (Workflow.nodesById nodes) ≠ none := by
  obtain ⟨hdistinct, hnames, hacyclic⟩ := acyclic_of_issues h
  have hdistinct' : (nodes.map (·.id)).Nodup := (ids_perm hnodes).nodup_iff.mpr hdistinct
  refine topologicalRounds_ne_none (acc_of_validateAcyclic hacyclic)
    (keys_nodesById hdistinct') (fun node hnode id hid => ?_) ?_
  · -- the node depends on what its namesake in the draft depends on
    rw [values_nodesById hdistinct'] at hnode
    obtain ⟨n, hn, hsame⟩ := List.mem_map.mp (hnodes.mem_iff.mp (List.mem_map_of_mem hnode))
    obtain ⟨hname, hdependsOn⟩ := Prod.mk.inj hsame
    exact (graphEdge_iff hdistinct hnames).mpr (Or.inl ⟨n, hn, hname, hdependsOn ▸ hid⟩)
  · rw [entries_nodesById hdistinct', List.length_map]

/-- Cycles are reported exactly where there are some.  The nodes of an accepted draft, however they
are listed, are taken in one order, in which each comes after its dependencies. -/
theorem validateAcyclic_exact_topologicalNodes_canonical :
    (∀ draft : WorkflowPlanDraft, (draft.nodes.map (·.id)).Nodup → draft.NamesNodes →
      (validateAcyclic draft ≠ [] ↔ ∃ id, TransGen draft.DependsOn id id)) ∧
    ∀ (V : WorkflowValidator) (draft : WorkflowPlanDraft) (role : String)
      (allowedToolNames : List String), V.issues draft role allowedToolNames = [] →
        ∀ nodes : List WorkflowNode,
          (nodes.map (·.dependencies)).Perm (draft.nodes.map (·.dependencies)) →
            topologicalRounds nodes.length (Workflow.nodesById nodes) ≠ none ∧
            (topologicalNodes nodes).Perm nodes ∧
            (∀ before node after, topologicalNodes nodes = before ++ node :: after →
              ∀ id ∈ node.dependsOn, id ∈ before.map (·.id)) ∧
            ∀ nodes' : List WorkflowNode, nodes'.Perm nodes →
              topologicalNodes nodes' = topologicalNodes nodes := by
  refine ⟨fun draft hdistinct hnames => validateAcyclic_iff hdistinct hnames, ?_⟩
  intro V draft role allowedToolNames hissues nodes hnodes
  obtain ⟨hdistinct, hnames, -⟩ := acyclic_of_issues hissues
  have hids := ids_perm hnodes
  have hdistinct' : (nodes.map (·.id)).Nodup := hids.nodup_iff.mpr hdistinct
  have hrounds := topologicalRounds_of_issues hissues hnodes
  have hperm := topologicalNodes_perm hdistinct'
  refine ⟨hrounds, hperm, fun before node after hsplit id hid => ?_,
    fun nodes' h => topologicalNodes_congr hdistinct' h hrounds⟩
  obtain ⟨ordered, hordered⟩ := Option.ne_none_iff_exists'.mp hrounds
  have hsame : topologicalNodes nodes = ordered := by
    rw [topologicalNodes, hordered, Option.getD_some]
  refine topologicalRounds_afterDependencies hordered before node after (hsame ▸ hsplit) id hid ?_
  -- dependencies are nodes of the draft
  rw [Dict.keys, entries_nodesById hdistinct', List.map_map]
  have hnode : node ∈ nodes := by
    refine hperm.mem_iff.mp ?_
    rw [hsplit]
    exact List.mem_append_right _ (List.mem_cons_self ..)
  obtain ⟨n, hn, hdependencies⟩ := List.mem_map.mp (hnodes.mem_iff.mp (List.mem_map_of_mem hnode))
  obtain ⟨-, hdependsOn⟩ := Prod.mk.inj hdependencies
  exact hids.mem_iff.mpr (hnames.dependencies n hn id (hdependsOn ▸ hid))

end Accepted

/-- A plan whose two readings wait for each other. -/
def readCycle : WorkflowPlanDraft :=
  smallDraft [readNode "first" first_length ["second"], readNode "second" second_length ["first"]]

/-- The cycle is reported, and two readings are taken in turn however they are listed. -/
theorem validateAcyclic_exact_topologicalNodes_canonical_readings :
    validateAcyclic readCycle ≠ [] ∧ topologicalNodes readTwice.nodes.reverse =
      readTwice.nodes := by
  obtain ⟨hexact, hcanonical⟩ := validateAcyclic_exact_topologicalNodes_canonical
  constructor
  · refine (hexact readCycle (by decide) ⟨by decide, by decide⟩).mpr ⟨"first", ?_⟩
    refine .tail (.single (b := "second") (Or.inl ⟨_, List.mem_cons_self .., rfl, by decide⟩)) ?_
    exact Or.inl ⟨_, List.mem_cons_of_mem _ (List.mem_cons_self ..), rfl, by decide⟩
  · have hissues : WorkflowPlanningService.small.validator.issues readTwice "ENGINEER"
        ["get_device_status"] = [] := by rfl
    obtain ⟨-, -, -, hsame⟩ := hcanonical _ _ _ _ hissues readTwice.nodes (.refl _)
    rw [hsame _ (List.reverse_perm _)]
    rfl

end McpOps
