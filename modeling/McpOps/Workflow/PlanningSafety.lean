import McpOps.Workflow.Planning
import McpOps.Workflow.Plans

/-!
# What a planner is offered

The planner is arbitrary: it may answer with any draft, and the indexes of tools and knowledge may
return anything.  What is stored in the end uses offered tools only, and a plan that fails stores
nothing.

## Strategy

Each stage of the selection of tools has one lemma that says what it lets through.

* The retrieval: distinct tools that are registered and enabled, at most `top_k` (`of_retrieve`).
* The augmentation: at most three more, which are enabled and new (`of_toolAdditions`,
  `of_augmentToolsFromKnowledge`).
* The policy: those that it permits for the request (`of_filterPlannerVisibleTools`).
* The order: the same tools, rearranged (`offers_of_offer`).

Put together they are `Offers`.  On the other side the validator refuses every draft with a tool
that is not among those (`toolName_of_validate`), the planning pass of the policy changes no tool
(`toolName_of_applyPlanningPolicy`), and up to the save at the end nothing touches the repository
(`keeps_ambient_bind`).  `plan_stores_offered` joins the two sides.
-/

namespace McpOps

open Proc

/-! ## Retrieval -/

namespace ToolRetrieval

variable {D : ToolRetrieval}

/-- A retrieval that succeeds returns distinct registered and enabled tools, at most `top_k`. -/
theorem of_retrieve {order : SetOrder} {query role : String} {topK : ℤ}
    {minimumScore : Option PyFloat} {filters : ToolDiscoveryFilters}
    {response : ToolDiscoveryResponse}
    (h : D.retrieve order query role topK minimumScore filters = .ok response) :
    response.rankedTools.length ≤ clampTopK topK ∧
      (response.rankedTools.map ToolDiscoveryResult.name).Nodup ∧
      ∀ result ∈ response.rankedTools, result.tool ∈ D.documents ∧ result.tool.enabled := by
  obtain ⟨backend, hretrieve⟩ := D.retrieve_eq order query role topK minimumScore filters
  rw [hretrieve, retrieveFrom_eq] at h
  set request := D.requestOf query role topK minimumScore filters
  cases houtcomes : D.outcomesFor order request (D.matchesFor request) with
  | error e =>
      rw [houtcomes] at h
      cases h
  | ok outcomes =>
      rw [houtcomes] at h
      have hselected := Except.ok.inj h
      obtain ⟨hlength, hnodup, hfrom, -⟩ := D.selectRanked_sound request (nodup_ranked houtcomes)
      rw [← hselected, rankedTools_responseOf]
      refine ⟨hlength, hnodup, fun result hresult => ?_⟩
      obtain ⟨found, hfound, htool⟩ := hfrom result hresult
      obtain ⟨document, hdocument, -, hranks, rfl⟩ := (mem_ranked houtcomes).mp hfound
      -- a disabled tool is authorized for no role
      have henabled : document.enabled := by
        have hauthorized := hranks.2
        rw [ToolDiscoveryService.roleAuthorized] at hauthorized
        by_contra hdisabled
        rw [if_pos hdisabled] at hauthorized
        cases hauthorized
      rw [htool]
      exact ⟨hdocument, henabled⟩

end ToolRetrieval

/-! ## Tools that knowledge adds -/

section Augmentation

variable {rt : Runtime} {scoring : AugmentationScoring}
    {discoveredTools allTools : List ToolDocument}
  {results : List KnowledgeSearchResult} {role userRequest : String} {minimumScore : PyFloat}

variable (rt scoring discoveredTools allTools role userRequest) in
/-- The tools that are added are new, enabled, and at most three. -/
theorem of_toolAdditions (capabilityCategories : List String) :
    let additions := toolAdditions rt scoring discoveredTools allTools role userRequest
      capabilityCategories
    additions.length ≤ 3 ∧
      ((allTools.map ToolDocument.name).Nodup → (additions.map ToolDocument.name).Nodup) ∧
      ∀ tool ∈ additions,
        tool ∈ allTools ∧ tool.enabled ∧ tool.name ∉ discoveredTools.map ToolDocument.name := by
  intro additions
  set candidates := additionCandidates rt scoring discoveredTools allTools role userRequest
    capabilityCategories with hcandidates
  have hsubperm : additions.Subperm candidates :=
    ((List.take_sublist _ _).subperm).trans (sortedBy_perm _ _).subperm
  have hsublist : candidates.Sublist allTools := List.filter_sublist
  refine ⟨List.length_take_le _ _, fun hall => ?_, fun tool htool => ?_⟩
  · obtain ⟨l, hperm, hl⟩ := hsubperm
    apply ((hperm.map _).nodup_iff).mp
    exact hall.sublist ((hl.trans hsublist).map _)
  · have hcandidate := List.mem_filter.mp (hsubperm.subset htool)
    simp only [Bool.and_eq_true, decide_eq_true_eq] at hcandidate
    obtain ⟨hmem, ⟨⟨hnew, -⟩, henabled⟩, -⟩ := hcandidate
    exact ⟨hmem, henabled, hnew⟩

/-- With distinct tools on both sides the tools stay distinct, known and enabled. -/
theorem of_augmentToolsFromKnowledge
    (hdiscovered : (discoveredTools.map ToolDocument.name).Nodup)
    (hall : (allTools.map ToolDocument.name).Nodup)
    (hknown : ∀ tool ∈ discoveredTools, tool ∈ allTools ∧ tool.enabled) :
    let tools := augmentToolsFromKnowledge rt scoring discoveredTools allTools role userRequest
      results minimumScore
    tools.length ≤ discoveredTools.length + 3 ∧ (tools.map ToolDocument.name).Nodup ∧
      ∀ tool ∈ tools, tool ∈ allTools ∧ tool.enabled := by
  intro tools
  by_cases hnone : knowledgeCapabilities results minimumScore = []
  · have htools : tools = discoveredTools := if_pos hnone
    rw [htools]
    exact ⟨by omega, hdiscovered, hknown⟩
  · obtain ⟨hlength, hnodup, hadded⟩ := of_toolAdditions rt scoring discoveredTools allTools role
      userRequest (knowledgeCapabilities results minimumScore)
    have htools : tools = discoveredTools ++ _ := if_neg hnone
    rw [htools, List.map_append, List.length_append, List.nodup_append]
    refine ⟨by omega, ⟨hdiscovered, hnodup hall, ?_⟩, ?_⟩
    · intro name hname other hother heq
      obtain ⟨tool, htool, rfl⟩ := List.mem_map.mp hother
      exact (hadded tool htool).2.2 (heq ▸ hname)
    · intro tool htool
      rcases List.mem_append.mp htool with htool | htool
      · exact hknown tool htool
      · exact ⟨(hadded tool htool).1, (hadded tool htool).2.1⟩

end Augmentation

/-! ## The policy -/

/-- A tool that the policy does not refuse is registered and enabled, and the role may use it. -/
theorem WorkflowPolicyEvaluator.of_decides {P : WorkflowPolicyEvaluator} {node : WorkflowNode}
    {role environment : String} {phase : PolicyPhase}
    (h : P.decides node role environment phase = .allow ∨
      P.decides node role environment phase = .allowWithApproval) :
    ∃ metadata, P.registry.lookup node.toolName = some metadata ∧ metadata.enabled ∧
      roleAuthorized P.runtime role metadata := by
  unfold WorkflowPolicyEvaluator.decides WorkflowPolicyEvaluator.verdict at h
  cases hlookup : P.registry.lookup node.toolName with
  | none =>
      rw [hlookup] at h
      rcases h with h | h <;> cases h
  | some metadata =>
      rw [hlookup] at h
      refine ⟨metadata, rfl, ?_⟩
      unfold WorkflowPolicyEvaluator.decision at h
      dsimp only at h
      split at h
      · rcases h with h | h <;> cases h
      · split at h
        · rcases h with h | h <;> cases h
        · next henabled =>
          split at h
          · rcases h with h | h <;> cases h
          · next hauthorized => exact ⟨not_not.mp henabled, not_not.mp hauthorized⟩

namespace PlanningService

variable {S : PlanningService} {toolOrder chunkOrder : SetOrder} {request : WorkflowPlanRequest}
  {topK : ℤ} {now : Time} {tool : ToolDocument} {tools visible offered : List ToolDocument}

/-- The policy does not refuse the use of the tool for the request. -/
def Permits (S : PlanningService) (request : WorkflowPlanRequest) (tool : ToolDocument) : Prop :=
  let P := S.engine.policyEvaluator
  (P.decides (S.policyCheckNode request tool) request.role request.targetEnvironment .planning =
      .allow ∨
    P.decides (S.policyCheckNode request tool) request.role request.targetEnvironment .planning =
      .allowWithApproval) ∧
  ∃ metadata, P.registry.lookup tool.name = some metadata ∧ metadata.enabled ∧
    roleAuthorized P.runtime request.role metadata

theorem permits_of_plannerVisible (h : S.plannerVisible request now tool = .ok true) :
    S.Permits request tool := by
  rw [plannerVisible] at h
  split at h
  · cases hevaluate : S.engine.policyEvaluator.evaluate (S.policyCheckNode request tool)
      request.createdBy request.role request.targetEnvironment .planning now with
    | error e =>
        rw [hevaluate] at h
        cases h
    | ok evaluation =>
        rw [hevaluate] at h
        have hdecision := of_decide_eq_true (Except.ok.inj h)
        rw [(S.engine.policyEvaluator.of_evaluate hevaluate).1] at hdecision
        exact ⟨hdecision, WorkflowPolicyEvaluator.of_decides hdecision⟩
  · cases h

/-- Of the tools, those stay that the policy permits, in their order. -/
theorem of_filterPlannerVisibleTools
    (h : S.filterPlannerVisibleTools request now tools = .ok visible) :
    visible.Sublist tools ∧ ∀ tool ∈ visible, S.Permits request tool := by
  induction tools generalizing visible with
  | nil =>
      cases h
      exact ⟨.slnil, fun tool htool => absurd htool List.not_mem_nil⟩
  | cons first rest ih =>
      rw [filterPlannerVisibleTools] at h
      cases hfirst : S.plannerVisible request now first with
      | error e =>
          rw [hfirst] at h
          cases h
      | ok seen =>
          rw [hfirst] at h
          cases hrest : S.filterPlannerVisibleTools request now rest with
          | error e =>
              rw [hrest] at h
              cases h
          | ok others =>
              rw [hrest] at h
              obtain ⟨hsublist, hpermits⟩ := ih hrest
              -- the first tool is left out, or is permitted
              cases seen with
              | false =>
                  cases h
                  exact ⟨hsublist.cons first, hpermits⟩
              | true =>
                  cases h
                  refine ⟨hsublist.cons_cons first, ?_⟩
                  intro tool htool
                  rcases List.mem_cons.mp htool with rfl | htool
                  · exact permits_of_plannerVisible hfirst
                  · exact hpermits tool htool

/-! ## The tools that are offered -/

/-- The request for a path that planning makes. -/
def pathRequest (S : PlanningService) (request : WorkflowPlanRequest) : CapabilityPathRequest :=
  S.capabilityGraph.pathRequestForGoal request.userRequest request.role request.targetEnvironment

/-- What holds of the tools that a planner is given, of those that it may see. -/
structure Offers (S : PlanningService) (request : WorkflowPlanRequest) (topK : ℤ) (now : Time)
    (visible offered : List ToolDocument) : Prop where
  nodup : (offered.map ToolDocument.name).Nodup
  length_le : offered.length ≤ ToolRetrieval.clampTopK topK + 3
  known : ∀ tool ∈ offered, tool ∈ S.discovery.documents ∧ tool.enabled
  permitted : ∀ tool ∈ offered, S.Permits request tool
  perm : offered.Perm visible
  /-- the tools of an allowed path first, as the path uses them, and the others by rank -/
  ordered : S.useCapabilityGraph → ∃ path,
    S.capabilityGraph.pathFor (S.pathRequest request) now = .ok path ∧
    path.tools = path.edges.map (·.toolName) ∧
    (path.reachable → IsPath S.capabilityGraph.edges
      (allowedEdge S.capabilityGraph (S.pathRequest request) now)
      (resourceType (S.pathRequest request).source) path.edges
      (goalType (S.pathRequest request).goal)) ∧
    offered.map ToolDocument.name =
      (path.tools.filter (· ∈ visible.map ToolDocument.name)).eraseDups ++
        (visible.map ToolDocument.name).filter (· ∉ path.tools)
  ranked : S.useCapabilityGraph = false →
    offered.map ToolDocument.name = visible.map ToolDocument.name

/-- The tools that a planner may see are distinct, registered, enabled and permitted. -/
theorem of_retrieved {retrieved : Retrieved}
    (h : S.retrieve toolOrder chunkOrder request topK now = .ok retrieved) :
    (retrieved.visible.map ToolDocument.name).Nodup ∧
      retrieved.visible.length ≤ ToolRetrieval.clampTopK topK + 3 ∧
      ∀ tool ∈ retrieved.visible,
        (tool ∈ S.discovery.documents ∧ tool.enabled) ∧ S.Permits request tool := by
  rw [retrieve] at h
  cases hresponse :
      S.discovery.retrieve toolOrder request.userRequest request.role topK none {} with
  | error e =>
      rw [hresponse] at h
      cases h
  | ok response =>
      rw [hresponse] at h
      cases hknowledge : S.searchKnowledge chunkOrder request with
      | error e =>
          rw [hknowledge] at h
          cases h
      | ok knowledge =>
          rw [hknowledge] at h
          cases hvisible : S.filterPlannerVisibleTools request now
              (S.augmented request response knowledge) with
          | error e =>
              simp only [Except.mapError, bind, Except.bind, hvisible] at h
              cases h
          | ok visible =>
              simp only [Except.mapError, bind, Except.bind, hvisible] at h
              cases h
              obtain ⟨hlength, hnodup, hretrieved⟩ := ToolRetrieval.of_retrieve hresponse
              have hnames : response.rankedTools.map ToolDiscoveryResult.name =
                  (response.rankedTools.map fun result => result.tool).map ToolDocument.name := by
                rw [List.map_map]
                rfl
              have hknown : ∀ tool ∈ response.rankedTools.map fun result => result.tool,
                  tool ∈ S.discovery.documents ∧ tool.enabled := by
                intro tool htool
                obtain ⟨result, hresult, rfl⟩ := List.mem_map.mp htool
                exact hretrieved result hresult
              rw [hnames] at hnodup
              -- three tools at most are added, all of them registered and enabled
              have haugmented : (S.augmented request response knowledge).length ≤
                    ToolRetrieval.clampTopK topK + 3 ∧
                  ((S.augmented request response knowledge).map ToolDocument.name).Nodup ∧
                  ∀ tool ∈ S.augmented request response knowledge,
                    tool ∈ S.discovery.documents ∧ tool.enabled := by
                rw [augmented]
                split
                · obtain ⟨hle, hdistinct, hall⟩ := of_augmentToolsFromKnowledge hnodup
                    S.discovery.nodup_documents hknown
                  rw [List.length_map] at hle
                  exact ⟨by omega, hdistinct, hall⟩
                · rw [List.length_map]
                  exact ⟨by omega, hnodup, hknown⟩
              obtain ⟨hle, hdistinct, hall⟩ := haugmented
              -- filtering by the policy only leaves tools out
              obtain ⟨hsublist, hpermits⟩ := of_filterPlannerVisibleTools hvisible
              refine ⟨hdistinct.sublist (hsublist.map _), hsublist.length_le.trans hle, ?_⟩
              intro tool htool
              exact ⟨hall tool (hsublist.subset htool), hpermits tool htool⟩

/-- Putting tools in order keeps them. -/
theorem offers_of_offer
    (hnodup : (visible.map ToolDocument.name).Nodup)
    (hlength : visible.length ≤ ToolRetrieval.clampTopK topK + 3)
    (hvisible : ∀ tool ∈ visible,
      (tool ∈ S.discovery.documents ∧ tool.enabled) ∧ S.Permits request tool)
    (h : S.offer request now visible = .ok offered) :
    S.Offers request topK now visible offered := by
  rw [offer] at h
  cases hnames : S.orderedToolNames request now (visible.map ToolDocument.name) with
  | error e =>
      rw [hnames] at h
      cases h
  | ok names =>
      rw [hnames] at h
      have hoffered := Except.ok.inj h
      -- the offer is a sort of what is visible, by the places in the list of names
      have hperm : offered.Perm visible := hoffered ▸ Ranking.sortOn_perm _ visible
      have hsorted : (∀ name, name ∈ visible.map ToolDocument.name ↔ name ∈ names) →
          offered.map ToolDocument.name = names.eraseDups := by
        intro hmem
        rw [← hoffered]
        exact Positions.map_sortOn_idxOf hnodup hmem
      rw [orderedToolNames] at hnames
      exact
        { nodup := (hperm.map _).nodup_iff.mpr hnodup
          length_le := hperm.length_eq ▸ hlength
          known := fun tool htool => (hvisible tool (hperm.subset htool)).1
          permitted := fun tool htool => (hvisible tool (hperm.subset htool)).2
          perm := hperm
          ordered := by
            intro hgraph
            rw [if_pos hgraph] at hnames
            obtain ⟨path, hpath, hmem, hsequence⟩ := of_constrainToolSequence hnodup hnames
            -- the graph is asked for a path that complies with the policy
            have hstrategy : (S.pathRequest request).strategy ≠ "shortest" := by
              show ("policy_compliant" : String) ≠ "shortest"
              decide
            obtain ⟨htools, hallowed, -⟩ := allowed_of_pathFor hstrategy hpath
            refine ⟨path, hpath, htools, hallowed, ?_⟩
            rw [hsorted fun name => (hmem name).symm, hsequence]
          ranked := by
            intro hgraph
            rw [if_neg (by simp [hgraph])] at hnames
            have hsame := Except.ok.inj hnames
            subst hsame
            rw [hsorted fun name => Iff.rfl]
            have herase := Positions.eraseDups_append_of_nodup (l := []) hnodup
              fun _ _ => List.not_mem_nil
            simpa using herase }

end PlanningService

/-! ## What is stored -/

section Stored

variable {ε α β κ : Type} {c : κ} {s : InMemoryWorkflowRepository}
  {post : Except ε β → Run engineInterface κ InMemoryWorkflowRepository → Prop}
  {r : Run engineInterface κ InMemoryWorkflowRepository}

/-- Code that only reads the clock and makes ids leaves the repository alone. -/
theorem keeps_ambient_bind {p : Procedure engineInterface ε α}
    {f : α → Procedure engineInterface ε β} (hp : p.Uses Ambient) (hr : r.state = s)
    (herror : ∀ e r, r.state = s → post (.error e) r)
    (hf : ∀ a r, p.Returns a → r.state = s →
      (f a).Keeps engineSystem c (fun _ => True) post r) :
    (p >>= f).Keeps engineSystem c (fun _ => True) post r := by
  induction p generalizing r with
  | pure a => exact hf a r rfl hr
  | raise e => exact herror e r hr
  | call o next ih =>
      intro i
      have hstate : (r.perform engineSystem c o i).state = s := by
        cases o with
        | now => exact hr
        | uuid4 => exact hr
        | _ => exact hp.1.elim
      exact ⟨trivial, ih _ (hp.2 _) hstate fun a r ha => hf a r ⟨_, ha⟩⟩

end Stored

namespace WorkflowPlanningService

variable {E : WorkflowPlanningService} {draft : WorkflowPlanDraft} {request : WorkflowPlanRequest}

/-- The nodes that the validator accepts use the allowed tools. -/
theorem toolName_of_validate {V : WorkflowValidator} {createdBy role environment : String}
    {allowedToolNames : List String} {workflow : Workflow}
    (h : (V.validate draft createdBy role allowedToolNames environment).Returns workflow) :
    ∀ node ∈ workflow.nodes, node.toolName ∈ allowedToolNames := by
  unfold WorkflowValidator.validate at h
  split at h
  · exact absurd h id
  · next hissues =>
    split at h
    · obtain ⟨id, -, h⟩ := Procedure.returns_bind.mp h
      obtain ⟨createdAt, -, h⟩ := Procedure.returns_bind.mp h
      rw [← Procedure.returns_pure.mp h]
      intro node hnode
      obtain ⟨proposed, hproposed, rfl⟩ := List.mem_map.mp hnode
      have htool : (V.normalizeNode proposed).toolName = proposed.toolName := by
        unfold WorkflowValidator.normalizeNode
        split <;> rfl
      show (V.normalizeNode proposed).toolName ∈ allowedToolNames
      rw [htool]
      -- a node with another tool, or with one that does not exist, has an issue
      by_contra hother
      rw [not_not] at hissues
      have hnodes : draft.nodes.flatMap (V.nodeIssues role allowedToolNames) = [] := by
        simp only [WorkflowValidator.issues, List.append_eq_nil_iff] at hissues
        tauto
      have hnone := List.flatMap_eq_nil_iff.mp hnodes proposed hproposed
      unfold WorkflowValidator.nodeIssues at hnone
      split at hnone
      · cases hnone
      · rw [if_neg hother] at hnone
        simp at hnone
    · exact absurd h id

/-- The planning pass of the policy changes no tool. -/
theorem toolName_of_applyPlanningPolicy {workflow planned : Workflow}
    (h : (E.applyPlanningPolicy workflow draft request).Returns planned) {allowed : List String}
    (hworkflow : ∀ node ∈ workflow.nodes, node.toolName ∈ allowed) :
    ∀ node ∈ planned.nodes, node.toolName ∈ allowed := by
  obtain ⟨proposed, -, h⟩ := Procedure.returns_bind.mp h
  obtain ⟨⟨nodes, denials⟩, hnodes, h⟩ := Procedure.returns_bind.mp h
  obtain ⟨event, -, h⟩ := Procedure.returns_bind.mp h
  rw [← Procedure.returns_pure.mp h]
  intro node hnode
  obtain ⟨old, hold, hplan, -⟩ := (planNodes_continues hnodes).exists_left hnode
  rw [toolName_of_plan hplan]
  exact hworkflow old hold

/-- Of a draft either nothing is stored, or the workflow that is returned, whose nodes use the
discovered tools. -/
theorem planDraft_keeps {κ : Type} {c : κ} {s : InMemoryWorkflowRepository}
    {r : Run engineInterface κ InMemoryWorkflowRepository} (hr : r.state = s)
    (discoveredTools : List String) (knowledge : List PyDict) :
    (E.planDraft draft request discoveredTools knowledge).Keeps engineSystem c (fun _ => True)
      (fun res r => (∀ e, res = .error e → r.state = s) ∧
        ∀ workflow, res = .ok workflow → r.state = s.saveWorkflow workflow ∧
          ∀ node ∈ workflow.nodes, node.toolName ∈ discoveredTools) r := by
  have hraised : ∀ (e : EngineError) (r : Run engineInterface κ InMemoryWorkflowRepository),
      r.state = s → (∀ e', (.error e : Except EngineError Workflow) = .error e' → r.state = s) ∧
        ∀ workflow, (.error e : Except EngineError Workflow) = .ok workflow →
          r.state = s.saveWorkflow workflow ∧
            ∀ node ∈ workflow.nodes, node.toolName ∈ discoveredTools := by
    intro e r hr
    exact ⟨fun _ _ => hr, fun _ h => by cases h⟩
  apply keeps_ambient_bind (uses_validate ..) hr hraised
  intro validated r hvalidated hr
  apply keeps_ambient_bind (uses_applyPlanningPolicy _) hr hraised
  intro planned r hplanned hr
  apply keeps_ambient_bind (uses_auditEvent ..) hr hraised
  intro event r _ hr i
  -- the save, after which nothing can fail
  refine ⟨trivial, fun _ h => (by cases h), ?_⟩
  rintro workflow ⟨⟩
  constructor
  · rw [← hr]
    rfl
  · exact toolName_of_applyPlanningPolicy hplanned (toolName_of_validate hvalidated)

end WorkflowPlanningService

namespace PlanningService

/-- How a plan ends: it fails and the repository is as before, or the workflow that is returned has
been stored, and all its nodes use tools that were offered. -/
def StoresOffered (S : PlanningService) (toolOrder chunkOrder : SetOrder)
    (request : WorkflowPlanRequest) (topK : ℤ) (s : InMemoryWorkflowRepository) :
    Except PlanningError WorkflowPlanResult → InMemoryWorkflowRepository → Prop
  | .error _, s' => s' = s
  | .ok result, s' => s' = s.saveWorkflow result.workflow ∧
      ∃ now retrieved offered,
        S.retrieve toolOrder chunkOrder request topK now = .ok retrieved ∧
        S.Offers request topK now retrieved.visible offered ∧
        result.discoveredTools = retrieved.response.rankedTools ∧
        ∀ node ∈ result.workflow.nodes, node.toolName ∈ offered.map ToolDocument.name

/-- **Planning.**  Whatever the planner answers, and whatever the indexes of tools and knowledge
return, a plan stores nothing or a workflow of tools that were offered: distinct, registered,
enabled and permitted by the policy, at most three more than were asked for, and in the order of
an allowed path of the capability graph. -/
theorem plan_stores_offered (S : PlanningService) (toolOrder chunkOrder : SetOrder)
    (request : WorkflowPlanRequest) (topK : ℤ) {κ : Type} (c : κ) (inputs : ℕ → EngineEnv)
    (r : Run engineInterface κ InMemoryWorkflowRepository) :
    S.StoresOffered toolOrder chunkOrder request topK r.state
      ((S.plan toolOrder chunkOrder request topK).run engineSystem c inputs r).1
      ((S.plan toolOrder chunkOrder request topK).run engineSystem c inputs r).2.state := by
  have hpure : ∀ {α : Type} (x : Except PlanningError α),
      (Procedure.ofExcept x : Procedure engineInterface PlanningError α).Uses Ambient := by
    intro α x
    cases x <;> trivial
  have hclock : (timeNow.mapError PlanningError.engine).Uses Ambient :=
    uses_timeNow.tryCatch fun _ => trivial
  suffices hkeeps : (S.plan toolOrder chunkOrder request topK).Keeps engineSystem c (fun _ => True)
      (fun res r' => S.StoresOffered toolOrder chunkOrder request topK r.state res r'.state) r from
    hkeeps.run inputs
  have hraised : ∀ (e : PlanningError) (r' : Run engineInterface κ InMemoryWorkflowRepository),
      r'.state = r.state →
        S.StoresOffered toolOrder chunkOrder request topK r.state (.error e) r'.state :=
    fun _ _ h => h
  -- everything up to the draft leaves the repository alone
  apply keeps_ambient_bind hclock rfl hraised
  intro now r₁ _ hr
  apply keeps_ambient_bind (hpure _) hr hraised
  intro retrieved r₂ hretrieved hr
  apply keeps_ambient_bind (hpure _) hr hraised
  intro offered r₃ hoffered hr
  apply keeps_ambient_bind (hpure _) hr hraised
  intro path r₄ _ hr
  apply keeps_ambient_bind (hpure _) hr hraised
  intro draft r₅ _ hr
  rw [Procedure.returns_ofExcept] at hretrieved hoffered
  apply Procedure.keeps_mapError_bind _ trivial
  apply (WorkflowPlanningService.planDraft_keeps hr _ _).imp trivial
  rintro res r' - ⟨herror, hok⟩
  constructor
  · intro workflow hres
    obtain ⟨hstate, htools⟩ := hok workflow hres
    -- the tools that are checked against are those that were offered
    have hoffers : S.Offers request topK now retrieved.visible offered := by
      obtain ⟨hnodup, hlength, hvisible⟩ := of_retrieved hretrieved
      apply offers_of_offer hnodup hlength hvisible
      cases hoffer : S.offer request now retrieved.visible with
      | error e =>
          rw [hoffer] at hoffered
          cases hoffered
      | ok tools =>
          rw [hoffer] at hoffered
          exact congrArg Except.ok (Except.ok.inj hoffered)
    exact ⟨hstate, now, retrieved, offered, hretrieved, hoffers, rfl, htools⟩
  · intro e hres
    exact herror e hres

end PlanningService

end McpOps
