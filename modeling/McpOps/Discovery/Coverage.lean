import Mathlib.Data.Finset.Sort
import McpOps.Discovery.Intent
import McpOps.Lib.Coverage
import McpOps.Python.Sorting

/-!
# Workflow coverage

`complete_workflow_coverage` exchanges tools of the first `top_k` of a pool for tools that cover
what the workflow needs.  A tool gives way only when the others cover what it covers of it.

The loop goes over the capabilities that are not covered.  For each it takes the best candidate, a
tool of the pool that is not selected, covers the capability and is safe (`of_bestCandidate`), and
puts it in an empty place or in that of a tool which covers no required capability that the others
do not cover (`replacementIndex_redundant`).

`CoverageSelection.Sound` is what the loop keeps: the tools are distinct, come from the pool, are
no more than `top_k`, and cover what was covered at the start.  It holds over any list of
capabilities (`CoverageSelection.Sound.foldl`), and the sorting at the end changes the order only
(`completeWorkflowCoverage_perm`).  `completeWorkflowCoverage_sound` is the result.
-/

namespace McpOps

open Coverage

structure ToolDiscoveryResult where
  tool : ToolDocument
  semanticScore : PyFloat
  lexicalScore : PyFloat
  combinedScore : PyFloat
  authorizationStatus : String
  explanation : String

/-- `result.tool.name`. -/
def ToolDiscoveryResult.name (result : ToolDiscoveryResult) : String := result.tool.name

/-- `required_workflow_capabilities(intent)`. -/
def requiredWorkflowCapabilities (intent : RetrievalIntent) : Finset String :=
  let rules :=
    [("investigate_failure", ["build", "logs", "diagnostics"]),
      ("diagnose_issue", ["diagnostics"]), ("create_record", ["ticket"]),
      ("lookup_knowledge", ["documentation"]), ("execute_operation", ["operation"])]
  intent.requestedCapabilities ∪
    ((rules.filter fun rule => rule.1 ∈ intent.primaryIntents).flatMap Prod.snd).toFinset

section Selection

variable (rt : Runtime) (intent : RetrievalIntent) (required : Finset String)

/-- The capabilities of the tool of a result. -/
def ToolDiscoveryResult.capabilities (result : ToolDiscoveryResult) : Finset String :=
  documentCapabilities rt result.tool

/-- `covered_capabilities(results)`. -/
def coveredCapabilities (results : List ToolDiscoveryResult) : Finset String :=
  covered (ToolDiscoveryResult.capabilities rt) results

/-- `_unsafe_backfill(result, intent)`. -/
def unsafeBackfill (result : ToolDiscoveryResult) : Bool :=
  if "execute_operation" ∈ intent.primaryIntents then false
  else result.tool.riskLevel = "HIGH" ∨ result.tool.riskLevel = "CRITICAL"

/-- `_best_candidate_for_capability(capability, ranked_pool, selected_names, intent)`. -/
def bestCandidateForCapability (capability : String) (rankedPool : List ToolDiscoveryResult)
    (selectedNames : Finset String) : Option ToolDiscoveryResult :=
  rankedPool.find? fun candidate =>
    candidate.name ∉ selectedNames ∧ capability ∈ candidate.capabilities rt ∧
      ¬unsafeBackfill intent candidate

/-- `min(indices, key=lambda index: selected[index].combined_score)`. -/
def lowestScoreAmong (selected : List ToolDiscoveryResult) (indices : List ℕ) : Option ℕ :=
  minBy (fun index => (selected[index]?.map (·.combinedScore)).getD (.finite 0)) indices

/-- `_lowest_score_index(selected)`. -/
def lowestScoreIndex (selected : List ToolDiscoveryResult) : Option ℕ :=
  lowestScoreAmong selected (List.range selected.length)

/-- `_replacement_index(selected, required)`. -/
def replacementIndex (selected : List ToolDiscoveryResult) : Option ℕ :=
  let selectedCoverage := selected.map fun result => result.capabilities rt ∩ required
  if covered id selectedCoverage = ∅ then lowestScoreIndex selected
  else
    lowestScoreAmong selected ((List.range selected.length).filter fun index =>
      (selectedCoverage[index]?.getD ∅) \ covered id (selectedCoverage.eraseIdx index) = ∅)

/-- The selected tools, with their names. -/
structure CoverageSelection where
  selected : List ToolDiscoveryResult
  selectedNames : Finset String

/-- The loop body of `complete_workflow_coverage`. -/
def CoverageSelection.cover (rankedPool : List ToolDiscoveryResult) (topK : ℕ)
    (s : CoverageSelection) (capability : String) : CoverageSelection :=
  match bestCandidateForCapability rt intent capability rankedPool s.selectedNames with
  | none => s
  | some candidate =>
      if s.selected.length < topK then
        { selected := s.selected ++ [candidate]
          selectedNames := insert candidate.name s.selectedNames }
      else
        match replacementIndex rt required s.selected with
        | none => s
        | some index =>
            let kept := (s.selected[index]?).elim s.selectedNames fun result =>
              s.selectedNames.erase result.name
            { selected := s.selected.set index candidate
              selectedNames := insert candidate.name kept }

/-- The key by which the covering tools are sorted. -/
def coverageKey (result : ToolDiscoveryResult) : SortKey where
  numbers := [.finite (-((result.capabilities rt ∩ required).card : ℚ)), result.combinedScore.neg,
    result.semanticScore.neg, result.lexicalScore.neg]
  texts := [result.name]

/-- `complete_workflow_coverage(intent, ranked_pool, top_k)`. -/
def completeWorkflowCoverage (rankedPool : List ToolDiscoveryResult) (topK : ℕ) :
    List ToolDiscoveryResult :=
  let selected := rankedPool.take topK
  let required := requiredWorkflowCapabilities intent
  if required = ∅ then selected
  else
    let missing := (required \ coveredCapabilities rt selected).sort (· ≤ ·)
    let start : CoverageSelection :=
      ⟨selected, (selected.map ToolDiscoveryResult.name).toFinset⟩
    let final := missing.foldl (CoverageSelection.cover rt intent required rankedPool topK) start
    (sortedBy (coverageKey rt required) final.selected).take topK

end Selection

/-! ## Replacements -/

section Replacements

variable {rt : Runtime} {intent : RetrievalIntent} {required : Finset String}
  {selected rankedPool : List ToolDiscoveryResult} {topK : ℕ}

/-- What is replaced covers no required capability that the others do not cover. -/
theorem replacementIndex_redundant {index : ℕ}
    (h : replacementIndex rt required selected = some index) :
    ∃ result, selected[index]? = some result ∧
      result.capabilities rt ∩ required ⊆
        covered (ToolDiscoveryResult.capabilities rt) (selected.eraseIdx index) := by
  have hrange : ∀ {indices : List ℕ}, indices ⊆ List.range selected.length →
      lowestScoreAmong selected indices = some index →
        ∃ result, selected[index]? = some result ∧ index ∈ indices := by
    intro indices hindices hmin
    have hmem := mem_of_minBy hmin
    have hlt := List.mem_range.mp (hindices hmem)
    exact ⟨selected[index], List.getElem?_eq_getElem hlt, hmem⟩
  unfold replacementIndex at h
  dsimp only at h
  split at h
  · -- nothing required is covered at all
    rename_i hnone
    obtain ⟨result, hresult, _⟩ := hrange (List.Subset.refl _) h
    have hmem : result.capabilities rt ∩ required ∈
        selected.map fun result => result.capabilities rt ∩ required :=
      List.mem_map_of_mem (List.mem_of_getElem? hresult)
    refine ⟨result, hresult, fun k hk => ?_⟩
    have hcovered := (mem_covered (f := id)).mpr ⟨_, hmem, hk⟩
    rw [hnone] at hcovered
    exact absurd hcovered (Finset.notMem_empty k)
  · obtain ⟨result, hresult, hmem⟩ := hrange List.filter_sublist.subset h
    -- the coverage without the member leaves nothing of it uncovered
    refine ⟨result, hresult, fun k hk => ?_⟩
    have hredundant := of_decide_eq_true (List.mem_filter.mp hmem).2
    rw [List.getElem?_map, hresult, Option.map_some, Option.getD_some,
      Finset.sdiff_eq_empty_iff_subset, List.eraseIdx_map] at hredundant
    obtain ⟨coverage, hcoverage, hk'⟩ := mem_covered.mp (hredundant hk)
    obtain ⟨other, hother, rfl⟩ := List.mem_map.mp hcoverage
    exact mem_covered.mpr ⟨other, hother, (Finset.mem_inter.mp hk').1⟩

/-- A candidate is a tool of the pool that is not selected, covers the capability and is safe. -/
theorem of_bestCandidate {capability : String} {names : Finset String}
    {candidate : ToolDiscoveryResult}
    (h : bestCandidateForCapability rt intent capability rankedPool names = some candidate) :
    candidate ∈ rankedPool ∧ candidate.name ∉ names ∧ ¬unsafeBackfill intent candidate := by
  unfold bestCandidateForCapability at h
  have hfound := List.find?_some h
  simp only [decide_eq_true_eq] at hfound
  exact ⟨List.mem_of_find?_eq_some h, hfound.1, hfound.2.2⟩

end Replacements

/-! ## The loop -/

/-- What the loop keeps. -/
structure CoverageSelection.Sound (rt : Runtime) (intent : RetrievalIntent)
    (rankedPool : List ToolDiscoveryResult) (topK : ℕ) (required : Finset String)
    (s : CoverageSelection) : Prop where
  names : s.selectedNames = (s.selected.map ToolDiscoveryResult.name).toFinset
  nodup : (s.selected.map ToolDiscoveryResult.name).Nodup
  length_le : s.selected.length ≤ topK
  subset : s.selected ⊆ rankedPool
  covers : coveredCapabilities rt (rankedPool.take topK) ∩ required ⊆
    coveredCapabilities rt s.selected
  safe : ∀ result ∈ s.selected, result ∈ rankedPool.take topK ∨ ¬unsafeBackfill intent result

section Loop

variable {rt : Runtime} {intent : RetrievalIntent} {required : Finset String}
  {rankedPool : List ToolDiscoveryResult} {topK : ℕ} {s : CoverageSelection}

theorem CoverageSelection.Sound.cover (h : s.Sound rt intent rankedPool topK required)
    (capability : String) :
    (s.cover rt intent required rankedPool topK capability).Sound rt intent rankedPool topK
      required := by
  unfold CoverageSelection.cover
  cases hcandidate : bestCandidateForCapability rt intent capability rankedPool
      s.selectedNames with
  | none => exact h
  | some candidate =>
      obtain ⟨hpool, hname, hsafe⟩ := of_bestCandidate hcandidate
      rw [h.names, List.mem_toFinset] at hname
      dsimp only
      split
      · -- there is room: the candidate is added
        rename_i hroom
        refine ⟨?_, ?_, ?_, ?_, ?_, ?_⟩
        · ext name
          simp [h.names]
        · rw [List.map_append, List.map_singleton]
          refine List.nodup_append.mpr ⟨h.nodup, List.nodup_singleton _, ?_⟩
          intro name hmem other hother heq
          rw [List.mem_singleton.mp hother] at heq
          exact hname (heq ▸ hmem)
        · rw [List.length_append, List.length_singleton]
          omega
        · exact List.append_subset.mpr ⟨h.subset, List.cons_subset.mpr ⟨hpool, List.nil_subset _⟩⟩
        · exact Finset.Subset.trans h.covers (covered_mono (List.subset_append_left ..))
        · intro result hresult
          rcases List.mem_append.mp hresult with hold | hnew
          · exact h.safe result hold
          · rw [List.mem_singleton.mp hnew]
            exact .inr hsafe
      · cases hindex : replacementIndex rt required s.selected with
        | none => exact h
        | some index =>
            -- the selection is full: the candidate takes the place of a redundant member
            obtain ⟨result, hresult, hredundant⟩ := replacementIndex_redundant hindex
            have hresultName : (s.selected.map ToolDiscoveryResult.name)[index]? =
                some result.name := by
              rw [List.getElem?_map, hresult, Option.map_some]
            dsimp only
            rw [hresult, Option.elim_some]
            refine ⟨?_, ?_, ?_, ?_, ?_, ?_⟩
            · ext name
              rw [List.map_set, List.mem_toFinset, mem_set_of_nodup h.nodup hresultName, h.names]
              simp
            · rw [List.map_set]
              exact h.nodup.set hname
            · rw [List.length_set]
              exact h.length_le
            · intro other hother
              rcases List.mem_or_eq_of_mem_set hother with hold | rfl
              · exact h.subset hold
              · exact hpool
            · intro k hk
              have hkept := covered_set hresult hredundant candidate
              exact hkept (Finset.mem_inter.mpr ⟨h.covers hk, (Finset.mem_inter.mp hk).2⟩)
            · intro other hother
              rcases List.mem_or_eq_of_mem_set hother with hold | rfl
              · exact h.safe other hold
              · exact .inr hsafe

/-- The loop, over any capabilities. -/
theorem CoverageSelection.Sound.foldl (h : s.Sound rt intent rankedPool topK required)
    (capabilities : List String) :
    (capabilities.foldl (CoverageSelection.cover rt intent required rankedPool topK) s).Sound rt
      intent rankedPool topK required := by
  induction capabilities generalizing s with
  | nil => exact h
  | cons capability rest ih => exact ih (h.cover capability)

/-- The first tools of the pool, before the loop. -/
theorem CoverageSelection.sound_start
    (hdistinct : (rankedPool.map ToolDiscoveryResult.name).Nodup) :
    CoverageSelection.Sound rt intent rankedPool topK required
      ⟨rankedPool.take topK,
        ((rankedPool.take topK).map ToolDiscoveryResult.name).toFinset⟩ where
  names := rfl
  nodup := hdistinct.sublist ((List.take_sublist ..).map _)
  length_le := List.length_take_le ..
  subset := List.take_subset ..
  covers := Finset.inter_subset_left
  safe _ hresult := .inl hresult

end Loop

/-! ## The result -/

/-- The result is what the loop leaves, in another order. -/
theorem completeWorkflowCoverage_perm (rt : Runtime) (intent : RetrievalIntent) (topK : ℕ)
    {rankedPool : List ToolDiscoveryResult}
    (hdistinct : (rankedPool.map ToolDiscoveryResult.name).Nodup) :
    ∃ s : CoverageSelection,
      s.Sound rt intent rankedPool topK (requiredWorkflowCapabilities intent) ∧
        (completeWorkflowCoverage rt intent rankedPool topK).Perm s.selected := by
  have hstart : CoverageSelection.Sound rt intent rankedPool topK
      (requiredWorkflowCapabilities intent) _ := CoverageSelection.sound_start hdistinct
  unfold completeWorkflowCoverage
  dsimp only
  split
  · exact ⟨_, hstart, .refl _⟩
  · have hloop := hstart.foldl ((requiredWorkflowCapabilities intent \
      coveredCapabilities rt (rankedPool.take topK)).sort (· ≤ ·))
    refine ⟨_, hloop, ?_⟩
    rw [List.take_of_length_le (by rw [length_sortedBy]; exact hloop.length_le)]
    exact sortedBy_perm ..

/-- A pool that is not cut is returned whole. -/
theorem completeWorkflowCoverage_whole (rt : Runtime) (intent : RetrievalIntent) {topK : ℕ}
    {rankedPool : List ToolDiscoveryResult} (hlength : rankedPool.length ≤ topK) :
    (completeWorkflowCoverage rt intent rankedPool topK).Perm rankedPool := by
  have htake : rankedPool.take topK = rankedPool := List.take_of_length_le hlength
  have hloop : ∀ (required : Finset String) (capabilities : List String),
      capabilities.foldl (CoverageSelection.cover rt intent required rankedPool topK)
          ⟨rankedPool, (rankedPool.map ToolDiscoveryResult.name).toFinset⟩ =
        ⟨rankedPool, (rankedPool.map ToolDiscoveryResult.name).toFinset⟩ := by
    intro required capabilities
    induction capabilities with
    | nil => rfl
    | cons capability rest ih =>
        -- every tool of the pool is selected already
        have hnone : bestCandidateForCapability rt intent capability rankedPool
            (rankedPool.map ToolDiscoveryResult.name).toFinset = none := by
          refine List.find?_eq_none.mpr fun candidate hcandidate => ?_
          have hname := List.mem_toFinset.mpr
            (List.mem_map_of_mem (f := ToolDiscoveryResult.name) hcandidate)
          simp [hname]
        rw [List.foldl_cons, CoverageSelection.cover, hnone, ih]
  unfold completeWorkflowCoverage
  dsimp only
  rw [htake]
  split
  · exact .refl _
  · rw [hloop, List.take_of_length_le (by rw [length_sortedBy]; exact hlength)]
    exact sortedBy_perm ..

/-- From a pool of distinct tools at most `top_k` distinct tools of it are selected.  A required
capability that its first `top_k` tools cover stays covered, and no tool of a high risk that is not
among them is selected unless an operation is asked for. -/
theorem completeWorkflowCoverage_sound (rt : Runtime) (intent : RetrievalIntent)
    (rankedPool : List ToolDiscoveryResult) (topK : ℕ)
    (hdistinct : (rankedPool.map ToolDiscoveryResult.name).Nodup) :
    (completeWorkflowCoverage rt intent rankedPool topK).length ≤ topK ∧
      ((completeWorkflowCoverage rt intent rankedPool topK).map ToolDiscoveryResult.name).Nodup ∧
      completeWorkflowCoverage rt intent rankedPool topK ⊆ rankedPool ∧
      (∀ capability ∈ requiredWorkflowCapabilities intent,
        capability ∈ coveredCapabilities rt (rankedPool.take topK) →
          capability ∈
            coveredCapabilities rt (completeWorkflowCoverage rt intent rankedPool topK)) ∧
      ∀ result ∈ completeWorkflowCoverage rt intent rankedPool topK,
        result ∉ rankedPool.take topK →
          result.tool.riskLevel = "HIGH" ∨ result.tool.riskLevel = "CRITICAL" →
            "execute_operation" ∈ intent.primaryIntents := by
  obtain ⟨s, hs, hperm⟩ :=
    completeWorkflowCoverage_perm rt intent topK hdistinct
  refine ⟨?_, ?_, ?_, ?_, ?_⟩
  · rw [hperm.length_eq]
    exact hs.length_le
  · exact (hperm.map _).nodup_iff.mpr hs.nodup
  · exact List.Subset.trans hperm.subset hs.subset
  · intro capability hneeded hcovered
    have hkept := hs.covers (Finset.mem_inter.mpr ⟨hcovered, hneeded⟩)
    unfold coveredCapabilities at hkept ⊢
    rwa [covered_perm hperm]
  · intro result hresult hnew hrisk
    have hsafe := (hs.safe result (hperm.subset hresult)).resolve_left hnew
    by_contra hoperation
    rw [unsafeBackfill, if_neg hoperation] at hsafe
    exact hsafe (decide_eq_true hrisk)

/-- A result for a tool of a category. -/
def plainResult (name category riskLevel : String) (score : ℚ) : ToolDiscoveryResult where
  tool :=
    { name, description := "", server := "ci-mcp", category, riskLevel
      requiredPermission := "tools:read", requiredRoles := [], inputSchema := [], tags := []
      executable := true, enabled := true }
  semanticScore := .finite score
  lexicalScore := .finite score
  combinedScore := .finite score
  authorizationStatus := "authorized"
  explanation := ""

/-- A pool of two tools, of which the second is risky. -/
def twoResults : List ToolDiscoveryResult :=
  [plainResult "get_build_status" "cicd" "READ_ONLY" 1,
    plainResult "restart_device" "device" "HIGH" (1 / 2)]

/-- The intent of a query that asks for a diagnosis. -/
def diagnoseIntent : RetrievalIntent := { primaryIntents := {"diagnose_issue"} }

/-- The risky second tool of a pool is not taken in for its diagnostics. -/
theorem completeWorkflowCoverage_twoResults :
    (completeWorkflowCoverage .plain diagnoseIntent twoResults 1).length ≤ 1 ∧
      ∀ result ∈ completeWorkflowCoverage .plain diagnoseIntent twoResults 1,
        result ∉ twoResults.take 1 →
          result.tool.riskLevel = "HIGH" ∨ result.tool.riskLevel = "CRITICAL" →
            "execute_operation" ∈ diagnoseIntent.primaryIntents := by
  have hsound := completeWorkflowCoverage_sound .plain diagnoseIntent twoResults 1 (by decide)
  exact ⟨hsound.1, hsound.2.2.2.2⟩

end McpOps
