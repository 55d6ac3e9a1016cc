import McpOps.Discovery.Retrieval

/-!
# What retrieval returns

A retrieval returns registered, enabled and authorized tools, in distinct results and no more than
asked for, unless an index names a tool that is not registered, which fails.  The filters of the
request hold of the tools exactly as far as the index respects them.

## Strategy

The matches are followed through the stages of a retrieval.

* A candidate that ranks gives one result, for a document of a registered tool (`mem_ranked`,
  `nodup_ranked`).  Ranking checks the role and the minimum score, and not the filters.
* Reranking changes scores and explanations only (`rerankResults_perm`), the completion of the
  coverage exchanges results for others of the pool, and the end is cut.  So what is selected of
  distinct results are distinct results of the pool (`selectRanked_sound`).

`IndexCurrent` is the condition on the matches: each names a registered tool, which passes the
filters or is not ranked.  It suffices (`retrieveFrom_usable`), and when nothing is cut it is also
needed (`current_of_retrieveFrom`).  `retrieve_serves_iff` has both, with the failures.  The index
in memory filters its documents itself, and is always current (`indexCurrent_of_inMemory`).
-/

namespace McpOps

namespace ToolRetrieval

/-! ## Usable tools -/

/-- The tool is registered, enabled, authorized for the role and passes the filters. -/
structure Usable (D : ToolRetrieval) (request : ToolDiscoveryRequest) (tool : ToolDocument) :
    Prop where
  registered : ∃ metadata, D.registry.get? tool.name = some metadata ∧
    D.documentFromMetadata tool.name metadata = .ok tool ∧ metadata.enabled
  authorized : D.roleAuthorized request.role tool
  filtered : matchesFilters tool request.filters

/-- The results are of distinct usable tools, at most `top_k` of them (one where `top_k` is less
than one). -/
structure Serves (D : ToolRetrieval) (request : ToolDiscoveryRequest) (topK : ℤ)
    (response : ToolDiscoveryResponse) : Prop where
  length_le : (response.rankedTools.length : ℤ) ≤ max topK 1
  nodup : (response.rankedTools.map ToolDiscoveryResult.name).Nodup
  usable : ∀ result ∈ response.rankedTools, D.Usable request result.tool

/-- A document with this semantic score is ranked: its score reaches the minimum, and the role may
use its tool. -/
def Ranks (D : ToolRetrieval) (request : ToolDiscoveryRequest) (document : ToolDocument)
    (semanticScore : PyFloat) : Prop :=
  ¬(D.resultFor request document semanticScore).combinedScore.lt request.minimumScore ∧
    D.roleAuthorized request.role document

/-- The matches of the index, or of the one in memory when it is unavailable. -/
def matchesFor (D : ToolRetrieval) (request : ToolDiscoveryRequest) : List SemanticMatch :=
  let candidateK := max (request.topK * 4) (request.topK + 12)
  let search := fun index : ToolEmbeddingIndex =>
    index.search request.query D.documents candidateK request.filters
  (search D.index).getD ((search D.fallbackIndex).getD [])

/-- Every match of the index names a registered tool, which passes the filters or is not ranked. -/
def IndexCurrent (D : ToolRetrieval) (request : ToolDiscoveryRequest) : Prop :=
  ∀ name semanticScore, (semanticByName (D.matchesFor request)).get? name = some semanticScore →
    ∃ document ∈ D.documents, document.name = name ∧
      (D.Ranks request document semanticScore → matchesFilters document request.filters)

variable {D : ToolRetrieval} {order : SetOrder} {request : ToolDiscoveryRequest}
  {matched : List SemanticMatch} {document : ToolDocument} {name : String}

/-! ## Documents -/

theorem documentFromMetadata_name {S : ToolDiscoveryService} {metadata : CatalogedTool}
    (h : S.documentFromMetadata name metadata = .ok document) : document.name = name := by
  rw [ToolDiscoveryService.documentFromMetadata] at h
  split at h
  · cases h
  · rename_i hname
    split at h
    · cases h
    · cases h
      exact (not_not.mp hname).symm

/-- The documents are those of the registered tools. -/
theorem mem_documents :
    document ∈ D.documents ↔ ∃ metadata, D.registry.get? document.name = some metadata ∧
      D.documentFromMetadata document.name metadata = .ok document := by
  have hbuilt := Traversal.mapM_eq_ok D.built
  constructor
  · intro hdocument
    obtain ⟨entry, hentry, hdocument⟩ := Traversal.mem_of_forall₂ hbuilt hdocument
    rw [documentFromMetadata_name hdocument]
    exact ⟨entry.2, Dict.get?_eq_some_iff.mpr (List.mem_mergeSort.mp hentry), hdocument⟩
  · rintro ⟨metadata, hmetadata, hdocument⟩
    have hsorted := List.mergeSort_perm D.registry.entries fun a b => decide (a.1 ≤ b.1)
    have hentry := hsorted.mem_iff.mpr (Dict.get?_eq_some_iff.mp hmetadata)
    obtain ⟨found, hfound, hbuild⟩ := Traversal.exists_of_forall₂ hbuilt hentry
    cases hdocument.symm.trans hbuild
    exact hfound

theorem nodup_documents (D : ToolRetrieval) : (D.documents.map ToolDocument.name).Nodup := by
  have hnames : ∀ {entries : List (String × CatalogedTool)} {documents : List ToolDocument},
      List.Forall₂ (fun entry document =>
          D.documentFromMetadata entry.1 entry.2 = .ok document) entries documents →
        documents.map ToolDocument.name = entries.map Prod.fst := by
    intro entries documents h
    induction h with
    | nil => rfl
    | cons hdocument _ ih =>
        rw [List.map_cons, List.map_cons, ih, documentFromMetadata_name hdocument]
  rw [hnames (Traversal.mapM_eq_ok D.built)]
  exact ((List.mergeSort_perm ..).map Prod.fst).nodup_iff.mpr D.registry.nodup

theorem documentByName_eq_some :
    D.documentByName.get? name = some document ↔ document ∈ D.documents ∧ document.name = name := by
  have hentries := Dict.entries_foldl_set ToolDocument.name
    (fun document : ToolDocument => document) (l := D.documents) (d := Dict.empty)
    D.nodup_documents
  rw [Dict.get?_eq_some_iff, documentByName, hentries]
  simp only [Dict.empty, List.nil_append, List.mem_map, Prod.mk.injEq]
  exact ⟨fun ⟨_, hmem, hname, heq⟩ => heq ▸ ⟨hmem, hname⟩,
    fun ⟨hmem, hname⟩ => ⟨document, hmem, hname, rfl⟩⟩

/-! ## Candidates -/

/-- The semantic score of a candidate. -/
def scoreOf (matched : List SemanticMatch) (name : String) : PyFloat :=
  ((semanticByName matched).get? name).getD (.finite 0)

theorem candidateOutcome_of_mem (request : ToolDiscoveryRequest) (matched : List SemanticMatch)
    (hdocument : document ∈ D.documents) :
    (∃ outcome, D.candidateOutcome request matched document.name = .ok outcome) ∧
      ∀ result, D.candidateOutcome request matched document.name = .ok (.ranked result) ↔
        D.Ranks request document (scoreOf matched document.name) ∧
          result = D.resultFor request document (scoreOf matched document.name) := by
  rw [candidateOutcome, documentByName_eq_some.mpr ⟨hdocument, rfl⟩]
  dsimp only [Ranks, scoreOf]
  split
  · rename_i hbelow
    refine ⟨⟨_, rfl⟩, fun result => iff_of_false (fun h => by cases h) fun h => h.1.1 hbelow⟩
  · rename_i hreaches
    split
    · rename_i hunauthorized
      exact ⟨⟨_, rfl⟩, fun result =>
        iff_of_false (fun h => by cases h) fun h => hunauthorized h.1.2⟩
    · rename_i hauthorized
      refine ⟨⟨_, rfl⟩, fun result => ⟨fun h => ?_, fun h => ?_⟩⟩
      · cases h
        exact ⟨⟨hreaches, not_not.mp hauthorized⟩, rfl⟩
      · rw [h.2]

theorem candidateOutcome_eq_error {e : RetrievalFailure} :
    D.candidateOutcome request matched name = .error e ↔
      e = .keyError name ∧ ∀ document ∈ D.documents, document.name ≠ name := by
  constructor
  · intro h
    by_cases hknown : ∃ document ∈ D.documents, document.name = name
    · obtain ⟨document, hdocument, rfl⟩ := hknown
      obtain ⟨outcome, houtcome⟩ :=
        (candidateOutcome_of_mem request matched hdocument).1
      rw [h] at houtcome
      cases houtcome
    · push Not at hknown
      have hnone : D.documentByName.get? name = none := by
        rw [Option.eq_none_iff_forall_ne_some]
        intro document hsome
        obtain ⟨hdocument, hname⟩ := documentByName_eq_some.mp hsome
        exact hknown document hdocument hname
      rw [candidateOutcome, hnone] at h
      cases h
      exact ⟨rfl, hknown⟩
  · rintro ⟨rfl, hunknown⟩
    have hnone : D.documentByName.get? name = none := by
      rw [Option.eq_none_iff_forall_ne_some]
      intro document hsome
      obtain ⟨hdocument, hname⟩ := documentByName_eq_some.mp hsome
      exact hunknown document hdocument hname
    rw [candidateOutcome, hnone]

/-! ## Ranked results -/

/-- The outcomes of the candidates, in the order of the iteration. -/
def outcomesFor (D : ToolRetrieval) (order : SetOrder) (request : ToolDiscoveryRequest)
    (matched : List SemanticMatch) : Except RetrievalFailure (List CandidateOutcome) :=
  (order.iterate (D.candidateNames request matched)).mapM (D.candidateOutcome request matched)

section Outcomes

variable {outcomes : List CandidateOutcome}

theorem mem_iterate : name ∈ order.iterate (D.candidateNames request matched) ↔
    name ∈ (semanticByName matched).keys ∨ ∃ document ∈ D.documents, document.name = name ∧
      matchesFilters document request.filters ∧ D.lexicalOrMetadataCandidate request document := by
  rw [(order.perm _).mem_iff, candidateNames, List.mem_dedup, List.mem_append]
  refine or_congr_right ?_
  simp only [List.mem_map, List.mem_filter, Bool.and_eq_true]
  exact ⟨fun ⟨document, ⟨hmem, hcandidate⟩, hname⟩ => ⟨document, hmem, hname, hcandidate⟩,
    fun ⟨document, hmem, hname, hcandidate⟩ => ⟨document, ⟨hmem, hcandidate⟩, hname⟩⟩

/-- A ranked result is that of a document which is a candidate and ranks. -/
theorem mem_ranked (h : D.outcomesFor order request matched = .ok outcomes)
    {result : ToolDiscoveryResult} :
    result ∈ outcomes.filterMap CandidateOutcome.result? ↔
      ∃ document ∈ D.documents,
        document.name ∈ order.iterate (D.candidateNames request matched) ∧
          D.Ranks request document (scoreOf matched document.name) ∧
          result = D.resultFor request document (scoreOf matched document.name) := by
  have hall := Traversal.mapM_eq_ok h
  have hresult : ∀ outcome : CandidateOutcome, outcome.result? = some result ↔
      outcome = .ranked result := by
    intro outcome
    cases outcome <;> simp [CandidateOutcome.result?]
  simp only [List.mem_filterMap, hresult, exists_eq_right]
  constructor
  · intro hmem
    obtain ⟨name, hname, houtcome⟩ := Traversal.mem_of_forall₂ hall hmem
    by_cases hknown : ∃ document ∈ D.documents, document.name = name
    · obtain ⟨document, hdocument, rfl⟩ := hknown
      obtain ⟨hranks, heq⟩ :=
        ((candidateOutcome_of_mem request matched hdocument).2 result).mp houtcome
      exact ⟨document, hdocument, hname, hranks, heq⟩
    · push Not at hknown
      rw [candidateOutcome_eq_error.mpr ⟨rfl, hknown⟩] at houtcome
      cases houtcome
  · rintro ⟨document, hdocument, hname, hranks, heq⟩
    obtain ⟨outcome, hmem, houtcome⟩ := Traversal.exists_of_forall₂ hall hname
    have hranked := ((candidateOutcome_of_mem request matched hdocument).2 result).mpr ⟨hranks, heq⟩
    cases houtcome.symm.trans hranked
    exact hmem

/-- The ranked results are of distinct tools. -/
theorem nodup_ranked (h : D.outcomesFor order request matched = .ok outcomes) :
    ((outcomes.filterMap CandidateOutcome.result?).map ToolDiscoveryResult.name).Nodup := by
  have hnodup : (order.iterate (D.candidateNames request matched)).Nodup :=
    (order.perm _).nodup_iff.mpr (List.nodup_dedup _)
  refine hnodup.sublist ?_
  have hall := Traversal.mapM_eq_ok h
  revert hall
  generalize order.iterate (D.candidateNames request matched) = names
  intro hall
  clear h hnodup
  induction hall with
  | nil => exact .slnil
  | @cons name outcome names outcomes houtcome _ ih =>
      cases outcome with
      | belowMinimum => exact ih.cons _
      | unauthorized => exact ih.cons _
      | ranked result =>
          have hname : result.name = name := by
            by_cases hknown : ∃ document ∈ D.documents, document.name = name
            · obtain ⟨document, hdocument, rfl⟩ := hknown
              rw [(((candidateOutcome_of_mem request matched hdocument).2 result).mp houtcome).2]
              rfl
            · push Not at hknown
              rw [candidateOutcome_eq_error.mpr ⟨rfl, hknown⟩] at houtcome
              cases houtcome
          have hresult : (CandidateOutcome.ranked result).result? = some result := rfl
          rw [List.filterMap_cons_some hresult, List.map_cons, hname]
          exact ih.cons_cons _

end Outcomes

/-! ## Selection -/

/-- Reranking changes scores and explanations only. -/
theorem rerankResults_perm (D : ToolRetrieval) (request : ToolDiscoveryRequest)
    (results : List ToolDiscoveryResult) :
    (D.rerankResults request results results.length).Perm
      (results.map (D.withRerankScore request)) := by
  rw [rerankResults, List.take_of_length_le (by rw [length_sortedBy, List.length_map])]
  exact sortedBy_perm ..

/-- The pool that is completed: the best ranked results, reranked. -/
theorem selectRanked_eq (D : ToolRetrieval) (request : ToolDiscoveryRequest)
    (ranked : List ToolDiscoveryResult) :
    ∃ shortlist pool : List ToolDiscoveryResult,
      shortlist.Sublist (sortedBy rankKey ranked) ∧
      (ranked.length ≤ request.topK → shortlist = sortedBy rankKey ranked) ∧
      pool.Perm (shortlist.map (D.withRerankScore request)) ∧
      D.selectRanked request ranked = completeWorkflowCoverage D.runtime
        (extractRetrievalIntent D.runtime request.query) pool request.topK := by
  set firstStage := sortedBy rankKey ranked with hfirst
  set size := min firstStage.length (max (request.topK * 2) 12) with hsize
  have hlength : (firstStage.take size).length = size := by
    rw [List.length_take]
    omega
  refine ⟨firstStage.take size, D.rerankResults request (firstStage.take size) size,
    List.take_sublist .., fun hranked => ?_, ?_, rfl⟩
  · rw [List.take_of_length_le]
    have hcount : firstStage.length = ranked.length := length_sortedBy
    omega
  · have hperm := D.rerankResults_perm request (firstStage.take size)
    rwa [hlength] at hperm

/-- What is selected of ranked results of distinct tools. -/
theorem selectRanked_sound (D : ToolRetrieval) (request : ToolDiscoveryRequest)
    {ranked : List ToolDiscoveryResult}
    (hnodup : (ranked.map ToolDiscoveryResult.name).Nodup) :
    (D.selectRanked request ranked).length ≤ request.topK ∧
      ((D.selectRanked request ranked).map ToolDiscoveryResult.name).Nodup ∧
      (∀ result ∈ D.selectRanked request ranked, ∃ found ∈ ranked, result.tool = found.tool) ∧
      (ranked.length ≤ request.topK →
        ∀ found ∈ ranked, ∃ result ∈ D.selectRanked request ranked, result.tool = found.tool) := by
  obtain ⟨shortlist, pool, hsublist, hwhole, hperm, hselect⟩ := D.selectRanked_eq request ranked
  -- reranking changes no name, so the pool has the names of the shortlist
  have htools : (pool.map ToolDiscoveryResult.name).Perm
      (shortlist.map ToolDiscoveryResult.name) := by
    have hmap := hperm.map ToolDiscoveryResult.name
    rwa [List.map_map] at hmap
  have hpool : (pool.map ToolDiscoveryResult.name).Nodup := by
    refine htools.nodup_iff.mpr (List.Nodup.sublist (hsublist.map _) ?_)
    exact ((sortedBy_perm rankKey ranked).map _).nodup_iff.mpr hnodup
  obtain ⟨s, hs, hfinal⟩ := completeWorkflowCoverage_perm D.runtime
    (extractRetrievalIntent D.runtime request.query) request.topK hpool
  rw [hselect]
  refine ⟨?_, ?_, ?_, ?_⟩
  · rw [hfinal.length_eq]
    exact hs.length_le
  · exact (hfinal.map _).nodup_iff.mpr hs.nodup
  · intro result hresult
    have hmem := hperm.subset (hs.subset (hfinal.subset hresult))
    obtain ⟨found, hfound, rfl⟩ := List.mem_map.mp hmem
    exact ⟨found, mem_sortedBy.mp (hsublist.subset hfound), rfl⟩
  · intro hlength found hfound
    -- nothing was cut off, so the completed selection is the whole pool
    have hpoolLength : pool.length ≤ request.topK := by
      rw [hperm.length_eq, List.length_map, hwhole hlength, length_sortedBy]
      exact hlength
    have hall := completeWorkflowCoverage_whole D.runtime
      (extractRetrievalIntent D.runtime request.query) hpoolLength
    have hmem : found ∈ shortlist := by
      rw [hwhole hlength]
      exact mem_sortedBy.mpr hfound
    exact ⟨D.withRerankScore request found,
      hall.symm.subset (hperm.symm.subset (List.mem_map_of_mem hmem)), rfl⟩

/-! ## Retrievals -/

theorem clampTopK_le (topK : ℤ) : (clampTopK topK : ℤ) ≤ max topK 1 := by
  unfold clampTopK
  omega

/-- The names with a semantic score are those of the matches. -/
theorem mem_keys_semanticByName :
    name ∈ (semanticByName matched).keys ↔ ∃ item ∈ matched, item.toolName = name := by
  rw [semanticByName, Dict.mem_keys_foldl_set]
  simp [Dict.keys, Dict.empty]

theorem mem_registry_keys_iff :
    name ∈ D.registry.keys ↔ ∃ document ∈ D.documents, document.name = name := by
  have hbuilt := Traversal.mapM_eq_ok D.built
  have hsorted := List.mergeSort_perm D.registry.entries fun a b => decide (a.1 ≤ b.1)
  constructor
  · intro hname
    obtain ⟨entry, hentry, rfl⟩ := List.mem_map.mp hname
    obtain ⟨document, hdocument, hbuild⟩ :=
      Traversal.exists_of_forall₂ hbuilt (hsorted.mem_iff.mpr hentry)
    exact ⟨document, hdocument, documentFromMetadata_name hbuild⟩
  · rintro ⟨document, hdocument, rfl⟩
    obtain ⟨metadata, hmetadata, -⟩ := mem_documents.mp hdocument
    by_contra hmissing
    rw [Dict.get?_eq_none_iff.mpr hmissing] at hmetadata
    cases hmetadata

/-- A document that ranks and passes the filters is of a usable tool. -/
theorem usable_of_ranks (hdocument : document ∈ D.documents) {semanticScore : PyFloat}
    (hranks : D.Ranks request document semanticScore)
    (hfilters : matchesFilters document request.filters) : D.Usable request document := by
  obtain ⟨metadata, hmetadata, hbuild⟩ := mem_documents.mp hdocument
  refine ⟨⟨metadata, hmetadata, hbuild, ?_⟩, hranks.2, hfilters⟩
  rw [← (ToolDiscoveryService.of_documentFromMetadata hbuild).1]
  have hauthorized := hranks.2
  rw [ToolDiscoveryService.roleAuthorized] at hauthorized
  by_contra hdisabled
  rw [if_pos hdisabled] at hauthorized
  cases hauthorized

/-- The matches come from the index or, when it is unavailable, from the one in memory. -/
theorem retrieve_eq (D : ToolRetrieval) (order : SetOrder) (query role : String) (topK : ℤ)
    (minimumScore : Option PyFloat) (filters : ToolDiscoveryFilters) :
    ∃ backend, D.retrieve order query role topK minimumScore filters =
      D.retrieveFrom order (D.requestOf query role topK minimumScore filters)
        (D.matchesFor (D.requestOf query role topK minimumScore filters)) backend := by
  set request := D.requestOf query role topK minimumScore filters with hrequest
  -- what fails after the search is never the index, so no second search is made
  have hnever : ∀ matched backend,
      D.retrieveFrom order request matched backend ≠ .error .indexUnavailable := by
    intro matched backend h
    rw [retrieveFrom] at h
    cases houtcomes : (order.iterate (D.candidateNames request matched)).mapM
        (D.candidateOutcome request matched) with
    | ok outcomes =>
        rw [houtcomes] at h
        cases h
    | error e =>
        rw [houtcomes] at h
        cases h
        obtain ⟨name, -, herror⟩ := Traversal.mapM_eq_error houtcomes
        exact absurd (candidateOutcome_eq_error.mp herror).1 (by simp)
  unfold retrieve matchesFor
  dsimp only
  rw [← hrequest]
  cases hsearch : D.index.search request.query D.documents
      (max (request.topK * 4) (request.topK + 12)) request.filters with
  | none =>
      refine ⟨"fallback:" ++ D.fallbackIndex.backendName, ?_⟩
      rw [retrieveWithIndex, hsearch]
      rfl
  | some matched =>
      refine ⟨D.index.backendName, ?_⟩
      rw [retrieveWithIndex, hsearch, Option.getD_some]
      dsimp only
      cases hfrom : D.retrieveFrom order request matched D.index.backendName with
      | ok response => rfl
      | error e =>
          cases e with
          | indexUnavailable => exact absurd hfrom (hnever matched _)
          | keyError key => rfl

theorem mem_iterate_of_match {item : SemanticMatch} (hitem : item ∈ matched) :
    item.toolName ∈ order.iterate (D.candidateNames request matched) :=
  mem_iterate.mpr (.inl (mem_keys_semanticByName.mpr ⟨item, hitem, rfl⟩))

/-- A retrieval fails exactly where a match names a tool that is not registered. -/
theorem outcomesFor_eq_error_iff (D : ToolRetrieval) (order : SetOrder)
    (request : ToolDiscoveryRequest) (matched : List SemanticMatch) :
    (∃ key, D.outcomesFor order request matched = .error (.keyError key)) ↔
      ∃ item ∈ matched, item.toolName ∉ D.registry.keys := by
  constructor
  · rintro ⟨key, h⟩
    obtain ⟨name, hname, herror⟩ := Traversal.mapM_eq_error h
    have hunknown := (candidateOutcome_eq_error.mp herror).2
    rcases mem_iterate.mp hname with hmatched | ⟨document, hdocument, heq, -⟩
    · obtain ⟨item, hitem, rfl⟩ := mem_keys_semanticByName.mp hmatched
      refine ⟨item, hitem, fun hregistered => ?_⟩
      obtain ⟨document, hdocument, heq⟩ := mem_registry_keys_iff.mp hregistered
      exact hunknown document hdocument heq
    · exact absurd heq (hunknown document hdocument)
  · rintro ⟨item, hitem, hunregistered⟩
    have hunknown : ∀ document ∈ D.documents, document.name ≠ item.toolName :=
      fun document hdocument heq =>
        hunregistered (mem_registry_keys_iff.mpr ⟨document, hdocument, heq⟩)
    cases h : D.outcomesFor order request matched with
    | ok outcomes =>
        obtain ⟨outcome, -, houtcome⟩ :=
          Traversal.exists_of_forall₂ (Traversal.mapM_eq_ok h) (mem_iterate_of_match hitem)
        rw [candidateOutcome_eq_error.mpr ⟨rfl, hunknown⟩] at houtcome
        cases houtcome
    | error e =>
        obtain ⟨name, -, herror⟩ := Traversal.mapM_eq_error h
        exact ⟨name, by rw [(candidateOutcome_eq_error.mp herror).1]⟩

/-- The response that is made of the outcomes. -/
def responseOf (D : ToolRetrieval) (request : ToolDiscoveryRequest) (backend : String)
    (outcomes : List CandidateOutcome) : ToolDiscoveryResponse where
  query := request.query
  role := request.role
  rankedTools := D.selectRanked request (outcomes.filterMap CandidateOutcome.result?)
  filteredOutUnauthorized := outcomes.countP CandidateOutcome.isUnauthorized
  indexBackend := backend

theorem rankedTools_responseOf (backend : String) (outcomes : List CandidateOutcome) :
    (D.responseOf request backend outcomes).rankedTools =
      D.selectRanked request (outcomes.filterMap CandidateOutcome.result?) := by
  rw [responseOf]

theorem retrieveFrom_eq (backend : String) :
    D.retrieveFrom order request matched backend =
      (D.outcomesFor order request matched).map (D.responseOf request backend) := by
  rw [retrieveFrom, ← outcomesFor]
  cases D.outcomesFor order request matched <;> rfl

/-- With a current index the ranked results are of usable tools. -/
theorem usable_of_mem_ranked {outcomes : List CandidateOutcome}
    (h : D.outcomesFor order request (D.matchesFor request) = .ok outcomes)
    (hcurrent : D.IndexCurrent request) {result : ToolDiscoveryResult}
    (hresult : result ∈ outcomes.filterMap CandidateOutcome.result?) :
    D.Usable request result.tool := by
  obtain ⟨document, hdocument, hname, hranks, rfl⟩ := (mem_ranked h).mp hresult
  refine usable_of_ranks hdocument hranks ?_
  cases hscore : (semanticByName (D.matchesFor request)).get? document.name with
  | some semanticScore =>
      rw [scoreOf, hscore, Option.getD_some] at hranks
      obtain ⟨found, hfound, heq, hfilters⟩ := hcurrent _ _ hscore
      have hsame : found = document :=
        List.inj_on_of_nodup_map D.nodup_documents hfound hdocument heq
      exact hsame ▸ hfilters (hsame ▸ hranks)
  | none =>
      -- not a match of the index, so one of the filtered documents
      rcases mem_iterate.mp hname with hmatched | ⟨found, hfound, heq, hfilters, -⟩
      · exact absurd hmatched (Dict.get?_eq_none_iff.mp hscore)
      · exact List.inj_on_of_nodup_map D.nodup_documents hfound hdocument heq ▸ hfilters

/-- Each ranked result is of a tool of its own. -/
theorem length_ranked_le {outcomes : List CandidateOutcome}
    (h : D.outcomesFor order request matched = .ok outcomes) :
    (outcomes.filterMap CandidateOutcome.result?).length ≤ D.registry.size := by
  have hsubset : (outcomes.filterMap CandidateOutcome.result?).map ToolDiscoveryResult.name ⊆
      D.registry.keys := by
    intro name hname
    obtain ⟨result, hresult, rfl⟩ := List.mem_map.mp hname
    obtain ⟨document, hdocument, -, -, rfl⟩ := (mem_ranked h).mp hresult
    exact mem_registry_keys_iff.mpr ⟨document, hdocument, rfl⟩
  have hlength := (List.subperm_of_subset (nodup_ranked h) hsubset).length_le
  rwa [List.length_map, ← Dict.size_eq_length_keys] at hlength

/-- With a current index a retrieval returns distinct usable tools. -/
theorem retrieveFrom_usable (hcurrent : D.IndexCurrent request) (order : SetOrder)
    (backend : String) :
    ∃ response, D.retrieveFrom order request (D.matchesFor request) backend = .ok response ∧
      response.rankedTools.length ≤ request.topK ∧
      (response.rankedTools.map ToolDiscoveryResult.name).Nodup ∧
      ∀ result ∈ response.rankedTools, D.Usable request result.tool := by
  cases h : D.outcomesFor order request (D.matchesFor request) with
  | error e =>
      obtain ⟨name, hname, hfailed⟩ := Traversal.mapM_eq_error h
      obtain ⟨item, hitem, hunregistered⟩ := (D.outcomesFor_eq_error_iff order request _).mp
        ⟨name, by rw [h, (candidateOutcome_eq_error.mp hfailed).1]⟩
      obtain ⟨semanticScore, hscore⟩ := Option.ne_none_iff_exists'.mp fun hnone =>
        Dict.get?_eq_none_iff.mp hnone (mem_keys_semanticByName.mpr ⟨item, hitem, rfl⟩)
      obtain ⟨document, hdocument, heq, -⟩ := hcurrent _ _ hscore
      exact absurd (mem_registry_keys_iff.mpr ⟨document, hdocument, heq⟩) hunregistered
  | ok outcomes =>
      obtain ⟨hlength, hnodup, hfrom, -⟩ :=
        D.selectRanked_sound request (nodup_ranked h)
      refine ⟨D.responseOf request backend outcomes, by rw [retrieveFrom_eq, h]; rfl, ?_⟩
      rw [rankedTools_responseOf]
      refine ⟨hlength, hnodup, fun result hresult => ?_⟩
      obtain ⟨found, hfound, htool⟩ := hfrom result hresult
      rw [htool]
      exact usable_of_mem_ranked h hcurrent hfound

/-- When nothing is cut, the filters hold of what is returned with a current index only. -/
theorem current_of_retrieveFrom {backend : String} {response : ToolDiscoveryResponse}
    (hsize : D.registry.size ≤ request.topK)
    (hresponse : D.retrieveFrom order request (D.matchesFor request) backend = .ok response)
    (hfilters : ∀ result ∈ response.rankedTools, matchesFilters result.tool request.filters) :
    D.IndexCurrent request := by
  rw [retrieveFrom_eq] at hresponse
  cases h : D.outcomesFor order request (D.matchesFor request) with
  | error e =>
      rw [h] at hresponse
      cases hresponse
  | ok outcomes =>
      rw [h] at hresponse
      have hselected := Except.ok.inj hresponse
      rw [← hselected, rankedTools_responseOf] at hfilters
      obtain ⟨-, -, -, hwhole⟩ :=
        D.selectRanked_sound request (nodup_ranked h)
      intro name semanticScore hscore
      -- a score is read from a match, whose tool is registered, or the retrieval would have failed
      have hkey : name ∈ (semanticByName (D.matchesFor request)).keys := by
        by_contra hmissing
        rw [Dict.get?_eq_none_iff.mpr hmissing] at hscore
        cases hscore
      have hregistered : name ∈ D.registry.keys := by
        by_contra hunregistered
        obtain ⟨item, hitem, rfl⟩ := mem_keys_semanticByName.mp hkey
        obtain ⟨key, hfailed⟩ :=
          (D.outcomesFor_eq_error_iff order request _).mpr ⟨item, hitem, hunregistered⟩
        rw [h] at hfailed
        cases hfailed
      obtain ⟨document, hdocument, rfl⟩ := mem_registry_keys_iff.mp hregistered
      refine ⟨document, hdocument, rfl, fun hranks => ?_⟩
      have hsemantic : scoreOf (D.matchesFor request) document.name = semanticScore := by
        rw [scoreOf, hscore, Option.getD_some]
      have hranked := (mem_ranked h).mpr ⟨document, hdocument, mem_iterate.mpr (.inl hkey),
        by rw [hsemantic]; exact hranks, rfl⟩
      -- with room for the whole registry every ranked tool is returned
      obtain ⟨result, hresult, htool⟩ := hwhole ((length_ranked_le h).trans hsize) _ hranked
      have hresultFilters := hfilters result hresult
      rw [htool] at hresultFilters
      exact hresultFilters

/-- A retrieval fails exactly where a match of the index names a tool that is not registered.  With
a current index it returns distinct usable tools, at most `top_k` of them; and where `top_k` is no
less than the number of tools, so that nothing is cut, with a current index only. -/
theorem retrieve_serves_iff (D : ToolRetrieval) (order : SetOrder) (query role : String)
    (topK : ℤ) (minimumScore : Option PyFloat) (filters : ToolDiscoveryFilters) :
    ((∃ key, D.retrieve order query role topK minimumScore filters = .error (.keyError key)) ↔
        ∃ item ∈ D.matchesFor (D.requestOf query role topK minimumScore filters),
          item.toolName ∉ D.registry.keys) ∧
      (D.IndexCurrent (D.requestOf query role topK minimumScore filters) →
        ∃ response, D.retrieve order query role topK minimumScore filters = .ok response ∧
          D.Serves (D.requestOf query role topK minimumScore filters) topK response) ∧
      (D.registry.size ≤ clampTopK topK →
        ((∃ response, D.retrieve order query role topK minimumScore filters = .ok response ∧
            D.Serves (D.requestOf query role topK minimumScore filters) topK response) ↔
          D.IndexCurrent (D.requestOf query role topK minimumScore filters))) := by
  obtain ⟨backend, hretrieve⟩ := D.retrieve_eq order query role topK minimumScore filters
  have htopK : (D.requestOf query role topK minimumScore filters).topK = clampTopK topK := rfl
  rw [hretrieve]
  generalize D.requestOf query role topK minimumScore filters = request at htopK ⊢
  have hserves : D.IndexCurrent request →
      ∃ response, D.retrieveFrom order request (D.matchesFor request) backend = .ok response ∧
        D.Serves request topK response := by
    intro hcurrent
    obtain ⟨response, hresponse, hlength, hnodup, husable⟩ :=
      retrieveFrom_usable hcurrent order backend
    have hclamped := clampTopK_le topK
    rw [← htopK] at hclamped
    have hbound : (response.rankedTools.length : ℤ) ≤ max topK 1 := by omega
    exact ⟨response, hresponse, hbound, hnodup, husable⟩
  refine ⟨?_, hserves, fun hsize => ⟨?_, hserves⟩⟩
  · rw [← D.outcomesFor_eq_error_iff order, retrieveFrom_eq]
    cases D.outcomesFor order request (D.matchesFor request) <;> simp [Except.map]
  · rintro ⟨response, hresponse, hserved⟩
    rw [← htopK] at hsize
    exact current_of_retrieveFrom hsize hresponse fun result hresult =>
      (hserved.usable result hresult).filtered

/-! ## The index in memory -/

/-- The documents that the index in memory compares pass the filters. -/
theorem mem_filterDocuments {documents : List ToolDocument} {filters : ToolDiscoveryFilters} :
    document ∈ filterDocuments documents filters ↔
      document ∈ documents ∧ matchesFilters document filters := by
  unfold filterDocuments matchesFilters
  by_cases hservers : filters.allowedServers = ∅
  · by_cases hcategories : filters.allowedCategories = ∅
    · simp [hservers, hcategories]
    · simp [hservers, hcategories]
  · by_cases hcategories : filters.allowedCategories = ∅
    · simp [hservers, hcategories]
    · simp only [hservers, hcategories, if_false, List.mem_filter, ne_eq, not_false_eq_true,
        true_and]
      by_cases hserver : document.server ∈ filters.allowedServers <;> simp [hserver]

/-- The index in memory is always current, as the one that takes over for an unavailable index. -/
theorem indexCurrent_of_inMemory (request : ToolDiscoveryRequest)
    (h : D.index = D.fallbackIndex ∨ ∀ query documents topK filters,
      D.index.search query documents topK filters = none) : D.IndexCurrent request := by
  have hmatches : D.matchesFor request = (D.fallbackIndex.search request.query D.documents
      (max (request.topK * 4) (request.topK + 12)) request.filters).getD [] := by
    rw [matchesFor]
    dsimp only
    rcases h with heq | hnone
    · rw [heq]
      rfl
    · rw [hnone, Option.getD_none]
  intro name semanticScore hscore
  have hkey : name ∈ (semanticByName (D.matchesFor request)).keys := by
    by_contra hmissing
    rw [Dict.get?_eq_none_iff.mpr hmissing] at hscore
    cases hscore
  obtain ⟨item, hitem, rfl⟩ := mem_keys_semanticByName.mp hkey
  rw [hmatches, fallbackIndex, inMemoryToolIndex, Option.getD_some] at hitem
  have hmapped := mem_sortedBy.mp (List.mem_of_mem_take hitem)
  obtain ⟨document, hdocument, rfl⟩ := List.mem_map.mp hmapped
  obtain ⟨hmem, hfilters⟩ := mem_filterDocuments.mp hdocument
  exact ⟨document, hmem, rfl, fun _ => hfilters⟩

/-- With the index in memory a retrieval never fails and returns usable tools only. -/
theorem inMemory_serves (h : D.index = D.fallbackIndex) (order : SetOrder) (backend : String) :
    ∃ response, D.retrieveFrom order request (D.matchesFor request) backend = .ok response ∧
      ∀ result ∈ response.rankedTools, D.Usable request result.tool := by
  obtain ⟨response, hresponse, -, -, husable⟩ :=
    retrieveFrom_usable (indexCurrent_of_inMemory request (.inl h)) order backend
  exact ⟨response, hresponse, husable⟩

/-! ## A stale index -/

/-- A tool of a continuous integration server. -/
def buildStatusTool : CatalogedTool where
  toolName := "get_build_status"
  domain := "cicd"
  riskLevel := .readOnly
  requiredPermission := "devices:read"
  server := "repository-mcp"
  description := "Get the status of a build."
  category := "cicd"

/-- A service that computes no embeddings. -/
def plainDiscovery : ToolDiscoveryService where
  inputSchemas := []
  embed _ := []
  runtime := .plain

/-- Scores for the small example. -/
def plainScoring : ToolScoring where
  lexicalScore _ _ := .finite 0
  metadataScore _ _ := .finite 0
  capabilityScore _ _ := .finite 0
  combinedScore _ _ semanticScore _ := (.finite 0, semanticScore)
  rerankScore _ _ result := result.combinedScore
  cosineSimilarity _ _ := .finite 0
  round x := x

/-- An index that still holds a tool that has been removed from the registry. -/
def staleIndex : ToolEmbeddingIndex where
  backendName := "opensearch"
  search _ _ _ _ := some [⟨"get_pipeline_report", .finite 1⟩]

def buildStatusRegistry : Dict String CatalogedTool :=
  Dict.empty.set "get_build_status" buildStatusTool

/-- The document of the tool. -/
def buildStatusDocument : ToolDocument where
  name := "get_build_status"
  description := "Get the status of a build."
  server := "repository-mcp"
  category := "cicd"
  riskLevel := "READ_ONLY"
  requiredPermission := "devices:read"
  requiredRoles := ["VIEWER", "ENGINEER", "OPERATOR", "ADMIN"]
  inputSchema := defaultInputSchema buildStatusTool.toToolMetadata
  tags := []
  executable := true
  enabled := true

theorem buildStatus_built : (buildStatusRegistry.entries.mergeSort fun a b =>
    decide (a.1 ≤ b.1)).mapM (fun entry => plainDiscovery.documentFromMetadata entry.1 entry.2) =
      .ok [buildStatusDocument] := by
  have hentries : buildStatusRegistry.entries = [("get_build_status", buildStatusTool)] := rfl
  rw [hentries, List.mergeSort_singleton]
  rfl

/-- A service with one tool and a stale index. -/
def staleRetrieval : ToolRetrieval where
  toToolDiscoveryService := plainDiscovery
  registry := buildStatusRegistry
  documents := [buildStatusDocument]
  built := buildStatus_built
  scoring := plainScoring
  index := staleIndex
  minimumScore := .finite 0

/-- A retrieval fails when the index returns a tool that is no longer registered. -/
theorem staleIndex_fails :
    ¬ ∀ (D : ToolRetrieval) (order : SetOrder) (query role : String) (topK : ℤ)
      (minimumScore : Option PyFloat) (filters : ToolDiscoveryFilters), 1 ≤ topK →
        ∃ response, D.retrieve order query role topK minimumScore filters = .ok response ∧
          D.Serves (D.requestOf query role topK minimumScore filters) topK response := by
  intro hclaim
  obtain ⟨response, hresponse, -⟩ :=
    hclaim staleRetrieval .inserted "build report" "ENGINEER" 8 none {} (by decide)
  obtain ⟨backend, hretrieve⟩ :=
    staleRetrieval.retrieve_eq .inserted "build report" "ENGINEER" 8 none {}
  obtain ⟨key, hfailed⟩ := (staleRetrieval.outcomesFor_eq_error_iff .inserted
    (staleRetrieval.requestOf "build report" "ENGINEER" 8 none {})
    [⟨"get_pipeline_report", .finite 1⟩]).mpr
      ⟨⟨"get_pipeline_report", .finite 1⟩, List.mem_singleton_self _, by decide⟩
  rw [hretrieve, retrieveFrom_eq] at hresponse
  have hmatches : staleRetrieval.matchesFor
      (staleRetrieval.requestOf "build report" "ENGINEER" 8 none {}) =
        [⟨"get_pipeline_report", .finite 1⟩] := rfl
  rw [hmatches, hfailed] at hresponse
  cases hresponse

end ToolRetrieval

end McpOps
