import McpOps.Knowledge.SearchSafety

/-!
# The order of a search

The candidates of a search are a `set`, whose order of iteration is not fixed.  The results are
sorted by score, staleness and document, which leaves the chunks of one document that share a score
in the order in which they come.  What is returned depends on it where such a tie is not decided by
other results: by two better ones of the document, or by `top_k` better ones.

## Strategy

A stable sort followed by a selection that only looks at places is the subject of the library on
rankings.  Here the two modes of the search are brought to it.

* Without reranking the best ranked results are selected under the limit per document
  (`selectRanked_eq_best`), so all ties have to be decided (`selectsSame_iff_of_not_hybrid`).
* With reranking a pool of the best ones is sorted again, by a key that tells chunks apart
  (`eq_of_rerankRank_eq`).  So only the ties at the end of the pool matter
  (`selectsSame_iff_of_hybrid`).

For one order of iteration and another the ranked results are the same up to order, and every order
of them comes about, so `orderFree_iff_of_known` speaks about all orders at once.  The order of the
chunks enters through the lookup by id (`chunkById_withChunks`) and through the index
(`indexOrderFree`).
-/

namespace McpOps

theorem listed_perm (listed names : List String) :
    (if listed.isPerm names then listed else names).Perm names := by
  split
  · rename_i hperm
    exact List.isPerm_iff.mp hperm
  · exact .refl _

/-- The order in which these names are listed, for the set of them. -/
def SetOrder.listed (listed : List String) : SetOrder where
  iterate names := if listed.isPerm names then listed else names
  perm := listed_perm listed

theorem SetOrder.iterate_listed {listed names : List String} (h : listed.Perm names) :
    (SetOrder.listed listed).iterate names = listed := if_pos (List.isPerm_iff.mpr h)

namespace EngineeringRagService

/-! ## The ranked results -/

/-- The service with its chunks stored in another order. -/
def withChunks (D : EngineeringRagService) (chunks : List KnowledgeChunk) : EngineeringRagService :=
  { D with chunks }

/-- The list of results, if the search does not fail. -/
def resultsOf (D : EngineeringRagService) (order : SetOrder)
    (request : EngineeringKnowledgeSearchRequest) : Option (List KnowledgeSearchResult) :=
  (D.search order request).toOption.map EngineeringKnowledgeSearchResponse.results

/-- The results are the same for every order of iteration and every order of the chunks. -/
def OrderFree (D : EngineeringRagService) (request : EngineeringKnowledgeSearchRequest) : Prop :=
  ∀ (order order' : SetOrder) (chunks : List KnowledgeChunk), chunks.Perm D.chunks →
    (D.withChunks chunks).resultsOf order' request = D.resultsOf order request

/-- The result of a candidate, if it reaches the minimum. -/
def rankedResult (D : EngineeringRagService) (request : EngineeringKnowledgeSearchRequest)
    (chunkId : String) : Option KnowledgeSearchResult :=
  (D.candidateResult request (D.matchesFor request) chunkId).toOption.join

/-- The candidates for the matches of the index. -/
def candidates (D : EngineeringRagService) (request : EngineeringKnowledgeSearchRequest) :
    List String := D.candidateIds request (D.matchesFor request)

/-- The results of the candidates that reach the minimum. -/
def rankedResults (D : EngineeringRagService) (request : EngineeringKnowledgeSearchRequest) :
    List KnowledgeSearchResult := (D.candidates request).filterMap (D.rankedResult request)

/-- The place of a result in the first ranking. -/
def searchRank (result : KnowledgeSearchResult) : List (ℤ ×ₗ ℚ) ×ₗ List String :=
  (searchKey result).rank

/-- The place of a result after reranking. -/
def rerankRank (D : EngineeringRagService) (request : EngineeringKnowledgeSearchRequest)
    (result : KnowledgeSearchResult) : List (ℤ ×ₗ ℚ) ×ₗ List String :=
  (rerankKey (D.withRerankScore request result)).rank

/-- The size of the pool that is reranked. -/
def rerankPoolSize (request : EngineeringKnowledgeSearchRequest) : ℕ :=
  max (clampedTopK request * 4) (clampedTopK request + 20)

/-- No place is left to these results by the better ones: there are two of the same document, or
`top_k` that are selected. -/
def Decided (request : EngineeringKnowledgeSearchRequest) (better : List KnowledgeSearchResult)
    (result : KnowledgeSearchResult) : Prop :=
  Ranking.Crowded KnowledgeSearchResult.citationId 2 (clampedTopK request) better result

/-- Ties that reach the selection are decided by better results.  In the hybrid mode these are ties
of the first ranking at the end of the pool; in the others all ties are. -/
def TiesDecided (D : EngineeringRagService) (request : EngineeringKnowledgeSearchRequest) : Prop :=
  let ranked := D.rankedResults request
  if request.mode = .hybrid then
    ∀ result ∈ ranked, Ranking.CutAt searchRank (rerankPoolSize request) ranked result →
      Decided request (Ranking.better (D.rerankRank request)
        (Ranking.better searchRank ranked result) result) result
  else
    ∀ result ∈ ranked, ∀ other ∈ ranked, result ≠ other → searchRank result = searchRank other →
      Decided request (Ranking.better searchRank ranked result) result

/-- The scores are numbers. -/
structure Numeric (D : EngineeringRagService) (request : EngineeringKnowledgeSearchRequest) :
    Prop where
  combined : ∀ result ∈ D.rankedResults request, result.combinedScore ≠ .nan
  reranked : ∀ result ∈ D.rankedResults request,
    (D.withRerankScore request result).combinedScore ≠ .nan

/-- The matches do not depend on the order of the chunks that the index is given. -/
def IndexOrderFree (D : EngineeringRagService) (request : EngineeringKnowledgeSearchRequest) :
    Prop :=
  ∀ chunks : List KnowledgeChunk, chunks.Perm D.chunks →
    (D.withChunks chunks).matchesFor request = D.matchesFor request

variable {D : EngineeringRagService} {order : SetOrder}
  {request : EngineeringKnowledgeSearchRequest} {result : KnowledgeSearchResult}
  {chunkId : String}

theorem rankedResult_eq_some : D.rankedResult request chunkId = some result ↔
    D.candidateResult request (D.matchesFor request) chunkId = .ok (some result) := by
  unfold rankedResult
  cases D.candidateResult request (D.matchesFor request) chunkId <;> simp [Except.toOption]

/-- The result of a candidate is that of its chunk. -/
theorem chunkId_of_rankedResult (h : D.rankedResult request chunkId = some result) :
    result.chunk.chunkId = chunkId := by
  obtain ⟨chunk, hchunk, -, rfl⟩ := candidateResult_eq_some.mp (rankedResult_eq_some.mp h)
  exact (of_chunkById hchunk).2

theorem rankedResult_inj {chunkId' : String} (h : D.rankedResult request chunkId = some result)
    (h' : D.rankedResult request chunkId' = some result) : chunkId = chunkId' :=
  (chunkId_of_rankedResult h).symm.trans (chunkId_of_rankedResult h')

/-- The ranked results are determined by their chunks. -/
theorem eq_of_mem_rankedResults {result' : KnowledgeSearchResult}
    (h : result ∈ D.rankedResults request) (h' : result' ∈ D.rankedResults request)
    (hid : result.chunk.chunkId = result'.chunk.chunkId) : result = result' := by
  obtain ⟨chunkId, -, hresult⟩ := List.mem_filterMap.mp h
  obtain ⟨chunkId', -, hresult'⟩ := List.mem_filterMap.mp h'
  rw [chunkId_of_rankedResult hresult, chunkId_of_rankedResult hresult'] at hid
  rw [hid] at hresult
  exact Option.some.inj (hresult.symm.trans hresult')

theorem nodup_candidates (D : EngineeringRagService) (request : EngineeringKnowledgeSearchRequest) :
    (D.candidates request).Nodup := List.nodup_dedup _

theorem nodup_rankedResults (D : EngineeringRagService)
    (request : EngineeringKnowledgeSearchRequest) : (D.rankedResults request).Nodup :=
  (D.nodup_candidates request).filterMap fun _ _ _ h h' => rankedResult_inj h h'

/-! ## Selection -/

section Selection

variable {ranked : List KnowledgeSearchResult}

theorem clampedTopK_pos (request : EngineeringKnowledgeSearchRequest) :
    0 < clampedTopK request := by
  unfold clampedTopK
  omega

theorem neg_ne_nan {x : PyFloat} (h : x ≠ .nan) : x.neg ≠ .nan := by
  cases x <;> simp_all [PyFloat.neg]

/-- The numbers of a key are those of a score and of staleness. -/
theorem numbers_searchKey (h : result.combinedScore ≠ .nan) :
    ∀ x ∈ (searchKey result).numbers, x ≠ .nan := by
  intro x hx
  rcases List.mem_cons.mp hx with rfl | hx
  · exact neg_ne_nan h
  · rw [List.mem_singleton.mp hx]
    simp

/-- Without reranking the best ranked results are selected. -/
theorem selectRanked_eq_best (hmode : request.mode ≠ .hybrid) (hnumeric : D.Numeric request)
    (hranked : ranked ⊆ D.rankedResults request) :
    D.selectRanked request ranked (clampedTopK request) =
      Ranking.best searchRank KnowledgeSearchResult.citationId 2 (clampedTopK request) ranked := by
  rw [selectRanked_eq (clampedTopK_pos request), admitted, if_neg hmode,
    sortedBy_eq_sortOn searchKey ranked 2 (fun _ _ => rfl) fun result hresult =>
      numbers_searchKey (hnumeric.combined result (hranked hresult))]
  rfl

/-- With reranking the best ones of a pool of ranked results are selected. -/
theorem selectRanked_eq_pool (hmode : request.mode = .hybrid) (hnumeric : D.Numeric request)
    (hranked : ranked ⊆ D.rankedResults request) :
    D.selectRanked request ranked (clampedTopK request) =
      (Ranking.best (D.rerankRank request) KnowledgeSearchResult.citationId 2 (clampedTopK request)
        (Ranking.pool searchRank (rerankPoolSize request) ranked)).map
          (D.withRerankScore request) := by
  have hsorted := sortedBy_eq_sortOn searchKey ranked 2 (fun _ _ => rfl)
    fun result hresult => numbers_searchKey (hnumeric.combined result (hranked hresult))
  set pool := Ranking.pool searchRank (rerankPoolSize request) ranked with hpool
  have hreranked : ∀ result ∈ pool.map (D.withRerankScore request),
      ∀ x ∈ (rerankKey result).numbers, x ≠ .nan := by
    intro result hresult
    obtain ⟨found, hfound, rfl⟩ := List.mem_map.mp hresult
    exact numbers_searchKey
      (hnumeric.reranked found (hranked (Ranking.pool_subset _ _ _ hfound)))
  have hresorted := sortedBy_eq_sortOn rerankKey _ 2 (fun _ _ => rfl) hreranked
  have hbest := Ranking.best_map (D.withRerankScore request) (fun result => (rerankKey result).rank)
    KnowledgeSearchResult.citationId 2 (clampedTopK request) pool
  rw [Ranking.best, ← hresorted] at hbest
  rw [selectRanked_eq (clampedTopK_pos request), admitted, if_pos hmode, hsorted]
  exact hbest

end Selection

/-! ## Ties -/

section Ties

variable {ranked : List KnowledgeSearchResult}

/-- Results of one place after reranking are of one chunk. -/
theorem eq_of_rerankRank_eq {result' : KnowledgeSearchResult}
    (h : result ∈ D.rankedResults request) (h' : result' ∈ D.rankedResults request)
    (hrank : D.rerankRank request result = D.rerankRank request result') : result = result' := by
  have htexts := congrArg Prod.snd (toLex.injective hrank)
  simp only [rerankKey, List.cons.injEq, and_true] at htexts
  exact eq_of_mem_rankedResults h h' htexts.2

/-- Results of one place in the first ranking are of one document. -/
theorem citationId_of_searchRank_eq {result' : KnowledgeSearchResult}
    (hrank : searchRank result = searchRank result') : result.citationId = result'.citationId := by
  have htexts := congrArg Prod.snd (toLex.injective hrank)
  simpa [searchKey] using htexts

/-- The selection is the same for the ranked results in every order. -/
def SelectsSame (D : EngineeringRagService) (request : EngineeringKnowledgeSearchRequest) : Prop :=
  ∀ ranked : List KnowledgeSearchResult, ranked.Perm (D.rankedResults request) →
    D.selectRanked request ranked (clampedTopK request) =
      D.selectRanked request (D.rankedResults request) (clampedTopK request)

theorem SelectsSame.eq (h : D.SelectsSame request) {ranked ranked' : List KnowledgeSearchResult}
    (hperm : (D.rankedResults request).Perm ranked)
    (hperm' : (D.rankedResults request).Perm ranked') :
    D.selectRanked request ranked (clampedTopK request) =
      D.selectRanked request ranked' (clampedTopK request) :=
  (h ranked hperm.symm).trans (h ranked' hperm'.symm).symm

/-- With reranking: ties at the end of the pool are decided. -/
theorem selectsSame_iff_of_hybrid (hmode : request.mode = .hybrid) (hnumeric : D.Numeric request) :
    D.SelectsSame request ↔ D.TiesDecided request := by
  have hnodup := D.nodup_rankedResults request
  rw [TiesDecided, if_pos hmode]
  constructor
  · intro hsame result hresult hcut
    by_contra hfree
    obtain ⟨first, hfirst, hselected⟩ := Ranking.exists_mem_best_pool hresult hnodup
      (fun a ha b hb => eq_of_rerankRank_eq ha hb)
      (fun b _ hrank => citationId_of_searchRank_eq hrank) hcut hfree
    obtain ⟨before, after, hsplit⟩ := List.append_of_mem hfirst
    have hperm : (D.rankedResults request).Perm (first :: (before ++ after)) :=
      hsplit ▸ List.perm_middle
    have hlast := hperm.trans (List.perm_append_singleton first (before ++ after)).symm
    obtain ⟨hin, hout⟩ := hselected _ hperm
    -- it is selected when it comes first, and not when it comes last
    have heq := hsame.eq hperm hlast
    rw [selectRanked_eq_pool hmode hnumeric hperm.symm.subset,
      selectRanked_eq_pool hmode hnumeric hlast.symm.subset] at heq
    have hmem := List.mem_map_of_mem (f := D.withRerankScore request) hin
    rw [heq] at hmem
    obtain ⟨found, hfound, hchunk⟩ := List.mem_map.mp hmem
    have hfoundRanked := hlast.symm.subset (Ranking.pool_subset _ _ _
      (Ranking.best_subset _ _ _ _ _ hfound))
    have hid : found.chunk.chunkId = first.chunk.chunkId :=
      congrArg (fun result => result.chunk.chunkId) hchunk
    rw [eq_of_mem_rankedResults hfoundRanked hfirst hid] at hfound
    exact hout hfound
  · intro hdecided ranked hperm
    rw [selectRanked_eq_pool hmode hnumeric hperm.subset,
      selectRanked_eq_pool hmode hnumeric (List.Subset.refl _),
      Ranking.best_pool_eq_of_perm hperm.symm hnodup
        (fun a ha b hb => eq_of_rerankRank_eq ha hb) hdecided]

/-- Without reranking: all ties are decided. -/
theorem selectsSame_iff_of_not_hybrid (hmode : request.mode ≠ .hybrid)
    (hnumeric : D.Numeric request) : D.SelectsSame request ↔ D.TiesDecided request := by
  rw [TiesDecided, if_neg hmode]
  constructor
  · intro hsame result hresult other hother hne hrank
    by_contra hfree
    obtain ⟨before, after, hsplit⟩ := List.append_of_mem hresult
    have hperm : (D.rankedResults request).Perm (result :: (before ++ after)) :=
      hsplit ▸ List.perm_middle
    obtain ⟨before', after', hsplit'⟩ := List.append_of_mem
      ((List.mem_cons.mp (hperm.subset hother)).resolve_left (Ne.symm hne))
    have hrest : (before ++ after).Perm (other :: (before' ++ after')) :=
      hsplit' ▸ List.perm_middle
    have hpair := hperm.trans (hrest.cons result)
    have hswap := hpair.trans (.swap other result (before' ++ after'))
    have heq := hsame.eq hpair hswap
    rw [selectRanked_eq_best hmode hnumeric hpair.symm.subset,
      selectRanked_eq_best hmode hnumeric hswap.symm.subset] at heq
    refine Ranking.best_ne hne hrank (citationId_of_searchRank_eq hrank) (fun hcrowded => ?_) heq
    have hbetter := Ranking.better_perm searchRank result hpair
    rw [Ranking.better_cons_of_le (le_refl _), Ranking.better_cons_of_le hrank.le] at hbetter
    exact hfree (hcrowded.mono hbetter.symm.subperm rfl)
  · intro hdecided ranked hperm
    rw [selectRanked_eq_best hmode hnumeric hperm.subset,
      selectRanked_eq_best hmode hnumeric (List.Subset.refl _),
      Ranking.best_eq_of_perm hperm.symm hdecided]

/-- The selection depends on the order of the ranked results unless their ties are decided. -/
theorem selectsSame_iff (hnumeric : D.Numeric request) :
    D.SelectsSame request ↔ D.TiesDecided request := by
  by_cases hmode : request.mode = .hybrid
  · exact selectsSame_iff_of_hybrid hmode hnumeric
  · exact selectsSame_iff_of_not_hybrid hmode hnumeric

end Ties

/-! ## Orders -/

theorem resultsOf_eq_none (order : SetOrder)
    (h : ∃ item ∈ D.matchesFor request, ∀ chunk ∈ D.chunks, chunk.chunkId ≠ item.chunkId) :
    D.resultsOf order request = none := by
  obtain ⟨backend, hsearch⟩ := D.search_eq order request
  obtain ⟨key, hfailed⟩ := (D.outcomesFor_eq_error_iff order request _).mpr h
  rw [resultsOf, hsearch, searchFrom_eq, hfailed]
  rfl

/-- Where the index is known, the results are selected from those of the candidates in the order of
the iteration. -/
theorem resultsOf_eq_some (order : SetOrder)
    (hknown : ¬∃ item ∈ D.matchesFor request, ∀ chunk ∈ D.chunks, chunk.chunkId ≠ item.chunkId) :
    D.resultsOf order request = some (D.selectRanked request
      ((order.iterate (D.candidates request)).filterMap (D.rankedResult request))
      (clampedTopK request)) := by
  obtain ⟨backend, hsearch⟩ := D.search_eq order request
  cases h : D.outcomesFor order request (D.matchesFor request) with
  | error e =>
      obtain ⟨chunkId, -, herror⟩ := Traversal.mapM_eq_error h
      rw [(candidateResult_eq_error.mp herror).1] at h
      exact absurd ((D.outcomesFor_eq_error_iff order request _).mp ⟨chunkId, h⟩) hknown
  | ok outcomes =>
      have hranked := Traversal.filterMap_of_mapM h
      rw [resultsOf, hsearch, searchFrom_eq, h]
      change some (D.responseOf request backend (clampedTopK request) outcomes).results = _
      rw [results_responseOf, hranked]
      rfl

section Chunks

variable {chunks : List KnowledgeChunk}

/-- Where the chunks have ids of their own, their order does not matter to the lookup. -/
theorem chunkById_withChunks (hids : (D.chunks.map KnowledgeChunk.chunkId).Nodup)
    (hperm : chunks.Perm D.chunks) (chunkId : String) :
    (D.withChunks chunks).chunkById.get? chunkId = D.chunkById.get? chunkId := by
  have hids' : ((D.withChunks chunks).chunks.map KnowledgeChunk.chunkId).Nodup :=
    (hperm.map _).nodup_iff.mpr hids
  cases hshown : D.chunkById.get? chunkId with
  | none =>
      have hnone := chunkById_eq_none_iff.mp hshown
      exact chunkById_eq_none_iff.mpr fun chunk hchunk => hnone chunk (hperm.subset hchunk)
  | some chunk =>
      obtain ⟨hchunk, hid⟩ := of_chunkById hshown
      cases hshown' : (D.withChunks chunks).chunkById.get? chunkId with
      | none => exact absurd hid (chunkById_eq_none_iff.mp hshown' chunk (hperm.symm.subset hchunk))
      | some shown =>
          obtain ⟨hmem, hid'⟩ := of_chunkById hshown'
          exact congrArg some (List.inj_on_of_nodup_map hids (hperm.subset hmem) hchunk
            (hid'.trans hid.symm))

theorem candidateResult_withChunks (hids : (D.chunks.map KnowledgeChunk.chunkId).Nodup)
    (hperm : chunks.Perm D.chunks) (matched : List SemanticKnowledgeMatch) (chunkId : String) :
    (D.withChunks chunks).candidateResult request matched chunkId =
      D.candidateResult request matched chunkId := by
  unfold candidateResult
  rw [chunkById_withChunks hids hperm]
  rfl

theorem candidates_withChunks (hperm : chunks.Perm D.chunks)
    (hindex : (D.withChunks chunks).matchesFor request = D.matchesFor request) :
    ((D.withChunks chunks).candidates request).Perm (D.candidates request) := by
  rw [List.perm_ext_iff_of_nodup (nodup_candidates _ request) (nodup_candidates _ request)]
  intro chunkId
  unfold candidates
  rw [hindex, mem_candidateIds, mem_candidateIds]
  refine or_congr_right ⟨fun ⟨chunk, hchunk, hadded⟩ => ⟨chunk, hperm.subset hchunk, hadded⟩,
    fun ⟨chunk, hchunk, hadded⟩ => ⟨chunk, hperm.symm.subset hchunk, hadded⟩⟩

/-- With the chunks in another order the results are selected from the same ones, in some order. -/
theorem resultsOf_withChunks (hids : (D.chunks.map KnowledgeChunk.chunkId).Nodup)
    (hperm : chunks.Perm D.chunks)
    (hindex : (D.withChunks chunks).matchesFor request = D.matchesFor request)
    (hknown : ¬∃ item ∈ D.matchesFor request, ∀ chunk ∈ D.chunks, chunk.chunkId ≠ item.chunkId)
    (order : SetOrder) :
    ∃ ranked : List KnowledgeSearchResult, ranked.Perm (D.rankedResults request) ∧
      (D.withChunks chunks).resultsOf order request =
        some (D.selectRanked request ranked (clampedTopK request)) := by
  refine ⟨_, ?_, resultsOf_eq_some order ?_⟩
  · have hresult : (D.withChunks chunks).rankedResult request = D.rankedResult request := by
      funext chunkId
      unfold rankedResult
      rw [hindex, candidateResult_withChunks hids hperm]
    rw [hresult]
    exact ((order.perm _).trans (candidates_withChunks hperm hindex)).filterMap _
  · rintro ⟨item, hitem, hunknown⟩
    rw [hindex] at hitem
    exact hknown ⟨item, hitem, fun chunk hchunk => hunknown chunk (hperm.symm.subset hchunk)⟩

end Chunks

/-- The results are selected from those of the candidates in any order, as they may be iterated
over. -/
theorem orderFree_iff_of_known (hids : (D.chunks.map KnowledgeChunk.chunkId).Nodup)
    (hindex : D.IndexOrderFree request)
    (hknown : ¬∃ item ∈ D.matchesFor request, ∀ chunk ∈ D.chunks, chunk.chunkId ≠ item.chunkId) :
    D.OrderFree request ↔ D.SelectsSame request := by
  constructor
  · intro hfree ranked hperm
    obtain ⟨ids, hids', hranked⟩ := Traversal.exists_filterMap_eq
      (fun _ _ h => chunkId_of_rankedResult h) hperm
    have hsame := hfree .inserted (.listed ids) D.chunks (.refl _)
    change D.resultsOf (.listed ids) request = D.resultsOf .inserted request at hsame
    rw [resultsOf_eq_some _ hknown, resultsOf_eq_some _ hknown, SetOrder.iterate_listed hids',
      hranked] at hsame
    exact Option.some.inj hsame
  · intro hsame order order' chunks hperm
    obtain ⟨ranked, hranked, hresults⟩ :=
      resultsOf_withChunks hids hperm (hindex chunks hperm) hknown order'
    have hiterated : ((order.iterate (D.candidates request)).filterMap
        (D.rankedResult request)).Perm (D.rankedResults request) := (order.perm _).filterMap _
    rw [hresults, resultsOf_eq_some order hknown, hsame _ hranked, hsame _ hiterated]

/-- For chunks with ids of their own, the results do not depend on the order of the iteration and of
the chunks exactly where the search fails, as the index names a chunk that is not in the corpus, or
ties are decided by better results. -/
theorem search_orderFree_iff (hids : (D.chunks.map KnowledgeChunk.chunkId).Nodup)
    (hindex : D.IndexOrderFree request) (hnumeric : D.Numeric request) :
    D.OrderFree request ↔
      (∃ item ∈ D.matchesFor request, ∀ chunk ∈ D.chunks, chunk.chunkId ≠ item.chunkId) ∨
        D.TiesDecided request := by
  by_cases hunknown : ∃ item ∈ D.matchesFor request, ∀ chunk ∈ D.chunks,
      chunk.chunkId ≠ item.chunkId
  · refine iff_of_true (fun order order' chunks hperm => ?_) (.inl hunknown)
    obtain ⟨item, hitem, hmissing⟩ := hunknown
    rw [resultsOf_eq_none order ⟨item, hitem, hmissing⟩]
    refine resultsOf_eq_none order' ⟨item, ?_, fun chunk hchunk => ?_⟩
    · rwa [hindex chunks hperm]
    · exact hmissing chunk (hperm.subset hchunk)
  · rw [orderFree_iff_of_known hids hindex hunknown, selectsSame_iff hnumeric]
    exact (or_iff_right hunknown).symm

/-! ## The order of the index -/

/-- The matches of the index in memory are in order of score and id, whatever the order of the
chunks. -/
theorem fallbackIndex_search_perm (hcosine : ∀ x y, D.scoring.cosineSimilarity x y ≠ .nan)
    {chunks chunks' : List KnowledgeChunk} (hperm : chunks.Perm chunks')
    (hids : (chunks.map KnowledgeChunk.chunkId).Nodup) (query : String) (topK : ℕ)
    (filters : KnowledgeFilters) :
    D.fallbackIndex.search query chunks topK filters =
      D.fallbackIndex.search query chunks' topK filters := by
  set matchOf := fun chunk : KnowledgeChunk =>
    (⟨chunk.chunkId, D.scoring.cosineSimilarity (D.embed query) chunk.embedding⟩ :
      SemanticKnowledgeMatch) with hmatchOf
  set key := fun item : SemanticKnowledgeMatch =>
    (⟨[item.semanticScore.neg], [item.chunkId]⟩ : SortKey) with hkey
  -- without `nan` the sort is one by rank
  have hsorted : ∀ chunks : List KnowledgeChunk,
      sortedBy key ((filterChunks chunks filters).map matchOf) =
        Ranking.sortOn (fun item => (key item).rank)
          ((filterChunks chunks filters).map matchOf) := by
    intro chunks
    refine sortedBy_eq_sortOn key _ 1 (fun _ _ => rfl) fun item hitem x hx => ?_
    obtain ⟨chunk, -, rfl⟩ := List.mem_map.mp hitem
    rw [List.mem_singleton.mp hx]
    exact neg_ne_nan (hcosine (D.embed query) chunk.embedding)
  have hfiltered : (filterChunks chunks filters).Perm (filterChunks chunks' filters) :=
    hperm.filter _
  change some ((sortedBy key ((filterChunks chunks filters).map matchOf)).take topK) =
    some ((sortedBy key ((filterChunks chunks' filters).map matchOf)).take topK)
  rw [hsorted, hsorted, Ranking.sortOn_eq_of_perm (hfiltered.map matchOf)]
  -- chunks of one rank have one id, and ids are distinct
  intro item hitem item' hitem' hrank
  obtain ⟨chunk, hchunk, rfl⟩ := List.mem_map.mp hitem
  obtain ⟨chunk', hchunk', rfl⟩ := List.mem_map.mp hitem'
  have htexts := congrArg Prod.snd (toLex.injective hrank)
  have hid : chunk.chunkId = chunk'.chunkId := by simpa [hkey, hmatchOf] using htexts
  rw [List.inj_on_of_nodup_map hids (List.mem_filter.mp hchunk).1
    (List.mem_filter.mp hchunk').1 hid]

/-- An index that does not read the chunks it is given, or the one in memory, returns the same
matches for them in any order. -/
theorem indexOrderFree (hids : (D.chunks.map KnowledgeChunk.chunkId).Nodup)
    (hcosine : ∀ x y, D.scoring.cosineSimilarity x y ≠ .nan)
    (h : D.index = D.fallbackIndex ∨ ∀ query chunks chunks' topK filters,
      D.index.search query chunks topK filters = D.index.search query chunks' topK filters) :
    D.IndexOrderFree request := by
  intro chunks hperm
  have hids' : (chunks.map KnowledgeChunk.chunkId).Nodup := (hperm.map _).nodup_iff.mpr hids
  have hfallback := fallbackIndex_search_perm hcosine hperm hids' request.query
    (max (clampedTopK request * 5) (clampedTopK request + 20)) request.filters
  have hindex : D.index.search request.query chunks
      (max (clampedTopK request * 5) (clampedTopK request + 20)) request.filters =
        D.index.search request.query D.chunks
          (max (clampedTopK request * 5) (clampedTopK request + 20)) request.filters := by
    rcases h with heq | hignores
    · rw [heq]
      exact hfallback
    · exact hignores ..
  change (D.index.search request.query chunks _ _).getD
    ((D.fallbackIndex.search request.query chunks _ _).getD []) = _
  rw [hindex, hfallback]
  rfl

/-! ## A tie -/

/-- A chunk of a runbook. -/
def runbookChunk (chunkId text : String) : KnowledgeChunk where
  chunkId
  metadata :=
    { documentId := "runbook-1"
      title := "Restart the gateway"
      documentType := "run_instructions"
      updatedAt := .aware 0 }
  text

/-- A service with a document of three chunks, which score alike, and an index without matches. -/
def tiedKnowledge : EngineeringRagService where
  runtime := .plain
  scoring := plainKnowledgeScoring
  embed _ := []
  index :=
    { backendName := "opensearch"
      search := fun _ _ _ _ => some [] }
  chunks :=
    [runbookChunk "runbook-1#chunk-1" "restart gateway",
      runbookChunk "runbook-1#chunk-2" "gateway restart",
      runbookChunk "runbook-1#chunk-3" "restart the gateway"]

/-- A search for terms that all three chunks have. -/
def tiedRequest : EngineeringKnowledgeSearchRequest where
  query := "restart"
  mode := .bm25

theorem tiedKnowledge_ids : (tiedKnowledge.chunks.map KnowledgeChunk.chunkId).Nodup := by decide

theorem tiedKnowledge_indexOrderFree : tiedKnowledge.IndexOrderFree tiedRequest := fun _ _ => rfl

theorem tiedKnowledge_known : ¬∃ item ∈ tiedKnowledge.matchesFor tiedRequest,
    ∀ chunk ∈ tiedKnowledge.chunks, chunk.chunkId ≠ item.chunkId := by
  rintro ⟨item, hitem, -⟩
  have hnone : tiedKnowledge.matchesFor tiedRequest = [] := rfl
  rw [hnone] at hitem
  cases hitem

/-- The results of the three chunks are ranked. -/
theorem tiedKnowledge_mem {chunk : KnowledgeChunk} (hchunk : chunk ∈ tiedKnowledge.chunks) :
    tiedKnowledge.resultFor tiedRequest chunk (.finite 0) ∈
      tiedKnowledge.rankedResults tiedRequest := by
  have hpasses : tiedRequest.filters.passes chunk := by
    revert chunk
    decide
  have hshown : tiedKnowledge.chunkById.get? chunk.chunkId = some chunk := by
    cases h : tiedKnowledge.chunkById.get? chunk.chunkId with
    | none => exact absurd rfl (chunkById_eq_none_iff.mp h chunk hchunk)
    | some shown => rw [eq_of_chunkById tiedKnowledge_ids hchunk h]
  have hscore : (PyFloat.finite 0).lt (.finite 1) = true ∧
      ¬(PyFloat.finite 1).lt (.finite 0) = true := by decide
  refine List.mem_filterMap.mpr ⟨chunk.chunkId,
    mem_candidateIds.mpr (.inr ⟨chunk, hchunk, ?_, rfl⟩),
    rankedResult_eq_some.mpr (candidateResult_eq_some.mpr ⟨chunk, hshown, hscore.2, rfl⟩)⟩
  exact ⟨by decide, hpasses, .inl hscore.1⟩

/-- All ranked results have one score, and are of one document. -/
theorem tiedKnowledge_rank {result : KnowledgeSearchResult}
    (hresult : result ∈ tiedKnowledge.rankedResults tiedRequest) :
    result.combinedScore = .finite 1 ∧
      searchKey result = ⟨[.finite (-1), .finite 0], ["runbook-1"]⟩ := by
  obtain ⟨chunkId, -, h⟩ := List.mem_filterMap.mp hresult
  obtain ⟨chunk, hchunk, -, rfl⟩ := candidateResult_eq_some.mp (rankedResult_eq_some.mp h)
  have hmem := (of_chunkById hchunk).1
  refine ⟨rfl, ?_⟩
  have hmetadata : chunk.metadata.documentId = "runbook-1" ∧ chunk.metadata.stale = false := by
    clear hchunk hresult h
    revert chunk
    decide
  rw [searchKey, resultFor, hmetadata.1, hmetadata.2]
  rfl

theorem tiedKnowledge_numeric : tiedKnowledge.Numeric tiedRequest := by
  constructor
  · intro result hresult
    rw [(tiedKnowledge_rank hresult).1]
    decide
  · intro result hresult
    change result.combinedScore ≠ .nan
    rw [(tiedKnowledge_rank hresult).1]
    decide

/-- The tie is not decided. -/
theorem tiedKnowledge_tie : ¬tiedKnowledge.TiesDecided tiedRequest := by
  intro hdecided
  have hfirst := tiedKnowledge_mem (List.mem_cons_self ..)
  have hsecond := tiedKnowledge_mem (List.mem_cons_of_mem _ (List.mem_cons_self ..))
  have hmode : tiedRequest.mode ≠ .hybrid := by decide
  rw [TiesDecided, if_neg hmode] at hdecided
  have hcrowded := hdecided _ hfirst _ hsecond
    (fun heq => absurd (congrArg (fun result => result.chunk.chunkId) heq) (by decide))
    (by rw [searchRank, searchRank, (tiedKnowledge_rank hfirst).2, (tiedKnowledge_rank hsecond).2])
  have hbetter : Ranking.better searchRank (tiedKnowledge.rankedResults tiedRequest)
      (tiedKnowledge.resultFor tiedRequest
        (runbookChunk "runbook-1#chunk-1" "restart gateway") (.finite 0)) = [] := by
    refine List.filter_eq_nil_iff.mpr fun result hresult => ?_
    rw [searchRank, searchRank, (tiedKnowledge_rank hfirst).2, (tiedKnowledge_rank hresult).2]
    simp
  rw [hbetter] at hcrowded
  rcases hcrowded with hdocument | htopK
  · exact absurd hdocument (by decide)
  · exact absurd htopK (by decide)

/-- The results depend on the order. -/
theorem tiedKnowledge_orderDependent : ¬tiedKnowledge.OrderFree tiedRequest := by
  rw [search_orderFree_iff tiedKnowledge_ids tiedKnowledge_indexOrderFree tiedKnowledge_numeric]
  exact not_or.mpr ⟨tiedKnowledge_known, tiedKnowledge_tie⟩

/-- Where chunks of a document score alike, what is returned depends on the order of the
iteration. -/
theorem tiedKnowledge_fails :
    ¬ ∀ (D : EngineeringRagService) (request : EngineeringKnowledgeSearchRequest),
      (D.chunks.map KnowledgeChunk.chunkId).Nodup → D.IndexOrderFree request →
        D.Numeric request → D.OrderFree request := by
  intro hclaim
  have hfree := hclaim tiedKnowledge tiedRequest tiedKnowledge_ids tiedKnowledge_indexOrderFree
    tiedKnowledge_numeric
  rw [orderFree_iff_of_known tiedKnowledge_ids tiedKnowledge_indexOrderFree tiedKnowledge_known,
    selectsSame_iff tiedKnowledge_numeric] at hfree
  exact tiedKnowledge_tie hfree

end EngineeringRagService

end McpOps
