import McpOps.Knowledge.Search
import McpOps.Lib.Ranking
import McpOps.Lib.Traversal

/-!
# What a search returns

A search returns distinct chunks of the corpus, at most two of a document and no more than asked
for, unless the index names a chunk that is not in the corpus, which fails.  The filters of the
request hold of the chunks exactly as far as the index respects them, and as far as no two chunks
share an id.

## Strategy

The matches of the index are merged with the chunks that the service adds, which pass the filters.
Both are looked up by id, and where two chunks share an id the last one is found, so an added
chunk may show another one.

* `mem_ranked` and `nodup_ranked` follow a candidate to its result.
* `limitChunksPerDocument_eq` says that the selection stops where `top_k` results are selected, so
  what is selected is a beginning of what the limit per document admits (`admitted`), and that is
  a rearrangement of a part of the ranked results (`selectRanked_sound`).

`IndexCurrent` has a condition on the matches and one on the added chunks.  It suffices
(`searchFrom_serves`), and when nothing is cut it is also needed (`current_of_searchFrom`);
`search_serves_iff` has both, with the failures.
-/

namespace McpOps

namespace EngineeringRagService

/-! ## Fit results -/

/-- The results are of distinct chunks of the corpus that pass the filters, at most two of a
document and at most `top_k` in all (one where `top_k` is less than one). -/
structure Serves (D : EngineeringRagService) (request : EngineeringKnowledgeSearchRequest)
    (response : EngineeringKnowledgeSearchResponse) : Prop where
  length_le : (response.results.length : ℤ) ≤ max request.topK 1
  nodup : (response.results.map fun result => result.chunk.chunkId).Nodup
  limited : ∀ citation, (response.results.map (·.citationId)).count citation ≤ 2
  cited : ∀ result ∈ response.results, result.citationId = result.chunk.metadata.documentId
  fit : ∀ result ∈ response.results,
    result.chunk ∈ D.chunks ∧ request.filters.passes result.chunk

/-- The matches of the index, or of the one in memory when it is unavailable. -/
def matchesFor (D : EngineeringRagService) (request : EngineeringKnowledgeSearchRequest) :
    List SemanticKnowledgeMatch :=
  let topK := clampedTopK request
  let search := fun index : KnowledgeIndex =>
    index.search request.query D.chunks (max (topK * 5) (topK + 20)) request.filters
  (search D.index).getD ((search D.fallbackIndex).getD [])

/-- A chunk with this semantic score is ranked: its score reaches the minimum. -/
def Ranks (D : EngineeringRagService) (request : EngineeringKnowledgeSearchRequest)
    (chunk : KnowledgeChunk) (semantic : PyFloat) : Prop :=
  ¬(D.scoreOf request chunk semantic).lt request.minimumScore

/-- The semantic score of a candidate. -/
def semanticOf (matched : List SemanticKnowledgeMatch) (chunkId : String) : PyFloat :=
  ((semanticByChunk matched).get? chunkId).getD (.finite 0)

/-- The chunk is one of those that the service adds to the matches of the index. -/
def Added (D : EngineeringRagService) (request : EngineeringKnowledgeSearchRequest)
    (chunk : KnowledgeChunk) : Prop :=
  request.mode ≠ .vector ∧ request.filters.passes chunk ∧
    ((PyFloat.finite 0).lt (D.scoring.lexicalScore request.query chunk.searchText) ∨
      D.fitsAnalysis request chunk)

/-- The chunk of an id, which is the last one with it, passes the filters or is not ranked. -/
def ShowsFit (D : EngineeringRagService) (request : EngineeringKnowledgeSearchRequest)
    (chunkId : String) : Prop :=
  ∀ chunk, D.chunkById.get? chunkId = some chunk →
    D.Ranks request chunk (semanticOf (D.matchesFor request) chunkId) →
      request.filters.passes chunk

/-- Every match of the index names a chunk of the corpus that passes the filters or is not ranked,
and no chunk that the service adds shares its id with one that does not pass them. -/
structure IndexCurrent (D : EngineeringRagService) (request : EngineeringKnowledgeSearchRequest) :
    Prop where
  known : ∀ item ∈ D.matchesFor request, ∃ chunk ∈ D.chunks, chunk.chunkId = item.chunkId
  matched : ∀ item ∈ D.matchesFor request, D.ShowsFit request item.chunkId
  added : ∀ chunk ∈ D.chunks, D.Added request chunk → D.ShowsFit request chunk.chunkId

variable {D : EngineeringRagService} {order : SetOrder}
  {request : EngineeringKnowledgeSearchRequest} {matched : List SemanticKnowledgeMatch}
  {chunk : KnowledgeChunk} {chunkId : String}

/-! ## Candidates -/

theorem mem_candidateIds :
    chunkId ∈ D.candidateIds request matched ↔
      (∃ item ∈ matched, item.chunkId = chunkId) ∨
        ∃ chunk ∈ D.chunks, D.Added request chunk ∧ chunk.chunkId = chunkId := by
  have hkeys : chunkId ∈ (semanticByChunk matched).keys ↔
      ∃ item ∈ matched, item.chunkId = chunkId := by
    rw [semanticByChunk, Dict.mem_keys_foldl_set]
    simp [Dict.keys, Dict.empty]
  rw [candidateIds, List.mem_dedup, List.mem_append, hkeys]
  refine or_congr_right ?_
  unfold Added filteredChunks
  by_cases hmode : request.mode = .vector
  · simp [hmode]
  · simp only [hmode, if_false, List.mem_map, List.mem_append, List.mem_filter, ne_eq,
      not_false_eq_true, true_and]
    constructor
    · rintro ⟨chunk, ⟨⟨hchunk, hpasses⟩, hscore⟩ | ⟨⟨hchunk, hpasses⟩, hfits⟩, rfl⟩
      · exact ⟨chunk, hchunk, ⟨hpasses, .inl hscore⟩, rfl⟩
      · exact ⟨chunk, hchunk, ⟨hpasses, .inr hfits⟩, rfl⟩
    · rintro ⟨chunk, hchunk, ⟨hpasses, hscore | hfits⟩, rfl⟩
      · exact ⟨chunk, .inl ⟨⟨hchunk, hpasses⟩, hscore⟩, rfl⟩
      · exact ⟨chunk, .inr ⟨⟨hchunk, hpasses⟩, hfits⟩, rfl⟩

theorem of_chunkById (h : D.chunkById.get? chunkId = some chunk) :
    chunk ∈ D.chunks ∧ chunk.chunkId = chunkId := by
  rcases Dict.of_get?_foldl_set KnowledgeChunk.chunkId (fun chunk => chunk) D.chunks Dict.empty h
    with hempty | ⟨found, hfound, hid, rfl⟩
  · cases hempty
  · exact ⟨hfound, hid⟩

theorem chunkById_eq_none_iff :
    D.chunkById.get? chunkId = none ↔ ∀ chunk ∈ D.chunks, chunk.chunkId ≠ chunkId := by
  rw [Dict.get?_eq_none_iff, chunkById, Dict.mem_keys_foldl_set]
  simp [Dict.keys, Dict.empty]

theorem candidateResult_eq_error {e : SearchFailure} :
    D.candidateResult request matched chunkId = .error e ↔
      e = .keyError chunkId ∧ D.chunkById.get? chunkId = none := by
  unfold candidateResult
  cases D.chunkById.get? chunkId with
  | none => exact ⟨fun h => ⟨(Except.error.inj h).symm, rfl⟩, fun h => h.1 ▸ rfl⟩
  | some chunk =>
      refine ⟨fun h => ?_, fun h => by cases h.2⟩
      dsimp only at h
      split at h <;> cases h

theorem candidateResult_eq_some {result : KnowledgeSearchResult} :
    D.candidateResult request matched chunkId = .ok (some result) ↔
      ∃ chunk, D.chunkById.get? chunkId = some chunk ∧
        D.Ranks request chunk (semanticOf matched chunkId) ∧
        result = D.resultFor request chunk (semanticOf matched chunkId) := by
  unfold candidateResult Ranks semanticOf
  cases D.chunkById.get? chunkId with
  | none => simp
  | some chunk =>
      constructor
      · intro h
        dsimp only at h
        split at h
        · cases h
        · rename_i hreaches
          cases h
          exact ⟨chunk, rfl, hreaches, rfl⟩
      · rintro ⟨_, ⟨⟩, hreaches, rfl⟩
        exact if_neg hreaches

/-! ## Ranked results -/

/-- The outcomes of the candidates, in the order of the iteration. -/
def outcomesFor (D : EngineeringRagService) (order : SetOrder)
    (request : EngineeringKnowledgeSearchRequest) (matched : List SemanticKnowledgeMatch) :
    Except SearchFailure (List (Option KnowledgeSearchResult)) :=
  (order.iterate (D.candidateIds request matched)).mapM (D.candidateResult request matched)

theorem mem_iterate : chunkId ∈ order.iterate (D.candidateIds request matched) ↔
    chunkId ∈ D.candidateIds request matched := (order.perm _).mem_iff

section Outcomes

variable {outcomes : List (Option KnowledgeSearchResult)}

/-- A ranked result is that of the chunk of a candidate which ranks. -/
theorem mem_ranked (h : D.outcomesFor order request matched = .ok outcomes)
    {result : KnowledgeSearchResult} :
    result ∈ outcomes.filterMap id ↔
      ∃ chunkId ∈ D.candidateIds request matched, ∃ chunk,
        D.chunkById.get? chunkId = some chunk ∧
          D.Ranks request chunk (semanticOf matched chunkId) ∧
          result = D.resultFor request chunk (semanticOf matched chunkId) := by
  have hall := Traversal.mapM_eq_ok h
  simp only [List.mem_filterMap, id_eq, exists_eq_right, ← candidateResult_eq_some]
  constructor
  · intro hmem
    obtain ⟨chunkId, hid, houtcome⟩ := Traversal.mem_of_forall₂ hall hmem
    exact ⟨chunkId, mem_iterate.mp hid, houtcome⟩
  · rintro ⟨chunkId, hid, houtcome⟩
    have hiterate : chunkId ∈ order.iterate (D.candidateIds request matched) := mem_iterate.mpr hid
    obtain ⟨outcome, hmem, hfound⟩ := Traversal.exists_of_forall₂ hall hiterate
    cases hfound.symm.trans houtcome
    exact hmem

/-- The ranked results are of distinct chunks. -/
theorem nodup_ranked (h : D.outcomesFor order request matched = .ok outcomes) :
    ((outcomes.filterMap id).map fun result => result.chunk.chunkId).Nodup := by
  have hnodup : (order.iterate (D.candidateIds request matched)).Nodup :=
    (order.perm _).nodup_iff.mpr (List.nodup_dedup _)
  refine hnodup.sublist ?_
  have hall := Traversal.mapM_eq_ok h
  revert hall
  generalize order.iterate (D.candidateIds request matched) = ids
  intro hall
  clear h hnodup
  induction hall with
  | nil => exact .slnil
  | @cons chunkId outcome ids outcomes houtcome _ ih =>
      cases outcome with
      | none => exact ih.cons _
      | some result =>
          obtain ⟨chunk, hchunk, -, rfl⟩ := candidateResult_eq_some.mp houtcome
          have hid : (D.resultFor request chunk (semanticOf matched chunkId)).chunk.chunkId =
              chunkId := (of_chunkById hchunk).2
          have hsome : id (some (D.resultFor request chunk (semanticOf matched chunkId))) =
              some (D.resultFor request chunk (semanticOf matched chunkId)) := rfl
          rw [List.filterMap_cons_some hsome, List.map_cons, hid]
          exact ih.cons_cons _

end Outcomes

/-! ## Selection -/

section Selection

variable {n topK : ℕ} {counts : Dict String ℕ}
  {selected results ranked : List KnowledgeSearchResult}

/-- How often a citation has been selected. -/
def seenIn (counts : Dict String ℕ) (citation : String) : ℕ := (counts.get? citation).getD 0

theorem seenIn_set (counts : Dict String ℕ) (citation : String) (count : ℕ) :
    seenIn (counts.set citation count) = Function.update (seenIn counts) citation count := by
  funext other
  by_cases hsame : other = citation
  · subst hsame
    rw [Function.update_self, seenIn, Dict.get?_set_self, Option.getD_some]
  · rw [Function.update_of_ne hsame, seenIn, Dict.get?_set_of_ne hsame, seenIn]

theorem limitByCitation_eq (n : ℕ) (counts : Dict String ℕ) (results : List KnowledgeSearchResult) :
    limitByCitation n counts results =
      Ranking.limitPer KnowledgeSearchResult.citationId n (seenIn counts) results := by
  induction results generalizing counts with
  | nil => rfl
  | cons result rest ih =>
      rw [limitByCitation, Ranking.limitPer, ← seenIn]
      by_cases hfull : n ≤ seenIn counts result.citationId
      · rw [if_pos hfull, if_pos hfull, ih]
      · rw [if_neg hfull, if_neg hfull, ih, seenIn_set]

/-- The selection stops where `top_k` results are selected. -/
theorem limitChunksPerDocument_eq (h : selected.length < topK) :
    limitChunksPerDocument topK n counts selected results =
      (selected ++ Ranking.limitPer KnowledgeSearchResult.citationId n (seenIn counts)
        results).take topK := by
  induction results generalizing counts selected with
  | nil =>
      rw [limitChunksPerDocument, Ranking.limitPer, List.append_nil,
        List.take_of_length_le h.le]
  | cons result rest ih =>
      rw [limitChunksPerDocument, Ranking.limitPer, ← seenIn]
      by_cases hfull : n ≤ seenIn counts result.citationId
      · rw [if_pos hfull, if_pos hfull, ih h]
      · rw [if_neg hfull, if_neg hfull,
          List.append_cons selected result (Ranking.limitPer ..)]
        split
        · rename_i hlast
          have hlength : (selected ++ [result]).length = topK := by
            rw [List.length_append, List.length_singleton] at hlast ⊢
            omega
          rw [← hlength, List.take_left]
        · rename_i hmore
          rw [ih (by omega), seenIn_set]

/-- What is selected: of the sorted results those that the limit per document admits, reranked in
the hybrid mode. -/
def admitted (D : EngineeringRagService) (request : EngineeringKnowledgeSearchRequest)
    (ranked : List KnowledgeSearchResult) (topK : ℕ) : List KnowledgeSearchResult :=
  let sorted := sortedBy searchKey ranked
  if request.mode = .hybrid then
    sortedBy rerankKey ((sorted.take (max (topK * 4) (topK + 20))).map (D.withRerankScore request))
  else sorted

theorem seenIn_empty : seenIn Dict.empty = fun _ => 0 := rfl

theorem selectRanked_eq (h : 0 < topK) :
    D.selectRanked request ranked topK =
      (Ranking.limitPer KnowledgeSearchResult.citationId 2 (fun _ => 0)
        (D.admitted request ranked topK)).take topK := by
  unfold selectRanked admitted rerankKnowledgeResults
  dsimp only
  split
  · rw [limitChunksPerDocument_eq (by simpa using h), List.nil_append, List.take_take,
      Nat.min_self, seenIn_empty]
  · rw [limitByCitation_eq, seenIn_empty]

/-- What is admitted to the limit per document: the best ranked results, with other scores at
most. -/
theorem admitted_perm (D : EngineeringRagService) (request : EngineeringKnowledgeSearchRequest)
    (ranked : List KnowledgeSearchResult) (topK : ℕ) :
    ∃ shortlist : List KnowledgeSearchResult, shortlist.Sublist (sortedBy searchKey ranked) ∧
      (ranked.length ≤ topK → shortlist = sortedBy searchKey ranked) ∧
      ∃ rescored : KnowledgeSearchResult → KnowledgeSearchResult,
        (∀ result, (rescored result).chunk = result.chunk ∧
          (rescored result).citationId = result.citationId) ∧
        (D.admitted request ranked topK).Perm (shortlist.map rescored) := by
  unfold admitted
  dsimp only
  split
  · refine ⟨_, List.take_sublist .., fun hlength => List.take_of_length_le ?_,
      D.withRerankScore request, fun result => ⟨rfl, rfl⟩, sortedBy_perm ..⟩
    rw [length_sortedBy]
    omega
  · exact ⟨_, .refl _, fun _ => rfl, id, fun result => ⟨rfl, rfl⟩, by rw [List.map_id]⟩

/-- What is selected of ranked results of distinct chunks. -/
theorem selectRanked_sound (D : EngineeringRagService) (request : EngineeringKnowledgeSearchRequest)
    (hpos : 0 < topK) (hnodup : (ranked.map fun result => result.chunk.chunkId).Nodup) :
    (D.selectRanked request ranked topK).length ≤ topK ∧
      ((D.selectRanked request ranked topK).map fun result => result.chunk.chunkId).Nodup ∧
      (∀ citation,
        ((D.selectRanked request ranked topK).map (·.citationId)).count citation ≤ 2) ∧
      (∀ result ∈ D.selectRanked request ranked topK, ∃ found ∈ ranked,
        result.chunk = found.chunk ∧ result.citationId = found.citationId) ∧
      (ranked.length ≤ topK → (∀ citation, (ranked.map (·.citationId)).count citation ≤ 2) →
        ∀ found ∈ ranked, ∃ result ∈ D.selectRanked request ranked topK,
          result.chunk = found.chunk) := by
  obtain ⟨shortlist, hsublist, hwhole, rescored, hsame, hperm⟩ :=
    D.admitted_perm request ranked topK
  rw [selectRanked_eq hpos]
  set limited := Ranking.limitPer KnowledgeSearchResult.citationId 2 (fun _ => 0)
    (D.admitted request ranked topK) with hlimited
  have htaken : (limited.take topK).Sublist (D.admitted request ranked topK) :=
    (List.take_sublist ..).trans (Ranking.limitPer_sublist ..)
  refine ⟨List.length_take_le .., ?_, fun citation => ?_, fun result hresult => ?_,
    fun hlength hcounts found hfound => ?_⟩
  · refine List.Nodup.sublist (htaken.map _) ?_
    have hids : ((D.admitted request ranked topK).map fun result => result.chunk.chunkId).Perm
        (shortlist.map fun result => result.chunk.chunkId) := by
      refine (hperm.map _).trans (List.Perm.of_eq ?_)
      rw [List.map_map]
      exact List.map_congr_left fun result _ => by rw [Function.comp, (hsame result).1]
    rw [hids.nodup_iff]
    exact List.Nodup.sublist (hsublist.map _) (((sortedBy_perm ..).map _).nodup_iff.mpr hnodup)
  · have hcount := Ranking.count_limitPer KnowledgeSearchResult.citationId 2 (fun _ => 0)
      (D.admitted request ranked topK) citation
    have hle := ((List.take_sublist topK limited).map
      KnowledgeSearchResult.citationId).count_le citation
    have hmin : min (((D.admitted request ranked topK).map
      KnowledgeSearchResult.citationId).count citation) (2 - 0) ≤ 2 := min_le_right ..
    exact hle.trans (hcount.trans_le hmin)
  · obtain ⟨found, hfound, rfl⟩ := List.mem_map.mp (hperm.subset (htaken.subset hresult))
    exact ⟨found, mem_sortedBy.mp (hsublist.subset hfound), hsame found⟩
  · have hadmitted : (D.admitted request ranked topK).Perm (ranked.map rescored) :=
      hperm.trans ((hwhole hlength ▸ sortedBy_perm searchKey ranked).map rescored)
    -- no document has more than two results, so that the limit keeps all of them
    have hall : limited = D.admitted request ranked topK := by
      refine Ranking.limitPer_eq_self fun citation => ?_
      have hcitations : (ranked.map rescored).map (·.citationId) = ranked.map (·.citationId) := by
        rw [List.map_map]
        exact List.map_congr_left fun result _ => (hsame result).2
      rw [(hadmitted.map KnowledgeSearchResult.citationId).count_eq, hcitations, Nat.zero_add]
      exact hcounts citation
    refine ⟨rescored found, ?_, (hsame found).1⟩
    rw [hall, List.take_of_length_le (by rwa [hadmitted.length_eq, List.length_map])]
    exact hadmitted.symm.subset (List.mem_map_of_mem hfound)

end Selection

/-! ## Searches -/

/-- The response that is made of the outcomes. -/
def responseOf (D : EngineeringRagService) (request : EngineeringKnowledgeSearchRequest)
    (backend : String) (topK : ℕ) (outcomes : List (Option KnowledgeSearchResult)) :
    EngineeringKnowledgeSearchResponse where
  query := request.query
  mode := request.mode
  indexBackend := backend
  results := D.selectRanked request (outcomes.filterMap id) topK

theorem results_responseOf (backend : String) (topK : ℕ)
    (outcomes : List (Option KnowledgeSearchResult)) :
    (D.responseOf request backend topK outcomes).results =
      D.selectRanked request (outcomes.filterMap id) topK := by
  rw [responseOf]

theorem searchFrom_eq (backend : String) (topK : ℕ) :
    D.searchFrom order request matched backend topK =
      (D.outcomesFor order request matched).map (D.responseOf request backend topK) := by
  rw [searchFrom, ← outcomesFor]
  cases D.outcomesFor order request matched <;> rfl

/-- The matches come from the index or, when it is unavailable, from the one in memory. -/
theorem search_eq (D : EngineeringRagService) (order : SetOrder)
    (request : EngineeringKnowledgeSearchRequest) :
    ∃ backend, D.search order request =
      D.searchFrom order request (D.matchesFor request) backend (clampedTopK request) := by
  -- what fails after the search is never the index, so no second search is made
  have hnever : ∀ matched backend topK,
      D.searchFrom order request matched backend topK ≠ .error .indexUnavailable := by
    intro matched backend topK h
    rw [searchFrom_eq] at h
    cases houtcomes : D.outcomesFor order request matched with
    | ok outcomes =>
        rw [houtcomes] at h
        cases h
    | error e =>
        rw [houtcomes] at h
        cases h
        obtain ⟨chunkId, -, herror⟩ := Traversal.mapM_eq_error houtcomes
        exact absurd (candidateResult_eq_error.mp herror).1 (by simp)
  unfold search matchesFor
  dsimp only
  cases hsearch : D.index.search request.query D.chunks
      (max (clampedTopK request * 5) (clampedTopK request + 20)) request.filters with
  | none =>
      refine ⟨"fallback:" ++ D.fallbackIndex.backendName, ?_⟩
      rw [searchWithIndex, hsearch]
      rfl
  | some matched =>
      refine ⟨D.index.backendName, ?_⟩
      rw [searchWithIndex, hsearch, Option.getD_some]
      dsimp only
      cases hfrom : D.searchFrom order request matched D.index.backendName
          (clampedTopK request) with
      | ok response => rfl
      | error e =>
          cases e with
          | indexUnavailable => exact absurd hfrom (hnever matched _ _)
          | keyError key => rfl

/-- A search fails exactly where a match names a chunk that is not in the corpus. -/
theorem outcomesFor_eq_error_iff (D : EngineeringRagService) (order : SetOrder)
    (request : EngineeringKnowledgeSearchRequest) (matched : List SemanticKnowledgeMatch) :
    (∃ key, D.outcomesFor order request matched = .error (.keyError key)) ↔
      ∃ item ∈ matched, ∀ chunk ∈ D.chunks, chunk.chunkId ≠ item.chunkId := by
  constructor
  · rintro ⟨key, h⟩
    obtain ⟨chunkId, hid, herror⟩ := Traversal.mapM_eq_error h
    have hunknown := chunkById_eq_none_iff.mp (candidateResult_eq_error.mp herror).2
    rcases mem_candidateIds.mp (mem_iterate.mp hid) with
      ⟨item, hitem, rfl⟩ | ⟨chunk, hchunk, -, heq⟩
    · exact ⟨item, hitem, hunknown⟩
    · exact absurd heq (hunknown chunk hchunk)
  · rintro ⟨item, hitem, hunknown⟩
    have hid : item.chunkId ∈ order.iterate (D.candidateIds request matched) :=
      mem_iterate.mpr (mem_candidateIds.mpr (.inl ⟨item, hitem, rfl⟩))
    cases h : D.outcomesFor order request matched with
    | ok outcomes =>
        obtain ⟨outcome, -, houtcome⟩ :=
          Traversal.exists_of_forall₂ (Traversal.mapM_eq_ok h) hid
        rw [candidateResult_eq_error.mpr ⟨rfl, chunkById_eq_none_iff.mpr hunknown⟩] at houtcome
        cases houtcome
    | error e =>
        obtain ⟨chunkId, -, herror⟩ := Traversal.mapM_eq_error h
        exact ⟨chunkId, by rw [(candidateResult_eq_error.mp herror).1]⟩

section Searches

variable {outcomes : List (Option KnowledgeSearchResult)}

/-- With a current index the ranked results are of chunks that pass the filters. -/
theorem passes_of_mem_ranked
    (h : D.outcomesFor order request (D.matchesFor request) = .ok outcomes)
    (hcurrent : D.IndexCurrent request) {result : KnowledgeSearchResult}
    (hresult : result ∈ outcomes.filterMap id) : request.filters.passes result.chunk := by
  obtain ⟨chunkId, hid, chunk, hchunk, hranks, rfl⟩ := (mem_ranked h).mp hresult
  rcases mem_candidateIds.mp hid with ⟨item, hitem, rfl⟩ | ⟨added, hadded, hcandidate, rfl⟩
  · exact hcurrent.matched item hitem chunk hchunk hranks
  · exact hcurrent.added added hadded hcandidate chunk hchunk hranks

/-- The ranked results are of chunks of the corpus, each of its own and cited by its document. -/
theorem ranked_chunks (h : D.outcomesFor order request matched = .ok outcomes) :
    ((outcomes.filterMap id).map KnowledgeSearchResult.chunk).Subperm D.chunks ∧
      ∀ result ∈ outcomes.filterMap id, result.citationId = result.chunk.metadata.documentId := by
  constructor
  · refine List.subperm_of_subset ?_ fun chunk hchunk => ?_
    · refine List.Nodup.of_map KnowledgeChunk.chunkId ?_
      rw [List.map_map]
      exact nodup_ranked h
    · obtain ⟨result, hresult, rfl⟩ := List.mem_map.mp hchunk
      obtain ⟨chunkId, -, chunk, hfound, -, rfl⟩ := (mem_ranked h).mp hresult
      exact (of_chunkById hfound).1
  · intro result hresult
    obtain ⟨chunkId, -, chunk, -, -, rfl⟩ := (mem_ranked h).mp hresult
    rfl

/-- With a current index a search returns what it should. -/
theorem searchFrom_serves (hcurrent : D.IndexCurrent request) (order : SetOrder)
    (backend : String) :
    ∃ response, D.searchFrom order request (D.matchesFor request) backend (clampedTopK request) =
      .ok response ∧ D.Serves request response := by
  have hclamped : 0 < clampedTopK request ∧ (clampedTopK request : ℤ) ≤ max request.topK 1 := by
    unfold clampedTopK
    omega
  cases h : D.outcomesFor order request (D.matchesFor request) with
  | error e =>
      -- what fails is an unknown match, and all are known
      obtain ⟨chunkId, hid, hfailed⟩ := Traversal.mapM_eq_error h
      obtain ⟨item, hitem, hunknown⟩ := (D.outcomesFor_eq_error_iff order request _).mp
        ⟨chunkId, by rw [h, (candidateResult_eq_error.mp hfailed).1]⟩
      obtain ⟨chunk, hchunk, heq⟩ := hcurrent.known item hitem
      exact absurd heq (hunknown chunk hchunk)
  | ok outcomes =>
      obtain ⟨hlength, hnodup, hlimited, hfrom, -⟩ :=
        D.selectRanked_sound request hclamped.1 (nodup_ranked h)
      obtain ⟨hsubperm, hcited⟩ := ranked_chunks h
      refine ⟨D.responseOf request backend (clampedTopK request) outcomes,
        by rw [searchFrom_eq, h]; rfl, ?_⟩
      constructor
      · rw [results_responseOf]
        omega
      · rw [results_responseOf]
        exact hnodup
      · rw [results_responseOf]
        exact hlimited
      · rw [results_responseOf]
        intro result hresult
        obtain ⟨found, hfound, hchunk, hcitation⟩ := hfrom result hresult
        rw [hcitation, hchunk]
        exact hcited found hfound
      · rw [results_responseOf]
        intro result hresult
        obtain ⟨found, hfound, hchunk, -⟩ := hfrom result hresult
        rw [hchunk]
        exact ⟨hsubperm.subset (List.mem_map_of_mem hfound), passes_of_mem_ranked h hcurrent hfound⟩

/-- When nothing is cut, the filters hold of what is returned with a current index only. -/
theorem current_of_searchFrom {backend : String} {response : EngineeringKnowledgeSearchResponse}
    (hsize : D.chunks.length ≤ clampedTopK request)
    (hdocuments : ∀ document, (D.chunks.map (·.metadata.documentId)).count document ≤ 2)
    (hresponse : D.searchFrom order request (D.matchesFor request) backend (clampedTopK request) =
      .ok response)
    (hfilters : ∀ result ∈ response.results, request.filters.passes result.chunk) :
    D.IndexCurrent request := by
  have hpos : 0 < clampedTopK request := by
    unfold clampedTopK
    omega
  rw [searchFrom_eq] at hresponse
  cases h : D.outcomesFor order request (D.matchesFor request) with
  | error e =>
      rw [h] at hresponse
      cases hresponse
  | ok outcomes =>
      rw [h] at hresponse
      have hselected := Except.ok.inj hresponse
      rw [← hselected, results_responseOf] at hfilters
      obtain ⟨-, -, -, -, hwhole⟩ := D.selectRanked_sound request hpos (nodup_ranked h)
      obtain ⟨hsubperm, hcited⟩ := ranked_chunks h
      -- nothing is cut off: there are few chunks, and two at most of each document
      have hlength : (outcomes.filterMap id).length ≤ clampedTopK request := by
        have hle := hsubperm.length_le
        rw [List.length_map] at hle
        exact hle.trans hsize
      have hcounts : ∀ citation,
          ((outcomes.filterMap id).map (·.citationId)).count citation ≤ 2 := by
        intro citation
        have heq : (outcomes.filterMap id).map (·.citationId) =
            ((outcomes.filterMap id).map KnowledgeSearchResult.chunk).map
              (·.metadata.documentId) := by
          rw [List.map_map]
          exact List.map_congr_left hcited
        obtain ⟨found, hperm, hsublist⟩ := hsubperm
        rw [heq, ← (hperm.map _).count_eq]
        exact ((hsublist.map _).count_le citation).trans (hdocuments citation)
      -- so every candidate that ranks is shown, and what is shown passes the filters
      have hshown : ∀ chunkId ∈ D.candidateIds request (D.matchesFor request),
          D.ShowsFit request chunkId := by
        intro chunkId hid chunk hchunk hranks
        have hranked := (mem_ranked h).mpr ⟨chunkId, hid, chunk, hchunk, hranks, rfl⟩
        obtain ⟨result, hresult, heq⟩ := hwhole hlength hcounts _ hranked
        have hpasses := hfilters result hresult
        rw [heq] at hpasses
        exact hpasses
      refine ⟨fun item hitem => ?_, fun item hitem => ?_, fun chunk hchunk hadded => ?_⟩
      · by_contra hunknown
        push Not at hunknown
        obtain ⟨key, hfailed⟩ :=
          (D.outcomesFor_eq_error_iff order request _).mpr ⟨item, hitem, hunknown⟩
        rw [h] at hfailed
        cases hfailed
      · exact hshown _ (mem_candidateIds.mpr (.inl ⟨item, hitem, rfl⟩))
      · exact hshown _ (mem_candidateIds.mpr (.inr ⟨chunk, hchunk, hadded, rfl⟩))

end Searches

/-- A search fails exactly where a match of the index names a chunk that is not in the corpus.  With
a current index it returns distinct chunks that pass the filters, at most two of a document and at
most `top_k` of them; and where nothing is cut, as `top_k` is no less than the number of chunks and
no document has more than two, with a current index only. -/
theorem search_serves_iff (D : EngineeringRagService) (order : SetOrder)
    (request : EngineeringKnowledgeSearchRequest) :
    ((∃ key, D.search order request = .error (.keyError key)) ↔
        ∃ item ∈ D.matchesFor request, ∀ chunk ∈ D.chunks, chunk.chunkId ≠ item.chunkId) ∧
      (D.IndexCurrent request →
        ∃ response, D.search order request = .ok response ∧ D.Serves request response) ∧
      (D.chunks.length ≤ clampedTopK request →
        (∀ document, (D.chunks.map (·.metadata.documentId)).count document ≤ 2) →
          ((∃ response, D.search order request = .ok response ∧ D.Serves request response) ↔
            D.IndexCurrent request)) := by
  obtain ⟨backend, hsearch⟩ := D.search_eq order request
  rw [hsearch]
  refine ⟨?_, fun hcurrent => searchFrom_serves hcurrent order backend,
    fun hsize hdocuments => ⟨?_, fun hcurrent => searchFrom_serves hcurrent order backend⟩⟩
  · rw [← D.outcomesFor_eq_error_iff order, searchFrom_eq]
    cases D.outcomesFor order request (D.matchesFor request) <;> simp [Except.map]
  · rintro ⟨response, hresponse, hserved⟩
    exact current_of_searchFrom hsize hdocuments hresponse fun result hresult =>
      (hserved.fit result hresult).2

/-! ## The index in memory -/

/-- Where the chunks have ids of their own, the chunk of an id is the one that has it. -/
theorem eq_of_chunkById (hids : (D.chunks.map KnowledgeChunk.chunkId).Nodup)
    (hchunk : chunk ∈ D.chunks) {shown : KnowledgeChunk}
    (h : D.chunkById.get? chunk.chunkId = some shown) : shown = chunk :=
  List.inj_on_of_nodup_map hids (of_chunkById h).1 hchunk (of_chunkById h).2

/-- The index in memory is current, as the one that takes over for an unavailable index. -/
theorem indexCurrent_of_inMemory (hids : (D.chunks.map KnowledgeChunk.chunkId).Nodup)
    (h : D.index = D.fallbackIndex ∨ ∀ query chunks topK filters,
      D.index.search query chunks topK filters = none) : D.IndexCurrent request := by
  have hmatches : D.matchesFor request = (D.fallbackIndex.search request.query D.chunks
      (max (clampedTopK request * 5) (clampedTopK request + 20)) request.filters).getD [] := by
    rw [matchesFor]
    dsimp only
    rcases h with heq | hnone
    · rw [heq]
      rfl
    · rw [hnone, Option.getD_none]
  have hfiltered : ∀ item ∈ D.matchesFor request, ∃ chunk ∈ D.chunks,
      chunk.chunkId = item.chunkId ∧ request.filters.passes chunk := by
    intro item hitem
    rw [hmatches, fallbackIndex, Option.getD_some] at hitem
    have hmapped := mem_sortedBy.mp (List.mem_of_mem_take hitem)
    obtain ⟨chunk, hchunk, rfl⟩ := List.mem_map.mp hmapped
    obtain ⟨hmem, hpasses⟩ := List.mem_filter.mp hchunk
    exact ⟨chunk, hmem, rfl, hpasses⟩
  refine ⟨fun item hitem => ?_, fun item hitem shown hshown _ => ?_,
    fun chunk hchunk hadded shown hshown _ => ?_⟩
  · obtain ⟨chunk, hchunk, heq, -⟩ := hfiltered item hitem
    exact ⟨chunk, hchunk, heq⟩
  · obtain ⟨chunk, hchunk, heq, hpasses⟩ := hfiltered item hitem
    rw [← heq] at hshown
    rw [eq_of_chunkById hids hchunk hshown]
    exact hpasses
  · rw [eq_of_chunkById hids hchunk hshown]
    exact hadded.2.1

/-! ## A stale index -/

/-- Scores for the small examples. -/
def plainKnowledgeScoring : KnowledgeScoring where
  serviceIn _ := none
  repositoryIn _ := none
  lexicalScore _ _ := .finite 1
  hybridScore _ _ semantic := semantic
  rerankScore _ _ result := result.combinedScore
  cosineSimilarity _ _ := .finite 0
  round x := x

/-- A service without documents, whose index still holds a chunk of one that was removed. -/
def staleKnowledge : EngineeringRagService where
  runtime := .plain
  scoring := plainKnowledgeScoring
  embed _ := []
  index :=
    { backendName := "opensearch"
      search := fun _ _ _ _ => some [⟨"runbook-1#chunk-1", .finite 1⟩] }
  chunks := []

/-- A search fails when the index returns a chunk that is no longer in the corpus. -/
theorem staleKnowledge_fails :
    ¬ ∀ (D : EngineeringRagService) (order : SetOrder)
      (request : EngineeringKnowledgeSearchRequest), 1 ≤ request.topK →
        ∃ response, D.search order request = .ok response ∧ D.Serves request response := by
  intro hclaim
  obtain ⟨response, hresponse, -⟩ :=
    hclaim staleKnowledge .inserted { query := "restart", mode := .vector } (by decide)
  obtain ⟨backend, hsearch⟩ :=
    staleKnowledge.search_eq .inserted { query := "restart", mode := .vector }
  obtain ⟨key, hfailed⟩ := (staleKnowledge.outcomesFor_eq_error_iff .inserted
    { query := "restart", mode := .vector } [⟨"runbook-1#chunk-1", .finite 1⟩]).mpr
      ⟨⟨"runbook-1#chunk-1", .finite 1⟩, List.mem_singleton_self _,
        fun chunk hchunk => by cases hchunk⟩
  have hmatches : staleKnowledge.matchesFor { query := "restart", mode := .vector } =
      [⟨"runbook-1#chunk-1", .finite 1⟩] := rfl
  rw [hsearch, searchFrom_eq, hmatches, hfailed] at hresponse
  cases hresponse

end EngineeringRagService

end McpOps
