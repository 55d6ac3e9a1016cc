import McpOps.Discovery.Coverage
import McpOps.Lib.Traversal

/-!
# Retrieval of tools

`ToolDiscoveryService.retrieve`: the matches of an index are merged with the documents that share
terms with the query, scored, filtered by role, reranked and cut.

* `candidateNames` are the names that the index matches, together with the documents that the
  service adds itself.  The filters of a request are applied to the latter, and not to the matches
  of the index, which may moreover name a tool that is not registered.
* `candidateOutcome` is the body of the loop over them: a candidate is not served when it is scored
  below the minimum or not permitted to the role, and one that is unknown ends the retrieval.
* `selectRanked` sorts and reranks what is left, and cuts it to `top_k`.

An index that is unavailable is replaced by one in memory (`fallbackIndex`).  The numeric scores are
taken as they come; they are parameters in `ToolScoring`.
-/

namespace McpOps

/-! ## Requests and matches -/

structure ToolDiscoveryFilters where
  allowedServers : Finset String := ∅
  allowedCategories : Finset String := ∅

structure ToolDiscoveryRequest where
  query : String
  role : String
  topK : ℕ
  minimumScore : PyFloat
  filters : ToolDiscoveryFilters

structure SemanticMatch where
  toolName : String
  semanticScore : PyFloat

structure ToolDiscoveryResponse where
  query : String
  role : String
  rankedTools : List ToolDiscoveryResult
  filteredOutUnauthorized : ℕ
  indexBackend : String

/-- A `ToolEmbeddingIndex`, with any content. -/
structure ToolEmbeddingIndex where
  backendName : String
  /-- the matches, unless the index is unavailable -/
  search : String → List ToolDocument → ℕ → ToolDiscoveryFilters → Option (List SemanticMatch)

/-- What is computed in floats. -/
structure ToolScoring where
  lexicalScore : String → ToolDocument → PyFloat
  metadataScore : String → ToolDocument → PyFloat
  capabilityScore : RetrievalIntent → ToolDocument → PyFloat
  /-- `combined_score(query, document, semantic_score, intent)` with the weights of the settings -/
  combinedScore : String → ToolDocument → PyFloat → RetrievalIntent → PyFloat × PyFloat
  rerankScore : String → RetrievalIntent → ToolDiscoveryResult → PyFloat
  cosineSimilarity : List PyFloat → List PyFloat → PyFloat
  /-- `round(x, 4)` -/
  round : PyFloat → PyFloat

/-- How a retrieval fails. -/
inductive RetrievalFailure where
  | indexUnavailable
  | keyError (key : String)
  deriving DecidableEq, Repr

/-- `_matches_filters(document, filters)`. -/
def matchesFilters (document : ToolDocument) (filters : ToolDiscoveryFilters) : Bool :=
  if filters.allowedServers ≠ ∅ ∧ document.server ∉ filters.allowedServers then false
  else if filters.allowedCategories ≠ ∅ ∧ document.category ∉ filters.allowedCategories then false
  else true

/-- `_filter_documents(documents, filters)`. -/
def filterDocuments (documents : List ToolDocument) (filters : ToolDiscoveryFilters) :
    List ToolDocument :=
  let served :=
    if filters.allowedServers = ∅ then documents
    else documents.filter fun item => item.server ∈ filters.allowedServers
  if filters.allowedCategories = ∅ then served
  else served.filter fun item => item.category ∈ filters.allowedCategories

/-! ## The service -/

/-- A discovery service over a registry. -/
structure ToolRetrieval extends ToolDiscoveryService where
  registry : Dict String CatalogedTool
  documents : List ToolDocument
  built : (registry.entries.mergeSort fun a b => decide (a.1 ≤ b.1)).mapM
    (fun entry => toToolDiscoveryService.documentFromMetadata entry.1 entry.2) = .ok documents
  scoring : ToolScoring
  index : ToolEmbeddingIndex
  /-- `settings.tool_discovery_minimum_score` -/
  minimumScore : PyFloat

/-- `InMemoryToolEmbeddingIndex(embedding_provider)`. -/
def inMemoryToolIndex (D : ToolDiscoveryService) (scoring : ToolScoring) : ToolEmbeddingIndex where
  backendName := "in-memory-hashing"
  search query documents topK filters :=
    let queryEmbedding := D.embed query
    let matched := (filterDocuments documents filters).map fun document =>
      (⟨document.name, scoring.cosineSimilarity queryEmbedding document.embedding⟩ : SemanticMatch)
    some ((sortedBy (fun item => ⟨[item.semanticScore.neg], [item.toolName]⟩) matched).take topK)

namespace ToolRetrieval

variable (D : ToolRetrieval) (order : SetOrder) (request : ToolDiscoveryRequest)

/-- `_lexical_or_metadata_candidate(query, document, intent)`. -/
def lexicalOrMetadataCandidate (document : ToolDocument) : Bool :=
  (PyFloat.finite 0).lt (D.scoring.lexicalScore request.query document) ||
    (PyFloat.finite 0).lt (D.scoring.metadataScore request.query document) ||
    (PyFloat.finite 0).lt
      (D.scoring.capabilityScore (extractRetrievalIntent D.runtime request.query) document)

/-- `explanation(query, document, intent)`. -/
def explanation (query : String) (document : ToolDocument) (intent : RetrievalIntent) : String :=
  let known := (tokenize D.runtime query).toFinset ∩
    (expandedTokens D.runtime document.discoveryText).toFinset
  let overlap := intent.requestedCapabilities ∩ documentCapabilities D.runtime document
  if overlap ≠ ∅ then
    "Matched requested capabilities: " ++ ", ".intercalate ((overlap.sort (· ≤ ·)).take 5) ++ "."
  else if known ≠ ∅ then
    "Matched request terms: " ++ ", ".intercalate ((known.sort (· ≤ ·)).take 5) ++ "."
  else if document.category.toList <:+: (D.runtime.lower query).toList then
    s!"Matched requested engineering category {document.category}."
  else "Selected by semantic similarity to the tool description and tags."

/-- What becomes of a candidate. -/
inductive CandidateOutcome where
  | belowMinimum
  | unauthorized
  | ranked (result : ToolDiscoveryResult)

/-- The result of an outcome. -/
def CandidateOutcome.result? : CandidateOutcome → Option ToolDiscoveryResult
  | .ranked result => some result
  | _ => none

/-- The outcome counts as unauthorized. -/
def CandidateOutcome.isUnauthorized : CandidateOutcome → Bool
  | .unauthorized => true
  | _ => false

/-- `{match.tool_name: match.semantic_score for match in semantic_matches}`. -/
def semanticByName (matched : List SemanticMatch) : Dict String PyFloat :=
  matched.foldl (fun d item => d.set item.toolName item.semanticScore) Dict.empty

/-- `{document.name: document for document in self.documents}`. -/
def documentByName : Dict String ToolDocument :=
  D.documents.foldl (fun d document => d.set document.name document) Dict.empty

/-- The members of `candidate_names`. -/
def candidateNames (matched : List SemanticMatch) : List String :=
  ((semanticByName matched).keys ++
    (D.documents.filter fun document =>
      matchesFilters document request.filters && D.lexicalOrMetadataCandidate request document).map
      ToolDocument.name).dedup

/-- The result for a document of a candidate. -/
def resultFor (document : ToolDocument) (semanticScore : PyFloat) : ToolDiscoveryResult :=
  let intent := extractRetrievalIntent D.runtime request.query
  let scores := D.scoring.combinedScore request.query document semanticScore intent
  { tool := document
    semanticScore := D.scoring.round semanticScore
    lexicalScore := scores.1
    combinedScore := scores.2
    authorizationStatus := "authorized"
    explanation := D.explanation request.query document intent }

/-- The loop body over the candidates. -/
def candidateOutcome (matched : List SemanticMatch) (toolName : String) :
    Except RetrievalFailure CandidateOutcome :=
  match D.documentByName.get? toolName with
  | none => .error (.keyError toolName)
  | some document =>
      let semanticScore := ((semanticByName matched).get? toolName).getD (.finite 0)
      let result := D.resultFor request document semanticScore
      if result.combinedScore.lt request.minimumScore then .ok .belowMinimum
      else if ¬D.roleAuthorized request.role document then .ok .unauthorized
      else .ok (.ranked result)

/-- `-combined_score, -semantic_score, -lexical_score, tool.name`. -/
def rankKey (result : ToolDiscoveryResult) : SortKey where
  numbers := [result.combinedScore.neg, result.semanticScore.neg, result.lexicalScore.neg]
  texts := [result.name]

/-- `_with_rerank_score(query, intent, result)`. -/
def withRerankScore (result : ToolDiscoveryResult) : ToolDiscoveryResult :=
  let intent := extractRetrievalIntent D.runtime request.query
  let overlap :=
    (intent.requestedCapabilities ∩ documentCapabilities D.runtime result.tool).sort (· ≤ ·)
  { result with
    combinedScore := D.scoring.rerankScore request.query intent result
    explanation :=
      if overlap = [] then result.explanation
      else result.explanation ++ " Reranked for capability fit: " ++
        ", ".intercalate (overlap.take 4) ++ "." }

/-- `rerank_results(query, intent, results, top_k)`. -/
def rerankResults (results : List ToolDiscoveryResult) (topK : ℕ) : List ToolDiscoveryResult :=
  (sortedBy rankKey (results.map (D.withRerankScore request))).take topK

/-- The results that `_retrieve_with_index` returns for those that are ranked. -/
def selectRanked (ranked : List ToolDiscoveryResult) : List ToolDiscoveryResult :=
  let firstStage := sortedBy rankKey ranked
  let rerankPoolSize := min firstStage.length (max (request.topK * 2) 12)
  completeWorkflowCoverage D.runtime (extractRetrievalIntent D.runtime request.query)
    (D.rerankResults request (firstStage.take rerankPoolSize) rerankPoolSize) request.topK

/-- `_retrieve_with_index(request, index, backend)`, from the matches of the index on. -/
def retrieveFrom (matched : List SemanticMatch) (backend : String) :
    Except RetrievalFailure ToolDiscoveryResponse := do
  let outcomes ← (order.iterate (D.candidateNames request matched)).mapM
    (D.candidateOutcome request matched)
  .ok
    { query := request.query
      role := request.role
      rankedTools := D.selectRanked request (outcomes.filterMap CandidateOutcome.result?)
      filteredOutUnauthorized := outcomes.countP CandidateOutcome.isUnauthorized
      indexBackend := backend }

/-- `_retrieve_with_index(request, index, backend)`. -/
def retrieveWithIndex (index : ToolEmbeddingIndex) (backend : String) :
    Except RetrievalFailure ToolDiscoveryResponse :=
  let candidateK := max (request.topK * 4) (request.topK + 12)
  match index.search request.query D.documents candidateK request.filters with
  | none => .error .indexUnavailable
  | some matched => D.retrieveFrom order request matched backend

/-- The index that is used when the one of the service is unavailable. -/
def fallbackIndex : ToolEmbeddingIndex := inMemoryToolIndex D.toToolDiscoveryService D.scoring

/-- `_top_k(value)`. -/
def clampTopK (value : ℤ) : ℕ := (min (max value 1) 50).toNat

/-- `_minimum_score(value, settings)`. -/
def clampMinimumScore (value : Option PyFloat) : PyFloat :=
  let value := value.getD D.minimumScore
  let raised := if value.lt (.finite 0) then .finite 0 else value
  if (PyFloat.finite 1).lt raised then .finite 1 else raised

/-- The request that `retrieve` makes of its arguments. -/
def requestOf (query role : String) (topK : ℤ) (minimumScore : Option PyFloat)
    (filters : ToolDiscoveryFilters) : ToolDiscoveryRequest where
  query
  role
  topK := clampTopK topK
  minimumScore := D.clampMinimumScore minimumScore
  filters

/-- `retrieve(query, role, top_k, minimum_score, allowed_servers, allowed_categories)`. -/
def retrieve (query role : String) (topK : ℤ) (minimumScore : Option PyFloat)
    (filters : ToolDiscoveryFilters) : Except RetrievalFailure ToolDiscoveryResponse :=
  let request := D.requestOf query role topK minimumScore filters
  match D.retrieveWithIndex order request D.index D.index.backendName with
  | .error .indexUnavailable =>
      D.retrieveWithIndex order request D.fallbackIndex ("fallback:" ++ D.fallbackIndex.backendName)
  | outcome => outcome

end ToolRetrieval

end McpOps
