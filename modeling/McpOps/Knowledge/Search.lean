import Mathlib.Data.Finset.Sort
import McpOps.Discovery.Intent
import McpOps.Python.Sorting

/-!
# Search in engineering knowledge

`EngineeringRagService.search`: the matches of an index are merged with the chunks that share terms
with the query or fit its analysis, scored, sorted, and limited to two chunks of a document.

The search goes in this order.

* `analyzeRagQuery` reads document types, environment and capabilities out of the query.
* `candidateIds` are the matches of the index, together with the chunks that the service adds
  itself (`fitsAnalysis`).  The filters of a request are applied to the latter, and not to the
  matches of the index.
* `candidateResult` scores a candidate, and drops it below the minimum.
* `selectRanked` sorts what is left and limits it: `rerankKnowledgeResults` in the hybrid
  mode, `limitByCitation` in the others.

An index that is unavailable is replaced by one in memory (`fallbackIndex`).  The numeric scores are
taken as they come; they are computed in floats, and are parameters in `KnowledgeScoring`.
-/

namespace McpOps

/-! ## Chunks -/

/-- A `datetime`, with its time zone or without one. -/
inductive DocumentTime where
  | aware (time : Time)
  | naive (time : Time)
  deriving DecidableEq

structure EngineeringDocumentMetadata where
  documentId : String
  title : String
  documentType : String
  service : Option String := none
  repository : Option String := none
  environment : Option String := none
  owner : Option String := none
  version : String := "1.0"
  source : String := "synthetic-engineering-corpus"
  updatedAt : DocumentTime
  stale : Bool := false
  capabilityCategories : List String := []
  deriving DecidableEq

structure KnowledgeChunk where
  chunkId : String
  metadata : EngineeringDocumentMetadata
  text : String
  embedding : List PyFloat := []
  promptInjectionDetected : Bool := false
  deriving DecidableEq

/-- `metadata.as_payload()`, with `updated_at.isoformat()`. -/
def EngineeringDocumentMetadata.asPayload (isoformat : DocumentTime → String)
    (metadata : EngineeringDocumentMetadata) : PyDict :=
  [("document_id", .str metadata.documentId), ("title", .str metadata.title),
    ("document_type", .str metadata.documentType),
    ("service", metadata.service.elim .null .str),
    ("repository", metadata.repository.elim .null .str),
    ("environment", metadata.environment.elim .null .str),
    ("owner", metadata.owner.elim .null .str), ("version", .str metadata.version),
    ("source", .str metadata.source), ("updated_at", .str (isoformat metadata.updatedAt)),
    ("stale", .bool metadata.stale),
    ("capability_categories", .list (metadata.capabilityCategories.map .str))]

/-- `chunk.search_text`. -/
def KnowledgeChunk.searchText (chunk : KnowledgeChunk) : String :=
  " ".intercalate
    [chunk.metadata.documentId, chunk.metadata.title, chunk.metadata.documentType,
      chunk.metadata.service.getD "", chunk.metadata.repository.getD "",
      chunk.metadata.environment.getD "", chunk.metadata.owner.getD "", chunk.metadata.version,
      " ".intercalate chunk.metadata.capabilityCategories, chunk.text]

/-! ## Requests -/

inductive KnowledgeSearchMode where
  | bm25
  | vector
  | hybrid
  deriving DecidableEq, Repr

structure KnowledgeFilters where
  documentType : Option String := none
  service : Option String := none
  repository : Option String := none
  environment : Option String := none
  includeStale : Bool := false

structure EngineeringKnowledgeSearchRequest where
  query : String
  topK : ℤ := 5
  mode : KnowledgeSearchMode := .hybrid
  minimumScore : PyFloat := .finite 0
  filters : KnowledgeFilters := {}

structure SemanticKnowledgeMatch where
  chunkId : String
  semanticScore : PyFloat

structure KnowledgeSearchResult where
  chunk : KnowledgeChunk
  lexicalScore : PyFloat
  semanticScore : PyFloat
  combinedScore : PyFloat
  citationId : String
  reason : String
  conflictGroup : Option String := none
  deriving DecidableEq

/-- `result.as_payload()`. -/
def KnowledgeSearchResult.asPayload (isoformat : DocumentTime → String)
    (result : KnowledgeSearchResult) : PyDict :=
  [("chunk_id", .str result.chunk.chunkId), ("citation_id", .str result.citationId),
    ("document", .dict (result.chunk.metadata.asPayload isoformat)),
    ("text", .str (String.ofList (result.chunk.text.toList.take 900))),
    ("lexical_score", .float result.lexicalScore),
    ("semantic_score", .float result.semanticScore),
    ("combined_score", .float result.combinedScore), ("reason", .str result.reason),
    ("classification", .str "UNTRUSTED_RETRIEVED_EVIDENCE"),
    ("prompt_injection_detected", .bool result.chunk.promptInjectionDetected),
    ("conflict_group", result.conflictGroup.elim .null .str)]

structure EngineeringKnowledgeSearchResponse where
  query : String
  mode : KnowledgeSearchMode
  indexBackend : String
  results : List KnowledgeSearchResult

/-- `value`, where a missing or empty one is none. -/
def nonEmpty (value : Option String) : Option String := value.filter (· ≠ "")

/-- A filter on a field: none, or the value that the field must have. -/
def fieldPasses (filter field : Option String) : Bool :=
  (nonEmpty filter).all fun wanted => field = some wanted

/-- The conditions of `_filtered_chunks(request)` on a chunk. -/
def KnowledgeFilters.passes (filters : KnowledgeFilters) (chunk : KnowledgeChunk) : Bool :=
  fieldPasses filters.documentType (some chunk.metadata.documentType) &&
    fieldPasses filters.service chunk.metadata.service &&
    fieldPasses filters.repository chunk.metadata.repository &&
    ((nonEmpty filters.environment).all fun wanted =>
      chunk.metadata.environment = some wanted ∨ chunk.metadata.environment = none) &&
    (filters.includeStale || !chunk.metadata.stale)

/-- `_filter_chunks(chunks, filters)`: one filter after the other, each on its own field. -/
def filterChunks (chunks : List KnowledgeChunk) (filters : KnowledgeFilters) :
    List KnowledgeChunk := chunks.filter filters.passes

/-! ## Query analysis -/

/-- A `RagQueryAnalysis`, as far as the search reads it. -/
structure RagQueryAnalysis where
  service : Option String
  repository : Option String
  environment : Option String
  likelyDocumentTypes : List String
  requiredCapabilities : List String

/-- `DOCUMENT_TYPE_TERMS`. -/
def documentTypeTerms : List (String × List String) :=
  [("api", ["api", "endpoint", "contract", "schema"]),
    ("cicd", ["build", "ci", "pipeline", "job", "workflow", "failed", "failure", "logs"]),
    ("deployment", ["deploy", "deployment", "release", "rollout", "rollback", "staging"]),
    ("environment_policy", ["environment", "prod", "production", "staging", "restriction"]),
    ("mcp_tools", ["tool", "tools", "mcp", "approved"]),
    ("ownership", ["owner", "owns", "team", "escalation"]),
    ("policy", ["policy", "required", "requires", "rule", "approval"]),
    ("run_instructions", ["run", "local", "docker", "compose", "setup", "start"]),
    ("testing", ["test", "tests", "testing", "validation", "smoke", "suite"])]

/-- `CAPABILITY_TERMS` of the query analysis. -/
def queryCapabilityTerms : List (String × List String) :=
  [("approval", ["approval", "approve", "permission"]),
    ("cicd", ["build", "pipeline", "ci", "workflow", "job", "failed", "failure"]),
    ("deployment", ["deploy", "deployment", "release", "rollout", "rollback"]),
    ("documentation", ["document", "docs", "guide", "runbook", "procedure"]),
    ("environment", ["environment", "staging", "production", "prod"]),
    ("ownership", ["owner", "owns", "team", "escalation"]),
    ("policy", ["policy", "restriction", "required", "requires"]),
    ("repository", ["repo", "repository", "commit", "diff", "changes", "files"]),
    ("run_instructions", ["run", "local", "docker", "compose", "setup"]),
    ("testing", ["test", "tests", "validation", "smoke", "suite"])]

/-- The entries of a table of which a token is a term; `cicd` also when a failure is asked about. -/
def matchedEntries (table : List (String × List String)) (rawTerms expanded : List String) :
    List String :=
  let found := (table.filter fun entry =>
    entry.2.any fun term => term ∈ rawTerms ∨ term ∈ expanded).map Prod.fst
  if (["why", "failed", "failure"].any (· ∈ rawTerms)) ∧ "cicd" ∉ found then found ++ ["cicd"]
  else found

/-- `_document_types(raw_terms, expanded_terms, requested_type)`. -/
def likelyDocumentTypes (rawTerms expanded : List String) (requestedType : Option String) :
    List String :=
  match nonEmpty requestedType with
  | some requested => [requested]
  | none =>
      let found := matchedEntries documentTypeTerms rawTerms expanded
      if "deployment" ∈ found ∧ "environment_policy" ∉ found then found ++ ["environment_policy"]
      else found

/-- `_environment(query)`. -/
def environmentIn (rt : Runtime) (query : String) : Option String :=
  (tokenize rt query).findSome? fun term =>
    if term = "prod" ∨ term = "production" then some "production"
    else if term = "staging" ∨ term = "dev" then some term
    else none

/-- What is computed in floats, or found by a regular expression. -/
structure KnowledgeScoring where
  /-- `_service(query)` -/
  serviceIn : String → Option String
  /-- `_repository(query)` -/
  repositoryIn : String → Option String
  /-- `lexical_score(query, chunk)`, which reads the search text of the chunk -/
  lexicalScore : String → String → PyFloat
  /-- the second score of `combined_score(query, chunk, semantic_score)` -/
  hybridScore : String → KnowledgeChunk → PyFloat → PyFloat
  /-- `knowledge_rerank_score(query, analysis, result)` -/
  rerankScore : String → RagQueryAnalysis → KnowledgeSearchResult → PyFloat
  cosineSimilarity : List PyFloat → List PyFloat → PyFloat
  /-- `round(x, 4)` -/
  round : PyFloat → PyFloat

/-- `analyze_rag_query(query, filters)`. -/
def analyzeRagQuery (rt : Runtime) (scoring : KnowledgeScoring) (query : String)
    (filters : KnowledgeFilters) : RagQueryAnalysis :=
  let rawTerms := tokenize rt query
  let expanded := expandedTokens rt query
  let service := (nonEmpty filters.service).or (scoring.serviceIn query)
  { service
    repository := ((nonEmpty filters.repository).or (scoring.repositoryIn query)).or service
    environment := (nonEmpty filters.environment).or (environmentIn rt query)
    likelyDocumentTypes := likelyDocumentTypes rawTerms expanded filters.documentType
    requiredCapabilities := matchedEntries queryCapabilityTerms rawTerms expanded }

/-! ## The service -/

/-- A `KnowledgeIndex`, with any content. -/
structure KnowledgeIndex where
  backendName : String
  /-- the matches, unless the index is unavailable -/
  search : String → List KnowledgeChunk → ℕ → KnowledgeFilters →
    Option (List SemanticKnowledgeMatch)

structure EngineeringRagService where
  runtime : Runtime
  scoring : KnowledgeScoring
  /-- `embedding_provider.embed(text)` -/
  embed : String → List PyFloat
  index : KnowledgeIndex
  chunks : List KnowledgeChunk

/-- How a search fails. -/
inductive SearchFailure where
  | indexUnavailable
  | keyError (key : String)
  deriving DecidableEq, Repr

/-- `_limit_by_citation(results, max_per_citation)`. -/
def limitByCitation (maxPerCitation : ℕ) (counts : Dict String ℕ) :
    List KnowledgeSearchResult → List KnowledgeSearchResult
  | [] => []
  | result :: rest =>
      let count := (counts.get? result.citationId).getD 0
      if maxPerCitation ≤ count then limitByCitation maxPerCitation counts rest
      else
        result :: limitByCitation maxPerCitation (counts.set result.citationId (count + 1)) rest

/-- `_limit_chunks_per_document(results, top_k, max_chunks_per_document)`, after `selected`. -/
def limitChunksPerDocument (topK maxChunksPerDocument : ℕ) (counts : Dict String ℕ)
    (selected : List KnowledgeSearchResult) :
    List KnowledgeSearchResult → List KnowledgeSearchResult
  | [] => selected
  | result :: rest =>
      let count := (counts.get? result.citationId).getD 0
      if maxChunksPerDocument ≤ count then
        limitChunksPerDocument topK maxChunksPerDocument counts selected rest
      else if topK ≤ (selected ++ [result]).length then selected ++ [result]
      else
        limitChunksPerDocument topK maxChunksPerDocument
          (counts.set result.citationId (count + 1)) (selected ++ [result]) rest

/-- `_conflict_group(chunk)`. -/
def conflictGroup (chunk : KnowledgeChunk) : Option String :=
  let metadata := chunk.metadata
  if metadata.documentType = "deployment" ∨ metadata.documentType = "environment_policy" then
    some (":".intercalate [metadata.documentType, (nonEmpty metadata.service).getD "*",
      (nonEmpty metadata.repository).getD "*", (nonEmpty metadata.environment).getD "*"])
  else none

/-- `_rerank_reason(base_reason, analysis, result)`. -/
def rerankReason (analysis : RagQueryAnalysis) (result : KnowledgeSearchResult) : String :=
  let metadata := result.chunk.metadata
  let entity := fun label wanted field =>
    match nonEmpty wanted with
    | some text => if field = some text then [label ++ "=" ++ text] else []
    | none => []
  let signals :=
    (if metadata.documentType ∈ analysis.likelyDocumentTypes then
      ["document_type=" ++ metadata.documentType] else []) ++
    entity "service" analysis.service metadata.service ++
    entity "environment" analysis.environment metadata.environment
  if signals = [] then result.reason
  else result.reason ++ " Reranked for " ++ ", ".intercalate (signals.take 3) ++ "."

/-- `-combined_score, chunk.metadata.stale, citation_id`. -/
def searchKey (result : KnowledgeSearchResult) : SortKey where
  numbers := [result.combinedScore.neg,
    .finite (if result.chunk.metadata.stale then 1 else 0)]
  texts := [result.citationId]

/-- `-combined_score, chunk.metadata.stale, citation_id, chunk.chunk_id`. -/
def rerankKey (result : KnowledgeSearchResult) : SortKey where
  numbers := (searchKey result).numbers
  texts := [result.citationId, result.chunk.chunkId]

namespace EngineeringRagService

variable (D : EngineeringRagService) (order : SetOrder)
  (request : EngineeringKnowledgeSearchRequest)

/-- `min(max(request.top_k, 1), 20)`. -/
def clampedTopK : ℕ := (min (max request.topK 1) 20).toNat

/-- `analyze_rag_query(request.query, request.filters)`. -/
def analysis : RagQueryAnalysis := analyzeRagQuery D.runtime D.scoring request.query request.filters

/-- `_filtered_chunks(request)`. -/
def filteredChunks : List KnowledgeChunk := D.chunks.filter request.filters.passes

/-- The conditions of `_analysis_candidate_chunks(request, analysis)` on a chunk. -/
def fitsAnalysis (chunk : KnowledgeChunk) : Bool :=
  let analysis := D.analysis request
  let metadata := chunk.metadata
  decide (metadata.documentType ∈ analysis.likelyDocumentTypes) ||
    ((nonEmpty analysis.service).any fun wanted => metadata.service = some wanted) ||
    ((nonEmpty analysis.repository).any fun wanted => metadata.repository = some wanted) ||
    ((nonEmpty analysis.environment).any fun wanted =>
      (metadata.environment = some wanted ∨ metadata.environment = none) ∧
        metadata.documentType ∈ ["environment_policy", "policy", "deployment"]) ||
    metadata.capabilityCategories.any (· ∈ analysis.requiredCapabilities)

/-- `{match.chunk_id: match.semantic_score for match in semantic_matches}`. -/
def semanticByChunk (matched : List SemanticKnowledgeMatch) : Dict String PyFloat :=
  matched.foldl (fun d item => d.set item.chunkId item.semanticScore) Dict.empty

/-- `{chunk.chunk_id: chunk for chunk in self.chunks}`. -/
def chunkById : Dict String KnowledgeChunk :=
  D.chunks.foldl (fun d chunk => d.set chunk.chunkId chunk) Dict.empty

/-- The members of `candidate_ids`. -/
def candidateIds (matched : List SemanticKnowledgeMatch) : List String :=
  let added :=
    if request.mode = .vector then []
    else
      (D.filteredChunks request).filter (fun chunk =>
        (PyFloat.finite 0).lt (D.scoring.lexicalScore request.query chunk.searchText)) ++
      (D.filteredChunks request).filter (D.fitsAnalysis request)
  ((semanticByChunk matched).keys ++ added.map KnowledgeChunk.chunkId).dedup

/-- `explanation(query, chunk)`. -/
def explanation (query : String) (chunk : KnowledgeChunk) : String :=
  let known := (tokenize D.runtime query).toFinset ∩
    (expandedTokens D.runtime chunk.searchText).toFinset
  if known ≠ ∅ then
    "Matched engineering context: " ++ ", ".intercalate ((known.sort (· ≤ ·)).take 6) ++ "."
  else
    match nonEmpty chunk.metadata.service with
    | some service => s!"Relevant to service {service}."
    | none => "Selected by semantic similarity to engineering documentation."

/-- The score of a chunk in the mode of the request. -/
def scoreOf (chunk : KnowledgeChunk) (semantic : PyFloat) : PyFloat :=
  match request.mode with
  | .bm25 => D.scoring.lexicalScore request.query chunk.searchText
  | .vector => semantic
  | .hybrid => D.scoring.hybridScore request.query chunk semantic

/-- The result for a chunk. -/
def resultFor (chunk : KnowledgeChunk) (semantic : PyFloat) : KnowledgeSearchResult where
  chunk
  lexicalScore := D.scoring.round (D.scoring.lexicalScore request.query chunk.searchText)
  semanticScore := D.scoring.round semantic
  combinedScore := D.scoring.round (D.scoreOf request chunk semantic)
  citationId := chunk.metadata.documentId
  reason := D.explanation request.query chunk
  conflictGroup := conflictGroup chunk

/-- The loop body over the candidates: nothing when the score is below the minimum. -/
def candidateResult (matched : List SemanticKnowledgeMatch) (chunkId : String) :
    Except SearchFailure (Option KnowledgeSearchResult) :=
  match D.chunkById.get? chunkId with
  | none => .error (.keyError chunkId)
  | some chunk =>
      let semantic := ((semanticByChunk matched).get? chunkId).getD (.finite 0)
      if (D.scoreOf request chunk semantic).lt request.minimumScore then .ok none
      else .ok (some (D.resultFor request chunk semantic))

/-- `_with_rerank_score(query, analysis, result)`. -/
def withRerankScore (result : KnowledgeSearchResult) : KnowledgeSearchResult :=
  { result with
    combinedScore := D.scoring.rerankScore request.query (D.analysis request) result
    reason := rerankReason (D.analysis request) result }

/-- `rerank_knowledge_results(query, analysis, results, top_k, max_chunks_per_document)`. -/
def rerankKnowledgeResults (results : List KnowledgeSearchResult)
    (topK maxChunksPerDocument : ℕ) : List KnowledgeSearchResult :=
  limitChunksPerDocument topK maxChunksPerDocument Dict.empty []
    (sortedBy rerankKey (results.map (D.withRerankScore request)))

/-- The results that `_search_with_index` returns for those that reach the minimum. -/
def selectRanked (ranked : List KnowledgeSearchResult) (topK : ℕ) : List KnowledgeSearchResult :=
  let sorted := sortedBy searchKey ranked
  let limited :=
    if request.mode = .hybrid then
      D.rerankKnowledgeResults request (sorted.take (max (topK * 4) (topK + 20))) topK 2
    else limitByCitation 2 Dict.empty sorted
  limited.take topK

/-- `_search_with_index(request, index, backend, top_k)`, from the matches of the index on. -/
def searchFrom (matched : List SemanticKnowledgeMatch) (backend : String) (topK : ℕ) :
    Except SearchFailure EngineeringKnowledgeSearchResponse := do
  let ranked ← (order.iterate (D.candidateIds request matched)).mapM
    (D.candidateResult request matched)
  .ok
    { query := request.query
      mode := request.mode
      indexBackend := backend
      results := D.selectRanked request (ranked.filterMap id) topK }

/-- `_search_with_index(request, index, backend, top_k)`. -/
def searchWithIndex (index : KnowledgeIndex) (backend : String) (topK : ℕ) :
    Except SearchFailure EngineeringKnowledgeSearchResponse :=
  let candidateK := max (topK * 5) (topK + 20)
  match index.search request.query D.chunks candidateK request.filters with
  | none => .error .indexUnavailable
  | some matched => D.searchFrom order request matched backend topK

/-- `InMemoryKnowledgeIndex(embedding_provider)`, the index that is used when the one of the service
is unavailable. -/
def fallbackIndex : KnowledgeIndex where
  backendName := "in-memory-hashing"
  search query chunks topK filters :=
    let queryEmbedding := D.embed query
    let matched := (filterChunks chunks filters).map fun chunk =>
      (⟨chunk.chunkId, D.scoring.cosineSimilarity queryEmbedding chunk.embedding⟩ :
        SemanticKnowledgeMatch)
    some ((sortedBy (fun item => ⟨[item.semanticScore.neg], [item.chunkId]⟩) matched).take topK)

/-- `search(request)`. -/
def search : Except SearchFailure EngineeringKnowledgeSearchResponse :=
  let topK := clampedTopK request
  match D.searchWithIndex order request D.index D.index.backendName topK with
  | .error .indexUnavailable =>
      D.searchWithIndex order request D.fallbackIndex
        ("fallback:" ++ D.fallbackIndex.backendName) topK
  | outcome => outcome

end EngineeringRagService

end McpOps
