import McpOps.Knowledge.Search
import McpOps.Lib.Runs
import McpOps.Policy.PromptInjection

/-!
# Ingestion of documents

`ingest_document`: a document is split at its headings, each section is packed into chunks of whole
sentences, and every chunk is cleaned like the description of a tool, which keeps 600 characters of
it.  White space, control characters and the pattern of a heading are written out here.

* `headingAt` is the pattern of a heading at one line, and `findHeading` the search for the next
  one.  The `\s*` at both ends of the pattern may take several lines, which is why the match carries
  what comes after it.
* `splitSentences` splits at white space behind `.`, `!` or `?`, and `packSentences` fills chunks
  with these sentences, one that is too long by itself being cut.
* `validateMetadata` makes the checks of `_validate_metadata` in their order, with the text of each
  error.
-/

namespace McpOps

open Redaction

/-! ## Headings -/

/-- A match of `^\s*(#{1,6})\s+(.+?)\s*$`, and what comes after it. -/
structure HeadingMatch where
  marker : List Char
  heading : List Char
  trailing : List Char
  after : List Char

/-- What `\s*$` matches: the white space up to the end of the text, or of a line. -/
def trailingSpace (text : List Char) : List Char :=
  let spaces := text.takeWhile isSpace
  if spaces.length = text.length then text
  else (spaces.rdropWhile (· ≠ '\n')).dropLast

/-- The match at the start of a line. -/
def headingAt (text : List Char) : Option HeadingMatch :=
  let marked := text.dropWhile isSpace
  let marker := marked.takeWhile (· = '#')
  let spaced := marked.dropWhile (· = '#')
  let spaces := spaced.takeWhile isSpace
  if marker = [] ∨ 6 < marker.length ∨ spaces = [] then none
  else
    match spaced.dropWhile isSpace with
    -- only white space is left: a part of it is the heading, which is no line break
    | [] =>
        (spaces.tail.rdropWhile (· = '\n')).getLast?.map fun c =>
          ⟨marker, [c], spaces.tail.rtakeWhile (· = '\n'), []⟩
    | c :: rest =>
        let heading := ((c :: rest).takeWhile (· ≠ '\n')).rdropWhile isSpace
        let left := (c :: rest).drop heading.length
        let trailing := trailingSpace left
        some ⟨marker, heading, trailing, left.drop trailing.length⟩

/-- The next match, at the start of this or of a later line, with the text before it. -/
def findHeading : (lineStart : Bool) → List Char → Option (List Char × HeadingMatch)
  | _, [] => none
  | lineStart, c :: rest =>
      match if lineStart then headingAt (c :: rest) else none with
      | some found => some ([], found)
      | none => (findHeading (c = '\n') rest).map fun found => (c :: found.1, found.2)

/-- The text before the first match, and the matches with the text after each. -/
def splitHeadings : (fuel : ℕ) → (lineStart : Bool) → List Char →
    List Char × List (HeadingMatch × List Char)
  | 0, _, text => (text, [])
  | fuel + 1, lineStart, text =>
      match findHeading lineStart text with
      | none => (text, [])
      | some (before, found) =>
          let rest := splitHeadings fuel (found.trailing.getLast? = some '\n') found.after
          (before, (found, rest.1) :: rest.2)

/-- The text before the first heading of a document, and the headings with what follows. -/
def headingsOf (text : List Char) : List Char × List (HeadingMatch × List Char) :=
  splitHeadings text.length true text

/-- `_markdown_sections(text)`. -/
def markdownSections (text : List Char) : List (List Char × List Char) :=
  (headingsOf text).2.filterMap fun (found, between) =>
    let body := stripText between
    if body = [] then none else some (stripText (collapseSpaces found.heading), body)

/-! ## Chunks -/

/-- `re.split(r"(?<=[.!?])\s+", text)`. -/
def splitSentences (text : List Char) : List (List Char) :=
  Runs.splitBehind isSpace (fun c => decide (c ∈ ['.', '!', '?'])) false false text

/-- The loop of `_sentence_chunks`, with the chunk that is being filled. -/
def packSentences (chunkSize : ℤ) (current : List Char) : List (List Char) → List (List Char)
  | [] => if current = [] then [] else [current]
  | sentence :: rest =>
      if chunkSize < current.length + sentence.length + 1 ∧ current ≠ [] then
        current :: packSentences chunkSize sentence rest
      else packSentences chunkSize (stripText (current ++ ' ' :: sentence)) rest

/-- `_sentence_chunks(text, chunk_size)`. -/
def sentenceChunks (text : List Char) (chunkSize : ℤ) : List (List Char) :=
  let normalized := stripText (collapseSpaces text)
  if normalized.length ≤ chunkSize then [normalized]
  else packSentences chunkSize [] (splitSentences normalized)

/-- `f"Section: {heading}. "`. -/
def sectionPrefix (heading : List Char) : List Char :=
  "Section: ".toList ++ heading ++ ". ".toList

/-- `_chunk_text(text, chunk_size)`. -/
def chunkText (text : List Char) (chunkSize : ℤ) : List (List Char) :=
  let sectioned := markdownSections text
  if sectioned = [] then sentenceChunks text chunkSize
  else
    sectioned.flatMap fun (heading, body) =>
      let leading := sectionPrefix heading
      (sentenceChunks body (max 100 (chunkSize - leading.length))).map fun chunk =>
        stripText (leading ++ chunk)

/-! ## Documents -/

/-- A `RagIngestionError`. -/
structure RagIngestionError where
  message : String
  deriving DecidableEq, Repr

structure EngineeringDocument where
  metadata : EngineeringDocumentMetadata
  content : String

/-- `_validate_metadata(metadata)`.  That the fields are texts and a `datetime` is in their
types. -/
def validateMetadata (metadata : EngineeringDocumentMetadata) : Except RagIngestionError Unit :=
  let required :=
    [("document_id", metadata.documentId), ("title", metadata.title),
      ("document_type", metadata.documentType), ("version", metadata.version),
      ("source", metadata.source)]
  let missing := (required.filter (·.2 = "")).map Prod.fst
  if missing ≠ [] then .error ⟨"missing metadata fields: " ++ ", ".intercalate missing⟩
  else
    match metadata.updatedAt with
    | .naive _ => .error ⟨"updated_at must include timezone"⟩
    | .aware _ => .ok ()

/-- `_embedding_text(metadata, text)`. -/
def embeddingText (metadata : EngineeringDocumentMetadata) (text : String) : String :=
  "\n".intercalate
    ["Title: " ++ metadata.title, "Type: " ++ metadata.documentType,
      "Service: " ++ metadata.service.getD "", "Repository: " ++ metadata.repository.getD "",
      "Environment: " ++ metadata.environment.getD "", "Owner: " ++ metadata.owner.getD "",
      "Version: " ++ metadata.version,
      "Capabilities: " ++ " ".intercalate metadata.capabilityCategories, text]

/-- The chunk that is made of a text. -/
def ingestedChunk (embed : String → List PyFloat) (metadata : EngineeringDocumentMetadata)
    (index : ℕ) (text : List Char) : KnowledgeChunk :=
  let cleaned := sanitizeDescription text
  { chunkId := s!"{metadata.documentId}#chunk-{index}"
    metadata
    text := String.ofList cleaned
    embedding := embed (embeddingText metadata (String.ofList cleaned))
    promptInjectionDetected := detectPromptInjection cleaned }

/-- `ingest_document(document, embedding_provider=..., chunk_size=...)`. -/
def ingestDocument (embed : String → List PyFloat) (document : EngineeringDocument)
    (chunkSize : ℤ) : Except RagIngestionError (List KnowledgeChunk) :=
  (validateMetadata document.metadata).bind fun _ =>
    if stripText document.content.toList = [] then
      .error ⟨"document content must be a non-empty string"⟩
    else
      .ok ((chunkText document.content.toList chunkSize).mapIdx fun index text =>
        ingestedChunk embed document.metadata (index + 1) text)

end McpOps
