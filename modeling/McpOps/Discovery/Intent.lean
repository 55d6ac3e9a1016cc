import Mathlib.Data.Finset.Union
import McpOps.Discovery.Authorization

/-!
# Intents and capabilities

The tokens of a text, with their synonyms; the capabilities that a query asks for and those that
the document of a tool offers.

`tokenize` keeps runs of at least two token characters, and `expandedTokens` adds to each token what
`synonyms` has for it.  A capability is asked for when one of its terms is among the tokens, by the
table `capabilityTerms`; a tool offers what its category stands for (`categoryCapabilities`) beside
what its own texts name.  `extractRetrievalIntent` is the intent of a query, whose capabilities the
coverage of a selection is measured by.
-/

namespace McpOps

/-! ## Tokens -/

/-- The characters of `[a-z0-9]`. -/
def isTokenChar (c : Char) : Bool := c.isLower || c.isDigit

/-- `tokenize(text)`: the runs of at least two token characters. -/
def tokenize (rt : Runtime) (text : String) : List String :=
  let normalized := (rt.lower text).toList.map fun c => if c = '_' ∨ c = '-' then ' ' else c
  ((normalized.splitOnP fun c => !isTokenChar c).filter fun run => 2 ≤ run.length).map
    String.ofList

/-- `SYNONYMS`. -/
def synonyms : List (String × List String) :=
  [("build", ["pipeline", "ci", "job", "compile"]),
    ("failed", ["failure", "error", "broken", "red"]),
    ("fail", ["failure", "error", "broken", "red"]),
    ("deployment", ["deploy", "release", "rollout"]),
    ("deploy", ["deployment", "release", "rollout"]),
    ("docs", ["documentation", "knowledge", "runbook"]),
    ("documentation", ["docs", "knowledge", "runbook"]),
    ("issue", ["ticket", "workitem", "jira"]),
    ("jira", ["ticket", "issue", "workitem"]),
    ("owner", ["ownership", "team", "service"]),
    ("changes", ["diff", "commit", "files"]),
    ("changed", ["diff", "commit", "files"]),
    ("logs", ["log", "trace", "output"]),
    ("tests", ["test", "validation", "suite"])]

/-- `expanded_tokens(text)`. -/
def expandedTokens (rt : Runtime) (text : String) : List String :=
  (tokenize rt text).flatMap fun token => token :: (synonyms.lookup token).getD []

/-! ## Capabilities -/

/-- `CAPABILITY_TERMS`. -/
def capabilityTerms : List (String × List String) :=
  [("approval", ["approval", "approve", "permission", "authorized", "governed"]),
    ("build", ["build", "pipeline", "ci", "actions", "workflow", "job", "failed", "red"]),
    ("deployment", ["deploy", "deployment", "release", "rollout", "rollback"]),
    ("diagnostics", ["diagnose", "diagnostic", "why", "failure", "failed", "unhealthy", "error",
      "incident", "investigate"]),
    ("documentation", ["docs", "document", "documentation", "runbook", "guide", "procedure"]),
    ("logs", ["log", "logs", "trace", "error", "output", "stacktrace"]),
    ("operation", ["restart", "rerun", "run", "update", "delete", "restore", "execute"]),
    ("ownership", ["owner", "owns", "team", "service", "catalog", "escalation"]),
    ("repository", ["commit", "commits", "diff", "files", "changes", "changed", "pr", "pull",
      "repository", "repo"]),
    ("testing", ["test", "tests", "validation", "smoke", "suite", "pytest"]),
    ("ticket", ["ticket", "issue", "jira", "maintenance", "defect"]),
    ("device", ["device", "sim", "telemetry", "sensor", "service", "health"]),
    ("compensation", ["compensate", "compensation", "restore", "revert", "close"])]

/-- `CATEGORY_CAPABILITIES`. -/
def categoryCapabilities : List (String × List String) :=
  [("cicd", ["build"]), ("device", ["device", "diagnostics", "operation"]),
    ("diagnostics", ["diagnostics", "logs", "device"]), ("knowledge", ["documentation"]),
    ("repository", ["repository"]), ("service_catalog", ["ownership", "documentation"]),
    ("ticket", ["ticket"])]

/-- The capabilities that one of the tokens is a term of. -/
def capabilitiesOf (tokens : List String) : Finset String :=
  ((capabilityTerms.filter fun entry => entry.2.any (· ∈ tokens)).map Prod.fst).toFinset

/-- `document_capabilities(document)`. -/
def documentCapabilities (rt : Runtime) (document : ToolDocument) : Finset String :=
  ((categoryCapabilities.lookup document.category).getD []).toFinset ∪
    capabilitiesOf (expandedTokens rt document.discoveryText)

/-! ## Intents -/

/-- A `RetrievalIntent`, without the entities, which are only scored. -/
structure RetrievalIntent where
  primaryIntents : Finset String := ∅
  requestedCapabilities : Finset String := ∅
  riskPreference : String := "neutral"

/-- `_primary_intents(tokens, capabilities)`. -/
def primaryIntents (tokens : List String) (capabilities : Finset String) : Finset String :=
  let mentions (terms : List String) := terms.any (· ∈ tokens)
  let rules :=
    [("investigate_failure", mentions ["why", "investigate", "failed", "failure", "unhealthy"]),
      ("diagnose_issue", mentions ["diagnose", "diagnostic", "error", "incident"]),
      ("create_record", mentions ["ticket", "issue", "jira"] && mentions ["create", "open"]),
      ("execute_operation",
        mentions ["restart", "rerun", "deploy", "rollback", "update", "delete"]),
      ("lookup_knowledge", decide ("documentation" ∈ capabilities))]
  ((rules.filter Prod.snd).map Prod.fst).toFinset

/-- `_risk_preference(tokens, capabilities)`. -/
def riskPreference (tokens : List String) (capabilities : Finset String) : String :=
  let asksToInvestigate := ["why", "check", "inspect", "investigate", "find"].any (· ∈ tokens)
  let asksToOperate := ["restart", "rerun", "deploy", "rollback", "delete"].any (· ∈ tokens)
  if asksToInvestigate ∧ ¬asksToOperate then "investigation_first"
  else if asksToOperate ∨ "operation" ∈ capabilities then "operation_requested"
  else "neutral"

/-- `extract_retrieval_intent(query)`. -/
def extractRetrievalIntent (rt : Runtime) (query : String) : RetrievalIntent :=
  let rawTokens := tokenize rt query
  let capabilities := capabilitiesOf (expandedTokens rt query)
  { primaryIntents := primaryIntents rawTokens capabilities
    requestedCapabilities := capabilities
    riskPreference := riskPreference rawTokens capabilities }

end McpOps
