import Mathlib.Data.Finset.Sort
import Mathlib.Data.String.Basic
import McpOps.Gateway.JwtAuth
import McpOps.Lib.Procedure
import McpOps.Python.Sorting

/-!
# The GitHub client

`GitHubClient` sends requests over HTTPS and follows one redirect, and `GitHubRepositoryService`
reads the log of a job with it.  The servers are what the requests are answered by; the parsing of
URLs and of JSON is a parameter.
-/

namespace McpOps

open Proc

/-! ## Requests and answers -/

/-- What the client and the service raise. -/
inductive GitHubExn where
  /-- a `GitHubApiError` -/
  | apiError (message : String)
  | permissionDenied (message : String)
  /-- an exception of another class -/
  | other (cls : String)
  deriving DecidableEq, Repr

structure HttpsRequest where
  host : String
  port : ℕ
  method : String
  target : String
  headers : List (String × String)
  body : Option Bytes
  deriving DecidableEq, Repr

structure HttpsResponse where
  status : ℕ
  location : Option String := none
  contentType : Option String := none
  body : Bytes := []

/-- How a request is answered: by a response, or by an exception on the way. -/
inductive Exchange where
  /-- an `OSError`, by its class -/
  | osError (cls : String)
  /-- an exception that is no `OSError`, as those of `http.client` -/
  | otherError (cls : String)
  | response (response : HttpsResponse)

/-- One request sent. -/
inductive ExchangeOp where
  | send (request : HttpsRequest)

/-- What a request is answered by. -/
@[reducible] def ExchangeOp.Ans : ExchangeOp → Type
  | .send _ => Exchange

abbrev exchangeInterface : Interface := ⟨ExchangeOp, ExchangeOp.Ans⟩

/-- What the client reads of a parsed URL. -/
structure UrlParts where
  scheme : String
  hostname : Option String
  /-- the port, unless it is no number in range -/
  port : Except String (Option ℕ)
  path : String
  query : String

/-! ## The client -/

structure GitHubConfig where
  token : String
  owner : String := ""
  repo : String := ""
  allowedRepositories : Finset String := ∅
  apiBaseUrl : String := "https://api.github.com"

structure GitHubClient where
  config : GitHubConfig
  /-- `urlparse(url)`, or the class of what it raises -/
  urlparse : String → Except String UrlParts
  /-- `urlencode(query)`, or the class of what it raises -/
  urlencode : PyDict → Except String String
  /-- `json.dumps(body)`, or the class of what it raises -/
  dumps : PyDict → Except String String
  /-- what `HTTPSConnection(host, port)` raises, if anything -/
  connectFailure : String → ℕ → Option String
  /-- `json.loads(text)`, or the class of what it raises -/
  jsonLoads : String → Except String Value
  /-- `raw.decode("utf-8", errors="replace")` of bytes that are no UTF-8 -/
  decodeReplacing : Bytes → String

/-- The `hostname` of a URL, where it is one over HTTPS. -/
def UrlParts.httpsHost (parts : UrlParts) : Option String :=
  if parts.scheme = "https" then parts.hostname.filter (· ≠ "") else none

/-- What the client makes of a response. -/
inductive Reading where
  | value (value : Value)
  | redirect (location : String)

namespace GitHubClient

variable (client : GitHubClient)

/-- An exception of another class. -/
def raising {α : Type} : Except String α → Except GitHubExn α
  | .ok a => .ok a
  | .error cls => .error (.other cls)

/-- `path.startswith("/")`. -/
def startsWithSlash (path : String) : Bool := path.toList.head? = some '/'

/-- The target of a request, with its query. -/
def targetOf (path : String) (parts : UrlParts) (query : Option PyDict) : Except String String :=
  let target :=
    if startsWithSlash path then path
    else if parts.query = "" then parts.path
    else parts.path ++ "?" ++ parts.query
  match query with
  | some (entry :: rest) =>
      (client.urlencode (entry :: rest)).map fun encoded =>
        target ++ (if '?' ∈ target.toList then "&" else "?") ++ encoded
  | _ => .ok target

/-- The headers of a request, with the token where it goes to the host of the API. -/
def headersOf (host : String) (configured : UrlParts) (hasBody : Bool) : List (String × String) :=
  [("Accept", "application/vnd.github+json"), ("User-Agent", "mcp-engineering-ops-demo"),
    ("X-GitHub-Api-Version", "2022-11-28")] ++
  (if some host = configured.hostname then
    [("Authorization", "Bearer " ++ client.config.token)] else []) ++
  (if hasBody then [("Content-Type", "application/json")] else [])

/-- `None if body is None else json.dumps(body).encode("utf-8")`. -/
def encodeBody : Option PyDict → Except String (Option Bytes)
  | none => .ok none
  | some fields => (client.dumps fields).map fun text => some (encodeUtf8 text)

/-- `_request(...)` up to the connection: the request that is sent. -/
def prepare (method path : String) (query body : Option PyDict) : Except GitHubExn HttpsRequest :=
  if client.config.token = "" then .error (.apiError "GitHub token is not configured.")
  else
    (raising (client.urlparse
      (if startsWithSlash path then client.config.apiBaseUrl else path))).bind fun parts =>
    match parts.httpsHost with
    | none => .error (.apiError "GitHub API base URL must be HTTPS.")
    | some host =>
        (raising (client.targetOf path parts query)).bind fun target =>
        (raising (client.encodeBody body)).bind fun encoded =>
        (raising (client.urlparse client.config.apiBaseUrl)).bind fun configured =>
        (raising parts.port).bind fun port =>
        -- port `0` is as good as none
        let port := (port.filter (· ≠ 0)).getD 443
        match client.connectFailure host port with
        | some cls => .error (.other cls)
        | none =>
            .ok
              { host
                port
                method
                target
                headers := client.headersOf host configured encoded.isSome
                body := encoded }

/-- The text of an empty JSON object, which is read where a body is empty. -/
def emptyObject : String := "\x7b\x7d"

/-- The JSON or the text of a final response. -/
def readBody (contentType : String) (raw : Bytes) : Except GitHubExn Value :=
  let decoded := String.fromUTF8? ⟨raw.toArray⟩
  if "application/json".toList <:+: contentType.toList then
    match decoded with
    | none => .error (.other "UnicodeDecodeError")
    | some text => raising (client.jsonLoads (if text = "" then emptyObject else text))
  else .ok (.str (decoded.getD (client.decodeReplacing raw)))

/-- What is made of a response, which may be a redirect where one is left. -/
def readResponse (maxBytes : ℕ) (redirects : Bool) (response : HttpsResponse) :
    Except GitHubExn Reading :=
  let raw := response.body.take (maxBytes + 1)
  if maxBytes < raw.length then
    .error (.apiError "GitHub response exceeded configured size limit.")
  else if 300 ≤ response.status ∧ response.status < 400 ∧ redirects then
    match response.location.filter (· ≠ "") with
    | none => .error (.apiError "GitHub redirect did not include a location header.")
    | some location =>
        (raising (client.urlparse location)).bind fun redirected =>
        match redirected.httpsHost with
        | none => .error (.apiError "GitHub redirect target must be HTTPS.")
        | some _ => .ok (.redirect location)
  else if 400 ≤ response.status then
    .error (.apiError s!"GitHub API returned HTTP {response.status}.")
  else (client.readBody (response.contentType.getD "") raw).map .value

/-- What is made of the answer of a server. -/
def readExchange (maxBytes : ℕ) (redirects : Bool) : Exchange → Except GitHubExn Reading
  | .osError cls => .error (.apiError ("GitHub API request failed: " ++ cls ++ "."))
  | .otherError cls => .error (.other cls)
  | .response response => client.readResponse maxBytes redirects response

/-- One hop of `_request`: a redirect goes on with `follow`. -/
def hop (maxBytes : ℕ) (redirects : Bool)
    (follow : String → Procedure exchangeInterface GitHubExn Value) (method path : String)
    (query body : Option PyDict) : Procedure exchangeInterface GitHubExn Value :=
  match client.prepare method path query body with
  | .error e => .raise e
  | .ok request => .call (.send request) fun answer =>
      match client.readExchange maxBytes redirects answer with
      | .error e => .raise e
      | .ok (.value value) => .pure value
      | .ok (.redirect location) => follow location

/-- `_request(method, path, query=query, body=body, max_bytes=max_bytes, redirects_remaining=n)`. -/
def requestHops (maxBytes : ℕ) : ℕ → (method path : String) → (query body : Option PyDict) →
    Procedure exchangeInterface GitHubExn Value
  -- without redirects left no response is read as one
  | 0 => client.hop maxBytes false fun _ => .raise (.other "RecursionError")
  | remaining + 1 => client.hop maxBytes true fun location =>
      requestHops maxBytes remaining "GET" location none none

/-- `request(method, path, query=query, body=body, max_bytes=max_bytes)`. -/
def request (method path : String) (query body : Option PyDict) (maxBytes : ℕ) :
    Procedure exchangeInterface GitHubExn Value :=
  client.requestHops maxBytes 1 method path query body

end GitHubClient

/-! ## The service -/

namespace GitHubConfig

/-- `default_repository`. -/
def defaultRepository (config : GitHubConfig) : String :=
  if config.owner ≠ "" ∧ config.repo ≠ "" then config.owner ++ "/" ++ config.repo
  else (config.allowedRepositories.sort (· ≤ ·)).head?.getD "ImmanuelP31/MCP_AI"

end GitHubConfig

/-- A `GitHubRepositoryService` with a configured client. -/
structure GitHubRepositoryService where
  client : GitHubClient

namespace GitHubRepositoryService

variable (service : GitHubRepositoryService)

/-- `_repository(repository)`. -/
def repositoryFor (repository : Option String) : Except GitHubExn String :=
  let config := service.client.config
  let repo := (repository.filter (· ≠ "")).getD config.defaultRepository
  if config.allowedRepositories ≠ ∅ ∧ repo ∉ config.allowedRepositories then
    .error (.permissionDenied s!"Repository {repo} is not in GITHUB_ALLOWED_REPOSITORIES.")
  else .ok repo

/-- `_payload(repository, data)`. -/
def payload (repository : String) (data : PyDict) : Value :=
  .dict
    [("ok", .bool true),
      ("data", .dict ([("repository", .str repository),
        ("github_configured", .bool (decide (service.client.config.token ≠ "")))] ++ data))]

/-- `str(logs)`. -/
def textOf (rt : Runtime) : Value → String
  | .str text => text
  | logs => rt.str logs

/-- `get_job_logs(repository, job_id, max_bytes)`. -/
def getJobLogs (rt : Runtime) (repository : Option String) (jobId maxBytes : ℕ) :
    Procedure exchangeInterface GitHubExn Value := do
  let repo ← .ofExcept (service.repositoryFor repository)
  let logs ← service.client.request "GET" s!"/repos/{repo}/actions/jobs/{jobId}/logs" none none
    maxBytes
  let text := (textOf rt logs).toList
  return service.payload repo
    [("job_id", .int jobId), ("truncated", .bool (decide (maxBytes < text.length))),
      ("logs", .str (String.ofList (text.take maxBytes)))]

end GitHubRepositoryService

end McpOps
