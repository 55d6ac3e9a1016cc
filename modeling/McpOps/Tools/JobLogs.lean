import McpOps.Tools.GitHubSafety

/-!
# The log of a job

The client refuses a response of more than `max_bytes` bytes, and the service cuts a text after
`max_bytes` characters.  A text has no more characters than bytes, so that a log which the service
would cut has been refused before.

`ServesLog` says how the servers answer: with the log as a text, directly or after a redirect.
How a request ends is settled by the answers (`Ended.unique`), so a run that is exhibited is the
run (`outcome_of_servesLog`), and its outcome is the log unless a response is too large
(`readResponse_of_log`).

`jobLogs_eq_cutLog_iff` follows with the comparison of lengths, and `jobLogs_whole` says what it
comes to: no log is ever returned as truncated.
-/

namespace McpOps

open Proc

/-! ## Texts and their bytes -/

theorem fromUTF8_encodeUtf8 (text : String) :
    String.fromUTF8? ⟨(encodeUtf8 text).toArray⟩ = some text := by
  rw [encodeUtf8, Array.toArray_toList, String.toUTF8_eq_toByteArray, String.fromUTF8?]
  exact dif_pos text.isValidUTF8

/-- A text has no more characters than bytes. -/
theorem length_le_encodeUtf8 (text : String) : text.toList.length ≤ (encodeUtf8 text).length := by
  have hbytes : (encodeUtf8 text).length = text.toList.utf8Encode.size := by
    rw [String.utf8Encode_toList, encodeUtf8, String.toUTF8_eq_toByteArray, Array.length_toList]
    rfl
  rw [hbytes]
  generalize text.toList = chars
  induction chars with
  | nil => exact Nat.le_refl _
  | cons c rest ih =>
      have hpos : 0 < [c].utf8Encode.size := by
        rw [List.utf8Encode_singleton]
        simpa using c.utf8Size_pos
      rw [List.utf8Encode_cons, ByteArray.size_append, List.length_cons]
      omega

/-! ## Logs that are served -/

/-- A success whose body is the log, as a text. -/
def IsLog (log : String) (response : HttpsResponse) : Prop :=
  200 ≤ response.status ∧ response.status < 300 ∧ response.body = encodeUtf8 log ∧
    ¬"application/json".toList <:+: (response.contentType.getD "").toList

/-- The servers answer a request for the log with it, directly or after a redirect with this
body. -/
inductive ServesLog (client : GitHubClient) (path log : String)
    (answers : ℕ → HttpsRequest → Exchange) : (redirectBody : Bytes) → Prop
  | direct {request : HttpsRequest} {response : HttpsResponse}
      (hsent : client.prepare "GET" path none none = .ok request)
      (hanswer : answers 0 request = .response response) (hlog : IsLog log response) :
      ServesLog client path log answers []
  | redirected {request next : HttpsRequest} {redirect response : HttpsResponse}
      {location host : String} {parts : UrlParts}
      (hsent : client.prepare "GET" path none none = .ok request)
      (hanswer : answers 0 request = .response redirect)
      (hstatus : 300 ≤ redirect.status ∧ redirect.status < 400)
      (hlocation : redirect.location.filter (· ≠ "") = some location)
      (hparsed : client.urlparse location = .ok parts) (hhost : parts.httpsHost = some host)
      (hnext : client.prepare "GET" location none none = .ok next)
      (hlast : answers 1 next = .response response) (hlog : IsLog log response) :
      ServesLog client path log answers redirect.body

namespace GitHubClient

variable {client : GitHubClient} {maxBytes : ℕ} {redirects : Bool} {response : HttpsResponse}
  {log path : String} {answers : ℕ → HttpsRequest → Exchange}

/-- The error of a response that is too large. -/
def tooLarge : GitHubExn := .apiError "GitHub response exceeded configured size limit."

theorem readResponse_of_large (h : maxBytes < response.body.length) :
    client.readResponse maxBytes redirects response = .error tooLarge := by
  have hread : maxBytes < (response.body.take (maxBytes + 1)).length := by
    rw [List.length_take]
    omega
  unfold readResponse
  exact if_pos hread

/-- A log within the limit is read as its text. -/
theorem readResponse_of_log (hlog : IsLog log response) (h : response.body.length ≤ maxBytes) :
    client.readResponse maxBytes redirects response = .ok (.value (.str log)) := by
  obtain ⟨hlow, hhigh, hbody, htext⟩ := hlog
  have hread : ¬maxBytes < (response.body.take (maxBytes + 1)).length := by
    rw [List.length_take]
    omega
  have hfinal : ¬(300 ≤ response.status ∧ response.status < 400 ∧ redirects) := fun h => by omega
  have hread' : client.readBody (response.contentType.getD "")
      (response.body.take (maxBytes + 1)) = .ok (.str log) := by
    rw [List.take_of_length_le (by omega), hbody]
    unfold readBody
    dsimp only
    split
    · rename_i hjson
      exact absurd hjson htext
    · rw [fromUTF8_encodeUtf8, Option.getD_some]
  unfold readResponse
  dsimp only
  rw [if_neg hread, if_neg hfinal, if_neg (not_le.mpr (by omega)), hread', Except.map]

/-- The servers' answers settle how a request ends. -/
theorem Ended.unique {method : String} {query body : Option PyDict}
    {result result' : Except GitHubExn Value} {sent sent' : List (HttpsRequest × Exchange)}
    (h : Ended client method path query body maxBytes answers result sent)
    (h' : Ended client method path query body maxBytes answers result' sent') :
    result = result' := by
  cases h <;> cases h' <;> simp_all

/-- The request for a log returns its text, unless a response is too large. -/
theorem outcome_of_servesLog {redirectBody : Bytes} (maxBytes : ℕ)
    (hserves : ServesLog client path log answers redirectBody) :
    ((encodeUtf8 log).length ≤ maxBytes ∧ redirectBody.length ≤ maxBytes ∧
      client.outcome "GET" path none none maxBytes answers = .ok (.str log)) ∨
    (¬((encodeUtf8 log).length ≤ maxBytes ∧ redirectBody.length ≤ maxBytes) ∧
      client.outcome "GET" path none none maxBytes answers = .error tooLarge) := by
  have hended := client.request_ended "GET" path none none maxBytes answers
  -- a log is read as its text or refused, in each hop
  have hread : ∀ (redirects : Bool) {answer : Exchange} {response : HttpsResponse},
      answer = .response response → IsLog log response →
        ((encodeUtf8 log).length ≤ maxBytes →
          client.readExchange maxBytes redirects answer = .ok (.value (.str log))) ∧
        (maxBytes < (encodeUtf8 log).length →
          client.readExchange maxBytes redirects answer = .error tooLarge) := by
    rintro redirects _ response rfl hlog
    rw [readExchange, ← hlog.2.2.1]
    exact ⟨readResponse_of_log hlog, readResponse_of_large⟩
  cases hserves with
  | @direct request response hsent hanswer hlog =>
      obtain ⟨hsmall, hlarge⟩ := hread true hanswer hlog
      by_cases hlength : (encodeUtf8 log).length ≤ maxBytes
      · exact .inl ⟨hlength, Nat.zero_le _, hended.unique (.returned hsent (hsmall hlength))⟩
      · exact .inr ⟨fun h => hlength h.1,
          hended.unique (.failed hsent (hlarge (not_le.mp hlength)))⟩
  | @redirected request next redirect response location host parts hsent hanswer hstatus hlocation
      hparsed hhost hnext hlast hlog =>
      by_cases hredirect : redirect.body.length ≤ maxBytes
      · have hto : client.RedirectsTo maxBytes (answers 0 request) location :=
          ⟨redirect, hanswer, ⟨hredirect, hstatus⟩, hlocation, parts, host, hparsed, hhost⟩
        have hfollowed := readExchange_redirectsTo hto
        obtain ⟨hsmall, hlarge⟩ := hread false hlast hlog
        by_cases hlength : (encodeUtf8 log).length ≤ maxBytes
        · exact .inl ⟨hlength, hredirect,
            hended.unique (.redirectReturned hsent hfollowed hnext (hsmall hlength))⟩
        · exact .inr ⟨fun h => hlength h.1,
            hended.unique (.redirectFailed hsent hfollowed hnext (hlarge (not_le.mp hlength)))⟩
      · refine .inr ⟨fun h => hredirect h.2, hended.unique (.failed hsent ?_)⟩
        rw [hanswer]
        exact readResponse_of_large (not_le.mp hredirect)

end GitHubClient

/-! ## Logs that are returned -/

namespace GitHubRepositoryService

variable {service : GitHubRepositoryService} {repository : Option String} {repo log : String}
  {answers : ℕ → HttpsRequest → Exchange} {redirectBody : Bytes}

/-- The path of the log of a job. -/
def logPath (repo : String) (jobId : ℕ) : String := s!"/repos/{repo}/actions/jobs/{jobId}/logs"

/-- What `get_job_logs` returns or raises, when the servers answer like this. -/
def jobLogs (service : GitHubRepositoryService) (rt : Runtime) (repository : Option String)
    (jobId maxBytes : ℕ) (answers : ℕ → HttpsRequest → Exchange) : Except GitHubExn Value :=
  ((service.getJobLogs rt repository jobId maxBytes).run web () answers (.start ())).1

/-- The first `max_bytes` characters of a log, and whether it has more. -/
def cutLog (service : GitHubRepositoryService) (repo : String) (jobId maxBytes : ℕ)
    (log : String) : Value :=
  service.payload repo
    [("job_id", .int jobId), ("truncated", .bool (decide (maxBytes < log.toList.length))),
      ("logs", .str (String.ofList (log.toList.take maxBytes)))]

/-- The log that the client returns is cut, and its errors are raised. -/
theorem jobLogs_eq (rt : Runtime) (jobId maxBytes : ℕ)
    (hrepo : service.repositoryFor repository = .ok repo) :
    service.jobLogs rt repository jobId maxBytes answers =
      (service.client.outcome "GET" (logPath repo jobId) none none maxBytes answers).map
        fun logs => service.cutLog repo jobId maxBytes (textOf rt logs) := by
  unfold jobLogs getJobLogs GitHubClient.outcome
  rw [hrepo]
  exact congrArg Prod.fst (Procedure.run_bind_pure web () (service.client.request "GET"
    (logPath repo jobId) none none maxBytes)
    (fun logs => service.cutLog repo jobId maxBytes (textOf rt logs)) answers (.start ()))

/-- Where the repository is allowed and the servers serve a log, its first `max_bytes` characters
are returned exactly if it has no more than `max_bytes` bytes, and neither has the response that
redirects to it. -/
theorem jobLogs_eq_cutLog_iff (rt : Runtime) (jobId maxBytes : ℕ)
    (hrepo : service.repositoryFor repository = .ok repo)
    (hserves : ServesLog service.client (logPath repo jobId) log answers redirectBody) :
    service.jobLogs rt repository jobId maxBytes answers =
        .ok (service.cutLog repo jobId maxBytes log) ↔
      (encodeUtf8 log).length ≤ maxBytes ∧ redirectBody.length ≤ maxBytes := by
  rw [jobLogs_eq rt jobId maxBytes hrepo]
  rcases GitHubClient.outcome_of_servesLog maxBytes hserves with
    ⟨hlog, hredirect, houtcome⟩ | ⟨hlarge, houtcome⟩
  · rw [houtcome]
    exact iff_of_true rfl ⟨hlog, hredirect⟩
  · rw [houtcome]
    exact iff_of_false (fun h => by cases h) hlarge

/-- No log is ever returned as truncated: the client has refused it before. -/
theorem jobLogs_whole (rt : Runtime) (jobId maxBytes : ℕ)
    (hrepo : service.repositoryFor repository = .ok repo)
    (hserves : ServesLog service.client (logPath repo jobId) log answers redirectBody)
    {value : Value} (h : service.jobLogs rt repository jobId maxBytes answers = .ok value) :
    value = service.payload repo
      [("job_id", .int jobId), ("truncated", .bool false), ("logs", .str log)] := by
  rw [jobLogs_eq rt jobId maxBytes hrepo] at h
  rcases GitHubClient.outcome_of_servesLog maxBytes hserves with
    ⟨hlog, -, houtcome⟩ | ⟨-, houtcome⟩
  · rw [houtcome] at h
    cases h
    have hlength := (length_le_encodeUtf8 log).trans hlog
    change service.cutLog repo jobId maxBytes log = _
    rw [cutLog, List.take_of_length_le hlength, String.ofList_toList,
      decide_eq_false (not_lt.mpr hlength)]
  · rw [houtcome] at h
    cases h

/-! ## A log that is refused -/

/-- A service with the client that knows two URLs. -/
def plainRepositoryService : GitHubRepositoryService where
  client := GitHubClient.plainGitHubClient

/-- A server that answers with a log. -/
def logAnswers (log : String) (_ : ℕ) (_ : HttpsRequest) : Exchange :=
  .response { status := 200, contentType := some "text/plain", body := encodeUtf8 log }

theorem plain_repositoryFor :
    plainRepositoryService.repositoryFor (some "acme/api") = .ok "acme/api" := rfl

theorem plain_serves (log : String) :
    ServesLog plainRepositoryService.client (logPath "acme/api" 7) log (logAnswers log) [] := by
  have hstatus : 200 ≤ 200 ∧ 200 < 300 := by decide
  have htext : ¬"application/json".toList <:+: "text/plain".toList := by decide
  exact .direct rfl rfl ⟨hstatus.1, hstatus.2, rfl, htext⟩

/-- A short log is returned. -/
theorem jobLogs_short :
    plainRepositoryService.jobLogs .plain (some "acme/api") 7 1000 (logAnswers "ok") =
      .ok (plainRepositoryService.cutLog "acme/api" 7 1000 "ok") :=
  (jobLogs_eq_cutLog_iff .plain 7 1000 plain_repositoryFor (plain_serves "ok")).mpr
    ⟨by decide, Nat.zero_le _⟩

/-- A log of one character more than the limit is not cut. -/
theorem jobLogs_fails :
    ¬ ∀ (service : GitHubRepositoryService) (rt : Runtime) (repository : Option String)
      (jobId maxBytes : ℕ) (repo log : String) (answers : ℕ → HttpsRequest → Exchange)
      (redirectBody : Bytes), 1000 ≤ maxBytes → maxBytes ≤ 60000 →
        service.repositoryFor repository = .ok repo →
          ServesLog service.client (logPath repo jobId) log answers redirectBody →
            service.jobLogs rt repository jobId maxBytes answers =
              .ok (service.cutLog repo jobId maxBytes log) := by
  intro hclaim
  set log := String.ofList (List.replicate 1001 'x') with hlog
  have hreturned := hclaim plainRepositoryService .plain (some "acme/api") 7 1000 "acme/api" log
    (logAnswers log) [] (by decide) (by decide) plain_repositoryFor (plain_serves log)
  have hlength := length_le_encodeUtf8 log
  rw [hlog, String.toList_ofList, List.length_replicate, ← hlog] at hlength
  rw [jobLogs_eq .plain 7 1000 plain_repositoryFor] at hreturned
  rcases GitHubClient.outcome_of_servesLog 1000 (plain_serves log) with
    ⟨hsmall, -, -⟩ | ⟨-, houtcome⟩
  · omega
  · rw [houtcome] at hreturned
    cases hreturned

end GitHubRepositoryService

end McpOps
