import McpOps.Tools.GitHubClient

/-!
# What a GitHub request may do

A request is sent over HTTPS, with one more for a redirect, and the token goes to the host of the
API only.  The client raises other exceptions than its own where something fails that is no
`OSError`; and it follows a redirect with a `GET`, whatever was asked, and takes what answers it.

## Strategy

A hop has three stages, and each has a lemma that lists how it may end.

* `prepare_cases`: the request is refused by the client, or sent with everything that `Prepared`
  says, or one of its parts raises.
* `readExchange_cases`: the answer is an error of the client, a value, a redirect that is
  followed, or another error.
* `readBody_cases`: the value of a response that is not followed.

`Ended` is a request from its beginning to its end, with at most two hops, and it has a
constructor for each combination.  `Ended.requests` and `prepared_https` are what holds of all of
them.  Whether the request is sound depends on what is raised and on which request the value
answers (`Ended.sound_iff`), and whether the servers behave well is computed for each constructor
(`Ended.wellBehaved_iff`).  `request_sound_iff` compares the two.
-/

namespace McpOps

open Proc

/-- The servers, which answer each request as they like. -/
def web : System exchangeInterface Unit (HttpsRequest → Exchange) where
  answer o answers s :=
    match o with
    | .send request => (answers request, s)

/-- A request with its answer. -/
def exchangeOf : Step exchangeInterface Unit Unit → HttpsRequest × Exchange
  | ⟨_, .send request, answer, _, _⟩ => (request, answer)

namespace GitHubClient

variable (client : GitHubClient)

/-! ## Sound requests -/

/-- What a request for this method and body returned or raised, and the requests it sent: no more
than two, to hosts of URLs over HTTPS, with the token to the host of the API only; no other
exception; and no value, unless for a `GET`, but one that a server answered this method and body
with. -/
structure Sound (method : String) (body : Option PyDict) (result : Except GitHubExn Value)
    (exchanges : List (HttpsRequest × Exchange)) : Prop where
  length_le : exchanges.length ≤ 2
  https : ∀ e ∈ exchanges, ∃ url parts, client.urlparse url = .ok parts ∧
    parts.httpsHost = some e.1.host
  token : ∀ e ∈ exchanges, ∀ header ∈ e.1.headers, header.1 = "Authorization" →
    ∃ configured, client.urlparse client.config.apiBaseUrl = .ok configured ∧
      configured.hostname = some e.1.host
  raises : ∀ e, result = .error e → ∃ message, e = .apiError message
  answered : ∀ value, result = .ok value → method ≠ "GET" →
    ∃ e ∈ exchanges, e.1.method = method ∧ client.encodeBody body = .ok e.1.body ∧
      ∃ response, e.2 = .response response ∧ 200 ≤ response.status ∧ response.status < 300

/-! ## Well-behaved servers -/

/-- The request can be sent, or is refused by the client: the URLs parse, the query can be encoded,
the body has a JSON text, and there can be a connection to the host. -/
def Sendable (path : String) (query body : Option PyDict) : Prop :=
  client.config.token ≠ "" →
    ∃ parts, client.urlparse
        (if startsWithSlash path then client.config.apiBaseUrl else path) = .ok parts ∧
      ∀ host, parts.httpsHost = some host →
        (∃ target, client.targetOf path parts query = .ok target) ∧
        (∃ encoded, client.encodeBody body = .ok encoded) ∧
        (∃ configured, client.urlparse client.config.apiBaseUrl = .ok configured) ∧
        ∃ port, parts.port = .ok port ∧
          client.connectFailure host ((port.filter (· ≠ 0)).getD 443) = none

/-- The body is UTF-8 and JSON, where it is said to be JSON. -/
def Decodable (response : HttpsResponse) : Prop :=
  "application/json".toList <:+: (response.contentType.getD "").toList →
    ∃ text value, String.fromUTF8? ⟨response.body.toArray⟩ = some text ∧
      client.jsonLoads (if text = "" then emptyObject else text) = .ok value

/-- A response within the limit, with a status from 300 to 399. -/
def IsRedirect (maxBytes : ℕ) (response : HttpsResponse) : Prop :=
  response.body.length ≤ maxBytes ∧ 300 ≤ response.status ∧ response.status < 400

/-- A response that redirects to a location over HTTPS. -/
def RedirectsTo (maxBytes : ℕ) (answer : Exchange) (location : String) : Prop :=
  ∃ response, answer = .response response ∧ IsRedirect maxBytes response ∧
    response.location.filter (· ≠ "") = some location ∧
    ∃ parts host, client.urlparse location = .ok parts ∧ parts.httpsHost = some host

/-- The answer is no exception but an `OSError`; the location of a redirect that is followed parses,
and the body of another response within the limit can be decoded, unless its status is an
error. -/
def Regular (maxBytes : ℕ) (redirects : Bool) (answer : Exchange) : Prop :=
  (∀ cls, answer ≠ .otherError cls) ∧
    ∀ response, answer = .response response → response.body.length ≤ maxBytes →
      response.status < 400 →
        if 300 ≤ response.status ∧ redirects then
          ∀ location, response.location.filter (· ≠ "") = some location →
            ∃ parts, client.urlparse location = .ok parts
        else client.Decodable response

/-- The answers raise no other exception, and for a method other than `GET` the first one is no
informational response, and no redirect which is answered by a status below 400. -/
structure WellBehaved (method path : String) (query body : Option PyDict) (maxBytes : ℕ)
    (answers : ℕ → HttpsRequest → Exchange) : Prop where
  sendable : client.Sendable path query body
  first : ∀ request, client.prepare method path query body = .ok request →
    client.Regular maxBytes true (answers 0 request)
  second : ∀ request location, client.prepare method path query body = .ok request →
    client.RedirectsTo maxBytes (answers 0 request) location →
      client.Sendable location none none ∧
        ∀ next, client.prepare "GET" location none none = .ok next →
          client.Regular maxBytes false (answers 1 next)
  informational : method ≠ "GET" → ∀ request response,
    client.prepare method path query body = .ok request →
      answers 0 request = .response response → response.body.length ≤ maxBytes →
        200 ≤ response.status
  redirected : method ≠ "GET" → ∀ request location next response,
    client.prepare method path query body = .ok request →
      client.RedirectsTo maxBytes (answers 0 request) location →
        client.prepare "GET" location none none = .ok next →
          answers 1 next = .response response → response.body.length ≤ maxBytes →
            400 ≤ response.status

variable {client} {method path : String} {query body : Option PyDict} {maxBytes : ℕ}
  {redirects : Bool} {answer : Exchange} {response : HttpsResponse}

/-! ## Hops -/

/-- What a request that is sent is made of. -/
structure Prepared (client : GitHubClient) (method path : String) (body : Option PyDict)
    (request : HttpsRequest) (parts configured : UrlParts) : Prop where
  parsed : client.urlparse
    (if startsWithSlash path then client.config.apiBaseUrl else path) = .ok parts
  host : parts.httpsHost = some request.host
  base : client.urlparse client.config.apiBaseUrl = .ok configured
  method : request.method = method
  headers : ∃ hasBody, request.headers = client.headersOf request.host configured hasBody
  body : client.encodeBody body = .ok request.body

/-- A part of a request is there, or what it raises ends the request. -/
theorem raising_bind_cases {α β : Type} (x : Except String α) (f : α → Except GitHubExn β) :
    (∃ a, x = .ok a ∧ (raising x).bind f = f a) ∨
      ∃ cls, x = .error cls ∧ (raising x).bind f = .error (.other cls) := by
  cases x with
  | error cls => exact .inr ⟨cls, rfl, rfl⟩
  | ok a => exact .inl ⟨a, rfl, rfl⟩

/-- A request is refused, sent, or fails for another reason. -/
theorem prepare_cases (client : GitHubClient) (method path : String) (query body : Option PyDict) :
    (client.Sendable path query body ∧
      ((∃ message, client.prepare method path query body = .error (.apiError message)) ∨
        ∃ request parts configured, client.prepare method path query body = .ok request ∧
          Prepared client method path body request parts configured)) ∨
    (¬client.Sendable path query body ∧
      ∃ cls, client.prepare method path query body = .error (.other cls)) := by
  unfold Sendable prepare
  by_cases htoken : client.config.token = ""
  · exact .inl ⟨fun h => absurd htoken h, .inl ⟨_, if_pos htoken⟩⟩
  rw [if_neg htoken]
  -- the parts of the request in the order in which the client computes them
  rcases raising_bind_cases (client.urlparse
      (if startsWithSlash path then client.config.apiBaseUrl else path)) _ with
    ⟨parts, hparts, hbind⟩ | ⟨cls, hraised, hbind⟩
  case inr =>
    rw [hbind]
    refine .inr ⟨fun h => ?_, cls, rfl⟩
    obtain ⟨_, hok, -⟩ := h htoken
    rw [hraised] at hok
    cases hok
  rw [hbind, hparts]
  cases hhost : parts.httpsHost with
  | none =>
      refine .inl ⟨fun _ => ⟨parts, rfl, fun host h => ?_⟩, .inl ⟨_, rfl⟩⟩
      rw [hhost] at h
      cases h
  | some host =>
  dsimp only
  rcases raising_bind_cases (client.targetOf path parts query) _ with
    ⟨target, htarget, hbind⟩ | ⟨cls, hraised, hbind⟩
  case inr =>
    rw [hbind]
    refine .inr ⟨fun h => ?_, cls, rfl⟩
    obtain ⟨_, ⟨⟩, hsent⟩ := h htoken
    obtain ⟨⟨_, hok⟩, -⟩ := hsent host hhost
    rw [hraised] at hok
    cases hok
  rw [hbind]
  rcases raising_bind_cases (client.encodeBody body) _ with
    ⟨encoded, hencoded, hbind⟩ | ⟨cls, hraised, hbind⟩
  case inr =>
    rw [hbind]
    refine .inr ⟨fun h => ?_, cls, rfl⟩
    obtain ⟨_, ⟨⟩, hsent⟩ := h htoken
    obtain ⟨-, ⟨_, hok⟩, -⟩ := hsent host hhost
    rw [hraised] at hok
    cases hok
  rw [hbind]
  rcases raising_bind_cases (client.urlparse client.config.apiBaseUrl) _ with
    ⟨configured, hbase, hbind⟩ | ⟨cls, hraised, hbind⟩
  case inr =>
    rw [hbind]
    refine .inr ⟨fun h => ?_, cls, rfl⟩
    obtain ⟨_, ⟨⟩, hsent⟩ := h htoken
    obtain ⟨-, -, ⟨_, hok⟩, -⟩ := hsent host hhost
    rw [hraised] at hok
    cases hok
  rw [hbind]
  rcases raising_bind_cases parts.port _ with ⟨port, hport, hbind⟩ | ⟨cls, hraised, hbind⟩
  case inr =>
    rw [hbind]
    refine .inr ⟨fun h => ?_, cls, rfl⟩
    obtain ⟨_, ⟨⟩, hsent⟩ := h htoken
    obtain ⟨-, -, -, _, hok, -⟩ := hsent host hhost
    rw [hraised] at hok
    cases hok
  rw [hbind]
  cases hconnect : client.connectFailure host ((port.filter (· ≠ 0)).getD 443) with
  | some cls =>
      refine .inr ⟨fun h => ?_, cls, rfl⟩
      obtain ⟨_, ⟨⟩, hsent⟩ := h htoken
      obtain ⟨-, -, -, _, hok, hnone⟩ := hsent host hhost
      rw [hport] at hok
      cases hok
      rw [hconnect] at hnone
      cases hnone
  | none =>
      refine .inl ⟨fun _ => ⟨parts, rfl, fun host' hhost' => ?_⟩, .inr ?_⟩
      · rw [hhost] at hhost'
        cases hhost'
        exact ⟨⟨target, htarget⟩, ⟨encoded, hencoded⟩, ⟨configured, hbase⟩, port, hport, hconnect⟩
      · refine ⟨_, parts, configured, rfl, ?_⟩
        exact ⟨hparts, hhost, hbase, rfl, ⟨_, rfl⟩, hencoded⟩

/-- The result of a response that is not followed. -/
theorem readBody_cases (client : GitHubClient) (hlimit : response.body.length ≤ maxBytes) :
    (client.Decodable response ∧ ∃ value, client.readBody (response.contentType.getD "")
        (response.body.take (maxBytes + 1)) = .ok value) ∨
    (¬client.Decodable response ∧ ∃ cls, client.readBody (response.contentType.getD "")
        (response.body.take (maxBytes + 1)) = .error (.other cls)) := by
  rw [List.take_of_length_le (by omega)]
  unfold Decodable readBody
  dsimp only
  split
  · rename_i hjson
    cases htext : String.fromUTF8? ⟨response.body.toArray⟩ with
    | none =>
        refine .inr ⟨fun h => ?_, "UnicodeDecodeError", rfl⟩
        obtain ⟨_, _, ⟨⟩, -⟩ := h hjson
    | some text =>
        cases hloads : client.jsonLoads (if text = "" then emptyObject else text) with
        | error cls =>
            refine .inr ⟨fun h => ?_, cls, by simp only [hloads, raising]⟩
            obtain ⟨_, value, ⟨⟩, hvalue⟩ := h hjson
            rw [hloads] at hvalue
            cases hvalue
        | ok value =>
            exact .inl ⟨fun _ => ⟨text, value, rfl, hloads⟩, value, by simp only [hloads, raising]⟩
  · rename_i hjson
    exact .inl ⟨fun h => absurd h hjson, _, rfl⟩

/-- An exception that is no response is regular if it is an `OSError`. -/
theorem regular_osError (client : GitHubClient) (maxBytes : ℕ) (redirects : Bool) (cls : String) :
    client.Regular maxBytes redirects (.osError cls) :=
  ⟨fun _ h => (by cases h), fun _ h => (by cases h)⟩

theorem regular_response : client.Regular maxBytes redirects (.response response) ↔
    (response.body.length ≤ maxBytes → response.status < 400 →
      if 300 ≤ response.status ∧ redirects then
        ∀ location, response.location.filter (· ≠ "") = some location →
          ∃ parts, client.urlparse location = .ok parts
      else client.Decodable response) := by
  refine ⟨fun h => h.2 response rfl, fun h => ⟨fun _ hother => (by cases hother), ?_⟩⟩
  rintro _ ⟨⟩
  exact h

/-- What is made of a redirect that is followed. -/
theorem readResponse_redirect (client : GitHubClient)
    (hredirect : IsRedirect maxBytes response) :
    (client.Regular maxBytes true (.response response) ∧
      ((∃ message, client.readResponse maxBytes true response = .error (.apiError message)) ∨
        ∃ location, client.readResponse maxBytes true response = .ok (.redirect location) ∧
          client.RedirectsTo maxBytes (.response response) location)) ∨
    (¬client.Regular maxBytes true (.response response) ∧
      ∃ cls, client.readResponse maxBytes true response = .error (.other cls)) := by
  obtain ⟨hlimit, hlow, hhigh⟩ := hredirect
  rw [regular_response, if_pos ⟨hlow, rfl⟩]
  -- a redirect is only followed with a body that fits
  have hread : ¬maxBytes < (response.body.take (maxBytes + 1)).length := by
    rw [List.length_take]
    omega
  unfold readResponse
  dsimp only
  rw [if_neg hread, if_pos ⟨hlow, hhigh, rfl⟩]
  cases hlocation : response.location.filter (· ≠ "") with
  | none => exact .inl ⟨fun _ _ _ h => (by cases h), .inl ⟨_, rfl⟩⟩
  | some location =>
      cases hparsed : client.urlparse location with
      | error cls =>
          refine .inr ⟨fun h => ?_, cls, by simp only [raising, Except.bind, hparsed]⟩
          obtain ⟨parts, hparts⟩ := h hlimit hhigh location rfl
          rw [hparsed] at hparts
          cases hparts
      | ok parts =>
          -- the location can be parsed; it is followed if it has a host and the scheme `https`
          have hregular : ∀ other, some location = some other →
              ∃ parts, client.urlparse other = .ok parts := by
            rintro _ ⟨⟩
            exact ⟨parts, hparsed⟩
          refine .inl ⟨fun _ _ => hregular, ?_⟩
          cases hhost : parts.httpsHost with
          | none => exact .inl ⟨_, by simp only [raising, Except.bind, hparsed, hhost]; rfl⟩
          | some host =>
              exact .inr ⟨location, by simp only [raising, Except.bind, hparsed, hhost], response,
                rfl, ⟨hlimit, hlow, hhigh⟩, hlocation, parts, host, hparsed, hhost⟩

/-- What is made of an answer: an error of the client, a value, a redirect, or another error. -/
theorem readExchange_cases (client : GitHubClient) (maxBytes : ℕ) (redirects : Bool)
    (answer : Exchange) :
    (client.Regular maxBytes redirects answer ∧
      ((∃ message, client.readExchange maxBytes redirects answer = .error (.apiError message)) ∨
        (∃ value response, client.readExchange maxBytes redirects answer = .ok (.value value) ∧
          answer = .response response ∧ response.body.length ≤ maxBytes ∧
          response.status < 400 ∧ ¬(300 ≤ response.status ∧ redirects)) ∨
        ∃ location, client.readExchange maxBytes redirects answer = .ok (.redirect location) ∧
          redirects ∧ client.RedirectsTo maxBytes answer location)) ∨
    (¬client.Regular maxBytes redirects answer ∧
      ∃ cls, client.readExchange maxBytes redirects answer = .error (.other cls)) := by
  cases answer with
  | osError cls => exact .inl ⟨client.regular_osError .., .inl ⟨_, rfl⟩⟩
  | otherError cls => exact .inr ⟨fun h => h.1 cls rfl, cls, rfl⟩
  | response response =>
      rw [readExchange]
      -- a redirect, a body within its limit, or one that is too long
      by_cases hredirect : IsRedirect maxBytes response ∧ redirects
      · obtain ⟨hredirect, rfl⟩ := hredirect
        rcases client.readResponse_redirect hredirect with
          ⟨hregular, hrefused | ⟨location, hread, hto⟩⟩ | hirregular
        · exact .inl ⟨hregular, .inl hrefused⟩
        · exact .inl ⟨hregular, .inr (.inr ⟨location, hread, rfl, hto⟩)⟩
        · exact .inr hirregular
      · rw [regular_response]
        unfold readResponse
        dsimp only
        by_cases hlimit : response.body.length ≤ maxBytes
        · have hread : ¬maxBytes < (response.body.take (maxBytes + 1)).length := by
            rw [List.length_take]
            omega
          have hfinal : ¬(300 ≤ response.status ∧ response.status < 400 ∧ redirects) :=
            fun h => hredirect ⟨⟨hlimit, h.1, h.2.1⟩, h.2.2⟩
          rw [if_neg hread, if_neg hfinal]
          by_cases hstatus : 400 ≤ response.status
          · rw [if_pos hstatus]
            exact .inl ⟨fun _ h => absurd hstatus (not_le.mpr h), .inl ⟨_, rfl⟩⟩
          · have hbelow : ¬(300 ≤ response.status ∧ redirects) :=
              fun h => hfinal ⟨h.1, not_le.mp hstatus, h.2⟩
            rw [if_neg hstatus, if_neg hbelow]
            rcases client.readBody_cases hlimit with ⟨hdecodes, value, hvalue⟩ | ⟨hfails, cls, hcls⟩
            · exact .inl ⟨fun _ _ => hdecodes, .inr (.inl ⟨value, response, by rw [hvalue]; rfl,
                rfl, hlimit, not_le.mp hstatus, hbelow⟩)⟩
            · exact .inr ⟨fun h => hfails (h hlimit (not_le.mp hstatus)), cls, by rw [hcls]; rfl⟩
        · have hread : maxBytes < (response.body.take (maxBytes + 1)).length := by
            rw [List.length_take]
            omega
          rw [if_pos hread]
          exact .inl ⟨fun h => absurd h hlimit, .inl ⟨_, rfl⟩⟩

/-! ## Runs -/

/-- How a request ends, and what it sends, in this order. -/
inductive Ended (client : GitHubClient) (method path : String) (query body : Option PyDict)
    (maxBytes : ℕ) (answers : ℕ → HttpsRequest → Exchange) :
    Except GitHubExn Value → List (HttpsRequest × Exchange) → Prop
  | refused {e : GitHubExn} (hsent : client.prepare method path query body = .error e) :
      Ended client method path query body maxBytes answers (.error e) []
  | failed {request : HttpsRequest} {e : GitHubExn}
      (hsent : client.prepare method path query body = .ok request)
      (hread : client.readExchange maxBytes true (answers 0 request) = .error e) :
      Ended client method path query body maxBytes answers (.error e)
        [(request, answers 0 request)]
  | returned {request : HttpsRequest} {value : Value}
      (hsent : client.prepare method path query body = .ok request)
      (hread : client.readExchange maxBytes true (answers 0 request) = .ok (.value value)) :
      Ended client method path query body maxBytes answers (.ok value)
        [(request, answers 0 request)]
  | redirectRefused {request : HttpsRequest} {location : String} {e : GitHubExn}
      (hsent : client.prepare method path query body = .ok request)
      (hread : client.readExchange maxBytes true (answers 0 request) = .ok (.redirect location))
      (hnext : client.prepare "GET" location none none = .error e) :
      Ended client method path query body maxBytes answers (.error e)
        [(request, answers 0 request)]
  | redirectFailed {request next : HttpsRequest} {location : String} {e : GitHubExn}
      (hsent : client.prepare method path query body = .ok request)
      (hread : client.readExchange maxBytes true (answers 0 request) = .ok (.redirect location))
      (hnext : client.prepare "GET" location none none = .ok next)
      (hlast : client.readExchange maxBytes false (answers 1 next) = .error e) :
      Ended client method path query body maxBytes answers (.error e)
        [(request, answers 0 request), (next, answers 1 next)]
  | redirectReturned {request next : HttpsRequest} {location : String} {value : Value}
      (hsent : client.prepare method path query body = .ok request)
      (hread : client.readExchange maxBytes true (answers 0 request) = .ok (.redirect location))
      (hnext : client.prepare "GET" location none none = .ok next)
      (hlast : client.readExchange maxBytes false (answers 1 next) = .ok (.value value)) :
      Ended client method path query body maxBytes answers (.ok value)
        [(request, answers 0 request), (next, answers 1 next)]

/-- What a request returns or raises, when the servers answer like this. -/
def outcome (client : GitHubClient) (method path : String) (query body : Option PyDict)
    (maxBytes : ℕ) (answers : ℕ → HttpsRequest → Exchange) : Except GitHubExn Value :=
  ((client.request method path query body maxBytes).run web () answers (.start ())).1

/-- The requests that are sent, in order, with their answers. -/
def exchanges (client : GitHubClient) (method path : String) (query body : Option PyDict)
    (maxBytes : ℕ) (answers : ℕ → HttpsRequest → Exchange) : List (HttpsRequest × Exchange) :=
  (((client.request method path query body maxBytes).run web () answers (.start ())).2.past.map
    exchangeOf).reverse

/-- The last hop follows no redirect. -/
theorem not_redirect_last {location : String} :
    client.readExchange maxBytes false answer ≠ .ok (.redirect location) := by
  intro h
  rcases client.readExchange_cases maxBytes false answer with
    ⟨-, ⟨_, hread⟩ | ⟨_, _, hread, -⟩ | ⟨_, -, hredirects, -⟩⟩ | ⟨-, _, hread⟩
  · rw [h] at hread
    cases hread
  · rw [h] at hread
    cases hread
  · cases hredirects
  · rw [h] at hread
    cases hread

theorem request_ended (client : GitHubClient) (method path : String) (query body : Option PyDict)
    (maxBytes : ℕ) (answers : ℕ → HttpsRequest → Exchange) :
    Ended client method path query body maxBytes answers
      (client.outcome method path query body maxBytes answers)
      (client.exchanges method path query body maxBytes answers) := by
  unfold outcome exchanges request requestHops
  rw [hop]
  cases hsent : client.prepare method path query body with
  | error e => exact .refused hsent
  | ok request =>
      have hanswer : (web.answer (.send request) (answers 0) ()).1 = answers 0 request := rfl
      dsimp only [Procedure.run, Run.start, Run.perform]
      rw [hanswer]
      cases hread : client.readExchange maxBytes true (answers 0 request) with
      | error e => exact .failed hsent hread
      | ok reading =>
          cases reading with
          | value value => exact .returned hsent hread
          | redirect location =>
              -- the second request, which no redirect leaves
              dsimp only
              rw [requestHops, hop]
              cases hnext : client.prepare "GET" location none none with
              | error e => exact .redirectRefused hsent hread hnext
              | ok next =>
                  have hlastAnswer : (web.answer (.send next) (answers 1) ()).1 =
                      answers 1 next := rfl
                  dsimp only [Procedure.run, Run.start, Run.perform]
                  rw [hlastAnswer]
                  cases hlast : client.readExchange maxBytes false (answers 1 next) with
                  | error e => exact .redirectFailed hsent hread hnext hlast
                  | ok reading =>
                      cases reading with
                      | value value => exact .redirectReturned hsent hread hnext hlast
                      | redirect location => exact absurd hlast not_redirect_last

/-! ## What holds of every request -/

theorem prepared_of_ok {request : HttpsRequest}
    (h : client.prepare method path query body = .ok request) :
    client.Sendable path query body ∧
      ∃ parts configured, Prepared client method path body request parts configured := by
  rcases client.prepare_cases method path query body with
    ⟨hsendable, ⟨_, hrefused⟩ | ⟨_, parts, configured, hsent, hprepared⟩⟩ | ⟨-, _, hfailed⟩
  · cases h.symm.trans hrefused
  · cases h.symm.trans hsent
    exact ⟨hsendable, parts, configured, hprepared⟩
  · cases h.symm.trans hfailed

theorem sendable_iff_of_error {e : GitHubExn}
    (h : client.prepare method path query body = .error e) :
    client.Sendable path query body ↔ ∃ message, e = .apiError message := by
  rcases client.prepare_cases method path query body with
    ⟨hsendable, ⟨message, hrefused⟩ | ⟨_, _, _, hsent, -⟩⟩ | ⟨hunsendable, _, hfailed⟩
  · cases h.symm.trans hrefused
    exact iff_of_true hsendable ⟨message, rfl⟩
  · cases h.symm.trans hsent
  · cases h.symm.trans hfailed
    exact iff_of_false hunsendable fun ⟨_, he⟩ => by cases he

theorem regular_iff_of_error {e : GitHubExn}
    (h : client.readExchange maxBytes redirects answer = .error e) :
    client.Regular maxBytes redirects answer ↔ ∃ message, e = .apiError message := by
  rcases client.readExchange_cases maxBytes redirects answer with
    ⟨hregular, ⟨message, hread⟩ | ⟨_, _, hread, -⟩ | ⟨_, hread, -⟩⟩ | ⟨hirregular, _, hread⟩
  · cases h.symm.trans hread
    exact iff_of_true hregular ⟨message, rfl⟩
  · cases h.symm.trans hread
  · cases h.symm.trans hread
  · cases h.symm.trans hread
    exact iff_of_false hirregular fun ⟨_, he⟩ => by cases he

theorem of_readExchange_value {value : Value}
    (h : client.readExchange maxBytes redirects answer = .ok (.value value)) :
    client.Regular maxBytes redirects answer ∧ ∃ response, answer = .response response ∧
      response.body.length ≤ maxBytes ∧ response.status < 400 ∧
      ¬(300 ≤ response.status ∧ redirects) := by
  rcases client.readExchange_cases maxBytes redirects answer with
    ⟨hregular, ⟨_, hread⟩ | ⟨_, response, _, hresponse⟩ | ⟨_, hread, -⟩⟩ | ⟨-, _, hread⟩
  · cases h.symm.trans hread
  · exact ⟨hregular, response, hresponse⟩
  · cases h.symm.trans hread
  · cases h.symm.trans hread

theorem of_readExchange_redirect {location : String}
    (h : client.readExchange maxBytes redirects answer = .ok (.redirect location)) :
    client.Regular maxBytes redirects answer ∧ client.RedirectsTo maxBytes answer location := by
  rcases client.readExchange_cases maxBytes redirects answer with
    ⟨hregular, ⟨_, hread⟩ | ⟨_, _, hread, -⟩ | ⟨_, hread, -, hto⟩⟩ | ⟨-, _, hread⟩
  · cases h.symm.trans hread
  · cases h.symm.trans hread
  · cases h.symm.trans hread
    exact ⟨hregular, hto⟩
  · cases h.symm.trans hread

/-- A redirect to a location over HTTPS is followed. -/
theorem readExchange_redirectsTo {location : String}
    (h : client.RedirectsTo maxBytes answer location) :
    client.readExchange maxBytes true answer = .ok (.redirect location) := by
  obtain ⟨response, rfl, hredirect, hlocation, parts, host, hparsed, hhost⟩ := h
  rcases client.readResponse_redirect hredirect with
    ⟨-, ⟨message, hread⟩ | ⟨other, hread, other', ⟨⟩, -, hother, -⟩⟩ | ⟨hirregular, -⟩
  · obtain ⟨hlimit, hlow, hhigh⟩ := hredirect
    have hwithin : ¬maxBytes < (response.body.take (maxBytes + 1)).length := by
      rw [List.length_take]
      omega
    unfold readResponse at hread
    dsimp only at hread
    rw [if_neg hwithin, if_pos ⟨hlow, hhigh, rfl⟩, hlocation] at hread
    simp only [raising, Except.bind, hparsed, hhost] at hread
    cases hread
  · cases hlocation.symm.trans hother
    exact hread
  · refine absurd (regular_response.mpr fun _ _ => ?_) hirregular
    rw [if_pos ⟨hredirect.2.1, rfl⟩]
    intro other hother
    cases hlocation.symm.trans hother
    exact ⟨parts, hparsed⟩

/-- A response that is not followed and not refused is returned. -/
theorem readExchange_final (hregular : client.Regular maxBytes redirects (.response response))
    (hlimit : response.body.length ≤ maxBytes) (hstatus : response.status < 400)
    (hfinal : ¬(300 ≤ response.status ∧ redirects)) :
    ∃ value, client.readExchange maxBytes redirects (.response response) =
      .ok (.value value) := by
  have hdecodes := regular_response.mp hregular hlimit hstatus
  rw [if_neg hfinal] at hdecodes
  have hread : ¬maxBytes < (response.body.take (maxBytes + 1)).length := by
    rw [List.length_take]
    omega
  have hunfollowed : ¬(300 ≤ response.status ∧ response.status < 400 ∧ redirects) :=
    fun h => hfinal ⟨h.1, h.2.2⟩
  rw [readExchange]
  unfold readResponse
  dsimp only
  rw [if_neg hread, if_neg hunfollowed, if_neg (not_le.mpr hstatus)]
  rcases client.readBody_cases hlimit with ⟨-, value, hvalue⟩ | ⟨hfails, -⟩
  · exact ⟨value, by rw [hvalue]; rfl⟩
  · exact absurd hdecodes hfails

section Ended

variable {answers : ℕ → HttpsRequest → Exchange} {result : Except GitHubExn Value}
  {sent : List (HttpsRequest × Exchange)}

/-- No more than two requests are sent, each prepared by the client. -/
theorem Ended.requests (h : Ended client method path query body maxBytes answers result sent) :
    sent.length ≤ 2 ∧ ∀ e ∈ sent, ∃ method path query body,
      client.prepare method path query body = .ok e.1 := by
  cases h with
  | refused => exact ⟨by simp, fun e he => by cases he⟩
  | failed hsent => exact ⟨by simp, List.forall_mem_singleton.mpr ⟨_, _, _, _, hsent⟩⟩
  | returned hsent => exact ⟨by simp, List.forall_mem_singleton.mpr ⟨_, _, _, _, hsent⟩⟩
  | redirectRefused hsent => exact ⟨by simp, List.forall_mem_singleton.mpr ⟨_, _, _, _, hsent⟩⟩
  | redirectFailed hsent _ hnext =>
      exact ⟨by simp, List.forall_mem_cons.mpr ⟨⟨_, _, _, _, hsent⟩,
        List.forall_mem_singleton.mpr ⟨_, _, _, _, hnext⟩⟩⟩
  | redirectReturned hsent _ hnext =>
      exact ⟨by simp, List.forall_mem_cons.mpr ⟨⟨_, _, _, _, hsent⟩,
        List.forall_mem_singleton.mpr ⟨_, _, _, _, hnext⟩⟩⟩

/-- A prepared request goes to the host of a URL over HTTPS, and carries the token to the host of
the API only. -/
theorem prepared_https {request : HttpsRequest}
    (h : client.prepare method path query body = .ok request) :
    (∃ url parts, client.urlparse url = .ok parts ∧ parts.httpsHost = some request.host) ∧
      ∀ header ∈ request.headers, header.1 = "Authorization" →
        ∃ configured, client.urlparse client.config.apiBaseUrl = .ok configured ∧
          configured.hostname = some request.host := by
  obtain ⟨-, parts, configured, hprepared⟩ := prepared_of_ok h
  refine ⟨⟨_, parts, hprepared.parsed, hprepared.host⟩, fun header hheader hname =>
    ⟨configured, hprepared.base, ?_⟩⟩
  obtain ⟨hasBody, hheaders⟩ := hprepared.headers
  rw [hheaders, headersOf] at hheader
  by_cases hhost : some request.host = configured.hostname
  · exact hhost.symm
  · rw [if_neg hhost, List.append_nil, List.mem_append] at hheader
    rcases hheader with hfixed | hcontent
    · simp only [List.mem_cons, List.not_mem_nil, or_false] at hfixed
      rcases hfixed with rfl | rfl | rfl <;> exact absurd hname (by decide)
    · split at hcontent
      · rw [List.mem_singleton.mp hcontent] at hname
        exact absurd hname (by decide)
      · cases hcontent

/-- A request is sound as soon as it raises no other exception and its value is an answer to
it. -/
theorem Ended.sound_iff (h : Ended client method path query body maxBytes answers result sent) :
    client.Sound method body result sent ↔
      (∀ e, result = .error e → ∃ message, e = .apiError message) ∧
        ∀ value, result = .ok value → method ≠ "GET" →
          ∃ e ∈ sent, e.1.method = method ∧ client.encodeBody body = .ok e.1.body ∧
            ∃ response, e.2 = .response response ∧ 200 ≤ response.status ∧
              response.status < 300 := by
  refine ⟨fun hsound => ⟨hsound.raises, hsound.answered⟩, fun ⟨hraises, hanswered⟩ => ?_⟩
  obtain ⟨hlength, hprepared⟩ := h.requests
  refine ⟨hlength, fun e he => ?_, fun e he => ?_, hraises, hanswered⟩
  · obtain ⟨_, _, _, _, hsent⟩ := hprepared e he
    exact (prepared_https hsent).1
  · obtain ⟨_, _, _, _, hsent⟩ := hprepared e he
    exact (prepared_https hsent).2

/-- What well-behaved means where the first answer is not followed. -/
theorem wellBehaved_iff_of_final {request : HttpsRequest}
    (hsent : client.prepare method path query body = .ok request)
    (hfinal : ∀ location,
      client.readExchange maxBytes true (answers 0 request) ≠ .ok (.redirect location)) :
    client.WellBehaved method path query body maxBytes answers ↔
      client.Regular maxBytes true (answers 0 request) ∧
        (method ≠ "GET" → ∀ response, answers 0 request = .response response →
          response.body.length ≤ maxBytes → 200 ≤ response.status) := by
  constructor
  · intro hbehaved
    exact ⟨hbehaved.first request hsent,
      fun hmethod response => hbehaved.informational hmethod request response hsent⟩
  · rintro ⟨hregular, hinformational⟩
    have hnot : ∀ {other : HttpsRequest} {location : String} {P : Prop},
        client.prepare method path query body = .ok other →
          client.RedirectsTo maxBytes (answers 0 other) location → P := by
      intro other location P hok hto
      cases hsent.symm.trans hok
      exact absurd (readExchange_redirectsTo hto) (hfinal location)
    refine ⟨(prepared_of_ok hsent).1, fun other hok => ?_, fun _ _ hok hto => hnot hok hto,
      fun hmethod other response hok => ?_, fun _ _ _ _ _ hok hto => hnot hok hto⟩
    · cases hsent.symm.trans hok
      exact hregular
    · cases hsent.symm.trans hok
      exact hinformational hmethod response

/-- What well-behaved means where the first answer is followed. -/
theorem wellBehaved_iff_of_redirect {request : HttpsRequest} {location : String}
    (hsent : client.prepare method path query body = .ok request)
    (hread : client.readExchange maxBytes true (answers 0 request) = .ok (.redirect location)) :
    client.WellBehaved method path query body maxBytes answers ↔
      client.Sendable location none none ∧
        ∀ next, client.prepare "GET" location none none = .ok next →
          client.Regular maxBytes false (answers 1 next) ∧
            (method ≠ "GET" → ∀ response, answers 1 next = .response response →
              response.body.length ≤ maxBytes → 400 ≤ response.status) := by
  obtain ⟨hregular, hto⟩ := of_readExchange_redirect hread
  constructor
  · intro hbehaved
    obtain ⟨hsendable, hsecond⟩ := hbehaved.second request location hsent hto
    exact ⟨hsendable, fun next hnext => ⟨hsecond next hnext, fun hmethod response =>
      hbehaved.redirected hmethod request location next response hsent hto hnext⟩⟩
  · rintro ⟨hsendable, hsecond⟩
    -- there is one request and one redirect, since preparing and reading are functions
    have hsame : ∀ {other : HttpsRequest} {location' : String},
        client.prepare method path query body = .ok other →
          client.RedirectsTo maxBytes (answers 0 other) location' → location = location' := by
      intro other location' hok hto'
      cases hsent.symm.trans hok
      cases hread.symm.trans (readExchange_redirectsTo hto')
      rfl
    refine ⟨(prepared_of_ok hsent).1, fun other hok => ?_, fun other location' hok hto' => ?_,
      fun hmethod other response hok hresponse _ => ?_,
      fun hmethod other location' next response hok hto' hnext => ?_⟩
    · cases hsent.symm.trans hok
      exact hregular
    · cases hsame hok hto'
      exact ⟨hsendable, fun next hnext => (hsecond next hnext).1⟩
    · cases hsent.symm.trans hok
      obtain ⟨redirect, hredirect, ⟨-, hlow, -⟩, -⟩ := hto
      cases hresponse.symm.trans hredirect
      omega
    · cases hsame hok hto'
      exact (hsecond next hnext).2 hmethod response

/-- The servers behave well exactly where nothing else is raised and a value is an answer to the
request. -/
theorem Ended.wellBehaved_iff
    (h : Ended client method path query body maxBytes answers result sent) :
    client.WellBehaved method path query body maxBytes answers ↔
      (∀ e, result = .error e → ∃ message, e = .apiError message) ∧
        ∀ value, result = .ok value → method ≠ "GET" →
          ∃ e ∈ sent, e.1.method = method ∧ client.encodeBody body = .ok e.1.body ∧
            ∃ response, e.2 = .response response ∧ 200 ≤ response.status ∧
              response.status < 300 := by
  cases h with
  | @refused e hsent =>
      have hnever : ∀ {P : Prop} {request : HttpsRequest},
          client.prepare method path query body = .ok request → P := by
        intro P request hok
        cases hsent.symm.trans hok
      constructor
      · intro hbehaved
        refine ⟨?_, fun _ hvalue => by cases hvalue⟩
        rintro _ ⟨⟩
        exact (sendable_iff_of_error hsent).mp hbehaved.sendable
      · rintro ⟨hraises, -⟩
        exact ⟨(sendable_iff_of_error hsent).mpr (hraises e rfl), fun _ => hnever,
          fun _ _ => hnever, fun _ _ _ => hnever, fun _ _ _ _ _ => hnever⟩
  | @failed request e hsent hread =>
      have hfinal : ∀ location, client.readExchange maxBytes true (answers 0 request) ≠
          .ok (.redirect location) := by
        intro location hredirect
        cases hread.symm.trans hredirect
      rw [wellBehaved_iff_of_final hsent hfinal, regular_iff_of_error hread]
      constructor
      · rintro ⟨hraises, -⟩
        refine ⟨?_, fun _ hvalue => by cases hvalue⟩
        rintro _ ⟨⟩
        exact hraises
      · rintro ⟨hraises, -⟩
        refine ⟨hraises e rfl, fun _ response hresponse hlimit => ?_⟩
        have hregular := (regular_iff_of_error hread).mpr (hraises e rfl)
        rw [hresponse] at hregular hread
        -- an informational response would have been returned
        by_contra hlow
        obtain ⟨value, hvalue⟩ := readExchange_final hregular hlimit (by omega)
          fun hfollowed => hlow (by omega)
        cases hread.symm.trans hvalue
  | @returned request value hsent hread =>
      have hnot : ∀ location, client.readExchange maxBytes true (answers 0 request) ≠
          .ok (.redirect location) := by
        intro location hredirect
        cases hread.symm.trans hredirect
      rw [wellBehaved_iff_of_final hsent hnot]
      obtain ⟨hregular, response, hresponse, hlimit, hstatus, hfinal⟩ := of_readExchange_value hread
      obtain ⟨-, parts, configured, hprepared⟩ := prepared_of_ok hsent
      constructor
      · rintro ⟨-, hinformational⟩
        refine ⟨fun _ herror => (by cases herror), fun _ _ hmethod => ⟨_, List.mem_singleton_self _,
          hprepared.method, hprepared.body, response, hresponse,
          hinformational hmethod response hresponse hlimit, ?_⟩⟩
        by_contra hhigh
        exact hfinal ⟨not_lt.mp hhigh, rfl⟩
      · rintro ⟨-, hanswered⟩
        refine ⟨hregular, fun hmethod other hother _ => ?_⟩
        obtain ⟨e, he, -, -, success, hsuccess, hlow, -⟩ := hanswered value rfl hmethod
        rw [List.mem_singleton.mp he] at hsuccess
        cases hother.symm.trans hsuccess
        exact hlow
  | @redirectRefused request location e hsent hread hnext =>
      rw [wellBehaved_iff_of_redirect hsent hread, sendable_iff_of_error hnext]
      constructor
      · rintro ⟨hraises, -⟩
        refine ⟨?_, fun _ hvalue => by cases hvalue⟩
        rintro _ ⟨⟩
        exact hraises
      · rintro ⟨hraises, -⟩
        exact ⟨hraises e rfl, fun next hok => by cases hnext.symm.trans hok⟩
  | @redirectFailed request next location e hsent hread hnext hlast =>
      rw [wellBehaved_iff_of_redirect hsent hread]
      constructor
      · rintro ⟨-, hsecond⟩
        refine ⟨?_, fun _ hvalue => by cases hvalue⟩
        rintro _ ⟨⟩
        exact (regular_iff_of_error hlast).mp (hsecond next hnext).1
      · rintro ⟨hraises, -⟩
        refine ⟨(prepared_of_ok hnext).1, fun other hok => ?_⟩
        cases hnext.symm.trans hok
        have hregular := (regular_iff_of_error hlast).mpr (hraises e rfl)
        refine ⟨hregular, fun _ response hresponse hlimit => ?_⟩
        rw [hresponse] at hregular hlast
        -- a response below 400 would have been returned
        by_contra hlow
        obtain ⟨value, hvalue⟩ := readExchange_final hregular hlimit (not_le.mp hlow)
          fun hfollowed => by cases hfollowed.2
        cases hlast.symm.trans hvalue
  | @redirectReturned request next location value hsent hread hnext hlast =>
      rw [wellBehaved_iff_of_redirect hsent hread]
      obtain ⟨-, redirect, hredirect, ⟨-, hlow, -⟩, -⟩ := of_readExchange_redirect hread
      obtain ⟨hregular, response, hresponse, hlimit, hstatus, -⟩ := of_readExchange_value hlast
      obtain ⟨hsendable, _, _, hprepared⟩ := prepared_of_ok hnext
      constructor
      · rintro ⟨-, hsecond⟩
        refine ⟨fun _ herror => (by cases herror), fun _ _ hmethod => ?_⟩
        exact absurd hstatus (not_lt.mpr
          ((hsecond next hnext).2 hmethod response hresponse hlimit))
      · rintro ⟨-, hanswered⟩
        refine ⟨hsendable, fun other hok => ?_⟩
        cases hnext.symm.trans hok
        refine ⟨hregular, fun hmethod => ?_⟩
        -- the first answer is a redirect, and the second one answers a `GET`
        obtain ⟨e, he, hsame, -, success, hsuccess, -, hhigh⟩ := hanswered value rfl hmethod
        rcases List.mem_cons.mp he with rfl | he
        · cases hredirect.symm.trans hsuccess
          omega
        · rw [List.mem_singleton.mp he] at hsame
          exact absurd (hsame.symm.trans hprepared.method) hmethod

end Ended

/-- Every request sends no more than two requests over HTTPS, with the token to the host of the API
only.  It raises no other exception than the one of the client, and returns a value for a method
other than `GET` only as the answer to it, exactly where the servers behave well. -/
theorem request_sound_iff (client : GitHubClient) (method path : String)
    (query body : Option PyDict) (maxBytes : ℕ) (answers : ℕ → HttpsRequest → Exchange) :
    client.Sound method body (client.outcome method path query body maxBytes answers)
        (client.exchanges method path query body maxBytes answers) ↔
      client.WellBehaved method path query body maxBytes answers := by
  have hended := client.request_ended method path query body maxBytes answers
  rw [hended.sound_iff, hended.wellBehaved_iff]

/-- Whatever the servers answer, the requests go over HTTPS, and the token to the host of the API
only. -/
theorem exchanges_https (client : GitHubClient) (method path : String) (query body : Option PyDict)
    (maxBytes : ℕ) (answers : ℕ → HttpsRequest → Exchange) :
    (client.exchanges method path query body maxBytes answers).length ≤ 2 ∧
      ∀ e ∈ client.exchanges method path query body maxBytes answers,
        (∃ url parts, client.urlparse url = .ok parts ∧ parts.httpsHost = some e.1.host) ∧
          ∀ header ∈ e.1.headers, header.1 = "Authorization" →
            ∃ configured, client.urlparse client.config.apiBaseUrl = .ok configured ∧
              configured.hostname = some e.1.host := by
  obtain ⟨hlength, hprepared⟩ :=
    (client.request_ended method path query body maxBytes answers).requests
  refine ⟨hlength, fun e he => ?_⟩
  obtain ⟨_, _, _, _, hsent⟩ := hprepared e he
  exact prepared_https hsent

/-! ## A redirected write -/

/-- A client that knows two URLs. -/
def plainGitHubClient : GitHubClient where
  config := { token := "token" }
  urlparse url :=
    if url = "https://api.github.com" then
      .ok ⟨"https", some "api.github.com", .ok none, "", ""⟩
    else if url = "https://github.com/login" then
      .ok ⟨"https", some "github.com", .ok none, "/login", ""⟩
    else .ok ⟨"", none, .ok none, url, ""⟩
  urlencode _ := .ok ""
  dumps _ := .error "TypeError"
  connectFailure _ _ := none
  jsonLoads _ := .error "JSONDecodeError"
  decodeReplacing _ := ""

/-- The first request is redirected to a login page, which is there. -/
def loginAnswers (n : ℕ) (_ : HttpsRequest) : Exchange :=
  if n = 0 then .response { status := 302, location := some "https://github.com/login" }
  else .response { status := 200, contentType := some "text/html" }

/-- A write that is redirected returns what answers the `GET` of the location. -/
theorem redirectedWrite_fails :
    ¬ ∀ (client : GitHubClient) (method path : String) (query body : Option PyDict)
      (maxBytes : ℕ) (answers : ℕ → HttpsRequest → Exchange),
        client.Sound method body (client.outcome method path query body maxBytes answers)
          (client.exchanges method path query body maxBytes answers) := by
  intro hclaim
  have hsound := hclaim plainGitHubClient "POST" "/repos/acme/api/actions/runs/7/rerun-failed-jobs"
    none none 2000000 loginAnswers
  have hended := plainGitHubClient.request_ended "POST"
    "/repos/acme/api/actions/runs/7/rerun-failed-jobs" none none 2000000 loginAnswers
  rw [hended.sound_iff, ← hended.wellBehaved_iff] at hsound
  have hto : plainGitHubClient.RedirectsTo 2000000
      (.response { status := 302, location := some "https://github.com/login" })
      "https://github.com/login" :=
    ⟨_, rfl, ⟨by decide, by decide, by decide⟩, rfl, _, "github.com", rfl, rfl⟩
  have hstatus := hsound.redirected (by decide) _ _ _ _ rfl hto rfl rfl (by decide)
  exact absurd hstatus (by decide)

end GitHubClient

end McpOps
