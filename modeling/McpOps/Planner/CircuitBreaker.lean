import McpOps.Python.Numbers
import Mathlib.Data.List.Induction
import Mathlib.Algebra.Order.Ring.Rat

/-!
# The circuit breaker of the planner

`ProviderResilientCompletionClient` asks a provider for a plan.  It repeats a request that fails
for a transient reason, and stops asking for a while when too many requests in a row have failed
so.  What the breaker does is compared with the history of the requests: how many have failed
since the last success, when it has opened, and how its probes have ended since.

Readings of the clock and numbers of seconds are values of `float`s.  Their sums are rounded, so an
open breaker waits for the rounded end of its cooldown, which can come before the exact one.

* `Tracks`: what the client remembers of the requests it has served, one lemma for each way in
  which a request ends (`Tracks.refresh`, `Tracks.success`, `Tracks.failure`, `Tracks.neither`).
* `tracks_run`: a client keeps track of all its requests.
* `runRequests_sound`: so the breaker does what `BreakerSound` says of it.
-/

namespace McpOps

open Rounding

/-! ## Requests -/

/-- A `PlannerOutputError`. -/
structure PlannerOutputError where
  message : String
  stage : String := "planner_output"
  reason : String := message
  attempt : ℕ := 1
  finishReason : Option String := none
  validationErrors : List PyDict := []
  retryAttempted : Bool := false
  retryFailureReason : Option String := none
  providerStatus : Option ℤ := none
  retryAfterSeconds : Option ℚ := none

structure ProviderRetryPolicy where
  maxAttempts : ℤ := 3
  backoffBaseSeconds : ℚ := 1
  backoffMaxSeconds : ℚ := 20
  jitterSeconds : ℚ := 1 / 4
  circuitFailureThreshold : ℤ := 5
  circuitCooldownSeconds : ℚ := 60
  halfOpenProbeCount : ℤ := 1

/-- How one call of the wrapped client ends. -/
inductive CompletionAnswer where
  | content (text : String)
  | error (error : PlannerOutputError)
  /-- any other exception -/
  | raised (exception : String)

/-- What a request takes from outside: the clock when it begins and when it opens the breaker,
the answer to each attempt, and what `jitter(jitter_seconds)` returns after it. -/
structure RequestEnv where
  now : ℚ
  later : ℚ
  answer : ℕ → CompletionAnswer
  jitter : ℕ → ℚ → ℚ

/-- How a request ends. -/
inductive RequestOutcome where
  | success (content : String)
  /-- every attempt failed for a transient reason, and the error says so -/
  | transientFailure (error : PlannerOutputError)
  /-- an error that is not transient -/
  | permanentFailure (error : PlannerOutputError)
  /-- any other exception -/
  | raised (exception : String)
  /-- the error of an open breaker -/
  | circuitOpen (error : PlannerOutputError)

def RequestOutcome.isSuccess : RequestOutcome → Bool
  | .success _ => true
  | _ => false

def RequestOutcome.isTransient : RequestOutcome → Bool
  | .transientFailure _ => true
  | _ => false

/-- `_is_transient_provider_error(exc)`. -/
def isTransientProviderError (exc : PlannerOutputError) : Bool :=
  if exc.stage = "provider_request" then true
  else if exc.stage ≠ "provider_http" then false
  else exc.providerStatus.any fun status => status ∈ [429, 502, 503, 504]

/-- `_circuit_open_error()`. -/
def circuitOpenError : PlannerOutputError where
  message := "Planner provider circuit breaker is open."
  stage := "provider_circuit_open"
  reason := "transient provider request failures exceeded circuit threshold"

/-- `_provider_retry_delay(exc, attempt, policy, jitter)`.  The power of two is converted to a
`float`, which fails from `2 ** 1024` on. -/
def providerRetryDelay (exc : PlannerOutputError) (attempt : ℕ) (policy : ProviderRetryPolicy)
    (jitter : ℚ → ℚ) : Except String ℚ :=
  match exc.retryAfterSeconds with
  | some retryAfter => .ok (min (max 0 retryAfter) policy.backoffMaxSeconds)
  | none =>
      if 1024 ≤ attempt - 1 then .error "OverflowError"
      else
        let exponential := binary64.round (policy.backoffBaseSeconds * 2 ^ (attempt - 1))
        let delay := min exponential policy.backoffMaxSeconds
        .ok (max 0 (binary64.round (delay + jitter policy.jitterSeconds)))

/-- The attempts of a request: how many calls were made, how long it slept between them, and how
they ended. -/
structure Attempted where
  calls : ℕ
  sleeps : List ℚ := []
  outcome : RequestOutcome

/-- What `complete_json` raises when all its attempts have failed. -/
def persistedError (maxAttempts : ℕ) (lastError : PlannerOutputError) : PlannerOutputError where
  message := "Planner provider transient failure persisted after retries."
  stage := lastError.stage
  reason := lastError.reason
  attempt := maxAttempts
  finishReason := lastError.finishReason
  validationErrors := lastError.validationErrors
  retryAttempted := 1 < maxAttempts
  retryFailureReason := some lastError.reason
  providerStatus := lastError.providerStatus
  retryAfterSeconds := lastError.retryAfterSeconds

/-- `max(1, policy.max_attempts)`. -/
def ProviderRetryPolicy.attempts (policy : ProviderRetryPolicy) : ℕ :=
  (max 1 policy.maxAttempts).toNat

/-- The loop of `complete_json` from an attempt on, when `left` further ones may follow. -/
def attemptRequest (policy : ProviderRetryPolicy) (env : RequestEnv) : ℕ → ℕ → Attempted
  | left, attempt =>
      match env.answer attempt with
      | .content text => { calls := 1, outcome := .success text }
      | .raised exception => { calls := 1, outcome := .raised exception }
      | .error exc =>
          if ¬isTransientProviderError exc then { calls := 1, outcome := .permanentFailure exc }
          else
            match left with
            | 0 => { calls := 1, outcome := .transientFailure (persistedError policy.attempts exc) }
            | left + 1 =>
                match providerRetryDelay exc attempt policy (env.jitter attempt) with
                | .error exception => { calls := 1, outcome := .raised exception }
                | .ok delay =>
                    let rest := attemptRequest policy env left (attempt + 1)
                    { calls := rest.calls + 1
                      sleeps := delay :: rest.sleeps
                      outcome := rest.outcome }

/-! ## The breaker -/

inductive CircuitState where
  | closed
  | opened
  | halfOpen
  deriving DecidableEq

/-- The state of the client. -/
structure ProviderResilientCompletionClient where
  consecutiveRequestFailures : ℕ := 0
  circuitOpenUntil : PyFloat := .finite 0
  circuitState : CircuitState := .closed
  halfOpenSuccesses : ℕ := 0

namespace ProviderResilientCompletionClient

variable (policy : ProviderRetryPolicy)

/-- `_refresh_circuit(now)`. -/
def refreshCircuit (now : ℚ) (s : ProviderResilientCompletionClient) :
    ProviderResilientCompletionClient :=
  if s.circuitState = .opened ∧ s.circuitOpenUntil.le (.finite now) then
    { s with circuitState := .halfOpen, halfOpenSuccesses := 0 }
  else s

/-- `_open_circuit()`, when the clock reads `now`. -/
def openCircuit (now : ℚ) (s : ProviderResilientCompletionClient) :
    ProviderResilientCompletionClient :=
  { s with
    circuitState := .opened
    circuitOpenUntil := .ofRat (now + policy.circuitCooldownSeconds) }

/-- `_record_logical_success()`. -/
def recordLogicalSuccess (s : ProviderResilientCompletionClient) :
    ProviderResilientCompletionClient :=
  if s.circuitState = .halfOpen then
    if max 1 policy.halfOpenProbeCount ≤ s.halfOpenSuccesses + 1 then
      { s with
        consecutiveRequestFailures := 0
        circuitState := .closed
        halfOpenSuccesses := 0 }
    else { s with halfOpenSuccesses := s.halfOpenSuccesses + 1 }
  else { s with consecutiveRequestFailures := 0 }

/-- `_record_logical_failure()`. -/
def recordLogicalFailure (now : ℚ) (s : ProviderResilientCompletionClient) :
    ProviderResilientCompletionClient :=
  let s := { s with halfOpenSuccesses := 0 }
  if s.circuitState = .halfOpen then s.openCircuit policy now
  else
    let s := { s with consecutiveRequestFailures := s.consecutiveRequestFailures + 1 }
    if policy.circuitFailureThreshold ≤ s.consecutiveRequestFailures then s.openCircuit policy now
    else s

/-- `complete_json(...)`: the attempts of the request, and the client after it. -/
def completeJson (env : RequestEnv) (s : ProviderResilientCompletionClient) :
    Attempted × ProviderResilientCompletionClient :=
  let s := s.refreshCircuit env.now
  if s.circuitState = .opened then ({ calls := 0, outcome := .circuitOpen circuitOpenError }, s)
  else
    let attempted := attemptRequest policy env (policy.attempts - 1) 1
    match attempted.outcome with
    | .success _ => (attempted, s.recordLogicalSuccess policy)
    | .transientFailure _ => (attempted, s.recordLogicalFailure policy env.later)
    | _ => (attempted, s)

end ProviderResilientCompletionClient

/-! ## Histories -/

/-- A request that has been served, with the clock readings it saw. -/
structure ServedRequest where
  now : ℚ
  later : ℚ
  attempted : Attempted
  /-- the breaker after the request -/
  circuitState : CircuitState

namespace ServedRequest

def isSuccess (r : ServedRequest) : Bool := r.attempted.outcome.isSuccess

def isTransient (r : ServedRequest) : Bool := r.attempted.outcome.isTransient

/-- The request has opened the breaker. -/
def opens (r : ServedRequest) : Bool := r.isTransient ∧ r.circuitState = .opened

end ServedRequest

/-- A client with the requests that it has served, the newest first. -/
structure ClientRun where
  client : ProviderResilientCompletionClient := {}
  past : List ServedRequest := []

/-- The request `env` as the client serves it. -/
def ProviderResilientCompletionClient.serve (policy : ProviderRetryPolicy) (env : RequestEnv)
    (s : ProviderResilientCompletionClient) : ServedRequest where
  now := env.now
  later := env.later
  attempted := (s.completeJson policy env).1
  circuitState := (s.completeJson policy env).2.circuitState

/-- One more request. -/
def ClientRun.request (policy : ProviderRetryPolicy) (r : ClientRun) (env : RequestEnv) :
    ClientRun where
  client := (r.client.completeJson policy env).2
  past := r.client.serve policy env :: r.past

/-- A client after a sequence of requests. -/
def runRequests (policy : ProviderRetryPolicy) (envs : List RequestEnv) : ClientRun :=
  envs.foldl (ClientRun.request policy) {}

/-- The requests that have failed for a transient reason since the last success. -/
def failuresSinceSuccess (past : List ServedRequest) : ℕ :=
  (past.takeWhile fun r => !r.isSuccess).countP (·.isTransient)

/-- The requests since the breaker has opened last. -/
def sinceOpened (past : List ServedRequest) : List ServedRequest :=
  past.takeWhile fun r => !r.opens

section Histories

variable {past : List ServedRequest} {r : ServedRequest}

theorem failuresSinceSuccess_success (h : r.isSuccess) : failuresSinceSuccess (r :: past) = 0 := by
  simp [failuresSinceSuccess, h]

theorem failuresSinceSuccess_transient (hs : r.isSuccess = false) (ht : r.isTransient) :
    failuresSinceSuccess (r :: past) = failuresSinceSuccess past + 1 := by
  simp [failuresSinceSuccess, hs, ht]

theorem failuresSinceSuccess_neither (hs : r.isSuccess = false) (ht : r.isTransient = false) :
    failuresSinceSuccess (r :: past) = failuresSinceSuccess past := by
  simp [failuresSinceSuccess, hs, ht]

theorem sinceOpened_opens (h : r.opens) : sinceOpened (r :: past) = [] := by
  simp [sinceOpened, h]

theorem sinceOpened_cons (h : r.opens = false) :
    sinceOpened (r :: past) = r :: sinceOpened past := by
  simp [sinceOpened, h]

theorem ServedRequest.opens_of_not_transient (h : r.isTransient = false) : r.opens = false := by
  simp [opens, h]

end Histories

/-! ## What a request does -/

section Request

variable {policy : ProviderRetryPolicy} {env : RequestEnv}

/-- An attempt is the last one, or the next one follows it after a delay. -/
theorem attemptRequest_cases (policy : ProviderRetryPolicy) (env : RequestEnv)
    (left attempt : ℕ) :
    (attemptRequest policy env left attempt).calls = 1 ∨
      ∃ rest, left = rest + 1 ∧ (attemptRequest policy env left attempt).calls =
        (attemptRequest policy env rest (attempt + 1)).calls + 1 := by
  cases hanswer : env.answer attempt with
  | content text =>
      left
      rw [attemptRequest, hanswer]
  | raised exception =>
      left
      rw [attemptRequest, hanswer]
  | error exc =>
      -- only a transient error with retries left, whose delay is accepted, is tried again
      by_cases htransient : isTransientProviderError exc
      · cases left with
        | zero =>
            left
            rw [attemptRequest, hanswer]
            simp only [if_neg (not_not.mpr htransient)]
        | succ rest =>
            cases hdelay : providerRetryDelay exc attempt policy (env.jitter attempt) with
            | error exception =>
                left
                rw [attemptRequest, hanswer]
                simp only [if_neg (not_not.mpr htransient), hdelay]
            | ok delay =>
                right
                refine ⟨rest, rfl, ?_⟩
                rw [attemptRequest, hanswer]
                simp only [if_neg (not_not.mpr htransient), hdelay]
      · left
        rw [attemptRequest, hanswer]
        simp only [if_pos htransient]

/-- A request makes no more calls than attempts are left. -/
theorem attemptRequest_calls (policy : ProviderRetryPolicy) (env : RequestEnv)
    (left attempt : ℕ) :
    (attemptRequest policy env left attempt).calls ≤ left + 1 := by
  induction left generalizing attempt with
  | zero =>
      rcases attemptRequest_cases policy env 0 attempt with h | ⟨rest, hrest, -⟩
      · exact h.le
      · cases hrest
  | succ left ih =>
      rcases attemptRequest_cases policy env (left + 1) attempt with
        h | ⟨rest, hrest, hcalls⟩
      · omega
      · cases hrest
        have hlater := ih (attempt + 1)
        omega

namespace ProviderResilientCompletionClient

variable {s : ProviderResilientCompletionClient}

/-- A request is refused, or it is counted by its outcome. -/
theorem completeJson_cases (policy : ProviderRetryPolicy) (env : RequestEnv)
    (s : ProviderResilientCompletionClient) :
    ((s.refreshCircuit env.now).circuitState = .opened ∧
      s.completeJson policy env =
        ({ calls := 0, outcome := .circuitOpen circuitOpenError }, s.refreshCircuit env.now)) ∨
    ((s.refreshCircuit env.now).circuitState ≠ .opened ∧
      ∃ attempted, attempted.calls ≤ policy.attempts ∧
        ((attempted.outcome.isSuccess ∧ s.completeJson policy env =
            (attempted, (s.refreshCircuit env.now).recordLogicalSuccess policy)) ∨
          (attempted.outcome.isTransient ∧ s.completeJson policy env =
            (attempted, (s.refreshCircuit env.now).recordLogicalFailure policy env.later)) ∨
          (attempted.outcome.isSuccess = false ∧ attempted.outcome.isTransient = false ∧
            s.completeJson policy env = (attempted, s.refreshCircuit env.now)))) := by
  by_cases hopened : (s.refreshCircuit env.now).circuitState = .opened
  · exact Or.inl ⟨hopened, if_pos hopened⟩
  · refine Or.inr ⟨hopened, attemptRequest policy env (policy.attempts - 1) 1, ?_, ?_⟩
    · have hcalls := attemptRequest_calls policy env (policy.attempts - 1) 1
      have hpositive : 1 ≤ policy.attempts := by
        rw [ProviderRetryPolicy.attempts]
        omega
      omega
    · rw [completeJson, if_neg hopened]
      cases houtcome : (attemptRequest policy env (policy.attempts - 1) 1).outcome with
      | success => exact Or.inl ⟨rfl, by simp only [houtcome]⟩
      | transientFailure => exact Or.inr (Or.inl ⟨rfl, by simp only [houtcome]⟩)
      | permanentFailure => exact Or.inr (Or.inr ⟨rfl, rfl, by simp only [houtcome]⟩)
      | raised => exact Or.inr (Or.inr ⟨rfl, rfl, by simp only [houtcome]⟩)
      | circuitOpen => exact Or.inr (Or.inr ⟨rfl, rfl, by simp only [houtcome]⟩)

end ProviderResilientCompletionClient

end Request

/-! ## The breaker along a history -/

/-- What the client remembers of the requests in `past`. -/
structure Tracks (policy : ProviderRetryPolicy) (s : ProviderResilientCompletionClient)
    (past : List ServedRequest) : Prop where
  closed : s.circuitState = .closed → s.consecutiveRequestFailures = failuresSinceSuccess past ∧
    (s.consecutiveRequestFailures : ℤ) < max 1 policy.circuitFailureThreshold
  opening : s.circuitState ≠ .closed → ∃ opening, past.find? (·.opens) = some opening ∧
    s.circuitOpenUntil = .ofRat (opening.later + policy.circuitCooldownSeconds)
  probes : s.circuitState ≠ .closed → (∀ p ∈ sinceOpened past, p.isTransient = false) ∧
    (sinceOpened past).countP (·.isSuccess) =
      if s.circuitState = .halfOpen then s.halfOpenSuccesses else 0
  halfOpen : s.circuitState = .halfOpen →
    (s.halfOpenSuccesses : ℤ) < max 1 policy.halfOpenProbeCount

section Breaker

open ProviderResilientCompletionClient

variable {policy : ProviderRetryPolicy} {s : ProviderResilientCompletionClient}
  {past : List ServedRequest} {r : ServedRequest} {now : ℚ}

/-- A breaker that becomes half-open has had no probe. -/
theorem Tracks.refresh (h : Tracks policy s past) (now : ℚ) :
    Tracks policy (s.refreshCircuit now) past := by
  unfold refreshCircuit
  split
  · rename_i hopened
    have hne : s.circuitState ≠ .closed := by simp [hopened.1]
    refine ⟨fun hclosed => (by cases hclosed), fun _ => h.opening hne, fun _ => ?_, fun _ => ?_⟩
    · obtain ⟨hnone, hcount⟩ := h.probes hne
      exact ⟨hnone, by simpa [hopened.1] using hcount⟩
    · exact lt_max_of_lt_left one_pos
  · exact h

/-- A request that neither succeeds nor fails for a transient reason is not counted. -/
theorem Tracks.neither (h : Tracks policy s past) (hs : r.isSuccess = false)
    (ht : r.isTransient = false) : Tracks policy s (r :: past) where
  closed hclosed := by
    rw [failuresSinceSuccess_neither hs ht]
    exact h.closed hclosed
  opening hne := by
    rw [List.find?_cons_of_neg (by simp [ServedRequest.opens_of_not_transient ht])]
    exact h.opening hne
  probes hne := by
    rw [sinceOpened_cons (ServedRequest.opens_of_not_transient ht),
      List.countP_cons_of_neg (by simp [hs])]
    exact ⟨List.forall_mem_cons.mpr ⟨ht, (h.probes hne).1⟩, (h.probes hne).2⟩
  halfOpen := h.halfOpen

/-- A success closes a half-open breaker after enough probes. -/
theorem Tracks.success (h : Tracks policy s past) (hopened : s.circuitState ≠ .opened)
    (hs : r.isSuccess) (ht : r.isTransient = false) :
    Tracks policy (s.recordLogicalSuccess policy) (r :: past) := by
  have hnot : r.opens = false := ServedRequest.opens_of_not_transient ht
  unfold recordLogicalSuccess
  split
  · rename_i hhalf
    -- a probe: it closes the breaker, or counts as one more since the breaker was opened
    have hne : s.circuitState ≠ .closed := by simp [hhalf]
    split
    · refine ⟨fun _ => ⟨(failuresSinceSuccess_success hs).symm, lt_max_of_lt_left one_pos⟩,
        fun hclosed => ?_,
        fun hclosed => ?_, fun hclosed => (by cases hclosed)⟩
      · exact absurd rfl hclosed
      · exact absurd rfl hclosed
    · rename_i hfew
      obtain ⟨hnone, hcount⟩ := h.probes hne
      refine ⟨fun hclosed => absurd hclosed hne, fun _ => ?_, fun _ => ?_, fun _ => ?_⟩
      · rw [List.find?_cons_of_neg (by simp [hnot])]
        exact h.opening hne
      · rw [sinceOpened_cons hnot, List.countP_cons_of_pos hs, hcount, if_pos hhalf, if_pos hhalf]
        exact ⟨List.forall_mem_cons.mpr ⟨ht, hnone⟩, rfl⟩
      · push_cast
        omega
  · rename_i hhalf
    -- requests are only attempted when the breaker is not open, so it is closed here
    have hclosed : s.circuitState = .closed := by
      cases hstate : s.circuitState with
      | closed => rfl
      | opened => exact absurd hstate hopened
      | halfOpen => exact absurd hstate hhalf
    refine ⟨fun _ => ⟨(failuresSinceSuccess_success hs).symm, lt_max_of_lt_left one_pos⟩,
      fun hne => ?_,
      fun hne => ?_, fun hhalf' => absurd hhalf' hhalf⟩
    · exact absurd hclosed hne
    · exact absurd hclosed hne

/-- A breaker that opens at a request. -/
theorem tracks_opened (hopens : r.opens) (hstate : s.circuitState = .opened)
    (huntil : s.circuitOpenUntil = .ofRat (r.later + policy.circuitCooldownSeconds)) :
    Tracks policy s (r :: past) where
  closed hclosed := by
    rw [hstate] at hclosed
    cases hclosed
  opening _ := ⟨r, List.find?_cons_of_pos hopens, huntil⟩
  probes _ := by
    rw [sinceOpened_opens hopens, if_neg (by simp [hstate])]
    exact ⟨fun p hp => absurd hp List.not_mem_nil, rfl⟩
  halfOpen hhalf := by
    rw [hstate] at hhalf
    cases hhalf

/-- A transient failure opens the breaker, or is one of few. -/
theorem Tracks.failure (h : Tracks policy s past) (hopened : s.circuitState ≠ .opened)
    (hs : r.isSuccess = false) (ht : r.isTransient)
    (hstate : r.circuitState = (s.recordLogicalFailure policy r.later).circuitState) :
    Tracks policy (s.recordLogicalFailure policy r.later) (r :: past) := by
  have hopens : (s.recordLogicalFailure policy r.later).circuitState = .opened → r.opens := by
    intro heq
    simp [ServedRequest.opens, ht, hstate, heq]
  simp only [recordLogicalFailure] at hopens ⊢
  split
  · rename_i hhalf
    exact tracks_opened (hopens (by rw [if_pos hhalf]; rfl)) rfl rfl
  · rename_i hhalf
    have hclosed : s.circuitState = .closed := by
      cases hstate : s.circuitState with
      | closed => rfl
      | opened => exact absurd hstate hopened
      | halfOpen => exact absurd hstate hhalf
    split
    · rename_i hmany
      exact tracks_opened (hopens (by rw [if_neg hhalf, if_pos hmany]; rfl)) rfl rfl
    · rename_i hfew
      obtain ⟨hcount, -⟩ := h.closed hclosed
      refine ⟨fun _ => ⟨?_, ?_⟩, fun hne => absurd hclosed hne, fun hne => absurd hclosed hne,
        fun hhalf' => absurd hhalf' hhalf⟩
      · rw [failuresSinceSuccess_transient hs ht, ← hcount]
      · exact lt_max_of_lt_right (not_le.mp hfew)

theorem RequestOutcome.not_transient {o : RequestOutcome} (h : o.isSuccess) :
    o.isTransient = false := by
  cases o with
  | success => rfl
  | _ => cases h

theorem RequestOutcome.not_success {o : RequestOutcome} (h : o.isTransient) :
    o.isSuccess = false := by
  cases o with
  | transientFailure => rfl
  | _ => cases h

/-- The client keeps track of one more request. -/
theorem Tracks.request (h : Tracks policy s past) (env : RequestEnv) :
    Tracks policy (s.completeJson policy env).2 (s.serve policy env :: past) := by
  have hfresh := h.refresh env.now
  rcases completeJson_cases policy env s with
    ⟨-, hcomplete⟩ | ⟨hopened, attempted, -,
      ⟨hs, hcomplete⟩ | ⟨ht, hcomplete⟩ | ⟨hs, ht, hcomplete⟩⟩
  · rw [hcomplete]
    exact hfresh.neither (by rw [ServedRequest.isSuccess, serve, hcomplete]; rfl)
      (by rw [ServedRequest.isTransient, serve, hcomplete]; rfl)
  · rw [hcomplete]
    refine hfresh.success hopened ?_ ?_
    · rw [ServedRequest.isSuccess, serve, hcomplete]
      exact hs
    · rw [ServedRequest.isTransient, serve, hcomplete]
      exact RequestOutcome.not_transient hs
  · rw [hcomplete]
    refine hfresh.failure (r := s.serve policy env) hopened ?_ ?_ ?_
    · rw [ServedRequest.isSuccess, serve, hcomplete]
      exact RequestOutcome.not_success ht
    · rw [ServedRequest.isTransient, serve, hcomplete]
      exact ht
    · rw [serve, hcomplete]
  · rw [hcomplete]
    refine hfresh.neither ?_ ?_
    · rw [ServedRequest.isSuccess, serve, hcomplete]
      exact hs
    · rw [ServedRequest.isTransient, serve, hcomplete]
      exact ht

/-- The client keeps track of all requests. -/
theorem tracks_run (policy : ProviderRetryPolicy) (envs : List RequestEnv) :
    Tracks policy (runRequests policy envs).client (runRequests policy envs).past := by
  induction envs using List.reverseRecOn with
  | nil =>
      exact ⟨fun _ => ⟨rfl, lt_max_of_lt_left one_pos⟩, fun hne => absurd rfl hne,
        fun hne => absurd rfl hne, fun hhalf => by cases hhalf⟩
  | append_singleton envs env ih =>
      rw [runRequests, List.foldl_append]
      exact ih.request env

/-- What the breaker promises of a client and of whatever request it serves next. -/
structure BreakerSound (policy : ProviderRetryPolicy) (r : ClientRun) : Prop where
  /-- it is closed only while few requests have failed since the last success -/
  closed : r.client.circuitState = .closed →
    (failuresSinceSuccess r.past : ℤ) < max 1 policy.circuitFailureThreshold
  /-- while it is open nothing is called before the rounded end of its cooldown -/
  cooldown : r.client.circuitState = .opened →
    ∃ opening, r.past.find? (·.opens) = some opening ∧ ∀ env : RequestEnv,
      (PyFloat.finite env.now).lt (.ofRat (opening.later + policy.circuitCooldownSeconds)) →
        (r.client.serve policy env).attempted.calls = 0
  attempts : ∀ env, ((r.client.serve policy env).attempted.calls : ℤ) ≤ max 1 policy.maxAttempts
  /-- it closes again only after enough successes since it has opened, and no failure -/
  closes : ∀ env, r.client.circuitState ≠ .closed →
    (r.client.serve policy env).circuitState = .closed →
      max 1 policy.halfOpenProbeCount ≤
          ((sinceOpened (r.request policy env).past).countP (·.isSuccess) : ℤ) ∧
        ∀ probe ∈ sinceOpened (r.request policy env).past, probe.isTransient = false
  /-- the first failure of a probe opens it -/
  reopens : ∀ env, (r.client.refreshCircuit env.now).circuitState = .halfOpen →
    (r.client.serve policy env).isTransient → (r.client.serve policy env).circuitState = .opened

/-- A client calls nothing while it is open and the clock is behind the time it waits for. -/
theorem completeJson_opened {env : RequestEnv} (hopened : s.circuitState = .opened)
    (hnow : (PyFloat.finite env.now).lt s.circuitOpenUntil) :
    (s.serve policy env).attempted.calls = 0 := by
  have hsame : s.refreshCircuit env.now = s := if_neg fun h => PyFloat.not_le_of_lt hnow h.2
  rcases completeJson_cases policy env s with ⟨-, hcomplete⟩ | ⟨hne, -⟩
  · rw [serve, hcomplete]
  · rw [hsame] at hne
    exact absurd hopened hne

theorem completeJson_calls (policy : ProviderRetryPolicy) (env : RequestEnv)
    (s : ProviderResilientCompletionClient) :
    (s.serve policy env).attempted.calls ≤ policy.attempts := by
  rcases completeJson_cases policy env s with
    ⟨-, hcomplete⟩ | ⟨-, attempted, hcalls, ⟨-, hcomplete⟩ | ⟨-, hcomplete⟩ | ⟨-, -, hcomplete⟩⟩
  · rw [serve, hcomplete]
    exact Nat.zero_le _
  all_goals
    rw [serve, hcomplete]
    exact hcalls

theorem halfOpen_of_ne (hclosed : s.circuitState ≠ .closed) (hopened : s.circuitState ≠ .opened) :
    s.circuitState = .halfOpen := by
  cases hstate : s.circuitState with
  | closed => exact absurd hstate hclosed
  | opened => exact absurd hstate hopened
  | halfOpen => rfl

/-- A failure opens a half-open breaker. -/
theorem recordLogicalFailure_halfOpen (hhalf : s.circuitState = .halfOpen) :
    (s.recordLogicalFailure policy now).circuitState = .opened := by
  simp only [recordLogicalFailure]
  rw [if_pos hhalf]
  rfl

/-- A breaker that has been open or half-open closes at a success, when it has had its probes. -/
theorem Tracks.closes (h : Tracks policy s past) {env : RequestEnv}
    (hne : s.circuitState ≠ .closed) (hclosed : (s.serve policy env).circuitState = .closed) :
    max 1 policy.halfOpenProbeCount ≤
        ((sinceOpened (s.serve policy env :: past)).countP (·.isSuccess) : ℤ) ∧
      ∀ probe ∈ sinceOpened (s.serve policy env :: past), probe.isTransient = false := by
  -- only the outcome of a probe can close a breaker that is not closed
  have hfresh := h.refresh env.now
  have hstill : (s.refreshCircuit env.now).circuitState ≠ .closed := by
    unfold refreshCircuit
    split
    · exact fun hstate => by cases hstate
    · exact hne
  rcases completeJson_cases policy env s with
    ⟨hopened, hcomplete⟩ |
      ⟨hopened, attempted, -, ⟨hs, hcomplete⟩ | ⟨ht, hcomplete⟩ | ⟨hs, ht, hcomplete⟩⟩
  · rw [serve, hcomplete] at hclosed
    exact absurd hclosed hstill
  · -- the breaker is half-open, and this is its last probe
    have hhalf := halfOpen_of_ne hstill hopened
    have hserved : (s.serve policy env).attempted = attempted := by rw [serve, hcomplete]
    have hsuccess : (s.serve policy env).isSuccess := by
      rw [ServedRequest.isSuccess, hserved]
      exact hs
    have hnot : (s.serve policy env).isTransient = false := by
      rw [ServedRequest.isTransient, hserved]
      exact RequestOutcome.not_transient hs
    obtain ⟨hnone, hcount⟩ := hfresh.probes hstill
    rw [sinceOpened_cons (ServedRequest.opens_of_not_transient hnot),
      List.countP_cons_of_pos hsuccess, hcount, if_pos hhalf]
    refine ⟨?_, List.forall_mem_cons.mpr ⟨hnot, hnone⟩⟩
    rw [serve, hcomplete, recordLogicalSuccess, if_pos hhalf] at hclosed
    split at hclosed
    · push_cast
      assumption
    · exact absurd hclosed hstill
  · rw [serve, hcomplete] at hclosed
    rw [recordLogicalFailure_halfOpen (halfOpen_of_ne hstill hopened)] at hclosed
    cases hclosed
  · rw [serve, hcomplete] at hclosed
    exact absurd hclosed hstill

/-- The breaker works as it should, whatever the requests. -/
theorem runRequests_sound (policy : ProviderRetryPolicy) (envs : List RequestEnv) :
    BreakerSound policy (runRequests policy envs) := by
  have htracks := tracks_run policy envs
  refine ⟨fun hclosed => ?_, fun hopened => ?_, fun env => ?_, fun env => htracks.closes,
    fun env hhalf ht => ?_⟩
  · obtain ⟨hcount, hfew⟩ := htracks.closed hclosed
    rw [← hcount]
    exact hfew
  · obtain ⟨opening, hfind, huntil⟩ := htracks.opening (by simp [hopened])
    refine ⟨opening, hfind, fun env hnow => completeJson_opened hopened ?_⟩
    rw [huntil]
    exact hnow
  · have hcalls := completeJson_calls policy env (runRequests policy envs).client
    rw [ProviderRetryPolicy.attempts] at hcalls
    omega
  · rcases completeJson_cases policy env (runRequests policy envs).client with
      ⟨hopened, -⟩ | ⟨-, attempted, -, ⟨hs, hcomplete⟩ | ⟨-, hcomplete⟩ | ⟨-, hnot, hcomplete⟩⟩
    · rw [hhalf] at hopened
      cases hopened
    · rw [ServedRequest.isTransient, serve, hcomplete] at ht
      rw [RequestOutcome.not_transient hs] at ht
      cases ht
    · rw [serve, hcomplete]
      exact recordLogicalFailure_halfOpen hhalf
    · rw [ServedRequest.isTransient, serve, hcomplete, hnot] at ht
      cases ht

end Breaker

/-! ### A cooldown that is rounded down -/

/-- A request at the reading `now` to a provider that cannot be reached. -/
def failingRequest (now : ℚ) : RequestEnv where
  now := now
  later := now
  answer _ := .error { message := "provider unreachable", stage := "provider_request" }
  jitter _ _ := 0

/-- A policy without retries that opens the breaker at the first failure. -/
def strictPolicy : ProviderRetryPolicy where
  maxAttempts := 1
  circuitFailureThreshold := 1

/-- A minute after a reading just above one second, as the sum is rounded. -/
theorem ofRat_minuteLater : PyFloat.ofRat (1 + 1 / 2 ^ 52 + 60) = .finite 61 := by
  have hexponent : binary64.exponent (1 + 1 / 2 ^ 52 + 60) = -47 := by
    apply BinaryFormat.exponent_eq
    · decide
    · norm_num [binary64]
    · norm_num [binary64]
  have hround : binary64.round (1 + 1 / 2 ^ 52 + 60) = 61 := by
    rw [BinaryFormat.round_eq (n := 61 * 2 ^ 47) hexponent]
    · norm_num
    · norm_num
  have hsmall : (61 : ℚ) < 2 ^ 1024 :=
    lt_of_lt_of_le (by norm_num : (61 : ℚ) < 2 ^ 6) (pow_le_pow_right₀ one_le_two (by omega))
  exact PyFloat.ofRat_eq hround (lt_trans (neg_lt_zero.mpr (by positivity)) (by norm_num)) hsmall

/-- The breaker that opens at that reading. -/
def openedBreaker : ClientRun := runRequests strictPolicy [failingRequest (1 + 1 / 2 ^ 52)]

theorem openedBreaker_until :
    openedBreaker.client.circuitState = .opened ∧
      openedBreaker.client.circuitOpenUntil = .finite 61 := by
  refine ⟨rfl, ?_⟩
  rw [← ofRat_minuteLater]
  rfl

/-- It asks the provider again before a minute has gone by. -/
theorem cooldown_roundedDown :
    ¬ ∀ (policy : ProviderRetryPolicy) (envs : List RequestEnv) (env : RequestEnv)
      (opening : ServedRequest),
      ((envs ++ [env]).flatMap fun env => [env.now, env.later]).Pairwise (· ≤ ·) →
      (runRequests policy envs).client.circuitState = .opened →
      (runRequests policy envs).past.find? (·.opens) = some opening →
      env.now < opening.later + policy.circuitCooldownSeconds →
        ((runRequests policy envs).client.serve policy env).attempted.calls = 0 := by
  intro hclaim
  obtain ⟨hopened, huntil⟩ := openedBreaker_until
  have hcalls := hclaim strictPolicy [failingRequest (1 + 1 / 2 ^ 52)] (failingRequest 61)
    (({} : ProviderResilientCompletionClient).serve strictPolicy (failingRequest (1 + 1 / 2 ^ 52)))
    (by norm_num [failingRequest]) hopened rfl (by norm_num [failingRequest, strictPolicy,
      ProviderResilientCompletionClient.serve])
  have hhalf : (openedBreaker.client.refreshCircuit 61).circuitState = .halfOpen := by
    rw [ProviderResilientCompletionClient.refreshCircuit, huntil, if_pos ⟨hopened, by decide⟩]
  -- the rounded end of the cooldown has come, so the request is a probe
  have hprobe : (openedBreaker.client.serve strictPolicy (failingRequest 61)).attempted =
      attemptRequest strictPolicy (failingRequest 61) 0 1 := by
    have hnot : (openedBreaker.client.refreshCircuit 61).circuitState ≠ .opened := by
      rw [hhalf]
      decide
    show (openedBreaker.client.completeJson strictPolicy (failingRequest 61)).1 = _
    rw [ProviderResilientCompletionClient.completeJson]
    show (if (openedBreaker.client.refreshCircuit 61).circuitState = .opened then _ else _ :
      Attempted × ProviderResilientCompletionClient).1 = _
    rw [if_neg hnot]
    rfl
  have hone : (openedBreaker.client.serve strictPolicy (failingRequest 61)).attempted.calls =
    1 := by
    rw [hprobe]
    rfl
  exact absurd (hone.symm.trans hcalls) Nat.one_ne_zero

end McpOps
