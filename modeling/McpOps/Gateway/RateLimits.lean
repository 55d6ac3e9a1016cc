import McpOps.Gateway.Stores
import McpOps.Lib.SlidingWindow
import McpOps.Python.Json
import Mathlib.Algebra.Order.Group.Int

/-!
# The in-memory rate limiter is a sliding window

`FixedWindowRateLimiter.check` keeps, for each principal and tool, the accepted calls that are
younger than the window of the tool at its last call.  It decides as if it kept all of them.

`step_eq` puts `check` in the terms of the library on sliding windows, where the stored calls are
in time order.  `Remembers` says of the stored calls of every key that they are in time order and
decide like its history: what was dropped was too old then, and time only goes on.  One call keeps
this (`Remembers.step`), so from the start all decisions are those of the histories
(`run_eq_decisions`).

`rateLimiter_isSlidingWindow` says what such decisions are like: no window holds more accepted
calls than the limit, and a call is refused only when the window before it is full.
-/

namespace McpOps

open SlidingWindow

/-! ## Rate limits and their texts -/

/-- The windows that `_parse_rate_limit` knows. -/
inductive RateWindow where
  | minute
  | second
  deriving DecidableEq, Repr

def RateWindow.value : RateWindow → String
  | .minute => "minute"
  | .second => "second"

def RateWindow.length : RateWindow → Time
  | .minute => seconds 60
  | .second => seconds 1

/-- `count` calls in every window, where `int` reads the digits of `count`. -/
structure RateLimit where
  count : ℕ
  window : RateWindow
  readable : (Nat.toDigits 10 count).length ≤ intMaxStrDigits

namespace RateLimit

/-- The limit as the tool registry writes it: `n/minute` or `n/second`. -/
def text (r : RateLimit) : String := toString r.count ++ "/" ++ r.window.value

/-- The limit in the terms of sliding windows. -/
def limit (r : RateLimit) : Limit Time := ⟨r.count, r.window.length⟩

end RateLimit

theorem intOfText_toDigits {n : ℕ} (hn : (Nat.toDigits 10 n).length ≤ intMaxStrDigits) :
    intOfText (Nat.toDigits 10 n) = some (n : ℤ) := by
  rw [intOfText_digits Nat.toDigits_ne_nil (fun c hc => isDigit_of_mem_toDigits hc) hn,
    Nat.ofDigitChars_ten_toDigits]
  rfl

/-- A written limit is read back. -/
theorem parseRateLimit_text (r : RateLimit) :
    parseRateLimit r.text = .ok (r.count, r.window.length) := by
  have htext : r.text.toList = Nat.toDigits 10 r.count ++ '/' :: r.window.value.toList := by
    rw [RateLimit.text, String.toList_append, String.toList_append]
    simp [toString, Nat.repr]
  have hspan : r.text.toList.span (fun c => decide (c ≠ '/')) =
      (Nat.toDigits 10 r.count, '/' :: r.window.value.toList) := by
    have hdigits : ∀ c ∈ Nat.toDigits 10 r.count, decide (c ≠ '/') = true := by
      intro c hc
      have hdigit := isDigit_of_mem_toDigits hc
      rw [decide_eq_true_eq]
      rintro rfl
      exact absurd hdigit (by decide)
    rw [htext, List.span_eq_takeWhile_dropWhile, List.takeWhile_append_of_pos hdigits,
      List.dropWhile_append_of_pos hdigits]
    simp
  rw [parseRateLimit, hspan]
  simp only [intOfText_toDigits r.readable, String.ofList_toList]
  cases r.window <;> simp [RateWindow.value, RateWindow.length]

/-! ## One call -/

/-- A call of `check`, without the rate limit of its tool. -/
structure LimitedCall where
  principal : Principal
  toolName : String
  now : Time

/-- The key that the calls are counted under. -/
def LimitedCall.key (c : LimitedCall) : String × String := (c.principal.principalId, c.toolName)

/-- The refusal of `check`. -/
def rateLimitExceeded (toolName : String) : Exn :=
  .gateway ⟨.rateLimitExceeded, s!"Rate limit exceeded for {toolName}."⟩

namespace FixedWindowRateLimiter

/-- The calls stored under a key, none for a new one. -/
def callsOf (s : FixedWindowRateLimiter) (key : String × String) : List Time :=
  (s.calls.get? key).getD []

@[simp] theorem callsOf_empty (key : String × String) : callsOf {} key = [] := rfl

theorem callsOf_set (s : FixedWindowRateLimiter) (key : String × String) (calls : List Time) :
    callsOf ⟨s.calls.set key calls⟩ = Function.update s.callsOf key calls := by
  funext key'
  rw [callsOf, Dict.get?_set]
  by_cases hkey : key' = key
  · simp [hkey]
  · simp [hkey, callsOf]

/-- Whether `check` accepts a call, and the limiter it leaves. -/
def step (limits : String → RateLimit) (c : LimitedCall) (s : FixedWindowRateLimiter) :
    Bool × FixedWindowRateLimiter :=
  let answer := s.check c.principal c.toolName (limits c.toolName).text c.now
  (answer.1.isOk, answer.2)

variable {limits : String → RateLimit} {last : Time} {s : FixedWindowRateLimiter}
  {history : String × String → List Time} {c : LimitedCall}

/-- The stored calls of every key are in time order and decide like its history. -/
structure Remembers (limits : String → RateLimit) (last : Time) (s : FixedWindowRateLimiter)
    (history : String × String → List Time) : Prop where
  sorted : ∀ key, (s.callsOf key).Pairwise (· ≤ ·)
  remembers : ∀ key, (limits key.2).limit.Remembers last (s.callsOf key) (history key)

theorem Remembers.empty (limits : String → RateLimit) (last : Time) :
    Remembers limits last {} fun _ => [] where
  sorted := by simp
  remembers key := by
    rw [callsOf_empty]
    exact Limit.Remembers.nil

/-- The stored calls of the key of `c` that still count. -/
def remaining (limits : String → RateLimit) (c : LimitedCall) (s : FixedWindowRateLimiter) :
    List Time :=
  (s.callsOf c.key).filter ((limits c.toolName).limit.inside c.now)

/-- `check` in the terms of sliding windows, where the stored calls are in time order. -/
theorem step_eq (hsorted : (s.callsOf c.key).Pairwise (· ≤ ·)) :
    s.step limits c =
      if (limits c.toolName).limit.Admits (s.remaining limits c) c.now then
        (true, ⟨s.calls.set c.key (s.remaining limits c ++ [c.now])⟩)
      else (false, ⟨s.calls.set c.key (s.remaining limits c)⟩) := by
  have hdrop : ((s.calls.get? (c.principal.principalId, c.toolName)).getD []).dropWhile
      (fun t => decide ((limits c.toolName).window.length ≤ c.now - t)) = s.remaining limits c :=
    Limit.dropWhile_eq_filter (limits c.toolName).limit c.now hsorted
  have hadmits : (limits c.toolName).limit.Admits (s.remaining limits c) c.now ↔
      ¬ (limits c.toolName).count ≤ (s.remaining limits c).length := by
    rw [Limit.Admits, remaining, List.countP_filter, List.countP_eq_length_filter, not_le]
    simp [RateLimit.limit]
  simp only [step, check, parseRateLimit_text, hdrop, Int.ofNat_le]
  split
  · next hfull =>
    rw [if_neg fun h => hadmits.mp h hfull]
    rfl
  · next hroom =>
    rw [if_pos (hadmits.mpr hroom)]
    rfl

/-- One call of `check` decides like the histories and keeps what they need. -/
theorem Remembers.step (h : Remembers limits last s history) (hclock : last ≤ c.now) :
    (s.step limits c).1 =
        decide ((limits c.key.2).limit.Admits (history c.key) c.now) ∧
      Remembers limits c.now (s.step limits c).2
        (advance LimitedCall.key LimitedCall.now (fun key => (limits key.2).limit) history c) := by
  -- the calls that stay decide like those stored, and those like the history
  have hnow := fun key => (h.remembers key).mono hclock
  have hkept : (limits c.toolName).limit.Remembers c.now (s.remaining limits c) (history c.key) :=
    (hnow c.key).prune fun t _ hin => hin
  have hadmits : (limits c.toolName).limit.Admits (s.remaining limits c) c.now ↔
      (limits c.key.2).limit.Admits (history c.key) c.now := by
    rw [Limit.Admits, hkept.countP_eq]
    rfl
  have hkeptSorted : (s.remaining limits c).Pairwise (· ≤ ·) := (h.sorted c.key).filter _
  rw [step_eq (h.sorted c.key), advance]
  by_cases hroom : (limits c.toolName).limit.Admits (s.remaining limits c) c.now
  · rw [if_pos hroom, if_pos (hadmits.mp hroom)]
    refine ⟨by simpa using hadmits.mp hroom, ?_, ?_⟩
    · intro key
      rw [callsOf_set, Function.update_apply]
      split
      · rw [List.pairwise_append]
        refine ⟨hkeptSorted, List.pairwise_singleton .., fun t ht u hu => ?_⟩
        rw [List.mem_singleton.mp hu]
        exact hkept.stored_le t ht
      · exact h.sorted key
    · intro key
      rw [callsOf_set, Function.update_apply, Function.update_apply]
      split
      · next hkey =>
        rw [hkey]
        exact hkept.accept
      · exact hnow key
  · rw [if_neg hroom, if_neg fun h => hroom (hadmits.mpr h)]
    refine ⟨by simpa using fun h => hroom (hadmits.mpr h), ?_, ?_⟩
    · intro key
      rw [callsOf_set, Function.update_apply]
      split
      · exact hkeptSorted
      · exact h.sorted key
    · intro key
      rw [callsOf_set, Function.update_apply]
      split
      · next hkey =>
        rw [hkey]
        exact hkept
      · exact hnow key

/-- From the start, all decisions are those of the histories. -/
theorem run_eq_decisions (limits : String → RateLimit) {calls : List LimitedCall}
    (hclock : calls.Pairwise fun c d => c.now ≤ d.now) :
    run (step limits) {} calls =
      decisions LimitedCall.key LimitedCall.now (fun key => (limits key.2).limit) (fun _ => [])
        calls :=
  SlidingWindow.run_eq_decisions (fun _ _ h hclock => h.step hclock) hclock
    (Remembers.empty limits)

end FixedWindowRateLimiter

/-- What a sliding window of each limit says about decided calls. -/
structure IsSlidingWindow (limits : String → RateLimit) (outcomes : List (LimitedCall × Bool)) :
    Prop where
  /-- A half-open interval of the length of the window has at most `count` accepted calls of a
  principal and tool. -/
  atMost : ∀ (principalId toolName : String) (start : Time),
    let limit := (limits toolName).limit
    let accepted := acceptedTimes LimitedCall.key LimitedCall.now (principalId, toolName) outcomes
    accepted.countP (fun t => decide (start ≤ t ∧ t < start + limit.window)) ≤ limit.count ∧
      accepted.countP (fun t => decide (start < t ∧ t ≤ start + limit.window)) ≤ limit.count
  /-- A refused call comes less than one window after `count` accepted ones of its principal and
  tool. -/
  ofRefused : ∀ (before after : List (LimitedCall × Bool)) (c : LimitedCall),
    outcomes = before ++ (c, false) :: after →
      let limit := (limits c.toolName).limit
      limit.count ≤ (acceptedTimes LimitedCall.key LimitedCall.now c.key before).countP
        fun t => decide (c.now - t < limit.window)

/-- **The sliding window.**  Calls of `check` in the order of the clock are decided by a sliding
window of each tool's limit. -/
theorem rateLimiter_isSlidingWindow (limits : String → RateLimit) (calls : List LimitedCall)
    (hclock : calls.Pairwise fun c d => c.now ≤ d.now) :
    IsSlidingWindow limits (run (FixedWindowRateLimiter.step limits) {} calls) := by
  rw [FixedWindowRateLimiter.run_eq_decisions limits hclock]
  constructor
  · intro principalId toolName start
    have hadmitted : (limits toolName).limit.Admitted
        (acceptedTimes LimitedCall.key LimitedCall.now (principalId, toolName)
          (decisions LimitedCall.key LimitedCall.now (fun key => (limits key.2).limit)
            (fun _ => []) calls)) :=
      admitted_decisions (fun key : String × String => (limits key.2).limit)
        (fun _ => Limit.Admitted.nil) (principalId, toolName)
    exact ⟨hadmitted.countP_ico_le start, hadmitted.countP_ioc_le start⟩
  · intro before after c hrefused
    exact not_lt.mp (not_admits_of_refused hrefused)

/-- The calls of the example that follows: two in one second, and one exactly a second later. -/
def threeCalls : List LimitedCall :=
  let call := fun now => ⟨⟨"viewer-1", .viewer, .human⟩, "list_devices", now⟩
  [call 0, call 1, call (seconds 1)]

theorem readable_one : (Nat.toDigits 10 1).length ≤ intMaxStrDigits := by decide

/-- One call in every window. -/
def RateLimit.one (window : RateWindow) : RateLimit := ⟨1, window, readable_one⟩

theorem rateLimiter_isSlidingWindow_threeCalls :
    IsSlidingWindow (fun _ => .one .second)
      (run (FixedWindowRateLimiter.step fun _ => .one .second) {} threeCalls) :=
  rateLimiter_isSlidingWindow _ threeCalls (by decide)

end McpOps
