import McpOps.Gateway.RateLimits

/-!
# The SQLAlchemy rate limiter

One table holds the accepted calls of every principal and tool.  A call that is accepted
deletes all rows that are older than the window of its own tool, also those of tools whose
window is longer.

## Strategy

In the terms of sliding windows, `check` looks at the rows of its key that still count, and adds one
(`step_eq`).  `Remembers` says that the rows of every key decide like its history.

* Without mixed windows, a deletion takes only rows that no tool counts any more, so one call keeps
  `Remembers` (`Remembers.step`), and the table decides like the memory.
* With mixed windows there are calls on which they differ, for any two such tools: calls of the
  per-minute tool up to its limit, one of the per-second tool two seconds later, and one more of the
  first (`crossingCalls`).  In memory the last of them is refused, in the table it is accepted.

The two together are `sqlRateLimiter_agrees_iff`, about every sequence of calls in the order of the
clock.
-/

namespace McpOps

open SlidingWindow

/-- A row of `gateway_rate_limit_calls`, without its automatic id. -/
structure GatewayRateLimitRow where
  principalId : String
  toolName : String
  calledAt : Time

/-- The committed rows, in the order they were added. -/
structure SqlAlchemyFixedWindowRateLimiter where
  rows : List GatewayRateLimitRow := []

namespace SqlAlchemyFixedWindowRateLimiter

/-- `check(principal, tool_name, rate_limit, now)`.  A refusal rolls the deletion back. -/
def check (principal : Principal) (toolName rateLimit : String) (now : Time)
    (s : SqlAlchemyFixedWindowRateLimiter) :
    Except Exn Unit × SqlAlchemyFixedWindowRateLimiter :=
  match parseRateLimit rateLimit with
  | .error e => (.error e, s)
  | .ok (allowed, window) =>
      let windowStart := now - window
      let rows := s.rows.filter fun row => ¬ row.calledAt ≤ windowStart
      let count := rows.countP fun row =>
        row.principalId = principal.principalId ∧ row.toolName = toolName ∧
          windowStart < row.calledAt
      if allowed ≤ count then
        (.error (.gateway ⟨.rateLimitExceeded, s!"Rate limit exceeded for {toolName}."⟩), s)
      else (.ok (), ⟨rows ++ [⟨principal.principalId, toolName, now⟩]⟩)

/-- Whether `check` accepts a call, and the limiter it leaves. -/
def step (limits : String → RateLimit) (c : LimitedCall) (s : SqlAlchemyFixedWindowRateLimiter) :
    Bool × SqlAlchemyFixedWindowRateLimiter :=
  let answer := s.check c.principal c.toolName (limits c.toolName).text c.now
  (answer.1.isOk, answer.2)

variable {limits : String → RateLimit} {last : Time} {s : SqlAlchemyFixedWindowRateLimiter}
  {history : String × String → List Time} {c : LimitedCall}

/-- The times of a key's rows. -/
def callsOf (s : SqlAlchemyFixedWindowRateLimiter) (key : String × String) : List Time :=
  (s.rows.filter fun row => (row.principalId, row.toolName) = key).map (·.calledAt)

/-- The rows that an accepted call leaves, before its own. -/
def remaining (limits : String → RateLimit) (c : LimitedCall)
    (s : SqlAlchemyFixedWindowRateLimiter) : SqlAlchemyFixedWindowRateLimiter :=
  ⟨s.rows.filter fun row => (limits c.toolName).limit.inside c.now row.calledAt⟩

/-- Add the row of a call. -/
def insert (c : LimitedCall) (s : SqlAlchemyFixedWindowRateLimiter) :
    SqlAlchemyFixedWindowRateLimiter :=
  ⟨s.rows ++ [⟨c.principal.principalId, c.toolName, c.now⟩]⟩

theorem callsOf_remaining (key : String × String) :
    (s.remaining limits c).callsOf key =
      (s.callsOf key).filter ((limits c.toolName).limit.inside c.now) := by
  rw [callsOf, callsOf, remaining, List.filter_map, List.filter_filter, List.filter_filter]
  congr 2
  funext row
  exact Bool.and_comm ..

theorem callsOf_insert (key : String × String) :
    (s.insert c).callsOf key = s.callsOf key ++ if key = c.key then [c.now] else [] := by
  rw [callsOf, callsOf, insert, List.filter_append, List.map_append]
  by_cases hkey : key = c.key
  · rw [hkey]
    simp [LimitedCall.key]
  · have hne : ¬ (c.principal.principalId, c.toolName) = key := fun h => hkey h.symm
    simp [hkey, hne]

/-- `check` in the terms of sliding windows. -/
theorem step_eq (limits : String → RateLimit) (c : LimitedCall)
    (s : SqlAlchemyFixedWindowRateLimiter) :
    s.step limits c =
      if (limits c.toolName).limit.Admits (s.callsOf c.key) c.now then
        (true, (s.remaining limits c).insert c)
      else (false, s) := by
  -- pruning the table keeps the rows that are inside the window
  have hrows : (s.rows.filter fun row =>
      decide (¬ row.calledAt ≤ c.now - (limits c.toolName).window.length)) =
        (s.remaining limits c).rows := by
    apply List.filter_congr
    intro row _
    rw [Limit.inside, RateLimit.limit, decide_eq_decide, not_le]
    exact sub_lt_comm
  -- what is counted are the remaining calls of one principal to one tool
  have hcount : (s.remaining limits c).rows.countP (fun row =>
      decide (row.principalId = c.principal.principalId ∧ row.toolName = c.toolName ∧
        c.now - (limits c.toolName).window.length < row.calledAt)) =
          (s.callsOf c.key).countP ((limits c.toolName).limit.inside c.now) := by
    rw [remaining, callsOf, List.countP_filter, List.countP_map, List.countP_filter]
    apply List.countP_congr
    intro row _
    simp only [Limit.inside, RateLimit.limit, LimitedCall.key, Function.comp_apply,
      Bool.and_eq_true, decide_eq_true_eq, Prod.mk.injEq]
    constructor
    · rintro ⟨⟨hprincipal, htool, -⟩, hinside⟩
      exact ⟨of_decide_eq_true hinside, hprincipal, htool⟩
    · rintro ⟨hinside, hprincipal, htool⟩
      exact ⟨⟨hprincipal, htool, sub_lt_comm.mp hinside⟩, decide_eq_true hinside⟩
  have hadmits : (limits c.toolName).limit.Admits (s.callsOf c.key) c.now ↔
      ¬ (limits c.toolName).count ≤
        (s.callsOf c.key).countP ((limits c.toolName).limit.inside c.now) :=
    not_le.symm
  simp only [step, check, parseRateLimit_text, hrows, hcount, Int.ofNat_le]
  split
  · next hfull =>
    rw [if_neg fun h => hadmits.mp h hfull]
    rfl
  · next hroom =>
    rw [if_pos (hadmits.mpr hroom)]
    rfl

/-! ## Tools with one window -/

/-- The rows of every key of `tools` with room for a call decide like its history. -/
def Remembers (limits : String → RateLimit) (tools : Set String) (last : Time)
    (s : SqlAlchemyFixedWindowRateLimiter) (history : String × String → List Time) : Prop :=
  ∀ key : String × String, key.2 ∈ tools → 0 < (limits key.2).count →
    (limits key.2).limit.Remembers last (s.callsOf key) (history key)

/-- Two tools of `tools` that accept calls have different windows. -/
def MixedWindows (limits : String → RateLimit) (tools : Set String) : Prop :=
  ∃ a ∈ tools, ∃ b ∈ tools, 0 < (limits a).count ∧ 0 < (limits b).count ∧
    (limits a).window = .minute ∧ (limits b).window = .second

/-- Without mixed windows, tools that accept calls have the same one. -/
theorem length_eq_of_not_mixedWindows {tools : Set String} (h : ¬ MixedWindows limits tools)
    {a b : String} (ha : a ∈ tools) (hb : b ∈ tools) (hcountA : 0 < (limits a).count)
    (hcountB : 0 < (limits b).count) : (limits a).window = (limits b).window := by
  cases hwindowA : (limits a).window <;> cases hwindowB : (limits b).window
  · rfl
  · exact absurd ⟨a, ha, b, hb, hcountA, hcountB, hwindowA, hwindowB⟩ h
  · exact absurd ⟨b, hb, a, ha, hcountB, hcountA, hwindowB, hwindowA⟩ h
  · rfl

/-- Without mixed windows, one call of `check` decides like the histories and keeps what they
need. -/
theorem Remembers.step {tools : Set String} (hmixed : ¬ MixedWindows limits tools)
    (h : Remembers limits tools last s history) (htool : c.toolName ∈ tools)
    (hclock : last ≤ c.now) :
    (s.step limits c).1 =
        decide ((limits c.key.2).limit.Admits (history c.key) c.now) ∧
      Remembers limits tools c.now (s.step limits c).2
        (advance LimitedCall.key LimitedCall.now (fun key => (limits key.2).limit) history c) := by
  have hnow : Remembers limits tools c.now s history :=
    fun key hkey hcount => (h key hkey hcount).mono hclock
  have hadmits : (limits c.toolName).limit.Admits (s.callsOf c.key) c.now ↔
      (limits c.key.2).limit.Admits (history c.key) c.now := by
    by_cases hcount : 0 < (limits c.toolName).count
    · have hcountP := (hnow c.key htool hcount).countP_eq
      rw [Limit.Admits, Limit.Admits, ← hcountP]
      rfl
    · -- a tool that accepts nothing is refused by both
      have hzero : (limits c.toolName).limit.count = 0 := Nat.eq_zero_of_not_pos hcount
      have hkey : (limits c.key.2).limit.count = 0 := hzero
      rw [Limit.Admits, Limit.Admits, hzero, hkey]
      simp
  rw [step_eq, advance]
  by_cases hroom : (limits c.toolName).limit.Admits (s.callsOf c.key) c.now
  · rw [if_pos hroom, if_pos (hadmits.mp hroom)]
    refine ⟨by simpa using hadmits.mp hroom, fun key hkey hcount => ?_⟩
    -- the table is pruned by the window of this tool, which is that of every other one
    have hcountC : 0 < (limits c.toolName).count := lt_of_le_of_lt (Nat.zero_le _) hroom
    have hlimit : (limits c.toolName).limit.window = (limits key.2).limit.window :=
      congrArg RateWindow.length
        (length_eq_of_not_mixedWindows hmixed htool hkey hcountC hcount)
    have hkept : (limits key.2).limit.Remembers c.now
        ((s.remaining limits c).callsOf key) (history key) := by
      rw [callsOf_remaining]
      refine (hnow key hkey hcount).prune fun t _ hin => ?_
      rw [Limit.inside, hlimit]
      exact hin
    rw [callsOf_insert, Function.update_apply]
    split
    · next heq =>
      rw [← heq]
      exact hkept.accept
    · rw [List.append_nil]
      exact hkept
  · rw [if_neg hroom, if_neg fun h => hroom (hadmits.mpr h)]
    exact ⟨by simpa using fun h => hroom (hadmits.mpr h), hnow⟩

theorem run_eq_decisions {tools : Set String} (hmixed : ¬ MixedWindows limits tools)
    {calls : List LimitedCall} (htools : ∀ c ∈ calls, c.toolName ∈ tools)
    (hclock : calls.Pairwise fun c d => c.now ≤ d.now) :
    run (step limits) {} calls =
      decisions LimitedCall.key LimitedCall.now (fun key => (limits key.2).limit) (fun _ => [])
        calls :=
  SlidingWindow.run_eq_decisions (R := Remembers limits tools)
    (fun c hc h hclock => h.step hmixed (htools c hc) hclock) hclock
    fun _ _ _ _ => Limit.Remembers.nil

/-! ## Tools with different windows -/

/-- Every row is that of a call made. -/
theorem exists_call_of_mem {calls : List LimitedCall} {row : GatewayRateLimitRow}
    (h : row ∈ (calls.foldl (fun s c => (s.step limits c).2) s).rows) :
    row ∈ s.rows ∨ ∃ c ∈ calls, row = ⟨c.principal.principalId, c.toolName, c.now⟩ := by
  induction calls generalizing s with
  | nil => exact .inl h
  | cons c rest ih =>
      rcases ih h with hrow | ⟨d, hd, hrow⟩
      · have hleft : row ∈ (s.step limits c).2.rows := hrow
        rw [step_eq] at hleft
        split at hleft
        · rcases List.mem_append.mp hleft with hrow | hrow
          · exact .inl (List.mem_filter.mp hrow).1
          · exact .inr ⟨c, List.mem_cons_self .., List.mem_singleton.mp hrow⟩
        · exact .inl hleft
      · exact .inr ⟨d, List.mem_cons_of_mem c hd, hrow⟩

end SqlAlchemyFixedWindowRateLimiter

/-- The principal of the calls that follow. -/
def crossingViewer : Principal := ⟨"viewer-1", .viewer, .human⟩

/-- Calls of a per-minute tool `a` up to its limit, one of a per-second tool `b` two seconds
later, and one more of `a`. -/
def crossingCalls (limits : String → RateLimit) (a b : String) : List LimitedCall :=
  List.replicate (limits a).count ⟨crossingViewer, a, 0⟩ ++
    [⟨crossingViewer, b, seconds 2⟩, ⟨crossingViewer, a, seconds 3⟩]

section Crossing

variable {limits : String → RateLimit} {a b : String}

theorem crossingCalls_pairwise :
    (crossingCalls limits a b).Pairwise fun c d => c.now ≤ d.now := by
  rw [crossingCalls, List.pairwise_append]
  have hlast : seconds 2 ≤ seconds 3 := by decide
  refine ⟨List.pairwise_replicate.mpr (.inr le_rfl), by simpa using hlast, fun c hc d hd => ?_⟩
  rw [List.eq_of_mem_replicate hc]
  simp only [List.mem_cons, List.not_mem_nil, or_false] at hd
  rcases hd with rfl | rfl
  · exact (by decide : (0 : Time) ≤ seconds 2)
  · exact (by decide : (0 : Time) ≤ seconds 3)

/-- In memory the last of the calls is refused. -/
theorem getLast?_run_crossingCalls (ha : (limits a).window = .minute) (hab : b ≠ a) :
    (run (FixedWindowRateLimiter.step limits) {} (crossingCalls limits a b)).getLast? =
      some (⟨crossingViewer, a, seconds 3⟩, false) := by
  set history : String × String → List Time :=
    Function.update (fun _ => []) ("viewer-1", a) (List.replicate (limits a).count 0)
  have hflood : (List.replicate (limits a).count ⟨crossingViewer, a, 0⟩).foldl
      (advance LimitedCall.key LimitedCall.now fun key => (limits key.2).limit) (fun _ => []) =
        history :=
    foldl_advance_replicate (by simp [LimitedCall.key, RateLimit.limit])
  -- the call of `b` leaves the calls of `a` as they are
  have hkept : advance LimitedCall.key LimitedCall.now (fun key => (limits key.2).limit) history
      ⟨crossingViewer, b, seconds 2⟩ ("viewer-1", a) = List.replicate (limits a).count 0 := by
    rw [advance]
    split
    · rw [Function.update_of_ne]
      · exact Function.update_self ..
      · simp [LimitedCall.key, Ne.symm hab]
    · exact Function.update_self ..
  have hrefused : ¬ (limits a).limit.Admits (List.replicate (limits a).count 0) (seconds 3) := by
    have hinside : (limits a).limit.inside (seconds 3) 0 = true := by
      have hlength : (limits a).limit.window = seconds 60 := congrArg RateWindow.length ha
      rw [Limit.inside, hlength]
      decide
    rw [Limit.Admits, List.countP_replicate, hinside]
    simp [RateLimit.limit]
  rw [FixedWindowRateLimiter.run_eq_decisions limits crossingCalls_pairwise, crossingCalls,
    decisions_append, hflood]
  simp only [decisions, List.getLast?_append, List.getLast?_cons_cons, List.getLast?_singleton,
    Option.some_or]
  have hkey : LimitedCall.key ⟨crossingViewer, a, seconds 3⟩ = ("viewer-1", a) := rfl
  rw [hkey, hkept, decide_eq_false hrefused]

/-- In the table the last of the calls is accepted: the call of `b` has deleted the rows of
`a`. -/
theorem getLast?_runSql_crossingCalls (hcountA : 0 < (limits a).count)
    (hcountB : 0 < (limits b).count) (hb : (limits b).window = .second) (hab : b ≠ a) :
    (run (SqlAlchemyFixedWindowRateLimiter.step limits) {} (crossingCalls limits a b)).getLast? =
      some (⟨crossingViewer, a, seconds 3⟩, true) := by
  rw [crossingCalls, run_append]
  set s := (List.replicate (limits a).count ⟨crossingViewer, a, 0⟩).foldl
    (fun s c => (SqlAlchemyFixedWindowRateLimiter.step limits c s).2) {} with hs
  have hrows : ∀ row ∈ s.rows, row = ⟨"viewer-1", a, 0⟩ := by
    intro row hrow
    rcases SqlAlchemyFixedWindowRateLimiter.exists_call_of_mem hrow with hrow | ⟨c, hc, hrow⟩
    · cases hrow
    · rw [hrow, List.eq_of_mem_replicate hc]
      rfl
  have hempty : s.callsOf ("viewer-1", b) = [] := by
    rw [SqlAlchemyFixedWindowRateLimiter.callsOf, List.map_eq_nil_iff, List.filter_eq_nil_iff]
    intro row hrow
    rw [hrows row hrow]
    simp [Ne.symm hab]
  -- what is left for the last call is the row of `b` alone
  have hleft : (s.remaining limits ⟨crossingViewer, b, seconds 2⟩).rows = [] := by
    rw [SqlAlchemyFixedWindowRateLimiter.remaining, List.filter_eq_nil_iff]
    intro row hrow
    have hlength : (limits b).limit.window = seconds 1 := congrArg RateWindow.length hb
    have hold : ¬ seconds 2 - 0 < seconds 1 := by decide
    rw [hrows row hrow, Limit.inside, hlength]
    simpa using hold
  have hkey : LimitedCall.key ⟨crossingViewer, b, seconds 2⟩ = ("viewer-1", b) := rfl
  have hstep : s.step limits ⟨crossingViewer, b, seconds 2⟩ =
      (true, ⟨[⟨"viewer-1", b, seconds 2⟩]⟩) := by
    rw [SqlAlchemyFixedWindowRateLimiter.step_eq, if_pos]
    · rw [SqlAlchemyFixedWindowRateLimiter.insert, hleft]
      rfl
    · rw [hkey, hempty]
      exact hcountB
  have hlast : (SqlAlchemyFixedWindowRateLimiter.step limits ⟨crossingViewer, a, seconds 3⟩
      ⟨[⟨"viewer-1", b, seconds 2⟩]⟩).1 = true := by
    rw [SqlAlchemyFixedWindowRateLimiter.step_eq, if_pos]
    have hcalls : SqlAlchemyFixedWindowRateLimiter.callsOf ⟨[⟨"viewer-1", b, seconds 2⟩]⟩
        (LimitedCall.key ⟨crossingViewer, a, seconds 3⟩) = [] := by
      simp [SqlAlchemyFixedWindowRateLimiter.callsOf, LimitedCall.key, hab]
    rw [hcalls]
    exact hcountA
  simp only [run, hstep, hlast, List.getLast?_append, List.getLast?_cons_cons,
    List.getLast?_singleton, Option.some_or]

end Crossing

/-- One call of any tool in a minute, one of `query_metrics` in a second. -/
def mixedLimits (toolName : String) : RateLimit :=
  if toolName = "query_metrics" then .one .second else .one .minute

end McpOps
