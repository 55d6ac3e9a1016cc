import Mathlib.Algebra.Order.Group.Defs
import Mathlib.Data.List.Count
import Mathlib.Logic.Function.Basic
import Mathlib.Order.Basic
import Mathlib.Tactic.Abel

/-!
# Limits on what a sliding window holds

A limit allows `count` events within any span shorter than `window`.  `Limit.Admits` is the
decision at a moment, from all events accepted before it; `Limit.Admitted` is a history every
event of which was admitted.

* `Admitted.countP_le`: a part of an admitted history that fits into less than a window has at
  most `count` events; the two half-open intervals of that length are cases of it.
* `Remembers`: a list that has forgotten events of the history, but none that a later decision
  still counts.  It survives the passing of time, pruning and accepting, which is what an
  implementation does between two decisions.
* `run_eq_decisions`: an implementation whose single decisions are those of the histories
  decides every sequence of events in time order like them.
-/

namespace SlidingWindow

variable {T : Type} [AddCommGroup T] [LinearOrder T]

structure Limit (T : Type) where
  count : ℕ
  window : T

namespace Limit

variable {L : Limit T} {now t start last : T} {history stored : List T}

/-- Whether an event at `t` still counts at `now`: it is younger than one window. -/
def inside (L : Limit T) (now t : T) : Bool := now - t < L.window

/-- Whether one more event is allowed at `now`. -/
def Admits (L : Limit T) (history : List T) (now : T) : Prop :=
  history.countP (L.inside now) < L.count

instance : Decidable (L.Admits history now) := inferInstanceAs (Decidable (_ < _))

/-- What still counts later counted before. -/
theorem inside_of_le [IsOrderedAddMonoid T] {later : T} (hle : now ≤ later)
    (h : L.inside later t) : L.inside now t := by
  simp only [inside, decide_eq_true_eq] at h ⊢
  exact lt_of_le_of_lt (sub_le_sub_right hle t) h

/-! ## Histories -/

/-- A history, oldest first, each event of which was admitted at its time. -/
inductive Admitted (L : Limit T) : List T → Prop
  | nil : Admitted L []
  | snoc {history : List T} {now : T} (h : Admitted L history) (hnow : L.Admits history now) :
      Admitted L (history ++ [now])

/-- Events of an admitted history that lie within less than a window of each other are at most
`count`. -/
theorem Admitted.countP_le (h : L.Admitted history) {p : T → Bool}
    (hp : ∀ s t, p s → p t → s - t < L.window) : history.countP p ≤ L.count := by
  induction h with
  | nil => simp
  | @snoc history now _ hnow ih =>
      rw [List.countP_append, List.countP_singleton]
      by_cases hin : p now
      · -- what else lies there still counts at `now`
        have hsub : history.countP p ≤ history.countP (L.inside now) := by
          apply List.countP_mono_left
          intro t _ ht
          simpa only [inside, decide_eq_true_eq] using hp now t hin ht
        have hlt : history.countP p < L.count := lt_of_le_of_lt hsub hnow
        simpa [hin] using Nat.succ_le_of_lt hlt
      · simpa [hin] using ih

/-- At most `count` events from `start` on and before `start + window`. -/
theorem Admitted.countP_ico_le [IsOrderedAddMonoid T] (h : L.Admitted history) (start : T) :
    history.countP (fun t => decide (start ≤ t ∧ t < start + L.window)) ≤ L.count := by
  apply h.countP_le
  intro s t hs ht
  simp only [decide_eq_true_eq] at hs ht
  exact sub_lt_iff_lt_add'.mpr (lt_of_lt_of_le hs.2 (by gcongr; exact ht.1))

/-- At most `count` events after `start` and up to `start + window`. -/
theorem Admitted.countP_ioc_le [IsOrderedAddMonoid T] (h : L.Admitted history) (start : T) :
    history.countP (fun t => decide (start < t ∧ t ≤ start + L.window)) ≤ L.count := by
  apply h.countP_le
  intro s t hs ht
  simp only [decide_eq_true_eq] at hs ht
  exact sub_lt_iff_lt_add'.mpr (lt_of_le_of_lt hs.2 (by gcongr; exact ht.1))

/-! ## What an implementation has to remember -/

/-- From `last` on, `stored` decides like the whole history. -/
structure Remembers (L : Limit T) (last : T) (stored history : List T) : Prop where
  stored_le : ∀ t ∈ stored, t ≤ last
  history_le : ∀ t ∈ history, t ≤ last
  filter_eq : ∀ now, last ≤ now →
    stored.filter (L.inside now) = history.filter (L.inside now)

namespace Remembers

theorem nil : L.Remembers last [] [] where
  stored_le := by simp
  history_le := by simp
  filter_eq := by simp

theorem mono (h : L.Remembers last stored history) (hle : last ≤ now) :
    L.Remembers now stored history where
  stored_le t ht := le_trans (h.stored_le t ht) hle
  history_le t ht := le_trans (h.history_le t ht) hle
  filter_eq later hlater := h.filter_eq later (le_trans hle hlater)

/-- Nothing is lost by dropping what is at least one window old, or older. -/
theorem prune [IsOrderedAddMonoid T] (h : L.Remembers now stored history) {keep : T → Bool}
    (hkeep : ∀ t ∈ stored, L.inside now t → keep t) :
    L.Remembers now (stored.filter keep) history where
  stored_le t ht := h.stored_le t ((List.mem_filter.mp ht).1)
  history_le := h.history_le
  filter_eq later hlater := by
    rw [← h.filter_eq later hlater, List.filter_filter]
    apply List.filter_congr
    intro t ht
    by_cases hin : L.inside later t
    · have hkept := hkeep t ht (inside_of_le hlater hin)
      simp [hin, hkept]
    · simp [hin]

theorem accept (h : L.Remembers now stored history) :
    L.Remembers now (stored ++ [now]) (history ++ [now]) where
  stored_le t ht := by
    rcases List.mem_append.mp ht with ht | ht
    · exact h.stored_le t ht
    · exact (List.mem_singleton.mp ht).le
  history_le t ht := by
    rcases List.mem_append.mp ht with ht | ht
    · exact h.history_le t ht
    · exact (List.mem_singleton.mp ht).le
  filter_eq later hlater := by
    rw [List.filter_append, List.filter_append, h.filter_eq later hlater]

/-- What still counts at `now` is counted alike. -/
theorem countP_eq (h : L.Remembers now stored history) :
    stored.countP (L.inside now) = history.countP (L.inside now) := by
  rw [List.countP_eq_length_filter, List.countP_eq_length_filter, h.filter_eq now le_rfl]

end Remembers

/-- In a list in time order, dropping from the front what has left the window is dropping all
of it. -/
theorem dropWhile_eq_filter [IsOrderedAddMonoid T] (L : Limit T) (now : T)
    (hsorted : stored.Pairwise (· ≤ ·)) :
    stored.dropWhile (fun t => decide (L.window ≤ now - t)) = stored.filter (L.inside now) := by
  induction stored with
  | nil => rfl
  | cons t rest ih =>
      rw [List.pairwise_cons] at hsorted
      by_cases hout : L.window ≤ now - t
      · have hin : ¬ L.inside now t := by simpa [inside] using hout
        rw [List.dropWhile_cons_of_pos (by simpa using hout), ih hsorted.2,
          List.filter_cons_of_neg hin]
      · -- the first that stays is followed by younger ones only
        have hall : ∀ s ∈ t :: rest, L.inside now s := by
          intro s hs
          have hts : t ≤ s := by
            rcases List.mem_cons.mp hs with rfl | hs
            · exact le_rfl
            · exact hsorted.1 s hs
          simp only [inside, decide_eq_true_eq]
          exact lt_of_le_of_lt (sub_le_sub_left hts now) (not_le.mp hout)
        rw [List.dropWhile_cons_of_neg (by simpa using hout), List.filter_eq_self.mpr hall]

end Limit

/-! ## Sequences of events -/

section Decisions

variable {ε κ σ : Type} [DecidableEq κ]
variable (key : ε → κ) (time : ε → T) (limits : κ → Limit T)

/-- The histories of all keys after the decision on `e`. -/
def advance (history : κ → List T) (e : ε) : κ → List T :=
  if (limits (key e)).Admits (history (key e)) (time e) then
    Function.update history (key e) (history (key e) ++ [time e])
  else history

/-- Each event with whether it is admitted after those before it. -/
def decisions : (κ → List T) → List ε → List (ε × Bool)
  | _, [] => []
  | history, e :: rest =>
      (e, decide ((limits (key e)).Admits (history (key e)) (time e))) ::
        decisions (advance key time limits history e) rest

/-- The times of the accepted events of `k`. -/
def acceptedTimes (k : κ) (outcomes : List (ε × Bool)) : List T :=
  outcomes.filterMap fun o => if o.2 ∧ key o.1 = k then some (time o.1) else none

/-- Each event with whether an implementation accepts it. -/
def run (step : ε → σ → Bool × σ) : σ → List ε → List (ε × Bool)
  | _, [] => []
  | s, e :: rest => (e, (step e s).1) :: run step (step e s).2 rest

variable {key time limits} {history : κ → List T} {e : ε} {k : κ}

theorem advance_apply (k : κ) : advance key time limits history e k =
    history k ++
      acceptedTimes key time k
        [(e, decide ((limits (key e)).Admits (history (key e)) (time e)))] := by
  rw [advance, acceptedTimes, List.filterMap_cons]
  by_cases hadmits : (limits (key e)).Admits (history (key e)) (time e)
  · by_cases hk : key e = k
    · subst hk
      simp [hadmits]
    · simp [hadmits, hk, Function.update_of_ne (Ne.symm hk)]
  · simp [hadmits]

omit [AddCommGroup T] [LinearOrder T] in
theorem acceptedTimes_cons (o : ε × Bool) (outcomes : List (ε × Bool)) :
    acceptedTimes key time k (o :: outcomes) =
      acceptedTimes key time k [o] ++ acceptedTimes key time k outcomes := by
  rw [acceptedTimes, acceptedTimes, acceptedTimes, ← List.filterMap_append, List.singleton_append]

theorem decisions_append (events later : List ε) :
    decisions key time limits history (events ++ later) =
      decisions key time limits history events ++
        decisions key time limits (events.foldl (advance key time limits) history) later := by
  induction events generalizing history with
  | nil => rfl
  | cons e rest ih => rw [List.cons_append, decisions, decisions, ih, List.foldl_cons]; rfl

omit [AddCommGroup T] [LinearOrder T] in
theorem run_append (step : ε → σ → Bool × σ) (s : σ) (events later : List ε) :
    run step s (events ++ later) =
      run step s events ++ run step (events.foldl (fun s e => (step e s).2) s) later := by
  induction events generalizing s with
  | nil => rfl
  | cons e rest ih => rw [List.cons_append, run, run, ih, List.foldl_cons]; rfl

/-- Events at one time are accepted as long as their key's history has room for them. -/
theorem foldl_advance_replicate {n : ℕ}
    (h : (history (key e)).length + n ≤ (limits (key e)).count) :
    (List.replicate n e).foldl (advance key time limits) history =
      Function.update history (key e) (history (key e) ++ List.replicate n (time e)) := by
  induction n generalizing history with
  | zero => simp
  | succ n ih =>
      have hadmits : (limits (key e)).Admits (history (key e)) (time e) := by
        have hle : (history (key e)).countP ((limits (key e)).inside (time e)) ≤
            (history (key e)).length := List.countP_le_length
        rw [Limit.Admits]
        omega
      have hadvance : advance key time limits history e =
          Function.update history (key e) (history (key e) ++ [time e]) := by
        rw [advance, if_pos hadmits]
      rw [List.replicate_succ, List.foldl_cons, hadvance, ih]
      · simp [List.replicate_succ]
      · rw [Function.update_self, List.length_append, List.length_singleton]
        omega

theorem admitted_advance (h : ∀ k, (limits k).Admitted (history k)) (e : ε) (k : κ) :
    (limits k).Admitted (advance key time limits history e k) := by
  rw [advance]
  split
  · next hadmits =>
    by_cases hk : k = key e
    · subst hk
      rw [Function.update_self]
      exact (h _).snoc hadmits
    · rw [Function.update_of_ne hk]
      exact h k
  · exact h k

variable (limits) in
/-- Every key's accepted events form an admitted history. -/
theorem admitted_decisions {events : List ε} (h : ∀ k, (limits k).Admitted (history k)) (k : κ) :
    (limits k).Admitted
      (history k ++ acceptedTimes key time k (decisions key time limits history events)) := by
  induction events generalizing history with
  | nil => simpa [decisions, acceptedTimes] using h k
  | cons e rest ih =>
      rw [decisions, acceptedTimes_cons, ← List.append_assoc, ← advance_apply]
      exact ih (admitted_advance h e)

/-- An event is refused only if its key's history does not admit it. -/
theorem not_admits_of_refused {events : List ε} {before after : List (ε × Bool)}
    (h : decisions key time limits history events = before ++ (e, false) :: after) :
    ¬ (limits (key e)).Admits (history (key e) ++ acceptedTimes key time (key e) before)
      (time e) := by
  induction before generalizing events history with
  | nil =>
      cases events with
      | nil => simp [decisions] at h
      | cons d rest =>
          rw [decisions, List.nil_append, List.cons.injEq, Prod.mk.injEq] at h
          obtain ⟨⟨rfl, hrefused⟩, -⟩ := h
          simpa [acceptedTimes] using hrefused
  | cons o before ih =>
      cases events with
      | nil => simp [decisions] at h
      | cons d rest =>
          rw [decisions, List.cons_append, List.cons.injEq] at h
          obtain ⟨rfl, hrest⟩ := h
          have hlater := ih hrest
          rwa [advance_apply, List.append_assoc, ← acceptedTimes_cons] at hlater

/-- A relation between the states of an implementation and the histories that every event keeps,
and under which the single decisions agree, makes all decisions agree. -/
theorem run_eq_decisions {step : ε → σ → Bool × σ} {R : T → σ → (κ → List T) → Prop}
    {events : List ε}
    (hstep : ∀ {last s history}, ∀ e ∈ events, R last s history → last ≤ time e →
      (step e s).1 = decide ((limits (key e)).Admits (history (key e)) (time e)) ∧
        R (time e) (step e s).2 (advance key time limits history e))
    (horder : events.Pairwise fun d e => time d ≤ time e)
    {s : σ} (hinit : ∀ last, R last s history) :
    run step s events = decisions key time limits history events := by
  have hrun : ∀ (later : List ε) (last : T) (s : σ) (history : κ → List T),
      (∀ e ∈ later, e ∈ events) → (∀ e ∈ later, last ≤ time e) →
      (later.Pairwise fun d e => time d ≤ time e) →
      R last s history → run step s later = decisions key time limits history later := by
    intro later
    induction later with
    | nil => intros; rfl
    | cons e rest ih =>
        intro last s history hmem hlast horder hR
        rw [List.pairwise_cons] at horder
        rw [List.forall_mem_cons] at hmem hlast
        obtain ⟨hanswer, hnext⟩ := hstep e hmem.1 hR hlast.1
        rw [run, decisions, hanswer, ih (time e) _ _ hmem.2 horder.1 horder.2 hnext]
  cases events with
  | nil => rfl
  | cons e rest =>
      apply hrun _ (time e) _ _ (fun d hd => hd) _ horder (hinit (time e))
      intro d hd
      rcases List.mem_cons.mp hd with rfl | hd
      · exact le_rfl
      · exact (List.pairwise_cons.mp horder).1 d hd

end Decisions

end SlidingWindow
