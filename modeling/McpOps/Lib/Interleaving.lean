import McpOps.Lib.Procedure

/-!
# Interleaved procedures

`interleave` runs a pool of procedures at once: a schedule names, step by step,
the caller that performs its next operation and the input of that operation.
Three rules carry the developments built on it.

* `interleave_invariant`: a property of the run that every single step keeps holds
  after every schedule, whatever the procedures are.
* `interleave_emits`: what a procedure says about its own operations, for all answers the
  system can give (`Procedure.Emits`), is true of each caller's steps in every
  interleaving.  `interleave_uses` is the special case of the operations one by one.
* `interleave_issues_invariant`: what the operations keep that a procedure issues for valid answers
  (`Procedure.Issues`) is kept in every interleaving whose answers are valid.

For one procedure that runs to its end, `Procedure.Completes` says that it returns.

Running procedures one after another, some of them abandoned on the way, is the special case
of a `Sequential` schedule.
-/

namespace Proc

variable {I : Interface} {κ σ ι ε ε' α β : Type}

/-- Run the pool along a schedule.  A turn given to a caller that has ended is
without effect. -/
def interleave [DecidableEq κ] (S : System I σ ι) :
    (κ → Procedure I ε α) → List (κ × ι) → Run I κ σ → (κ → Procedure I ε α) × Run I κ σ
  | pool, [], r => (pool, r)
  | pool, (c, i) :: rest, r =>
      match pool c with
      | .call o next =>
          interleave S (Function.update pool c (next (S.answer o i r.state).1)) rest
            (r.perform S c o i)
      | .pure _ => interleave S pool rest r
      | .raise _ => interleave S pool rest r

/-! ## Invariants of single steps -/

/-- An invariant that every operation keeps holds after every schedule. -/
theorem interleave_invariant [DecidableEq κ] {S : System I σ ι} {inv : Run I κ σ → Prop}
    (hstep : ∀ r c o i, inv r → inv (r.perform S c o i)) (schedule : List (κ × ι))
    (pool : κ → Procedure I ε α) {r : Run I κ σ} (hinv : inv r) :
    inv (interleave S pool schedule r).2 := by
  induction schedule generalizing pool r with
  | nil => exact hinv
  | cons turn rest ih =>
      obtain ⟨c, i⟩ := turn
      rw [interleave]
      split
      · exact ih _ (hstep r c _ i hinv)
      · exact ih _ hinv
      · exact ih _ hinv

theorem interleave_from [DecidableEq κ] {S : System I σ ι} {s : σ} (schedule : List (κ × ι))
    (pool : κ → Procedure I ε α) {r : Run I κ σ} (hr : Run.From S s r) :
    Run.From S s (interleave S pool schedule r).2 :=
  interleave_invariant (fun _ c o i hr => hr.perform c o i) schedule pool hr

/-! ## What a caller does by itself -/

/-- An operation with its answer. -/
abbrev Event (I : Interface) := (o : I.Op) × I.Ans o

/-- The operation and the answer of a step. -/
def Step.event (s : Step I κ σ) : Event I := ⟨s.op, s.answer⟩

/-- The events of `c`'s own steps, newest first. -/
def own [DecidableEq κ] (c : κ) (past : List (Step I κ σ)) : List (Event I) :=
  (past.filter fun s => s.caller = c).map Step.event

theorem own_cons_self [DecidableEq κ] (s : Step I κ σ) (past : List (Step I κ σ)) :
    own s.caller (s :: past) = s.event :: own s.caller past := by
  simp [own]

theorem own_cons_of_ne [DecidableEq κ] {c : κ} {s : Step I κ σ} (h : s.caller ≠ c)
    (past : List (Step I κ σ)) : own c (s :: past) = own c past := by
  simp [own, h]

/-- The events of a caller after a step of its own. -/
theorem own_perform_self [DecidableEq κ] (S : System I σ ι) (c : κ) (o : I.Op) (i : ι)
    (r : Run I κ σ) :
    own c (r.perform S c o i).past = ⟨o, (S.answer o i r.state).1⟩ :: own c r.past :=
  own_cons_self _ _

theorem own_perform_of_ne [DecidableEq κ] {c d : κ} (h : d ≠ c) (S : System I σ ι) (o : I.Op)
    (i : ι) (r : Run I κ σ) : own d (r.perform S c o i).past = own d r.past :=
  own_cons_of_ne (Ne.symm h) _

theorem mem_own [DecidableEq κ] {c : κ} {past : List (Step I κ σ)} {e : Event I} :
    e ∈ own c past ↔ ∃ s ∈ past, s.caller = c ∧ s.event = e := by
  simp [own, and_assoc]

theorem own_suffix [DecidableEq κ] (c : κ) {older past : List (Step I κ σ)}
    (h : older <:+ past) : own c older <:+ own c past :=
  (h.filter _).map _

theorem countP_filter_caller [DecidableEq κ] (p : κ → Event I → Bool) (c : κ)
    (past : List (Step I κ σ)) :
    (past.filter fun d => d.caller = c).countP (fun d => p d.caller d.event) =
      (own c past).countP (p c) := by
  rw [own, List.countP_map]
  refine List.countP_congr fun d hd => ?_
  rw [Function.comp, of_decide_eq_true (List.mem_filter.mp hd).2]

/-- What each caller does at most as often as something else is done at most as often by all
of them together. -/
theorem countP_le_of_own [DecidableEq κ] {p q : κ → Event I → Bool} {past : List (Step I κ σ)}
    (h : ∀ c, (own c past).countP (p c) ≤ (own c past).countP (q c)) :
    past.countP (fun d => p d.caller d.event) ≤ past.countP (fun d => q d.caller d.event) := by
  -- by induction on the length: the steps of one caller, and the steps of the others
  induction hn : past.length using Nat.strong_induction_on generalizing past with
  | _ n ih =>
      subst hn
      cases past with
      | nil => exact le_rfl
      | cons d rest =>
          rw [List.countP_eq_countP_filter_add _ _ fun e => e.caller = d.caller,
            List.countP_eq_countP_filter_add (d :: rest) (fun d => q d.caller d.event)
              fun e => e.caller = d.caller, countP_filter_caller, countP_filter_caller]
          refine Nat.add_le_add (h d.caller) (ih _ ?_ (fun c => ?_) rfl)
          · exact List.length_filter_lt_length_iff_exists.mpr ⟨d, List.mem_cons_self .., by simp⟩
          · by_cases hc : c = d.caller
            · have hnil : own c ((d :: rest).filter fun e => !decide (e.caller = d.caller)) =
                [] := by
                simp [own, List.filter_filter, hc]
              rw [hnil]
              exact le_rfl
            · have hsame : own c ((d :: rest).filter fun e => !decide (e.caller = d.caller)) =
                  own c (d :: rest) := by
                rw [own, own, List.filter_filter]
                refine congrArg _ (List.filter_congr fun e _ => ?_)
                by_cases he : e.caller = c <;> simp [he, hc]
              rw [hsame]
              exact h c

/-- Whatever the valid answers, `good` holds of the events performed after each operation
and `post` of the result and the events at the end. -/
def Procedure.Emits (valid : Event I → Prop) (good : List (Event I) → Prop)
    (post : Except ε α → List (Event I) → Prop) : Procedure I ε α → List (Event I) → Prop
  | .pure a, done => post (.ok a) done
  | .raise e, done => post (.error e) done
  | .call o next, done => ∀ a, valid ⟨o, a⟩ →
      good (⟨o, a⟩ :: done) ∧ (next a).Emits valid good post (⟨o, a⟩ :: done)

namespace Procedure

variable {valid : Event I → Prop} {good : List (Event I) → Prop}

@[simp] theorem emits_pure {post : Except ε α → List (Event I) → Prop} {a : α}
    {done : List (Event I)} :
    (.pure a : Procedure I ε α).Emits valid good post done ↔ post (.ok a) done := Iff.rfl

@[simp] theorem emits_raise {post : Except ε α → List (Event I) → Prop} {e : ε}
    {done : List (Event I)} :
    (.raise e : Procedure I ε α).Emits valid good post done ↔ post (.error e) done := Iff.rfl

theorem emits_call {post : Except ε α → List (Event I) → Prop} {o : I.Op}
    {next : I.Ans o → Procedure I ε α} {done : List (Event I)} :
    (.call o next : Procedure I ε α).Emits valid good post done ↔ ∀ a, valid ⟨o, a⟩ →
      good (⟨o, a⟩ :: done) ∧ (next a).Emits valid good post (⟨o, a⟩ :: done) := Iff.rfl

/-- The postcondition that continues with `f` after a normal return. -/
def emitsThen (valid : Event I → Prop) (good : List (Event I) → Prop)
    (post : Except ε β → List (Event I) → Prop) (f : α → Procedure I ε β) :
    Except ε α → List (Event I) → Prop
  | .ok a, done => (f a).Emits valid good post done
  | .error e, done => post (.error e) done

/-- The postcondition that continues with `handler` after an error. -/
def emitsElse (valid : Event I → Prop) (good : List (Event I) → Prop)
    (post : Except ε' α → List (Event I) → Prop) (handler : ε → Procedure I ε' α) :
    Except ε α → List (Event I) → Prop
  | .ok a, done => post (.ok a) done
  | .error e, done => (handler e).Emits valid good post done

theorem emits_bind {post : Except ε β → List (Event I) → Prop} {p : Procedure I ε α}
    {f : α → Procedure I ε β} {done : List (Event I)} :
    (p >>= f).Emits valid good post done ↔
      p.Emits valid good (emitsThen valid good post f) done := by
  induction p generalizing done with
  | pure a => exact Iff.rfl
  | raise e => exact Iff.rfl
  | call o next ih =>
      rw [call_bind, emits_call, emits_call]
      exact forall_congr' fun a => forall_congr' fun _ => and_congr_right fun _ => ih a

theorem emits_tryCatch {post : Except ε' α → List (Event I) → Prop} {p : Procedure I ε α}
    {handler : ε → Procedure I ε' α} {done : List (Event I)} :
    (p.tryCatch handler).Emits valid good post done ↔
      p.Emits valid good (emitsElse valid good post handler) done := by
  induction p generalizing done with
  | pure a => exact Iff.rfl
  | raise e => exact Iff.rfl
  | call o next ih =>
      rw [tryCatch, emits_call, emits_call]
      exact forall_congr' fun a => forall_congr' fun _ => and_congr_right fun _ => ih a

theorem Emits.imp {post post' : Except ε α → List (Event I) → Prop} {p : Procedure I ε α}
    {done : List (Event I)} (h : p.Emits valid good post done) (hgood : good done)
    (himp : ∀ res done, good done → post res done → post' res done) :
    p.Emits valid good post' done := by
  induction p generalizing done with
  | pure a => exact himp _ _ hgood h
  | raise e => exact himp _ _ hgood h
  | call o next ih => exact fun a ha => ⟨(h a ha).1, ih a (h a ha).2 (h a ha).1⟩

/-- The results that are promised are possible ones. -/
theorem Emits.returns {post : Except ε α → List (Event I) → Prop} {p : Procedure I ε α}
    {done : List (Event I)} (h : p.Emits valid good post done) :
    p.Emits valid good (fun res done => post res done ∧ ∀ a, res = .ok a → p.Returns a) done := by
  induction p generalizing done with
  | pure a => exact ⟨h, fun a' ha => Except.ok.inj ha⟩
  | raise e => exact ⟨h, fun a ha => by cases ha⟩
  | call o next ih =>
      refine fun a ha => ⟨(h a ha).1, ?_⟩
      have hnext : ∀ {q : Procedure I ε α} {done}, q.Emits valid good
          (fun res done => post res done ∧ ∀ b, res = .ok b → (next a).Returns b) done →
          q.Emits valid good (fun res done => post res done ∧ ∀ b, res = .ok b →
            (Procedure.call o next).Returns b) done := by
        intro q
        induction q with
        | pure b => exact fun hq => ⟨hq.1, fun b hb => ⟨a, hq.2 b hb⟩⟩
        | raise e => exact fun hq => ⟨hq.1, fun b hb => by cases hb⟩
        | call o' next' ih' => exact fun hq b hb => ⟨(hq b hb).1, ih' b (hq b hb).2⟩
      exact hnext (ih a (h a ha).2)

/-- What every event of the allowed operations keeps is kept by the whole procedure. -/
theorem Uses.emits {allowed : I.Op → Prop} {p : Procedure I ε α} (hp : p.Uses allowed)
    {inv : List (Event I) → Prop} (hgood : ∀ done, inv done → good done)
    (hstep : ∀ e : Event I, ∀ done, allowed e.1 → valid e → inv done → inv (e :: done))
    {done : List (Event I)} (hinv : inv done) :
    p.Emits valid good (fun _ done => inv done) done := by
  induction p generalizing done with
  | pure a => exact hinv
  | raise e => exact hinv
  | call o next ih =>
      intro a ha
      have hnext := hstep ⟨o, a⟩ done hp.1 ha hinv
      exact ⟨hgood _ hnext, ih a (hp.2 a) hnext⟩

end Procedure

/-! ## A procedure that runs to its end -/

theorem Procedure.run_from {S : System I σ ι} {s : σ} (c : κ) (p : Procedure I ε α)
    (inputs : ℕ → ι) {r : Run I κ σ} (hr : Run.From S s r) :
    Run.From S s (p.run S c inputs r).2 := by
  induction p generalizing r inputs with
  | pure a => exact hr
  | raise e => exact hr
  | call o next ih => exact ih _ _ (hr.perform c o (inputs 0))

theorem Procedure.past_suffix_run {S : System I σ ι} (c : κ) (p : Procedure I ε α)
    (inputs : ℕ → ι) (r : Run I κ σ) : r.past <:+ (p.run S c inputs r).2.past := by
  induction p generalizing r inputs with
  | pure a => exact List.suffix_refl _
  | raise e => exact List.suffix_refl _
  | call o next ih => exact (List.suffix_cons _ _).trans (ih _ _ (r.perform S c o (inputs 0)))

theorem Procedure.caller_of_run {S : System I σ ι} {c : κ} {p : Procedure I ε α}
    {inputs : ℕ → ι} {r : Run I κ σ} (hr : ∀ d ∈ r.past, d.caller = c) :
    ∀ d ∈ (p.run S c inputs r).2.past, d.caller = c := by
  induction p generalizing r inputs with
  | pure a => exact hr
  | raise e => exact hr
  | call o next ih =>
      refine ih _ fun d hd => ?_
      rcases List.mem_cons.mp hd with rfl | hd
      · rfl
      · exact hr d hd

/-- The events of a run to the end are as the procedure promises, and with them the invariant of
the state that makes the answers valid. -/
theorem Procedure.Emits.run {S : System I σ ι} (inv : σ → Prop) {valid : Event I → Prop}
    {good : List (Event I) → Prop} {post : Except ε α → List (Event I) → Prop}
    (hvalid : ∀ o i s, inv s → valid ⟨o, (S.answer o i s).1⟩)
    (hinv : ∀ done o i s, inv s → good (⟨o, (S.answer o i s).1⟩ :: done) → inv (S.answer o i s).2)
    {c : κ} {p : Procedure I ε α} {r : Run I κ σ} (hr : inv r.state)
    (hgood : good (r.past.map Step.event))
    (h : p.Emits valid good post (r.past.map Step.event)) (inputs : ℕ → ι) :
    good ((p.run S c inputs r).2.past.map Step.event) ∧
      post (p.run S c inputs r).1 ((p.run S c inputs r).2.past.map Step.event) := by
  induction p generalizing r inputs with
  | pure a => exact ⟨hgood, h⟩
  | raise e => exact ⟨hgood, h⟩
  | call o next ih =>
      obtain ⟨hgood', hnext⟩ := h _ (hvalid o (inputs 0) r.state hr)
      exact ih _ (r := r.perform S c o (inputs 0)) (hinv _ o (inputs 0) r.state hr hgood') hgood'
        hnext _

/-- For all valid answers `p` returns, and `post` holds of what it returns. -/
def Procedure.Completes (valid : Event I → Prop) (post : α → Prop) : Procedure I ε α → Prop
  | .pure a => post a
  | .raise _ => False
  | .call o next => ∀ a, valid ⟨o, a⟩ → (next a).Completes valid post

namespace Procedure

variable {valid : Event I → Prop}

@[simp] theorem completes_pure {post : α → Prop} {a : α} :
    (.pure a : Procedure I ε α).Completes valid post ↔ post a := Iff.rfl

theorem Completes.imp {post post' : α → Prop} {p : Procedure I ε α} (h : p.Completes valid post)
    (himp : ∀ a, post a → post' a) : p.Completes valid post' := by
  induction p with
  | pure a => exact himp a h
  | raise e => exact h
  | call o next ih => exact fun a ha => ih a (h a ha)

theorem Completes.bind {post : α → Prop} {post' : β → Prop} {p : Procedure I ε α}
    {f : α → Procedure I ε β} (h : p.Completes valid post)
    (hf : ∀ a, post a → (f a).Completes valid post') : (p >>= f).Completes valid post' := by
  induction p with
  | pure a => exact hf a h
  | raise e => exact h.elim
  | call o next ih => exact fun a ha => ih a (h a ha)

/-- What is returned is a possible result. -/
theorem Completes.returns {post : α → Prop} {p : Procedure I ε α} (h : p.Completes valid post) :
    p.Completes valid fun a => post a ∧ p.Returns a := by
  induction p with
  | pure a => exact ⟨h, rfl⟩
  | raise e => exact h
  | call o next ih =>
      exact fun a ha => (ih a (h a ha)).imp fun b hb => ⟨hb.1, a, hb.2⟩

/-- A run in which all answers are valid returns. -/
theorem Completes.run {S : System I σ ι} {c : κ} {post : α → Prop} {p : Procedure I ε α}
    (h : p.Completes valid post) {inputs : ℕ → ι} {r : Run I κ σ}
    (hvalid : ∀ d ∈ (p.run S c inputs r).2.past, valid d.event) :
    ∃ a, (p.run S c inputs r).1 = .ok a ∧ post a := by
  induction p generalizing r inputs with
  | pure a => exact ⟨a, rfl, h⟩
  | raise e => exact h.elim
  | call o next ih =>
      refine ih _ (h _ ?_) hvalid
      -- the first answer is among those of the run
      have hsuffix := past_suffix_run (S := S) c (next (S.answer o (inputs 0) r.state).1)
        (fun n => inputs (n + 1)) (r.perform S c o (inputs 0))
      exact hvalid _ (hsuffix.mem (List.mem_cons_self ..))

/-- Code that leaves the state alone, and whose answers are valid, returns in the state in which it
has started. -/
theorem Completes.keeps {S : System I σ ι} {c : κ} {allowed : I.Op → Prop} {post : α → Prop}
    {p : Procedure I ε α} (h : p.Completes valid post) (hp : p.Uses allowed)
    (hvalid : ∀ o i s, allowed o → valid ⟨o, (S.answer o i s).1⟩)
    (hstate : ∀ o i s, allowed o → (S.answer o i s).2 = s) (r : Run I κ σ) :
    p.Keeps S c (fun _ => True)
      (fun res r' => r'.state = r.state ∧ ∃ a, res = .ok a ∧ post a) r := by
  induction p generalizing r with
  | pure a => exact ⟨rfl, a, rfl, h⟩
  | raise e => exact h.elim
  | call o next ih =>
      intro i
      refine ⟨trivial, ?_⟩
      have hnext := ih _ (h _ (hvalid o i r.state hp.1)) (hp.2 _) (r.perform S c o i)
      rw [Run.perform_state, hstate o i r.state hp.1] at hnext
      exact hnext

/-- Whatever the valid answers, `p` performs only allowed operations, and `post` holds of what it
returns. -/
def Issues (valid : Event I → Prop) (allowed : I.Op → Prop) (post : α → Prop) :
    Procedure I ε α → Prop
  | .pure a => post a
  | .raise _ => True
  | .call o next => allowed o ∧ ∀ a, valid ⟨o, a⟩ → (next a).Issues valid allowed post

@[simp] theorem issues_pure {allowed : I.Op → Prop} {post : α → Prop} {a : α} :
    (.pure a : Procedure I ε α).Issues valid allowed post ↔ post a := Iff.rfl

@[simp] theorem issues_raise {allowed : I.Op → Prop} {post : α → Prop} {e : ε} :
    (.raise e : Procedure I ε α).Issues valid allowed post := trivial

theorem Issues.imp {allowed : I.Op → Prop} {post post' : α → Prop} {p : Procedure I ε α}
    (h : p.Issues valid allowed post) (himp : ∀ a, post a → post' a) :
    p.Issues valid allowed post' := by
  induction p with
  | pure a => exact himp a h
  | raise e => trivial
  | call o next ih => exact ⟨h.1, fun a ha => ih a (h.2 a ha)⟩

theorem Issues.bind {allowed : I.Op → Prop} {post : α → Prop} {post' : β → Prop}
    {p : Procedure I ε α} {f : α → Procedure I ε β} (h : p.Issues valid allowed post)
    (hf : ∀ a, post a → (f a).Issues valid allowed post') :
    (p >>= f).Issues valid allowed post' := by
  induction p with
  | pure a => exact hf a h
  | raise e => trivial
  | call o next ih => exact ⟨h.1, fun a ha => ih a (h.2 a ha)⟩

/-- What only uses allowed operations issues them, and returns one of its results. -/
theorem Uses.issues {allowed : I.Op → Prop} {p : Procedure I ε α} (hp : p.Uses allowed) :
    p.Issues valid allowed p.Returns := by
  induction p with
  | pure a => exact rfl
  | raise e => trivial
  | call o next ih => exact ⟨hp.1, fun a _ => (ih a (hp.2 a)).imp fun _ hb => ⟨a, hb⟩⟩

end Procedure

/-- In every interleaving of procedures that issue allowed operations only, every step performs
one, in a state in which the invariant holds that makes the answers valid. -/
theorem interleave_issues [DecidableEq κ] {S : System I σ ι} (inv : σ → Prop)
    {valid : Event I → Prop} {allowed : I.Op → Prop} {post : α → Prop}
    (hvalid : ∀ o i s, inv s → valid ⟨o, (S.answer o i s).1⟩)
    (hinv : ∀ o i s, allowed o → inv s → inv (S.answer o i s).2)
    (schedule : List (κ × ι)) (pool : κ → Procedure I ε α) {r : Run I κ σ} (hr : inv r.state)
    (hpast : ∀ d ∈ r.past, inv d.before ∧ allowed d.op)
    (hpool : ∀ c, (pool c).Issues valid allowed post) :
    ∀ d ∈ (interleave S pool schedule r).2.past, inv d.before ∧ allowed d.op := by
  induction schedule generalizing pool r with
  | nil => exact hpast
  | cons turn rest ih =>
      obtain ⟨c, i⟩ := turn
      rw [interleave]
      split
      · rename_i o next hnext
        have hc := hpool c
        rw [hnext] at hc
        obtain ⟨ho, hc⟩ := hc
        refine ih _ (hinv o i r.state ho hr) (fun d hd => ?_) fun d => ?_
        · rcases List.mem_cons.mp hd with rfl | hd
          · exact ⟨hr, ho⟩
          · exact hpast d hd
        · -- only the procedure of the caller whose turn it was has moved on
          by_cases hd : d = c
          · subst hd
            rw [Function.update_self]
            exact hc _ (hvalid o i r.state hr)
          · rw [Function.update_of_ne hd]
            exact hpool d
      · exact ih _ hr hpast hpool
      · exact ih _ hr hpast hpool

/-- What has happened stays in the past. -/
theorem past_suffix_interleave [DecidableEq κ] (S : System I σ ι) (schedule : List (κ × ι))
    (pool : κ → Procedure I ε α) (r : Run I κ σ) :
    r.past <:+ (interleave S pool schedule r).2.past := by
  have hstep : ∀ (r' : Run I κ σ) c o i,
      r.past <:+ r'.past → r.past <:+ (r'.perform S c o i).past :=
    fun _ _ _ _ h => h.trans (List.suffix_cons _ _)
  exact interleave_invariant hstep schedule pool (List.suffix_refl _)

/-- In every interleaving of procedures that issue allowed operations only, an invariant that
these operations keep is kept, if every answer in a state in which it holds is valid for the
caller. -/
theorem interleave_issues_invariant [DecidableEq κ] {S : System I σ ι} (inv : σ → Prop)
    {valid : κ → Event I → Prop} {allowed : I.Op → Prop} {post : α → Prop}
    (hinv : ∀ o i s, allowed o → inv s → inv (S.answer o i s).2)
    (schedule : List (κ × ι)) (pool : κ → Procedure I ε α) {r : Run I κ σ} (hr : inv r.state)
    (hpool : ∀ c, (pool c).Issues (valid c) allowed post)
    (hvalid : ∀ d ∈ (interleave S pool schedule r).2.past, inv d.before →
      valid d.caller d.event) :
    inv (interleave S pool schedule r).2.state := by
  induction schedule generalizing pool r with
  | nil => exact hr
  | cons turn rest ih =>
      obtain ⟨c, i⟩ := turn
      rw [interleave] at hvalid ⊢
      split at hvalid
      · rename_i o next hnext
        have hc := hpool c
        rw [hnext] at hc
        obtain ⟨ho, hc⟩ := hc
        refine ih _ (hinv o i r.state ho hr) (fun d => ?_) hvalid
        by_cases hd : d = c
        · subst hd
          rw [Function.update_self]
          -- the step that has just been made is among those of the whole run
          have hmem := (past_suffix_interleave S rest
            (Function.update pool d (next (S.answer o i r.state).1)) (r.perform S d o i)).mem
            (List.mem_cons_self ..)
          exact hc _ (hvalid _ hmem hr)
        · rw [Function.update_of_ne hd]
          exact hpool d
      · exact ih _ hr hpool hvalid
      · exact ih _ hr hpool hvalid

/-- In every interleaving of procedures, each caller's events are as its own procedure promises,
and what is left of it promises the rest. -/
theorem interleave_emits_rest [DecidableEq κ] {S : System I σ ι} (inv : σ → Prop)
    {valid : Event I → Prop} {good : κ → List (Event I) → Prop}
    {post : κ → Except ε α → List (Event I) → Prop}
    (hvalid : ∀ o i s, inv s → valid ⟨o, (S.answer o i s).1⟩)
    (hinv : ∀ c done o i s, inv s → good c (⟨o, (S.answer o i s).1⟩ :: done) →
      inv (S.answer o i s).2)
    (schedule : List (κ × ι)) (pool : κ → Procedure I ε α) {r : Run I κ σ} (hr : inv r.state)
    (hgood : ∀ c, good c (own c r.past))
    (hpool : ∀ c, (pool c).Emits valid (good c) (post c) (own c r.past)) :
    inv (interleave S pool schedule r).2.state ∧
      ∀ c, good c (own c (interleave S pool schedule r).2.past) ∧
        ((interleave S pool schedule r).1 c).Emits valid (good c) (post c)
          (own c (interleave S pool schedule r).2.past) := by
  induction schedule generalizing pool r with
  | nil => exact ⟨hr, fun c => ⟨hgood c, hpool c⟩⟩
  | cons turn rest ih =>
      obtain ⟨c, i⟩ := turn
      rw [interleave]
      split
      · rename_i o next hnext
        have hc := hpool c
        rw [hnext, Procedure.emits_call] at hc
        obtain ⟨hgood', hnext'⟩ := hc _ (hvalid o i r.state hr)
        -- only `c`'s own events and residual procedure change
        refine ih _ (hinv c _ o i r.state hr hgood') (fun d => ?_) fun d => ?_
        · by_cases hd : d = c
          · subst hd
            rw [own_perform_self]
            exact hgood'
          · rw [own_perform_of_ne hd]
            exact hgood d
        · by_cases hd : d = c
          · subst hd
            rw [Function.update_self, own_perform_self]
            exact hnext'
          · rw [Function.update_of_ne hd, own_perform_of_ne hd]
            exact hpool d
      · exact ih _ hr hgood hpool
      · exact ih _ hr hgood hpool

/-- In every interleaving each caller's own events are as its procedure promises, and with
them the invariant of the state that makes the answers valid. -/
theorem interleave_emits [DecidableEq κ] {S : System I σ ι} (inv : σ → Prop)
    {valid : Event I → Prop} {good : κ → List (Event I) → Prop}
    (hvalid : ∀ o i s, inv s → valid ⟨o, (S.answer o i s).1⟩)
    (hinv : ∀ c done o i s, inv s → good c (⟨o, (S.answer o i s).1⟩ :: done) →
      inv (S.answer o i s).2)
    (schedule : List (κ × ι)) (pool : κ → Procedure I ε α) {r : Run I κ σ} (hr : inv r.state)
    (hgood : ∀ c, good c (own c r.past))
    (hpool : ∀ c, (pool c).Emits valid (good c) (fun _ _ => True) (own c r.past)) :
    inv (interleave S pool schedule r).2.state ∧
      ∀ c, good c (own c (interleave S pool schedule r).2.past) := by
  have hrest := interleave_emits_rest inv hvalid hinv schedule pool hr hgood hpool
  exact ⟨hrest.1, fun c => (hrest.2 c).1⟩

/-- In every interleaving each caller performs only what its procedure can perform. -/
theorem interleave_uses [DecidableEq κ] {S : System I σ ι} {allowed : κ → I.Op → Prop}
    (schedule : List (κ × ι)) (pool : κ → Procedure I ε α) {r : Run I κ σ}
    (hpast : ∀ d ∈ r.past, allowed d.caller d.op) (hpool : ∀ c, (pool c).Uses (allowed c)) :
    ∀ d ∈ (interleave S pool schedule r).2.past, allowed d.caller d.op := by
  induction schedule generalizing pool r with
  | nil => exact hpast
  | cons turn rest ih =>
      obtain ⟨c, i⟩ := turn
      rw [interleave]
      split
      · rename_i o next hnext
        have hc := hpool c
        rw [hnext, Procedure.uses_call] at hc
        refine ih _ (fun d hd => ?_) fun d => ?_
        · rcases List.mem_cons.mp hd with rfl | hd
          · exact hc.1
          · exact hpast d hd
        · by_cases hd : d = c
          · subst hd
            rw [Function.update_self]
            exact hc.2 _
          · rw [Function.update_of_ne hd]
            exact hpool d
      · exact ih _ hpast hpool
      · exact ih _ hpast hpool

/-! ## One caller after the other -/

/-- A schedule in which nobody gets a turn after a later caller: the procedures run one after
another, each of them to its end or to where it is abandoned. -/
def Sequential (schedule : List (ℕ × ι)) : Prop := (schedule.map Prod.fst).Pairwise (· ≤ ·)

instance (schedule : List (ℕ × ι)) : Decidable (Sequential schedule) :=
  inferInstanceAs (Decidable ((schedule.map Prod.fst).Pairwise (· ≤ ·)))

/-- Under a sequential schedule the callers of the steps come in order. -/
theorem interleave_sequential {S : System I σ ι} {schedule : List (ℕ × ι)}
    (hsequential : Sequential schedule) (pool : ℕ → Procedure I ε α) {r : Run I ℕ σ}
    (hpast : (r.past.map Step.caller).Pairwise (· ≥ ·))
    (hlater : ∀ d ∈ r.past, ∀ turn ∈ schedule, d.caller ≤ turn.1) :
    ((interleave S pool schedule r).2.past.map Step.caller).Pairwise (· ≥ ·) := by
  induction schedule generalizing pool r with
  | nil => exact hpast
  | cons turn rest ih =>
      obtain ⟨c, i⟩ := turn
      obtain ⟨hfirst, hrest⟩ := List.pairwise_cons.mp hsequential
      have hlater' : ∀ d ∈ r.past, ∀ turn ∈ rest, d.caller ≤ turn.1 :=
        fun d hd turn hturn => hlater d hd turn (List.mem_cons_of_mem _ hturn)
      rw [interleave]
      split
      · refine ih hrest _ ?_ fun d hd turn hturn => ?_
        · refine List.pairwise_cons.mpr ⟨fun k hk => ?_, hpast⟩
          obtain ⟨d, hd, rfl⟩ := List.mem_map.mp hk
          exact hlater d hd _ (List.mem_cons_self ..)
        · rcases List.mem_cons.mp hd with rfl | hd
          · exact hfirst _ (List.mem_map_of_mem hturn)
          · exact hlater' d hd turn hturn
      · exact ih hrest _ hpast hlater'
      · exact ih hrest _ hpast hlater'

end Proc
