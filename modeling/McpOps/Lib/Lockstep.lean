import McpOps.Lib.Comparison

/-!
# Two procedures in lockstep

Two procedures run side by side on two systems, an operation of the one together with an
operation of the other and with the same input for both.  `Lockstep` is the weakest precondition
of such a pair of runs, so that its rules follow the structure of the procedures.  The procedures
may differ: what matters is that they end together, and that the postcondition holds of what both
come to.

`Uses.lockstep` is the rule for one procedure all of whose operations the two systems answer
alike, and `outcomes_congr` the one for procedures that are run one after another.
-/

namespace Proc

variable {I : Interface} {κ σ τ ι ε ε' φ φ' α α' β β' : Type}

namespace Procedure

/-- Whatever the inputs, `p` on `S` from `s` and `q` on `T` from `t` end after equally many
operations, and `post` holds of their results and of the states they leave. -/
def Lockstep (S : System I σ ι) (T : System I τ ι)
    (post : Except ε α → σ → Except φ β → τ → Prop) :
    Procedure I ε α → Procedure I φ β → σ → τ → Prop
  | .pure a, .pure b, s, t => post (.ok a) s (.ok b) t
  | .pure a, .raise f, s, t => post (.ok a) s (.error f) t
  | .raise e, .pure b, s, t => post (.error e) s (.ok b) t
  | .raise e, .raise f, s, t => post (.error e) s (.error f) t
  | .call o next, .call o' next', s, t => ∀ i,
      Lockstep S T post (next (S.answer o i s).1) (next' (T.answer o' i t).1)
        (S.answer o i s).2 (T.answer o' i t).2
  | _, _, _, _ => False

/-- The same result, and states that are related. -/
def Same (R : σ → τ → Prop) (x : Except ε α) (s : σ) (y : Except ε α) (t : τ) : Prop :=
  x = y ∧ R s t

section Rules

variable {S : System I σ ι} {T : System I τ ι} {s : σ} {t : τ}

@[simp] theorem lockstep_ofExcept {post : Except ε α → σ → Except φ β → τ → Prop}
    {x : Except ε α} {y : Except φ β} :
    Lockstep S T post (ofExcept x) (ofExcept y) s t ↔ post x s y t := by
  cases x <;> cases y <;> rfl

/-- Procedures that end do so with a result. -/
theorem Lockstep.cases_pure {post : Except ε α → σ → Except φ β → τ → Prop} {x : Except ε α}
    {q : Procedure I φ β} (h : Lockstep S T post (ofExcept x) q s t) :
    ∃ y, q = ofExcept y ∧ post x s y t := by
  cases q with
  | pure b => exact ⟨.ok b, rfl, lockstep_ofExcept.mp h⟩
  | raise f => exact ⟨.error f, rfl, lockstep_ofExcept.mp h⟩
  | call o next => cases x <;> exact h.elim

/-- After an operation of the first procedure comes one of the second. -/
theorem Lockstep.cases_call {post : Except ε α → σ → Except φ β → τ → Prop} {o : I.Op}
    {next : I.Ans o → Procedure I ε α} {q : Procedure I φ β}
    (h : Lockstep S T post (.call o next) q s t) : ∃ o' next', q = .call o' next' := by
  cases q with
  | pure b => exact h.elim
  | raise f => exact h.elim
  | call o' next' => exact ⟨o', next', rfl⟩

/-- The postcondition may be weakened. -/
theorem Lockstep.imp {post post' : Except ε α → σ → Except φ β → τ → Prop}
    {p : Procedure I ε α} {q : Procedure I φ β} (h : Lockstep S T post p q s t)
    (himp : ∀ x s y t, post x s y t → post' x s y t) : Lockstep S T post' p q s t := by
  have hended : ∀ {x : Except ε α} {q : Procedure I φ β} {s : σ} {t : τ},
      Lockstep S T post (ofExcept x) q s t → Lockstep S T post' (ofExcept x) q s t := by
    intro x q s t h
    obtain ⟨y, rfl, hpost⟩ := h.cases_pure
    exact lockstep_ofExcept.mpr (himp x s y t hpost)
  induction p generalizing q s t with
  | pure a => exact hended (x := .ok a) h
  | raise e => exact hended (x := .error e) h
  | call o next ih =>
      obtain ⟨o', next', rfl⟩ := h.cases_call
      exact fun i => ih _ (h i)

/-- Sequences in lockstep: the second parts go on from what the first parts come to. -/
theorem Lockstep.bind {mid : Except ε α → σ → Except φ β → τ → Prop}
    {post : Except ε α' → σ → Except φ β' → τ → Prop} {p : Procedure I ε α} {q : Procedure I φ β}
    {f : α → Procedure I ε α'} {g : β → Procedure I φ β'} (h : Lockstep S T mid p q s t)
    (hrest : ∀ x s y t, mid x s y t →
      Lockstep S T post (ofExcept x >>= f) (ofExcept y >>= g) s t) :
    Lockstep S T post (p >>= f) (q >>= g) s t := by
  have hended : ∀ {x : Except ε α} {q : Procedure I φ β} {s : σ} {t : τ},
      Lockstep S T mid (ofExcept x) q s t →
        Lockstep S T post (ofExcept x >>= f) (q >>= g) s t := by
    intro x q s t h
    obtain ⟨y, rfl, hmid⟩ := h.cases_pure
    exact hrest x s y t hmid
  induction p generalizing q s t with
  | pure a => exact hended (x := .ok a) h
  | raise e => exact hended (x := .error e) h
  | call o next ih =>
      obtain ⟨o', next', rfl⟩ := h.cases_call
      exact fun i => ih _ (h i)

/-- Where the first parts come to the same, the second parts go on from the same value. -/
theorem Lockstep.bind_same {R : σ → τ → Prop} {post : Except ε α' → σ → Except ε β' → τ → Prop}
    {p q : Procedure I ε α} {f : α → Procedure I ε α'} {g : α → Procedure I ε β'}
    (h : Lockstep S T (Same R) p q s t)
    (herror : ∀ e s t, R s t → post (.error e) s (.error e) t)
    (hrest : ∀ a s t, R s t → Lockstep S T post (f a) (g a) s t) :
    Lockstep S T post (p >>= f) (q >>= g) s t := by
  refine h.bind ?_
  rintro (e | a) s _ t ⟨rfl, hstate⟩
  · exact herror e s t hstate
  · exact hrest a s t hstate

/-- Handlers in lockstep. -/
theorem Lockstep.tryCatch {mid : Except ε α → σ → Except φ β → τ → Prop}
    {post : Except ε' α → σ → Except φ' β → τ → Prop} {p : Procedure I ε α} {q : Procedure I φ β}
    {f : ε → Procedure I ε' α} {g : φ → Procedure I φ' β} (h : Lockstep S T mid p q s t)
    (hrest : ∀ x s y t, mid x s y t →
      Lockstep S T post ((ofExcept x).tryCatch f) ((ofExcept y).tryCatch g) s t) :
    Lockstep S T post (p.tryCatch f) (q.tryCatch g) s t := by
  have hended : ∀ {x : Except ε α} {q : Procedure I φ β} {s : σ} {t : τ},
      Lockstep S T mid (ofExcept x) q s t →
        Lockstep S T post ((ofExcept x).tryCatch f) (q.tryCatch g) s t := by
    intro x q s t h
    obtain ⟨y, rfl, hmid⟩ := h.cases_pure
    exact hrest x s y t hmid
  induction p generalizing q s t with
  | pure a => exact hended (x := .ok a) h
  | raise e => exact hended (x := .error e) h
  | call o next ih =>
      obtain ⟨o', next', rfl⟩ := h.cases_call
      exact fun i => ih _ (h i)

/-- Parts that come to the same and whose errors are translated, with what follows them. -/
theorem Lockstep.mapError_bind {R : σ → τ → Prop}
    {post : Except ε' α' → σ → Except ε' β' → τ → Prop} {p q : Procedure I ε α}
    {translate : ε → ε'} {f : α → Procedure I ε' α'} {g : α → Procedure I ε' β'}
    (h : Lockstep S T (Same R) p q s t)
    (herror : ∀ e s t, R s t → post (.error (translate e)) s (.error (translate e)) t)
    (hrest : ∀ a s t, R s t → Lockstep S T post (f a) (g a) s t) :
    Lockstep S T post (p.mapError translate >>= f) (q.mapError translate >>= g) s t := by
  have hmapped : Lockstep S T
      (fun x s y t => Same R x s y t ∧ ∀ e, x = .error e → post (.error e) s (.error e) t)
      (p.mapError translate) (q.mapError translate) s t := by
    refine h.tryCatch ?_
    rintro (e | a) s _ t ⟨rfl, hstate⟩
    · exact ⟨⟨rfl, hstate⟩, fun e' he => by cases he; exact herror e s t hstate⟩
    · exact ⟨⟨rfl, hstate⟩, fun e he => by cases he⟩
  refine hmapped.bind ?_
  rintro (e | a) s _ t ⟨⟨rfl, hstate⟩, hpost⟩
  · exact hpost e rfl
  · exact hrest a s t hstate

/-- A procedure whose operations both systems answer alike does the same on both. -/
theorem Uses.lockstep {R : σ → τ → Prop} {allowed : I.Op → Prop}
    (hanswer : ∀ o i s t, allowed o → R s t →
      (S.answer o i s).1 = (T.answer o i t).1 ∧ R (S.answer o i s).2 (T.answer o i t).2)
    {p : Procedure I ε α} (hp : p.Uses allowed) (h : R s t) :
    Lockstep S T (Same R) p p s t := by
  induction p generalizing s t with
  | pure a => exact ⟨rfl, h⟩
  | raise e => exact ⟨rfl, h⟩
  | call o next ih =>
      intro i
      obtain ⟨hsame, hstate⟩ := hanswer o i s t hp.1 h
      rw [← hsame]
      exact ih _ (hp.2 _) hstate

/-- What was in lockstep holds of the two runs. -/
theorem Lockstep.run {post : Except ε α → σ → Except φ β → τ → Prop} {p : Procedure I ε α}
    {q : Procedure I φ β} {c : κ} {inputs : ℕ → ι} {r : Run I κ σ} {w : Run I κ τ}
    (h : Lockstep S T post p q r.state w.state) :
    post (p.run S c inputs r).1 (p.run S c inputs r).2.state (q.run T c inputs w).1
      (q.run T c inputs w).2.state := by
  induction p generalizing q inputs r w with
  | pure a =>
      obtain ⟨y, rfl, hpost⟩ := Lockstep.cases_pure (x := .ok a) h
      cases y <;> exact hpost
  | raise e =>
      obtain ⟨y, rfl, hpost⟩ := Lockstep.cases_pure (x := .error e) h
      cases y <;> exact hpost
  | call o next ih =>
      obtain ⟨o', next', rfl⟩ := h.cases_call
      exact ih _ (r := r.perform S c o (inputs 0)) (w := w.perform T c o' (inputs 0))
        (h (inputs 0))

end Rules

/-! ## One procedure after another -/

/-- What each of the procedures comes to when they are run one after another, each of them to its
end and with the inputs beside it. -/
def outcomes (S : System I σ ι) (c : κ) :
    List (Procedure I ε α × (ℕ → ι)) → Run I κ σ → List (Except ε α)
  | [], _ => []
  | (p, inputs) :: rest, r =>
      (p.run S c inputs r).1 :: outcomes S c rest (p.run S c inputs r).2

/-- Procedures each of which comes to the same on both systems, where the relation between the
states may look at what is still to be run. -/
theorem outcomes_congr {S : System I σ ι} {T : System I τ ι} {c : κ}
    {R : List (Procedure I ε α × (ℕ → ι)) → σ → τ → Prop}
    (hstep : ∀ p inputs rest (r : Run I κ σ) (q : Run I κ τ),
      R ((p, inputs) :: rest) r.state q.state →
        Same (R rest) (p.run S c inputs r).1 (p.run S c inputs r).2.state
          (p.run T c inputs q).1 (p.run T c inputs q).2.state)
    {calls : List (Procedure I ε α × (ℕ → ι))} {r : Run I κ σ} {q : Run I κ τ}
    (h : R calls r.state q.state) : outcomes S c calls r = outcomes T c calls q := by
  induction calls generalizing r q with
  | nil => rfl
  | cons call rest ih =>
      obtain ⟨p, inputs⟩ := call
      obtain ⟨hsame, hrest⟩ := hstep p inputs rest r q h
      rw [outcomes, outcomes, hsame, ih hrest]

end Procedure

end Proc
