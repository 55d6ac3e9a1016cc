import McpOps.Lib.Lockstep

/-!
# Systems that may refuse an operation

A store may refuse what it is asked to do, and a procedure ends where that happens, with nothing
but an error of the store.  `takes o i s` says that the operation `o` with the input `i` is taken
in the state `s`, and `runTaken` runs a procedure until it ends or an operation is refused.

## Strategy

What a run with refusals comes to, the run without them comes to as well (`runTaken_eq_run`).
What is left is to see that nothing is refused.  Often all operations but one can be taken in any
state, and that one in a state that only the others have led to: the number it uses has not been
used yet, the place it fills is free.  `Once` follows the structure of a procedure that performs
such an operation at most once, and `Once.isSome_runTaken` is what it is good for.

`outcomesTaken` runs procedures one after another and stops at the first refusal;
`getElem?_outcomesTaken` and `outcomesTaken_eq` carry both facts over to it.
-/

namespace Proc

variable {I : Interface} {κ σ ι ε ε' α β : Type}

namespace Procedure

/-- Run `p` on behalf of `c` to its end, or to the first operation that is refused. -/
def runTaken (S : System I σ ι) (takes : I.Op → ι → σ → Bool) (c : κ) :
    Procedure I ε α → (ℕ → ι) → Run I κ σ → Option (Except ε α × Run I κ σ)
  | .pure a, _, r => some (.ok a, r)
  | .raise e, _, r => some (.error e, r)
  | .call o next, inputs, r =>
      if takes o (inputs 0) r.state then
        (next (S.answer o (inputs 0) r.state).1).runTaken S takes c (fun n => inputs (n + 1))
          (r.perform S c o (inputs 0))
      else none

section Rules

variable {S : System I σ ι} {takes : I.Op → ι → σ → Bool} {c : κ}

/-- What a run with refusals comes to, the run without them comes to. -/
theorem runTaken_eq_run {p : Procedure I ε α} {inputs : ℕ → ι} {r : Run I κ σ}
    {x : Except ε α × Run I κ σ} (h : p.runTaken S takes c inputs r = some x) :
    p.run S c inputs r = x := by
  induction p generalizing inputs r with
  | pure a => exact Option.some.inj h
  | raise e => exact Option.some.inj h
  | call o next ih =>
      rw [runTaken] at h
      split at h
      · exact ih _ h
      · cases h

/-- What holds at first and is kept by every operation holds in the end. -/
theorem run_invariant (inv : σ → Prop) (valid : ι → Prop)
    (hkeep : ∀ o i s, valid i → inv s → inv (S.answer o i s).2) (p : Procedure I ε α)
    {inputs : ℕ → ι} (hinputs : ∀ n, valid (inputs n)) {r : Run I κ σ} (hr : inv r.state) :
    inv (p.run S c inputs r).2.state := by
  induction p generalizing inputs r with
  | pure a => exact hr
  | raise e => exact hr
  | call o next ih => exact ih _ (fun n => hinputs (n + 1)) (hkeep o _ _ (hinputs 0) hr)

/-! ### Procedures that perform an operation at most once -/

/-- Whatever the answers, `p` performs operations from `allowed` only, but for at most one of those
in `special`. -/
def Once (allowed special : I.Op → Prop) : Procedure I ε α → Prop
  | .pure _ => True
  | .raise _ => True
  | .call o next =>
      (allowed o ∧ ∀ a, (next a).Once allowed special) ∨ special o ∧ ∀ a, (next a).Uses allowed

variable {allowed special : I.Op → Prop}

theorem Uses.once {p : Procedure I ε α} (hp : p.Uses allowed) : p.Once allowed special := by
  induction p with
  | pure a => trivial
  | raise e => trivial
  | call o next ih => exact .inl ⟨hp.1, fun a => ih a (hp.2 a)⟩

theorem once_call_special {o : I.Op} {next : I.Ans o → Procedure I ε α} (ho : special o)
    (hnext : ∀ a, (next a).Uses allowed) : (call o next).Once allowed special := .inr ⟨ho, hnext⟩

/-- The one operation comes in the second part, which only has to be about what can be returned. -/
theorem Once.after {p : Procedure I ε α} {f : α → Procedure I ε β} (hp : p.Uses allowed)
    (hf : ∀ a, p.Returns a → (f a).Once allowed special) : (p >>= f).Once allowed special := by
  induction p with
  | pure a => exact hf a rfl
  | raise e => trivial
  | call o next ih => exact .inl ⟨hp.1, fun a => ih a (hp.2 a) fun b hb => hf b ⟨a, hb⟩⟩

/-- The handler only has to be about what can be raised. -/
theorem Once.tryCatch {p : Procedure I ε α} {handler : ε → Procedure I ε' α}
    (hp : p.Once allowed special) (hh : ∀ e, p.Raises e → (handler e).Uses allowed) :
    (p.tryCatch handler).Once allowed special := by
  induction p with
  | pure a => trivial
  | raise e => exact (hh e rfl).once
  | call o next ih =>
      obtain ⟨ho, hnext⟩ | ⟨ho, hnext⟩ := hp
      · exact .inl ⟨ho, fun a => ih a (hnext a) fun e he => hh e ⟨a, he⟩⟩
      · exact .inr ⟨ho, fun a => (hnext a).tryCatch_raises fun e he => hh e ⟨a, he⟩⟩

/-- A procedure of operations that are taken in any state is not refused. -/
theorem Uses.isSome_runTaken (htakes : ∀ o i s, allowed o → takes o i s)
    {p : Procedure I ε α} (hp : p.Uses allowed) (inputs : ℕ → ι) (r : Run I κ σ) :
    (p.runTaken S takes c inputs r).isSome := by
  induction p generalizing inputs r with
  | pure a => rfl
  | raise e => rfl
  | call o next ih =>
      rw [runTaken, if_pos (htakes o _ _ hp.1)]
      exact ih _ (hp.2 _) _ _

/-- The one operation is taken in a state that the others have kept as it must be. -/
theorem Once.isSome_runTaken (inv : σ → Prop) (valid : ι → Prop)
    (htakes : ∀ o i s, allowed o → takes o i s)
    (hkeep : ∀ o i s, allowed o → inv s → inv (S.answer o i s).2)
    (hspecial : ∀ o i s, special o → valid i → inv s → takes o i s)
    {p : Procedure I ε α} (hp : p.Once allowed special) {inputs : ℕ → ι}
    (hinputs : ∀ n, valid (inputs n)) {r : Run I κ σ} (hr : inv r.state) :
    (p.runTaken S takes c inputs r).isSome := by
  induction p generalizing inputs r with
  | pure a => rfl
  | raise e => rfl
  | call o next ih =>
      obtain ⟨ho, hnext⟩ | ⟨ho, hnext⟩ := hp
      · rw [runTaken, if_pos (htakes o _ _ ho)]
        exact ih _ (hnext _) (fun n => hinputs (n + 1)) (hkeep o _ _ ho hr)
      · rw [runTaken, if_pos (hspecial o _ _ ho (hinputs 0) hr)]
        exact Uses.isSome_runTaken htakes (hnext _) _ _

end Rules

/-! ## One procedure after another -/

/-- What each of the procedures comes to when they are run one after another, up to the first that
is refused an operation, which comes to `none`. -/
def outcomesTaken (S : System I σ ι) (takes : I.Op → ι → σ → Bool) (c : κ) :
    List (Procedure I ε α × (ℕ → ι)) → Run I κ σ → List (Option (Except ε α))
  | [], _ => []
  | (p, inputs) :: rest, r =>
      match p.runTaken S takes c inputs r with
      | some x => some x.1 :: outcomesTaken S takes c rest x.2
      | none => [none]

section Sequences

variable {S : System I σ ι} {takes : I.Op → ι → σ → Bool} {c : κ}

/-- Up to the first refusal the procedures come to what they come to without refusals. -/
theorem getElem?_outcomesTaken {calls : List (Procedure I ε α × (ℕ → ι))} {r : Run I κ σ} {k : ℕ}
    {x : Except ε α} (h : (outcomesTaken S takes c calls r)[k]? = some (some x)) :
    (outcomes S c calls r)[k]? = some x := by
  induction calls generalizing r k with
  | nil => cases h
  | cons call rest ih =>
      obtain ⟨p, inputs⟩ := call
      rw [outcomesTaken] at h
      rw [outcomes]
      cases hrun : p.runTaken S takes c inputs r with
      | none =>
          rw [hrun] at h
          cases k with
          | zero => cases h
          | succ k => cases h
      | some y =>
          rw [hrun] at h
          rw [runTaken_eq_run hrun]
          cases k with
          | zero => exact congrArg some (Option.some.inj (Option.some.inj h))
          | succ k => exact ih h

/-- Where nothing is refused, the procedures come to what they come to without refusals.  The
relation may look at what is still to be run. -/
theorem outcomesTaken_eq (inv : List (Procedure I ε α × (ℕ → ι)) → σ → Prop)
    (hstep : ∀ p inputs rest (r : Run I κ σ), inv ((p, inputs) :: rest) r.state →
      (p.runTaken S takes c inputs r).isSome ∧ inv rest (p.run S c inputs r).2.state)
    {calls : List (Procedure I ε α × (ℕ → ι))} {r : Run I κ σ} (h : inv calls r.state) :
    outcomesTaken S takes c calls r = (outcomes S c calls r).map some := by
  induction calls generalizing r with
  | nil => rfl
  | cons call rest ih =>
      obtain ⟨p, inputs⟩ := call
      obtain ⟨htaken, hrest⟩ := hstep p inputs rest r h
      obtain ⟨x, hrun⟩ := Option.isSome_iff_exists.mp htaken
      rw [outcomesTaken, hrun, outcomes, runTaken_eq_run hrun, List.map_cons]
      rw [runTaken_eq_run hrun] at hrest
      exact congrArg _ (ih hrest)

end Sequences

end Procedure

end Proc
