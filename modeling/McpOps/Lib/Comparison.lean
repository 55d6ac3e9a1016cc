import McpOps.Lib.Interleaving

/-!
# The same procedures on two systems

`attemptAll` runs procedures one after another and collects what each comes to.  `run_congr` says
when it makes no difference on which of two systems a procedure runs: when both systems answer
every operation that is performed alike, and a relation between their states is kept.

The hypothesis on the answers speaks of one operation at a time, but it may use what the run has
done before it, as a list of events.  So it need not hold for all operations in all related states,
only for those that the run comes to; this is what lets a condition on the inputs, such as a width
that no text exceeds, be used at the operation where it matters.
-/

namespace Proc

variable {I : Interface} {κ σ τ ι ε ε' α β : Type}

namespace Procedure

/-! ## Outcomes as values -/

/-- Return what `p` comes to, whether it returns or raises. -/
def attempt : Procedure I ε α → Procedure I ε' (Except ε α)
  | .pure a => .pure (.ok a)
  | .raise e => .pure (.error e)
  | .call o next => .call o fun a => (next a).attempt

/-- Run the procedures one after another and return what each comes to. -/
def attemptAll : List (Procedure I ε α) → Procedure I ε' (List (Except ε α))
  | [] => .pure []
  | p :: rest => p.attempt >>= fun result => attemptAll rest >>= fun results =>
      .pure (result :: results)

theorem Uses.attempt {allowed : I.Op → Prop} {p : Procedure I ε α} (hp : p.Uses allowed) :
    (p.attempt : Procedure I ε' (Except ε α)).Uses allowed := by
  induction p with
  | pure a => trivial
  | raise e => trivial
  | call o next ih => exact ⟨hp.1, fun a => ih a (hp.2 a)⟩

theorem uses_attemptAll {allowed : I.Op → Prop} {ps : List (Procedure I ε α)}
    (h : ∀ p ∈ ps, p.Uses allowed) :
    (attemptAll ps : Procedure I ε' (List (Except ε α))).Uses allowed := by
  induction ps with
  | nil => trivial
  | cons p rest ih =>
      have hrest := ih fun q hq => h q (List.mem_cons_of_mem p hq)
      exact ((h p List.mem_cons_self).attempt).bind fun _ => hrest.bind fun _ => trivial

/-! ## Two systems -/

/-- Nothing that happens in a run of `p` tells two systems apart when both answer the operations
of that run alike.  The hypothesis on the answers may use what is known of the operations of `p`,
of the inputs, and of the states in which the first system performs them. -/
theorem run_congr {S : System I σ ι} {T : System I τ ι} {R : σ → τ → Prop}
    {allowed : I.Op → Prop} {admitted : ι → Prop} {alike : I.Op → σ → Prop}
    (hanswer : ∀ o i s t, allowed o → admitted i → alike o s → R s t →
      (S.answer o i s).1 = (T.answer o i t).1 ∧ R (S.answer o i s).2 (T.answer o i t).2)
    {c : κ} {p : Procedure I ε α} (hp : p.Uses allowed) {inputs : ℕ → ι}
    (hinputs : ∀ n, admitted (inputs n)) {r : Run I κ σ} {q : Run I κ τ} (h : R r.state q.state)
    (halike : ∀ d ∈ (p.run S c inputs r).2.past, alike d.op d.before) :
    (p.run S c inputs r).1 = (p.run T c inputs q).1 := by
  induction p generalizing inputs r q with
  | pure a => rfl
  | raise e => rfl
  | call o next ih =>
      -- the step is one of the run, whatever comes after it
      have hsuffix := past_suffix_run (S := S) c (next (S.answer o (inputs 0) r.state).1)
        (fun n => inputs (n + 1)) (r.perform S c o (inputs 0))
      have hstep := halike _ (hsuffix.subset List.mem_cons_self)
      obtain ⟨hsame, hstate⟩ := hanswer o (inputs 0) r.state q.state hp.1 (hinputs 0) hstep h
      have hrest := ih (S.answer o (inputs 0) r.state).1 (hp.2 _) (fun n => hinputs (n + 1))
        (q := q.perform T c o (inputs 0)) hstate halike
      rw [run, run, hrest, hsame]

end Procedure

end Proc
