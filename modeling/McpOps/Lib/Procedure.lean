import Mathlib.Logic.Function.Basic
import Mathlib.Data.List.Basic
import Mathlib.Data.List.Infix

/-!
# Procedures over atomic operations

A procedure is the control flow of a piece of imperative code: it performs
atomic operations on a shared state one after another, looks at their answers,
and ends by returning a value or by raising an error.  Everything between two
operations is pure.  The tree says nothing about the state; a `System` does, by
giving the answer of each operation and the state it leaves.

Two ways of executing procedures are built on the same `Run`, which records the
present state and every step taken so far, newest first:

* `Procedure.exec` runs one procedure by itself, and `session` runs procedures
  one after another.  The list of inputs handed to a procedure may be too short,
  which models a caller that is abandoned (a crash) between two operations, while
  `Procedure.run` has inputs enough and always comes to the end;
* `interleave` (in `Interleaving.lean`) runs many procedures at once.

`Run.From` is what both have in common, for properties that every single step
keeps.  `Procedure.Keeps` is the weakest precondition for the first: an invariant
of the run after every single operation, and a postcondition for the result.
`Procedure.Uses` bounds the operations a procedure can perform at all, and
`Procedure.Returns` and `Procedure.Raises` say how it can end for any answers, and
`Procedure.RaisesOnly` bounds its errors.
-/

namespace Proc

/-- The atomic operations on a shared state, and the type of each one's answer. -/
structure Interface where
  Op : Type
  Ans : Op → Type

/-- Imperative code over the operations of `I`: it returns an `α` or raises an `ε`. -/
inductive Procedure (I : Interface) (ε α : Type) where
  | pure (a : α)
  | raise (e : ε)
  | call (o : I.Op) (next : I.Ans o → Procedure I ε α)

namespace Procedure

variable {I : Interface} {ε ε' α β : Type}

/-- Sequencing: errors skip the rest. -/
protected def bind : Procedure I ε α → (α → Procedure I ε β) → Procedure I ε β
  | .pure a, f => f a
  | .raise e, _ => .raise e
  | .call o next, f => .call o fun a => (next a).bind f

instance : Monad (Procedure I ε) where
  pure := .pure
  bind := Procedure.bind

/-- `try p except e: handler e`. -/
def tryCatch : Procedure I ε α → (ε → Procedure I ε' α) → Procedure I ε' α
  | .pure a, _ => .pure a
  | .raise e, handler => handler e
  | .call o next, handler => .call o fun a => (next a).tryCatch handler

/-- Errors carry what `f` adds to them. -/
def mapError (f : ε → ε') (p : Procedure I ε α) : Procedure I ε' α :=
  p.tryCatch fun e => .raise (f e)

/-- One operation. -/
def perform (o : I.Op) : Procedure I ε (I.Ans o) := .call o .pure

/-- A pure computation that may fail. -/
def ofExcept : Except ε α → Procedure I ε α
  | .ok a => .pure a
  | .error e => .raise e

@[simp] theorem pure_eq (a : α) : (Pure.pure a : Procedure I ε α) = .pure a := rfl

@[simp] theorem pure_bind' (a : α) (f : α → Procedure I ε β) :
    ((.pure a : Procedure I ε α) >>= f) = f a := rfl

@[simp] theorem raise_bind (e : ε) (f : α → Procedure I ε β) :
    ((.raise e : Procedure I ε α) >>= f) = .raise e := rfl

@[simp] theorem call_bind (o : I.Op) (next : I.Ans o → Procedure I ε α)
    (f : α → Procedure I ε β) :
    ((.call o next : Procedure I ε α) >>= f) = .call o fun a => next a >>= f := rfl

@[simp] theorem perform_bind (o : I.Op) (f : I.Ans o → Procedure I ε β) :
    (perform o >>= f : Procedure I ε β) = .call o f := rfl

end Procedure

/-! ## Systems and runs -/

/-- How a shared state of type `σ` answers the operations.  What the environment
decides (a clock reading, the outcome of a remote call) comes in as an input. -/
structure System (I : Interface) (σ ι : Type) where
  answer : (o : I.Op) → ι → σ → I.Ans o × σ

/-- One operation performed by a caller, with its answer and the states around it. -/
structure Step (I : Interface) (κ σ : Type) where
  caller : κ
  op : I.Op
  answer : I.Ans op
  before : σ
  after : σ

/-- The state reached and the steps that led there, newest first. -/
structure Run (I : Interface) (κ σ : Type) where
  state : σ
  past : List (Step I κ σ)

section Runs

variable {I : Interface} {κ σ ι ε ε' α β : Type}

/-- A state in which nothing has happened yet. -/
def Run.start (s : σ) : Run I κ σ := ⟨s, []⟩

/-- The run after one more operation. -/
def Run.perform (S : System I σ ι) (c : κ) (o : I.Op) (i : ι) (r : Run I κ σ) : Run I κ σ where
  state := (S.answer o i r.state).2
  past := ⟨c, o, (S.answer o i r.state).1, r.state, (S.answer o i r.state).2⟩ :: r.past

@[simp] theorem Run.perform_state (S : System I σ ι) (c : κ) (o : I.Op) (i : ι)
    (r : Run I κ σ) : (r.perform S c o i).state = (S.answer o i r.state).2 := rfl

@[simp] theorem Run.perform_past (S : System I σ ι) (c : κ) (o : I.Op) (i : ι)
    (r : Run I κ σ) : (r.perform S c o i).past =
      ⟨c, o, (S.answer o i r.state).1, r.state, (S.answer o i r.state).2⟩ :: r.past := rfl

/-- Run `p` on behalf of `c`, one input for each operation, until it ends or the
inputs do. -/
def Procedure.exec (S : System I σ ι) (c : κ) :
    Procedure I ε α → List ι → Run I κ σ → Procedure I ε α × Run I κ σ
  | .call o next, i :: is, r => (next (S.answer o i r.state).1).exec S c is (r.perform S c o i)
  | .call o next, [], r => (.call o next, r)
  | .pure a, _, r => (.pure a, r)
  | .raise e, _, r => (.raise e, r)

/-- Run `p` on behalf of `c` to its end, with an input for every operation it may come to. -/
def Procedure.run (S : System I σ ι) (c : κ) :
    Procedure I ε α → (ℕ → ι) → Run I κ σ → Except ε α × Run I κ σ
  | .pure a, _, r => (.ok a, r)
  | .raise e, _, r => (.error e, r)
  | .call o next, inputs, r =>
      (next (S.answer o (inputs 0) r.state).1).run S c (fun n => inputs (n + 1))
        (r.perform S c o (inputs 0))

/-- What a procedure returns is changed after its run. -/
theorem Procedure.run_bind_pure (S : System I σ ι) (c : κ) (p : Procedure I ε α) (f : α → β)
    (inputs : ℕ → ι) (r : Run I κ σ) :
    (p >>= fun a => .pure (f a)).run S c inputs r =
      ((p.run S c inputs r).1.map f, (p.run S c inputs r).2) := by
  induction p generalizing inputs r with
  | pure a => rfl
  | raise e => rfl
  | call o next ih => exact ih _ _ _

/-- The system with the inputs of a kind only. -/
def System.restrict (S : System I σ ι) (p : ι → Prop) : System I σ {i // p i} where
  answer o i s := S.answer o i.1 s

theorem Procedure.run_restrict (S : System I σ ι) {p : ι → Prop} (c : κ) (q : Procedure I ε α)
    (inputs : ℕ → {i // p i}) (r : Run I κ σ) :
    q.run (S.restrict p) c inputs r = q.run S c (fun n => (inputs n).1) r := by
  induction q generalizing inputs r with
  | pure a => rfl
  | raise e => rfl
  | call o next ih => exact ih _ (fun n => inputs (n + 1)) _

/-- Enough inputs let a procedure come to its end. -/
theorem Procedure.exists_exec_eq_run (S : System I σ ι) (c : κ) (p : Procedure I ε α)
    (inputs : ℕ → ι) (r : Run I κ σ) :
    ∃ n, (p.exec S c ((List.range n).map inputs) r).2 = (p.run S c inputs r).2 := by
  induction p generalizing inputs r with
  | pure a => exact ⟨0, rfl⟩
  | raise e => exact ⟨0, rfl⟩
  | call o next ih =>
      obtain ⟨n, hn⟩ := ih (S.answer o (inputs 0) r.state).1 (fun n => inputs (n + 1))
        (r.perform S c o (inputs 0))
      refine ⟨n + 1, ?_⟩
      rw [List.range_succ_eq_map, List.map_cons, List.map_map]
      exact hn

/-- Run the procedures of several callers one after another. -/
def session (S : System I σ ι) (body : κ → Procedure I ε α) :
    List (κ × List ι) → Run I κ σ → Run I κ σ
  | [], r => r
  | (c, is) :: rest, r => session S body rest ((body c).exec S c is r).2

/-! ## Reachable runs -/

/-- The runs that steps of `S` lead to from the state `s`. -/
inductive Run.From (S : System I σ ι) (s : σ) : Run I κ σ → Prop where
  | start : Run.From S s (Run.start s)
  | perform {r : Run I κ σ} (hr : Run.From S s r) (c : κ) (o : I.Op) (i : ι) :
      Run.From S s (r.perform S c o i)

/-- Every step of a run was performed in the run of the steps before it. -/
theorem Run.From.at_step {S : System I σ ι} {s : σ} {r : Run I κ σ} (hr : Run.From S s r)
    {older : List (Step I κ σ)} {d : Step I κ σ} (hd : d :: older <:+ r.past) :
    Run.From S s ⟨d.before, older⟩ ∧ ∃ i, S.answer d.op i d.before = (d.answer, d.after) := by
  induction hr with
  | start => exact absurd (List.eq_nil_of_suffix_nil hd) (by simp)
  | @perform r hr c o i ih =>
      rcases List.suffix_cons_iff.mp hd with heq | hd
      · cases heq
        exact ⟨hr, i, rfl⟩
      · exact ih hd

/-- The run that ends with a step of a reachable run is reachable. -/
theorem Run.From.after_step {S : System I σ ι} {s : σ} {r : Run I κ σ} (hr : Run.From S s r)
    {older : List (Step I κ σ)} {d : Step I κ σ} (hd : d :: older <:+ r.past) :
    Run.From S s ⟨d.after, d :: older⟩ := by
  obtain ⟨hbefore, i, hi⟩ := hr.at_step hd
  have hperform := hbefore.perform d.caller d.op i
  simpa only [Run.perform, hi] using hperform

/-- A reachable run is in the state that its last step has left. -/
theorem Run.From.state_eq_after {S : System I σ ι} {s t : σ} {d : Step I κ σ}
    {older : List (Step I κ σ)} (h : Run.From S s ⟨t, d :: older⟩) : t = d.after := by
  cases h
  rfl

/-- A reachable run without steps is where it started. -/
theorem Run.From.state_eq_start {S : System I σ ι} {s t : σ}
    (h : Run.From S s (⟨t, []⟩ : Run I κ σ)) : t = s := by
  cases h
  rfl

/-- What every step relates, an earlier state and a later one are related by. -/
theorem Run.From.chain {S : System I σ ι} {s : σ} {r : Run I κ σ} (hr : Run.From S s r)
    {R : σ → σ → Prop} (htrans : ∀ s t u, R s t → R t u → R s u)
    (hstep : ∀ d older, d :: older <:+ r.past → R d.before d.after)
    {d e : Step I κ σ} {older newer : List (Step I κ σ)} (he : e :: newer <:+ r.past)
    (hd : d :: older <:+ e :: newer) : R d.before e.after := by
  induction newer generalizing e with
  | nil =>
      have heq : d = e := by
        rcases List.suffix_cons_iff.mp hd with heq | hnil
        · exact (List.cons.inj heq).1
        · exact absurd (List.eq_nil_of_suffix_nil hnil) (List.cons_ne_nil _ _)
      exact heq ▸ hstep e [] he
  | cons e' newer ih =>
      rcases List.suffix_cons_iff.mp hd with heq | hd
      · cases heq
        exact hstep _ _ he
      · have he' : e' :: newer <:+ r.past := (List.suffix_cons _ _).trans he
        have hstate : e.before = e'.after := (hr.at_step he).1.state_eq_after
        exact htrans _ _ _ (ih he' hd) (hstate ▸ hstep e _ he)

/-- What every step relates, the states before an earlier step and before a later one are
related by. -/
theorem Run.From.chain_before {S : System I σ ι} {s : σ} {r : Run I κ σ} (hr : Run.From S s r)
    {R : σ → σ → Prop} (htrans : ∀ s t u, R s t → R t u → R s u)
    (hstep : ∀ d older, d :: older <:+ r.past → R d.before d.after)
    {d e : Step I κ σ} {older newer : List (Step I κ σ)} (he : e :: newer <:+ r.past)
    (hd : d :: older <:+ newer) : R d.before e.before := by
  cases newer with
  | nil => exact absurd (List.eq_nil_of_suffix_nil hd) (List.cons_ne_nil _ _)
  | cons e' newer =>
      rw [(hr.at_step he).1.state_eq_after]
      exact hr.chain htrans hstep ((List.suffix_cons _ _).trans he) hd

/-- What holds after a step, and is kept by every step, holds before every later step. -/
theorem Run.From.since {S : System I σ ι} {s : σ} {r : Run I κ σ} (hr : Run.From S s r)
    {P : σ → Prop} (hstep : ∀ d older, d :: older <:+ r.past → P d.before → P d.after)
    {d e : Step I κ σ} {older newer : List (Step I κ σ)} (he : e :: newer <:+ r.past)
    (hd : d :: older <:+ newer) (h : P d.after) : P e.before := by
  induction newer generalizing e with
  | nil => exact absurd (List.eq_nil_of_suffix_nil hd) (List.cons_ne_nil _ _)
  | cons e' newer ih =>
      have he' : e' :: newer <:+ r.past := (List.suffix_cons _ _).trans he
      rw [(hr.at_step he).1.state_eq_after]
      rcases List.suffix_cons_iff.mp hd with heq | hd
      · cases heq
        exact h
      · exact hstep e' newer he' (ih he' hd)

theorem Procedure.exec_from {S : System I σ ι} {s : σ} (c : κ) (p : Procedure I ε α)
    (is : List ι) {r : Run I κ σ} (hr : Run.From S s r) : Run.From S s (p.exec S c is r).2 := by
  induction p generalizing r is with
  | pure a => exact hr
  | raise e => exact hr
  | call o next ih =>
      cases is with
      | nil => exact hr
      | cons i is => exact ih _ is (hr.perform c o i)

theorem session_from {S : System I σ ι} {s : σ} (body : κ → Procedure I ε α)
    (calls : List (κ × List ι)) {r : Run I κ σ} (hr : Run.From S s r) :
    Run.From S s (session S body calls r) := by
  induction calls generalizing r with
  | nil => exact hr
  | cons call rest ih => exact ih (Procedure.exec_from _ _ _ hr)

/-! ## The results a procedure can have -/

/-- For some answers, `p` returns `a`. -/
def Procedure.Returns : Procedure I ε α → α → Prop
  | .pure a', a => a' = a
  | .raise _, _ => False
  | .call _ next, a => ∃ answer, (next answer).Returns a

/-- For some answers, `p` raises `e`. -/
def Procedure.Raises : Procedure I ε α → ε → Prop
  | .pure _, _ => False
  | .raise e', e => e' = e
  | .call _ next, e => ∃ answer, (next answer).Raises e

/-- The value that a finished procedure has returned. -/
def Procedure.result? : Procedure I ε α → Option α
  | .pure a => some a
  | _ => none

namespace Procedure

@[simp] theorem returns_pure {a a' : α} : (.pure a' : Procedure I ε α).Returns a ↔ a' = a :=
  Iff.rfl

@[simp] theorem returns_raise {e : ε} {a : α} : ¬ (.raise e : Procedure I ε α).Returns a := id

theorem returns_bind {p : Procedure I ε α} {f : α → Procedure I ε β} {b : β} :
    (p >>= f).Returns b ↔ ∃ a, p.Returns a ∧ (f a).Returns b := by
  induction p with
  | pure a => simp
  | raise e => simp
  | call o next ih =>
      constructor
      · rintro ⟨answer, h⟩
        obtain ⟨a, ha, hb⟩ := (ih answer).mp h
        exact ⟨a, ⟨answer, ha⟩, hb⟩
      · rintro ⟨a, ⟨answer, ha⟩, hb⟩
        exact ⟨answer, (ih answer).mpr ⟨a, ha, hb⟩⟩

theorem returns_ofExcept {res : Except ε α} {a : α} :
    (ofExcept res : Procedure I ε α).Returns a ↔ res = .ok a := by
  cases res with
  | ok a' => simp [ofExcept]
  | error e => simp [ofExcept]

@[simp] theorem raises_pure {a : α} {e : ε} : ¬ (.pure a : Procedure I ε α).Raises e := id

@[simp] theorem raises_raise {e e' : ε} : (.raise e' : Procedure I ε α).Raises e ↔ e' = e :=
  Iff.rfl

theorem raises_bind {p : Procedure I ε α} {f : α → Procedure I ε β} {e : ε} :
    (p >>= f).Raises e ↔ p.Raises e ∨ ∃ a, p.Returns a ∧ (f a).Raises e := by
  induction p with
  | pure a => simp
  | raise e' => simp
  | call o next ih =>
      constructor
      · rintro ⟨answer, h⟩
        rcases (ih answer).mp h with hp | ⟨a, ha, hf⟩
        · exact Or.inl ⟨answer, hp⟩
        · exact Or.inr ⟨a, ⟨answer, ha⟩, hf⟩
      · rintro (⟨answer, hp⟩ | ⟨a, ⟨answer, ha⟩, hf⟩)
        · exact ⟨answer, (ih answer).mpr (Or.inl hp)⟩
        · exact ⟨answer, (ih answer).mpr (Or.inr ⟨a, ha, hf⟩)⟩

theorem raises_tryCatch {p : Procedure I ε α} {handler : ε → Procedure I ε' α} {e : ε'} :
    (p.tryCatch handler).Raises e ↔ ∃ e', p.Raises e' ∧ (handler e').Raises e := by
  induction p with
  | pure a => simp [tryCatch]
  | raise e' => simp [tryCatch]
  | call o next ih =>
      constructor
      · rintro ⟨answer, h⟩
        obtain ⟨e', hp, hh⟩ := (ih answer).mp h
        exact ⟨e', ⟨answer, hp⟩, hh⟩
      · rintro ⟨e', ⟨answer, hp⟩, hh⟩
        exact ⟨answer, (ih answer).mpr ⟨e', hp, hh⟩⟩

theorem returns_tryCatch {p : Procedure I ε α} {handler : ε → Procedure I ε' α} {a : α} :
    (p.tryCatch handler).Returns a ↔ p.Returns a ∨ ∃ e, p.Raises e ∧ (handler e).Returns a := by
  induction p with
  | pure a' => simp [tryCatch]
  | raise e => simp [tryCatch]
  | call o next ih =>
      constructor
      · rintro ⟨answer, h⟩
        rcases (ih answer).mp h with hp | ⟨e, hp, hh⟩
        · exact Or.inl ⟨answer, hp⟩
        · exact Or.inr ⟨e, ⟨answer, hp⟩, hh⟩
      · rintro (⟨answer, hp⟩ | ⟨e, ⟨answer, hp⟩, hh⟩)
        · exact ⟨answer, (ih answer).mpr (Or.inl hp)⟩
        · exact ⟨answer, (ih answer).mpr (Or.inr ⟨e, hp, hh⟩)⟩

theorem returns_mapError {p : Procedure I ε α} {f : ε → ε'} {a : α} :
    (p.mapError f).Returns a ↔ p.Returns a := by
  rw [mapError, returns_tryCatch]
  simp

theorem raises_mapError {p : Procedure I ε α} {f : ε → ε'} {e : ε'} :
    (p.mapError f).Raises e ↔ ∃ e', p.Raises e' ∧ f e' = e := raises_tryCatch

/-- Every error that `p` can raise is admitted. -/
def RaisesOnly (admitted : ε → Prop) (p : Procedure I ε α) : Prop := ∀ e, p.Raises e → admitted e

theorem raisesOnly_pure {admitted : ε → Prop} (a : α) :
    (.pure a : Procedure I ε α).RaisesOnly admitted := fun _ h => h.elim

theorem raisesOnly_raise {admitted : ε → Prop} {e : ε} (h : admitted e) :
    (.raise e : Procedure I ε α).RaisesOnly admitted := by
  rintro _ rfl
  exact h

theorem RaisesOnly.bind {admitted : ε → Prop} {p : Procedure I ε α} {f : α → Procedure I ε β}
    (hp : p.RaisesOnly admitted) (hf : ∀ a, (f a).RaisesOnly admitted) :
    (p >>= f).RaisesOnly admitted := by
  intro e he
  rcases raises_bind.mp he with he | ⟨a, -, he⟩
  · exact hp e he
  · exact hf a e he

/-- What an execution returns is a possible result. -/
theorem returns_of_exec {S : System I σ ι} {c : κ} {p : Procedure I ε α} {is : List ι}
    {r : Run I κ σ} {a : α} (h : (p.exec S c is r).1.result? = some a) : p.Returns a := by
  induction p generalizing is r with
  | pure a' => exact Option.some.inj h
  | raise e => cases h
  | call o next ih =>
      cases is with
      | nil => cases h
      | cons i is => exact ⟨_, ih _ h⟩

end Procedure

/-! ## A procedure as one unit -/

/-- Go on with `k` unless `m` fails. -/
def followedBy (m : σ → Except ε α × σ) (k : α → σ → Except ε β × σ) (s : σ) : Except ε β × σ :=
  match m s with
  | (.ok a, s') => k a s'
  | (.error e, s') => (.error e, s')

theorem followedBy_ok {m : σ → Except ε α × σ} {k : α → σ → Except ε β × σ} {s s' : σ} {a : α}
    (h : m s = (.ok a, s')) : followedBy m k s = k a s' := by
  rw [followedBy, h]

theorem followedBy_error {m : σ → Except ε α × σ} {k : α → σ → Except ε β × σ} {s s' : σ} {e : ε}
    (h : m s = (.error e, s')) : followedBy m k s = (.error e, s') := by
  rw [followedBy, h]

/-- With the input `i` for each of its operations, `p` does by itself what `m` does in one go. -/
def Procedure.Implements (S : System I σ ι) (c : κ) (i : ι) (p : Procedure I ε α)
    (m : σ → Except ε α × σ) : Prop :=
  ∀ r : Run I κ σ, ((p.run S c (fun _ => i) r).1, (p.run S c (fun _ => i) r).2.state) = m r.state

namespace Procedure

variable {S : System I σ ι} {c : κ} {i : ι}

theorem implements_pure (a : α) :
    (.pure a : Procedure I ε α).Implements S c i fun s => (.ok a, s) := fun _ => rfl

theorem implements_raise (e : ε) :
    (.raise e : Procedure I ε α).Implements S c i fun s => (.error e, s) := fun _ => rfl

theorem implements_perform (o : I.Op) : (perform o : Procedure I ε (I.Ans o)).Implements S c i
    fun s => (.ok (S.answer o i s).1, (S.answer o i s).2) := fun _ => rfl

theorem implements_ofExcept (res : Except ε α) :
    (ofExcept res : Procedure I ε α).Implements S c i fun s => (res, s) := by
  intro r
  cases res <;> rfl

theorem Implements.bind {p : Procedure I ε α} {f : α → Procedure I ε β}
    {m : σ → Except ε α × σ} {k : α → σ → Except ε β × σ} (hp : p.Implements S c i m)
    (hf : ∀ a, (f a).Implements S c i (k a)) : (p >>= f).Implements S c i (followedBy m k) := by
  -- the state that `p` leaves is the one its continuation starts from
  have hrun : ∀ (p : Procedure I ε α) (r : Run I κ σ),
      (((p >>= f).run S c (fun _ => i) r).1, ((p >>= f).run S c (fun _ => i) r).2.state) =
        followedBy (fun _ => ((p.run S c (fun _ => i) r).1, (p.run S c (fun _ => i) r).2.state)) k
          r.state := by
    intro p
    induction p with
    | pure a => exact hf a
    | raise e => exact fun r => rfl
    | call o next ih => exact fun r => ih _ (r.perform S c o i)
  intro r
  rw [hrun p r, followedBy, hp r]
  rfl

end Procedure

/-! ## The operations a procedure can perform -/

/-- Whatever the answers, `p` performs operations from `allowed` only. -/
def Procedure.Uses (allowed : I.Op → Prop) : Procedure I ε α → Prop
  | .pure _ => True
  | .raise _ => True
  | .call o next => allowed o ∧ ∀ a, (next a).Uses allowed

namespace Procedure

variable {allowed : I.Op → Prop}

@[simp] theorem uses_pure {a : α} : (.pure a : Procedure I ε α).Uses allowed := trivial

@[simp] theorem uses_raise {e : ε} : (.raise e : Procedure I ε α).Uses allowed := trivial

@[simp] theorem uses_call {o : I.Op} {next : I.Ans o → Procedure I ε α} :
    (.call o next : Procedure I ε α).Uses allowed ↔ allowed o ∧ ∀ a, (next a).Uses allowed :=
  Iff.rfl

theorem Uses.bind {p : Procedure I ε α} {f : α → Procedure I ε β} (hp : p.Uses allowed)
    (hf : ∀ a, (f a).Uses allowed) : (p >>= f).Uses allowed := by
  induction p with
  | pure a => exact hf a
  | raise e => trivial
  | call o next ih => exact ⟨hp.1, fun a => ih a (hp.2 a)⟩

theorem Uses.tryCatch {p : Procedure I ε α} {handler : ε → Procedure I ε' α}
    (hp : p.Uses allowed) (hh : ∀ e, (handler e).Uses allowed) :
    (p.tryCatch handler).Uses allowed := by
  induction p with
  | pure a => trivial
  | raise e => exact hh e
  | call o next ih => exact ⟨hp.1, fun a => ih a (hp.2 a)⟩

/-- The handler only has to be about what can be raised. -/
theorem Uses.tryCatch_raises {p : Procedure I ε α} {handler : ε → Procedure I ε' α}
    (hp : p.Uses allowed) (hh : ∀ e, p.Raises e → (handler e).Uses allowed) :
    (p.tryCatch handler).Uses allowed := by
  induction p with
  | pure a => trivial
  | raise e => exact hh e rfl
  | call o next ih => exact ⟨hp.1, fun a => ih a (hp.2 a) fun e he => hh e ⟨a, he⟩⟩

/-- The continuation only has to be about what can be returned. -/
theorem Uses.bind_returns {p : Procedure I ε α} {f : α → Procedure I ε β} (hp : p.Uses allowed)
    (hf : ∀ a, p.Returns a → (f a).Uses allowed) : (p >>= f).Uses allowed := by
  induction p with
  | pure a => exact hf a rfl
  | raise e => trivial
  | call o next ih => exact ⟨hp.1, fun a => ih a (hp.2 a) fun b hb => hf b ⟨a, hb⟩⟩

theorem Uses.mono {allowed' : I.Op → Prop} {p : Procedure I ε α} (hp : p.Uses allowed)
    (h : ∀ o, allowed o → allowed' o) : p.Uses allowed' := by
  induction p with
  | pure a => trivial
  | raise e => trivial
  | call o next ih => exact ⟨h o hp.1, fun a => ih a (hp.2 a)⟩

end Procedure

/-! ## The invariant logic of sequential runs -/

/-- `inv` holds after every operation of `p` run by `c` from `r`, and `post` of its
result. -/
def Procedure.Keeps (S : System I σ ι) (c : κ) (inv : Run I κ σ → Prop)
    (post : Except ε α → Run I κ σ → Prop) : Procedure I ε α → Run I κ σ → Prop
  | .pure a, r => post (.ok a) r
  | .raise e, r => post (.error e) r
  | .call o next, r => ∀ i, inv (r.perform S c o i) ∧
      (next (S.answer o i r.state).1).Keeps S c inv post (r.perform S c o i)

namespace Procedure

variable {S : System I σ ι} {c : κ} {inv : Run I κ σ → Prop}

@[simp] theorem keeps_pure {post : Except ε α → Run I κ σ → Prop} {a : α} {r : Run I κ σ} :
    (.pure a : Procedure I ε α).Keeps S c inv post r ↔ post (.ok a) r := Iff.rfl

@[simp] theorem keeps_raise {post : Except ε α → Run I κ σ → Prop} {e : ε} {r : Run I κ σ} :
    (.raise e : Procedure I ε α).Keeps S c inv post r ↔ post (.error e) r := Iff.rfl

theorem keeps_call {post : Except ε α → Run I κ σ → Prop} {o : I.Op}
    {next : I.Ans o → Procedure I ε α} {r : Run I κ σ} :
    (.call o next : Procedure I ε α).Keeps S c inv post r ↔
      ∀ i, inv (r.perform S c o i) ∧
        (next (S.answer o i r.state).1).Keeps S c inv post (r.perform S c o i) := Iff.rfl

/-- The postcondition that continues with `f` after a normal return. -/
def andThen (S : System I σ ι) (c : κ) (inv : Run I κ σ → Prop)
    (post : Except ε β → Run I κ σ → Prop) (f : α → Procedure I ε β) :
    Except ε α → Run I κ σ → Prop
  | .ok a, r => (f a).Keeps S c inv post r
  | .error e, r => post (.error e) r

/-- The postcondition that continues with `handler` after an error. -/
def orElse (S : System I σ ι) (c : κ) (inv : Run I κ σ → Prop)
    (post : Except ε' α → Run I κ σ → Prop) (handler : ε → Procedure I ε' α) :
    Except ε α → Run I κ σ → Prop
  | .ok a, r => post (.ok a) r
  | .error e, r => (handler e).Keeps S c inv post r

theorem keeps_bind {post : Except ε β → Run I κ σ → Prop} {p : Procedure I ε α}
    {f : α → Procedure I ε β} {r : Run I κ σ} :
    (p >>= f).Keeps S c inv post r ↔ p.Keeps S c inv (andThen S c inv post f) r := by
  induction p generalizing r with
  | pure a => exact Iff.rfl
  | raise e => exact Iff.rfl
  | call o next ih =>
      rw [call_bind, keeps_call, keeps_call]
      exact forall_congr' fun i => and_congr_right fun _ => ih _

theorem keeps_tryCatch {post : Except ε' α → Run I κ σ → Prop} {p : Procedure I ε α}
    {handler : ε → Procedure I ε' α} {r : Run I κ σ} :
    (p.tryCatch handler).Keeps S c inv post r ↔
      p.Keeps S c inv (orElse S c inv post handler) r := by
  induction p generalizing r with
  | pure a => exact Iff.rfl
  | raise e => exact Iff.rfl
  | call o next ih =>
      rw [tryCatch, keeps_call, keeps_call]
      exact forall_congr' fun i => and_congr_right fun _ => ih _

/-- The postcondition may be weakened, with the invariant at hand. -/
theorem Keeps.imp {post post' : Except ε α → Run I κ σ → Prop} {p : Procedure I ε α}
    {r : Run I κ σ} (h : p.Keeps S c inv post r) (hinv : inv r)
    (himp : ∀ res r, inv r → post res r → post' res r) : p.Keeps S c inv post' r := by
  induction p generalizing r with
  | pure a => exact himp _ _ hinv h
  | raise e => exact himp _ _ hinv h
  | call o next ih => exact fun i => ⟨(h i).1, ih _ (h i).2 (h i).1⟩

/-- Two postconditions at once. -/
theorem Keeps.and {post post' : Except ε α → Run I κ σ → Prop} {p : Procedure I ε α}
    {r : Run I κ σ} (h : p.Keeps S c inv post r) (h' : p.Keeps S c inv post' r) :
    p.Keeps S c inv (fun res r => post res r ∧ post' res r) r := by
  induction p generalizing r with
  | pure a => exact ⟨h, h'⟩
  | raise e => exact ⟨h, h'⟩
  | call o next ih => exact fun i => ⟨(h i).1, ih _ (h i).2 (h' i).2⟩

/-- A part whose errors are translated, with what follows it. -/
theorem keeps_mapError_bind {post : Except ε' β → Run I κ σ → Prop} {p : Procedure I ε α}
    {f : α → Procedure I ε' β} {translate : ε → ε'} {r : Run I κ σ}
    (hp : p.Keeps S c inv (fun res r => (∀ a, res = .ok a → (f a).Keeps S c inv post r) ∧
      ∀ e, res = .error e → post (.error (translate e)) r) r) (hinv : inv r) :
    (p.mapError translate >>= f).Keeps S c inv post r := by
  refine keeps_bind.mpr (keeps_tryCatch.mpr (hp.imp hinv ?_))
  rintro (e | a) r - ⟨hok, herror⟩
  · exact herror e rfl
  · exact hok a rfl

/-- The invariant may be weakened. -/
theorem Keeps.weaken {inv' : Run I κ σ → Prop} {post : Except ε α → Run I κ σ → Prop}
    {p : Procedure I ε α} {r : Run I κ σ} (h : p.Keeps S c inv post r)
    (himp : ∀ r, inv r → inv' r) : p.Keeps S c inv' post r := by
  induction p generalizing r with
  | pure a => exact h
  | raise e => exact h
  | call o next ih => exact fun i => ⟨himp _ (h i).1, ih _ (h i).2⟩

/-- Executing a procedure that keeps `inv` ends in `inv`, wherever it stops. -/
theorem Keeps.exec {post : Except ε α → Run I κ σ → Prop} {p : Procedure I ε α}
    {r : Run I κ σ} (h : p.Keeps S c inv post r) (hinv : inv r) (is : List ι) :
    inv (p.exec S c is r).2 := by
  induction p generalizing r is with
  | pure a => exact hinv
  | raise e => exact hinv
  | call o next ih =>
      cases is with
      | nil => exact hinv
      | cons i is => exact ih _ (h i).2 (h i).1 is

/-- At the end of a procedure that keeps `inv`, its postcondition holds. -/
theorem Keeps.run {post : Except ε α → Run I κ σ → Prop} {p : Procedure I ε α} {r : Run I κ σ}
    (h : p.Keeps S c inv post r) (inputs : ℕ → ι) :
    post (p.run S c inputs r).1 (p.run S c inputs r).2 := by
  induction p generalizing r inputs with
  | pure a => exact h
  | raise e => exact h
  | call o next ih => exact ih _ (h (inputs 0)).2 _

/-- What every allowed operation keeps is kept by the whole procedure. -/
theorem Uses.keeps {allowed : I.Op → Prop} {p : Procedure I ε α} (hp : p.Uses allowed)
    (hstep : ∀ r o i, allowed o → inv r → inv (r.perform S c o i)) {r : Run I κ σ}
    (hinv : inv r) : p.Keeps S c inv (fun _ r => inv r) r := by
  induction p generalizing r with
  | pure a => exact hinv
  | raise e => exact hinv
  | call o next ih =>
      exact fun i => ⟨hstep r o i hp.1 hinv, ih _ (hp.2 _) (hstep r o i hp.1 hinv)⟩

end Procedure

/-- An invariant that every caller's procedure keeps holds after every session. -/
theorem session_invariant {S : System I σ ι} {body : κ → Procedure I ε α}
    {inv : Run I κ σ → Prop}
    (hbody : ∀ c r, inv r → (body c).Keeps S c inv (fun _ _ => True) r)
    (calls : List (κ × List ι)) {r : Run I κ σ} (hinv : inv r) :
    inv (session S body calls r) := by
  induction calls generalizing r with
  | nil => exact hinv
  | cons call rest ih => exact ih ((hbody call.1 r hinv).exec hinv call.2)

end Runs

end Proc
