/-
  Threads that keep something for themselves: the programs they run on their own storage, and many
  of them side by side.

  1. **Programs** (`Program`) — what a thread does, operation by operation, and how it ends: with a
     value or with an exception.  `do`, `throw` and `try … catch` are those of the language.
  2. **Rules** (`Triple`) — what holds before a program, after its normal end and when an exception
     leaves it; and an invariant that holds BETWEEN any two operations, for that is where the other
     threads run.  One rule for each way to build a program.
  3. **Comparison** (`Agrees`) — two programs that look the same from outside, with one rule for
     each way to build a program.
  4. **Threads side by side** (`System`) — any thread may do its next operation.  If what a thread
     does changes its own storage and leaves the others' alone (`IsLocal`), the invariant that each
     program keeps alone holds throughout every interleaving (`throughout_of_allAlong`).
  5. **`ThreadSpecificPtr`** — a pointer with a value of its own for each thread.
-/
import ThreadServer.Lib.Transition
import Mathlib.Logic.Function.Basic

namespace ThreadLocal

variable {ω σ ε α β : Type}

/-! ## Programs -/

/-- A program of one thread: from what the thread has done before, in order, how the program ends
    and what the thread has done then. -/
def Program (ω ε α : Type) := ExceptT ε (StateM (List ω)) α

namespace Program

instance : Monad (Program ω ε) := inferInstanceAs (Monad (ExceptT ε (StateM (List ω))))

instance : MonadExceptOf ε (Program ω ε) :=
  inferInstanceAs (MonadExceptOf ε (ExceptT ε (StateM (List ω))))

def run (p : Program ω ε α) (done : List ω) : Except ε α × List ω := p done

/-- Do one operation. -/
def perform (op : ω) : Program ω ε Unit := fun done => (.ok (), done ++ [op])

/-- What the thread has done up to here. -/
def history : Program ω ε (List ω) := fun done => (.ok done, done)

@[simp] theorem run_pure (a : α) (done : List ω) :
    (pure a : Program ω ε α).run done = (.ok a, done) := rfl

@[simp] theorem run_throw (e : ε) (done : List ω) :
    (throw e : Program ω ε α).run done = (.error e, done) := rfl

@[simp] theorem run_perform (op : ω) (done : List ω) :
    (perform op : Program ω ε Unit).run done = (.ok (), done ++ [op]) := rfl

@[simp] theorem run_history (done : List ω) :
    (history : Program ω ε (List ω)).run done = (.ok done, done) := rfl

@[simp] theorem run_ofExcept (outcome : Except ε α) (done : List ω) :
    (ofExcept outcome : Program ω ε α).run done = (outcome, done) := by
  cases outcome <;> rfl

@[simp] theorem run_bind (p : Program ω ε α) (f : α → Program ω ε β) (done : List ω) :
    (p >>= f).run done =
      match p.run done with
      | (.ok a, done) => (f a).run done
      | (.error e, done) => (.error e, done) := by
  show (match p.run done with | (outcome, done) => ExceptT.bindCont f outcome done) = _
  obtain ⟨outcome, after⟩ := p.run done
  cases outcome <;> rfl

@[simp] theorem run_tryCatch (p : Program ω ε α) (h : ε → Program ω ε α) (done : List ω) :
    (tryCatch p h).run done =
      match p.run done with
      | (.ok a, done) => (.ok a, done)
      | (.error e, done) => (h e).run done := by
  show (match p.run done with
    | (outcome, done) => (match outcome with
      | .ok a => pure (.ok a)
      | .error e => h e : StateM (List ω) (Except ε α)) done) = _
  obtain ⟨outcome, after⟩ := p.run done
  cases outcome <;> rfl

end Program

/-! ## Rules -/

variable (act : ω → σ → σ) (Inv : σ → Prop)

/-- The storage after these operations. -/
def after : σ → List ω → σ
  | s, [] => s
  | s, op :: ops => after (act op s) ops

/-- The invariant holds before, between and after these operations. -/
def AllAlong : σ → List ω → Prop
  | s, [] => Inv s
  | s, op :: ops => Inv s ∧ AllAlong (act op s) ops

/-- One run of a program, from the storage `s`: it keeps the invariant at each of its operations,
    and ends with `result` where it returns, with `thrown` where it throws. -/
def Ends (result : α → σ → Prop) (thrown : ε → σ → Prop) (done : List ω) (s : σ)
    (run : Except ε α × List ω) : Prop :=
  ∃ ops, run.2 = done ++ ops ∧ AllAlong act Inv s ops ∧
    match run.1 with
    | .ok a => result a (after act s ops)
    | .error e => thrown e (after act s ops)

/-- **What a program does**, from any storage with `before`. -/
def Triple (before : σ → Prop) (p : Program ω ε α) (result : α → σ → Prop)
    (thrown : ε → σ → Prop) : Prop :=
  ∀ done s, Inv s → before s → Ends act Inv result thrown done s (p.run done)

/-- A program that returns and throws with what it started with. -/
abbrev Keeps (A : σ → Prop) (p : Program ω ε α) : Prop :=
  Triple act Inv A p (fun _ => A) (fun _ => A)

variable {act Inv}

@[simp] theorem after_append (s : σ) (ops ops' : List ω) :
    after act s (ops ++ ops') = after act (after act s ops) ops' := by
  induction ops generalizing s with
  | nil => rfl
  | cons op ops ih => exact ih (act op s)

theorem AllAlong.head {s : σ} {ops : List ω} (h : AllAlong act Inv s ops) : Inv s := by
  cases ops with
  | nil => exact h
  | cons op ops => exact h.1

theorem AllAlong.last {s : σ} {ops : List ω} (h : AllAlong act Inv s ops) :
    Inv (after act s ops) := by
  induction ops generalizing s with
  | nil => exact h
  | cons op ops ih => exact ih h.2

theorem AllAlong.append {s : σ} {ops ops' : List ω} (h : AllAlong act Inv s ops)
    (h' : AllAlong act Inv (after act s ops) ops') : AllAlong act Inv s (ops ++ ops') := by
  induction ops generalizing s with
  | nil => exact h'
  | cons op ops ih => exact ⟨h.1, ih h.2 h'⟩

/-- A run goes on where another one has ended. -/
theorem Ends.after_ops {result : α → σ → Prop} {thrown : ε → σ → Prop} {done ops : List ω} {s : σ}
    {run : Except ε α × List ω} (hall : AllAlong act Inv s ops)
    (h : Ends act Inv result thrown (done ++ ops) (after act s ops) run) :
    Ends act Inv result thrown done s run := by
  obtain ⟨ops', hdone, hall', hend⟩ := h
  refine ⟨ops ++ ops', ?_, hall.append hall', ?_⟩
  · rw [hdone, List.append_assoc]
  · rw [after_append]
    exact hend

namespace Triple

variable {before : σ → Prop} {p : Program ω ε α} {result : α → σ → Prop}
  {thrown thrown' : ε → σ → Prop}

theorem pure {a : α} (h : ∀ s, before s → result a s) :
    Triple act Inv before (Pure.pure a : Program ω ε α) result thrown :=
  fun done s hs hstart => ⟨[], (List.append_nil done).symm, hs, h s hstart⟩

theorem throw {e : ε} (h : ∀ s, before s → thrown e s) :
    Triple act Inv before (MonadExcept.throw e : Program ω ε α) result thrown :=
  fun done s hs hstart => ⟨[], (List.append_nil done).symm, hs, h s hstart⟩

theorem ofExcept {outcome : Except ε α} (hok : ∀ a s, before s → result a s)
    (herror : ∀ e s, before s → thrown e s) :
    Triple act Inv before (MonadExcept.ofExcept outcome : Program ω ε α) result thrown := by
  cases outcome with
  | ok a => exact pure (hok a)
  | error e => exact throw (herror e)

/-- Looking back changes nothing. -/
theorem history {thrown : ε → σ → Prop} :
    Triple act Inv before (Program.history : Program ω ε (List ω)) (fun _ => before) thrown :=
  fun done _ hs hstart => ⟨[], (List.append_nil done).symm, hs, hstart⟩

/-- An operation: the invariant has to hold behind it. -/
theorem perform {op : ω} {result : Unit → σ → Prop} {thrown : ε → σ → Prop}
    (hinv : ∀ s, Inv s → before s → Inv (act op s)) (h : ∀ s, before s → result () (act op s)) :
    Triple act Inv before (Program.perform op) result thrown :=
  fun _ s hs hstart => ⟨[op], rfl, ⟨hs, hinv s hs hstart⟩, h s hstart⟩

/-- One program after the other. -/
theorem bind {f : α → Program ω ε β} {middle : α → σ → Prop} {result : β → σ → Prop}
    (hp : Triple act Inv before p middle thrown)
    (hf : ∀ a, Triple act Inv (middle a) (f a) result thrown) :
    Triple act Inv before (p >>= f) result thrown := by
  intro done s hs hstart
  obtain ⟨ops, hdone, hall, hend⟩ := hp done s hs hstart
  rw [Program.run_bind]
  generalize p.run done = run at hdone hend ⊢
  obtain ⟨outcome, done'⟩ := run
  obtain rfl : done' = done ++ ops := hdone
  cases outcome with
  | error e => exact ⟨ops, rfl, hall, hend⟩
  | ok a => exact (hf a (done ++ ops) _ hall.last hend).after_ops hall

/-- A `try` block: its handler starts where the exception was thrown. -/
theorem tryCatch {handler : ε → Program ω ε α} (hp : Triple act Inv before p result thrown)
    (hhandler : ∀ e, Triple act Inv (thrown e) (handler e) result thrown') :
    Triple act Inv before (MonadExcept.tryCatch p handler) result thrown' := by
  intro done s hs hstart
  obtain ⟨ops, hdone, hall, hend⟩ := hp done s hs hstart
  rw [Program.run_tryCatch]
  generalize p.run done = run at hdone hend ⊢
  obtain ⟨outcome, done'⟩ := run
  obtain rfl : done' = done ++ ops := hdone
  cases outcome with
  | ok a => exact ⟨ops, rfl, hall, hend⟩
  | error e => exact (hhandler e (done ++ ops) _ hall.last hend).after_ops hall

end Triple

/-! ## Programs that look the same -/

section Agrees

variable {ω' ε' τ α' β' : Type}

/-- Two ends of programs: values related by `R`, or exceptions that are the same up to `f`. -/
inductive SameEnd (f : ε → ε') (R : α → α' → Prop) : Except ε α → Except ε' α' → Prop
  | ok {a : α} {a' : α'} : R a a' → SameEnd f R (.ok a) (.ok a')
  | error (e : ε) : SameEnd f R (.error e) (.error (f e))

variable (look : List ω → τ) (look' : List ω' → τ) (f : ε → ε')

/-- **Two programs look the same**: from histories that look the same they come to the same end,
    with histories that look the same. -/
def Agrees (R : α → α' → Prop) (p : Program ω ε α) (q : Program ω' ε' α') : Prop :=
  ∀ done done', look done = look' done' →
    SameEnd f R (p.run done).1 (q.run done').1 ∧ look (p.run done).2 = look' (q.run done').2

variable {look look' f}

namespace Agrees

variable {R : α → α' → Prop} {p : Program ω ε α} {q : Program ω' ε' α'}

theorem pure {a : α} {a' : α'} (h : R a a') :
    Agrees look look' f R (Pure.pure a) (Pure.pure a') :=
  fun _ _ hlook => ⟨.ok h, hlook⟩

theorem throw (e : ε) :
    Agrees look look' f R (MonadExcept.throw e : Program ω ε α) (MonadExcept.throw (f e)) :=
  fun _ _ hlook => ⟨.error e, hlook⟩

/-- Less may be asked of the values. -/
theorem mono {S : α → α' → Prop} (h : ∀ a a', R a a' → S a a') (hp : Agrees look look' f R p q) :
    Agrees look look' f S p q := by
  intro done done' hlook
  obtain ⟨hend, hafter⟩ := hp done done' hlook
  refine ⟨?_, hafter⟩
  generalize (p.run done).1 = outcome at hend ⊢
  generalize (q.run done').1 = outcome' at hend ⊢
  cases hend with
  | ok hR => exact .ok (h _ _ hR)
  | error e => exact .error e

/-- An operation on both sides. -/
theorem perform {op : ω} {op' : ω'}
    (h : ∀ done done', look done = look' done' → look (done ++ [op]) = look' (done' ++ [op'])) :
    Agrees look look' f (fun _ _ => True) (Program.perform op) (Program.perform op') :=
  fun done done' hlook => ⟨.ok trivial, h done done' hlook⟩

/-- One program after the other. -/
theorem bind {S : β → β' → Prop} {g : α → Program ω ε β} {g' : α' → Program ω' ε' β'}
    (hp : Agrees look look' f R p q) (hg : ∀ a a', R a a' → Agrees look look' f S (g a) (g' a')) :
    Agrees look look' f S (p >>= g) (q >>= g') := by
  intro done done' hlook
  obtain ⟨hend, hafter⟩ := hp done done' hlook
  rw [Program.run_bind, Program.run_bind]
  generalize p.run done = run at hend hafter ⊢
  generalize q.run done' = run' at hend hafter ⊢
  obtain ⟨outcome, done⟩ := run
  obtain ⟨outcome', done'⟩ := run'
  cases hend with
  | ok h => exact hg _ _ h done done' hafter
  | error e => exact ⟨.error e, hafter⟩

/-- A `try` block. -/
theorem tryCatch {h : ε → Program ω ε α} {h' : ε' → Program ω' ε' α'}
    (hp : Agrees look look' f R p q) (hh : ∀ e, Agrees look look' f R (h e) (h' (f e))) :
    Agrees look look' f R (MonadExcept.tryCatch p h) (MonadExcept.tryCatch q h') := by
  intro done done' hlook
  obtain ⟨hend, hafter⟩ := hp done done' hlook
  rw [Program.run_tryCatch, Program.run_tryCatch]
  generalize p.run done = run at hend hafter ⊢
  generalize q.run done' = run' at hend hafter ⊢
  obtain ⟨outcome, done⟩ := run
  obtain ⟨outcome', done'⟩ := run'
  cases hend with
  | ok h => exact ⟨.ok h, hafter⟩
  | error e => exact hh e done done' hafter

/-- An operation on the left that is not seen. -/
theorem unseen_left {op : ω} (h : ∀ done, look (done ++ [op]) = look done)
    (hp : Agrees look look' f R p q) :
    Agrees look look' f R (Program.perform op >>= fun _ => p) q := by
  intro done done' hlook
  rw [Program.run_bind, Program.run_perform]
  exact hp (done ++ [op]) done' ((h done).trans hlook)

/-- An operation on the right that is not seen. -/
theorem unseen_right {op : ω'} (h : ∀ done, look' (done ++ [op]) = look' done)
    (hp : Agrees look look' f R p q) :
    Agrees look look' f R p (Program.perform op >>= fun _ => q) := by
  intro done done' hlook
  rw [Program.run_bind, Program.run_perform]
  exact hp done (done' ++ [op]) (hlook.trans (h done').symm)

/-- Going on only on the left, with nothing that can be seen. -/
theorem bind_left {S : β → α' → Prop} {g : α → Program ω ε β} (hp : Agrees look look' f R p q)
    (hg : ∀ a a', R a a' → Agrees look look' f S (g a) (Pure.pure a')) :
    Agrees look look' f S (p >>= g) q := by
  intro done done' hlook
  obtain ⟨hend, hafter⟩ := hp done done' hlook
  rw [Program.run_bind]
  generalize p.run done = run at hend hafter ⊢
  generalize q.run done' = run' at hend hafter ⊢
  obtain ⟨outcome, done⟩ := run
  obtain ⟨outcome', done'⟩ := run'
  cases hend with
  | ok h => exact hg _ _ h done done' hafter
  | error e => exact ⟨.error e, hafter⟩

/-- Going on only on the right, with nothing that can be seen. -/
theorem bind_right {S : α → β' → Prop} {g' : α' → Program ω' ε' β'}
    (hp : Agrees look look' f R p q)
    (hg : ∀ a a', R a a' → Agrees look look' f S (Pure.pure a) (g' a')) :
    Agrees look look' f S p (q >>= g') := by
  intro done done' hlook
  obtain ⟨hend, hafter⟩ := hp done done' hlook
  rw [Program.run_bind]
  generalize p.run done = run at hend hafter ⊢
  generalize q.run done' = run' at hend hafter ⊢
  obtain ⟨outcome, done⟩ := run
  obtain ⟨outcome', done'⟩ := run'
  cases hend with
  | ok h => exact hg _ _ h done done' hafter
  | error e => exact ⟨.error e, hafter⟩

end Agrees

end Agrees

/-! ## Threads side by side -/

/-- Threads on shared storage, each with what it has still to do. -/
structure System (ι ω γ : Type) where
  shared : γ
  rest : ι → List ω

variable {ι γ : Type} [DecidableEq ι] (perform : ι → ω → γ → γ)

/-- Thread `i` does its next operation. -/
def step (c : System ι ω γ) (i : ι) : Option (System ι ω γ) :=
  match c.rest i with
  | [] => none
  | op :: ops => some ⟨perform i op c.shared, Function.update c.rest i ops⟩

/-- **Storage of its own**: what a thread does changes its own part of the storage, by what it
    finds there, and no other thread's. -/
structure IsLocal (view : ι → γ → σ) (act : ω → σ → σ) : Prop where
  own (i : ι) (op : ω) (g : γ) : view i (perform i op g) = act op (view i g)
  other {i j : ι} (hne : j ≠ i) (op : ω) (g : γ) : view j (perform i op g) = view j g

variable {perform} {view : ι → γ → σ}

theorem step_eq_some_iff {c c' : System ι ω γ} {i : ι} :
    step perform c i = some c' ↔ ∃ op ops, c.rest i = op :: ops ∧
      c' = ⟨perform i op c.shared, Function.update c.rest i ops⟩ := by
  unfold step
  cases hrest : c.rest i with
  | nil => simp only [reduceCtorEq, false_and, exists_false]
  | cons op ops =>
    constructor
    · intro h
      exact ⟨op, ops, rfl, (Option.some.inj h).symm⟩
    · rintro ⟨op', ops', h, rfl⟩
      cases h
      rfl

/-- **Frame**: no thread's step is seen in another thread's storage. -/
theorem IsLocal.frame (h : IsLocal perform view act) {c c' : System ι ω γ} {i j : ι}
    (hstep : step perform c i = some c') (hne : j ≠ i) : view j c'.shared = view j c.shared := by
  obtain ⟨op, ops, -, rfl⟩ := step_eq_some_iff.mp hstep
  exact h.other hne op c.shared

/-- **The interleaving rule**: what each thread keeps when it runs alone, it keeps at every moment
    of every interleaving. -/
theorem throughout_of_allAlong (h : IsLocal perform view act) {c : System ι ω γ}
    (hall : ∀ i, AllAlong act Inv (view i c.shared) (c.rest i)) (schedule : List ι) :
    Transition.Throughout (step perform) (fun c => ∀ i, Inv (view i c.shared)) c schedule := by
  have hhead : ∀ c : System ι ω γ, (∀ i, AllAlong act Inv (view i c.shared) (c.rest i)) →
      ∀ i, Inv (view i c.shared) := by
    intro c hc i
    exact (hc i).head
  refine Transition.throughout_of_step hhead ?_ schedule hall
  intro c i c' hc hstep j
  obtain ⟨op, ops, hrest, rfl⟩ := step_eq_some_iff.mp hstep
  by_cases hj : j = i
  · -- The thread that moves has done the first of its operations.
    subst hj
    have hown := hc j
    rw [hrest] at hown
    show AllAlong act Inv (view j (perform j op c.shared)) (Function.update c.rest j ops j)
    rw [Function.update_self, h.own]
    exact hown.2
  · -- The others find their storage, and what they have still to do, as it was.
    show AllAlong act Inv (view j (perform i op c.shared)) (Function.update c.rest i ops j)
    rw [Function.update_of_ne hj, h.other hj]
    exact hc j

end ThreadLocal

/-! ## A pointer for each thread -/

/-- A pointer with a value of its own for each thread; `none` is null. -/
structure ThreadSpecificPtr (ι α : Type) where
  /-- What a thread finds in it. -/
  get : ι → Option α

namespace ThreadSpecificPtr

variable {ι α : Type}

/-- Null in every thread. -/
def null : ThreadSpecificPtr ι α := ⟨fun _ => none⟩

variable [DecidableEq ι]

/-- Thread `i` sets it. -/
def reset (p : ThreadSpecificPtr ι α) (i : ι) (value : Option α) : ThreadSpecificPtr ι α :=
  ⟨Function.update p.get i value⟩

/-- Thread `i` gives it up. -/
def release (p : ThreadSpecificPtr ι α) (i : ι) : ThreadSpecificPtr ι α := p.reset i none

@[simp] theorem get_reset_self (p : ThreadSpecificPtr ι α) (i : ι) (value : Option α) :
    (p.reset i value).get i = value := by
  show Function.update p.get i value i = value
  rw [Function.update_self]

@[simp] theorem get_release_self (p : ThreadSpecificPtr ι α) (i : ι) : (p.release i).get i = none :=
  get_reset_self p i none

theorem get_reset_of_ne (p : ThreadSpecificPtr ι α) {i j : ι} (hne : j ≠ i) (value : Option α) :
    (p.reset i value).get j = p.get j := by
  show Function.update p.get i value j = p.get j
  rw [Function.update_of_ne hne]

theorem get_release_of_ne (p : ThreadSpecificPtr ι α) {i j : ι} (hne : j ≠ i) :
    (p.release i).get j = p.get j :=
  get_reset_of_ne p hne none

end ThreadSpecificPtr
