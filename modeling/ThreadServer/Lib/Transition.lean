/-
  Labelled transition systems given by a partial step function `next : σ → α → Option σ`, and the
  two proof rules every run-level result below is assembled from.

  A run is a list of labels; a label that is not enabled stops it (`exec` gives `none`, and nothing
  is asked of what comes after).  Two things are said about a run:

  * `Throughout P s as` — every state it visits satisfies `P`;
  * `StepsMeet C s as`  — every step it takes meets the condition `C` in the state BEFORE the step.

  Rules:
  1. `throughout_of_stepsMeet` — what an invariant implies holds throughout a run whose steps meet
     `C`, if the steps that meet `C` keep the invariant;
  2. `throughout_iff_stepsMeet` — if moreover a step against `C` leaves `P` at once, the runs on
     which `P` holds throughout are EXACTLY the runs whose steps meet `C`;
  3. `last_iff_stepsMeet` — if `P` is never regained, the runs that END in `P` are;
  4. `Refines.exec` — a run of one system is a run of another one, seen through a view that each
     step of the first moves by at most one step of the other;
  5. `length_le_effort`, `exists_exec_to` — steps that cost effort can only be so many, and lead to
     the goal if one of them can be taken wherever the goal is not reached.

  Nothing here knows which system runs.
-/
import Mathlib.Logic.Basic
import Mathlib.Algebra.BigOperators.Group.Finset.Piecewise
import Mathlib.Data.List.Basic

namespace Transition

variable {σ α : Type*} (next : σ → α → Option σ)

/-- Run the labels `as` from `s`; `none` as soon as one of them is not enabled. -/
def exec : σ → List α → Option σ
  | s, [] => some s
  | s, a :: as => (next s a).bind fun s' => exec s' as

/-- Every state the run visits, its first one included, satisfies `P`. -/
def Throughout (P : σ → Prop) : σ → List α → Prop
  | s, [] => P s
  | s, a :: as => P s ∧ ∀ s', next s a = some s' → Throughout P s' as

/-- Every step the run takes meets `C` in the state before it. -/
def StepsMeet (C : σ → α → Prop) : σ → List α → Prop
  | _, [] => True
  | s, a :: as => ∀ s', next s a = some s' → C s a ∧ StepsMeet C s' as

variable {next}

theorem exec_cons {s t : σ} {a : α} {as : List α} :
    exec next s (a :: as) = some t ↔ ∃ s', next s a = some s' ∧ exec next s' as = some t := by
  show (next s a).bind _ = some t ↔ _
  rw [Option.bind_eq_some_iff]

theorem Throughout.head {P : σ → Prop} {s : σ} {as : List α} (h : Throughout next P s as) :
    P s := by
  cases as with
  | nil => exact h
  | cons a as => exact h.1

/-- What holds throughout a run holds where it ends. -/
theorem Throughout.last {P : σ → Prop} {s t : σ} {as : List α} (h : Throughout next P s as)
    (ht : exec next s as = some t) : P t := by
  induction as generalizing s with
  | nil =>
    obtain rfl : s = t := Option.some.inj ht
    exact h
  | cons a as ih =>
    obtain ⟨s', hs', hrest⟩ := exec_cons.mp ht
    exact ih (h.2 s' hs') hrest

/-! ## Concrete runs can be checked -/

instance decidableStepsMeet {C : σ → α → Prop} [∀ s a, Decidable (C s a)] :
    (s : σ) → (as : List α) → Decidable (StepsMeet next C s as)
  | _, [] => isTrue trivial
  | s, a :: as =>
    match h : next s a with
    | none => isTrue fun _ hs' => nomatch h.symm.trans hs'
    | some t =>
      have := decidableStepsMeet (C := C) t as
      decidable_of_iff (C s a ∧ StepsMeet next C t as)
        ⟨fun hC _ hs' => Option.some.inj (h.symm.trans hs') ▸ hC, fun hC => hC t h⟩

/-! ## The rules -/

section Rules

variable {Inv P : σ → Prop} {C : σ → α → Prop}

/-- **The invariant rule**: what an invariant implies holds in every state of a run, if the steps
    that meet `C` keep the invariant and all steps of the run meet `C`. -/
theorem throughout_of_stepsMeet (hP : ∀ s, Inv s → P s)
    (hstep : ∀ s a s', Inv s → C s a → next s a = some s' → Inv s')
    {s : σ} {as : List α} (h : Inv s) (hC : StepsMeet next C s as) :
    Throughout next P s as := by
  induction as generalizing s with
  | nil => exact hP s h
  | cons a as ih =>
    refine ⟨hP s h, fun s' hs' => ?_⟩
    obtain ⟨hCa, hCs⟩ := hC s' hs'
    exact ih (hstep s a s' h hCa hs') hCs

/-- A condition that every step meets is met by every run. -/
theorem stepsMeet_of_forall (hC : ∀ s a, C s a) (s : σ) (as : List α) :
    StepsMeet next C s as := by
  induction as generalizing s with
  | nil => trivial
  | cons a as ih => exact fun s' _ => ⟨hC s a, ih s'⟩

/-- The invariant rule for an invariant that every step keeps. -/
theorem throughout_of_step (hP : ∀ s, Inv s → P s)
    (hstep : ∀ s a s', Inv s → next s a = some s' → Inv s') {s : σ} (as : List α) (h : Inv s) :
    Throughout next P s as :=
  throughout_of_stepsMeet (C := fun _ _ => True) hP (fun s a s' hs _ => hstep s a s' hs) h
    (stepsMeet_of_forall (fun _ _ => trivial) s as)

/-- **Exact conditions.**  If steps that meet `C` keep the invariant and a step against `C` falls
    out of `P` at once, then `P` holds throughout a run exactly when its steps meet `C`. -/
theorem throughout_iff_stepsMeet (hP : ∀ s, Inv s → P s)
    (hgood : ∀ s a s', Inv s → C s a → next s a = some s' → Inv s')
    (hbad : ∀ s a s', Inv s → ¬ C s a → next s a = some s' → ¬ P s')
    {s : σ} {as : List α} (h : Inv s) :
    Throughout next P s as ↔ StepsMeet next C s as := by
  refine ⟨fun hT => ?_, throughout_of_stepsMeet hP hgood h⟩
  induction as generalizing s with
  | nil => trivial
  | cons a as ih =>
    intro s' hs'
    have hrest := hT.2 s' hs'
    by_cases hCa : C s a
    · exact ⟨hCa, ih (hgood s a s' h hCa hs') hrest⟩
    · exact absurd hrest.head (hbad s a s' h hCa hs')

/-- **Exact conditions for the end.**  If `P` holds behind a step exactly when it held before it and
    the step meets `C`, then `P` holds where a run ends exactly when it held where it began and all
    its steps meet `C`. -/
theorem last_iff_stepsMeet (hkeeps : ∀ s a s', Inv s → next s a = some s' → Inv s')
    (hstep : ∀ s a s', Inv s → next s a = some s' → (P s' ↔ P s ∧ C s a))
    {s t : σ} {as : List α} (h : Inv s) (ht : exec next s as = some t) :
    P t ↔ P s ∧ StepsMeet next C s as := by
  induction as generalizing s with
  | nil =>
    obtain rfl : s = t := Option.some.inj ht
    exact (and_iff_left trivial).symm
  | cons a as ih =>
    obtain ⟨s', hs', hrest⟩ := exec_cons.mp ht
    have hmeet : StepsMeet next C s (a :: as) ↔ C s a ∧ StepsMeet next C s' as := by
      constructor
      · intro hC
        exact hC s' hs'
      · intro hC s'' hs''
        obtain rfl : s' = s'' := Option.some.inj (hs'.symm.trans hs'')
        exact hC
    rw [ih (hkeeps s a s' h hs') hrest, hstep s a s' h hs', hmeet, and_assoc]

end Rules

/-- The invariant rule for what a state has to do with the steps that led to it. -/
theorem holds_of_exec {Inv : List α → σ → Prop}
    (hstep : ∀ past s a s', Inv past s → next s a = some s' → Inv (past ++ [a]) s')
    {past : List α} {s t : σ} {as : List α} (h : Inv past s) (ht : exec next s as = some t) :
    Inv (past ++ as) t := by
  induction as generalizing past s with
  | nil =>
    obtain rfl : s = t := Option.some.inj ht
    rw [List.append_nil]
    exact h
  | cons a as ih =>
    obtain ⟨s', hs', hrest⟩ := exec_cons.mp ht
    have hdone := ih (hstep past s a s' h hs') hrest
    rwa [List.append_assoc] at hdone

/-! ## Views -/

section Views

variable {τ β : Type*} {next' : τ → β → Option τ} {view : σ → τ}

/-- Through the view every step is a step of the other system, or nothing moves. -/
def Refines (next : σ → α → Option σ) (next' : τ → β → Option τ) (view : σ → τ) : Prop :=
  ∀ s a s', next s a = some s' → view s' = view s ∨ ∃ b, next' (view s) b = some (view s')

/-- Through the view, every run is a run of the other system. -/
theorem Refines.exec (h : Refines next next' view) {s t : σ} {as : List α}
    (ht : exec next s as = some t) : ∃ bs, exec next' (view s) bs = some (view t) := by
  induction as generalizing s with
  | nil =>
    obtain rfl : s = t := Option.some.inj ht
    exact ⟨[], rfl⟩
  | cons a as ih =>
    obtain ⟨s', hs', hrest⟩ := exec_cons.mp ht
    obtain ⟨bs, hbs⟩ := ih hrest
    rcases h s a s' hs' with heq | ⟨b, hb⟩
    · exact ⟨bs, heq ▸ hbs⟩
    · exact ⟨b :: bs, exec_cons.mpr ⟨_, hb, hbs⟩⟩

end Views

/-! ## Effort -/

section Effort

variable {Inv Goal : σ → Prop} {own : α → Prop} {effort : σ → Nat}

/-- **Runs of steps that cost effort end**: there are no more of them than there is effort. -/
theorem length_le_effort
    (hkeeps : ∀ s a s', Inv s → own a → next s a = some s' → Inv s' ∧ effort s' < effort s)
    {s t : σ} {as : List α} (h : Inv s) (hown : ∀ a ∈ as, own a) (ht : exec next s as = some t) :
    as.length ≤ effort s := by
  induction as generalizing s with
  | nil => exact Nat.zero_le _
  | cons a as ih =>
    obtain ⟨s', hs', hrest⟩ := exec_cons.mp ht
    obtain ⟨hInv, hless⟩ := hkeeps s a s' h (hown a List.mem_cons_self) hs'
    have hlength := ih hInv (fun b hb => hown b (List.mem_cons_of_mem a hb)) hrest
    rw [List.length_cons]
    omega

/-- **Among other steps**: if the others cost nothing back, there are no more steps that cost effort
    than there is effort, and what is left of it is left. -/
theorem countP_add_effort_le {C : σ → α → Prop} {own : α → Bool}
    (hkeeps : ∀ s a s', Inv s → C s a → next s a = some s' →
      Inv s' ∧ (if own a then 1 else 0) + effort s' ≤ effort s)
    {s t : σ} {as : List α} (h : Inv s) (hC : StepsMeet next C s as)
    (ht : exec next s as = some t) : Inv t ∧ as.countP own + effort t ≤ effort s := by
  induction as generalizing s with
  | nil =>
    obtain rfl : s = t := Option.some.inj ht
    exact ⟨h, Nat.le_of_eq (Nat.zero_add _)⟩
  | cons a as ih =>
    obtain ⟨s', hs', hrest⟩ := exec_cons.mp ht
    obtain ⟨hCa, hCs⟩ := hC s' hs'
    obtain ⟨hInv, hstep⟩ := hkeeps s a s' h hCa hs'
    obtain ⟨hlast, hcount⟩ := ih hInv hCs hrest
    rw [List.countP_cons]
    exact ⟨hlast, by omega⟩

/-- **Progress reaches the goal**: if some step that costs effort and meets `C` can be taken
    wherever the goal is not reached, then such steps lead to it. -/
theorem exists_exec_to {C : σ → α → Prop}
    (hkeeps : ∀ s a s', Inv s → own a → C s a → next s a = some s' → Inv s' ∧ effort s' < effort s)
    (hprogress : ∀ s, Inv s → ¬ Goal s → ∃ a s', own a ∧ C s a ∧ next s a = some s') {s : σ}
    (h : Inv s) :
    ∃ as t, (∀ a ∈ as, own a) ∧ StepsMeet next C s as ∧ exec next s as = some t ∧ Goal t := by
  induction heffort : effort s using Nat.strongRecOn generalizing s with
  | _ n ih =>
    by_cases hgoal : Goal s
    · exact ⟨[], s, nofun, trivial, rfl, hgoal⟩
    · obtain ⟨a, s', hown, hCa, hs'⟩ := hprogress s h hgoal
      obtain ⟨hInv, hless⟩ := hkeeps s a s' h hown hCa hs'
      obtain ⟨as, t, has, hC, ht, hreached⟩ := ih (effort s') (heffort ▸ hless) hInv rfl
      refine ⟨a :: as, t, List.forall_mem_cons.mpr ⟨hown, has⟩, fun s'' hs'' => ?_,
        exec_cons.mpr ⟨s', hs', ht⟩, hreached⟩
      obtain rfl : s' = s'' := Option.some.inj (hs'.symm.trans hs'')
      exact ⟨hCa, hC⟩

end Effort

/-- The effort of many parties, when one of them goes on. -/
theorem sum_update_add {ι : Type*} [DecidableEq ι] {parties : Finset ι} {i : ι} (hi : i ∈ parties)
    (effort : ι → Nat) (after : Nat) :
    ∑ j ∈ parties, Function.update effort i after j + effort i
      = ∑ j ∈ parties, effort j + after := by
  rw [Finset.sum_update_of_mem hi, Finset.sdiff_singleton_eq_erase,
    ← Finset.add_sum_erase parties effort hi]
  omega

end Transition
