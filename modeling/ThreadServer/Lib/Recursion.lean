/-
  Recursive programs over data that may be cyclic.

  A program is given by its BODY: what it does with an input, when `self` stands for the program
  itself.  `run body fuel` lets the calls nest `fuel` deep; the program terminates on an input when
  some depth is enough.

  1. **One result** (`Returns.unique`) — more fuel changes no result, as long as the body looks at
     `self` on the inputs `calls a` only and needs a result for each of them (`CallsOnly`).
  2. **Termination is accessibility** (`terminates_iff_acc`) — the program terminates on `a` exactly
     when there is no infinite descent of calls from `a`.
  3. **In a finite graph that means acyclic** (`acc_iff_acyclic`) — no input reached from `a`
     reaches itself.
  4. **Results by induction** (`Returns.induction`).
-/
import Mathlib.Data.Fintype.Card
import Mathlib.Data.Set.Finite.Basic
import Mathlib.Logic.Relation
import Mathlib.Order.RelClasses

namespace Recursion

/-! ## Acyclic from here on -/

section Graph

variable {α : Type*} {r : α → α → Prop}

/-- Nothing accessible descends from itself. -/
theorem not_self_of_acc {a : α} (h : Acc r a) : ¬ r a a := by
  induction h with
  | intro a _ ih =>
    intro ha
    exact ih a ha ha

theorem acc_of_reaches {a b : α} (h : Acc (flip r) a) (hab : Relation.ReflTransGen r a b) :
    Acc (flip r) b := by
  induction hab with
  | refl => exact h
  | tail _ hbc ih => exact ih.inv hbc

/-- **No infinite descent from `a`, no cycle reached from `a`**, where finitely many are reached. -/
theorem acc_iff_acyclic {a : α} (hfinite : {b | Relation.ReflTransGen r a b}.Finite) :
    Acc (flip r) a ↔ ∀ b, Relation.ReflTransGen r a b → ¬ Relation.TransGen r b b := by
  constructor
  · intro h b hab hbb
    have hb : Acc (Relation.TransGen (flip r)) b := (acc_of_reaches h hab).transGen
    exact not_self_of_acc hb (Relation.transGen_swap.mp hbb)
  · intro h
    -- On what is reached, descending is transitive and irreflexive, so it is well-founded.
    let reached := {b | Relation.ReflTransGen r a b}
    have : Finite reached := hfinite
    let below (c b : reached) : Prop := Relation.TransGen r b.1 c.1
    have : IsTrans reached below := ⟨fun _ _ _ hdc hcb => hcb.trans hdc⟩
    have : Std.Irrefl below := ⟨fun b => h b.1 b.2⟩
    have hwf : WellFounded below := Finite.wellFounded_of_trans_of_irrefl below
    have hacc : ∀ b : reached, Acc (flip r) b.1 := by
      intro b
      induction b using hwf.induction with
      | _ b ih =>
        refine Acc.intro b.1 fun c hbc => ?_
        exact ih ⟨c, b.2.tail hbc⟩ (Relation.TransGen.single hbc)
    exact hacc ⟨a, .refl⟩

end Graph

/-! ## Programs -/

variable {α β : Type*}

/-- The program with this body, its calls nested `fuel` deep at most. -/
def run (body : (α → Option β) → α → Option β) : Nat → α → Option β
  | 0, _ => none
  | fuel + 1, a => body (run body fuel) a

/-- The program returns `b` on `a`. -/
def Returns (body : (α → Option β) → α → Option β) (a : α) (b : β) : Prop :=
  ∃ fuel, run body fuel a = some b

/-- The program returns on `a`. -/
def Terminates (body : (α → Option β) → α → Option β) (a : α) : Prop := ∃ b, Returns body a b

/-- The body calls the program on each of `calls a`, on nothing else, and fails by itself only on
    what is not `Defined`. -/
structure CallsOnly (body : (α → Option β) → α → Option β) (Defined : α → Prop)
    (calls : α → List α) : Prop where
  isSome_iff : ∀ self a,
    (body self a).isSome = true ↔ Defined a ∧ ∀ b ∈ calls a, (self b).isSome = true
  congr : ∀ {self self' a}, (∀ b ∈ calls a, self b = self' b) → body self a = body self' a

/-- The call relation. -/
def Calls (calls : α → List α) (a b : α) : Prop := b ∈ calls a

variable {body : (α → Option β) → α → Option β} {Defined : α → Prop} {calls : α → List α}

/-- A run with a result has results of all its calls, one level further in. -/
theorem exists_run_of_call (h : CallsOnly body Defined calls) {fuel : Nat} {a c : α} {b : β}
    (hrun : run body (fuel + 1) a = some b) (hc : c ∈ calls a) :
    ∃ w, run body fuel c = some w := by
  have hcalls := ((h.isSome_iff (run body fuel) a).mp (Option.isSome_of_eq_some hrun)).2
  exact Option.isSome_iff_exists.mp (hcalls c hc)

theorem run_succ_of_run (h : CallsOnly body Defined calls) {fuel : Nat} {a : α} {b : β}
    (hrun : run body fuel a = some b) : run body (fuel + 1) a = some b := by
  induction fuel generalizing a b with
  | zero => exact absurd hrun (by simp [run])
  | succ fuel ih =>
    -- One level further in, all calls already had their results; the body sees no difference.
    have hsame : ∀ c ∈ calls a, run body (fuel + 1) c = run body fuel c := by
      intro c hc
      obtain ⟨w, hw⟩ := exists_run_of_call h hrun hc
      rw [hw]
      exact ih hw
    show body (run body (fuel + 1)) a = some b
    rw [h.congr hsame]
    exact hrun

/-- More fuel changes no result. -/
theorem run_mono (h : CallsOnly body Defined calls) {fuel fuel' : Nat} (hle : fuel ≤ fuel') {a : α}
    {b : β} (hrun : run body fuel a = some b) : run body fuel' a = some b := by
  induction hle with
  | refl => exact hrun
  | step _ ih => exact run_succ_of_run h ih

/-- **A program returns one result.** -/
theorem Returns.unique (h : CallsOnly body Defined calls) {a : α} {b b' : β}
    (hb : Returns body a b) (hb' : Returns body a b') : b = b' := by
  obtain ⟨fuel, hrun⟩ := hb
  obtain ⟨fuel', hrun'⟩ := hb'
  have hmax := run_mono h (Nat.le_max_left fuel fuel') hrun
  have hmax' := run_mono h (Nat.le_max_right fuel fuel') hrun'
  exact Option.some.inj (hmax.symm.trans hmax')

/-- Results by induction on the nesting: what the body turns into a result with `P`, when `self` has
    results with `P` only. -/
theorem Returns.induction {P : α → β → Prop}
    (hbody : ∀ self, (∀ a b, self a = some b → P a b) → ∀ a b, body self a = some b → P a b)
    {a : α} {b : β} (h : Returns body a b) : P a b := by
  obtain ⟨fuel, hrun⟩ := h
  induction fuel generalizing a b with
  | zero => exact absurd hrun (by simp [run])
  | succ fuel ih => exact hbody (run body fuel) (fun a b hab => ih hab) a b hrun

/-- Finitely many calls that terminate share a depth that is enough for all. -/
theorem exists_fuel (h : CallsOnly body Defined calls) {as : List α}
    (has : ∀ a ∈ as, Terminates body a) :
    ∃ fuel, ∀ a ∈ as, (run body fuel a).isSome = true := by
  induction as with
  | nil => exact ⟨0, fun a ha => absurd ha List.not_mem_nil⟩
  | cons a as ih =>
    obtain ⟨hhead, htail⟩ := List.forall_mem_cons.mp has
    obtain ⟨b, fuel, hrun⟩ := hhead
    obtain ⟨fuel', hruns⟩ := ih htail
    refine ⟨max fuel fuel', List.forall_mem_cons.mpr ⟨?_, ?_⟩⟩
    · exact Option.isSome_of_eq_some (run_mono h (Nat.le_max_left fuel fuel') hrun)
    · intro c hc
      obtain ⟨w, hw⟩ := Option.isSome_iff_exists.mp (hruns c hc)
      exact Option.isSome_of_eq_some (run_mono h (Nat.le_max_right fuel fuel') hw)

theorem acc_of_terminates (h : CallsOnly body Defined calls) {a : α} (ha : Terminates body a) :
    Acc (flip (Calls calls)) a := by
  obtain ⟨b, fuel, hrun⟩ := ha
  induction fuel generalizing a b with
  | zero => exact absurd hrun (by simp [run])
  | succ fuel ih =>
    refine Acc.intro a fun c hc => ?_
    obtain ⟨w, hw⟩ := exists_run_of_call h hrun hc
    exact ih w hw

/-- A program terminates exactly when all its calls do. -/
theorem terminates_iff_calls (h : CallsOnly body Defined calls) {a : α} (ha : Defined a) :
    Terminates body a ↔ ∀ c ∈ calls a, Terminates body c := by
  constructor
  · rintro ⟨b, fuel, hrun⟩ c hc
    cases fuel with
    | zero => exact absurd hrun (by simp [run])
    | succ fuel =>
      obtain ⟨w, hw⟩ := exists_run_of_call h hrun hc
      exact ⟨w, fuel, hw⟩
  · intro hterminates
    obtain ⟨fuel, hruns⟩ := exists_fuel h hterminates
    have hsome : (body (run body fuel) a).isSome = true := (h.isSome_iff _ _).mpr ⟨ha, hruns⟩
    obtain ⟨b, hb⟩ := Option.isSome_iff_exists.mp hsome
    exact ⟨b, fuel + 1, hb⟩

/-- **A program terminates exactly where its calls cannot descend for ever.** -/
theorem terminates_iff_acc (h : CallsOnly body Defined calls) {a : α}
    (hdefined : ∀ b, Relation.ReflTransGen (Calls calls) a b → Defined b) :
    Terminates body a ↔ Acc (flip (Calls calls)) a := by
  constructor
  · exact acc_of_terminates h
  · intro hacc
    -- Along the descent of calls: all calls of `a` terminate.
    induction hacc with
    | intro a _ ih =>
      refine (terminates_iff_calls h (hdefined a .refl)).mpr fun b hb => ?_
      exact ih b hb fun c hbc => hdefined c (.head hb hbc)

/-- **Over finitely many inputs: exactly where no input reached reaches itself.** -/
theorem terminates_iff_acyclic (h : CallsOnly body Defined calls) {a : α}
    (hdefined : ∀ b, Relation.ReflTransGen (Calls calls) a b → Defined b)
    (hfinite : {b | Relation.ReflTransGen (Calls calls) a b}.Finite) :
    Terminates body a ↔ ∀ b, Relation.ReflTransGen (Calls calls) a b →
      ¬ Relation.TransGen (Calls calls) b b := by
  rw [terminates_iff_acc h hdefined, acc_iff_acyclic hfinite]

end Recursion
