/-
  Counted references: something is opened any number of times, and has to be closed as often.

  The books (`References`) list every opening and every closing so far, and the references still
  held, which are to be closed later.  A reference that is opened is closed again at once, or kept
  among those held, or dropped; nothing else happens to it.

  1. `Covered` — no more is closed and held than has been opened; every move keeps this.
  2. `Balanced` — exactly as much is.  A move that loses nothing changes nothing about that
     (`Settles.balanced_iff`); a dropped reference leaves the books unbalanced
     (`Drops.not_balanced`), and later moves cannot make up for it.
  3. `closeHeld_count_iff` — closing what is held evens the books out exactly if they balance.

  Nothing here knows what is opened.
-/
import Mathlib.Data.List.Count

variable {α : Type*}

/-- What has been opened and closed, each time it was, and what is held. -/
structure References (α : Type*) where
  opened : List α
  closed : List α
  held : List α

namespace References

/-- Nothing has been opened. -/
def empty : References α := ⟨[], [], []⟩

/-- Close everything that is held. -/
def closeHeld (r : References α) : References α := ⟨r.opened, r.closed ++ r.held, []⟩

/-- A move that loses no reference: nothing happens, or one is opened and closed or held. -/
inductive Settles (r : References α) : References α → Prop
  | nothing : Settles r r
  | closed (a : α) : Settles r ⟨r.opened ++ [a], r.closed ++ [a], r.held⟩
  | held (a : α) : Settles r ⟨r.opened ++ [a], r.closed, a :: r.held⟩

/-- A move that loses one. -/
inductive Drops (r : References α) : References α → Prop
  | drop (a : α) : Drops r ⟨r.opened ++ [a], r.closed, r.held⟩

variable [DecidableEq α]

/-- No more is closed or held than has been opened. -/
def Covered (r : References α) : Prop :=
  ∀ a, r.closed.count a + r.held.count a ≤ r.opened.count a

/-- **The books balance**: everything opened has been closed or is held. -/
def Balanced (r : References α) : Prop :=
  ∀ a, r.closed.count a + r.held.count a = r.opened.count a

theorem balanced_empty : Balanced (empty : References α) := fun _ => rfl

theorem Balanced.covered {r : References α} (h : Balanced r) : Covered r :=
  fun a => Nat.le_of_eq (h a)

variable {r r' : References α}

/-- Behind a move that loses nothing, each reference is closed and held as much less often than
    opened as before it. -/
theorem Settles.count_eq (h : Settles r r') (a : α) :
    r'.closed.count a + r'.held.count a + r.opened.count a =
      r.closed.count a + r.held.count a + r'.opened.count a := by
  cases h with
  | nothing => rfl
  | closed b =>
    simp only [List.count_append]
    omega
  | held b =>
    simp only [List.count_append, List.count_cons, List.count_nil]
    omega

theorem Settles.covered (h : Settles r r') (hr : Covered r) : Covered r' := by
  intro a
  have hcount := h.count_eq a
  have hcovered := hr a
  omega

theorem Drops.covered (h : Drops r r') (hr : Covered r) : Covered r' := by
  cases h with
  | drop b =>
    intro a
    have hcovered := hr a
    show r.closed.count a + r.held.count a ≤ (r.opened ++ [b]).count a
    rw [List.count_append]
    omega

theorem Settles.balanced_iff (h : Settles r r') : Balanced r' ↔ Balanced r := by
  constructor
  · intro hr a
    have hcount := h.count_eq a
    have hbalanced := hr a
    omega
  · intro hr a
    have hcount := h.count_eq a
    have hbalanced := hr a
    omega

/-- A dropped reference is missing on one side of the books from then on. -/
theorem Drops.not_balanced (h : Drops r r') (hr : Covered r) : ¬ Balanced r' := by
  cases h with
  | drop b =>
    intro hbalanced
    have hcovered := hr b
    have hb : r.closed.count b + r.held.count b = (r.opened ++ [b]).count b := hbalanced b
    rw [List.count_append, List.count_singleton_self] at hb
    omega

/-- **What closing the rest settles**: afterwards everything has been closed as often as opened
    exactly if the books balanced. -/
theorem closeHeld_count_iff :
    (∀ a, r.closeHeld.closed.count a = r.closeHeld.opened.count a) ↔ Balanced r := by
  refine forall_congr' fun a => ?_
  show (r.closed ++ r.held).count a = r.opened.count a ↔ _
  rw [List.count_append]

end References
