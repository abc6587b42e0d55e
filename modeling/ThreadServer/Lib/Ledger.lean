/-
  A ledger of work handed out in the order it came in: items are known by their numbers, from `0`.

  An item is issued, taken by one worker (always the oldest one not taken yet), and delivered by the
  worker that has it in hand.  Nothing else moves an item, so the books balance:

  1. `Balanced` — every item that was taken is in exactly one hand, or delivered exactly once;
  2. `Balanced.step` — the three moves keep the balance;
  3. `Balanced.count_le_one`, `Balanced.count_eq_one` — what a balanced ledger says about one item:
     never delivered twice, and delivered once as soon as all hands are empty.

  Nothing here knows what the items are or what the workers do with them.
-/
import Mathlib.Logic.Function.Basic
import Mathlib.Data.List.Nodup

/-- The books: how many items have been issued and taken, what each worker has in hand, and which
    worker delivered which item. -/
structure Ledger (ω : Type*) where
  issued : Nat
  taken : Nat
  inHand : ω → Option Nat
  delivered : List (ω × Nat)

namespace Ledger

variable {ω : Type*} [DecidableEq ω]

/-- The moves. -/
inductive Step : Ledger ω → Ledger ω → Prop
  | issue (l : Ledger ω) : Step l { l with issued := l.issued + 1 }
  | take {l : Ledger ω} {w : ω} : l.taken < l.issued → l.inHand w = none →
      Step l { l with taken := l.taken + 1, inHand := Function.update l.inHand w (some l.taken) }
  | deliver {l : Ledger ω} {w : ω} {t : Nat} : l.inHand w = some t →
      Step l { l with
        inHand := Function.update l.inHand w none, delivered := l.delivered ++ [(w, t)] }

/-- The numbers of the delivered items, in the order of their delivery. -/
def numbers (l : Ledger ω) : List Nat := l.delivered.map Prod.snd

/-- **The books balance**: what was taken is in one hand or delivered once, and never both. -/
structure Balanced (l : Ledger ω) : Prop where
  taken_le : l.taken ≤ l.issued
  inHand_lt : ∀ w t, l.inHand w = some t → t < l.taken
  inHand_inj : ∀ v w t, l.inHand v = some t → l.inHand w = some t → v = w
  delivered_lt : ∀ t ∈ l.numbers, t < l.taken
  nodup : l.numbers.Nodup
  disjoint : ∀ w t, l.inHand w = some t → t ∉ l.numbers
  complete : ∀ t < l.taken, t ∈ l.numbers ∨ ∃ w, l.inHand w = some t

omit [DecidableEq ω] in
/-- An empty ledger balances. -/
theorem balanced_empty : Balanced (⟨0, 0, fun _ => none, []⟩ : Ledger ω) where
  taken_le := Nat.le_refl 0
  inHand_lt _ _ h := by cases h
  inHand_inj _ _ _ h := by cases h
  delivered_lt _ h := absurd h List.not_mem_nil
  nodup := List.nodup_nil
  disjoint _ _ h := by cases h
  complete _ h := absurd h (Nat.not_lt_zero _)

/-! ## The moves keep the balance -/

theorem Balanced.take {l : Ledger ω} (h : Balanced l) {w : ω} (hlt : l.taken < l.issued)
    (hw : l.inHand w = none) :
    Balanced { l with
      taken := l.taken + 1, inHand := Function.update l.inHand w (some l.taken) } := by
  -- `l.taken` itself is new: no hand holds it and nobody delivered it.
  have hfresh : ∀ v, l.inHand v ≠ some l.taken := by
    intro v hv
    exact Nat.lt_irrefl _ (h.inHand_lt v _ hv)
  have hundelivered : l.taken ∉ l.numbers := fun ht => Nat.lt_irrefl _ (h.delivered_lt _ ht)
  have hheld : ∀ v t, Function.update l.inHand w (some l.taken) v = some t →
      (v = w ∧ t = l.taken) ∨ (v ≠ w ∧ l.inHand v = some t) := by
    intro v t hv
    by_cases hvw : v = w
    · subst hvw
      rw [Function.update_self] at hv
      exact Or.inl ⟨rfl, (Option.some.inj hv).symm⟩
    · rw [Function.update_of_ne hvw] at hv
      exact Or.inr ⟨hvw, hv⟩
  refine ⟨hlt, ?_, ?_, fun t ht => Nat.lt_succ_of_lt (h.delivered_lt t ht), h.nodup, ?_, ?_⟩
  · intro v t hv
    show t < l.taken + 1
    rcases hheld v t hv with ⟨-, rfl⟩ | ⟨-, hv⟩
    · exact Nat.lt_succ_self _
    · exact Nat.lt_succ_of_lt (h.inHand_lt v t hv)
  · intro v v' t hv hv'
    rcases hheld v t hv with ⟨rfl, rfl⟩ | ⟨-, hv⟩
    · rcases hheld v' _ hv' with ⟨rfl, -⟩ | ⟨-, hv'⟩
      · rfl
      · exact absurd hv' (hfresh v')
    · rcases hheld v' t hv' with ⟨-, rfl⟩ | ⟨-, hv'⟩
      · exact absurd hv (hfresh v)
      · exact h.inHand_inj v v' t hv hv'
  · intro v t hv
    rcases hheld v t hv with ⟨-, rfl⟩ | ⟨-, hv⟩
    · exact hundelivered
    · exact h.disjoint v t hv
  · intro t ht
    rcases Nat.lt_succ_iff_lt_or_eq.mp ht with ht | rfl
    · rcases h.complete t ht with hd | ⟨v, hv⟩
      · exact Or.inl hd
      · refine Or.inr ⟨v, ?_⟩
        have hvw : v ≠ w := by
          rintro rfl
          cases hw.symm.trans hv
        exact (Function.update_of_ne hvw _ _).trans hv
    · exact Or.inr ⟨w, Function.update_self w _ _⟩

theorem Balanced.deliver {l : Ledger ω} (h : Balanced l) {w : ω} {t : Nat}
    (hw : l.inHand w = some t) :
    Balanced { l with
      inHand := Function.update l.inHand w none, delivered := l.delivered ++ [(w, t)] } := by
  have hheld : ∀ v u, Function.update l.inHand w none v = some u → v ≠ w ∧ l.inHand v = some u := by
    intro v u hv
    by_cases hvw : v = w
    · subst hvw
      rw [Function.update_self] at hv
      cases hv
    · rw [Function.update_of_ne hvw] at hv
      exact ⟨hvw, hv⟩
  have hnumbers : ∀ u, u ∈ (l.delivered ++ [(w, t)]).map Prod.snd ↔ u ∈ l.numbers ∨ u = t := by
    intro u
    rw [List.map_append, List.mem_append]
    exact or_congr Iff.rfl List.mem_singleton
  refine ⟨h.taken_le, ?_, ?_, ?_, ?_, ?_, ?_⟩
  · intro v u hv
    exact h.inHand_lt v u (hheld v u hv).2
  · intro v v' u hv hv'
    exact h.inHand_inj v v' u (hheld v u hv).2 (hheld v' u hv').2
  · intro u hu
    rcases (hnumbers u).mp hu with hu | rfl
    · exact h.delivered_lt u hu
    · exact h.inHand_lt w u hw
  · show ((l.delivered ++ [(w, t)]).map Prod.snd).Nodup
    rw [List.map_append]
    refine List.nodup_append.mpr ⟨h.nodup, List.nodup_singleton t, ?_⟩
    intro u hu v hv huv
    obtain rfl : v = t := List.mem_singleton.mp hv
    exact h.disjoint w v hw (huv ▸ hu)
  · intro v u hv hu
    obtain ⟨hvw, hbefore⟩ := hheld v u hv
    rcases (hnumbers u).mp hu with hu | rfl
    · exact h.disjoint v u hbefore hu
    · exact hvw (h.inHand_inj v w u hbefore hw)
  · intro u hu
    rcases h.complete u hu with hd | ⟨v, hv⟩
    · exact Or.inl ((hnumbers u).mpr (Or.inl hd))
    · by_cases hvw : v = w
      · subst hvw
        exact Or.inl ((hnumbers u).mpr (Or.inr (Option.some.inj (hv.symm.trans hw))))
      · exact Or.inr ⟨v, (Function.update_of_ne hvw _ _).trans hv⟩

/-- **Conservation**: every move keeps the balance. -/
theorem Balanced.step {l l' : Ledger ω} (h : Balanced l) (hstep : Step l l') : Balanced l' := by
  cases hstep with
  | issue =>
    exact ⟨Nat.le_succ_of_le h.taken_le, h.inHand_lt, h.inHand_inj, h.delivered_lt, h.nodup,
      h.disjoint, h.complete⟩
  | take hlt hw => exact h.take hlt hw
  | deliver hw => exact h.deliver hw

/-! ## What a balanced ledger says about one item -/

omit [DecidableEq ω] in
/-- No item is delivered twice. -/
theorem Balanced.count_le_one {l : Ledger ω} (h : Balanced l) (t : Nat) :
    l.numbers.count t ≤ 1 :=
  List.nodup_iff_count_le_one.mp h.nodup t

omit [DecidableEq ω] in
/-- With all hands empty, every item that was taken has been delivered exactly once. -/
theorem Balanced.count_eq_one {l : Ledger ω} (h : Balanced l) (hempty : ∀ w, l.inHand w = none)
    {t : Nat} (ht : t < l.taken) : l.numbers.count t = 1 := by
  rcases h.complete t ht with hd | ⟨w, hw⟩
  · exact List.count_eq_one_of_mem h.nodup hd
  · cases (hempty w).symm.trans hw

end Ledger
