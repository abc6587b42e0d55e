/-
  Histories: lists of events, and conditions each event puts on what has happened before it.

  `Guarded G past events` says that every event meets `G` against everything before it, with `past`
  before the first one.  Two rules settle most histories:

  1. `guarded_of_past` — what the past already allows stays allowed, if `G` only asks for things to
     have happened;
  2. `Guarded.exists_before` — an event of a guarded history met `G` where it happened, with only
     events of that history before it.
-/
import Mathlib.Logic.Basic
import Mathlib.Data.List.Basic

namespace History

variable {ε : Type*} {G : List ε → ε → Prop}

/-- Every event meets `G` against everything before it. -/
def Guarded (G : List ε → ε → Prop) : List ε → List ε → Prop
  | _, [] => True
  | past, e :: events => G past e ∧ Guarded G (past ++ [e]) events

theorem guarded_append {past events later : List ε} :
    Guarded G past (events ++ later) ↔
      Guarded G past events ∧ Guarded G (past ++ events) later := by
  induction events generalizing past with
  | nil =>
    rw [List.append_nil]
    exact ⟨fun h => ⟨trivial, h⟩, fun h => h.2⟩
  | cons e events ih =>
    show G past e ∧ Guarded G (past ++ [e]) (events ++ later) ↔
      (G past e ∧ Guarded G (past ++ [e]) events) ∧ _
    rw [ih, and_assoc, List.append_assoc]
    rfl

/-- Events the past allows, for a `G` that only asks for things to have happened. -/
theorem guarded_of_past (hmono : ∀ past past' e, past ⊆ past' → G past e → G past' e)
    {past events : List ε} (h : ∀ e ∈ events, G past e) : Guarded G past events := by
  induction events generalizing past with
  | nil => trivial
  | cons e events ih =>
    obtain ⟨he, hevents⟩ := List.forall_mem_cons.mp h
    refine ⟨he, ih fun e' he' => ?_⟩
    exact hmono past _ e' (List.subset_append_left past [e]) (hevents e' he')

/-- Where an event of a guarded history happened. -/
theorem Guarded.exists_before {past events : List ε} (h : Guarded G past events) {e : ε}
    (he : e ∈ events) : ∃ before, before ⊆ events ∧ G (past ++ before) e := by
  obtain ⟨before, after, rfl⟩ := List.append_of_mem he
  obtain ⟨-, hG, -⟩ := guarded_append.mp h
  exact ⟨before, List.subset_append_left before _, hG⟩

end History
