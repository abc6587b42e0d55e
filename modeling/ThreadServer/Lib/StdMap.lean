/-
  `std::map`, as the standard library's extensional ordered map, with the two operations C++ code
  uses that have no direct counterpart there: `insert`, which leaves an existing entry alone and
  says whether it inserted, and `m[k].push_back(v)`, which creates an empty list first.

  Two maps with the same lookups are EQUAL (`Std.ExtTreeMap.ext_getElem?`), so a statement about
  the state of a map is a statement about its lookups; `toList` is its iteration order, ascending.
-/
import Mathlib.Tactic.Linarith

/-- `std::map<κ, α>`. -/
abbrev StdMap (κ α : Type) [Ord κ] := Std.ExtTreeMap κ α

namespace StdMap

variable {κ α : Type} [Ord κ] [Std.TransOrd κ]

/-- `m.insert(make_pair(k, v))`: the map and whether the entry is new. -/
def insertNew (m : StdMap κ α) (k : κ) (v : α) : StdMap κ α × Bool :=
  if m.contains k then (m, false) else (m.insert k v, true)

/-- `m[k].push_back(v)`. -/
def pushBack (m : StdMap κ (List α)) (k : κ) (v : α) : StdMap κ (List α) :=
  m.alter k fun vs => some (vs.getD [] ++ [v])

/-- An insertion that succeeds adds its entry and changes no other. -/
theorem insertNew_eq_true [DecidableEq κ] [Std.LawfulEqOrd κ] {m m' : StdMap κ α} {k : κ} {v : α}
    (h : m.insertNew k v = (m', true)) :
    m[k]? = none ∧ ∀ k', m'[k']? = if k' = k then some v else m[k']? := by
  unfold insertNew at h
  split at h
  · exact absurd (Prod.mk.inj h).2 (by decide)
  · rename_i hk
    obtain ⟨rfl, -⟩ := Prod.mk.inj h
    refine ⟨by simpa using hk, fun k' => ?_⟩
    rw [Std.ExtTreeMap.getElem?_insert]
    by_cases hkk : k' = k
    · rw [if_pos hkk, if_pos (by rw [hkk, Std.compare_self])]
    · rw [if_neg hkk, if_neg (fun hc => hkk (Std.LawfulEqOrd.eq_of_compare hc).symm)]

/-- An insertion that fails has found the key, and changes nothing. -/
theorem insertNew_eq_false {m m' : StdMap κ α} {k : κ} {v : α}
    (h : m.insertNew k v = (m', false)) : m' = m ∧ m[k]? ≠ none := by
  unfold insertNew at h
  split at h
  · rename_i hk
    obtain ⟨rfl, -⟩ := Prod.mk.inj h
    refine ⟨rfl, fun hnone => ?_⟩
    rw [Std.ExtTreeMap.contains_eq_isSome_getElem?, hnone] at hk
    cases hk
  · exact absurd (Prod.mk.inj h).2 (by decide)

/-- Inserting, seen through a function on the values. -/
theorem map_insertNew [Std.LawfulEqOrd κ] {β : Type} (f : α → β) (m : StdMap κ α) (k : κ) (v : α) :
    StdMap.insertNew (m.map fun _ => f) k (f v) =
      ((m.insertNew k v).1.map fun _ => f, (m.insertNew k v).2) := by
  unfold insertNew
  rw [Std.ExtTreeMap.contains_map]
  by_cases hk : m.contains k = true
  · rw [if_pos hk, if_pos hk]
  · rw [if_neg hk, if_neg hk]
    refine Prod.ext ?_ rfl
    apply Std.ExtTreeMap.ext_getElem?
    intro k'
    show ((m.map fun _ => f).insert k (f v))[k']? = ((m.insert k v).map fun _ => f)[k']?
    rw [Std.ExtTreeMap.getElem?_map, Std.ExtTreeMap.getElem?_insert, Std.ExtTreeMap.getElem?_insert,
      Std.ExtTreeMap.getElem?_map]
    by_cases hkk : compare k k' = .eq
    · rw [if_pos hkk, if_pos hkk, Option.map_some]
    · rw [if_neg hkk, if_neg hkk]

/-- Appending under a name changes that name's list only. -/
theorem getElem?_pushBack [DecidableEq κ] [Std.LawfulEqOrd κ] (m : StdMap κ (List α)) (k k' : κ)
    (v : α) : (m.pushBack k v)[k']? = if k' = k then some (m[k]?.getD [] ++ [v]) else m[k']? := by
  rw [pushBack, Std.ExtTreeMap.getElem?_alter]
  by_cases hkk : k' = k
  · rw [if_pos hkk, if_pos (by rw [hkk, Std.compare_self])]
  · rw [if_neg hkk, if_neg (fun hc => hkk (Std.LawfulEqOrd.eq_of_compare hc).symm)]

/-- **Every key has something**: the list under it is not empty. -/
def Filled (m : StdMap κ (List α)) : Prop :=
  ∀ (k : κ) (vs : List α), m[k]? = some vs → vs ≠ []

theorem filled_empty : Filled (∅ : StdMap κ (List α)) := by
  intro k vs hvs
  rw [Std.ExtTreeMap.getElem?_empty] at hvs
  cases hvs

/-- What `m[k]` creates is filled at once. -/
theorem Filled.pushBack [DecidableEq κ] [Std.LawfulEqOrd κ] {m : StdMap κ (List α)} (h : m.Filled)
    (k : κ) (v : α) : Filled (m.pushBack k v) := by
  intro k' vs hvs
  rw [getElem?_pushBack] at hvs
  split at hvs
  · rw [← Option.some.inj hvs]
    exact List.append_ne_nil_of_right_ne_nil _ (List.cons_ne_nil _ _)
  · exact h k' vs hvs

/-- Appending under a condition: the list of a name grows exactly if the condition holds and the
    name is the one. -/
theorem getElem?_ite_pushBack [DecidableEq κ] [Std.LawfulEqOrd κ] (p : Prop) [Decidable p]
    (m : StdMap κ (List α)) (k k' : κ) (v : α) :
    (if p then m.pushBack k v else m)[k']? =
      if decide (p ∧ k = k') then some (m[k']?.getD [] ++ [v]) else m[k']? := by
  by_cases hp : p
  · rw [if_pos hp, getElem?_pushBack]
    by_cases hk : k = k'
    · rw [if_pos hk.symm, if_pos (decide_eq_true ⟨hp, hk⟩), hk]
    · rw [if_neg (Ne.symm hk), if_neg]
      rw [decide_eq_true_iff]
      exact fun h => hk h.2
  · rw [if_neg hp, if_neg]
    rw [decide_eq_true_iff]
    exact fun h => hp h.1

/-- Appending under two different names, in either order. -/
theorem pushBack_comm [DecidableEq κ] [Std.LawfulEqOrd κ] (m : StdMap κ (List α)) {k k' : κ}
    (h : k ≠ k') (v v' : α) :
    StdMap.pushBack (m.pushBack k v) k' v' = StdMap.pushBack (m.pushBack k' v') k v := by
  apply Std.ExtTreeMap.ext_getElem?
  intro name
  rw [getElem?_pushBack, getElem?_pushBack, getElem?_pushBack, getElem?_pushBack,
    getElem?_pushBack, getElem?_pushBack, if_neg h, if_neg (Ne.symm h)]
  by_cases hk : name = k
  · rw [hk, if_neg h, if_pos rfl, if_pos rfl]
  · rw [if_neg hk, if_neg hk]

/-- A loop whose every step appends `f b` to the list seen by `look`, or leaves it alone: what it
    has appended in the end, in order. -/
theorem lookup_foldl {σ β : Type} (look : σ → Option (List α)) (step : σ → β → σ) (p : β → Bool)
    (f : β → α)
    (hstep : ∀ s b, look (step s b) = if p b then some ((look s).getD [] ++ [f b]) else look s)
    (bs : List β) (s : σ) :
    look (bs.foldl step s) =
      if (bs.filter p).map f = [] then look s
      else some ((look s).getD [] ++ (bs.filter p).map f) := by
  induction bs generalizing s with
  | nil => rfl
  | cons b bs ih =>
    rw [List.foldl_cons, ih, hstep]
    cases hb : p b with
    | false => rw [List.filter_cons_of_neg (by rw [hb]; decide), if_neg Bool.false_ne_true]
    | true =>
      rw [List.filter_cons_of_pos hb, List.map_cons, if_pos rfl, if_neg (List.cons_ne_nil _ _)]
      by_cases hrest : (bs.filter p).map f = []
      · rw [if_pos hrest, hrest]
      · rw [if_neg hrest, Option.getD_some, List.append_assoc, List.singleton_append]

/-! ## Assignments -/

/-- `m[k] = v` for each binding in turn. -/
def assignAll (m : StdMap κ α) (bindings : List (κ × α)) : StdMap κ α :=
  bindings.foldl (fun m binding => m.insert binding.1 binding.2) m

/-- The value of the last binding of a key. -/
def lastBinding [DecidableEq κ] (bindings : List (κ × α)) (k : κ) : Option α :=
  (bindings.reverse.find? (·.1 = k)).map (·.2)

variable [DecidableEq κ]

omit [Ord κ] [Std.TransOrd κ] in
theorem lastBinding_cons (binding : κ × α) (bindings : List (κ × α)) (k : κ) :
    lastBinding (binding :: bindings) k =
      (lastBinding bindings k).or (if binding.1 = k then some binding.2 else none) := by
  rw [lastBinding, lastBinding, List.reverse_cons, List.find?_append, Option.map_or]
  congr 1
  by_cases h : binding.1 = k
  · rw [if_pos h, List.find?_cons_of_pos (by simpa using h), Option.map_some]
  · rw [if_neg h, List.find?_cons_of_neg (by simpa using h), List.find?_nil, Option.map_none]

omit [Ord κ] [Std.TransOrd κ] in
theorem lastBinding_isSome {bindings : List (κ × α)} {k : κ} :
    (lastBinding bindings k).isSome = true ↔ ∃ v, (k, v) ∈ bindings := by
  rw [lastBinding, Option.isSome_map, List.find?_isSome]
  constructor
  · rintro ⟨⟨k', v⟩, hmem, hk⟩
    obtain rfl : k' = k := of_decide_eq_true hk
    exact ⟨v, List.mem_reverse.mp hmem⟩
  · rintro ⟨v, hmem⟩
    exact ⟨(k, v), List.mem_reverse.mpr hmem, decide_eq_true rfl⟩

/-- **The last assignment wins.** -/
theorem getElem?_assignAll [Std.LawfulEqOrd κ] (m : StdMap κ α) (bindings : List (κ × α)) (k : κ) :
    (m.assignAll bindings)[k]? = (lastBinding bindings k).or m[k]? := by
  induction bindings generalizing m with
  | nil => rfl
  | cons binding bindings ih =>
    show (StdMap.assignAll (m.insert binding.1 binding.2) bindings)[k]? = _
    rw [ih, lastBinding_cons, Option.or_assoc, Std.ExtTreeMap.getElem?_insert]
    congr 1
    by_cases h : binding.1 = k
    · rw [if_pos h, if_pos (Std.LawfulEqCmp.compare_eq_iff_eq.mpr h), Option.some_or]
    · rw [if_neg h, if_neg (fun heq => h (Std.LawfulEqCmp.compare_eq_iff_eq.mp heq)),
        Option.none_or]

/-- Only the last assignment of each key matters, whatever the order. -/
theorem assignAll_eq [Std.LawfulEqOrd κ] {m : StdMap κ α} {bindings bindings' : List (κ × α)}
    (h : ∀ k, lastBinding bindings k = lastBinding bindings' k) :
    m.assignAll bindings = m.assignAll bindings' := by
  apply Std.ExtTreeMap.ext_getElem?
  intro k
  rw [getElem?_assignAll, getElem?_assignAll, h]

end StdMap
