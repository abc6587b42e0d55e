/-
  Filing entries in a map, each key once: what a loop of insertions that may fail comes to.

  1. `insertAllNew` — one `insert` after the other, up to the first whose key is there already.
  2. All succeed exactly if no key comes twice (`exists_insertAllNew_iff`), and then the map has the
     old entries and the new ones (`getElem?_insertAllNew`).
-/
import ThreadServer.Lib.StdMap

namespace StdMap

variable {κ α : Type} [Ord κ] [Std.TransOrd κ]

/-- `m.insert` for each entry, up to one that is not new. -/
def insertAllNew (m : StdMap κ α) : List (κ × α) → Option (StdMap κ α)
  | [] => some m
  | (k, v) :: entries =>
    match m.insertNew k v with
    | (_, false) => none
    | (m, true) => m.insertAllNew entries

theorem insertAllNew_cons_iff {m m' : StdMap κ α} {k : κ} {v : α} {entries : List (κ × α)} :
    m.insertAllNew ((k, v) :: entries) = some m' ↔
      ∃ next, m.insertNew k v = (next, true) ∧ insertAllNew next entries = some m' := by
  rw [insertAllNew]
  constructor
  · intro h
    split at h
    · exact nomatch h
    rename_i next hinsert
    exact ⟨next, hinsert, h⟩
  · rintro ⟨next, hinsert, h⟩
    rw [hinsert]
    exact h

/-- Whether an insertion succeeds depends on the key only. -/
theorem insertNew_eq_of_none {m : StdMap κ α} {k : κ} (h : m[k]? = none) (v : α) :
    m.insertNew k v = (m.insert k v, true) := by
  rw [insertNew, if_neg]
  rw [Std.ExtTreeMap.contains_eq_isSome_getElem?, h, Option.isSome_none]
  exact Bool.false_ne_true

theorem insertNew_eq_of_some {m : StdMap κ α} {k : κ} (h : m[k]? ≠ none) (v : α) :
    m.insertNew k v = (m, false) := by
  rw [insertNew, if_pos]
  rw [Std.ExtTreeMap.contains_eq_isSome_getElem?, Option.isSome_iff_ne_none]
  exact h

variable [DecidableEq κ] [Std.LawfulEqOrd κ]

theorem getElem?_insert_eq_none_iff {m : StdMap κ α} {k k' : κ} {v : α} :
    (m.insert k v)[k']? = none ↔ k' ≠ k ∧ m[k']? = none := by
  rw [Std.ExtTreeMap.getElem?_insert]
  by_cases hk : k' = k
  · rw [if_pos (by rw [hk, Std.compare_self])]
    exact iff_of_false (Option.some_ne_none v) fun h => h.1 hk
  · rw [if_neg fun hc => hk (Std.LawfulEqOrd.eq_of_compare hc).symm]
    exact (and_iff_right hk).symm

/-- What has just been inserted can be replaced. -/
theorem insertNew_insert {m m' : StdMap κ α} {k : κ} {v : α} (h : m.insertNew k v = (m', true))
    (v' : α) : m.insertNew k v' = (m'.insert k v', true) := by
  obtain ⟨hnone, hlookup⟩ := insertNew_eq_true h
  rw [insertNew_eq_of_none hnone]
  refine Prod.ext ?_ rfl
  apply Std.ExtTreeMap.ext_getElem?
  intro k'
  show (m.insert k v')[k']? = (m'.insert k v')[k']?
  rw [Std.ExtTreeMap.getElem?_insert, Std.ExtTreeMap.getElem?_insert, hlookup]
  by_cases hk : k' = k
  · rw [if_pos (by rw [hk, Std.compare_self]), if_pos (by rw [hk, Std.compare_self])]
  · rw [if_neg fun hc => hk (Std.LawfulEqOrd.eq_of_compare hc).symm,
      if_neg fun hc => hk (Std.LawfulEqOrd.eq_of_compare hc).symm, if_neg hk]

/-- **All are inserted** exactly if no key is there already and none comes twice. -/
theorem exists_insertAllNew_iff {m : StdMap κ α} {entries : List (κ × α)} :
    (∃ m', m.insertAllNew entries = some m') ↔
      (entries.map Prod.fst).Nodup ∧ ∀ k ∈ entries.map Prod.fst, m[k]? = none := by
  induction entries generalizing m with
  | nil => exact iff_of_true ⟨m, rfl⟩ ⟨List.nodup_nil, fun _ h => nomatch h⟩
  | cons entry entries ih =>
    obtain ⟨k, v⟩ := entry
    rw [List.map_cons, List.nodup_cons, List.forall_mem_cons]
    by_cases hk : m[k]? = none
    · have hstep : m.insertAllNew ((k, v) :: entries) =
          insertAllNew (m.insert k v) entries := by
        rw [insertAllNew, insertNew_eq_of_none hk]
      rw [hstep, ih]
      constructor
      · rintro ⟨hnodup, hnew⟩
        refine ⟨⟨fun hmem => ?_, hnodup⟩, hk, fun k' hk' => ?_⟩
        · exact (getElem?_insert_eq_none_iff.mp (hnew k hmem)).1 rfl
        · exact (getElem?_insert_eq_none_iff.mp (hnew k' hk')).2
      · rintro ⟨⟨hmem, hnodup⟩, -, hnew⟩
        refine ⟨hnodup, fun k' hk' => getElem?_insert_eq_none_iff.mpr ⟨?_, hnew k' hk'⟩⟩
        rintro rfl
        exact hmem hk'
    · have hstep : m.insertAllNew ((k, v) :: entries) = none := by
        rw [insertAllNew, insertNew_eq_of_some hk]
      rw [hstep]
      exact iff_of_false (fun ⟨_, h⟩ => nomatch h) fun h => hk h.2.1

/-- **What is there then.** -/
theorem getElem?_insertAllNew {m m' : StdMap κ α} {entries : List (κ × α)}
    (h : m.insertAllNew entries = some m') (k : κ) :
    m'[k]? = ((entries.find? (·.1 = k)).map (·.2)).or m[k]? := by
  induction entries generalizing m with
  | nil =>
    obtain rfl := Option.some.inj h
    rfl
  | cons entry entries ih =>
    obtain ⟨k', v⟩ := entry
    obtain ⟨hkeys, hfree⟩ := exists_insertAllNew_iff.mp ⟨m', h⟩
    rw [List.map_cons] at hkeys hfree
    obtain ⟨hfirst, -⟩ := List.nodup_cons.mp hkeys
    rw [insertAllNew, insertNew_eq_of_none (hfree k' List.mem_cons_self)] at h
    rw [ih h, Std.ExtTreeMap.getElem?_insert]
    by_cases hk : k' = k
    · have hnone : entries.find? (·.1 = k) = none := by
        refine List.find?_eq_none.mpr fun entry hentry heq => ?_
        rw [hk] at hfirst
        exact hfirst (List.mem_map.mpr ⟨entry, hentry, of_decide_eq_true heq⟩)
      rw [if_pos (by rw [hk, Std.compare_self]), hnone,
        List.find?_cons_of_pos (by simpa using hk)]
      rfl
    · rw [if_neg fun hc => hk (Std.LawfulEqOrd.eq_of_compare hc),
        List.find?_cons_of_neg (by simpa using hk)]

end StdMap
