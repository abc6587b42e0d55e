/-
  The parameters of a request over their life: filled by any number of `parse` and `parseMime`
  calls, and read in between (`Parameters_t` and `MimeParameters_t`).

  `getFirst`, `getIndexed` and `getIndexedFiles` look a name up and take `front()` of what they
  find, without asking whether there is anything.

  1. **Calls** (`ParseCall`) — `mimetic` may do something else in every `parseMime` call; it may
     also give up, and leave only the parts it had got to.
  2. **Specification** (`Parameters.Readable`, `MimeParameters.Readable`) — every name that is there
     has something, and no reader takes the front of an empty list, whatever it looks up.
  3. **Result** (`throughout_readable`) — so it is in every state: what one token and one part do
     (`filled_parseToken`, `filled_parsePart`), then a call, then any sequence of calls.
-/
import ThreadServer.Indexed
import ThreadServer.Lib.Transition

namespace ThreadServer

open Bytes Transition

/-! ## The specification -/

/-- **No reader of the values goes wrong**: each name has a value, so there is a front to take. -/
structure Parameters.Readable (params : Parameters) : Prop where
  values : params.data.Filled
  getFirst {α : Type} (cast : Bytes → Except Exn α) (name : Bytes) :
    params.getFirst cast name ≠ none
  getIndexed {Regex : Type} (compile : Bytes → Except Exn Regex)
    (regexMatch : Regex → Bytes → Option (List Bytes)) (name : Bytes) :
    params.getIndexed compile regexMatch name ≠ none

/-- The same, and for the files. -/
structure MimeParameters.Readable (params : MimeParameters) : Prop
    extends params.toParameters.Readable where
  files : params.fileData.Filled
  getIndexedFiles {Regex : Type} (compile : Bytes → Except Exn Regex)
    (regexMatch : Regex → Bytes → Option (List Bytes)) (name : Bytes) :
    params.getIndexedFiles compile regexMatch name ≠ none

/-! ## The readers -/

section Readers

variable {α Regex : Type} {compile : Bytes → Except Exn Regex}
  {regexMatch : Regex → Bytes → Option (List Bytes)}

/-- The loop takes no front that is not there, even if it is going to throw. -/
theorem indexedLoop_ne_none {search : Bytes → Option (List Bytes)}
    {entries : List (Bytes × List α)} (hne : ∀ entry ∈ entries, entry.2 ≠ [])
    (result : StdMap (List UInt64) α) : indexedLoop search entries result ≠ none := by
  induction entries generalizing result with
  | nil => exact Option.some_ne_none _
  | cons entry entries ih =>
    obtain ⟨key, values⟩ := entry
    obtain ⟨hvalues, hrest⟩ := List.forall_mem_cons.mp hne
    cases hsearch : search (cStr key) with
    | none =>
      rw [indexedLoop_skip hsearch]
      exact ih hrest result
    | some groups =>
      cases hgroups : groups.mapM toIndex with
      | error e =>
        rw [indexedLoop_throw hsearch hgroups]
        exact Option.some_ne_none _
      | ok indexes =>
        obtain ⟨first, rest, rfl⟩ := List.exists_cons_of_ne_nil hvalues
        rw [indexedLoop_insert hsearch hgroups]
        exact ih hrest _

theorem indexed_ne_none {data : StdMap Bytes (List α)} (h : data.Filled) (name : Bytes) :
    indexed compile regexMatch name data ≠ none := by
  unfold indexed
  cases compile (indexedPattern name) with
  | error e => exact Option.some_ne_none _
  | ok regex => exact indexedLoop_ne_none (toList_ne_nil h) ∅

theorem Parameters.getFirst_ne_none {params : Parameters} (h : params.data.Filled)
    (cast : Bytes → Except Exn α) (name : Bytes) : params.getFirst cast name ≠ none := by
  unfold getFirst
  cases hlookup : params.data[name]? with
  | none => exact Option.some_ne_none _
  | some values =>
    cases values with
    | nil => exact absurd rfl (h name [] hlookup)
    | cons first rest => exact Option.some_ne_none _

end Readers

/-- What is filled is readable. -/
theorem Parameters.readable_of_filled {params : Parameters} (h : params.data.Filled) :
    params.Readable where
  values := h
  getFirst := getFirst_ne_none h
  getIndexed _ _ name := indexed_ne_none h name

theorem MimeParameters.readable_of_filled {params : MimeParameters} (hdata : params.data.Filled)
    (hfiles : params.fileData.Filled) : params.Readable where
  toReadable := Parameters.readable_of_filled hdata
  files := hfiles
  getIndexedFiles _ _ name := indexed_ne_none hfiles name

/-! ## The calls -/

/-- A call that fills the parameters. -/
inductive ParseCall
  | parse (text : Bytes)
  /-- With what `mimetic` does during the call. -/
  | parseMime (mimetic : Mimetic) (text : Bytes)

namespace MimeParameters

/-- A call, on the parameters. -/
def call (params : MimeParameters) : ParseCall → MimeParameters
  | .parse text => params.parse text
  | .parseMime mimetic text => params.parseMime mimetic text

/-- A part is recorded as a value or as a file. -/
theorem filled_parsePart {params : MimeParameters}
    (h : params.data.Filled ∧ params.fileData.Filled) (mimetic : Mimetic) (part : MimePart) :
    (parsePart mimetic params part).data.Filled ∧
      (parsePart mimetic params part).fileData.Filled := by
  obtain ⟨hdata, hfiles⟩ := h
  rw [parsePart_eq]
  by_cases hfield : IsField part
  · rw [if_pos hfield]
    exact ⟨hdata.pushBack _ _, hfiles⟩
  · rw [if_neg hfield]
    exact ⟨hdata, hfiles.pushBack _ _⟩

/-- The step lemma: every call keeps both maps filled. -/
theorem filled_call {params : MimeParameters}
    (h : params.data.Filled ∧ params.fileData.Filled) (c : ParseCall) :
    (params.call c).data.Filled ∧ (params.call c).fileData.Filled := by
  cases c with
  | parse text => exact ⟨Parameters.filled_parse h.1 text, h.2⟩
  | parseMime mimetic text =>
    show ((mimetic.parts text).foldl (parsePart mimetic) params).data.Filled ∧
      ((mimetic.parts text).foldl (parsePart mimetic) params).fileData.Filled
    induction mimetic.parts text generalizing params with
    | nil => exact h
    | cons part parts ih => exact ih (filled_parsePart h mimetic part)

end MimeParameters

/-- **No reader ever takes the front of an empty list**, in any state that any sequence of calls
    leads to, of a `Parameters_t` as well as of a `MimeParameters_t`. -/
theorem throughout_readable :
    (∀ texts : List Bytes, Throughout (fun params text => some (params.parse text))
      Parameters.Readable Parameters.empty texts) ∧
    ∀ calls : List ParseCall, Throughout (fun params c => some (params.call c))
      MimeParameters.Readable MimeParameters.empty calls := by
  constructor
  · intro texts
    have hread : ∀ params : Parameters, params.data.Filled → params.Readable :=
      fun params h => Parameters.readable_of_filled h
    refine throughout_of_step hread ?_ texts StdMap.filled_empty
    intro params text params' h hnext
    obtain rfl : params.parse text = params' := Option.some.inj hnext
    exact Parameters.filled_parse h text
  · intro calls
    have hread : ∀ params : MimeParameters, params.data.Filled ∧ params.fileData.Filled →
        params.Readable :=
      fun params h => MimeParameters.readable_of_filled h.1 h.2
    refine throughout_of_step hread ?_ calls ⟨StdMap.filled_empty, StdMap.filled_empty⟩
    intro params c params' h hnext
    obtain rfl : params.call c = params' := Option.some.inj hnext
    exact MimeParameters.filled_call h c

end ThreadServer
