/-
  JSON output inside a script element (`String_t::escape` and the conversions of `json.cc`).

  A page may have a JSON text between `<script>` and `</script>`.  The browser looks for the next
  `</` there before any script is parsed, so the text must not hold one, and `escape` writes a
  backslash in front of every `/`.

  1. **Specification** (`Embeddable`) — a text without raw line breaks, tabs, backspaces and form
     feeds, in which every `/` stands behind a backslash.
  2. **Joining** (`Embeddable.append`) — such texts can be joined: the backslash belongs to the same
     piece as its `/`, so no boundary between two pieces matters.
  3. **Result** (`embeddable_toStdString`) — by induction on the tree: whatever the strings and the
     names hold, the text of a value is `Embeddable`, and `</` is nowhere in it.
-/
import ThreadServer.Json

namespace ThreadServer.JSON

open Bytes Rfc8259

/-- Newline, carriage return, tab, backspace and form feed. -/
def breaks : List UInt8 := [chr '\n', chr '\r', chr '\t', 0x08, 0x0C]

/-- **A text that cannot break out** of the element it is written into. -/
structure Embeddable (t : Bytes) : Prop where
  noBreak : ∀ c ∈ t, c ∉ breaks
  slashes : Behind (chr '\\') (chr '/') t

/-- The bytes that `Embeddable` is about. -/
def restricted : List UInt8 := chr '/' :: breaks

namespace Embeddable

theorem of_unrestricted {t : Bytes} (h : ∀ c ∈ t, c ∉ restricted) : Embeddable t := by
  constructor
  · intro c hc hbreak
    exact h c hc (List.mem_cons_of_mem _ hbreak)
  · apply behind_of_notMem
    intro hslash
    exact h _ hslash List.mem_cons_self

/-- To decide it of a literal, walk the literal. -/
theorem of_all {t : Bytes} (h : (t.all fun c => decide (c ∉ restricted)) = true) : Embeddable t :=
  of_unrestricted (forall_of_all h)

theorem append {s t : Bytes} (hs : Embeddable s) (ht : Embeddable t) : Embeddable (s ++ t) := by
  constructor
  · intro c hc
    rcases List.mem_append.mp hc with hc | hc
    · exact hs.noBreak c hc
    · exact ht.noBreak c hc
  · exact hs.slashes.append ht.slashes

/-- There is no end tag in it. -/
theorem no_endTag {t : Bytes} (h : Embeddable t) : ¬ str "</" <:+: t :=
  h.slashes.not_infix (by decide)

end Embeddable

/-! ## The pieces -/

theorem embeddable_escapeChar (c : UInt8) : Embeddable (escapeChar c) := by
  rcases escapeChar_cases c with ⟨e, hmem, heq⟩ | ⟨hc, heq⟩
  · rw [heq]
    by_cases hslash : e = chr '/'
    · -- The one byte that needs its backslash.
      rw [hslash]
      exact ⟨forall_of_all (by decide), behind_pair (by decide)⟩
    · have hall : ∀ p ∈ escapes, p.1 ≠ chr '/' → p.1 ∉ restricted := forall_of_all (by decide)
      refine .of_unrestricted (List.forall_mem_cons.mpr ⟨by decide, ?_⟩)
      intro d hd
      rw [List.mem_singleton.mp hd]
      exact hall _ hmem hslash
  · rw [heq]
    refine .of_unrestricted fun d hd => ?_
    rw [List.mem_singleton.mp hd]
    have hescaped : ∀ b ∈ restricted, b ∈ escapedBytes := forall_of_all (by decide)
    exact fun h => hc (hescaped c h)

theorem embeddable_escape (s : Bytes) : Embeddable (escape s) := by
  have hbody : Embeddable (s.flatMap escapeChar) := by
    induction s with
    | nil => exact .of_all rfl
    | cons c s ih => exact (embeddable_escapeChar c).append ih
  have hquote : Embeddable [chr '"'] := .of_all (by decide)
  exact (hquote.append hbody).append hquote

theorem embeddable_signedDecimal (n : Int) : Embeddable (signedDecimal n) := by
  have hdecimal : Embeddable (decimal n.natAbs) := by
    refine .of_unrestricted fun c hc hrestricted => ?_
    have hlow : ∀ b ∈ restricted, b.toNat < 48 := forall_of_all (by decide)
    have hdigit := isDigit_iff.mp (isDigit_of_mem_decimal hc)
    have hless := hlow c hrestricted
    omega
  unfold signedDecimal
  split
  · exact Embeddable.append (s := [chr '-']) (.of_all (by decide)) hdecimal
  · exact hdecimal

/-- The loops over what a `Struct_t` or an `Array_t` contains. -/
theorem embeddable_writeItems {comma : Bytes} (hcomma : Embeddable comma) {items : List Bytes}
    (hitems : ∀ item ∈ items, Embeddable item) : Embeddable (writeItems comma items) := by
  induction items generalizing comma with
  | nil => exact .of_all rfl
  | cons item items ih =>
    obtain ⟨hitem, hrest⟩ := List.forall_mem_cons.mp hitems
    exact (hcomma.append hitem).append (ih (.of_all (by decide)) hrest)

/-! ## The tree -/

theorem embeddable_value (v : Value) : Embeddable v.toStdString := by
  induction v with
  | null => exact .of_all (by decide)
  | bool data => cases data <;> exact .of_all (by decide)
  | int data => exact embeddable_signedDecimal _
  | string data => exact embeddable_escape data
  | struct names ascending values ih =>
    have hitems : Embeddable (writeItems [] (List.ofFn fun i =>
        escape (names.get i) ++ str ":" ++ (values i).toStdString)) := by
      refine embeddable_writeItems (.of_all rfl) fun item hitem => ?_
      obtain ⟨i, rfl⟩ := List.mem_ofFn.mp hitem
      exact ((embeddable_escape _).append (.of_all (by decide))).append (ih i)
    have hopen : Embeddable [chr '{'] := .of_all (by decide)
    exact (hopen.append hitems).append (.of_all (by decide))
  | array size items ih =>
    have hitems : Embeddable (writeItems [] (List.ofFn fun i => (items i).toStdString)) := by
      refine embeddable_writeItems (.of_all rfl) fun item hitem => ?_
      obtain ⟨i, rfl⟩ := List.mem_ofFn.mp hitem
      exact ih i
    have hopen : Embeddable [chr '['] := .of_all (by decide)
    exact (hopen.append hitems).append (.of_all (by decide))

/-- **The text of a value stays inside its script element**: it holds no raw line break, tab,
    backspace or form feed, every `/` in it stands immediately behind a backslash, and so `</` is
    nowhere in it. -/
theorem embeddable_toStdString (v : Value) :
    (∀ c ∈ v.toStdString, c ≠ chr '\n' ∧ c ≠ chr '\r' ∧ c ≠ chr '\t' ∧ c ≠ 0x08 ∧ c ≠ 0x0C) ∧
    (∀ before after, v.toStdString = before ++ chr '/' :: after →
      ∃ start, before = start ++ [chr '\\']) ∧
    ¬ str "</" <:+: v.toStdString := by
  have h := embeddable_value v
  refine ⟨fun c hc => ?_, h.slashes, h.no_endTag⟩
  have hbreak := h.noBreak c hc
  simpa only [breaks, List.mem_cons, List.not_mem_nil, or_false, not_or] using hbreak

end ThreadServer.JSON
