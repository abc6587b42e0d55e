/-
  Reading JSON output back.

  `escape` leaves most control bytes as they are, so the reader here is the one of the JSON grammar
  with control bytes allowed inside string literals (`uncontrolled_iff`), and nothing else changed.
  For that reader every tree prints a text of the grammar (`denotes_toStdString`), so completeness
  of the reader gives the round trip: from the text of a tree, with anything behind it that cannot
  continue a number, the reader recovers the tree and stops where the text stops.  Since a tree is
  determined by the JSON value it stands for, the text determines the tree.
-/
import ThreadServer.Json
import ThreadServer.Lib.JsonReader
import Mathlib.Data.List.OfFn

namespace ThreadServer.JSON

open Bytes Rfc8259

/-- The bytes the reader lets stand raw are those of the grammar and the control bytes. -/
theorem uncontrolled_iff {c : UInt8} : uncontrolled c = true ↔ unescaped c = true ∨ c < 0x20 := by
  rw [uncontrolled, unescaped, decide_eq_true_iff, decide_eq_true_iff]
  constructor
  · intro h
    rcases UInt8.le_total 0x20 c with hle | hle
    · exact Or.inl ⟨hle, h⟩
    · by_cases heq : c = 0x20
      · exact Or.inl ⟨by rw [heq]; decide, h⟩
      · exact Or.inr (UInt8.lt_of_le_of_ne hle heq)
  · rintro (h | h)
    · exact h.2
    · constructor <;>
      · rintro rfl
        exact absurd h (by decide)

/-- Whatever `escape` leaves alone may stand raw for this reader. -/
theorem printable_uncontrolled (c : UInt8) : Printable uncontrolled c := by
  by_cases hc : c ∈ escapedBytes
  · exact Or.inl hc
  · refine Or.inr (decide_eq_true ⟨?_, ?_⟩) <;>
    · rintro rfl
      exact hc (by decide)

theorem allChars_of_forall {p : UInt8 → Prop} (h : ∀ c, p c) (v : Value) : v.AllChars p := by
  induction v with
  | null | bool data | int data => trivial
  | string data =>
    intro c _
    exact h c
  | struct names ascending values ih => exact ⟨fun _ _ c _ => h c, ih⟩
  | array size items ih => exact ih

/-- **A tree is determined by the JSON value it stands for.** -/
theorem toJson_injective : Function.Injective Value.toJson := by
  intro v
  induction v with
  | null =>
    intro w h
    cases w <;> first | rfl | exact nomatch h
  | bool data =>
    intro w h
    cases w <;> first | exact congrArg Value.bool (Json.bool.inj h) | exact nomatch h
  | int data =>
    intro w h
    cases w <;> first
      | exact congrArg Value.int (Int64.toInt_inj.mp (Json.num.inj h).1)
      | exact nomatch h
  | string data =>
    intro w h
    cases w <;> first | exact congrArg Value.string (Json.str.inj h) | exact nomatch h
  | struct names ascending values ih =>
    intro w h
    cases w with
    | struct names' ascending' values' =>
      have hmembers := Json.obj.inj h
      have hnames : names = names' := by
        have hfst := congrArg (List.map Prod.fst) hmembers
        rw [List.map_ofFn, List.map_ofFn] at hfst
        rw [← List.ofFn_get names, ← List.ofFn_get names']
        exact hfst
      subst hnames
      have hvalues : values = values' := by
        funext i
        exact ih i (Prod.mk.inj (congrFun (List.ofFn_injective hmembers) i)).2
      rw [hvalues]
    | null | bool _ | int _ | string _ | array _ _ => exact nomatch h
  | array size items ih =>
    intro w h
    cases w with
    | array size' items' =>
      have hitems := Json.arr.inj h
      have hsize : size = size' := by
        have hlength := congrArg List.length hitems
        rwa [List.length_ofFn, List.length_ofFn] at hlength
      subst hsize
      have hvalues : items = items' := by
        funext i
        exact ih i (congrFun (List.ofFn_injective hitems) i)
      rw [hvalues]
    | null | bool _ | int _ | string _ | struct _ _ _ => exact nomatch h

/-- The round trip of one value. -/
theorem read_append (v : Value) {r : Bytes} (hr : Ends r) :
    read uncontrolled (v.toStdString ++ r) = some (v.toJson, r) :=
  read_complete [] (fun _ hc => nomatch hc)
    (denotes_toStdString v (allChars_of_forall printable_uncontrolled v)) hr

/-- **The reader inverts the conversion**: it recovers every tree from its text and leaves what
    follows, unless that continues a number.  So different trees print different texts, and a string
    or a member name is read to the end of its own literal, whatever it holds and whatever
    follows. -/
theorem read_toStdString :
    (∀ (v : Value) (r : Bytes), Ends r →
      read uncontrolled (v.toStdString ++ r) = some (v.toJson, r)) ∧
    Function.Injective Value.toJson ∧ Function.Injective Value.toStdString ∧
    ∀ s r : Bytes, readString uncontrolled (escape s ++ r) = some (s, r) := by
  refine ⟨fun v r hr => read_append v hr, toJson_injective, fun v w h => ?_, fun s r => ?_⟩
  · have hv := read_append v (r := []) fun c hc => nomatch hc
    rw [h, read_append w (r := []) fun c hc => nomatch hc] at hv
    exact toJson_injective (Prod.mk.inj (Option.some.inj hv)).1.symm
  · exact readString_complete (stringLiteral_escape fun c _ => printable_uncontrolled c) r

/-- A struct with a name that tries to close its literal, inside an array. -/
theorem read_toStdString_struct :
    read uncontrolled
      ((Value.struct [str "a\"\x7d"] (List.pairwise_singleton _ _) fun _ => .int (-5)).toStdString
        ++ str "]") = some (.obj [(str "a\"\x7d", .num (-5) 0)], str "]") :=
  read_toStdString.1 _ _ fun c hc => by
    obtain rfl : chr ']' = c := Option.some.inj hc
    decide

end ThreadServer.JSON
