/-
  JSON output (`json.h`, `json.cc`): the values of a `Pool_t` and their conversion to `std::string`.

  1. **Values** — `Value` is a pool value with everything it points to.  A `Struct_t` keeps a
     `std::map`, so a struct is a list of names in strictly ascending order, the proof of which it
     carries, with one value for each.  `Double_t` is left out: it prints a floating-point number.
  2. **Conversion** — `toStdString`, with the `comma` of the two loops as it goes through them.
  3. **What is printed** (`denotes_toStdString`) — a text of the JSON grammar that denotes the
     value, as soon as the bytes that `escape` leaves alone may stand raw in a string literal.
     Control bytes may not, and `escape` knows five of them only, so the text is a sentence of the
     grammar exactly when no string or name holds another (`sentence_iff`).
-/
import ThreadServer.Lib.JsonGrammar

namespace ThreadServer.JSON

open Bytes Rfc8259

/-- A pool value. -/
inductive Value
  | null
  | bool (data : Bool)
  | int (data : Int64)
  | string (data : Bytes)
  | struct (names : List Bytes) (ascending : names.Pairwise (· < ·))
      (values : Fin names.length → Value)
  | array (size : Nat) (items : Fin size → Value)

/-! ## Conversion to `std::string` -/

/-- The body of `escape`'s loop: what one byte is written as. -/
def escapeChar (c : UInt8) : Bytes :=
  if c = chr '\n' then str "\\n"
  else if c = chr '\r' then str "\\r"
  else if c = 0x08 then str "\\b"
  else if c = 0x0C then str "\\f"
  else if c = chr '\t' then str "\\t"
  else (if c = chr '"' ∨ c = chr '\\' ∨ c = chr '/' then [chr '\\'] else []) ++ [c]

/-- `String_t::escape`. -/
def escape (s : Bytes) : Bytes := chr '"' :: s.flatMap escapeChar ++ [chr '"']

/-- The loops of `Struct_t` and `Array_t` over what they contain: `comma` is empty before the first
    item only. -/
def writeItems : Bytes → List Bytes → Bytes
  | _, [] => []
  | comma, item :: items => comma ++ item ++ writeItems (str ",") items

/-- `operator std::string`. -/
def Value.toStdString : Value → Bytes
  | null => str "null"
  | bool data => if data then str "true" else str "false"
  | int data => signedDecimal data.toInt
  | string data => escape data
  | struct names _ values =>
    [chr '{'] ++ writeItems [] (List.ofFn fun i =>
      escape (names.get i) ++ str ":" ++ (values i).toStdString) ++ [chr '}']
  | array _ items =>
    [chr '['] ++ writeItems [] (List.ofFn fun i => (items i).toStdString) ++ [chr ']']

/-- What a value is, as JSON. -/
def Value.toJson : Value → Json
  | null => .null
  | bool data => .bool data
  | int data => .num data.toInt 0
  | string data => .str data
  | struct names _ values => .obj (List.ofFn fun i => (names.get i, (values i).toJson))
  | array _ items => .arr (List.ofFn fun i => (items i).toJson)

/-- Every byte of every string and every member name satisfies `p`. -/
def Value.AllChars (p : UInt8 → Prop) : Value → Prop
  | null | bool _ | int _ => True
  | string data => ∀ c ∈ data, p c
  | struct names _ values => (∀ name ∈ names, ∀ c ∈ name, p c) ∧ ∀ i, (values i).AllChars p
  | array _ items => ∀ i, (items i).AllChars p

/-- The loops join what they write with commas. -/
theorem writeItems_eq (items : List Bytes) : writeItems [] items = [chr ','].intercalate items := by
  have hrest : ∀ items : List Bytes, items ≠ [] →
      writeItems (str ",") items = chr ',' :: [chr ','].intercalate items := by
    intro items hne
    induction items with
    | nil => exact absurd rfl hne
    | cons item items ih =>
      cases items with
      | nil => simp [writeItems, str]
      | cons item' items =>
        rw [writeItems, ih (List.cons_ne_nil _ _), List.intercalate_cons_cons]
        simp [str]
  cases items with
  | nil => rfl
  | cons item items =>
    cases items with
    | nil => simp [writeItems]
    | cons item' items =>
      rw [writeItems, hrest _ (List.cons_ne_nil _ _), List.intercalate_cons_cons]
      simp

/-! ## What is printed -/

/-- The bytes that `escape` writes as an escape sequence. -/
def escapedBytes : List UInt8 := escapes.map (·.2)

/-- A byte is written as the escape sequence that stands for it, or as itself. -/
theorem escapeChar_cases (c : UInt8) :
    (∃ e, (e, c) ∈ escapes ∧ escapeChar c = [chr '\\', e]) ∨
      (c ∉ escapedBytes ∧ escapeChar c = [c]) := by
  have hall : ∀ p ∈ escapes, escapeChar p.2 = [chr '\\', p.1] := forall_of_all (by decide)
  by_cases hc : c ∈ escapedBytes
  · obtain ⟨⟨e, _⟩, hmem, rfl⟩ := List.mem_map.mp hc
    exact Or.inl ⟨e, hmem, hall _ hmem⟩
  · refine Or.inr ⟨hc, ?_⟩
    have hne : ∀ b ∈ escapedBytes, c ≠ b := by
      rintro b hb rfl
      exact hc hb
    rw [escapeChar, if_neg (hne _ (by decide)), if_neg (hne _ (by decide)),
      if_neg (hne _ (by decide)), if_neg (hne _ (by decide)), if_neg (hne _ (by decide)),
      if_neg (not_or.mpr ⟨hne _ (by decide), not_or.mpr ⟨hne _ (by decide), hne _ (by decide)⟩⟩),
      List.nil_append]

variable {raw : UInt8 → Bool}

/-- What may be printed in a literal: what `escape` escapes, and what may stand raw. -/
def Printable (raw : UInt8 → Bool) (c : UInt8) : Prop := c ∈ escapedBytes ∨ raw c = true

theorem character_escapeChar {c : UInt8} (h : Printable raw c) :
    Character raw (escapeChar c) [c] := by
  rcases escapeChar_cases c with ⟨e, hmem, heq⟩ | ⟨hc, heq⟩
  · rw [heq]
    exact .escape hmem
  · rw [heq]
    refine .raw (h.resolve_left hc) ?_ ?_ <;>
    · rintro rfl
      exact hc (by decide)

/-- **`escape` prints a string literal** that stands for the string. -/
theorem stringLiteral_escape {s : Bytes} (h : ∀ c ∈ s, Printable raw c) :
    StringLiteral raw (escape s) s := by
  refine ⟨s.flatMap escapeChar, ?_, rfl⟩
  induction s with
  | nil => exact .nil
  | cons c s ih =>
    obtain ⟨hc, hs⟩ := List.forall_mem_cons.mp h
    exact .cons (character_escapeChar hc) (ih hs)

/-- A text with no whitespace around it. -/
def bare (t : Bytes) : Padded := ⟨[], t, []⟩

theorem bare_whole (t : Bytes) : (bare t).whole = t := by simp [bare, Padded.whole]

theorem bare_ws (t : Bytes) : (bare t).Ws := ⟨fun _ h => (nomatch h), fun _ h => nomatch h⟩

/-- A numeral has no leading zero. -/
theorem isInt_decimal (n : Nat) : IsInt (decimal n) := by
  obtain ⟨d, ds, hd, heq, hds, hzero⟩ := decimal_eq_cons n
  refine ⟨⟨by simp [heq], fun c hc => isDigit_of_mem_decimal hc⟩, fun hhead => ?_⟩
  rw [heq, List.head?_cons] at hhead
  have hd0 : digitValue (digit d) = 0 := by rw [Option.some.inj hhead]; rfl
  rw [digitValue_digit hd] at hd0
  rw [heq, (hzero hd0).2]
  rfl

theorem number_signedDecimal (n : Int) : Number (signedDecimal n) n 0 := by
  have hnumber : ∀ {minus : Bytes} {negative : Bool}, Minus minus negative →
      Number (minus ++ decimal n.natAbs) (signed negative (decimal n.natAbs)) 0 := by
    intro minus negative hminus
    simpa using Number.number hminus (isInt_decimal n.natAbs) .absent .absent
  by_cases hn : n < 0
  · have hvalue : signed true (decimal n.natAbs) = n := by
      rw [signed, if_pos rfl, value_decimal]
      omega
    have hminus := hnumber .minus
    rw [hvalue] at hminus
    rw [signedDecimal, if_pos hn]
    exact hminus
  · have hvalue : signed false (decimal n.natAbs) = n := by
      rw [signed, if_neg (by decide), value_decimal]
      omega
    have habsent := hnumber .absent
    rw [hvalue] at habsent
    rw [signedDecimal, if_neg hn]
    exact habsent

/-- **The text denotes the value.** -/
theorem denotes_toStdString (v : Value) (h : v.AllChars (Printable raw)) :
    Denotes raw v.toStdString v.toJson := by
  induction v with
  | null => exact .nullLiteral
  | bool data =>
    cases data with
    | false => exact .falseLiteral
    | true => exact .trueLiteral
  | int data => exact .number (number_signedDecimal _)
  | string data => exact .string (stringLiteral_escape h)
  | struct names ascending values ih =>
    obtain ⟨hnames, hvalues⟩ := h
    let member (i : Fin names.length) : Member :=
      ⟨bare (escape (names.get i)), names.get i, bare (values i).toStdString, (values i).toJson⟩
    have hwhole : Member.whole ∘ member =
        fun i => escape (names.get i) ++ str ":" ++ (values i).toStdString :=
      funext fun i => by simp [member, Member.whole, bare_whole, str]
    rw [Value.toStdString, writeItems_eq, ← hwhole, ← List.map_ofFn]
    have hobj : (Value.struct names ascending values).toJson =
        .obj ((List.ofFn member).map fun m => (m.name, m.value)) := by
      rw [List.map_ofFn]
      rfl
    rw [hobj]
    refine .ofMembers (List.ofFn member) ?_ ?_ ?_
    all_goals
      intro m hm
      obtain ⟨i, rfl⟩ := List.mem_ofFn.mp hm
    · exact ⟨bare_ws _, bare_ws _⟩
    · exact stringLiteral_escape (hnames _ (List.get_mem names i))
    · exact ih i (hvalues i)
  | array size items ih =>
    let element (i : Fin size) : Element := ⟨bare (items i).toStdString, (items i).toJson⟩
    have hwhole : (fun e : Element => e.padded.whole) ∘ element = fun i => (items i).toStdString :=
      funext fun i => bare_whole _
    rw [Value.toStdString, writeItems_eq, ← hwhole, ← List.map_ofFn]
    have harr : (Value.array size items).toJson = .arr ((List.ofFn element).map (·.value)) := by
      rw [List.map_ofFn]
      rfl
    rw [harr]
    refine .ofElements (List.ofFn element) ?_ ?_
    all_goals
      intro e he
      obtain ⟨i, rfl⟩ := List.mem_ofFn.mp he
    · exact bare_ws _
    · exact ih i (h i)

/-! ## When the text is a sentence -/

/-- A byte that is no control byte, or one of the five that `escape` knows. -/
def Clean (c : UInt8) : Prop := 0x20 ≤ c ∨ c = 0x08 ∨ c = 0x09 ∨ c = 0x0A ∨ c = 0x0C ∨ c = 0x0D

instance (c : UInt8) : Decidable (Clean c) :=
  inferInstanceAs (Decidable (0x20 ≤ c ∨ c = 0x08 ∨ c = 0x09 ∨ c = 0x0A ∨ c = 0x0C ∨ c = 0x0D))

/-- Clean bytes are the ones the grammar lets `escape` print. -/
theorem clean_iff_printable {c : UInt8} : Clean c ↔ Printable unescaped c := by
  simp only [Clean, Printable, escapedBytes, escapes, unescaped, List.map_cons, List.map_nil,
    List.mem_cons, List.not_mem_nil, or_false, decide_eq_true_iff]
  constructor
  · rintro (hc | hc)
    · by_cases hquote : c = chr '"'
      · exact Or.inl (Or.inl hquote)
      by_cases hslash : c = chr '\\'
      · exact Or.inl (Or.inr (Or.inl hslash))
      · exact Or.inr ⟨hc, hquote, hslash⟩
    · rcases hc with rfl | rfl | rfl | rfl | rfl <;> decide
  · rintro (hc | hc)
    · rcases hc with rfl | rfl | rfl | rfl | rfl | rfl | rfl | rfl <;> decide
    · exact Or.inl hc.1

theorem Value.AllChars.mono {p q : UInt8 → Prop} (hpq : ∀ c, p c → q c) {v : Value}
    (h : v.AllChars p) : v.AllChars q := by
  induction v with
  | null | bool data | int data => trivial
  | string data =>
    intro c hc
    exact hpq c (h c hc)
  | struct names ascending values ih =>
    obtain ⟨hnames, hvalues⟩ := h
    exact ⟨fun name hname c hc => hpq c (hnames name hname c hc), fun i => ih i (hvalues i)⟩
  | array size items ih =>
    intro i
    exact ih i (h i)

/-- A byte that `escape` leaves alone is in the text, so only a clean one can be in a text that
    holds no control byte but whitespace. -/
theorem clean_of_plain {s : Bytes} (h : ∀ c ∈ escape s, Plain c) : ∀ c ∈ s, Clean c := by
  intro c hc
  rcases escapeChar_cases c with ⟨e, hmem, -⟩ | ⟨-, heq⟩
  · have hall : ∀ p ∈ escapes, Clean p.2 := forall_of_all (by decide)
    exact hall _ hmem
  · have hplain : Plain c := by
      have hwritten : c ∈ s.flatMap escapeChar := by
        refine List.mem_flatMap.mpr ⟨c, hc, ?_⟩
        rw [heq]
        exact List.mem_singleton.mpr rfl
      exact h c (List.mem_append_left _ (List.mem_cons_of_mem _ hwritten))
    rcases hplain with hc | hws
    · exact Or.inl hc
    · rw [isWs, decide_eq_true_iff] at hws
      rcases hws with rfl | rfl | rfl | rfl <;> decide

theorem allChars_of_plain (v : Value) (h : ∀ c ∈ v.toStdString, Plain c) : v.AllChars Clean := by
  induction v with
  | null | bool data | int data => trivial
  | string data => exact clean_of_plain h
  | struct names ascending values ih =>
    rw [Value.toStdString, writeItems_eq, List.forall_mem_append, List.forall_mem_append] at h
    have hitem : ∀ i, ∀ c ∈ escape (names.get i) ++ str ":" ++ (values i).toStdString, Plain c := by
      intro i c hc
      exact h.1.2 c (mem_intercalate_of_mem _ (List.mem_ofFn.mpr ⟨i, rfl⟩) hc)
    constructor
    · intro name hname
      obtain ⟨i, rfl⟩ := List.get_of_mem hname
      apply clean_of_plain
      intro c hc
      exact hitem i c (List.mem_append_left _ (List.mem_append_left _ hc))
    · intro i
      apply ih i
      intro c hc
      exact hitem i c (List.mem_append_right _ hc)
  | array size items ih =>
    rw [Value.toStdString, writeItems_eq, List.forall_mem_append, List.forall_mem_append] at h
    intro i
    have hitem : ∀ c ∈ (items i).toStdString, Plain c := by
      intro c hc
      exact h.1.2 c (mem_intercalate_of_mem _ (List.mem_ofFn.mpr ⟨i, rfl⟩) hc)
    exact ih i hitem

/-- **The conversion prints a sentence of the JSON grammar** exactly when no string and no member
    name in the tree holds a control byte other than `\b`, `\t`, `\n`, `\f` and `\r`. -/
theorem sentence_iff (v : Value) : Sentence unescaped v.toStdString ↔ v.AllChars Clean := by
  constructor
  · intro h
    exact allChars_of_plain v h.plain
  · intro h
    have hprintable : v.AllChars (Printable unescaped) :=
      h.mono fun c hc => clean_iff_printable.mp hc
    exact ⟨bare v.toStdString, bare_ws _, (bare_whole _).symm, _, denotes_toStdString v hprintable⟩

/-- **Counterexample**: a string with the byte 0x01. -/
theorem string_one_not_sentence : ¬ Sentence unescaped (Value.string [0x01]).toStdString := by
  intro h
  exact absurd (h.plain 0x01 (by decide)) (by unfold Plain; decide)

end ThreadServer.JSON
