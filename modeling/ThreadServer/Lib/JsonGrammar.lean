/-
  The JSON grammar of RFC 8259 over bytes, with what each text denotes.

  `Denotes raw t j` says that the text `t` (without surrounding whitespace) is a value of the
  grammar and denotes `j`; `Sentence raw t` that `t` is a JSON text.  Bytes from 0x80 on count as
  ordinary characters, so the encoding of characters above ASCII is no concern of the grammar's.

  `raw` is the set of bytes that may stand unescaped in a string literal.  The RFC's own set is
  `unescaped`; a lenient reader may take a larger one (`uncontrolled` lets control bytes stand).

  What is denoted: a number is `mantissa * 10 ^ exponent`; a string is its bytes, where `\u` stands
  for the bytes that encode its code unit (the two halves of a surrogate pair are encoded one by
  one); an object is its members in the order of the text.
-/
import ThreadServer.Lib.Bytes

namespace Rfc8259

open Bytes

/-- A JSON value. -/
inductive Json
  | null
  | bool (b : Bool)
  | num (mantissa exponent : Int)
  | str (content : Bytes)
  | arr (elements : List Json)
  | obj (members : List (Bytes × Json))

/-! ## Characters -/

/-- `ws` is made of space, tab, line feed and carriage return. -/
def isWs (c : UInt8) : Bool := c = 0x20 ∨ c = 0x09 ∨ c = 0x0A ∨ c = 0x0D

/-- The bytes that may stand unescaped in a string literal. -/
def unescaped (c : UInt8) : Bool := 0x20 ≤ c ∧ c ≠ chr '"' ∧ c ≠ chr '\\'

/-- The larger set that lets control bytes stand as well. -/
def uncontrolled (c : UInt8) : Bool := c ≠ chr '"' ∧ c ≠ chr '\\'

/-- The two-character escapes: what follows the backslash, and the byte it stands for. -/
def escapes : List (UInt8 × UInt8) :=
  [(chr '"', chr '"'), (chr '\\', chr '\\'), (chr '/', chr '/'), (chr 'b', 0x08), (chr 'f', 0x0C),
    (chr 'n', 0x0A), (chr 'r', 0x0D), (chr 't', 0x09)]

/-- The code unit written by four hexadecimal digits. -/
def unit? (a b c d : UInt8) : Option Nat := do
  return (((← hexValue? a) * 16 + (← hexValue? b)) * 16 + (← hexValue? c)) * 16 + (← hexValue? d)

/-- The bytes that encode a code unit. -/
def encodeUnit (n : Nat) : Bytes :=
  if n < 0x80 then [UInt8.ofNat n]
  else if n < 0x800 then [UInt8.ofNat (0xC0 + n / 64), UInt8.ofNat (0x80 + n % 64)]
  else
    [UInt8.ofNat (0xE0 + n / 4096), UInt8.ofNat (0x80 + n / 64 % 64), UInt8.ofNat (0x80 + n % 64)]

/-! ## The grammar -/

/-- `char`: one character of a string literal, and the bytes it stands for. -/
inductive Character (raw : UInt8 → Bool) : Bytes → Bytes → Prop
  | raw {c : UInt8} : raw c = true → c ≠ chr '"' → c ≠ chr '\\' → Character raw [c] [c]
  | escape {e c : UInt8} : (e, c) ∈ escapes → Character raw [chr '\\', e] [c]
  | unicode {a b c d : UInt8} {n : Nat} : unit? a b c d = some n →
      Character raw [chr '\\', chr 'u', a, b, c, d] (encodeUnit n)

/-- `*char`. -/
inductive Characters (raw : UInt8 → Bool) : Bytes → Bytes → Prop
  | nil : Characters raw [] []
  | cons {t u content rest : Bytes} : Character raw t content → Characters raw u rest →
      Characters raw (t ++ u) (content ++ rest)

/-- `string`. -/
def StringLiteral (raw : UInt8 → Bool) (t content : Bytes) : Prop :=
  ∃ u, Characters raw u content ∧ t = chr '"' :: u ++ [chr '"']

/-- `1*DIGIT`. -/
def Digits (d : Bytes) : Prop := d ≠ [] ∧ ∀ c ∈ d, isDigit c = true

/-- `int`: no zero leads unless it is the only digit. -/
def IsInt (d : Bytes) : Prop := Digits d ∧ (d.head? = some (chr '0') → d.length = 1)

instance (d : Bytes) : Decidable (IsInt d) :=
  inferInstanceAs (Decidable ((d ≠ [] ∧ ∀ c ∈ d, isDigit c = true) ∧ (_ → _)))

/-- `[ minus ]`. -/
inductive Minus : Bytes → Bool → Prop
  | absent : Minus [] false
  | minus : Minus [chr '-'] true

/-- `[ frac ]`, and its digits. -/
inductive Frac : Bytes → Bytes → Prop
  | absent : Frac [] []
  | digits {d : Bytes} : Digits d → Frac (chr '.' :: d) d

/-- `[ minus / plus ]`. -/
inductive Sign : Bytes → Bool → Prop
  | absent : Sign [] false
  | minus : Sign [chr '-'] true
  | plus : Sign [chr '+'] false

/-- The number with these digits and this sign. -/
def signed (negative : Bool) (d : Bytes) : Int := if negative then -(value d : Int) else value d

/-- `[ exp ]`, and its value. -/
inductive Exp : Bytes → Int → Prop
  | absent : Exp [] 0
  | exp {e : UInt8} {sign d : Bytes} {negative : Bool} : e = chr 'e' ∨ e = chr 'E' →
      Sign sign negative → Digits d → Exp (e :: sign ++ d) (signed negative d)

/-- `number`, as mantissa and exponent. -/
inductive Number : Bytes → Int → Int → Prop
  | number {minus int frac d exp : Bytes} {negative : Bool} {e : Int} : Minus minus negative →
      IsInt int → Frac frac d → Exp exp e →
      Number (minus ++ int ++ frac ++ exp) (signed negative (int ++ d)) (e - d.length)

/-- A text with whitespace around it. -/
structure Padded where
  before : Bytes
  text : Bytes
  after : Bytes

/-- The whole text, whitespace included. -/
def Padded.whole (p : Padded) : Bytes := p.before ++ p.text ++ p.after

/-- What is around the text is whitespace. -/
def Padded.Ws (p : Padded) : Prop :=
  (∀ c ∈ p.before, isWs c = true) ∧ ∀ c ∈ p.after, isWs c = true

/-- One element of an array, with the value it denotes. -/
structure Element where
  padded : Padded
  value : Json

/-- One member of an object, with the name and the value it denotes. -/
structure Member where
  paddedName : Padded
  name : Bytes
  paddedValue : Padded
  value : Json

/-- The whole text of a member. -/
def Member.whole (m : Member) : Bytes := m.paddedName.whole ++ chr ':' :: m.paddedValue.whole

/-- `value`: the text of a value, and what it denotes. -/
inductive Denotes (raw : UInt8 → Bool) : Bytes → Json → Prop
  | nullLiteral : Denotes raw (str "null") .null
  | falseLiteral : Denotes raw (str "false") (.bool false)
  | trueLiteral : Denotes raw (str "true") (.bool true)
  | number {t : Bytes} {mantissa exponent : Int} : Number t mantissa exponent →
      Denotes raw t (.num mantissa exponent)
  | string {t content : Bytes} : StringLiteral raw t content → Denotes raw t (.str content)
  | emptyArray {ws : Bytes} : (∀ c ∈ ws, isWs c = true) →
      Denotes raw (chr '[' :: ws ++ [chr ']']) (.arr [])
  | array {elements : List Element} : elements ≠ [] →
      (∀ e ∈ elements, e.padded.Ws) → (∀ e ∈ elements, Denotes raw e.padded.text e.value) →
      Denotes raw (chr '[' :: [chr ','].intercalate (elements.map (·.padded.whole)) ++ [chr ']'])
        (.arr (elements.map (·.value)))
  | emptyObject {ws : Bytes} : (∀ c ∈ ws, isWs c = true) →
      Denotes raw (chr '{' :: ws ++ [chr '}']) (.obj [])
  | object {members : List Member} : members ≠ [] →
      (∀ m ∈ members, m.paddedName.Ws ∧ m.paddedValue.Ws) →
      (∀ m ∈ members, StringLiteral raw m.paddedName.text m.name) →
      (∀ m ∈ members, Denotes raw m.paddedValue.text m.value) →
      Denotes raw (chr '{' :: [chr ','].intercalate (members.map (·.whole)) ++ [chr '}'])
        (.obj (members.map fun m => (m.name, m.value)))

/-- An array of any number of elements; without elements the brackets may stand side by side. -/
theorem Denotes.ofElements {raw : UInt8 → Bool} (elements : List Element)
    (hws : ∀ e ∈ elements, e.padded.Ws)
    (hvalues : ∀ e ∈ elements, Denotes raw e.padded.text e.value) :
    Denotes raw (chr '[' :: [chr ','].intercalate (elements.map (·.padded.whole)) ++ [chr ']'])
      (.arr (elements.map (·.value))) := by
  by_cases hne : elements = []
  · subst hne
    exact .emptyArray fun _ hc => nomatch hc
  · exact .array hne hws hvalues

/-- An object of any number of members. -/
theorem Denotes.ofMembers {raw : UInt8 → Bool} (members : List Member)
    (hws : ∀ m ∈ members, m.paddedName.Ws ∧ m.paddedValue.Ws)
    (hnames : ∀ m ∈ members, StringLiteral raw m.paddedName.text m.name)
    (hvalues : ∀ m ∈ members, Denotes raw m.paddedValue.text m.value) :
    Denotes raw (chr '{' :: [chr ','].intercalate (members.map (·.whole)) ++ [chr '}'])
      (.obj (members.map fun m => (m.name, m.value))) := by
  by_cases hne : members = []
  · subst hne
    exact .emptyObject fun _ hc => nomatch hc
  · exact .object hne hws hnames hvalues

/-- `JSON-text`: a value with whitespace around it. -/
def Sentence (raw : UInt8 → Bool) (t : Bytes) : Prop :=
  ∃ p : Padded, p.Ws ∧ t = p.whole ∧ ∃ j, Denotes raw p.text j

/-! ## What bytes a text is made of -/

/-- The bytes that no value needs to escape: whitespace, and everything that is no control byte. -/
def Plain (c : UInt8) : Prop := 0x20 ≤ c ∨ isWs c = true

theorem plain_of_isDigit {c : UInt8} (h : isDigit c = true) : Plain c := by
  refine Or.inl (UInt8.le_iff_toNat_le.mpr ?_)
  exact Nat.le_trans (by decide) (isDigit_iff.mp h).1

theorem plain_of_hexValue {c : UInt8} {d : Nat} (h : hexValue? c = some d) : Plain c := by
  have hle : ∀ k : UInt8, k ≤ c → 0x20 ≤ k → Plain c := by
    intro k hk h20
    exact Or.inl (UInt8.le_trans h20 hk)
  unfold hexValue? at h
  split at h
  · rename_i hc
    exact hle _ hc.1 (by decide)
  split at h
  · rename_i hc
    exact hle _ hc.1 (by decide)
  split at h
  · rename_i hc
    exact hle _ hc.1 (by decide)
  · exact nomatch h

variable {raw : UInt8 → Bool}

theorem Character.plain (hraw : ∀ c, raw c = true → Plain c) {t content : Bytes}
    (h : Character raw t content) : ∀ c ∈ t, Plain c := by
  cases h with
  | raw hc =>
    intro c hmem
    rw [List.mem_singleton.mp hmem]
    exact hraw _ hc
  | @escape e c hmem =>
    have hall : ∀ p ∈ escapes, 0x20 ≤ p.1 :=
      forall_of_all (by decide)
    intro c' hc'
    simp only [List.mem_cons, List.not_mem_nil, or_false] at hc'
    rcases hc' with rfl | rfl
    · exact Or.inl (by decide)
    · exact Or.inl (hall _ hmem)
  | @unicode a b c d n hunit =>
    simp only [unit?, Option.bind_eq_bind, Option.bind_eq_some_iff] at hunit
    obtain ⟨_, ha, _, hb, _, hc, _, hd, -⟩ := hunit
    intro c' hc'
    simp only [List.mem_cons, List.not_mem_nil, or_false] at hc'
    rcases hc' with rfl | rfl | rfl | rfl | rfl | rfl
    · exact Or.inl (by decide)
    · exact Or.inl (by decide)
    · exact plain_of_hexValue ha
    · exact plain_of_hexValue hb
    · exact plain_of_hexValue hc
    · exact plain_of_hexValue hd

theorem StringLiteral.plain (hraw : ∀ c, raw c = true → Plain c) {t content : Bytes}
    (h : StringLiteral raw t content) : ∀ c ∈ t, Plain c := by
  obtain ⟨u, hu, rfl⟩ := h
  have hquote : Plain (chr '"') := Or.inl (by decide)
  have hchars : ∀ c ∈ u, Plain c := by
    induction hu with
    | nil => exact List.forall_mem_nil _
    | cons hchar _ ih => exact List.forall_mem_append.mpr ⟨hchar.plain hraw, ih⟩
  simp only [List.cons_append, List.forall_mem_cons, List.forall_mem_append]
  exact ⟨hquote, hchars, hquote, List.forall_mem_nil _⟩

theorem Number.plain {t : Bytes} {mantissa exponent : Int} (h : Number t mantissa exponent) :
    ∀ c ∈ t, Plain c := by
  have hdigits : ∀ {d : Bytes}, Digits d → ∀ c ∈ d, Plain c := by
    intro d hd c hc
    exact plain_of_isDigit (hd.2 c hc)
  cases h with
  | @number minus int frac d exp negative e hminus hint hfrac hexp =>
    refine List.forall_mem_append.mpr ⟨List.forall_mem_append.mpr ⟨List.forall_mem_append.mpr
      ⟨?_, hdigits hint.1⟩, ?_⟩, ?_⟩
    · cases hminus with
      | absent => exact List.forall_mem_nil _
      | minus => exact List.forall_mem_cons.mpr ⟨Or.inl (by decide), List.forall_mem_nil _⟩
    · cases hfrac with
      | absent => exact List.forall_mem_nil _
      | digits hd => exact List.forall_mem_cons.mpr ⟨Or.inl (by decide), hdigits hd⟩
    · cases hexp with
      | absent => exact List.forall_mem_nil _
      | exp he hsign hd =>
        refine List.forall_mem_append.mpr ⟨List.forall_mem_cons.mpr ⟨?_, ?_⟩, hdigits hd⟩
        · rcases he with rfl | rfl <;> exact Or.inl (by decide)
        · cases hsign with
          | absent => exact List.forall_mem_nil _
          | minus | plus =>
            exact List.forall_mem_cons.mpr ⟨Or.inl (by decide), List.forall_mem_nil _⟩

theorem Padded.plain {p : Padded} (hws : p.Ws) (h : ∀ c ∈ p.text, Plain c) :
    ∀ c ∈ p.whole, Plain c := by
  have hbefore : ∀ c ∈ p.before, Plain c := fun c hc => Or.inr (hws.1 c hc)
  have hafter : ∀ c ∈ p.after, Plain c := fun c hc => Or.inr (hws.2 c hc)
  exact List.forall_mem_append.mpr ⟨List.forall_mem_append.mpr ⟨hbefore, h⟩, hafter⟩

/-- A list of texts in brackets. -/
theorem plain_bracketed {o c : UInt8} {ts : List Bytes} (ho : Plain o) (hc : Plain c)
    (h : ∀ t ∈ ts, ∀ c ∈ t, Plain c) : ∀ x ∈ o :: [chr ','].intercalate ts ++ [c], Plain x := by
  have hjoin : ∀ x ∈ [chr ','].intercalate ts, Plain x := by
    intro x hx
    rcases mem_intercalate hx with hx | ⟨t, ht, hx⟩
    · rw [List.mem_singleton.mp hx]
      exact Or.inl (by decide)
    · exact h t ht x hx
  simp only [List.cons_append, List.forall_mem_cons, List.forall_mem_append]
  exact ⟨ho, hjoin, hc, List.forall_mem_nil _⟩

/-- **A value holds no control byte but whitespace**, if string literals may hold no other raw. -/
theorem Denotes.plain (hraw : ∀ c, raw c = true → Plain c) {t : Bytes} {j : Json}
    (h : Denotes raw t j) : ∀ c ∈ t, Plain c := by
  have hmark : ∀ c, 0x20 ≤ c → Plain c := fun c hc => Or.inl hc
  induction h with
  | nullLiteral | falseLiteral | trueLiteral =>
    have hall : ∀ c ∈ str "null" ++ str "false" ++ str "true", 0x20 ≤ c :=
      forall_of_all (by decide)
    intro c hc
    exact hmark c (hall c (by simp [hc]))
  | number hn => exact hn.plain
  | string hs => exact hs.plain hraw
  | emptyArray hws | emptyObject hws =>
    simp only [List.cons_append, List.forall_mem_cons, List.forall_mem_append]
    exact ⟨hmark _ (by decide), fun c hc => Or.inr (hws c hc), hmark _ (by decide),
      List.forall_mem_nil _⟩
  | array _ hws _ ih =>
    refine plain_bracketed (hmark _ (by decide)) (hmark _ (by decide)) ?_
    exact List.forall_mem_map.mpr fun e he => Padded.plain (hws e he) (ih e he)
  | object _ hws hnames _ ih =>
    refine plain_bracketed (hmark _ (by decide)) (hmark _ (by decide)) ?_
    refine List.forall_mem_map.mpr fun m hm => List.forall_mem_append.mpr ⟨?_, ?_⟩
    · exact Padded.plain (hws m hm).1 ((hnames m hm).plain hraw)
    · exact List.forall_mem_cons.mpr
        ⟨hmark _ (by decide), Padded.plain (hws m hm).2 (ih m hm)⟩

/-- **A JSON text holds no control byte but whitespace.** -/
theorem Sentence.plain {t : Bytes} (h : Sentence unescaped t) : ∀ c ∈ t, Plain c := by
  obtain ⟨p, hws, rfl, j, hj⟩ := h
  have hunescaped : ∀ c, unescaped c = true → Plain c := by
    intro c hc
    rw [unescaped, decide_eq_true_iff] at hc
    exact Or.inl hc.1
  exact Padded.plain hws (hj.plain hunescaped)

end Rfc8259
