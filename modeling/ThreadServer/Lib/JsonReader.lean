/-
  A reader for the JSON grammar, and the proof that it reads exactly the grammar.

  `readValue raw fuel s` reads one value off the front of `s` and returns what it denotes with the
  rest of `s`.  It is written the way a hand-written reader is: it looks at the first byte, takes
  digits, characters and whitespace as far as they go, and never goes back.

  1. **Soundness** (`readValue_sound`) — what it took off is a text of the grammar that denotes what
     it returned.
  2. **Completeness** (`readValue_complete`) — every text of the grammar is read to its end, and
     what follows is left untouched, as long as what follows cannot continue a number (`Ends`).  The
     other values end in a byte of their own, a number only where no digit, `.`, `e` or `E` follows.

  The two container loops are one, `readItems`, over any kind of item; what is asked of an item is
  stated once (`readItems_sound`, `readItems_complete`).  `fuel` bounds the nesting and the number
  of items; the length of the text is enough for both.
-/
import ThreadServer.Lib.JsonGrammar
import Mathlib.Data.List.TakeWhile

namespace Rfc8259

open Bytes

/-! ## The reader -/

/-- `[ minus ]`. -/
def readMinus : Bytes → Bool × Bytes
  | [] => (false, [])
  | c :: s => if c = chr '-' then (true, s) else (false, c :: s)

/-- `[ frac ]`: its digits. -/
def readFrac : Bytes → Option (Bytes × Bytes)
  | [] => some ([], [])
  | c :: s =>
    if c = chr '.' then
      if s.takeWhile isDigit = [] then none else some (s.takeWhile isDigit, s.dropWhile isDigit)
    else some ([], c :: s)

/-- `[ minus / plus ]`. -/
def readSign : Bytes → Bool × Bytes
  | [] => (false, [])
  | c :: s =>
    if c = chr '-' then (true, s) else if c = chr '+' then (false, s) else (false, c :: s)

/-- `[ exp ]`: its value. -/
def readExp : Bytes → Option (Int × Bytes)
  | [] => some (0, [])
  | c :: s =>
    if c = chr 'e' ∨ c = chr 'E' then
      let (negative, s) := readSign s
      if s.takeWhile isDigit = [] then none
      else some (signed negative (s.takeWhile isDigit), s.dropWhile isDigit)
    else some (0, c :: s)

/-- `number`. -/
def readNumber (s : Bytes) : Option (Json × Bytes) :=
  let (negative, s) := readMinus s
  let int := s.takeWhile isDigit
  if IsInt int then do
    let (d, s) ← readFrac (s.dropWhile isDigit)
    let (e, s) ← readExp s
    some (.num (signed negative (int ++ d)) (e - d.length), s)
  else none

/-- The four digits of a `\u` escape. -/
def readUnit : Bytes → Option (Bytes × Bytes)
  | a :: b :: c :: d :: s => (unit? a b c d).map fun n => (encodeUnit n, s)
  | _ => none

/-- What follows the backslash of an escape sequence. -/
def readEscape : Bytes → Option (Bytes × Bytes)
  | [] => none
  | e :: s =>
    if e = chr 'u' then readUnit s
    else (escapes.find? (·.1 = e)).map fun escape => ([escape.2], s)

/-- `char`. -/
def readCharacter (raw : UInt8 → Bool) : Bytes → Option (Bytes × Bytes)
  | [] => none
  | c :: s =>
    if c = chr '\\' then readEscape s
    else if raw c ∧ c ≠ chr '"' then some ([c], s)
    else none

/-- `*char`, up to and including the closing quote. -/
def readCharacters (raw : UInt8 → Bool) : Nat → Bytes → Option (Bytes × Bytes)
  | 0, _ => none
  | n + 1, s =>
    if s.head? = some (chr '"') then some ([], s.tail)
    else do
      let (content, s) ← readCharacter raw s
      let (rest, s) ← readCharacters raw n s
      some (content ++ rest, s)

/-- `string`. -/
def readString (raw : UInt8 → Bool) (s : Bytes) : Option (Bytes × Bytes) :=
  if s.head? = some (chr '"') then readCharacters raw s.length s.tail else none

/-- The literal names. -/
def literals : List (Bytes × Json) :=
  [(str "null", .null), (str "false", .bool false), (str "true", .bool true)]

/-- One of the literal names. -/
def readLiteral (s : Bytes) : Option (Json × Bytes) :=
  (literals.find? (·.1.isPrefixOf s)).map fun literal => (literal.2, s.drop literal.1.length)

section Items

variable {β : Type}

/-- Something with whitespace around it. -/
def readPadded (read : Bytes → Option (β × Bytes)) (s : Bytes) : Option (β × Bytes) := do
  let (b, s) ← read (s.dropWhile isWs)
  some (b, s.dropWhile isWs)

/-- Items separated by commas, up to and including the closing bracket. -/
def readItems (read : Bytes → Option (β × Bytes)) (close : UInt8) :
    Nat → Bytes → Option (List β × Bytes)
  | 0, _ => none
  | n + 1, s => do
    let (b, s) ← read s
    if s.head? = some (chr ',') then
      let (bs, s) ← readItems read close n s.tail
      some (b :: bs, s)
    else if s.head? = some close then some ([b], s.tail)
    else none

/-- What stands after an opening bracket: nothing, or items. -/
def readBracketed (read : Bytes → Option (β × Bytes)) (close : UInt8) (n : Nat) (s : Bytes) :
    Option (List β × Bytes) :=
  if (s.dropWhile isWs).head? = some close then some ([], (s.dropWhile isWs).tail)
  else readItems read close n s

end Items

/-- `member`. -/
def readMember (readName : Bytes → Option (Bytes × Bytes))
    (readValue : Bytes → Option (Json × Bytes)) (s : Bytes) :
    Option ((Bytes × Json) × Bytes) := do
  let (name, s) ← readPadded readName s
  if s.head? = some (chr ':') then
    let (j, s) ← readPadded readValue s.tail
    some ((name, j), s)
  else none

/-- `value`. -/
def readValue (raw : UInt8 → Bool) : Nat → Bytes → Option (Json × Bytes)
  | 0, _ => none
  | fuel + 1, s =>
    if s.head? = some (chr '"') then do
      let (content, s) ← readString raw s
      some (.str content, s)
    else if s.head? = some (chr '[') then do
      let (elements, s) ← readBracketed (readPadded (readValue raw fuel)) (chr ']') fuel s.tail
      some (.arr elements, s)
    else if s.head? = some (chr '{') then do
      let (members, s) ←
        readBracketed (readMember (readString raw) (readValue raw fuel)) (chr '}') fuel s.tail
      some (.obj members, s)
    else if s.head?.any fun c => isDigit c ∨ c = chr '-' then readNumber s
    else readLiteral s

/-- Read one value, with the whitespace before it. -/
def read (raw : UInt8 → Bool) (s : Bytes) : Option (Json × Bytes) :=
  readValue raw (s.length + 1) (s.dropWhile isWs)

/-- Fuel that exceeds something is there for one more step. -/
theorem exists_eq_succ_of_lt {m n : Nat} (h : m < n) : ∃ k, n = k + 1 := by
  refine ⟨n - 1, ?_⟩
  omega

/-! ## Numbers -/

/-- A byte that a number could go on with. -/
def continuesNumber (c : UInt8) : Bool :=
  isDigit c ∨ c = chr '.' ∨ c = chr 'e' ∨ c = chr 'E'

/-- What follows a value does not continue a number. -/
def Ends (r : Bytes) : Prop := ∀ c ∈ r.head?, continuesNumber c = false

theorem Digits.head {d u : Bytes} (h : Digits d) : ∀ c ∈ (d ++ u).head?, isDigit c = true := by
  cases d with
  | nil => exact absurd rfl h.1
  | cons c d =>
    have hc : isDigit c = true := h.2 c List.mem_cons_self
    exact forall_head_cons.mpr hc

theorem readMinus_complete {m u : Bytes} {negative : Bool} (h : Minus m negative)
    (hu : ∀ c ∈ u.head?, isDigit c = true) : readMinus (m ++ u) = (negative, u) := by
  cases h with
  | absent =>
    cases u with
    | nil => rfl
    | cons c u =>
      have hc : c ≠ chr '-' := by
        rintro rfl
        exact absurd (hu _ rfl) (by decide)
      exact if_neg hc
  | minus => rfl

theorem readSign_complete {sign u : Bytes} {negative : Bool} (h : Sign sign negative)
    (hu : ∀ c ∈ u.head?, isDigit c = true) : readSign (sign ++ u) = (negative, u) := by
  cases h with
  | absent =>
    cases u with
    | nil => rfl
    | cons c u =>
      have hc : c ≠ chr '-' ∧ c ≠ chr '+' := by
        constructor <;>
        · rintro rfl
          exact absurd (hu _ rfl) (by decide)
      exact (if_neg hc.1).trans (if_neg hc.2)
  | minus | plus => rfl

theorem readFrac_complete {f d u : Bytes} (h : Frac f d)
    (hu : ∀ c ∈ u.head?, isDigit c = false ∧ c ≠ chr '.') : readFrac (f ++ u) = some (d, u) := by
  cases h with
  | absent =>
    cases u with
    | nil => rfl
    | cons c u => exact if_neg (hu c rfl).2
  | digits hd =>
    obtain ⟨htake, hdrop⟩ := span_append hd.2 fun c hc => (hu c hc).1
    rw [List.cons_append, readFrac, if_pos rfl, htake, hdrop, if_neg hd.1]

theorem readExp_complete {x u : Bytes} {e : Int} (h : Exp x e)
    (hu : ∀ c ∈ u.head?, isDigit c = false ∧ c ≠ chr 'e' ∧ c ≠ chr 'E') :
    readExp (x ++ u) = some (e, u) := by
  cases h with
  | absent =>
    cases u with
    | nil => rfl
    | cons c u => exact if_neg (not_or.mpr (hu c rfl).2)
  | @exp e sign d negative he hsign hd =>
    obtain ⟨htake, hdrop⟩ := span_append hd.2 fun c hc => (hu c hc).1
    rw [List.cons_append, List.cons_append, List.append_assoc, readExp, if_pos he]
    simp only [readSign_complete hsign hd.head, htake, hdrop, if_neg hd.1]

theorem Frac.head {f d u : Bytes} (h : Frac f d) :
    ∀ c ∈ (f ++ u).head?, c = chr '.' ∨ c ∈ u.head? := by
  cases h with
  | absent =>
    intro c hc
    exact Or.inr hc
  | digits hd => exact forall_head_cons.mpr (Or.inl rfl)

theorem Exp.head {x u : Bytes} {e : Int} (h : Exp x e) :
    ∀ c ∈ (x ++ u).head?, (c = chr 'e' ∨ c = chr 'E') ∨ c ∈ u.head? := by
  cases h with
  | absent =>
    intro c hc
    exact Or.inr hc
  | exp he hsign hd => exact forall_head_cons.mpr (Or.inl he)

theorem readNumber_complete {t r : Bytes} {mantissa exponent : Int}
    (h : Number t mantissa exponent) (hr : Ends r) :
    readNumber (t ++ r) = some (.num mantissa exponent, r) := by
  cases h with
  | @number minus int frac d exp negative e hminus hint hfrac hexp =>
    have hends : ∀ c ∈ r.head?, isDigit c = false ∧ c ≠ chr '.' ∧ c ≠ chr 'e' ∧ c ≠ chr 'E' := by
      intro c hc
      have hc := hr c hc
      rw [continuesNumber, decide_eq_false_iff_not, not_or, not_or, not_or] at hc
      exact ⟨Bool.eq_false_iff.mpr hc.1, hc.2⟩
    have hexpHead : ∀ c ∈ (exp ++ r).head?, isDigit c = false ∧ c ≠ chr '.' := by
      intro c hc
      rcases hexp.head c hc with (rfl | rfl) | hc
      · decide
      · decide
      · exact ⟨(hends c hc).1, (hends c hc).2.1⟩
    have hfracHead : ∀ c ∈ (frac ++ (exp ++ r)).head?, isDigit c = false := by
      intro c hc
      rcases hfrac.head c hc with rfl | hc
      · decide
      · exact (hexpHead c hc).1
    obtain ⟨htake, hdrop⟩ := span_append hint.1.2 hfracHead
    rw [List.append_assoc, List.append_assoc, List.append_assoc, readNumber,
      readMinus_complete hminus hint.1.head]
    simp only [htake, hdrop, if_pos hint, readFrac_complete hfrac hexpHead,
      readExp_complete hexp fun c hc => ⟨(hends c hc).1, (hends c hc).2.2⟩, Option.bind_eq_bind,
      Option.bind_some]

theorem digits_takeWhile {s : Bytes} (h : s.takeWhile isDigit ≠ []) :
    Digits (s.takeWhile isDigit) :=
  ⟨h, fun _ => List.mem_takeWhile_imp⟩

theorem readMinus_sound (s : Bytes) : ∃ m, Minus m (readMinus s).1 ∧ s = m ++ (readMinus s).2 := by
  cases s with
  | nil => exact ⟨[], .absent, rfl⟩
  | cons c s =>
    by_cases hc : c = chr '-'
    · subst hc
      exact ⟨_, .minus, rfl⟩
    · rw [readMinus, if_neg hc]
      exact ⟨[], .absent, rfl⟩

theorem readSign_sound (s : Bytes) : ∃ m, Sign m (readSign s).1 ∧ s = m ++ (readSign s).2 := by
  cases s with
  | nil => exact ⟨[], .absent, rfl⟩
  | cons c s =>
    by_cases hminus : c = chr '-'
    · subst hminus
      exact ⟨_, .minus, rfl⟩
    by_cases hplus : c = chr '+'
    · subst hplus
      exact ⟨_, .plus, rfl⟩
    · rw [readSign, if_neg hminus, if_neg hplus]
      exact ⟨[], .absent, rfl⟩

theorem readFrac_sound {s d u : Bytes} (h : readFrac s = some (d, u)) :
    ∃ f, Frac f d ∧ s = f ++ u := by
  cases s with
  | nil =>
    obtain ⟨rfl, rfl⟩ := Prod.mk.inj (Option.some.inj h)
    exact ⟨[], .absent, rfl⟩
  | cons c s =>
    rw [readFrac] at h
    split at h
    · rename_i hc
      split at h
      · exact nomatch h
      · rename_i hne
        obtain ⟨rfl, rfl⟩ := Prod.mk.inj (Option.some.inj h)
        refine ⟨_, .digits (digits_takeWhile hne), ?_⟩
        rw [List.cons_append, List.takeWhile_append_dropWhile, hc]
    · obtain ⟨rfl, rfl⟩ := Prod.mk.inj (Option.some.inj h)
      exact ⟨[], .absent, rfl⟩

theorem readExp_sound {s u : Bytes} {e : Int} (h : readExp s = some (e, u)) :
    ∃ x, Exp x e ∧ s = x ++ u := by
  cases s with
  | nil =>
    obtain ⟨rfl, rfl⟩ := Prod.mk.inj (Option.some.inj h)
    exact ⟨[], .absent, rfl⟩
  | cons c s =>
    rw [readExp] at h
    split at h
    · rename_i hc
      obtain ⟨sign, hsign, hs⟩ := readSign_sound s
      dsimp only at h
      split at h
      · exact nomatch h
      · rename_i hne
        obtain ⟨rfl, rfl⟩ := Prod.mk.inj (Option.some.inj h)
        refine ⟨_, .exp hc hsign (digits_takeWhile hne), ?_⟩
        rw [List.append_assoc, List.takeWhile_append_dropWhile, List.cons_append, ← hs]
    · obtain ⟨rfl, rfl⟩ := Prod.mk.inj (Option.some.inj h)
      exact ⟨[], .absent, rfl⟩

theorem readNumber_sound {s u : Bytes} {j : Json} (h : readNumber s = some (j, u)) :
    ∃ t mantissa exponent, s = t ++ u ∧ j = .num mantissa exponent ∧
      Number t mantissa exponent := by
  obtain ⟨m, hm, hs⟩ := readMinus_sound s
  unfold readNumber at h
  dsimp only at h
  split at h
  · rename_i hint
    obtain ⟨⟨d, u1⟩, hfrac, h⟩ := Option.bind_eq_some_iff.mp h
    obtain ⟨⟨e, u2⟩, hexp, h⟩ := Option.bind_eq_some_iff.mp h
    obtain ⟨rfl, rfl⟩ := Prod.mk.inj (Option.some.inj h)
    obtain ⟨f, hf, hs1⟩ := readFrac_sound hfrac
    obtain ⟨x, hx, rfl⟩ := readExp_sound hexp
    refine ⟨_, _, _, ?_, rfl, .number hm hint hf hx⟩
    rw [List.append_assoc, List.append_assoc, List.append_assoc, ← hs1,
      List.takeWhile_append_dropWhile, ← hs]
  · exact nomatch h

/-! ## Strings -/

variable {raw : UInt8 → Bool}

/-- The escapes can be told apart by what follows the backslash. -/
theorem find_escape {e c : UInt8} (h : (e, c) ∈ escapes) :
    escapes.find? (·.1 = e) = some (e, c) ∧ e ≠ chr 'u' := by
  have hall : ∀ p ∈ escapes, escapes.find? (·.1 = p.1) = some p ∧ p.1 ≠ chr 'u' :=
    forall_of_all (by decide)
  exact hall _ h

theorem readCharacter_complete {t content : Bytes} (h : Character raw t content) (u : Bytes) :
    readCharacter raw (t ++ u) = some (content, u) := by
  cases h with
  | raw hc hquote hslash => exact (if_neg hslash).trans (if_pos ⟨hc, hquote⟩)
  | @escape e c hmem =>
    obtain ⟨hfind, hu⟩ := find_escape hmem
    show readEscape (e :: u) = _
    rw [readEscape, if_neg hu, hfind]
    rfl
  | @unicode a b c d n hunit =>
    show readEscape (chr 'u' :: a :: b :: c :: d :: u) = _
    rw [readEscape, if_pos rfl, readUnit, hunit]
    rfl

theorem readCharacter_sound {s content u : Bytes} (h : readCharacter raw s = some (content, u)) :
    ∃ t, Character raw t content ∧ s = t ++ u := by
  cases s with
  | nil => exact nomatch h
  | cons c s =>
    rw [readCharacter] at h
    split at h
    · rename_i hslash
      subst hslash
      cases s with
      | nil => exact nomatch h
      | cons e s =>
        rw [readEscape] at h
        split at h
        · rename_i hu
          subst hu
          unfold readUnit at h
          split at h
          · obtain ⟨n, hunit, heq⟩ := Option.map_eq_some_iff.mp h
            obtain ⟨rfl, rfl⟩ := Prod.mk.inj heq
            exact ⟨_, .unicode hunit, rfl⟩
          · exact nomatch h
        · obtain ⟨⟨e', c⟩, hfind, heq⟩ := Option.map_eq_some_iff.mp h
          obtain ⟨rfl, rfl⟩ := Prod.mk.inj heq
          obtain rfl : e' = e := by simpa using List.find?_some hfind
          exact ⟨_, .escape (List.mem_of_find?_eq_some hfind), rfl⟩
    · rename_i hslash
      split at h
      · rename_i hc
        obtain ⟨rfl, rfl⟩ := Prod.mk.inj (Option.some.inj h)
        exact ⟨_, .raw hc.1 hc.2 hslash, rfl⟩
      · exact nomatch h

/-- A character is at least one byte, and does not begin with the closing quote. -/
theorem Character.head {t content : Bytes} (h : Character raw t content) :
    ∃ c u, t = c :: u ∧ c ≠ chr '"' := by
  cases h with
  | raw hc hquote hslash => exact ⟨_, _, rfl, hquote⟩
  | escape hmem | unicode hunit => exact ⟨_, _, rfl, by decide⟩

theorem readCharacters_complete {t content : Bytes} (h : Characters raw t content) {n : Nat}
    (hn : t.length < n) (u : Bytes) :
    readCharacters raw n (t ++ chr '"' :: u) = some (content, u) := by
  induction h generalizing n with
  | nil =>
    obtain ⟨n, rfl⟩ := exists_eq_succ_of_lt hn
    rfl
  | @cons t t' content rest hchar _ ih =>
    obtain ⟨n, rfl⟩ := exists_eq_succ_of_lt hn
    obtain ⟨c, v, rfl, hquote⟩ := hchar.head
    have hhead : ((c :: v) ++ (t' ++ chr '"' :: u)).head? ≠ some (chr '"') :=
      fun heq => hquote (Option.some.inj heq)
    have hlength : t'.length < n := by
      rw [List.length_append, List.length_cons] at hn
      omega
    rw [List.append_assoc, readCharacters, if_neg hhead, readCharacter_complete hchar]
    simp only [Option.bind_eq_bind, Option.bind_some, ih hlength]

theorem readCharacters_sound {n : Nat} {s content u : Bytes}
    (h : readCharacters raw n s = some (content, u)) :
    ∃ t, Characters raw t content ∧ s = t ++ chr '"' :: u := by
  induction n generalizing s content with
  | zero => exact nomatch h
  | succ n ih =>
    rw [readCharacters] at h
    split at h
    · rename_i hquote
      obtain ⟨s', rfl⟩ := List.head?_eq_some_iff.mp hquote
      obtain ⟨rfl, rfl⟩ := Prod.mk.inj (Option.some.inj h)
      exact ⟨[], .nil, rfl⟩
    · obtain ⟨⟨c, s1⟩, hchar, h⟩ := Option.bind_eq_some_iff.mp h
      obtain ⟨⟨rest, s2⟩, hrest, h⟩ := Option.bind_eq_some_iff.mp h
      obtain ⟨rfl, rfl⟩ := Prod.mk.inj (Option.some.inj h)
      obtain ⟨t, ht, rfl⟩ := readCharacter_sound hchar
      obtain ⟨t', ht', rfl⟩ := ih hrest
      exact ⟨_, .cons ht ht', (List.append_assoc _ _ _).symm⟩

/-- **Strings are read to their closing quote**, whatever follows. -/
theorem readString_complete {t content : Bytes} (h : StringLiteral raw t content) (u : Bytes) :
    readString raw (t ++ u) = some (content, u) := by
  obtain ⟨v, hv, rfl⟩ := h
  have htext : chr '"' :: v ++ [chr '"'] ++ u = chr '"' :: (v ++ chr '"' :: u) := by simp
  rw [htext, readString, List.head?_cons, if_pos rfl]
  refine readCharacters_complete hv ?_ u
  rw [List.length_cons, List.length_append]
  omega

theorem readString_sound {s content u : Bytes} (h : readString raw s = some (content, u)) :
    ∃ t, StringLiteral raw t content ∧ s = t ++ u := by
  rw [readString] at h
  split at h
  · rename_i hquote
    obtain ⟨s', rfl⟩ := List.head?_eq_some_iff.mp hquote
    obtain ⟨t, ht, rfl⟩ := readCharacters_sound h
    exact ⟨_, ⟨t, ht, rfl⟩, by simp⟩
  · exact nomatch h

/-! ## Whitespace and items -/

section

variable {β γ : Type} {read : Bytes → Option (β × Bytes)} {close : UInt8}

/-- Skipping the whitespace before a text that does not begin with any. -/
theorem Padded.dropWhile {p : Padded} (hws : p.Ws) {r : Bytes}
    (htext : ∀ c ∈ (p.text ++ (p.after ++ r)).head?, isWs c = false) :
    (p.whole ++ r).dropWhile isWs = p.text ++ (p.after ++ r) := by
  rw [Padded.whole, List.append_assoc, List.append_assoc, (span_append hws.1 htext).2]

theorem Padded.length_text_le (p : Padded) : p.text.length ≤ p.whole.length := by
  rw [Padded.whole, List.length_append, List.length_append]
  omega

theorem readPadded_complete {p : Padded} (hws : p.Ws) {b : β} {r : Bytes}
    (htext : ∀ c ∈ (p.text ++ (p.after ++ r)).head?, isWs c = false)
    (hread : read (p.text ++ (p.after ++ r)) = some (b, p.after ++ r))
    (hr : ∀ c ∈ r.head?, isWs c = false) : readPadded read (p.whole ++ r) = some (b, r) := by
  rw [readPadded, Padded.dropWhile hws htext, hread]
  simp only [Option.bind_eq_bind, Option.bind_some, (span_append hws.2 hr).2]

theorem readPadded_sound {Q : Bytes → β → Prop}
    (hread : ∀ {s b u}, read s = some (b, u) → ∃ t, Q t b ∧ s = t ++ u) {s u : Bytes} {b : β}
    (h : readPadded read s = some (b, u)) :
    ∃ p : Padded, p.Ws ∧ Q p.text b ∧ s = p.whole ++ u := by
  obtain ⟨⟨b', s1⟩, hs1, h⟩ := Option.bind_eq_some_iff.mp h
  obtain ⟨rfl, rfl⟩ := Prod.mk.inj (Option.some.inj h)
  obtain ⟨t, ht, hdrop⟩ := hread hs1
  have hbefore : ∀ c ∈ s.takeWhile isWs, isWs c = true := fun _ => List.mem_takeWhile_imp
  have hafter : ∀ c ∈ s1.takeWhile isWs, isWs c = true := fun _ => List.mem_takeWhile_imp
  refine ⟨⟨s.takeWhile isWs, t, s1.takeWhile isWs⟩, ⟨hbefore, hafter⟩, ht, ?_⟩
  rw [Padded.whole, List.append_assoc, List.takeWhile_append_dropWhile, List.append_assoc, ← hdrop,
    List.takeWhile_append_dropWhile]

variable (text : γ → Bytes) (val : γ → β)

/-- **The loop over the items of a container reads them all**, if it reads each of them in front of
    a comma or the closing bracket. -/
theorem readItems_complete {gs : List γ} (hne : gs ≠ []) (hclose : close ≠ chr ',')
    (hread : ∀ g ∈ gs, ∀ r : Bytes, r.head? = some (chr ',') ∨ r.head? = some close →
      read (text g ++ r) = some (val g, r))
    {n : Nat} (hn : gs.length ≤ n) (r : Bytes) :
    readItems read close n ([chr ','].intercalate (gs.map text) ++ close :: r)
      = some (gs.map val, r) := by
  induction gs generalizing n with
  | nil => exact absurd rfl hne
  | cons g gs ih =>
    obtain ⟨n, rfl⟩ := exists_eq_succ_of_lt hn
    obtain ⟨hg, hgs⟩ := List.forall_mem_cons.mp hread
    rw [List.map_cons, readItems]
    by_cases hnil : gs = []
    · subst hnil
      rw [List.map_nil, List.intercalate_singleton, hg (close :: r) (Or.inr rfl)]
      simp only [Option.bind_eq_bind, Option.bind_some, List.head?_cons]
      rw [if_neg fun h => hclose (Option.some.inj h), if_pos trivial]
      rfl
    · have htail : [chr ','].intercalate (text g :: gs.map text) ++ close :: r
          = text g ++ chr ',' :: ([chr ','].intercalate (gs.map text) ++ close :: r) := by
        rw [List.intercalate_cons_of_ne_nil (by simpa using hnil)]
        simp
      rw [htail, hg _ (Or.inl rfl)]
      simp only [Option.bind_eq_bind, Option.bind_some, List.head?_cons, if_pos, List.tail_cons,
        ih hnil hgs (Nat.le_of_succ_le_succ hn)]
      rfl

theorem readItems_sound {P : γ → Prop}
    (hread : ∀ {s b u}, read s = some (b, u) → ∃ g, P g ∧ s = text g ++ u ∧ val g = b)
    {n : Nat} {s u : Bytes} {bs : List β} (h : readItems read close n s = some (bs, u)) :
    ∃ gs : List γ, gs ≠ [] ∧ (∀ g ∈ gs, P g) ∧
      s = [chr ','].intercalate (gs.map text) ++ close :: u ∧ gs.map val = bs := by
  induction n generalizing s bs with
  | zero => exact nomatch h
  | succ n ih =>
    obtain ⟨⟨b, s1⟩, hs1, h⟩ := Option.bind_eq_some_iff.mp h
    obtain ⟨g, hg, rfl, rfl⟩ := hread hs1
    dsimp only at h
    split at h
    · rename_i hcomma
      obtain ⟨s2, rfl⟩ := List.head?_eq_some_iff.mp hcomma
      obtain ⟨⟨bs', s3⟩, hs3, h⟩ := Option.bind_eq_some_iff.mp h
      obtain ⟨rfl, rfl⟩ := Prod.mk.inj (Option.some.inj h)
      obtain ⟨gs, hne, hgs, htail, rfl⟩ := ih hs3
      refine ⟨g :: gs, List.cons_ne_nil _ _, List.forall_mem_cons.mpr ⟨hg, hgs⟩, ?_, rfl⟩
      rw [List.map_cons, List.intercalate_cons_of_ne_nil (by simpa using hne)]
      rw [List.tail_cons] at htail
      simp [htail]
    · split at h
      · rename_i hclose
        obtain ⟨s2, rfl⟩ := List.head?_eq_some_iff.mp hclose
        obtain ⟨rfl, rfl⟩ := Prod.mk.inj (Option.some.inj h)
        exact ⟨[g], List.cons_ne_nil _ _, List.forall_mem_singleton.mpr hg, by simp, rfl⟩
      · exact nomatch h

/-- What is shorter than the fuel has few and short items. -/
theorem items_fit {gs : List γ} {fuel : Nat} (hne : ∀ g ∈ gs, text g ≠ [])
    (h : ([chr ','].intercalate (gs.map text)).length < fuel) :
    gs.length ≤ fuel ∧ ∀ g ∈ gs, (text g).length < fuel := by
  constructor
  · have hle := length_le_length_intercalate [chr ','] (List.forall_mem_map.mpr hne)
    rw [List.length_map] at hle
    omega
  · intro g hg
    have hle := length_le_intercalate_of_mem [chr ','] (List.mem_map_of_mem (f := text) hg)
    omega

theorem readBracketed_empty {n : Nat} {ws : Bytes} (hws : ∀ c ∈ ws, isWs c = true)
    (hclose : isWs close = false) (r : Bytes) :
    readBracketed read close n (ws ++ close :: r) = some ([], r) := by
  have hr : ∀ c ∈ (close :: r).head?, isWs c = false := forall_head_cons.mpr hclose
  have hdrop := (span_append hws hr).2
  rw [readBracketed, hdrop, List.head?_cons, if_pos rfl]
  rfl

theorem readBracketed_complete {gs : List γ} (hne : gs ≠ []) (hclose : close ≠ chr ',')
    (hhead : ∀ g ∈ gs, ∀ r, ((text g ++ r).dropWhile isWs).head? ≠ some close)
    (hread : ∀ g ∈ gs, ∀ r : Bytes, r.head? = some (chr ',') ∨ r.head? = some close →
      read (text g ++ r) = some (val g, r))
    {n : Nat} (hn : gs.length ≤ n) (r : Bytes) :
    readBracketed read close n ([chr ','].intercalate (gs.map text) ++ close :: r)
      = some (gs.map val, r) := by
  have hfirst : (([chr ','].intercalate (gs.map text) ++ close :: r).dropWhile isWs).head?
      ≠ some close := by
    cases gs with
    | nil => exact absurd rfl hne
    | cons g gs =>
      have hg := hhead g List.mem_cons_self
      by_cases hnil : gs = []
      · subst hnil
        rw [List.map_singleton, List.intercalate_singleton]
        exact hg _
      · rw [List.map_cons, List.intercalate_cons_of_ne_nil (by simpa using hnil), List.append_assoc,
          List.append_assoc]
        exact hg _
  rw [readBracketed, if_neg hfirst]
  exact readItems_complete text val hne hclose hread hn r

theorem readBracketed_sound {P : γ → Prop}
    (hread : ∀ {s b u}, read s = some (b, u) → ∃ g, P g ∧ s = text g ++ u ∧ val g = b)
    {n : Nat} {s u : Bytes} {bs : List β} (h : readBracketed read close n s = some (bs, u)) :
    (∃ ws : Bytes, (∀ c ∈ ws, isWs c = true) ∧ s = ws ++ close :: u ∧ bs = []) ∨
      ∃ gs : List γ, gs ≠ [] ∧ (∀ g ∈ gs, P g) ∧
        s = [chr ','].intercalate (gs.map text) ++ close :: u ∧ gs.map val = bs := by
  rw [readBracketed] at h
  split at h
  · rename_i hclose
    obtain ⟨s1, hs1⟩ := List.head?_eq_some_iff.mp hclose
    obtain ⟨rfl, rfl⟩ := Prod.mk.inj (Option.some.inj h)
    refine Or.inl ⟨s.takeWhile isWs, fun _ => List.mem_takeWhile_imp, ?_, rfl⟩
    rw [hs1, List.tail_cons, ← hs1, List.takeWhile_append_dropWhile]
  · exact Or.inr (readItems_sound text val hread h)

end

/-! ## Values -/

/-- A number begins with a digit or a minus. -/
theorem Number.head {t : Bytes} {mantissa exponent : Int} (h : Number t mantissa exponent) :
    ∃ c u, t = c :: u ∧ (isDigit c = true ∨ c = chr '-') := by
  cases h with
  | @number minus int frac d exp negative e hminus hint hfrac hexp =>
    cases hminus with
    | minus => exact ⟨_, _, rfl, Or.inr rfl⟩
    | absent =>
      cases int with
      | nil => exact absurd rfl hint.1.1
      | cons c int => exact ⟨_, _, rfl, Or.inl (hint.1.2 c List.mem_cons_self)⟩

/-- A byte that a number can begin with is no whitespace and begins nothing else. -/
theorem leads_number {c : UInt8} (h : isDigit c = true ∨ c = chr '-') :
    isWs c = false ∧ c ≠ chr ']' ∧ c ≠ chr '"' ∧ c ≠ chr '[' ∧ c ≠ chr '{' := by
  have hne : ∀ k : UInt8, isDigit k = false → k ≠ chr '-' → c ≠ k := by
    rintro k hdigit hminus rfl
    exact h.elim (fun h => absurd (h.symm.trans hdigit) (by decide)) hminus
  refine ⟨?_, hne _ (by decide) (by decide), hne _ (by decide) (by decide),
    hne _ (by decide) (by decide), hne _ (by decide) (by decide)⟩
  rw [isWs, decide_eq_false_iff_not, not_or, not_or, not_or]
  exact ⟨hne _ (by decide) (by decide), hne _ (by decide) (by decide),
    hne _ (by decide) (by decide), hne _ (by decide) (by decide)⟩

/-- The first byte of a value is neither whitespace nor a closing bracket. -/
theorem Denotes.head {t : Bytes} {j : Json} (h : Denotes raw t j) :
    ∃ c u, t = c :: u ∧ isWs c = false ∧ c ≠ chr ']' := by
  cases h with
  | nullLiteral | falseLiteral | trueLiteral | emptyArray _ | array _ _ _ | emptyObject _
  | object _ _ _ _ => exact ⟨_, _, rfl, by decide⟩
  | string hs =>
    obtain ⟨u, -, rfl⟩ := hs
    exact ⟨_, _, rfl, by decide⟩
  | number hn =>
    obtain ⟨c, u, rfl, hc⟩ := hn.head
    exact ⟨c, u, rfl, (leads_number hc).1, (leads_number hc).2.1⟩

/-- Whitespace, a comma or a closing bracket ends a number. -/
theorem ends_append {ws r : Bytes} {close : UInt8} (hws : ∀ c ∈ ws, isWs c = true)
    (hr : r.head? = some (chr ',') ∨ r.head? = some close)
    (hclose : continuesNumber close = false) : Ends (ws ++ r) := by
  have hspace : ∀ c, isWs c = true → continuesNumber c = false := by
    intro c hc
    rw [isWs, decide_eq_true_iff] at hc
    rcases hc with rfl | rfl | rfl | rfl <;> decide
  intro c hc
  cases ws with
  | nil =>
    rw [List.nil_append] at hc
    rcases hr with hr | hr
    · rw [← Option.some.inj (hr.symm.trans hc)]
      decide
    · rw [← Option.some.inj (hr.symm.trans hc)]
      exact hclose
  | cons c' ws =>
    rw [← Option.some.inj hc]
    exact hspace c' (hws c' List.mem_cons_self)

/-- Reading an element of an array, given that its value is read. -/
theorem readElement_complete {fuel : Nat} {p : Padded} {j : Json} {close : UInt8} (hws : p.Ws)
    (hvalue : Denotes raw p.text j)
    (hread : ∀ r, Ends r → readValue raw fuel (p.text ++ r) = some (j, r))
    (hclose : continuesNumber close = false ∧ isWs close = false) {r : Bytes}
    (hr : r.head? = some (chr ',') ∨ r.head? = some close) :
    readPadded (readValue raw fuel) (p.whole ++ r) = some (j, r) := by
  refine readPadded_complete hws ?_ (hread _ (ends_append hws.2 hr hclose.1)) ?_
  · obtain ⟨c, u, hc, hspace, -⟩ := hvalue.head
    rw [hc]
    exact forall_head_cons.mpr hspace
  · rcases hr with hr | hr
    · obtain ⟨u, rfl⟩ := List.head?_eq_some_iff.mp hr
      exact forall_head_cons.mpr rfl
    · obtain ⟨u, rfl⟩ := List.head?_eq_some_iff.mp hr
      exact forall_head_cons.mpr hclose.2

/-- The same for a member of an object. -/
theorem readMember_complete {fuel : Nat} {m : Member} {close : UInt8}
    (hws : m.paddedName.Ws ∧ m.paddedValue.Ws) (hname : StringLiteral raw m.paddedName.text m.name)
    (hvalue : Denotes raw m.paddedValue.text m.value)
    (hread : ∀ r, Ends r → readValue raw fuel (m.paddedValue.text ++ r) = some (m.value, r))
    (hclose : continuesNumber close = false ∧ isWs close = false) {r : Bytes}
    (hr : r.head? = some (chr ',') ∨ r.head? = some close) :
    readMember (readString raw) (readValue raw fuel) (m.whole ++ r)
      = some ((m.name, m.value), r) := by
  have htext : m.whole ++ r = m.paddedName.whole ++ chr ':' :: (m.paddedValue.whole ++ r) := by
    simp [Member.whole]
  have hnameRead : readPadded (readString raw)
      (m.paddedName.whole ++ chr ':' :: (m.paddedValue.whole ++ r))
      = some (m.name, chr ':' :: (m.paddedValue.whole ++ r)) := by
    refine readPadded_complete hws.1 ?_ (readString_complete hname _) ?_
    · obtain ⟨u, -, hu⟩ := hname
      rw [hu]
      exact forall_head_cons.mpr rfl
    · exact forall_head_cons.mpr rfl
  rw [readMember, htext, hnameRead]
  simp only [Option.bind_eq_bind, Option.bind_some, List.head?_cons, if_pos, List.tail_cons,
    readElement_complete hws.2 hvalue hread hclose hr]

/-! The reader looks at the first byte and dispatches on it. -/

theorem readValue_string {fuel : Nat} {s : Bytes} (h : s.head? = some (chr '"')) :
    readValue raw (fuel + 1) s = (readString raw s).bind fun r => some (.str r.1, r.2) :=
  if_pos h

theorem readValue_array {fuel : Nat} (s : Bytes) :
    readValue raw (fuel + 1) (chr '[' :: s) =
      (readBracketed (readPadded (readValue raw fuel)) (chr ']') fuel s).bind fun r =>
        some (.arr r.1, r.2) := rfl

theorem readValue_object {fuel : Nat} (s : Bytes) :
    readValue raw (fuel + 1) (chr '{' :: s) =
      (readBracketed (readMember (readString raw) (readValue raw fuel)) (chr '}') fuel s).bind
        fun r => some (.obj r.1, r.2) := rfl

theorem readValue_number {fuel : Nat} {c : UInt8} (h : isDigit c = true ∨ c = chr '-') (s : Bytes) :
    readValue raw (fuel + 1) (c :: s) = readNumber (c :: s) := by
  obtain ⟨-, -, hquote, hbracket, hbrace⟩ := leads_number h
  have hne : ∀ k, c ≠ k → some c ≠ some k := by
    intro k hk h
    exact hk (Option.some.inj h)
  rw [readValue, List.head?_cons, if_neg (hne _ hquote), if_neg (hne _ hbracket),
    if_neg (hne _ hbrace), if_pos]
  exact decide_eq_true h

/-- **Completeness**: every text of the grammar is read to its end, and leaves what follows. -/
theorem readValue_complete {t : Bytes} {j : Json} (h : Denotes raw t j) {fuel : Nat}
    (hfuel : t.length < fuel) {r : Bytes} (hr : Ends r) :
    readValue raw fuel (t ++ r) = some (j, r) := by
  -- along the derivation: one unit of fuel is for the value, and the rest is more than the text of
  -- any value inside it is long
  induction h generalizing fuel r with
  | nullLiteral | falseLiteral | trueLiteral =>
    obtain ⟨fuel, rfl⟩ := exists_eq_succ_of_lt hfuel
    rfl
  | number hn =>
    obtain ⟨fuel, rfl⟩ := exists_eq_succ_of_lt hfuel
    rw [← readNumber_complete hn hr]
    obtain ⟨c, u, rfl, hc⟩ := hn.head
    exact readValue_number hc _
  | string hs =>
    obtain ⟨fuel, rfl⟩ := exists_eq_succ_of_lt hfuel
    have hread := readString_complete hs r
    obtain ⟨u, -, rfl⟩ := hs
    rw [readValue_string rfl, hread]
    rfl
  | @emptyArray ws hws =>
    obtain ⟨fuel, rfl⟩ := exists_eq_succ_of_lt hfuel
    have htext : chr '[' :: ws ++ [chr ']'] ++ r = chr '[' :: (ws ++ chr ']' :: r) := by simp
    rw [htext, readValue_array, readBracketed_empty hws rfl]
    rfl
  | @array elements hne hws hvalues ih =>
    obtain ⟨fuel, rfl⟩ := exists_eq_succ_of_lt hfuel
    have htext : ∀ inner : Bytes,
        chr '[' :: inner ++ [chr ']'] ++ r = chr '[' :: (inner ++ chr ']' :: r) := by simp
    have hempty : ∀ e ∈ elements, e.padded.whole ≠ [] := by
      intro e he h
      obtain ⟨c, u, hc, -⟩ := (hvalues e he).head
      have hle := e.padded.length_text_le
      rw [h, hc] at hle
      exact absurd hle (Nat.not_succ_le_zero _)
    have hlength : ([chr ','].intercalate (elements.map (·.padded.whole))).length < fuel := by
      simp only [List.length_append, List.length_cons, List.length_nil] at hfuel
      omega
    obtain ⟨hcount, hshort⟩ := items_fit _ hempty hlength
    have hread : ∀ e ∈ elements, ∀ r : Bytes, r.head? = some (chr ',') ∨ r.head? = some (chr ']') →
        readPadded (readValue raw fuel) (e.padded.whole ++ r) = some (e.value, r) := by
      intro e he r hr
      have hlt := Nat.lt_of_le_of_lt e.padded.length_text_le (hshort e he)
      exact readElement_complete (hws e he) (hvalues e he) (fun r hr => ih e he hlt hr)
        ⟨rfl, rfl⟩ hr
    have hhead : ∀ e ∈ elements, ∀ r,
        ((e.padded.whole ++ r).dropWhile isWs).head? ≠ some (chr ']') := by
      intro e he r
      obtain ⟨c, u, hc, hspace, hbracket⟩ := (hvalues e he).head
      rw [Padded.dropWhile (hws e he), hc]
      · intro h
        exact hbracket (Option.some.inj h)
      · rw [hc]
        exact forall_head_cons.mpr hspace
    rw [htext, readValue_array, readBracketed_complete _ (fun e : Element => e.value) hne
      (by decide) hhead hread hcount]
    rfl
  | @emptyObject ws hws =>
    obtain ⟨fuel, rfl⟩ := exists_eq_succ_of_lt hfuel
    have htext : chr '{' :: ws ++ [chr '}'] ++ r = chr '{' :: (ws ++ chr '}' :: r) := by simp
    rw [htext, readValue_object, readBracketed_empty hws rfl]
    rfl
  | @object members hne hws hnames hvalues ih =>
    obtain ⟨fuel, rfl⟩ := exists_eq_succ_of_lt hfuel
    have htext : ∀ inner : Bytes,
        chr '{' :: inner ++ [chr '}'] ++ r = chr '{' :: (inner ++ chr '}' :: r) := by simp
    have hempty : ∀ m ∈ members, m.whole ≠ [] := by
      intro m _ h
      exact List.cons_ne_nil _ _ (List.append_eq_nil_iff.mp h).2
    have hlength : ([chr ','].intercalate (members.map (·.whole))).length < fuel := by
      simp only [List.length_append, List.length_cons, List.length_nil] at hfuel
      omega
    obtain ⟨hcount, hshort⟩ := items_fit _ hempty hlength
    have hread : ∀ m ∈ members, ∀ r : Bytes, r.head? = some (chr ',') ∨ r.head? = some (chr '}') →
        readMember (readString raw) (readValue raw fuel) (m.whole ++ r)
          = some ((m.name, m.value), r) := by
      intro m hm r hr
      have hlt : m.paddedValue.text.length < fuel := by
        have hle := m.paddedValue.length_text_le
        have hlt := hshort m hm
        rw [Member.whole, List.length_append, List.length_cons] at hlt
        omega
      exact readMember_complete (hws m hm) (hnames m hm) (hvalues m hm)
        (fun r hr => ih m hm hlt hr) ⟨rfl, rfl⟩ hr
    have hhead : ∀ m ∈ members, ∀ r,
        ((m.whole ++ r).dropWhile isWs).head? ≠ some (chr '}') := by
      intro m hm r
      obtain ⟨u, -, hu⟩ := hnames m hm
      rw [Member.whole, List.append_assoc, Padded.dropWhile (hws m hm).1, hu]
      · intro h
        exact absurd (Option.some.inj h) (by decide)
      · rw [hu]
        exact forall_head_cons.mpr rfl
    rw [htext, readValue_object, readBracketed_complete _ (fun m : Member => (m.name, m.value)) hne
      (by decide) hhead hread hcount]
    rfl

/-- **Soundness**: what is read off is a text of the grammar, and denotes what is returned. -/
theorem readValue_sound {fuel : Nat} {s u : Bytes} {j : Json}
    (h : readValue raw fuel s = some (j, u)) : ∃ t, Denotes raw t j ∧ s = t ++ u := by
  induction fuel generalizing s u j with
  | zero => exact nomatch h
  | succ fuel ih =>
    rw [readValue] at h
    -- the cases of the first byte, in the order the reader asks for them
    split at h
    · obtain ⟨⟨content, s1⟩, hstring, h⟩ := Option.bind_eq_some_iff.mp h
      obtain ⟨rfl, rfl⟩ := Prod.mk.inj (Option.some.inj h)
      obtain ⟨t, ht, rfl⟩ := readString_sound hstring
      exact ⟨t, .string ht, rfl⟩
    split at h
    · rename_i hhead
      obtain ⟨s, rfl⟩ := List.head?_eq_some_iff.mp hhead
      obtain ⟨⟨elements, s1⟩, hitems, h⟩ := Option.bind_eq_some_iff.mp h
      obtain ⟨rfl, rfl⟩ := Prod.mk.inj (Option.some.inj h)
      have hread : ∀ {s j u}, readPadded (readValue raw fuel) s = some (j, u) →
          ∃ e : Element, (e.padded.Ws ∧ Denotes raw e.padded.text e.value) ∧
            s = e.padded.whole ++ u ∧ e.value = j := by
        intro s j u h
        obtain ⟨p, hws, hvalue, rfl⟩ := readPadded_sound ih h
        exact ⟨⟨p, j⟩, ⟨hws, hvalue⟩, rfl, rfl⟩
      rcases readBracketed_sound _ _ hread hitems with
        ⟨ws, hws, htail, rfl⟩ | ⟨es, hne, hes, htail, rfl⟩
      · rw [List.tail_cons] at htail
        exact ⟨_, .emptyArray hws, by simp [htail]⟩
      · rw [List.tail_cons] at htail
        refine ⟨_, .array hne (fun e he => (hes e he).1) (fun e he => (hes e he).2), ?_⟩
        simp [htail]
    split at h
    · rename_i hhead
      obtain ⟨s, rfl⟩ := List.head?_eq_some_iff.mp hhead
      obtain ⟨⟨members, s1⟩, hitems, h⟩ := Option.bind_eq_some_iff.mp h
      obtain ⟨rfl, rfl⟩ := Prod.mk.inj (Option.some.inj h)
      have hread : ∀ {s member u}, readMember (readString raw) (readValue raw fuel) s
          = some (member, u) → ∃ m : Member, ((m.paddedName.Ws ∧ m.paddedValue.Ws) ∧
            StringLiteral raw m.paddedName.text m.name ∧ Denotes raw m.paddedValue.text m.value) ∧
            s = m.whole ++ u ∧ (m.name, m.value) = member := by
        intro s member u hmember
        obtain ⟨⟨name, s1⟩, hname, hrest⟩ := Option.bind_eq_some_iff.mp hmember
        obtain ⟨p, hpws, hp, hs⟩ := readPadded_sound readString_sound hname
        dsimp only at hrest
        split at hrest
        · rename_i hcolon
          obtain ⟨s2, rfl⟩ := List.head?_eq_some_iff.mp hcolon
          obtain ⟨⟨j, s3⟩, hvalue, heq⟩ := Option.bind_eq_some_iff.mp hrest
          obtain ⟨rfl, rfl⟩ := Prod.mk.inj (Option.some.inj heq)
          obtain ⟨q, hqws, hq, htail⟩ := readPadded_sound ih hvalue
          rw [List.tail_cons] at htail
          exact ⟨⟨p, name, q, j⟩, ⟨⟨hpws, hqws⟩, hp, hq⟩, by simp [Member.whole, hs, htail], rfl⟩
        · exact nomatch hrest
      rcases readBracketed_sound _ _ hread hitems with
        ⟨ws, hws, htail, rfl⟩ | ⟨ms, hne, hms, htail, rfl⟩
      · rw [List.tail_cons] at htail
        exact ⟨_, .emptyObject hws, by simp [htail]⟩
      · rw [List.tail_cons] at htail
        refine ⟨_, .object hne (fun m hm => (hms m hm).1) (fun m hm => (hms m hm).2.1)
          (fun m hm => (hms m hm).2.2), ?_⟩
        simp [htail]
    split at h
    · obtain ⟨t, mantissa, exponent, rfl, rfl, ht⟩ := readNumber_sound h
      exact ⟨t, .number ht, rfl⟩
    · obtain ⟨⟨t, j⟩, hfind, h⟩ := Option.map_eq_some_iff.mp h
      obtain ⟨rfl, rfl⟩ := Prod.mk.inj h
      have hfound := List.find?_some hfind
      have hprefix : t <+: s := List.isPrefixOf_iff_prefix.mp hfound
      have hliteral : ∀ p ∈ literals, Denotes raw p.1 p.2 := by
        intro p hp
        simp only [literals, List.mem_cons, List.not_mem_nil, or_false] at hp
        rcases hp with rfl | rfl | rfl
        · exact .nullLiteral
        · exact .falseLiteral
        · exact .trueLiteral
      obtain ⟨u, rfl⟩ := hprefix
      refine ⟨t, hliteral _ (List.mem_of_find?_eq_some hfind), ?_⟩
      rw [List.drop_left]

/-- Reading a value, with the whitespace before it, off the front of a text. -/
theorem read_complete (ws : Bytes) {t r : Bytes} {j : Json} (hws : ∀ c ∈ ws, isWs c = true)
    (h : Denotes raw t j) (hr : Ends r) : read raw (ws ++ (t ++ r)) = some (j, r) := by
  have hhead : ∀ c ∈ (t ++ r).head?, isWs c = false := by
    obtain ⟨c, u, rfl, hspace, -⟩ := h.head
    exact forall_head_cons.mpr hspace
  have hfuel : t.length < (ws ++ (t ++ r)).length + 1 := by
    rw [List.length_append, List.length_append]
    omega
  rw [read, (span_append hws hhead).2]
  exact readValue_complete h hfuel hr

/-- **The reader reads the grammar**: it reads a whole text to its end exactly if the text is a
    value of the grammar, with whitespace before it, and returns what the value denotes. -/
theorem read_eq_some_iff {s : Bytes} {j : Json} :
    read raw s = some (j, []) ↔
      ∃ ws t, (∀ c ∈ ws, isWs c = true) ∧ Denotes raw t j ∧ s = ws ++ t := by
  constructor
  · intro h
    obtain ⟨t, ht, hdrop⟩ := readValue_sound h
    refine ⟨s.takeWhile isWs, t, fun _ => List.mem_takeWhile_imp, ht, ?_⟩
    rw [← List.append_nil t, ← hdrop, List.takeWhile_append_dropWhile]
  · rintro ⟨ws, t, hws, ht, rfl⟩
    have hread := read_complete ws hws ht (r := []) fun c hc => nomatch hc
    rwa [List.append_nil] at hread

end Rfc8259
