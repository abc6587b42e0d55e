/-
  The regular expressions that consist of fixed characters and numbers: a letter, a digit or `_`
  stands for itself, any other printing character stands for itself after a backslash, and
  `([0-9]+)` captures a number.

  1. **Matching** (`Matches`) — which texts an expression matches as a whole, and what it captures.
     A text may be matched in more than one way (two numbers in a row).
  2. **Engines** (`Perl`) — what a library for Perl's syntax promises about such an expression: it
     compiles; a match found is a match; and if none is found, there is none.
  3. **One engine** (`compile`, `search`, `perl_search`) — which tries the longest number first.
-/
import ThreadServer.Lib.Bytes

namespace Expression

open Bytes

/-- A character of Perl's class `\w`, in ASCII. -/
def isWord (c : UInt8) : Bool :=
  isDigit c || decide (chr 'a' ≤ c ∧ c ≤ chr 'z') || decide (chr 'A' ≤ c ∧ c ≤ chr 'Z') ||
    c == chr '_'

/-- Any other printing character. -/
def isPunctuation (c : UInt8) : Bool := decide (0x21 ≤ c ∧ c ≤ 0x7E) && !isWord c

/-- A non-empty string of digits. -/
def IsNumber (d : Bytes) : Prop := d ≠ [] ∧ d.all isDigit = true

inductive Atom
  | char (c : UInt8)
  | escaped (c : UInt8)
  | number
  deriving DecidableEq

/-- An atom of the expressions considered here. -/
def Atom.Plain : Atom → Prop
  | char c => isWord c = true
  | escaped c => isPunctuation c = true
  | number => True

/-- How an atom is written. -/
def Atom.text : Atom → Bytes
  | char c => [c]
  | escaped c => [chr '\\', c]
  | number => str "([0-9]+)"

/-- The atoms match the text, capturing these numbers. -/
inductive Matches : List Atom → Bytes → List Bytes → Prop
  | nil : Matches [] [] []
  | char {c : UInt8} {atoms : List Atom} {t : Bytes} {groups : List Bytes}
    (h : Matches atoms t groups) : Matches (.char c :: atoms) (c :: t) groups
  | escaped {c : UInt8} {atoms : List Atom} {t : Bytes} {groups : List Bytes}
    (h : Matches atoms t groups) : Matches (.escaped c :: atoms) (c :: t) groups
  | number {d : Bytes} {atoms : List Atom} {t : Bytes} {groups : List Bytes} (hd : IsNumber d)
    (h : Matches atoms t groups) : Matches (.number :: atoms) (d ++ t) (d :: groups)

/-- A library for Perl's syntax, on these expressions. -/
structure Perl {ε R : Type} (compile : Bytes → Except ε R)
    (regexMatch : R → Bytes → Option (List Bytes)) : Prop where
  compiles : ∀ atoms : List Atom, atoms ≠ [] → (∀ atom ∈ atoms, atom.Plain) →
    ∃ regex, compile (atoms.flatMap Atom.text) = .ok regex ∧ ∀ t,
      (∀ groups, regexMatch regex t = some groups → Matches atoms t groups) ∧
        (regexMatch regex t = none → ∀ groups, ¬ Matches atoms t groups)

/-! ## An engine -/

/-- Read an expression, `skip` more bytes of which belong to the atom before. -/
def readAtoms : Nat → Bytes → Option (List Atom)
  | _, [] => some []
  | skip + 1, _ :: t => readAtoms skip t
  | 0, c :: t =>
    if (str "([0-9]+)").isPrefixOf (c :: t) then (readAtoms 7 t).map (Atom.number :: ·)
    else if c = chr '\\' then t.head?.bind fun d => (readAtoms 1 t).map (Atom.escaped d :: ·)
    else if isWord c then (readAtoms 0 t).map (Atom.char c :: ·)
    else none

/-- Compile an expression of these, and throw at any other. -/
def compile {ε : Type} (e : ε) (expression : Bytes) : Except ε (List Atom) :=
  match readAtoms 0 expression with
  | some atoms => .ok atoms
  | none => .error e

/-- Match by trying the longest number first. -/
def search : List Atom → Bytes → Option (List Bytes)
  | [], t => if t = [] then some [] else none
  | .char c :: atoms, t | .escaped c :: atoms, t =>
    match t with
    | [] => none
    | a :: t => if a = c then search atoms t else none
  | .number :: atoms, t =>
    (List.range (t.takeWhile isDigit).length).reverse.findSome? fun n =>
      (search atoms (t.drop (n + 1))).map (t.take (n + 1) :: ·)

theorem readAtoms_skip (s t : Bytes) : readAtoms s.length (s ++ t) = readAtoms 0 t := by
  induction s with
  | nil => rfl
  | cons c s ih =>
    show readAtoms (s.length + 1) (c :: (s ++ t)) = _
    rw [readAtoms, ih]

/-- The characters that begin an atom of another kind are no word characters. -/
theorem isWord_ne {c : UInt8} (h : isWord c = true) : c ≠ chr '(' ∧ c ≠ chr '\\' := by
  constructor <;>
  · rintro rfl
    exact absurd h (by decide)

theorem readAtoms_text {atoms : List Atom} (h : ∀ atom ∈ atoms, atom.Plain) :
    readAtoms 0 (atoms.flatMap Atom.text) = some atoms := by
  induction atoms with
  | nil => rfl
  | cons atom atoms ih =>
    obtain ⟨hatom, hatoms⟩ := List.forall_mem_cons.mp h
    rw [List.flatMap_cons]
    have hparen : ∀ {c : UInt8} {t : Bytes}, c ≠ chr '(' →
        ¬ (str "([0-9]+)").isPrefixOf (c :: t) = true := by
      intro c t hc hprefix
      obtain ⟨u, hu⟩ := List.isPrefixOf_iff_prefix.mp hprefix
      exact hc (List.cons.inj hu).1.symm
    cases atom with
    | char c =>
      have hword : isWord c = true := hatom
      obtain ⟨hopen, hbackslash⟩ := isWord_ne hword
      show readAtoms 0 (c :: atoms.flatMap Atom.text) = _
      rw [readAtoms, if_neg (hparen hopen), if_neg hbackslash, if_pos hword, ih hatoms]
      rfl
    | escaped c =>
      show readAtoms 0 (chr '\\' :: c :: atoms.flatMap Atom.text) = _
      rw [readAtoms, if_neg (hparen (by decide)), if_pos rfl]
      show (readAtoms 0 (atoms.flatMap Atom.text)).map _ = _
      rw [ih hatoms]
      rfl
    | number =>
      have hnumber := readAtoms_skip (str "[0-9]+)") (atoms.flatMap Atom.text)
      show readAtoms 0 (chr '(' :: (str "[0-9]+)" ++ atoms.flatMap Atom.text)) = _
      have hbegins : (str "([0-9]+)").isPrefixOf
          (chr '(' :: (str "[0-9]+)" ++ atoms.flatMap Atom.text)) = true :=
        List.isPrefixOf_iff_prefix.mpr ⟨atoms.flatMap Atom.text, rfl⟩
      rw [readAtoms, if_pos hbegins]
      show (readAtoms (str "[0-9]+)").length _).map _ = _
      rw [hnumber, ih hatoms]
      rfl

theorem matches_of_search {atoms : List Atom} {t : Bytes} {groups : List Bytes}
    (h : search atoms t = some groups) : Matches atoms t groups := by
  induction atoms generalizing t groups with
  | nil =>
    rw [search] at h
    split at h
    · rename_i hnil
      rw [hnil, ← Option.some.inj h]
      exact .nil
    · exact absurd h (Option.some_ne_none _).symm
  | cons atom atoms ih =>
    cases atom with
    | char c | escaped c =>
      cases t with
      | nil => exact absurd h (Option.some_ne_none _).symm
      | cons a t =>
        rw [search] at h
        obtain ⟨heq, hrest⟩ := Option.ite_none_right_eq_some.mp h
        rw [heq]
        first
          | exact .char (ih hrest)
          | exact .escaped (ih hrest)
    | number =>
      rw [search] at h
      obtain ⟨n, hn, hmatch⟩ := List.exists_of_findSome?_eq_some h
      rw [List.mem_reverse, List.mem_range] at hn
      obtain ⟨rest, hrest, rfl⟩ := Option.map_eq_some_iff.mp hmatch
      have hnumber : IsNumber (t.take (n + 1)) := by
        have hsub : t.take (n + 1) = (t.takeWhile isDigit).take (n + 1) := by
          have hspan : t = t.takeWhile isDigit ++ t.dropWhile isDigit :=
            List.takeWhile_append_dropWhile.symm
          conv_lhs => rw [hspan]
          rw [List.take_append_of_le_length hn]
        rw [hsub]
        refine ⟨fun hnil => ?_, List.all_eq_true.mpr fun c hc => ?_⟩
        · have hlength := congrArg List.length hnil
          rw [List.length_take, List.length_nil] at hlength
          omega
        · exact List.all_eq_true.mp List.all_takeWhile c (List.mem_of_mem_take hc)
      have hmatches := Matches.number hnumber (ih hrest)
      rwa [List.take_append_drop] at hmatches

theorem search_isSome {atoms : List Atom} {t : Bytes} {groups : List Bytes}
    (h : Matches atoms t groups) : (search atoms t).isSome = true := by
  induction h with
  | nil => rfl
  | char _ ih | escaped _ ih =>
    rw [search, if_pos rfl]
    exact ih
  | @number d atoms t groups hd _ ih =>
    rw [search, List.findSome?_isSome_iff]
    have hdigits : ∀ c ∈ d, isDigit c = true := List.all_eq_true.mp hd.2
    have hlength : 0 < d.length := List.length_pos_iff.mpr hd.1
    refine ⟨d.length - 1, ?_, ?_⟩
    · rw [List.mem_reverse, List.mem_range, List.takeWhile_append_of_pos hdigits,
        List.length_append]
      omega
    · rw [Nat.sub_add_cancel hlength, List.drop_left, Option.isSome_map]
      exact ih

/-- **The engine keeps the promise.** -/
theorem perl_search {ε : Type} (e : ε) : Perl (compile e) search where
  compiles := by
    intro atoms _ hplain
    refine ⟨atoms, ?_, fun t => ⟨fun groups h => matches_of_search h, fun hnone groups h => ?_⟩⟩
    · rw [compile, readAtoms_text hplain]
    · have hsome := search_isSome h
      rw [hnone] at hsome
      exact absurd hsome Bool.false_ne_true

end Expression
