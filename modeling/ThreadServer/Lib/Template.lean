/-
  Templates: texts with holes `[]`, each to be filled with a number in brackets.

  1. **Pieces** (`pieces`) — a text, cut at the places where `[]` stands.
  2. **Instances** (`Instance`) — the text with numbers in its holes.  The numbers can be read off
     an instance: a bracket ends each of them (`Instance.unique`).
  3. **As an expression** (`replaceAll_eq`, `matches_iff`) — putting `\[([0-9]+)\]` for every `[]`
     gives an expression that matches the instances and captures their numbers, as long as the rest
     of the text consists of letters, digits and `_`.
-/
import ThreadServer.Lib.Expression

namespace Template

open Bytes Expression

/-- `boost::algorithm::replace_all_copy(s, search, format)` for a non-empty `search`; `skip` more
    bytes belong to the occurrence before. -/
def replaceAll (search format : Bytes) : Nat → Bytes → Bytes
  | _, [] => []
  | skip + 1, _ :: s => replaceAll search format skip s
  | 0, c :: s =>
    if search.isPrefixOf (c :: s) then format ++ replaceAll search format (search.length - 1) s
    else c :: replaceAll search format 0 s

inductive Piece
  | literal (c : UInt8)
  | hole
  deriving DecidableEq

/-- The pieces of a text. -/
def pieces : Bytes → List Piece
  | [] => []
  | [c] => [.literal c]
  | c :: d :: s =>
    if c = chr '[' ∧ d = chr ']' then .hole :: pieces s else .literal c :: pieces (d :: s)

def holes (ps : List Piece) : Nat := ps.count .hole

/-- The text with its holes filled; a hole with nothing to fill it stays. -/
def fill : List Piece → List Bytes → Bytes
  | [], _ => []
  | .literal c :: ps, ds => c :: fill ps ds
  | .hole :: ps, [] => str "[]" ++ fill ps []
  | .hole :: ps, d :: ds => chr '[' :: d ++ chr ']' :: fill ps ds

/-- `t` is the text with the numbers `ds` in its holes. -/
def Instance (ps : List Piece) (ds : List Bytes) (t : Bytes) : Prop :=
  ds.length = holes ps ∧ (∀ d ∈ ds, IsNumber d) ∧ t = fill ps ds

instance (d : Bytes) : Decidable (IsNumber d) := inferInstanceAs (Decidable (_ ∧ _))

instance (ps : List Piece) (ds : List Bytes) (t : Bytes) : Decidable (Instance ps ds t) :=
  inferInstanceAs (Decidable (_ ∧ _))

/-! ## Reading the numbers off -/

theorem instance_nil {ds : List Bytes} {t : Bytes} : Instance [] ds t ↔ ds = [] ∧ t = [] := by
  constructor
  · rintro ⟨hlength, -, rfl⟩
    exact ⟨List.length_eq_zero_iff.mp hlength, rfl⟩
  · rintro ⟨rfl, rfl⟩
    exact ⟨rfl, fun d hd => absurd hd List.not_mem_nil, rfl⟩

theorem instance_literal {c : UInt8} {ps : List Piece} {ds : List Bytes} {t : Bytes} :
    Instance (.literal c :: ps) ds t ↔ ∃ t', t = c :: t' ∧ Instance ps ds t' := by
  have hholes : holes (.literal c :: ps) = holes ps := List.count_cons_of_ne (by simp)
  constructor
  · rintro ⟨hlength, hnumbers, rfl⟩
    exact ⟨fill ps ds, rfl, by rw [hlength, hholes], hnumbers, rfl⟩
  · rintro ⟨t', rfl, hlength, hnumbers, rfl⟩
    exact ⟨by rw [hlength, hholes], hnumbers, rfl⟩

theorem instance_hole {ps : List Piece} {ds : List Bytes} {t : Bytes} :
    Instance (.hole :: ps) ds t ↔ ∃ d ds' t', IsNumber d ∧ ds = d :: ds' ∧
      t = chr '[' :: d ++ chr ']' :: t' ∧ Instance ps ds' t' := by
  have hholes : holes (.hole :: ps) = holes ps + 1 := List.count_cons_self
  constructor
  · rintro ⟨hlength, hnumbers, rfl⟩
    cases ds with
    | nil => exact absurd (hlength.trans hholes) (Nat.succ_ne_zero _).symm
    | cons d ds' =>
      obtain ⟨hd, hds⟩ := List.forall_mem_cons.mp hnumbers
      refine ⟨d, ds', fill ps ds', hd, rfl, rfl, ?_, hds, rfl⟩
      exact Nat.succ.inj (hlength.trans hholes)
  · rintro ⟨d, ds', t', hd, rfl, rfl, hlength, hnumbers, rfl⟩
    exact ⟨by rw [List.length_cons, hlength, hholes], List.forall_mem_cons.mpr ⟨hd, hnumbers⟩, rfl⟩

theorem bracket_notMem {d : Bytes} (h : IsNumber d) : chr ']' ∉ d := by
  intro hmem
  exact absurd (List.all_eq_true.mp h.2 _ hmem) (by decide)

/-- **An instance has one way to be read.** -/
theorem Instance.unique {ps : List Piece} {ds ds' : List Bytes} {t : Bytes} (h : Instance ps ds t)
    (h' : Instance ps ds' t) : ds = ds' := by
  induction ps generalizing ds ds' t with
  | nil => rw [(instance_nil.mp h).1, (instance_nil.mp h').1]
  | cons p ps ih =>
    cases p with
    | literal c =>
      obtain ⟨t₁, rfl, h₁⟩ := instance_literal.mp h
      obtain ⟨t₂, heq, h₂⟩ := instance_literal.mp h'
      obtain rfl := (List.cons.inj heq).2
      exact ih h₁ h₂
    | hole =>
      obtain ⟨d₁, ds₁, t₁, hd₁, rfl, rfl, h₁⟩ := instance_hole.mp h
      obtain ⟨d₂, ds₂, t₂, hd₂, rfl, heq, h₂⟩ := instance_hole.mp h'
      obtain ⟨rfl, rfl⟩ := append_cons_inj (bracket_notMem hd₁) (bracket_notMem hd₂)
        (List.cons.inj heq).2
      rw [ih h₁ h₂]

/-! ## As an expression -/

/-- A piece that is no character with a meaning in an expression. -/
def Piece.Plain : Piece → Prop
  | literal c => isWord c = true
  | hole => True

instance : DecidablePred Piece.Plain
  | .literal c => inferInstanceAs (Decidable (isWord c = true))
  | .hole => isTrue trivial

/-- What a piece becomes. -/
def Piece.atoms : Piece → List Atom
  | literal c => [.char c]
  | hole => [.escaped (chr '['), .number, .escaped (chr ']')]

theorem plain_atoms {ps : List Piece} (h : ∀ p ∈ ps, p.Plain) :
    ∀ atom ∈ ps.flatMap Piece.atoms, atom.Plain := by
  intro atom hatom
  obtain ⟨p, hp, hmem⟩ := List.mem_flatMap.mp hatom
  cases p with
  | literal c =>
    rw [List.mem_singleton.mp hmem]
    exact h _ hp
  | hole =>
    simp only [Piece.atoms, List.mem_cons, List.not_mem_nil, or_false] at hmem
    rcases hmem with rfl | rfl | rfl
    · show isPunctuation (chr '[') = true
      decide
    · trivial
    · show isPunctuation (chr ']') = true
      decide

theorem pieces_ne_nil {name : Bytes} (h : name ≠ []) : pieces name ≠ [] := by
  cases name with
  | nil => exact absurd rfl h
  | cons c s =>
    cases s with
    | nil => exact List.cons_ne_nil _ _
    | cons d s =>
      rw [pieces]
      split
      · exact List.cons_ne_nil _ _
      · exact List.cons_ne_nil _ _

theorem atoms_ne_nil {name : Bytes} (h : name ≠ []) :
    (pieces name).flatMap Piece.atoms ≠ [] := by
  obtain ⟨p, ps, hpieces⟩ := List.exists_cons_of_ne_nil (pieces_ne_nil h)
  rw [hpieces]
  cases p with
  | literal c | hole => exact List.cons_ne_nil _ _

/-- Replacing `[]` everywhere is replacing the holes. -/
theorem replaceAll_eq (name : Bytes) :
    replaceAll (str "[]") (str "\\[([0-9]+)\\]") 0 name =
      ((pieces name).flatMap Piece.atoms).flatMap Atom.text := by
  induction name using pieces.induct with
  | case1 => rfl
  | case2 c =>
    have hnot : ¬ (str "[]").isPrefixOf [c] = true := by
      intro hprefix
      have hle : 2 ≤ 1 := (List.isPrefixOf_iff_prefix.mp hprefix).length_le
      exact absurd hle (by decide)
    rw [replaceAll, if_neg hnot]
    rfl
  | case3 c d s hhole ih =>
    obtain ⟨rfl, rfl⟩ := hhole
    rw [pieces, if_pos ⟨rfl, rfl⟩, List.flatMap_cons, List.flatMap_append, ← ih]
    have hbegins : (str "[]").isPrefixOf (chr '[' :: chr ']' :: s) = true :=
      List.isPrefixOf_iff_prefix.mpr ⟨s, rfl⟩
    rw [replaceAll, if_pos hbegins]
    rfl
  | case4 c d s hnot ih =>
    rw [pieces, if_neg hnot, List.flatMap_cons, List.flatMap_append, ← ih]
    have hdiffers : ¬ (str "[]").isPrefixOf (c :: d :: s) = true := by
      intro hprefix
      obtain ⟨u, hu⟩ := List.isPrefixOf_iff_prefix.mp hprefix
      obtain ⟨hc, htail⟩ := List.cons.inj hu
      exact hnot ⟨hc.symm, (List.cons.inj htail).1.symm⟩
    rw [replaceAll, if_neg hdiffers]
    rfl

/-- **The expression matches the instances**, and captures their numbers. -/
theorem matches_iff {ps : List Piece} {t : Bytes} {groups : List Bytes} :
    Matches (ps.flatMap Piece.atoms) t groups ↔ Instance ps groups t := by
  induction ps generalizing t groups with
  | nil =>
    rw [instance_nil]
    constructor
    · intro h
      cases h
      exact ⟨rfl, rfl⟩
    · rintro ⟨rfl, rfl⟩
      exact .nil
  | cons p ps ih =>
    cases p with
    | literal c =>
      rw [instance_literal]
      constructor
      · intro h
        cases h with
        | @char _ _ t' _ h => exact ⟨t', rfl, ih.mp h⟩
      · rintro ⟨t', rfl, h⟩
        exact .char (ih.mpr h)
    | hole =>
      rw [instance_hole]
      constructor
      · intro h
        cases h with
        | escaped h =>
          cases h with
          | @number d _ _ ds' hd h =>
            cases h with
            | @escaped _ _ t' _ h => exact ⟨d, ds', t', hd, rfl, rfl, ih.mp h⟩
      · rintro ⟨d, ds', t', hd, rfl, rfl, h⟩
        exact .escaped (.number hd (.escaped (ih.mpr h)))

/-- Instances of plain pieces hold no NUL. -/
theorem Instance.nul_notMem {ps : List Piece} (hplain : ∀ p ∈ ps, p.Plain) {ds : List Bytes}
    {t : Bytes} (h : Instance ps ds t) : (0 : UInt8) ∉ t := by
  induction ps generalizing ds t with
  | nil =>
    rw [(instance_nil.mp h).2]
    exact List.not_mem_nil
  | cons p ps ih =>
    obtain ⟨hp, hps⟩ := List.forall_mem_cons.mp hplain
    cases p with
    | literal c =>
      obtain ⟨t', rfl, h'⟩ := instance_literal.mp h
      intro hmem
      rcases List.mem_cons.mp hmem with rfl | hmem
      · have hword : isWord 0 = true := hp
        exact absurd hword (by decide)
      · exact ih hps h' hmem
    | hole =>
      obtain ⟨d, ds', t', hd, rfl, rfl, h'⟩ := instance_hole.mp h
      intro hmem
      rcases List.mem_append.mp hmem with hmem | hmem
      · rcases List.mem_cons.mp hmem with hzero | hmem
        · exact absurd hzero (by decide)
        · exact absurd (List.all_eq_true.mp hd.2 _ hmem) (by decide)
      · rcases List.mem_cons.mp hmem with hzero | hmem
        · exact absurd hzero (by decide)
        · exact ih hps h' hmem

end Template
