/-
  Lines that end with a carriage return and a line feed, and blocks of them that end with an empty
  one, as the text protocols of the Internet have them.

  1. `Broken` — a line break inside a text.  Between two texts that another character separates
     there is none (`broken_append_cons`).
  2. `readLine` — everything up to the first line break.  It gives back a line that was written
     exactly if there is no line break inside it (`readLine_append_iff`).
  3. `readBlock` — lines up to an empty one, and what follows.  It gives back the lines that were
     written exactly if none is empty and none has a line break inside (`readBlock_append_iff`).
-/
import ThreadServer.Lib.Bytes

namespace Lines

open Bytes

/-- A line break. -/
def crlf : Bytes := str "\r\n"

theorem crlf_eq : crlf = [chr '\r', chr '\n'] := rfl

/-- A line break somewhere in a text. -/
def Broken (s : Bytes) : Prop := crlf <:+: s

instance (s : Bytes) : Decidable (Broken s) := List.instDecidableIsInfixOfDecidableEq crlf s

theorem not_broken_nil : ¬ Broken [] := by decide

theorem not_broken_of_notMem {s : Bytes} (h : chr '\r' ∉ s) : ¬ Broken s :=
  fun hbroken => h (hbroken.subset List.mem_cons_self)

/-- What a line break in front of a text needs of the text. -/
theorem crlf_prefix_append {d c : UInt8} (hc : c ≠ chr '\n') (s r : Bytes) :
    crlf <+: d :: (s ++ c :: r) ↔ crlf <+: d :: s := by
  rw [crlf_eq]
  cases s with
  | nil =>
    simp only [List.nil_append, List.cons_prefix_cons]
    constructor
    · rintro ⟨-, h, -⟩
      exact absurd h.symm hc
    · rintro ⟨-, h⟩
      exact absurd (List.prefix_nil.mp h) (List.cons_ne_nil _ _)
  | cons e s => simp only [List.cons_append, List.cons_prefix_cons, List.nil_prefix]

/-- A character that belongs to no line break keeps two texts apart. -/
theorem broken_append_cons {c : UInt8} (hr : c ≠ chr '\r') (hn : c ≠ chr '\n') {s r : Bytes} :
    Broken (s ++ c :: r) ↔ Broken s ∨ Broken r := by
  induction s with
  | nil =>
    have hinfix : Broken (c :: r) ↔ crlf <+: c :: r ∨ Broken r := List.infix_cons_iff
    have hstart : ¬ crlf <+: c :: r := by
      rw [crlf_eq, List.cons_prefix_cons]
      rintro ⟨h, -⟩
      exact hr h.symm
    rw [List.nil_append, hinfix]
    exact or_congr (iff_of_false hstart not_broken_nil) Iff.rfl
  | cons d s ih =>
    have hwhole : Broken (d :: (s ++ c :: r)) ↔
        crlf <+: d :: (s ++ c :: r) ∨ Broken (s ++ c :: r) := List.infix_cons_iff
    have hfront : Broken (d :: s) ↔ crlf <+: d :: s ∨ Broken s := List.infix_cons_iff
    rw [List.cons_append, hwhole, hfront, ih, crlf_prefix_append hn, or_assoc]

/-! ## Lines -/

/-- **Up to the first line break**: the line, and what follows the break. -/
def readLine : Bytes → Option (Bytes × Bytes)
  | [] => none
  | c :: s =>
    if crlf.isPrefixOf (c :: s) then some ([], s.tail)
    else (readLine s).map fun (line, rest) => (c :: line, rest)

theorem readLine_crlf (r : Bytes) : readLine (crlf ++ r) = some ([], r) := by
  show (if crlf.isPrefixOf (crlf ++ r) then some ([], r) else _) = _
  rw [if_pos (List.isPrefixOf_iff_prefix.mpr (List.prefix_append crlf r))]

theorem readLine_cons {c : UInt8} {s : Bytes} (h : ¬ crlf <+: c :: s) :
    readLine (c :: s) = (readLine s).map fun (line, rest) => (c :: line, rest) := by
  rw [readLine, if_neg (mt List.isPrefixOf_iff_prefix.mp h)]

/-- **A line is read back** exactly if there is no line break in it. -/
theorem readLine_append_iff {line r : Bytes} :
    readLine (line ++ (crlf ++ r)) = some (line, r) ↔ ¬ Broken line := by
  induction line with
  | nil =>
    rw [List.nil_append, readLine_crlf]
    exact iff_of_true rfl (by decide)
  | cons c line ih =>
    have hinfix : Broken (c :: line) ↔ crlf <+: c :: line ∨ Broken line := List.infix_cons_iff
    -- the break at the end of the line is no part of a break inside it
    have hstart : crlf <+: c :: (line ++ (crlf ++ r)) ↔ crlf <+: c :: line :=
      crlf_prefix_append (by decide) line _
    rw [List.cons_append, hinfix, not_or, ← ih]
    by_cases hc : crlf <+: c :: line
    · rw [readLine, if_pos (List.isPrefixOf_iff_prefix.mpr (hstart.mpr hc))]
      refine iff_of_false (fun h => ?_) (fun h => h.1 hc)
      exact absurd (congrArg Prod.fst (Option.some.inj h)) nofun
    · rw [readLine_cons (mt hstart.mp hc), Option.map_eq_some_iff]
      simp only [Prod.exists, Prod.mk.injEq, List.cons.injEq, true_and]
      constructor
      · rintro ⟨_, _, h, rfl, rfl⟩
        exact ⟨hc, h⟩
      · rintro ⟨-, h⟩
        exact ⟨_, _, h, rfl, rfl⟩

/-- What is read stands there. -/
theorem eq_of_readLine {s line r : Bytes} (h : readLine s = some (line, r)) :
    s = line ++ (crlf ++ r) := by
  induction s generalizing line with
  | nil => exact nomatch h
  | cons c s ih =>
    by_cases hc : crlf <+: c :: s
    · rw [readLine, if_pos (List.isPrefixOf_iff_prefix.mpr hc)] at h
      obtain ⟨rfl, rfl⟩ := Prod.mk.inj (Option.some.inj h)
      obtain ⟨t, ht⟩ := hc
      rw [crlf_eq, List.cons_append, List.cons.injEq] at ht
      rw [List.nil_append, ← ht.1, ← ht.2]
      rfl
    · rw [readLine_cons hc, Option.map_eq_some_iff] at h
      obtain ⟨⟨line', r'⟩, hread, heq⟩ := h
      obtain ⟨rfl, rfl⟩ := Prod.mk.inj heq
      rw [ih hread, List.cons_append]

/-! ## Blocks -/

/-- Lines, each with its break. -/
def unlines (lines : List Bytes) : Bytes := lines.flatMap (· ++ crlf)

/-- **Up to the first empty line**: the lines before it, and what follows.  No more lines are read
    than the text has bytes. -/
def readBlock (s : Bytes) : Option (List Bytes × Bytes) := loop s.length s
where
  loop : Nat → Bytes → Option (List Bytes × Bytes)
    | 0, _ => none
    | fuel + 1, s => do
      let (line, rest) ← readLine s
      if line = [] then some ([], rest)
      else
        let (lines, rest) ← loop fuel rest
        some (line :: lines, rest)

theorem unlines_cons (line : Bytes) (lines : List Bytes) (r : Bytes) :
    unlines (line :: lines) ++ r = line ++ (crlf ++ (unlines lines ++ r)) := by
  rw [unlines, List.flatMap_cons, ← unlines, List.append_assoc, List.append_assoc]

theorem loop_append_iff {lines : List Bytes} {r : Bytes} {fuel : Nat}
    (hfuel : lines.length < fuel) :
    readBlock.loop fuel (unlines lines ++ (crlf ++ r)) = some (lines, r) ↔
      ∀ line ∈ lines, line ≠ [] ∧ ¬ Broken line := by
  induction lines generalizing fuel with
  | nil =>
    obtain ⟨fuel, rfl⟩ : ∃ k, fuel = k + 1 := ⟨fuel - 1, by simp at hfuel; omega⟩
    rw [unlines, List.flatMap_nil, List.nil_append, readBlock.loop, readLine_crlf]
    exact iff_of_true rfl fun _ h => nomatch h
  | cons line lines ih =>
    rw [List.length_cons] at hfuel
    obtain ⟨fuel, rfl⟩ : ∃ k, fuel = k + 1 := ⟨fuel - 1, by omega⟩
    rw [List.forall_mem_cons, unlines_cons, ← ih (show lines.length < fuel by omega),
      readBlock.loop]
    constructor
    · intro h
      obtain ⟨⟨line', rest⟩, hread, h⟩ := Option.bind_eq_some_iff.mp h
      dsimp only at h
      by_cases hempty : line' = []
      · rw [if_pos hempty] at h
        exact nomatch h
      · rw [if_neg hempty] at h
        obtain ⟨⟨lines', r'⟩, hloop, heq⟩ := Option.bind_eq_some_iff.mp h
        obtain ⟨hlines, rfl⟩ := Prod.mk.inj (Option.some.inj heq)
        obtain ⟨rfl, rfl⟩ := List.cons.inj hlines
        -- what is behind the line is the rest of the block
        have hrest := eq_of_readLine hread
        rw [List.append_cancel_left_eq, List.append_cancel_left_eq] at hrest
        rw [← hrest] at hread hloop
        exact ⟨⟨hempty, readLine_append_iff.mp hread⟩, hloop⟩
    · rintro ⟨⟨hempty, hunbroken⟩, hloop⟩
      rw [readLine_append_iff.mpr hunbroken]
      show (if line = [] then _ else _) = _
      rw [if_neg hempty, hloop]
      rfl

/-- **A block is read back** exactly if its lines are lines. -/
theorem readBlock_append_iff {lines : List Bytes} {r : Bytes} :
    readBlock (unlines lines ++ (crlf ++ r)) = some (lines, r) ↔
      ∀ line ∈ lines, line ≠ [] ∧ ¬ Broken line := by
  refine loop_append_iff ?_
  have hcrlf : crlf.length = 2 := rfl
  have hlength : lines.length ≤ (unlines lines).length := by
    induction lines with
    | nil => exact Nat.le_refl 0
    | cons line lines ih =>
      have hcons := congrArg List.length (unlines_cons line lines [])
      simp only [List.append_nil, List.length_append, List.length_cons] at hcons ⊢
      omega
  rw [List.length_append, List.length_append]
  omega

end Lines
