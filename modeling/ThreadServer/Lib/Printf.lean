/-
  `vsnprintf`, for the conversions `%s`, `%d` and `%%`.

  `vprintf` reads the format from left to right and takes the arguments it needs; a `%` that starts
  none of the three, a conversion without an argument, or one with an argument of another type is
  undefined (`none`).  `vsnprintf size` keeps the first `size - 1` bytes.

  What formatting a text WITHOUT arguments does:

  1. `vprintf_of_no_percent` — a text without `%` is its own format;
  2. `length_lt_of_vprintf_nil` — a text with a `%` is not: if it is a format at all, each of its
     `%` stands for `%%` and the outcome is shorter;
  3. `vsnprintf_nil_eq_self_iff` — so formatting again changes nothing exactly if there is no `%`.
-/
import ThreadServer.Lib.Bytes

namespace Printf

open Bytes

/-- An argument: a C string, or an `int`. -/
inductive Arg
  | str (s : Bytes)
  | int (n : Int)
  deriving DecidableEq

/-- What a conversion makes of its argument. -/
def convert (conversion : UInt8) : Arg → Option Bytes
  | .str s => if conversion = chr 's' then some (cStr s) else none
  | .int n => if conversion = chr 'd' then some (signedDecimal n) else none

/-- The text a format stands for; `none` where C leaves it undefined. -/
def vprintf : Bytes → List Arg → Option Bytes
  | [], _ => some []
  | c :: format, args =>
    if c ≠ chr '%' then (vprintf format args).map (c :: ·)
    else
      match format, args with
      | [], _ => none
      | conversion :: format, args =>
        if conversion = chr '%' then (vprintf format args).map (chr '%' :: ·)
        else
          match args with
          | [] => none
          | arg :: args =>
            (convert conversion arg).bind fun text => (vprintf format args).map (text ++ ·)

/-- What `vsnprintf(buffer, size, format, args)` leaves in the buffer, as a C string. -/
def vsnprintf (size : Nat) (format : Bytes) (args : List Arg) : Option Bytes :=
  (vprintf (cStr format) args).map fun text => text.take (size - 1)

example : vsnprintf 6 (str "%s:%d%%.") [.str (str "a"), .int (-7)] = some (str "a:-7%") := by
  decide +kernel

/-! ## No NUL comes out -/

theorem zero_notMem_signedDecimal (n : Int) : 0 ∉ signedDecimal n := by
  have hdecimal : 0 ∉ decimal n.natAbs := by
    intro h
    exact absurd (isDigit_of_mem_decimal h) (by decide)
  rw [signedDecimal]
  split
  · rw [List.mem_cons, not_or]
    exact ⟨by decide, hdecimal⟩
  · exact hdecimal

theorem zero_notMem_convert {conversion : UInt8} {arg : Arg} {text : Bytes}
    (h : convert conversion arg = some text) : 0 ∉ text := by
  cases arg with
  | str s =>
    obtain ⟨-, h⟩ := Option.ite_none_right_eq_some.mp h
    obtain rfl := Option.some.inj h
    exact zero_notMem_cStr s
  | int n =>
    obtain ⟨-, h⟩ := Option.ite_none_right_eq_some.mp h
    obtain rfl := Option.some.inj h
    exact zero_notMem_signedDecimal n

/-- A format without NUL gives a text without NUL. -/
theorem zero_notMem_vprintf {format : Bytes} {args : List Arg} {text : Bytes}
    (hformat : 0 ∉ format) (h : vprintf format args = some text) : 0 ∉ text := by
  fun_induction vprintf format args generalizing text with
  | case1 args =>
    obtain rfl := Option.some.inj h
    exact hformat
  | case2 c format args hc ih =>
    obtain ⟨rest, hrest, rfl⟩ := Option.map_eq_some_iff.mp h
    rw [List.mem_cons, not_or] at hformat ⊢
    exact ⟨hformat.1, ih hformat.2 hrest⟩
  | case3 => cases h
  | case4 c hc format args ih =>
    obtain ⟨rest, hrest, rfl⟩ := Option.map_eq_some_iff.mp h
    rw [List.mem_cons, List.mem_cons, not_or, not_or] at hformat
    rw [List.mem_cons, not_or]
    exact ⟨hformat.2.1, ih hformat.2.2 hrest⟩
  | case5 => cases h
  | case6 c hc conversion format hconversion arg args ih =>
    obtain ⟨converted, hconverted, h⟩ := Option.bind_eq_some_iff.mp h
    obtain ⟨rest, hrest, rfl⟩ := Option.map_eq_some_iff.mp h
    rw [List.mem_cons, List.mem_cons, not_or, not_or] at hformat
    rw [List.mem_append, not_or]
    exact ⟨zero_notMem_convert hconverted, ih hformat.2.2 hrest⟩

theorem vsnprintf_eq_some {size : Nat} {format : Bytes} {args : List Arg} {text : Bytes}
    (h : vsnprintf size format args = some text) : 0 ∉ text ∧ text.length ≤ size - 1 := by
  obtain ⟨whole, hwhole, rfl⟩ := Option.map_eq_some_iff.mp h
  refine ⟨fun hzero => ?_, List.length_take_le _ _⟩
  exact zero_notMem_vprintf (zero_notMem_cStr format) hwhole (List.mem_of_mem_take hzero)

/-! ## Formatting without arguments -/

/-- A text without `%` is its own format. -/
theorem vprintf_of_no_percent {text : Bytes} (h : chr '%' ∉ text) (args : List Arg) :
    vprintf text args = some text := by
  induction text with
  | nil => rfl
  | cons c text ih =>
    rw [List.mem_cons, not_or] at h
    unfold vprintf
    rw [if_pos (Ne.symm h.1), ih h.2]
    rfl

/-- Without arguments every `%` must be doubled, and each pair becomes one `%`. -/
theorem length_of_vprintf_nil {text out : Bytes} (h : vprintf text [] = some out) :
    out.length ≤ text.length ∧ (chr '%' ∈ text → out.length < text.length) := by
  generalize hargs : ([] : List Arg) = args at h
  fun_induction vprintf text args generalizing out with
  | case1 args =>
    obtain rfl := Option.some.inj h
    exact ⟨Nat.le_refl 0, fun hmem => absurd hmem List.not_mem_nil⟩
  | case2 c text args hc ih =>
    obtain ⟨rest, hrest, rfl⟩ := Option.map_eq_some_iff.mp h
    obtain ⟨hle, hlt⟩ := ih hargs hrest
    refine ⟨Nat.succ_le_succ hle, fun hmem => ?_⟩
    rcases List.mem_cons.mp hmem with heq | hmem
    · exact absurd heq.symm hc
    · exact Nat.succ_lt_succ (hlt hmem)
  | case3 => cases h
  | case4 c hc text args ih =>
    obtain ⟨rest, hrest, rfl⟩ := Option.map_eq_some_iff.mp h
    obtain ⟨hle, -⟩ := ih hargs hrest
    simp only [List.length_cons]
    exact ⟨by omega, fun _ => by omega⟩
  | case5 => cases h
  | case6 => cases hargs

/-- **Formatting a text again** changes nothing exactly if the text has no `%`. -/
theorem vsnprintf_nil_eq_self_iff {size : Nat} {text : Bytes} (hzero : 0 ∉ text)
    (hlength : text.length ≤ size - 1) :
    vsnprintf size text [] = some text ↔ chr '%' ∉ text := by
  rw [vsnprintf, cStr_of_zero_notMem hzero]
  constructor
  · intro h hpercent
    obtain ⟨out, hout, htake⟩ := Option.map_eq_some_iff.mp h
    have hshorter := (length_of_vprintf_nil hout).2 hpercent
    have hsame : text.length ≤ out.length := by
      rw [← htake]
      exact List.length_take_le' _ _
    omega
  · intro hpercent
    rw [vprintf_of_no_percent hpercent, Option.map_some, List.take_of_length_le hlength]

/-- `%s` formats a C string as itself. -/
theorem vsnprintf_string (size : Nat) {text : Bytes} (hzero : 0 ∉ text)
    (hlength : text.length ≤ size - 1) :
    vsnprintf size (str "%s") [.str text] = some text := by
  have htext : vprintf (cStr (str "%s")) [.str text] = some (cStr text ++ []) := rfl
  rw [vsnprintf, htext, List.append_nil, cStr_of_zero_notMem hzero, Option.map_some,
    List.take_of_length_le hlength]

end Printf
