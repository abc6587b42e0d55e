/-
  Form encoding (`application/x-www-form-urlencoded`) of byte strings: what a text is AN encoding
  of, and the decoding that undoes every encoding.

  1. `decode` — leftmost decoding: `+` is a space, `%` and two hexadecimal digits are one byte, and
     everything else, a `%` that no two digits follow included, stands for itself.  `Decodes` says
     the same as a relation between a text and its decoding (`decodes_iff`).
  2. `Encodes s t` — `t` writes `s` byte by byte, each byte in any of the ways open to it: as itself
     (unless reserved), as `%` and two digits of either case, or as `+` for a space.
  3. `EncodesForm pairs t` — `t` writes the pairs as `name=value`, joined by `&`.

  The bridge is `decode_append`: decoding inverts an encoding whatever stands behind it, so the
  inversion of a whole text is an induction on its bytes.
-/
import ThreadServer.Lib.Bytes

namespace FormEncoding

open Bytes

/-! ## Hexadecimal digits -/

/-- The byte that two digits spell. -/
def hexByte? (a b : UInt8) : Option UInt8 :=
  (hexValue? a).bind fun d1 => (hexValue? b).map fun d2 => UInt8.ofNat (d1 * 16 + d2)

/-- The characters a digit can be written with: one below ten, two from ten on. -/
def Writes (d : Nat) (c : UInt8) : Prop :=
  (str "0123456789abcdef")[d]? = some c ∨ (str "0123456789ABCDEF")[d]? = some c

/-- A character that writes a digit is read as it, and is none of the marks of a form. -/
theorem hexValue_of_writes {d : Nat} {c : UInt8} (h : Writes d c) :
    hexValue? c = some d ∧ c ≠ chr '&' ∧ c ≠ chr '=' := by
  have hlower : ∀ k : Fin (str "0123456789abcdef").length,
      hexValue? ((str "0123456789abcdef").get k) = some k.val ∧
        (str "0123456789abcdef").get k ≠ chr '&' ∧ (str "0123456789abcdef").get k ≠ chr '=' := by
    decide
  have hupper : ∀ k : Fin (str "0123456789ABCDEF").length,
      hexValue? ((str "0123456789ABCDEF").get k) = some k.val ∧
        (str "0123456789ABCDEF").get k ≠ chr '&' ∧ (str "0123456789ABCDEF").get k ≠ chr '=' := by
    decide
  rcases h with h | h
  · obtain ⟨hlt, rfl⟩ := List.getElem?_eq_some_iff.mp h
    exact hlower ⟨d, hlt⟩
  · obtain ⟨hlt, rfl⟩ := List.getElem?_eq_some_iff.mp h
    exact hupper ⟨d, hlt⟩

/-! ## Decoding -/

/-- **Leftmost decoding.** -/
def decode : Bytes → Bytes
  | [] => []
  | c :: s =>
    if c = chr '+' then chr ' ' :: decode s
    else if c = chr '%' then
      match s with
      | a :: b :: rest =>
        match hexByte? a b with
        | some byte => byte :: decode rest
        | none => c :: decode (a :: b :: rest)
      | short => c :: decode short
    else c :: decode s

@[simp] theorem decode_nil : decode [] = [] := rfl

theorem decode_plus (s : Bytes) : decode (chr '+' :: s) = chr ' ' :: decode s := by
  rw [decode.eq_def]
  exact if_pos rfl

theorem decode_plain {c : UInt8} (hplus : c ≠ chr '+') (hpercent : c ≠ chr '%') (s : Bytes) :
    decode (c :: s) = c :: decode s := by
  rw [decode.eq_def]
  exact (if_neg hplus).trans (if_neg hpercent)

theorem decode_percent {a b byte : UInt8} (h : hexByte? a b = some byte) (s : Bytes) :
    decode (chr '%' :: a :: b :: s) = byte :: decode s := by
  rw [decode, if_neg (by decide), if_pos rfl]
  simp only [h]

theorem decode_percent_none {a b : UInt8} (h : hexByte? a b = none) (s : Bytes) :
    decode (chr '%' :: a :: b :: s) = chr '%' :: decode (a :: b :: s) := by
  rw [decode, if_neg (by decide), if_pos rfl]
  simp only [h]

theorem decode_percent_short {s : Bytes} (h : s.length < 2) :
    decode (chr '%' :: s) = chr '%' :: decode s := by
  match s, h with
  | [], _ => rfl
  | [_], _ => rfl

/-- **What a text decodes to**, character by character from the left: a `+` gives a space, a `%`
    with two digits behind it gives the byte they spell, and any other character is kept, a `%`
    without two digits behind it included, whatever follows being decoded on its own. -/
inductive Decodes : Bytes → Bytes → Prop
  | nil : Decodes [] []
  | plus {s t : Bytes} : Decodes s t → Decodes (chr '+' :: s) (chr ' ' :: t)
  | escape {a b byte : UInt8} {s t : Bytes} :
      hexByte? a b = some byte → Decodes s t → Decodes (chr '%' :: a :: b :: s) (byte :: t)
  | keep {c : UInt8} {s t : Bytes} :
      c ≠ chr '+' → (c = chr '%' → ∀ a b rest, s = a :: b :: rest → hexByte? a b = none) →
      Decodes s t → Decodes (c :: s) (c :: t)

/-- Every text decodes to its decoding. -/
theorem decodes_decode (s : Bytes) : Decodes s (decode s) := by
  fun_induction decode s with
  | case1 => exact .nil
  | case2 s ih => exact .plus ih
  | case3 a b rest byte hbyte hplus ih => exact .escape hbyte ih
  | case4 a b rest hbyte hplus ih =>
    refine .keep hplus (fun _ a' b' rest' heq => ?_) ih
    obtain ⟨rfl, rfl, -⟩ : a = a' ∧ b = b' ∧ rest = rest' := by simpa using heq
    exact hbyte
  | case5 short hshort hplus ih =>
    exact .keep hplus (fun _ a b rest heq => (hshort a b rest heq).elim) ih
  | case6 c s hplus hpercent ih => exact .keep hplus (fun hc => absurd hc hpercent) ih

/-- `Decodes` is the graph of `decode`. -/
theorem decodes_iff {s t : Bytes} : Decodes s t ↔ decode s = t := by
  refine ⟨fun h => ?_, fun h => h ▸ decodes_decode s⟩
  induction h with
  | nil => rfl
  | plus _ ih => rw [decode_plus, ih]
  | escape hbyte _ ih => rw [decode_percent hbyte, ih]
  | @keep c s t hplus hpercent _ ih =>
    by_cases hc : c = chr '%'
    case neg => rw [decode_plain hplus hc, ih]
    subst hc
    match s, hpercent with
    | [], _ => exact congrArg _ ih
    | [a], _ => exact congrArg _ ih
    | a :: b :: rest, hpercent => rw [decode_percent_none (hpercent rfl a b rest rfl), ih]

/-! ## Encoding -/

/-- The bytes that cannot stand for themselves. -/
def reserved : List UInt8 := [chr '%', chr '+', chr '&', chr '=']

/-- The ways to write one byte. -/
inductive EncodesByte : UInt8 → Bytes → Prop
  | raw {c : UInt8} : c ∉ reserved → EncodesByte c [c]
  | hex {c a b : UInt8} : Writes (c.toNat / 16) a → Writes (c.toNat % 16) b →
      EncodesByte c [chr '%', a, b]
  | plus : EncodesByte (chr ' ') [chr '+']

/-- The ways to write a string: byte by byte. -/
inductive Encodes : Bytes → Bytes → Prop
  | nil : Encodes [] []
  | cons {c : UInt8} {s t u : Bytes} : EncodesByte c t → Encodes s u → Encodes (c :: s) (t ++ u)

/-- The ways to write a pair, as `name=value`. -/
def EncodesPair (pair : Bytes × Bytes) (t : Bytes) : Prop :=
  ∃ name value, Encodes pair.1 name ∧ Encodes pair.2 value ∧ t = name ++ chr '=' :: value

/-- The ways to write a form, as pairs joined by `&`. -/
def EncodesForm (pairs : List (Bytes × Bytes)) (text : Bytes) : Prop :=
  ∃ ts, List.Forall₂ EncodesPair pairs ts ∧ text = [chr '&'].intercalate ts

theorem hexByte_of_writes {c a b : UInt8} (ha : Writes (c.toNat / 16) a)
    (hb : Writes (c.toNat % 16) b) : hexByte? a b = some c := by
  rw [hexByte?, (hexValue_of_writes ha).1, (hexValue_of_writes hb).1, Option.bind_some,
    Option.map_some, Nat.div_add_mod']
  exact congrArg some (UInt8.ofNat_toNat)

/-- Decoding one written byte, whatever stands behind it. -/
theorem EncodesByte.decode_append {c : UInt8} {t : Bytes} (h : EncodesByte c t) (u : Bytes) :
    decode (t ++ u) = c :: decode u := by
  cases h with
  | raw hraw =>
    refine decode_plain ?_ ?_ u <;>
    · rintro rfl
      exact hraw (by decide)
  | hex ha hb => exact decode_percent (hexByte_of_writes ha hb) u
  | plus => exact decode_plus u

/-- **Decoding inverts every encoding.** -/
theorem Encodes.decode_append {s t : Bytes} (h : Encodes s t) (u : Bytes) :
    decode (t ++ u) = s ++ decode u := by
  induction h with
  | nil => rfl
  | cons hc _ ih => rw [List.append_assoc, hc.decode_append, ih, List.cons_append]

theorem Encodes.decode {s t : Bytes} (h : Encodes s t) : decode t = s := by
  have happend := h.decode_append []
  rwa [List.append_nil, decode_nil, List.append_nil] at happend

theorem EncodesByte.no_marks {c : UInt8} {t : Bytes} (h : EncodesByte c t) :
    chr '&' ∉ t ∧ chr '=' ∉ t := by
  cases h with
  | raw hraw =>
    refine ⟨fun hmem => hraw ?_, fun hmem => hraw ?_⟩ <;>
    · rw [← List.mem_singleton.mp hmem]
      decide
  | hex ha hb =>
    obtain ⟨-, ha1, ha2⟩ := hexValue_of_writes ha
    obtain ⟨-, hb1, hb2⟩ := hexValue_of_writes hb
    simp only [List.mem_cons, List.not_mem_nil, or_false, not_or]
    exact ⟨⟨by decide, ha1.symm, hb1.symm⟩, by decide, ha2.symm, hb2.symm⟩
  | plus => decide

/-- An encoded string holds no mark that separates pairs, or a name from its value. -/
theorem Encodes.no_marks {s t : Bytes} (h : Encodes s t) : chr '&' ∉ t ∧ chr '=' ∉ t := by
  induction h with
  | nil => exact ⟨List.not_mem_nil, List.not_mem_nil⟩
  | cons hc _ ih =>
    obtain ⟨hamp, heq⟩ := hc.no_marks
    rw [List.mem_append, List.mem_append, not_or, not_or]
    exact ⟨⟨hamp, ih.1⟩, heq, ih.2⟩

theorem EncodesPair.no_separator {pair : Bytes × Bytes} {t : Bytes} (h : EncodesPair pair t) :
    chr '&' ∉ t ∧ t ≠ [] := by
  obtain ⟨name, value, hname, hvalue, rfl⟩ := h
  refine ⟨?_, by simp⟩
  rw [List.mem_append, List.mem_cons, not_or, not_or]
  exact ⟨hname.no_marks.1, by decide, hvalue.no_marks.1⟩

/-- Splitting an encoded form at `&` gives the encoded pairs. -/
theorem EncodesForm.tokens {pairs : List (Bytes × Bytes)} {text : Bytes}
    (h : EncodesForm pairs text) :
    List.Forall₂ EncodesPair pairs (tokens (chr '&') text) := by
  obtain ⟨ts, hts, rfl⟩ := h
  have hsep : ∀ t ∈ ts, chr '&' ∉ t ∧ t ≠ [] := by
    induction hts with
    | nil => exact List.forall_mem_nil _
    | cons hpair _ ih => exact List.forall_mem_cons.mpr ⟨hpair.no_separator, ih⟩
  rw [tokens_intercalate (fun t ht => (hsep t ht).1) (fun t ht => (hsep t ht).2)]
  exact hts

end FormEncoding
