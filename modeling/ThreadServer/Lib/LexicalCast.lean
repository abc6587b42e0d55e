/-
  Text to number and text to address, as Boost does it: `boost::lexical_cast` from a string to a
  signed or an unsigned integer type, and `address_v4::from_string` on dotted quads.

  `lexical_cast` accepts an optional sign and then digits only.  For an unsigned target a leading
  `-` is accepted too and the value is negated modulo `2 ^ bits` (so `"-1"` is the largest value);
  a magnitude that does not fit the type fails.

  `dottedText` prints an address, and `dottedQuad` reads it back; what it reads is a `DottedQuad`.
-/
import ThreadServer.Lib.Bytes

namespace LexicalCast

open Bytes

/-- A non-empty string of digits, as a number. -/
def digits (s : Bytes) : Option Nat :=
  if s ≠ [] ∧ s.all isDigit then some (value s) else none

/-- Split off an optional sign: `true` for `-`. -/
def sign (s : Bytes) : Bool × Bytes :=
  match s with
  | [] => (false, [])
  | c :: rest => if c = chr '-' then (true, rest) else if c = chr '+' then (false, rest)
      else (false, c :: rest)

/-- `boost::lexical_cast<T>(s)` for a signed `T` of `bits` bits; `none` is `bad_lexical_cast`. -/
def toSigned (bits : Nat) (s : Bytes) : Option Int := do
  let (minus, rest) := sign s
  let n ← digits rest
  if minus then
    if n ≤ 2 ^ (bits - 1) then some (-(n : Int)) else none
  else
    if n < 2 ^ (bits - 1) then some (n : Int) else none

/-- `boost::lexical_cast<T>(s)` for an unsigned `T` of `bits` bits. -/
def toUnsigned (bits : Nat) (s : Bytes) : Option Nat := do
  let (minus, rest) := sign s
  let n ← digits rest
  if n < 2 ^ bits then
    some (if minus then (2 ^ bits - n) % 2 ^ bits else n)
  else none

/-- One component of a dotted quad: canonical decimal, at most 255. -/
def octet (s : Bytes) : Option (BitVec 8) := do
  let n ← digits s
  if n < 256 ∧ decimal n = s then some (BitVec.ofNat 8 n) else none

/-- The address a dotted quad denotes, most significant octet first. -/
def dottedQuad (s : Bytes) : Option (BitVec 32) :=
  match s.splitOn (chr '.') with
  | [a, b, c, d] => do
    let a ← octet a
    let b ← octet b
    let c ← octet c
    let d ← octet d
    some (a ++ b ++ c ++ d)
  | _ => none

example : dottedQuad (str "10.0.0.255") = some 0x0A0000FF#32 := by decide

/-! ## Dotted quads -/

/-- A component of a dotted quad: a number up to 255, in digits. -/
def IsOctet (t : Bytes) : Prop := t ≠ [] ∧ t.all isDigit = true ∧ value t ≤ 255

instance (t : Bytes) : Decidable (IsOctet t) := inferInstanceAs (Decidable (_ ∧ _))

/-- A dotted quad: four components between the dots. -/
def DottedQuad (s : Bytes) : Prop :=
  (s.splitOn (chr '.')).length = 4 ∧ ∀ t ∈ s.splitOn (chr '.'), IsOctet t

instance (s : Bytes) : Decidable (DottedQuad s) := inferInstanceAs (Decidable (_ ∧ _))

/-- The text of an address: its octets in decimal, most significant first. -/
def dottedText (a : BitVec 32) : Bytes :=
  decimal (a.extractLsb' 24 8).toNat ++ str "."
    ++ decimal (a.extractLsb' 16 8).toNat ++ str "."
    ++ decimal (a.extractLsb' 8 8).toNat ++ str "."
    ++ decimal (a.extractLsb' 0 8).toNat

theorem digits_eq_some {s : Bytes} {n : Nat} (h : digits s = some n) :
    s ≠ [] ∧ (∀ c ∈ s, isDigit c = true) ∧ value s = n := by
  unfold digits at h
  split at h
  case isTrue hs => exact ⟨hs.1, List.all_eq_true.mp hs.2, Option.some.inj h⟩
  case isFalse => exact nomatch h

theorem digits_decimal (n : Nat) : digits (decimal n) = some n := by
  have hne : decimal n ≠ [] := by
    obtain ⟨d, ds, -, heq, -⟩ := decimal_eq_cons n
    rw [heq]
    exact List.cons_ne_nil _ _
  have hall : (decimal n).all isDigit = true :=
    List.all_eq_true.mpr fun _ hc => isDigit_of_mem_decimal hc
  rw [digits, if_pos ⟨hne, hall⟩, value_decimal]

/-- A text that starts with a digit has no sign. -/
theorem sign_of_isDigit {c : UInt8} (h : isDigit c = true) (rest : Bytes) :
    sign (c :: rest) = (false, c :: rest) := by
  have hminus : c ≠ chr '-' := by
    rintro rfl
    exact absurd h (by decide)
  have hplus : c ≠ chr '+' := by
    rintro rfl
    exact absurd h (by decide)
  rw [sign, if_neg hminus, if_neg hplus]

/-- A printed number that fits the type is read back. -/
theorem toSigned_decimal {bits n : Nat} (h : n < 2 ^ (bits - 1)) :
    toSigned bits (decimal n) = some (n : Int) := by
  have hsign : sign (decimal n) = (false, decimal n) := by
    obtain ⟨d, ds, hd, heq, -⟩ := decimal_eq_cons n
    rw [heq, sign_of_isDigit (isDigit_digit hd)]
  rw [toSigned, hsign]
  dsimp only
  rw [digits_decimal]
  exact if_pos h

/-- Cutting off the sign keeps every other character. -/
theorem mem_sign {s : Bytes} {a : UInt8} (h : a ∈ s) (hminus : a ≠ chr '-') (hplus : a ≠ chr '+') :
    a ∈ (sign s).2 := by
  cases s with
  | nil => exact h
  | cons c rest =>
    by_cases hc : c = chr '-'
    · rw [sign, if_pos hc]
      exact (List.mem_cons.mp h).resolve_left fun ha => hminus (ha.trans hc)
    · by_cases hc' : c = chr '+'
      · rw [sign, if_neg hc, if_pos hc']
        exact (List.mem_cons.mp h).resolve_left fun ha => hplus (ha.trans hc')
      · rw [sign, if_neg hc, if_neg hc']
        exact h

/-- What is read as a number is a sign and digits. -/
theorem notMem_of_toSigned {bits : Nat} {t : Bytes} {k : Int} (h : toSigned bits t = some k)
    {c : UInt8} (hdigit : isDigit c = false) (hminus : c ≠ chr '-') (hplus : c ≠ chr '+') :
    c ∉ t := by
  intro hc
  obtain ⟨n, hn, -⟩ := Option.bind_eq_some_iff.mp h
  obtain ⟨-, hdigits, -⟩ := digits_eq_some hn
  exact absurd (hdigits c (mem_sign hc hminus hplus)) (by rw [hdigit]; exact Bool.false_ne_true)

/-- A number is no dotted quad. -/
theorem not_dottedQuad_of_toSigned {bits : Nat} {t : Bytes} {k : Int}
    (h : toSigned bits t = some k) : ¬ DottedQuad t := by
  intro hquad
  have hlength := hquad.1
  have hdot : chr '.' ∉ t := notMem_of_toSigned h (by decide) (by decide) (by decide)
  rw [List.splitOn_eq_singleton hdot] at hlength
  exact nomatch hlength

/-- Splitting drops separators only. -/
theorem exists_mem_splitOn {s : Bytes} {c sep : UInt8} (hc : c ∈ s) (hne : c ≠ sep) :
    ∃ t ∈ s.splitOn sep, c ∈ t := by
  induction s with
  | nil => cases hc
  | cons b s ih =>
    obtain ⟨t, ts, hsplit⟩ := List.exists_cons_of_ne_nil (List.splitOn_ne_nil sep s)
    rw [List.splitOn_cons_eq_if_modifyHead, hsplit]
    rw [hsplit] at ih
    rcases List.mem_cons.mp hc with rfl | hc
    · rw [if_neg (by simpa using hne)]
      exact ⟨_, List.mem_cons_self, List.mem_cons_self⟩
    obtain ⟨u, hu, hcu⟩ := ih hc
    split
    · exact ⟨u, List.mem_cons_of_mem _ hu, hcu⟩
    · rcases List.mem_cons.mp hu with rfl | hu
      · exact ⟨_, List.mem_cons_self, List.mem_cons_of_mem _ hcu⟩
      · exact ⟨u, List.mem_cons_of_mem _ hu, hcu⟩

/-- A dotted quad is digits and dots. -/
theorem notMem_of_dottedQuad {s : Bytes} (h : DottedQuad s) {c : UInt8} (hdigit : isDigit c = false)
    (hdot : c ≠ chr '.') : c ∉ s := by
  intro hc
  obtain ⟨t, ht, hct⟩ := exists_mem_splitOn hc hdot
  have hall := List.all_eq_true.mp (h.2 t ht).2.1 c hct
  exact absurd hall (by rw [hdigit]; exact Bool.false_ne_true)

theorem octet_decimal (b : BitVec 8) : octet (decimal b.toNat) = some b := by
  have hlt : b.toNat < 256 := b.isLt
  rw [octet, digits_decimal]
  show (if b.toNat < 256 ∧ decimal b.toNat = decimal b.toNat then some (BitVec.ofNat 8 b.toNat)
    else none) = some b
  rw [if_pos ⟨hlt, rfl⟩, BitVec.ofNat_toNat, BitVec.setWidth_eq]

theorem isOctet_of_octet {s : Bytes} {b : BitVec 8} (h : octet s = some b) : IsOctet s := by
  obtain ⟨n, hn, hb⟩ := Option.bind_eq_some_iff.mp h
  obtain ⟨hne, hall, hvalue⟩ := digits_eq_some hn
  have hlt : n < 256 := by
    by_contra hge
    rw [if_neg fun hand => hge hand.1] at hb
    exact nomatch hb
  exact ⟨hne, List.all_eq_true.mpr hall, by omega⟩

/-- Dots between four dotless texts are where splitting cuts. -/
theorem splitOn_dots {a b c d : Bytes} (ha : chr '.' ∉ a) (hb : chr '.' ∉ b) (hc : chr '.' ∉ c)
    (hd : chr '.' ∉ d) :
    (a ++ str "." ++ b ++ str "." ++ c ++ str "." ++ d).splitOn (chr '.') = [a, b, c, d] := by
  have hjoin : a ++ str "." ++ b ++ str "." ++ c ++ str "." ++ d
      = [chr '.'].intercalate [a, b, c, d] := by
    simp [List.intercalate, List.intersperse, str]
  rw [hjoin]
  apply List.splitOn_intercalate (chr '.') _ (List.cons_ne_nil _ _)
  simp only [List.forall_mem_cons]
  exact ⟨ha, hb, hc, hd, fun _ h => nomatch h⟩

theorem dot_notMem_decimal (n : Nat) : chr '.' ∉ decimal n := by
  intro h
  exact absurd (isDigit_of_mem_decimal h) (by decide)

/-- The octets of an address make it up. -/
theorem append_octets (a : BitVec 32) :
    a.extractLsb' 24 8 ++ a.extractLsb' 16 8 ++ a.extractLsb' 8 8 ++ a.extractLsb' 0 8 = a := by
  rw [BitVec.extractLsb'_append_extractLsb'_eq_extractLsb' (show 24 = 16 + 8 from rfl),
    BitVec.extractLsb'_append_extractLsb'_eq_extractLsb' (show 16 = 8 + 8 from rfl),
    BitVec.extractLsb'_append_extractLsb'_eq_extractLsb' (show 8 = 0 + 8 from rfl)]
  exact BitVec.extractLsb'_eq_self

/-- Reading the text of an address back gives the address. -/
theorem dottedQuad_dottedText (a : BitVec 32) : dottedQuad (dottedText a) = some a := by
  rw [dottedQuad, dottedText, splitOn_dots (dot_notMem_decimal _) (dot_notMem_decimal _)
    (dot_notMem_decimal _) (dot_notMem_decimal _)]
  simp only [octet_decimal, Option.bind_eq_bind, Option.bind_some, append_octets]

/-- Only dotted quads are read. -/
theorem isDottedQuad_of_dottedQuad {s : Bytes} {a : BitVec 32} (h : dottedQuad s = some a) :
    DottedQuad s := by
  unfold dottedQuad at h
  split at h
  case h_1 t₁ t₂ t₃ t₄ hsplit =>
    obtain ⟨b₁, h₁, h⟩ := Option.bind_eq_some_iff.mp h
    obtain ⟨b₂, h₂, h⟩ := Option.bind_eq_some_iff.mp h
    obtain ⟨b₃, h₃, h⟩ := Option.bind_eq_some_iff.mp h
    obtain ⟨b₄, h₄, -⟩ := Option.bind_eq_some_iff.mp h
    rw [DottedQuad, hsplit]
    simp only [List.forall_mem_cons]
    exact ⟨rfl, isOctet_of_octet h₁, isOctet_of_octet h₂, isOctet_of_octet h₃, isOctet_of_octet h₄,
      fun _ h => nomatch h⟩
  case h_2 => exact nomatch h

end LexicalCast
