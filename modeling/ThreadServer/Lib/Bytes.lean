/-
  Byte strings: `std::string` as a list of bytes, with the handful of its operations that a
  parser written in C++ leans on (`find` of one character, `substr`, `c_str`, splitting at a
  delimiter), and digits.

  A `std::string` may hold any byte, zero included, so it is a `List UInt8` and not a `String`.
  Literals of the source are written `str "..."` (ASCII only) and single characters `chr '.'`;
  both evaluate in the kernel, so concrete runs close by `decide`, and `simp` turns `chr '.'` into
  its numeral.

  Nothing here knows what the strings are for.
-/
import Mathlib.Data.List.TakeWhile
import Mathlib.Data.Nat.Digits.Defs

/-- A `std::string`: any sequence of bytes. -/
abbrev Bytes := List UInt8

namespace Bytes

/-- The byte of an ASCII character. -/
abbrev chr (c : Char) : UInt8 := UInt8.ofNat c.toNat

/-- The bytes of an ASCII literal. -/
def str (s : String) : Bytes := s.toList.map chr

/-- A literal, character by character. -/
theorem str_ofList (l : List Char) : str (String.ofList l) = l.map chr :=
  congrArg (List.map chr) String.toList_ofList

/-- To decide a property of the entries of a list, walk the list (and not the whole type, which is
    finite for bytes). -/
theorem forall_of_all {α : Type} {p : α → Prop} [DecidablePred p] {l : List α}
    (h : (l.all fun a => decide (p a)) = true) : ∀ a ∈ l, p a := by
  intro a ha
  exact of_decide_eq_true (List.all_eq_true.mp h a ha)

theorem forall_head_cons {α : Type} {p : α → Prop} {a : α} {s : List α} :
    (∀ b ∈ (a :: s).head?, p b) ↔ p a := by
  constructor
  · intro h
    exact h a rfl
  · intro h b hb
    rw [← Option.some.inj hb]
    exact h

/-! ## Byte order -/

/-- `std::string`'s comparison is the order of byte lists. -/
theorem compare_eq_lt {a b : Bytes} : compare a b = .lt ↔ a < b := by
  induction a generalizing b with
  | nil =>
    cases b with
    | nil => simp
    | cons d b => simp [List.compare_nil_cons]
  | cons c a ih =>
    cases b with
    | nil => simp [List.compare_cons_nil]
    | cons d b =>
      rw [List.compare_cons_cons, Ordering.then_eq_lt, List.cons_lt_cons_iff, Std.compare_eq_lt,
        Std.LawfulEqCmp.compare_eq_iff_eq, ih]

theorem lt_trichotomy (a b : Bytes) : a < b ∨ a = b ∨ b < a := by
  cases hcmp : compare a b with
  | lt => exact Or.inl (compare_eq_lt.mp hcmp)
  | eq => exact Or.inr (Or.inl (Std.LawfulEqCmp.compare_eq_iff_eq.mp hcmp))
  | gt => exact Or.inr (Or.inr (compare_eq_lt.mp (Std.OrientedCmp.gt_iff_lt.mp hcmp)))

/-! ## `find`, `substr`, `c_str` -/

/-- `s.find("c")` for a one-character needle; `none` is `npos`. -/
def find (c : UInt8) (s : Bytes) : Option Nat := s.findIdx? (· == c)

/-- `s.rfind("c")` for a one-character needle. -/
def rfind (c : UInt8) (s : Bytes) : Option Nat := (find c s.reverse).map (s.length - 1 - ·)

/-- `s.substr(pos, n)`: at most `n` bytes from `pos`.  The second argument is a LENGTH. -/
def substr (s : Bytes) (pos n : Nat) : Bytes := (s.drop pos).take n

/-- `s.substr(pos)`: everything from `pos`. -/
def substrFrom (s : Bytes) (pos : Nat) : Bytes := s.drop pos

/-- What a function taking `s.c_str()` sees: the bytes before the first NUL. -/
def cStr (s : Bytes) : Bytes := s.takeWhile (· ≠ 0)

theorem zero_notMem_cStr (s : Bytes) : 0 ∉ cStr s := by
  intro h
  have hne := List.mem_takeWhile_imp h
  simp at hne

theorem cStr_of_zero_notMem {s : Bytes} (h : 0 ∉ s) : cStr s = s := by
  refine List.takeWhile_eq_self_iff.mpr fun c hc => ?_
  have hne : c ≠ 0 := by
    rintro rfl
    exact h hc
  simpa using hne

theorem find_eq_none {c : UInt8} {s : Bytes} : find c s = none ↔ c ∉ s := by
  rw [find, List.findIdx?_eq_none_iff]
  constructor
  · intro h hc
    exact absurd (h c hc) (by simp)
  · intro h x hx
    simp only [beq_eq_false_iff_ne, ne_eq]
    rintro rfl
    exact h hx

/-- `find` points at the first occurrence: the string splits there, with no `c` before. -/
theorem find_eq_some {c : UInt8} {s : Bytes} {pos : Nat} :
    find c s = some pos ↔ ∃ pre post, s = pre ++ c :: post ∧ c ∉ pre ∧ pre.length = pos := by
  induction s generalizing pos with
  | nil => simp [find]
  | cons a s ih =>
    by_cases hac : a = c
    · subst hac
      rw [find, List.findIdx?_cons, if_pos (by simp)]
      constructor
      · intro h
        obtain rfl : 0 = pos := Option.some.inj h
        exact ⟨[], s, rfl, by simp, rfl⟩
      · rintro ⟨pre, post, heq, hpre, rfl⟩
        cases pre with
        | nil => rfl
        | cons b pre =>
          obtain ⟨rfl, -⟩ := List.cons.inj heq
          exact absurd List.mem_cons_self hpre
    · have hstep : find c (a :: s) = (find c s).map (· + 1) := by
        rw [find, List.findIdx?_cons, if_neg (by simpa using hac)]
        rfl
      rw [hstep, Option.map_eq_some_iff]
      constructor
      · rintro ⟨k, hk, rfl⟩
        obtain ⟨pre, post, rfl, hpre, rfl⟩ := ih.mp hk
        refine ⟨a :: pre, post, rfl, ?_, rfl⟩
        rw [List.mem_cons, not_or]
        exact ⟨fun h => hac h.symm, hpre⟩
      · rintro ⟨pre, post, heq, hpre, rfl⟩
        cases pre with
        | nil => exact absurd (List.cons.inj heq).1 hac
        | cons b pre =>
          obtain ⟨rfl, rfl⟩ := List.cons.inj heq
          exact ⟨pre.length, ih.mpr ⟨pre, post, rfl, fun h => hpre (List.mem_cons_of_mem _ h), rfl⟩,
            rfl⟩

/-- The first occurrence in a string that is written out up to it. -/
theorem find_append_cons {c : UInt8} {pre : Bytes} (post : Bytes) (h : c ∉ pre) :
    find c (pre ++ c :: post) = some pre.length :=
  find_eq_some.mpr ⟨pre, post, rfl, h, rfl⟩

/-- A string is taken apart at the first occurrence of a character in one way only. -/
theorem append_cons_inj {c : UInt8} {a a' t t' : Bytes} (h : c ∉ a) (h' : c ∉ a')
    (heq : a ++ c :: t = a' ++ c :: t') : a = a' ∧ t = t' := by
  have hfind : some a.length = some a'.length := by
    rw [← find_append_cons t h, heq, find_append_cons t' h']
  obtain ⟨ha, ht⟩ := List.append_inj heq (Option.some.inj hfind)
  exact ⟨ha, (List.cons.inj ht).2⟩

/-- Searching goes on behind a prefix that lacks the needle. -/
theorem find_append {c : UInt8} {p : Bytes} (h : c ∉ p) (s : Bytes) :
    find c (p ++ s) = (find c s).map (· + p.length) := by
  rw [find, List.findIdx?_append, show p.findIdx? (· == c) = none from find_eq_none.mpr h,
    Option.none_or, find]

theorem find_cons_of_ne {c a : UInt8} (h : a ≠ c) (s : Bytes) :
    find c (a :: s) = (find c s).map (· + 1) :=
  find_append (p := [a]) (fun hc => h (List.mem_singleton.mp hc).symm) s

/-- The last occurrence: nothing behind it contains the character. -/
theorem rfind_eq_some {c : UInt8} {s : Bytes} {pos : Nat} :
    rfind c s = some pos ↔ ∃ pre post, s = pre ++ c :: post ∧ c ∉ post ∧ pre.length = pos := by
  rw [rfind, Option.map_eq_some_iff]
  constructor
  · rintro ⟨k, hk, rfl⟩
    obtain ⟨post, pre, hreverse, hpost, rfl⟩ := find_eq_some.mp hk
    have hs : s = pre.reverse ++ c :: post.reverse := by
      rw [← List.reverse_reverse s, hreverse]
      simp only [List.reverse_append, List.reverse_cons, List.append_assoc, List.cons_append,
        List.nil_append]
    refine ⟨pre.reverse, post.reverse, hs, fun h => hpost (List.mem_reverse.mp h), ?_⟩
    rw [hs]
    simp only [List.length_append, List.length_reverse, List.length_cons]
    omega
  · rintro ⟨pre, post, rfl, hpost, rfl⟩
    refine ⟨post.length, find_eq_some.mpr ⟨post.reverse, pre.reverse, ?_, ?_, ?_⟩, ?_⟩
    · simp only [List.reverse_append, List.reverse_cons, List.append_assoc, List.cons_append,
        List.nil_append]
    · exact fun h => hpost (List.mem_reverse.mp h)
    · exact List.length_reverse
    · simp only [List.length_append, List.length_cons]
      omega

/-- The front of a string, by its length. -/
theorem substr_append (p s : Bytes) : substr (p ++ s) 0 p.length = p := by
  rw [substr, List.drop_zero, List.take_left]

/-- What stands behind a front and one more byte. -/
theorem substrFrom_append_cons (p : Bytes) (c : UInt8) (s : Bytes) :
    substrFrom (p ++ c :: s) (p.length + 1) = s := by
  rw [substrFrom, List.drop_append, List.drop_eq_nil_of_le (by omega), Nat.add_sub_cancel_left]
  rfl

/-- The longest prefix of bytes with a property, when the byte after it lacks it. -/
theorem span_append {p : UInt8 → Bool} {d r : Bytes} (hd : ∀ c ∈ d, p c = true)
    (hr : ∀ c ∈ r.head?, p c = false) :
    (d ++ r).takeWhile p = d ∧ (d ++ r).dropWhile p = r := by
  have htake : r.takeWhile p = [] ∧ r.dropWhile p = r := by
    cases r with
    | nil => exact ⟨rfl, rfl⟩
    | cons c r =>
      have hc := hr c rfl
      simp [hc]
  rw [List.takeWhile_append_of_pos hd, List.dropWhile_append_of_pos hd, htake.1, htake.2,
    List.append_nil]
  exact ⟨rfl, rfl⟩

/-! ## Splitting at a delimiter -/

/-- The non-empty pieces between the delimiters `c`: Boost's `tokenizer` with
    `char_separator(c)`, whose default policy drops empty tokens. -/
def tokens (c : UInt8) (s : Bytes) : List Bytes := (s.splitOn c).filter (· ≠ [])

/-- Pieces that are non-empty and free of the delimiter are what splitting their join gives. -/
theorem tokens_intercalate {c : UInt8} {ts : List Bytes} (hc : ∀ t ∈ ts, c ∉ t)
    (hne : ∀ t ∈ ts, t ≠ []) : tokens c ([c].intercalate ts) = ts := by
  cases ts with
  | nil => simp [tokens, List.splitOn]
  | cons t ts =>
    rw [tokens, List.splitOn_intercalate c hc (by simp), List.filter_eq_self]
    intro t' ht'
    simpa using hne t' ht'

theorem tokens_nil (c : UInt8) : tokens c [] = [] := by
  rw [tokens, List.splitOn_nil]
  rfl

/-- A delimiter separates the tokens before it from those behind it. -/
theorem tokens_append_cons (c : UInt8) (s t : Bytes) :
    tokens c (s ++ c :: t) = tokens c s ++ tokens c t := by
  rw [tokens, List.splitOn_append_cons_self, List.filter_append, tokens, tokens]

/-- A string of delimiters has no tokens. -/
theorem tokens_delimiters {c : UInt8} {s : Bytes} (h : ∀ a ∈ s, a = c) : tokens c s = [] := by
  induction s with
  | nil => exact tokens_nil c
  | cons a s ih =>
    obtain ⟨rfl, hs⟩ := List.forall_mem_cons.mp h
    have hcons := tokens_append_cons a [] s
    rw [tokens_nil, List.nil_append, List.nil_append] at hcons
    rw [hcons, ih hs]

/-- The tokens of a join are the tokens of its pieces. -/
theorem tokens_intercalate_flatMap (c : UInt8) (ts : List Bytes) :
    tokens c ([c].intercalate ts) = ts.flatMap (tokens c) := by
  induction ts with
  | nil => exact tokens_nil c
  | cons t ts ih =>
    by_cases hts : ts = []
    · subst hts
      rw [List.intercalate_singleton, List.flatMap_singleton]
    · rw [List.intercalate_cons_of_ne_nil hts, List.append_assoc, List.singleton_append,
        tokens_append_cons, ih, List.flatMap_cons]

/-- A string without the delimiter is its own token, unless it is empty. -/
theorem tokens_of_notMem {c : UInt8} {s : Bytes} (h : c ∉ s) :
    tokens c s = if s = [] then [] else [s] := by
  rw [tokens, List.splitOn_eq_singleton h]
  by_cases hs : s = [] <;> simp [hs]

/-- What a join is made of. -/
theorem mem_intercalate {c : UInt8} {sep : Bytes} {ts : List Bytes} (h : c ∈ sep.intercalate ts) :
    c ∈ sep ∨ ∃ t ∈ ts, c ∈ t := by
  induction ts with
  | nil => exact nomatch h
  | cons t ts ih =>
    by_cases hts : ts = []
    · subst hts
      rw [List.intercalate_singleton] at h
      exact Or.inr ⟨t, List.mem_singleton.mpr rfl, h⟩
    · rw [List.intercalate_cons_of_ne_nil hts, List.mem_append, List.mem_append] at h
      rcases h with (h | h) | h
      · exact Or.inr ⟨t, List.mem_cons_self, h⟩
      · exact Or.inl h
      · exact (ih h).imp_right fun ⟨t', ht', hc⟩ => ⟨t', List.mem_cons_of_mem _ ht', hc⟩

/-- Everything in a piece is in the join. -/
theorem mem_intercalate_of_mem {c : UInt8} (sep : Bytes) {ts : List Bytes} {t : Bytes} (ht : t ∈ ts)
    (hc : c ∈ t) : c ∈ sep.intercalate ts := by
  induction ts with
  | nil => exact nomatch ht
  | cons t' ts ih =>
    by_cases hts : ts = []
    · subst hts
      rw [List.intercalate_singleton, ← List.mem_singleton.mp ht]
      exact hc
    · rw [List.intercalate_cons_of_ne_nil hts, List.mem_append, List.mem_append]
      rcases List.mem_cons.mp ht with rfl | ht
      · exact Or.inl (Or.inl hc)
      · exact Or.inr (ih ht)

/-- A join is at least as long as each of its pieces. -/
theorem length_le_intercalate_of_mem (sep : Bytes) {ts : List Bytes} {t : Bytes} (ht : t ∈ ts) :
    t.length ≤ (sep.intercalate ts).length := by
  induction ts with
  | nil => exact nomatch ht
  | cons t' ts ih =>
    by_cases hts : ts = []
    · subst hts
      rw [List.intercalate_singleton, List.mem_singleton.mp ht]
    · rw [List.intercalate_cons_of_ne_nil hts, List.length_append, List.length_append]
      rcases List.mem_cons.mp ht with rfl | ht
      · omega
      · have := ih ht
        omega

/-- A join of non-empty pieces has at least as many bytes as there are pieces. -/
theorem length_le_length_intercalate (sep : Bytes) {ts : List Bytes} (hne : ∀ t ∈ ts, t ≠ []) :
    ts.length ≤ (sep.intercalate ts).length := by
  induction ts with
  | nil => exact Nat.zero_le _
  | cons t ts ih =>
    obtain ⟨ht, hts⟩ := List.forall_mem_cons.mp hne
    have hpos : 0 < t.length := List.length_pos_iff.mpr ht
    by_cases hnil : ts = []
    · subst hnil
      rw [List.intercalate_singleton]
      exact hpos
    · have := ih hts
      rw [List.intercalate_cons_of_ne_nil hnil, List.length_append, List.length_append,
        List.length_cons]
      omega

/-! ## Bytes that only stand behind another -/

/-- Every `c` of the text stands immediately behind a `b`. -/
def Behind (b c : UInt8) (t : Bytes) : Prop :=
  ∀ before after, t = before ++ c :: after → ∃ start, before = start ++ [b]

section Behind

variable {b c : UInt8} {s t : Bytes}

theorem behind_of_notMem (h : c ∉ t) : Behind b c t := by
  rintro before after rfl
  exact absurd (List.mem_append_right before List.mem_cons_self) h

/-- Texts can be joined: what stands in front of the second one's first `c` is its own. -/
theorem Behind.append (hs : Behind b c s) (ht : Behind b c t) : Behind b c (s ++ t) := by
  intro before after heq
  rcases List.append_eq_append_iff.mp heq with ⟨mid, rfl, ht'⟩ | ⟨mid, hs', hmid⟩
  · obtain ⟨start, rfl⟩ := ht mid after ht'
    exact ⟨s ++ start, (List.append_assoc s start [b]).symm⟩
  · cases mid with
    | nil =>
      -- The `c` is the first byte of `t`, and has nothing to stand behind.
      obtain ⟨start, hstart⟩ := ht [] after hmid.symm
      exact absurd hstart.symm (List.append_ne_nil_of_right_ne_nil start (List.cons_ne_nil b []))
    | cons d mid =>
      obtain ⟨rfl, -⟩ := List.cons.inj hmid
      exact hs before mid hs'

/-- A pair of the two. -/
theorem behind_pair (h : b ≠ c) : Behind b c [b, c] := by
  intro before after heq
  cases before with
  | nil => exact absurd (List.cons.inj heq).1 h
  | cons d before =>
    obtain ⟨rfl, hrest⟩ := List.cons.inj heq
    cases before with
    | nil => exact ⟨[], rfl⟩
    | cons e before => exact absurd (List.cons.inj hrest).2.symm (by simp)

/-- Behind any other byte there is no `c`. -/
theorem Behind.not_infix (h : Behind b c t) {d : UInt8} (hd : d ≠ b) : ¬ [d, c] <:+: t := by
  rintro ⟨before, after, heq⟩
  have hsplit : t = (before ++ [d]) ++ c :: after := by
    rw [← heq, List.append_assoc, List.append_assoc]
    rfl
  obtain ⟨start, hstart⟩ := h (before ++ [d]) after hsplit
  exact hd (List.cons.inj (List.append_inj_right' hstart rfl)).1

end Behind

/-! ## Hexadecimal digits -/

/-- The value of a hexadecimal digit, of either case. -/
def hexValue? (c : UInt8) : Option Nat :=
  if chr '0' ≤ c ∧ c ≤ chr '9' then some (c.toNat - 48)
  else if chr 'a' ≤ c ∧ c ≤ chr 'f' then some (c.toNat - 87)
  else if chr 'A' ≤ c ∧ c ≤ chr 'F' then some (c.toNat - 55)
  else none

/-! ## Decimal numerals -/

/-- The digit of a value below ten. -/
def digit (d : Nat) : UInt8 := UInt8.ofNat (48 + d)

/-- `boost::lexical_cast<std::string>(n)` of an unsigned number. -/
def decimal (n : Nat) : Bytes := (Nat.toDigits 10 n).map chr

/-- `boost::lexical_cast<std::string>(n)` of a signed number. -/
def signedDecimal (n : Int) : Bytes :=
  if n < 0 then chr '-' :: decimal n.natAbs else decimal n.natAbs

/-- Is `c` one of `0`..`9`? -/
def isDigit (c : UInt8) : Bool := decide (chr '0' ≤ c ∧ c ≤ chr '9')

/-- The value of a digit. -/
def digitValue (c : UInt8) : Nat := c.toNat - 48

/-- The number a digit string denotes, most significant digit first. -/
def value (s : Bytes) : Nat := s.foldl (fun n c => 10 * n + digitValue c) 0

theorem isDigit_iff {c : UInt8} : isDigit c = true ↔ 48 ≤ c.toNat ∧ c.toNat ≤ 57 := by
  rw [isDigit, decide_eq_true_iff, UInt8.le_iff_toNat_le, UInt8.le_iff_toNat_le]
  simp

theorem toNat_digit {d : Nat} (h : d < 10) : (digit d).toNat = 48 + d := by
  rw [digit, UInt8.toNat_ofNat']
  omega

theorem isDigit_digit {d : Nat} (h : d < 10) : isDigit (digit d) = true := by
  rw [isDigit_iff, toNat_digit h]
  omega

theorem digitValue_digit {d : Nat} (h : d < 10) : digitValue (digit d) = d := by
  rw [digitValue, toNat_digit h]
  omega

theorem chr_digitChar {d : Nat} (h : d < 10) : chr (Nat.digitChar d) = digit d := by
  have hall : ∀ k : Fin 10, chr (Nat.digitChar k) = digit k := by decide
  exact hall ⟨d, h⟩

theorem decimal_of_lt {n : Nat} (h : n < 10) : decimal n = [digit n] := by
  rw [decimal, Nat.toDigits_of_lt_base h, List.map_singleton, chr_digitChar h]

theorem decimal_of_ge {n : Nat} (h : 10 ≤ n) :
    decimal n = decimal (n / 10) ++ [digit (n % 10)] := by
  rw [decimal, Nat.toDigits_of_base_le (by omega) h, List.map_append, List.map_singleton,
    chr_digitChar (Nat.mod_lt _ (by omega)), decimal]

/-- A numeral is a non-zero digit followed by digits, or the single digit `0`. -/
theorem decimal_eq_cons (n : Nat) : ∃ d ds, d < 10 ∧ decimal n = digit d :: ds ∧
    (∀ c ∈ ds, isDigit c = true) ∧ (d = 0 → n = 0 ∧ ds = []) := by
  induction n using Nat.strong_induction_on with
  | _ n ih =>
    rcases Nat.lt_or_ge n 10 with h | h
    · exact ⟨n, [], h, decimal_of_lt h, by simp, fun h0 => ⟨h0, rfl⟩⟩
    · obtain ⟨d, ds, hd, heq, hds, h0⟩ := ih (n / 10) (by omega)
      refine ⟨d, ds ++ [digit (n % 10)], hd, ?_, ?_, fun hd0 => ?_⟩
      · rw [decimal_of_ge h, heq, List.cons_append]
      · intro c hc
        rcases List.mem_append.mp hc with hc | hc
        · exact hds c hc
        · rw [List.mem_singleton.mp hc]
          exact isDigit_digit (Nat.mod_lt _ (by omega))
      · have := (h0 hd0).1
        omega

theorem isDigit_of_mem_decimal {n : Nat} {c : UInt8} (h : c ∈ decimal n) : isDigit c = true := by
  obtain ⟨d, ds, hd, heq, hds, -⟩ := decimal_eq_cons n
  rw [heq] at h
  rcases List.mem_cons.mp h with rfl | h
  · exact isDigit_digit hd
  · exact hds c h

theorem value_append_digit (s : Bytes) (d : Nat) (h : d < 10) :
    value (s ++ [digit d]) = 10 * value s + d := by
  rw [value, List.foldl_append, List.foldl_cons, List.foldl_nil, digitValue_digit h, value]

/-- Reading a numeral back gives the number it was printed from. -/
theorem value_decimal (n : Nat) : value (decimal n) = n := by
  induction n using Nat.strong_induction_on with
  | _ n ih =>
    rcases Nat.lt_or_ge n 10 with h | h
    · rw [decimal_of_lt h, ← List.nil_append [digit n], value_append_digit _ _ h]
      exact Nat.zero_add n
    · rw [decimal_of_ge h, value_append_digit _ _ (Nat.mod_lt _ (by omega)), ih (n / 10) (by omega)]
      omega

end Bytes
