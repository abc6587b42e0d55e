/-
  `Network_t` (`network.cc`): an IPv4 network is an address and a netmask, parsed from
  `A`, `A/n` or `A/M` and asked whether it contains an address.

  `address_v4` is a 32-bit vector.  `address_v4::from_string` is Boost's and is taken as a
  parameter `fromString`; `none` means it throws.  The prefix length of `A/n` is turned into a
  dotted mask by 64-bit arithmetic, printed and parsed again, as the source does it; a shift by a
  count outside `0..63` has no meaning in C++ and ends the parse with `undefinedShift`.

  Up to 32 the printed mask is the prefix mask, so `A/n` is the network of the first `n` bits
  (`parse_prefixLength`).  From 33 to 63 its first component is 256, which `from_string` rejects;
  that is the only check of the range, and a count the shift has no meaning for passes it by.  And
  `from_string` is handed a string but reads it up to its first NUL, so what stands behind one is
  never looked at (`rejectsMalformed_iff`).
-/
import ThreadServer.Error
import ThreadServer.Lib.LexicalCast
import ThreadServer.Lib.PrefixMask

namespace ThreadServer

open Bytes LexicalCast PrefixMask

/-- `boost::asio::ip::address_v4`. -/
abbrev AddressV4 := BitVec 32

/-- `boost::asio::ip::address`. -/
inductive Address
  | v4 (address : AddressV4)
  | v6 (address : BitVec 128)
  deriving DecidableEq

/-- `Network_t`. -/
structure Network where
  address : AddressV4
  netmask : AddressV4
  deriving DecidableEq

namespace Network

/-- The dotted text of the mask with `count` leading ones, component by component. -/
def maskText (count : Nat) : Bytes :=
  let netmaskAsInt : BitVec 64 := 0x100000000#64 - (0x100000000#64 >>> count)
  decimal (netmaskAsInt >>> 24).toNat ++ str "."
    ++ decimal ((netmaskAsInt >>> 16) &&& 0xff#64).toNat ++ str "."
    ++ decimal ((netmaskAsInt >>> 8) &&& 0xff#64).toNat ++ str "."
    ++ decimal (netmaskAsInt &&& 0xff#64).toNat

/-- The mask as text: what stands after the slash, a prefix length (at most two characters)
    replaced by its dotted mask. -/
def netmaskText (netmask : Bytes) : Except Failure Bytes :=
  if netmask.length ≤ 2 then
    match LexicalCast.toSigned 32 netmask with
    | none => .error (.throws .badLexicalCast)
    | some count =>
      if 0 ≤ count ∧ count < 64 then .ok (maskText count.toNat)
      else .error (.undefinedShift count)
  else .ok netmask

section Parse

variable (fromString : Bytes → Option AddressV4)

/-- `address_v4::from_string`, throwing. -/
def parseAddress (text : Bytes) : Except Failure AddressV4 :=
  match fromString text with
  | some address => .ok address
  | none => .error (.throws (.systemError 22 (str "Invalid argument")))

/-- `Network_t::parse`. -/
def parse (addressWithNetmask : Bytes) : Except Failure Network := do
  let (address, netmask) ← match find (chr '/') addressWithNetmask with
    | some pos => do
      let netmask ← netmaskText (substrFrom addressWithNetmask (pos + 1))
      pure (substr addressWithNetmask 0 pos, netmask)
    | none => pure (addressWithNetmask, str "255.255.255.255")
  let address ← parseAddress fromString address
  let netmask ← parseAddress fromString netmask
  pure ⟨address &&& netmask, netmask⟩

/-- `Network_t::parse` on a vector: every network, in order. -/
def parseAll (addressesWithNetmasks : List Bytes) : Except Failure (List Network) :=
  addressesWithNetmasks.mapM (parse fromString)

end Parse

/-- `Network_t::contains`. -/
def contains (network : Network) (address : AddressV4) : Bool :=
  address &&& network.netmask == network.address

/-! ## The computed mask -/

/-- The 64-bit subtraction does not wrap. -/
theorem toNat_netmaskAsInt (count : Nat) :
    (0x100000000#64 - (0x100000000#64 >>> count)).toNat = 2 ^ 32 - 2 ^ 32 / 2 ^ count := by
  have hshift : (0x100000000#64 >>> count).toNat = 2 ^ 32 / 2 ^ count := by
    rw [BitVec.toNat_ushiftRight, Nat.shiftRight_eq_div_pow]
    rfl
  have hle : 0x100000000#64 >>> count ≤ 0x100000000#64 := by
    rw [BitVec.le_def, hshift]
    exact Nat.div_le_self _ _
  rw [BitVec.toNat_sub_of_le hle, hshift]
  rfl

/-- For a prefix length the number computed is the prefix mask. -/
theorem toNat_netmaskAsInt_of_le {count : Nat} (h : count ≤ 32) :
    (0x100000000#64 - (0x100000000#64 >>> count)).toNat = (prefixMask 32 count).toNat := by
  rw [toNat_netmaskAsInt, toNat_prefixMask, Nat.pow_div h (by decide)]

/-- One printed component is the octet at the same place. -/
theorem toNat_component {m : BitVec 64} {a : BitVec 32} (h : m.toNat = a.toNat) (shift : Nat) :
    ((m >>> shift) &&& 0xff#64).toNat = (a.extractLsb' shift 8).toNat := by
  rw [BitVec.toNat_and, BitVec.toNat_ushiftRight, BitVec.extractLsb'_toNat, h]
  exact Nat.and_two_pow_sub_one_eq_mod _ 8

/-- **For a prefix length up to 32 the text is the dotted prefix mask.** -/
theorem maskText_of_le {count : Nat} (h : count ≤ 32) :
    maskText count = dottedText (prefixMask 32 count) := by
  have hm := toNat_netmaskAsInt_of_le h
  have hfirst : ((0x100000000#64 - (0x100000000#64 >>> count)) >>> 24).toNat
      = ((prefixMask 32 count).extractLsb' 24 8).toNat := by
    have hlt := (prefixMask 32 count).isLt
    rw [BitVec.toNat_ushiftRight, BitVec.extractLsb'_toNat, hm, Nat.shiftRight_eq_div_pow]
    omega
  have hlast := toNat_component hm 0
  rw [BitVec.ushiftRight_zero] at hlast
  rw [maskText, dottedText, ← hfirst, ← toNat_component hm 16, ← toNat_component hm 8, ← hlast]

/-- **Past 32 it is the text of a component too large.** -/
theorem maskText_of_lt {count : Nat} (h : 32 < count) : maskText count = str "256.0.0.0" := by
  have hnum : (0x100000000#64 - (0x100000000#64 >>> count)).toNat = 2 ^ 32 := by
    rw [toNat_netmaskAsInt, Nat.div_eq_of_lt (Nat.pow_lt_pow_right (by decide) h), Nat.sub_zero]
  have hconst : 0x100000000#64 - (0x100000000#64 >>> count) = 0x100000000#64 :=
    BitVec.eq_of_toNat_eq hnum
  rw [maskText, hconst]
  decide

/-! ## What a parse comes to -/

section ParseCases

variable {fromString : Bytes → Option AddressV4}

variable (fromString) in
/-- The end of `parse`, when the text is taken apart: both halves are read, the address masked. -/
def ofTexts (address netmask : Bytes) : Except Failure Network := do
  let address ← parseAddress fromString address
  let netmask ← parseAddress fromString netmask
  pure ⟨address &&& netmask, netmask⟩

theorem parse_plain {s : Bytes} (h : chr '/' ∉ s) :
    parse fromString s = ofTexts fromString s (str "255.255.255.255") := by
  rw [parse, find_eq_none.mpr h]
  rfl

theorem slash_append (a t : Bytes) : a ++ str "/" ++ t = a ++ chr '/' :: t :=
  List.append_assoc a _ t

theorem parse_slash {a : Bytes} (h : chr '/' ∉ a) (t : Bytes) :
    parse fromString (a ++ chr '/' :: t) = netmaskText t >>= ofTexts fromString a := by
  rw [parse, find_append_cons t h]
  dsimp only
  rw [substr_append, substrFrom_append_cons]
  cases netmaskText t with
  | error failure => rfl
  | ok netmask => rfl

theorem ofTexts_eq_ok {a m : Bytes} {address netmask : AddressV4} (ha : fromString a = some address)
    (hm : fromString m = some netmask) :
    ofTexts fromString a m = .ok ⟨address &&& netmask, netmask⟩ := by
  rw [ofTexts, parseAddress, ha, parseAddress, hm]
  rfl

variable (fromString) in
/-- Reading the halves fails by an exception if it fails. -/
theorem ofTexts_cases (a m : Bytes) :
    (∃ address netmask, fromString a = some address ∧ fromString m = some netmask ∧
      ofTexts fromString a m = .ok ⟨address &&& netmask, netmask⟩) ∨
    ∃ e, ofTexts fromString a m = .error (.throws e) := by
  cases ha : fromString a with
  | none =>
    right
    rw [ofTexts, parseAddress, ha]
    exact ⟨_, rfl⟩
  | some address =>
    cases hm : fromString m with
    | none =>
      right
      rw [ofTexts, parseAddress, ha, parseAddress, hm]
      exact ⟨_, rfl⟩
    | some netmask => exact .inl ⟨address, netmask, rfl, rfl, ofTexts_eq_ok ha hm⟩

theorem read_of_ofTexts {a m : Bytes} {network : Network}
    (h : ofTexts fromString a m = .ok network) :
    ∃ address netmask, fromString a = some address ∧ fromString m = some netmask ∧
      network = ⟨address &&& netmask, netmask⟩ := by
  obtain ⟨address, netmask, ha, hm, hok⟩ | ⟨e, herror⟩ := ofTexts_cases fromString a m
  · exact ⟨address, netmask, ha, hm, Except.ok.inj (h.symm.trans hok)⟩
  · exact nomatch h.symm.trans herror

/-- What is accepted: both halves are read, and the address is masked. -/
theorem parse_eq_ok {s : Bytes} {network : Network} (h : parse fromString s = .ok network) :
    ∃ a m address netmask, fromString a = some address ∧ fromString m = some netmask ∧
      network = ⟨address &&& netmask, netmask⟩ ∧
      (chr '/' ∉ s ∧ a = s ∨ ∃ t, chr '/' ∉ a ∧ s = a ++ chr '/' :: t ∧ netmaskText t = .ok m) := by
  by_cases hslash : chr '/' ∈ s
  · obtain ⟨a, t, rfl, hnot⟩ := List.eq_append_cons_of_mem hslash
    rw [parse_slash hnot] at h
    obtain ⟨m, hm, hok⟩ := bind_eq_ok.mp h
    obtain ⟨address, netmask, haddress, hnetmask, heq⟩ := read_of_ofTexts hok
    exact ⟨a, m, address, netmask, haddress, hnetmask, heq, .inr ⟨t, hnot, rfl, hm⟩⟩
  · rw [parse_plain hslash] at h
    obtain ⟨address, netmask, haddress, hnetmask, heq⟩ := read_of_ofTexts h
    exact ⟨s, _, address, netmask, haddress, hnetmask, heq, .inl ⟨hslash, rfl⟩⟩

/-- A text too long for a prefix length is the mask. -/
theorem netmaskText_of_lt {t : Bytes} (h : 2 < t.length) : netmaskText t = .ok t :=
  if_neg (by omega)

theorem netmaskText_of_none {t : Bytes} (h : t.length ≤ 2) (hcast : toSigned 32 t = none) :
    netmaskText t = .error (.throws .badLexicalCast) := by
  rw [netmaskText, if_pos h, hcast]

theorem netmaskText_of_some {t : Bytes} (h : t.length ≤ 2) {count : Int}
    (hcast : toSigned 32 t = some count) :
    netmaskText t = if 0 ≤ count ∧ count < 64 then .ok (maskText count.toNat)
      else .error (.undefinedShift count) := by
  rw [netmaskText, if_pos h, hcast]

end ParseCases

/-! ## Prefix networks -/

section PrefixNetworks

variable {fromString : Bytes → Option AddressV4}

theorem slash_notMem_dottedText (a : AddressV4) : chr '/' ∉ dottedText a := by
  have hdecimal : ∀ n, chr '/' ∉ decimal n := by
    intro n h
    exact absurd (isDigit_of_mem_decimal h) (by decide)
  have hdot : chr '/' ∉ str "." := by decide
  simp only [dottedText, List.mem_append, hdecimal, hdot, or_self, not_false_eq_true]

theorem length_decimal_le {n : Nat} (h : n ≤ 32) : (decimal n).length ≤ 2 := by
  rcases Nat.lt_or_ge n 10 with hlt | hge
  · rw [decimal_of_lt hlt]
    exact Nat.le_succ 1
  · rw [decimal_of_ge hge, decimal_of_lt (by omega)]
    exact Nat.le_refl 2

theorem two_lt_length_dottedText (a : AddressV4) : 2 < (dottedText a).length := by
  have hdot : (str ".").length = 1 := rfl
  simp only [dottedText, List.length_append, hdot]
  omega

/-- The computed mask of `A/n`. -/
theorem netmaskText_decimal {n : Nat} (h : n ≤ 32) :
    netmaskText (decimal n) = .ok (dottedText (prefixMask 32 n)) := by
  have hcast : toSigned 32 (decimal n) = some (n : Int) := toSigned_decimal (by omega)
  rw [netmaskText_of_some (length_decimal_le h) hcast, if_pos (by omega), Int.toNat_natCast,
    maskText_of_le h]

/-- A dotted mask is taken as it stands. -/
theorem netmaskText_dottedText (mask : AddressV4) :
    netmaskText (dottedText mask) = .ok (dottedText mask) :=
  netmaskText_of_lt (two_lt_length_dottedText mask)

/-- The address of a parsed network is masked already. -/
theorem and_netmask_of_parse {s : Bytes} {network : Network}
    (h : parse fromString s = .ok network) :
    network.address &&& network.netmask = network.address := by
  obtain ⟨a, m, address, netmask, -, -, rfl, -⟩ := parse_eq_ok h
  show address &&& netmask &&& netmask = address &&& netmask
  rw [BitVec.and_assoc, BitVec.and_self]

/-- What a prefix network contains. -/
theorem contains_prefixMask (a x : AddressV4) {n : Nat} (h : n ≤ 32) :
    contains ⟨a &&& prefixMask 32 n, prefixMask 32 n⟩ x = true
      ↔ ∀ i < n, x.getMsbD i = a.getMsbD i :=
  beq_iff_eq.trans (and_prefixMask_eq_iff h x a)

variable (hfrom : ∀ a, fromString (dottedText a) = some a)
include hfrom

/-- Printed halves are read back. -/
theorem ofTexts_dottedText (a mask : AddressV4) :
    ofTexts fromString (dottedText a) (dottedText mask) = .ok ⟨a &&& mask, mask⟩ :=
  ofTexts_eq_ok (hfrom a) (hfrom mask)

theorem parse_decimal (a : AddressV4) {n : Nat} (h : n ≤ 32) :
    parse fromString (dottedText a ++ chr '/' :: decimal n)
      = .ok ⟨a &&& prefixMask 32 n, prefixMask 32 n⟩ := by
  rw [parse_slash (slash_notMem_dottedText a), netmaskText_decimal h]
  exact ofTexts_dottedText hfrom a _

theorem parse_dotted (a mask : AddressV4) :
    parse fromString (dottedText a ++ chr '/' :: dottedText mask) = .ok ⟨a &&& mask, mask⟩ := by
  rw [parse_slash (slash_notMem_dottedText a), netmaskText_dottedText]
  exact ofTexts_dottedText hfrom a mask

theorem parse_address (a : AddressV4) :
    parse fromString (dottedText a) = .ok ⟨a &&& prefixMask 32 32, prefixMask 32 32⟩ := by
  have htext : str "255.255.255.255" = dottedText (prefixMask 32 32) := by decide
  rw [parse_plain (slash_notMem_dottedText a), htext]
  exact ofTexts_dottedText hfrom a _

end PrefixNetworks

/-- **A prefix network is the addresses with its leading bits.**  For every address and every
    prefix length, `A/n` is accepted and contains the addresses that agree with `A` on the first
    `n` bits; it is the network of the dotted mask, an address alone is the network of length 32,
    and every network that was parsed is parsed again from its printed address and mask. -/
theorem parse_prefixLength {fromString : Bytes → Option AddressV4}
    (hfrom : ∀ a, fromString (dottedText a) = some a) :
    (∀ (a : AddressV4) (n : Nat), n ≤ 32 → ∃ network,
      parse fromString (dottedText a ++ str "/" ++ decimal n) = .ok network ∧
      (∀ x, network.contains x = true ↔ ∀ i < n, x.getMsbD i = a.getMsbD i) ∧
      parse fromString (dottedText a ++ str "/" ++ dottedText (prefixMask 32 n)) = .ok network) ∧
    (∀ a, parse fromString (dottedText a) = parse fromString (dottedText a ++ str "/32")) ∧
    ∀ s network, parse fromString s = .ok network →
      parse fromString (dottedText network.address ++ str "/" ++ dottedText network.netmask)
        = .ok network := by
  refine ⟨fun a n hn => ?_, fun a => ?_, fun s network h => ?_⟩
  · refine ⟨⟨a &&& prefixMask 32 n, prefixMask 32 n⟩, ?_, fun x => contains_prefixMask a x hn, ?_⟩
    · rw [slash_append, parse_decimal hfrom a hn]
    · rw [slash_append, parse_dotted hfrom]
  · have htext : str "/32" = chr '/' :: decimal 32 := by decide
    rw [htext, parse_decimal hfrom a (Nat.le_refl 32), parse_address hfrom]
  · rw [slash_append, parse_dotted hfrom, and_netmask_of_parse h]

/-- `10.1.2.3/8` is `10.0.0.0/255.0.0.0`. -/
theorem parse_prefixLength_eight : ∃ network,
    parse dottedQuad (dottedText 0x0A010203#32 ++ str "/" ++ decimal 8) = .ok network ∧
    (∀ x, network.contains x = true ↔ ∀ i < 8, x.getMsbD i = (0x0A010203#32).getMsbD i) ∧
    parse dottedQuad (dottedText 0x0A010203#32 ++ str "/" ++ dottedText (prefixMask 32 8))
      = .ok network :=
  (parse_prefixLength dottedQuad_dottedText).1 0x0A010203#32 8 (by decide)

example : parse dottedQuad (str "10.1.2.3/8")
    = .ok ⟨0x0A000000#32, 0xFF000000#32⟩ := by decide

/-! ## Malformed networks -/

/-- A prefix length: a number from 0 to 32. -/
def PrefixLength (t : Bytes) : Prop :=
  ∃ count : Int, toSigned 32 t = some count ∧ 0 ≤ count ∧ count ≤ 32

/-- The three forms of a network: an address, an address and a mask, an address and a prefix
    length. -/
def WellFormed (s : Bytes) : Prop :=
  DottedQuad s ∨ ∃ a t, s = a ++ str "/" ++ t ∧ DottedQuad a ∧ (DottedQuad t ∨ PrefixLength t)

/-- The text after the slash reaches the shift with a count it has no meaning for. -/
def ShiftsOutside (s : Bytes) : Prop :=
  ∃ a t count, chr '/' ∉ a ∧ s = a ++ str "/" ++ t ∧ t.length ≤ 2 ∧
    toSigned 32 t = some count ∧ ¬ (0 ≤ count ∧ count < 64)

/-- Each part of the text is one that its reader takes: an address, alone or followed by a slash
    and a mask, which is an address again or a prefix length in at most two characters. -/
def Legible (fromString : Bytes → Option AddressV4) (s : Bytes) : Prop :=
  chr '/' ∉ s ∧ (fromString s).isSome ∨
    ∃ a t, chr '/' ∉ a ∧ s = a ++ str "/" ++ t ∧ (fromString a).isSome ∧
      (2 < t.length ∧ (fromString t).isSome ∨ t.length ≤ 2 ∧ PrefixLength t)

/-- The text is legible, with a NUL in it: `from_string` stops there. -/
def HidesNul (fromString : Bytes → Option AddressV4) (s : Bytes) : Prop :=
  0 ∈ s ∧ Legible fromString s

/-- Malformed text ends in an exception, and so does every prefix length outside `0..32`. -/
structure RejectsMalformed (fromString : Bytes → Option AddressV4) (s : Bytes) : Prop where
  ends : (∃ e, parse fromString s = .error (.throws e)) ∨
    ∃ network, parse fromString s = .ok network ∧ WellFormed s
  outside : ∀ a t count, chr '/' ∉ a → s = a ++ str "/" ++ t → toSigned 32 t = some count →
    ¬ (0 ≤ count ∧ count ≤ 32) → ∃ e, parse fromString s = .error (.throws e)

/-- `from_string` as Boost has it: it reads the C string. -/
def fromCStr (t : Bytes) : Option AddressV4 := dottedQuad (cStr t)

theorem dottedQuad_of_fromCStr (t : Bytes) (a : AddressV4) (h : fromCStr t = some a) :
    DottedQuad (cStr t) := isDottedQuad_of_dottedQuad h

theorem zero_notMem_of_dottedQuad {t : Bytes} (h : DottedQuad t) : 0 ∉ t :=
  notMem_of_dottedQuad h (by decide) (by decide)

theorem zero_notMem_of_prefixLength {t : Bytes} (h : PrefixLength t) : 0 ∉ t := by
  obtain ⟨count, hcast, -⟩ := h
  exact notMem_of_toSigned hcast (by decide) (by decide) (by decide)

/-- No network has a NUL in its text. -/
theorem zero_notMem_of_wellFormed {s : Bytes} (h : WellFormed s) : 0 ∉ s := by
  rcases h with h | ⟨a, t, rfl, ha, ht⟩
  · exact zero_notMem_of_dottedQuad h
  · have htail : 0 ∉ t := by
      rcases ht with ht | ht
      · exact zero_notMem_of_dottedQuad ht
      · exact zero_notMem_of_prefixLength ht
    have hslash : (0 : UInt8) ∉ str "/" := by decide
    simp only [List.mem_append, zero_notMem_of_dottedQuad ha, hslash, htail, or_self,
      not_false_eq_true]

/-- Printed addresses are read back by it. -/
theorem fromCStr_dottedText (a : AddressV4) : fromCStr (dottedText a) = some a := by
  have hquad : DottedQuad (dottedText a) := isDottedQuad_of_dottedQuad (dottedQuad_dottedText a)
  rw [fromCStr, cStr_of_zero_notMem (zero_notMem_of_dottedQuad hquad), dottedQuad_dottedText]

section Malformed

variable {fromString : Bytes → Option AddressV4}

variable (fromString) in
/-- A count the shift has no meaning for ends the parse there. -/
theorem parse_of_shiftsOutside {s : Bytes} (h : ShiftsOutside s) :
    ∃ count, parse fromString s = .error (.undefinedShift count) := by
  obtain ⟨a, t, count, hslash, rfl, hlength, hcast, houtside⟩ := h
  refine ⟨count, ?_⟩
  rw [slash_append, parse_slash hslash, netmaskText_of_some hlength hcast, if_neg houtside]
  rfl

/-- Otherwise the mask is a text or an exception. -/
theorem netmaskText_cases {a t : Bytes} (hslash : chr '/' ∉ a)
    (h : ¬ ShiftsOutside (a ++ str "/" ++ t)) :
    (∃ m, netmaskText t = .ok m) ∨ ∃ e, netmaskText t = .error (.throws e) := by
  rcases Nat.lt_or_ge 2 t.length with hlong | hshort
  · exact .inl ⟨t, netmaskText_of_lt hlong⟩
  · cases hcast : toSigned 32 t with
    | none => exact .inr ⟨_, netmaskText_of_none hshort hcast⟩
    | some count =>
      have hinside : 0 ≤ count ∧ count < 64 := by
        by_contra houtside
        exact h ⟨a, t, count, hslash, rfl, hshort, hcast, houtside⟩
      exact .inl ⟨_, by rw [netmaskText_of_some hshort hcast, if_pos hinside]⟩

variable (fromString) in
/-- Then the parse ends with a network or an exception. -/
theorem parse_cases {s : Bytes} (h : ¬ ShiftsOutside s) :
    (∃ network, parse fromString s = .ok network) ∨
      ∃ e, parse fromString s = .error (.throws e) := by
  have hread : ∀ a m, (∃ network, ofTexts fromString a m = .ok network) ∨
      ∃ e, ofTexts fromString a m = .error (.throws e) := fun a m =>
    (ofTexts_cases fromString a m).imp_left fun ⟨address, netmask, _, _, hok⟩ => ⟨_, hok⟩
  by_cases hslash : chr '/' ∈ s
  · obtain ⟨a, t, rfl, hnot⟩ := List.eq_append_cons_of_mem hslash
    rw [parse_slash hnot]
    obtain ⟨m, hm⟩ | ⟨e, herror⟩ := netmaskText_cases hnot (by rwa [slash_append])
    · rw [hm]
      exact hread a m
    · rw [herror]
      exact .inr ⟨e, rfl⟩
  · rw [parse_plain hslash]
    exact hread s _

section Accepted

variable (hfrom : ∀ a, fromString (dottedText a) = some a)
include hfrom

/-- The mask of a prefix length is read. -/
theorem netmask_of_prefixLength {t : Bytes} (hlength : t.length ≤ 2) (h : PrefixLength t) :
    ∃ m netmask, netmaskText t = .ok m ∧ fromString m = some netmask := by
  obtain ⟨count, hcast, hpos, hle⟩ := h
  refine ⟨_, prefixMask 32 count.toNat, ?_, hfrom _⟩
  rw [netmaskText_of_some hlength hcast, if_pos ⟨hpos, by omega⟩, maskText_of_le (by omega)]

/-- What is legible is accepted. -/
theorem parse_of_legible {s : Bytes} (h : Legible fromString s) :
    ∃ network, parse fromString s = .ok network := by
  rcases h with ⟨hslash, ha⟩ | ⟨a, t, hslash, rfl, ha, ht⟩
  · obtain ⟨address, ha⟩ := Option.isSome_iff_exists.mp ha
    have htext : str "255.255.255.255" = dottedText 0xFFFFFFFF#32 := by decide
    rw [parse_plain hslash, htext]
    exact ⟨_, ofTexts_eq_ok ha (hfrom _)⟩
  · obtain ⟨address, ha⟩ := Option.isSome_iff_exists.mp ha
    have hmask : ∃ m netmask, netmaskText t = .ok m ∧ fromString m = some netmask := by
      rcases ht with ⟨hlong, ht⟩ | ⟨hshort, ht⟩
      · obtain ⟨netmask, ht⟩ := Option.isSome_iff_exists.mp ht
        exact ⟨t, netmask, netmaskText_of_lt hlong, ht⟩
      · exact netmask_of_prefixLength hfrom hshort ht
    obtain ⟨m, netmask, hm, hnetmask⟩ := hmask
    rw [slash_append, parse_slash hslash, hm]
    exact ⟨_, ofTexts_eq_ok ha hnetmask⟩

end Accepted

section Read

variable (hquad : ∀ t a, fromString t = some a → DottedQuad (cStr t))
include hquad

theorem dottedQuad_of_isSome {t : Bytes} (hzero : 0 ∉ t) (h : (fromString t).isSome) :
    DottedQuad t := by
  obtain ⟨a, ha⟩ := Option.isSome_iff_exists.mp h
  rw [← cStr_of_zero_notMem hzero]
  exact hquad t a ha

/-- A mask that is read comes from an address or from a prefix length. -/
theorem netmask_form {t m : Bytes} {netmask : AddressV4} (hm : netmaskText t = .ok m)
    (hread : fromString m = some netmask) :
    2 < t.length ∧ (fromString t).isSome ∨ t.length ≤ 2 ∧ PrefixLength t := by
  rcases Nat.lt_or_ge 2 t.length with hlong | hshort
  · rw [netmaskText_of_lt hlong] at hm
    obtain rfl := Except.ok.inj hm
    exact .inl ⟨hlong, hread ▸ rfl⟩
  · cases hcast : toSigned 32 t with
    | none =>
      rw [netmaskText_of_none hshort hcast] at hm
      exact nomatch hm
    | some count =>
      rw [netmaskText_of_some hshort hcast] at hm
      split at hm
      case isTrue hinside =>
        obtain rfl := Except.ok.inj hm
        refine .inr ⟨hshort, count, hcast, hinside.1, ?_⟩
        -- past 32 the first component is 256
        by_contra hlarge
        rw [maskText_of_lt (by omega)] at hread
        exact absurd (hquad _ _ hread) (by decide)
      case isFalse => exact nomatch hm

/-- What is accepted is legible. -/
theorem legible_of_parse {s : Bytes} {network : Network}
    (h : parse fromString s = .ok network) : Legible fromString s := by
  obtain ⟨a, m, address, netmask, haddress, hnetmask, -, hform⟩ := parse_eq_ok h
  obtain ⟨hslash, rfl⟩ | ⟨t, hslash, rfl, hm⟩ := hform
  · exact .inl ⟨hslash, haddress ▸ rfl⟩
  · exact .inr ⟨a, t, hslash, (slash_append a t).symm, haddress ▸ rfl,
      netmask_form hquad hm hnetmask⟩

/-- What is legible without a NUL is well formed. -/
theorem Legible.wellFormed {s : Bytes} (h : Legible fromString s) (hzero : 0 ∉ s) :
    WellFormed s := by
  rcases h with ⟨-, hs⟩ | ⟨a, t, -, rfl, ha, ht⟩
  · exact .inl (dottedQuad_of_isSome hquad hzero hs)
  · have hhead : 0 ∉ a := fun h => hzero (List.mem_append_left _ (List.mem_append_left _ h))
    have htail : 0 ∉ t := fun h => hzero (List.mem_append_right _ h)
    refine .inr ⟨a, t, rfl, dottedQuad_of_isSome hquad hhead ha, ?_⟩
    exact ht.imp (fun ht => dottedQuad_of_isSome hquad htail ht.2) And.right

/-- A number outside `0..32` behind the slash is not accepted, however it is written. -/
theorem not_ok_of_outside {a t : Bytes} {count : Int} (hslash : chr '/' ∉ a)
    (hcast : toSigned 32 t = some count) (houtside : ¬ (0 ≤ count ∧ count ≤ 32))
    (network : Network) : parse fromString (a ++ str "/" ++ t) ≠ .ok network := by
  intro h
  rw [slash_append, parse_slash hslash] at h
  obtain ⟨m, hm, hok⟩ := bind_eq_ok.mp h
  obtain ⟨address, netmask, -, hnetmask, -⟩ := read_of_ofTexts hok
  obtain ⟨-, htext⟩ | ⟨-, count', hcast', hinside⟩ := netmask_form hquad hm hnetmask
  · have hzero : 0 ∉ t := notMem_of_toSigned hcast (by decide) (by decide) (by decide)
    exact not_dottedQuad_of_toSigned hcast (dottedQuad_of_isSome hquad hzero htext)
  · obtain rfl := Option.some.inj (hcast.symm.trans hcast')
    exact houtside hinside

end Read

end Malformed

/-- **Malformed networks are rejected, but for the counts that C++ cannot shift by and for what
    stands behind a NUL.**  Whatever is accepted is well formed, and every prefix length outside
    `0..32` ends in an exception, exactly when the text after the slash is not a number below 0 or
    above 63 in at most two characters (such a number is the count of a 64-bit shift), and the text
    is not legible with a NUL in it. -/
theorem rejectsMalformed_iff {fromString : Bytes → Option AddressV4}
    (hfrom : ∀ a, fromString (dottedText a) = some a)
    (hquad : ∀ t a, fromString t = some a → DottedQuad (cStr t)) (s : Bytes) :
    RejectsMalformed fromString s ↔ ¬ ShiftsOutside s ∧ ¬ HidesNul fromString s := by
  constructor
  · intro h
    refine ⟨fun hshift => ?_, fun ⟨hzero, hlegible⟩ => ?_⟩
    · obtain ⟨count, hparse⟩ := parse_of_shiftsOutside fromString hshift
      obtain ⟨e, herror⟩ | ⟨network, hok, -⟩ := h.ends
      · exact nomatch hparse.symm.trans herror
      · exact nomatch hparse.symm.trans hok
    · obtain ⟨network, hparse⟩ := parse_of_legible hfrom hlegible
      obtain ⟨e, herror⟩ | ⟨network, -, hwell⟩ := h.ends
      · exact nomatch hparse.symm.trans herror
      · exact zero_notMem_of_wellFormed hwell hzero
  · rintro ⟨hshift, hnul⟩
    refine ⟨?_, ?_⟩
    · obtain ⟨network, hok⟩ | hthrows := parse_cases fromString hshift
      · have hlegible := legible_of_parse hquad hok
        exact .inr ⟨network, hok, hlegible.wellFormed hquad fun hzero => hnul ⟨hzero, hlegible⟩⟩
      · exact .inl hthrows
    · rintro a t count hslash rfl hcast houtside
      obtain ⟨network, hok⟩ | hthrows := parse_cases fromString hshift
      · exact absurd hok (not_ok_of_outside hquad hslash hcast houtside network)
      · exact hthrows

/-- Prefix length 33 is rejected: its mask would start with 256. -/
theorem rejectsMalformed_thirtyThree : RejectsMalformed fromCStr (str "10.0.0.0/33") := by
  refine (rejectsMalformed_iff fromCStr_dottedText dottedQuad_of_fromCStr _).mpr ⟨?_, ?_⟩
  · rintro ⟨a, t, count, hslash, heq, -, hcast, houtside⟩
    have hsplit : str "10.0.0.0" ++ chr '/' :: str "33" = a ++ chr '/' :: t :=
      (slash_append (str "10.0.0.0") (str "33")).symm.trans (heq.trans (slash_append a t))
    obtain ⟨-, rfl⟩ := append_cons_inj (by decide) hslash hsplit
    have hcount : toSigned 32 (str "33") = some 33 := by decide
    obtain rfl := Option.some.inj (hcount.symm.trans hcast)
    exact houtside (by decide)
  · rintro ⟨hzero, -⟩
    exact absurd hzero (by decide)

/-- Prefix length 64 is not: the shift is by 64. -/
theorem sixtyFour_not_rejectsMalformed :
    parse fromCStr (str "10.0.0.0/64") = .error (.undefinedShift 64) ∧
      ¬ RejectsMalformed fromCStr (str "10.0.0.0/64") := by
  have hparse : parse fromCStr (str "10.0.0.0/64") = .error (.undefinedShift 64) := by decide
  refine ⟨hparse, fun h => ?_⟩
  obtain ⟨e, herror⟩ | ⟨network, hok, -⟩ := h.ends
  · exact nomatch hparse.symm.trans herror
  · exact nomatch hparse.symm.trans hok

example : parse fromCStr (str "10.1.2.3" ++ [0, chr 'x'])
    = .ok ⟨0x0A010203#32, 0xFFFFFFFF#32⟩ := by decide

end Network

end ThreadServer
