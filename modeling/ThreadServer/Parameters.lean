/-
  Request parameters: `Parameters_t` and `MimeParameters_t` (`cpphttphandler.h`,
  `cpphttphandler.cc`).

  1. **`unescape`** is translated with its loop and its reads.  `s[k]` is defined for `k ≤ s.size()`
     only (`at?`), `s.size() - 2` wraps around for strings shorter than two, and running out of
     iterations is a result of its own, so `unescape?` says whether the loop ends and stays in
     bounds.  It always does, and what it computes is the leftmost decoding (`unescape?_eq`).
  2. **`parse`** splits at `&`, each piece at its first `=`, and appends the unescaped value under
     the unescaped name.
  3. **Decoding inverts encoding** (`parse_encoded`): the parameters parsed from any form encoding
     of a list of pairs hold, under every name, exactly the values paired with it, in order.
  4. **`parseMime`** files the parts that `mimetic` splits a multipart body into; that library is
     the parameter `Mimetic`.
-/
import ThreadServer.Error
import ThreadServer.Lib.FormEncoding
import ThreadServer.Lib.StdMap

namespace ThreadServer

open Bytes FormEncoding

namespace Parameters

/-! ## `unescape` -/

/-- `unhex`. -/
def unhex (c : UInt8) : Except Exn Nat :=
  if c ≥ chr '0' ∧ c ≤ chr '9' then .ok (c.toNat - (chr '0').toNat)
  else if c ≥ chr 'a' ∧ c ≤ chr 'f' then .ok (c.toNat - (chr 'a').toNat + 0xa)
  else if c ≥ chr 'A' ∧ c ≤ chr 'F' then .ok (c.toNat - (chr 'A').toNat + 0xa)
  else .error (.std (str "invalid hex digit"))

/-- `s[k]` of a `const std::string`: its terminating NUL at `k = s.size()`, undefined beyond. -/
def at? (s : Bytes) (k : Nat) : Option UInt8 := (s ++ [0])[k]?

/-- `s.size() - 2`, computed in `size_t`. -/
def sizeMinusTwo (s : Bytes) : Nat := if 2 ≤ s.length then s.length - 2 else 2 ^ 64 + s.length - 2

/-- The `try` block of `unescape`: the byte spelt by the two characters after index `i`, or the
    exception thrown by the first of them that is no digit (before the second is read). -/
def hexAt? (s : Bytes) (i : Nat) : Option (Except Exn UInt8) := do
  match unhex (← at? s (i + 1)) with
  | .error e => some (.error e)
  | .ok d1 =>
    match unhex (← at? s (i + 2)) with
    | .error e => some (.error e)
    | .ok d2 => some (.ok (UInt8.ofNat (d1 * 16 + d2)))

/-- The loop of `unescape` from index `i`, for at most `fuel` iterations. -/
def unescapeLoop (s : Bytes) : Nat → Nat → Bytes → Option Bytes
  | 0, _, _ => none
  | fuel + 1, i, result =>
    if i < s.length then do
      let c ← at? s i
      if c = chr '+' then unescapeLoop s fuel (i + 1) (result ++ [chr ' '])
      else if c = chr '%' ∧ i < sizeMinusTwo s then
        match ← hexAt? s i with
        | .ok byte => unescapeLoop s fuel (i + 2 + 1) (result ++ [byte])
        | .error _ => unescapeLoop s fuel (i + 1) (result ++ [c])
      else unescapeLoop s fuel (i + 1) (result ++ [c])
    else some result

/-- `unescape`, unless it reads out of bounds or takes more iterations than there are indices. -/
def unescape? (s : Bytes) : Option Bytes := unescapeLoop s (s.length + 1) 0 []

/-- `unhex` reads hexadecimal digits of either case and throws on everything else. -/
theorem unhex_eq (c : UInt8) : (unhex c).toOption = hexValue? c := by
  unfold unhex hexValue?
  split
  · rfl
  split
  · rename_i h
    have hle : 97 ≤ c.toNat := UInt8.le_iff_toNat_le.mp h.1
    simp [Except.toOption]
    omega
  split
  · rename_i h
    have hle : 65 ≤ c.toNat := UInt8.le_iff_toNat_le.mp h.1
    simp [Except.toOption]
    omega
  · rfl

theorem at?_of_lt {s : Bytes} {k : Nat} (h : k < s.length) : at? s k = some s[k] := by
  rw [at?, List.getElem?_append_left h, List.getElem?_eq_getElem h]

/-- With two characters left, the `try` block reads them and yields the byte they spell, if any. -/
theorem hexAt?_of_lt {s : Bytes} {i : Nat} (h : i + 2 < s.length) :
    ∃ r, hexAt? s i = some r ∧ r.toOption = hexByte? s[i + 1] s[i + 2] := by
  have h1 : i + 1 < s.length := by omega
  rw [hexAt?, at?_of_lt h1, at?_of_lt h, hexByte?, ← unhex_eq, ← unhex_eq]
  cases hd1 : unhex s[i + 1] with
  | error e => exact ⟨.error e, by simp [hd1], rfl⟩
  | ok d1 =>
    cases hd2 : unhex s[i + 2] with
    | error e => exact ⟨.error e, by simp [hd1, hd2], rfl⟩
    | ok d2 => exact ⟨.ok _, by simp [hd1, hd2], rfl⟩

/-- At the end of the string the `try` block meets the terminating NUL and reads no further. -/
theorem hexAt?_last {s : Bytes} {i : Nat} (h : i + 1 = s.length) :
    ∃ e, hexAt? s i = some (.error e) := by
  have hnul : at? s (i + 1) = some 0 := by rw [at?, h, List.getElem?_concat_length]
  exact ⟨_, by rw [hexAt?, hnul]; rfl⟩

/-- **The loop** appends the decoding of what is left, in bounds and within the iterations left. -/
theorem unescapeLoop_eq {s : Bytes} {fuel i : Nat} (result : Bytes) (hi : i ≤ s.length)
    (hfuel : s.length - i < fuel) :
    unescapeLoop s fuel i result = some (result ++ decode (s.drop i)) := by
  induction fuel generalizing i result with
  | zero => exact absurd hfuel (Nat.not_lt_zero _)
  | succ fuel ih =>
    rw [unescapeLoop]
    by_cases hlt : i < s.length
    case neg =>
      rw [if_neg hlt, List.drop_eq_nil_of_le (by omega), decode_nil, List.append_nil]
    rw [if_pos hlt, at?_of_lt hlt, List.drop_eq_getElem_cons hlt]
    have hnext : ∀ result, unescapeLoop s fuel (i + 1) result
        = some (result ++ decode (s.drop (i + 1))) :=
      fun result => ih result (by omega) (by omega)
    show (if s[i] = chr '+' then _ else _) = _
    by_cases hplus : s[i] = chr '+'
    · rw [if_pos hplus, hnext, hplus, decode_plus, List.append_assoc, List.singleton_append]
    rw [if_neg hplus]
    by_cases hpercent : s[i] = chr '%'
    case neg =>
      rw [if_neg (fun h => hpercent h.1), hnext, decode_plain hplus hpercent, List.append_assoc,
        List.singleton_append]
    by_cases htwo : i + 2 < s.length
    · -- two characters follow
      have hless : i < sizeMinusTwo s := by
        rw [sizeMinusTwo, if_pos (by omega)]
        omega
      have hdrop : s.drop (i + 1) = s[i + 1] :: s[i + 2] :: s.drop (i + 2 + 1) := by
        rw [List.drop_eq_getElem_cons (by omega), List.drop_eq_getElem_cons htwo]
      obtain ⟨r, hr, hbyte⟩ := hexAt?_of_lt htwo
      rw [if_pos ⟨hpercent, hless⟩, hr, hpercent]
      cases r with
      | ok byte =>
        show unescapeLoop s fuel (i + 2 + 1) (result ++ [byte]) = _
        rw [ih _ (by omega) (by omega), hdrop, decode_percent hbyte.symm, List.append_assoc,
          List.singleton_append]
      | error e =>
        show unescapeLoop s fuel (i + 1) (result ++ [chr '%']) = _
        rw [hnext, hdrop, decode_percent_none hbyte.symm, ← hdrop, List.append_assoc,
          List.singleton_append]
    · -- at most one does; only in a string of size one is the `try` block entered all the same
      have hshort : (s.drop (i + 1)).length < 2 := by
        rw [List.length_drop]
        omega
      rw [hpercent, decode_percent_short hshort]
      by_cases hless : i < sizeMinusTwo s
      · have hlast : i + 1 = s.length := by
          rw [sizeMinusTwo] at hless
          split at hless <;> omega
        obtain ⟨e, he⟩ := hexAt?_last hlast
        rw [if_pos ⟨rfl, hless⟩, he]
        show unescapeLoop s fuel (i + 1) (result ++ [chr '%']) = _
        rw [hnext, List.append_assoc, List.singleton_append]
      · rw [if_neg (fun h => hless h.2), hnext, List.append_assoc, List.singleton_append]

/-- **`unescape` ends, stays in bounds, and computes the leftmost decoding.** -/
theorem unescape?_eq (s : Bytes) : unescape? s = some (decode s) := by
  rw [unescape?, unescapeLoop_eq [] (Nat.zero_le _) (by omega), List.nil_append, List.drop_zero]

/-- **`unescape` decodes every string**, malformed ones included: its loop ends without a read
    behind the terminating NUL, and what it returns is the one text that the string decodes to. -/
theorem unescape_leftmost (s : Bytes) :
    ∃ t, unescape? s = some t ∧ Decodes s t ∧ ∀ t', Decodes s t' → t' = t :=
  ⟨decode s, unescape?_eq s, decodes_decode s, fun _ h => (decodes_iff.mp h).symm⟩

example : unescape? (str "%") = some (str "%") := by decide
example : unescape? (str "a+%7E%zz") = some (str "a ~%zz") := by decide

/-- `unescape`. -/
def unescape (s : Bytes) : Bytes :=
  (unescape? s).get (by rw [unescape?_eq]; rfl)

theorem unescape_eq (s : Bytes) : unescape s = decode s :=
  Option.get_of_eq_some _ (unescape?_eq s)

end Parameters

/-! ## `Parameters_t` -/

/-- `Parameters_t`: the values recorded under each name, in order. -/
structure Parameters where
  data : StdMap Bytes (List Bytes)

namespace Parameters

/-- `Parameters_t()`. -/
def empty : Parameters where
  data := ∅

/-- The body of `parse`'s loop over the tokens. -/
def parseToken (params : Parameters) (t : Bytes) : Parameters :=
  match find (chr '=') t with
  | none => { data := params.data.pushBack (unescape t) [] }
  | some pos =>
    { data := params.data.pushBack (unescape (substr t 0 pos)) (unescape (substrFrom t (pos + 1))) }

/-- `parse`. -/
def parse (params : Parameters) (text : Bytes) : Parameters :=
  (tokens (chr '&') text).foldl parseToken params

/-- A token is recorded with a value. -/
theorem filled_parseToken {params : Parameters} (h : params.data.Filled) (t : Bytes) :
    (params.parseToken t).data.Filled := by
  unfold parseToken
  split
  · exact h.pushBack _ _
  · exact h.pushBack _ _

theorem filled_parse {params : Parameters} (h : params.data.Filled) (text : Bytes) :
    (params.parse text).data.Filled := by
  unfold parse
  induction tokens (chr '&') text generalizing params with
  | nil => exact h
  | cons t ts ih => exact ih (filled_parseToken h t)

variable {α : Type}

/-- `getFirst<T_t>(name)`, with `cast` for the conversion to `T_t`; `none` if it takes the front of
    an empty list. -/
def getFirst (cast : Bytes → Except Exn α) (params : Parameters) (name : Bytes) :
    Option (Except Exn (Option α)) :=
  match params.data[name]? with
  | none => some (.ok none)
  | some [] => none
  | some (value :: _) => some ((cast value).map some)

/-- `get<T_t>(name)`. -/
def get (cast : Bytes → Except Exn α) (params : Parameters) (name : Bytes) : Except Exn (List α) :=
  match params.data[name]? with
  | none => .ok []
  | some values => values.mapM cast

/-! ## Parsing an encoded form -/

/-- The values that a list of pairs has under `name`, in order. -/
def valuesOf (name : Bytes) (pairs : List (Bytes × Bytes)) : List Bytes :=
  (pairs.filter (·.1 = name)).map (·.2)

theorem valuesOf_cons (name : Bytes) (pair : Bytes × Bytes) (pairs : List (Bytes × Bytes)) :
    valuesOf name (pair :: pairs) =
      if name = pair.1 then pair.2 :: valuesOf name pairs else valuesOf name pairs := by
  by_cases h : name = pair.1
  · rw [if_pos h, valuesOf, List.filter_cons_of_pos (by simp [h]), List.map_cons, valuesOf]
  · rw [if_neg h, valuesOf, List.filter_cons_of_neg (by simpa using Ne.symm h), valuesOf]

/-- The step lemma: an encoded pair appends its value under its name. -/
theorem parseToken_encoded {pair : Bytes × Bytes} {t : Bytes} (h : EncodesPair pair t)
    (params : Parameters) :
    params.parseToken t = { data := params.data.pushBack pair.1 pair.2 } := by
  obtain ⟨name, value, hname, hvalue, rfl⟩ := h
  simp only [parseToken, find_append_cons value hname.no_marks.2, substr_append,
    substrFrom_append_cons, unescape_eq, hname.decode, hvalue.decode]

/-- The run lemma: the encoded pairs append their values under their names. -/
theorem foldl_parseToken_encoded {pairs : List (Bytes × Bytes)} {ts : List Bytes}
    (h : List.Forall₂ EncodesPair pairs ts) (params : Parameters) (name : Bytes) :
    (ts.foldl parseToken params).data[name]? =
      if valuesOf name pairs = [] then params.data[name]?
      else some (params.data[name]?.getD [] ++ valuesOf name pairs) := by
  induction h generalizing params with
  | nil => rfl
  | @cons pair t pairs ts hpair _ ih =>
    rw [List.foldl_cons, ih, parseToken_encoded hpair, StdMap.getElem?_pushBack, valuesOf_cons]
    by_cases hname : name = pair.1
    · subst hname
      by_cases hvalues : valuesOf pair.1 pairs = []
      · simp [hvalues]
      · simp [hvalues]
    · rw [if_neg hname, if_neg hname]

/-- Parsing an encoded form adds its values behind those already there. -/
theorem lookup_parse {pairs : List (Bytes × Bytes)} {text : Bytes} (h : EncodesForm pairs text)
    (params : Parameters) (name : Bytes) :
    (params.parse text).data[name]? =
      if valuesOf name pairs = [] then params.data[name]?
      else some (params.data[name]?.getD [] ++ valuesOf name pairs) :=
  foldl_parseToken_encoded h.tokens params name

/-- **Parsing inverts every form encoding**: under each name stand exactly the values paired with
    it, in their order, and a name that no pair has is absent. -/
theorem parse_encoded {pairs : List (Bytes × Bytes)} {text : Bytes} (h : EncodesForm pairs text)
    (name : Bytes) :
    (empty.parse text).data[name]? =
      if valuesOf name pairs = [] then none else some (valuesOf name pairs) := by
  rw [lookup_parse h]
  simp [empty]

/-- Two pairs of one name, the first with a separator and a space in its value. -/
theorem parse_encoded_two :
    EncodesForm [(str "a", str "1&2 3"), (str "a", [])] (str "a=1%262+3&a=") ∧
      (empty.parse (str "a=1%262+3&a=")).data[str "a"]? = some [str "1&2 3", []] := by
  have ha : Encodes (str "a") (str "a") := .cons (.raw (by decide)) .nil
  have hvalue : Encodes (str "1&2 3") (str "1%262+3") :=
    .cons (.raw (by decide)) (.cons (.hex (Or.inl (by decide)) (Or.inl (by decide)))
      (.cons (.raw (by decide)) (.cons .plus (.cons (.raw (by decide)) .nil))))
  have hform : EncodesForm [(str "a", str "1&2 3"), (str "a", [])] (str "a=1%262+3&a=") := by
    refine ⟨[str "a=1%262+3", str "a="], .cons ?_ (.cons ?_ .nil), by decide⟩
    · exact ⟨_, _, ha, hvalue, by decide⟩
    · exact ⟨_, _, ha, .nil, by decide⟩
  exact ⟨hform, (parse_encoded hform (str "a")).trans (by decide)⟩

/-- What a method reads with `get` is what the form was encoded from, name by name; of the values
    it may read the first with `getFirst`. -/
theorem get_parse_encoded {pairs : List (Bytes × Bytes)} {text : Bytes}
    (h : EncodesForm pairs text) (name : Bytes) :
    (empty.parse text).get .ok name = .ok (valuesOf name pairs) ∧
      (empty.parse text).getFirst .ok name = some (.ok (valuesOf name pairs).head?) := by
  have hmapM : ∀ values : List Bytes,
      values.mapM (Except.ok : Bytes → Except Exn Bytes) = .ok values :=
    fun values => (List.mapM_pure (f := id)).trans (congrArg Except.ok (List.map_id values))
  rw [get, getFirst, lookup_parse h]
  cases hvalues : valuesOf name pairs with
  | nil => exact ⟨rfl, rfl⟩
  | cons value values => exact ⟨hmapM _, rfl⟩

/-! ## Parsing in pieces -/

/-- Text behind a separator is parsed after the text before it. -/
theorem parse_append (params : Parameters) (a b : Bytes) :
    params.parse (a ++ str "&" ++ b) = (params.parse a).parse b := by
  have hseparator : a ++ str "&" ++ b = a ++ chr '&' :: b := List.append_assoc a _ b
  rw [hseparator, parse, tokens_append_cons, List.foldl_append]
  rfl

/-- Separators alone say nothing. -/
theorem parse_separators (params : Parameters) {text : Bytes} (h : ∀ c ∈ text, c = chr '&') :
    params.parse text = params := by
  rw [parse, tokens_delimiters h]
  rfl

/-- The name that a segment of a query stands for. -/
def segmentName (segment : Bytes) : Bytes :=
  match find (chr '=') segment with
  | none => unescape segment
  | some pos => unescape (substr segment 0 pos)

/-- A segment appends one value under its name. -/
theorem parseToken_eq (segment : Bytes) :
    ∃ value, ∀ params : Parameters,
      params.parseToken segment
        = { data := params.data.pushBack (segmentName segment) value } := by
  unfold parseToken segmentName
  cases find (chr '=') segment with
  | none => exact ⟨_, fun _ => rfl⟩
  | some pos => exact ⟨_, fun _ => rfl⟩

theorem parseToken_comm (params : Parameters) {s t : Bytes} (h : segmentName s ≠ segmentName t) :
    (params.parseToken s).parseToken t = (params.parseToken t).parseToken s := by
  obtain ⟨value, hs⟩ := parseToken_eq s
  obtain ⟨value', ht⟩ := parseToken_eq t
  rw [hs, ht, ht, hs]
  exact congrArg Parameters.mk (StdMap.pushBack_comm params.data h value value')

/-- A query given by its segments. -/
theorem parse_intercalate (params : Parameters) (segments : List Bytes) :
    params.parse ((str "&").intercalate segments)
      = segments.foldl (fun params segment => params.parse segment) params := by
  have hjoin : tokens (chr '&') ((str "&").intercalate segments)
      = segments.flatMap (tokens (chr '&')) := tokens_intercalate_flatMap _ segments
  rw [parse, hjoin, List.foldl_flatMap]
  rfl

/-- Neighbours that decode to different names can change places. -/
theorem parse_swap (params : Parameters) (before after : List Bytes) {s t : Bytes}
    (hs : chr '&' ∉ s) (ht : chr '&' ∉ t) (h : segmentName s ≠ segmentName t) :
    params.parse ((str "&").intercalate (before ++ s :: t :: after))
      = params.parse ((str "&").intercalate (before ++ t :: s :: after)) := by
  have hswap : ∀ params : Parameters, (params.parse s).parse t = (params.parse t).parse s := by
    intro params
    rw [parse, parse, parse, parse, tokens_of_notMem hs, tokens_of_notMem ht]
    by_cases hsempty : s = []
    · rw [if_pos hsempty]
      rfl
    by_cases htempty : t = []
    · rw [if_pos htempty]
      rfl
    · rw [if_neg hsempty, if_neg htempty]
      exact params.parseToken_comm h
  rw [parse_intercalate, parse_intercalate, List.foldl_append, List.foldl_append,
    List.foldl_cons, List.foldl_cons, List.foldl_cons, List.foldl_cons, hswap]

end Parameters

/-! ## `MimeParameters_t` -/

/-- One part of a multipart body, as `mimetic` presents it. -/
structure MimePart where
  type : Bytes
  subtype : Bytes
  /-- The parameters of its content disposition. -/
  paramList : List (Bytes × Bytes)
  /-- The mechanism of its content transfer encoding. -/
  mechanism : Bytes
  body : Bytes

/-- What `parseMime` uses of `mimetic`. -/
structure Mimetic where
  parts : Bytes → List MimePart
  base64Decoder : Bytes → Bytes
  qpDecoder : Bytes → Bytes

/-- `==` of `mimetic::istring`s, which ignore the case of ASCII letters. -/
def istringEq (a b : Bytes) : Bool :=
  let lower (c : UInt8) : UInt8 := if chr 'A' ≤ c ∧ c ≤ chr 'Z' then c + 32 else c
  a.map lower = b.map lower

/-- `MimeParameters_t::File_t`. -/
structure File where
  data : Bytes
  contentType : Bytes
  filename : Bytes
  deriving DecidableEq

/-- `MimeParameters_t`. -/
structure MimeParameters extends Parameters where
  fileData : StdMap Bytes (List File)

namespace MimeParameters

/-- `MimeParameters_t()`. -/
def empty : MimeParameters where
  data := ∅
  fileData := ∅

/-- `parse`, inherited. -/
def parse (params : MimeParameters) (text : Bytes) : MimeParameters :=
  { params with toParameters := params.toParameters.parse text }

/-- The last value in a part's disposition whose key is `key`, or the empty string. -/
def dispositionValue (part : MimePart) (key : Bytes) : Bytes :=
  part.paramList.foldl (fun value param => if istringEq param.1 key then param.2 else value) []

/-- The body of a part, decoded by the mechanism its header names. -/
def decodedBody (mimetic : Mimetic) (part : MimePart) : Bytes :=
  if istringEq part.mechanism (str "Base64") then mimetic.base64Decoder part.body
  else if istringEq part.mechanism (str "Quoted-Printable") then mimetic.qpDecoder part.body
  else part.body

/-- The body of `parseMime`'s loop over the parts. -/
def parsePart (mimetic : Mimetic) (params : MimeParameters) (part : MimePart) : MimeParameters :=
  let name := dispositionValue part (str "name")
  let file : File := {
    data := decodedBody mimetic part
    contentType := part.type ++ str "/" ++ part.subtype
    filename := dispositionValue part (str "filename") }
  if file.filename = [] ∧ file.contentType = str "/" then
    { params with data := params.data.pushBack name file.data }
  else { params with fileData := params.fileData.pushBack name file }

/-- `parseMime`. -/
def parseMime (mimetic : Mimetic) (params : MimeParameters) (text : Bytes) : MimeParameters :=
  (mimetic.parts text).foldl (parsePart mimetic) params

/-- The inherited `parse` takes the joined text in one pass too; the files stay. -/
theorem parse_append (params : MimeParameters) (a b : Bytes) :
    params.parse (a ++ str "&" ++ b) = (params.parse a).parse b := by
  unfold parse
  rw [Parameters.parse_append]

/-! ## Every part is added once -/

/-- `getFiles`. -/
def getFiles (params : MimeParameters) (name : Bytes) : List File :=
  match params.fileData[name]? with
  | none => []
  | some files => files

/-- A part with neither a filename nor a content type. -/
def IsField (part : MimePart) : Prop :=
  dispositionValue part (str "filename") = [] ∧ part.type = [] ∧ part.subtype = []

instance (part : MimePart) : Decidable (IsField part) := inferInstanceAs (Decidable (_ ∧ _))

/-- The values that the parts add under `name`, in order. -/
def fieldValues (mimetic : Mimetic) (name : Bytes) (parts : List MimePart) : List Bytes :=
  (parts.filter fun part => IsField part ∧ dispositionValue part (str "name") = name).map
    (decodedBody mimetic)

/-- A part as a file. -/
def fileOf (mimetic : Mimetic) (part : MimePart) : File where
  data := decodedBody mimetic part
  contentType := part.type ++ str "/" ++ part.subtype
  filename := dispositionValue part (str "filename")

/-- The files that the parts add under `name`, in order. -/
def filesOf (mimetic : Mimetic) (name : Bytes) (parts : List MimePart) : List File :=
  (parts.filter fun part => ¬ IsField part ∧ dispositionValue part (str "name") = name).map
    (fileOf mimetic)

/-- A content type of a slash only is none. -/
theorem contentType_eq_slash_iff (part : MimePart) :
    part.type ++ str "/" ++ part.subtype = str "/" ↔ part.type = [] ∧ part.subtype = [] := by
  constructor
  · intro h
    have hlength := congrArg List.length h
    rw [List.length_append, List.length_append] at hlength
    have hslash : (str "/").length = 1 := rfl
    exact ⟨List.eq_nil_of_length_eq_zero (by omega), List.eq_nil_of_length_eq_zero (by omega)⟩
  · rintro ⟨htype, hsubtype⟩
    rw [htype, hsubtype]
    rfl

/-- What one part does: it goes to one of the two maps. -/
theorem parsePart_eq (mimetic : Mimetic) (params : MimeParameters) (part : MimePart) :
    parsePart mimetic params part =
      if IsField part then
        { params with
          data := params.data.pushBack (dispositionValue part (str "name"))
            (decodedBody mimetic part) }
      else
        { params with
          fileData := params.fileData.pushBack (dispositionValue part (str "name"))
            (fileOf mimetic part) } := by
  have hfield : IsField part ↔ dispositionValue part (str "filename") = [] ∧
      part.type ++ str "/" ++ part.subtype = str "/" := by
    rw [contentType_eq_slash_iff, IsField]
  simp only [hfield]
  rfl

/-- What one part does to the values of a name. -/
theorem data_parsePart (mimetic : Mimetic) (name : Bytes) (params : MimeParameters)
    (part : MimePart) :
    (parsePart mimetic params part).data[name]? =
      if decide (IsField part ∧ dispositionValue part (str "name") = name) then
        some (params.data[name]?.getD [] ++ [decodedBody mimetic part])
      else params.data[name]? := by
  have hdata : (parsePart mimetic params part).data = if IsField part then
      params.data.pushBack (dispositionValue part (str "name")) (decodedBody mimetic part)
      else params.data := by
    rw [parsePart_eq]
    by_cases hfield : IsField part
    · rw [if_pos hfield, if_pos hfield]
    · rw [if_neg hfield, if_neg hfield]
  rw [hdata]
  exact StdMap.getElem?_ite_pushBack _ _ _ _ _

/-- What one part does to the files of a name. -/
theorem fileData_parsePart (mimetic : Mimetic) (name : Bytes) (params : MimeParameters)
    (part : MimePart) :
    (parsePart mimetic params part).fileData[name]? =
      if decide (¬ IsField part ∧ dispositionValue part (str "name") = name) then
        some (params.fileData[name]?.getD [] ++ [fileOf mimetic part])
      else params.fileData[name]? := by
  have hfiles : (parsePart mimetic params part).fileData = if ¬ IsField part then
      params.fileData.pushBack (dispositionValue part (str "name")) (fileOf mimetic part)
      else params.fileData := by
    rw [parsePart_eq]
    by_cases hfield : IsField part
    · rw [if_pos hfield, if_neg (not_not_intro hfield)]
    · rw [if_neg hfield, if_pos hfield]
  rw [hfiles]
  exact StdMap.getElem?_ite_pushBack _ _ _ _ _

theorem getFiles_eq (params : MimeParameters) (name : Bytes) :
    params.getFiles name = params.fileData[name]?.getD [] := by
  unfold getFiles
  cases params.fileData[name]? with
  | none => rfl
  | some files => rfl

/-- **`parseMime` adds each part once.**  Behind the values and the files that a name had stand
    those of its parts, in the order of the parts; a part without a filename and a content type is a
    value, every other part a file; and a name that no part has keeps what it had. -/
theorem parseMime_adds (mimetic : Mimetic) (params : MimeParameters) (text name : Bytes) :
    ((params.parseMime mimetic text).data[name]? =
      if fieldValues mimetic name (mimetic.parts text) = [] then params.data[name]?
      else some (params.data[name]?.getD [] ++ fieldValues mimetic name (mimetic.parts text))) ∧
    ((params.parseMime mimetic text).fileData[name]? =
      if filesOf mimetic name (mimetic.parts text) = [] then params.fileData[name]?
      else some (params.fileData[name]?.getD [] ++ filesOf mimetic name (mimetic.parts text))) ∧
    (params.parseMime mimetic text).getFiles name
      = params.getFiles name ++ filesOf mimetic name (mimetic.parts text) := by
  have hdata := StdMap.lookup_foldl (fun params : MimeParameters => params.data[name]?)
    (parsePart mimetic) _ (decodedBody mimetic) (data_parsePart mimetic name) (mimetic.parts text)
    params
  have hfiles := StdMap.lookup_foldl (fun params : MimeParameters => params.fileData[name]?)
    (parsePart mimetic) _ (fileOf mimetic) (fileData_parsePart mimetic name) (mimetic.parts text)
    params
  refine ⟨hdata, hfiles, ?_⟩
  rw [getFiles_eq, getFiles_eq]
  show ((params.parseMime mimetic text).fileData[name]?).getD [] = _
  rw [show (params.parseMime mimetic text).fileData[name]? = _ from hfiles]
  show Option.getD (if filesOf mimetic name (mimetic.parts text) = [] then _ else _) [] = _
  by_cases hnone : filesOf mimetic name (mimetic.parts text) = []
  · rw [if_pos hnone, hnone, List.append_nil]
  · rw [if_neg hnone]
    rfl

end MimeParameters

end ThreadServer
