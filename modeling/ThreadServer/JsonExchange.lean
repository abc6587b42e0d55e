/-
  A conversation in JSON: one program builds a value in a pool and prints it; another one has
  jsoncpp read the text, and takes the `Json::Value` apart with the accessors of `json.cc`.

  1. **Taking apart** — `Recovers` is what can be found out about a `Json::Value`: one accessor for
     each node, and jsoncpp's members and elements below it.
  2. **The library** — `ReadsGrammar` is what is relied on: jsoncpp reads what is printed, and the
     value it makes of it answers its tests and conversions like the JSON value it holds.
  3. **Values** (`recovers_iff`).  A value that jsoncpp reads is recovered whole exactly if all its
     integers fit in 32 bits.
  4. **The exchange** (`pool_recovers_iff`).  So it is for whatever has been built in a pool, if no
     `double` is in it.
-/
import ThreadServer.JsonAccessors
import ThreadServer.PoolExchange
import Mathlib.Data.Finset.Lattice.Fold
import Mathlib.Data.Fintype.Basic

namespace ThreadServer

open Bytes

namespace JSON

open Rfc8259

/-! ## Taking a value apart -/

/-- What a reader uses of jsoncpp beside the accessors. -/
structure JsonTree (J Double : Type) extends JsonCpp J Double where
  isNull : J → Bool
  getMemberNames : J → List Bytes
  /-- `operator[]`, by a member's name and by an element's index. -/
  member : J → Bytes → J
  size : J → Nat
  element : J → Nat → J
  /-- How deep the reader follows a text before it gives up. -/
  stackLimit : Nat

variable {J Double : Type}

/-- Who asks for the parts of `v`, one after the other, gets them. -/
def Recovers (json : JsonTree J Double) : Value → J → Prop
  | .null, value => json.isNull value = true
  | .bool data, value => json.bool value = .ok data
  | .int data, value => json.int value = .ok data
  | .string data, value => json.string value = .ok data
  | .struct names _ values, value => ∃ struct, json.struct value = .ok struct ∧
      json.getMemberNames struct = names ∧
      ∀ i, Recovers json (values i) (json.member struct (names.get i))
  | .array size items, value => ∃ array, json.array value = .ok array ∧ json.size array = size ∧
      ∀ i, Recovers json (items i) (json.element array i)

/-- All integers of the value fit in 32 bits. -/
def Value.FitsInts : Value → Prop
  | .null | .bool _ | .string _ => True
  | .int data => JsonCpp.FitsInt data.toInt
  | .struct _ _ values => ∀ i, (values i).FitsInts
  | .array _ items => ∀ i, (items i).FitsInts

/-- No string of the value and no name in it has a NUL: some versions of jsoncpp keep what stands
    before it only. -/
def Value.NulFree : Value → Prop
  | .null | .bool _ | .int _ => True
  | .string data => 0 ∉ data
  | .struct names _ values => (∀ name ∈ names, 0 ∉ name) ∧ ∀ i, (values i).NulFree
  | .array _ items => ∀ i, (items i).NulFree

/-- How many values are open at once while the deepest one is read. -/
def Value.depth : Value → Nat
  | .null | .bool _ | .int _ | .string _ => 1
  | .struct _ _ values => 1 + Finset.univ.sup fun i => (values i).depth
  | .array _ items => 1 + Finset.univ.sup fun i => (items i).depth

/-- What is relied on of jsoncpp: `holds value x` says that the `Json::Value` is the JSON value `x`.
    It reads the texts the pool prints unless they nest too deep or hold a NUL, keeps the members of
    an object by their names, and an integer passes the test for `int` if it fits. -/
structure ReadsGrammar (json : JsonTree J Double) (holds : J → Json → Prop) : Prop where
  parse : ∀ v : Value, v.NulFree → v.depth ≤ json.stackLimit →
    ∃ value, json.parse v.toStdString = some value ∧ holds value v.toJson
  null : ∀ value, holds value .null → json.isNull value = true
  bool : ∀ value b, holds value (.bool b) → json.isBool value = true ∧ json.asBool value = b
  int : ∀ value n, holds value (.num n 0) →
    (json.isInt value = true ↔ JsonCpp.FitsInt n) ∧
    (json.isInt value = true → (json.asInt value).toInt = n)
  string : ∀ value content, holds value (.str content) →
    json.isString value = true ∧ json.asString value = content
  object : ∀ value members, holds value (.obj members) → (members.map (·.1)).Pairwise (· < ·) →
    json.isObject value = true ∧ json.getMemberNames value = members.map (·.1) ∧
    ∀ member ∈ members, holds (json.member value member.1) member.2
  array : ∀ value elements, holds value (.arr elements) →
    json.isArray value = true ∧ json.size value = elements.length ∧
    ∀ i (h : i < elements.length), holds (json.element value i) (elements.get ⟨i, h⟩)

variable {json : JsonTree J Double} {holds : J → Json → Prop}

/-- The accessor of integers. -/
theorem int_eq_ok_iff (h : ReadsGrammar json holds) {data : Int64} {value : J}
    (hvalue : holds value (.num data.toInt 0)) :
    json.int value = .ok data ↔ JsonCpp.FitsInt data.toInt := by
  obtain ⟨hisInt, hasInt⟩ := h.int value data.toInt hvalue
  rw [← hisInt]
  constructor
  · intro hint
    exact ((json.convert_eq_ok_iff).mp hint).1
  · intro htest
    refine (json.convert_eq_ok_iff).mpr ⟨htest, Int64.toInt_inj.mp ?_⟩
    rw [Int32.toInt_toInt64]
    exact hasInt htest

/-- **A value is recovered exactly if its integers fit.** -/
theorem recovers_iff (h : ReadsGrammar json holds) {v : Value} {value : J}
    (hvalue : holds value v.toJson) : Recovers json v value ↔ v.FitsInts := by
  induction v generalizing value with
  | null => exact iff_of_true (h.null value hvalue) trivial
  | bool data =>
    exact iff_of_true ((json.convert_eq_ok_iff).mpr (h.bool value data hvalue)) trivial
  | int data => exact int_eq_ok_iff h hvalue
  | string data =>
    exact iff_of_true ((json.convert_eq_ok_iff).mpr (h.string value data hvalue)) trivial
  | struct names ascending values ih =>
    have hnames : (List.ofFn fun i => (names.get i, (values i).toJson)).map (·.1) = names := by
      rw [List.map_ofFn]
      exact List.ofFn_get names
    obtain ⟨hobject, hmembers, hholds⟩ := h.object value _ hvalue (hnames.symm ▸ ascending)
    have hbelow : ∀ i, Recovers json (values i) (json.member value (names.get i)) ↔
        (values i).FitsInts := by
      intro i
      exact ih i (hholds (names.get i, (values i).toJson) (List.mem_ofFn.mpr ⟨i, rfl⟩))
    constructor
    · rintro ⟨struct, hstruct, -, hall⟩ i
      obtain rfl : value = struct := ((json.convert_eq_ok_iff).mp hstruct).2
      exact (hbelow i).mp (hall i)
    · intro hfits
      refine ⟨value, (json.convert_eq_ok_iff).mpr ⟨hobject, rfl⟩, hmembers.trans hnames, ?_⟩
      exact fun i => (hbelow i).mpr (hfits i)
  | array size items ih =>
    obtain ⟨harray, hsize, hholds⟩ := h.array value _ hvalue
    have hlength : (List.ofFn fun i => (items i).toJson).length = size := List.length_ofFn
    have hbelow : ∀ i : Fin size, Recovers json (items i) (json.element value i) ↔
        (items i).FitsInts := by
      intro i
      refine ih i ?_
      have hget := hholds i (hlength.symm ▸ i.isLt)
      rwa [List.get_ofFn] at hget
    constructor
    · rintro ⟨array, harray, -, hall⟩ i
      obtain rfl : value = array := ((json.convert_eq_ok_iff).mp harray).2
      exact (hbelow i).mp (hall i)
    · intro hfits
      refine ⟨value, (json.convert_eq_ok_iff).mpr ⟨harray, rfl⟩, hsize.trans hlength, ?_⟩
      exact fun i => (hbelow i).mpr (hfits i)

/-! ## The reader of the grammar in jsoncpp's place -/

/-- The member of that name. -/
def memberOf (name : Bytes) (members : List (Bytes × Json)) : Json :=
  ((members.find? fun member => member.1 = name).map (·.2)).getD .null

/-- The reader of the grammar, with jsoncpp's ways into a value. -/
def grammarTree : JsonTree Json Unit where
  toJsonCpp := grammarReader
  isNull | .null => true | _ => false
  getMemberNames | .obj members => members.map (·.1) | _ => []
  member | .obj members, name => memberOf name members | _, _ => .null
  size | .arr elements => elements.length | _ => 0
  element | .arr elements, i => elements.getD i .null | _, _ => .null
  stackLimit := 1000

/-- Members with different names are found by their names. -/
theorem memberOf_eq {members : List (Bytes × Json)}
    (hnames : (members.map (·.1)).Pairwise (· < ·)) {member : Bytes × Json}
    (hmem : member ∈ members) : memberOf member.1 members = member.2 := by
  induction members with
  | nil => cases hmem
  | cons first members ih =>
    rw [List.map_cons, List.pairwise_cons] at hnames
    rcases List.mem_cons.mp hmem with rfl | hmem
    · simp [memberOf]
    · have hne : first.1 ≠ member.1 := by
        have hlt := hnames.1 member.1 (List.mem_map_of_mem hmem)
        intro heq
        rw [heq] at hlt
        exact List.lt_irrefl _ hlt
      have hskip : memberOf member.1 (first :: members) = memberOf member.1 members := by
        simp [memberOf, hne]
      rw [hskip]
      exact ih hnames.2 hmem

theorem grammarTree_readsGrammar : ReadsGrammar grammarTree Eq where
  parse v _ _ := by
    have hback := read_append v (r := []) nofun
    rw [List.append_nil] at hback
    refine ⟨v.toJson, ?_, rfl⟩
    show (read uncontrolled v.toStdString).bind _ = _
    rw [hback]
    rfl
  null := by
    rintro _ rfl
    rfl
  bool := by
    rintro _ b rfl
    exact ⟨rfl, rfl⟩
  int := by
    rintro _ n rfl
    have htest : grammarTree.isInt (.num n 0) = true ↔ JsonCpp.FitsInt n := decide_eq_true_iff
    exact ⟨htest, fun h => grammarReader_asInt (htest.mp h)⟩
  string := by
    rintro _ content rfl
    exact ⟨rfl, rfl⟩
  object := by
    rintro _ members rfl hnames
    exact ⟨rfl, rfl, fun member hmem => memberOf_eq hnames hmem⟩
  array := by
    rintro _ elements rfl
    refine ⟨rfl, rfl, fun i h => ?_⟩
    show elements.getD i .null = elements.get ⟨i, h⟩
    rw [List.getD_eq_getElem?_getD, List.getElem?_eq_getElem h]
    rfl

/-! ## The exchange -/

/-- **The exchange.**  Calls on a pool have built a value without a `double`, whose conversion
    returns.  jsoncpp reads the text, unless it nests too deep or holds a NUL, and the value is
    recovered whole from what it makes of it exactly if all its integers fit in 32 bits. -/
theorem pool_recovers_iff {PoolDouble : Type} {printDouble : PoolDouble → Bytes}
    (h : ReadsGrammar json holds) (r : PoolValue printDouble) {v : Value}
    (hbuilt : Unfolds (finalDeref r.calls) r.value v.toTree) (hnul : v.NulFree)
    (hdepth : v.depth ≤ json.stackLimit) :
    ∃ value, json.parse r.text = some value ∧ (Recovers json v value ↔ v.FitsInts) := by
  obtain ⟨tree, hunfolds, htext⟩ := r.exists_tree
  obtain rfl : v.toTree = tree := r.tree_unique hunfolds hbuilt
  obtain ⟨value, hparse, hholds⟩ := h.parse v hnul hdepth
  rw [← htext, toStdString_toTree]
  exact ⟨value, hparse, recovers_iff h hholds⟩

/-- The array that was given its element late is recovered. -/
theorem greeting_recovered : ∃ value, grammarTree.parse Worker.greeting.text = some value ∧
    Recovers grammarTree (.array 1 fun _ => .string (str "</a>")) value := by
  have helement : Unfolds (finalDeref Worker.greeting.calls) (.value 1)
      (.string (str "</a>")) := .string rfl
  have hbuilt : Unfolds (finalDeref Worker.greeting.calls) Worker.greeting.value
      (Value.array 1 fun _ => .string (str "</a>")).toTree := by
    have hvalue : finalDeref Worker.greeting.calls (.value 0) = some (.array [.value 1]) := rfl
    refine .array hvalue fun i => ?_
    obtain rfl : i = 0 := Fin.eq_zero i
    exact helement
  obtain ⟨value, hparse, hrecovers⟩ :=
    pool_recovers_iff grammarTree_readsGrammar Worker.greeting hbuilt
      (fun _ => show (0 : UInt8) ∉ str "</a>" by decide) (by decide)
  exact ⟨value, hparse, hrecovers.mpr fun _ => trivial⟩

end JSON

end ThreadServer
