/-
  Reading typed values out of parsed JSON (`JSON::String`, `Int`, `Double`, `Bool`, `Struct` and
  `Array` in `json.cc`), and what becomes of the integers this server prints.

  1. **The library** — `JsonCpp` is what the accessors use of jsoncpp: its parser, and of its values
     the tests, the conversions and the styled text.
  2. **The accessors** are one shape, `convert`: a value of the wrong type is an error that names
     the type and shows the value.
  3. **Integers** — the writer prints a `long long`, the accessor asks for an `int`.  So an integer
     survives the trip exactly if it fits in 32 bits (`receives_iff`).
-/
import ThreadServer.Error
import ThreadServer.JsonRoundTrip

namespace ThreadServer.JSON

open Bytes Rfc8259

/-- What the accessors use of jsoncpp, with `J` for `Json::Value`. -/
structure JsonCpp (J Double : Type) where
  /-- `Json::Reader::parse`. -/
  parse : Bytes → Option J
  isString : J → Bool
  isInt : J → Bool
  isDouble : J → Bool
  isBool : J → Bool
  isObject : J → Bool
  isArray : J → Bool
  asString : J → Bytes
  asInt : J → Int32
  asDouble : J → Double
  asBool : J → Bool
  toStyledString : J → Bytes

namespace JsonCpp

variable {J Double α : Type} (json : JsonCpp J Double)

/-! ## The accessors -/

/-- Test, and convert or throw: `what` is the type in the message. -/
def convert (is : J → Bool) (as : J → α) (what : Bytes) (value : J) : Except Exn α :=
  if is value then .ok (as value)
  else .error (.formatted
    [str "Can't get " ++ what ++ str " from '", cStr (json.toStyledString value), str "'"])

/-- `JSON::String`. -/
def string : J → Except Exn Bytes := json.convert json.isString json.asString (str "string")

/-- `JSON::Int`: it returns a `long long`. -/
def int : J → Except Exn Int64 :=
  json.convert json.isInt (fun value => (json.asInt value).toInt64) (str "int")

/-- `JSON::Double`. -/
def double : J → Except Exn Double := json.convert json.isDouble json.asDouble (str "double")

/-- `JSON::Bool`. -/
def bool : J → Except Exn Bool := json.convert json.isBool json.asBool (str "bool")

/-- `JSON::Struct`. -/
def struct : J → Except Exn J := json.convert json.isObject id (str "struct")

/-- `JSON::Array`. -/
def array : J → Except Exn J := json.convert json.isArray id (str "array")

/-- An accessor returns the conversion of a value that passes its test, and nothing else. -/
theorem convert_eq_ok_iff {is : J → Bool} {as : J → α} {what : Bytes} {value : J} {a : α} :
    json.convert is as what value = .ok a ↔ is value = true ∧ as value = a := by
  unfold convert
  cases is value with
  | true =>
    rw [if_pos rfl]
    exact ⟨fun h => ⟨rfl, Except.ok.inj h⟩, fun h => congrArg Except.ok h.2⟩
  | false =>
    rw [if_neg Bool.false_ne_true]
    constructor
    · intro h
      cases h
    · intro h
      cases h.1

/-! ## Integers -/

/-- The integers that fit in 32 bits. -/
def FitsInt (n : Int) : Prop := -2 ^ 31 ≤ n ∧ n < 2 ^ 31

instance (n : Int) : Decidable (FitsInt n) := inferInstanceAs (Decidable (_ ∧ _))

/-- How jsoncpp reads integer literals: the value is an `int` if it fits, and then it is that
    number. -/
structure ReadsIntegers : Prop where
  reads : ∀ n : Int64, ∃ value, json.parse (signedDecimal n.toInt) = some value ∧
    (json.isInt value = true ↔ FitsInt n.toInt) ∧
    (json.isInt value = true → (json.asInt value).toInt = n.toInt)

/-- The integer comes back from the text that a pool value prints for it. -/
def Receives (n : Int64) : Prop :=
  ∃ value, json.parse (Value.int n).toStdString = some value ∧ json.int value = .ok n

variable {json}

/-- Once the literal is read, the test for `int` decides. -/
theorem receives_iff_isInt {n : Int64} {value : J}
    (hparse : json.parse (Value.int n).toStdString = some value)
    (hasInt : json.isInt value = true → (json.asInt value).toInt = n.toInt) :
    json.Receives n ↔ json.isInt value = true := by
  constructor
  · rintro ⟨value', hparse', hint⟩
    obtain rfl := Option.some.inj (hparse.symm.trans hparse')
    exact ((json.convert_eq_ok_iff).mp hint).1
  · intro hisInt
    have hvalue : (json.asInt value).toInt64 = n := by
      apply Int64.toInt_inj.mp
      rw [Int32.toInt_toInt64]
      exact hasInt hisInt
    exact ⟨value, hparse, (json.convert_eq_ok_iff).mpr ⟨hisInt, hvalue⟩⟩

/-- **An integer comes back exactly if it fits in 32 bits**, of all the 64-bit integers that the
    server can print. -/
theorem receives_iff (hreads : json.ReadsIntegers) (n : Int64) :
    json.Receives n ↔ FitsInt n.toInt := by
  obtain ⟨value, hparse, hisInt, hasInt⟩ := hreads.reads n
  exact (receives_iff_isInt hparse hasInt).trans hisInt

end JsonCpp

/-! ## A reader of the grammar in jsoncpp's place -/

/-- The reader of the grammar, with jsoncpp's tests. -/
def grammarReader : JsonCpp Json Unit where
  parse text := (read uncontrolled text).bind fun r => if r.2 = [] then some r.1 else none
  isString | .str _ => true | _ => false
  isInt | .num mantissa 0 => JsonCpp.FitsInt mantissa | _ => false
  isDouble | .num _ 0 => false | .num _ _ => true | _ => false
  isBool | .bool _ => true | _ => false
  isObject | .obj _ => true | _ => false
  isArray | .arr _ => true | _ => false
  asString | .str content => content | _ => []
  asInt | .num mantissa _ => Int32.ofInt mantissa | _ => 0
  asDouble _ := ()
  asBool | .bool b => b | _ => false
  toStyledString | .num mantissa _ => signedDecimal mantissa ++ str "\n" | _ => []

theorem grammarReader_parse (n : Int64) :
    grammarReader.parse (signedDecimal n.toInt) = some (.num n.toInt 0) := by
  have hread := read_append (.int n) (r := []) fun c hc => nomatch hc
  rw [List.append_nil] at hread
  show (read uncontrolled (Value.int n).toStdString).bind _ = _
  rw [hread]
  rfl

theorem grammarReader_asInt {n : Int} (h : JsonCpp.FitsInt n) : (Int32.ofInt n).toInt = n :=
  Int32.toInt_ofInt_of_le h.1 h.2

theorem grammarReader_readsIntegers : grammarReader.ReadsIntegers where
  reads n := by
    refine ⟨_, grammarReader_parse n, ?_, fun h => ?_⟩
    · exact decide_eq_true_iff
    · exact grammarReader_asInt (decide_eq_true_iff.mp h)

/-- The largest integer that comes back. -/
theorem grammarReader_receives_max : grammarReader.Receives 2147483647 :=
  (JsonCpp.receives_iff grammarReader_readsIntegers 2147483647).mpr (by decide)

/-- **The next one is printed and not received.** -/
theorem grammarReader_loses_next : ¬ grammarReader.Receives 2147483648 := by
  rw [JsonCpp.receives_iff_isInt (grammarReader_parse 2147483648) fun h => nomatch h]
  decide

end ThreadServer.JSON
