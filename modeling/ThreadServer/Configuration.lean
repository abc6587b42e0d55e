/-
  `Configuration_t` (`configuration.h`): what the configuration file says, as far as the server
  reads it back.  `data` maps a key to the values the file gave it, in order; the constructor fills
  it with `data[key].push_back(value)` (`readFile`), so a key that is present has a value, which is
  the proof `Values` carries and `get` relies on when it takes `[0]`.
-/
import ThreadServer.Error
import ThreadServer.Lib.StdMap

namespace ThreadServer

open Bytes

/-- The values recorded under one key. -/
abbrev Values := { values : List Bytes // values ≠ [] }

/-- The values of a key that stands once in the file. -/
def Values.single (value : Bytes) : Values := ⟨[value], List.cons_ne_nil _ _⟩

/-- `Configuration_t`. -/
structure Configuration where
  handlerNames : List Bytes
  listenerNames : List Bytes
  data : StdMap Bytes Values

namespace Configuration

/-- `data[key].push_back(value)`. -/
def record (data : StdMap Bytes Values) (entry : Bytes × Bytes) : StdMap Bytes Values :=
  data.alter entry.1 fun values => some ⟨values.elim [] (·.1) ++ [entry.2], by simp⟩

/-- The constructor's loop over the entries of the file. -/
def readFile (entries : List (Bytes × Bytes)) : StdMap Bytes Values := entries.foldl record ∅

/-- The values that a file gives a key, in order. -/
def valuesOf (key : Bytes) (entries : List (Bytes × Bytes)) : List Bytes :=
  (entries.filter (·.1 = key)).map (·.2)

/-- What stands under a key is what the file gives it. -/
theorem lookup_readFile (entries : List (Bytes × Bytes)) (key : Bytes) :
    (readFile entries)[key]?.map (·.1) =
      if valuesOf key entries = [] then none else some (valuesOf key entries) := by
  have hstep : ∀ (data : StdMap Bytes Values) (entry : Bytes × Bytes),
      (record data entry)[key]?.map (·.1) =
        if decide (entry.1 = key) then some ((data[key]?.map (·.1)).getD [] ++ [entry.2])
        else data[key]?.map (·.1) := by
    intro data entry
    rw [record, Std.ExtTreeMap.getElem?_alter]
    by_cases hkey : entry.1 = key
    · subst hkey
      rw [if_pos Std.compare_self, if_pos (decide_eq_true rfl)]
      cases data[entry.1]? <;> rfl
    · rw [if_neg fun h => hkey (Std.LawfulEqOrd.eq_of_compare h), if_neg (by simpa using hkey)]
  rw [readFile, StdMap.lookup_foldl (fun data => data[key]?.map (·.1)) record
    (fun entry => decide (entry.1 = key)) (·.2) hstep, Std.ExtTreeMap.getElem?_empty]
  rfl

theorem getElem?_readFile {entries : List (Bytes × Bytes)} {key : Bytes} {values : Values} :
    (readFile entries)[key]? = some values ↔ values.1 = valuesOf key entries := by
  have hlookup := lookup_readFile entries key
  constructor
  · intro hvalues
    rw [hvalues] at hlookup
    split at hlookup
    · exact nomatch hlookup
    · exact Option.some.inj hlookup
  · intro hvalues
    rw [if_neg (hvalues ▸ values.2), ← hvalues] at hlookup
    exact Option.map_injective Subtype.val_injective hlookup

/-- **The order of the keys does not matter.**  Two files are read as the same configuration exactly
    if each gives every key the values that the other gives it, in the same order; so sections can
    change places, and be cut in two. -/
theorem readFile_eq_iff {entries entries' : List (Bytes × Bytes)} :
    readFile entries = readFile entries' ↔
      ∀ key, valuesOf key entries = valuesOf key entries' := by
  constructor
  · intro h key
    by_cases hnone : valuesOf key entries = []
    · by_contra hne
      have hsome : valuesOf key entries' ≠ [] := fun h' => hne (hnone.trans h'.symm)
      have hvalues := getElem?_readFile.mpr (show (⟨_, hsome⟩ : Values).1 = _ from rfl)
      exact hne (getElem?_readFile.mp (h.symm ▸ hvalues)).symm
    · have hvalues := getElem?_readFile.mpr (show (⟨_, hnone⟩ : Values).1 = _ from rfl)
      exact getElem?_readFile.mp (h ▸ hvalues)
  · intro h
    apply Std.ExtTreeMap.ext_getElem?
    intro key
    apply Option.ext
    intro values
    rw [getElem?_readFile, getElem?_readFile, h key]

/-- `configuration.get<std::string>(key)`. -/
def get (configuration : Configuration) (key : Bytes) : Except Failure Bytes :=
  match configuration.data[key]? with
  | none => .error (.throws (.formatted
      [str "Variable ", cStr key, str " not found in configuration file"]))
  | some values => .ok (values.1.head values.2)

/-- `configuration.get<T_t>(key, defaultValue)`, with `cast` for `boost::lexical_cast<T_t>`. -/
def getOr {α : Type} (configuration : Configuration) (cast : Bytes → Option α) (key : Bytes)
    (defaultValue : α) : Except Failure α :=
  match configuration.data[key]? with
  | none => .ok defaultValue
  | some values =>
    match cast (values.1.head values.2) with
    | none => .error (.throws .badLexicalCast)
    | some value => .ok value

/-- `configuration.getVector<std::string>(key)`. -/
def getVector (configuration : Configuration) (key : Bytes) : List Bytes :=
  match configuration.data[key]? with
  | none => []
  | some values => values.1

end Configuration

end ThreadServer
