/-
  The pool of JSON values (`Pool_t`, `Struct_t::append`, `Array_t::push_back`).

  1. **A graph** — a container holds pointers to values of the pool, so calls in any order build any
     finite graph: a value in two containers, a container in itself.  A `Pool` carries the proof
     that it holds no dangling pointer.
  2. **What a container ends up with** (`run_values`) — the members appended to it, whenever that
     happened: a struct keeps the last value of each name, an array all of them.
  3. **Conversion** — a recursive program over the graph.  It terminates on a value exactly when no
     container reached from there reaches itself, and then prints the tree that the value unfolds
     to (`conversion_terminates_iff`).
  4. **Objects** (`struct_conversion`) — each name once, in byte order, with the text of its last
     value; so the order of the calls to `append` does not show.

  The text of a `double` comes from `lexical_cast` and is the parameter `printDouble`.
-/
import ThreadServer.Json
import ThreadServer.Lib.JsonReader
import ThreadServer.Lib.Recursion
import ThreadServer.Lib.StdMap
import ThreadServer.Lib.Transition

namespace ThreadServer.JSON

open Bytes Rfc8259

/-- A `Value_t&` given out by a pool: its `null`, or one of its `values`. -/
inductive Ref
  | null
  | value (index : Nat)
deriving DecidableEq

/-- A reference to something in a pool of this size. -/
def Ref.In (size : Nat) : Ref → Prop
  | null => True
  | value index => index < size

instance (size : Nat) : (v : Ref) → Decidable (v.In size)
  | .null => isTrue trivial
  | .value index => inferInstanceAs (Decidable (index < size))

theorem Ref.In.mono {size size' : Nat} (hle : size ≤ size') {v : Ref} (h : v.In size) :
    v.In size' := by
  cases v with
  | null => trivial
  | value index => exact Nat.lt_of_lt_of_le h hle

/-- The objects of the classes derived from `Value_t`. -/
inductive Node (Double : Type)
  | null
  | string (data : Bytes)
  | int (data : Int64)
  | double (data : Double)
  | bool (data : Bool)
  | struct (data : StdMap Bytes Ref)
  | array (data : List Ref)

variable {Double : Type}

namespace Node

/-- The pointers an object holds. -/
def refs : Node Double → List Ref
  | struct data => data.toList.map (·.2)
  | array data => data
  | _ => []

theorem refs_struct_empty : (struct ∅ : Node Double).refs = [] := by simp [refs]

end Node

/-- `Pool_t`, and whose pointers all lead to its own values. -/
structure Pool (Double : Type) where
  values : List (Node Double)
  closed : ∀ node ∈ values, ∀ v ∈ node.refs, v.In values.length

namespace Pool

variable (pool : Pool Double)

/-- `Pool_t::Pool_t`. -/
def empty : Pool Double where
  values := []
  closed _ h := absurd h List.not_mem_nil

theorem ext {pool pool' : Pool Double} (h : pool.values = pool'.values) : pool = pool' := by
  cases pool
  cases pool'
  congr

/-- The object behind a reference. -/
def deref : Ref → Option (Node Double)
  | .null => some .null
  | .value index => pool.values[index]?

theorem closed_add {node : Node Double} (hrefs : node.refs = []) :
    ∀ node' ∈ pool.values ++ [node], ∀ v ∈ node'.refs, v.In (pool.values ++ [node]).length := by
  intro node' hmem v hv
  rcases List.mem_append.mp hmem with hold | hnew
  · exact (pool.closed node' hold v hv).mono (by simp)
  · rw [List.mem_singleton.mp hnew, hrefs] at hv
    exact absurd hv List.not_mem_nil

/-- A new value, which holds no pointer yet. -/
def add (node : Node Double) (hrefs : node.refs = []) : Pool Double where
  values := pool.values ++ [node]
  closed := pool.closed_add hrefs

theorem closed_set {index : Nat} {node : Node Double}
    (hrefs : ∀ v ∈ node.refs, v.In pool.values.length) :
    ∀ node' ∈ pool.values.set index node, ∀ v ∈ node'.refs,
      v.In (pool.values.set index node).length := by
  intro node' hmem v hv
  rw [List.length_set]
  rcases List.mem_or_eq_of_mem_set hmem with hold | rfl
  · exact pool.closed node' hold v hv
  · exact hrefs v hv

/-- The object at `index` becomes `node`, whose pointers must lead into the pool. -/
def set (index : Nat) (node : Node Double) : Option (Pool Double) :=
  if hrefs : ∀ v ∈ node.refs, v.In pool.values.length then
    some ⟨pool.values.set index node, pool.closed_set hrefs⟩
  else none

/-- `Struct_t::append`, on a struct of the pool. -/
def append (target : Ref) (name : Bytes) (value : Ref) : Option (Pool Double) :=
  match target, pool.deref target with
  | .value index, some (.struct data) => pool.set index (.struct (data.insert name value))
  | _, _ => none

/-- `Array_t::push_back`, on an array of the pool. -/
def pushBack (target value : Ref) : Option (Pool Double) :=
  match target, pool.deref target with
  | .value index, some (.array data) => pool.set index (.array (data ++ [value]))
  | _, _ => none

end Pool

/-- What a program does with a pool: the creations, each of which gives out the next reference, and
    the calls on what it has been given. -/
inductive Call (Double : Type)
  | null
  | string (data : Bytes)
  | int (data : Int64)
  | double (data : Double)
  | bool (data : Bool)
  | struct
  | array
  | append (target : Ref) (name : Bytes) (value : Ref)
  | pushBack (target value : Ref)

/-- One call.  The types of C++ keep a program from calling `append` on what is no struct, and from
    passing what is no value; such a call is no step. -/
def step (pool : Pool Double) : Call Double → Option (Pool Double)
  | .null => some pool
  | .string data => some (pool.add (.string data) rfl)
  | .int data => some (pool.add (.int data) rfl)
  | .double data => some (pool.add (.double data) rfl)
  | .bool data => some (pool.add (.bool data) rfl)
  | .struct => some (pool.add (.struct ∅) Node.refs_struct_empty)
  | .array => some (pool.add (.array []) rfl)
  | .append target name value => pool.append target name value
  | .pushBack target value => pool.pushBack target value

/-! ## What a container ends up with -/

/-- The object a call creates. -/
def created : Call Double → Option (Node Double)
  | .string data => some (.string data)
  | .int data => some (.int data)
  | .double data => some (.double data)
  | .bool data => some (.bool data)
  | .struct => some (.struct ∅)
  | .array => some (.array [])
  | .null | .append _ _ _ | .pushBack _ _ => none

/-- All objects created, in order. -/
def creations (calls : List (Call Double)) : List (Node Double) := calls.filterMap created

/-- What is appended to a struct, in order. -/
def appended (s : Ref) (calls : List (Call Double)) : List (Bytes × Ref) :=
  calls.filterMap fun call =>
    match call with
    | .append target name value => if target = s then some (name, value) else none
    | _ => none

/-- What is pushed to an array, in order. -/
def pushed (a : Ref) (calls : List (Call Double)) : List Ref :=
  calls.filterMap fun call =>
    match call with
    | .pushBack target value => if target = a then some value else none
    | _ => none

/-- The object behind `v` after the calls. -/
def Node.after (v : Ref) (calls : List (Call Double)) : Node Double → Node Double
  | .struct data => .struct (StdMap.assignAll data (appended v calls))
  | .array data => .array (data ++ pushed v calls)
  | node => node

/-- The object behind `v` in the end, as the calls have it. -/
def finalDeref (calls : List (Call Double)) : Ref → Option (Node Double)
  | .null => some .null
  | .value index => (creations calls)[index]?.map (Node.after (.value index) calls)

namespace Pool

variable {pool pool' : Pool Double} {target value : Ref}

theorem set_eq_some {index : Nat} {node : Node Double} (h : pool.set index node = some pool') :
    pool'.values = pool.values.set index node := by
  unfold set at h
  split at h
  · rw [← Option.some.inj h]
  · exact absurd h (Option.some_ne_none _).symm

theorem append_eq_some {name : Bytes} (h : pool.append target name value = some pool') :
    ∃ index data, target = .value index ∧ pool.values[index]? = some (.struct data) ∧
      pool'.values = pool.values.set index (.struct (data.insert name value)) := by
  unfold append at h
  split at h
  · rename_i index data hderef
    exact ⟨index, data, rfl, hderef, set_eq_some h⟩
  · exact absurd h (Option.some_ne_none _).symm

theorem pushBack_eq_some (h : pool.pushBack target value = some pool') :
    ∃ index data, target = .value index ∧ pool.values[index]? = some (.array data) ∧
      pool'.values = pool.values.set index (.array (data ++ [value])) := by
  unfold pushBack at h
  split at h
  · rename_i index data hderef
    exact ⟨index, data, rfl, hderef, set_eq_some h⟩
  · exact absurd h (Option.some_ne_none _).symm

end Pool

namespace Node

theorem after_nil (v : Ref) (node : Node Double) : node.after v [] = node := by
  cases node with
  | array data => exact congrArg array (List.append_nil data)
  | null | string data | int data | double data | bool data | struct data => rfl

theorem after_cons (v : Ref) (call : Call Double) (calls : List (Call Double))
    (node : Node Double) : node.after v (call :: calls) = (node.after v [call]).after v calls := by
  have happended : appended v (call :: calls) = appended v [call] ++ appended v calls :=
    List.filterMap_append (l := [call]) ..
  have hpushed : pushed v (call :: calls) = pushed v [call] ++ pushed v calls :=
    List.filterMap_append (l := [call]) ..
  cases node with
  | struct data =>
    show struct (StdMap.assignAll data _) = struct (StdMap.assignAll (StdMap.assignAll data _) _)
    rw [happended, StdMap.assignAll, List.foldl_append]
    rfl
  | array data =>
    show array (data ++ _) = array (data ++ _ ++ _)
    rw [hpushed, List.append_assoc]
  | null | string data | int data | double data | bool data => rfl

/-- A call that is not about `v`. -/
theorem after_of_other {v : Ref} {call : Call Double} (happended : appended v [call] = [])
    (hpushed : pushed v [call] = []) (node : Node Double) : node.after v [call] = node := by
  cases node with
  | struct data =>
    show struct (StdMap.assignAll data _) = _
    rw [happended]
    rfl
  | array data =>
    show array (data ++ _) = _
    rw [hpushed, List.append_nil]
  | null | string data | int data | double data | bool data => rfl

end Node

theorem appended_append (s target value : Ref) (name : Bytes) :
    appended s [(.append target name value : Call Double)] =
      if target = s then [(name, value)] else [] := by
  unfold appended
  split <;> simp [*]

theorem pushed_pushBack (a target value : Ref) :
    pushed a [(.pushBack target value : Call Double)] = if target = a then [value] else [] := by
  unfold pushed
  split <;> simp [*]

/-- Changing one entry of a list is a change of each entry by its place, when no other place
    changes. -/
theorem set_append_eq_mapIdx {α : Type} {values : List α} {f : Nat → α → α} {index : Nat} {a : α}
    (ha : values[index]? = some a) (hf : ∀ j, j ≠ index → ∀ b, f j b = b) (rest : List α) :
    values.set index (f index a) ++ rest = (values ++ rest).mapIdx f := by
  obtain ⟨hlt, -⟩ := List.getElem?_eq_some_iff.mp ha
  apply List.ext_getElem?
  intro j
  rw [List.getElem?_mapIdx]
  by_cases hj : j = index
  · rw [hj, List.getElem?_append_left (by rwa [List.length_set]), List.getElem?_set_self hlt,
      List.getElem?_append_left hlt, ha, Option.map_some]
  · have hsame : (values.set index (f index a) ++ rest)[j]? = (values ++ rest)[j]? := by
      rw [List.getElem?_append, List.getElem?_append, List.length_set,
        List.getElem?_set_ne (Ne.symm hj)]
    rw [hsame]
    cases (values ++ rest)[j]? with
    | none => rfl
    | some b => rw [Option.map_some, hf j hj b]

theorem mapIdx_eq_self {α : Type} {f : Nat → α → α} (hf : ∀ j b, f j b = b) (values : List α) :
    values.mapIdx f = values := by
  apply List.ext_getElem?
  intro j
  rw [List.getElem?_mapIdx]
  cases values[j]? with
  | none => rfl
  | some b => rw [Option.map_some, hf j b]

/-- **A step**: a call changes each object as the history says, `rest` being objects to come. -/
theorem step_values {pool pool' : Pool Double} {call : Call Double}
    (h : step pool call = some pool') (rest : List (Node Double)) :
    pool'.values ++ rest = (pool.values ++ ((created call).toList ++ rest)).mapIdx
      fun j node => node.after (.value j) [call] := by
  -- A creation is no call about any object.
  have hother : (∀ v, appended v [call] = []) → (∀ v, pushed v [call] = []) →
      ∀ values : List (Node Double),
        (values.mapIdx fun j node => node.after (.value j) [call]) = values := by
    intro happended hpushed
    exact mapIdx_eq_self fun j node => Node.after_of_other (happended _) (hpushed _) node
  cases call with
  | append target name value =>
    obtain ⟨index, data, rfl, hdata, hvalues⟩ := Pool.append_eq_some h
    have hnode : (Node.struct data : Node Double).after (.value index)
        [.append (.value index) name value] = .struct (data.insert name value) := by
      rw [Node.after, appended_append, if_pos rfl]
      rfl
    rw [hvalues, ← hnode]
    refine set_append_eq_mapIdx
      (f := fun j node => node.after (.value j) [.append (.value index) name value]) hdata ?_ rest
    intro j hj node
    refine Node.after_of_other ?_ rfl node
    rw [appended_append, if_neg fun hindex => hj (Ref.value.inj hindex).symm]
  | pushBack target value =>
    obtain ⟨index, data, rfl, hdata, hvalues⟩ := Pool.pushBack_eq_some h
    have hnode : (Node.array data : Node Double).after (.value index)
        [.pushBack (.value index) value] = .array (data ++ [value]) := by
      rw [Node.after, pushed_pushBack, if_pos rfl]
    rw [hvalues, ← hnode]
    refine set_append_eq_mapIdx
      (f := fun j node => node.after (.value j) [.pushBack (.value index) value]) hdata ?_ rest
    intro j hj node
    refine Node.after_of_other rfl ?_ node
    rw [pushed_pushBack, if_neg fun hindex => hj (Ref.value.inj hindex).symm]
  | null =>
    rw [hother (fun _ => rfl) (fun _ => rfl), ← Option.some.inj h]
    rfl
  | string data | int data | double data | bool data | struct | array =>
    rw [hother (fun _ => rfl) (fun _ => rfl), ← Option.some.inj h]
    show pool.values ++ [_] ++ rest = _
    rw [List.append_assoc]
    rfl

/-- A run: every object there is or will be, changed by all calls about it. -/
theorem exec_values {pool pool' : Pool Double} {calls : List (Call Double)}
    (h : Transition.exec step pool calls = some pool') :
    pool'.values = (pool.values ++ creations calls).mapIdx
      fun j node => node.after (.value j) calls := by
  induction calls generalizing pool with
  | nil =>
    rw [mapIdx_eq_self fun j node => Node.after_nil _ node, ← Option.some.inj h]
    exact (List.append_nil _).symm
  | cons call calls ih =>
    obtain ⟨pool₁, hstep, hrest⟩ := Transition.exec_cons.mp h
    have hcreations : creations (call :: calls) = (created call).toList ++ creations calls := by
      show List.filterMap created (call :: calls) = _
      cases hcall : created call with
      | none => rw [List.filterMap_cons_none hcall]; rfl
      | some node => rw [List.filterMap_cons_some hcall]; rfl
    rw [ih hrest, step_values hstep, List.mapIdx_mapIdx, hcreations]
    congr 1
    funext j node
    exact (Node.after_cons _ call calls node).symm

/-- **What the containers hold in the end**: what has been appended to them, before or after they
    became members themselves. -/
theorem deref_exec {calls : List (Call Double)} {pool : Pool Double}
    (h : Transition.exec step Pool.empty calls = some pool) (v : Ref) :
    pool.deref v = finalDeref calls v := by
  cases v with
  | null => rfl
  | value index =>
    show pool.values[index]? = _
    rw [exec_values h, List.getElem?_mapIdx]
    rfl

/-! ## Conversion to `std::string` -/

/-- The loops over what a container holds, when an item may fail to be converted. -/
def writeEach {γ : Type} (item : γ → Option Bytes) : Bytes → List γ → Option Bytes
  | _, [] => some []
  | comma, x :: xs => do
    let text ← item x
    let rest ← writeEach item (str ",") xs
    return comma ++ text ++ rest

/-- The loop body of `Struct_t::operator std::string`. -/
def writeMember (self : Ref → Option Bytes) (member : Bytes × Ref) : Option Bytes := do
  let text ← self member.2
  return escape member.1 ++ str ":" ++ text

/-- `operator std::string` of every class; `self` converts what a container points to. -/
def Pool.convert (printDouble : Double → Bytes) (pool : Pool Double) (self : Ref → Option Bytes)
    (v : Ref) : Option Bytes :=
  match pool.deref v with
  | none => none
  | some .null => some (str "null")
  | some (.string data) => some (escape data)
  | some (.int data) => some (signedDecimal data.toInt)
  | some (.double data) => some (printDouble data)
  | some (.bool data) => some (if data then str "true" else str "false")
  | some (.struct data) => do
    let members ← writeEach (writeMember self) [] data.toList
    return [chr '{'] ++ members ++ [chr '}']
  | some (.array data) => do
    let items ← writeEach self [] data
    return [chr '['] ++ items ++ [chr ']']

section Loop

variable {γ : Type} {item : γ → Option Bytes}

theorem writeEach_isSome {comma : Bytes} {xs : List γ} :
    (writeEach item comma xs).isSome = true ↔ ∀ x ∈ xs, (item x).isSome = true := by
  induction xs generalizing comma with
  | nil => simp [writeEach]
  | cons x xs ih =>
    have hrest : (writeEach item (str ",") xs).isSome = true ↔
        ∀ x ∈ xs, (item x).isSome = true := ih
    rw [List.forall_mem_cons, ← hrest, writeEach]
    cases item x with
    | none => simp
    | some text =>
      cases writeEach item (str ",") xs with
      | none => simp
      | some rest => simp

theorem writeEach_congr {item' : γ → Option Bytes} {comma : Bytes} {xs : List γ}
    (h : ∀ x ∈ xs, item x = item' x) : writeEach item comma xs = writeEach item' comma xs := by
  induction xs generalizing comma with
  | nil => rfl
  | cons x xs ih =>
    obtain ⟨hx, hxs⟩ := List.forall_mem_cons.mp h
    rw [writeEach, writeEach, hx, ih hxs]

/-- The loop over items that are all converted, `text` by their place. -/
theorem writeEach_eq {comma : Bytes} {xs : List γ} {text : Fin xs.length → Bytes}
    (h : ∀ i, item (xs.get i) = some (text i)) :
    writeEach item comma xs = some (writeItems comma (List.ofFn text)) := by
  induction xs generalizing comma with
  | nil => rfl
  | cons x xs ih =>
    have hhead : item x = some (text 0) := h 0
    have htail : writeEach item (str ",") xs =
        some (writeItems (str ",") (List.ofFn fun i => text i.succ)) := ih fun i => h i.succ
    rw [writeEach, hhead, htail, List.ofFn_succ, writeItems]
    rfl

end Loop

theorem writeMember_isSome {self : Ref → Option Bytes} {member : Bytes × Ref} :
    (writeMember self member).isSome = true ↔ (self member.2).isSome = true := by
  rw [writeMember]
  cases self member.2 with
  | none => exact Iff.rfl
  | some text => exact Iff.rfl

namespace Pool

variable (printDouble : Double → Bytes) (pool : Pool Double)

/-- What the conversion of `v` converts: the members of a container. -/
def members (v : Ref) : List Ref := ((pool.deref v).map Node.refs).getD []

theorem members_of_deref {pool : Pool Double} {v : Ref} {node : Node Double}
    (h : pool.deref v = some node) : pool.members v = node.refs := by
  rw [members, h]
  rfl

theorem deref_isSome {pool : Pool Double} {v : Ref} :
    (pool.deref v).isSome = true ↔ v.In pool.values.length := by
  cases v with
  | null => exact ⟨fun _ => trivial, fun _ => rfl⟩
  | value index =>
    show (pool.values[index]?).isSome = true ↔ index < pool.values.length
    simp

/-- A container holds references into the pool only. -/
theorem in_of_mem_members {pool : Pool Double} {v m : Ref} (h : m ∈ pool.members v) :
    m.In pool.values.length := by
  cases hnode : pool.deref v with
  | none =>
    rw [members, hnode] at h
    exact absurd h List.not_mem_nil
  | some node =>
    rw [members_of_deref hnode] at h
    cases v with
    | null =>
      obtain rfl : .null = node := Option.some.inj hnode
      exact absurd h List.not_mem_nil
    | value index => exact pool.closed node (List.mem_of_getElem? hnode) m h

/-- The conversion looks at the members of a value only, and needs the text of each. -/
theorem callsOnly_convert :
    Recursion.CallsOnly (pool.convert printDouble) (·.In pool.values.length) pool.members where
  isSome_iff := by
    intro self v
    rw [← deref_isSome]
    cases hnode : pool.deref v with
    | none => simp [convert, hnode]
    | some node =>
      rw [members_of_deref hnode, convert, hnode]
      cases node with
      | null | string data | int data | double data | bool data => simp [Node.refs]
      | struct data =>
        have hmembers : (writeEach (writeMember self) [] data.toList).isSome = true ↔
            ∀ m ∈ data.toList.map (·.2), (self m).isSome = true := by
          rw [writeEach_isSome, List.forall_mem_map]
          simp only [writeMember_isSome]
        simp only [Node.refs, Option.isSome_some, true_and]
        rw [← hmembers]
        cases writeEach (writeMember self) [] data.toList <;> rfl
      | array data =>
        simp only [Node.refs, Option.isSome_some, true_and]
        have hitems : (writeEach self [] data).isSome = true ↔
            ∀ r ∈ data, (self r).isSome = true := writeEach_isSome
        rw [← hitems]
        cases writeEach self [] data <;> rfl
  congr := by
    intro self self' v h
    cases hnode : pool.deref v with
    | none => rw [convert, convert, hnode]
    | some node =>
      rw [members_of_deref hnode] at h
      rw [convert, convert, hnode]
      cases node with
      | null | string data | int data | double data | bool data => rfl
      | struct data =>
        have hmembers : writeEach (writeMember self) [] data.toList =
            writeEach (writeMember self') [] data.toList := by
          refine writeEach_congr fun member hmem => ?_
          rw [writeMember, writeMember, h member.2 (List.mem_map.mpr ⟨member, hmem, rfl⟩)]
        simp only [hmembers]
      | array data =>
        have hitems : writeEach self [] data = writeEach self' [] data := writeEach_congr h
        simp only [hitems]

end Pool

/-! ## The tree a value unfolds to -/

/-- A value with everything it leads to, copied out of the pool. -/
inductive Tree (Double : Type)
  | null
  | string (data : Bytes)
  | int (data : Int64)
  | double (data : Double)
  | bool (data : Bool)
  | struct (size : Nat) (names : Fin size → Bytes) (ascending : ∀ i j, i < j → names i < names j)
      (values : Fin size → Tree Double)
  | array (size : Nat) (items : Fin size → Tree Double)

/-- The text of a tree. -/
def Tree.toStdString (printDouble : Double → Bytes) : Tree Double → Bytes
  | null => str "null"
  | string data => escape data
  | int data => signedDecimal data.toInt
  | double data => printDouble data
  | bool data => if data then str "true" else str "false"
  | struct _ names _ values =>
    [chr '{'] ++ writeItems [] (List.ofFn fun i =>
      escape (names i) ++ str ":" ++ (values i).toStdString printDouble) ++ [chr '}']
  | array _ items =>
    [chr '['] ++ writeItems [] (List.ofFn fun i => (items i).toStdString printDouble) ++ [chr ']']

/-- The names of a struct, by their place. -/
def nameAt (data : StdMap Bytes Ref) (i : Fin data.toList.length) : Bytes := (data.toList.get i).1

/-- `std::map` iterates in ascending order. -/
theorem nameAt_ascending (data : StdMap Bytes Ref) (i j : Fin data.toList.length) (h : i < j) :
    nameAt data i < nameAt data j :=
  compare_eq_lt.mp (List.pairwise_iff_get.mp Std.ExtTreeMap.ordered_keys_toList i j h)

/-- `v` unfolds to the tree, through the objects that `deref` finds. -/
inductive Unfolds (deref : Ref → Option (Node Double)) : Ref → Tree Double → Prop
  | null {v : Ref} (h : deref v = some .null) : Unfolds deref v .null
  | string {v : Ref} {data : Bytes} (h : deref v = some (.string data)) :
    Unfolds deref v (.string data)
  | int {v : Ref} {data : Int64} (h : deref v = some (.int data)) : Unfolds deref v (.int data)
  | double {v : Ref} {data : Double} (h : deref v = some (.double data)) :
    Unfolds deref v (.double data)
  | bool {v : Ref} {data : Bool} (h : deref v = some (.bool data)) : Unfolds deref v (.bool data)
  | struct {v : Ref} {data : StdMap Bytes Ref} {values : Fin data.toList.length → Tree Double}
    (h : deref v = some (.struct data))
    (hvalues : ∀ i, Unfolds deref (data.toList.get i).2 (values i)) :
    Unfolds deref v (.struct data.toList.length (nameAt data) (nameAt_ascending data) values)
  | array {v : Ref} {data : List Ref} {items : Fin data.length → Tree Double}
    (h : deref v = some (.array data)) (hitems : ∀ i, Unfolds deref (data.get i) (items i)) :
    Unfolds deref v (.array data.length items)

variable {printDouble : Double → Bytes} {pool : Pool Double} {v : Ref}

namespace Unfolds

variable {deref : Ref → Option (Node Double)}

/-- A value unfolds to one tree. -/
theorem det {tree tree' : Tree Double} (h : Unfolds deref v tree) (h' : Unfolds deref v tree') :
    tree = tree' := by
  induction h generalizing tree' with
  | null h | string h | int h | double h | bool h =>
    cases h' <;> simp_all
  | struct h _ ih =>
    cases h' with
    | struct h' hvalues' =>
      obtain rfl := Node.struct.inj (Option.some.inj (h.symm.trans h'))
      congr
      funext i
      exact ih i (hvalues' i)
    | null h' | string h' | int h' | double h' | bool h' | array h' =>
      exact absurd (h.symm.trans h') (by simp)
  | array h _ ih =>
    cases h' with
    | array h' hitems' =>
      obtain rfl := Node.array.inj (Option.some.inj (h.symm.trans h'))
      congr
      funext i
      exact ih i (hitems' i)
    | null h' | string h' | int h' | double h' | bool h' | struct h' =>
      exact absurd (h.symm.trans h') (by simp)

/-- What unfolds has no infinite descent. -/
theorem acc {tree : Tree Double} (h : Unfolds pool.deref v tree) :
    Acc (flip (Recursion.Calls pool.members)) v := by
  induction h with
  | null h | string h | int h | double h | bool h =>
    refine Acc.intro _ fun m hm => ?_
    have hm : m ∈ _ := hm
    rw [Pool.members_of_deref h] at hm
    exact absurd hm List.not_mem_nil
  | struct h _ ih =>
    refine Acc.intro _ fun m hm => ?_
    have hm : m ∈ _ := hm
    rw [Pool.members_of_deref h] at hm
    obtain ⟨member, hmem, rfl⟩ := List.mem_map.mp hm
    obtain ⟨i, rfl⟩ := List.get_of_mem hmem
    exact ih i
  | array h _ ih =>
    refine Acc.intro _ fun m hm => ?_
    have hm : m ∈ _ := hm
    rw [Pool.members_of_deref h] at hm
    obtain ⟨i, rfl⟩ := List.get_of_mem hm
    exact ih i

end Unfolds

/-- **What is printed**: the text of the tree the value unfolds to. -/
theorem exists_tree_of_returns {text : Bytes}
    (h : Recursion.Returns (pool.convert printDouble) v text) :
    ∃ tree, Unfolds pool.deref v tree ∧ tree.toStdString printDouble = text := by
  refine Recursion.Returns.induction (P := fun v text => ∃ tree, Unfolds pool.deref v tree ∧
    tree.toStdString printDouble = text) ?_ h
  intro self hself v text hbody
  cases hnode : pool.deref v with
  | none =>
    rw [Pool.convert, hnode] at hbody
    exact absurd hbody (Option.some_ne_none _).symm
  | some node =>
    have hcalls := (((pool.callsOnly_convert printDouble).isSome_iff self v).mp
      (Option.isSome_of_eq_some hbody)).2
    rw [Pool.members_of_deref hnode] at hcalls
    -- What `self` has converted is, by induction, the text of a tree.
    have htree : ∀ m ∈ node.refs, ∃ tree, Unfolds pool.deref m tree ∧
        self m = some (tree.toStdString printDouble) := by
      intro m hm
      obtain ⟨w, hw⟩ := Option.isSome_iff_exists.mp (hcalls m hm)
      obtain ⟨tree, hunfolds, rfl⟩ := hself m w hw
      exact ⟨tree, hunfolds, hw⟩
    rw [Pool.convert, hnode] at hbody
    cases node with
    | null => exact ⟨_, .null hnode, Option.some.inj hbody⟩
    | string data => exact ⟨_, .string hnode, Option.some.inj hbody⟩
    | int data => exact ⟨_, .int hnode, Option.some.inj hbody⟩
    | double data => exact ⟨_, .double hnode, Option.some.inj hbody⟩
    | bool data => exact ⟨_, .bool hnode, Option.some.inj hbody⟩
    | struct data =>
      have hvalue : ∀ i, ∃ tree, Unfolds pool.deref (data.toList.get i).2 tree ∧
          self (data.toList.get i).2 = some (tree.toStdString printDouble) := by
        intro i
        exact htree _ (List.mem_map.mpr ⟨_, List.get_mem data.toList i, rfl⟩)
      choose values hunfolds htext using hvalue
      have hmember : ∀ i, writeMember self (data.toList.get i) =
          some (escape (nameAt data i) ++ str ":" ++ (values i).toStdString printDouble) := by
        intro i
        rw [writeMember, htext i]
        rfl
      simp only [writeEach_eq hmember] at hbody
      exact ⟨_, .struct hnode hunfolds, Option.some.inj hbody⟩
    | array data =>
      have hitem : ∀ i, ∃ tree, Unfolds pool.deref (data.get i) tree ∧
          self (data.get i) = some (tree.toStdString printDouble) := by
        intro i
        exact htree _ (List.get_mem data i)
      choose items hunfolds htext using hitem
      simp only [writeEach_eq htext] at hbody
      exact ⟨_, .array hnode hunfolds, Option.some.inj hbody⟩

/-- Everything reached from a value of the pool is a value of the pool. -/
theorem in_of_reaches {u : Ref} (hv : v.In pool.values.length)
    (h : Relation.ReflTransGen (Recursion.Calls pool.members) v u) : u.In pool.values.length := by
  cases h with
  | refl => exact hv
  | tail _ hmem => exact Pool.in_of_mem_members hmem

theorem finite_reached (hv : v.In pool.values.length) :
    {u | Relation.ReflTransGen (Recursion.Calls pool.members) v u}.Finite := by
  have hfinite : ({.null} ∪ Ref.value '' {index | index < pool.values.length}).Finite :=
    (Set.finite_singleton _).union ((Set.finite_lt_nat _).image _)
  refine hfinite.subset fun u hu => ?_
  have hin : u.In pool.values.length := in_of_reaches hv hu
  cases u with
  | null => exact Or.inl rfl
  | value index => exact Or.inr ⟨index, hin, rfl⟩

/-- `v` is converted to the text of the tree it unfolds to, if there is one. -/
theorem returns_iff (hv : v.In pool.values.length) {text : Bytes} :
    Recursion.Returns (pool.convert printDouble) v text ↔
      ∃ tree, Unfolds pool.deref v tree ∧ tree.toStdString printDouble = text := by
  constructor
  · exact exists_tree_of_returns
  · rintro ⟨tree, hunfolds, rfl⟩
    have hcalls := pool.callsOnly_convert printDouble
    have hterminates : Recursion.Terminates (pool.convert printDouble) v :=
      (Recursion.terminates_iff_acc hcalls fun u hu => in_of_reaches hv hu).mpr hunfolds.acc
    -- It returns some text, which is that of a tree, and there is only one.
    obtain ⟨text, htext⟩ := hterminates
    obtain ⟨tree', hunfolds', rfl⟩ := exists_tree_of_returns htext
    rw [hunfolds.det hunfolds']
    exact htext

/-- **The conversion terminates exactly on acyclic values.**  After any calls on a pool, converting
    `v` terminates exactly when no value reached from it reaches itself; what it prints is the tree
    that `v` unfolds to, each container with everything appended to it, early or late. -/
theorem conversion_terminates_iff (printDouble : Double → Bytes) {calls : List (Call Double)}
    {pool : Pool Double} (hrun : Transition.exec step Pool.empty calls = some pool) {v : Ref}
    (hv : v.In pool.values.length) :
    (Recursion.Terminates (pool.convert printDouble) v ↔
        ∀ u, Relation.ReflTransGen (Recursion.Calls pool.members) v u →
          ¬ Relation.TransGen (Recursion.Calls pool.members) u u) ∧
      ∀ text, Recursion.Returns (pool.convert printDouble) v text ↔
        ∃ tree, Unfolds (finalDeref calls) v tree ∧ tree.toStdString printDouble = text := by
  have hcalls := pool.callsOnly_convert printDouble
  constructor
  · exact Recursion.terminates_iff_acyclic hcalls (fun u hu => in_of_reaches hv hu)
      (finite_reached hv)
  · intro text
    rw [← funext (deref_exec hrun)]
    exact returns_iff hv

/-- A member that gets its own member later. -/
def lateMember : List (Call Empty) :=
  [.array, .array, .pushBack (.value 0) (.value 1), .string (str "a"),
    .pushBack (.value 1) (.value 2)]

theorem conversion_terminates_late : ∃ (pool : Pool Empty) (tree : Tree Empty),
    Transition.exec step Pool.empty lateMember = some pool ∧
    (∀ u, Relation.ReflTransGen (Recursion.Calls pool.members) (.value 0) u →
      ¬ Relation.TransGen (Recursion.Calls pool.members) u u) ∧
    Unfolds (finalDeref lateMember) (.value 0) tree ∧
    tree.toStdString Empty.elim = str "[[\"a\"]]" := by
  obtain ⟨hterminates, htree⟩ :=
    @conversion_terminates_iff Empty Empty.elim lateMember _ rfl (.value 0) (by decide)
  obtain ⟨tree, hunfolds, htext⟩ := (htree (str "[[\"a\"]]")).mp ⟨3, rfl⟩
  exact ⟨_, tree, rfl, hterminates.mp ⟨_, 3, rfl⟩, hunfolds, htext⟩

/-! ## Pools without floating-point numbers -/

/-- A value with everything it points to, as a tree. -/
def Value.toTree : Value → Tree Double
  | null => .null
  | bool data => .bool data
  | int data => .int data
  | string data => .string data
  | struct names ascending values =>
    .struct names.length names.get (List.pairwise_iff_get.mp ascending) fun i => (values i).toTree
  | array size items => .array size fun i => (items i).toTree

theorem toStdString_toTree (value : Value) :
    (value.toTree : Tree Double).toStdString printDouble = value.toStdString := by
  induction value with
  | null | bool data | int data | string data => rfl
  | struct names ascending values ih =>
    rw [Value.toTree, Tree.toStdString, Value.toStdString]
    simp only [ih]
  | array size items ih =>
    rw [Value.toTree, Tree.toStdString, Value.toStdString]
    simp only [ih]

/-- **The pool prints what its values print**: a reference that unfolds to a value without a
    `double` is converted to the text of that value. -/
theorem returns_toStdString (hv : v.In pool.values.length) {value : Value}
    (h : Unfolds pool.deref v value.toTree) :
    Recursion.Returns (pool.convert printDouble) v value.toStdString :=
  (returns_iff hv).mpr ⟨value.toTree, h, toStdString_toTree value⟩

/-! ## Objects -/

/-- Different names print differently. -/
theorem escape_injective : Function.Injective escape := by
  intro name name' h
  have hread : ∀ name, readString (fun _ => true) (escape name ++ []) = some (name, []) := by
    intro name
    exact readString_complete (stringLiteral_escape fun c _ => Or.inr rfl) []
  have hsame := hread name
  rw [h, hread name'] at hsame
  exact (Prod.mk.inj (Option.some.inj hsame)).1.symm

/-- A struct is created empty. -/
theorem eq_empty_of_mem_creations {calls : List (Call Double)} {data : StdMap Bytes Ref}
    (h : .struct data ∈ creations calls) : data = ∅ := by
  obtain ⟨call, -, hcall⟩ := List.mem_filterMap.mp h
  cases call with
  | struct => exact (Node.struct.inj (Option.some.inj hcall)).symm
  | null | append target name value | pushBack target value =>
    exact absurd hcall (Option.some_ne_none _).symm
  | string data | int data | double data | bool data | array =>
    exact absurd (Option.some.inj hcall) (by simp)

/-- What a struct holds in the end. -/
theorem struct_data {calls : List (Call Double)}
    (hrun : Transition.exec step Pool.empty calls = some pool) {data : StdMap Bytes Ref}
    (hdata : pool.deref v = some (.struct data)) :
    data = StdMap.assignAll ∅ (appended v calls) := by
  rw [deref_exec hrun] at hdata
  cases v with
  | null => exact absurd (Option.some.inj hdata) (by simp)
  | value index =>
    obtain ⟨node, hnode, hafter⟩ := Option.map_eq_some_iff.mp hdata
    cases node with
    | struct data₀ =>
      rw [eq_empty_of_mem_creations (List.mem_of_getElem? hnode)] at hafter
      exact (Node.struct.inj hafter).symm
    | null | string data | int data | double data | bool data | array data =>
      exact absurd hafter (by simp [Node.after])

theorem getElem?_struct_data {calls : List (Call Double)}
    (hrun : Transition.exec step Pool.empty calls = some pool) {data : StdMap Bytes Ref}
    (hdata : pool.deref v = some (.struct data)) (name : Bytes) :
    data[name]? = StdMap.lastBinding (appended v calls) name := by
  rw [struct_data hrun hdata, StdMap.getElem?_assignAll, Std.ExtTreeMap.getElem?_empty,
    Option.or_none]

/-- The calls whose order does not show. -/
def Call.isAppend : Call Double → Bool
  | .append _ _ _ => true
  | _ => false

theorem creations_filter (calls : List (Call Double)) :
    creations (calls.filter (!·.isAppend)) = creations calls := by
  rw [creations, creations, List.filterMap_filter]
  congr
  funext call
  cases call <;> rfl

theorem pushed_filter (a : Ref) (calls : List (Call Double)) :
    pushed a (calls.filter (!·.isAppend)) = pushed a calls := by
  rw [pushed, pushed, List.filterMap_filter]
  congr
  funext call
  cases call <;> rfl

/-- The calls to `append` may come in any order and be interleaved with the others in any way. -/
theorem finalDeref_eq {calls calls' : List (Call Double)}
    (hothers : calls'.filter (!·.isAppend) = calls.filter (!·.isAppend))
    (hlast : ∀ s name, StdMap.lastBinding (appended s calls') name =
      StdMap.lastBinding (appended s calls) name) : finalDeref calls' = finalDeref calls := by
  funext v
  cases v with
  | null => rfl
  | value index =>
    have hcreations : creations calls' = creations calls := by
      rw [← creations_filter, hothers, creations_filter]
    have hpushed : pushed (.value index) calls' = pushed (.value index) calls := by
      rw [← pushed_filter, hothers, pushed_filter]
    have hafter : Node.after (.value index) calls' = Node.after (.value index) calls := by
      funext node
      cases node with
      | struct data => exact congrArg Node.struct (StdMap.assignAll_eq (hlast (.value index)))
      | array data => exact congrArg (fun items => Node.array (data ++ items)) hpushed
      | null | string data | int data | double data | bool data => rfl
    rw [finalDeref, finalDeref, hcreations, hafter]

theorem convert_eq_of_deref {pool pool' : Pool Double} (h : pool'.deref = pool.deref) :
    pool'.convert printDouble = pool.convert printDouble := by
  funext self v
  rw [Pool.convert, Pool.convert, h]

/-- An object as its members, each with its name and the text of its value. -/
def objectText (members : List (Bytes × Bytes)) : Bytes :=
  [chr '{'] ++ [chr ','].intercalate (members.map fun m => escape m.1 ++ str ":" ++ m.2) ++
    [chr '}']

/-- The members of an object, in the order of the loop. -/
theorem exists_members {data : StdMap Bytes Ref} (hdata : pool.deref v = some (.struct data))
    {text : Bytes} (h : Recursion.Returns (pool.convert printDouble) v text) :
    ∃ texts : Fin data.toList.length → Bytes,
      text = objectText (List.ofFn fun i => (nameAt data i, texts i)) ∧
        ∀ i, Recursion.Returns (pool.convert printDouble) (data.toList.get i).2 (texts i) := by
  obtain ⟨tree, hunfolds, rfl⟩ := exists_tree_of_returns h
  cases hunfolds with
  | @struct _ data' values hdata' hvalues =>
    obtain rfl := Node.struct.inj (Option.some.inj (hdata.symm.trans hdata'))
    refine ⟨fun i => (values i).toStdString printDouble, ?_, fun i => ?_⟩
    · rw [objectText, List.map_ofFn, ← writeItems_eq]
      rfl
    · refine (returns_iff ?_).mpr ⟨values i, hvalues i, rfl⟩
      refine Pool.in_of_mem_members (v := v) ?_
      rw [Pool.members_of_deref hdata]
      exact List.mem_map.mpr ⟨_, List.get_mem data.toList i, rfl⟩
  | null hother | string hother | int hother | double hother | bool hother | array hother =>
    exact absurd (hdata.symm.trans hother) (by simp)

/-- The names of an object are those appended to it, each once and ascending; each has the text of
    the last value appended under it. -/
theorem exists_last_members {calls : List (Call Double)} {pool : Pool Double}
    (hrun : Transition.exec step Pool.empty calls = some pool) {s : Ref} {data : StdMap Bytes Ref}
    (hs : pool.deref s = some (.struct data)) {text : Bytes}
    (htext : Recursion.Returns (pool.convert printDouble) s text) :
    ∃ members : List (Bytes × Bytes), text = objectText members ∧
      (members.map (·.1)).Pairwise (· < ·) ∧
      (members.map fun m => escape m.1).Nodup ∧
      (∀ name, name ∈ members.map (·.1) ↔ ∃ value, (name, value) ∈ appended s calls) ∧
      ∀ m ∈ members, ∃ value, StdMap.lastBinding (appended s calls) m.1 = some value ∧
        Recursion.Returns (pool.convert printDouble) value m.2 := by
  obtain ⟨texts, rfl, hreturns⟩ := exists_members hs htext
  have hnames : (List.ofFn fun i => (nameAt data i, texts i)).map (·.1) =
      List.ofFn (nameAt data) := by
    rw [List.map_ofFn]
    rfl
  have hascending : (List.ofFn (nameAt data)).Pairwise (· < ·) :=
    List.pairwise_ofFn.mpr fun i j hij => nameAt_ascending data i j hij
  have hlookup : ∀ i, data[nameAt data i]? = some (data.toList.get i).2 := fun i =>
    Std.ExtTreeMap.mem_toList_iff_getElem?_eq_some.mp (List.get_mem data.toList i)
  refine ⟨_, rfl, ?_, ?_, ?_, ?_⟩
  · rw [hnames]
    exact hascending
  · -- Ascending names are different, and escaping keeps them apart.
    have hmap : (List.ofFn fun i => (nameAt data i, texts i)).map (fun m => escape m.1) =
        (List.ofFn (nameAt data)).map escape := by
      rw [← hnames, List.map_map]
      rfl
    rw [hmap]
    refine List.Nodup.map escape_injective (hascending.imp fun {a b} hlt => ?_)
    rintro rfl
    exact List.lt_irrefl a hlt
  · intro name
    rw [hnames, List.mem_ofFn, ← StdMap.lastBinding_isSome, ← getElem?_struct_data hrun hs]
    constructor
    · rintro ⟨i, rfl⟩
      rw [hlookup i]
      rfl
    · intro hsome
      obtain ⟨value, hvalue⟩ := Option.isSome_iff_exists.mp hsome
      obtain ⟨i, hi⟩ :=
        List.get_of_mem (Std.ExtTreeMap.mem_toList_iff_getElem?_eq_some.mpr hvalue)
      exact ⟨i, congrArg Prod.fst hi⟩
  · intro m hm
    obtain ⟨i, rfl⟩ := List.mem_ofFn.mp hm
    refine ⟨(data.toList.get i).2, ?_, hreturns i⟩
    rw [← getElem?_struct_data hrun hs]
    exact hlookup i

/-- An object is converted if the last value of each name is. -/
theorem terminates_struct_iff {calls : List (Call Double)} {pool : Pool Double}
    (hrun : Transition.exec step Pool.empty calls = some pool) {s : Ref} {data : StdMap Bytes Ref}
    (hs : pool.deref s = some (.struct data)) :
    Recursion.Terminates (pool.convert printDouble) s ↔
      ∀ name value, StdMap.lastBinding (appended s calls) name = some value →
        Recursion.Terminates (pool.convert printDouble) value := by
  have hin : s.In pool.values.length := Pool.deref_isSome.mp (by rw [hs]; rfl)
  rw [Recursion.terminates_iff_calls (pool.callsOnly_convert printDouble) hin,
    Pool.members_of_deref hs]
  constructor
  · intro h name value hvalue
    rw [← getElem?_struct_data hrun hs] at hvalue
    exact h value (List.mem_map.mpr
      ⟨_, Std.ExtTreeMap.mem_toList_iff_getElem?_eq_some.mpr hvalue, rfl⟩)
  · intro h m hm
    obtain ⟨⟨name, value⟩, hmem, rfl⟩ := List.mem_map.mp hm
    refine h name value ?_
    rw [← getElem?_struct_data hrun hs]
    exact Std.ExtTreeMap.mem_toList_iff_getElem?_eq_some.mp hmem

/-- Objects with the same last values are converted to the same text. -/
theorem run_eq_of_lastBinding {calls : List (Call Double)} {pool : Pool Double}
    (hrun : Transition.exec step Pool.empty calls = some pool) {s s' : Ref}
    {data data' : StdMap Bytes Ref} (hs : pool.deref s = some (.struct data))
    (hs' : pool.deref s' = some (.struct data'))
    (hlast : ∀ name, StdMap.lastBinding (appended s' calls) name =
      StdMap.lastBinding (appended s calls) name) (fuel : Nat) :
    Recursion.run (pool.convert printDouble) fuel s' =
      Recursion.run (pool.convert printDouble) fuel s := by
  have hdata : data' = data := by
    rw [struct_data hrun hs, struct_data hrun hs']
    exact StdMap.assignAll_eq hlast
  cases fuel with
  | zero => rfl
  | succ fuel =>
    show pool.convert printDouble _ s' = pool.convert printDouble _ s
    rw [Pool.convert, Pool.convert, hs, hs', hdata]

/-- **An object shows the last value of each name, in byte order.**  After any calls on a pool, a
    struct is printed with each name appended to it once, ascending, and with the text of the last
    value appended under that name; different names print differently.  It is printed whenever these
    last values are.  So structs with the same last values print the same bytes, and so does
    everything in a pool after the same calls with those to `append` in another order. -/
theorem struct_conversion (printDouble : Double → Bytes) {calls : List (Call Double)}
    {pool : Pool Double} (hrun : Transition.exec step Pool.empty calls = some pool) {s : Ref}
    {data : StdMap Bytes Ref} (hs : pool.deref s = some (.struct data)) :
    (∀ text, Recursion.Returns (pool.convert printDouble) s text →
      ∃ members : List (Bytes × Bytes), text = objectText members ∧
        (members.map (·.1)).Pairwise (· < ·) ∧
        (members.map fun m => escape m.1).Nodup ∧
        (∀ name, name ∈ members.map (·.1) ↔ ∃ value, (name, value) ∈ appended s calls) ∧
        ∀ m ∈ members, ∃ value, StdMap.lastBinding (appended s calls) m.1 = some value ∧
          Recursion.Returns (pool.convert printDouble) value m.2) ∧
    (Recursion.Terminates (pool.convert printDouble) s ↔
      ∀ name value, StdMap.lastBinding (appended s calls) name = some value →
        Recursion.Terminates (pool.convert printDouble) value) ∧
    (∀ s' data', pool.deref s' = some (.struct data') →
      (∀ name, StdMap.lastBinding (appended s' calls) name =
        StdMap.lastBinding (appended s calls) name) →
      ∀ fuel, Recursion.run (pool.convert printDouble) fuel s' =
        Recursion.run (pool.convert printDouble) fuel s) ∧
    ∀ calls' pool', Transition.exec step Pool.empty calls' = some pool' →
      calls'.filter (!·.isAppend) = calls.filter (!·.isAppend) →
      (∀ r name, StdMap.lastBinding (appended r calls') name =
        StdMap.lastBinding (appended r calls) name) →
      ∀ fuel v, Recursion.run (pool'.convert printDouble) fuel v =
        Recursion.run (pool.convert printDouble) fuel v := by
  refine ⟨fun text htext => ?_, terminates_struct_iff hrun hs,
    fun s' data' hs' hlast fuel => ?_, fun calls' pool' hrun' hothers hlast fuel v => ?_⟩
  · exact exists_last_members hrun hs htext
  · exact run_eq_of_lastBinding hrun hs hs' hlast fuel
  · have hderef : pool'.deref = pool.deref := by
      rw [funext (deref_exec hrun'), funext (deref_exec hrun)]
      exact finalDeref_eq hothers hlast
    rw [convert_eq_of_deref hderef]

/-- Two names, the second one appended twice. -/
def twoNames : List (Call Empty) :=
  [.struct, .append (.value 0) (str "b") .null, .bool true, .append (.value 0) (str "a") .null,
    .append (.value 0) (str "a") (.value 1)]

theorem struct_conversion_two : ∃ (pool : Pool Empty) (data : StdMap Bytes Ref),
    Transition.exec step Pool.empty twoNames = some pool ∧
    pool.deref (.value 0) = some (.struct data) ∧
    ∃ members : List (Bytes × Bytes),
      str "\x7b\"a\":true,\"b\":null\x7d" = objectText members ∧
      (members.map (·.1)).Pairwise (· < ·) := by
  refine ⟨_, _, rfl, rfl, ?_⟩
  obtain ⟨members, htext, hascending, -⟩ :=
    (@struct_conversion Empty Empty.elim twoNames _ rfl (.value 0) _ rfl).1
      (str "\x7b\"a\":true,\"b\":null\x7d") ⟨2, rfl⟩
  exact ⟨members, htext, hascending⟩

end ThreadServer.JSON
