/-
  The memory of JSON values (`Pool_t` in `json.cc`): who deletes what, when several pools live side
  by side, and which pointers may then be followed.

  1. **Program** — a method of a pool allocates an object, gives it to an `auto_ptr`, enters it into
     the pool's list and only then releases it; any of the allocations may throw.  A pool deletes
     what is in its list.  A container deletes nothing: it points to values of whatever pool.
  2. **The books** (`Balanced`) — the objects deleted so far and those in the lists of the pools
     that are left make up all objects, each once: nothing is lost, nothing is deleted twice.
  3. **Pointers** (`Safe`) — what the conversion of a live value reads is alive; exactly if no pool
     is destroyed while a container elsewhere points into it (`lifetimes`).  That is so where
     containers are only given values whose pool outlives their own.

  An object goes by the number of its allocation, so a pointer to a deleted object stays one even if
  the allocator has used its address again.
-/
import ThreadServer.JsonPool

namespace ThreadServer.JSON

open Bytes Transition

variable {Double : Type}

/-! ## The program -/

/-- An object as its constructor leaves it. -/
abbrev NewNode (Double : Type) := { node : Node Double // node.refs = [] }

namespace Node

@[simp] theorem refs_string (data : Bytes) : (string data : Node Double).refs = [] := rfl
@[simp] theorem refs_int (data : Int64) : (int data : Node Double).refs = [] := rfl
@[simp] theorem refs_double (data : Double) : (double data).refs = [] := rfl
@[simp] theorem refs_bool (data : Bool) : (bool data : Node Double).refs = [] := rfl
@[simp] theorem refs_array (data : List Ref) : (array data : Node Double).refs = data := rfl

end Node

/-- What the allocations of a pool's method come to. -/
inductive Alloc
  | newThrows
  | listThrows
  | succeeds

/-- The objects of a `Pool_t`: its member `null`, and those in its list `values`. -/
structure PoolMemory where
  null : Nat
  values : List Nat

/-- `~Pool_t` deletes the list's objects one by one; then its members are destroyed. -/
def PoolMemory.destroyed (memory : PoolMemory) : List Nat := memory.values ++ [memory.null]

/-- The memory of a program. -/
structure Heap (Double : Type) where
  /-- All objects there have ever been, with the pointers in them. -/
  objects : Pool Double
  /-- The destructors that have run, in order. -/
  deleted : List Nat
  /-- The pools, in the order of their construction; `none` if it has been destroyed. -/
  pools : List (Option PoolMemory)

namespace Heap

/-- Before the first pool. -/
def empty : Heap Double where
  objects := .empty
  deleted := []
  pools := []

/-- The number of the next object. -/
def fresh (heap : Heap Double) : Nat := heap.objects.values.length

/-- `new`. -/
def allocate (heap : Heap Double) (node : NewNode Double) : Heap Double :=
  { heap with objects := heap.objects.add node.1 node.2 }

/-- `Pool_t::Pool_t`. -/
def newPool (heap : Heap Double) : Heap Double :=
  { heap.allocate ⟨.null, rfl⟩ with
    pools := heap.pools ++ [some { null := heap.fresh, values := [] }] }

/-- The methods of pool `p` that create an object: `String`, `Int`, `Double`, `Bool`, `Struct` and
    `Array`. -/
def make (heap : Heap Double) (p : Nat) (memory : PoolMemory) (node : NewNode Double) :
    Alloc → Heap Double
  | .newThrows => heap
  | .listThrows => { heap.allocate node with deleted := heap.deleted ++ [heap.fresh] }
  | .succeeds =>
    { heap.allocate node with
      pools := heap.pools.set p
        (some { memory with values := memory.values ++ [heap.fresh] }) }

/-- `Pool_t::~Pool_t`. -/
def destroyPool (heap : Heap Double) (p : Nat) (memory : PoolMemory) : Heap Double :=
  { heap with deleted := heap.deleted ++ memory.destroyed, pools := heap.pools.set p none }

/-- The object has been constructed and not destroyed. -/
def Live (heap : Heap Double) : Ref → Prop
  | .null => False
  | .value index => index < heap.fresh ∧ index ∉ heap.deleted

instance (heap : Heap Double) : (v : Ref) → Decidable (heap.Live v)
  | .null => inferInstanceAs (Decidable False)
  | .value _ => inferInstanceAs (Decidable (_ ∧ _))

end Heap

/-- What a program does with its pools, and how the allocations end. -/
inductive HeapCall (Double : Type)
  | newPool
  | make (p : Nat) (node : NewNode Double) (alloc : Alloc)
  | append (target : Ref) (name : Bytes) (value : Ref) (inserted : Bool)
  | pushBack (target value : Ref) (inserted : Bool)
  | destroyPool (p : Nat)

namespace HeapCall

/-- `Pool_t::String`. -/
def string (p : Nat) (data : Bytes) (alloc : Alloc) : HeapCall Double :=
  .make p ⟨.string data, Node.refs_string data⟩ alloc

/-- `Pool_t::Int`. -/
def int (p : Nat) (data : Int64) (alloc : Alloc) : HeapCall Double :=
  .make p ⟨.int data, Node.refs_int data⟩ alloc

/-- `Pool_t::Double`. -/
def double (p : Nat) (data : Double) (alloc : Alloc) : HeapCall Double :=
  .make p ⟨.double data, Node.refs_double data⟩ alloc

/-- `Pool_t::Bool`. -/
def bool (p : Nat) (data : Bool) (alloc : Alloc) : HeapCall Double :=
  .make p ⟨.bool data, Node.refs_bool data⟩ alloc

/-- `Pool_t::Struct`. -/
def struct (p : Nat) (alloc : Alloc) : HeapCall Double :=
  .make p ⟨.struct ∅, Node.refs_struct_empty⟩ alloc

/-- `Pool_t::Array`. -/
def array (p : Nat) (alloc : Alloc) : HeapCall Double :=
  .make p ⟨.array [], Node.refs_array []⟩ alloc

end HeapCall

namespace Heap

/-- One call.  A program calls methods of pools and objects that exist, and passes references to
    objects that do.  The insertion into a map or a vector may throw, and then leaves it alone. -/
def next (heap : Heap Double) : HeapCall Double → Option (Heap Double)
  | .newPool => some heap.newPool
  | .make p node alloc =>
    match heap.pools[p]? with
    | some (some memory) => some (heap.make p memory node alloc)
    | _ => none
  | .append target name value inserted =>
    if heap.Live target ∧ heap.Live value then
      (heap.objects.append target name value).map fun objects =>
        if inserted then { heap with objects } else heap
    else none
  | .pushBack target value inserted =>
    if heap.Live target ∧ heap.Live value then
      (heap.objects.pushBack target value).map fun objects =>
        if inserted then { heap with objects } else heap
    else none
  | .destroyPool p =>
    match heap.pools[p]? with
    | some (some memory) => some (heap.destroyPool p memory)
    | _ => none

/-- What a call does. -/
inductive Step (heap : Heap Double) : HeapCall Double → Heap Double → Prop
  | newPool : Step heap .newPool heap.newPool
  | make {p : Nat} {memory : PoolMemory} {node : NewNode Double} {alloc : Alloc} :
      heap.pools[p]? = some (some memory) →
      Step heap (.make p node alloc) (heap.make p memory node alloc)
  | append {target value : Ref} {name : Bytes} {objects : Pool Double} :
      heap.Live target → heap.Live value → heap.objects.append target name value = some objects →
      Step heap (.append target name value true) { heap with objects }
  | pushBack {target value : Ref} {objects : Pool Double} :
      heap.Live target → heap.Live value → heap.objects.pushBack target value = some objects →
      Step heap (.pushBack target value true) { heap with objects }
  | appendThrows {target value : Ref} {name : Bytes} :
      Step heap (.append target name value false) heap
  | pushBackThrows {target value : Ref} : Step heap (.pushBack target value false) heap
  | destroyPool {p : Nat} {memory : PoolMemory} : heap.pools[p]? = some (some memory) →
      Step heap (.destroyPool p) (heap.destroyPool p memory)

theorem step_of_next {heap heap' : Heap Double} {call : HeapCall Double}
    (h : next heap call = some heap') : Step heap call heap' := by
  cases call with
  | newPool =>
    obtain rfl := Option.some.inj h
    exact .newPool
  | make p node alloc =>
    simp only [next] at h
    split at h
    · rename_i hmemory
      obtain rfl := Option.some.inj h
      exact .make hmemory
    · cases h
  | append target name value inserted =>
    simp only [next] at h
    split at h
    · rename_i hlive
      obtain ⟨objects, happend, rfl⟩ := Option.map_eq_some_iff.mp h
      cases inserted with
      | true => exact .append hlive.1 hlive.2 happend
      | false => exact .appendThrows
    · cases h
  | pushBack target value inserted =>
    simp only [next] at h
    split at h
    · rename_i hlive
      obtain ⟨objects, happend, rfl⟩ := Option.map_eq_some_iff.mp h
      cases inserted with
      | true => exact .pushBack hlive.1 hlive.2 happend
      | false => exact .pushBackThrows
    · cases h
  | destroyPool p =>
    simp only [next] at h
    split at h
    · rename_i hmemory
      obtain rfl := Option.some.inj h
      exact .destroyPool hmemory
    · cases h

/-! ## Objects and their members -/

end Heap

namespace Pool

variable {pool pool' : Pool Double} {target value v m : Ref}

theorem length_append {name : Bytes} (h : pool.append target name value = some pool') :
    pool'.values.length = pool.values.length := by
  obtain ⟨index, data, -, -, hvalues⟩ := append_eq_some h
  rw [hvalues, List.length_set]

theorem length_pushBack (h : pool.pushBack target value = some pool') :
    pool'.values.length = pool.values.length := by
  obtain ⟨index, data, -, -, hvalues⟩ := pushBack_eq_some h
  rw [hvalues, List.length_set]

/-- A new object points nowhere. -/
theorem members_add {node : Node Double} (hrefs : node.refs = [])
    (h : m ∈ (pool.add node hrefs).members v) : m ∈ pool.members v := by
  cases v with
  | null => exact h
  | value index =>
    have hderef : (pool.add node hrefs).deref (.value index) =
        (pool.values ++ [node])[index]? := rfl
    by_cases hlt : index < pool.values.length
    · rw [List.getElem?_append_left hlt] at hderef
      rw [members, hderef] at h
      exact h
    · cases hnode : (pool.values ++ [node])[index]? with
      | none =>
        rw [members, hderef, hnode] at h
        exact absurd h List.not_mem_nil
      | some node' =>
        rw [members_of_deref (hderef.trans hnode)] at h
        rw [List.getElem?_append_right (Nat.le_of_not_lt hlt)] at hnode
        obtain rfl := List.mem_singleton.mp (List.mem_of_getElem? hnode)
        rw [hrefs] at h
        exact absurd h List.not_mem_nil

/-- A container that is given a value points to that one, and where it has pointed before. -/
theorem members_set {index : Nat} {node node' : Node Double}
    (hnode : pool.values[index]? = some node) (hvalues : pool'.values = pool.values.set index node')
    (hrefs : ∀ m ∈ node'.refs, m ∈ node.refs ∨ m = value) (h : m ∈ pool'.members v) :
    m ∈ pool.members v ∨ v = .value index ∧ m = value := by
  cases v with
  | null => exact .inl h
  | value j =>
    have hderef : pool'.deref (.value j) = (pool.values.set index node')[j]? := by
      rw [← hvalues]
      rfl
    by_cases hj : j = index
    · subst hj
      obtain ⟨hlt, -⟩ := List.getElem?_eq_some_iff.mp hnode
      rw [List.getElem?_set_self hlt] at hderef
      rw [members_of_deref hderef] at h
      have hold : pool.members (.value j) = node.refs := members_of_deref hnode
      rw [hold]
      exact (hrefs m h).imp_right fun heq => ⟨rfl, heq⟩
    · rw [List.getElem?_set_ne (Ne.symm hj)] at hderef
      rw [members, hderef] at h
      exact .inl h

theorem members_append {name : Bytes} (happend : pool.append target name value = some pool')
    (h : m ∈ pool'.members v) : m ∈ pool.members v ∨ v = target ∧ m = value := by
  obtain ⟨index, data, rfl, hnode, hvalues⟩ := append_eq_some happend
  refine members_set hnode hvalues (fun m hm => ?_) h
  obtain ⟨⟨name', m'⟩, hmem, rfl⟩ := List.mem_map.mp hm
  have hfound := Std.ExtTreeMap.mem_toList_iff_getElem?_eq_some.mp hmem
  rw [Std.ExtTreeMap.getElem?_insert] at hfound
  split at hfound
  · exact .inr (Option.some.inj hfound).symm
  · have hold := Std.ExtTreeMap.mem_toList_iff_getElem?_eq_some.mpr hfound
    exact .inl (List.mem_map.mpr ⟨(name', m'), hold, rfl⟩)

theorem members_pushBack (hpushBack : pool.pushBack target value = some pool')
    (h : m ∈ pool'.members v) : m ∈ pool.members v ∨ v = target ∧ m = value := by
  obtain ⟨index, data, rfl, hnode, hvalues⟩ := pushBack_eq_some hpushBack
  refine members_set hnode hvalues (fun m hm => ?_) h
  exact (List.mem_append.mp hm).imp_right List.mem_singleton.mp

end Pool

namespace Heap

/-! ## The books -/

/-- The objects that the pools will destroy. -/
def held (heap : Heap Double) : List Nat :=
  heap.pools.flatMap fun pool => (pool.map PoolMemory.destroyed).getD []

/-- **Each object once**: destroyed, or to be destroyed by one pool. -/
def Balanced (heap : Heap Double) : Prop :=
  (heap.deleted ++ heap.held).Perm (List.range heap.fresh)

/-- One entry of a list of lists is replaced. -/
theorem perm_flatMap_set {α β : Type} [DecidableEq β] (f : α → List β) {l : List α} {p : Nat}
    {a : α} (h : l[p]? = some a) (b : α) :
    (f a ++ (l.set p b).flatMap f).Perm (f b ++ l.flatMap f) := by
  obtain ⟨hlt, rfl⟩ := List.getElem?_eq_some_iff.mp h
  have hbefore : l = l.take p ++ l[p] :: l.drop (p + 1) := by
    rw [← List.drop_eq_getElem_cons hlt, List.take_append_drop]
  have hafter : l.set p b = l.take p ++ b :: l.drop (p + 1) :=
    List.set_eq_take_append_cons_drop.trans (if_pos hlt)
  rw [hafter]
  conv_rhs => rw [hbefore]
  simp only [List.flatMap_append, List.flatMap_cons]
  generalize (l.take p).flatMap f = before
  generalize (l.drop (p + 1)).flatMap f = rest
  rw [List.perm_iff_count]
  intro x
  simp only [List.count_append]
  omega

variable {heap heap' : Heap Double}

theorem fresh_allocate (node : NewNode Double) : (heap.allocate node).fresh = heap.fresh + 1 :=
  List.length_append

/-- Another object, and it is accounted for. -/
theorem Balanced.allocate (h : heap.Balanced) {node : NewNode Double}
    (hobjects : heap'.objects = (heap.allocate node).objects)
    (hnew : (heap'.deleted ++ heap'.held).Perm (heap.fresh :: (heap.deleted ++ heap.held))) :
    heap'.Balanced := by
  have hfresh : heap'.fresh = heap.fresh + 1 := by
    rw [fresh, hobjects]
    exact fresh_allocate node
  rw [Balanced, hfresh, List.range_succ]
  exact hnew.trans ((h.cons heap.fresh).trans (List.perm_append_singleton _ _).symm)

theorem Balanced.of_fresh {objects : Pool Double} (h : heap.Balanced)
    (hlength : objects.values.length = heap.objects.values.length) :
    ({ heap with objects } : Heap Double).Balanced := by
  show (heap.deleted ++ heap.held).Perm (List.range objects.values.length)
  rw [hlength]
  exact h

theorem Balanced.next {call : HeapCall Double} (h : heap.Balanced)
    (hnext : next heap call = some heap') : heap'.Balanced := by
  cases step_of_next hnext with
  | newPool =>
    refine h.allocate rfl ?_
    show (heap.deleted ++ List.flatMap _ (heap.pools ++ [_])).Perm _
    rw [List.flatMap_append, ← List.append_assoc]
    exact List.perm_append_singleton _ _
  | @make p memory node alloc hmemory =>
    cases alloc with
    | newThrows => exact h
    | listThrows =>
      refine h.allocate rfl ?_
      show (heap.deleted ++ [heap.fresh] ++ heap.held).Perm _
      rw [List.append_assoc]
      exact List.perm_middle
    | succeeds =>
      refine h.allocate rfl ?_
      have hset := perm_flatMap_set (fun pool => (pool.map PoolMemory.destroyed).getD []) hmemory
        (some { memory with values := memory.values ++ [heap.fresh] })
      show (heap.deleted ++ (heap.pools.set p _).flatMap _).Perm
        (heap.fresh :: (heap.deleted ++ heap.pools.flatMap _))
      rw [List.perm_iff_count] at hset ⊢
      intro i
      have hcount := hset i
      simp only [PoolMemory.destroyed, Option.map_some, Option.getD_some, List.count_append,
        List.count_cons, List.count_nil] at hcount ⊢
      omega
  | append _ _ happend => exact h.of_fresh (Pool.length_append happend)
  | pushBack _ _ hpushBack => exact h.of_fresh (Pool.length_pushBack hpushBack)
  | appendThrows | pushBackThrows => exact h
  | @destroyPool p memory hmemory =>
    have hset := perm_flatMap_set (fun pool => (pool.map PoolMemory.destroyed).getD []) hmemory none
    show (heap.deleted ++ memory.destroyed ++ (heap.pools.set p none).flatMap _).Perm _
    rw [List.append_assoc]
    exact (hset.append_left heap.deleted).trans h

/-! ## Who owns what -/

/-- Pool `p` will destroy the object. -/
def Owns (heap : Heap Double) (p : Nat) : Ref → Prop
  | .null => False
  | .value index => ∃ memory, heap.pools[p]? = some (some memory) ∧ index ∈ memory.destroyed

theorem mem_held {index : Nat} : index ∈ heap.held ↔ ∃ p, heap.Owns p (.value index) := by
  rw [held, List.mem_flatMap]
  constructor
  · rintro ⟨pool, hpool, hmem⟩
    obtain ⟨p, hp⟩ := List.mem_iff_getElem?.mp hpool
    cases pool with
    | none => exact absurd hmem List.not_mem_nil
    | some memory => exact ⟨p, memory, hp, hmem⟩
  · rintro ⟨p, memory, hp, hmem⟩
    exact ⟨some memory, List.mem_of_getElem? hp, hmem⟩

/-- The books say which objects are alive: those that some pool will destroy. -/
theorem Balanced.live_iff (h : heap.Balanced) {v : Ref} : heap.Live v ↔ ∃ p, heap.Owns p v := by
  cases v with
  | null => exact ⟨fun hlive => hlive.elim, fun ⟨_, howns⟩ => howns.elim⟩
  | value index =>
    have hnodup := h.nodup_iff.mpr List.nodup_range
    have hmem := h.mem_iff (a := index)
    rw [List.mem_append, List.mem_range] at hmem
    rw [← mem_held]
    constructor
    · rintro ⟨hlt, hdeleted⟩
      exact (hmem.mpr hlt).resolve_left hdeleted
    · intro hheld
      refine ⟨hmem.mp (.inr hheld), fun hdeleted => ?_⟩
      exact List.disjoint_of_nodup_append hnodup hdeleted hheld

theorem owns_iff {p : Nat} {memory : PoolMemory} (h : heap.pools[p]? = some (some memory))
    {index : Nat} : heap.Owns p (.value index) ↔ index ∈ memory.destroyed := by
  constructor
  · rintro ⟨memory', hmemory', hmem⟩
    obtain rfl := Option.some.inj (Option.some.inj (h.symm.trans hmemory'))
    exact hmem
  · intro hmem
    exact ⟨memory, h, hmem⟩

/-- A pool comes with an object of its own. -/
theorem owns_newPool {q : Nat} {v : Ref} : heap.newPool.Owns q v ↔
    heap.Owns q v ∨ q = heap.pools.length ∧ v = .value heap.fresh := by
  cases v with
  | null => simp [Owns]
  | value index =>
    show (∃ memory, (heap.pools ++ [_])[q]? = _ ∧ _) ↔ (∃ memory, _) ∨ _
    rcases Nat.lt_trichotomy q heap.pools.length with hlt | rfl | hlt
    · rw [List.getElem?_append_left hlt]
      exact (or_iff_left fun h => Nat.ne_of_lt hlt h.1).symm
    · simp [PoolMemory.destroyed]
    · have hlength : (heap.pools ++ [some (PoolMemory.mk heap.fresh [])]).length ≤ q := by
        rw [List.length_append]
        exact hlt
      rw [List.getElem?_eq_none hlength, List.getElem?_eq_none (Nat.le_of_lt hlt)]
      simp [Nat.ne_of_gt hlt]

/-- What a method of a pool creates belongs to that pool. -/
theorem owns_make {p q : Nat} {memory : PoolMemory} {node : NewNode Double} {v : Ref}
    (hp : heap.pools[p]? = some (some memory)) :
    (heap.make p memory node .succeeds).Owns q v ↔
      heap.Owns q v ∨ q = p ∧ v = .value heap.fresh := by
  cases v with
  | null => simp [Owns]
  | value index =>
    show (∃ memory', (heap.pools.set p _)[q]? = _ ∧ _) ↔ (∃ memory', _) ∨ _
    by_cases hq : q = p
    · subst hq
      obtain ⟨hlt, -⟩ := List.getElem?_eq_some_iff.mp hp
      simp only [List.getElem?_set_self hlt, hp, Option.some.injEq, exists_eq_left',
        PoolMemory.destroyed, List.mem_append, List.mem_singleton, Ref.value.injEq, true_and]
      tauto
    · rw [List.getElem?_set_ne (Ne.symm hq)]
      simp [hq]

theorem owns_destroyPool {p q : Nat} {memory : PoolMemory} {v : Ref}
    (hp : heap.pools[p]? = some (some memory)) :
    (heap.destroyPool p memory).Owns q v ↔ heap.Owns q v ∧ q ≠ p := by
  cases v with
  | null => exact ⟨fun h => h.elim, fun h => h.1.elim⟩
  | value index =>
    obtain ⟨hlt, -⟩ := List.getElem?_eq_some_iff.mp hp
    show (∃ memory', (heap.pools.set p none)[q]? = _ ∧ _) ↔ _
    by_cases hq : q = p
    · subst hq
      simp [List.getElem?_set_self hlt]
    · rw [List.getElem?_set_ne (Ne.symm hq)]
      exact (and_iff_left hq).symm

/-! ## Pointers -/

/-- No live object points to one that is not. -/
def NoDangling (heap : Heap Double) : Prop :=
  ∀ v, heap.Live v → ∀ m ∈ heap.objects.members v, heap.Live m

/-- **What may be converted**: everything that is reached from a live value is alive. -/
def Safe (heap : Heap Double) : Prop :=
  ∀ v, heap.Live v → ∀ u, Relation.ReflTransGen (Recursion.Calls heap.objects.members) v u →
    heap.Live u

/-- No pool is destroyed while an object of another pool points into it. -/
def Unreferenced (heap : Heap Double) : HeapCall Double → Prop
  | .destroyPool p =>
    ∀ v, heap.Live v → ¬ heap.Owns p v → ∀ m ∈ heap.objects.members v, ¬ heap.Owns p m
  | _ => True

/-- **Scopes**: containers are given values only of pools that outlive their own, and a pool is
    destroyed after all those it outlives. -/
def Nested (outlives : Nat → Nat → Prop) (heap : Heap Double) : HeapCall Double → Prop
  | .append target _ value _ | .pushBack target value _ =>
    ∀ p q, heap.Owns p target → heap.Owns q value → outlives q p
  | .destroyPool q => ∀ p v, heap.Owns p v → outlives q p → p = q
  | _ => True

theorem safe_iff : heap.Safe ↔ heap.NoDangling := by
  constructor
  · intro h v hv m hm
    exact h v hv m (.single hm)
  · intro h v hv u hu
    induction hu with
    | refl => exact hv
    | tail _ hm ih => exact h _ ih _ hm

theorem members_eq_nil {index : Nat} (h : heap.fresh ≤ index) :
    heap.objects.members (.value index) = [] := by
  have hnone : heap.objects.deref (.value index) = none := List.getElem?_eq_none h
  rw [Pool.members, hnone]
  rfl

/-- Where objects are only added, and point nowhere. -/
theorem NoDangling.grows (h : heap.NoDangling) (hfresh : heap.fresh ≤ heap'.fresh)
    (hkept : ∀ index ∈ heap.deleted, index ∈ heap'.deleted)
    (hdeleted : ∀ index < heap.fresh, index ∈ heap'.deleted → index ∈ heap.deleted)
    (hmembers : ∀ v, ∀ m ∈ heap'.objects.members v, m ∈ heap.objects.members v) :
    heap'.NoDangling := by
  intro v hv m hm
  have hold := hmembers v m hm
  cases v with
  | null => exact hv.elim
  | value index =>
    by_cases hlt : index < heap.fresh
    · have hbefore : heap.Live (.value index) := ⟨hlt, fun hmem => hv.2 (hkept index hmem)⟩
      have hlive := h _ hbefore m hold
      cases m with
      | null => exact hlive.elim
      | value j =>
        obtain ⟨hj, hnot⟩ := hlive
        exact ⟨Nat.lt_of_lt_of_le hj hfresh, fun hmem => hnot (hdeleted j hj hmem)⟩
    · rw [members_eq_nil (Nat.le_of_not_lt hlt)] at hold
      exact absurd hold List.not_mem_nil

theorem NoDangling.allocate (h : heap.NoDangling) (node : NewNode Double)
    (hobjects : heap'.objects = (heap.allocate node).objects)
    (hdeleted : heap'.deleted = heap.deleted ∨ heap'.deleted = heap.deleted ++ [heap.fresh]) :
    heap'.NoDangling := by
  have hfresh : heap'.fresh = heap.fresh + 1 := by
    rw [fresh, hobjects]
    exact fresh_allocate node
  refine h.grows (by omega) ?_ ?_ ?_
  · rcases hdeleted with heq | heq <;> rw [heq]
    · exact fun _ hmem => hmem
    · exact fun _ hmem => List.mem_append_left _ hmem
  · intro index hlt hmem
    rcases hdeleted with heq | heq <;> rw [heq] at hmem
    · exact hmem
    · exact (List.mem_append.mp hmem).resolve_right fun heq =>
        Nat.ne_of_lt hlt (List.mem_singleton.mp heq)
  · intro v m hm
    rw [hobjects] at hm
    exact Pool.members_add node.2 hm

/-- A pointer to a live object. -/
theorem NoDangling.point (h : heap.NoDangling) {objects : Pool Double} {target value : Ref}
    (hvalue : heap.Live value) (hlength : objects.values.length = heap.objects.values.length)
    (hmembers : ∀ v m, m ∈ objects.members v →
      m ∈ heap.objects.members v ∨ v = target ∧ m = value) :
    ({ heap with objects } : Heap Double).NoDangling := by
  have hsame : ∀ v, ({ heap with objects } : Heap Double).Live v ↔ heap.Live v := by
    intro v
    cases v with
    | null => exact Iff.rfl
    | value index =>
      show index < objects.values.length ∧ _ ↔ _
      rw [hlength]
      exact Iff.rfl
  intro v hv m hm
  rw [hsame] at hv ⊢
  rcases hmembers v m hm with hold | ⟨-, rfl⟩
  · exact h v hv m hold
  · exact hvalue

/-- A pool takes its objects with it. -/
theorem live_destroyPool {p : Nat} {memory : PoolMemory}
    (hp : heap.pools[p]? = some (some memory)) {v : Ref} :
    (heap.destroyPool p memory).Live v ↔ heap.Live v ∧ ¬ heap.Owns p v := by
  cases v with
  | null => exact ⟨fun h => h.elim, fun h => h.1.elim⟩
  | value index =>
    rw [owns_iff hp]
    show index < heap.fresh ∧ index ∉ heap.deleted ++ memory.destroyed ↔
      (index < heap.fresh ∧ index ∉ heap.deleted) ∧ index ∉ memory.destroyed
    rw [List.mem_append, not_or, and_assoc]

/-- **Step lemma**, for the steps that destroy no pool to which others point. -/
theorem NoDangling.next {call : HeapCall Double} (h : heap.NoDangling)
    (hunreferenced : heap.Unreferenced call) (hnext : next heap call = some heap') :
    heap'.NoDangling := by
  cases step_of_next hnext with
  | newPool => exact h.allocate ⟨.null, rfl⟩ rfl (.inl rfl)
  | @make p memory node alloc hmemory =>
    cases alloc with
    | newThrows => exact h
    | listThrows => exact h.allocate node rfl (.inr rfl)
    | succeeds => exact h.allocate node rfl (.inl rfl)
  | append _ hvalue happend =>
    exact h.point hvalue (Pool.length_append happend) fun _ _ => Pool.members_append happend
  | pushBack _ hvalue hpushBack =>
    exact h.point hvalue (Pool.length_pushBack hpushBack) fun _ _ => Pool.members_pushBack hpushBack
  | appendThrows | pushBackThrows => exact h
  | @destroyPool p memory hp =>
    intro v hv m hm
    rw [live_destroyPool hp] at hv ⊢
    exact ⟨h v hv.1 m hm, hunreferenced v hv.1 hv.2 m hm⟩

/-- And a step that does leaves a pointer to a deleted object. -/
theorem dangling_of_referenced {call : HeapCall Double} (hreferenced : ¬ heap.Unreferenced call)
    (hnext : next heap call = some heap') : ¬ heap'.NoDangling := by
  cases step_of_next hnext with
  | newPool | make | append | pushBack | appendThrows | pushBackThrows =>
    exact absurd trivial hreferenced
  | @destroyPool p memory hp =>
    intro h
    refine hreferenced fun v hv howner m hm howns => ?_
    have hlive := h v ((live_destroyPool hp).mpr ⟨hv, howner⟩) m hm
    exact ((live_destroyPool hp).mp hlive).2 howns

/-! ## Scopes -/

/-- Objects point into pools that outlive their own. -/
def Inside (outlives : Nat → Nat → Prop) (heap : Heap Double) : Prop :=
  ∀ p v, heap.Owns p v → ∀ m ∈ heap.objects.members v, ∃ q, heap.Owns q m ∧ outlives q p

variable {outlives : Nat → Nat → Prop}

theorem Inside.noDangling (h : heap.Inside outlives) (hbalanced : heap.Balanced) :
    heap.NoDangling := by
  intro v hv m hm
  obtain ⟨p, hp⟩ := hbalanced.live_iff.mp hv
  obtain ⟨q, hq, -⟩ := h p v hp m hm
  exact hbalanced.live_iff.mpr ⟨q, hq⟩

/-- Where objects are only added, and point nowhere. -/
theorem Inside.grows (h : heap.Inside outlives)
    (hnew : ∀ q v, heap'.Owns q v → heap.Owns q v ∨ v = .value heap.fresh)
    (hkept : ∀ q v, heap.Owns q v → heap'.Owns q v)
    (hmembers : ∀ v, ∀ m ∈ heap'.objects.members v, m ∈ heap.objects.members v) :
    heap'.Inside outlives := by
  intro p v hv m hm
  have hold := hmembers v m hm
  rcases hnew p v hv with howns | rfl
  · obtain ⟨q, hq, houtlives⟩ := h p v howns m hold
    exact ⟨q, hkept q m hq, houtlives⟩
  · rw [members_eq_nil (Nat.le_refl _)] at hold
    exact absurd hold List.not_mem_nil

theorem Inside.point (h : heap.Inside outlives) (hbalanced : heap.Balanced) {objects : Pool Double}
    {target value : Ref} (hvalue : heap.Live value)
    (hnested : ∀ p q, heap.Owns p target → heap.Owns q value → outlives q p)
    (hmembers : ∀ v m, m ∈ objects.members v →
      m ∈ heap.objects.members v ∨ v = target ∧ m = value) :
    ({ heap with objects } : Heap Double).Inside outlives := by
  intro p v hv m hm
  rcases hmembers v m hm with hold | ⟨rfl, rfl⟩
  · exact h p v hv m hold
  · obtain ⟨q, hq⟩ := hbalanced.live_iff.mp hvalue
    exact ⟨q, hq, hnested p q hv hq⟩

theorem Inside.next {call : HeapCall Double} (h : heap.Inside outlives) (hbalanced : heap.Balanced)
    (hnested : heap.Nested outlives call) (hnext : next heap call = some heap') :
    heap'.Inside outlives := by
  cases step_of_next hnext with
  | newPool =>
    refine h.grows (fun q v hv => ?_) (fun q v hv => ?_) fun _ _ => Pool.members_add rfl
    · exact (owns_newPool.mp hv).imp_right And.right
    · exact owns_newPool.mpr (.inl hv)
  | @make p memory node alloc hmemory =>
    cases alloc with
    | newThrows => exact h
    | listThrows =>
      exact h.grows (fun _ _ => .inl) (fun _ _ hv => hv) fun _ _ => Pool.members_add node.2
    | succeeds =>
      refine h.grows (fun q v hv => ?_) (fun q v hv => ?_) fun _ _ => Pool.members_add node.2
      · exact ((owns_make hmemory).mp hv).imp_right And.right
      · exact (owns_make hmemory).mpr (.inl hv)
  | append _ hvalue happend =>
    exact h.point hbalanced hvalue hnested fun _ _ => Pool.members_append happend
  | pushBack _ hvalue hpushBack =>
    exact h.point hbalanced hvalue hnested fun _ _ => Pool.members_pushBack hpushBack
  | appendThrows | pushBackThrows => exact h
  | @destroyPool p memory hp =>
    intro q v hv m hm
    obtain ⟨howns, hne⟩ := (owns_destroyPool hp).mp hv
    obtain ⟨q', hq', houtlives⟩ := h q v howns m hm
    refine ⟨q', (owns_destroyPool hp).mpr ⟨hq', ?_⟩, houtlives⟩
    rintro rfl
    exact hne (hnested q v howns houtlives)

/-! ## The result -/

/-- What stands where the deleted objects have been. -/
theorem run_eq_of_live {heap : Heap Double} (h : heap.NoDangling) (printDouble : Double → Bytes)
    {objects : Pool Double} (hsame : ∀ u, heap.Live u → objects.deref u = heap.objects.deref u)
    (fuel : Nat) {v : Ref} (hv : heap.Live v) :
    Recursion.run (objects.convert printDouble) fuel v =
      Recursion.run (heap.objects.convert printDouble) fuel v := by
  induction fuel generalizing v with
  | zero => rfl
  | succ fuel ih =>
    have hhere : ∀ self, objects.convert printDouble self v =
        heap.objects.convert printDouble self v := by
      intro self
      rw [Pool.convert, Pool.convert, hsame v hv]
    show objects.convert printDouble _ v = heap.objects.convert printDouble _ v
    rw [hhere]
    exact (heap.objects.callsOnly_convert printDouble).congr fun m hm => ih (h v hv m hm)

/-- **Whose objects, and how long.**  However the allocations end, every object is deleted once or
    will be by one pool.  Throughout a run, conversions of live values only come to live values,
    exactly if no pool is destroyed while an object of another pool points into it; and so it is if
    containers are only given values whose pools outlive their own.  Such a conversion does not
    depend on what stands where the deleted objects have been. -/
theorem lifetimes (labels : List (HeapCall Double)) :
    Throughout next Balanced empty labels ∧
      (Throughout next Safe empty labels ↔ StepsMeet next Unreferenced empty labels) ∧
      (∀ outlives, StepsMeet next (Nested outlives) empty labels →
        Throughout next Safe empty labels) ∧
      ∀ {heap : Heap Double} (printDouble : Double → Bytes) {objects : Pool Double} {v : Ref},
        heap.Safe → heap.Live v → (∀ u, heap.Live u → objects.deref u = heap.objects.deref u) →
        ∀ text, Recursion.Returns (objects.convert printDouble) v text ↔
          Recursion.Returns (heap.objects.convert printDouble) v text := by
  have hbalanced : (empty : Heap Double).Balanced := .refl []
  have hnone : (empty : Heap Double).NoDangling := by
    intro v hv
    cases v with
    | null => exact hv.elim
    | value index => exact absurd hv.1 (Nat.not_lt_zero _)
  refine ⟨?_, ?_, fun outlives hnested => ?_, ?_⟩
  · exact throughout_of_step (fun _ h => h) (fun _ _ _ h hnext => h.next hnext) labels hbalanced
  · refine throughout_iff_stepsMeet (fun _ => safe_iff.mpr) (fun _ _ _ h => h.next) ?_ hnone
    intro heap call heap' _ hreferenced hnext hsafe
    exact dangling_of_referenced hreferenced hnext (safe_iff.mp hsafe)
  · have hinside : (empty : Heap Double).Inside outlives := by
      intro p v hv
      cases v with
      | null => exact hv.elim
      | value index => obtain ⟨memory, hmemory, -⟩ := hv; exact nomatch hmemory
    have hstep : ∀ (heap : Heap Double) call heap', heap.Balanced ∧ heap.Inside outlives →
        heap.Nested outlives call → next heap call = some heap' →
        heap'.Balanced ∧ heap'.Inside outlives := by
      intro heap call heap' h hcall hnext
      exact ⟨h.1.next hnext, h.2.next h.1 hcall hnext⟩
    exact throughout_of_stepsMeet (fun _ h => safe_iff.mpr (h.2.noDangling h.1)) hstep
      ⟨hbalanced, hinside⟩ hnested
  · intro heap printDouble objects v hsafe hv hsame text
    simp only [Recursion.Returns, run_eq_of_live (safe_iff.mp hsafe) printDouble hsame _ hv]

/-- A module that keeps an array in a pool of its own, and appends a string of the request's pool to
    it: with that pool the string goes, and the pointer stays. -/
def keptTooLong : List (HeapCall Empty) :=
  [.newPool, .array 0 .succeeds, .newPool, .string 1 (str "a") .succeeds,
    .pushBack (.value 1) (.value 3) true, .destroyPool 1]

example : (exec next empty keptTooLong).any (fun heap =>
    heap.Live (.value 1) ∧ .value 3 ∈ heap.objects.members (.value 1) ∧ ¬ heap.Live (.value 3)) =
      true := by decide

end Heap

end ThreadServer.JSON
