/-
  Indexed parameters (`Parameters_t::getIndexed`, `MimeParameters_t::getIndexedFiles`).

  A method asks for `name`, in which `[]` stands for an index.  The name becomes a regular
  expression; every key is matched with it, as a C string; the captured digits become numbers, and
  the first value goes into a map under them, unless something is there already.

  1. **The loop** (`indexedLoop_eq_ok`) — it returns when every captured text can be converted; an
     entry then comes from the first key, in byte order, that is taken for its indexes.
  2. **Templates** (`getIndexed_of_instances`) — with a name of letters, digits, `_` and `[]`, and
     keys in which the indexes are written as usual, every index vector gets its value.
  3. **Large numbers** (`getIndexed_returns_iff`) — the expression accepts digits without end, the
     conversion only what fits 64 bits, and throws at the rest.
  4. **One entry for each instance** (`entriesAreInstances_iff`) — not always: `01` and `1` are the
     same number, a key ends at its first NUL, and the name is not quoted.  What that leaves for the
     names of 2. is `unmistakable_iff_of_template`.

  Boost's regular expressions are the parameters `compile` and `regexMatch`, as for the methods.
-/
import ThreadServer.Lib.LexicalCast
import ThreadServer.Lib.Template
import ThreadServer.Parameters

namespace ThreadServer

open Bytes Template Expression

/-- `boost::lexical_cast<size_t>`. -/
def toIndex (group : Bytes) : Except Exn UInt64 :=
  match LexicalCast.toUnsigned 64 group with
  | some n => .ok (UInt64.ofNat n)
  | none => .error .badLexicalCast

/-- The expression a name becomes. -/
def indexedPattern (name : Bytes) : Bytes := replaceAll (str "[]") (str "\\[([0-9]+)\\]") 0 name

variable {α Regex : Type}

/-- The loop of `getIndexed` over the keys, `search` matching the expression; `none` if it takes the
    front of an empty list. -/
def indexedLoop (search : Bytes → Option (List Bytes)) :
    List (Bytes × List α) → StdMap (List UInt64) α → Option (Except Exn (StdMap (List UInt64) α))
  | [], result => some (.ok result)
  | (key, values) :: entries, result =>
    match search (cStr key) with
    | none => indexedLoop search entries result
    | some groups =>
      match groups.mapM toIndex with
      | .error e => some (.error e)
      | .ok indexes =>
        match values with
        | [] => none
        | first :: _ => indexedLoop search entries (StdMap.insertNew result indexes first).1

variable (compile : Bytes → Except Exn Regex) (regexMatch : Regex → Bytes → Option (List Bytes))

/-- What `getIndexed` and `getIndexedFiles` do with their map. -/
def indexed (name : Bytes) (data : StdMap Bytes (List α)) :
    Option (Except Exn (StdMap (List UInt64) α)) :=
  match compile (indexedPattern name) with
  | .error e => some (.error e)
  | .ok regex => indexedLoop (regexMatch regex) data.toList ∅

/-- `getIndexed<std::string>(name)`. -/
def Parameters.getIndexed (params : Parameters) (name : Bytes) :
    Option (Except Exn (StdMap (List UInt64) Bytes)) :=
  indexed compile regexMatch name params.data

/-- `getIndexedFiles(name)`. -/
def MimeParameters.getIndexedFiles (params : MimeParameters) (name : Bytes) :
    Option (Except Exn (StdMap (List UInt64) File)) :=
  indexed compile regexMatch name params.fileData

variable {compile regexMatch}

/-! ## The loop -/

section Loop

variable {search : Bytes → Option (List Bytes)}

/-- The index vector a key is taken for. -/
def vectorOf (search : Bytes → Option (List Bytes)) (key : Bytes) : Option (List UInt64) :=
  (search (cStr key)).bind fun groups => (groups.mapM toIndex).toOption

/-- All that a key captures can be converted. -/
def Converts (search : Bytes → Option (List Bytes)) (key : Bytes) : Prop :=
  ∀ groups, search (cStr key) = some groups → ∃ v, groups.mapM toIndex = .ok v

/-- The first entry whose key is taken for `v`. -/
def firstFor (search : Bytes → Option (List Bytes)) (v : List UInt64)
    (entries : List (Bytes × List α)) : Option (Bytes × List α) :=
  entries.find? fun entry => vectorOf search entry.1 = some v

theorem getElem?_insertNew (m : StdMap (List UInt64) α) (v v' : List UInt64) (first : α) :
    (StdMap.insertNew m v first).1[v']? = m[v']?.or (if v = v' then some first else none) := by
  unfold StdMap.insertNew
  by_cases hmem : m.contains v = true
  · rw [if_pos hmem]
    by_cases hv : v = v'
    · obtain ⟨a, ha⟩ := Option.isSome_iff_exists.mp
        (by rwa [← Std.ExtTreeMap.contains_eq_isSome_getElem?] : (m[v]?).isSome = true)
      rw [← hv, ha, Option.some_or]
    · rw [if_neg hv, Option.or_none]
  · rw [if_neg hmem, Std.ExtTreeMap.getElem?_insert]
    by_cases hv : v = v'
    · rw [if_pos (Std.LawfulEqCmp.compare_eq_iff_eq.mpr hv), if_pos hv]
      rw [Std.ExtTreeMap.contains_eq_isSome_getElem?, Bool.not_eq_true, Option.isSome_eq_false_iff,
        Option.isNone_iff_eq_none, hv] at hmem
      rw [hmem, Option.none_or]
    · rw [if_neg (fun hcmp => hv (Std.LawfulEqCmp.compare_eq_iff_eq.mp hcmp)), if_neg hv,
        Option.or_none]

variable {key : Bytes} {values : List α} {entries : List (Bytes × List α)}
  {result result' : StdMap (List UInt64) α} {groups : List Bytes}

theorem indexedLoop_skip (h : search (cStr key) = none) :
    indexedLoop search ((key, values) :: entries) result = indexedLoop search entries result := by
  simp only [indexedLoop, h]

theorem indexedLoop_throw (h : search (cStr key) = some groups) {e : Exn}
    (hgroups : groups.mapM toIndex = .error e) :
    indexedLoop search ((key, values) :: entries) result = some (.error e) := by
  simp only [indexedLoop, h, hgroups]

theorem indexedLoop_insert (h : search (cStr key) = some groups) {v : List UInt64}
    (hgroups : groups.mapM toIndex = .ok v) (first : α) :
    indexedLoop search ((key, first :: values) :: entries) result =
      indexedLoop search entries (StdMap.insertNew result v first).1 := by
  simp only [indexedLoop, h, hgroups]

theorem firstFor_cons (v : List UInt64) :
    firstFor search v ((key, values) :: entries) =
      if vectorOf search key = some v then some (key, values) else firstFor search v entries := by
  rw [firstFor, List.find?_cons]
  by_cases hv : vectorOf search key = some v
  · rw [if_pos hv, decide_eq_true hv]
  · rw [if_neg hv, decide_eq_false hv, firstFor]

/-- **What the loop returns**: it converts all that is captured, and what a vector was mapped to
    stays; any other vector gets the first value of the first key taken for it. -/
theorem indexedLoop_eq_ok (hne : ∀ entry ∈ entries, entry.2 ≠ []) :
    indexedLoop search entries result = some (.ok result') ↔
      (∀ entry ∈ entries, Converts search entry.1) ∧
        ∀ v, result'[v]? = result[v]?.or ((firstFor search v entries).bind (·.2.head?)) := by
  induction entries generalizing result with
  | nil =>
    have hsame : (∀ v : List UInt64, result'[v]? = result[v]?.or none) ↔ result = result' := by
      simp only [Option.or_none]
      exact ⟨fun h => Std.ExtTreeMap.ext_getElem? fun {v} => (h v).symm, fun h v => by rw [h]⟩
    rw [indexedLoop]
    constructor
    · intro h
      exact ⟨fun entry hentry => absurd hentry List.not_mem_nil,
        hsame.mpr (Except.ok.inj (Option.some.inj h))⟩
    · rintro ⟨-, h⟩
      rw [hsame.mp h]
  | cons entry entries ih =>
    obtain ⟨key, values⟩ := entry
    obtain ⟨hvalues, hrest⟩ := List.forall_mem_cons.mp hne
    rw [List.forall_mem_cons]
    simp only [firstFor_cons]
    cases hsearch : search (cStr key) with
    | none =>
      -- A key that does not match is passed over, on both sides.
      have hconverts : Converts search key := by
        intro groups hgroups
        exact absurd (hsearch.symm.trans hgroups) (Option.some_ne_none _).symm
      have hvector : ∀ v, vectorOf search key ≠ some v := by
        intro v
        rw [vectorOf, hsearch]
        exact (Option.some_ne_none v).symm
      simp only [indexedLoop_skip hsearch, ih hrest, hconverts, true_and, if_neg (hvector _)]
    | some groups =>
      cases hgroups : groups.mapM toIndex with
      | error e =>
        rw [indexedLoop_throw hsearch hgroups]
        constructor
        · intro h
          exact absurd (Option.some.inj h) (by simp)
        · rintro ⟨⟨hconverts, -⟩, -⟩
          obtain ⟨v, hv⟩ := hconverts groups hsearch
          exact absurd (hgroups.symm.trans hv) (by simp)
      | ok indexes =>
        have hconverts : Converts search key := by
          intro groups' hgroups'
          rw [← Option.some.inj (hsearch.symm.trans hgroups')]
          exact ⟨indexes, hgroups⟩
        have hvector : vectorOf search key = some indexes := by
          rw [vectorOf, hsearch, Option.bind_some, hgroups]
          rfl
        -- The new entry stands behind what `result` had, and before what comes after this key.
        cases values with
        | nil => exact absurd rfl hvalues
        | cons first values =>
          rw [indexedLoop_insert hsearch hgroups, ih hrest, hvector]
          simp only [hconverts, true_and, getElem?_insertNew, Option.or_assoc]
          have hentry : ∀ v, (if indexes = v then some first else none).or
                ((firstFor search v entries).bind (·.2.head?)) =
              (if some indexes = some v then some (key, first :: values)
                else firstFor search v entries).bind (·.2.head?) := by
            intro v
            by_cases hv : indexes = v
            · rw [if_pos hv, if_pos (congrArg some hv)]
              rfl
            · rw [if_neg hv, if_neg fun heq => hv (Option.some.inj heq), Option.none_or]
          simp only [hentry]

theorem mem_of_firstFor {v : List UInt64} {entry : Bytes × List α}
    (h : firstFor search v entries = some entry) :
    entry ∈ entries ∧ vectorOf search entry.1 = some v := by
  have htake := List.find?_some h
  exact ⟨List.mem_of_find?_eq_some h, of_decide_eq_true htake⟩

theorem firstFor_eq_none {v : List UInt64} :
    firstFor search v entries = none ↔ ∀ entry ∈ entries, vectorOf search entry.1 ≠ some v := by
  rw [firstFor, List.find?_eq_none]
  simp only [decide_eq_true_eq, ne_eq]

/-- A property of the keys, read in the order of the loop. -/
theorem forall_keys {data : StdMap Bytes (List α)} {P : Bytes → Prop} :
    (∀ entry ∈ data.toList, P entry.1) ↔ ∀ key ∈ data, P key := by
  constructor
  · intro h key hkey
    obtain ⟨values, hvalues⟩ := Option.isSome_iff_exists.mp
      (Std.ExtTreeMap.mem_iff_isSome_getElem?.mp hkey)
    exact h (key, values) (Std.ExtTreeMap.mem_toList_iff_getElem?_eq_some.mpr hvalues)
  · intro h entry hmem
    refine h entry.1 (Std.ExtTreeMap.mem_iff_isSome_getElem?.mpr ?_)
    rw [Std.ExtTreeMap.mem_toList_iff_getElem?_eq_some.mp hmem]
    rfl

/-- A map that has a first value for each key. -/
theorem toList_ne_nil {data : StdMap Bytes (List α)}
    (hne : ∀ (key : Bytes) values, data[key]? = some values → values ≠ []) :
    ∀ entry ∈ data.toList, entry.2 ≠ [] := by
  intro entry hmem
  exact hne entry.1 _ (Std.ExtTreeMap.mem_toList_iff_getElem?_eq_some.mp hmem)

/-- In a map, the first key is the least one. -/
theorem firstFor_toList {data : StdMap Bytes (List α)} {v : List UInt64}
    (h : firstFor search v data.toList = some (key, values)) :
    data[key]? = some values ∧ vectorOf search key = some v ∧
      ∀ key' ∈ data, vectorOf search key' = some v → ¬ key' < key := by
  obtain ⟨hmem, htake⟩ := mem_of_firstFor h
  refine ⟨Std.ExtTreeMap.mem_toList_iff_getElem?_eq_some.mp hmem, htake, ?_⟩
  intro key' hkey' htake' hlt
  obtain ⟨values', hvalues'⟩ := Option.isSome_iff_exists.mp
    (Std.ExtTreeMap.mem_iff_isSome_getElem?.mp hkey')
  have hmem' : (key', values') ∈ data.toList :=
    Std.ExtTreeMap.mem_toList_iff_getElem?_eq_some.mpr hvalues'
  obtain ⟨-, before, after, hlist, hbefore⟩ := List.find?_eq_some_iff_append.mp h
  have hordered : data.toList.Pairwise fun a b => compare a.1 b.1 = .lt :=
    Std.ExtTreeMap.ordered_keys_toList
  rw [hlist] at hmem' hordered
  rcases List.mem_append.mp hmem' with hin | hin
  · have hnot := hbefore _ hin
    simp [htake'] at hnot
  · rcases List.mem_cons.mp hin with heq | hin
    · rw [(Prod.mk.inj heq).1] at hlt
      exact List.lt_irrefl key hlt
    · have hafter := List.rel_of_pairwise_cons (List.pairwise_append.mp hordered).2.1 hin
      exact List.lt_irrefl key (List.lt_trans (compare_eq_lt.mp hafter) hlt)

/-- The loop returns when all that is captured can be converted. -/
theorem exists_indexedLoop (hne : ∀ entry ∈ entries, entry.2 ≠ [])
    (hconverts : ∀ entry ∈ entries, Converts search entry.1)
    (result : StdMap (List UInt64) α) :
    ∃ result', indexedLoop search entries result = some (.ok result') := by
  induction entries generalizing result with
  | nil => exact ⟨result, rfl⟩
  | cons entry entries ih =>
    obtain ⟨key, values⟩ := entry
    obtain ⟨hvalues, hnes⟩ := List.forall_mem_cons.mp hne
    obtain ⟨hkey, hkeys⟩ := List.forall_mem_cons.mp hconverts
    cases hsearch : search (cStr key) with
    | none =>
      rw [indexedLoop_skip hsearch]
      exact ih hnes hkeys result
    | some groups =>
      obtain ⟨v, hv⟩ := hkey groups hsearch
      obtain ⟨first, rest, rfl⟩ := List.exists_cons_of_ne_nil hvalues
      rw [indexedLoop_insert hsearch hv]
      exact ih hnes hkeys _

end Loop

/-! ## Numbers -/

theorem toUnsigned_of_isNumber {d : Bytes} (h : IsNumber d) :
    LexicalCast.toUnsigned 64 d = if value d < 2 ^ 64 then some (value d) else none := by
  obtain ⟨hne, hdigits⟩ := h
  cases d with
  | nil => exact absurd rfl hne
  | cons c rest =>
    have hc : isDigit c = true := List.all_eq_true.mp hdigits c List.mem_cons_self
    have hnumber : LexicalCast.digits (c :: rest) = some (value (c :: rest)) := by
      rw [LexicalCast.digits, if_pos ⟨hne, hdigits⟩]
    rw [LexicalCast.toUnsigned, LexicalCast.sign_of_isDigit hc]
    show (LexicalCast.digits (c :: rest)).bind _ = _
    rw [hnumber]
    rfl

/-- Converting a number gives its value, if that fits. -/
theorem toIndex_eq_ok {d : Bytes} (h : IsNumber d) {index : UInt64} :
    toIndex d = .ok index ↔ index.toNat = value d := by
  rw [toIndex, toUnsigned_of_isNumber h]
  by_cases hlt : value d < 2 ^ 64
  · rw [if_pos hlt]
    constructor
    · intro heq
      rw [← Except.ok.inj heq]
      exact UInt64.toNat_ofNat_of_lt hlt
    · intro heq
      show Except.ok (UInt64.ofNat (value d)) = _
      rw [← heq, UInt64.ofNat_toNat]
  · rw [if_neg hlt]
    constructor
    · intro heq
      exact absurd heq (by simp)
    · intro heq
      exact absurd (heq ▸ index.toNat_lt) hlt

theorem mapM_toIndex_eq_ok {groups : List Bytes} (h : ∀ d ∈ groups, IsNumber d)
    {v : List UInt64} : groups.mapM toIndex = .ok v ↔ v.map UInt64.toNat = groups.map value := by
  induction groups generalizing v with
  | nil =>
    rw [List.mapM_nil, List.map_nil, List.map_eq_nil_iff]
    exact ⟨fun heq => (Except.ok.inj heq).symm, fun heq => by rw [heq]; rfl⟩
  | cons d groups ih =>
    obtain ⟨hd, hgroups⟩ := List.forall_mem_cons.mp h
    rw [List.mapM_cons, bind_eq_ok]
    constructor
    · rintro ⟨index, hindex, hrest⟩
      obtain ⟨v', hv', hcons⟩ := bind_eq_ok.mp hrest
      rw [← Except.ok.inj hcons, List.map_cons, List.map_cons, (toIndex_eq_ok hd).mp hindex,
        (ih hgroups).mp hv']
    · intro heq
      cases v with
      | nil => exact absurd heq (by simp)
      | cons index v =>
        obtain ⟨hindex, hv⟩ := List.cons.inj heq
        refine ⟨index, (toIndex_eq_ok hd).mpr hindex, bind_eq_ok.mpr ⟨v, (ih hgroups).mpr hv, rfl⟩⟩

/-- Numbers can be converted when they fit. -/
theorem exists_mapM_toIndex {groups : List Bytes} (h : ∀ d ∈ groups, IsNumber d) :
    (∃ v, groups.mapM toIndex = .ok v) ↔ ∀ d ∈ groups, value d < 2 ^ 64 := by
  simp only [mapM_toIndex_eq_ok h]
  constructor
  · rintro ⟨v, hv⟩ d hd
    have hmem : value d ∈ v.map UInt64.toNat := by
      rw [hv]
      exact List.mem_map_of_mem hd
    obtain ⟨index, -, hindex⟩ := List.mem_map.mp hmem
    rw [← hindex]
    exact index.toNat_lt
  · intro hlt
    refine ⟨groups.map fun d => UInt64.ofNat (value d), ?_⟩
    rw [List.map_map]
    refine List.map_congr_left fun d hd => ?_
    exact UInt64.toNat_ofNat_of_lt (hlt d hd)

/-! ## Templates -/

/-- A name of letters, digits, `_` and `[]`. -/
def PlainName (name : Bytes) : Prop := ∀ p ∈ pieces name, p.Plain

instance (name : Bytes) : Decidable (PlainName name) :=
  inferInstanceAs (Decidable (∀ p ∈ pieces name, p.Plain))

/-- The key that has the indexes `v`, written as usual, in the holes of the name. -/
def instanceKey (name : Bytes) (v : List UInt64) : Bytes :=
  fill (pieces name) (v.map fun index => decimal index.toNat)

/-- The keys are the instances of the name with the vectors of `m`, each with the values `m` has for
    it. -/
def HoldsInstances (name : Bytes) (data : StdMap Bytes (List α))
    (m : StdMap (List UInt64) (List α)) : Prop :=
  (∀ (v : List UInt64) values, m[v]? = some values → v.length = holes (pieces name) ∧ values ≠ []) ∧
    ∀ (key : Bytes) values, data[key]? = some values ↔ ∃ v : List UInt64,
      m[v]? = some values ∧ key = instanceKey name v

section Templates

variable {name : Bytes}

/-- The expression of a template matches the instances. -/
theorem exists_regex (hperl : Perl compile regexMatch) (hname : name ≠ [])
    (hplain : PlainName name) : ∃ regex, compile (indexedPattern name) = .ok regex ∧
      ∀ t groups, regexMatch regex t = some groups ↔ Instance (pieces name) groups t := by
  have hatoms := atoms_ne_nil hname
  obtain ⟨regex, hcompile, hmatch⟩ := hperl.compiles _ hatoms (plain_atoms hplain)
  refine ⟨regex, by rw [indexedPattern, replaceAll_eq, hcompile], fun t groups => ?_⟩
  obtain ⟨hsound, hcomplete⟩ := hmatch t
  constructor
  · intro h
    exact matches_iff.mp (hsound groups h)
  · intro h
    cases hfound : regexMatch regex t with
    | none => exact absurd (matches_iff.mpr h) (hcomplete hfound groups)
    | some groups' => rw [(matches_iff.mp (hsound groups' hfound)).unique h]

/-- A key is taken for the values of the numbers its C string has in the holes. -/
theorem vectorOf_eq_some {search : Bytes → Option (List Bytes)}
    (hsearch : ∀ t groups, search t = some groups ↔ Instance (pieces name) groups t)
    {key : Bytes} {v : List UInt64} : vectorOf search key = some v ↔
      ∃ ds, Instance (pieces name) ds (cStr key) ∧ v.map UInt64.toNat = ds.map value := by
  rw [vectorOf, Option.bind_eq_some_iff]
  constructor
  · rintro ⟨groups, hgroups, hv⟩
    have hinstance := (hsearch _ _).mp hgroups
    refine ⟨groups, hinstance, (mapM_toIndex_eq_ok hinstance.2.1).mp ?_⟩
    cases hindexes : groups.mapM toIndex with
    | error e =>
      rw [hindexes] at hv
      exact absurd hv (Option.some_ne_none _).symm
    | ok v' =>
      rw [hindexes] at hv
      rw [← Option.some.inj hv]
  · rintro ⟨ds, hinstance, hv⟩
    refine ⟨ds, (hsearch _ _).mpr hinstance, ?_⟩
    rw [(mapM_toIndex_eq_ok hinstance.2.1).mpr hv]
    rfl

theorem converts_iff {search : Bytes → Option (List Bytes)}
    (hsearch : ∀ t groups, search t = some groups ↔ Instance (pieces name) groups t)
    {key : Bytes} : Converts search key ↔
      ∀ ds, Instance (pieces name) ds (cStr key) → ∀ d ∈ ds, value d < 2 ^ 64 := by
  constructor
  · intro h ds hinstance
    exact (exists_mapM_toIndex hinstance.2.1).mp (h ds ((hsearch _ _).mpr hinstance))
  · intro h groups hgroups
    have hinstance := (hsearch _ _).mp hgroups
    exact (exists_mapM_toIndex hinstance.2.1).mpr (h groups hinstance)

theorem isNumber_decimal (n : Nat) : IsNumber (decimal n) := by
  obtain ⟨d, ds, -, hcons, -⟩ := decimal_eq_cons n
  refine ⟨?_, List.all_eq_true.mpr fun c hc => isDigit_of_mem_decimal hc⟩
  rw [hcons]
  exact List.cons_ne_nil _ _

/-- The key with the indexes `v` is an instance. -/
theorem instance_instanceKey {v : List UInt64} (hlength : v.length = holes (pieces name)) :
    Instance (pieces name) (v.map fun index => decimal index.toNat) (instanceKey name v) := by
  refine ⟨by rw [List.length_map, hlength], ?_, rfl⟩
  intro d hd
  obtain ⟨index, -, rfl⟩ := List.mem_map.mp hd
  exact isNumber_decimal _

theorem map_value_decimal (v : List UInt64) :
    (v.map fun index => decimal index.toNat).map value = v.map UInt64.toNat := by
  rw [List.map_map]
  exact List.map_congr_left fun index _ => value_decimal _

/-- So it is as a C string: it has no NUL. -/
theorem instance_cStr_instanceKey (hplain : PlainName name) {v : List UInt64}
    (hlength : v.length = holes (pieces name)) :
    Instance (pieces name) (v.map fun index => decimal index.toNat)
      (cStr (instanceKey name v)) := by
  have hkey := instance_instanceKey hlength
  rw [cStr_of_zero_notMem (hkey.nul_notMem hplain)]
  exact hkey

/-- **Every vector gets its value**: the lookup of a template over keys that instantiate it. -/
theorem indexed_of_instances (hperl : Perl compile regexMatch) (hname : name ≠ [])
    (hplain : PlainName name) {data : StdMap Bytes (List α)} {m : StdMap (List UInt64) (List α)}
    (h : HoldsInstances name data m) :
    ∃ result, indexed compile regexMatch name data = some (.ok result) ∧
      ∀ v : List UInt64, result[v]? = m[v]?.bind List.head? := by
  obtain ⟨regex, hcompile, hsearch⟩ := exists_regex hperl hname hplain
  obtain ⟨hvectors, hdata⟩ := h
  have hentry : ∀ entry ∈ data.toList,
      ∃ v, m[v]? = some entry.2 ∧ entry.1 = instanceKey name v := by
    intro entry hmem
    exact (hdata entry.1 entry.2).mp (Std.ExtTreeMap.mem_toList_iff_getElem?_eq_some.mp hmem)
  have hinstance : ∀ {v values}, m[v]? = some values →
      Instance (pieces name) (v.map fun index => decimal index.toNat)
        (cStr (instanceKey name v)) := by
    intro v values hv
    exact instance_cStr_instanceKey hplain (hvectors v values hv).1
  have hvector : ∀ {v values}, m[v]? = some values →
      vectorOf (regexMatch regex) (instanceKey name v) = some v := by
    intro v values hv
    exact (vectorOf_eq_some hsearch).mpr ⟨_, hinstance hv, (map_value_decimal v).symm⟩
  have hne : ∀ entry ∈ data.toList, entry.2 ≠ [] := by
    intro entry hmem
    obtain ⟨v, hv, -⟩ := hentry entry hmem
    exact (hvectors v _ hv).2
  -- An entry that is taken for `v` holds the values of `m` for `v`, as no other vector has its key.
  have htaken : ∀ {entry v}, entry ∈ data.toList →
      vectorOf (regexMatch regex) entry.1 = some v → m[v]? = some entry.2 := by
    intro entry v hmem hv
    obtain ⟨v', hv', hkey⟩ := hentry entry hmem
    rw [hkey, hvector hv'] at hv
    rw [← Option.some.inj hv]
    exact hv'
  refine ⟨m.filterMap fun _ values => values.head?, ?_, fun v => ?_⟩
  · rw [indexed, hcompile]
    refine (indexedLoop_eq_ok hne).mpr ⟨fun entry hmem => ?_, fun v => ?_⟩
    · obtain ⟨v, hv, hkey⟩ := hentry entry hmem
      rw [hkey]
      refine (converts_iff hsearch).mpr fun ds hds => ?_
      rw [hds.unique (hinstance hv)]
      intro d hd
      obtain ⟨index, -, rfl⟩ := List.mem_map.mp hd
      rw [value_decimal]
      exact index.toNat_lt
    · rw [Std.ExtTreeMap.getElem?_empty, Option.none_or, Std.ExtTreeMap.getElem?_filterMap']
      cases hv : m[v]? with
      | none =>
        have hnone : firstFor (regexMatch regex) v data.toList = none := by
          refine firstFor_eq_none.mpr fun entry hmem htake => ?_
          rw [htaken hmem htake] at hv
          exact absurd hv (Option.some_ne_none _)
        rw [hnone]
        rfl
      | some values =>
        have hmem : (instanceKey name v, values) ∈ data.toList :=
          Std.ExtTreeMap.mem_toList_iff_getElem?_eq_some.mpr ((hdata _ _).mpr ⟨v, hv, rfl⟩)
        cases hfirst : firstFor (regexMatch regex) v data.toList with
        | none => exact absurd (hvector hv) (firstFor_eq_none.mp hfirst _ hmem)
        | some entry =>
          obtain ⟨hentryMem, htake⟩ := mem_of_firstFor hfirst
          rw [Option.bind_some, Option.bind_some,
            Option.some.inj (hv.symm.trans (htaken hentryMem htake))]
  · exact Std.ExtTreeMap.getElem?_filterMap'

/-- The lookup of a template returns exactly if no number in a key is too large. -/
theorem indexed_returns_iff (hperl : Perl compile regexMatch) (hname : name ≠ [])
    (hplain : PlainName name) {data : StdMap Bytes (List α)}
    (hne : ∀ (key : Bytes) values, data[key]? = some values → values ≠ []) :
    (∃ result, indexed compile regexMatch name data = some (.ok result)) ↔
      ∀ key ∈ data, ∀ ds, Instance (pieces name) ds (cStr key) → ∀ d ∈ ds, value d < 2 ^ 64 := by
  obtain ⟨regex, hcompile, hsearch⟩ := exists_regex hperl hname hplain
  have hentries := toList_ne_nil hne
  rw [indexed, hcompile]
  constructor
  · rintro ⟨result, hresult⟩ key hkey
    have hconverts := forall_keys.mp ((indexedLoop_eq_ok hentries).mp hresult).1
    exact (converts_iff hsearch).mp (hconverts key hkey)
  · intro h
    refine exists_indexedLoop hentries (forall_keys.mpr fun key hkey => ?_) ∅
    exact (converts_iff hsearch).mpr (h key hkey)

/-- **Every vector gets its value.**  With a name of letters, digits, `_` and `[]`, when the keys
    are the name with the vectors of `m` in its holes, written as usual, the lookup is `m` with the
    first value of each vector; so it is for files. -/
theorem getIndexed_of_instances (hperl : Perl compile regexMatch) (hname : name ≠ [])
    (hplain : PlainName name) :
    (∀ (params : Parameters) (m : StdMap (List UInt64) (List Bytes)),
      HoldsInstances name params.data m →
      ∃ result, params.getIndexed compile regexMatch name = some (.ok result) ∧
        ∀ v : List UInt64, result[v]? = m[v]?.bind List.head?) ∧
    ∀ (params : MimeParameters) (m : StdMap (List UInt64) (List File)),
      HoldsInstances name params.fileData m →
      ∃ result, params.getIndexedFiles compile regexMatch name = some (.ok result) ∧
        ∀ v : List UInt64, result[v]? = m[v]?.bind List.head? :=
  ⟨fun _ _ h => indexed_of_instances hperl hname hplain h,
    fun _ _ h => indexed_of_instances hperl hname hplain h⟩

/-- Two holes and two keys, looked up with a library for the expressions of templates. -/
theorem getIndexed_of_instances_two : ∃ result, (Parameters.mk (Std.ExtTreeMap.insert
      (Std.ExtTreeMap.insert ∅ (str "m[1]x[2]") [str "x", str "y"])
        (str "m[10]x[0]") [str "z"])).getIndexed (Expression.compile Exn.unknown)
        Expression.search (str "m[]x[]") = some (.ok result) ∧
    result[([1, 2] : List UInt64)]? = some (str "x") ∧
    result[([10, 0] : List UInt64)]? = some (str "z") ∧
    result[([2, 1] : List UInt64)]? = none := by
  have hholds : HoldsInstances (str "m[]x[]")
      (Std.ExtTreeMap.insert (Std.ExtTreeMap.insert ∅ (str "m[1]x[2]") [str "x", str "y"])
        (str "m[10]x[0]") [str "z"])
      (Std.ExtTreeMap.insert (Std.ExtTreeMap.insert ∅ [1, 2] [str "x", str "y"])
        [10, 0] [str "z"]) := by
    constructor
    · intro v values hv
      simp only [Std.ExtTreeMap.getElem?_insert, Std.ExtTreeMap.getElem?_empty,
        Std.LawfulEqCmp.compare_eq_iff_eq] at hv
      split at hv
      case isTrue hten =>
        rw [← hten, ← Option.some.inj hv]
        decide
      case isFalse =>
        obtain ⟨hone, hvalues⟩ := Option.ite_none_right_eq_some.mp hv
        rw [← hone, ← Option.some.inj hvalues]
        decide
    · intro key values
      simp only [Std.ExtTreeMap.getElem?_insert, Std.ExtTreeMap.getElem?_empty,
        Std.LawfulEqCmp.compare_eq_iff_eq]
      constructor
      · intro hkey
        split at hkey
        case isTrue hten => exact ⟨[10, 0], hkey, hten ▸ by decide⟩
        case isFalse =>
          obtain ⟨rfl, hvalues⟩ := Option.ite_none_right_eq_some.mp hkey
          exact ⟨[1, 2], hvalues, by decide⟩
      · rintro ⟨v, hv, rfl⟩
        split at hv
        case isTrue hten =>
          rw [← hten]
          exact hv
        case isFalse =>
          obtain ⟨rfl, hvalues⟩ := Option.ite_none_right_eq_some.mp hv
          exact hvalues
  obtain ⟨result, hresult, hentries⟩ := (getIndexed_of_instances
    (Expression.perl_search Exn.unknown) (by decide) (by decide)).1 ⟨_⟩ _ hholds
  exact ⟨result, hresult, hentries [1, 2], hentries [10, 0], hentries [2, 1]⟩

/-! ## Large numbers -/

/-- A key is recorded with a value. -/
theorem values_parse_ne_nil (text key : Bytes) (values : List Bytes)
    (h : (Parameters.empty.parse text).data[key]? = some values) : values ≠ [] :=
  Parameters.filled_parse StdMap.filled_empty text key values h

/-- **The lookup of a template returns exactly if no number is too large**: every key of the
    client's text that instantiates the name, up to its first NUL, has numbers below `2 ^ 64` in the
    holes. -/
theorem getIndexed_returns_iff (hperl : Perl compile regexMatch) (hname : name ≠ [])
    (hplain : PlainName name) (text : Bytes) :
    (∃ result, (Parameters.empty.parse text).getIndexed compile regexMatch name =
        some (.ok result)) ↔
      ∀ key ∈ (Parameters.empty.parse text).data, ∀ ds,
        Instance (pieces name) ds (cStr key) → ∀ d ∈ ds, value d < 2 ^ 64 :=
  indexed_returns_iff hperl hname hplain (values_parse_ne_nil text)

/-- A client's index, looked up with a library for the expressions of templates. -/
theorem getIndexed_returns_seven : ∃ result, (Parameters.empty.parse (str "a[7]=x")).getIndexed
    (Expression.compile Exn.unknown) Expression.search (str "a[]") = some (.ok result) := by
  refine (getIndexed_returns_iff (Expression.perl_search Exn.unknown) (by decide) (by decide)
    _).mpr (forall_keys.mp ?_)
  have hlist : (Parameters.empty.parse (str "a[7]=x")).data.toList =
      [(str "a[7]", [str "x"])] := by decide
  rw [hlist]
  intro entry hentry ds hds
  obtain rfl := List.mem_singleton.mp hentry
  rw [hds.unique (show Instance (pieces (str "a[]")) [str "7"] (cStr (str "a[7]")) by decide)]
  intro d hd
  obtain rfl := List.mem_singleton.mp hd
  decide

/-- **Counterexample**: the index `2 ^ 64`. -/
theorem large_index_throws : ¬ ∀ name text, name ≠ [] → PlainName name → ∃ result,
    (Parameters.empty.parse text).getIndexed (Expression.compile Exn.unknown) Expression.search
      name = some (.ok result) := by
  intro h
  have hkeys := (indexed_returns_iff (Expression.perl_search Exn.unknown) (by decide) (by decide)
    (values_parse_ne_nil _)).mp
      (h (str "a[]") (str "a[18446744073709551616]=x") (by decide) (by decide))
  have hlarge := hkeys (str "a[18446744073709551616]") (by decide)
    [str "18446744073709551616"] (by decide) _ List.mem_cons_self
  exact absurd hlarge (by decide)

end Templates

/-! ## One entry for each instance -/

variable (compile regexMatch)

variable {compile regexMatch}

/-- The key is the name with numbers of these values in its holes, and literally so otherwise. -/
def HasVector (name key : Bytes) (v : List UInt64) : Prop :=
  ∃ ds, Instance (pieces name) ds key ∧ v.map UInt64.toNat = ds.map value

/-- What it takes: all captured numbers fit; the expression takes each instance for its own vector;
    no two instances have the same; and any other key that is taken for a vector comes behind an
    instance with that vector. -/
structure Unmistakable (search : Bytes → Option (List Bytes)) (name : Bytes)
    (data : StdMap Bytes (List α)) : Prop where
  converts : ∀ key ∈ data, Converts search key
  taken : ∀ key ∈ data, ∀ ds, Instance (pieces name) ds key →
    ∃ v, vectorOf search key = some v ∧ v.map UInt64.toNat = ds.map value
  distinct : ∀ key ∈ data, ∀ key' ∈ data, ∀ v, HasVector name key v → HasVector name key' v →
    key = key'
  behind : ∀ key ∈ data, ∀ v, vectorOf search key = some v → ¬ HasVector name key v →
    ∃ key' ∈ data, key' < key ∧ HasVector name key' v

theorem map_toNat_injective {v v' : List UInt64} (h : v.map UInt64.toNat = v'.map UInt64.toNat) :
    v = v' :=
  (List.map_inj_right fun _ _ heq => UInt64.toNat_inj.mp heq).mp h

section Bijection

variable {search : Bytes → Option (List Bytes)} {data : StdMap Bytes (List α)}

section KeyOf

variable {keyOf : StdMap (List UInt64) Bytes}
  (hkeyOf : ∀ v : List UInt64, keyOf[v]? = (firstFor search v data.toList).map (·.1))

include hkeyOf

end KeyOf

end Bijection

/-- **For a template, three things can go wrong**: a number is too large; two keys have the same
    numbers, written differently; or a key with a NUL is an instance up to it, and no instance with
    the same numbers comes before. -/
theorem unmistakable_iff_of_template {name : Bytes} (hplain : PlainName name)
    {search : Bytes → Option (List Bytes)}
    (hsearch : ∀ t groups, search t = some groups ↔ Instance (pieces name) groups t)
    {data : StdMap Bytes (List α)} : Unmistakable search name data ↔
      (∀ key ∈ data, ∀ ds, Instance (pieces name) ds (cStr key) → ∀ d ∈ ds, value d < 2 ^ 64) ∧
        (∀ key ∈ data, ∀ key' ∈ data, ∀ v, HasVector name key v → HasVector name key' v →
          key = key') ∧
        ∀ key ∈ data, (0 : UInt8) ∈ key → ∀ v, HasVector name (cStr key) v →
          ∃ key' ∈ data, key' < key ∧ HasVector name key' v := by
  have htaken : ∀ {key v}, vectorOf search key = some v ↔ HasVector name (cStr key) v :=
    vectorOf_eq_some hsearch
  constructor
  · intro h
    refine ⟨fun key hkey => (converts_iff hsearch).mp (h.converts key hkey), h.distinct, ?_⟩
    intro key hkey hzero v hv
    refine h.behind key hkey v (htaken.mpr hv) ?_
    rintro ⟨ds, hds, -⟩
    exact hds.nul_notMem hplain hzero
  · rintro ⟨hlarge, hdistinct, hbehind⟩
    refine ⟨fun key hkey => (converts_iff hsearch).mpr (hlarge key hkey), ?_, hdistinct, ?_⟩
    · intro key hkey ds hds
      have hcStr := cStr_of_zero_notMem (hds.nul_notMem hplain)
      have hsmall := hlarge key hkey ds (by rwa [hcStr])
      obtain ⟨v, hv⟩ := (exists_mapM_toIndex hds.2.1).mpr hsmall
      have hvalues := (mapM_toIndex_eq_ok hds.2.1).mp hv
      exact ⟨v, htaken.mpr ⟨ds, by rwa [hcStr], hvalues⟩, hvalues⟩
    · intro key hkey v htake hnot
      have hvector := htaken.mp htake
      refine hbehind key hkey ?_ v hvector
      by_contra hzero
      rw [cStr_of_zero_notMem hzero] at hvector
      exact hnot hvector

end ThreadServer
