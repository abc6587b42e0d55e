/-
  An upload on its way to a method: the fields and files that a client puts into a multipart body,
  and what a method of one of the two kinds that take files reads out of its parameters.

  1. **The request** — `Presents` says as what part `mimetic` shows a field or a file: the key of a
     disposition parameter is compared without regard to case, the last one counts, and a part is a
     field if it has neither a filename nor a content type.
  2. **The parameters** (`mimeParams_holds`) — under each name stand the values of the query and
     behind them those of the fields, and beside them the files.
  3. **Arrays** (`indexed_of_usual`) — `getIndexed` and `getIndexedFiles` pick the instances of a
     template out of all that the client has sent, provided it has written their indexes as usual.
  4. **The exchange** (`upload_exchange`) — the handler gets these parameters, and what it then does
     is what the client is answered.
-/
import ThreadServer.FormExchange
import ThreadServer.Indexed

namespace ThreadServer

open Bytes FormEncoding Template Expression MimeParameters

variable {Header Regex V J α : Type}

/-! ## The request -/

/-- What a client puts into a multipart form. -/
inductive Item
  | field (name value : Bytes)
  | file (name : Bytes) (file : File)

/-- The fields among the items, as pairs. -/
def fields (items : List Item) : List (Bytes × Bytes) :=
  items.filterMap fun
    | .field name value => some (name, value)
    | .file _ _ => none

/-- The files among the items, with their names. -/
def files (items : List Item) : List (Bytes × File) :=
  items.filterMap fun
    | .field _ _ => none
    | .file name file => some (name, file)

/-- What the entries have under `name`, in order. -/
def under (name : Bytes) (entries : List (Bytes × α)) : List α :=
  (entries.filter (·.1 = name)).map (·.2)

/-- The value that a disposition has for a key: the last one; the empty string if it has none. -/
inductive HasParam (paramList : List (Bytes × Bytes)) (key : Bytes) : Bytes → Prop
  | last {before after : List (Bytes × Bytes)} {key' value : Bytes} :
      paramList = before ++ (key', value) :: after → istringEq key' key = true →
      (∀ param ∈ after, istringEq param.1 key = false) → HasParam paramList key value
  | none : (∀ param ∈ paramList, istringEq param.1 key = false) → HasParam paramList key []

/-- The bytes that the body of a part stands for, in the encoding that its header names. -/
inductive Carries (mimetic : Mimetic) (part : MimePart) : Bytes → Prop
  | base64 : istringEq part.mechanism (str "Base64") = true →
      Carries mimetic part (mimetic.base64Decoder part.body)
  | quotedPrintable : istringEq part.mechanism (str "Quoted-Printable") = true →
      Carries mimetic part (mimetic.qpDecoder part.body)
  | plain : istringEq part.mechanism (str "Base64") = false →
      istringEq part.mechanism (str "Quoted-Printable") = false → Carries mimetic part part.body

/-- **The part as which an item is shown.** -/
inductive Presents (mimetic : Mimetic) : Item → MimePart → Prop
  | field {part : MimePart} {name value : Bytes} : HasParam part.paramList (str "name") name →
      HasParam part.paramList (str "filename") [] → part.type = [] → part.subtype = [] →
      Carries mimetic part value → Presents mimetic (.field name value) part
  | file {part : MimePart} {name filename data : Bytes} :
      HasParam part.paramList (str "name") name →
      HasParam part.paramList (str "filename") filename →
      filename ≠ [] ∨ part.type ≠ [] ∨ part.subtype ≠ [] → Carries mimetic part data →
      Presents mimetic
        (.file name { data, contentType := part.type ++ str "/" ++ part.subtype, filename }) part

/-- The items in the body of a request; `mimetic` gets to see its content type above it. -/
structure CarriesItems (mimetic : Mimetic) (request : Request Header) (items : List Item) :
    Prop where
  body : hasBody request = true
  multipart : (str "multipart/form-data").isPrefixOf request.contentType = true
  parts : List.Forall₂ (Presents mimetic) items (mimetic.parts
    (str "Content-Type: " ++ request.contentType ++ str "\r\n\r\n" ++ request.data))

/-! ## The parts -/

theorem exists_hasParam (paramList : List (Bytes × Bytes)) (key : Bytes) :
    ∃ value, HasParam paramList key value := by
  induction paramList with
  | nil => exact ⟨[], .none nofun⟩
  | cons param paramList ih =>
    obtain ⟨value, hvalue⟩ := ih
    cases hvalue with
    | @last before _ _ _ hlist hkey hafter =>
      have hcons : param :: paramList = (param :: before) ++ _ := congrArg (param :: ·) hlist
      exact ⟨value, .last hcons hkey hafter⟩
    | none hnone =>
      cases hkey : istringEq param.1 key with
      | true => exact ⟨param.2, .last (List.nil_append _).symm hkey hnone⟩
      | false => exact ⟨[], .none (List.forall_mem_cons.mpr ⟨hkey, hnone⟩)⟩

theorem exists_carries (mimetic : Mimetic) (part : MimePart) :
    ∃ data, Carries mimetic part data := by
  cases hbase64 : istringEq part.mechanism (str "Base64") with
  | true => exact ⟨_, .base64 hbase64⟩
  | false =>
    cases hqp : istringEq part.mechanism (str "Quoted-Printable") with
    | true => exact ⟨_, .quotedPrintable hqp⟩
    | false => exact ⟨_, .plain hbase64 hqp⟩

/-- Every part presents an item. -/
theorem exists_presents (mimetic : Mimetic) (part : MimePart) :
    ∃ item, Presents mimetic item part := by
  obtain ⟨name, hname⟩ := exists_hasParam part.paramList (str "name")
  obtain ⟨filename, hfilename⟩ := exists_hasParam part.paramList (str "filename")
  obtain ⟨data, hdata⟩ := exists_carries mimetic part
  by_cases hfile : filename ≠ [] ∨ part.type ≠ [] ∨ part.subtype ≠ []
  · exact ⟨_, .file hname hfilename hfile hdata⟩
  · simp only [not_or, not_not] at hfile
    obtain ⟨rfl, htype, hsubtype⟩ := hfile
    exact ⟨_, .field hname hfilename htype hsubtype hdata⟩

/-- So whatever a client sends as a multipart body carries items. -/
theorem exists_carriesItems (mimetic : Mimetic) {request : Request Header}
    (hbody : hasBody request = true)
    (hmultipart : (str "multipart/form-data").isPrefixOf request.contentType = true) :
    ∃ items, CarriesItems mimetic request items := by
  generalize hparts : mimetic.parts
    (str "Content-Type: " ++ request.contentType ++ str "\r\n\r\n" ++ request.data) = parts
  have hitems : ∃ items, List.Forall₂ (Presents mimetic) items parts := by
    clear hparts
    induction parts with
    | nil => exact ⟨[], .nil⟩
    | cons part parts ih =>
      obtain ⟨items, hitems⟩ := ih
      obtain ⟨item, hitem⟩ := exists_presents mimetic part
      exact ⟨item :: items, .cons hitem hitems⟩
  obtain ⟨items, hitems⟩ := hitems
  exact ⟨items, hbody, hmultipart, hparts ▸ hitems⟩

/-- Parameters with other keys do not count. -/
theorem dispositionValue_skip {key : Bytes} {paramList : List (Bytes × Bytes)}
    (h : ∀ param ∈ paramList, istringEq param.1 key = false) (value : Bytes) :
    paramList.foldl (fun value param => if istringEq param.1 key then param.2 else value) value =
      value := by
  induction paramList with
  | nil => rfl
  | cons param paramList ih =>
    obtain ⟨hparam, hparams⟩ := List.forall_mem_cons.mp h
    rw [List.foldl_cons, hparam]
    exact ih hparams

theorem dispositionValue_of_hasParam {part : MimePart} {key value : Bytes}
    (h : HasParam part.paramList key value) : dispositionValue part key = value := by
  cases h with
  | last hlist hkey hafter =>
    rw [dispositionValue, hlist, List.foldl_append, List.foldl_cons, if_pos hkey]
    exact dispositionValue_skip hafter _
  | none hnone => exact dispositionValue_skip hnone []

/-- No mechanism has two names. -/
theorem istringEq_of_eq {a b c : Bytes} (hb : istringEq a b = true) (hc : istringEq a c = true) :
    istringEq b c = true := by
  simp only [istringEq, decide_eq_true_eq] at hb hc ⊢
  exact hb.symm.trans hc

theorem decodedBody_of_carries {mimetic : Mimetic} {part : MimePart} {data : Bytes}
    (h : Carries mimetic part data) : decodedBody mimetic part = data := by
  cases h with
  | base64 hbase64 => rw [decodedBody, if_pos hbase64]
  | quotedPrintable hqp =>
    have hnot : ¬ istringEq part.mechanism (str "Base64") = true := fun hbase64 =>
      absurd (istringEq_of_eq hbase64 hqp) (by decide)
    rw [decodedBody, if_neg hnot, if_pos hqp]
  | plain hbase64 hqp =>
    rw [decodedBody, if_neg (Bool.eq_false_iff.mp hbase64), if_neg (Bool.eq_false_iff.mp hqp)]

/-- **Step lemma**: a part is filed as the item it presents. -/
theorem parsePart_presents {mimetic : Mimetic} {item : Item} {part : MimePart}
    (h : Presents mimetic item part) (params : MimeParameters) :
    parsePart mimetic params part =
      match item with
      | .field name value => { params with data := params.data.pushBack name value }
      | .file name file => { params with fileData := params.fileData.pushBack name file } := by
  rw [parsePart_eq]
  cases h with
  | field hname hfilename htype hsubtype hvalue =>
    have hfield : IsField part := ⟨dispositionValue_of_hasParam hfilename, htype, hsubtype⟩
    rw [if_pos hfield, dispositionValue_of_hasParam hname, decodedBody_of_carries hvalue]
  | file hname hfilename hfile hdata =>
    have hnot : ¬ IsField part := by
      rintro ⟨hempty, htype, hsubtype⟩
      rw [dispositionValue_of_hasParam hfilename] at hempty
      rcases hfile with h | h | h
      · exact h hempty
      · exact h htype
      · exact h hsubtype
    rw [if_neg hnot, fileOf, dispositionValue_of_hasParam hname,
      dispositionValue_of_hasParam hfilename, decodedBody_of_carries hdata]

/-! ## The parameters -/

/-- Under every name, the map holds the values it has in `entries`. -/
def HoldsEntries (data : StdMap Bytes (List α)) (entries : List (Bytes × α)) : Prop :=
  ∀ name, data[name]? = if under name entries = [] then none else some (under name entries)

theorem holdsEntries_empty : HoldsEntries (∅ : StdMap Bytes (List α)) [] := fun _ => by
  simp [under]

theorem under_concat (name : Bytes) (entries : List (Bytes × α)) (name' : Bytes) (value : α) :
    under name (entries ++ [(name', value)]) =
      if name = name' then under name entries ++ [value] else under name entries := by
  rw [under, List.filter_append, List.map_append]
  by_cases h : name = name'
  · rw [if_pos h, List.filter_cons_of_pos (by simp [h])]
    rfl
  · rw [if_neg h, List.filter_cons_of_neg (by simpa using Ne.symm h)]
    exact List.append_nil _

theorem mem_of_under_ne_nil {name : Bytes} {entries : List (Bytes × α)}
    (h : under name entries ≠ []) : ∃ entry ∈ entries, entry.1 = name := by
  obtain ⟨value, hvalue⟩ := List.exists_mem_of_ne_nil _ h
  obtain ⟨entry, hentry, -⟩ := List.mem_map.mp hvalue
  obtain ⟨hmem, hname⟩ := List.mem_filter.mp hentry
  exact ⟨entry, hmem, of_decide_eq_true hname⟩

/-- Another value under its name. -/
theorem HoldsEntries.pushBack {data : StdMap Bytes (List α)} {entries : List (Bytes × α)}
    (h : HoldsEntries data entries) (name : Bytes) (value : α) :
    HoldsEntries (data.pushBack name value) (entries ++ [(name, value)]) := by
  intro name'
  rw [StdMap.getElem?_pushBack, under_concat]
  by_cases hname : name' = name
  · subst hname
    rw [if_pos rfl, if_pos rfl, if_neg (List.concat_ne_nil _ _), h name']
    by_cases hnone : under name' entries = []
    · rw [if_pos hnone, hnone]
      rfl
    · rw [if_neg hnone]
      rfl
  · rw [if_neg hname, if_neg hname]
    exact h name'

/-- The parameters hold these pairs and these files. -/
structure HoldsUpload (params : MimeParameters) (pairs : List (Bytes × Bytes))
    (named : List (Bytes × File)) : Prop where
  data : HoldsEntries params.data pairs
  fileData : HoldsEntries params.fileData named

/-- The run lemma: the parts add their fields and their files. -/
theorem HoldsUpload.parts {mimetic : Mimetic} {items : List Item} {parts : List MimePart}
    (hparts : List.Forall₂ (Presents mimetic) items parts) {params : MimeParameters}
    {pairs : List (Bytes × Bytes)} {named : List (Bytes × File)}
    (h : HoldsUpload params pairs named) :
    HoldsUpload (parts.foldl (parsePart mimetic) params) (pairs ++ fields items)
      (named ++ files items) := by
  induction hparts generalizing params pairs named with
  | nil =>
    rw [fields, files, List.filterMap_nil, List.filterMap_nil, List.append_nil, List.append_nil]
    exact h
  | @cons item part items parts hpart _ ih =>
    rw [List.foldl_cons, parsePart_presents hpart]
    cases item with
    | field name value =>
      have hfields : fields (.field name value :: items) = [(name, value)] ++ fields items := rfl
      have hfiles : files (.field name value :: items) = files items := rfl
      rw [hfields, hfiles, ← List.append_assoc]
      exact ih ⟨h.data.pushBack name value, h.fileData⟩
    | file name file =>
      have hfields : fields (.file name file :: items) = fields items := rfl
      have hfiles : files (.file name file :: items) = [(name, file)] ++ files items := rfl
      rw [hfields, hfiles, ← List.append_assoc]
      exact ih ⟨h.data, h.fileData.pushBack name file⟩

/-- **The parameters of an upload**: the pairs of the query, behind them the fields, and beside them
    the files. -/
theorem mimeParams_holds {mimetic : Mimetic} {request : Request Header} {p : Bytes}
    {queryPairs : List (Bytes × Bytes)} {items : List Item} (hp : ∀ c ∈ p, isMark c = false)
    (hquery : CarriesQuery p queryPairs request.unparsedUri)
    (hitems : CarriesItems mimetic request items) :
    HoldsUpload (mimeParams mimetic (queryText request.unparsedUri) request)
      (queryPairs ++ fields items) (files items) := by
  have hfirst : HoldsUpload ((queryText request.unparsedUri).toList.foldl MimeParameters.parse
      MimeParameters.empty) queryPairs [] := by
    rcases queryText_of_carries hp hquery with ⟨rfl, hnone⟩ | ⟨text, hsome, htext⟩
    · rw [hnone]
      exact ⟨Parameters.holds_empty, holdsEntries_empty⟩
    · rw [hsome]
      exact ⟨Parameters.holds_parse Parameters.holds_empty htext, holdsEntries_empty⟩
  rw [mimeParams, if_pos hitems.body, if_pos hitems.multipart]
  exact hfirst.parts hitems.parts

/-! ## Arrays -/

/-- A name that instantiates the template has its indexes written as usual. -/
def Usual (template name : Bytes) : Prop :=
  ∀ ds, Instance (pieces template) ds (cStr name) →
    ∃ v : List UInt64, v.length = holes (pieces template) ∧ name = instanceKey template v

section Arrays

variable {compile : Bytes → Except Exn Regex} {regexMatch : Regex → Bytes → Option (List Bytes)}
  {template : Bytes}

/-- A usual name is taken for the indexes that are written in it, and for no others. -/
theorem vectorOf_usual {search : Bytes → Option (List Bytes)} (hplain : PlainName template)
    (hsearch : ∀ t groups, search t = some groups ↔ Instance (pieces template) groups t)
    {name : Bytes} (husual : Usual template name) {v : List UInt64} :
    vectorOf search name = some v ↔
      v.length = holes (pieces template) ∧ name = instanceKey template v := by
  rw [vectorOf_eq_some hsearch]
  constructor
  · rintro ⟨ds, hinstance, hv⟩
    obtain ⟨v', hlength, hname⟩ := husual ds hinstance
    have hds := hinstance.unique (hname ▸ instance_cStr_instanceKey hplain hlength)
    obtain rfl : v = v' := map_toNat_injective (by rw [hv, hds, map_value_decimal])
    exact ⟨hlength, hname⟩
  · rintro ⟨hlength, rfl⟩
    exact ⟨_, instance_cStr_instanceKey hplain hlength, (map_value_decimal v).symm⟩

/-- **The lookup of a template** among names written as usual: every vector has the first value
    under its name, and names that do not instantiate the template do not matter. -/
theorem indexed_of_usual (hperl : Perl compile regexMatch) (hname : template ≠ [])
    (hplain : PlainName template) {data : StdMap Bytes (List α)} {entries : List (Bytes × α)}
    (hdata : HoldsEntries data entries) (husual : ∀ entry ∈ entries, Usual template entry.1) :
    ∃ result, indexed compile regexMatch template data = some (.ok result) ∧
      ∀ v : List UInt64, result[v]? =
        if v.length = holes (pieces template) then
          (under (instanceKey template v) entries).head?
        else none := by
  obtain ⟨regex, hcompile, hsearch⟩ := exists_regex hperl hname hplain
  have hvalues : ∀ {name : Bytes} {values : List α}, data[name]? = some values →
      values = under name entries ∧ values ≠ [] := by
    intro name values hsome
    rw [hdata name] at hsome
    split at hsome
    · cases hsome
    · rename_i hne
      cases hsome
      exact ⟨rfl, hne⟩
  have hkeys : ∀ name ∈ data, Usual template name := by
    intro name hmem
    obtain ⟨values, hsome⟩ := Option.isSome_iff_exists.mp
      (Std.ExtTreeMap.mem_iff_isSome_getElem?.mp hmem)
    obtain ⟨rfl, hne⟩ := hvalues hsome
    obtain ⟨entry, hentry, rfl⟩ := mem_of_under_ne_nil hne
    exact husual entry hentry
  have hentries := toList_ne_nil fun _ _ hsome => (hvalues hsome).2
  have hconverts : ∀ name ∈ data, Converts (regexMatch regex) name := by
    intro name hmem
    refine (converts_iff hsearch).mpr fun ds hinstance d hd => ?_
    obtain ⟨v, hlength, rfl⟩ := hkeys name hmem ds hinstance
    rw [hinstance.unique (instance_cStr_instanceKey hplain hlength)] at hd
    obtain ⟨index, -, rfl⟩ := List.mem_map.mp hd
    rw [value_decimal]
    exact index.toNat_lt
  obtain ⟨result, hresult⟩ := exists_indexedLoop hentries (forall_keys.mpr hconverts) ∅
  refine ⟨result, by rw [indexed, hcompile]; exact hresult, fun v => ?_⟩
  rw [((indexedLoop_eq_ok hentries).mp hresult).2 v, Std.ExtTreeMap.getElem?_empty, Option.none_or]
  have htaken : ∀ {name : Bytes}, name ∈ data →
      (vectorOf (regexMatch regex) name = some v ↔
        v.length = holes (pieces template) ∧ name = instanceKey template v) :=
    fun hmem => vectorOf_usual hplain hsearch (hkeys _ hmem)
  cases hfirst : firstFor (regexMatch regex) v data.toList with
  | some entry =>
    obtain ⟨name, values⟩ := entry
    obtain ⟨hsome, htake, -⟩ := firstFor_toList hfirst
    have hmem : name ∈ data := Std.ExtTreeMap.mem_iff_isSome_getElem?.mpr (by rw [hsome]; rfl)
    obtain ⟨hlength, rfl⟩ := (htaken hmem).mp htake
    rw [if_pos hlength, Option.bind_some, (hvalues hsome).1]
  | none =>
    rw [Option.bind_none]
    split
    · rename_i hlength
      cases hheld : data[instanceKey template v]? with
      | none =>
        rw [hdata] at hheld
        split at hheld
        · rename_i hnil
          rw [hnil]
          rfl
        · cases hheld
      | some values =>
        have hmem : (instanceKey template v) ∈ data :=
          Std.ExtTreeMap.mem_iff_isSome_getElem?.mpr (by rw [hheld]; rfl)
        exact absurd ((htaken hmem).mpr ⟨hlength, rfl⟩) (firstFor_eq_none.mp hfirst (_, values)
          (Std.ExtTreeMap.mem_toList_iff_getElem?_eq_some.mpr hheld))
    · rfl

end Arrays

/-! ## The exchange -/

namespace Wrapper

/-- The wrapper hands its handler these parameters, files and all, and the handler ends like
    this. -/
inductive ReceivesUpload (env : WrapperEnv V J) (request : Request Header)
    (response : Response Header) (params : MimeParameters) (ended : CallResult Header Unit) :
    Wrapper Header V J → Prop
  | httpMethod2 {handler} : handler request response params = ended →
      ReceivesUpload env request response params ended (.httpMethod2 handler)
  | jsonMethod2 {handler} :
      storeResult env.convert
        (handler request { response with contentType := jsonContentType } params) = ended →
      ReceivesUpload env request response params ended (.jsonMethod2 handler)

/-- The kinds whose handlers take files. -/
def TakesFiles : Wrapper Header V J → Prop
  | .httpMethod2 _ | .jsonMethod2 _ => True
  | .httpMethod _ | .jsonMethod _ | .jsonRPCMethod _ => False

theorem call_upload (env : WrapperEnv V J) {wrapper : Wrapper Header V J}
    (hkind : wrapper.TakesFiles) (request : Request Header) (response : Response Header) :
    ∃ ended, wrapper.ReceivesUpload env request response
        (mimeParams env.mimetic (queryText request.unparsedUri) request) ended ∧
      wrapper.call env request response = catchHttpError ended := by
  cases wrapper with
  | httpMethod2 handler => exact ⟨_, .httpMethod2 rfl, rfl⟩
  | jsonMethod2 handler => exact ⟨_, .jsonMethod2 rfl, rfl⟩
  | httpMethod handler | jsonMethod handler | jsonRPCMethod handler => exact hkind.elim

end Wrapper

theorem getFiles_of_holds {params : MimeParameters} {named : List (Bytes × File)}
    (h : HoldsEntries params.fileData named) (name : Bytes) :
    params.getFiles name = under name named := by
  rw [getFiles_eq, h name]
  by_cases hnone : under name named = []
  · rw [if_pos hnone, hnone]
    rfl
  · rw [if_neg hnone]
    rfl

namespace Worker

/-- **The exchange.**  An upload is sent to a method of one of the two kinds that take files: from
    the parameters that its handler gets, the accessors read under every name the values of the
    query and behind them those of the fields, and the files, each as it was presented; of an array
    whose indexes are written as usual, `getIndexed` and `getIndexedFiles` read the first of each
    place, whatever else has been sent; and the reply is what the handler's end makes of the
    response. -/
theorem upload_exchange (w : Worker Header Regex) {io : HttpIo Header} {socket : SocketWork}
    (hforbidden : socket.forbidden = false) (hsend : ∀ sends data, io.sendData sends data = .ok ())
    (s : WorkerState) (env : WrapperEnv V J) {wrapper : Wrapper Header V J}
    (hkind : wrapper.TakesFiles) {request : Request Header} {p : Bytes}
    {queryPairs : List (Bytes × Bytes)} {items : List Item} {index : Nat} {groups : List Bytes}
    (hread : w.ReadsRequest io request) (hp : ∀ c ∈ p, isMark c = false)
    (hquery : CarriesQuery p queryPairs request.unparsedUri)
    (hitems : CarriesItems env.mimetic request items)
    (hfirst : w.FirstMatch p index (wrapper.call env) groups) :
    ∃ params ended,
      (∀ {α : Type} (cast : Bytes → Except Exn α) (name : Bytes),
        params.get cast name = (under name (queryPairs ++ fields items)).mapM cast ∧
        params.getFirst cast name =
          some ((under name (queryPairs ++ fields items)).head?.elim (.ok none)
            fun value => (cast value).map some)) ∧
      (∀ name, params.getFiles name = under name (files items)) ∧
      (∀ {R : Type} {compile : Bytes → Except Exn R} {regexMatch : R → Bytes → Option (List Bytes)}
        (template : Bytes), Perl compile regexMatch → template ≠ [] → PlainName template →
        ((∀ pair ∈ queryPairs ++ fields items, Usual template pair.1) →
          ∃ result, params.getIndexed compile regexMatch template = some (.ok result) ∧
            ∀ v : List UInt64, result[v]? = if v.length = holes (pieces template) then
              (under (instanceKey template v) (queryPairs ++ fields items)).head? else none) ∧
        ((∀ file ∈ files items, Usual template file.1) →
          ∃ result, params.getIndexedFiles compile regexMatch template = some (.ok result) ∧
            ∀ v : List UInt64, result[v]? = if v.length = holes (pieces template) then
              (under (instanceKey template v) (files items)).head? else none)) ∧
      wrapper.ReceivesUpload env { request with matchGroups := groups } (w.initialResponse request)
        params ended ∧
      w.handle io socket s = (.ok (), ⟨none, s.events ++
        (.call index (some socket) :: w.reply (w.afterCall (catchHttpError ended)))⟩) := by
  have huri : request.uri = p := by
    cases hread with
    | intro => exact path_of_carries hp hquery
  obtain ⟨hdata, hfileData⟩ := mimeParams_holds hp hquery hitems
  have hpairs : Holds (mimeParams env.mimetic (queryText request.unparsedUri) request).toParameters
      (queryPairs ++ fields items) := hdata
  obtain ⟨ended, hreceives, hcall⟩ := wrapper.call_upload env hkind
    { request with matchGroups := groups } (w.initialResponse request)
  refine ⟨mimeParams env.mimetic (queryText request.unparsedUri) request, ended,
    fun cast name => ⟨?_, ?_⟩, fun name => ?_, fun template hperl hname hplain => ⟨?_, ?_⟩,
    hreceives, ?_⟩
  · exact Parameters.get_of_holds hpairs cast name
  · exact Parameters.getFirst_of_holds hpairs cast name
  · exact getFiles_of_holds hfileData name
  · exact indexed_of_usual hperl hname hplain hdata
  · exact indexed_of_usual hperl hname hplain hfileData
  · exact handle_of_firstMatch hforbidden hsend s hread (huri ▸ hfirst) hcall

/-- A method that answers with the bytes of a file. -/
def gallery : Wrapper Unit Unit Unit :=
  .httpMethod2 fun _ response params =>
    (.ok (), { response with data := (params.getFiles (str "f[0]")).flatMap (·.data) })

/-- A field, and a file in Base64. -/
def galleryParts : List MimePart :=
  [{ type := [], subtype := [], paramList := [(str "name", str "a")], mechanism := [],
     body := str "2" },
    { type := str "image", subtype := str "png",
      paramList := [(str "Name", str "f[0]"), (str "filename", str "p.png")],
      mechanism := str "base64", body := str "AQI=" }]

/-- What the handler uses of other libraries, for the body below. -/
def galleryEnv : WrapperEnv Unit Unit :=
  { redirectEnv with
    mimetic := { parts _ := galleryParts, base64Decoder _ := [1, 2], qpDecoder := id } }

/-- A worker with this one method; all requests are multipart. -/
def galleryWorker : Worker Unit Bytes :=
  { redirectWorker with
    http := { redirectWorker.http with get _ _ := some (str "multipart/form-data; boundary=x") }
    registry := [(str "/a", gallery.call galleryEnv)] }

/-- A connection with a value in the query, and the two parts in the body. -/
def galleryIo : HttpIo Unit where
  readLine := .ok (str "POST /a?a=1 HTTP/1.0")
  splitBySpace _ _ := .ok [str "POST", str "/a?a=1", str "HTTP/1.0"]
  readHeader := .ok ()
  readContent _ := .ok
    (str "--x\r\nContent-Disposition: form-data; name=a\r\n\r\n2\r\n--x\r\n" ++
      str "Content-Disposition: form-data; Name=\"f[0]\"; filename=p.png\r\n" ++
      str "Content-Type: image/png\r\nContent-Transfer-Encoding: base64\r\n\r\nAQI=\r\n--x--\r\n")
  sendData _ _ := .ok ()

theorem gallery_presents : List.Forall₂ (Presents galleryEnv.mimetic)
    [.field (str "a") (str "2"),
      .file (str "f[0]")
        { data := [1, 2], contentType := str "image/png", filename := str "p.png" }]
    galleryParts := by
  have hfield : HasParam [(str "name", str "a")] (str "name") (str "a") :=
    .last (List.nil_append _).symm (by decide) nofun
  have hname : HasParam [(str "Name", str "f[0]"), (str "filename", str "p.png")] (str "name")
      (str "f[0]") :=
    .last (List.nil_append _).symm (by decide) (by decide)
  have hfilename : HasParam [(str "Name", str "f[0]"), (str "filename", str "p.png")]
      (str "filename") (str "p.png") :=
    .last (show _ = [(str "Name", str "f[0]")] ++ _ from rfl) (by decide) nofun
  have hbytes : Carries galleryEnv.mimetic galleryParts[1] [1, 2] := .base64 (by decide)
  refine .cons ?_ (.cons ?_ .nil)
  · exact .field hfield (.none (by decide)) rfl rfl (.plain rfl rfl)
  · exact .file hname hfilename (.inl (List.cons_ne_nil _ _)) hbytes

theorem gallery_exchange :
    ∃ (params : MimeParameters) (result : StdMap (List UInt64) File) (ended : CallResult Unit Unit),
      params.get .ok (str "a") = .ok [str "1", str "2"] ∧
      params.getIndexedFiles (Expression.compile Exn.unknown) Expression.search (str "f[]") =
        some (.ok result) ∧
      result[([0] : List UInt64)]? =
        some { data := [1, 2], contentType := str "image/png", filename := str "p.png" } ∧
      galleryWorker.handle galleryIo ⟨7, false⟩ ⟨none, []⟩ = (.ok (), ⟨none,
        .call 0 (some ⟨7, false⟩) ::
          galleryWorker.reply (galleryWorker.afterCall (catchHttpError ended))⟩) := by
  have hquery : CarriesQuery (str "/a") [(str "a", str "1")]
      (str "/a" ++ chr '?' :: str "a=1") := by
    refine .query ⟨[str "a=1"], .cons ⟨str "a", str "1", ?_, ?_, by decide⟩ .nil, by decide⟩
      (by decide)
    all_goals exact .cons (.raw (by decide)) .nil
  obtain ⟨params, ended, hget, -, hindexed, -, hhandle⟩ :=
    @upload_exchange _ _ _ _ galleryWorker galleryIo ⟨7, false⟩ rfl (fun _ _ => rfl) ⟨none, []⟩
      galleryEnv gallery trivial _ (str "/a") _ _ 0 [] (.intro rfl rfl (.inl rfl) rfl rfl)
      (List.forall_mem_cons.mpr ⟨rfl, List.forall_mem_singleton.mpr rfl⟩) hquery
      ⟨rfl, by decide, gallery_presents⟩
      ⟨[], str "/a", [], rfl, rfl, nofun,
        show galleryWorker.regexMatch (str "/a") (cStr (str "/a")) = some [] by decide⟩
  obtain ⟨result, hresult, hentries⟩ := (hindexed (str "f[]") (Expression.perl_search Exn.unknown)
    (by decide) (by decide)).2 (List.forall_mem_singleton.mpr fun ds hds => ⟨[0], by decide⟩)
  refine ⟨params, result, ended, ?_, hresult, ?_, hhandle⟩
  · rw [(hget .ok (str "a")).1]
    decide
  · rw [hentries [0]]
    decide

end Worker

end ThreadServer
