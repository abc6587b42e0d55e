/-
  A form on its way to a method: the pairs that a client writes into the query and the body of its
  request, and what the registered method reads out of its parameters.

  1. **The request** — `CarriesQuery` and `CarriesBody` say where pairs stand in a request, in any
     form encoding; a `#` cannot stand in a query, because the wrappers would parse what follows it
     (`fragment_parsed`).
  2. **The parameters** (`formParams_lookup`) — under each name stand the values of the query and
     behind them those of the body.
  3. **The accessors** (`get_of_holds`, `getFirst_of_holds`, `getBool_of_holds`,
     `getFirstBool_of_holds`) — `get` converts them all and `getFirst` the first, so a value that
     cannot be converted throws in `getFirst` only if it is the first one.
  4. **The exchange** (`form_exchange`) — the worker cuts the path off the target, finds the first
     pattern that matches it, and its handler gets these parameters, whichever of the four kinds of
     method it is; what the handler then does is what the client is answered.
-/
import ThreadServer.HttpWorker

namespace ThreadServer

open Bytes FormEncoding

variable {Header Regex V J : Type}

/-! ## The request -/

/-- The target of a request for the path `p`, with the pairs of its query. -/
inductive CarriesQuery (p : Bytes) : List (Bytes × Bytes) → Bytes → Prop
  | none : CarriesQuery p [] p
  | fragment (f : Bytes) : CarriesQuery p [] (p ++ chr '#' :: f)
  | query {pairs : List (Bytes × Bytes)} {text : Bytes} : EncodesForm pairs text → chr '#' ∉ text →
      CarriesQuery p pairs (p ++ chr '?' :: text)

/-- The pairs in the body of a request. -/
inductive CarriesBody (request : Request Header) : List (Bytes × Bytes) → Prop
  | none : hasBody request = false → CarriesBody request []
  | body {pairs : List (Bytes × Bytes)} : hasBody request = true →
      (str "multipart/form-data").isPrefixOf request.contentType = false →
      EncodesForm pairs request.data → CarriesBody request pairs

/-- The wrappers parse the query, and nothing where there is none. -/
theorem queryText_of_carries {p target : Bytes} {pairs : List (Bytes × Bytes)}
    (hp : ∀ c ∈ p, isMark c = false) (h : CarriesQuery p pairs target) :
    (pairs = [] ∧ queryText target = none) ∨
      ∃ text, queryText target = some text ∧ EncodesForm pairs text := by
  cases h with
  | none =>
    refine .inl ⟨rfl, ?_⟩
    rw [queryText, find_eq_none.mpr (not_mem_of_path hp).1]
  | fragment f =>
    refine .inl ⟨rfl, ?_⟩
    have hquery : query (p ++ chr '#' :: f) = none := by
      simp only [query, (path_append_cons hp (show isMark (chr '#') = true from rfl) f).2]
      exact if_neg (by decide)
    have hagrees := (queryText_eq_query_iff (p ++ chr '#' :: f)).mpr fun rest hrest => by
      rw [(path_append_cons hp (show isMark (chr '#') = true from rfl) f).2] at hrest
      exact absurd (List.cons.inj hrest).1 (by decide)
    rw [hagrees, hquery]
  | @query _ text htext hmark =>
    refine .inr ⟨text, ?_, htext⟩
    have hafter := (path_append_cons hp (show isMark (chr '?') = true from rfl) text).2
    have hquery : query (p ++ chr '?' :: text) = some text := by
      have happend := query_append_cons hp hmark (s := []) fun _ hc =>
        absurd hc (Option.not_mem_none _)
      rwa [List.append_nil] at happend
    have hagrees := (queryText_eq_query_iff (p ++ chr '?' :: text)).mpr fun rest hrest => by
      rw [hafter] at hrest
      exact (List.cons.inj hrest).2 ▸ hmark
    rw [hagrees, hquery]

/-- And the worker takes the path off, whatever follows it. -/
theorem path_of_carries {p target : Bytes} {pairs : List (Bytes × Bytes)}
    (hp : ∀ c ∈ p, isMark c = false) (h : CarriesQuery p pairs target) : path target = p := by
  cases h with
  | none =>
    have happend := (path_append hp (s := []) nofun).1
    rwa [List.append_nil] at happend
  | fragment f => exact (path_append_cons hp rfl f).1
  | query htext hmark => exact (path_append_cons hp rfl _).1

/-! ## The parameters -/

/-- Under every name, the parameters hold the values that the pairs have under it. -/
def Holds (params : Parameters) (pairs : List (Bytes × Bytes)) : Prop :=
  ∀ name, params.data[name]? =
    if Parameters.valuesOf name pairs = [] then none else some (Parameters.valuesOf name pairs)

namespace Parameters

theorem holds_empty : Holds empty [] := fun _ => by simp [empty, valuesOf]

/-- Parsing a form adds its pairs behind those already held. -/
theorem holds_parse {params : Parameters} {before pairs : List (Bytes × Bytes)} {text : Bytes}
    (h : Holds params before) (htext : EncodesForm pairs text) :
    Holds (params.parse text) (before ++ pairs) := by
  intro name
  have happend : valuesOf name (before ++ pairs) = valuesOf name before ++ valuesOf name pairs := by
    simp only [valuesOf, List.filter_append, List.map_append]
  rw [lookup_parse htext, h name, happend]
  by_cases hbefore : valuesOf name before = []
  · simp only [hbefore, if_true, List.nil_append, Option.getD_none]
  · have hboth : valuesOf name before ++ valuesOf name pairs ≠ [] := by simp [hbefore]
    rw [if_neg hbefore, if_neg hboth]
    by_cases hpairs : valuesOf name pairs = []
    · rw [if_pos hpairs, hpairs, List.append_nil]
    · rw [if_neg hpairs, Option.getD_some]

end Parameters

/-- **The parameters of a request**: the pairs of the query, and behind them those of the body. -/
theorem formParams_lookup {request : Request Header} {p : Bytes}
    {queryPairs bodyPairs : List (Bytes × Bytes)} (hp : ∀ c ∈ p, isMark c = false)
    (hquery : CarriesQuery p queryPairs request.unparsedUri)
    (hbody : CarriesBody request bodyPairs) :
    Holds (formParams (queryText request.unparsedUri) request) (queryPairs ++ bodyPairs) := by
  have hfirst : Holds ((queryText request.unparsedUri).toList.foldl Parameters.parse
      Parameters.empty) queryPairs := by
    rcases queryText_of_carries hp hquery with ⟨rfl, hnone⟩ | ⟨text, hsome, htext⟩
    · rw [hnone]
      exact Parameters.holds_empty
    · rw [hsome]
      exact Parameters.holds_parse Parameters.holds_empty htext
  cases hbody with
  | none hnone =>
    rw [formParams, if_neg (by simp [hnone]), List.append_nil]
    exact hfirst
  | body hsome hform hdata =>
    rw [formParams, if_pos hsome]
    exact Parameters.holds_parse hfirst hdata

/-- The kinds that also take files get the same parameters, and no files. -/
theorem mimeParams_eq (mimetic : Mimetic) {request : Request Header}
    {bodyPairs : List (Bytes × Bytes)} (hbody : CarriesBody request bodyPairs)
    (text : Option Bytes) :
    mimeParams mimetic text request = { formParams text request with fileData := ∅ } := by
  have hquery : text.toList.foldl MimeParameters.parse MimeParameters.empty =
      { text.toList.foldl Parameters.parse Parameters.empty with fileData := ∅ } := by
    cases text <;> rfl
  cases hbody with
  | none hnone => rw [mimeParams, formParams, hnone, hquery]; rfl
  | body hsome hform hdata =>
    rw [mimeParams, formParams, hsome, hform, hquery]
    rfl

/-! ## The accessors -/

namespace Parameters

variable {α : Type} {params : Parameters} {pairs : List (Bytes × Bytes)}

/-- `get` converts the values one after the other, and throws at the first it cannot convert. -/
theorem get_of_holds (h : Holds params pairs) (cast : Bytes → Except Exn α) (name : Bytes) :
    params.get cast name = (valuesOf name pairs).mapM cast := by
  rw [get, h name]
  by_cases hvalues : valuesOf name pairs = []
  · rw [if_pos hvalues, hvalues]
    rfl
  · rw [if_neg hvalues]

/-- `getFirst` converts the first value, if there is one, and never looks at the others. -/
theorem getFirst_of_holds (h : Holds params pairs) (cast : Bytes → Except Exn α) (name : Bytes) :
    params.getFirst cast name =
      some ((valuesOf name pairs).head?.elim (.ok none) fun value => (cast value).map some) := by
  rw [getFirst, h name]
  cases hvalues : valuesOf name pairs with
  | nil => rfl
  | cons value values => rfl

/-- What counts as true. -/
def isTrue (data : Bytes) : Bool := data = str "1" ∨ data = str "true" ∨ data = str "on"

/-- `getFirstBool(name)`. -/
def getFirstBool (params : Parameters) (name : Bytes) : Option (Except Exn Bool) :=
  (params.getFirst .ok name).map fun first => first.map fun data => data.any isTrue

/-- `getBool(name)`. -/
def getBool (params : Parameters) (name : Bytes) : Except Exn (List Bool) :=
  (params.get .ok name).map fun data => data.map isTrue

theorem getFirstBool_of_holds (h : Holds params pairs) (name : Bytes) :
    params.getFirstBool name = some (.ok ((valuesOf name pairs).head?.any isTrue)) := by
  rw [getFirstBool, getFirst_of_holds h]
  cases (valuesOf name pairs).head? <;> rfl

theorem getBool_of_holds (h : Holds params pairs) (name : Bytes) :
    params.getBool name = .ok ((valuesOf name pairs).map isTrue) := by
  have hmapM : ∀ values : List Bytes,
      values.mapM (Except.ok : Bytes → Except Exn Bytes) = .ok values :=
    fun values => (List.mapM_pure (f := id)).trans (congrArg Except.ok (List.map_id values))
  rw [getBool, get_of_holds h, hmapM]
  rfl

end Parameters

/-! ## The exchange -/

namespace Wrapper

/-- The wrapper hands its handler these parameters, and the handler ends like this. -/
inductive Receives (env : WrapperEnv V J) (request : Request Header) (response : Response Header)
    (params : Parameters) (ended : CallResult Header Unit) : Wrapper Header V J → Prop
  | httpMethod {handler} : handler request response params = ended →
      Receives env request response params ended (.httpMethod handler)
  | httpMethod2 {handler} : handler request response { params with fileData := ∅ } = ended →
      Receives env request response params ended (.httpMethod2 handler)
  | jsonMethod {handler} :
      storeResult env.convert
        (handler request { response with contentType := jsonContentType } params) = ended →
      Receives env request response params ended (.jsonMethod handler)
  | jsonMethod2 {handler} :
      storeResult env.convert (handler request { response with contentType := jsonContentType }
        { params with fileData := ∅ }) = ended →
      Receives env request response params ended (.jsonMethod2 handler)

/-- Of the five kinds all but one parse a form, and end as their handlers do, but for the catch
    clause. -/
theorem call_form (env : WrapperEnv V J) {wrapper : Wrapper Header V J}
    (hkind : ∀ handler, wrapper ≠ .jsonRPCMethod handler) {request : Request Header}
    {bodyPairs : List (Bytes × Bytes)} (hbody : CarriesBody request bodyPairs)
    (response : Response Header) :
    ∃ ended, wrapper.Receives env request response
        (formParams (queryText request.unparsedUri) request) ended ∧
      wrapper.call env request response = catchHttpError ended := by
  have hmime := mimeParams_eq env.mimetic hbody (queryText request.unparsedUri)
  cases wrapper with
  | httpMethod handler => exact ⟨_, .httpMethod rfl, rfl⟩
  | httpMethod2 handler => exact ⟨_, .httpMethod2 rfl, by rw [← hmime]; rfl⟩
  | jsonMethod handler => exact ⟨_, .jsonMethod rfl, rfl⟩
  | jsonMethod2 handler => exact ⟨_, .jsonMethod2 rfl, by rw [← hmime]; rfl⟩
  | jsonRPCMethod handler => exact absurd rfl (hkind handler)

end Wrapper

namespace Worker

/-- **The exchange.**  A form is sent to a method of one of the four kinds that take parameters: the
    handler gets parameters from which the accessors read, under every name and with every
    conversion, the values of the query and behind them those of the body; and the reply is what
    the handler's end makes of the response. -/
theorem form_exchange (w : Worker Header Regex) {io : HttpIo Header} {socket : SocketWork}
    (hforbidden : socket.forbidden = false) (hsend : ∀ sends data, io.sendData sends data = .ok ())
    (s : WorkerState) (env : WrapperEnv V J) {wrapper : Wrapper Header V J}
    (hkind : ∀ handler, wrapper ≠ .jsonRPCMethod handler) {request : Request Header} {p : Bytes}
    {queryPairs bodyPairs : List (Bytes × Bytes)} {index : Nat} {groups : List Bytes}
    (hread : w.ReadsRequest io request) (hp : ∀ c ∈ p, isMark c = false)
    (hquery : CarriesQuery p queryPairs request.unparsedUri)
    (hbody : CarriesBody request bodyPairs)
    (hfirst : w.FirstMatch p index (wrapper.call env) groups) :
    ∃ params ended,
      (∀ {α : Type} (cast : Bytes → Except Exn α) (name : Bytes),
        params.get cast name = (Parameters.valuesOf name (queryPairs ++ bodyPairs)).mapM cast ∧
        params.getFirst cast name =
          some ((Parameters.valuesOf name (queryPairs ++ bodyPairs)).head?.elim (.ok none)
            fun value => (cast value).map some)) ∧
      (∀ name, params.getBool name =
          .ok ((Parameters.valuesOf name (queryPairs ++ bodyPairs)).map Parameters.isTrue) ∧
        params.getFirstBool name =
          some (.ok ((Parameters.valuesOf name (queryPairs ++ bodyPairs)).head?.any
            Parameters.isTrue))) ∧
      wrapper.Receives env { request with matchGroups := groups } (w.initialResponse request) params
        ended ∧
      w.handle io socket s = (.ok (), ⟨none, s.events ++
        (.call index (some socket) :: w.reply (w.afterCall (catchHttpError ended)))⟩) := by
  have huri : request.uri = p := by
    cases hread with
    | intro => exact path_of_carries hp hquery
  have hholds := formParams_lookup hp hquery hbody
  have hcarries : CarriesBody { request with matchGroups := groups } bodyPairs := by
    cases hbody with
    | none hnone => exact .none hnone
    | body hsome hform hdata => exact .body hsome hform hdata
  obtain ⟨ended, hreceives, hcall⟩ := wrapper.call_form env hkind hcarries
    (w.initialResponse request)
  refine ⟨_, ended, fun cast name => ?_, fun name => ?_, hreceives, ?_⟩
  · exact ⟨Parameters.get_of_holds hholds cast name, Parameters.getFirst_of_holds hholds cast name⟩
  · exact ⟨Parameters.getBool_of_holds hholds name, Parameters.getFirstBool_of_holds hholds name⟩
  · exact handle_of_firstMatch hforbidden hsend s hread (huri ▸ hfirst) hcall

/-- A method that answers with all values of `a`. -/
def echo : Wrapper Unit Unit Unit :=
  .httpMethod fun _ response params =>
    match params.get .ok (str "a") with
    | .ok values => (.ok (), { response with data := values.flatten })
    | .error e => (.error e, response)

/-- A worker with this one method. -/
def echoWorker : Worker Unit Bytes :=
  { redirectWorker with registry := [(str "/a", echo.call redirectEnv)] }

/-- A connection with a value in the query and one in the body. -/
def echoIo : HttpIo Unit where
  readLine := .ok (str "POST /a?a=%31 HTTP/1.0")
  splitBySpace _ _ := .ok [str "POST", str "/a?a=%31", str "HTTP/1.0"]
  readHeader := .ok ()
  readContent _ := .ok (str "a=2")
  sendData _ _ := .ok ()

theorem echo_exchange :
    ∃ params ended, Parameters.get .ok params (str "a") = .ok [str "1", str "2"] ∧
      echo.Receives redirectEnv
        { status := 200, protocol := str "HTTP/1.0", headers := (), contentType := str "text/plain",
          data := str "a=2", method := str "POST", unparsedUri := str "/a?a=%31", uri := str "/a",
          matchGroups := [] }
        { status := 200, protocol := str "HTTP/1.0", headers := (), contentType := str "text/plain",
          data := [], statusMessage := [] } params ended ∧
      echoWorker.handle echoIo ⟨7, false⟩ ⟨none, []⟩ = (.ok (), ⟨none,
        .call 0 (some ⟨7, false⟩) ::
          echoWorker.reply (echoWorker.afterCall (catchHttpError ended))⟩) := by
  have hquery : CarriesQuery (str "/a") [(str "a", str "1")]
      (str "/a" ++ chr '?' :: str "a=%31") := by
    refine .query ⟨[str "a=%31"], .cons ⟨str "a", str "%31", ?_, ?_, by decide⟩ .nil, by decide⟩
      (by decide)
    · exact .cons (.raw (by decide)) .nil
    · exact .cons (.hex (Or.inl (by decide)) (Or.inl (by decide))) .nil
  have hform : EncodesForm [(str "a", str "2")] (str "a=2") := by
    refine ⟨[str "a=2"], .cons ⟨str "a", str "2", ?_, ?_, by decide⟩ .nil, by decide⟩
    all_goals exact .cons (.raw (by decide)) .nil
  obtain ⟨params, ended, hget, -, hreceives, hhandle⟩ :=
    @form_exchange _ _ _ _ echoWorker echoIo ⟨7, false⟩ rfl (fun _ _ => rfl) ⟨none, []⟩ redirectEnv
      echo nofun _ (str "/a") _ _ 0 [] (.intro rfl rfl (.inl rfl) rfl rfl)
      (List.forall_mem_cons.mpr ⟨rfl, List.forall_mem_singleton.mpr rfl⟩) hquery
      (.body rfl rfl hform)
      ⟨[], str "/a", [], rfl, rfl, nofun,
        show echoWorker.regexMatch (str "/a") (cStr (str "/a")) = some [] by decide⟩
  refine ⟨params, ended, ?_, hreceives, hhandle⟩
  rw [(hget .ok (str "a")).1]
  decide

end Worker

end ThreadServer
