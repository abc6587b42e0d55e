/-
  The five kinds of registered method (`HttpMethod_t`, `HttpMethod2_t`, `JsonMethod_t`,
  `JsonMethod2_t`, `JsonRPCMethod_t` in `cpphttphandler.h`).

  Each wraps a handler of its own: it makes the handler's arguments from the request, calls it, and
  turns an `HttpError_t` with a code below 400 into the status of the response.  What differs is how
  the arguments are made and, for the JSON kinds, that the result becomes the body.  So each `call`
  is the shared catch clause (`catchHttpError`) around the kind's own arguments.

  `convert` is the conversion of a handler's result to `std::string`, `Mimetic` and `parseJson`
  stand for the libraries that read multipart and JSON bodies.  `HttpError_t` declares no
  constructor with one argument, although `JsonRPCMethod_t` uses one.  So that template can be read
  but not be instantiated as it stands: its `call` is kept here as one of the five, with the
  parameter `message` for the text of such an error, and no result is about it alone.
-/
import ThreadServer.HttpMessage
import ThreadServer.Parameters

namespace ThreadServer

open Bytes

/-- How a call ends: with a result or an exception, and with the response as the call left it. -/
abbrev CallResult (Header α : Type) := Except Exn α × Response Header

/-- `Method_t::call`. -/
abbrev Method (Header : Type) := Request Header → Response Header → CallResult Header Unit

variable {Header V J : Type}

/-- `catch (const HttpError_t &e)`, the end of every wrapper. -/
def catchHttpError (result : CallResult Header Unit) : CallResult Header Unit :=
  match result with
  | (.error (.httpError code what), response) =>
    if code.tdiv 100 ≥ 4 then (.error (.httpError code what), response)
    else (.ok (), { response with status := code })
  | (.error e, response) => (.error e, response)
  | (.ok (), response) => (.ok (), response)

/-- `response.data = std::string(result)`, for a handler that returned. -/
def storeResult (convert : V → Bytes) (result : CallResult Header V) : CallResult Header Unit :=
  match result with
  | (.ok value, response) => (.ok (), { response with data := convert value })
  | (.error e, response) => (.error e, response)

/-- `request.method == "POST" || request.method == "PUT"`. -/
def hasBody (request : Request Header) : Bool :=
  request.method = str "POST" ∨ request.method = str "PUT"

/-- `Parameters_t` of the query text and, if there is one, of the body. -/
def formParams (text : Option Bytes) (request : Request Header) : Parameters :=
  let params := text.toList.foldl Parameters.parse Parameters.empty
  if hasBody request then params.parse request.data else params

/-- `MimeParameters_t` of the query text and, if there is one, of the body, which may be
    multipart. -/
def mimeParams (mimetic : Mimetic) (text : Option Bytes) (request : Request Header) :
    MimeParameters :=
  let params := text.toList.foldl MimeParameters.parse MimeParameters.empty
  if hasBody request then
    if (str "multipart/form-data").isPrefixOf request.contentType then
      params.parseMime mimetic
        (str "Content-Type: " ++ request.contentType ++ str "\r\n\r\n" ++ request.data)
    else params.parse request.data
  else params

/-- The content type the JSON kinds set. -/
def jsonContentType : Bytes := str "application/json; charset=utf-8"

namespace HttpMethod

/-- The text of the target that `call` passes to `params.parse`. -/
def queryText (unparsedUri : Bytes) : Option Bytes := ThreadServer.queryText unparsedUri

/-- The parameters passed to the handler. -/
def params (request : Request Header) : Parameters :=
  formParams (queryText request.unparsedUri) request

/-- `HttpMethod_t::call`. -/
def call (handler : Request Header → Response Header → Parameters → CallResult Header Unit) :
    Method Header :=
  fun request response => catchHttpError (handler request response (params request))

end HttpMethod

namespace HttpMethod2

/-- The text of the target that `call` passes to `params.parse`. -/
def queryText (unparsedUri : Bytes) : Option Bytes := ThreadServer.queryText unparsedUri

/-- The parameters passed to the handler. -/
def params (mimetic : Mimetic) (request : Request Header) : MimeParameters :=
  mimeParams mimetic (queryText request.unparsedUri) request

/-- `HttpMethod2_t::call`. -/
def call (mimetic : Mimetic)
    (handler : Request Header → Response Header → MimeParameters → CallResult Header Unit) :
    Method Header :=
  fun request response => catchHttpError (handler request response (params mimetic request))

end HttpMethod2

namespace JsonMethod

/-- The text of the target that `call` passes to `params.parse`. -/
def queryText (unparsedUri : Bytes) : Option Bytes := ThreadServer.queryText unparsedUri

/-- The parameters passed to the handler. -/
def params (request : Request Header) : Parameters :=
  formParams (queryText request.unparsedUri) request

/-- `JsonMethod_t::call`. -/
def call (convert : V → Bytes)
    (handler : Request Header → Response Header → Parameters → CallResult Header V) :
    Method Header :=
  fun request response =>
    let response := { response with contentType := jsonContentType }
    catchHttpError (storeResult convert (handler request response (params request)))

end JsonMethod

namespace JsonMethod2

/-- The text of the target that `call` passes to `params.parse`. -/
def queryText (unparsedUri : Bytes) : Option Bytes := ThreadServer.queryText unparsedUri

/-- The parameters passed to the handler. -/
def params (mimetic : Mimetic) (request : Request Header) : MimeParameters :=
  mimeParams mimetic (queryText request.unparsedUri) request

/-- `JsonMethod2_t::call`. -/
def call (mimetic : Mimetic) (convert : V → Bytes)
    (handler : Request Header → Response Header → MimeParameters → CallResult Header V) :
    Method Header :=
  fun request response =>
    let response := { response with contentType := jsonContentType }
    catchHttpError (storeResult convert (handler request response (params mimetic request)))

end JsonMethod2

namespace JsonRPCMethod

/-- `JsonRPCMethod_t::call`, if `HttpError_t` had the constructor it throws with. -/
def call (message : Int → Bytes) (parseJson : Bytes → Option J) (convert : V → Bytes)
    (handler : Request Header → Response Header → J → CallResult Header V) : Method Header :=
  fun request response =>
    if request.method ≠ str "POST" then (.error (.httpError 405 (message 405)), response)
    else match parseJson request.data with
      | none => (.error (.httpError 400 (message 400)), response)
      | some value =>
        let response := { response with contentType := jsonContentType }
        catchHttpError (storeResult convert (handler request response value))

end JsonRPCMethod

/-! ## Query and body are parsed as one text -/

/-- A request with a body: the parameters are those of the query and the body joined by `&`. -/
theorem formParams_joined {request : Request Header} (hbody : hasBody request = true)
    (text : Bytes) :
    formParams (some text) request = Parameters.empty.parse (text ++ str "&" ++ request.data) := by
  rw [Parameters.parse_append, formParams, if_pos hbody]
  rfl

/-- The same for the kinds that also read multipart bodies, where the body is no such. -/
theorem mimeParams_joined (mimetic : Mimetic) {request : Request Header}
    (hbody : hasBody request = true)
    (hform : (str "multipart/form-data").isPrefixOf request.contentType = false) (text : Bytes) :
    mimeParams mimetic (some text) request =
      MimeParameters.empty.parse (text ++ str "&" ++ request.data) := by
  rw [MimeParameters.parse_append, mimeParams, if_pos hbody, hform]
  rfl

/-- **Parsing is one pass over the segments.**  Parsing two texts one after the other is parsing
    them joined by `&`; a text of separators says nothing; neighbouring segments that decode to
    different names can change places.  So the parameters of a request with a body are those of its
    query and its body joined by `&`, in each of the four kinds that parse both. -/
theorem parse_joined (params : Parameters) :
    (∀ a b, (params.parse a).parse b = params.parse (a ++ str "&" ++ b)) ∧
    (∀ text : Bytes, (∀ c ∈ text, c = chr '&') → params.parse text = params) ∧
    (∀ (before after : List Bytes) (s t : Bytes), chr '&' ∉ s → chr '&' ∉ t →
      Parameters.segmentName s ≠ Parameters.segmentName t →
      params.parse ((str "&").intercalate (before ++ s :: t :: after))
        = params.parse ((str "&").intercalate (before ++ t :: s :: after))) ∧
    ∀ (Header : Type) (mimetic : Mimetic) (request : Request Header) (text : Bytes),
      queryText request.unparsedUri = some text → hasBody request = true →
      HttpMethod.params request = Parameters.empty.parse (text ++ str "&" ++ request.data) ∧
      JsonMethod.params request = Parameters.empty.parse (text ++ str "&" ++ request.data) ∧
      ((str "multipart/form-data").isPrefixOf request.contentType = false →
        HttpMethod2.params mimetic request
            = MimeParameters.empty.parse (text ++ str "&" ++ request.data) ∧
          JsonMethod2.params mimetic request
            = MimeParameters.empty.parse (text ++ str "&" ++ request.data)) := by
  refine ⟨fun a b => (params.parse_append a b).symm, fun text => params.parse_separators,
    fun before after s t => params.parse_swap before after, ?_⟩
  intro Header mimetic request text hquery hbody
  have hform := formParams_joined hbody text
  rw [← hquery] at hform
  refine ⟨hform, hform, fun hplain => ?_⟩
  have hmime := mimeParams_joined mimetic hbody hplain text
  rw [← hquery] at hmime
  exact ⟨hmime, hmime⟩

/-- `b=2` and `a=1` behind `a=0` can change places: `a` keeps its two values in order. -/
theorem parse_joined_swapped :
    Parameters.empty.parse (str "a=0&b=2&a=1") = Parameters.empty.parse (str "a=0&a=1&b=2") :=
  (parse_joined Parameters.empty).2.2.1 [str "a=0"] [] (str "b=2") (str "a=1") (by decide)
    (by decide) (by decide)

/-! ## The two halves of the target -/

/-- The kinds of method that parse parameters out of the request target. -/
inductive ParsingMethod
  | httpMethod
  | httpMethod2
  | jsonMethod
  | jsonMethod2

/-- The text of the target that a kind parses. -/
def ParsingMethod.queryText : ParsingMethod → Bytes → Option Bytes
  | httpMethod => HttpMethod.queryText
  | httpMethod2 => HttpMethod2.queryText
  | jsonMethod => JsonMethod.queryText
  | jsonMethod2 => JsonMethod2.queryText

/-- **The worker and the wrapper take a target apart alike**, and as `path` and `query` say, exactly
    when no fragment follows the query: a `#` behind the `?` ends up in the parameters. -/
theorem ParsingMethod.split_agrees_iff (method : ParsingMethod) (u : Bytes) :
    (requestUri u = path u ∧ method.queryText u = query u) ↔
      ∀ rest, afterPath u = chr '?' :: rest → chr '#' ∉ rest := by
  have hquery : method.queryText u = ThreadServer.queryText u := by cases method <;> rfl
  rw [hquery, queryText_eq_query_iff]
  exact ⟨fun h => h.2, fun h => ⟨requestUri_eq u, h⟩⟩

/-- **Counterexample**: of this target `a=1#f` is parsed. -/
theorem fragment_parsed :
    ¬ (requestUri (str "/p?a=1#f") = path (str "/p?a=1#f") ∧
      ParsingMethod.httpMethod.queryText (str "/p?a=1#f") = query (str "/p?a=1#f")) := by
  decide

/-! ## Errors thrown by a handler -/

/-- A method of one of the five kinds, with its handler. -/
inductive Wrapper (Header V J : Type)
  | httpMethod (handler : Request Header → Response Header → Parameters → CallResult Header Unit)
  | httpMethod2
      (handler : Request Header → Response Header → MimeParameters → CallResult Header Unit)
  | jsonMethod (handler : Request Header → Response Header → Parameters → CallResult Header V)
  | jsonMethod2
      (handler : Request Header → Response Header → MimeParameters → CallResult Header V)
  | jsonRPCMethod (handler : Request Header → Response Header → J → CallResult Header V)

/-- What the wrappers use of other libraries, and the text of a one-argument `HttpError_t`. -/
structure WrapperEnv (V J : Type) where
  mimetic : Mimetic
  convert : V → Bytes
  parseJson : Bytes → Option J
  message : Int → Bytes

namespace Wrapper

variable (env : WrapperEnv V J)

/-- `call` of the wrapper. -/
def call : Wrapper Header V J → Method Header
  | httpMethod handler => HttpMethod.call handler
  | httpMethod2 handler => HttpMethod2.call env.mimetic handler
  | jsonMethod handler => JsonMethod.call env.convert handler
  | jsonMethod2 handler => JsonMethod2.call env.mimetic env.convert handler
  | jsonRPCMethod handler => JsonRPCMethod.call env.message env.parseJson env.convert handler

/-- The wrapper calls its handler, which throws `e` and leaves `left`. -/
inductive HandlerThrows (request : Request Header) (response : Response Header) (e : Exn)
    (left : Response Header) : Wrapper Header V J → Prop
  | httpMethod {handler} : handler request response (HttpMethod.params request) = (.error e, left) →
      HandlerThrows request response e left (.httpMethod handler)
  | httpMethod2 {handler} :
      handler request response (HttpMethod2.params env.mimetic request) = (.error e, left) →
      HandlerThrows request response e left (.httpMethod2 handler)
  | jsonMethod {handler} :
      handler request { response with contentType := jsonContentType } (JsonMethod.params request)
        = (.error e, left) →
      HandlerThrows request response e left (.jsonMethod handler)
  | jsonMethod2 {handler} :
      handler request { response with contentType := jsonContentType }
        (JsonMethod2.params env.mimetic request) = (.error e, left) →
      HandlerThrows request response e left (.jsonMethod2 handler)
  | jsonRPCMethod {handler value} : request.method = str "POST" →
      env.parseJson request.data = some value →
      handler request { response with contentType := jsonContentType } value = (.error e, left) →
      HandlerThrows request response e left (.jsonRPCMethod handler)

/-- Whatever the kind, an exception of the handler goes through the one catch clause. -/
theorem call_eq_catch {request : Request Header} {response left : Response Header} {e : Exn}
    {wrapper : Wrapper Header V J} (h : HandlerThrows env request response e left wrapper) :
    wrapper.call env request response = catchHttpError (.error e, left) := by
  cases h with
  | httpMethod h => exact congrArg catchHttpError h
  | httpMethod2 h => exact congrArg catchHttpError h
  | jsonMethod h | jsonMethod2 h =>
    show catchHttpError (storeResult env.convert _) = _
    rw [h]
    rfl
  | jsonRPCMethod hpost hparse h =>
    simp only [call, JsonRPCMethod.call, hpost, ne_eq, not_true_eq_false, if_false, hparse, h]
    rfl

end Wrapper

end ThreadServer
