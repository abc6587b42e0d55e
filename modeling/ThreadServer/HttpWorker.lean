/-
  One connection, from its first byte to its reply: `Worker_t::handle` and `forbidden`
  (`cpphttphandler.cc`).

  1. **Surroundings** — the connection (`HttpIo`: FastRPC's reading and sending, which may fail at
     every call) and the regular expressions are parameters.  What a worker does is recorded as
     `Event`s: the methods it calls and the data it starts to send.
  2. **`handle`** — the three nested `try` blocks.  A failure while the request is read or checked
     is answered with a fixed reply (`readRequest`, `badRequest`); the method's exceptions become
     the response (`afterCall`); whatever else is thrown leaves `handle` after it has given up the
     work.
  3. **Specification** (`Replies`) — what a client is owed, over the reading of the request
     (`ReadsRequest`), the first registered pattern that matches (`FirstMatch`) and the way the
     method ended (`Answers`).
  4. **Result** (`handle_replies`) — if sending works, `handle` returns normally and has done
     exactly that; and an `HttpError_t` thrown inside one of the five wrappers decides the status
     whichever layer translates it.
-/
import ThreadServer.HttpMethods

namespace ThreadServer

open Bytes

/-- `SocketWork_t`: an accepted connection. -/
structure SocketWork where
  connection : Nat
  forbidden : Bool
  deriving DecidableEq

/-- What `HttpIo_t` does on a connection: the outcome of each read and of each send. -/
structure HttpIo (Header : Type) where
  readLine : Except Exn Bytes
  splitBySpace : Bytes → Nat → Except Exn (List Bytes)
  readHeader : Except Exn Header
  readContent : Header → Except Exn Bytes
  /-- By the number of sends before it, and the data. -/
  sendData : Nat → Bytes → Except Exn Unit

/-- What a worker does that others can see. -/
inductive Event
  /-- It calls the method at this place of the registry; `work` is what `getWork()` returns then. -/
  | call (index : Nat) (work : Option SocketWork)
  /-- It starts to send. -/
  | send (data : Bytes)
  deriving DecidableEq

/-- The worker's thread: `handler->work`, and what it has done. -/
structure WorkerState where
  work : Option SocketWork
  events : List Event
  deriving DecidableEq

/-- How a step of the worker ends. -/
abbrev WorkerResult := Except Exn Unit × WorkerState

/-- What `throw e` throws in `catch (const std::exception &e)`: a copy of the base class. -/
def Exn.sliced : Exn → Exn
  | .unknown => .unknown
  | .httpError _ _ | .systemError _ _ | .error _ | .std _ => .std (str "std::exception")

/-- A worker's handler: its libraries and its method registry. -/
structure Worker (Header Regex : Type) where
  http : HTTPHeader Header
  /-- `regex_match` on a C string: the groups from the first on, if the whole string matches. -/
  regexMatch : Regex → Bytes → Option (List Bytes)
  registry : List (Regex × Method Header)

/-- The fixed reply to a request that cannot be read. -/
def badRequest : Bytes :=
  str "HTTP/1.0 400 Bad Request\r\nServer: ThreadServer/CppHttpHandler Linux\r\n\r\n"

namespace Worker

variable {Header Regex : Type}

/-! ## The program -/

/-- The request line: method, target and protocol. -/
def readRequestLine (io : HttpIo Header) : Except Exn (Bytes × Bytes × Bytes) := do
  let requestLine ← io.readLine
  match ← io.splitBySpace requestLine 3 with
  | [method, target, protocol] =>
    if protocol ≠ str "HTTP/1.0" ∧ protocol ≠ str "HTTP/1.1" then
      .error (.formatted [str "Bad HTTP protocol version or type: ", cStr protocol])
    else .ok (method, target, protocol)
  | _ => .error (.formatted [str "Bad HTTP request: ", cStr (substr requestLine 0 30)])

/-- The innermost `try` block of `handle`: read the request and check it. -/
def readRequest (w : Worker Header Regex) (io : HttpIo Header) : Except Exn (Request Header) := do
  let (method, unparsedUri, protocol) ← readRequestLine io
  let headers ← io.readHeader
  let data ← io.readContent headers
  .ok { status := 200
        protocol
        headers
        contentType := (w.http.get headers (str "Content-Type")).getD (str "text/plain")
        data
        method
        unparsedUri
        uri := requestUri unparsedUri
        matchGroups := [] }

/-- `io.sendData(data)`. -/
def sendData (io : HttpIo Header) (data : Bytes) (s : WorkerState) : WorkerResult :=
  let sends := s.events.countP fun
    | .send _ => true
    | .call _ _ => false
  (io.sendData sends data, { s with events := s.events ++ [.send data] })

/-- Send the fixed reply; a standard exception is reported under another name. -/
def sendBadRequest (io : HttpIo Header) (s : WorkerState) : WorkerResult :=
  match sendData io badRequest s with
  | (.ok (), s) => (.ok (), s)
  | (.error e, s) =>
    match e.what? with
    | some what => (.error (.formatted [str "Can't send data: ", what]), s)
    | none => (.error e, s)

/-- The loop over the registry, from its `index`-th entry on. -/
def findMethod (w : Worker Header Regex) (uri : Bytes) :
    Nat → List (Regex × Method Header) → Option (Nat × Method Header × List Bytes)
  | _, [] => none
  | index, (pattern, method) :: registry =>
    match w.regexMatch pattern (cStr uri) with
    | some groups => some (index, method, groups)
    | none => findMethod w uri (index + 1) registry

/-- The response once the method has ended: the `try` block around its call. -/
def afterCall (w : Worker Header Regex) : CallResult Header Unit → Response Header
  | (.ok (), response) =>
    { response with
      headers := w.http.set response.headers (str "Content-Type") response.contentType }
  | (.error (.httpError code what), response) => { response with status := code, data := what }
  | (.error e, response) =>
    match e.what? with
    | some what => { response with status := 500, data := what }
    | none => { response with status := 500, data := str "Unknown exception" }

/-- The page for a target that no pattern matches. -/
def notFoundPage (request : Request Header) : Bytes :=
  str "<html><head><title>404 Not Found</title></head><body><h1>404 Not Found</h1>"
    ++ (str "The requested URL " ++ request.unparsedUri
      ++ str " was not found on this server.<hr />")
    ++ str "</body></html>"

/-- Send the head and the body of a response. -/
def sendResponse (w : Worker Header Regex) (io : HttpIo Header) (response : Response Header)
    (s : WorkerState) : WorkerResult :=
  match sendData io (response.head w.http) s with
  | (.ok (), s) => sendData io response.data s
  | (.error e, s) => (.error e, s)

/-- The response a method starts from. -/
def initialResponse (w : Worker Header Regex) (request : Request Header) : Response Header :=
  { Response.new w.http request with contentType := str "text/plain" }

/-- The outer `try` block of `handle`. -/
def serve (w : Worker Header Regex) (io : HttpIo Header) (s : WorkerState) : WorkerResult :=
  match w.readRequest io with
  | .error _ => sendBadRequest io s
  | .ok request =>
    let response := w.initialResponse request
    match w.findMethod request.uri 0 w.registry with
    | none =>
      w.sendResponse io
        { response with status := 404, data := response.data ++ notFoundPage request } s
    | some (index, method, groups) =>
      w.sendResponse io (w.afterCall (method { request with matchGroups := groups } response))
        { s with events := s.events ++ [.call index s.work] }

/-- `forbidden`. -/
def forbidden (io : HttpIo Header) (s : WorkerState) : WorkerResult :=
  let attempt : WorkerResult :=
    match readRequestLine io, io.readHeader with
    | .error e, _ => (.error e, s)
    | .ok _, .error e => (.error e, s)
    | .ok (_, _, protocol), .ok _ =>
      sendData io (protocol ++
        str " 403 Forbidden\r\nServer: ThreadServer/CppHttpHandler Linux\r\n\r\n") s
  match attempt with
  | (.ok (), s) => (.ok (), s)
  | (.error e, s) =>
    match sendBadRequest io s with
    | (.ok (), s) => (.error e, s)
    | (.error e', s) => (.error e', s)

/-- `Worker_t::handle`. -/
def handle (w : Worker Header Regex) (io : HttpIo Header) (socket : SocketWork) (s : WorkerState) :
    WorkerResult :=
  if socket.forbidden then forbidden io s
  else match w.serve io { s with work := some socket } with
    | (.ok (), s) => (.ok (), { s with work := none })
    | (.error e, s) => (.error e.sliced, { s with work := none })

/-! ## The specification -/

/-- **A request can be read**: a request line of three words for a protocol the server speaks, a
    header and the content it announces. -/
inductive ReadsRequest (w : Worker Header Regex) (io : HttpIo Header) : Request Header → Prop
  | intro {requestLine method target protocol data : Bytes} {headers : Header} :
      io.readLine = .ok requestLine →
      io.splitBySpace requestLine 3 = .ok [method, target, protocol] →
      protocol = str "HTTP/1.0" ∨ protocol = str "HTTP/1.1" →
      io.readHeader = .ok headers →
      io.readContent headers = .ok data →
      ReadsRequest w io
        { status := 200
          protocol
          headers
          contentType := (w.http.get headers (str "Content-Type")).getD (str "text/plain")
          data
          method
          unparsedUri := target
          uri := path target
          matchGroups := [] }

/-- No pattern in a part of the registry matches. -/
def NoMatch (w : Worker Header Regex) (uri : Bytes) (registry : List (Regex × Method Header)) :
    Prop :=
  ∀ entry ∈ registry, w.regexMatch entry.1 (cStr uri) = none

/-- **The first match**: the pattern at `index` matches, and none before it. -/
def FirstMatch (w : Worker Header Regex) (uri : Bytes) (index : Nat) (method : Method Header)
    (groups : List Bytes) : Prop :=
  ∃ skipped pattern rest, w.registry = skipped ++ (pattern, method) :: rest ∧
    index = skipped.length ∧ w.NoMatch uri skipped ∧
    w.regexMatch pattern (cStr uri) = some groups

/-- **What a method's end means to the client**: what the method left if it returned, an
    `HttpError_t`'s own code and text, and 500 for every other exception. -/
inductive Answers (w : Worker Header Regex) : CallResult Header Unit → Response Header → Prop
  | returned (left : Response Header) :
      Answers w (.ok (), left)
        { left with headers := w.http.set left.headers (str "Content-Type") left.contentType }
  | httpError (code : Int) (what : Bytes) (left : Response Header) :
      Answers w (.error (.httpError code what), left) { left with status := code, data := what }
  | exception {e : Exn} {what : Bytes} (left : Response Header) :
      (∀ code text, e ≠ .httpError code text) → e.what? = some what →
      Answers w (.error e, left) { left with status := 500, data := what }
  | unknown (left : Response Header) :
      Answers w (.error .unknown, left)
        { left with status := 500, data := str "Unknown exception" }

/-- A reply: one head, and the data of the response behind it. -/
def reply (w : Worker Header Regex) (response : Response Header) : List Event :=
  [.send (response.head w.http), .send response.data]

/-- **What a worker does for a connection.**  The conditions of the three cases exclude one another
    and cover everything, so each reply is sent exactly under its own. -/
inductive Replies (w : Worker Header Regex) (io : HttpIo Header) (socket : SocketWork) :
    List Event → Prop
  /-- The request cannot be read: the fixed reply, and no method is called. -/
  | badRequest : (∀ request, ¬ w.ReadsRequest io request) →
      Replies w io socket [.send ThreadServer.badRequest]
  /-- No pattern matches. -/
  | notFound {request : Request Header} {response : Response Header} :
      w.ReadsRequest io request → w.NoMatch request.uri w.registry →
      response.status = 404 → response.data = notFoundPage request →
      Replies w io socket (w.reply response)
  /-- One method is called, with a response whose status is 200. -/
  | called {request : Request Header} {initial response : Response Header} {index : Nat}
      {method : Method Header} {groups : List Bytes} :
      w.ReadsRequest io request → w.FirstMatch request.uri index method groups →
      initial.status = 200 →
      w.Answers (method { request with matchGroups := groups } initial) response →
      Replies w io socket (.call index (some socket) :: w.reply response)

/-! ## Reading the request -/

theorem readRequestLine_eq_ok_iff {io : HttpIo Header} {method target protocol : Bytes} :
    readRequestLine io = .ok (method, target, protocol) ↔
      ∃ requestLine, io.readLine = .ok requestLine ∧
        io.splitBySpace requestLine 3 = .ok [method, target, protocol] ∧
        (protocol = str "HTTP/1.0" ∨ protocol = str "HTTP/1.1") := by
  rw [readRequestLine, bind_eq_ok]
  refine exists_congr fun requestLine => and_congr_right fun _ => ?_
  rw [bind_eq_ok]
  have hspoken : ∀ p : Bytes, ¬ (p ≠ str "HTTP/1.0" ∧ p ≠ str "HTTP/1.1") ↔
      (p = str "HTTP/1.0" ∨ p = str "HTTP/1.1") := by
    intro p
    rw [not_and_or, not_not, not_not]
  constructor
  · rintro ⟨words, hsplit, h⟩
    rw [hsplit]
    split at h
    case h_2 => cases h
    rename_i method' target' protocol'
    by_cases hprotocol : protocol' ≠ str "HTTP/1.0" ∧ protocol' ≠ str "HTTP/1.1"
    · rw [if_pos hprotocol] at h
      cases h
    · rw [if_neg hprotocol] at h
      cases h
      exact ⟨rfl, (hspoken protocol).mp hprotocol⟩
  · rintro ⟨hsplit, hprotocol⟩
    exact ⟨_, hsplit, if_neg ((hspoken protocol).mpr hprotocol)⟩

/-- **`readRequest` reads what can be read**; in every other case it throws. -/
theorem readRequest_eq_ok_iff (w : Worker Header Regex) {io : HttpIo Header}
    {request : Request Header} : w.readRequest io = .ok request ↔ w.ReadsRequest io request := by
  simp only [readRequest, bind_eq_ok, Prod.exists, readRequestLine_eq_ok_iff]
  constructor
  · rintro ⟨method, target, protocol, ⟨requestLine, hline, hsplit, hprotocol⟩, headers, hheader,
      data, hdata, h⟩
    cases h
    rw [requestUri_eq]
    exact .intro hline hsplit hprotocol hheader hdata
  · rintro ⟨hline, hsplit, hprotocol, hheader, hdata⟩
    refine ⟨_, _, _, ⟨_, hline, hsplit, hprotocol⟩, _, hheader, _, hdata, ?_⟩
    rw [requestUri_eq]

/-! ## Finding the method -/

theorem findMethod_eq_none_iff (w : Worker Header Regex) {uri : Bytes} (index : Nat)
    {registry : List (Regex × Method Header)} :
    w.findMethod uri index registry = none ↔ w.NoMatch uri registry := by
  induction registry generalizing index with
  | nil => exact ⟨fun _ entry hentry => (nomatch hentry), fun _ => rfl⟩
  | cons entry registry ih =>
    rw [NoMatch, List.forall_mem_cons]
    cases hmatch : w.regexMatch entry.1 (cStr uri) with
    | some groups => simp only [findMethod, hmatch, reduceCtorEq, false_and]
    | none =>
      simp only [findMethod, hmatch, true_and]
      exact ih (index + 1)

theorem findMethod_skipped (w : Worker Header Regex) {uri : Bytes}
    {skipped : List (Regex × Method Header)} (hskipped : w.NoMatch uri skipped) (index : Nat)
    (registry : List (Regex × Method Header)) :
    w.findMethod uri index (skipped ++ registry) =
      w.findMethod uri (index + skipped.length) registry := by
  induction skipped generalizing index with
  | nil => rfl
  | cons entry skipped ih =>
    obtain ⟨hentry, hskipped⟩ := List.forall_mem_cons.mp hskipped
    rw [List.length_cons, Nat.add_comm skipped.length, ← Nat.add_assoc, ← ih hskipped]
    show findMethod w uri index (entry :: (skipped ++ registry)) = _
    simp only [findMethod, hentry]

/-- The loop finds the first match. -/
theorem findMethod_of_firstMatch {w : Worker Header Regex} {uri : Bytes} {index : Nat}
    {method : Method Header} {groups : List Bytes} (h : w.FirstMatch uri index method groups) :
    w.findMethod uri 0 w.registry = some (index, method, groups) := by
  obtain ⟨skipped, pattern, rest, hregistry, rfl, hskipped, hmatch⟩ := h
  rw [hregistry, findMethod_skipped w hskipped, Nat.zero_add]
  simp only [findMethod, hmatch]

/-- A registry without a first match has no match. -/
theorem noMatch_or_firstMatch (w : Worker Header Regex) (uri : Bytes) :
    w.NoMatch uri w.registry ∨ ∃ index method groups, w.FirstMatch uri index method groups := by
  have hsplit : ∀ registry, w.NoMatch uri registry ∨
      ∃ skipped pattern method groups rest, registry = skipped ++ (pattern, method) :: rest ∧
        w.NoMatch uri skipped ∧ w.regexMatch pattern (cStr uri) = some groups := by
    intro registry
    induction registry with
    | nil => exact .inl fun entry hentry => nomatch hentry
    | cons entry registry ih =>
      cases hmatch : w.regexMatch entry.1 (cStr uri) with
      | some groups =>
        exact .inr ⟨[], entry.1, entry.2, groups, registry, rfl, fun _ h => (nomatch h), hmatch⟩
      | none =>
        rcases ih with hnone | ⟨skipped, pattern, method, groups, rest, rfl, hskipped, hpattern⟩
        · exact .inl (List.forall_mem_cons.mpr ⟨hmatch, hnone⟩)
        · exact .inr ⟨entry :: skipped, pattern, method, groups, rest, rfl,
            List.forall_mem_cons.mpr ⟨hmatch, hskipped⟩, hpattern⟩
  rcases hsplit w.registry with h | ⟨skipped, pattern, method, groups, rest, hregistry, hrest⟩
  · exact .inl h
  · exact .inr ⟨_, method, groups, skipped, pattern, rest, hregistry, rfl, hrest⟩

/-! ## The reply -/

/-- **`afterCall` answers** every way a method can end. -/
theorem answers_afterCall (w : Worker Header Regex) (result : CallResult Header Unit) :
    w.Answers result (w.afterCall result) := by
  obtain ⟨outcome, left⟩ := result
  cases outcome with
  | ok value => exact .returned left
  | error e =>
    cases e with
    | httpError code what => exact .httpError code what left
    | unknown => exact .unknown left
    | systemError code what | error what | std what =>
      exact .exception left (fun code text h => nomatch h) rfl

section

variable (w : Worker Header Regex) {io : HttpIo Header}
  (hsend : ∀ sends data, io.sendData sends data = .ok ())

include hsend

theorem sendData_of_sends (data : Bytes) (s : WorkerState) :
    sendData io data s = (.ok (), { s with events := s.events ++ [.send data] }) :=
  Prod.ext (hsend _ data) rfl

theorem sendResponse_of_sends (response : Response Header) (s : WorkerState) :
    w.sendResponse io response s =
      (.ok (), { s with events := s.events ++ w.reply response }) := by
  simp only [sendResponse, sendData_of_sends hsend, List.append_assoc]
  rfl

theorem serve_of_unreadable (hread : ∀ request, ¬ w.ReadsRequest io request) (s : WorkerState) :
    w.serve io s = (.ok (), { s with events := s.events ++ [.send badRequest] }) := by
  cases hrequest : w.readRequest io with
  | ok request => exact absurd ((w.readRequest_eq_ok_iff).mp hrequest) (hread request)
  | error e => simp only [serve, hrequest, sendBadRequest, sendData_of_sends hsend]

theorem serve_of_noMatch {request : Request Header} (hread : w.ReadsRequest io request)
    (hnone : w.NoMatch request.uri w.registry) (s : WorkerState) :
    w.serve io s =
      (.ok (), { s with events := s.events ++ (w.reply
        { w.initialResponse request with status := 404, data := notFoundPage request }) }) := by
  have hfind := (w.findMethod_eq_none_iff 0).mpr hnone
  simp only [serve, (w.readRequest_eq_ok_iff).mpr hread, hfind, sendResponse_of_sends w hsend]
  rfl

theorem serve_of_firstMatch {request : Request Header} {index : Nat} {method : Method Header}
    {groups : List Bytes} (hread : w.ReadsRequest io request)
    (hfirst : w.FirstMatch request.uri index method groups) (s : WorkerState) :
    w.serve io s = (.ok (), { s with events := s.events ++ (.call index s.work :: w.reply
      (w.afterCall (method { request with matchGroups := groups } (w.initialResponse request)))) })
    := by
  simp only [serve, (w.readRequest_eq_ok_iff).mpr hread, findMethod_of_firstMatch hfirst,
    sendResponse_of_sends w hsend, List.append_assoc]
  rfl

end

/-- A connection has at most one request. -/
theorem ReadsRequest.unique {w : Worker Header Regex} {io : HttpIo Header}
    {request request' : Request Header} (h : w.ReadsRequest io request)
    (h' : w.ReadsRequest io request') : request = request' :=
  Except.ok.inj (((w.readRequest_eq_ok_iff).mpr h).symm.trans ((w.readRequest_eq_ok_iff).mpr h'))

theorem FirstMatch.not_noMatch {w : Worker Header Regex} {uri : Bytes} {index : Nat}
    {method : Method Header} {groups : List Bytes} (h : w.FirstMatch uri index method groups) :
    ¬ w.NoMatch uri w.registry := by
  obtain ⟨skipped, pattern, rest, hregistry, -, -, hmatch⟩ := h
  intro hnone
  have hmem : (pattern, method) ∈ w.registry := by
    rw [hregistry]
    exact List.mem_append_right skipped List.mem_cons_self
  have hsome : some groups = none := hmatch.symm.trans (hnone _ hmem)
  cases hsome

/-- The fixed reply is sent exactly when no request can be read. -/
theorem Replies.eq_badRequest_iff {w : Worker Header Regex} {io : HttpIo Header}
    {socket : SocketWork} {events : List Event} (h : w.Replies io socket events) :
    events = [.send ThreadServer.badRequest] ↔ ∀ request, ¬ w.ReadsRequest io request := by
  cases h with
  | badRequest hread => exact ⟨fun _ => hread, fun _ => rfl⟩
  | notFound hread =>
    refine ⟨fun h => ?_, fun h => absurd hread (h _)⟩
    exact absurd (show 2 = 1 from congrArg List.length h) (by decide)
  | called hread =>
    refine ⟨fun h => ?_, fun h => absurd hread (h _)⟩
    simp only [List.cons.injEq, reduceCtorEq, false_and] at h

/-- A method is called exactly when a request can be read and a pattern matches it. -/
theorem Replies.calls_iff {w : Worker Header Regex} {io : HttpIo Header} {socket : SocketWork}
    {events : List Event} (h : w.Replies io socket events) :
    (∃ index work, Event.call index work ∈ events) ↔
      ∃ request, w.ReadsRequest io request ∧ ¬ w.NoMatch request.uri w.registry := by
  cases h with
  | badRequest hread =>
    refine ⟨?_, fun ⟨request, hrequest, _⟩ => absurd hrequest (hread request)⟩
    rintro ⟨index, work, h⟩
    simp only [List.mem_singleton, reduceCtorEq] at h
  | notFound hread hnone =>
    constructor
    · rintro ⟨index, work, h⟩
      simp only [reply, List.mem_cons, reduceCtorEq, List.not_mem_nil, or_self] at h
    · rintro ⟨request, hrequest, hmatch⟩
      exact absurd (hread.unique hrequest ▸ hnone) hmatch
  | called hread hfirst => exact ⟨fun _ => ⟨_, hread, hfirst.not_noMatch⟩, fun _ => ⟨_, _, .head _⟩⟩

theorem handle_of_serve {w : Worker Header Regex} {io : HttpIo Header} {socket : SocketWork}
    (hforbidden : socket.forbidden = false) {s s' : WorkerState}
    (hserve : w.serve io { s with work := some socket } = (.ok (), s')) :
    w.handle io socket s = (.ok (), { s' with work := none }) := by
  simp only [handle, hforbidden, Bool.false_eq_true, if_false, hserve]

/-- A connection on which a method is called, from one end to the other. -/
theorem handle_of_firstMatch {w : Worker Header Regex} {io : HttpIo Header} {socket : SocketWork}
    (hforbidden : socket.forbidden = false) (hsend : ∀ sends data, io.sendData sends data = .ok ())
    (s : WorkerState) {request : Request Header} {index : Nat} {method : Method Header}
    {groups : List Bytes} (hread : w.ReadsRequest io request)
    (hfirst : w.FirstMatch request.uri index method groups) {result : CallResult Header Unit}
    (hcall : method { request with matchGroups := groups } (w.initialResponse request) = result) :
    w.handle io socket s = (.ok (), ⟨none, s.events ++
      (.call index (some socket) :: w.reply (w.afterCall result))⟩) := by
  subst hcall
  exact handle_of_serve hforbidden (w.serve_of_firstMatch hsend hread hfirst _)

/-- **One reply for every request.**  If sending works, the worker returns normally from a
    connection that is not forbidden and has done what `Replies` says: the fixed reply exactly if no
    request can be read, a call exactly if one can and a pattern matches.  And a code thrown by the
    handler of a wrapper is the status of the reply, whether the wrapper or the worker translates
    it: from 400 on the body is the error's text, below it is what the handler left. -/
theorem handle_replies (w : Worker Header Regex) {io : HttpIo Header} {socket : SocketWork}
    (hforbidden : socket.forbidden = false)
    (hsend : ∀ sends data, io.sendData sends data = .ok ()) (s : WorkerState) :
    (∃ events, w.handle io socket s = (.ok (), ⟨none, s.events ++ events⟩) ∧
      w.Replies io socket events ∧
      (events = [.send badRequest] ↔ ∀ request, ¬ w.ReadsRequest io request) ∧
      ((∃ index work, Event.call index work ∈ events) ↔
        ∃ request, w.ReadsRequest io request ∧ ¬ w.NoMatch request.uri w.registry)) ∧
    ∀ {V J : Type} (env : WrapperEnv V J) (wrapper : Wrapper Header V J) {request index groups code
        what left}, w.ReadsRequest io request →
      w.FirstMatch request.uri index (wrapper.call env) groups →
      wrapper.HandlerThrows env { request with matchGroups := groups } (w.initialResponse request)
        (.httpError code what) left →
      ∃ response, response.status = code ∧
        response.data = (if 4 ≤ code.tdiv 100 then what else left.data) ∧
        w.handle io socket s =
          (.ok (), ⟨none, s.events ++ (.call index (some socket) :: w.reply response)⟩) := by
  constructor
  · have hreplies : ∃ events, w.handle io socket s = (.ok (), ⟨none, s.events ++ events⟩) ∧
        w.Replies io socket events := by
      by_cases hread : ∃ request, w.ReadsRequest io request
      case neg =>
        rw [not_exists] at hread
        have hreply := w.serve_of_unreadable hsend hread { s with work := some socket }
        exact ⟨_, handle_of_serve hforbidden hreply, .badRequest hread⟩
      obtain ⟨request, hread⟩ := hread
      rcases w.noMatch_or_firstMatch request.uri with hnone | ⟨index, method, groups, hfirst⟩
      · have hreply := w.serve_of_noMatch hsend hread hnone { s with work := some socket }
        exact ⟨_, handle_of_serve hforbidden hreply, .notFound hread hnone rfl rfl⟩
      · have hreply := w.serve_of_firstMatch hsend hread hfirst { s with work := some socket }
        exact ⟨_, handle_of_serve hforbidden hreply,
          .called hread hfirst rfl (w.answers_afterCall _)⟩
    obtain ⟨events, hhandle, hevents⟩ := hreplies
    exact ⟨events, hhandle, hevents, hevents.eq_badRequest_iff, hevents.calls_iff⟩
  · intro V J env wrapper request index groups code what left hread hfirst hthrows
    refine ⟨_, ?_, ?_, handle_of_serve hforbidden (w.serve_of_firstMatch hsend hread hfirst _)⟩
    all_goals
      rw [Wrapper.call_eq_catch env hthrows, catchHttpError]
      split_ifs with hcode <;> rfl

/-- A handler that redirects by an exception. -/
def redirect : Wrapper Unit Unit Unit :=
  .httpMethod fun _ response _ =>
    (.error (.httpError 302 (str "Moved")), { response with data := str "see /b" })

/-- What `redirect` uses of other libraries: nothing. -/
def redirectEnv : WrapperEnv Unit Unit where
  mimetic := { parts _ := [], base64Decoder := id, qpDecoder := id }
  convert _ := []
  parseJson _ := none
  message _ := []

/-- A worker with this one handler, where a pattern matches itself. -/
def redirectWorker : Worker Unit Bytes where
  http := { empty := (), get _ _ := none, set _ _ _ := (), print _ := [] }
  regexMatch pattern text := if pattern = text then some [] else none
  registry := [(str "/a", redirect.call redirectEnv)]

/-- A connection with a request for it. -/
def redirectIo : HttpIo Unit where
  readLine := .ok (str "GET /a?x=1 HTTP/1.0")
  splitBySpace _ _ := .ok [str "GET", str "/a?x=1", str "HTTP/1.0"]
  readHeader := .ok ()
  readContent _ := .ok []
  sendData _ _ := .ok ()

theorem redirect_replies :
    ∃ response : Response Unit, response.status = 302 ∧ response.data = str "see /b" ∧
      redirectWorker.handle redirectIo ⟨7, false⟩ ⟨none, []⟩ =
        (.ok (), ⟨none, .call 0 (some ⟨7, false⟩) :: redirectWorker.reply response⟩) :=
  (handle_replies redirectWorker rfl (fun _ _ => rfl) ⟨none, []⟩).2 redirectEnv redirect
    (.intro rfl rfl (.inl rfl) rfl rfl)
    ⟨[], str "/a", [], rfl, rfl, fun _ h => (nomatch h),
      show redirectWorker.regexMatch (str "/a") (cStr (path (str "/a?x=1"))) = some [] by decide⟩
    (.httpMethod rfl)

end Worker

end ThreadServer
