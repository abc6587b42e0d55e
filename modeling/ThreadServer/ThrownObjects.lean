/-
  The two handlers once more, with their exceptions as objects: what is thrown, where, and what
  becomes of it (`cpphttphandler.cc`, `cppfrpchandler.cc`).

  `Exn` records what the `catch` clauses tell apart.  Here an exception also has its dynamic type,
  which `throw e` replaces and `throw` does not; and the sends of a reply's head are told apart from
  those of its body.

  1. **Exception objects** (`Thrown`) — `rethrown` is what leaves the outer `catch` clauses of the
     HTTP handler, `renamed` what is thrown where the fixed reply cannot be sent.
  2. **Program** — both `handle`s, as programs that record each send they start and each exception
     that an operation of the connection raises, at the place where it happens.
  3. **Fidelity** (`TypedHttp.handle_looksAs`, `TypedFrpc.handle_looksAs`) — without the dynamic
     types these are the programs of `HandlerThread`.
-/
import ThreadServer.HandlerThread

namespace ThreadServer

open Bytes ThreadLocal ThreadLocal.Program

/-! ## Exception objects -/

/-- An exception object: its dynamic type, and what `Exn` records of it.  An object of one of the
    two classes that the handlers throw is what these throw. -/
structure Thrown where
  dynamicType : Bytes
  exn : Exn
  ofException : dynamicType = str "std::exception" → exn = .std (str "std::exception")
  ofError : dynamicType = str "ThreadServer::Error_t" → ∃ what, exn = .error what

namespace Thrown

/-- `e.what()`, for what `catch (const std::exception &e)` catches. -/
def what? (t : Thrown) : Option Bytes := t.exn.what?

/-- `std::exception()`. -/
def exception : Thrown where
  dynamicType := str "std::exception"
  exn := .std (str "std::exception")
  ofException _ := rfl
  ofError h := absurd h (by decide)

/-- `Error_t(format, args...)`. -/
def error (parts : List Bytes) : Thrown where
  dynamicType := str "ThreadServer::Error_t"
  exn := .formatted parts
  ofException h := absurd h (by decide)
  ofError _ := ⟨_, rfl⟩

/-- `throw e` in `catch (const std::exception &e)`, and `throw` in `catch (...)`. -/
def rethrown (t : Thrown) : Thrown :=
  match t.what? with
  | some _ => exception
  | none => t

/-- What is thrown where the fixed reply cannot be sent because of `t`. -/
def renamed (t : Thrown) : Thrown :=
  match t.what? with
  | some what => error [str "Can't send data: ", what]
  | none => t

theorem exn_rethrown (t : Thrown) : t.rethrown.exn = t.exn.sliced := by
  unfold rethrown what?
  cases hexn : t.exn with
  | unknown => exact hexn
  | httpError | systemError | error | std => rfl

/-- What leaves the outer `catch` clauses does not depend on the name it has got before. -/
theorem rethrown_renamed (t : Thrown) : t.renamed.rethrown = t.rethrown := by
  unfold renamed
  cases hwhat : t.what? with
  | none => rfl
  | some what =>
    dsimp only
    rw [rethrown, rethrown, hwhat]
    rfl

end Thrown

/-! ## The connection -/

variable {Header Regex : Type}

/-- `HttpIo_t`, whose operations throw objects. -/
structure TypedIo (Header : Type) where
  readLine : Except Thrown Bytes
  splitBySpace : Bytes → Nat → Except Thrown (List Bytes)
  readHeader : Except Thrown Header
  readContent : Header → Except Thrown Bytes
  sendData : Nat → Bytes → Except Thrown Unit

/-- What a worker does on a connection, as far as it matters for the client and for exceptions. -/
inductive ReplyOp
  | call (index : Nat)
  /-- It starts to send the head of a reply. -/
  | head (data : Bytes)
  /-- It starts to send what stands behind a head. -/
  | body (data : Bytes)
  /-- FastRPC's `serve` does something. -/
  | frpc (step : FrpcStep)
  /-- An operation of the connection raises an exception. -/
  | raised (t : Thrown)

/-- Something is sent. -/
def ReplyOp.isSend : ReplyOp → Bool
  | .head _ | .body _ | .frpc (.send _) => true
  | .call _ | .frpc (.call _) | .raised _ => false

/-- A program of a worker on a connection. -/
abbrev ReplyProgram (α : Type) := Program ReplyOp Thrown α

namespace TypedIo

variable (io : TypedIo Header)

/-! ## The program -/

/-- The request line: method, target and protocol. -/
def readRequestLine : Except Thrown (Bytes × Bytes × Bytes) := do
  let requestLine ← io.readLine
  match ← io.splitBySpace requestLine 3 with
  | [method, target, protocol] =>
    if protocol ≠ str "HTTP/1.0" ∧ protocol ≠ str "HTTP/1.1" then
      .error (.error [str "Bad HTTP protocol version or type: ", cStr protocol])
    else .ok (method, target, protocol)
  | _ => .error (.error [str "Bad HTTP request: ", cStr (substr requestLine 0 30)])

/-- The head of the request, read for its protocol. -/
def readHead : Except Thrown Bytes := do
  let (_, _, protocol) ← io.readRequestLine
  let _ ← io.readHeader
  .ok protocol

end TypedIo

namespace ReplyProgram

/-- An operation of the connection, which may raise an exception. -/
def attempt {α : Type} : Except Thrown α → ReplyProgram α
  | .ok a => pure a
  | .error t => do
    perform (.raised t)
    throw t

/-- `io.sendData(data)`, as the part of a reply that `op` says. -/
def sendData (op : Bytes → ReplyOp) (io : TypedIo Header) (data : Bytes) : ReplyProgram Unit := do
  let done ← history
  perform (op data)
  attempt (io.sendData (done.countP ReplyOp.isSend) data)

/-- Send the fixed reply; a standard exception is reported under another name. -/
def sendBadRequest (reply : Bytes) (io : TypedIo Header) : ReplyProgram Unit :=
  tryCatch (sendData .head io reply) fun t => throw t.renamed

/-- The `try` block of `forbidden`. -/
def refusal (text : Bytes) (io : TypedIo Header) : ReplyProgram Unit := do
  let protocol ← attempt io.readHead
  sendData .head io (protocol ++ text)

/-- `forbidden`, with the `text` of its refusal, its fixed reply, and what it does after that. -/
def forbidden (text reply : Bytes) (io : TypedIo Header) (ending : Thrown → ReplyProgram Unit) :
    ReplyProgram Unit :=
  tryCatch (refusal text io) fun t => do
    sendBadRequest reply io
    ending t

end ReplyProgram

/-- A connection to the HTTP handler, with all that happens on it. -/
structure TypedHttp (Header Regex : Type) where
  socket : SocketWork
  io : TypedIo Header
  worker : Worker Header Regex
  /-- What `regex_match` throws, if anything. -/
  throws : Regex → Bytes → Option Thrown

namespace TypedHttp

open ReplyProgram

variable (c : TypedHttp Header Regex)

/-- The innermost `try` block of `handle`. -/
def readRequest : Except Thrown (Request Header) := do
  let (method, unparsedUri, protocol) ← c.io.readRequestLine
  let headers ← c.io.readHeader
  let data ← c.io.readContent headers
  .ok { status := 200
        protocol
        headers
        contentType := (c.worker.http.get headers (str "Content-Type")).getD (str "text/plain")
        data
        method
        unparsedUri
        uri := requestUri unparsedUri
        matchGroups := [] }

/-- The loop over the registry, from its `index`-th entry on. -/
def findMethod (uri : Bytes) : Nat → List (Regex × Method Header) →
    Except Thrown (Option (Nat × Method Header × List Bytes))
  | _, [] => .ok none
  | index, (pattern, method) :: registry =>
    match c.throws pattern (cStr uri), c.worker.regexMatch pattern (cStr uri) with
    | some t, _ => .error t
    | none, some groups => .ok (some (index, method, groups))
    | none, none => findMethod uri (index + 1) registry

/-- The response to a request: the page that says so where no method has been found, otherwise what
    the method and its exceptions make of it. -/
def response (request : Request Header) :
    Option (Nat × Method Header × List Bytes) → Response Header
  | none =>
    let response := c.worker.initialResponse request
    { response with status := 404, data := response.data ++ Worker.notFoundPage request }
  | some (_, method, groups) =>
    c.worker.afterCall
      (method { request with matchGroups := groups } (c.worker.initialResponse request))

/-- Call the method that has been found. -/
def callMethod : Option (Nat × Method Header × List Bytes) → ReplyProgram Unit
  | none => pure ()
  | some (index, _, _) => perform (.call index)

/-- The outer `try` block of `handle`. -/
def serve : ReplyProgram Unit :=
  match c.readRequest with
  | .error t => do
    perform (.raised t)
    sendBadRequest badRequest c.io
  | .ok request => do
    let found ← attempt (c.findMethod request.uri 0 c.worker.registry)
    callMethod found
    sendData .head c.io ((c.response request found).head c.worker.http)
    sendData .body c.io (c.response request found).data

/-- `Worker_t::handle`. -/
def handle : ReplyProgram Unit :=
  if c.socket.forbidden then
    -- `throw`: the exception that has been answered goes on.
    ReplyProgram.forbidden forbiddenText badRequest c.io throw
  else tryCatch c.serve fun t => throw t.rethrown

end TypedHttp

/-- A connection to the FRPC handler, with all that happens on it. -/
structure TypedFrpc (Header : Type) where
  socket : SocketWork
  io : TypedIo Header
  newHeader : Header
  /-- What FastRPC's `serve` does, and how it ends. -/
  steps : List FrpcStep
  outcome : Except Thrown Unit

namespace TypedFrpc

open ReplyProgram

variable (c : TypedFrpc Header)

def performSteps : List FrpcStep → ReplyProgram Unit
  | [] => pure ()
  | step :: steps => do
    perform (.frpc step)
    performSteps steps

/-- FastRPC's `serve`. -/
def serve : ReplyProgram Unit := do
  performSteps c.steps
  attempt c.outcome

/-- `Worker_t::handle`. -/
def handle : ReplyProgram Unit :=
  if c.socket.forbidden then
    ReplyProgram.forbidden CppFrpcHandler.forbiddenText CppFrpcHandler.badRequest c.io
      -- It ends there.
      fun _ => pure ()
  else tryCatch c.serve fun t => throw t

end TypedFrpc

/-! ## Fidelity: the same programs -/

/-- What both programs record. -/
inductive Seen
  | call (index : Nat)
  | send (data : Bytes)

def Seen.isSend : Seen → Bool
  | .call _ => false
  | .send _ => true

def ReplyOp.seen : ReplyOp → Option Seen
  | .call index | .frpc (.call index) => some (.call index)
  | .head data | .body data | .frpc (.send data) => some (.send data)
  | .raised _ => none

def ThreadOp.seen : ThreadOp Header → Option Seen
  | .callMethod index => some (.call index)
  | .send data => some (.send data)
  | .enter _ | .resetWork _ | .releaseWork | .resetHeadersIn _ | .resetHeadersOut _ | .endMethod
  | .leave => none

/-- **The same to the outside**: the same calls and sends, and without its type the same
    exception. -/
abbrev LooksAs {α β : Type} (R : α → β → Prop) (p : ReplyProgram α) (q : ThreadProgram Header β) :
    Prop :=
  Agrees (List.filterMap ReplyOp.seen) (List.filterMap ThreadOp.seen) Thrown.exn R p q

/-- A connection whose exceptions have lost their types. -/
def TypedIo.erase (io : TypedIo Header) : HttpIo Header where
  readLine := io.readLine.mapError Thrown.exn
  splitBySpace line n := (io.splitBySpace line n).mapError Thrown.exn
  readHeader := io.readHeader.mapError Thrown.exn
  readContent headers := (io.readContent headers).mapError Thrown.exn
  sendData sends data := (io.sendData sends data).mapError Thrown.exn

def TypedHttp.erase (c : TypedHttp Header Regex) : HttpConnection Header Regex where
  socket := c.socket
  io := c.io.erase
  worker := c.worker
  throws pattern text := (c.throws pattern text).map Thrown.exn

def TypedFrpc.erase (c : TypedFrpc Header) : FrpcConnection Header where
  socket := c.socket
  io := c.io.erase
  newHeader := c.newHeader
  steps := c.steps
  outcome := c.outcome.mapError Thrown.exn

theorem mapError_bind {α β : Type} (x : Except Thrown α) (f : α → Except Thrown β) :
    (x >>= f).mapError Thrown.exn =
      (x.mapError Thrown.exn >>= fun a => (f a).mapError Thrown.exn) := by
  cases x <;> rfl

theorem TypedIo.readRequestLine_erase (io : TypedIo Header) :
    io.readRequestLine.mapError Thrown.exn = Worker.readRequestLine io.erase := by
  rw [readRequestLine, Worker.readRequestLine, mapError_bind]
  refine congrArg _ (funext fun requestLine => ?_)
  rw [mapError_bind]
  refine congrArg _ (funext fun words => ?_)
  rcases words with _ | ⟨method, _ | ⟨target, _ | ⟨protocol, _ | ⟨word, words⟩⟩⟩⟩
  case cons.cons.cons.nil =>
    dsimp only
    by_cases hprotocol : protocol ≠ str "HTTP/1.0" ∧ protocol ≠ str "HTTP/1.1"
    · rw [if_pos hprotocol, if_pos hprotocol]
      rfl
    · rw [if_neg hprotocol, if_neg hprotocol]
      rfl
  all_goals rfl

theorem TypedHttp.readRequest_erase (c : TypedHttp Header Regex) :
    c.readRequest.mapError Thrown.exn = c.worker.readRequest c.io.erase := by
  rw [readRequest, Worker.readRequest, mapError_bind, c.io.readRequestLine_erase]
  refine congrArg _ (funext fun line => ?_)
  rw [mapError_bind]
  refine congrArg _ (funext fun headers => ?_)
  rw [mapError_bind]
  rfl

theorem TypedHttp.findMethod_erase (c : TypedHttp Header Regex) (uri : Bytes) (index : Nat)
    (registry : List (Regex × Method Header)) :
    (c.findMethod uri index registry).mapError Thrown.exn =
      c.erase.findMethod uri index registry := by
  induction registry generalizing index with
  | nil => rfl
  | cons entry registry ih =>
    obtain ⟨pattern, method⟩ := entry
    rw [findMethod, HttpConnection.findMethod]
    dsimp only [TypedHttp.erase]
    cases c.throws pattern (cStr uri) with
    | some t => rfl
    | none =>
      cases c.worker.regexMatch pattern (cStr uri) with
      | some groups => rfl
      | none => exact ih (index + 1)

namespace ReplyProgram

/-- An operation that is not seen. -/
theorem filterMap_unseen {α β : Type} {f : α → Option β} {a : α} (h : f a = none) (done : List α) :
    (done ++ [a]).filterMap f = done.filterMap f := by
  rw [List.filterMap_append, List.filterMap_cons, h]
  exact List.append_nil _

theorem attempt_looksAs {α : Type} (outcome : Except Thrown α) :
    LooksAs Eq (attempt outcome)
      (ofExcept (outcome.mapError Thrown.exn) : ThreadProgram Header α) := by
  cases outcome with
  | ok a => exact .pure rfl
  | error t => exact .unseen_left (filterMap_unseen rfl) (.throw t)

/-- Behind an exception that is raised nothing happens. -/
theorem attempt_error_looksAs {α β γ : Type} {R : β → γ → Prop} (t : Thrown)
    (f : α → ReplyProgram β) :
    LooksAs R (attempt (.error t) >>= f) (throw t.exn : ThreadProgram Header γ) := by
  intro done done' hlook
  refine ⟨.error t, ?_⟩
  exact (filterMap_unseen rfl done).trans hlook

/-- The sends before it are the same on both sides. -/
theorem countP_isSend {done : List ReplyOp} {done' : List (ThreadOp Header)}
    (h : done.filterMap ReplyOp.seen = done'.filterMap ThreadOp.seen) :
    done.countP ReplyOp.isSend = done'.countP ThreadOp.isSend := by
  have hleft : done.countP ReplyOp.isSend =
      (done.filterMap ReplyOp.seen).countP Seen.isSend := by
    rw [List.countP_filterMap]
    refine List.countP_congr fun op _ => ?_
    cases op with
    | frpc step => cases step <;> simp [ReplyOp.isSend, ReplyOp.seen, Seen.isSend]
    | call | head | body | raised => simp [ReplyOp.isSend, ReplyOp.seen, Seen.isSend]
  have hright : done'.countP ThreadOp.isSend =
      (done'.filterMap ThreadOp.seen).countP Seen.isSend := by
    rw [List.countP_filterMap]
    refine List.countP_congr fun op _ => ?_
    cases op <;> simp [ThreadOp.isSend, ThreadOp.seen, Seen.isSend]
  rw [hleft, hright, h]

/-- A send, as the head or the body of a reply. -/
theorem sendData_looksAs {op : Bytes → ReplyOp} (hop : ∀ data, (op data).seen = some (.send data))
    (io : TypedIo Header) (data : Bytes) :
    LooksAs Eq (sendData op io data) (ThreadProgram.sendData io.erase data) := by
  intro done done' hlook
  simp only [sendData, ThreadProgram.sendData, run_bind, run_history, run_perform]
  rw [countP_isSend hlook]
  refine attempt_looksAs _ (done ++ [op data]) (done' ++ [.send data]) ?_
  rw [List.filterMap_append, List.filterMap_append, hlook]
  simp only [List.filterMap_cons, hop, ThreadOp.seen, List.filterMap_nil]

theorem sendBadRequest_looksAs (reply : Bytes) (io : TypedIo Header) :
    LooksAs Eq (sendBadRequest reply io) (ThreadProgram.sendBadRequest reply io.erase) := by
  refine (sendData_looksAs (fun _ => rfl) io reply).tryCatch fun t => ?_
  unfold Thrown.renamed Thrown.what?
  cases t.exn.what? with
  | some what => exact .throw (Thrown.error [str "Can't send data: ", what])
  | none => exact .throw t

/-- A call of a method, by one of the operations that are seen as one. -/
theorem call_looksAs {op : ReplyOp} {index : Nat} (hop : op.seen = some (.call index)) :
    LooksAs (fun _ _ => True) (perform op)
      (ThreadProgram.call index : ThreadProgram Header Unit) := by
  intro done done' hlook
  refine ⟨.ok trivial, ?_⟩
  show (done ++ [op]).filterMap ReplyOp.seen =
    (done' ++ [ThreadOp.callMethod index] ++ [ThreadOp.endMethod]).filterMap ThreadOp.seen
  rw [List.filterMap_append, List.filterMap_append, List.filterMap_append, hlook,
    List.filterMap_cons, hop]
  exact (List.append_nil _).symm

theorem refusal_looksAs (text : Bytes) (io : TypedIo Header) :
    LooksAs Eq (refusal text io) (ThreadProgram.refusal text io.erase) := by
  have hline : Worker.readRequestLine io.erase = io.readRequestLine.mapError Thrown.exn :=
    io.readRequestLine_erase.symm
  have hheader : io.erase.readHeader = io.readHeader.mapError Thrown.exn := rfl
  rw [refusal, ThreadProgram.refusal, hline, hheader, TypedIo.readHead]
  cases io.readRequestLine with
  | error t => exact attempt_error_looksAs t _
  | ok line =>
    obtain ⟨method, target, protocol⟩ := line
    cases io.readHeader with
    | error t => exact attempt_error_looksAs t _
    | ok header => exact sendData_looksAs (fun _ => rfl) io (protocol ++ text)

end ReplyProgram

namespace TypedHttp

open ReplyProgram

variable (c : TypedHttp Header Regex)

theorem sendResponse_looksAs (response : Response Header) :
    LooksAs Eq
      (do
        sendData .head c.io (response.head c.worker.http)
        sendData .body c.io response.data)
      (c.erase.sendResponse response) := by
  have hhead : LooksAs Eq (sendData .head c.io (response.head c.worker.http))
      (ThreadProgram.sendData c.erase.io (response.head c.worker.http)) :=
    sendData_looksAs (fun _ => rfl) c.io _
  exact hhead.bind fun _ _ _ => sendData_looksAs (fun _ => rfl) c.io response.data

theorem serve_looksAs : LooksAs (fun _ _ => True) c.serve c.erase.serve := by
  rw [TypedHttp.serve, HttpConnection.serve]
  have hread : c.erase.worker.readRequest c.erase.io = c.readRequest.mapError Thrown.exn :=
    c.readRequest_erase.symm
  rw [hread]
  cases c.readRequest with
  | error t =>
    refine .unseen_left (filterMap_unseen rfl) ?_
    refine (sendBadRequest_looksAs badRequest c.io).bind_right fun _ _ _ => ?_
    exact .unseen_right (filterMap_unseen rfl) (.pure trivial)
  | ok request =>
    have hfind : c.erase.findMethod request.uri 0 c.erase.worker.registry =
        (c.findMethod request.uri 0 c.worker.registry).mapError Thrown.exn :=
      (c.findMethod_erase request.uri 0 c.worker.registry).symm
    dsimp only [Except.mapError]
    rw [hfind]
    refine (attempt_looksAs _).bind ?_
    rintro found _ rfl
    cases found with
    | none =>
      exact (c.sendResponse_looksAs (c.response request none)).bind_right
        fun _ _ _ => .pure trivial
    | some found =>
      obtain ⟨index, method, groups⟩ := found
      refine (call_looksAs rfl).bind fun _ _ _ => ?_
      exact (c.sendResponse_looksAs _).bind_right fun _ _ _ => .pure trivial

/-- **Without types this is the HTTP handler of `HandlerThread`.** -/
theorem handle_looksAs : LooksAs (fun _ _ => True) c.handle c.erase.handle := by
  rw [TypedHttp.handle, HttpConnection.handle]
  have hsocket : c.erase.socket = c.socket := rfl
  rw [hsocket]
  by_cases hforbidden : c.socket.forbidden = true
  · rw [if_pos hforbidden, if_pos hforbidden]
    have h : LooksAs Eq (ReplyProgram.forbidden forbiddenText badRequest c.io throw)
        c.erase.forbidden := by
      refine (refusal_looksAs forbiddenText c.io).tryCatch fun t => ?_
      exact (sendBadRequest_looksAs badRequest c.io).bind fun _ _ _ => .throw t
    exact h.mono fun _ _ _ => trivial
  · rw [if_neg hforbidden, if_neg hforbidden]
    refine .unseen_right (filterMap_unseen rfl) ?_
    have hserve : LooksAs (fun _ _ => True) (tryCatch c.serve fun t => throw t.rethrown)
        (tryCatch c.erase.serve fun e => do perform .releaseWork; throw e.sliced) := by
      refine c.serve_looksAs.tryCatch fun t => .unseen_right (filterMap_unseen rfl) ?_
      rw [← t.exn_rethrown]
      exact .throw t.rethrown
    refine hserve.bind_right fun _ flow _ => ?_
    cases flow with
    | next => exact .unseen_right (filterMap_unseen rfl) (.pure trivial)
    | returned => exact .pure trivial

end TypedHttp

namespace TypedFrpc

open ReplyProgram

variable (c : TypedFrpc Header)

theorem performSteps_looksAs (steps : List FrpcStep) :
    LooksAs Eq (performSteps steps)
      (FrpcConnection.performSteps steps : ThreadProgram Header Unit) := by
  induction steps with
  | nil => exact .pure rfl
  | cons step steps ih =>
    cases step with
    | call index => exact Agrees.bind (call_looksAs rfl) fun _ _ _ => ih
    | send data =>
      refine Agrees.bind (Agrees.perform fun done done' hlook => ?_) fun _ _ _ => ih
      rw [List.filterMap_append, List.filterMap_append, hlook]
      rfl

/-- **Without types this is the FRPC handler of `HandlerThread`.** -/
theorem handle_looksAs : LooksAs (fun _ _ => True) c.handle c.erase.handle := by
  rw [TypedFrpc.handle, FrpcConnection.handle]
  have hsocket : c.erase.socket = c.socket := rfl
  rw [hsocket]
  by_cases hforbidden : c.socket.forbidden = true
  · rw [if_pos hforbidden, if_pos hforbidden]
    refine ((refusal_looksAs CppFrpcHandler.forbiddenText c.io).mono fun _ _ _ => trivial).tryCatch
      fun t => ?_
    have hreply : LooksAs Eq (sendBadRequest CppFrpcHandler.badRequest c.io)
        (ThreadProgram.sendBadRequest CppFrpcHandler.badRequest c.erase.io) :=
      sendBadRequest_looksAs CppFrpcHandler.badRequest c.io
    exact hreply.bind_left fun _ _ _ => .pure trivial
  · rw [if_neg hforbidden, if_neg hforbidden]
    refine .unseen_right (filterMap_unseen rfl) (.unseen_right (filterMap_unseen rfl)
      (.unseen_right (filterMap_unseen rfl) ?_))
    have hserve : LooksAs Eq c.serve c.erase.serve :=
      (performSteps_looksAs c.steps).bind fun _ _ _ => attempt_looksAs c.outcome
    refine (hserve.tryCatch fun t => ?_).bind_right fun _ _ _ => ?_
    · exact .unseen_right (filterMap_unseen rfl) (.unseen_right (filterMap_unseen rfl)
        (.unseen_right (filterMap_unseen rfl) (.throw t)))
    · exact .unseen_right (filterMap_unseen rfl) (.unseen_right (filterMap_unseen rfl)
        (.unseen_right (filterMap_unseen rfl) (.pure trivial)))

end TypedFrpc

end ThreadServer
