/-
  Forbidden clients: what each handler's `Worker_t::handle` does with a connection that
  `Listener_t::accept` marked `forbidden` (`cpphttphandler.cc`, `cppfrpchandler.cc`,
  `dummyhandler.cc`).

  The listener only decides; the connection goes through the queue like any other, and it is left to
  the handler to turn the client away.

  1. **Program** — `handle` of the FRPC and of the dummy handler, in the same terms as the HTTP
     handler's; FastRPC's `serve` is a parameter.
  2. **Specification** (`Refused`) — between two states of a worker no method is called, and no
     reply with a status of 200 to 299 is started.
  3. **Result** (`refused_iff`) — whatever the client sends, the HTTP and the FRPC handler refuse
     it: they look at the flag first and only send 403 and 400 (`refusal_refused`).  The dummy
     handler does not look at the flag, and refuses only clients it cannot read from.
-/
import ThreadServer.HttpWorker

namespace ThreadServer

open Bytes Worker

/-! ## The program -/

variable {Header Regex : Type}

/-- The `try` block of `forbidden`, in both handlers: read the head of the request, and answer it
    in its own protocol with `text`. -/
def refusal (text : Bytes) (io : HttpIo Header) (s : WorkerState) : WorkerResult :=
  match readRequestLine io, io.readHeader with
  | .error e, _ => (.error e, s)
  | .ok _, .error e => (.error e, s)
  | .ok (_, _, protocol), .ok _ => sendData io (protocol ++ text) s

namespace CppFrpcHandler

/-- The refusal behind the protocol. -/
def forbiddenText : Bytes :=
  str " 403 Forbidden\r\nAccept: text/xml, application/x-frpc\r\nServer: ThreadServer/"
    ++ str "CppFrpcHandler Linux\r\n\r\n"

/-- The fixed reply to a request that cannot be read. -/
def badRequest : Bytes :=
  str "HTTP/1.0 400 Bad Request\r\nAccept: text/xml, application/x-frpc\r\nServer: ThreadServer/"
    ++ str "CppFrpcHandler Linux\r\n\r\n"

/-- `forbidden`.  Other than the HTTP handler's, it does not throw again what it has answered. -/
def forbidden (io : HttpIo Header) (s : WorkerState) : WorkerResult :=
  match refusal forbiddenText io s with
  | (.ok (), s) => (.ok (), s)
  | (.error _, s) =>
    match sendData io badRequest s with
    | (.ok (), s) => (.ok (), s)
    | (.error e, s) =>
      match e.what? with
      | some what => (.error (.formatted [str "Can't send data: ", what]), s)
      | none => (.error e, s)

/-- `Worker_t::handle`, around FastRPC's `serve`. -/
def handle (serve : WorkerState → WorkerResult) (io : HttpIo Header) (socket : SocketWork)
    (s : WorkerState) : WorkerResult :=
  if socket.forbidden then forbidden io s
  else
    let (outcome, s) := serve { s with work := some socket }
    (outcome, { s with work := none })

end CppFrpcHandler

/-- What the dummy handler does on a connection. -/
structure DummyIo where
  readUntil : Bytes → Except Exn Unit
  write : Bytes → Except Exn Unit

/-- The dummy handler's one reply. -/
def helloWorld : Bytes :=
  str "HTTP/1.1 200 OK\r\nContent-Type: text/plain\r\nConnection: close\r\n\r\nHello World!\r\n"

/-- The dummy handler's `Worker_t::handle`: it waits for the end of a head, sleeps a moment and
    replies. -/
def dummyHandle (io : DummyIo) (_ : SocketWork) (s : WorkerState) : WorkerResult :=
  match io.readUntil (str "\r\n\r\n") with
  | .error e => (.error e, s)
  | .ok () => (io.write helloWorld, { s with events := s.events ++ [.send helloWorld] })

/-- A worker of any handler of the server, on a connection. -/
inductive HandlerWorker (Header Regex : Type)
  | cppHttp (worker : Worker Header Regex) (io : HttpIo Header)
  | cppFrpc (serve : WorkerState → WorkerResult) (io : HttpIo Header)
  | dummy (io : DummyIo)

/-- The virtual `Worker_t::handle`. -/
def HandlerWorker.handle :
    HandlerWorker Header Regex → SocketWork → WorkerState → WorkerResult
  | .cppHttp worker io => worker.handle io
  | .cppFrpc serve io => CppFrpcHandler.handle serve io
  | .dummy io => dummyHandle io

/-! ## The specification -/

/-- The status of a reply: the three bytes behind its first space. -/
def replyStatus (reply : Bytes) : Bytes := ((reply.dropWhile (· ≠ chr ' ')).drop 1).take 3

/-- A refusal says 403, a fixed reply 400. -/
theorem CppFrpcHandler.replyStatus_forbiddenText : replyStatus forbiddenText = str "403" := by
  decide

theorem CppFrpcHandler.replyStatus_badRequest : replyStatus badRequest = str "400" := by
  decide

theorem replyStatus_badRequest : replyStatus badRequest = str "400" := by
  decide

/-- The versions the server speaks have no space in them. -/
theorem replyStatus_append {protocol : Bytes}
    (hprotocol : protocol = str "HTTP/1.0" ∨ protocol = str "HTTP/1.1") (text : Bytes) :
    replyStatus (protocol ++ text) = replyStatus text := by
  have hspace : ∀ c ∈ protocol, decide (c ≠ chr ' ') = true := by
    rcases hprotocol with rfl | rfl <;> exact forall_of_all (by decide)
  rw [replyStatus, replyStatus, List.dropWhile_append_of_pos hspace]

/-- The client gets something: a method is called, or a reply whose status begins with `2` is
    started. -/
def Event.serves : Event → Bool
  | .call _ _ => true
  | .send data => (replyStatus data).head? = some (chr '2')

/-- **The client is refused**: nothing the worker has done since serves it. -/
def Refused (before after : WorkerState) : Prop :=
  ∃ events, after.events = before.events ++ events ∧ ∀ e ∈ events, e.serves = false

theorem Refused.refl (s : WorkerState) : Refused s s :=
  ⟨[], (List.append_nil s.events).symm, nofun⟩

theorem Refused.trans {s s' s'' : WorkerState} (h : Refused s s') (h' : Refused s' s'') :
    Refused s s'' := by
  obtain ⟨events, heq, hserves⟩ := h
  obtain ⟨events', heq', hserves'⟩ := h'
  refine ⟨events ++ events', ?_, fun e he => ?_⟩
  · rw [heq', heq, List.append_assoc]
  · rcases List.mem_append.mp he with he | he
    · exact hserves e he
    · exact hserves' e he

/-! ## The handlers that look at the flag -/

/-- Sending a reply with another status. -/
theorem sendData_refused (io : HttpIo Header) {data status : Bytes}
    (hdata : replyStatus data = status) (hstatus : status.head? ≠ some (chr '2'))
    (s : WorkerState) : Refused s (sendData io data s).2 := by
  refine ⟨[.send data], rfl, fun e he => ?_⟩
  obtain rfl := List.mem_singleton.mp he
  rw [Event.serves, hdata]
  exact decide_eq_false hstatus

/-- The refusal is only sent in a protocol the server speaks. -/
theorem refusal_refused {text : Bytes} (htext : replyStatus text = str "403")
    (io : HttpIo Header) (s : WorkerState) : Refused s (refusal text io s).2 := by
  unfold refusal
  cases hline : readRequestLine io with
  | error e => exact Refused.refl s
  | ok line =>
    obtain ⟨method, target, protocol⟩ := line
    cases io.readHeader with
    | error e => exact Refused.refl s
    | ok header =>
      obtain ⟨-, -, -, hprotocol⟩ := readRequestLine_eq_ok_iff.mp hline
      exact sendData_refused io ((replyStatus_append hprotocol text).trans htext) (by decide) s

/-- The HTTP handler's refusal behind the protocol. -/
def forbiddenText : Bytes :=
  str " 403 Forbidden\r\nServer: ThreadServer/CppHttpHandler Linux\r\n\r\n"

theorem replyStatus_forbiddenText : replyStatus forbiddenText = str "403" := by
  decide

/-- The HTTP handler's `forbidden` is the same refusal, with its own texts. -/
theorem forbidden_eq (io : HttpIo Header) (s : WorkerState) :
    forbidden io s =
      match refusal forbiddenText io s with
      | (.ok (), s) => (.ok (), s)
      | (.error e, s) =>
        match sendBadRequest io s with
        | (.ok (), s) => (.error e, s)
        | (.error e', s) => (.error e', s) := rfl

theorem sendBadRequest_refused (io : HttpIo Header) (s : WorkerState) :
    Refused s (sendBadRequest io s).2 := by
  have hsend := sendData_refused io replyStatus_badRequest (by decide) s
  unfold sendBadRequest
  generalize sendData io badRequest s = result at hsend ⊢
  obtain ⟨outcome, t⟩ := result
  cases outcome with
  | ok => exact hsend
  | error e => cases e <;> exact hsend

/-- **The HTTP handler refuses.** -/
theorem forbidden_refused (io : HttpIo Header) (s : WorkerState) :
    Refused s (forbidden io s).2 := by
  have hrefusal := refusal_refused replyStatus_forbiddenText io s
  rw [forbidden_eq]
  generalize refusal forbiddenText io s = result at hrefusal ⊢
  obtain ⟨outcome, t⟩ := result
  cases outcome with
  | ok => exact hrefusal
  | error e =>
    have hbad := hrefusal.trans (sendBadRequest_refused io t)
    dsimp only
    generalize sendBadRequest io t = result at hbad ⊢
    obtain ⟨outcome, u⟩ := result
    cases outcome <;> exact hbad

/-- **The FRPC handler refuses.** -/
theorem CppFrpcHandler.forbidden_refused (io : HttpIo Header) (s : WorkerState) :
    Refused s (CppFrpcHandler.forbidden io s).2 := by
  have hrefusal := refusal_refused CppFrpcHandler.replyStatus_forbiddenText io s
  unfold CppFrpcHandler.forbidden
  generalize refusal CppFrpcHandler.forbiddenText io s = result at hrefusal ⊢
  obtain ⟨outcome, t⟩ := result
  cases outcome with
  | ok => exact hrefusal
  | error e =>
    have hbad := hrefusal.trans
      (sendData_refused io CppFrpcHandler.replyStatus_badRequest (by decide) t)
    dsimp only
    generalize sendData io CppFrpcHandler.badRequest t = result at hbad ⊢
    obtain ⟨outcome, u⟩ := result
    cases outcome with
    | ok => exact hbad
    | error e' => cases e' <;> exact hbad

/-! ## All handlers -/

/-- The dummy handler serves whomever it can read a head from. -/
theorem dummyHandle_not_refused {io : DummyIo} (hread : io.readUntil (str "\r\n\r\n") = .ok ())
    (socket : SocketWork) (s : WorkerState) : ¬ Refused s (dummyHandle io socket s).2 := by
  rintro ⟨events, heq, hserves⟩
  rw [dummyHandle, hread] at heq
  obtain rfl := List.append_cancel_left heq
  exact absurd (hserves _ List.mem_cons_self) (by decide)

/-- **Who turns a forbidden client away.**  Whatever a forbidden client sends, no method is called
    for it and no success is sent to it, unless it has reached a dummy handler that could read a
    head from it; and then it is served. -/
theorem refused_iff (worker : HandlerWorker Header Regex) {socket : SocketWork}
    (hforbidden : socket.forbidden = true) (s : WorkerState) :
    Refused s (worker.handle socket s).2 ↔
      ∀ io, worker = .dummy io → io.readUntil (str "\r\n\r\n") ≠ .ok () := by
  cases worker with
  | cppHttp w io =>
    constructor
    · intro _ io' heq
      cases heq
    · intro _
      show Refused s (w.handle io socket s).2
      rw [Worker.handle, if_pos hforbidden]
      exact forbidden_refused io s
  | cppFrpc serve io =>
    constructor
    · intro _ io' heq
      cases heq
    · intro _
      show Refused s (CppFrpcHandler.handle serve io socket s).2
      rw [CppFrpcHandler.handle, if_pos hforbidden]
      exact CppFrpcHandler.forbidden_refused io s
  | dummy io =>
    constructor
    · rintro hrefused io' heq hread
      obtain rfl := HandlerWorker.dummy.inj heq
      exact dummyHandle_not_refused hread socket s hrefused
    · intro h
      show Refused s (dummyHandle io socket s).2
      unfold dummyHandle
      cases hread : io.readUntil (str "\r\n\r\n") with
      | error e => exact Refused.refl s
      | ok => exact absurd hread (h io rfl)

/-- A forbidden client's connection to the HTTP handler, with a request that would find a method. -/
theorem redirectWorker_refused :
    Refused ⟨none, []⟩ (redirectWorker.handle redirectIo ⟨7, true⟩ ⟨none, []⟩).2 :=
  (refused_iff (.cppHttp redirectWorker redirectIo) rfl ⟨none, []⟩).mpr nofun

/-- A client that has sent a complete head. -/
def completeHead : DummyIo where
  readUntil _ := .ok ()
  write _ := .ok ()

/-- **The dummy handler serves a forbidden client**: it gets the 200 reply. -/
theorem completeHead_served :
    ¬ Refused ⟨none, []⟩
        (HandlerWorker.handle (.dummy completeHead : HandlerWorker Unit Unit) ⟨7, true⟩
          ⟨none, []⟩).2 :=
  dummyHandle_not_refused rfl ⟨7, true⟩ ⟨none, []⟩

end ThreadServer
