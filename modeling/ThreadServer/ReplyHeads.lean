/-
  How the two handlers answer a connection: every run of their `handle`s, and the heads they send
  (`cpphttphandler.cc`, `cppfrpchandler.cc`).

  1. **Runs** (`Refusal`, `Service`) — all the ways in which `forbidden` and the HTTP handler's
     `try` block can end, each with what the connection does there and with what is recorded.
  2. **Connections** (`ReplyConnection`) — one type for those of both handlers: they refuse with
     the same program, and differ in its texts and in what they do after the fixed reply.
  3. **Heads** (`oneHead_iff`) — a second head, other than the first, is started where the send of
     a refusal fails, and nowhere else: that send stands in the `try` block whose `catch` clause
     sends the fixed reply.  The HTTP handler's `try` block around a request ends before its sends.
-/
import ThreadServer.ThrownObjects

namespace ThreadServer

open Bytes ThreadLocal ThreadLocal.Program

variable {Header Regex : Type}

/-! ## Runs of the parts -/

/-- What an operation of the connection leaves behind itself. -/
def raises {α : Type} : Except Thrown α → List ReplyOp
  | .ok _ => []
  | .error t => [.raised t]

namespace ReplyProgram

@[simp] theorem run_attempt {α : Type} (outcome : Except Thrown α) (done : List ReplyOp) :
    (attempt outcome).run done = (outcome, done ++ raises outcome) := by
  cases outcome with
  | ok a => rw [attempt, run_pure, raises, List.append_nil]
  | error t => rfl

@[simp] theorem run_sendData (op : Bytes → ReplyOp) (io : TypedIo Header) (data : Bytes)
    (done : List ReplyOp) :
    (sendData op io data).run done =
      (io.sendData (done.countP ReplyOp.isSend) data,
        done ++ op data :: raises (io.sendData (done.countP ReplyOp.isSend) data)) := by
  simp only [sendData, run_bind, run_history, run_perform, run_attempt, List.append_assoc,
    List.cons_append, List.nil_append]

@[simp] theorem run_sendBadRequest (reply : Bytes) (io : TypedIo Header) (done : List ReplyOp) :
    (sendBadRequest reply io).run done =
      ((io.sendData (done.countP ReplyOp.isSend) reply).mapError Thrown.renamed,
        done ++ .head reply :: raises (io.sendData (done.countP ReplyOp.isSend) reply)) := by
  rw [sendBadRequest, run_tryCatch, run_sendData]
  cases io.sendData (done.countP ReplyOp.isSend) reply <;> rfl

/-- **A refused connection**: all the ways in which `forbidden` can end, where `closing` is how it
    ends after the fixed reply. -/
inductive Refusal (text reply : Bytes) (io : TypedIo Header)
    (closing : Thrown → Except Thrown Unit) : Except Thrown Unit × List ReplyOp → Prop
  | refused {protocol : Bytes} (hread : io.readHead = .ok protocol)
      (hsend : io.sendData 0 (protocol ++ text) = .ok ()) :
      Refusal text reply io closing (.ok (), [.head (protocol ++ text)])
  /-- The request cannot be read. -/
  | answered {t : Thrown} (hread : io.readHead = .error t) (hreply : io.sendData 0 reply = .ok ()) :
      Refusal text reply io closing (closing t, [.raised t, .head reply])
  | unanswered {t t' : Thrown} (hread : io.readHead = .error t)
      (hreply : io.sendData 0 reply = .error t') :
      Refusal text reply io closing (.error t'.renamed, [.raised t, .head reply, .raised t'])
  /-- The refusal cannot be sent. -/
  | resent {protocol : Bytes} {t : Thrown} (hread : io.readHead = .ok protocol)
      (hsend : io.sendData 0 (protocol ++ text) = .error t)
      (hreply : io.sendData 1 reply = .ok ()) :
      Refusal text reply io closing (closing t, [.head (protocol ++ text), .raised t, .head reply])
  | lost {protocol : Bytes} {t t' : Thrown} (hread : io.readHead = .ok protocol)
      (hsend : io.sendData 0 (protocol ++ text) = .error t)
      (hreply : io.sendData 1 reply = .error t') :
      Refusal text reply io closing
        (.error t'.renamed, [.head (protocol ++ text), .raised t, .head reply, .raised t'])

section Answer

variable {text reply : Bytes} {io : TypedIo Header} {ending : Thrown → ReplyProgram Unit}
  {closing : Thrown → Except Thrown Unit}
  (hending : ∀ t done, (ending t).run done = (closing t, done))

include hending in
/-- The `catch` clause of `forbidden`, where the fixed reply can be sent. -/
theorem run_answer (t : Thrown) {done : List ReplyOp}
    (hreply : io.sendData (done.countP ReplyOp.isSend) reply = .ok ()) :
    (do sendBadRequest reply io; ending t : ReplyProgram Unit).run done =
      (closing t, done ++ [.head reply]) := by
  rw [run_bind, run_sendBadRequest, hreply]
  exact hending t _

/-- And where it cannot. -/
theorem run_answer_error (t : Thrown) {done : List ReplyOp} {t' : Thrown}
    (hreply : io.sendData (done.countP ReplyOp.isSend) reply = .error t') :
    (do sendBadRequest reply io; ending t : ReplyProgram Unit).run done =
      (.error t'.renamed, done ++ [.head reply, .raised t']) := by
  rw [run_bind, run_sendBadRequest, hreply]
  rfl

/-- The `try` block of `forbidden`, where the head of the request cannot be read. -/
theorem run_refusal_error {t : Thrown} (hread : io.readHead = .error t) :
    (refusal text io).run [] = (.error t, [.raised t]) := by
  rw [refusal, run_bind, run_attempt, hread]
  rfl

/-- And where it can. -/
theorem run_refusal {protocol : Bytes} (hread : io.readHead = .ok protocol) :
    (refusal text io).run [] =
      (io.sendData 0 (protocol ++ text),
        .head (protocol ++ text) :: raises (io.sendData 0 (protocol ++ text))) := by
  rw [refusal, run_bind, run_attempt, hread]
  exact run_sendData .head io (protocol ++ text) []

include hending in
theorem refusal_forbidden :
    Refusal text reply io closing ((forbidden text reply io ending).run []) := by
  rw [forbidden, run_tryCatch]
  cases hread : io.readHead with
  | error t =>
    rw [run_refusal_error hread]
    dsimp only
    cases hreply : io.sendData 0 reply with
    | ok =>
      rw [run_answer hending t hreply]
      exact .answered hread hreply
    | error t' =>
      rw [run_answer_error t hreply]
      exact .unanswered hread hreply
  | ok protocol =>
    rw [run_refusal hread]
    cases hsend : io.sendData 0 (protocol ++ text) with
    | ok => exact .refused hread hsend
    | error t =>
      dsimp only [raises]
      cases hreply : io.sendData 1 reply with
      | ok =>
        rw [run_answer hending t hreply]
        exact .resent hread hsend hreply
      | error t' =>
        rw [run_answer_error t hreply]
        exact .lost hread hsend hreply

end Answer

end ReplyProgram

namespace TypedHttp

open ReplyProgram

variable (c : TypedHttp Header Regex)

/-- What is recorded of the call of the method that has been found. -/
def calls : Option (Nat × Method Header × List Bytes) → List ReplyOp
  | none => []
  | some (index, _, _) => [.call index]

@[simp] theorem run_callMethod (found : Option (Nat × Method Header × List Bytes))
    (done : List ReplyOp) : (callMethod found).run done = (.ok (), done ++ calls found) := by
  cases found with
  | none => rw [callMethod, run_pure, calls, List.append_nil]
  | some found => rfl

theorem countP_isSend_calls (found : Option (Nat × Method Header × List Bytes)) :
    (calls found).countP ReplyOp.isSend = 0 := by
  cases found <;> rfl

/-- **A served connection**: all the ways in which the HTTP handler's outer `try` block and its
    `catch` clauses can end. -/
inductive Service : Except Thrown Unit × List ReplyOp → Prop
  /-- The request cannot be read. -/
  | answered {t : Thrown} (hread : c.readRequest = .error t)
      (hreply : c.io.sendData 0 badRequest = .ok ()) :
      Service (.ok (), [.raised t, .head badRequest])
  | unanswered {t t' : Thrown} (hread : c.readRequest = .error t)
      (hreply : c.io.sendData 0 badRequest = .error t') :
      Service (.error t'.rethrown, [.raised t, .head badRequest, .raised t'])
  /-- `regex_match` throws. -/
  | unmatched {request : Request Header} {t : Thrown} (hread : c.readRequest = .ok request)
      (hfind : c.findMethod request.uri 0 c.worker.registry = .error t) :
      Service (.error t.rethrown, [.raised t])
  | cutHead {request : Request Header} {found : Option (Nat × Method Header × List Bytes)}
      {t : Thrown} (hread : c.readRequest = .ok request)
      (hfind : c.findMethod request.uri 0 c.worker.registry = .ok found)
      (hhead : c.io.sendData 0 ((c.response request found).head c.worker.http) = .error t) :
      Service (.error t.rethrown,
        calls found ++ [.head ((c.response request found).head c.worker.http), .raised t])
  | cutBody {request : Request Header} {found : Option (Nat × Method Header × List Bytes)}
      {t : Thrown} (hread : c.readRequest = .ok request)
      (hfind : c.findMethod request.uri 0 c.worker.registry = .ok found)
      (hhead : c.io.sendData 0 ((c.response request found).head c.worker.http) = .ok ())
      (hbody : c.io.sendData 1 (c.response request found).data = .error t) :
      Service (.error t.rethrown,
        calls found ++ [.head ((c.response request found).head c.worker.http),
          .body (c.response request found).data, .raised t])
  | served {request : Request Header} {found : Option (Nat × Method Header × List Bytes)}
      (hread : c.readRequest = .ok request)
      (hfind : c.findMethod request.uri 0 c.worker.registry = .ok found)
      (hhead : c.io.sendData 0 ((c.response request found).head c.worker.http) = .ok ())
      (hbody : c.io.sendData 1 (c.response request found).data = .ok ()) :
      Service (.ok (),
        calls found ++ [.head ((c.response request found).head c.worker.http),
          .body (c.response request found).data])

/-- The `try` block behind the search for a method. -/
theorem run_respond (request : Request Header)
    (found : Option (Nat × Method Header × List Bytes)) :
    (do
      callMethod found
      sendData .head c.io ((c.response request found).head c.worker.http)
      sendData .body c.io (c.response request found).data : ReplyProgram Unit).run [] =
      match c.io.sendData 0 ((c.response request found).head c.worker.http) with
      | .error t => (.error t,
          calls found ++ [.head ((c.response request found).head c.worker.http), .raised t])
      | .ok () => (c.io.sendData 1 (c.response request found).data,
          calls found ++ .head ((c.response request found).head c.worker.http) ::
            .body (c.response request found).data ::
              raises (c.io.sendData 1 (c.response request found).data)) := by
  rw [run_bind, run_callMethod]
  dsimp only [List.nil_append]
  rw [run_bind, run_sendData, countP_isSend_calls]
  cases c.io.sendData 0 ((c.response request found).head c.worker.http) with
  | error t => rfl
  | ok =>
    dsimp only [raises]
    rw [run_sendData, List.countP_append, countP_isSend_calls, List.append_assoc]
    rfl

theorem service_handle (hadmitted : ¬ c.socket.forbidden = true) :
    c.Service (c.handle.run []) := by
  rw [handle, if_neg hadmitted, run_tryCatch, serve]
  cases hread : c.readRequest with
  | error t =>
    have hcount : ([] ++ [ReplyOp.raised t]).countP ReplyOp.isSend = 0 := rfl
    dsimp only
    rw [run_bind, run_perform]
    dsimp only
    rw [run_sendBadRequest, hcount]
    cases hreply : c.io.sendData 0 badRequest with
    | ok => exact .answered hread hreply
    | error t' =>
      have hend := Service.unanswered hread hreply
      rw [← Thrown.rethrown_renamed] at hend
      exact hend
  | ok request =>
    dsimp only
    rw [run_bind, run_attempt]
    cases hfind : c.findMethod request.uri 0 c.worker.registry with
    | error t => exact .unmatched hread hfind
    | ok found =>
      dsimp only [raises, List.append_nil]
      rw [List.nil_append, run_respond]
      cases hhead : c.io.sendData 0 ((c.response request found).head c.worker.http) with
      | error t => exact .cutHead hread hfind hhead
      | ok =>
        dsimp only
        cases hbody : c.io.sendData 1 (c.response request found).data with
        | error t => exact .cutBody hread hfind hhead hbody
        | ok => exact .served hread hfind hhead hbody

end TypedHttp

namespace TypedFrpc

open ReplyProgram

variable (c : TypedFrpc Header)

@[simp] theorem run_performSteps (steps : List FrpcStep) (done : List ReplyOp) :
    (performSteps steps).run done = (.ok (), done ++ steps.map .frpc) := by
  induction steps generalizing done with
  | nil => rw [performSteps, run_pure, List.map_nil, List.append_nil]
  | cons step steps ih =>
    rw [performSteps, run_bind, run_perform]
    dsimp only
    rw [ih, List.append_assoc]
    rfl

/-- **A served connection**: FastRPC's `serve` and its end. -/
theorem run_handle (hadmitted : ¬ c.socket.forbidden = true) :
    c.handle.run [] = (c.outcome, c.steps.map .frpc ++ raises c.outcome) := by
  rw [handle, if_neg hadmitted, run_tryCatch, serve, run_bind, run_performSteps]
  dsimp only [List.nil_append]
  rw [run_attempt]
  cases c.outcome <;> rfl

end TypedFrpc

/-! ## Connections -/

/-- A connection to one of the two handlers. -/
inductive ReplyConnection (Header Regex : Type)
  | http (c : TypedHttp Header Regex)
  | frpc (c : TypedFrpc Header)

namespace ReplyConnection

open ReplyProgram

def socket : ReplyConnection Header Regex → SocketWork
  | http c => c.socket
  | frpc c => c.socket

def io : ReplyConnection Header Regex → TypedIo Header
  | http c => c.io
  | frpc c => c.io

/-- The refusal behind the protocol. -/
def forbiddenText : ReplyConnection Header Regex → Bytes
  | http _ => ThreadServer.forbiddenText
  | frpc _ => CppFrpcHandler.forbiddenText

/-- The fixed reply to a request that cannot be read. -/
def badRequest : ReplyConnection Header Regex → Bytes
  | http _ => ThreadServer.badRequest
  | frpc _ => CppFrpcHandler.badRequest

/-- How `forbidden` ends behind the fixed reply. -/
def closing : ReplyConnection Header Regex → Thrown → Except Thrown Unit
  | http _, t => .error t
  | frpc _, _ => .ok ()

/-- `Worker_t::handle`. -/
def handle : ReplyConnection Header Regex → ReplyProgram Unit
  | http c => c.handle
  | frpc c => c.handle

/-- How `handle` ends. -/
def outcome (c : ReplyConnection Header Regex) : Except Thrown Unit := (c.handle.run []).1

/-- What it has done by then, in order. -/
def record (c : ReplyConnection Header Regex) : List ReplyOp := (c.handle.run []).2

/-- A refused connection, of either handler. -/
theorem refusal_of_forbidden (c : ReplyConnection Header Regex)
    (hforbidden : c.socket.forbidden = true) :
    Refusal c.forbiddenText c.badRequest c.io c.closing (c.outcome, c.record) := by
  cases c with
  | http c =>
    have hrun : c.handle =
        ReplyProgram.forbidden ThreadServer.forbiddenText ThreadServer.badRequest c.io throw :=
      if_pos hforbidden
    show Refusal _ _ _ _ (c.handle.run [])
    rw [hrun]
    exact refusal_forbidden fun t done => rfl
  | frpc c =>
    have hrun : c.handle = ReplyProgram.forbidden CppFrpcHandler.forbiddenText
        CppFrpcHandler.badRequest c.io fun _ => pure () :=
      if_pos hforbidden
    show Refusal _ _ _ _ (c.handle.run [])
    rw [hrun]
    exact refusal_forbidden fun t done => rfl

end ReplyConnection

/-! ## Heads -/

def ReplyOp.head? : ReplyOp → Option Bytes
  | .head data => some data
  | .call _ | .body _ | .frpc _ | .raised _ => none

/-- The heads that have been started, in order. -/
def heads (ops : List ReplyOp) : List Bytes := ops.filterMap ReplyOp.head?

/-- **One head**: behind a head no other one is started. -/
def OneHead (ops : List ReplyOp) : Prop := (heads ops).Pairwise (· = ·)

theorem oneHead_of_heads_eq {ops : List ReplyOp} {data : Bytes} (h : heads ops = [data]) :
    OneHead ops := by
  rw [OneHead, h]
  exact List.pairwise_singleton _ _

/-- A response is one head. -/
theorem oneHead_response (found : Option (Nat × Method Header × List Bytes)) (data : Bytes)
    {ops : List ReplyOp} (hops : heads ops = []) :
    OneHead (TypedHttp.calls found ++ .head data :: ops) := by
  have hhead : heads (.head data :: ops) = [data] := congrArg (List.cons data) hops
  cases found <;> exact oneHead_of_heads_eq hhead

/-- What FastRPC sends is none of them. -/
theorem heads_frpc (steps : List FrpcStep) (outcome : Except Thrown Unit) :
    heads (steps.map .frpc ++ raises outcome) = [] := by
  refine List.filterMap_eq_nil_iff.mpr fun op hop => ?_
  rcases List.mem_append.mp hop with hop | hop
  · obtain ⟨step, -, rfl⟩ := List.mem_map.mp hop
    rfl
  · cases outcome with
    | ok => exact absurd hop List.not_mem_nil
    | error t =>
      obtain rfl := List.mem_singleton.mp hop
      rfl

/-- A head that has been read is one of these two versions. -/
theorem TypedIo.protocol_of_readHead {io : TypedIo Header} {protocol : Bytes}
    (hread : io.readHead = .ok protocol) :
    protocol = str "HTTP/1.0" ∨ protocol = str "HTTP/1.1" := by
  obtain ⟨⟨method, target, protocol'⟩, hline, hrest⟩ := bind_eq_ok.mp hread
  obtain ⟨header, -, hprotocol⟩ := bind_eq_ok.mp hrest
  obtain rfl := Except.ok.inj hprotocol
  have herase : Worker.readRequestLine io.erase = .ok (method, target, protocol') := by
    rw [← io.readRequestLine_erase, hline]
    rfl
  obtain ⟨-, -, -, h⟩ := Worker.readRequestLine_eq_ok_iff.mp herase
  exact h

namespace ReplyConnection

variable (c : ReplyConnection Header Regex)

/-- The refusal of this connection cannot be sent. -/
def RefusalFails : Prop :=
  c.socket.forbidden = true ∧
    ∃ protocol t, c.io.readHead = .ok protocol ∧
      c.io.sendData 0 (protocol ++ c.forbiddenText) = .error t

/-- The refusal and the fixed reply are different heads. -/
theorem refusal_ne_badRequest {protocol : Bytes} (hread : c.io.readHead = .ok protocol) :
    protocol ++ c.forbiddenText ≠ c.badRequest := by
  have hstatus : replyStatus c.forbiddenText = str "403" ∧
      replyStatus c.badRequest = str "400" := by
    cases c with
    | http => exact ⟨replyStatus_forbiddenText, replyStatus_badRequest⟩
    | frpc =>
      exact ⟨CppFrpcHandler.replyStatus_forbiddenText, CppFrpcHandler.replyStatus_badRequest⟩
  intro h
  have hreply : replyStatus (protocol ++ c.forbiddenText) = str "400" := by
    rw [h]
    exact hstatus.2
  rw [replyStatus_append (c.io.protocol_of_readHead hread), hstatus.1] at hreply
  exact absurd hreply (by decide)

theorem oneHead_of_admitted (hadmitted : ¬ c.socket.forbidden = true) : OneHead c.record := by
  cases c with
  | http c =>
    have hservice := c.service_handle hadmitted
    show OneHead (c.handle.run []).2
    generalize c.handle.run [] = result at hservice ⊢
    cases hservice with
    | answered | unanswered => exact oneHead_of_heads_eq rfl
    | unmatched => exact List.Pairwise.nil
    | cutHead | cutBody | served => exact oneHead_response _ _ rfl
  | frpc c =>
    show OneHead (c.handle.run []).2
    rw [OneHead, c.run_handle hadmitted, heads_frpc]
    exact List.Pairwise.nil

/-- **One head for each connection, unless its refusal cannot be sent**: then the fixed reply is
    sent behind it. -/
theorem oneHead_iff : OneHead c.record ↔ ¬ c.RefusalFails := by
  by_cases hforbidden : c.socket.forbidden = true
  case neg => exact iff_of_true (c.oneHead_of_admitted hforbidden) fun h => hforbidden h.1
  have hrefusal := c.refusal_of_forbidden hforbidden
  have hdifferent : ∀ {protocol : Bytes} {t : Thrown} {ops : List ReplyOp},
      c.io.readHead = .ok protocol →
      c.io.sendData 0 (protocol ++ c.forbiddenText) = .error t →
      heads ops = [protocol ++ c.forbiddenText, c.badRequest] →
      (OneHead ops ↔ ¬ c.RefusalFails) := by
    intro protocol t ops hread hsend hheads
    refine iff_of_false ?_ fun h => h ⟨hforbidden, protocol, t, hread, hsend⟩
    rw [OneHead, hheads, List.pairwise_pair]
    exact c.refusal_ne_badRequest hread
  generalize c.outcome = outcome at hrefusal
  generalize c.record = ops at hrefusal ⊢
  cases hrefusal with
  | refused hread hsend =>
    refine iff_of_true (oneHead_of_heads_eq rfl) ?_
    rintro ⟨-, protocol, t, hread', hsend'⟩
    obtain rfl := Except.ok.inj (hread.symm.trans hread')
    exact nomatch hsend.symm.trans hsend'
  | answered hread | unanswered hread =>
    refine iff_of_true (oneHead_of_heads_eq rfl) ?_
    rintro ⟨-, protocol, t, hread', -⟩
    exact nomatch hread.symm.trans hread'
  | resent hread hsend | lost hread hsend => exact hdifferent hread hsend rfl

end ReplyConnection

/-! ## A client that has gone -/

/-- What FastRPC throws where it cannot send. -/
def sendFailure : Thrown where
  dynamicType := str "FRPC::ProtocolError_t"
  exn := .std (str "Can't send data to peer")
  ofException h := absurd h (by decide)
  ofError h := absurd h (by decide)

/-- A client that sends a request and has closed its connection before the reply. -/
def goneIo : TypedIo Unit where
  readLine := .ok (str "GET /a HTTP/1.0")
  splitBySpace _ _ := .ok [str "GET", str "/a", str "HTTP/1.0"]
  readHeader := .ok ()
  readContent _ := .ok []
  sendData _ _ := .error sendFailure

/-- The HTTP handler's connection to it. -/
def goneConnection (forbidden : Bool) : ReplyConnection Unit Bytes :=
  .http
    { socket := ⟨7, forbidden⟩
      io := goneIo
      worker := Worker.redirectWorker
      throws := fun _ _ => none }

/-- **Two heads**: where the client has to be refused, the send of the refusal fails, and the fixed
    reply is sent behind it. -/
theorem goneConnection_twoHeads : ¬ OneHead (goneConnection true).record := by
  intro h
  have hheads : heads (goneConnection true).record =
      [str "HTTP/1.0" ++ forbiddenText, badRequest] := rfl
  rw [OneHead, hheads, List.pairwise_pair] at h
  exact (goneConnection true).refusal_ne_badRequest rfl h

end ThreadServer
