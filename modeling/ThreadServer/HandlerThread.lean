/-
  A handler's worker, operation by operation on what the handler keeps for its thread: `work` of
  both handlers (`cpphttphandler.cc`, `cppfrpchandler.cc`), and the FastRPC module's `_headersIn`
  and `_headersOut`.

  1. **Program** — both `handle`s once more, with every place where a pointer is set or released,
     around the `try` and `catch` blocks, the early return and the exceptions thrown again; and
     `Worker_t::run`, which takes one connection after the other and survives what `handle` throws.
     Whatever a read, a send, a match or a method does may differ from connection to connection.
  2. **The handler its threads share** (`HandlerStorage`) — its pointers are thread specific, so
     each thread works on its own part (`isLocal`).
  3. **Fidelity** (`HttpConnection.handle_computes`, `FrpcConnection.handle_computes`) — forgetting
     the operations, these are the `handle`s of `HttpWorker` and `Forbidden`.
-/
import ThreadServer.Forbidden
import ThreadServer.Lib.ThreadLocal

namespace ThreadServer

open Bytes ThreadLocal ThreadLocal.Program

/-! ## The program -/

/-- What a worker's thread does, as far as its handler's storage and the outside see it. -/
inductive ThreadOp (Header : Type)
  /-- `Worker_t::run` calls `handle`. -/
  | enter (socket : SocketWork)
  | resetWork (socket : SocketWork)
  | releaseWork
  | resetHeadersIn (headers : Option Header)
  | resetHeadersOut (headers : Option Header)
  | callMethod (index : Nat)
  /-- The method has returned or thrown. -/
  | endMethod
  | send (data : Bytes)
  /-- `handle` has returned or thrown. -/
  | leave

/-- What a thread finds in its handler, and where it is: the connection it handles, and the method
    it is in. -/
structure ThreadStorage (Header : Type) where
  work : Option SocketWork
  headersIn : Option Header
  headersOut : Option Header
  serving : Option SocketWork
  method : Option Nat
  events : List Event

variable {Header Regex : Type}

/-- A thread before its first connection. -/
def ThreadStorage.initial : ThreadStorage Header := ⟨none, none, none, none, none, []⟩

/-- An operation, on the thread's own part. -/
def ThreadOp.act : ThreadOp Header → ThreadStorage Header → ThreadStorage Header
  | .enter socket, s => { s with serving := some socket }
  | .resetWork socket, s => { s with work := some socket }
  | .releaseWork, s => { s with work := none }
  | .resetHeadersIn headers, s => { s with headersIn := headers }
  | .resetHeadersOut headers, s => { s with headersOut := headers }
  | .callMethod index, s =>
    { s with method := some index, events := s.events ++ [.call index s.work] }
  | .endMethod, s => { s with method := none }
  | .send data, s => { s with events := s.events ++ [.send data] }
  | .leave, s => { s with serving := none }

def ThreadOp.isSend : ThreadOp Header → Bool
  | .send _ => true
  | _ => false

/-- A program of a worker's thread. -/
abbrev ThreadProgram (Header α : Type) := Program (ThreadOp Header) Exn α

namespace ThreadProgram

/-- `io.sendData(data)`. -/
def sendData (io : HttpIo Header) (data : Bytes) : ThreadProgram Header Unit := do
  let done ← history
  perform (.send data)
  ofExcept (io.sendData (done.countP ThreadOp.isSend) data)

/-- Send a fixed reply; a standard exception is reported under another name. -/
def sendBadRequest (reply : Bytes) (io : HttpIo Header) : ThreadProgram Header Unit :=
  tryCatch (sendData io reply) fun e =>
    match e.what? with
    | some what => throw (.formatted [str "Can't send data: ", what])
    | none => throw e

/-- The `try` block of `forbidden`. -/
def refusal (text : Bytes) (io : HttpIo Header) : ThreadProgram Header Unit :=
  match Worker.readRequestLine io, io.readHeader with
  | .error e, _ => throw e
  | .ok _, .error e => throw e
  | .ok (_, _, protocol), .ok _ => sendData io (protocol ++ text)

/-- Call the method at this place of a registry. -/
def call (index : Nat) : ThreadProgram Header Unit := do
  perform (.callMethod index)
  perform .endMethod

end ThreadProgram

/-- Where a block of `handle` goes on when it ends without an exception. -/
inductive Flow
  | next
  | returned

/-- A connection to the HTTP handler, with all that happens on it: what the connection gives and
    takes, what the methods do, and what `regex_match` throws, if anything. -/
structure HttpConnection (Header Regex : Type) where
  socket : SocketWork
  io : HttpIo Header
  worker : Worker Header Regex
  throws : Regex → Bytes → Option Exn

namespace HttpConnection

open ThreadProgram

variable (c : HttpConnection Header Regex)

/-- The loop over the registry, from its `index`-th entry on. -/
def findMethod (uri : Bytes) : Nat → List (Regex × Method Header) →
    Except Exn (Option (Nat × Method Header × List Bytes))
  | _, [] => .ok none
  | index, (pattern, method) :: registry =>
    match c.throws pattern (cStr uri), c.worker.regexMatch pattern (cStr uri) with
    | some e, _ => .error e
    | none, some groups => .ok (some (index, method, groups))
    | none, none => findMethod uri (index + 1) registry

/-- Send the head and the body of a response. -/
def sendResponse (response : Response Header) : ThreadProgram Header Unit := do
  sendData c.io (response.head c.worker.http)
  sendData c.io response.data

/-- The outer `try` block of `handle`.  After the fixed reply it gives up the work itself and
    returns. -/
def serve : ThreadProgram Header Flow :=
  match c.worker.readRequest c.io with
  | .error _ => do
    sendBadRequest badRequest c.io
    -- Not reached if the reply cannot be sent: then the work is released in `handle`.
    perform .releaseWork
    pure .returned
  | .ok request => do
    let response := c.worker.initialResponse request
    let found ← ofExcept (c.findMethod request.uri 0 c.worker.registry)
    match found with
    | none =>
      c.sendResponse
        { response with status := 404, data := response.data ++ Worker.notFoundPage request }
    | some (index, method, groups) => do
      call index
      c.sendResponse
        (c.worker.afterCall (method { request with matchGroups := groups } response))
    pure .next

/-- `forbidden`. -/
def forbidden : ThreadProgram Header Unit :=
  tryCatch (ThreadProgram.refusal forbiddenText c.io) fun e => do
    sendBadRequest badRequest c.io
    throw e

/-- `Worker_t::handle`. -/
def handle : ThreadProgram Header Unit :=
  if c.socket.forbidden then c.forbidden
  else do
    perform (.resetWork c.socket)
    let flow ← tryCatch c.serve fun e => do
      perform .releaseWork
      -- `throw e` for a standard exception, `throw` for any other.
      throw e.sliced
    match flow with
    | .next => perform .releaseWork
    | .returned => pure ()

end HttpConnection

/-- What FastRPC's `serve` does on a connection. -/
inductive FrpcStep
  | call (index : Nat)
  | send (data : Bytes)

/-- A connection to the FRPC handler, with all that happens on it: what FastRPC's `serve` does and
    how it ends. -/
structure FrpcConnection (Header : Type) where
  socket : SocketWork
  io : HttpIo Header
  /-- `FRPC::HTTPHeader_t()`. -/
  newHeader : Header
  steps : List FrpcStep
  outcome : Except Exn Unit

namespace FrpcConnection

open ThreadProgram

variable (c : FrpcConnection Header)

def performSteps : List FrpcStep → ThreadProgram Header Unit
  | [] => pure ()
  | .call index :: steps => do
    call index
    performSteps steps
  | .send data :: steps => do
    perform (.send data)
    performSteps steps

/-- FastRPC's `serve`. -/
def serve : ThreadProgram Header Unit := do
  performSteps c.steps
  ofExcept c.outcome

/-- `forbidden`. -/
def forbidden : ThreadProgram Header Unit :=
  tryCatch (ThreadProgram.refusal CppFrpcHandler.forbiddenText c.io) fun _ =>
    sendBadRequest CppFrpcHandler.badRequest c.io

/-- `Worker_t::handle`. -/
def handle : ThreadProgram Header Unit :=
  if c.socket.forbidden then c.forbidden
  else do
    perform (.resetHeadersIn (some c.newHeader))
    perform (.resetHeadersOut (some c.newHeader))
    perform (.resetWork c.socket)
    tryCatch c.serve fun e => do
      perform (.resetHeadersIn none)
      perform (.resetHeadersOut none)
      perform .releaseWork
      throw e
    perform (.resetHeadersIn none)
    perform (.resetHeadersOut none)
    perform .releaseWork

end FrpcConnection

/-- `Worker_t::run`, over the connections it takes from the queue. -/
def ThreadProgram.workerRun {Connection : Type} (socket : Connection → SocketWork)
    (handle : Connection → ThreadProgram Header Unit) :
    List Connection → ThreadProgram Header Unit
  | [] => pure ()
  | c :: connections => do
    perform (.enter (socket c))
    tryCatch (handle c) fun _ => pure ()
    perform .leave
    workerRun socket handle connections

/-! ## The handler that its threads share -/

/-- What a handler keeps for its threads, and where each of them is. -/
structure HandlerStorage (ι Header : Type) where
  work : ThreadSpecificPtr ι SocketWork
  headersIn : ThreadSpecificPtr ι Header
  headersOut : ThreadSpecificPtr ι Header
  serving : ι → Option SocketWork
  method : ι → Option Nat
  events : ι → List Event

namespace HandlerStorage

variable {ι : Type}

/-- Before a thread has set anything. -/
def initial : HandlerStorage ι Header where
  work := .null
  headersIn := .null
  headersOut := .null
  serving _ := none
  method _ := none
  events _ := []

/-- `getWork()`, called on thread `i`. -/
def getWork (h : HandlerStorage ι Header) (i : ι) : Option SocketWork := h.work.get i

/-- Thread `i`'s own part. -/
def view (i : ι) (h : HandlerStorage ι Header) : ThreadStorage Header where
  work := h.work.get i
  headersIn := h.headersIn.get i
  headersOut := h.headersOut.get i
  serving := h.serving i
  method := h.method i
  events := h.events i

variable [DecidableEq ι]

/-- Thread `i` does one operation. -/
def perform (i : ι) : ThreadOp Header → HandlerStorage ι Header → HandlerStorage ι Header
  | .enter socket, h => { h with serving := Function.update h.serving i (some socket) }
  | .resetWork socket, h => { h with work := h.work.reset i (some socket) }
  | .releaseWork, h => { h with work := h.work.release i }
  | .resetHeadersIn headers, h => { h with headersIn := h.headersIn.reset i headers }
  | .resetHeadersOut headers, h => { h with headersOut := h.headersOut.reset i headers }
  | .callMethod index, h =>
    { h with
      method := Function.update h.method i (some index)
      events := Function.update h.events i (h.events i ++ [.call index (h.getWork i)]) }
  | .endMethod, h => { h with method := Function.update h.method i none }
  | .send data, h => { h with events := Function.update h.events i (h.events i ++ [.send data]) }
  | .leave, h => { h with serving := Function.update h.serving i none }

/-- Each thread works on its own part. -/
theorem isLocal : IsLocal (perform : ι → ThreadOp Header → _) view ThreadOp.act where
  own i op h := by
    cases op <;> simp [perform, view, ThreadOp.act, getWork]
  other hne op h := by
    cases op <;>
      simp [perform, view, hne, ThreadSpecificPtr.get_reset_of_ne,
        ThreadSpecificPtr.get_release_of_ne]

end HandlerStorage

/-! ## Fidelity: the same handlers -/

/-- The worker of `HttpWorker` and `Forbidden`, after what a thread has done. -/
def workerState (done : List (ThreadOp Header)) : WorkerState :=
  ⟨(after ThreadOp.act .initial done).work, (after ThreadOp.act .initial done).events⟩

/-- How a program ends, and the worker it leaves. -/
def ThreadProgram.outcome {α : Type} (p : ThreadProgram Header α) (done : List (ThreadOp Header)) :
    Except Exn α × WorkerState :=
  ((Program.run p done).1, workerState (Program.run p done).2)

/-- **The same to the outside**: a program ends as the worker's step does, and leaves the worker
    it leaves. -/
def Computes (p : ThreadProgram Header Unit) (f : WorkerState → WorkerResult) : Prop :=
  ∀ done, p.outcome done = f (workerState done)

theorem workerState_append_singleton (done : List (ThreadOp Header)) (op : ThreadOp Header) :
    workerState (done ++ [op]) =
      ⟨(op.act (after ThreadOp.act .initial done)).work,
        (op.act (after ThreadOp.act .initial done)).events⟩ := by
  rw [workerState, after_append]
  rfl

theorem workerState_call (done : List (ThreadOp Header)) (index : Nat) :
    workerState (done ++ [ThreadOp.callMethod index] ++ [ThreadOp.endMethod]) =
      { workerState done with
        events := (workerState done).events ++ [.call index (workerState done).work] } := by
  rw [workerState_append_singleton, after_append]
  rfl

/-- The sends a worker has started are the sends its thread has done. -/
theorem countP_events {count : Event → Bool} (hsend : ∀ data, count (.send data) = true)
    (hcall : ∀ index work, count (.call index work) = false) (s : ThreadStorage Header)
    (ops : List (ThreadOp Header)) :
    (after ThreadOp.act s ops).events.countP count =
      s.events.countP count + ops.countP ThreadOp.isSend := by
  induction ops generalizing s with
  | nil => rfl
  | cons op ops ih =>
    show (after ThreadOp.act (op.act s) ops).events.countP count = _
    rw [ih, List.countP_cons]
    cases op with
    | send data =>
      simp only [ThreadOp.act, ThreadOp.isSend, List.countP_append, List.countP_singleton, hsend,
        if_true]
      omega
    | callMethod index =>
      simp only [ThreadOp.act, ThreadOp.isSend, List.countP_append, List.countP_singleton, hcall,
        Bool.false_eq_true, if_false, Nat.add_zero]
    | enter | resetWork | releaseWork | resetHeadersIn | resetHeadersOut | endMethod | leave => rfl

theorem countP_workerState {count : Event → Bool} (hsend : ∀ data, count (.send data) = true)
    (hcall : ∀ index work, count (.call index work) = false) (done : List (ThreadOp Header)) :
    (workerState done).events.countP count = done.countP ThreadOp.isSend :=
  (countP_events hsend hcall .initial done).trans (Nat.zero_add _)

namespace Computes

variable {p q : ThreadProgram Header Unit} {f g : WorkerState → WorkerResult}

theorem throw (e : Exn) :
    Computes (MonadExcept.throw e : ThreadProgram Header Unit) fun s => (.error e, s) :=
  fun _ => rfl

theorem bind (hp : Computes p f) (hq : Computes q g) :
    Computes (do p; q) fun s =>
      match f s with
      | (.ok (), s) => g s
      | (.error e, s) => (.error e, s) := by
  intro done
  dsimp only
  rw [← hp done]
  unfold ThreadProgram.outcome
  rw [run_bind]
  generalize Program.run p done = result
  obtain ⟨outcome, done'⟩ := result
  cases outcome with
  | ok value => exact hq done'
  | error e => rfl

theorem tryCatch (hp : Computes p f) {handler : Exn → ThreadProgram Header Unit}
    {h : Exn → WorkerState → WorkerResult} (hhandler : ∀ e, Computes (handler e) (h e)) :
    Computes (MonadExcept.tryCatch p handler) fun s =>
      match f s with
      | (.ok (), s) => (.ok (), s)
      | (.error e, s) => h e s := by
  intro done
  dsimp only
  rw [← hp done]
  unfold ThreadProgram.outcome
  rw [run_tryCatch]
  generalize Program.run p done = result
  obtain ⟨outcome, done'⟩ := result
  cases outcome with
  | ok value => rfl
  | error e => exact hhandler e done'

end Computes

namespace ThreadProgram

theorem sendData_computes (io : HttpIo Header) (data : Bytes) :
    Computes (sendData io data) (Worker.sendData io data) := by
  intro done
  rw [Worker.sendData, countP_workerState (by intro data; rfl) (by intro index work; rfl)]
  simp only [outcome, sendData, run_bind, run_history, run_perform, run_ofExcept,
    workerState_append_singleton, ThreadOp.act]
  rfl

theorem run_call (index : Nat) (done : List (ThreadOp Header)) :
    Program.run (call index) done =
      (.ok (), done ++ [ThreadOp.callMethod index] ++ [ThreadOp.endMethod]) := rfl

/-- A fixed reply, and what is thrown where it cannot be sent. -/
theorem sendBadRequest_computes (reply : Bytes) (io : HttpIo Header) :
    Computes (sendBadRequest reply io) fun s =>
      match Worker.sendData io reply s with
      | (.ok (), s) => (.ok (), s)
      | (.error e, s) =>
        match e.what? with
        | some what => (.error (.formatted [str "Can't send data: ", what]), s)
        | none => (.error e, s) := by
  refine (sendData_computes io reply).tryCatch fun e => ?_
  cases e.what? with
  | some what => exact Computes.throw _
  | none => exact Computes.throw e

theorem refusal_computes (text : Bytes) (io : HttpIo Header) :
    Computes (ThreadProgram.refusal text io) (ThreadServer.refusal text io) := by
  intro done
  rw [ThreadProgram.refusal, ThreadServer.refusal]
  cases hline : Worker.readRequestLine io with
  | error e => rfl
  | ok line =>
    obtain ⟨method, target, protocol⟩ := line
    cases hheader : io.readHeader with
    | error e => rfl
    | ok header => exact sendData_computes io (protocol ++ text) done

end ThreadProgram

namespace HttpConnection

open ThreadProgram

variable (c : HttpConnection Header Regex)

theorem badRequest_computes : Computes (sendBadRequest badRequest c.io)
    (Worker.sendBadRequest c.io) :=
  sendBadRequest_computes badRequest c.io

theorem forbidden_computes : Computes c.forbidden (Worker.forbidden c.io) := by
  have hrefusal := refusal_computes forbiddenText c.io
  exact hrefusal.tryCatch fun e => c.badRequest_computes.bind (Computes.throw e)

theorem sendResponse_computes (response : Response Header) :
    Computes (c.sendResponse response) (c.worker.sendResponse c.io response) := by
  have hhead := sendData_computes c.io (response.head c.worker.http)
  exact hhead.bind (sendData_computes c.io response.data)

/-- Where `regex_match` throws nothing, the loop finds what it finds. -/
theorem findMethod_eq (hthrows : ∀ pattern text, c.throws pattern text = none) (uri : Bytes)
    (index : Nat) (registry : List (Regex × Method Header)) :
    c.findMethod uri index registry = .ok (c.worker.findMethod uri index registry) := by
  induction registry generalizing index with
  | nil => rfl
  | cons entry registry ih =>
    obtain ⟨pattern, method⟩ := entry
    rw [findMethod, Worker.findMethod, hthrows]
    cases c.worker.regexMatch pattern (cStr uri) with
    | some groups => rfl
    | none => exact ih (index + 1)

/-- How the outer `try` block ends, in the terms of `Worker.serve`: it has given up the work before
    it returns. -/
inductive ServeEnds : Except Exn Flow × WorkerState → WorkerResult → Prop
  | next (s : WorkerState) : ServeEnds (.ok .next, s) (.ok (), s)
  | returned (s : WorkerState) : ServeEnds (.ok .returned, { s with work := none }) (.ok (), s)
  | threw (e : Exn) (s : WorkerState) : ServeEnds (.error e, s) (.error e, s)

/-- What is left once the reply is sent. -/
theorem serveEnds_of_computes {p : ThreadProgram Header Unit} {f : WorkerState → WorkerResult}
    (h : Computes p f) (done : List (ThreadOp Header)) :
    ServeEnds (outcome (do p; pure .next) done) (f (workerState done)) := by
  rw [← h done]
  unfold outcome
  rw [run_bind]
  generalize Program.run p done = result
  obtain ⟨outcome, done'⟩ := result
  cases outcome with
  | ok value => exact .next _
  | error e => exact .threw e _

theorem serve_ends (hthrows : ∀ pattern text, c.throws pattern text = none)
    (done : List (ThreadOp Header)) :
    ServeEnds (c.serve.outcome done) (c.worker.serve c.io (workerState done)) := by
  rw [HttpConnection.serve, Worker.serve]
  cases hread : c.worker.readRequest c.io with
  | error e =>
    dsimp only
    rw [← c.badRequest_computes done]
    unfold outcome
    rw [run_bind]
    generalize Program.run (sendBadRequest badRequest c.io) done = result
    obtain ⟨outcome, done'⟩ := result
    cases outcome with
    | ok value =>
      dsimp only
      rw [run_bind, run_perform]
      dsimp only
      rw [run_pure, workerState_append_singleton]
      exact .returned (workerState done')
    | error e => exact .threw e _
  | ok request =>
    dsimp only
    rw [c.findMethod_eq hthrows]
    cases hfind : c.worker.findMethod request.uri 0 c.worker.registry with
    | none => exact serveEnds_of_computes (c.sendResponse_computes _) done
    | some found =>
      obtain ⟨index, method, groups⟩ := found
      dsimp only
      rw [← workerState_call]
      exact serveEnds_of_computes (c.sendResponse_computes _) _

/-- **The HTTP handler is the one of `HttpWorker`**, where `regex_match` throws nothing. -/
theorem handle_computes (hthrows : ∀ pattern text, c.throws pattern text = none) :
    Computes c.handle (c.worker.handle c.io c.socket) := by
  intro done
  rw [HttpConnection.handle, Worker.handle]
  by_cases hforbidden : c.socket.forbidden = true
  · rw [if_pos hforbidden, if_pos hforbidden]
    exact c.forbidden_computes done
  · rw [if_neg hforbidden, if_neg hforbidden]
    have hstart : workerState (done ++ [ThreadOp.resetWork c.socket]) =
        { workerState done with work := some c.socket } :=
      workerState_append_singleton done _
    have hserve := c.serve_ends hthrows (done ++ [ThreadOp.resetWork c.socket])
    rw [hstart] at hserve
    unfold outcome at hserve ⊢
    rw [run_bind, run_perform]
    dsimp only
    rw [run_bind, run_tryCatch]
    generalize Program.run c.serve (done ++ [ThreadOp.resetWork c.socket]) = result at hserve ⊢
    generalize c.worker.serve c.io _ = result' at hserve ⊢
    obtain ⟨outcome, done'⟩ := result
    generalize hstate : workerState (outcome, done').2 = s' at hserve
    dsimp only at hserve hstate ⊢
    -- What is still done behind the block leaves a worker without work, in all three cases.
    cases hserve with
    | next s =>
      dsimp only
      rw [run_perform, workerState_append_singleton, ← hstate]
      rfl
    | returned s =>
      dsimp only
      rw [run_pure, hstate]
    | threw e s =>
      dsimp only
      rw [run_bind, run_perform]
      dsimp only
      rw [run_throw, workerState_append_singleton, ← hstate]
      rfl

end HttpConnection

namespace FrpcConnection

open ThreadProgram

variable (c : FrpcConnection Header)

theorem forbidden_computes : Computes c.forbidden (CppFrpcHandler.forbidden c.io) := by
  have hrefusal := refusal_computes CppFrpcHandler.forbiddenText c.io
  exact hrefusal.tryCatch fun _ => sendBadRequest_computes CppFrpcHandler.badRequest c.io

/-- A step of FastRPC's `serve`, to the outside. -/
def event (work : Option SocketWork) : FrpcStep → Event
  | .call index => .call index work
  | .send data => .send data

/-- FastRPC's `serve` on this connection, as a step of the worker. -/
def serveStep (s : WorkerState) : WorkerResult :=
  (c.outcome, { s with events := s.events ++ c.steps.map (event s.work) })

theorem run_performSteps (steps : List FrpcStep) (done : List (ThreadOp Header)) :
    ∃ done', Program.run (performSteps steps) done = (.ok (), done') ∧ workerState done' =
      { workerState done with
        events := (workerState done).events ++ steps.map (event (workerState done).work) } := by
  induction steps generalizing done with
  | nil =>
    refine ⟨done, rfl, ?_⟩
    rw [List.map_nil, List.append_nil]
  | cons first steps ih =>
    cases first with
    | call index =>
      obtain ⟨done', hrun, hstate⟩ :=
        ih (done ++ [ThreadOp.callMethod index] ++ [ThreadOp.endMethod])
      rw [performSteps, run_bind, run_call]
      dsimp only
      refine ⟨done', hrun, ?_⟩
      rw [hstate, workerState_call, List.append_assoc]
      rfl
    | send data =>
      obtain ⟨done', hrun, hstate⟩ := ih (done ++ [ThreadOp.send data])
      rw [performSteps, run_bind, run_perform]
      dsimp only
      refine ⟨done', hrun, ?_⟩
      rw [hstate, workerState_append_singleton]
      show WorkerState.mk _ (((workerState done).events ++ [.send data]) ++ _) = _
      rw [List.append_assoc]
      rfl

theorem serve_computes : Computes c.serve c.serveStep := by
  intro done
  obtain ⟨done', hrun, hstate⟩ := run_performSteps c.steps done
  unfold ThreadProgram.outcome
  rw [FrpcConnection.serve, run_bind, hrun]
  dsimp only
  rw [run_ofExcept, hstate]
  rfl

/-- **The FRPC handler is the one of `Forbidden`**, around this `serve`. -/
theorem handle_computes : Computes c.handle (CppFrpcHandler.handle c.serveStep c.io c.socket) := by
  intro done
  rw [FrpcConnection.handle, CppFrpcHandler.handle]
  by_cases hforbidden : c.socket.forbidden = true
  · rw [if_pos hforbidden, if_pos hforbidden]
    exact c.forbidden_computes done
  · rw [if_neg hforbidden, if_neg hforbidden]
    have hstart : workerState (done ++ [ThreadOp.resetHeadersIn (some c.newHeader)] ++
          [ThreadOp.resetHeadersOut (some c.newHeader)] ++ [ThreadOp.resetWork c.socket]) =
        { workerState done with work := some c.socket } := by
      rw [workerState_append_singleton, after_append, after_append]
      rfl
    have hend : ∀ done' : List (ThreadOp Header),
        workerState (done' ++ [ThreadOp.resetHeadersIn none] ++ [ThreadOp.resetHeadersOut none] ++
          [ThreadOp.releaseWork]) = { workerState done' with work := none } := by
      intro done'
      rw [workerState_append_singleton, after_append, after_append]
      rfl
    rw [← hstart, ← c.serve_computes]
    unfold ThreadProgram.outcome
    simp only [run_bind, run_perform, run_tryCatch]
    generalize Program.run c.serve _ = result
    obtain ⟨outcome, done'⟩ := result
    cases outcome with
    | ok value => exact congrArg (Prod.mk _) (hend done')
    | error e => exact congrArg (Prod.mk _) (hend done')

end FrpcConnection

end ThreadServer
