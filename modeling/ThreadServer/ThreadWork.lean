/-
  The work pointer is never left dangling: what `getWork()` returns during a method, and what a
  worker finds when its next connection begins.

  `handle` sets and releases the pointers by hand, around code that returns early, sends replies
  from `catch` blocks and throws again; one path that misses a release would show a connection to
  the request after it.

  1. **Specification** (`Sound`) — during a method `getWork()` is the connection being served, and
     outside `handle` all three pointers are null.
  2. **Each program** — what it does to the pointers, by the rules of `ThreadLocal`: a part that
     sets nothing keeps them (`KeepsAt`), and both `handle`s leave them null, however they are left
     (`keeps_handle`).
  3. **Result** (`work_throughout`) — so it is for every worker at every moment, however the
     workers of a handler are interleaved, and no step of a worker moves another one's pointer.
-/
import ThreadServer.HandlerThread

namespace ThreadServer

open Bytes ThreadLocal ThreadLocal.Program

variable {Header Regex : Type}

/-! ## The specification -/

/-- **What a thread may rely on**: in a method, `work` is the connection being served; outside
    `handle`, all pointers are null. -/
def ThreadStorage.Sound (s : ThreadStorage Header) : Prop :=
  (s.method ≠ none → ∃ socket, s.serving = some socket ∧ s.work = some socket) ∧
  (s.serving = none → s.work = none ∧ s.headersIn = none ∧ s.headersOut = none)

/-- The same, of thread `i` of a handler. -/
def HandlerStorage.Sound {ι : Type} (h : HandlerStorage ι Header) (i : ι) : Prop :=
  (h.method i ≠ none → ∃ socket, h.serving i = some socket ∧ h.getWork i = some socket) ∧
  (h.serving i = none →
    h.getWork i = none ∧ h.headersIn.get i = none ∧ h.headersOut.get i = none)

/-- The workers of a handler, before their first connections.  What a connection's reads, sends and
    methods do is part of the connection, so a worker's operations do not depend on the others. -/
def workers {ι Connection : Type} (socket : Connection → SocketWork)
    (handle : Connection → ThreadProgram Header Unit) (connections : ι → List Connection) :
    System ι (ThreadOp Header) (HandlerStorage ι Header) where
  shared := .initial
  rest i := (Program.run (ThreadProgram.workerRun socket handle (connections i)) []).2

/-! ## What each program does to the pointers -/

/-- All but the events. -/
def ThreadStorage.pointers (s : ThreadStorage Header) : ThreadStorage Header :=
  { s with events := [] }

/-- The thread has these pointers, whatever it has done. -/
def At (p s : ThreadStorage Header) : Prop := s.pointers = p

/-- In `handle`, with null pointers. -/
def clear (socket : SocketWork) : ThreadStorage Header :=
  { ThreadStorage.initial with serving := some socket }

/-- In `handle`, with the work set. -/
def busy (socket : SocketWork) : ThreadStorage Header :=
  { clear socket with work := some socket }

/-- The program keeps these pointers, whether it returns or throws. -/
abbrev KeepsAt {α : Type} (p : ThreadStorage Header) (program : ThreadProgram Header α) : Prop :=
  Keeps ThreadOp.act ThreadStorage.Sound (At p) program

theorem At.sound {p s : ThreadStorage Header} (h : At p s) (hp : p.Sound) : s.Sound := by
  subst h
  exact hp

theorem At.act {p s : ThreadStorage Header} (h : At p s) (op : ThreadOp Header) :
    At (op.act p).pointers (op.act s) := by
  subst h
  cases op <;> rfl

/-- In `handle` and outside a method, any pointers are sound. -/
theorem sound_of_serving {s : ThreadStorage Header} {socket : SocketWork}
    (hmethod : s.method = none) (hserving : s.serving = some socket) : s.Sound := by
  constructor
  · intro h
    exact absurd hmethod h
  · intro h
    rw [hserving] at h
    cases h

theorem sound_initial : (ThreadStorage.initial : ThreadStorage Header).Sound :=
  ⟨fun h => absurd rfl h, fun _ => ⟨rfl, rfl, rfl⟩⟩

theorem sound_clear (socket : SocketWork) : (clear socket : ThreadStorage Header).Sound :=
  sound_of_serving rfl rfl

theorem sound_busy (socket : SocketWork) : (busy socket : ThreadStorage Header).Sound :=
  sound_of_serving rfl rfl

/-- **An operation** takes the pointers where it says, if they are sound there. -/
theorem perform_at {op : ThreadOp Header} {p q : ThreadStorage Header}
    {thrown : Exn → ThreadStorage Header → Prop} (hq : (op.act p).pointers = q) (hsound : q.Sound) :
    Triple ThreadOp.act ThreadStorage.Sound (At p) (perform op) (fun _ => At q) thrown := by
  subst hq
  refine Triple.perform (fun s _ hs => ?_) (fun s hs => hs.act op)
  exact (hs.act op).sound hsound

section

variable {p : ThreadStorage Header} (hp : p.pointers = p) (hsound : p.Sound)

include hp hsound

theorem keeps_sendData (io : HttpIo Header) (data : Bytes) :
    KeepsAt p (ThreadProgram.sendData io data) := by
  unfold ThreadProgram.sendData
  refine Triple.bind Triple.history fun done => ?_
  refine Triple.bind (perform_at hp hsound) fun _ => ?_
  exact Triple.ofExcept (fun _ _ h => h) (fun _ _ h => h)

theorem keeps_sendBadRequest (reply : Bytes) (io : HttpIo Header) :
    KeepsAt p (ThreadProgram.sendBadRequest reply io) := by
  refine Triple.tryCatch (keeps_sendData hp hsound io reply) fun e => ?_
  cases e.what? with
  | some what => exact Triple.throw fun _ h => h
  | none => exact Triple.throw fun _ h => h

theorem keeps_refusal (text : Bytes) (io : HttpIo Header) :
    KeepsAt p (ThreadProgram.refusal text io) := by
  unfold ThreadProgram.refusal
  cases Worker.readRequestLine io with
  | error e => exact Triple.throw fun _ h => h
  | ok line =>
    obtain ⟨method, target, protocol⟩ := line
    cases io.readHeader with
    | error e => exact Triple.throw fun _ h => h
    | ok header => exact keeps_sendData hp hsound io _

end

/-- A method runs with `work` set to its connection. -/
theorem keeps_call {p : ThreadStorage Header} {socket : SocketWork} (hp : p.pointers = p)
    (hmethod : p.method = none) (hserving : p.serving = some socket)
    (hwork : p.work = some socket) (index : Nat) :
    KeepsAt p (ThreadProgram.call index) := by
  have hinside : ThreadStorage.Sound { p with method := some index, events := [] } := by
    constructor
    · intro _
      exact ⟨socket, hserving, hwork⟩
    · intro h
      rw [hserving] at h
      cases h
  refine Triple.bind (perform_at rfl hinside) fun _ => ?_
  refine perform_at ?_ (sound_of_serving hmethod hserving)
  show { p.pointers with method := none } = p
  rw [hp, ← hmethod]

namespace HttpConnection

variable (c : HttpConnection Header Regex)

theorem keeps_sendResponse (response : Response Header) :
    KeepsAt (busy c.socket) (c.sendResponse response) := by
  refine Triple.bind (keeps_sendData rfl (sound_busy _) _ _) fun _ => ?_
  exact keeps_sendData rfl (sound_busy _) _ _

/-- The pointers when the outer `try` block has ended without an exception. -/
def afterServe : Flow → ThreadStorage Header
  | .next => busy c.socket
  | .returned => clear c.socket

/-- The outer `try` block either still has the work when it ends, or has given it up and
    returned. -/
theorem triple_serve :
    Triple ThreadOp.act ThreadStorage.Sound (At (busy c.socket)) c.serve
      (fun flow => At (c.afterServe flow)) (fun _ => At (busy c.socket)) := by
  unfold HttpConnection.serve
  cases c.worker.readRequest c.io with
  | error e =>
    -- The early return.
    refine Triple.bind (keeps_sendBadRequest rfl (sound_busy _) _ _) fun _ => ?_
    refine Triple.bind (perform_at rfl (sound_clear _)) fun _ => ?_
    exact Triple.pure fun _ h => h
  | ok request =>
    have hfind : KeepsAt (busy c.socket : ThreadStorage Header)
        (ofExcept (c.findMethod request.uri 0 c.worker.registry)) :=
      Triple.ofExcept (fun _ _ h => h) (fun _ _ h => h)
    refine Triple.bind hfind fun found => ?_
    cases found with
    | none =>
      refine Triple.bind (c.keeps_sendResponse _) fun _ => ?_
      exact Triple.pure fun _ h => h
    | some found =>
      obtain ⟨index, method, groups⟩ := found
      refine Triple.bind (keeps_call rfl rfl rfl rfl index) fun _ => ?_
      refine Triple.bind (c.keeps_sendResponse _) fun _ => ?_
      exact Triple.pure fun _ h => h

theorem keeps_forbidden :
    KeepsAt (clear c.socket) c.forbidden := by
  refine Triple.tryCatch (keeps_refusal rfl (sound_clear _) _ _) fun e => ?_
  refine Triple.bind (keeps_sendBadRequest rfl (sound_clear _) _ _) fun _ => ?_
  exact Triple.throw fun _ h => h

/-- **The HTTP handler** leaves null pointers, however it is left. -/
theorem keeps_handle :
    KeepsAt (clear c.socket) c.handle := by
  unfold HttpConnection.handle
  by_cases hforbidden : c.socket.forbidden = true
  · rw [if_pos hforbidden]
    exact c.keeps_forbidden
  · rw [if_neg hforbidden]
    refine Triple.bind (perform_at rfl (sound_busy c.socket)) fun _ => ?_
    refine Triple.bind (Triple.tryCatch c.triple_serve fun e => ?_) fun flow => ?_
    · -- An exception, from wherever in the block, finds the work still set.
      refine Triple.bind (perform_at rfl (sound_of_serving rfl rfl)) fun _ => ?_
      exact Triple.throw fun _ h => h
    · cases flow with
      | next => exact perform_at rfl (sound_of_serving rfl rfl)
      | returned => exact Triple.pure fun _ h => h

end HttpConnection

namespace FrpcConnection

variable (c : FrpcConnection Header)

/-- In `handle` of the FRPC handler, with the work and both headers set. -/
def busyFrpc : ThreadStorage Header :=
  { (busy c.socket : ThreadStorage Header) with
    headersIn := some c.newHeader
    headersOut := some c.newHeader }

theorem sound_busyFrpc : c.busyFrpc.Sound :=
  sound_of_serving rfl rfl

theorem keeps_performSteps (steps : List FrpcStep) :
    KeepsAt c.busyFrpc (performSteps steps) := by
  induction steps with
  | nil => exact Triple.pure fun _ h => h
  | cons first steps ih =>
    cases first with
    | call index => exact Triple.bind (keeps_call rfl rfl rfl rfl index) fun _ => ih
    | send data => exact Triple.bind (perform_at rfl c.sound_busyFrpc) fun _ => ih

theorem keeps_serve : KeepsAt c.busyFrpc c.serve := by
  refine Triple.bind (c.keeps_performSteps c.steps) fun _ => ?_
  exact Triple.ofExcept (fun _ _ h => h) (fun _ _ h => h)

theorem keeps_forbidden :
    KeepsAt (clear c.socket) c.forbidden := by
  refine Triple.tryCatch (keeps_refusal rfl (sound_clear _) _ _) fun _ => ?_
  exact keeps_sendBadRequest rfl (sound_clear _) _ _

/-- **The FRPC handler** leaves null pointers, however it is left. -/
theorem keeps_handle :
    KeepsAt (clear c.socket) c.handle := by
  unfold FrpcConnection.handle
  by_cases hforbidden : c.socket.forbidden = true
  · rw [if_pos hforbidden]
    exact c.keeps_forbidden
  · rw [if_neg hforbidden]
    refine Triple.bind (perform_at rfl (sound_of_serving rfl rfl)) fun _ => ?_
    refine Triple.bind (perform_at rfl (sound_of_serving rfl rfl)) fun _ => ?_
    refine Triple.bind (perform_at rfl c.sound_busyFrpc) fun _ => ?_
    refine Triple.bind (Triple.tryCatch c.keeps_serve fun e => ?_) fun _ => ?_
    · refine Triple.bind (perform_at rfl (sound_of_serving rfl rfl)) fun _ => ?_
      refine Triple.bind (perform_at rfl (sound_of_serving rfl rfl)) fun _ => ?_
      refine Triple.bind (perform_at rfl (sound_of_serving rfl rfl)) fun _ => ?_
      exact Triple.throw fun _ h => h
    · refine Triple.bind (perform_at rfl (sound_of_serving rfl rfl)) fun _ => ?_
      refine Triple.bind (perform_at rfl (sound_of_serving rfl rfl)) fun _ => ?_
      exact perform_at rfl (sound_of_serving rfl rfl)

end FrpcConnection

/-! ## Every worker, at every moment -/

section

variable {Connection : Type} {socket : Connection → SocketWork}
  {handle : Connection → ThreadProgram Header Unit}
  (hhandle : ∀ c, KeepsAt (clear (socket c)) (handle c))

include hhandle

/-- **Connection after connection**: what `handle` throws ends in `Worker_t::run`. -/
theorem keeps_workerRun (connections : List Connection) :
    KeepsAt .initial
      (ThreadProgram.workerRun socket handle connections) := by
  induction connections with
  | nil => exact Triple.pure fun _ h => h
  | cons c connections ih =>
    refine Triple.bind (perform_at rfl (sound_of_serving rfl rfl)) fun _ => ?_
    refine Triple.bind (Triple.tryCatch (hhandle c) fun _ => ?_) fun _ => ?_
    · exact Triple.pure fun _ h => h
    · -- The connection is left here, with null pointers in either case.
      exact Triple.bind (perform_at rfl sound_initial) fun _ => ih

/-- **Any interleaving** of workers that handle connections in this way. -/
theorem workers_throughout {ι : Type} [DecidableEq ι] (connections : ι → List Connection)
    (schedule : List ι) :
    Transition.Throughout (step HandlerStorage.perform) (fun s => ∀ i, s.shared.Sound i)
      (workers socket handle connections) schedule := by
  have halone : ∀ i, AllAlong ThreadOp.act ThreadStorage.Sound .initial
      (Program.run (ThreadProgram.workerRun socket handle (connections i)) []).2 := by
    intro i
    obtain ⟨ops, hdone, hall, -⟩ :=
      keeps_workerRun hhandle (connections i) [] .initial sound_initial rfl
    rw [hdone, List.nil_append]
    exact hall
  have hsound : Transition.Throughout (step HandlerStorage.perform)
      (fun s => ∀ i, (HandlerStorage.view i s.shared).Sound)
      (workers socket handle connections) schedule :=
    throughout_of_allAlong HandlerStorage.isLocal halone schedule
  exact hsound

end

/-- **No dangling work.**  Whatever connections the workers of an HTTP handler or of an FRPC
    handler take from the queue, whatever happens on them, and however the workers are interleaved:
    during every method `getWork()` is the connection its worker is serving, and whenever a worker
    is outside `handle` its pointers are null.  And no step of a worker is seen in another worker's
    pointers. -/
theorem work_throughout {ι : Type} [DecidableEq ι] :
    (∀ (connections : ι → List (HttpConnection Header Regex)) (schedule : List ι),
      Transition.Throughout (step HandlerStorage.perform) (fun s => ∀ i, s.shared.Sound i)
        (workers HttpConnection.socket HttpConnection.handle connections) schedule) ∧
    (∀ (connections : ι → List (FrpcConnection Header)) (schedule : List ι),
      Transition.Throughout (step HandlerStorage.perform) (fun s => ∀ i, s.shared.Sound i)
        (workers FrpcConnection.socket FrpcConnection.handle connections) schedule) ∧
    ∀ (s s' : System ι (ThreadOp Header) (HandlerStorage ι Header)) (i j : ι),
      step HandlerStorage.perform s i = some s' → j ≠ i →
        s'.shared.getWork j = s.shared.getWork j ∧
        s'.shared.headersIn.get j = s.shared.headersIn.get j ∧
        s'.shared.headersOut.get j = s.shared.headersOut.get j := by
  refine ⟨?_, ?_, ?_⟩
  · exact workers_throughout fun c => c.keeps_handle
  · exact workers_throughout fun c => c.keeps_handle
  · intro s s' i j hstep hne
    have hview := HandlerStorage.isLocal.frame hstep hne
    have hwork := congrArg ThreadStorage.work hview
    have hin := congrArg ThreadStorage.headersIn hview
    have hout := congrArg ThreadStorage.headersOut hview
    exact ⟨hwork, hin, hout⟩

/-- A connection with a request for the one method of `redirectWorker`. -/
def redirectConnection : HttpConnection Unit Bytes where
  socket := ⟨7, false⟩
  io := Worker.redirectIo
  worker := Worker.redirectWorker
  throws _ _ := none

/-- Two workers with such a connection each: one is in the method, the other has just begun. -/
example :
    ((Transition.exec (step HandlerStorage.perform)
        (workers HttpConnection.socket HttpConnection.handle fun _ : Bool => [redirectConnection])
        [true, true, false, true]).map fun s =>
      (s.shared.method true, s.shared.getWork true, s.shared.getWork false)) =
    some (some 0, some ⟨7, false⟩, none) := by decide

end ThreadServer
