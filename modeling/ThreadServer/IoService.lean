/-
  The running server as the `io_service` thread and the main thread see it: listeners accepting
  connections (`Listener_t::run`, `listen`, `asyncAccept`, `accept` in `listener.cc`) while
  `ThreadServer_t::stop` may be shutting them down (`threadserver.cc`).

  Parties and what they share:

  * the accept thread that `Listener_t::run` starts for each listener, which makes one
    `asyncAccept` and ends (`listen`);
  * the operating system, which completes an outstanding `async_accept` (`complete`);
  * the single `io_service` thread, which takes a completion off the queue (`deliver`) and then
    executes `accept` statement by statement (`callback`);
  * the main thread executing `stop()` instruction by instruction (`main`).

  A run is any interleaving of these labels (`Transition.exec next`).  As Boost.Asio has it,
  `cancel` and `close` complete what is outstanding with `operation_canceled`, a completion that is
  already queued stays queued, and an `async_accept` on a closed acceptor completes with an error.
  Completions are taken off the queue in any order, so nothing below depends on the order Asio
  keeps.  An exception that leaves `accept` leaves `io_service::run` and with it the thread
  function, which ends the process (`terminated`).

  `accepted` and `enqueued` are records kept for the specifications: the successful completions
  delivered so far, and the calls of `Handler_t::enqueue` made so far.
-/
import ThreadServer.Listener
import ThreadServer.Lib.Transition

set_option linter.unusedSectionVars false

namespace ThreadServer

/-- `boost::system::posix_error::operation_canceled`. -/
def operationCanceled : ErrorCode := 125

/-- What `async_accept` on a closed acceptor completes with. -/
def badDescriptor : ErrorCode := 9

/-- What an accept completion says: a connection, or an error code. -/
inductive Completion
  | success (socket : Socket)
  | error (code : ErrorCode)
  deriving DecidableEq

/-- What the operating system can complete an `async_accept` with: a connection, or an error other
    than the cancellation, which only `cancel` and `close` cause. -/
def Completion.FromSystem : Completion → Prop
  | .success _ => True
  | .error code => code ≠ 0 ∧ code ≠ operationCanceled

instance : (completion : Completion) → Decidable completion.FromSystem
  | .success _ => inferInstanceAs (Decidable True)
  | .error code => inferInstanceAs (Decidable (code ≠ 0 ∧ code ≠ operationCanceled))

/-- The statement of `accept` (its success branch) that the `io_service` thread executes next. -/
inductive Stage
  | asyncAccept
  | isForbidden
  | enqueue (forbidden : Bool)
  deriving DecidableEq

/-- `accept` in progress for a successful completion. -/
structure Callback (Id : Type) where
  listener : Id
  socket : Socket
  stage : Stage
  deriving DecidableEq

/-- One call of `handler->enqueue(socket)`; `alive` says whether the handler still existed. -/
structure Enqueued (Id : Type) where
  listener : Id
  socket : Socket
  forbidden : Bool
  alive : Bool
  deriving DecidableEq

/-- One statement of `ThreadServer_t::stop` (with `Listener_t::stop` inlined). -/
inductive Instruction (Id Handler : Type)
  | cancel (listener : Id)
  | close (listener : Id)
  | joinAcceptor (listener : Id)
  | deleteHandler (handler : Handler)
  | resetWork
  | stopIoService
  | joinIoService

/-- The listeners and handlers of a server that is about to run: `listeners` is `listenerMap` and
    `handlers` is `handlerMap`, in their order, and every listener points to a handler. -/
structure Setup (Id Handler : Type) where
  listeners : List Id
  listeners_nodup : listeners.Nodup
  handlers : List Handler
  listener : Id → Listener Handler
  handlerOf : Id → Handler
  handler_eq : ∀ id ∈ listeners, (listener id).handler = some (handlerOf id)
  handlerOf_mem : ∀ id ∈ listeners, handlerOf id ∈ handlers

/-- The acceptor of one listener: whether it is open, how many `async_accept` operations are
    waiting for the operating system, and whether the accept thread has its call still ahead. -/
structure Acceptor where
  isOpen : Bool
  pending : Nat
  listening : Bool

/-- The state the threads share. -/
structure IoState (Id Handler : Type) where
  acceptor : Id → Acceptor
  handlers : List Handler
  queue : List (Id × Completion)
  current : Option (Callback Id)
  program : List (Instruction Id Handler)
  ioStopped : Bool
  terminated : Bool
  accepted : List (Id × Socket)
  errorLog : List (Id × ErrorCode)
  enqueued : List (Enqueued Id)

/-- Who does what. -/
inductive IoLabel (Id : Type)
  | listen (listener : Id)
  | complete (listener : Id) (completion : Completion)
  | deliver (position : Nat)
  | callback
  | main

namespace IoState

variable {Id Handler : Type} [DecidableEq Id]

/-! ## The program -/

/-- Change the acceptor of one listener. -/
def setAcceptor (s : IoState Id Handler) (id : Id) (acceptor : Acceptor) : IoState Id Handler :=
  { s with acceptor := Function.update s.acceptor id acceptor }

/-- `acceptor->async_accept(...)`. -/
def asyncAccept (s : IoState Id Handler) (id : Id) : IoState Id Handler :=
  if (s.acceptor id).isOpen then
    s.setAcceptor id { s.acceptor id with pending := (s.acceptor id).pending + 1 }
  else { s with queue := s.queue ++ [(id, .error badDescriptor)] }

@[simp] theorem asyncAccept_handlers (s : IoState Id Handler) (id : Id) :
    (s.asyncAccept id).handlers = s.handlers := by unfold asyncAccept; split <;> rfl
@[simp] theorem asyncAccept_current (s : IoState Id Handler) (id : Id) :
    (s.asyncAccept id).current = s.current := by unfold asyncAccept; split <;> rfl
@[simp] theorem asyncAccept_program (s : IoState Id Handler) (id : Id) :
    (s.asyncAccept id).program = s.program := by unfold asyncAccept; split <;> rfl
@[simp] theorem asyncAccept_terminated (s : IoState Id Handler) (id : Id) :
    (s.asyncAccept id).terminated = s.terminated := by unfold asyncAccept; split <;> rfl
@[simp] theorem asyncAccept_accepted (s : IoState Id Handler) (id : Id) :
    (s.asyncAccept id).accepted = s.accepted := by unfold asyncAccept; split <;> rfl
@[simp] theorem asyncAccept_ioStopped (s : IoState Id Handler) (id : Id) :
    (s.asyncAccept id).ioStopped = s.ioStopped := by unfold asyncAccept; split <;> rfl
@[simp] theorem asyncAccept_enqueued (s : IoState Id Handler) (id : Id) :
    (s.asyncAccept id).enqueued = s.enqueued := by unfold asyncAccept; split <;> rfl

/-- Starting an accept opens no acceptor and closes none. -/
@[simp] theorem asyncAccept_isOpen (s : IoState Id Handler) (id id' : Id) :
    ((s.asyncAccept id).acceptor id').isOpen = (s.acceptor id').isOpen := by
  unfold asyncAccept
  split
  · by_cases hid : id' = id
    · subst hid
      simp [setAcceptor]
    · simp [setAcceptor, hid]
  · rfl

/-- The only completion that starting an accept can queue at once is an error. -/
theorem mem_queue_asyncAccept {s : IoState Id Handler} {id : Id} {c : Id × Completion}
    (h : c ∈ (s.asyncAccept id).queue) : c ∈ s.queue ∨ c.2 = .error badDescriptor := by
  unfold asyncAccept at h
  split at h
  · exact Or.inl h
  · rcases List.mem_append.mp h with h | h
    · exact Or.inl h
    · rw [List.mem_singleton.mp h]
      exact Or.inr rfl

/-- What `cancel` leaves in the queue: every waiting operation, canceled. -/
def canceled (s : IoState Id Handler) (id : Id) : List (Id × Completion) :=
  List.replicate (s.acceptor id).pending (id, .error operationCanceled)

/-- The statements of `stop()`, in order. -/
def stopProgram (setup : Setup Id Handler) : List (Instruction Id Handler) :=
  setup.listeners.flatMap (fun id => [.cancel id, .close id, .joinAcceptor id])
    ++ setup.handlers.map .deleteHandler ++ [.resetWork, .stopIoService, .joinIoService]

/-- The state when `ThreadServer_t::run` has returned: every acceptor listens, no accept thread has
    made its call yet, `stop()` has not begun. -/
def start (setup : Setup Id Handler) : IoState Id Handler where
  acceptor id := { isOpen := id ∈ setup.listeners, pending := 0, listening := id ∈ setup.listeners }
  handlers := setup.handlers
  queue := []
  current := none
  program := stopProgram setup
  ioStopped := false
  terminated := false
  accepted := []
  errorLog := []
  enqueued := []

variable [DecidableEq Handler]

/-- The main thread executes one statement of `stop()`; a join waits for its thread. -/
def runInstruction (s : IoState Id Handler) : Instruction Id Handler → Option (IoState Id Handler)
  | .cancel id => some
      { s.setAcceptor id { s.acceptor id with pending := 0 } with
        queue := s.queue ++ s.canceled id }
  | .close id => some
      { s.setAcceptor id { s.acceptor id with isOpen := false, pending := 0 } with
        queue := s.queue ++ s.canceled id }
  | .joinAcceptor id => if (s.acceptor id).listening then none else some s
  | .deleteHandler handler => some { s with handlers := s.handlers.filter (· ≠ handler) }
  | .resetWork => some s
  | .stopIoService => some { s with ioStopped := true }
  | .joinIoService => if s.current.isSome then none else some s

/-- The `io_service` thread executes one statement of `accept`, for a successful completion. -/
def runCallback (setup : Setup Id Handler) (s : IoState Id Handler) (callback : Callback Id) :
    IoState Id Handler :=
  match callback.stage with
  | .asyncAccept =>
    { s.asyncAccept callback.listener with current := some { callback with stage := .isForbidden } }
  | .isForbidden =>
    match (setup.listener callback.listener).isForbidden callback.socket with
    | .ok forbidden => { s with current := some { callback with stage := .enqueue forbidden } }
    | .error _ => { s with current := none, terminated := true }
  | .enqueue forbidden =>
    { s with
      current := none
      enqueued := s.enqueued ++ [{
        listener := callback.listener
        socket := callback.socket
        forbidden
        alive := setup.handlerOf callback.listener ∈ s.handlers }] }

/-- The `io_service` thread calls `accept` with a completion it took off the queue.  An error is
    logged unless it is the cancellation; in either case `accept` is done with it. -/
def accept (s : IoState Id Handler) (id : Id) : Completion → IoState Id Handler
  | .success socket =>
    { s with
      current := some { listener := id, socket, stage := .asyncAccept }
      accepted := s.accepted ++ [(id, socket)] }
  | .error code =>
    if code ≠ operationCanceled then { s with errorLog := s.errorLog ++ [(id, code)] } else s

/-- One step of one of the parties; `none` if it cannot take it. -/
def next (setup : Setup Id Handler) (s : IoState Id Handler) (label : IoLabel Id) :
    Option (IoState Id Handler) :=
  if s.terminated then none
  else match label with
    | .listen id =>
      if (s.acceptor id).listening then
        some ((s.setAcceptor id { s.acceptor id with listening := false }).asyncAccept id)
      else none
    | .complete id completion =>
      if (s.acceptor id).isOpen ∧ 0 < (s.acceptor id).pending ∧ completion.FromSystem then
        some { s.setAcceptor id { s.acceptor id with pending := (s.acceptor id).pending - 1 } with
          queue := s.queue ++ [(id, completion)] }
      else none
    | .deliver position =>
      if s.ioStopped ∨ s.current.isSome then none
      else match s.queue[position]? with
        | none => none
        | some (id, completion) =>
          some ({ s with queue := s.queue.eraseIdx position }.accept id completion)
    | .callback => s.current.map (s.runCallback setup)
    | .main =>
      match s.program with
      | [] => none
      | instruction :: program => runInstruction { s with program } instruction

/-! ## What a step can do -/

variable {setup : Setup Id Handler}

/-- The steps of `next`, one constructor for each kind, with everything the step checked. -/
inductive Step (setup : Setup Id Handler) (s : IoState Id Handler) :
    IoLabel Id → IoState Id Handler → Prop
  | listen {id} : (s.acceptor id).listening = true →
      Step setup s (.listen id)
        ((s.setAcceptor id { s.acceptor id with listening := false }).asyncAccept id)
  | complete {id completion} : (s.acceptor id).isOpen = true → 0 < (s.acceptor id).pending →
      completion.FromSystem →
      Step setup s (.complete id completion)
        { s.setAcceptor id { s.acceptor id with pending := (s.acceptor id).pending - 1 } with
          queue := s.queue ++ [(id, completion)] }
  | deliver {position id completion} : s.ioStopped = false → s.current = none →
      s.queue[position]? = some (id, completion) →
      Step setup s (.deliver position)
        ({ s with queue := s.queue.eraseIdx position }.accept id completion)
  | callback {callback} : s.current = some callback →
      Step setup s .callback (s.runCallback setup callback)
  | main {instruction program s'} : s.program = instruction :: program →
      runInstruction { s with program } instruction = some s' → Step setup s .main s'

/-- No statement of `stop()` touches the program, the running callback or the records. -/
theorem runInstruction_frame {s s' : IoState Id Handler} {instruction : Instruction Id Handler}
    (h : runInstruction s instruction = some s') :
    s'.program = s.program ∧ s'.current = s.current ∧ s'.terminated = s.terminated ∧
      s'.accepted = s.accepted ∧ s'.enqueued = s.enqueued := by
  cases instruction with
  | joinAcceptor id | joinIoService =>
    simp only [runInstruction] at h
    split at h
    · cases h
    · obtain rfl := Option.some.inj h
      exact ⟨rfl, rfl, rfl, rfl, rfl⟩
  | cancel id | close id | deleteHandler handler | resetWork | stopIoService =>
    obtain rfl := Option.some.inj h
    exact ⟨rfl, rfl, rfl, rfl, rfl⟩

@[simp] theorem accept_program (s : IoState Id Handler) (id : Id) (completion : Completion) :
    (s.accept id completion).program = s.program := by
  cases completion with
  | success socket => rfl
  | error code =>
    simp only [accept]
    split <;> rfl

@[simp] theorem runCallback_program (s : IoState Id Handler) (callback : Callback Id) :
    (s.runCallback setup callback).program = s.program := by
  unfold runCallback
  cases callback.stage with
  | asyncAccept => exact asyncAccept_program s callback.listener
  | isForbidden => dsimp only; split <;> rfl
  | enqueue forbidden => rfl

/-- Only the main thread shortens the program of `stop()`, by the statement it executes. -/
theorem Step.program {s s' : IoState Id Handler} {label : IoLabel Id}
    (h : Step setup s label s') :
    (label ≠ .main ∧ s'.program = s.program) ∨
      ∃ instruction, s.program = instruction :: s'.program ∧
        runInstruction { s with program := s'.program } instruction = some s' := by
  cases h with
  | listen hlistening => exact Or.inl ⟨nofun, asyncAccept_program _ _⟩
  | complete hopen hpending hsystem => exact Or.inl ⟨nofun, rfl⟩
  | deliver hio hidle hqueue => exact Or.inl ⟨nofun, accept_program _ _ _⟩
  | callback hcurrent => exact Or.inl ⟨nofun, runCallback_program _ _⟩
  | @main instruction program _ hprogram hrun =>
    obtain rfl : s'.program = program := (runInstruction_frame hrun).1
    exact Or.inr ⟨instruction, hprogram, hrun⟩

/-- Only the main thread executes `stop()`. -/
theorem Step.frame {s s' : IoState Id Handler} {label : IoLabel Id} (h : Step setup s label s')
    (hmain : label ≠ .main) :
    s'.program = s.program ∧ s'.handlers = s.handlers ∧ s'.ioStopped = s.ioStopped := by
  cases h with
  | listen => simp [setAcceptor]
  | complete => exact ⟨rfl, rfl, rfl⟩
  | @deliver _ id completion =>
    cases completion with
    | success socket => exact ⟨rfl, rfl, rfl⟩
    | error code =>
      simp only [accept]
      split <;> exact ⟨rfl, rfl, rfl⟩
  | @callback callback =>
    unfold runCallback
    cases callback.stage with
    | asyncAccept => simp
    | isForbidden => dsimp only; split <;> exact ⟨rfl, rfl, rfl⟩
    | enqueue forbidden => exact ⟨rfl, rfl, rfl⟩
  | main => exact absurd rfl hmain

/-- **Inversion.**  A process that takes a step has not been terminated, and the step is one of
    the kinds above. -/
theorem next_eq_some {s s' : IoState Id Handler} {label : IoLabel Id}
    (h : next setup s label = some s') : s.terminated = false ∧ Step setup s label s' := by
  unfold next at h
  split at h
  · cases h
  · rename_i hterm
    refine ⟨Bool.eq_false_iff.mpr hterm, ?_⟩
    cases label with
    | listen id =>
      dsimp only at h
      split at h
      · obtain rfl := Option.some.inj h
        exact .listen ‹_›
      · cases h
    | complete id completion =>
      dsimp only at h
      split at h
      · rename_i hc
        obtain rfl := Option.some.inj h
        exact .complete hc.1 hc.2.1 hc.2.2
      · cases h
    | deliver position =>
      dsimp only at h
      split at h
      · cases h
      · rename_i hc
        rw [not_or, Bool.not_eq_true, Option.not_isSome_iff_eq_none] at hc
        split at h
        · cases h
        · rename_i id completion hq
          obtain rfl := Option.some.inj h
          exact .deliver hc.1 hc.2 hq
    | callback =>
      obtain ⟨callback, hc, rfl⟩ := Option.map_eq_some_iff.mp h
      exact .callback hc
    | main =>
      dsimp only at h
      split at h
      · cases h
      · exact .main ‹_› h

end IoState

/-! ## A server with one listener -/

/-- One listener that lets every IPv4 client through, and its handler. -/
def oneListener : Setup Unit Unit where
  listeners := [()]
  listeners_nodup := List.pairwise_singleton _ _
  handlers := [()]
  listener _ := {
    address := Bytes.str "*:8080", ip := [], port := 8080, handlerName := Bytes.str "http",
    allowFirst := true, allowedNetworks := [⟨0, 0⟩], deniedNetworks := [], handler := some () }
  handlerOf _ := ()
  handler_eq _ _ := rfl
  handlerOf_mem _ _ := List.mem_singleton.mpr rfl

end ThreadServer
