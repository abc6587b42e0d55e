/-
  The whole server while it serves and stops: the accept threads, the operating system, the
  `io_service` thread, every handler's worker threads, and the main thread executing `stop()`.

  The parts are the `IoState` of the listeners and one `PoolState` for each handler; here they share
  their connections and their threads:

  * `handler->enqueue(socket)` in `accept` puts the connection into the queue of the handler the
    listener points to.  If that handler has been deleted, what the process does from there on is
    undefined, and nothing more is said about it (`undefined`);
  * `delete handler` in `stop()` is the handler's destructor: `destroyWorkers`, which calls
    `finish()` and joins the handler's threads, and only then is the handler gone;
  * the `handle` a worker calls is that of its handler's class (`HandlerWorker.handle`), with the
    connection it has taken from the queue and whatever the client and the thread bring along;
    its outcome is what the `catch` clauses around it see later.  The call may also never end
    (`handleEnds`); then the worker's thread stays in it.

  Any exception that leaves a thread's function ends the process, whichever thread it is
  (`terminated`).
  Every step of every thread is a label, and a run is any list of labels: any interleaving.
  `sessions` is a record kept for the specifications: the calls of `handle`, with what the client
  has got out of each (where the call never ends, with what it might get at most).
-/
import ThreadServer.Forbidden
import ThreadServer.IoService
import ThreadServer.WorkerPool

set_option linter.unusedSectionVars false

namespace ThreadServer

/-- `SocketWork_t` as the threads pass it on: the listener that accepted it, the socket, and the
    listener's decision. -/
structure Connection (Id : Type) where
  listener : Id
  socket : Socket
  forbidden : Bool
  deriving DecidableEq

/-- A server that is about to run.  `Client` is what a connection can bring a worker of the handler:
    everything its `handle` may meet. -/
structure Site (Id Handler Header Regex : Type) extends Setup Id Handler where
  workerCount : Handler → Nat
  code : Handler → HandlerCode
  Client : Handler → Type
  worker : (handler : Handler) → Client handler → HandlerWorker Header Regex
  /-- Does the call of `handle` end?  `DummyHandler_t` reads without a deadline, so a client that
      sends nothing keeps its worker for ever; and a module's method may do as it likes. -/
  handleEnds : (handler : Handler) → Client handler → Bool
  /-- Does what a module does when a worker is created or deleted end? -/
  codeEnds : (handler : Handler) → (code handler).Behaviour → Bool
  /-- Does the module's own destructor return?  It runs when `destroyWorkers` is done. -/
  moduleReturns : Handler → Bool
  /-- A module does something when it is called, and a client brings something. -/
  behaves : ∀ handler, Nonempty (code handler).Behaviour ∧ Nonempty (Client handler)

/-- One call of `handle`: the connection, its place in the order of the handler's queue, and what
    the worker did for it. -/
structure Session (Id Handler : Type) where
  handler : Handler
  ticket : Nat
  connection : Connection Id
  events : List Event

/-- What the statement at the head of `stop()` deletes. -/
def Instruction.deletes? {Id Handler : Type} : Instruction Id Handler → Option Handler
  | .deleteHandler handler => some handler
  | .cancel _ | .close _ | .joinAcceptor _ | .resetWork | .stopIoService | .joinIoService => none

variable {Id Handler Header Regex : Type}

/-- The state the threads share. -/
structure SiteState (site : Site Id Handler Header Regex) where
  io : IoState Id Handler
  pool : (handler : Handler) → PoolState (Connection Id) (site.workerCount handler)
  /-- `handler->work` of each worker's thread. -/
  work : (handler : Handler) → Fin (site.workerCount handler) → Option SocketWork
  /-- How the thread's last call of `handle` ends; `none` if it never does. -/
  outcome : (handler : Handler) → Fin (site.workerCount handler) → Option (Except Exn Unit)
  /-- A handler has been used after it was deleted. -/
  undefined : Bool
  sessions : List (Session Id Handler)

/-- Who does what. -/
inductive SiteLabel (site : Site Id Handler Header Regex)
  /-- The accept threads, the operating system, the io thread, and the main thread. -/
  | io (label : IoLabel Id)
  | createWorker (handler : Handler) (i : Fin (site.workerCount handler))
      (behaviour : (site.code handler).Behaviour)
  | dequeue (handler : Handler) (i : Fin (site.workerCount handler))
  | handle (handler : Handler) (i : Fin (site.workerCount handler)) (client : site.Client handler)
  | handled (handler : Handler) (i : Fin (site.workerCount handler))
  | deleteWorker (handler : Handler) (i : Fin (site.workerCount handler))
      (behaviour : (site.code handler).Behaviour)
  /-- The main thread, inside the handler's destructor. -/
  | destroyWorkers (handler : Handler)
  | join (handler : Handler)

namespace SiteState

variable [DecidableEq Id] [DecidableEq Handler] {site : Site Id Handler Header Regex}

/-! ## The program -/

/-- The state when `ThreadServer_t::run` has returned. -/
def start (site : Site Id Handler Header Regex) : SiteState site where
  io := .start site.toSetup
  pool handler := .start (Connection Id) (site.workerCount handler)
  work _ _ := none
  outcome _ _ := some (.ok ())
  undefined := false
  sessions := []

/-- An exception has ended the process. -/
def terminated (s : SiteState site) : Bool :=
  s.io.terminated || site.handlers.any fun handler => (s.pool handler).terminated

/-- The process is gone, or nothing can be said about it any more. -/
def dead (s : SiteState site) : Bool := s.terminated || s.undefined

theorem dead_eq_false {s : SiteState site} :
    s.dead = false ↔ s.terminated = false ∧ s.undefined = false := Bool.or_eq_false_iff

/-- The handler whose destructor the main thread is about to run, or running. -/
def deleting (s : SiteState site) : Option Handler := s.io.program.head?.bind Instruction.deletes?

/-- A thread of a handler goes on. -/
def setPool (s : SiteState site) (handler : Handler)
    (pool : PoolState (Connection Id) (site.workerCount handler)) : SiteState site :=
  { s with pool := Function.update s.pool handler pool }

@[simp] theorem setPool_pool_self (s : SiteState site) (handler : Handler)
    (pool : PoolState (Connection Id) (site.workerCount handler)) :
    (s.setPool handler pool).pool handler = pool := by
  show Function.update s.pool handler pool handler = pool
  rw [Function.update_self]

@[simp] theorem setPool_pool_of_ne (s : SiteState site) {handler other : Handler}
    (h : other ≠ handler) (pool : PoolState (Connection Id) (site.workerCount handler)) :
    (s.setPool handler pool).pool other = s.pool other := by
  show Function.update s.pool handler pool other = s.pool other
  rw [Function.update_of_ne h]

/-- What holds of every pool when the threads of one handler go on. -/
theorem forall_setPool {s : SiteState site} {handler : Handler}
    {pool : PoolState (Connection Id) (site.workerCount handler)}
    {P : (handler : Handler) → PoolState (Connection Id) (site.workerCount handler) → Prop}
    (hpool : P handler pool) (hothers : ∀ other, other ≠ handler → P other (s.pool other)) :
    ∀ other, P other ((s.setPool handler pool).pool other) := by
  intro other
  by_cases hne : other = handler
  · subst hne
    rw [setPool_pool_self]
    exact hpool
  · rw [setPool_pool_of_ne s hne]
    exact hothers other hne

/-- The threads of a handler that has not been deleted take a step. -/
def movePool (s : SiteState site) (handler : Handler)
    (label : PoolLabel (site.code handler).Behaviour (Connection Id) (site.workerCount handler)) :
    Option (SiteState site) :=
  if handler ∈ s.io.handlers then
    (PoolState.next (site.code handler) (s.pool handler) label).map (s.setPool handler)
  else none

/-- `handler->enqueue(socket)` in `accept`, as far as the handler is concerned. -/
def enqueue (s : SiteState site) (callback : Callback Id) : Option (SiteState site) :=
  match callback.stage with
  | .asyncAccept | .isForbidden => some s
  | .enqueue forbidden =>
    if site.handlerOf callback.listener ∈ s.io.handlers then
      s.movePool (site.handlerOf callback.listener)
        (.enqueue ⟨callback.listener, callback.socket, forbidden⟩)
    else some { s with undefined := true }

/-- A step of the threads the `IoState` knows. -/
def moveIo (s : SiteState site) (label : IoLabel Id) : Option (SiteState site) := do
  let io ← IoState.next site.toSetup s.io label
  match label with
  | .callback =>
    let callback ← s.io.current
    let s ← s.enqueue callback
    pure { s with io }
  | .main =>
    match s.deleting with
    | some handler =>
      -- The handler is gone when its destructor has returned, and its module's.
      if (s.pool handler).destroyer = .returned ∧ site.moduleReturns handler then pure { s with io }
      else none
    | none => pure { s with io }
  | .listen _ | .complete _ _ | .deliver _ => pure { s with io }

/-- The `handle` of the handler's class, on the connection the worker has taken. -/
def runHandle (s : SiteState site) (handler : Handler) (i : Fin (site.workerCount handler))
    (client : site.Client handler) (ticket : Nat) (connection : Connection Id) : SiteState site :=
  let (outcome, after) := (site.worker handler client).handle ⟨ticket, connection.forbidden⟩
    ⟨s.work handler i, []⟩
  { s with
    work := Function.update s.work handler (Function.update (s.work handler) i after.work)
    outcome := Function.update s.outcome handler (Function.update (s.outcome handler) i
      (if site.handleEnds handler client then some outcome else none))
    sessions := s.sessions ++ [⟨handler, ticket, connection, after.events⟩] }

/-- One step of one thread; `none` where the thread is not there, or waits. -/
def next (site : Site Id Handler Header Regex) (s : SiteState site) (label : SiteLabel site) :
    Option (SiteState site) :=
  if s.dead then none
  else match label with
    | .io label => s.moveIo label
    | .createWorker handler i behaviour =>
      if site.codeEnds handler behaviour then s.movePool handler (.createWorker i behaviour)
      else none
    | .dequeue handler i => s.movePool handler (.dequeue i)
    | .handle handler i client =>
      match (s.pool handler).worker i with
      | .dequeued ticket connection =>
        (s.movePool handler (.handle i)).map fun s => s.runHandle handler i client ticket connection
      | .starting | .waiting | .handling | .leaving | .ended => none
    | .handled handler i =>
      (s.outcome handler i).bind fun outcome => s.movePool handler (.handled i outcome)
    | .deleteWorker handler i behaviour =>
      if site.codeEnds handler behaviour then s.movePool handler (.deleteWorker i behaviour)
      else none
    | .destroyWorkers handler =>
      if s.deleting = some handler then s.movePool handler .destroyWorkers else none
    | .join handler => if s.deleting = some handler then s.movePool handler .join else none

/-! ## What a step can do -/

/-- The label is a step inside a pool: it brings no connection and passes none to `handle`, what
    ends is a call that does end, and the main thread is where its calls are. -/
def Inside (s : SiteState site) (handler : Handler) :
    PoolLabel (site.code handler).Behaviour (Connection Id) (site.workerCount handler) → Prop
  | .enqueue _ | .handle _ => False
  | .dequeue _ => True
  | .handled i outcome => s.outcome handler i = some outcome
  | .createWorker _ behaviour | .deleteWorker _ behaviour => site.codeEnds handler behaviour = true
  | .destroyWorkers | .join => s.deleting = some handler

/-- The steps of a server that is alive, each with its guard and its effect. -/
inductive Step (site : Site Id Handler Header Regex) (s : SiteState site) :
    SiteLabel site → SiteState site → Prop
  /-- No connection reaches a handler; a handler that is deleted has joined its threads. -/
  | io {label : IoLabel Id} {io : IoState Id Handler} :
      IoState.next site.toSetup s.io label = some io →
      (label = .callback → ∀ callback ∈ s.io.current, ∀ f, callback.stage ≠ .enqueue f) →
      (label = .main → ∀ handler, s.deleting = some handler →
        (s.pool handler).destroyer = .returned) →
      Step site s (.io label) { s with io }
  | enqueue {callback : Callback Id} {forbidden : Bool} {io : IoState Id Handler}
      {pool : PoolState (Connection Id) (site.workerCount (site.handlerOf callback.listener))} :
      IoState.next site.toSetup s.io .callback = some io →
      s.io.current = some callback → callback.stage = .enqueue forbidden →
      site.handlerOf callback.listener ∈ s.io.handlers →
      PoolState.next (site.code (site.handlerOf callback.listener))
        (s.pool (site.handlerOf callback.listener))
        (.enqueue ⟨callback.listener, callback.socket, forbidden⟩) = some pool →
      Step site s (.io .callback) { s.setPool (site.handlerOf callback.listener) pool with io }
  | lost {callback : Callback Id} {forbidden : Bool} {io : IoState Id Handler} :
      IoState.next site.toSetup s.io .callback = some io →
      s.io.current = some callback → callback.stage = .enqueue forbidden →
      site.handlerOf callback.listener ∉ s.io.handlers →
      Step site s (.io .callback) { s with io, undefined := true }
  | inside {label : SiteLabel site} {handler : Handler}
      {poolLabel : PoolLabel (site.code handler).Behaviour (Connection Id)
        (site.workerCount handler)}
      {pool : PoolState (Connection Id) (site.workerCount handler)} :
      (∀ ioLabel, label ≠ .io ioLabel) → handler ∈ s.io.handlers → s.Inside handler poolLabel →
      PoolState.next (site.code handler) (s.pool handler) poolLabel = some pool →
      Step site s label (s.setPool handler pool)
  | handle {handler : Handler} {i : Fin (site.workerCount handler)} {client : site.Client handler}
      {ticket : Nat} {connection : Connection Id}
      {pool : PoolState (Connection Id) (site.workerCount handler)} :
      handler ∈ s.io.handlers → (s.pool handler).worker i = .dequeued ticket connection →
      PoolState.next (site.code handler) (s.pool handler) (.handle i) = some pool →
      Step site s (.handle handler i client)
        ((s.setPool handler pool).runHandle handler i client ticket connection)

theorem movePool_eq_some {s s' : SiteState site} {handler : Handler}
    {label : PoolLabel (site.code handler).Behaviour (Connection Id) (site.workerCount handler)} :
    s.movePool handler label = some s' ↔ handler ∈ s.io.handlers ∧
      ∃ pool, PoolState.next (site.code handler) (s.pool handler) label = some pool ∧
        s.setPool handler pool = s' := by
  unfold movePool
  by_cases h : handler ∈ s.io.handlers
  · rw [if_pos h, Option.map_eq_some_iff]
    exact (and_iff_right h).symm
  · rw [if_neg h]
    constructor
    · intro hnone
      cases hnone
    · rintro ⟨hmem, -⟩
      exact absurd hmem h

/-- The threads the `IoState` knows. -/
theorem step_of_moveIo {s s' : SiteState site} {label : IoLabel Id}
    (h : s.moveIo label = some s') : Step site s (.io label) s' := by
  obtain ⟨io, hio, h⟩ := Option.bind_eq_some_iff.mp h
  cases label with
  | listen id | complete id completion | deliver position =>
    obtain rfl := Option.some.inj h
    exact .io hio nofun nofun
  | callback =>
    obtain ⟨callback, hcurrent, h⟩ := Option.bind_eq_some_iff.mp h
    obtain ⟨t, ht, h⟩ := Option.bind_eq_some_iff.mp h
    obtain rfl := Option.some.inj h
    cases hstage : callback.stage with
    | asyncAccept | isForbidden =>
      simp only [SiteState.enqueue, hstage] at ht
      obtain rfl := Option.some.inj ht
      refine .io hio (fun _ callback' hcallback' => ?_) nofun
      obtain rfl := Option.some.inj (hcurrent.symm.trans hcallback')
      rw [hstage]
      exact nofun
    | enqueue forbidden =>
      simp only [SiteState.enqueue, hstage] at ht
      by_cases hmem : site.handlerOf callback.listener ∈ s.io.handlers
      · rw [if_pos hmem] at ht
        obtain ⟨-, pool, hpool, rfl⟩ := movePool_eq_some.mp ht
        exact .enqueue hio hcurrent hstage hmem hpool
      · rw [if_neg hmem] at ht
        obtain rfl := Option.some.inj ht
        exact .lost hio hcurrent hstage hmem
  | main =>
    dsimp only at h
    split at h
    · rename_i handler hdeleting
      split at h
      · rename_i hreturned
        obtain rfl := Option.some.inj h
        refine .io hio nofun fun _ handler' hhandler' => ?_
        obtain rfl := Option.some.inj (hdeleting.symm.trans hhandler')
        exact hreturned.1
      · cases h
    · rename_i hdeleting
      obtain rfl := Option.some.inj h
      refine .io hio nofun fun _ handler' hhandler' => ?_
      cases hdeleting.symm.trans hhandler'

/-- **Inversion.**  A server that takes a step is alive, and the step is one of the kinds above. -/
theorem next_eq_some {s s' : SiteState site} {label : SiteLabel site}
    (h : next site s label = some s') : s.dead = false ∧ Step site s label s' := by
  unfold next at h
  split at h
  · cases h
  · rename_i hdead
    refine ⟨Bool.eq_false_iff.mpr hdead, ?_⟩
    cases label with
    | io label => exact step_of_moveIo h
    | dequeue handler i =>
      obtain ⟨hmem, pool, hpool, rfl⟩ := movePool_eq_some.mp h
      refine .inside (fun _ heq => by cases heq) hmem ?_ hpool
      trivial
    | createWorker handler i behaviour | deleteWorker handler i behaviour =>
      dsimp only at h
      split at h
      · rename_i hends
        obtain ⟨hmem, pool, hpool, rfl⟩ := movePool_eq_some.mp h
        refine .inside (fun _ heq => by cases heq) hmem ?_ hpool
        exact hends
      · cases h
    | handled handler i =>
      obtain ⟨outcome, houtcome, h⟩ := Option.bind_eq_some_iff.mp h
      obtain ⟨hmem, pool, hpool, rfl⟩ := movePool_eq_some.mp h
      refine .inside (fun _ heq => by cases heq) hmem ?_ hpool
      exact houtcome
    | handle handler i client =>
      dsimp only at h
      split at h
      · rename_i ticket connection hworker
        obtain ⟨t, ht, rfl⟩ := Option.map_eq_some_iff.mp h
        obtain ⟨hmem, pool, hpool, rfl⟩ := movePool_eq_some.mp ht
        exact .handle hmem hworker hpool
      all_goals cases h
    | destroyWorkers handler | join handler =>
      dsimp only at h
      split at h
      · rename_i hdeleting
        obtain ⟨hmem, pool, hpool, rfl⟩ := movePool_eq_some.mp h
        refine .inside (fun _ heq => by cases heq) hmem ?_ hpool
        exact hdeleting
      · cases h

end SiteState

end ThreadServer
