/-
  A handler's worker pool (`handler.cc`): any number of worker threads, one queue, and the thread
  that calls `destroyWorkers`.

  1. **Threads** — a worker's thread constructs its worker (`Handler_t::run`), then takes one
     connection after the other from the queue and passes it to `handle` (`Worker_t::run`), and
     destroys its worker when `dequeue` returns nothing.  `destroyWorkers` calls `finish()` on the
     queue and joins the threads in their order.  Every step of every thread is a label, and a run
     is any list of labels: any interleaving.
  2. **Exceptions** — what `handle` throws ends in one of three `catch` clauses.  The construction
     and the destruction of a worker are in no `try` block: what is thrown there leaves the thread's
     function and terminates the process.
  3. **Books** — each connection is known by its place in the order of the `enqueue` calls.  A step
     of the pool is a move of a `Ledger`, or none (`Step.ledger`), so the ledger's balance is the
     core of the invariant (`Accounted`).
  4. **Results** — nothing is lost and nothing handled twice (`every_connection_handled_once`), and
     the process survives exactly when no worker's construction or destruction throws
     (`not_terminated_iff`).

  The queue is `threading::queue`: first in, first out, each connection to one `dequeue`, which
  waits while the queue is empty and returns nothing only after `finish()`.
-/
import ThreadServer.Error
import ThreadServer.Lib.Ledger
import ThreadServer.Lib.Transition

namespace ThreadServer

open Bytes

/-- The code of a handler, as far as `Handler_t::run` calls it: it creates a worker and deletes it
    again, and what happens then depends on how the handler's module behaves on that thread. -/
structure HandlerCode where
  name : Bytes
  Behaviour : Type
  createWorker : Behaviour → Except Exn Unit
  deleteWorker : Behaviour → Except Exn Unit

/-- `DummyHandler_t`, which has no module: its workers are created and deleted without calling
    anything that throws. -/
def dummyCode (name : Bytes) : HandlerCode where
  name
  Behaviour := Unit
  createWorker _ := .ok ()
  deleteWorker _ := .ok ()

/-- A worker's thread. -/
inductive WorkerPhase (Socket : Type)
  /-- In `createWorker`. -/
  | starting
  /-- In `workQueue.dequeue()`. -/
  | waiting
  /-- It has taken the connection that was enqueued as the `ticket`-th. -/
  | dequeued (ticket : Nat) (socket : Socket)
  /-- In `handle`. -/
  | handling
  /-- `Worker_t::run` has returned. -/
  | leaving
  /-- `Handler_t::run` has returned. -/
  | ended
  deriving DecidableEq

/-- The thread that calls `destroyWorkers`. -/
inductive Destroyer
  | notCalled
  /-- In the loop, at the `index`-th thread. -/
  | joining (index : Nat)
  | returned
  deriving DecidableEq

/-- The two levels the workers log at. -/
inductive LogLevel
  | err2
  | err3
  deriving DecidableEq

/-- A call of `handle`, for the history. -/
structure HandleCall (Socket : Type) (n : Nat) where
  worker : Fin n
  ticket : Nat
  socket : Socket
  deriving DecidableEq

/-- A handler with `n` workers. -/
structure PoolState (Socket : Type) (n : Nat) where
  queue : List Socket
  /-- `workQueue.finish()` has been called. -/
  finished : Bool
  worker : Fin n → WorkerPhase Socket
  destroyer : Destroyer
  /-- An exception has left a thread's function. -/
  terminated : Bool
  log : List (LogLevel × Bytes)
  /-- History: the connections enqueued so far. -/
  enqueued : List Socket
  /-- History: how many of them have been taken from the queue. -/
  dequeued : Nat
  /-- History: the calls of `handle`. -/
  handled : List (HandleCall Socket n)
  /-- History: how many connections had been enqueued when `finish()` was called. -/
  cutoff : Option Nat

/-- One step of one thread. -/
inductive PoolLabel (Behaviour Socket : Type) (n : Nat)
  | enqueue (socket : Socket)
  | createWorker (i : Fin n) (behaviour : Behaviour)
  | dequeue (i : Fin n)
  | handle (i : Fin n)
  /-- `handle` returns or throws. -/
  | handled (i : Fin n) (outcome : Except Exn Unit)
  | deleteWorker (i : Fin n) (behaviour : Behaviour)
  /-- `destroyWorkers` is called: `workQueue.finish()`. -/
  | destroyWorkers
  /-- `destroyWorkers` goes on: it joins the next thread, or returns. -/
  | join

/-- The connection a worker has taken and not passed on yet, by its number. -/
def WorkerPhase.ticket? {Socket : Type} : WorkerPhase Socket → Option Nat
  | .dequeued ticket _ => some ticket
  | .starting | .waiting | .handling | .leaving | .ended => none

/-- `destroyWorkers` has joined the `index`-th thread. -/
def Destroyer.Joined (index : Nat) : Destroyer → Prop
  | .notCalled => False
  | .joining next => index < next
  | .returned => True

/-- `boost::system::posix_error::broken_pipe`. -/
def brokenPipe : ErrorCode := 32

/-- The `try` block around `handle`: whatever is thrown ends in one of the three clauses, which
    write a line to the log. -/
def catchHandle (name : Bytes) : Except Exn Unit → List (LogLevel × Bytes)
  | .ok () => []
  | .error e =>
    let handler := str "Handler " ++ cStr name
    match e, e.what? with
    | .systemError code what, _ =>
      if code = brokenPipe then [(.err2, handler ++ str ": Connection closed by foreign host")]
      else [(.err3, handler ++ str " thrown an exception: " ++ what)]
    | _, some what => [(.err3, handler ++ str " thrown an exception: " ++ what)]
    | _, none => [(.err3, handler ++ str " thrown an unknown exception")]

namespace PoolState

open Transition

variable {Socket : Type} {n : Nat}

/-- The pool after `createWorkers`: every thread is at the beginning of `Handler_t::run`. -/
def start (Socket : Type) (n : Nat) : PoolState Socket n where
  queue := []
  finished := false
  worker _ := .starting
  destroyer := .notCalled
  terminated := false
  log := []
  enqueued := []
  dequeued := 0
  handled := []
  cutoff := none

/-- A worker's thread goes on. -/
def setWorker (s : PoolState Socket n) (i : Fin n) (phase : WorkerPhase Socket) :
    PoolState Socket n :=
  { s with worker := Function.update s.worker i phase }

@[simp] theorem setWorker_self (s : PoolState Socket n) (i : Fin n) (phase : WorkerPhase Socket) :
    (s.setWorker i phase).worker i = phase := by
  show Function.update s.worker i phase i = phase
  rw [Function.update_self]

@[simp] theorem setWorker_of_ne (s : PoolState Socket n) {i j : Fin n} (h : j ≠ i)
    (phase : WorkerPhase Socket) : (s.setWorker i phase).worker j = s.worker j := by
  show Function.update s.worker i phase j = s.worker j
  rw [Function.update_of_ne h]

/-- The step of one thread; `none` where the thread is not there, or waits. -/
def next (code : HandlerCode) (s : PoolState Socket n) :
    PoolLabel code.Behaviour Socket n → Option (PoolState Socket n) := fun label =>
  if s.terminated then none else
  match label with
  | .enqueue socket =>
    some { s with queue := s.queue ++ [socket], enqueued := s.enqueued ++ [socket] }
  | .createWorker i behaviour =>
    match s.worker i, code.createWorker behaviour with
    | .starting, .ok () => some (s.setWorker i .waiting)
    -- No `try` block in `Handler_t::run`.
    | .starting, .error _ => some { s with terminated := true }
    | _, _ => none
  | .dequeue i =>
    match s.worker i, s.queue with
    | .waiting, socket :: queue =>
      some { s.setWorker i (.dequeued s.dequeued socket) with
        queue := queue, dequeued := s.dequeued + 1 }
    -- `dequeue` returns nothing, and the loop breaks; before `finish()` it waits.
    | .waiting, [] => if s.finished then some (s.setWorker i .leaving) else none
    | _, _ => none
  | .handle i =>
    match s.worker i with
    | .dequeued ticket socket =>
      some { s.setWorker i .handling with handled := s.handled ++ [⟨i, ticket, socket⟩] }
    | _ => none
  | .handled i outcome =>
    match s.worker i with
    | .handling =>
      some { s.setWorker i .waiting with log := s.log ++ catchHandle code.name outcome }
    | _ => none
  | .deleteWorker i behaviour =>
    match s.worker i, code.deleteWorker behaviour with
    | .leaving, .ok () => some (s.setWorker i .ended)
    | .leaving, .error _ => some { s with terminated := true }
    | _, _ => none
  | .destroyWorkers =>
    match s.destroyer with
    | .notCalled =>
      some { s with finished := true, cutoff := some s.enqueued.length, destroyer := .joining 0 }
    | _ => none
  | .join =>
    match s.destroyer with
    | .joining index =>
      if h : index < n then
        match s.worker ⟨index, h⟩ with
        | .ended => some { s with destroyer := .joining (index + 1) }
        | _ => none
      else some { s with destroyer := .returned }
    | _ => none

/-! ## What a step can do -/

/-- The steps of a pool that is alive, each with its guard and its effect. -/
inductive Step (code : HandlerCode) (s : PoolState Socket n) :
    PoolLabel code.Behaviour Socket n → PoolState Socket n → Prop
  | enqueue (socket : Socket) :
      Step code s (.enqueue socket)
        { s with queue := s.queue ++ [socket], enqueued := s.enqueued ++ [socket] }
  | created {i : Fin n} {behaviour : code.Behaviour} :
      s.worker i = .starting → code.createWorker behaviour = .ok () →
      Step code s (.createWorker i behaviour) (s.setWorker i .waiting)
  | notCreated {i : Fin n} {behaviour : code.Behaviour} {e : Exn} :
      s.worker i = .starting → code.createWorker behaviour = .error e →
      Step code s (.createWorker i behaviour) { s with terminated := true }
  | dequeue {i : Fin n} {socket : Socket} {queue : List Socket} :
      s.worker i = .waiting → s.queue = socket :: queue →
      Step code s (.dequeue i)
        { s.setWorker i (.dequeued s.dequeued socket) with
          queue := queue, dequeued := s.dequeued + 1 }
  | leave {i : Fin n} :
      s.worker i = .waiting → s.queue = [] → s.finished = true →
      Step code s (.dequeue i) (s.setWorker i .leaving)
  | handle {i : Fin n} {ticket : Nat} {socket : Socket} :
      s.worker i = .dequeued ticket socket →
      Step code s (.handle i)
        { s.setWorker i .handling with handled := s.handled ++ [⟨i, ticket, socket⟩] }
  | handled {i : Fin n} (outcome : Except Exn Unit) :
      s.worker i = .handling →
      Step code s (.handled i outcome)
        { s.setWorker i .waiting with log := s.log ++ catchHandle code.name outcome }
  | deleted {i : Fin n} {behaviour : code.Behaviour} :
      s.worker i = .leaving → code.deleteWorker behaviour = .ok () →
      Step code s (.deleteWorker i behaviour) (s.setWorker i .ended)
  | notDeleted {i : Fin n} {behaviour : code.Behaviour} {e : Exn} :
      s.worker i = .leaving → code.deleteWorker behaviour = .error e →
      Step code s (.deleteWorker i behaviour) { s with terminated := true }
  | finish :
      s.destroyer = .notCalled →
      Step code s .destroyWorkers
        { s with finished := true, cutoff := some s.enqueued.length, destroyer := .joining 0 }
  | joined {index : Nat} (h : index < n) :
      s.destroyer = .joining index → s.worker ⟨index, h⟩ = .ended →
      Step code s .join { s with destroyer := .joining (index + 1) }
  | joinedAll {index : Nat} :
      s.destroyer = .joining index → n ≤ index →
      Step code s .join { s with destroyer := .returned }

/-- **Inversion.**  A process that takes a step has not been terminated, and the step is one of
    the kinds above. -/
theorem next_eq_some {code : HandlerCode} {s s' : PoolState Socket n}
    {label : PoolLabel code.Behaviour Socket n} (h : next code s label = some s') :
    s.terminated = false ∧ Step code s label s' := by
  unfold next at h
  split at h
  · cases h
  · rename_i hterm
    refine ⟨Bool.eq_false_iff.mpr hterm, ?_⟩
    cases label with
    | enqueue socket =>
      obtain rfl := Option.some.inj h
      exact .enqueue socket
    | createWorker i behaviour =>
      dsimp only at h
      split at h
      · obtain rfl := Option.some.inj h
        exact .created ‹_› ‹_›
      · obtain rfl := Option.some.inj h
        exact .notCreated ‹_› ‹_›
      · cases h
    | dequeue i =>
      dsimp only at h
      split at h
      · obtain rfl := Option.some.inj h
        exact .dequeue ‹_› ‹_›
      · split at h
        · obtain rfl := Option.some.inj h
          exact .leave ‹_› ‹_› ‹_›
        · cases h
      · cases h
    | handle i =>
      dsimp only at h
      split at h
      · obtain rfl := Option.some.inj h
        exact .handle ‹_›
      · cases h
    | handled i outcome =>
      dsimp only at h
      split at h
      · obtain rfl := Option.some.inj h
        exact .handled outcome ‹_›
      · cases h
    | deleteWorker i behaviour =>
      dsimp only at h
      split at h
      · obtain rfl := Option.some.inj h
        exact .deleted ‹_› ‹_›
      · obtain rfl := Option.some.inj h
        exact .notDeleted ‹_› ‹_›
      · cases h
    | destroyWorkers =>
      dsimp only at h
      split at h
      · obtain rfl := Option.some.inj h
        exact .finish ‹_›
      · cases h
    | join =>
      dsimp only at h
      split at h
      · split at h
        · split at h
          · obtain rfl := Option.some.inj h
            exact .joined _ ‹_› ‹_›
          · cases h
        · rename_i hindex
          obtain rfl := Option.some.inj h
          exact .joinedAll ‹_› (Nat.le_of_not_lt hindex)
      · cases h

/-! ## The books -/

/-- The ledger a pool keeps: a connection is issued by `enqueue`, taken by `dequeue` and delivered
    by the call of `handle`. -/
def ledger (s : PoolState Socket n) : Ledger (Fin n) where
  issued := s.enqueued.length
  taken := s.dequeued
  inHand i := (s.worker i).ticket?
  delivered := s.handled.map fun call => (call.worker, call.ticket)

/-- What the hands hold after one worker went on. -/
theorem ticket?_update (s : PoolState Socket n) (i : Fin n) (phase : WorkerPhase Socket) :
    (fun j => (Function.update s.worker i phase j).ticket?)
      = Function.update (fun j => (s.worker j).ticket?) i phase.ticket? :=
  Function.comp_update WorkerPhase.ticket? s.worker i phase

/-- A worker that had nothing in hand and takes nothing does not touch the books. -/
theorem ledger_setWorker {s : PoolState Socket n} {i : Fin n} {before after : WorkerPhase Socket}
    (hworker : s.worker i = before) (hbefore : before.ticket? = none)
    (hafter : after.ticket? = none) : (s.setWorker i after).ledger = s.ledger := by
  have hhands : (fun j => (Function.update s.worker i after j).ticket?)
      = fun j => (s.worker j).ticket? := by
    rw [ticket?_update, hafter, ← hbefore, ← hworker]
    exact Function.update_eq_self i _
  show Ledger.mk _ _ (fun j => (Function.update s.worker i after j).ticket?) _ = _
  rw [hhands]
  rfl

/-- **The pool refines the ledger**: a step is one move, or leaves the books alone.  All it takes
    is that the queue holds what has been enqueued and not taken yet. -/
theorem Step.ledger {code : HandlerCode} {s s' : PoolState Socket n}
    {label : PoolLabel code.Behaviour Socket n} (h : Step code s label s')
    (hqueue : s.queue = s.enqueued.drop s.dequeued) :
    s'.ledger = s.ledger ∨ Ledger.Step s.ledger s'.ledger := by
  cases h with
  | enqueue socket =>
    have hissue := Ledger.Step.issue s.ledger
    refine Or.inr ?_
    rw [show { s.ledger with issued := s.ledger.issued + 1 } = PoolState.ledger
        { s with queue := s.queue ++ [socket], enqueued := s.enqueued ++ [socket] } by
      simp [PoolState.ledger]] at hissue
    exact hissue
  | @dequeue i socket queue hworker hcons =>
    have hlt : s.dequeued < s.enqueued.length := by
      have hlength := congrArg List.length (hqueue.symm.trans hcons)
      rw [List.length_drop, List.length_cons] at hlength
      omega
    have hempty : s.ledger.inHand i = none := by
      show (s.worker i).ticket? = none
      rw [hworker]
      rfl
    have htake := Ledger.Step.take (l := s.ledger) hlt hempty
    refine Or.inr ?_
    show Ledger.Step _ ⟨_, _, fun j => (Function.update s.worker i _ j).ticket?, _⟩
    rw [ticket?_update]
    exact htake
  | @handle i ticket socket hworker =>
    have hhand : s.ledger.inHand i = some ticket := by
      show (s.worker i).ticket? = some ticket
      rw [hworker]
      rfl
    have hdeliver := Ledger.Step.deliver hhand
    refine Or.inr ?_
    show Ledger.Step _ ⟨_, _, fun j => (Function.update s.worker i _ j).ticket?,
      (s.handled ++ [_]).map _⟩
    rw [ticket?_update, List.map_append]
    exact hdeliver
  | created hworker | leave hworker | handled outcome hworker | deleted hworker =>
    exact Or.inl (ledger_setWorker hworker rfl rfl)
  | notCreated | notDeleted | finish | joined | joinedAll => exact Or.inl rfl

/-! ## The invariant -/

/-- **The invariant of the pool.**  The books balance and name the right connections, a worker
    leaves only after everything enqueued before `finish()` has been taken, and a joined thread has
    ended. -/
structure Accounted (s : PoolState Socket n) : Prop where
  balanced : s.ledger.Balanced
  queue : s.queue = s.enqueued.drop s.dequeued
  inHand : ∀ i ticket socket, s.worker i = .dequeued ticket socket →
    s.enqueued[ticket]? = some socket
  handled : ∀ call ∈ s.handled, s.enqueued[call.ticket]? = some call.socket
  finished : s.finished = true → ∃ cutoff, s.cutoff = some cutoff ∧ cutoff ≤ s.enqueued.length
  left : ∀ i, s.worker i = .leaving ∨ s.worker i = .ended →
    ∃ cutoff, s.cutoff = some cutoff ∧ cutoff ≤ s.dequeued
  notCalled : s.destroyer = .notCalled → s.cutoff = none
  joined : ∀ i : Fin n, s.destroyer.Joined i → s.worker i = .ended

theorem accounted_start : Accounted (start Socket n) where
  balanced := Ledger.balanced_empty
  queue := rfl
  inHand _ _ _ h := by cases h
  handled _ h := absurd h List.not_mem_nil
  finished h := by cases h
  left _ h := by rcases h with h | h <;> cases h
  notCalled _ := rfl
  joined _ h := h.elim

/-- Where one worker is after it went on. -/
theorem setWorker_worker_eq {s : PoolState Socket n} {i j : Fin n}
    {phase phase' : WorkerPhase Socket} (h : (s.setWorker i phase).worker j = phase') :
    (j = i ∧ phase = phase') ∨ (j ≠ i ∧ s.worker j = phase') := by
  by_cases hj : j = i
  · subst hj
    exact Or.inl ⟨rfl, (setWorker_self s j phase).symm.trans h⟩
  · exact Or.inr ⟨hj, (setWorker_of_ne s hj phase).symm.trans h⟩

/-- A worker that goes on inside its loop: those that have left it are others. -/
theorem left_setWorker {s : PoolState Socket n} {j : Fin n} (i : Fin n)
    (phase : WorkerPhase Socket) (hleaving : phase ≠ .leaving) (hended : phase ≠ .ended)
    (h : (s.setWorker i phase).worker j = .leaving ∨ (s.setWorker i phase).worker j = .ended) :
    s.worker j = .leaving ∨ s.worker j = .ended := by
  rcases h with h | h
  · rcases setWorker_worker_eq h with ⟨-, heq⟩ | ⟨-, h⟩
    · exact absurd heq hleaving
    · exact Or.inl h
  · rcases setWorker_worker_eq h with ⟨-, heq⟩ | ⟨-, h⟩
    · exact absurd heq hended
    · exact Or.inr h

/-- A worker that has not ended goes on: the joined threads are others. -/
theorem joined_setWorker {s : PoolState Socket n} {i : Fin n} {before : WorkerPhase Socket}
    (h : ∀ j : Fin n, s.destroyer.Joined j → s.worker j = .ended) (hworker : s.worker i = before)
    (hbefore : before ≠ .ended) (after : WorkerPhase Socket) (j : Fin n)
    (hj : s.destroyer.Joined j) : (s.setWorker i after).worker j = .ended := by
  have hne : j ≠ i := by
    rintro rfl
    exact hbefore (hworker.symm.trans (h j hj))
  exact (setWorker_of_ne s hne after).trans (h j hj)

/-- A connection keeps its place when others come after it. -/
theorem getElem?_enqueue {enqueued : List Socket} {ticket : Nat} {socket : Socket}
    (h : enqueued[ticket]? = some socket) (other : Socket) :
    (enqueued ++ [other])[ticket]? = some socket := by
  obtain ⟨hlt, -⟩ := List.getElem?_eq_some_iff.mp h
  rw [List.getElem?_append_left hlt]
  exact h

/-- A worker whose hands are empty before and after goes on, without leaving its loop. -/
theorem Accounted.setWorker {s : PoolState Socket n} (h : Accounted s) {i : Fin n}
    {before after : WorkerPhase Socket} (hworker : s.worker i = before)
    (hbefore : before.ticket? = none) (hgoing : before ≠ .ended) (hafter : after.ticket? = none)
    (hleft : after = .leaving ∨ after = .ended →
      ∃ cutoff, s.cutoff = some cutoff ∧ cutoff ≤ s.dequeued) :
    Accounted (s.setWorker i after) where
  balanced := by
    rw [ledger_setWorker hworker hbefore hafter]
    exact h.balanced
  queue := h.queue
  inHand j ticket socket hj := by
    rcases setWorker_worker_eq hj with ⟨-, rfl⟩ | ⟨-, hj⟩
    · cases hafter
    · exact h.inHand j ticket socket hj
  handled := h.handled
  finished := h.finished
  left j hj := by
    by_cases hji : j = i
    · subst hji
      rw [setWorker_self] at hj
      exact hleft hj
    · rw [setWorker_of_ne s hji] at hj
      exact h.left j hj
  notCalled := h.notCalled
  joined := joined_setWorker h.joined hworker hgoing after

/-- A worker with empty hands waits for its next connection. -/
theorem Accounted.waiting {s : PoolState Socket n} (h : Accounted s) {i : Fin n}
    {before : WorkerPhase Socket} (hworker : s.worker i = before) (hbefore : before.ticket? = none)
    (hgoing : before ≠ .ended) : Accounted (s.setWorker i .waiting) := by
  refine h.setWorker hworker hbefore hgoing rfl ?_
  rintro (hleaving | hended)
  · cases hleaving
  · cases hended

/-- **Every step keeps the invariant.** -/
theorem Accounted.step {code : HandlerCode} {s s' : PoolState Socket n}
    {label : PoolLabel code.Behaviour Socket n} (h : Accounted s) (hstep : Step code s label s') :
    Accounted s' := by
  have hbalanced : s'.ledger.Balanced := by
    rcases hstep.ledger h.queue with heq | hmove
    · rw [heq]
      exact h.balanced
    · exact h.balanced.step hmove
  cases hstep with
  | enqueue socket =>
    have htaken : s.dequeued ≤ s.enqueued.length := h.balanced.taken_le
    refine ⟨hbalanced, ?_, ?_, ?_, ?_, h.left, h.notCalled, h.joined⟩
    · show s.queue ++ [socket] = (s.enqueued ++ [socket]).drop s.dequeued
      rw [List.drop_append_of_le_length htaken, h.queue]
    · intro i ticket x hi
      exact getElem?_enqueue (h.inHand i ticket x hi) socket
    · intro call hcall
      exact getElem?_enqueue (h.handled call hcall) socket
    · intro hfinished
      obtain ⟨cutoff, hcutoff, hle⟩ := h.finished hfinished
      refine ⟨cutoff, hcutoff, ?_⟩
      show cutoff ≤ (s.enqueued ++ [socket]).length
      rw [List.length_append]
      omega
  | created hworker => exact h.waiting hworker rfl nofun
  | notCreated | notDeleted =>
    exact ⟨hbalanced, h.queue, h.inHand, h.handled, h.finished, h.left, h.notCalled, h.joined⟩
  | @dequeue i socket queue hworker hcons =>
    have hdrop : s.enqueued.drop s.dequeued = socket :: queue := h.queue.symm.trans hcons
    refine ⟨hbalanced, ?_, ?_, h.handled, h.finished, ?_, h.notCalled, ?_⟩
    · show queue = s.enqueued.drop (s.dequeued + 1)
      rw [← List.drop_drop, hdrop]
      rfl
    · intro j ticket x hj
      rcases setWorker_worker_eq hj with ⟨-, heq⟩ | ⟨-, hj⟩
      · obtain ⟨rfl, rfl⟩ := WorkerPhase.dequeued.inj heq
        show s.enqueued[s.dequeued]? = some socket
        rw [← List.head?_drop, hdrop]
        rfl
      · exact h.inHand j ticket x hj
    · intro j hj
      obtain ⟨cutoff, hcutoff, hle⟩ := h.left j
        (left_setWorker i (.dequeued s.dequeued socket) nofun nofun hj)
      exact ⟨cutoff, hcutoff, Nat.le_succ_of_le hle⟩
    · exact joined_setWorker h.joined hworker nofun _
  | @leave i hworker hempty hfinished =>
    refine h.setWorker hworker rfl nofun rfl fun _ => ?_
    -- The queue is empty: everything enqueued so far has been taken.
    obtain ⟨cutoff, hcutoff, hle⟩ := h.finished hfinished
    have hall : s.enqueued.length ≤ s.dequeued :=
      List.drop_eq_nil_iff.mp (h.queue.symm.trans hempty)
    exact ⟨cutoff, hcutoff, hle.trans hall⟩
  | @handle i ticket socket hworker =>
    refine ⟨hbalanced, h.queue, ?_, ?_, h.finished, ?_, h.notCalled, ?_⟩
    · intro j t x hj
      rcases setWorker_worker_eq hj with ⟨-, heq⟩ | ⟨-, hj⟩
      · cases heq
      · exact h.inHand j t x hj
    · intro call hcall
      rcases List.mem_append.mp hcall with hcall | hcall
      · exact h.handled call hcall
      · obtain rfl := List.mem_singleton.mp hcall
        exact h.inHand i ticket socket hworker
    · intro j hj
      exact h.left j (left_setWorker i .handling nofun nofun hj)
    · exact joined_setWorker h.joined hworker nofun _
  | @handled i outcome hworker =>
    have hmoved : Accounted (s.setWorker i .waiting) := h.waiting hworker rfl nofun
    exact ⟨hbalanced, hmoved.queue, hmoved.inHand, hmoved.handled, hmoved.finished, hmoved.left,
      hmoved.notCalled, hmoved.joined⟩
  | deleted hworker =>
    exact h.setWorker hworker rfl nofun rfl fun _ => h.left _ (Or.inl hworker)
  | finish hcalled =>
    refine ⟨hbalanced, h.queue, h.inHand, h.handled, ?_, ?_, nofun, ?_⟩
    · exact fun _ => ⟨s.enqueued.length, rfl, Nat.le_refl _⟩
    · -- Before `finish()` no worker leaves.
      intro i hi
      obtain ⟨cutoff, hcutoff, -⟩ := h.left i hi
      cases (h.notCalled hcalled).symm.trans hcutoff
    · intro i hi
      exact absurd hi (Nat.not_lt_zero _)
  | @joined index hindex hjoining hended =>
    refine ⟨hbalanced, h.queue, h.inHand, h.handled, h.finished, h.left, nofun, ?_⟩
    intro i hi
    rcases Nat.lt_succ_iff_lt_or_eq.mp hi with hlt | heq
    · refine h.joined i ?_
      rw [hjoining]
      exact hlt
    · obtain rfl : i = ⟨index, hindex⟩ := Fin.ext heq
      exact hended
  | @joinedAll index hjoining hindex =>
    refine ⟨hbalanced, h.queue, h.inHand, h.handled, h.finished, h.left, nofun, ?_⟩
    intro i _
    refine h.joined i ?_
    rw [hjoining]
    exact Nat.lt_of_lt_of_le i.isLt hindex

/-! ## Every connection is handled once -/

/-- How often the connection enqueued as the `ticket`-th has been passed to `handle`, by whichever
    worker. -/
def handleCount (s : PoolState Socket n) (ticket : Nat) : Nat :=
  s.handled.countP fun call => call.ticket = ticket

/-- What the pool owes to the connections. -/
structure Delivered (s : PoolState Socket n) : Prop where
  /-- No connection is passed to `handle` twice. -/
  once : ∀ ticket, s.handleCount ticket ≤ 1
  /-- What is passed to `handle` is the connection that was enqueued under this number. -/
  own : ∀ call ∈ s.handled, s.enqueued[call.ticket]? = some call.socket
  /-- When `destroyWorkers` has returned, all threads have ended, and every connection enqueued
      before `finish()` was passed to `handle`. -/
  drained : s.destroyer = .returned →
    (∀ i, s.worker i = .ended) ∧
    ∃ cutoff, s.cutoff = some cutoff ∧ ∀ ticket < cutoff, s.handleCount ticket = 1

theorem handleCount_eq (s : PoolState Socket n) (ticket : Nat) :
    s.handleCount ticket = s.ledger.numbers.count ticket := by
  rw [handleCount, Ledger.numbers, List.count, ledger, List.map_map, List.countP_map]
  rfl

/-- With all threads ended, all hands are empty and the pool has drained. -/
theorem Accounted.delivered {s : PoolState Socket n} (h : Accounted s) (hn : 0 < n) :
    Delivered s where
  once ticket := by
    rw [handleCount_eq]
    exact h.balanced.count_le_one ticket
  own := h.handled
  drained hreturned := by
    have hended : ∀ i, s.worker i = .ended := by
      intro i
      refine h.joined i ?_
      rw [hreturned]
      trivial
    obtain ⟨cutoff, hcutoff, hle⟩ := h.left ⟨0, hn⟩ (Or.inr (hended ⟨0, hn⟩))
    refine ⟨hended, cutoff, hcutoff, fun ticket hticket => ?_⟩
    have hempty : ∀ i, s.ledger.inHand i = none := by
      intro i
      show (s.worker i).ticket? = none
      rw [hended i]
      rfl
    rw [handleCount_eq]
    exact h.balanced.count_eq_one hempty (Nat.lt_of_lt_of_le hticket hle)

theorem Accounted.next {code : HandlerCode} {s s' : PoolState Socket n}
    {label : PoolLabel code.Behaviour Socket n} (h : Accounted s)
    (hnext : next code s label = some s') : Accounted s' :=
  h.step (next_eq_some hnext).2

/-- **Nothing is lost and nothing handled twice.**  In every interleaving, whatever `handle` throws
    and wherever `destroyWorkers` is called: each connection is passed to `handle` at most once, and
    when `destroyWorkers` has returned every thread has ended and every connection enqueued before
    `finish()` has been passed to `handle` exactly once. -/
theorem every_connection_handled_once (code : HandlerCode) (hn : 0 < n)
    (labels : List (PoolLabel code.Behaviour Socket n)) :
    Throughout (next code) Delivered (start Socket n) labels :=
  throughout_of_step (fun _ h => h.delivered hn) (fun _ _ _ h hnext => h.next hnext) labels
    accounted_start

/-- Two workers, one of which gets an exception out of `handle` that no class describes, and three
    connections: the last one is enqueued while `destroyWorkers` is already waiting. -/
def drainingRun : List (PoolLabel Unit Nat 2) :=
  [.createWorker 0 (), .enqueue 7, .enqueue 7, .dequeue 0, .createWorker 1 (), .dequeue 1,
    .handle 1, .destroyWorkers, .handled 1 (.error .unknown), .enqueue 9, .handle 0, .dequeue 1,
    .handled 0 (.ok ()), .dequeue 0, .handle 1, .deleteWorker 0 (), .join,
    .handled 1 (.error (.systemError brokenPipe (str "Broken pipe"))), .dequeue 1,
    .deleteWorker 1 (), .join, .join]

/-- **The run above drains the pool**: three connections under three numbers, handled once each. -/
theorem drainingRun_delivered :
    Throughout (next (dummyCode (str "dummy"))) Delivered (start Nat 2) drainingRun ∧
      (exec (next (dummyCode (str "dummy"))) (start Nat 2) drainingRun).map
        (fun s => (s.destroyer, s.cutoff, s.handled.map HandleCall.ticket))
        = some (.returned, some 2, [1, 0, 2]) :=
  ⟨every_connection_handled_once (dummyCode (str "dummy")) (by decide) drainingRun, by decide⟩

end PoolState

end ThreadServer
