/-
  `ThreadServer_t::stop` against connections that are still on their way: does `accept` ever hand a
  connection to a handler that `stop()` has already deleted?

  `stop()` cancels and closes every acceptor, deletes the handlers, and only then stops the
  `io_service`.  Closing takes back what is still waiting for the operating system, but a completion
  that has already succeeded stays queued and is delivered later.

  1. **Nothing new arrives.**  An acceptor that is open still has its `close` ahead of it in
     `stop()`, and no `close` comes after a `delete` (`closesFirst_stopProgram`), so when a handler
     is deleted no acceptor can produce a further connection (`HandlersAlive`).
  2. **What is queued decides** (`enqueued_alive`).  If no connection of a handler is queued or
     being looked at when the handler is deleted, every `enqueue` of the run finds its handler.
  3. **Otherwise the handler is missed** (`delete_then_enqueue_dead`).  From any state in which a
     handler is deleted under a queued connection, the idle io thread goes on to enqueue on it.
-/
import ThreadServer.IoService

set_option linter.unusedSectionVars false

namespace ThreadServer

/-- The statements that delete a handler. -/
def Instruction.Deletes {Id Handler : Type} : Instruction Id Handler → Prop
  | .deleteHandler _ => True
  | _ => False

/-- The statements that close an acceptor. -/
def Instruction.Closes {Id Handler : Type} : Instruction Id Handler → Prop
  | .close _ => True
  | _ => False

namespace IoState

open Transition

variable {Id Handler : Type} [DecidableEq Id]

/-! ## The order of `stop()` -/

/-- No acceptor is closed after a handler has been deleted. -/
def ClosesFirst (program : List (Instruction Id Handler)) : Prop :=
  program.Pairwise fun earlier later => earlier.Deletes → ¬ later.Closes

/-- `stop()` closes every acceptor before it deletes the first handler. -/
theorem closesFirst_stopProgram (setup : Setup Id Handler) : ClosesFirst (stopProgram setup) := by
  have hacceptors : ∀ i ∈ setup.listeners.flatMap
      (fun id => [Instruction.cancel id, .close id, .joinAcceptor id]),
      ¬ (i : Instruction Id Handler).Deletes := by
    intro i hi
    obtain ⟨id, -, hi⟩ := List.mem_flatMap.mp hi
    simp only [List.mem_cons, List.not_mem_nil, or_false] at hi
    rcases hi with rfl | rfl | rfl <;> exact not_false
  have hrest : ∀ i ∈ setup.handlers.map .deleteHandler
      ++ [.resetWork, .stopIoService, .joinIoService], ¬ (i : Instruction Id Handler).Closes := by
    intro i hi
    rcases List.mem_append.mp hi with hi | hi
    · obtain ⟨handler, -, rfl⟩ := List.mem_map.mp hi
      exact not_false
    · simp only [List.mem_cons, List.not_mem_nil, or_false] at hi
      rcases hi with rfl | rfl | rfl <;> exact not_false
  rw [ClosesFirst, stopProgram, List.append_assoc]
  refine List.pairwise_append.mpr ⟨?_, ?_, ?_⟩
  · apply List.pairwise_of_forall_mem_list
    intro i hi _ _ hdeletes
    exact absurd hdeletes (hacceptors i hi)
  · apply List.pairwise_of_forall_mem_list
    intro _ _ j hj _
    exact hrest j hj
  · intro i hi _ _ hdeletes
    exact absurd hdeletes (hacceptors i hi)

/-! ## Handlers outlive their connections -/

/-- What is owed to the handlers: none of the connections handed over so far went to a handler
    that had been deleted. -/
def EnqueuedAlive (s : IoState Id Handler) : Prop := ∀ e ∈ s.enqueued, e.alive = true

/-- When `stop()` deletes a handler, no connection of that handler is queued or being looked at. -/
def DeletesIdle (setup : Setup Id Handler) (s : IoState Id Handler) : IoLabel Id → Prop
  | .main => ∀ handler ∈ (s.program.head?.bind fun
        | .deleteHandler handler => some handler
        | _ => none),
      (∀ c ∈ s.queue, (∃ socket, c.2 = .success socket) → setup.handlerOf c.1 ≠ handler) ∧
      ∀ callback ∈ s.current, setup.handlerOf callback.listener ≠ handler
  | _ => True

/-- The invariant of the shutdown: every connection there is, or can still be, has its handler. -/
structure HandlersAlive (setup : Setup Id Handler) (s : IoState Id Handler) : Prop where
  enqueued : EnqueuedAlive s
  examined : ∀ callback ∈ s.current, setup.handlerOf callback.listener ∈ s.handlers
  queued : ∀ c ∈ s.queue, (∃ socket, c.2 = .success socket) → setup.handlerOf c.1 ∈ s.handlers
  acceptable : ∀ id, (s.acceptor id).isOpen = true → setup.handlerOf id ∈ s.handlers
  closing : ∀ id, (s.acceptor id).isOpen = true → .close id ∈ s.program
  ordered : ClosesFirst s.program

theorem handlersAlive_start (setup : Setup Id Handler) : HandlersAlive setup (start setup) where
  enqueued _ he := nomatch he
  examined _ hc := nomatch hc
  queued _ hc := nomatch hc
  acceptable id hopen := setup.handlerOf_mem id (of_decide_eq_true hopen)
  closing id hopen := by
    refine List.mem_append_left _ (List.mem_append_left _ (List.mem_flatMap.mpr ?_))
    exact ⟨id, of_decide_eq_true hopen, List.mem_cons_of_mem _ List.mem_cons_self⟩
  ordered := closesFirst_stopProgram setup

variable {setup : Setup Id Handler}

/-- Starting an accept brings no connection and needs no handler. -/
theorem HandlersAlive.asyncAccept {s : IoState Id Handler} (h : HandlersAlive setup s) (id : Id) :
    HandlersAlive setup (s.asyncAccept id) where
  enqueued := by rw [EnqueuedAlive, asyncAccept_enqueued]; exact h.enqueued
  examined := by rw [asyncAccept_current, asyncAccept_handlers]; exact h.examined
  queued := by
    rw [asyncAccept_handlers]
    rintro c hc ⟨socket, hsocket⟩
    rcases mem_queue_asyncAccept hc with hc | herror
    · exact h.queued c hc ⟨socket, hsocket⟩
    · exact nomatch hsocket.symm.trans herror
  acceptable id' hopen := by
    rw [asyncAccept_isOpen] at hopen
    rw [asyncAccept_handlers]
    exact h.acceptable id' hopen
  closing id' hopen := by
    rw [asyncAccept_isOpen] at hopen
    rw [asyncAccept_program]
    exact h.closing id' hopen
  ordered := by rw [asyncAccept_program]; exact h.ordered

/-- Changing an acceptor without opening it. -/
theorem HandlersAlive.setAcceptor {s : IoState Id Handler} (h : HandlersAlive setup s) (id : Id)
    (acceptor : Acceptor) (hopen : acceptor.isOpen = true → (s.acceptor id).isOpen = true) :
    HandlersAlive setup (s.setAcceptor id acceptor) := by
  have hisOpen : ∀ id', ((s.setAcceptor id acceptor).acceptor id').isOpen = true →
      (s.acceptor id').isOpen = true := by
    intro id' h'
    by_cases hid : id' = id
    · subst hid
      exact hopen (by simpa [IoState.setAcceptor] using h')
    · simpa [IoState.setAcceptor, hid] using h'
  exact ⟨h.enqueued, h.examined, h.queued, fun id' h' => h.acceptable id' (hisOpen id' h'),
    fun id' h' => h.closing id' (hisOpen id' h'), h.ordered⟩

/-- Queueing completions whose connections have their handlers. -/
theorem HandlersAlive.enqueue {s : IoState Id Handler} (h : HandlersAlive setup s)
    (completions : List (Id × Completion))
    (hc : ∀ c ∈ completions, (∃ socket, c.2 = .success socket) → setup.handlerOf c.1 ∈ s.handlers) :
    HandlersAlive setup { s with queue := s.queue ++ completions } := by
  refine { h with queued := fun c hmem hsocket => ?_ }
  rcases List.mem_append.mp hmem with hmem | hmem
  · exact h.queued c hmem hsocket
  · exact hc c hmem hsocket

theorem not_success_of_mem_canceled {s : IoState Id Handler} {id : Id} {c : Id × Completion}
    (h : c ∈ s.canceled id) : ¬ ∃ socket, c.2 = .success socket := by
  rw [List.eq_of_mem_replicate h]
  rintro ⟨socket, hsocket⟩
  cases hsocket

variable [DecidableEq Handler]

instance (s : IoState Id Handler) (label : IoLabel Id) : Decidable (DeletesIdle setup s label) :=
  match label with
  | .main =>
    have (c : Id × Completion) : Decidable (∃ socket, c.2 = .success socket) :=
      match c with
      | (_, .success socket) => isTrue ⟨socket, rfl⟩
      | (_, .error _) => isFalse fun ⟨_, h⟩ => nomatch h
    inferInstanceAs (Decidable (∀ handler ∈ _, _))
  | .listen _ | .complete _ _ | .deliver _ | .callback => inferInstanceAs (Decidable True)

/-- The main thread's half of the step lemma. -/
theorem HandlersAlive.runInstruction {s s' : IoState Id Handler}
    {instruction : Instruction Id Handler} {program : List (Instruction Id Handler)}
    (h : HandlersAlive setup s) (hprogram : s.program = instruction :: program)
    (hC : DeletesIdle setup s .main)
    (hrun : runInstruction { s with program } instruction = some s') : HandlersAlive setup s' := by
  have hordered : ClosesFirst (instruction :: program) := hprogram ▸ h.ordered
  -- every statement but `close` leaves the acceptors open that were, with their `close` to come
  have hrest : ¬ instruction.Closes → HandlersAlive setup { s with program } := by
    refine fun hcloses => ⟨h.enqueued, h.examined, h.queued, h.acceptable, fun id hopen => ?_,
      hordered.tail⟩
    have hmem : Instruction.close id ∈ instruction :: program := hprogram ▸ h.closing id hopen
    rcases List.mem_cons.mp hmem with rfl | hmem
    · exact absurd trivial hcloses
    · exact hmem
  cases instruction with
  | cancel id =>
    obtain rfl := Option.some.inj hrun
    have hcanceled : HandlersAlive setup (IoState.setAcceptor { s with program } id
        { s.acceptor id with pending := 0 }) :=
      (hrest not_false).setAcceptor id _ fun hopen => hopen
    exact hcanceled.enqueue (canceled { s with program } id) fun c hc hsocket =>
      absurd hsocket (not_success_of_mem_canceled hc)
  | close id =>
    obtain rfl := Option.some.inj hrun
    have hclosed : HandlersAlive setup (IoState.setAcceptor { s with program } id
        { s.acceptor id with isOpen := false, pending := 0 }) := by
      refine ⟨h.enqueued, h.examined, h.queued, fun id' hopen => ?_, fun id' hopen => ?_,
        hordered.tail⟩
      all_goals
        by_cases hid : id' = id
        · subst hid
          simp [IoState.setAcceptor] at hopen
        have hopen : (s.acceptor id').isOpen = true := by
          simpa [IoState.setAcceptor, hid] using hopen
      · exact h.acceptable id' hopen
      · have hmem : Instruction.close id' ∈ Instruction.close id :: program :=
          hprogram ▸ h.closing id' hopen
        rcases List.mem_cons.mp hmem with heq | hmem
        · exact absurd (Instruction.close.inj heq) hid
        · exact hmem
    exact hclosed.enqueue (canceled { s with program } id) fun c hc hsocket =>
      absurd hsocket (not_success_of_mem_canceled hc)
  | deleteHandler handler =>
    obtain rfl := Option.some.inj hrun
    obtain ⟨hqueue, hcurrent⟩ := hC handler (by rw [hprogram]; rfl)
    have hkeeps : ∀ other ∈ s.handlers, other ≠ handler → other ∈ s.handlers.filter (· ≠ handler) :=
      fun other hmem hne => List.mem_filter.mpr ⟨hmem, by simpa using hne⟩
    -- the `close` of an acceptor that is still open would come after this `delete`
    have hclosed : ∀ id, (s.acceptor id).isOpen ≠ true := by
      intro id hopen
      have hmem : Instruction.close id ∈ Instruction.deleteHandler handler :: program :=
        hprogram ▸ h.closing id hopen
      rcases List.mem_cons.mp hmem with heq | hmem
      · cases heq
      · exact List.rel_of_pairwise_cons hordered hmem trivial trivial
    exact ⟨h.enqueued, fun c hc => hkeeps _ (h.examined c hc) (hcurrent c hc),
      fun c hc hsocket => hkeeps _ (h.queued c hc hsocket) (hqueue c hc hsocket),
      fun id hopen => absurd hopen (hclosed id), fun id hopen => absurd hopen (hclosed id),
      hordered.tail⟩
  | joinAcceptor id | joinIoService =>
    simp only [IoState.runInstruction] at hrun
    split at hrun
    · cases hrun
    · obtain rfl := Option.some.inj hrun
      exact hrest not_false
  | resetWork =>
    obtain rfl := Option.some.inj hrun
    exact hrest not_false
  | stopIoService =>
    obtain rfl := Option.some.inj hrun
    exact { hrest not_false with }

/-- **Step lemma**: a step that deletes no handler under a connection keeps every handler that a
    connection still needs. -/
theorem handlersAlive_step {s s' : IoState Id Handler} {label : IoLabel Id}
    (h : HandlersAlive setup s) (hC : DeletesIdle setup s label)
    (hnext : next setup s label = some s') : HandlersAlive setup s' := by
  cases (next_eq_some hnext).2 with
  | @listen id hlistening =>
    exact (h.setAcceptor id { s.acceptor id with listening := false } fun hopen =>
      hopen).asyncAccept id
  | @complete id completion hopen hpending hsystem =>
    refine (h.setAcceptor id { s.acceptor id with pending := (s.acceptor id).pending - 1 }
      fun hopen => hopen).enqueue [(id, completion)] fun c hc _ => ?_
    obtain rfl := List.mem_singleton.mp hc
    exact h.acceptable id hopen
  | @deliver position id completion hio hidle hqueue =>
    have htail : ∀ c ∈ s.queue.eraseIdx position, (∃ socket, c.2 = .success socket) →
        setup.handlerOf c.1 ∈ s.handlers :=
      fun c hc => h.queued c (List.mem_of_mem_eraseIdx hc)
    cases completion with
    | success socket =>
      refine { h with queued := htail, examined := fun callback hc => ?_ }
      obtain rfl : _ = callback := Option.some.inj hc
      exact h.queued _ (List.mem_of_getElem? hqueue) ⟨socket, rfl⟩
    | error code =>
      simp only [accept]
      split <;> exact { h with queued := htail }
  | @callback cb hcurrent =>
    obtain ⟨id, socket, stage⟩ := cb
    have halive : setup.handlerOf id ∈ s.handlers := h.examined _ hcurrent
    cases stage with
    | asyncAccept =>
      have ha := h.asyncAccept id
      refine { ha with examined := fun callback hc => ?_ }
      obtain rfl : _ = callback := Option.some.inj hc
      rw [← asyncAccept_handlers s id] at halive
      exact halive
    | isForbidden =>
      simp only [runCallback]
      split
      · refine { h with examined := fun callback hc => ?_ }
        obtain rfl : _ = callback := Option.some.inj hc
        exact halive
      · exact { h with examined := fun callback hc => absurd hc (Option.not_mem_none callback) }
    | enqueue forbidden =>
      have hidle : ∀ callback ∈ (none : Option (Callback Id)),
          setup.handlerOf callback.listener ∈ s.handlers := by
        intro callback hc
        exact absurd hc (Option.not_mem_none callback)
      refine { h with examined := hidle, enqueued := fun e he => ?_ }
      rcases List.mem_append.mp he with he | he
      · exact h.enqueued e he
      · rw [List.mem_singleton.mp he]
        exact decide_eq_true halive
  | main hprogram hrun => exact h.runInstruction hprogram hC hrun

/-- **No connection meets a deleted handler** in any run in which every handler is deleted with
    none of its connections queued or being looked at. -/
theorem enqueued_alive (setup : Setup Id Handler) (labels : List (IoLabel Id))
    (h : StepsMeet (next setup) (DeletesIdle setup) (start setup) labels) :
    Throughout (next setup) EnqueuedAlive (start setup) labels :=
  throughout_of_stepsMeet (fun _ h => h.enqueued)
    (fun _ _ _ h hC hnext => handlersAlive_step h hC hnext) (handlersAlive_start setup) h

/-- The condition cannot be dropped: **a handler deleted under a queued connection is missed**.  The
    io thread, idle at that moment, can take the connection up and hands it to the deleted
    handler. -/
theorem delete_then_enqueue_dead {s : IoState Id Handler} {id : Id} {socket : Socket}
    {program : List (Instruction Id Handler)} {position : Nat} {forbidden : Bool}
    (hterminated : s.terminated = false) (hio : s.ioStopped = false) (hidle : s.current = none)
    (hprogram : s.program = .deleteHandler (setup.handlerOf id) :: program)
    (hqueue : s.queue[position]? = some (id, .success socket))
    (hforbidden : (setup.listener id).isForbidden socket = .ok forbidden) :
    ∃ t, exec (next setup) s [.main, .deliver position, .callback, .callback, .callback] = some t ∧
      ⟨id, socket, forbidden, false⟩ ∈ t.enqueued := by
  let deleted : IoState Id Handler :=
    { s with program, handlers := s.handlers.filter (· ≠ setup.handlerOf id) }
  have hmain : next setup s .main = some deleted := by
    simp [next, hterminated, hprogram, runInstruction, deleted]
  let taken := accept { deleted with queue := s.queue.eraseIdx position } id (.success socket)
  have hdeliver : next setup deleted (.deliver position) = some taken := by
    simp [next, hterminated, hio, hidle, hqueue, deleted, taken]
  let armed := taken.runCallback setup ⟨id, socket, .asyncAccept⟩
  have harm : next setup taken .callback = some armed := by
    simp [next, hterminated, deleted, taken, armed, accept]
  let examined := armed.runCallback setup ⟨id, socket, .isForbidden⟩
  have hexamine : next setup armed .callback = some examined := by
    simp [next, hterminated, deleted, taken, armed, examined, accept, runCallback]
  have henqueue : next setup examined .callback
      = some (examined.runCallback setup ⟨id, socket, .enqueue forbidden⟩) := by
    simp [next, hterminated, deleted, taken, armed, examined, accept, runCallback, hforbidden]
  refine ⟨_, exec_cons.mpr ⟨_, hmain, exec_cons.mpr ⟨_, hdeliver, exec_cons.mpr ⟨_, harm,
    exec_cons.mpr ⟨_, hexamine, exec_cons.mpr ⟨_, henqueue, rfl⟩⟩⟩⟩⟩, ?_⟩
  simp [runCallback, examined, armed, taken, deleted, accept, hforbidden]

/-- One client served, then a whole shutdown. -/
def servedRun : List (IoLabel Unit) :=
  [.listen (), .complete () (.success (.connected (.v4 0x7f000001))), .deliver 0, .callback,
    .callback, .callback, .main, .main, .main, .deliver 0, .main, .main, .main, .main]

theorem servedRun_enqueued_alive :
    Throughout (next oneListener) EnqueuedAlive (start oneListener) servedRun :=
  enqueued_alive oneListener servedRun (by decide)

/-- One client arrives just before a shutdown that is quicker than the io thread. -/
def hastyRun : List (IoLabel Unit) :=
  [.listen (), .complete () (.success (.connected (.v4 0x7f000001))), .main, .main, .main, .main,
    .deliver 0, .callback, .callback, .callback]

/-- **Counterexample**: the client's connection is handed to a deleted handler. -/
theorem hastyRun_enqueues_dead :
    ¬ Throughout (next oneListener) EnqueuedAlive (start oneListener) hastyRun := by
  intro h
  have halive := h.last rfl ⟨(), .connected (.v4 0x7f000001), false, false⟩ (by decide)
  cases halive

end IoState

end ThreadServer
