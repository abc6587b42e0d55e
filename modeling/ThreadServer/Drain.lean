/-
  `ThreadServer_t::stop` comes to an end: the main thread waits for the accept threads, for the
  worker threads of one handler after the other, and for the io thread.  Can one of these waits be
  for ever?

  1. **Effort** (`effort_step`).  The effort of the whole server is that of its parts, and it goes
     down with each step of the server's own.
  2. **Progress** (`SiteState.Draining.goes`).  Whatever `stop()` waits for can go on: a thread it
     joins is itself never waiting, since the queue is finished by then.  And as long as the io
     thread holds a connection it can go on with it, so a handler need not be deleted under one.
  3. **Result** (`stop_returns`).  From every state that can be reached, the server's own steps are
     bounded in number, and none of its threads stands still before `stop()` has returned or an
     exception has ended the process.

  Two things are assumed, and neither can be dropped.  Every call of `handle` and of a module ends
  (`CallsEnd`): if one call of `handle` does not, `stop()` never returns (`hung_never_stops`).  And
  no handler is deleted under one of its connections (`DeletesIdle`): else the connection is handed
  to a deleted handler (`IoState.delete_then_enqueue_dead`), and `stop()` may come to anything.
-/
import ThreadServer.Effort
import ThreadServer.Serving
import ThreadServer.Shutdown

set_option linter.unusedSectionVars false

namespace ThreadServer

open Transition

variable {Id Handler Header Regex : Type} [DecidableEq Id] [DecidableEq Handler]

/-! ## The parts -/

namespace PoolState

variable {Socket : Type} {n : Nat}

/-- The queue is finished once the destructor has been called. -/
theorem finished_step {code : HandlerCode} {s s' : PoolState Socket n}
    {label : PoolLabel code.Behaviour Socket n} (hstep : Step code s label s')
    (h : s.destroyer ≠ .notCalled → s.finished = true) :
    s'.destroyer ≠ .notCalled → s'.finished = true := by
  cases hstep with
  | finish => exact fun _ => rfl
  | joined _ hjoining | joinedAll hjoining =>
    intro _
    refine h ?_
    rw [hjoining]
    exact nofun
  | enqueue | created | notCreated | dequeue | leave | handle | handled | deleted | notDeleted =>
    exact h

/-- A worker's thread that has begun is never stuck, whatever its module does. -/
theorem exists_createWorker {code : HandlerCode} {s : PoolState Socket n} {i : Fin n}
    (halive : s.terminated = false) (hworker : s.worker i = .starting)
    (behaviour : code.Behaviour) : ∃ s', next code s (.createWorker i behaviour) = some s' := by
  cases hcreate : code.createWorker behaviour with
  | ok => exact ⟨s.setWorker i .waiting, by simp [next, halive, hworker, hcreate]⟩
  | error e => exact ⟨{ s with terminated := true }, by simp [next, halive, hworker, hcreate]⟩

theorem exists_deleteWorker {code : HandlerCode} {s : PoolState Socket n} {i : Fin n}
    (halive : s.terminated = false) (hworker : s.worker i = .leaving)
    (behaviour : code.Behaviour) : ∃ s', next code s (.deleteWorker i behaviour) = some s' := by
  cases hdelete : code.deleteWorker behaviour with
  | ok => exact ⟨s.setWorker i .ended, by simp [next, halive, hworker, hdelete]⟩
  | error e => exact ⟨{ s with terminated := true }, by simp [next, halive, hworker, hdelete]⟩

/-- Where there is a connection, or the queue is finished, no worker waits. -/
theorem exists_dequeue {code : HandlerCode} {s : PoolState Socket n} {i : Fin n}
    (halive : s.terminated = false) (hworker : s.worker i = .waiting)
    (hready : s.queue ≠ [] ∨ s.finished = true) : ∃ s', next code s (.dequeue i) = some s' := by
  cases hqueue : s.queue with
  | nil =>
    have hfinished := hready.resolve_left fun h => h hqueue
    exact ⟨s.setWorker i .leaving, by simp [next, halive, hworker, hqueue, hfinished]⟩
  | cons socket queue =>
    exact ⟨{ s.setWorker i (.dequeued s.dequeued socket) with
      queue := queue, dequeued := s.dequeued + 1 }, by simp [next, halive, hworker, hqueue]⟩

/-- The destructor goes on when the thread it joins has ended. -/
theorem exists_join {code : HandlerCode} {s : PoolState Socket n} {index : Nat}
    (halive : s.terminated = false) (hjoining : s.destroyer = .joining index)
    (hended : ∀ h : index < n, s.worker ⟨index, h⟩ = .ended) :
    ∃ s', next code s .join = some s' := by
  by_cases h : index < n
  · refine ⟨{ s with destroyer := .joining (index + 1) }, ?_⟩
    simp [next, halive, hjoining, h, hended h]
  · exact ⟨{ s with destroyer := .returned }, by simp [next, halive, hjoining, h]⟩

/-- A thread that is in `handle` stays there until the call ends. -/
theorem handling_step {code : HandlerCode} {s s' : PoolState Socket n}
    {label : PoolLabel code.Behaviour Socket n} {i : Fin n} (h : Step code s label s')
    (hhandling : s.worker i = .handling) (hends : ∀ outcome, label ≠ .handled i outcome) :
    s'.worker i = .handling := by
  have hother : ∀ {j : Fin n} {before : WorkerPhase Socket} (after : WorkerPhase Socket),
      s.worker j = before → before ≠ .handling → (s.setWorker j after).worker i = .handling := by
    intro j before after hbefore hne
    have hij : i ≠ j := by
      rintro rfl
      exact hne (hbefore.symm.trans hhandling)
    rw [setWorker_of_ne s hij]
    exact hhandling
  cases h with
  | created hbefore | handle hbefore | leave hbefore | deleted hbefore =>
    refine hother _ hbefore ?_
    exact nofun
  | dequeue hbefore =>
    refine hother _ hbefore ?_
    exact nofun
  | @handled j outcome hbefore =>
    by_cases hij : i = j
    · subst hij
      exact absurd rfl (hends outcome)
    · show (s.setWorker j .waiting).worker i = .handling
      rw [setWorker_of_ne s hij]
      exact hhandling
  | enqueue | notCreated | notDeleted | finish | joined | joinedAll => exact hhandling

end PoolState

namespace IoState

variable {setup : Setup Id Handler}

/-- No handler is deleted behind `ioService.stop()`. -/
def DeletesFirst (program : List (Instruction Id Handler)) : Prop :=
  program.Pairwise fun earlier later => earlier = .stopIoService → ¬ later.Deletes

theorem deletesFirst_stopProgram (setup : Setup Id Handler) :
    DeletesFirst (stopProgram setup) := by
  have hbefore : ∀ i ∈ setup.listeners.flatMap
      (fun id => [Instruction.cancel id, .close id, .joinAcceptor id])
      ++ setup.handlers.map .deleteHandler, (i : Instruction Id Handler) ≠ .stopIoService := by
    rintro i hi rfl
    rcases List.mem_append.mp hi with hi | hi
    · obtain ⟨id, -, hi⟩ := List.mem_flatMap.mp hi
      simp only [List.mem_cons, List.not_mem_nil, or_false] at hi
      rcases hi with hi | hi | hi <;> cases hi
    · obtain ⟨handler, -, hi⟩ := List.mem_map.mp hi
      cases hi
  have hbehind : ∀ i ∈ [Instruction.resetWork, .stopIoService, .joinIoService],
      ¬ (i : Instruction Id Handler).Deletes := by
    intro i hi
    simp only [List.mem_cons, List.not_mem_nil, or_false] at hi
    rcases hi with rfl | rfl | rfl <;> exact not_false
  rw [DeletesFirst, stopProgram]
  refine List.pairwise_append.mpr ⟨?_, ?_, ?_⟩
  · apply List.pairwise_of_forall_mem_list
    intro i hi _ _ heq
    exact absurd heq (hbefore i hi)
  · apply List.pairwise_of_forall_mem_list
    intro _ _ j hj _
    exact hbehind j hj
  · intro i hi _ _ heq
    exact absurd heq (hbefore i hi)

/-- As long as a handler is to be deleted the io thread runs. -/
structure StopsLast (s : IoState Id Handler) : Prop where
  ordered : DeletesFirst s.program
  stopped : s.ioStopped = true → ∀ instruction ∈ s.program, ¬ instruction.Deletes

theorem stopsLast_start (setup : Setup Id Handler) : StopsLast (start setup) where
  ordered := deletesFirst_stopProgram setup
  stopped hstopped := by cases hstopped

theorem ioStopped_runInstruction {s s' : IoState Id Handler} {instruction : Instruction Id Handler}
    (h : runInstruction s instruction = some s') :
    instruction = .stopIoService ∨ s'.ioStopped = s.ioStopped := by
  cases instruction with
  | stopIoService => exact Or.inl rfl
  | joinAcceptor id | joinIoService =>
    simp only [runInstruction] at h
    split at h
    · cases h
    · obtain rfl := Option.some.inj h
      exact Or.inr rfl
  | cancel id | close id | deleteHandler handler | resetWork =>
    obtain rfl := Option.some.inj h
    exact Or.inr rfl

theorem StopsLast.step {s s' : IoState Id Handler} {label : IoLabel Id} (h : StopsLast s)
    (hstep : Step setup s label s') : StopsLast s' := by
  by_cases hmain : label = .main
  · subst hmain
    cases hstep with
    | @main instruction program _ hprogram hrun =>
      have hordered : DeletesFirst (instruction :: program) := hprogram ▸ h.ordered
      obtain rfl : s'.program = program := (runInstruction_frame hrun).1
      refine ⟨hordered.tail, fun hstopped j hj => ?_⟩
      rcases ioStopped_runInstruction hrun with rfl | heq
      · exact List.rel_of_pairwise_cons hordered hj rfl
      · have hbefore : s.ioStopped = true := heq.symm.trans hstopped
        exact h.stopped hbefore j (hprogram ▸ List.mem_cons_of_mem _ hj)
  · obtain ⟨hprogram, -, hstopped⟩ := hstep.frame hmain
    refine ⟨hprogram ▸ h.ordered, ?_⟩
    rw [hprogram, hstopped]
    exact h.stopped

end IoState

namespace SiteState

variable {site : Site Id Handler Header Regex}

/-! ## The effort of the whole server -/

/-- The effort that is left in the server's threads. -/
def effort (s : SiteState site) : Nat :=
  s.io.effort site.toSetup + ∑ handler ∈ site.handlers.toFinset, (s.pool handler).effort

/-- What is left for the whole process to do; nothing, once it is dead. -/
def remaining (s : SiteState site) : Nat := if s.dead then 0 else s.effort + 1

/-- A step of the server's own: anything but the completion of an `async_accept`. -/
def Own : SiteLabel site → Prop
  | .io (.complete _ _) => False
  | _ => True

/-- A step that serves: one of the server's own, but not of the main thread. -/
def Working : SiteLabel site → Prop
  | .io (.complete _ _) | .io .main | .destroyWorkers _ | .join _ => False
  | _ => True

theorem Working.own {label : SiteLabel site} (h : Working label) : Own label := by
  cases label with
  | io label =>
    cases label with
    | complete => exact h
    | listen | deliver | callback | main => trivial
  | createWorker | dequeue | handle | handled | deleteWorker | destroyWorkers | join => trivial

/-- Whatever is called ends: `handle`, whatever the client does, and the code of the modules. -/
structure CallsEnd (site : Site Id Handler Header Regex) : Prop where
  handle : ∀ handler client, site.handleEnds handler client = true
  code : ∀ handler behaviour, site.codeEnds handler behaviour = true
  module : ∀ handler, site.moduleReturns handler = true

/-- The invariant behind the end of `stop()`. -/
structure Draining (s : SiteState site) : Prop where
  linked : Linked s
  known : IoState.Known site.toSetup s.io
  stopsLast : IoState.StopsLast s.io
  finished : ∀ handler, (s.pool handler).destroyer ≠ .notCalled → (s.pool handler).finished = true
  answered : ∀ handler i, (s.outcome handler i).isSome = true

theorem draining_start (site : Site Id Handler Header Regex) : Draining (start site) where
  linked := linked_start site
  known := IoState.known_start site.toSetup
  stopsLast := IoState.stopsLast_start site.toSetup
  finished _ h := absurd rfl h
  answered _ _ := rfl

/-- A call that ends leaves an outcome, and no other call is touched. -/
theorem isSome_runHandle {s : SiteState site} {handler : Handler}
    {i : Fin (site.workerCount handler)} {client : site.Client handler} {ticket : Nat}
    {connection : Connection Id} (hends : site.handleEnds handler client = true)
    (h : ∀ handler i, (s.outcome handler i).isSome = true) (other : Handler)
    (j : Fin (site.workerCount other)) :
    ((s.runHandle handler i client ticket connection).outcome other j).isSome = true := by
  simp only [runHandle, hends, if_true]
  by_cases hother : other = handler
  · subst hother
    rw [Function.update_self]
    by_cases hj : j = i
    · subst hj
      rw [Function.update_self]
      rfl
    · rw [Function.update_of_ne hj]
      exact h other j
  · rw [Function.update_of_ne hother]
    exact h other j

theorem Draining.step {s s' : SiteState site} {label : SiteLabel site} (hends : CallsEnd site)
    (h : Draining s) (hnext : next site s label = some s') : Draining s' where
  linked := h.linked.next hnext
  known := by
    rcases (next_eq_some hnext).2.io_eq with heq | ⟨ioLabel, hio⟩
    · rw [heq]
      exact h.known
    · exact h.known.step (IoState.next_eq_some hio).2
  stopsLast := by
    rcases (next_eq_some hnext).2.io_eq with heq | ⟨ioLabel, hio⟩
    · rw [heq]
      exact h.stopsLast
    · exact h.stopsLast.step (IoState.next_eq_some hio).2
  finished handler := by
    rcases (next_eq_some hnext).2.pool_eq handler with heq | ⟨poolLabel, hpool⟩
    · rw [heq]
      exact h.finished handler
    · exact PoolState.finished_step (PoolState.next_eq_some hpool).2 (h.finished handler)
  answered := by
    cases (next_eq_some hnext).2 with
    | io | enqueue | lost | inside => exact h.answered
    | handle => exact isSome_runHandle (hends.handle _ _) h.answered

/-- The threads of one handler go on. -/
theorem effort_setPool (s : SiteState site) {handler : Handler} (hhandler : handler ∈ site.handlers)
    (pool : PoolState (Connection Id) (site.workerCount handler)) :
    (s.setPool handler pool).effort + (s.pool handler).effort = s.effort + pool.effort := by
  have hupdate : (fun other => ((s.setPool handler pool).pool other).effort)
      = Function.update (fun other => (s.pool other).effort) handler pool.effort := by
    funext other
    by_cases hne : other = handler
    · subst hne
      rw [setPool_pool_self, Function.update_self]
    · rw [setPool_pool_of_ne s hne, Function.update_of_ne hne]
  have hsum := sum_update_add (List.mem_toFinset.mpr hhandler)
    (fun other => (s.pool other).effort) pool.effort
  rw [← hupdate] at hsum
  beta_reduce at hsum
  show s.io.effort site.toSetup
    + ∑ other ∈ site.handlers.toFinset, ((s.setPool handler pool).pool other).effort + _ = _
  unfold effort
  omega

/-- An exception that ends one of a handler's threads ends the process. -/
theorem dead_of_pool {s : SiteState site} {handler : Handler} (hhandler : handler ∈ site.handlers)
    (h : (s.pool handler).terminated = true) : s.dead = true := by
  rw [dead, terminated, List.any_eq_true.mpr ⟨handler, hhandler, h⟩, Bool.or_true, Bool.true_or]

theorem dead_of_io {s : SiteState site} (h : s.io.terminated = true) : s.dead = true := by
  rw [dead, terminated, h, Bool.true_or, Bool.true_or]

/-- **Every step of its own uses up some of the server's effort**, unless it ends the process. -/
theorem effort_step {s s' : SiteState site} {label : SiteLabel site} (h : Draining s)
    (hown : Own label) (hnext : next site s label = some s') :
    s'.dead = true ∨ s'.effort < s.effort := by
  cases (next_eq_some hnext).2 with
  | @io label io hio hquiet hdeletes =>
    have hnetwork : ∀ id completion, label ≠ .complete id completion := by
      rintro id completion rfl
      exact hown
    rcases IoState.effort_step h.known (IoState.next_eq_some hio).2 hnetwork with hterm | hless
    · exact Or.inl (dead_of_io hterm)
    · exact Or.inr (Nat.add_lt_add_right hless _)
  | @enqueue callback forbidden io pool hio hcurrent hstage hmem hpool =>
    refine Or.inr ?_
    have hgiven := IoState.effort_enqueue hio hcurrent hstage
    have htaken : pool.effort = (s.pool (site.handlerOf callback.listener)).effort + 3 := by
      cases (PoolState.next_eq_some hpool).2 with
      | enqueue socket =>
        simp only [PoolState.effort, List.length_append, List.length_singleton]
        omega
    have hsum := effort_setPool s (h.known.handlers _ hmem) pool
    have heffort : ∀ t : SiteState site, t.effort
        = t.io.effort site.toSetup + ∑ handler ∈ site.handlers.toFinset, (t.pool handler).effort :=
      fun _ => rfl
    rw [heffort (s.setPool _ pool), heffort s] at hsum
    show io.effort site.toSetup + ∑ handler ∈ site.handlers.toFinset,
      ((s.setPool (site.handlerOf callback.listener) pool).pool handler).effort < _
    have hio : (s.setPool (site.handlerOf callback.listener) pool).io = s.io := rfl
    rw [hio] at hsum
    rw [heffort s]
    omega
  | lost => exact Or.inl (by simp [dead])
  | @inside _ handler poolLabel pool _ hmem hinside hpool =>
    have hhandler := h.known.handlers handler hmem
    have hsum := effort_setPool s hhandler pool
    rcases PoolState.effort_step (PoolState.next_eq_some hpool).2 with hterm | hless | ⟨⟨_, rfl⟩, -⟩
    · exact Or.inl (dead_of_pool hhandler (by rw [setPool_pool_self]; exact hterm))
    · exact Or.inr (by omega)
    · exact hinside.elim
  | @handle handler i client ticket connection pool hmem hworker hpool =>
    have hhandler := h.known.handlers handler hmem
    have hsum := effort_setPool s hhandler pool
    rcases PoolState.effort_step (PoolState.next_eq_some hpool).2 with hterm | hless | ⟨⟨_, heq⟩, -⟩
    · refine Or.inl (dead_of_pool hhandler ?_)
      show ((s.setPool handler pool).pool handler).terminated = true
      rw [setPool_pool_self]
      exact hterm
    · refine Or.inr ?_
      show (s.setPool handler pool).effort < s.effort
      omega
    · cases heq

/-! ## Progress -/

/-- A thread of a handler that is not deleted goes on. -/
theorem exists_movePool {s : SiteState site} {handler : Handler} (hmem : handler ∈ s.io.handlers)
    {poolLabel : PoolLabel (site.code handler).Behaviour (Connection Id)
      (site.workerCount handler)}
    (h : ∃ pool, PoolState.next (site.code handler) (s.pool handler) poolLabel = some pool) :
    ∃ s', s.movePool handler poolLabel = some s' := by
  obtain ⟨pool, hpool⟩ := h
  exact ⟨_, movePool_eq_some.mpr ⟨hmem, pool, hpool, rfl⟩⟩

/-- When the main thread is done with the destructor of a handler, no connection of that handler is
    queued or being looked at. -/
def DeletesIdle (s : SiteState site) : SiteLabel site → Prop
  | .io label => IoState.DeletesIdle site.toSetup s.io label
  | _ => True

instance (s : SiteState site) (label : SiteLabel site) : Decidable (DeletesIdle s label) :=
  match label with
  | .io label => inferInstanceAs (Decidable (IoState.DeletesIdle site.toSetup s.io label))
  | .createWorker _ _ _ | .dequeue _ _ | .handle _ _ _ | .handled _ _ | .deleteWorker _ _ _
  | .destroyWorkers _ | .join _ => inferInstanceAs (Decidable True)

/-- Only `delete` deletes a handler. -/
theorem deletesIdle_of_ne {s : SiteState site} {label : SiteLabel site} (h : label ≠ .io .main) :
    DeletesIdle s label := by
  cases label with
  | io label =>
    cases label with
    | listen | complete | deliver | callback => trivial
    | main => exact absurd rfl h
  | createWorker | dequeue | handle | handled | deleteWorker | destroyWorkers | join => trivial

/-- Some thread of the server can take a step, and none need delete a handler under a connection. -/
def Goes (s : SiteState site) : Prop :=
  ∃ label s', Own label ∧ DeletesIdle s label ∧ next site s label = some s'

/-- Some thread other than the main thread can. -/
def Works (s : SiteState site) : Prop := ∃ label s', Working label ∧ next site s label = some s'

theorem Works.goes {s : SiteState site} (h : Works s) : s.Goes := by
  obtain ⟨label, s', hworking, hnext⟩ := h
  refine ⟨label, s', hworking.own, deletesIdle_of_ne ?_, hnext⟩
  rintro rfl
  exact hworking

/-- A worker's thread goes on, unless it has ended or has nothing to wait for. -/
theorem works_of_worker {s : SiteState site} (hends : CallsEnd site) (h : Draining s)
    (halive : s.dead = false) {handler : Handler}
    (hmem : handler ∈ s.io.handlers) (hpool : (s.pool handler).terminated = false)
    (i : Fin (site.workerCount handler)) (hrunning : (s.pool handler).worker i ≠ .ended)
    (hready : (s.pool handler).worker i = .waiting →
      (s.pool handler).queue ≠ [] ∨ (s.pool handler).finished = true) : s.Works := by
  obtain ⟨⟨behaviour⟩, ⟨client⟩⟩ := site.behaves handler
  cases hworker : (s.pool handler).worker i with
  | starting =>
    obtain ⟨s', hs'⟩ := exists_movePool hmem
      (PoolState.exists_createWorker hpool hworker behaviour)
    exact ⟨.createWorker handler i behaviour, s', trivial, by
      simp [next, halive, hends.code handler behaviour, hs']⟩
  | waiting =>
    obtain ⟨s', hs'⟩ := exists_movePool hmem
      (PoolState.exists_dequeue hpool hworker (hready hworker))
    exact ⟨.dequeue handler i, s', trivial, by simp [next, halive, hs']⟩
  | dequeued ticket connection =>
    obtain ⟨s', hs'⟩ := exists_movePool hmem
      ⟨_, show PoolState.next _ _ (.handle i) = some _ by
        simp only [PoolState.next, hpool, hworker]; rfl⟩
    exact ⟨.handle handler i client, s'.runHandle handler i client ticket connection, trivial,
      by simp [next, halive, hworker, hs']⟩
  | handling =>
    obtain ⟨outcome, houtcome⟩ := Option.isSome_iff_exists.mp (h.answered handler i)
    obtain ⟨s', hs'⟩ := exists_movePool hmem
      ⟨_, show PoolState.next _ _ (.handled i outcome) = some _ by
        simp only [PoolState.next, hpool, hworker]; rfl⟩
    exact ⟨.handled handler i, s', trivial, by simp [next, halive, houtcome, hs']⟩
  | leaving =>
    obtain ⟨s', hs'⟩ := exists_movePool hmem
      (PoolState.exists_deleteWorker hpool hworker behaviour)
    exact ⟨.deleteWorker handler i behaviour, s', trivial, by
      simp [next, halive, hends.code handler behaviour, hs']⟩
  | ended => exact absurd hworker hrunning

/-- The io thread has not ended the process, while it is alive. -/
theorem io_alive {s : SiteState site} (halive : s.dead = false) : s.io.terminated = false := by
  refine Bool.eq_false_iff.mpr fun hterm => ?_
  cases halive.symm.trans (dead_of_io hterm)

/-- Nor have the threads of a handler that is set up. -/
theorem pool_alive {s : SiteState site} (halive : s.dead = false) {handler : Handler}
    (hhandler : handler ∈ site.handlers) : (s.pool handler).terminated = false := by
  refine Bool.eq_false_iff.mpr fun hterm => ?_
  cases halive.symm.trans (dead_of_pool hhandler hterm)

/-- The destructor of a handler goes on, or has returned. -/
theorem goes_of_deleting {s : SiteState site} (hends : CallsEnd site) (h : Draining s)
    (halive : s.dead = false) {handler : Handler} (hdeleting : s.deleting = some handler)
    (hmem : handler ∈ s.io.handlers) (hrunning : (s.pool handler).destroyer ≠ .returned) :
    s.Goes := by
  have hpool := pool_alive halive (h.known.handlers handler hmem)
  cases hdestroyer : (s.pool handler).destroyer with
  | notCalled =>
    obtain ⟨s', hs'⟩ := exists_movePool hmem
      ⟨_, show PoolState.next _ _ .destroyWorkers = some _ by
        simp only [PoolState.next, hpool, hdestroyer]; rfl⟩
    exact ⟨.destroyWorkers handler, s', trivial, trivial, by simp [next, halive, hdeleting, hs']⟩
  | joining index =>
    by_cases hended : ∀ hindex : index < site.workerCount handler,
        (s.pool handler).worker ⟨index, hindex⟩ = .ended
    · obtain ⟨s', hs'⟩ := exists_movePool hmem
        (PoolState.exists_join hpool hdestroyer hended)
      exact ⟨.join handler, s', trivial, trivial, by simp [next, halive, hdeleting, hs']⟩
    · obtain ⟨hindex, hworker⟩ := not_forall.mp hended
      have hfinished := h.finished handler (by rw [hdestroyer]; exact nofun)
      exact (works_of_worker hends h halive hmem hpool ⟨index, hindex⟩ hworker
        fun _ => Or.inr hfinished).goes
  | returned => exact absurd hdestroyer hrunning

/-- `accept` goes on. -/
theorem works_of_current {s : SiteState site} (h : Draining s) (halive : s.dead = false)
    {callback : Callback Id} (hcurrent : s.io.current = some callback) : s.Works := by
  have hterm := io_alive halive
  have hio : IoState.next site.toSetup s.io .callback
      = some (s.io.runCallback site.toSetup callback) := by
    simp [IoState.next, hterm, hcurrent]
  have hworks : ∀ t, s.enqueue callback = some t → s.Works := by
    intro t ht
    exact ⟨.io .callback, { t with io := s.io.runCallback site.toSetup callback }, trivial,
      by simp [next, halive, moveIo, hio, hcurrent, ht]⟩
  cases hstage : callback.stage with
  | asyncAccept | isForbidden => exact hworks s (by simp only [SiteState.enqueue, hstage])
  | enqueue forbidden =>
    by_cases hmem : site.handlerOf callback.listener ∈ s.io.handlers
    · have hpool := pool_alive halive (h.known.handlers _ hmem)
      obtain ⟨t, ht⟩ := exists_movePool hmem
        ⟨_, show PoolState.next _ _
            (.enqueue ⟨callback.listener, callback.socket, forbidden⟩) = some _ by
          simp only [PoolState.next, hpool]; rfl⟩
      exact hworks t (by simp only [SiteState.enqueue, hstage, if_pos hmem, ht])
    · exact hworks { s with undefined := true }
        (by simp only [SiteState.enqueue, hstage, if_neg hmem])

/-- The io thread delivers what is in its queue. -/
theorem works_of_queue {s : SiteState site} (halive : s.dead = false)
    (hstopped : s.io.ioStopped = false) (hcurrent : s.io.current = none)
    (hqueue : s.io.queue ≠ []) : s.Works := by
  have hterm := io_alive halive
  obtain ⟨⟨id, completion⟩, queue, hcons⟩ := List.exists_cons_of_ne_nil hqueue
  exact ⟨.io (.deliver 0), _, trivial, by
    simp only [next, halive, moveIo, IoState.next, hterm, hstopped, hcurrent, hcons]; rfl⟩

/-- The io thread has nothing to do, or it goes on. -/
theorem Draining.idle_or_works {s : SiteState site} (h : Draining s) (halive : s.dead = false)
    {handler : Handler} {program : List (Instruction Id Handler)}
    (hprogram : s.io.program = .deleteHandler handler :: program) :
    (s.io.queue = [] ∧ s.io.current = none) ∨ s.Works := by
  have hstopped : s.io.ioStopped = false := by
    refine Bool.eq_false_iff.mpr fun hstopped => ?_
    have hhead : Instruction.deleteHandler handler ∈ s.io.program := hprogram ▸ List.mem_cons_self
    exact h.stopsLast.stopped hstopped _ hhead trivial
  cases hcurrent : s.io.current with
  | some callback => exact Or.inr (works_of_current h halive hcurrent)
  | none =>
    by_cases hqueue : s.io.queue = []
    · exact Or.inl ⟨hqueue, rfl⟩
    · exact Or.inr (works_of_queue halive hstopped hcurrent hqueue)

/-- **Progress.**  Before `stop()` has returned, some thread can take a step: the main thread, or
    one it waits for. -/
theorem Draining.goes {s : SiteState site} (hends : CallsEnd site) (h : Draining s)
    (halive : s.dead = false) (hrunning : s.io.program ≠ []) : s.Goes := by
  have hterm := io_alive halive
  obtain ⟨instruction, program, hprogram⟩ := List.exists_cons_of_ne_nil hrunning
  have hdeleting : s.deleting = instruction.deletes? := by rw [deleting, hprogram]; rfl
  have hmain : ∀ io, IoState.runInstruction { s.io with program } instruction = some io →
      DeletesIdle s (.io .main) → (∀ handler, instruction.deletes? = some handler →
        (s.pool handler).destroyer = .returned) → s.Goes := by
    intro io hio hidle hdeleted
    have hnext : IoState.next site.toSetup s.io .main = some io := by
      rw [IoState.next, if_neg (by rw [hterm]; exact Bool.false_ne_true)]
      simp only [hprogram]
      exact hio
    refine ⟨.io .main, { s with io }, trivial, hidle, ?_⟩
    cases hdeletes : instruction.deletes? with
    | none => simp [next, halive, moveIo, hnext, hdeleting, hdeletes]
    | some handler =>
      simp [next, halive, moveIo, hnext, hdeleting, hdeletes, hdeleted handler hdeletes,
        hends.module handler]
  -- only a `delete` needs the io thread to be idle
  have hidle : instruction.deletes? = none → DeletesIdle s (.io .main) := by
    intro hdeletes handler hhandler
    rw [hprogram] at hhandler
    cases instruction with
    | deleteHandler handler => cases hdeletes
    | cancel | close | joinAcceptor | resetWork | stopIoService | joinIoService => cases hhandler
  cases instruction with
  | cancel id | close id | resetWork | stopIoService =>
    exact hmain _ rfl (hidle rfl) fun _ hdeletes => by cases hdeletes
  | joinAcceptor id =>
    cases hlistening : (s.io.acceptor id).listening with
    | true =>
      exact ⟨.io (.listen id), _, trivial, trivial,
        by simp only [next, halive, moveIo, IoState.next, hterm, hlistening]; rfl⟩
    | false =>
      exact hmain { s.io with program } (by simp [IoState.runInstruction, hlistening]) (hidle rfl)
        fun _ hdeletes => by cases hdeletes
  | joinIoService =>
    cases hcurrent : s.io.current with
    | some callback => exact (works_of_current h halive hcurrent).goes
    | none =>
      exact hmain { s.io with program } (by simp [IoState.runInstruction, hcurrent]) (hidle rfl)
        fun _ hdeletes => by cases hdeletes
  | deleteHandler handler =>
    by_cases hreturned : (s.pool handler).destroyer = .returned
    · rcases h.idle_or_works halive hprogram with ⟨hqueue, hcurrent⟩ | hworks
      · refine hmain _ rfl (fun handler' _ => ⟨fun c hc => ?_, fun callback hcallback => ?_⟩)
          fun handler' hhandler' => ?_
        · rw [hqueue] at hc
          cases hc
        · rw [hcurrent] at hcallback
          cases hcallback
        · obtain rfl := Option.some.inj hhandler'
          exact hreturned
      · exact hworks.goes
    · by_cases hmem : handler ∈ s.io.handlers
      · exact goes_of_deleting hends h halive hdeleting hmem hreturned
      · have hhandler := h.known.deleting _ (hprogram ▸ List.mem_cons_self) handler rfl
        exact absurd ((h.linked.alive halive handler).destroyed hhandler hmem) hreturned

/-! ## The end of `stop()` -/

/-- `stop()` has returned, or an exception has ended the process. -/
def Over (s : SiteState site) : Prop := s.io.program = [] ∨ s.terminated = true

/-- What is promised of a state: the server's own steps are bounded in number, one of them can be
    taken until it is over, and some of them lead there; and no connection has been handed to a
    deleted handler. -/
structure Ends (s : SiteState site) : Prop where
  defined : s.undefined = false
  bounded : ∀ labels t, (∀ label ∈ labels, Own label) → exec (next site) s labels = some t →
    labels.length ≤ s.effort + 1
  goes : ¬ Over s → s.Goes
  ends : ∃ labels t, (∀ label ∈ labels, Own label) ∧ StepsMeet (next site) DeletesIdle s labels ∧
    exec (next site) s labels = some t ∧ Over t

/-- Every connection there is, or can still be, has its handler. -/
structure Safe (s : SiteState site) : Prop where
  handlersAlive : IoState.HandlersAlive site.toSetup s.io
  defined : s.undefined = false

theorem safe_start (site : Site Id Handler Header Regex) : Safe (start site) where
  handlersAlive := IoState.handlersAlive_start site.toSetup
  defined := rfl

theorem Safe.step {s s' : SiteState site} {label : SiteLabel site} (h : Safe s)
    (hidle : DeletesIdle s label) (hnext : next site s label = some s') : Safe s' := by
  cases (next_eq_some hnext).2 with
  | io hio => exact ⟨IoState.handlersAlive_step h.handlersAlive hidle hio, h.defined⟩
  | enqueue hio =>
    have hcallback : IoState.DeletesIdle site.toSetup s.io .callback := trivial
    exact ⟨IoState.handlersAlive_step h.handlersAlive hcallback hio, h.defined⟩
  | lost hio hcurrent hstage hmem => exact absurd (h.handlersAlive.examined _ hcurrent) hmem
  | inside | handle => exact ⟨h.handlersAlive, h.defined⟩

theorem Draining.remaining_step {s s' : SiteState site} {label : SiteLabel site}
    (hends : CallsEnd site) (h : Draining s) (hown : Own label)
    (hnext : next site s label = some s') : Draining s' ∧ s'.remaining < s.remaining := by
  refine ⟨h.step hends hnext, ?_⟩
  have halive := (next_eq_some hnext).1
  rw [remaining, remaining, halive]
  rcases effort_step h hown hnext with hdead | hless
  · rw [if_pos hdead]
    exact Nat.succ_pos _
  · cases s'.dead with
    | true => exact Nat.succ_pos _
    | false => exact Nat.succ_lt_succ hless

/-- There is no more left to do than the effort says. -/
theorem Draining.length_le {s t : SiteState site} {labels : List (SiteLabel site)}
    (hends : CallsEnd site) (h : Draining s) (hown : ∀ label ∈ labels, Own label)
    (ht : exec (next site) s labels = some t) : labels.length ≤ s.effort + 1 := by
  have hlength := length_le_effort (fun _ _ _ h hown hnext => h.remaining_step hends hown hnext) h
    hown ht
  refine hlength.trans ?_
  rw [remaining]
  split
  · exact Nat.zero_le _
  · exact Nat.le_refl _

/-- A safe server goes on until it is over. -/
theorem Draining.goes_of_not_over {s : SiteState site} (hends : CallsEnd site) (h : Draining s)
    (hsafe : Safe s) (hover : ¬ Over s) : s.Goes := by
  rw [Over, not_or, Bool.not_eq_true] at hover
  exact h.goes hends (dead_eq_false.mpr ⟨hover.2, hsafe.defined⟩) hover.1

theorem Draining.ends {s : SiteState site} (hends : CallsEnd site) (h : Draining s)
    (hsafe : Safe s) : Ends s where
  defined := hsafe.defined
  bounded _ _ hown ht := h.length_le hends hown ht
  goes := h.goes_of_not_over hends hsafe
  ends := by
    have hkeeps : ∀ (s : SiteState site) label s', (Draining s ∧ Safe s) → Own label →
        DeletesIdle s label → next site s label = some s' →
        (Draining s' ∧ Safe s') ∧ s'.remaining < s.remaining := by
      rintro s label s' ⟨h, hsafe⟩ hown hidle hnext
      obtain ⟨h', hless⟩ := h.remaining_step hends hown hnext
      exact ⟨⟨h', hsafe.step hidle hnext⟩, hless⟩
    exact exists_exec_to hkeeps (fun _ h hover => h.1.goes_of_not_over hends h.2 hover) ⟨h, hsafe⟩

/-- **`stop()` comes to an end**, if every call of `handle` and of a module does and no handler is
    deleted under one of its connections.  Whatever has happened before, on any schedule of the
    server's own threads: they can take a bounded number of steps only, and until `stop()` has
    returned, or an exception has ended the process, one of them can always take the next. -/
theorem stop_returns (site : Site Id Handler Header Regex) (hends : CallsEnd site)
    (labels : List (SiteLabel site))
    (hidle : StepsMeet (next site) DeletesIdle (start site) labels) :
    Throughout (next site) Ends (start site) labels :=
  throughout_of_stepsMeet (fun s (h : Draining s ∧ Safe s) => h.1.ends hends h.2)
    (fun _ _ _ h hidle hnext => ⟨h.1.step hends hnext, h.2.step hidle hnext⟩)
    ⟨draining_start site, safe_start site⟩ hidle

/-- A whole life of the server with one client. -/
theorem dummySite_stop_returns : Throughout (next dummySite) Ends (start dummySite)
    [.io (.listen ()), .io (.complete () (.success (.connected (.v4 0x7f000001)))),
      .createWorker () (0 : Fin 1) (), .io (.deliver 0), .io .callback, .io .callback,
      .io .callback, .io .main, .io .main, .io .main, .destroyWorkers (), .dequeue () (0 : Fin 1),
      .handle () (0 : Fin 1) (), .handled () (0 : Fin 1), .dequeue () (0 : Fin 1),
      .deleteWorker () (0 : Fin 1) (), .join (), .join (), .io .main, .io .main, .io .main,
      .io .main] :=
  stop_returns dummySite ⟨fun _ _ => rfl, fun _ _ => rfl, fun _ => rfl⟩ _ (by decide)

/-! ## A client that sends nothing -/

/-- One of the handler's threads is in a call of `handle` that never ends. -/
structure Hung (s : SiteState site) (handler : Handler) (i : Fin (site.workerCount handler)) :
    Prop where
  linked : Linked s
  handling : (s.pool handler).worker i = .handling
  silent : s.outcome handler i = none

/-- Nobody else can end the call. -/
theorem Hung.step {s s' : SiteState site} {label : SiteLabel site} {handler : Handler}
    {i : Fin (site.workerCount handler)} (h : Hung s handler i)
    (hnext : next site s label = some s') : Hung s' handler i := by
  have hlinked := h.linked.next hnext
  have hhandling : ∀ {other : Handler} {poolLabel} {pool},
      PoolState.next (site.code other) (s.pool other) poolLabel = some pool →
      s.Inside other poolLabel ∨ (∃ c, poolLabel = .enqueue c) ∨ (∃ j, poolLabel = .handle j) →
      ((s.setPool other pool).pool handler).worker i = .handling := by
    intro other poolLabel pool hpool hlabel
    by_cases hother : handler = other
    · subst hother
      rw [setPool_pool_self]
      refine PoolState.handling_step (PoolState.next_eq_some hpool).2 h.handling ?_
      rintro outcome rfl
      rcases hlabel with hends | ⟨_, heq⟩ | ⟨_, heq⟩
      · cases h.silent.symm.trans hends
      · cases heq
      · cases heq
    · rw [setPool_pool_of_ne s hother]
      exact h.handling
  cases (next_eq_some hnext).2 with
  | io | lost => exact ⟨hlinked, h.handling, h.silent⟩
  | enqueue _ _ _ _ hpool =>
    exact ⟨hlinked, hhandling hpool (Or.inr (Or.inl ⟨_, rfl⟩)), h.silent⟩
  | inside _ _ hinside hpool => exact ⟨hlinked, hhandling hpool (Or.inl hinside), h.silent⟩
  | @handle other j client ticket connection pool _ hworker hpool =>
    refine ⟨hlinked, hhandling hpool (Or.inr (Or.inr ⟨j, rfl⟩)), ?_⟩
    show Function.update s.outcome other (Function.update (s.outcome other) j _) handler i = none
    by_cases hother : handler = other
    · subst hother
      -- the thread that calls `handle` now is another one
      have hij : i ≠ j := by
        rintro rfl
        cases h.handling.symm.trans hworker
      rw [Function.update_self, Function.update_of_ne hij]
      exact h.silent
    · rw [Function.update_of_ne hother]
      exact h.silent

/-- The destructor that joins this thread has not returned. -/
theorem Hung.program_ne_nil {s : SiteState site} {handler : Handler}
    {i : Fin (site.workerCount handler)} (h : Hung s handler i)
    (hhandler : handler ∈ site.handlers) : s.io.program ≠ [] := by
  intro hover
  obtain ⟨hended, -⟩ := h.linked.served.drained hover handler hhandler i.pos
  cases h.handling.symm.trans (hended i)

/-- **A call of `handle` that never ends keeps `stop()` for ever**, in every interleaving. -/
theorem hung_never_stops {s : SiteState site} {handler : Handler}
    {i : Fin (site.workerCount handler)} (h : Hung s handler i)
    (hhandler : handler ∈ site.handlers) (labels : List (SiteLabel site)) :
    Throughout (next site) (fun s => s.io.program ≠ []) s labels :=
  throughout_of_step (fun s (h : Hung s handler i) => h.program_ne_nil hhandler)
    (fun _ _ _ h hnext => h.step hnext) labels h

end SiteState

end ThreadServer
