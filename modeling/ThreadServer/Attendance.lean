/-
  The server while it serves.  `stop()` ends it in good order (`stop_returns`); but before that, is
  every client attended to, or can a connection lie in a queue while the threads are idle?  What is
  assumed is that every call of `handle` and of a module ends (`CallsEnd`): one that does not keeps
  its worker for ever (`Hung.step`), and with it whoever waits for that worker.

  1. **All there** (`IoState.Intact`, `Running`, `Serving`).  Until `stop()` begins, no handler has
     been deleted, so none is missed; the io thread runs, and no worker has left its loop.
  2. **At rest** (`attended_of_not_works`).  If no thread but the main thread can go on, every
     completed accept has been delivered, every accepted connection has had its session, and all
     workers wait for the next one.
  3. **Result** (`clients_attended`).  That takes a bounded number of steps, on every schedule.
-/
import ThreadServer.Drain

set_option linter.unusedSectionVars false

namespace ThreadServer

open Transition

variable {Id Handler Header Regex : Type} [DecidableEq Id] [DecidableEq Handler]

/-! ## All there -/

namespace IoState

variable {setup : Setup Id Handler}

/-- What `stop()` takes away is there until it begins. -/
structure Intact (setup : Setup Id Handler) (s : IoState Id Handler) : Prop where
  length_le : s.program.length ≤ (stopProgram setup).length
  unbegun : s.program.length = (stopProgram setup).length →
    s.handlers = setup.handlers ∧ s.ioStopped = false

theorem Intact.step {s s' : IoState Id Handler} {label : IoLabel Id} (h : Intact setup s)
    (hstep : Step setup s label s') : Intact setup s' := by
  by_cases hmain : label = .main
  · subst hmain
    have hshorter : s'.program.length < (stopProgram setup).length := by
      cases hstep with
      | main hprogram hrun =>
        have hle := h.length_le
        rw [hprogram, List.length_cons] at hle
        rw [(runInstruction_frame hrun).1]
        exact hle
    exact ⟨hshorter.le, fun heq => absurd heq hshorter.ne⟩
  · obtain ⟨hprogram, hhandlers, hstopped⟩ := hstep.frame hmain
    refine ⟨hprogram ▸ h.length_le, fun heq => ?_⟩
    rw [hhandlers, hstopped]
    exact h.unbegun (hprogram ▸ heq)

end IoState

namespace PoolState

variable {Socket : Type} {n : Nat} {code : HandlerCode}

/-- Only the destructor goes on with the destructor. -/
theorem Step.destroyer {s s' : PoolState Socket n} {label : PoolLabel code.Behaviour Socket n}
    (h : Step code s label s') (hfinish : label ≠ .destroyWorkers) (hjoin : label ≠ .join) :
    s'.destroyer = s.destroyer := by
  cases h with
  | finish => exact absurd rfl hfinish
  | joined | joinedAll => exact absurd rfl hjoin
  | enqueue | created | notCreated | dequeue | leave | handle | handled | deleted
  | notDeleted => rfl

/-- Before the destructor is called, no worker has left its loop. -/
theorem Accounted.in_loop {s : PoolState Socket n} (h : s.Accounted)
    (hcalled : s.destroyer = .notCalled) (i : Fin n) :
    s.worker i ≠ .leaving ∧ s.worker i ≠ .ended := by
  rw [← not_or]
  intro hleft
  obtain ⟨cutoff, hcutoff, -⟩ := h.left i hleft
  cases (h.notCalled hcalled).symm.trans hcutoff

/-- A pool whose workers all wait at an empty queue has handled everything. -/
theorem Accounted.handled_all {s : PoolState Socket n} (h : s.Accounted) (hqueue : s.queue = [])
    (hwaiting : ∀ i, s.worker i = .waiting) {ticket : Nat} {socket : Socket}
    (hsocket : s.enqueued[ticket]? = some socket) :
    ∃ call ∈ s.handled, call.ticket = ticket ∧ call.socket = socket := by
  have htaken : s.enqueued.length ≤ s.dequeued :=
    List.drop_eq_nil_iff.mp (h.queue.symm.trans hqueue)
  have hempty : ∀ i, s.ledger.inHand i = none := by
    intro i
    show (s.worker i).ticket? = none
    rw [hwaiting i]
    rfl
  have hlt : ticket < s.dequeued :=
    Nat.lt_of_lt_of_le (List.getElem?_eq_some_iff.mp hsocket).1 htaken
  have hcount : s.handleCount ticket = 1 := by
    rw [handleCount_eq]
    exact h.balanced.count_eq_one hempty hlt
  obtain ⟨call, hcall, hticket⟩ := List.countP_pos_iff.mp (hcount.symm ▸ Nat.one_pos)
  obtain rfl := of_decide_eq_true hticket
  exact ⟨call, hcall, rfl, Option.some.inj ((h.handled call hcall).symm.trans hsocket)⟩

end PoolState

namespace SiteState

variable {site : Site Id Handler Header Regex}

/-- `stop()` has not begun. -/
structure Running (s : SiteState site) : Prop where
  program : s.io.program = IoState.stopProgram site.toSetup
  destroyer : ∀ handler, (s.pool handler).destroyer = .notCalled

/-- The threads of one handler go on, but for its destructor. -/
theorem Running.movePool {s s' : SiteState site} (h : Running s) {handler : Handler}
    {label : PoolLabel (site.code handler).Behaviour (Connection Id) (site.workerCount handler)}
    (hmove : s.movePool handler label = some s') (hfinish : label ≠ .destroyWorkers)
    (hjoin : label ≠ .join) : Running s' := by
  obtain ⟨-, pool, hpool, rfl⟩ := movePool_eq_some.mp hmove
  refine ⟨h.program, forall_setPool (P := fun _ pool => pool.destroyer = .notCalled) ?_
    fun other _ => h.destroyer other⟩
  rw [(PoolState.next_eq_some hpool).2.destroyer hfinish hjoin]
  exact h.destroyer handler

theorem Running.moveIo {s s' : SiteState site} (h : Running s) {label : IoLabel Id}
    (hmain : label ≠ .main) (hmove : s.moveIo label = some s') : Running s' := by
  obtain ⟨io, hio, hmove⟩ := Option.bind_eq_some_iff.mp hmove
  have hprogram : io.program = IoState.stopProgram site.toSetup :=
    ((IoState.next_eq_some hio).2.frame hmain).1.trans h.program
  cases label with
  | listen | complete | deliver =>
    obtain rfl := Option.some.inj hmove
    exact ⟨hprogram, h.destroyer⟩
  | callback =>
    obtain ⟨callback, -, hmove⟩ := Option.bind_eq_some_iff.mp hmove
    obtain ⟨t, ht, hmove⟩ := Option.bind_eq_some_iff.mp hmove
    obtain rfl := Option.some.inj hmove
    refine ⟨hprogram, ?_⟩
    show ∀ handler, (t.pool handler).destroyer = .notCalled
    unfold SiteState.enqueue at ht
    split at ht
    · obtain rfl := Option.some.inj ht
      exact h.destroyer
    · obtain rfl := Option.some.inj ht
      exact h.destroyer
    · split at ht
      · exact (h.movePool ht nofun nofun).destroyer
      · obtain rfl := Option.some.inj ht
        exact h.destroyer
  | main => exact absurd rfl hmain

/-- `stop()` is begun by the main thread only. -/
theorem Running.step {s s' : SiteState site} (h : Running s) {label : SiteLabel site}
    (hworking : Working label) (hnext : next site s label = some s') : Running s' := by
  unfold next at hnext
  split at hnext
  · cases hnext
  cases label with
  | io label =>
    refine h.moveIo ?_ hnext
    rintro rfl
    exact hworking
  | dequeue => exact h.movePool hnext nofun nofun
  | createWorker | deleteWorker =>
    dsimp only at hnext
    split at hnext
    · exact h.movePool hnext nofun nofun
    · cases hnext
  | handled =>
    obtain ⟨_, -, hmove⟩ := Option.bind_eq_some_iff.mp hnext
    exact h.movePool hmove nofun nofun
  | handle handler i client =>
    dsimp only at hnext
    split at hnext
    · obtain ⟨t, ht, rfl⟩ := Option.map_eq_some_iff.mp hnext
      have hrunning := h.movePool ht nofun nofun
      exact ⟨hrunning.program, hrunning.destroyer⟩
    all_goals cases hnext
  | destroyWorkers | join => exact hworking.elim

/-! ## At rest -/

/-- **Nobody is left waiting**: every completed accept has been delivered, every connection accepted
    for a handler has had its session there, and the workers wait for the next one. -/
structure Attended (s : SiteState site) : Prop where
  delivered : s.io.queue = []
  served : ∀ handler ∈ site.handlers, 0 < site.workerCount handler → ∀ ticket c,
    (acceptedFor site handler s.io.accepted)[ticket]? = some c →
    ∃ x ∈ s.sessions, x.handler = handler ∧ x.ticket = ticket ∧
      (x.connection.listener, x.connection.socket) = c
  waiting : ∀ handler ∈ site.handlers, ∀ i, (s.pool handler).worker i = .waiting

/-- The invariant of a server and its io thread: until `stop()` begins, no connection misses its
    handler. -/
structure Serving (s : SiteState site) : Prop where
  draining : Draining s
  intact : IoState.Intact site.toSetup s.io
  safe : s.io.program.length = (IoState.stopProgram site.toSetup).length → Safe s

/-- Only the main thread shortens what is left of `stop()`. -/
theorem length_program_step {s s' : SiteState site} {label : SiteLabel site}
    (hnext : next site s label = some s') :
    s'.io.program.length ≤ s.io.program.length ∧
      (label = .io .main → s'.io.program.length < s.io.program.length) := by
  have hio : ∀ {ioLabel}, IoState.next site.toSetup s.io ioLabel = some s'.io →
      s'.io.program.length ≤ s.io.program.length ∧
        (ioLabel = .main → s'.io.program.length < s.io.program.length) := by
    intro ioLabel hio
    rcases (IoState.next_eq_some hio).2.program with ⟨hmain, heq⟩ | ⟨_, heq, -⟩
    · rw [heq]
      exact ⟨Nat.le_refl _, fun h => absurd h hmain⟩
    · rw [heq]
      exact ⟨Nat.le_succ _, fun _ => Nat.lt_succ_self _⟩
  cases (next_eq_some hnext).2 with
  | @io ioLabel io h => exact ⟨(hio h).1, fun heq => (hio h).2 (SiteLabel.io.inj heq)⟩
  | enqueue h | lost h => exact ⟨(hio h).1, fun heq => (hio h).2 (SiteLabel.io.inj heq)⟩
  | inside hlabel => exact ⟨Nat.le_refl _, fun heq => absurd heq (hlabel .main)⟩
  | handle => exact ⟨Nat.le_refl _, fun heq => by cases heq⟩

theorem Serving.step {s s' : SiteState site} {label : SiteLabel site} (hends : CallsEnd site)
    (h : Serving s) (hnext : next site s label = some s') : Serving s' where
  draining := h.draining.step hends hnext
  intact := by
    rcases (next_eq_some hnext).2.io_eq with heq | ⟨ioLabel, hio⟩
    · rw [heq]
      exact h.intact
    · exact h.intact.step (IoState.next_eq_some hio).2
  safe hunbegun := by
    obtain ⟨hle, hshorter⟩ := length_program_step hnext
    have hbefore := h.intact.length_le
    have hmain : label ≠ .io .main := by
      intro heq
      have hless := hshorter heq
      omega
    exact (h.safe (by omega)).step (deletesIdle_of_ne hmain) hnext

variable {s : SiteState site}

/-- All that has been accepted has been passed on, if `accept` is not running. -/
theorem Linked.accepted_eq (h : Linked s) (halive : s.dead = false)
    (hcurrent : s.io.current = none) (handler : Handler) :
    acceptedFor site handler s.io.accepted =
      (s.pool handler).enqueued.map fun c => (c.listener, c.socket) := by
  have hterm := io_alive halive
  obtain ⟨thrown, hordered, hthrown⟩ := h.decided.ordered
  obtain rfl := hthrown hterm
  have hexamining : s.io.examining = [] := by
    rw [IoState.examining, hcurrent]
    rfl
  rw [hexamining, List.append_nil, List.append_nil] at hordered
  rw [hordered, (h.alive halive handler).arrived]
  exact acceptedFor_passed handler s.io.enqueued

/-- **At rest everybody has been attended to.** -/
theorem attended_of_not_works (hends : CallsEnd site) (h : Serving s) (hrunning : Running s)
    (halive : s.dead = false) (hrest : ¬ s.Works) : Attended s := by
  obtain ⟨hhandlers, hstopped⟩ := h.intact.unbegun (congrArg List.length hrunning.program)
  have hcurrent : s.io.current = none := by
    refine Option.eq_none_iff_forall_ne_some.mpr fun callback hcallback => hrest ?_
    exact works_of_current h.draining halive hcallback
  have hwaiting : ∀ handler ∈ site.handlers, ∀ i, (s.pool handler).worker i = .waiting := by
    intro handler hmem i
    have hpool := (h.draining.linked.alive halive handler).accounted
    by_contra hbusy
    exact hrest (works_of_worker hends h.draining halive (hhandlers ▸ hmem) (pool_alive halive hmem)
      i (hpool.in_loop (hrunning.destroyer handler) i).2 fun hwaits => absurd hwaits hbusy)
  refine ⟨by_contra fun hqueue => hrest (works_of_queue halive hstopped hcurrent hqueue), ?_,
    hwaiting⟩
  intro handler hmem hworkers ticket c hc
  have hlinked := h.draining.linked.alive halive handler
  -- A worker waits, so there is nothing for it to take.
  have hqueue : (s.pool handler).queue = [] := by
    by_contra hqueue
    have hfirst := hwaiting handler hmem ⟨0, hworkers⟩
    refine hrest (works_of_worker hends h.draining halive (hhandlers ▸ hmem)
      (pool_alive halive hmem) ⟨0, hworkers⟩ (by rw [hfirst]; exact nofun) fun _ => Or.inl hqueue)
  rw [h.draining.linked.accepted_eq halive hcurrent, List.getElem?_map] at hc
  obtain ⟨connection, hconnection, rfl⟩ := Option.map_eq_some_iff.mp hc
  obtain ⟨call, hcall, rfl, rfl⟩ :=
    hlinked.accounted.handled_all hqueue (hwaiting handler hmem) hconnection
  have hmem : (call.ticket, call.socket) ∈ calls handler s.sessions := by
    rw [hlinked.called]
    exact List.mem_map_of_mem hcall
  obtain ⟨x, hx, hhandler, hticket, hsocket⟩ := mem_calls.mp hmem
  exact ⟨x, hx, hhandler, hticket, by rw [hsocket]⟩

/-! ## The result -/

/-- What is promised before `stop()`: the threads that serve can take a bounded number of steps
    only; as long as somebody waits one of them can be taken; and they lead to where nobody does, if
    no exception ends the process. -/
structure Attends (s : SiteState site) : Prop where
  bounded : ∀ labels t, (∀ label ∈ labels, Working label) → exec (next site) s labels = some t →
    labels.length ≤ s.effort + 1
  works : Running s → s.terminated = false → ¬ Attended s → s.Works
  attends : Running s → ∃ labels t, (∀ label ∈ labels, Working label) ∧
    exec (next site) s labels = some t ∧ (t.terminated = true ∨ Attended t)

/-- Somebody waits only where a thread can go on. -/
theorem Serving.works (hends : CallsEnd site) (h : Serving s) (hrunning : Running s)
    (halive : s.terminated = false) (hunattended : ¬ Attended s) : s.Works := by
  have hsafe : Safe s := h.safe (congrArg List.length hrunning.program)
  by_contra hrest
  refine hunattended (attended_of_not_works hends h hrunning ?_ hrest)
  exact dead_eq_false.mpr ⟨halive, hsafe.defined⟩

theorem Serving.attends (hends : CallsEnd site) (h : Serving s) : Attends s where
  bounded labels t hworking ht :=
    h.draining.length_le hends (fun label hmem => (hworking label hmem).own) ht
  works := h.works hends
  attends hrunning := by
    have hkeeps : ∀ (s : SiteState site) label s', (Serving s ∧ Running s) → Working label →
        True → next site s label = some s' →
        (Serving s' ∧ Running s') ∧ s'.remaining < s.remaining := by
      rintro s label s' ⟨hserving, hrunning⟩ hworking - hnext
      exact ⟨⟨hserving.step hends hnext, hrunning.step hworking hnext⟩,
        (hserving.draining.remaining_step hends hworking.own hnext).2⟩
    have hprogress : ∀ s : SiteState site, Serving s ∧ Running s →
        ¬ (s.terminated = true ∨ Attended s) →
        ∃ label s', Working label ∧ True ∧ next site s label = some s' := by
      rintro s ⟨hserving, hrunning⟩ hgoal
      rw [not_or, Bool.not_eq_true] at hgoal
      obtain ⟨label, s', hworking, hnext⟩ := hserving.works hends hrunning hgoal.1 hgoal.2
      exact ⟨label, s', hworking, trivial, hnext⟩
    obtain ⟨labels, t, hworking, -, ht, hgoal⟩ :=
      exists_exec_to (C := fun _ _ => True) hkeeps hprogress ⟨h, hrunning⟩
    exact ⟨labels, t, hworking, ht, hgoal⟩

end SiteState

end ThreadServer
