/-
  What a connection meets on its way through the whole server, in every interleaving.

  1. **The io thread** (`Decided`).  Connections are enqueued in the order they were accepted, each
     with its listener's decision.
  2. **The link** (`Linked`).  The queue of a handler has received exactly the connections the io
     thread enqueued for it, and the sessions of a handler are the calls of `handle` its pool knows.
     Every kind of step keeps that (`Linked.step`), since a step of one part is a step of its own
     system (`refines_io`, `refines_pool`).
  3. **Service** (`served_throughout`).  Every session is one accepted connection at the handler
     its listener points to, with the listener's decision; no connection has two sessions; and when
     `stop()` has returned, the connections that were enqueued before a handler's destructor called
     `finish()` have all had theirs.
  4. **Access** (`served_permitted`).  A client gets something out of an HTTP or FRPC handler only
     if an allowed network contains its address.
-/
import ThreadServer.Site

set_option linter.unusedSectionVars false

namespace ThreadServer

open Transition

variable {Id Handler Header Regex : Type} [DecidableEq Id] [DecidableEq Handler]

/-! ## The io thread -/

namespace IoState

variable {setup : Setup Id Handler}

/-- The accepted connections that the io thread has passed on. -/
def passed (s : IoState Id Handler) : List (Id × Socket) :=
  s.enqueued.map fun e => (e.listener, e.socket)

/-- The accepted connection that `accept` is looking at. -/
def examining (s : IoState Id Handler) : List (Id × Socket) :=
  (s.current.map fun callback => (callback.listener, callback.socket)).toList

/-- What the io thread knows about the connections.  Only the one whose `isForbidden` has thrown is
    neither passed on nor looked at. -/
structure Decided (setup : Setup Id Handler) (s : IoState Id Handler) : Prop where
  ordered : ∃ thrown, s.accepted = s.passed ++ s.examining ++ thrown ∧
    (s.terminated = false → thrown = [])
  examined : ∀ callback ∈ s.current, ∀ forbidden, callback.stage = .enqueue forbidden →
    (setup.listener callback.listener).isForbidden callback.socket = .ok forbidden
  flagged : ∀ e ∈ s.enqueued, (setup.listener e.listener).isForbidden e.socket = .ok e.forbidden
  remaining : ∀ handler ∈ s.handlers, .deleteHandler handler ∈ s.program

theorem decided_start (setup : Setup Id Handler) : Decided setup (start setup) where
  ordered := ⟨[], rfl, fun _ => rfl⟩
  examined _ h := nomatch h
  flagged _ h := nomatch h
  remaining handler hmem := by
    refine List.mem_append_left _ (List.mem_append_right _ ?_)
    exact List.mem_map.mpr ⟨handler, hmem, rfl⟩

/-- A step that leaves the connections and the handlers alone. -/
theorem Decided.frame {s s' : IoState Id Handler} (h : Decided setup s)
    (haccepted : s'.accepted = s.accepted) (henqueued : s'.enqueued = s.enqueued)
    (hcurrent : s'.current = s.current) (hterminated : s'.terminated = s.terminated)
    (hremaining : ∀ handler ∈ s'.handlers, .deleteHandler handler ∈ s'.program) :
    Decided setup s' where
  ordered := by
    rw [passed, examining, haccepted, henqueued, hcurrent, hterminated]
    exact h.ordered
  examined := by
    rw [hcurrent]
    exact h.examined
  flagged := by
    rw [henqueued]
    exact h.flagged
  remaining := hremaining

/-- Only `delete` removes a handler. -/
theorem handlers_runInstruction {s s' : IoState Id Handler} {instruction : Instruction Id Handler}
    (h : runInstruction s instruction = some s') :
    ∀ handler ∈ s'.handlers, handler ∈ s.handlers ∧ instruction ≠ .deleteHandler handler := by
  cases instruction with
  | joinAcceptor id | joinIoService =>
    simp only [runInstruction] at h
    split at h
    · cases h
    · obtain rfl := Option.some.inj h
      exact fun handler hmem => ⟨hmem, fun heq => by cases heq⟩
  | cancel id | close id | resetWork | stopIoService =>
    obtain rfl := Option.some.inj h
    exact fun handler hmem => ⟨hmem, fun heq => by cases heq⟩
  | deleteHandler deleted =>
    obtain rfl := Option.some.inj h
    intro handler hmem
    obtain ⟨hmem, hne⟩ := List.mem_filter.mp hmem
    refine ⟨hmem, fun heq => ?_⟩
    rw [Instruction.deleteHandler.inj heq] at hne
    exact of_decide_eq_true hne rfl

/-- **Step lemma of the io thread.** -/
theorem Decided.step {s s' : IoState Id Handler} {label : IoLabel Id} (h : Decided setup s)
    (halive : s.terminated = false) (hstep : Step setup s label s') : Decided setup s' := by
  obtain ⟨thrown, hordered, hthrown⟩ := h.ordered
  obtain rfl := hthrown halive
  rw [List.append_nil] at hordered
  cases hstep with
  | @listen id hlistening =>
    refine h.frame (asyncAccept_accepted _ _) (asyncAccept_enqueued _ _) (asyncAccept_current _ _)
      (asyncAccept_terminated _ _) ?_
    rw [asyncAccept_handlers, asyncAccept_program]
    exact h.remaining
  | complete => exact h.frame rfl rfl rfl rfl h.remaining
  | @deliver position id completion hio hidle hqueue =>
    cases completion with
    | success socket =>
      refine ⟨⟨[], ?_, fun _ => rfl⟩, ?_, h.flagged, h.remaining⟩
      · have hexamining : s.examining = [] := by rw [examining, hidle]; rfl
        rw [hexamining, List.append_nil] at hordered
        show s.accepted ++ [(id, socket)] = s.passed ++ [(id, socket)] ++ []
        rw [hordered, List.append_nil]
      · intro callback hcallback forbidden hstage
        obtain rfl := Option.some.inj hcallback
        cases hstage
    | error code =>
      simp only [accept]
      split
      · exact h.frame rfl rfl rfl rfl h.remaining
      · exact h.frame rfl rfl rfl rfl h.remaining
  | @callback callback hcurrent =>
    obtain ⟨id, socket, stage⟩ := callback
    have hexamining : s.examining = [(id, socket)] := by rw [examining, hcurrent]; rfl
    rw [hexamining] at hordered
    cases stage with
    | asyncAccept =>
      refine ⟨⟨[], ?_, fun _ => rfl⟩, ?_, ?_, ?_⟩
      · show (s.asyncAccept id).accepted
          = (s.asyncAccept id).enqueued.map _ ++ [(id, socket)] ++ []
        rw [asyncAccept_accepted, asyncAccept_enqueued, hordered, List.append_nil]
        rfl
      · intro callback hcallback forbidden hstage
        obtain rfl := Option.some.inj hcallback
        cases hstage
      · show ∀ e ∈ (s.asyncAccept id).enqueued, _
        rw [asyncAccept_enqueued]
        exact h.flagged
      · show ∀ handler ∈ (s.asyncAccept id).handlers, _ ∈ (s.asyncAccept id).program
        rw [asyncAccept_handlers, asyncAccept_program]
        exact h.remaining
    | isForbidden =>
      cases hdecision : (setup.listener id).isForbidden socket with
      | ok forbidden =>
        simp only [runCallback, hdecision]
        refine ⟨⟨[], ?_, fun _ => rfl⟩, ?_, h.flagged, h.remaining⟩
        · rw [List.append_nil]
          exact hordered
        · intro callback hcallback forbidden' hstage
          obtain rfl := Option.some.inj hcallback
          rw [hdecision, Stage.enqueue.inj hstage]
      | error e =>
        simp only [runCallback, hdecision]
        refine ⟨⟨[(id, socket)], ?_, fun hfalse => (Bool.noConfusion hfalse)⟩,
          fun _ hcallback => absurd hcallback (Option.not_mem_none _), h.flagged, h.remaining⟩
        show s.accepted = s.passed ++ [] ++ [(id, socket)]
        rw [hordered, List.append_nil]
    | enqueue forbidden =>
      refine ⟨⟨[], ?_, fun _ => rfl⟩, fun _ hcallback => absurd hcallback (Option.not_mem_none _),
        fun e he => ?_, h.remaining⟩
      · show s.accepted = (s.enqueued ++ [_]).map _ ++ [] ++ []
        rw [hordered, List.map_append, List.append_nil, List.append_nil]
        rfl
      · rcases List.mem_append.mp he with he | he
        · exact h.flagged e he
        · obtain rfl := List.mem_singleton.mp he
          exact h.examined _ hcurrent forbidden rfl
  | @main instruction program _ hprogram hrun =>
    obtain ⟨hprogram', hcurrent, hterminated, haccepted, henqueued⟩ := runInstruction_frame hrun
    refine h.frame haccepted henqueued hcurrent hterminated fun handler hmem => ?_
    obtain ⟨hmem, hne⟩ := handlers_runInstruction hrun handler hmem
    have hin : Instruction.deleteHandler handler ∈ instruction :: program :=
      hprogram ▸ h.remaining handler hmem
    rw [hprogram']
    exact (List.mem_cons.mp hin).resolve_left (Ne.symm hne)

end IoState

namespace SiteState

variable {site : Site Id Handler Header Regex}

/-! ## The parts -/

/-- Seen from the listeners, every step is a step of their threads, or none. -/
theorem Step.io_eq {s s' : SiteState site} {label : SiteLabel site} (h : Step site s label s') :
    s'.io = s.io ∨ ∃ label, IoState.next site.toSetup s.io label = some s'.io := by
  cases h with
  | io hio => exact Or.inr ⟨_, hio⟩
  | enqueue hio => exact Or.inr ⟨.callback, hio⟩
  | lost hio => exact Or.inr ⟨.callback, hio⟩
  | inside | handle => exact Or.inl rfl

/-- Seen from the listeners, a run of the server is a run of their threads. -/
theorem refines_io : Refines (next site) (IoState.next site.toSetup) SiteState.io :=
  fun _ _ _ h => (next_eq_some h).2.io_eq

/-- Seen from one handler, every step is a step of its threads, or none. -/
theorem Step.pool_eq {s s' : SiteState site} {label : SiteLabel site} (h : Step site s label s')
    (handler : Handler) :
    s'.pool handler = s.pool handler ∨
      ∃ label, PoolState.next (site.code handler) (s.pool handler) label
        = some (s'.pool handler) := by
  have hset : ∀ {other : Handler} {label} {pool}, PoolState.next (site.code other) (s.pool other)
      label = some pool → (s.setPool other pool).pool handler = s.pool handler ∨
      ∃ label, PoolState.next (site.code handler) (s.pool handler) label
        = some ((s.setPool other pool).pool handler) := by
    intro other label pool hpool
    by_cases hother : handler = other
    · subst hother
      rw [setPool_pool_self]
      exact Or.inr ⟨label, hpool⟩
    · rw [setPool_pool_of_ne s hother]
      exact Or.inl rfl
  cases h with
  | io | lost => exact Or.inl rfl
  | enqueue _ _ _ _ hpool => exact hset hpool
  | inside _ _ _ hpool => exact hset hpool
  | handle _ _ hpool => exact hset hpool

/-- Seen from one handler, a run of the server is a run of its pool. -/
theorem refines_pool (handler : Handler) :
    Refines (next site) (PoolState.next (site.code handler)) (fun s => s.pool handler) :=
  fun _ _ _ h => (next_eq_some h).2.pool_eq handler

/-! ## The link -/

/-- The connections of one handler, among those the io thread has passed on. -/
def arrivals (site : Site Id Handler Header Regex) (handler : Handler)
    (enqueued : List (Enqueued Id)) : List (Connection Id) :=
  (enqueued.filter fun e => site.handlerOf e.listener = handler).map fun e =>
    ⟨e.listener, e.socket, e.forbidden⟩

/-- The sessions of one handler: the tickets and the connections. -/
def calls (handler : Handler) (sessions : List (Session Id Handler)) :
    List (Nat × Connection Id) :=
  (sessions.filter fun x => x.handler = handler).map fun x => (x.ticket, x.connection)

theorem arrivals_append (handler : Handler) (enqueued : List (Enqueued Id)) (e : Enqueued Id) :
    arrivals site handler (enqueued ++ [e])
      = arrivals site handler enqueued ++
        if site.handlerOf e.listener = handler then [⟨e.listener, e.socket, e.forbidden⟩]
        else [] := by
  rw [arrivals, List.filter_append, List.map_append, ← arrivals]
  by_cases h : site.handlerOf e.listener = handler
  · rw [if_pos h, List.filter_cons_of_pos (by simpa using h)]
    rfl
  · rw [if_neg h, List.filter_cons_of_neg (by simpa using h)]
    rfl

theorem calls_append (handler : Handler) (sessions : List (Session Id Handler))
    (x : Session Id Handler) :
    calls handler (sessions ++ [x]) = calls handler sessions ++
      if x.handler = handler then [(x.ticket, x.connection)] else [] := by
  rw [calls, List.filter_append, List.map_append, ← calls]
  by_cases h : x.handler = handler
  · rw [if_pos h, List.filter_cons_of_pos (by simpa using h)]
    rfl
  · rw [if_neg h, List.filter_cons_of_neg (by simpa using h)]
    rfl

/-- The classes of a handler's workers look at `forbidden`: it is no dummy handler. -/
def Checks (site : Site Id Handler Header Regex) (handler : Handler) : Prop :=
  ∀ client io, site.worker handler client ≠ .dummy io

/-- One handler's pool and the rest of the server agree: what has reached the pool's queue, what its
    workers have passed to `handle`, and whether its destructor has run. -/
structure PoolLinked (site : Site Id Handler Header Regex) (reached : List (Enqueued Id))
    (sessions : List (Session Id Handler)) (handlers : List Handler) (handler : Handler)
    (pool : PoolState (Connection Id) (site.workerCount handler)) : Prop where
  accounted : pool.Accounted
  arrived : pool.enqueued = arrivals site handler reached
  called : calls handler sessions = pool.handled.map fun call => (call.ticket, call.socket)
  destroyed : handler ∈ site.handlers → handler ∉ handlers → pool.destroyer = .returned

/-- **The invariant of the whole server.**  Only a connection for a deleted handler is lost, and
    that is the last thing that is known. -/
structure Linked (s : SiteState site) : Prop where
  decided : IoState.Decided site.toSetup s.io
  pools : ∃ reached lost, s.io.enqueued = reached ++ lost ∧ (s.undefined = false → lost = []) ∧
    ∀ handler, PoolLinked site reached s.sessions s.io.handlers handler (s.pool handler)
  refused : ∀ x ∈ s.sessions, Checks site x.handler → x.connection.forbidden = true →
    ∀ e ∈ x.events, e.serves = false

theorem linked_start (site : Site Id Handler Header Regex) : Linked (start site) where
  decided := IoState.decided_start site.toSetup
  pools := by
    refine ⟨[], [], rfl, fun _ => rfl, fun handler => ⟨PoolState.accounted_start, rfl, rfl, ?_⟩⟩
    intro hmem hgone
    exact absurd hmem hgone
  refused _ h := nomatch h

/-- A server that is alive has lost no connection. -/
theorem Linked.alive {s : SiteState site} (h : Linked s) (halive : s.dead = false) :
    ∀ handler, PoolLinked site s.io.enqueued s.sessions s.io.handlers handler (s.pool handler) := by
  obtain ⟨reached, lost, heq, hlost, hpools⟩ := h.pools
  obtain rfl := hlost (dead_eq_false.mp halive).2
  rw [List.append_nil] at heq
  rw [heq]
  exact hpools

/-- What a step inside a pool leaves alone. -/
theorem pool_inside {s : SiteState site} {handler : Handler}
    {label : PoolLabel (site.code handler).Behaviour (Connection Id) (site.workerCount handler)}
    {pool : PoolState (Connection Id) (site.workerCount handler)} (hinside : s.Inside handler label)
    (h : PoolState.next (site.code handler) (s.pool handler) label = some pool) :
    pool.enqueued = (s.pool handler).enqueued ∧ pool.handled = (s.pool handler).handled := by
  cases (PoolState.next_eq_some h).2 with
  | enqueue socket => exact hinside.elim
  | handle => exact hinside.elim
  | created | notCreated | dequeue | leave | handled | deleted | notDeleted | finish | joined
  | joinedAll => exact ⟨rfl, rfl⟩

/-- A destructor that has returned is never entered again. -/
theorem pool_returned {code : HandlerCode} {n : Nat} {pool pool' : PoolState (Connection Id) n}
    {label : PoolLabel code.Behaviour (Connection Id) n}
    (h : PoolState.next code pool label = some pool') (hreturned : pool.destroyer = .returned) :
    pool'.destroyer = .returned := by
  cases (PoolState.next_eq_some h).2 with
  | finish hcalled => cases hreturned.symm.trans hcalled
  | joined _ hjoining => cases hreturned.symm.trans hjoining
  | joinedAll hjoining => cases hreturned.symm.trans hjoining
  | enqueue | created | notCreated | dequeue | leave | handle | handled | deleted | notDeleted =>
    exact hreturned

/-- Every class that looks at `forbidden` refuses. -/
theorem handle_refused {worker : HandlerWorker Header Regex} (hclass : ∀ io, worker ≠ .dummy io)
    (socket : SocketWork) (hforbidden : socket.forbidden = true) (s : WorkerState) :
    Refused s (worker.handle socket s).2 := by
  cases worker with
  | cppHttp w io =>
    show Refused s (w.handle io socket s).2
    rw [Worker.handle, if_pos hforbidden]
    exact forbidden_refused io s
  | cppFrpc serve io =>
    show Refused s (CppFrpcHandler.handle serve io socket s).2
    rw [CppFrpcHandler.handle, if_pos hforbidden]
    exact CppFrpcHandler.forbidden_refused io s
  | dummy io => exact absurd rfl (hclass io)

/-- A step of the threads the `IoState` knows by which no connection reaches a handler. -/
theorem enqueued_of_quiet {s : SiteState site} {label : IoLabel Id} {io : IoState Id Handler}
    (hio : IoState.next site.toSetup s.io label = some io)
    (hquiet : label = .callback → ∀ callback ∈ s.io.current, ∀ f, callback.stage ≠ .enqueue f) :
    io.enqueued = s.io.enqueued := by
  cases (IoState.next_eq_some hio).2 with
  | listen => exact IoState.asyncAccept_enqueued _ _
  | complete => rfl
  | @deliver position id completion =>
    cases completion with
    | success socket => rfl
    | error code =>
      simp only [IoState.accept]
      split <;> rfl
  | @callback callback hcurrent =>
    unfold IoState.runCallback
    cases hstage : callback.stage with
    | asyncAccept => exact IoState.asyncAccept_enqueued _ _
    | isForbidden => dsimp only; split <;> rfl
    | enqueue forbidden => exact absurd hstage (hquiet rfl callback hcurrent forbidden)
  | main hprogram hrun => exact (IoState.runInstruction_frame hrun).2.2.2.2

/-- The step by which a connection does. -/
theorem enqueued_of_enqueue {s : SiteState site} {io : IoState Id Handler} {callback : Callback Id}
    {forbidden : Bool} (hio : IoState.next site.toSetup s.io .callback = some io)
    (hcurrent : s.io.current = some callback) (hstage : callback.stage = .enqueue forbidden) :
    (∃ alive, io.enqueued
      = s.io.enqueued ++ [⟨callback.listener, callback.socket, forbidden, alive⟩]) ∧
      io.handlers = s.io.handlers := by
  cases (IoState.next_eq_some hio).2 with
  | @callback callback' hcurrent' =>
    obtain rfl := Option.some.inj (hcurrent.symm.trans hcurrent')
    unfold IoState.runCallback
    rw [hstage]
    exact ⟨⟨_, rfl⟩, rfl⟩

/-- The handlers that are left after a step of these threads. -/
theorem mem_handlers_of_step {s : SiteState site} {label : IoLabel Id} {io : IoState Id Handler}
    (hio : IoState.next site.toSetup s.io label = some io) {handler : Handler}
    (hmem : handler ∈ s.io.handlers) :
    handler ∈ io.handlers ∨ (label = .main ∧ s.deleting = some handler) := by
  cases (IoState.next_eq_some hio).2 with
  | listen =>
    rw [IoState.asyncAccept_handlers]
    exact Or.inl hmem
  | complete => exact Or.inl hmem
  | @deliver position id completion =>
    refine Or.inl ?_
    cases completion with
    | success socket => exact hmem
    | error code =>
      simp only [IoState.accept]
      split <;> exact hmem
  | @callback callback hcurrent =>
    refine Or.inl ?_
    unfold IoState.runCallback
    cases hstage : callback.stage with
    | asyncAccept =>
      show handler ∈ (s.io.asyncAccept callback.listener).handlers
      rw [IoState.asyncAccept_handlers]
      exact hmem
    | isForbidden => dsimp only; split <;> exact hmem
    | enqueue forbidden => exact hmem
  | @main instruction program _ hprogram hrun =>
    have hdeleting : s.deleting = instruction.deletes? := by rw [deleting, hprogram]; rfl
    rw [hdeleting]
    cases instruction with
    | joinAcceptor id | joinIoService =>
      simp only [IoState.runInstruction] at hrun
      split at hrun
      · cases hrun
      · obtain rfl := Option.some.inj hrun
        exact Or.inl hmem
    | cancel id | close id | resetWork | stopIoService =>
      obtain rfl := Option.some.inj hrun
      exact Or.inl hmem
    | deleteHandler deleted =>
      obtain rfl := Option.some.inj hrun
      by_cases hne : handler = deleted
      · subst hne
        exact Or.inr ⟨rfl, rfl⟩
      · exact Or.inl (List.mem_filter.mpr ⟨hmem, decide_eq_true hne⟩)

/-- A connection reaches its handler. -/
theorem PoolLinked.enqueue {s : SiteState site} {e : Enqueued Id} {handlers : List Handler}
    {pool : PoolState (Connection Id) (site.workerCount (site.handlerOf e.listener))}
    (h : ∀ handler,
      PoolLinked site s.io.enqueued s.sessions handlers handler (s.pool handler))
    (hmem : site.handlerOf e.listener ∈ handlers)
    (hpool : PoolState.next (site.code (site.handlerOf e.listener))
      (s.pool (site.handlerOf e.listener)) (.enqueue ⟨e.listener, e.socket, e.forbidden⟩)
      = some pool) (handler : Handler) :
    PoolLinked site (s.io.enqueued ++ [e]) s.sessions handlers handler
      ((s.setPool (site.handlerOf e.listener) pool).pool handler) := by
  obtain ⟨henqueued, hhandled⟩ : pool.enqueued
      = (s.pool (site.handlerOf e.listener)).enqueued ++ [⟨e.listener, e.socket, e.forbidden⟩] ∧
      pool.handled = (s.pool (site.handlerOf e.listener)).handled := by
    cases (PoolState.next_eq_some hpool).2 with
    | enqueue => exact ⟨rfl, rfl⟩
  refine forall_setPool (P := PoolLinked site (s.io.enqueued ++ [e]) s.sessions handlers) ?_ ?_
    handler
  · refine ⟨(h _).accounted.next hpool, ?_, ?_, fun _ hgone => absurd hmem hgone⟩
    · rw [henqueued, (h _).arrived, arrivals_append, if_pos rfl]
    · rw [hhandled]
      exact (h _).called
  · intro other hne
    refine ⟨(h other).accounted, ?_, (h other).called, (h other).destroyed⟩
    rw [(h other).arrived, arrivals_append, if_neg (Ne.symm hne), List.append_nil]

/-- A thread of a handler goes on inside its pool. -/
theorem PoolLinked.inside {s : SiteState site} {handler : Handler}
    {label : PoolLabel (site.code handler).Behaviour (Connection Id) (site.workerCount handler)}
    {pool : PoolState (Connection Id) (site.workerCount handler)} {reached : List (Enqueued Id)}
    (h : ∀ other, PoolLinked site reached s.sessions s.io.handlers other (s.pool other))
    (hinside : s.Inside handler label)
    (hpool : PoolState.next (site.code handler) (s.pool handler) label = some pool) :
    PoolLinked site reached s.sessions s.io.handlers handler pool := by
  obtain ⟨henqueued, hhandled⟩ := pool_inside hinside hpool
  refine ⟨(h handler).accounted.next hpool, henqueued.trans (h handler).arrived, ?_, ?_⟩
  · rw [hhandled]
    exact (h handler).called
  · intro hhandler hgone
    exact pool_returned hpool ((h handler).destroyed hhandler hgone)

/-- A worker passes its connection to the `handle` of its class. -/
theorem PoolLinked.handle {s : SiteState site} {x : Session Id Handler}
    {i : Fin (site.workerCount x.handler)}
    {pool : PoolState (Connection Id) (site.workerCount x.handler)} {reached : List (Enqueued Id)}
    (h : ∀ other, PoolLinked site reached s.sessions s.io.handlers other (s.pool other))
    (hworker : (s.pool x.handler).worker i = .dequeued x.ticket x.connection)
    (hpool : PoolState.next (site.code x.handler) (s.pool x.handler) (.handle i) = some pool)
    (handler : Handler) :
    PoolLinked site reached (s.sessions ++ [x]) s.io.handlers handler
      ((s.setPool x.handler pool).pool handler) := by
  obtain ⟨henqueued, hhandled⟩ : pool.enqueued = (s.pool x.handler).enqueued ∧
      pool.handled = (s.pool x.handler).handled ++ [⟨i, x.ticket, x.connection⟩] := by
    cases (PoolState.next_eq_some hpool).2 with
    | handle hworker' =>
      obtain ⟨hticket, hconnection⟩ := WorkerPhase.dequeued.inj (hworker.symm.trans hworker')
      rw [hticket, hconnection]
      exact ⟨rfl, rfl⟩
  refine forall_setPool (P := PoolLinked site reached (s.sessions ++ [x]) s.io.handlers) ?_ ?_
    handler
  · refine ⟨(h _).accounted.next hpool, henqueued.trans (h _).arrived, ?_, ?_⟩
    · rw [hhandled, calls_append, if_pos rfl, (h _).called, List.map_append]
      rfl
    · intro hhandler hgone
      exact pool_returned hpool ((h _).destroyed hhandler hgone)
  · intro other hne
    refine ⟨(h other).accounted, (h other).arrived, ?_, (h other).destroyed⟩
    rw [calls_append, if_neg (Ne.symm hne), List.append_nil]
    exact (h other).called

/-- **Every step keeps the invariant.** -/
theorem Linked.step {s s' : SiteState site} {label : SiteLabel site} (h : Linked s)
    (halive : s.dead = false) (hstep : Step site s label s') : Linked s' := by
  obtain ⟨reached, lost, heq, hlost, hpools⟩ := h.pools
  have hall := h.alive halive
  cases hstep with
  | io hio hquiet hdeletes =>
    obtain ⟨hterminated, hstep⟩ := IoState.next_eq_some hio
    refine ⟨h.decided.step hterminated hstep, ⟨reached, lost, ?_, hlost, fun handler => ?_⟩,
      h.refused⟩
    · exact (enqueued_of_quiet hio hquiet).trans heq
    · refine ⟨(hpools handler).accounted, (hpools handler).arrived, (hpools handler).called, ?_⟩
      intro hhandler hgone
      by_cases hmem : handler ∈ s.io.handlers
      · rcases mem_handlers_of_step hio hmem with hmem | ⟨hmain, hdeleting⟩
        · exact absurd hmem hgone
        · exact hdeletes hmain handler hdeleting
      · exact (hpools handler).destroyed hhandler hmem
  | @enqueue callback forbidden io pool hio hcurrent hstage hmem hpool =>
    obtain ⟨hterminated, hstep⟩ := IoState.next_eq_some hio
    obtain ⟨⟨alive, henqueued⟩, hhandlers⟩ := enqueued_of_enqueue hio hcurrent hstage
    refine ⟨h.decided.step hterminated hstep, ⟨io.enqueued, [], (List.append_nil _).symm,
      fun _ => rfl, fun handler => ?_⟩, h.refused⟩
    show PoolLinked site io.enqueued s.sessions io.handlers handler _
    rw [henqueued, hhandlers]
    exact PoolLinked.enqueue hall hmem hpool handler
  | lost hio hcurrent hstage hmem =>
    obtain ⟨hterminated, hstep⟩ := IoState.next_eq_some hio
    obtain ⟨⟨alive, henqueued⟩, hhandlers⟩ := enqueued_of_enqueue hio hcurrent hstage
    refine ⟨h.decided.step hterminated hstep, ⟨_, _, henqueued, nofun, fun handler => ?_⟩,
      h.refused⟩
    show PoolLinked site _ s.sessions _ handler _
    rw [hhandlers]
    exact hall handler
  | inside _ _ hinside hpool =>
    refine ⟨h.decided, ⟨reached, lost, heq, hlost, ?_⟩, h.refused⟩
    exact forall_setPool (P := PoolLinked site reached s.sessions s.io.handlers)
      (PoolLinked.inside hpools hinside hpool) fun other _ => hpools other
  | @handle handler i client ticket connection pool hmem hworker hpool =>
    refine ⟨h.decided, ⟨reached, lost, heq, hlost, ?_⟩, ?_⟩
    · exact PoolLinked.handle (x := ⟨handler, ticket, connection, _⟩) hpools hworker hpool
    · intro x hx hchecks hforbidden e he
      rcases List.mem_append.mp hx with hx | hx
      · exact h.refused x hx hchecks hforbidden e he
      · obtain rfl := List.mem_singleton.mp hx
        have hrefused := handle_refused (hchecks client) ⟨ticket, connection.forbidden⟩ hforbidden
          ⟨s.work handler i, []⟩
        obtain ⟨events, hevents, hserves⟩ := hrefused
        have hmem : e ∈ ([] : List Event) ++ events := hevents ▸ he
        exact hserves e hmem

theorem Linked.next {s s' : SiteState site} {label : SiteLabel site} (h : Linked s)
    (hnext : next site s label = some s') : Linked s' :=
  h.step (next_eq_some hnext).1 (next_eq_some hnext).2

/-! ## Service -/

/-- The connections accepted for one handler, in their order. -/
def acceptedFor (site : Site Id Handler Header Regex) (handler : Handler)
    (accepted : List (Id × Socket)) : List (Id × Socket) :=
  accepted.filter fun c => site.handlerOf c.1 = handler

/-- What the server owes to the connections it accepts. -/
structure Served (s : SiteState site) : Prop where
  /-- A session is about the connection its ticket names among those accepted for its handler, and
      has the decision of the connection's listener. -/
  own : ∀ x ∈ s.sessions,
    (acceptedFor site x.handler s.io.accepted)[x.ticket]?
      = some (x.connection.listener, x.connection.socket) ∧
    (site.listener x.connection.listener).isForbidden x.connection.socket
      = .ok x.connection.forbidden
  /-- No connection has two sessions. -/
  once : (s.sessions.map fun x => (x.handler, x.ticket)).Nodup
  /-- When `stop()` has returned, the threads of every handler have ended, and what was enqueued
      before its destructor called `finish()` has had its session. -/
  drained : s.io.program = [] → ∀ handler ∈ site.handlers, 0 < site.workerCount handler →
    (∀ i, (s.pool handler).worker i = .ended) ∧
    ∃ cutoff, (s.pool handler).cutoff = some cutoff ∧
      ∀ ticket < cutoff, ∃ x ∈ s.sessions, x.handler = handler ∧ x.ticket = ticket

theorem mem_calls {handler : Handler} {sessions : List (Session Id Handler)} {ticket : Nat}
    {connection : Connection Id} :
    (ticket, connection) ∈ calls handler sessions ↔
      ∃ x ∈ sessions, x.handler = handler ∧ x.ticket = ticket ∧ x.connection = connection := by
  simp only [calls, List.mem_map, List.mem_filter, decide_eq_true_eq, Prod.mk.injEq, and_assoc]

/-- The sessions are told apart by the handler and the ticket as soon as those of each handler are
    told apart by the ticket. -/
theorem nodup_sessions {sessions : List (Session Id Handler)}
    (h : ∀ handler, ((calls handler sessions).map Prod.fst).Nodup) :
    (sessions.map fun x => (x.handler, x.ticket)).Nodup := by
  rw [List.nodup_iff_count_le_one]
  rintro ⟨handler, ticket⟩
  have hcount := List.nodup_iff_count_le_one.mp (h handler) ticket
  rw [calls, List.map_map, List.count_eq_countP, List.countP_map, List.countP_filter] at hcount
  rw [List.count_eq_countP, List.countP_map]
  refine le_of_eq_of_le (List.countP_congr fun x _ => ?_) hcount
  simp only [Function.comp_apply, beq_iff_eq, Prod.mk.injEq, Bool.and_eq_true, decide_eq_true_eq]
  exact and_comm

/-- The connections of a handler among those passed on are those that reach its queue. -/
theorem acceptedFor_passed (handler : Handler) (enqueued : List (Enqueued Id)) :
    acceptedFor site handler (enqueued.map fun e => (e.listener, e.socket))
      = (arrivals site handler enqueued).map fun c => (c.listener, c.socket) := by
  rw [acceptedFor, List.filter_map, arrivals, List.map_map]
  rfl

/-- What has reached a handler's queue was accepted for it, in the same order. -/
theorem Linked.acceptedFor_eq {s : SiteState site} (h : Linked s)
    {reached lost : List (Enqueued Id)} (heq : s.io.enqueued = reached ++ lost)
    (handler : Handler) :
    ∃ later, acceptedFor site handler s.io.accepted
      = (arrivals site handler reached).map (fun c => (c.listener, c.socket)) ++ later := by
  obtain ⟨thrown, hordered, -⟩ := h.decided.ordered
  refine ⟨acceptedFor site handler
    (lost.map (fun e => (e.listener, e.socket)) ++ s.io.examining ++ thrown), ?_⟩
  rw [← acceptedFor_passed, hordered, IoState.passed, heq, List.map_append]
  simp only [acceptedFor, List.filter_append, List.append_assoc]

theorem Linked.served {s : SiteState site} (h : Linked s) : Served s where
  own x hx := by
    obtain ⟨reached, lost, heq, -, hpools⟩ := h.pools
    have hpool := hpools x.handler
    have hcall : (x.ticket, x.connection) ∈ calls x.handler s.sessions :=
      mem_calls.mpr ⟨x, hx, rfl, rfl, rfl⟩
    rw [hpool.called] at hcall
    obtain ⟨call, hcall, hx⟩ := List.mem_map.mp hcall
    obtain ⟨hticket, hconnection⟩ := Prod.mk.inj hx
    have hget := hpool.accounted.handled call hcall
    rw [hpool.arrived, hticket, hconnection] at hget
    obtain ⟨later, hlater⟩ := h.acceptedFor_eq heq x.handler
    constructor
    · rw [hlater, List.getElem?_append_left, List.getElem?_map, hget]
      · rfl
      · rw [List.length_map]
        exact (List.getElem?_eq_some_iff.mp hget).1
    · obtain ⟨e, he, heq'⟩ := List.mem_map.mp (List.mem_of_getElem? hget)
      have hmem : e ∈ s.io.enqueued := heq ▸ List.mem_append_left lost (List.mem_filter.mp he).1
      rw [← heq']
      exact h.decided.flagged e hmem
  once := by
    obtain ⟨reached, lost, -, -, hpools⟩ := h.pools
    refine nodup_sessions fun handler => ?_
    have hnodup := (hpools handler).accounted.balanced.nodup
    rw [Ledger.numbers, PoolState.ledger, List.map_map] at hnodup
    rw [(hpools handler).called, List.map_map]
    exact hnodup
  drained hstopped handler hhandler hworkers := by
    obtain ⟨reached, lost, -, -, hpools⟩ := h.pools
    have hgone : handler ∉ s.io.handlers := by
      intro hmem
      have hremaining := h.decided.remaining handler hmem
      rw [hstopped] at hremaining
      cases hremaining
    have hreturned := (hpools handler).destroyed hhandler hgone
    obtain ⟨hended, cutoff, hcutoff, hall⟩ :=
      ((hpools handler).accounted.delivered hworkers).drained hreturned
    refine ⟨hended, cutoff, hcutoff, fun ticket hticket => ?_⟩
    have hpos : 0 < (s.pool handler).handleCount ticket := by
      rw [hall ticket hticket]
      exact Nat.one_pos
    obtain ⟨call, hcall, hnumber⟩ := List.countP_pos_iff.mp hpos
    have hmem : (call.ticket, call.socket) ∈ calls handler s.sessions := by
      rw [(hpools handler).called]
      exact List.mem_map_of_mem hcall
    obtain ⟨x, hx, hxhandler, hxticket, -⟩ := mem_calls.mp hmem
    exact ⟨x, hx, hxhandler, hxticket.trans (of_decide_eq_true hnumber)⟩

/-- **Service.**  In every interleaving of the listeners, the workers and `stop()`, whatever clients
    send and methods throw, the server keeps what it owes to the connections it accepts. -/
theorem served_throughout (site : Site Id Handler Header Regex) (labels : List (SiteLabel site)) :
    Throughout (next site) Served (start site) labels :=
  throughout_of_step (fun _ h => h.served) (fun _ _ _ h hnext => h.next hnext) labels
    (linked_start site)

/-- One listener, and a dummy handler with one worker. -/
def dummySite : Site Unit Unit Unit Unit where
  toSetup := oneListener
  workerCount _ := 1
  code _ := dummyCode (Bytes.str "dummy")
  Client _ := Unit
  worker _ _ := .dummy completeHead
  handleEnds _ _ := true
  codeEnds _ _ := true
  moduleReturns _ := true
  behaves _ := ⟨⟨()⟩, ⟨()⟩⟩

/-- One client, whose connection is still in the queue when `stop()` begins. -/
example : (exec (next dummySite) (start dummySite)
    [.io (.listen ()), .io (.complete () (.success (.connected (.v4 0x7f000001)))),
      .createWorker () (0 : Fin 1) (), .io (.deliver 0), .io .callback, .io .callback,
      .io .callback, .io .main, .io .main, .io .main, .destroyWorkers (), .dequeue () (0 : Fin 1),
      .handle () (0 : Fin 1) (), .handled () (0 : Fin 1), .dequeue () (0 : Fin 1),
      .deleteWorker () (0 : Fin 1) (), .join (), .join (), .io .main, .io .main, .io .main,
      .io .main]).map (fun s => (s.io.program.length, s.sessions.map Session.events))
    = some (0, [[.send helloWorld]]) := by
  decide

/-! ## Access -/

/-- The listener lets the connection's client through: it is an IPv4 client, an allowed network
    contains its address, and with `allow,deny` no denied one does. -/
def Permitted (site : Site Id Handler Header Regex) (connection : Connection Id) : Prop :=
  ∃ first address, connection.socket.endpoint = .ok (.v4 first) ∧
    connection.socket.endpointAgain = .ok (.v4 address) ∧
    Listener.Covers (site.listener connection.listener).allowedNetworks address ∧
    ((site.listener connection.listener).allowFirst = true →
      ¬ Listener.Covers (site.listener connection.listener).deniedNetworks address)

/-- Whoever gets something out of a handler that looks at the flag is permitted. -/
def ServesPermitted (s : SiteState site) : Prop :=
  ∀ x ∈ s.sessions, Checks site x.handler → (∃ e ∈ x.events, e.serves = true) →
    Permitted site x.connection

/-- **Access.**  In every interleaving, an HTTP or FRPC handler calls a method for a client, or
    begins to send it a success, only if the listener that accepted the connection permits the
    client. -/
theorem served_permitted (site : Site Id Handler Header Regex) (labels : List (SiteLabel site)) :
    Throughout (next site) ServesPermitted (start site) labels := by
  refine throughout_of_step (fun s (h : Linked s) x hx hchecks hserved => ?_)
    (fun _ _ _ h hnext => h.next hnext) labels (linked_start site)
  obtain ⟨e, he, hserves⟩ := hserved
  have hdecision := (h.served.own x hx).2
  cases hforbidden : x.connection.forbidden with
  | true =>
    have hrefused := h.refused x hx hchecks hforbidden e he
    cases hrefused.symm.trans hserves
  | false =>
    rw [hforbidden] at hdecision
    obtain ⟨first, address, hfirst, hagain, hpermits⟩ :=
      Listener.isForbidden_eq_false_iff.mp hdecision
    exact ⟨first, address, hfirst, hagain, Listener.forbids_eq_false_iff.mp hpermits⟩

end SiteState

end ThreadServer
