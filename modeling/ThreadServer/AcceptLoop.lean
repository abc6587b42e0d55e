/-
  The accept loop over a whole run: does a listener keep listening, and does the thread that serves
  all listeners stay alive?

  1. **Re-arming** (`outstanding_eq_one_iff`).  An `async_accept` is outstanding from its start
     until its completion is handed to `accept`: it is pending with the operating system or queued.
     The success branch of `accept` starts the next one, the error branch does not.  So, until its
     listener is stopped, the count is kept at one (`armed_step`) by every step but the delivery of
     an error, which lowers it (`deliver_error_disarms`).

  2. **Exceptions** (`accept_contained_iff`).  `isForbidden` asks the socket for its peer with the
     throwing overload of `remote_endpoint()`, and nothing up to the thread function catches.  And
     `accept` calls `enqueue` on the listener's handler without asking whether `stop()` has deleted
     it.  Every connection reaches its handler with its flag decided, and the thread lives, exactly
     when every connection whose peer is asked for still has one, and every connection that is
     passed on finds its handler.

  Both invariants count what is in flight, so each step lemma is a case analysis on
  `IoState.Step` and arithmetic.
-/
import ThreadServer.IoService
import Mathlib.Data.List.Perm.Basic

set_option linter.unusedSectionVars false

namespace ThreadServer

/-- The listener whose `Listener_t::stop` a statement of `stop()` belongs to. -/
def Instruction.listener? {Id Handler : Type} : Instruction Id Handler → Option Id
  | .cancel id | .close id | .joinAcceptor id => some id
  | .deleteHandler _ | .resetWork | .stopIoService | .joinIoService => none

namespace IoState

open Transition

variable {Id Handler : Type} [DecidableEq Id]

/-! ## Counting what is outstanding -/

/-- The completions of one listener in the queue. -/
def queued (s : IoState Id Handler) (id : Id) : Nat := s.queue.countP fun c => c.1 = id

/-- The `async_accept` operations of one listener that `accept` has not been called for. -/
def outstanding (s : IoState Id Handler) (id : Id) : Nat := (s.acceptor id).pending + s.queued id

/-- `accept` is running for the listener and has not started the next operation yet. -/
def rearming (s : IoState Id Handler) (id : Id) : Bool :=
  s.current.any fun callback => callback.listener = id ∧ callback.stage = .asyncAccept

/-- Everything that is, or is about to become, an outstanding operation of the listener. -/
def armed (s : IoState Id Handler) (id : Id) : Nat :=
  s.outstanding id + (s.acceptor id).listening.toNat + (s.rearming id).toNat

/-- Taking a completion off the queue. -/
theorem countP_eraseIdx {s : IoState Id Handler} {position : Nat} {id : Id}
    {completion : Completion} (h : s.queue[position]? = some (id, completion)) (id' : Id) :
    (s.queue.eraseIdx position).countP (fun c => c.1 = id') + (if id' = id then 1 else 0)
      = s.queued id' := by
  obtain ⟨hlt, hget⟩ := List.getElem?_eq_some_iff.mp h
  rw [queued, ← (List.getElem_cons_eraseIdx_perm hlt).countP_eq, hget, List.countP_cons]
  by_cases hid : id' = id
  · simp [hid]
  · simp [hid, Ne.symm hid]

/-- Starting an accept adds one outstanding operation, whether or not the acceptor is open. -/
theorem outstanding_asyncAccept (s : IoState Id Handler) (id id' : Id) :
    (s.asyncAccept id).outstanding id' = s.outstanding id' + if id' = id then 1 else 0 := by
  unfold asyncAccept
  split
  · by_cases hid : id' = id
    · subst hid
      simp only [outstanding, queued, setAcceptor, Function.update_self, if_pos]
      omega
    · simp [outstanding, queued, setAcceptor, hid]
  · by_cases hid : id' = id
    · simp [outstanding, queued, hid]
      omega
    · simp [outstanding, queued, hid, Ne.symm hid]

@[simp] theorem asyncAccept_listening (s : IoState Id Handler) (id id' : Id) :
    ((s.asyncAccept id).acceptor id').listening = (s.acceptor id').listening := by
  unfold asyncAccept
  split
  · by_cases hid : id' = id
    · subst hid
      simp [setAcceptor]
    · simp [setAcceptor, hid]
  · rfl

@[simp] theorem rearming_asyncAccept (s : IoState Id Handler) (id id' : Id) :
    (s.asyncAccept id).rearming id' = s.rearming id' := by
  rw [rearming, rearming, asyncAccept_current]

variable {setup : Setup Id Handler}

/-! ## The order of `stop()` -/

/-- `Listener_t::stop` of this listener is still to come: its first statement has not been executed
    yet. -/
def Serving (s : IoState Id Handler) (id : Id) : Prop := .cancel id ∈ s.program

/-- No statement of `Listener_t::stop` comes before the first one of the same listener. -/
def StopsInOrder (program : List (Instruction Id Handler)) : Prop :=
  program.Pairwise fun earlier later => ∀ id, earlier.listener? = some id → later ≠ .cancel id

/-- `stop()` stops one listener after another. -/
theorem stopsInOrder_stopProgram (setup : Setup Id Handler) :
    StopsInOrder (stopProgram setup) := by
  have hcancel : ∀ i ∈ setup.handlers.map .deleteHandler
      ++ [.resetWork, .stopIoService, .joinIoService], ∀ id,
      (i : Instruction Id Handler) ≠ .cancel id := by
    intro i hi id
    rcases List.mem_append.mp hi with hi | hi
    · obtain ⟨handler, -, rfl⟩ := List.mem_map.mp hi
      exact nofun
    · simp only [List.mem_cons, List.not_mem_nil, or_false] at hi
      rcases hi with rfl | rfl | rfl <;> exact nofun
  have hstop : ∀ id, ∀ i ∈ [Instruction.cancel id, .close id, .joinAcceptor id],
      (i : Instruction Id Handler).listener? = some id := by
    intro id i hi
    simp only [List.mem_cons, List.not_mem_nil, or_false] at hi
    rcases hi with rfl | rfl | rfl <;> rfl
  rw [StopsInOrder, stopProgram, List.append_assoc]
  refine List.pairwise_append.mpr ⟨List.pairwise_flatMap.mpr ⟨fun id _ => ?_, ?_⟩, ?_, ?_⟩
  · simp
  · refine setup.listeners_nodup.imp fun {first second} hne i hi j hj id hid heq => ?_
    subst heq
    have hfirst := Option.some.inj ((hstop first i hi).symm.trans hid)
    have hsecond := Option.some.inj ((hstop second _ hj).symm.trans rfl)
    exact hne (hfirst.trans hsecond.symm)
  · apply List.pairwise_of_forall_mem_list
    intro i _ j hj id _
    exact hcancel j hj id
  · intro i _ j hj id _
    exact hcancel j hj id

/-! ## Re-arming -/

/-- Until it is stopped, a listener whose accept thread has made its call and for which `accept` is
    not running has exactly one `async_accept` outstanding. -/
def OneOutstanding (s : IoState Id Handler) : Prop :=
  ∀ id, s.Serving id → (s.acceptor id).listening = false →
    (∀ callback ∈ s.current, callback.listener ≠ id) → s.outstanding id = 1

/-- A completion that is delivered to a listener not stopped yet is not an error. -/
def DeliversSuccess (s : IoState Id Handler) : IoLabel Id → Prop
  | .deliver position => ∀ id code, s.queue[position]? = some (id, .error code) → ¬ s.Serving id
  | _ => True

/-- The invariant: until it is stopped, one operation is armed for every listener. -/
structure ArmedOnce (s : IoState Id Handler) : Prop where
  ordered : StopsInOrder s.program
  armed_eq : ∀ id, s.Serving id → s.armed id = 1

theorem armedOnce_start (setup : Setup Id Handler) : ArmedOnce (start setup) := by
  refine ⟨stopsInOrder_stopProgram setup, fun id hserving => ?_⟩
  have hid : id ∈ setup.listeners := by
    simpa [Serving, start, stopProgram] using hserving
  simp [armed, outstanding, queued, rearming, start, hid]

theorem oneOutstanding_of_armedOnce {s : IoState Id Handler} (h : s.ArmedOnce) :
    s.OneOutstanding := by
  intro id hserving hlistening hidle
  have harmed := h.armed_eq id hserving
  have hrearming : s.rearming id = false := by
    rw [rearming, Option.any_eq_false_iff_get]
    intro hsome
    have hother := hidle (s.current.get hsome) (Option.get_mem hsome)
    simp [hother]
  rw [armed, hlistening, hrearming] at harmed
  simpa using harmed

variable [DecidableEq Handler]

/-- A statement of `stop()` that is not about a listener leaves it armed as it was. -/
theorem armed_runInstruction {s s' : IoState Id Handler} {instruction : Instruction Id Handler}
    {id' : Id} (h : runInstruction s instruction = some s')
    (hne : instruction.listener? ≠ some id') : s'.armed id' = s.armed id' := by
  cases instruction with
  | cancel id | close id =>
    obtain rfl := Option.some.inj h
    have hid : id' ≠ id := by
      rintro rfl
      exact hne rfl
    simp [armed, outstanding, queued, rearming, setAcceptor, canceled, hid, Ne.symm hid,
      List.countP_replicate]
  | joinAcceptor id | joinIoService =>
    simp only [runInstruction] at h
    split at h
    · cases h
    · obtain rfl := Option.some.inj h
      rfl
  | deleteHandler handler | resetWork | stopIoService =>
    obtain rfl := Option.some.inj h
    rfl

/-- **Step lemma**: a step that delivers no error keeps every listener armed once. -/
theorem armed_step {s s' : IoState Id Handler} {label : IoLabel Id} (h : s.ArmedOnce)
    (hC : s.DeliversSuccess label) (hnext : next setup s label = some s') : s'.ArmedOnce := by
  have hstep := (next_eq_some hnext).2
  rcases hstep.program with ⟨hlabel, hprogram⟩ | ⟨instruction, hprogram, hrun⟩
  case inr =>
    -- the main thread moved: a listener that is still to be stopped is not the one it stops now
    have hordered : StopsInOrder (instruction :: s'.program) := hprogram ▸ h.ordered
    refine ⟨hordered.tail, fun id hserving => ?_⟩
    have hs : s.Serving id := by
      rw [Serving, hprogram]
      exact List.mem_cons_of_mem _ hserving
    have hother : instruction.listener? ≠ some id := by
      intro hid
      exact List.rel_of_pairwise_cons hordered hserving id hid rfl
    exact (armed_runInstruction hrun hother).trans (h.armed_eq id hs)
  refine ⟨hprogram ▸ h.ordered, fun id' hserving => ?_⟩
  have hs : s.Serving id' := by
    rw [Serving, ← hprogram]
    exact hserving
  rw [← h.armed_eq id' hs]
  cases hstep with
  | @listen id hlistening =>
    -- the accept thread trades its call for an outstanding operation
    rw [armed, outstanding_asyncAccept, asyncAccept_listening, rearming_asyncAccept]
    by_cases hid : id' = id
    · subst hid
      simp only [armed, outstanding, queued, rearming, setAcceptor, Function.update_self,
        hlistening, if_pos, Bool.toNat_true, Bool.toNat_false]
    · simp [armed, outstanding, queued, rearming, setAcceptor, hid]
  | @complete id completion hopen hpending hsystem =>
    -- an operation moves from the operating system to the queue
    by_cases hid : id' = id
    · subst hid
      simp only [armed, outstanding, queued, rearming, setAcceptor, Function.update_self,
        List.countP_append, List.countP_singleton, decide_true, if_pos]
      omega
    · simp [armed, outstanding, queued, rearming, setAcceptor, hid, Ne.symm hid]
  | @deliver position id completion hio hidle hqueue =>
    have hcount := countP_eraseIdx hqueue id'
    cases completion with
    | error code =>
      -- nothing happens to the other listeners
      have hid : id' ≠ id := by
        rintro rfl
        exact hC id' code hqueue hs
      rw [if_neg hid, Nat.add_zero] at hcount
      simp only [accept]
      split <;> simp only [armed, outstanding, queued, rearming] at hcount ⊢ <;> rw [hcount]
    | success socket =>
      -- the operation is gone, and `accept` is about to start the next
      simp only [armed, outstanding, rearming, accept, hidle, Option.any_some, Option.any_none,
        ← hcount]
      by_cases hid : id' = id
      · simp [queued, hid]
        omega
      · simp [queued, hid, Ne.symm hid]
  | @callback cb hcurrent =>
    obtain ⟨id, socket, stage⟩ := cb
    cases stage with
    | asyncAccept =>
      have hout := outstanding_asyncAccept s id id'
      have hlist := asyncAccept_listening s id id'
      simp only [armed, rearming, runCallback, hcurrent, Option.any_some, hlist]
      show (s.asyncAccept id).outstanding id' + _ + _ = _
      rw [hout]
      by_cases hid : id' = id
      · simp [hid]
        omega
      · simp [hid, Ne.symm hid]
    | isForbidden =>
      cases hf : (setup.listener id).isForbidden socket <;>
        simp [armed, outstanding, queued, rearming, runCallback, hf, hcurrent]
    | enqueue forbidden =>
      simp [armed, outstanding, queued, rearming, runCallback, hcurrent]
  | main => exact absurd rfl hlabel

/-- The delivery of an error leaves the listener with nothing outstanding. -/
theorem deliver_error_disarms {s s' : IoState Id Handler} {label : IoLabel Id}
    (h : s.ArmedOnce) (hC : ¬ s.DeliversSuccess label) (hnext : next setup s label = some s') :
    ¬ s'.OneOutstanding := by
  cases (next_eq_some hnext).2 with
  | @deliver position id completion hio hidle hqueue =>
    have hC' := hC
    simp only [DeliversSuccess, Classical.not_forall, not_not] at hC'
    obtain ⟨id', code, hqueue', hs⟩ := hC'
    rw [hqueue] at hqueue'
    obtain ⟨rfl, rfl⟩ := Prod.mk.inj (Option.some.inj hqueue')
    have harmed := h.armed_eq id hs
    have hcount := countP_eraseIdx hqueue id
    rw [if_pos rfl] at hcount
    simp only [armed, outstanding, rearming, hidle, Option.any_none, Bool.toNat_false, ← hcount]
      at harmed
    -- the completion taken off was the one operation there was
    have hlistening : (s.acceptor id).listening = false := by
      cases hl : (s.acceptor id).listening with
      | false => rfl
      | true =>
        rw [hl, Bool.toNat_true] at harmed
        omega
    intro hone
    have hzero := hone id (by rw [Serving, accept_program]; exact hs)
    simp only [accept] at hzero
    split at hzero <;>
      · have hout := hzero hlistening (by simp [hidle])
        simp only [outstanding, queued] at hout
        omega
  | listen | complete | callback | main => exact absurd trivial hC

/-- **A listener keeps listening** throughout a run exactly when no accept error is delivered to it
    before it is stopped: until then, whenever `accept` is not running for it (and its accept thread
    has made its first call), exactly one `async_accept` is outstanding on its acceptor. -/
theorem outstanding_eq_one_iff (setup : Setup Id Handler) (labels : List (IoLabel Id)) :
    Throughout (next setup) OneOutstanding (start setup) labels ↔
      StepsMeet (next setup) DeliversSuccess (start setup) labels :=
  throughout_iff_stepsMeet (fun _ => oneOutstanding_of_armedOnce)
    (fun _ _ _ h hC hnext => armed_step h hC hnext)
    (fun _ _ _ h hC hnext => deliver_error_disarms h hC hnext) (armedOnce_start setup)

/-- One `EMFILE` while the only listener waits for a client. -/
def emfileRun : List (IoLabel Unit) :=
  [.listen (), .complete () (.error 24), .deliver 0]

/-- **Counterexample**: after that error the listener has nothing outstanding. -/
theorem emfileRun_disarms :
    ¬ Throughout (next oneListener) OneOutstanding (start oneListener) emfileRun := by
  intro h
  have hidle : ∀ callback ∈ (none : Option (Callback Unit)), callback.listener ≠ () := by
    intro callback hc
    exact absurd hc (Option.not_mem_none callback)
  have hone := h.last rfl () List.mem_cons_self rfl hidle
  exact absurd hone (by decide)

/-! ## Exceptions -/

/-- What is owed to accepted connections: the `io_service` thread lives, every connection that was
    accepted has been enqueued or is being looked at, and what was enqueued has reached a handler
    that exists, with its flag decided by the listener. -/
structure AcceptContained (setup : Setup Id Handler) (s : IoState Id Handler) : Prop where
  alive : s.terminated = false
  conserved : s.accepted = s.enqueued.map (fun e => (e.listener, e.socket))
    ++ s.current.toList.map (fun callback => (callback.listener, callback.socket))
  reached : ∀ e ∈ s.enqueued, e.alive = true
  decided : ∀ e ∈ s.enqueued,
    (setup.listener e.listener).isForbidden e.socket = .ok e.forbidden

/-- When a connection is examined, its peer is there. -/
def ExaminesPresent (s : IoState Id Handler) : IoLabel Id → Prop
  | .callback => ∀ callback ∈ s.current, callback.stage = .isForbidden → callback.socket.PeerPresent
  | _ => True

/-- When a connection is passed on, `stop()` has not deleted the listener's handler yet. -/
def FindsHandler (setup : Setup Id Handler) (s : IoState Id Handler) : IoLabel Id → Prop
  | .callback => ∀ callback ∈ s.current, ∀ forbidden, callback.stage = .enqueue forbidden →
      setup.handlerOf callback.listener ∈ s.handlers
  | _ => True

/-- The invariant: what is owed, and a flag about to be enqueued is the listener's decision. -/
structure Contained (setup : Setup Id Handler) (s : IoState Id Handler) : Prop
    extends AcceptContained setup s where
  deciding : ∀ callback ∈ s.current, ∀ forbidden, callback.stage = .enqueue forbidden →
    (setup.listener callback.listener).isForbidden callback.socket = .ok forbidden

theorem contained_start (setup : Setup Id Handler) : Contained setup (start setup) where
  alive := rfl
  conserved := rfl
  reached _ he := nomatch he
  decided _ he := nomatch he
  deciding _ hc := nomatch hc

/-- **Step lemma**: a step that examines no absent peer and calls no deleted handler loses no
    connection. -/
theorem contained_step {s s' : IoState Id Handler} {label : IoLabel Id} (h : Contained setup s)
    (hpresent : ExaminesPresent s label) (hfinds : FindsHandler setup s label)
    (hnext : next setup s label = some s') : Contained setup s' := by
  obtain ⟨⟨halive, hconserved, hreached, hdecided⟩, hdeciding⟩ := h
  cases (next_eq_some hnext).2 with
  | listen hlistening =>
    refine ⟨⟨?_, ?_, ?_, ?_⟩, ?_⟩ <;>
      simp only [asyncAccept_terminated, asyncAccept_accepted, asyncAccept_enqueued,
        asyncAccept_current]
    exacts [halive, hconserved, hreached, hdecided, hdeciding]
  | complete hopen hpending hsystem =>
    exact ⟨⟨halive, hconserved, hreached, hdecided⟩, hdeciding⟩
  | @deliver position id completion hio hidle hqueue =>
    cases completion with
    | success socket =>
      rw [hidle] at hconserved
      refine ⟨⟨halive, ?_, hreached, hdecided⟩, ?_⟩
      · simp [accept, hconserved]
      · intro callback hc forbidden hstage
        obtain rfl : _ = callback := Option.some.inj hc
        cases hstage
    | error code =>
      simp only [accept]
      split <;> exact ⟨⟨halive, hconserved, hreached, hdecided⟩, hdeciding⟩
  | @callback cb hcurrent =>
    obtain ⟨id, socket, stage⟩ := cb
    rw [hcurrent] at hconserved
    cases stage with
    | asyncAccept =>
      refine ⟨⟨?_, ?_, ?_, ?_⟩, ?_⟩ <;>
        simp only [runCallback, asyncAccept_terminated, asyncAccept_accepted, asyncAccept_enqueued]
      · exact halive
      · exact hconserved
      · exact hreached
      · exact hdecided
      · intro callback hc forbidden hstage
        obtain rfl : _ = callback := Option.some.inj hc
        cases hstage
    | isForbidden =>
      obtain ⟨forbidden, hf⟩ := ((setup.listener id).isForbidden_eq_ok_iff socket).mpr
        (hpresent _ hcurrent rfl)
      simp only [runCallback, hf]
      refine ⟨⟨halive, hconserved, hreached, hdecided⟩, fun callback hc forbidden' hstage => ?_⟩
      obtain rfl : _ = callback := Option.some.inj hc
      obtain rfl := Stage.enqueue.inj hstage
      exact hf
    | enqueue forbidden =>
      refine ⟨⟨halive, ?_, ?_, ?_⟩, fun callback hc => absurd hc (Option.not_mem_none callback)⟩
      · simp [runCallback, hconserved]
      · intro e he
        rcases List.mem_append.mp he with he | he
        · exact hreached e he
        · obtain rfl := List.mem_singleton.mp he
          exact decide_eq_true (hfinds _ hcurrent forbidden rfl)
      · intro e he
        rcases List.mem_append.mp he with he | he
        · exact hdecided e he
        · obtain rfl := List.mem_singleton.mp he
          exact hdeciding _ hcurrent forbidden rfl
  | main hprogram hrun =>
    obtain ⟨-, hcur, hterm, hacc, henq⟩ := runInstruction_frame hrun
    refine ⟨⟨hterm.trans halive, ?_, ?_, ?_⟩, ?_⟩
    · rw [hacc, henq, hcur]
      exact hconserved
    · rw [henq]
      exact hreached
    · rw [henq]
      exact hdecided
    · rw [hcur]
      exact hdeciding

/-- Examining a connection whose peer is gone ends the process. -/
theorem examine_absent_terminates {s s' : IoState Id Handler} {label : IoLabel Id}
    (hC : ¬ ExaminesPresent s label) (hnext : next setup s label = some s') :
    ¬ AcceptContained setup s' := by
  cases (next_eq_some hnext).2 with
  | @callback cb hcurrent =>
    obtain ⟨id, socket, stage⟩ := cb
    have hstage : stage = .isForbidden ∧ ¬ socket.PeerPresent := by
      simpa [ExaminesPresent, hcurrent] using hC
    obtain ⟨rfl, habsent⟩ := hstage
    rw [← (setup.listener id).isForbidden_eq_ok_iff] at habsent
    intro h
    have halive := h.alive
    simp only [runCallback] at halive
    split at halive
    · exact habsent ⟨_, ‹_›⟩
    · cases halive
  | listen | complete | deliver | main => exact absurd trivial hC

/-- A connection that is passed on to a deleted handler is lost. -/
theorem enqueue_deleted_lost {s s' : IoState Id Handler} {label : IoLabel Id}
    (hC : ¬ FindsHandler setup s label) (hnext : next setup s label = some s') :
    ¬ AcceptContained setup s' := by
  cases (next_eq_some hnext).2 with
  | @callback cb hcurrent =>
    obtain ⟨id, socket, stage⟩ := cb
    simp only [FindsHandler, Classical.not_forall] at hC
    obtain ⟨callback, hcallback, forbidden, hstage, hdeleted⟩ := hC
    obtain rfl := Option.some.inj (hcurrent.symm.trans hcallback)
    obtain rfl : stage = .enqueue forbidden := hstage
    intro h
    have halive := h.reached ⟨id, socket, forbidden, setup.handlerOf id ∈ s.handlers⟩
      (List.mem_append_right _ (List.mem_singleton_self _))
    exact hdeleted (of_decide_eq_true halive)
  | listen | complete | deliver | main => exact absurd trivial hC

/-- **The io thread survives, and every accepted connection reaches its handler with its flag
    decided**, throughout a run, exactly when every connection that `accept` examines in it still
    has its peer, and every connection that `accept` passes on finds its handler. -/
theorem accept_contained_iff (setup : Setup Id Handler) (labels : List (IoLabel Id)) :
    Throughout (next setup) (AcceptContained setup) (start setup) labels ↔
      StepsMeet (next setup) (fun s label => ExaminesPresent s label ∧ FindsHandler setup s label)
        (start setup) labels := by
  refine throughout_iff_stepsMeet (fun _ h => h.toAcceptContained)
    (fun _ _ _ h hC hnext => contained_step h hC.1 hC.2 hnext) ?_ (contained_start setup)
  intro s label s' _ hC hnext
  rcases not_and_or.mp hC with habsent | hdeleted
  · exact examine_absent_terminates habsent hnext
  · exact enqueue_deleted_lost hdeleted hnext

/-- A client that resets its connection before the io thread gets to look at it (`ENOTCONN`). -/
def resetRun : List (IoLabel Unit) :=
  [.listen (), .complete () (.success ⟨.error (.systemError 107 []), .error (.systemError 107 [])⟩),
    .deliver 0, .callback, .callback]

/-- **Counterexample**: that one client ends the process. -/
theorem resetRun_terminates :
    ¬ Throughout (next oneListener) (AcceptContained oneListener) (start oneListener) resetRun := by
  intro h
  exact nomatch (h.last rfl).alive

end IoState

end ThreadServer
