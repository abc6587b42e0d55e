/-
  How much is left to do in a running server, as a number for each of its parts.

  Every step but the arrival of a connection from outside uses up effort: a worker on its way out, a
  connection that is passed on, a statement of `stop()` that has been executed.  Passing a
  connection on costs more than the next owner gets.

  1. **A handler's pool** (`PoolState.effort_step`).  A connection that comes in brings 3; every
     other step lowers the effort.
  2. **The listeners' threads and `stop()`** (`IoState.effort_step`).  Every step but the completion
     of an accept by the operating system lowers it.  An acceptor's effort counts only if its
     listener is one of the server's, hence `Known`.
-/
import ThreadServer.AcceptLoop
import ThreadServer.Site
import Mathlib.Data.Fintype.Basic

set_option linter.unusedSectionVars false

namespace ThreadServer

open Transition

variable {Id Handler : Type} [DecidableEq Id] [DecidableEq Handler]

/-! ## The effort of a pool -/

/-- What is left for one worker's thread to do; a connection it has taken is counted with it. -/
def WorkerPhase.effort {Socket : Type} : WorkerPhase Socket → Nat
  | .starting => 3
  | .waiting => 2
  | .dequeued _ _ => 4
  | .handling => 3
  | .leaving => 1
  | .ended => 0

/-- What is left of the destructor of a handler with `n` workers. -/
def Destroyer.effort (n : Nat) : Destroyer → Nat
  | .notCalled => n + 2
  | .joining index => n - index + 1
  | .returned => 0

namespace PoolState

variable {Socket : Type} {n : Nat}

/-- The effort that is left in a pool. -/
def effort (s : PoolState Socket n) : Nat :=
  ∑ i, (s.worker i).effort + 3 * s.queue.length + s.destroyer.effort n

/-- One thread goes on. -/
theorem sum_setWorker (s : PoolState Socket n) (i : Fin n) (phase : WorkerPhase Socket) :
    ∑ j, ((s.setWorker i phase).worker j).effort + (s.worker i).effort
      = ∑ j, (s.worker j).effort + phase.effort := by
  have hupdate : (fun j => ((s.setWorker i phase).worker j).effort)
      = Function.update (fun j => (s.worker j).effort) i phase.effort :=
    Function.comp_update WorkerPhase.effort s.worker i phase
  rw [hupdate]
  exact sum_update_add (Finset.mem_univ i) _ _

/-- **Every step of a pool uses up effort**, but for a connection that comes in, which brings some,
    and an exception that ends the process. -/
theorem effort_step {code : HandlerCode} {s s' : PoolState Socket n}
    {label : PoolLabel code.Behaviour Socket n} (h : Step code s label s') :
    s'.terminated = true ∨ s'.effort < s.effort ∨
      ((∃ socket, label = .enqueue socket) ∧ s'.effort = s.effort + 3) := by
  have hworker : ∀ {i : Fin n} {before : WorkerPhase Socket} (after : WorkerPhase Socket)
      (queue : List Socket), s.worker i = before →
      after.effort + 3 * queue.length < before.effort + 3 * s.queue.length →
      ∑ j, ((s.setWorker i after).worker j).effort + 3 * queue.length + s.destroyer.effort n
        < s.effort := by
    intro i before after queue hbefore hless
    have hsum := sum_setWorker s i after
    rw [hbefore] at hsum
    unfold effort
    omega
  cases h with
  | enqueue socket =>
    refine Or.inr (Or.inr ⟨⟨socket, rfl⟩, ?_⟩)
    simp only [effort, List.length_append, List.length_singleton]
    omega
  | notCreated | notDeleted => exact Or.inl rfl
  | created hbefore | handled outcome hbefore =>
    refine Or.inr (Or.inl (hworker .waiting s.queue hbefore ?_))
    exact Nat.add_lt_add_right (Nat.lt_succ_self _) _
  | handle hbefore =>
    refine Or.inr (Or.inl (hworker .handling s.queue hbefore ?_))
    exact Nat.add_lt_add_right (Nat.lt_succ_self _) _
  | leave hbefore =>
    refine Or.inr (Or.inl (hworker .leaving s.queue hbefore ?_))
    exact Nat.add_lt_add_right (Nat.lt_succ_self _) _
  | deleted hbefore =>
    refine Or.inr (Or.inl (hworker .ended s.queue hbefore ?_))
    exact Nat.add_lt_add_right (Nat.lt_succ_self _) _
  | @dequeue i socket queue hbefore hqueue =>
    refine Or.inr (Or.inl (hworker (.dequeued s.dequeued socket) queue hbefore ?_))
    simp only [WorkerPhase.effort, hqueue, List.length_cons]
    omega
  | finish hcalled =>
    refine Or.inr (Or.inl ?_)
    simp only [effort, hcalled, Destroyer.effort]
    omega
  | joined hindex hjoining =>
    refine Or.inr (Or.inl ?_)
    simp only [effort, hjoining, Destroyer.effort]
    omega
  | joinedAll hjoining hindex =>
    refine Or.inr (Or.inl ?_)
    simp only [effort, hjoining, Destroyer.effort]
    omega

end PoolState

/-! ## The effort of the listeners' threads -/

/-- What a completion in the queue still costs: `accept`, and the connection it passes on. -/
def Completion.effort : Completion → Nat
  | .success _ => 8
  | .error _ => 1

/-- What is left of `accept`. -/
def Stage.effort : Stage → Nat
  | .asyncAccept => 7
  | .isForbidden => 5
  | .enqueue _ => 4

/-- What is left at one acceptor: its thread's call, and what `cancel` would complete. -/
def Acceptor.effort (acceptor : Acceptor) : Nat :=
  acceptor.pending + if acceptor.listening then 2 else 0

namespace IoState

variable {setup : Setup Id Handler}

/-- What is left at the acceptors. -/
def acceptorsEffort (setup : Setup Id Handler) (acceptor : Id → Acceptor) : Nat :=
  ∑ id ∈ setup.listeners.toFinset, (acceptor id).effort

/-- What the completions in the queue still cost. -/
def queueEffort (queue : List (Id × Completion)) : Nat := (queue.map fun c => c.2.effort).sum

/-- What is left of `accept`, if it is running. -/
def currentEffort (current : Option (Callback Id)) : Nat :=
  current.elim 0 fun callback => callback.stage.effort

/-- The effort that is left in the listeners' threads and in `stop()`. -/
def effort (setup : Setup Id Handler) (s : IoState Id Handler) : Nat :=
  acceptorsEffort setup s.acceptor + queueEffort s.queue + currentEffort s.current
    + s.program.length

/-- Everything that goes on belongs to the listeners and handlers the server was set up with. -/
structure Known (setup : Setup Id Handler) (s : IoState Id Handler) : Prop where
  listening : ∀ id, (s.acceptor id).listening = true → id ∈ setup.listeners
  program : ∀ instruction ∈ s.program, ∀ id, instruction.listener? = some id →
    id ∈ setup.listeners
  handlers : ∀ handler ∈ s.handlers, handler ∈ setup.handlers
  deleting : ∀ instruction ∈ s.program, ∀ handler, instruction.deletes? = some handler →
    handler ∈ setup.handlers

theorem known_start (setup : Setup Id Handler) : Known setup (start setup) where
  listening _ h := of_decide_eq_true h
  program instruction hmem id hid := by
    rcases List.mem_append.mp hmem with hmem | hmem
    · rcases List.mem_append.mp hmem with hmem | hmem
      · obtain ⟨listener, hlistener, hmem⟩ := List.mem_flatMap.mp hmem
        have heq : instruction.listener? = some listener := by
          simp only [List.mem_cons, List.not_mem_nil, or_false] at hmem
          rcases hmem with rfl | rfl | rfl <;> rfl
        rw [← Option.some.inj (heq.symm.trans hid)]
        exact hlistener
      · obtain ⟨handler, -, rfl⟩ := List.mem_map.mp hmem
        cases hid
    · simp only [List.mem_cons, List.not_mem_nil, or_false] at hmem
      rcases hmem with rfl | rfl | rfl <;> cases hid
  handlers _ h := h
  deleting instruction hmem handler hdeletes := by
    rcases List.mem_append.mp hmem with hmem | hmem
    · rcases List.mem_append.mp hmem with hmem | hmem
      · obtain ⟨listener, -, hmem⟩ := List.mem_flatMap.mp hmem
        simp only [List.mem_cons, List.not_mem_nil, or_false] at hmem
        rcases hmem with rfl | rfl | rfl <;> cases hdeletes
      · obtain ⟨deleted, hdeleted, rfl⟩ := List.mem_map.mp hmem
        rw [← Option.some.inj hdeletes]
        exact hdeleted
    · simp only [List.mem_cons, List.not_mem_nil, or_false] at hmem
      rcases hmem with rfl | rfl | rfl <;> cases hdeletes

theorem queueEffort_append (queue completions : List (Id × Completion)) :
    queueEffort (queue ++ completions) = queueEffort queue + queueEffort completions := by
  rw [queueEffort, List.map_append, List.sum_append]
  rfl

/-- Taking a completion off the queue. -/
theorem queueEffort_eraseIdx {queue : List (Id × Completion)} {position : Nat}
    {c : Id × Completion} (h : queue[position]? = some c) :
    queueEffort (queue.eraseIdx position) + c.2.effort = queueEffort queue := by
  obtain ⟨hlt, hget⟩ := List.getElem?_eq_some_iff.mp h
  have hperm := (List.getElem_cons_eraseIdx_perm hlt).map fun c => c.2.effort
  rw [queueEffort, queueEffort, ← hperm.sum_eq, List.map_cons, List.sum_cons, hget, Nat.add_comm]

/-- What `cancel` completes. -/
theorem queueEffort_canceled (s : IoState Id Handler) (id : Id) :
    queueEffort (s.canceled id) = (s.acceptor id).pending := by
  rw [queueEffort, canceled, List.map_replicate, List.sum_replicate]
  exact Nat.mul_one _

/-- Changing one acceptor. -/
theorem acceptorsEffort_update {id : Id} (hid : id ∈ setup.listeners) (acceptor : Id → Acceptor)
    (after : Acceptor) :
    acceptorsEffort setup (Function.update acceptor id after) + (acceptor id).effort
      = acceptorsEffort setup acceptor + after.effort := by
  have hupdate : (fun id' => (Function.update acceptor id after id').effort)
      = Function.update (fun id' => (acceptor id').effort) id after.effort :=
    Function.comp_update Acceptor.effort acceptor id after
  rw [acceptorsEffort, hupdate]
  exact sum_update_add (List.mem_toFinset.mpr hid) _ _

/-- Changing an acceptor that no listener has. -/
theorem acceptorsEffort_update_of_notMem {id : Id} (hid : id ∉ setup.listeners)
    (acceptor : Id → Acceptor) (after : Acceptor) :
    acceptorsEffort setup (Function.update acceptor id after) = acceptorsEffort setup acceptor := by
  refine Finset.sum_congr rfl fun id' hid' => ?_
  have hne : id' ≠ id := by
    rintro rfl
    exact hid (List.mem_toFinset.mp hid')
  rw [Function.update_of_ne hne]

theorem effort_setAcceptor (s : IoState Id Handler) {id : Id} (hid : id ∈ setup.listeners)
    (after : Acceptor) :
    effort setup (s.setAcceptor id after) + (s.acceptor id).effort
      = effort setup s + after.effort := by
  have hsum := acceptorsEffort_update hid s.acceptor after
  simp only [effort, setAcceptor]
  omega

/-- Starting an accept costs no more than its cancellation. -/
theorem effort_asyncAccept (setup : Setup Id Handler) (s : IoState Id Handler) (id : Id) :
    (s.asyncAccept id).effort setup ≤ s.effort setup + 1 := by
  unfold asyncAccept
  split
  · generalize hafter : ({ s.acceptor id with pending := (s.acceptor id).pending + 1 } : Acceptor)
      = after
    by_cases hid : id ∈ setup.listeners
    · have hsum := effort_setAcceptor s hid after
      have hone : after.effort = (s.acceptor id).effort + 1 := by
        rw [← hafter]
        exact Nat.add_right_comm _ 1 _
      omega
    · have hsame := acceptorsEffort_update_of_notMem hid s.acceptor after
      simp only [effort, setAcceptor]
      omega
  · have herror : queueEffort (s.queue ++ [(id, Completion.error badDescriptor)])
        = queueEffort s.queue + 1 := queueEffort_append _ _
    simp only [effort]
    omega

/-- `stop()` executes one statement. -/
theorem effort_runInstruction {s s' : IoState Id Handler} {instruction : Instruction Id Handler}
    {program : List (Instruction Id Handler)} (h : Known setup s)
    (hprogram : s.program = instruction :: program)
    (hrun : runInstruction { s with program } instruction = some s') :
    s'.effort setup < s.effort setup := by
  have hstatement : effort setup { s with program } + 1 = s.effort setup := by
    simp only [effort, hprogram, List.length_cons]
    omega
  -- `cancel` and `close` move what is pending to the queue, at the same cost.
  have hmoved : ∀ id acceptor, instruction.listener? = some id → acceptor.pending = 0 →
      acceptor.listening = (s.acceptor id).listening →
      effort setup { (IoState.setAcceptor { s with program } id acceptor) with
        queue := s.queue ++ s.canceled id } = effort setup { s with program } := by
    intro id acceptor hlistener hpending hlistening
    have hid := h.program instruction (hprogram ▸ List.mem_cons_self) id hlistener
    have hsum := acceptorsEffort_update hid s.acceptor acceptor
    have hqueue := queueEffort_append s.queue (s.canceled id)
    rw [queueEffort_canceled] at hqueue
    simp only [Acceptor.effort, hpending, hlistening] at hsum
    simp only [effort, IoState.setAcceptor]
    omega
  cases instruction with
  | cancel id =>
    obtain rfl := Option.some.inj hrun
    have heq := hmoved id { s.acceptor id with pending := 0 } rfl rfl rfl
    exact lt_of_eq_of_lt heq (by omega)
  | close id =>
    obtain rfl := Option.some.inj hrun
    have heq := hmoved id { s.acceptor id with isOpen := false, pending := 0 } rfl rfl rfl
    exact lt_of_eq_of_lt heq (by omega)
  | joinAcceptor id | joinIoService =>
    simp only [runInstruction] at hrun
    split at hrun
    · cases hrun
    · obtain rfl := Option.some.inj hrun
      omega
  | deleteHandler handler | resetWork | stopIoService =>
    obtain rfl := Option.some.inj hrun
    exact Nat.lt_of_succ_le (le_of_eq hstatement)

/-- **Every step of the server's own threads uses up effort**, but for an exception that ends the
    process. -/
theorem effort_step {s s' : IoState Id Handler} {label : IoLabel Id} (h : Known setup s)
    (hstep : Step setup s label s') (hown : ∀ id completion, label ≠ .complete id completion) :
    s'.terminated = true ∨ s'.effort setup < s.effort setup := by
  cases hstep with
  | @listen id hlistening =>
    refine Or.inr ?_
    generalize hafter : ({ s.acceptor id with listening := false } : Acceptor) = after
    have hsum := effort_setAcceptor s (h.listening id hlistening) after
    have hstart := effort_asyncAccept setup (s.setAcceptor id after) id
    have htwo : (s.acceptor id).effort = after.effort + 2 := by
      simp [← hafter, Acceptor.effort, hlistening]
    omega
  | complete => exact absurd rfl (hown _ _)
  | @deliver position id completion hio hidle hqueue =>
    refine Or.inr ?_
    have herased := queueEffort_eraseIdx hqueue
    cases completion with
    | success socket =>
      simp only [effort, accept, hidle, currentEffort, Option.elim, Stage.effort]
      simp only [Completion.effort] at herased
      omega
    | error code =>
      have haccept : effort setup
          (accept { s with queue := s.queue.eraseIdx position } id (.error code))
          = effort setup { s with queue := s.queue.eraseIdx position } := by
        simp only [accept]
        split <;> rfl
      rw [haccept]
      simp only [effort]
      simp only [Completion.effort] at herased
      omega
  | @callback callback hcurrent =>
    obtain ⟨id, socket, stage⟩ := callback
    cases stage with
    | asyncAccept =>
      refine Or.inr ?_
      have hstart := effort_asyncAccept setup s id
      simp only [effort, asyncAccept_current, hcurrent] at hstart
      simp only [effort, runCallback, asyncAccept_program, hcurrent]
      simp only [currentEffort, Option.elim, Stage.effort, asyncAccept_program] at hstart ⊢
      omega
    | isForbidden =>
      simp only [runCallback]
      split
      · refine Or.inr ?_
        simp only [effort, hcurrent, currentEffort, Option.elim, Stage.effort]
        omega
      · exact Or.inl rfl
    | enqueue forbidden =>
      refine Or.inr ?_
      simp only [effort, runCallback, hcurrent, currentEffort, Option.elim, Stage.effort]
      omega
  | main hprogram hrun => exact Or.inr (effort_runInstruction h hprogram hrun)

/-- A connection that is passed on takes enough effort along. -/
theorem effort_enqueue {s s' : IoState Id Handler} {callback : Callback Id} {forbidden : Bool}
    (hnext : next setup s .callback = some s') (hcurrent : s.current = some callback)
    (hstage : callback.stage = .enqueue forbidden) :
    s'.effort setup + 4 = s.effort setup := by
  cases (next_eq_some hnext).2 with
  | @callback callback' hcurrent' =>
    obtain rfl := Option.some.inj (hcurrent.symm.trans hcurrent')
    unfold runCallback
    rw [hstage]
    simp only [effort, hcurrent, currentEffort, Option.elim, hstage, Stage.effort]
    omega

/-- No thread begins to listen when an acceptor changes. -/
theorem listening_setAcceptor {s : IoState Id Handler} {id : Id} {after : Acceptor}
    (hafter : after.listening = true → (s.acceptor id).listening = true) (id' : Id)
    (h : ((s.setAcceptor id after).acceptor id').listening = true) :
    (s.acceptor id').listening = true := by
  have hupdate : (Function.update s.acceptor id after id').listening = true := h
  by_cases hid : id' = id
  · subst hid
    rw [Function.update_self] at hupdate
    exact hafter hupdate
  · rw [Function.update_of_ne hid] at hupdate
    exact hupdate

theorem Known.frame {s s' : IoState Id Handler} (h : Known setup s)
    (hlistening : ∀ id, (s'.acceptor id).listening = true → (s.acceptor id).listening = true)
    (hprogram : s'.program ⊆ s.program) (hhandlers : s'.handlers ⊆ s.handlers) :
    Known setup s' where
  listening id hl := h.listening id (hlistening id hl)
  program instruction hmem := h.program instruction (hprogram hmem)
  handlers handler hmem := h.handlers handler (hhandlers hmem)
  deleting instruction hmem := h.deleting instruction (hprogram hmem)

/-- **Step lemma.** -/
theorem Known.step {s s' : IoState Id Handler} {label : IoLabel Id} (h : Known setup s)
    (hstep : Step setup s label s') : Known setup s' := by
  have hrefl : ∀ id, (s.acceptor id).listening = true → (s.acceptor id).listening = true :=
    fun _ hl => hl
  cases hstep with
  | @listen id hlistening =>
    refine h.frame (fun id' hl => ?_) ?_ ?_
    · rw [asyncAccept_listening] at hl
      refine listening_setAcceptor ?_ id' hl
      exact nofun
    · rw [asyncAccept_program]
      exact List.Subset.refl _
    · rw [asyncAccept_handlers]
      exact List.Subset.refl _
  | complete => exact h.frame (listening_setAcceptor fun hl => hl) (fun _ hi => hi) fun _ hh => hh
  | @deliver position id completion =>
    cases completion with
    | success socket => exact h.frame hrefl (fun _ hi => hi) fun _ hh => hh
    | error code =>
      simp only [accept]
      split <;> exact h.frame hrefl (fun _ hi => hi) fun _ hh => hh
  | @callback callback hcurrent =>
    unfold runCallback
    cases callback.stage with
    | asyncAccept =>
      refine h.frame (fun id' hl => ?_) ?_ ?_
      · rwa [← asyncAccept_listening s callback.listener id']
      · exact (asyncAccept_program s callback.listener) ▸ List.Subset.refl _
      · exact (asyncAccept_handlers s callback.listener) ▸ List.Subset.refl _
    | isForbidden =>
      dsimp only
      split <;> exact h.frame hrefl (fun _ hi => hi) fun _ hh => hh
    | enqueue forbidden => exact h.frame hrefl (fun _ hi => hi) fun _ hh => hh
  | @main instruction program _ hprogram hrun =>
    have htail : program ⊆ s.program := by
      rw [hprogram]
      exact List.subset_cons_self instruction program
    cases instruction with
    | cancel id | close id =>
      obtain rfl := Option.some.inj hrun
      exact h.frame (listening_setAcceptor (s := { s with program }) fun hl => hl) htail
        fun _ hh => hh
    | joinAcceptor id | joinIoService =>
      simp only [runInstruction] at hrun
      split at hrun
      · cases hrun
      · obtain rfl := Option.some.inj hrun
        exact h.frame hrefl htail fun _ hh => hh
    | deleteHandler deleted =>
      obtain rfl := Option.some.inj hrun
      exact h.frame hrefl htail fun _ hh => (List.mem_filter.mp hh).1
    | resetWork | stopIoService =>
      obtain rfl := Option.some.inj hrun
      exact h.frame hrefl htail fun _ hh => hh

end IoState

end ThreadServer
