/-
  Periodic jobs (`job.h`, `job.cc`): `start` and `stop`, and the threads that run `worker`.

  1. **Threads** — `threads` holds a pointer for each worker, empty at first.  `start` puts a new
     thread into each; `stop` interrupts, joins and resets one after the other.  The threads run in
     between: every step of every thread and of the owner is a label, and a run is any list of
     labels.
  2. **Empty pointers** — `stop` looks through each pointer without asking whether it is empty, and
     `start` overwrites each without joining the thread behind it, which goes on by itself.  So the
     calls are meant to alternate, `start` first.
  3. **Then all is well** (`safe_of_alternates`) — no empty pointer is followed, all workers run
     after a `start` and none after a `stop`.

  `boost::thread_interrupted` is thrown by Boost where a thread may be interrupted, once that has
  been requested, and by nothing else.  New threads can be created.
-/
import ThreadServer.Error
import ThreadServer.Lib.Transition

namespace ThreadServer

/-- What a thread of a job is doing. -/
inductive JobPhase
  /-- In `threadCreate()`. -/
  | creating
  /-- In `boost::this_thread::sleep`. -/
  | sleeping
  /-- In `work()`. -/
  | working
  /-- In `threadDestroy()`. -/
  | destroying
  /-- `worker` has returned. -/
  | ended
  deriving DecidableEq

/-- A thread, and whether its interruption has been requested. -/
structure JobThread where
  phase : JobPhase
  interrupted : Bool
  deriving DecidableEq

/-- How what a thread is doing ends: it returns, throws `boost::thread_interrupted`, or throws
    anything else. -/
inductive WorkerEnd
  | returned
  | interrupted
  | threw (e : Exn)

inductive JobCall
  | start
  | stop
  deriving DecidableEq

/-- The thread that calls `start` and `stop`, with its place in their loops. -/
inductive JobOwner
  | idle
  | starting (index : Nat)
  | stopping (index : Nat)
  /-- In `join()`. -/
  | joining (index : Nat)
  /-- It has followed an empty pointer. -/
  | crashed
  deriving DecidableEq

/-- A `Job_t`, and all threads it has started, by their number. -/
structure Job where
  threads : List (Option Nat)
  started : List JobThread
  owner : JobOwner
  /-- An exception has left a thread's function. -/
  terminated : Bool
  /-- History: the last call. -/
  lastCall : Option JobCall
  deriving DecidableEq

/-- `Job_t::Job_t`. -/
def Job.create (workers : Nat) : Job where
  threads := List.replicate workers none
  started := []
  owner := .idle
  terminated := false
  lastCall := none

/-- One step of one thread. -/
inductive JobLabel
  | call (c : JobCall)
  /-- The owner goes on in the loop it is in. -/
  | owner
  /-- The thread with this number ends what it is doing. -/
  | worker (number : Nat) (outcome : WorkerEnd)

/-- `Job_t::worker`, from one thing it does to the next.  An interruption, which must have been
    requested and is thereby done with, leaves the loop; any other exception stays in it. -/
def JobThread.advance (thread : JobThread) : WorkerEnd → Option JobThread
  | .returned =>
    match thread.phase with
    | .creating => some { thread with phase := .sleeping }
    | .sleeping => some { thread with phase := .working }
    | .working => some { thread with phase := .sleeping }
    | .destroying => some { thread with phase := .ended }
    | .ended => none
  | .interrupted =>
    if thread.interrupted = true then
      match thread.phase with
      | .sleeping | .working => some ⟨.destroying, false⟩
      | .creating | .destroying => some ⟨.ended, false⟩
      | .ended => none
    else none
  | .threw _ =>
    match thread.phase with
    | .working => some { thread with phase := .sleeping }
    | .creating | .sleeping | .destroying | .ended => none

/-- `threadCreate` and `threadDestroy` are in no `try` block. -/
def JobThread.Escapes (thread : JobThread) : WorkerEnd → Prop
  | .threw _ => thread.phase = .creating ∨ thread.phase = .destroying
  | .returned | .interrupted => False

instance (thread : JobThread) : (outcome : WorkerEnd) → Decidable (thread.Escapes outcome)
  | .threw _ => inferInstanceAs (Decidable (_ ∨ _))
  | .returned | .interrupted => isFalse id

namespace Job

/-- The loops of `start` and `stop`, one statement further. -/
def stepOwner (job : Job) : Option Job :=
  match job.owner with
  | .idle | .crashed => none
  | .starting index =>
    if index < job.threads.length then
      some { job with
        threads := job.threads.set index (some job.started.length)
        started := job.started ++ [⟨.creating, false⟩]
        owner := .starting (index + 1) }
    else some { job with owner := .idle }
  | .stopping index =>
    match job.threads[index]? with
    | none => some { job with owner := .idle }
    | some none => some { job with owner := .crashed }
    | some (some number) =>
      some { job with
        started := job.started.modify number fun thread => { thread with interrupted := true }
        owner := .joining index }
  | .joining index =>
    match job.threads[index]? with
    | some (some number) =>
      if job.started[number]?.map (·.phase) = some .ended then
        some { job with threads := job.threads.set index none, owner := .stopping (index + 1) }
      else none
    | some none | none => none

/-- A thread of the job, one step further. -/
def stepWorker (job : Job) (number : Nat) (outcome : WorkerEnd) : Option Job := do
  let thread ← job.started[number]?
  if thread.Escapes outcome then return { job with terminated := true }
  let thread' ← thread.advance outcome
  return { job with started := job.started.set number thread' }

/-- One step of one thread of the process. -/
def step (job : Job) (label : JobLabel) : Option Job :=
  if job.terminated = true then none
  else
    match label with
    | .call .start =>
      if job.owner = .idle then some { job with owner := .starting 0, lastCall := some .start }
      else none
    | .call .stop =>
      if job.owner = .idle then some { job with owner := .stopping 0, lastCall := some .stop }
      else none
    | .owner => job.stepOwner
    | .worker number outcome => job.stepWorker number outcome

/-- The worker threads that are running. -/
def running (job : Job) : Nat := job.started.countP (·.phase ≠ .ended)

/-- No empty pointer has been followed; and between the calls no thread or each worker's thread is
    running, none after a `stop`. -/
def Safe (workers : Nat) (job : Job) : Prop :=
  job.owner ≠ .crashed ∧
    (job.terminated = false → job.owner = .idle →
      (job.running = 0 ∨ job.running = workers) ∧
        (job.lastCall = some .stop → job.running = 0))

instance (workers : Nat) (job : Job) : Decidable (job.Safe workers) :=
  inferInstanceAs (Decidable (_ ∧ (_ → _ → _)))

end Job

/-! ## What a step can do -/

namespace Job

variable {job job' : Job}

/-- One statement of the owner's loops. -/
inductive OwnerStep (job : Job) : Job → Prop
  | fill {index : Nat} (howner : job.owner = .starting index) (hlt : index < job.threads.length) :
    OwnerStep job { job with
      threads := job.threads.set index (some job.started.length)
      started := job.started ++ [⟨.creating, false⟩]
      owner := .starting (index + 1) }
  | started {index : Nat} (howner : job.owner = .starting index)
    (hge : job.threads.length ≤ index) : OwnerStep job { job with owner := .idle }
  | interrupt {index number : Nat} (howner : job.owner = .stopping index)
    (hpointer : job.threads[index]? = some (some number)) :
    OwnerStep job { job with
      started := job.started.modify number fun thread => { thread with interrupted := true }
      owner := .joining index }
  | crash {index : Nat} (howner : job.owner = .stopping index)
    (hpointer : job.threads[index]? = some none) : OwnerStep job { job with owner := .crashed }
  | stopped {index : Nat} (howner : job.owner = .stopping index)
    (hge : job.threads.length ≤ index) : OwnerStep job { job with owner := .idle }
  | join {index number : Nat} (howner : job.owner = .joining index)
    (hpointer : job.threads[index]? = some (some number))
    (hended : job.started[number]?.map (·.phase) = some .ended) :
    OwnerStep job { job with
      threads := job.threads.set index none
      owner := .stopping (index + 1) }

theorem ownerStep_of_stepOwner (h : job.stepOwner = some job') : OwnerStep job job' := by
  unfold stepOwner at h
  split at h
  · exact absurd h (Option.some_ne_none _).symm
  · exact absurd h (Option.some_ne_none _).symm
  · split at h
    · rw [← Option.some.inj h]
      exact .fill ‹_› ‹_›
    · rw [← Option.some.inj h]
      exact .started ‹_› (Nat.le_of_not_lt ‹_›)
  · split at h
    · rw [← Option.some.inj h]
      exact .stopped ‹_› (List.getElem?_eq_none_iff.mp ‹_›)
    · rw [← Option.some.inj h]
      exact .crash ‹_› ‹_›
    · rw [← Option.some.inj h]
      exact .interrupt ‹_› ‹_›
  · split at h
    · split at h
      · rw [← Option.some.inj h]
        exact .join ‹_› ‹_› ‹_›
      · exact absurd h (Option.some_ne_none _).symm
    · exact absurd h (Option.some_ne_none _).symm
    · exact absurd h (Option.some_ne_none _).symm

/-- A step of a worker's thread. -/
theorem stepWorker_cases {number : Nat} {outcome : WorkerEnd}
    (h : job.stepWorker number outcome = some job') :
    job' = { job with terminated := true } ∨
      ∃ thread thread', job.started[number]? = some thread ∧
        thread.advance outcome = some thread' ∧
        job' = { job with started := job.started.set number thread' } := by
  unfold stepWorker at h
  obtain ⟨thread, hthread, h⟩ := Option.bind_eq_some_iff.mp h
  split at h
  · exact Or.inl (Option.some.inj h).symm
  · obtain ⟨thread', hadvance, h⟩ := Option.bind_eq_some_iff.mp h
    exact Or.inr ⟨thread, thread', hthread, hadvance, (Option.some.inj h).symm⟩

/-- A call, and what it begins with. -/
theorem step_call {c : JobCall} (h : job.step (.call c) = some job') :
    job.owner = .idle ∧ job' = { job with
      owner := if c = .start then .starting 0 else .stopping 0
      lastCall := some c } := by
  unfold step at h
  split at h
  · exact absurd h (Option.some_ne_none _).symm
  · cases c with
    | start | stop =>
      replace h := Option.ite_none_right_eq_some.mp h
      exact ⟨h.1, (Option.some.inj h.2).symm⟩

theorem step_owner (h : job.step .owner = some job') : OwnerStep job job' := by
  unfold step at h
  split at h
  · exact absurd h (Option.some_ne_none _).symm
  · exact ownerStep_of_stepOwner h

theorem step_worker {number : Nat} {outcome : WorkerEnd}
    (h : job.step (.worker number outcome) = some job') :
    job.stepWorker number outcome = some job' := by
  unfold step at h
  split at h
  · exact absurd h (Option.some_ne_none _).symm
  · exact h

end Job

/-! ## The calls -/

/-- The calls of a run. -/
def JobLabel.call? : JobLabel → Option JobCall
  | .call c => some c
  | .owner | .worker _ _ => none

/-- The call that should follow. -/
def expectedCall (lastCall : Option JobCall) : JobCall :=
  if lastCall = some .start then .stop else .start

/-- `start` and `stop` in turn, after `lastCall`. -/
def Alternates (lastCall : Option JobCall) : List JobCall → Prop
  | [] => True
  | c :: calls => c = expectedCall lastCall ∧ Alternates (some c) calls

instance decidableAlternates :
    (lastCall : Option JobCall) → (calls : List JobCall) → Decidable (Alternates lastCall calls)
  | _, [] => isTrue trivial
  | lastCall, c :: calls =>
    have := decidableAlternates (some c) calls
    inferInstanceAs (Decidable (c = expectedCall lastCall ∧ Alternates (some c) calls))

/-! ## The invariant -/

namespace Job

variable {workers base lo hi joined fresh size : Nat} {job job' : Job}

/-- The pointers: those from `lo` to `hi` lead to threads in a row, the others are empty. -/
structure Laid (workers base lo hi : Nat) (threads : List (Option Nat)) : Prop where
  length : threads.length = workers
  pointer : ∀ index, index < workers →
    threads[index]? = some (if lo ≤ index ∧ index < hi then some (base + index) else none)

/-- A thread nobody has asked to stop is in its loop, or on its way there. -/
def InLoop (thread : JobThread) : Prop :=
  thread.interrupted = false ∧ thread.phase ≠ .destroying ∧ thread.phase ≠ .ended

/-- The threads: those before `joined` have ended, those from `fresh` on are in their loop. -/
structure Crew (joined fresh size : Nat) (started : List JobThread) : Prop where
  length : started.length = size
  ended : ∀ number thread, number < joined → started[number]? = some thread → thread.phase = .ended
  inLoop : ∀ number thread, fresh ≤ number → started[number]? = some thread → InLoop thread

/-- What holds of a job whose owner calls `start` and `stop` in turn; `base` threads have been
    joined before the last `start`. -/
def Inv (workers : Nat) (job : Job) : Prop :=
  ∃ base, match job.owner with
    | .idle =>
      if job.lastCall = some .start then
        Laid workers base 0 workers job.threads ∧ Crew base base (base + workers) job.started
      else Laid workers base 0 0 job.threads ∧ Crew base base base job.started
    | .starting index => job.lastCall = some .start ∧ index ≤ workers ∧
        Laid workers base 0 index job.threads ∧ Crew base base (base + index) job.started
    | .stopping index => job.lastCall = some .stop ∧ index ≤ workers ∧
        Laid workers base index workers job.threads ∧
        Crew (base + index) (base + index) (base + workers) job.started
    | .joining index => job.lastCall = some .stop ∧ index < workers ∧
        Laid workers base index workers job.threads ∧
        Crew (base + index) (base + index + 1) (base + workers) job.started
    | .crashed => False

/-- A job is created with empty pointers. -/
theorem inv_create (workers : Nat) : Inv workers (create workers) := by
  refine ⟨0, ⟨List.length_replicate, fun index hlt => ?_⟩, ?_⟩
  · show (List.replicate workers none)[index]? = _
    rw [List.getElem?_replicate, if_pos hlt, if_neg fun h => absurd h.2 (Nat.not_lt_zero index)]
  · refine ⟨rfl, fun number thread hlt => absurd hlt (Nat.not_lt_zero _), ?_⟩
    intro number thread _ hthread
    exact absurd hthread (by simp [create])

/-- Between the calls, the threads from `joined` on are running. -/
theorem Crew.running_eq {started : List JobThread} (h : Crew joined joined size started) :
    started.countP (·.phase ≠ .ended) = size - joined := by
  have hold : (started.take joined).countP (·.phase ≠ .ended) = 0 := by
    refine List.countP_eq_zero.mpr fun thread hthread => ?_
    obtain ⟨number, hlt, rfl⟩ := List.mem_take_iff_getElem.mp hthread
    have hended := h.ended number _ (by omega) (List.getElem?_eq_getElem (by omega))
    simp [hended]
  have hnew : (started.drop joined).countP (·.phase ≠ .ended) = (started.drop joined).length := by
    refine List.countP_eq_length.mpr fun thread hthread => ?_
    obtain ⟨number, hlt, rfl⟩ := List.mem_drop_iff_getElem.mp hthread
    have hnumber : joined + number < started.length := by omega
    have hloop := h.inLoop _ _ (Nat.le_add_right joined number) (List.getElem?_eq_getElem hnumber)
    exact decide_eq_true hloop.2.2
  calc started.countP (·.phase ≠ .ended)
      = (started.take joined ++ started.drop joined).countP (·.phase ≠ .ended) := by
        rw [List.take_append_drop]
    _ = size - joined := by
        rw [List.countP_append, hold, hnew, List.length_drop, h.length, Nat.zero_add]

/-- The invariant implies safety. -/
theorem Inv.safe (h : Inv workers job) : job.Safe workers := by
  obtain ⟨base, h⟩ := h
  refine ⟨fun hcrashed => ?_, fun _ hidle => ?_⟩
  · rw [hcrashed] at h
    exact h
  · rw [hidle] at h
    by_cases hlast : job.lastCall = some .start
    · simp only [if_pos hlast] at h
      have hrunning : job.running = workers := by
        rw [running, h.2.running_eq]
        omega
      exact ⟨Or.inr hrunning, fun hstop => by rw [hlast] at hstop; exact absurd hstop (by decide)⟩
    · simp only [if_neg hlast] at h
      have hrunning : job.running = 0 := by
        rw [running, h.2.running_eq]
        omega
      exact ⟨Or.inl hrunning, fun _ => hrunning⟩

/-! ## The threads keep it -/

/-- A thread that ends what it is doing has not ended, and stays in its loop if nobody has asked it
    to stop. -/
theorem advance_cases {thread thread' : JobThread} {outcome : WorkerEnd}
    (h : thread.advance outcome = some thread') :
    thread.phase ≠ .ended ∧ (InLoop thread → InLoop thread') := by
  obtain ⟨phase, interrupted⟩ := thread
  cases outcome <;> cases phase <;> cases interrupted <;>
    simp_all [JobThread.advance, InLoop] <;> (subst h; simp)

theorem Crew.set {started : List JobThread} (h : Crew joined fresh size started) {number : Nat}
    {thread thread' : JobThread} {outcome : WorkerEnd} (hthread : started[number]? = some thread)
    (hadvance : thread.advance outcome = some thread') :
    Crew joined fresh size (started.set number thread') := by
  obtain ⟨hnotEnded, hloop⟩ := advance_cases hadvance
  obtain ⟨hlt, -⟩ := List.getElem?_eq_some_iff.mp hthread
  have hget : ∀ other thread'', (started.set number thread')[other]? = some thread'' →
      (other = number ∧ thread'' = thread') ∨ started[other]? = some thread'' := by
    intro other thread'' hother
    by_cases heq : other = number
    · rw [heq, List.getElem?_set_self hlt] at hother
      exact Or.inl ⟨heq, (Option.some.inj hother).symm⟩
    · rw [List.getElem?_set_ne (Ne.symm heq)] at hother
      exact Or.inr hother
  refine ⟨by rw [List.length_set, h.length], fun other thread'' hjoined hother => ?_,
    fun other thread'' hfresh hother => ?_⟩
  · rcases hget other thread'' hother with ⟨rfl, -⟩ | hsame
    · exact absurd (h.ended other thread hjoined hthread) hnotEnded
    · exact h.ended other thread'' hjoined hsame
  · rcases hget other thread'' hother with ⟨rfl, rfl⟩ | hsame
    · exact hloop (h.inLoop other thread hfresh hthread)
    · exact h.inLoop other thread'' hfresh hsame

theorem Inv.stepWorker {number : Nat} {outcome : WorkerEnd} (h : Inv workers job)
    (hstep : job.stepWorker number outcome = some job') : Inv workers job' := by
  rcases stepWorker_cases hstep with rfl | ⟨thread, thread', hthread, hadvance, rfl⟩
  · exact h
  · obtain ⟨base, h⟩ := h
    refine ⟨base, ?_⟩
    cases howner : job.owner with
    | idle =>
      simp only [howner] at h ⊢
      split at h
      · rw [if_pos ‹_›]
        exact ⟨h.1, h.2.set hthread hadvance⟩
      · rw [if_neg ‹_›]
        exact ⟨h.1, h.2.set hthread hadvance⟩
    | starting index | stopping index | joining index =>
      simp only [howner] at h ⊢
      exact ⟨h.1, h.2.1, h.2.2.1, h.2.2.2.set hthread hadvance⟩
    | crashed =>
      rw [howner] at h
      exact h.elim

/-! ## The owner keeps it -/

/-- `start` fills the next pointer. -/
theorem Laid.fill {threads : List (Option Nat)} {index : Nat}
    (h : Laid workers base 0 index threads) :
    Laid workers base 0 (index + 1) (threads.set index (some (base + index))) := by
  refine ⟨by rw [List.length_set, h.length], fun index' hlt => ?_⟩
  by_cases heq : index' = index
  · rw [heq, List.getElem?_set_self (by rw [h.length]; omega), if_pos (by omega)]
  · rw [List.getElem?_set_ne (Ne.symm heq), h.pointer index' hlt]
    congr 1
    by_cases hindex : index' < index
    · rw [if_pos (by omega), if_pos (by omega)]
    · rw [if_neg (by omega), if_neg (by omega)]

/-- `stop` resets the next pointer. -/
theorem Laid.reset {threads : List (Option Nat)} {index : Nat}
    (h : Laid workers base index workers threads) :
    Laid workers base (index + 1) workers (threads.set index none) := by
  refine ⟨by rw [List.length_set, h.length], fun index' hlt => ?_⟩
  by_cases heq : index' = index
  · rw [heq, List.getElem?_set_self (by rw [h.length]; omega), if_neg (by omega)]
  · rw [List.getElem?_set_ne (Ne.symm heq), h.pointer index' hlt]
    congr 1
    by_cases hindex : index ≤ index'
    · rw [if_pos (by omega), if_pos (by omega)]
    · rw [if_neg (by omega), if_neg (by omega)]

/-- All pointers are empty, wherever the range is empty. -/
theorem Laid.empty {threads : List (Option Nat)} {base' lo' hi' : Nat} (hle : hi ≤ lo)
    (hle' : hi' ≤ lo') (h : Laid workers base lo hi threads) :
    Laid workers base' lo' hi' threads := by
  refine ⟨h.length, fun index hlt => ?_⟩
  rw [h.pointer index hlt, if_neg (by omega), if_neg (by omega)]

/-- A new thread. -/
theorem Crew.add {started : List JobThread} (h : Crew joined joined size started)
    (hle : joined ≤ size) : Crew joined joined (size + 1) (started ++ [⟨.creating, false⟩]) := by
  have hget : ∀ number thread, (started ++ [⟨.creating, false⟩])[number]? = some thread →
      started[number]? = some thread ∨ (number = size ∧ thread = ⟨.creating, false⟩) := by
    intro number thread hthread
    rw [List.getElem?_append] at hthread
    split at hthread
    · exact Or.inl hthread
    · rename_i hnot
      obtain ⟨hlt, hthread⟩ := List.getElem?_eq_some_iff.mp hthread
      simp only [List.length_singleton] at hlt
      refine Or.inr ⟨by rw [← h.length]; omega, ?_⟩
      rw [← hthread, List.getElem_singleton]
  refine ⟨by rw [List.length_append, h.length]; rfl, fun number thread hjoined hthread => ?_,
    fun number thread hfresh hthread => ?_⟩
  · rcases hget number thread hthread with hold | ⟨rfl, -⟩
    · exact h.ended number thread hjoined hold
    · omega
  · rcases hget number thread hthread with hold | ⟨-, rfl⟩
    · exact h.inLoop number thread hfresh hold
    · exact ⟨rfl, by decide, by decide⟩

/-- `stop` interrupts the first thread that has not been joined. -/
theorem Crew.interrupt {started : List JobThread} {number : Nat}
    (h : Crew number number size started) : Crew number (number + 1) size
      (started.modify number fun thread => { thread with interrupted := true }) := by
  refine ⟨by rw [List.length_modify, h.length], fun other thread hjoined hthread => ?_,
    fun other thread hfresh hthread => ?_⟩
  · rw [List.getElem?_modify_ne _ _ (show number ≠ other by omega)] at hthread
    exact h.ended other thread hjoined hthread
  · rw [List.getElem?_modify_ne _ _ (show number ≠ other by omega)] at hthread
    exact h.inLoop other thread (by omega) hthread

/-- `join()` returns. -/
theorem Crew.join {started : List JobThread} {number : Nat}
    (h : Crew number (number + 1) size started)
    (hended : started[number]?.map (·.phase) = some .ended) :
    Crew (number + 1) (number + 1) size started := by
  refine ⟨h.length, fun other thread hjoined hthread => ?_, h.inLoop⟩
  by_cases heq : other = number
  · rw [← heq, hthread] at hended
    exact Option.some.inj hended
  · exact h.ended other thread (by omega) hthread

/-- A loop ends behind the last pointer. -/
theorem Laid.eq_workers {threads : List (Option Nat)} (h : Laid workers base lo hi threads)
    {index : Nat} (hle : index ≤ workers) (hge : threads.length ≤ index) : index = workers := by
  rw [h.length] at hge
  omega

/-- `stop` finds a pointer to its next thread. -/
theorem Laid.next {threads : List (Option Nat)} {index : Nat} {pointer : Option Nat}
    (h : Laid workers base index workers threads) (hpointer : threads[index]? = some pointer) :
    index < workers ∧ pointer = some (base + index) := by
  have hlt : index < workers := by
    rw [← h.length]
    exact (List.getElem?_eq_some_iff.mp hpointer).1
  rw [h.pointer index hlt, if_pos ⟨Nat.le_refl index, hlt⟩] at hpointer
  exact ⟨hlt, (Option.some.inj hpointer).symm⟩

theorem Inv.stepOwner (h : Inv workers job) (hstep : OwnerStep job job') : Inv workers job' := by
  obtain ⟨base, h⟩ := h
  cases hstep with
  | @fill index howner hlt =>
    rw [howner] at h
    obtain ⟨hlast, -, hlaid, hcrew⟩ := h
    -- The new thread is numbered behind those already started.
    refine ⟨base, hlast, by rwa [hlaid.length] at hlt, ?_, hcrew.add (Nat.le_add_right base index)⟩
    show Laid workers base 0 (index + 1) (job.threads.set index (some job.started.length))
    rw [hcrew.length]
    exact hlaid.fill
  | @started index howner hge =>
    rw [howner] at h
    obtain ⟨hlast, hle, hlaid, hcrew⟩ := h
    obtain rfl : index = workers := hlaid.eq_workers hle hge
    refine ⟨base, ?_⟩
    simp only [if_pos hlast]
    exact ⟨hlaid, hcrew⟩
  | @interrupt index number howner hpointer =>
    rw [howner] at h
    obtain ⟨hlast, -, hlaid, hcrew⟩ := h
    obtain ⟨hlt, hnumber⟩ := hlaid.next hpointer
    obtain rfl := Option.some.inj hnumber
    exact ⟨base, hlast, hlt, hlaid, hcrew.interrupt⟩
  | @crash index howner hpointer =>
    rw [howner] at h
    -- A `stop` that comes in turn finds no empty pointer.
    obtain ⟨-, -, hlaid, -⟩ := h
    obtain ⟨-, hempty⟩ := hlaid.next hpointer
    cases hempty
  | @stopped index howner hge =>
    rw [howner] at h
    obtain ⟨hlast, hle, hlaid, hcrew⟩ := h
    obtain rfl : index = workers := hlaid.eq_workers hle hge
    -- All have been joined: the next `start` finds as many ended threads.
    refine ⟨base + index, ?_⟩
    have hnotStart : ¬ job.lastCall = some .start := by
      rw [hlast]
      decide
    simp only [if_neg hnotStart]
    exact ⟨hlaid.empty (Nat.le_refl index) (Nat.le_refl 0), hcrew⟩
  | @join index number howner hpointer hended =>
    rw [howner] at h
    obtain ⟨hlast, hlt, hlaid, hcrew⟩ := h
    obtain ⟨-, hnumber⟩ := hlaid.next hpointer
    obtain rfl := Option.some.inj hnumber
    exact ⟨base, hlast, hlt, hlaid.reset, hcrew.join hended⟩

/-- What a call needs: it comes in turn, or there is no worker. -/
def Meant (workers : Nat) (job : Job) : JobLabel → Prop
  | .call c => workers = 0 ∨ c = expectedCall job.lastCall
  | .owner | .worker _ _ => True

/-- Between the calls, `start` finds empty pointers and `stop` finds threads. -/
theorem Inv.call {c : JobCall} (h : Inv workers job) (hmeant : job.Meant workers (.call c))
    (hstep : job.step (.call c) = some job') : Inv workers job' := by
  obtain ⟨base, h⟩ := h
  obtain ⟨hidle, rfl⟩ := step_call hstep
  simp only [hidle] at h
  have hother : c ≠ expectedCall job.lastCall → workers = 0 := fun hne => hmeant.resolve_right hne
  by_cases hlast : job.lastCall = some .start
  · rw [if_pos hlast] at h
    rw [expectedCall, if_pos hlast] at hother
    cases c with
    | start =>
      obtain rfl := hother (by decide)
      exact ⟨base, rfl, Nat.le_refl 0, h.1, h.2⟩
    | stop => exact ⟨base, rfl, Nat.zero_le workers, h.1, h.2⟩
  · rw [if_neg hlast] at h
    rw [expectedCall, if_neg hlast] at hother
    cases c with
    | start => exact ⟨base, rfl, Nat.zero_le workers, h.1, h.2⟩
    | stop =>
      obtain rfl := hother (by decide)
      exact ⟨base, rfl, Nat.le_refl 0, h.1, h.2⟩

/-- **The step lemma**: every step keeps the invariant, if the calls come in turn. -/
theorem inv_step {label : JobLabel} (h : Inv workers job) (hmeant : job.Meant workers label)
    (hstep : job.step label = some job') : Inv workers job' := by
  cases label with
  | call c => exact h.call hmeant hstep
  | owner => exact h.stepOwner (step_owner hstep)
  | worker number outcome => exact h.stepWorker (step_worker hstep)

/-! ## Runs -/

/-- Only a call is remembered. -/
theorem lastCall_step {label : JobLabel} (h : job.step label = some job') :
    job'.lastCall = (label.call?).or job.lastCall := by
  cases label with
  | call c =>
    obtain ⟨-, rfl⟩ := step_call h
    rfl
  | owner => cases step_owner h <;> rfl
  | worker number outcome =>
    rcases stepWorker_cases (step_worker h) with rfl | ⟨thread, thread', -, -, rfl⟩ <;> rfl

theorem stepsMeet_of_alternates {labels : List JobLabel}
    (h : workers = 0 ∨ Alternates job.lastCall (labels.filterMap JobLabel.call?)) :
    Transition.StepsMeet step (Meant workers) job labels := by
  induction labels generalizing job with
  | nil => trivial
  | cons label labels ih =>
    intro job' hstep
    have hlast := lastCall_step hstep
    cases label with
    | call c =>
      have hcalls : (JobLabel.call c :: labels).filterMap JobLabel.call? =
          c :: labels.filterMap JobLabel.call? := rfl
      rw [hcalls] at h
      refine ⟨h.imp_right And.left, ih (h.imp_right fun halternates => ?_)⟩
      rw [hlast]
      exact halternates.2
    | owner | worker number outcome =>
      refine ⟨trivial, ih (h.imp_right fun halternates => ?_)⟩
      rw [hlast]
      exact halternates

/-- **A job whose owner calls `start` and `stop` in turn is safe**: however the threads run, no
    empty pointer is followed, and between the calls all workers are running or none, none after a
    `stop`.  (A job without workers is safe in any case.) -/
theorem safe_of_alternates (workers : Nat) (labels : List JobLabel)
    (h : workers = 0 ∨ Alternates none (labels.filterMap JobLabel.call?)) :
    Transition.Throughout step (Safe workers) (create workers) labels :=
  Transition.throughout_of_stepsMeet (fun _ hinv => hinv.safe)
    (fun _ _ _ hinv hmeant hstep => inv_step hinv hmeant hstep) (inv_create workers)
    (stepsMeet_of_alternates h)

/-- One worker, started and stopped while it works. -/
theorem safe_of_start_stop :
    Transition.Throughout step (Safe 1) (create 1) [.call .start, .owner, .worker 0 .returned,
      .worker 0 .returned, .owner, .call .stop, .owner, .worker 0 (.threw .unknown),
      .worker 0 .interrupted, .worker 0 .returned, .owner, .owner] :=
  safe_of_alternates 1 _ (Or.inr (by decide))

/-- **Counterexample**: `stop` before any `start` follows an empty pointer. -/
theorem stop_not_safe :
    ¬ ∀ workers labels, Transition.Throughout step (Safe workers) (create workers) labels := by
  intro h
  have hrun : Transition.exec step (create 1) [.call .stop, .owner] =
      some { create 1 with owner := .crashed, lastCall := some .stop } := rfl
  exact ((h 1 [.call .stop, .owner]).last hrun).1 rfl

end Job

end ThreadServer
