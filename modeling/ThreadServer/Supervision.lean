/-
  What the guard process is for: one server after the other, each in the place of one that crashed.

  1. **Lives** — a server that has been forked and has died.
  2. **Specification** (`Supervised`) — at every moment, the forks and deaths so far are the lives
     of servers that had to be started again, and then, where the guard is in its loop, at most one
     more: the one that is running, the one being looked at, or the one that ended the guard.
  3. **Result** (`supervised`) — that is so in every run, whenever signals come and whatever the
     system does: there is never more than one server, none is forked before the last has died of a
     signal that asks for it, `wait` always has a child, and the guard's exit status is that of the
     server it gave up on.
-/
import ThreadServer.Guard

namespace ThreadServer.GuardState

open Transition

/-- A server, from `fork` to its end. -/
structure Life where
  pid : Pid
  status : Status
  deriving DecidableEq

/-- The two steps of a run that a server's life takes. -/
def Life.labels (life : Life) : List GuardLabel := [.fork life.pid, .serverDies life.status]

/-- The forks and deaths among the steps of a run. -/
def serverLabels (labels : List GuardLabel) : List GuardLabel :=
  labels.filter fun
    | .fork _ | .serverDies _ => true
    | .forkFails | .assign | .wait | .examine | .signal _ => false

/-- The steps of the server the guard has not reaped. -/
def ServerProcess.labels (server : ServerProcess) : List GuardLabel :=
  .fork server.pid :: server.status.toList.map .serverDies

/-- What the guard is doing after a run, by its position: the lives before are those of servers it
    has started again. -/
def Doing (s : GuardState) (before labels : List GuardLabel) : Position → Prop
  | .fork => s.server = none ∧ serverLabels labels = before
  | .assign pid => ∃ server : ServerProcess, s.server = some server ∧ server.pid = pid ∧
      serverLabels labels = before ++ ServerProcess.labels server
  | .wait => ∃ server : ServerProcess, s.server = some server ∧ server.pid = s.childPid ∧
      serverLabels labels = before ++ ServerProcess.labels server
  | .examine status => s.server = none ∧
      serverLabels labels = before ++ Life.labels ⟨s.childPid, status⟩
  | .exited code => s.server = none ∧
      (code = 1 ∧ .forkFails ∈ labels ∧ serverLabels labels = before ∨
        ∃ life : Life, life.status.restarts = false ∧ code = life.status.exitStatus ∧
          serverLabels labels = before ++ life.labels)

/-- **Supervision.** -/
def Supervised (labels : List GuardLabel) (s : GuardState) : Prop :=
  ∃ lives : List Life, (∀ life ∈ lives, life.status.restarts = true) ∧
    s.Doing (lives.flatMap Life.labels) labels s.position

/-- No other step changes what the servers did. -/
theorem serverLabels_append (labels : List GuardLabel) (label : GuardLabel) :
    serverLabels (labels ++ [label]) = serverLabels labels ++ serverLabels [label] :=
  List.filter_append labels [label]

/-- A signal is no step of a server's life. -/
theorem serverLabels_signal (labels : List GuardLabel) (signo : Signo) :
    serverLabels (labels ++ [.signal signo]) = serverLabels labels := by
  rw [serverLabels_append]
  exact List.append_nil _

theorem Doing.signal {s : GuardState} {before labels : List GuardLabel} {position : Position}
    (h : s.Doing before labels position) (signo : Signo) :
    s.Doing before (labels ++ [.signal signo]) position := by
  cases position with
  | fork | assign pid | wait | examine status =>
    rw [Doing, serverLabels_signal]
    exact h
  | exited code =>
    obtain ⟨hserver, ⟨rfl, hfails, hsteps⟩ | hlife⟩ := h
    · refine ⟨hserver, .inl ⟨rfl, List.mem_append_left _ hfails, ?_⟩⟩
      rw [serverLabels_signal, hsteps]
    · refine ⟨hserver, .inr ?_⟩
      rw [serverLabels_signal]
      exact hlife

/-- **Step lemma.** -/
theorem Supervised.next {labels : List GuardLabel} {s s' : GuardState} {label : GuardLabel}
    (h : Supervised labels s) (hnext : next s label = some s') :
    Supervised (labels ++ [label]) s' := by
  obtain ⟨lives, hlives, hdoing⟩ := h
  cases step_of_next hnext with
  | @fork pid hposition hpid =>
    rw [hposition] at hdoing
    obtain ⟨-, hsteps⟩ := hdoing
    refine ⟨lives, hlives, ⟨pid, none⟩, rfl, rfl, ?_⟩
    rw [serverLabels_append, hsteps]
    rfl
  | forkFails hposition =>
    rw [hposition] at hdoing
    obtain ⟨hserver, hsteps⟩ := hdoing
    refine ⟨lives, hlives, hserver, .inl ⟨rfl, List.mem_concat_self, ?_⟩⟩
    rw [serverLabels_append, hsteps]
    exact List.append_nil _
  | @assign pid hposition =>
    rw [hposition] at hdoing
    obtain ⟨server, hserver, hpid, hsteps⟩ := hdoing
    refine ⟨lives, hlives, server, hserver, hpid, ?_⟩
    rw [serverLabels_append, hsteps]
    exact List.append_nil _
  | waitFails hposition hserver =>
    rw [hposition] at hdoing
    obtain ⟨server, hsome, -⟩ := hdoing
    cases hserver.symm.trans hsome
  | @wait pid status hposition hserver =>
    rw [hposition] at hdoing
    obtain ⟨server, hsome, hpid, hsteps⟩ := hdoing
    obtain rfl := Option.some.inj (hserver.symm.trans hsome)
    refine ⟨lives, hlives, rfl, ?_⟩
    rw [serverLabels_append, hsteps, ← hpid]
    exact List.append_nil _
  | @restart status hposition hrestarts =>
    rw [hposition] at hdoing
    obtain ⟨hserver, hsteps⟩ := hdoing
    refine ⟨lives ++ [⟨s.childPid, status⟩], ?_, hserver, ?_⟩
    · exact List.forall_mem_append.mpr ⟨hlives, List.forall_mem_singleton.mpr hrestarts⟩
    · rw [serverLabels_append, hsteps, List.flatMap_append, List.flatMap_singleton]
      exact List.append_nil _
  | @exit status hposition hrestarts =>
    rw [hposition] at hdoing
    obtain ⟨hserver, hsteps⟩ := hdoing
    refine ⟨lives, hlives, hserver, .inr ⟨⟨s.childPid, status⟩, hrestarts, rfl, ?_⟩⟩
    rw [serverLabels_append, hsteps]
    exact List.append_nil _
  | @serverDies pid status hserver =>
    refine ⟨lives, hlives, ?_⟩
    have hdied : ∀ server : ServerProcess, s.server = some server → ∀ before,
        serverLabels labels = before ++ ServerProcess.labels server →
        serverLabels (labels ++ [.serverDies status])
          = before ++ ServerProcess.labels ⟨pid, some status⟩ := by
      intro server hsome before hsteps
      obtain rfl := Option.some.inj (hserver.symm.trans hsome)
      rw [serverLabels_append, hsteps, List.append_assoc]
      rfl
    show Doing _ _ _ s.position
    cases hposition : s.position with
    | assign pid' | wait =>
      rw [hposition] at hdoing
      obtain ⟨server, hsome, hpid, hsteps⟩ := hdoing
      refine ⟨⟨pid, some status⟩, rfl, ?_, hdied server hsome _ hsteps⟩
      obtain rfl := Option.some.inj (hserver.symm.trans hsome)
      exact hpid
    | fork | examine status' | exited code =>
      rw [hposition] at hdoing
      cases hserver.symm.trans hdoing.1
  | @signal signo hposition hinstalled => exact ⟨lives, hlives, hdoing.signal signo⟩

/-- A guard that cannot go on waits for a server that is alive. -/
theorem Supervised.live_of_blocked {labels : List GuardLabel} {s : GuardState}
    (h : Supervised labels s) (hrunning : ∀ code, s.position ≠ .exited code)
    (hblocked : ∀ label ∈ [GuardLabel.forkFails, .assign, .wait, .examine],
      GuardState.next s label = none) : s.live = some s.childPid := by
  obtain ⟨lives, -, hdoing⟩ := h
  simp only [List.forall_mem_cons] at hblocked
  obtain ⟨hfork, hassign, hwait, hexamine, -⟩ := hblocked
  cases hposition : s.position with
  | fork => simp [GuardState.next, hposition] at hfork
  | assign pid => simp [GuardState.next, hposition] at hassign
  | examine status => simp [GuardState.next, hposition] at hexamine
  | exited code => exact absurd hposition (hrunning code)
  | wait =>
    rw [hposition] at hdoing
    obtain ⟨⟨pid, status⟩, hserver, hpid, -⟩ := hdoing
    cases status with
    | some status => simp [GuardState.next, hposition, hserver] at hwait
    | none =>
      rw [live, hserver]
      exact congrArg some hpid

/-- **Run lemma.** -/
theorem supervised_of_exec {labels : List GuardLabel} {s : GuardState}
    (h : exec next start labels = some s) : Supervised labels s := by
  have hstart : Supervised [] start := ⟨[], nofun, rfl, rfl⟩
  exact holds_of_exec (fun _ _ _ _ hs hnext => hs.next hnext) hstart h

/-- **The guard supervises.**  After any run, the forks and deaths are those of servers that had to
    be started again, one after the other, and of at most one more; and a guard that has not exited
    stands still only while its server is alive. -/
theorem supervised {labels : List GuardLabel} {s : GuardState}
    (h : exec next start labels = some s) :
    Supervised labels s ∧
      ((∀ code, s.position ≠ .exited code) →
        (∀ label ∈ [GuardLabel.forkFails, .assign, .wait, .examine], next s label = none) →
        s.live = some s.childPid) := by
  have hrun := supervised_of_exec h
  exact ⟨hrun, hrun.live_of_blocked⟩

/-- After the run above: one server that crashed, and one that ended the guard. -/
theorem obeyedRun_supervised :
    ∃ s, exec next start obeyedRun = some s ∧ s.position = .exited 0 ∧ Supervised obeyedRun s :=
  ⟨_, rfl, rfl, (@supervised obeyedRun _ rfl).1⟩

end ThreadServer.GuardState
