/-
  The guard process: the loop in `ThreadServer_t::ThreadServer_t` that forks the server, waits for
  it and forks it again when it crashed (`threadserver.cc`), with `signalHandler` running between
  any two of its steps (`main.cc`).

  1. **State** — where the guard is in its loop (`Position`), the global `childPid` and `run`, and
     the server process it forked: alive, or dead with a status that `wait` has not taken yet.
  2. **Steps** — `fork` (which returns a fresh pid, or fails), the assignment `childPid = pid`, the
     `wait` that takes the status of a dead server, and the decision to restart or exit; the death
     of the server at any time; a signal delivered to the guard at any time.
  3. **Specification** (`ShutdownHonoured`) — what a shutdown signal is owed, over the record of
     signals handled and servers forked.
  4. **Result** (`shutdown_honoured`) — a shutdown signal is honoured when it finds the guard in
     `wait` with no crashed server to restart, and the server does not crash afterwards.  The window
     between `fork` and the assignment is enough to lose one (`unrecordedRun_not_honoured`), and so
     are the other ways to miss the condition (`signal_before_assign_lost`,
     `signal_after_wait_misdirected`, `restart_forks_late`).

  `pid`s are positive, as `fork` returns them to a parent; a pid may be used again once reaped.
-/
import ThreadServer.Lib.Transition

namespace ThreadServer

/-- A signal number. -/
abbrev Signo := Nat

def SIGHUP : Signo := 1
def SIGINT : Signo := 2
def SIGKILL : Signo := 9
def SIGUSR1 : Signo := 10
def SIGTERM : Signo := 15

/-- A process id. -/
abbrev Pid := Nat

/-- The `status` that `wait` stores. -/
inductive Status
  | exited (code : Nat)
  | signaled (signo : Signo)
  deriving DecidableEq, Repr

/-- `WEXITSTATUS(status)`. -/
def Status.exitStatus : Status → Nat
  | exited code => code % 256
  | signaled _ => 0

/-- The server died of a signal other than the three that end the guard as well. -/
def Status.restarts : Status → Bool
  | exited _ => false
  | signaled signo => signo ≠ SIGKILL ∧ signo ≠ SIGTERM ∧ signo ≠ SIGINT

/-- Where the guard is in its loop. -/
inductive Position
  /-- About to call `fork`. -/
  | fork
  /-- `fork` has returned `pid`, which is not in `childPid` yet. -/
  | assign (pid : Pid)
  /-- In `wait`. -/
  | wait
  /-- `wait` has returned with `status`. -/
  | examine (status : Status)
  | exited (code : Nat)
  deriving DecidableEq, Repr

/-- A server process that the guard has not reaped; its status once it is dead. -/
structure ServerProcess where
  pid : Pid
  status : Option Status
  deriving DecidableEq, Repr

/-- One run of `signalHandler` in the guard: the pid it sent the signal to (if any), whether the
    guard had already reaped that pid, the server alive at that moment (if any), and `run` after
    it. -/
structure Handled where
  signo : Signo
  target : Option Pid
  targetReaped : Bool
  live : Option Pid
  run : Bool
  deriving DecidableEq, Repr

/-- The guard, its server, and the record the specification speaks of: the signals handled and the
    servers forked after a shutdown signal was. -/
structure GuardState where
  position : Position
  childPid : Pid
  run : Bool
  server : Option ServerProcess
  reaped : List Pid
  handled : List Handled
  lateForks : List Pid
  deriving DecidableEq, Repr

/-- Who does what. -/
inductive GuardLabel
  | fork (pid : Pid)
  | forkFails
  | assign
  | wait
  | examine
  | serverDies (status : Status)
  | signal (signo : Signo)
  deriving DecidableEq, Repr

namespace GuardState

open Transition

/-! ## The program -/

/-- The guard when it enters its loop. -/
def start : GuardState where
  position := .fork
  childPid := 0
  run := true
  server := none
  reaped := []
  handled := []
  lateForks := []

/-- The pid of the server, if it is alive. -/
def live (s : GuardState) : Option Pid :=
  match s.server with
  | some ⟨pid, none⟩ => some pid
  | _ => none

/-- What one run of `signalHandler` does: pass the signal on, and on a shutdown signal clear
    `run`. -/
def handling (s : GuardState) (signo : Signo) : Handled :=
  let target := if s.childPid ≠ 0 then some s.childPid else none
  { signo
    target
    targetReaped := target.any (· ∈ s.reaped)
    live := s.live
    run := if signo = SIGINT ∨ signo = SIGTERM then false else s.run }

/-- `signalHandler(signo)`. -/
def signalHandler (s : GuardState) (signo : Signo) : GuardState :=
  { s with run := (s.handling signo).run, handled := s.handled ++ [s.handling signo] }

/-- The signals `main` installs `signalHandler` for. -/
def installed : List Signo := [SIGTERM, SIGINT, SIGHUP, SIGUSR1]

/-- One step of the guard, of its server, or of the system delivering a signal. -/
def next (s : GuardState) (label : GuardLabel) : Option GuardState :=
  match label, s.position with
  | .fork pid, .fork =>
    if pid ≠ 0 then
      some { s with
        position := .assign pid
        server := some ⟨pid, none⟩
        reaped := s.reaped.filter (· ≠ pid)
        lateForks := if s.run then s.lateForks else s.lateForks ++ [pid] }
    else none
  -- the exception reaches `main`, which returns 1; so it does when `wait` has no child
  | .forkFails, .fork => some { s with position := .exited 1 }
  | .assign, .assign pid => some { s with position := .wait, childPid := pid }
  | .wait, .wait =>
    match s.server with
    | none => some { s with position := .exited 1 }
    | some ⟨_, none⟩ => none
    | some ⟨pid, some status⟩ =>
      some { s with position := .examine status, server := none, reaped := pid :: s.reaped }
  | .examine, .examine status =>
    some { s with
      position := if status.restarts then .fork else .exited status.exitStatus }
  | .serverDies status, _ =>
    match s.server with
    | some ⟨pid, none⟩ => some { s with server := some ⟨pid, some status⟩ }
    | _ => none
  | .signal _, .exited _ => none
  | .signal signo, _ => if signo ∈ installed then some (s.signalHandler signo) else none
  | _, _ => none

/-- The steps of `next`, with everything each has checked. -/
inductive Step (s : GuardState) : GuardLabel → GuardState → Prop
  | fork {pid} : s.position = .fork → pid ≠ 0 → Step s (.fork pid)
      { s with
        position := .assign pid
        server := some ⟨pid, none⟩
        reaped := s.reaped.filter (· ≠ pid)
        lateForks := if s.run then s.lateForks else s.lateForks ++ [pid] }
  | forkFails : s.position = .fork → Step s .forkFails { s with position := .exited 1 }
  | assign {pid} : s.position = .assign pid →
      Step s .assign { s with position := .wait, childPid := pid }
  | waitFails : s.position = .wait → s.server = none → Step s .wait { s with position := .exited 1 }
  | wait {pid status} : s.position = .wait → s.server = some ⟨pid, some status⟩ → Step s .wait
      { s with position := .examine status, server := none, reaped := pid :: s.reaped }
  | restart {status} : s.position = .examine status → status.restarts = true →
      Step s .examine { s with position := .fork }
  | exit {status} : s.position = .examine status → status.restarts = false →
      Step s .examine { s with position := .exited status.exitStatus }
  | serverDies {pid status} : s.server = some ⟨pid, none⟩ →
      Step s (.serverDies status) { s with server := some ⟨pid, some status⟩ }
  | signal {signo} : (∀ code, s.position ≠ .exited code) → signo ∈ installed →
      Step s (.signal signo) (s.signalHandler signo)

/-- **Inversion**: a step is one of the kinds above. -/
theorem step_of_next {s s' : GuardState} {label : GuardLabel} (h : next s label = some s') :
    Step s label s' := by
  unfold next at h
  split at h
  · rename_i hposition
    split at h
    · obtain rfl := Option.some.inj h
      exact .fork hposition ‹_›
    · cases h
  · rename_i hposition
    obtain rfl := Option.some.inj h
    exact .forkFails hposition
  · rename_i hposition
    obtain rfl := Option.some.inj h
    exact .assign hposition
  · rename_i hposition
    split at h
    · obtain rfl := Option.some.inj h
      exact .waitFails hposition ‹_›
    · cases h
    · obtain rfl := Option.some.inj h
      exact .wait hposition ‹_›
  · rename_i status hposition
    obtain rfl := Option.some.inj h
    cases hrestarts : status.restarts with
    | true => exact .restart hposition hrestarts
    | false => exact .exit hposition hrestarts
  · split at h
    · obtain rfl := Option.some.inj h
      exact .serverDies ‹_›
    · cases h
  · cases h
  · rename_i hposition
    split at h
    · obtain rfl := Option.some.inj h
      exact .signal (fun code hcode => hposition code hcode) ‹_›
    · cases h
  · cases h

/-! ## What a shutdown signal is owed -/

/-- Once a shutdown signal has been handled: no server is forked, the server that was alive got the
    signal, and no signal went to a pid the guard had reaped. -/
structure ShutdownHonoured (s : GuardState) : Prop where
  noFork : s.lateForks = []
  passedOn : ∀ h ∈ s.handled, h.signo = SIGTERM ∨ h.signo = SIGINT →
    ∀ pid, h.live = some pid → h.target = some pid
  unreaped : ∀ h ∈ s.handled, h.run = false → h.targetReaped = false

/-- A shutdown signal, and any signal after one, finds the guard in `wait`; when the first one
    arrives, no crashed server is waiting to be restarted, and after it the server does not die of a
    signal that restarts it. -/
def Undisturbed (s : GuardState) : GuardLabel → Prop
  | .signal signo =>
    (signo = SIGTERM ∨ signo = SIGINT ∨ s.run = false → s.position = .wait) ∧
    (signo = SIGTERM ∨ signo = SIGINT →
      ∀ server ∈ s.server, ∀ status ∈ server.status, status.restarts = false)
  | .serverDies status => s.run = false → status.restarts = false
  | _ => True

instance (s : GuardState) : (label : GuardLabel) → Decidable (Undisturbed s label)
  | .signal _ => by show Decidable (_ ∧ _); infer_instance
  | .serverDies _ => by show Decidable (_ → _); infer_instance
  | .fork _ | .forkFails | .assign | .wait | .examine => isTrue trivial

/-- After a shutdown signal the guard is on its way out: waiting for a server that does not restart,
    or done with it. -/
def Leaving (s : GuardState) : Prop :=
  match s.position with
  | .wait => ∀ server ∈ s.server, ∀ status ∈ server.status, status.restarts = false
  | .examine status => status.restarts = false
  | .exited _ => True
  | .fork | .assign _ => False

/-- The pid of the server the guard has forked and not reaped, as its position has it. -/
def expected (s : GuardState) : Option Pid :=
  match s.position with
  | .assign pid => some pid
  | .wait => some s.childPid
  | .fork | .examine _ | .exited _ => none

/-- The invariant: the server the guard goes by is there and not reaped, a shutdown is under way
    once its signal was handled; and what is owed to shutdown signals. -/
structure Guarded (s : GuardState) : Prop extends ShutdownHonoured s where
  owned : ∀ pid, s.expected = some pid → pid ≠ 0 ∧ s.server.map (·.pid) = some pid
  unreapedServer : ∀ pid, s.server.map (·.pid) = some pid → pid ∉ s.reaped
  leaving : s.run = false → s.Leaving

theorem guarded_start : Guarded start where
  noFork := rfl
  passedOn _ h := nomatch h
  unreaped _ h := nomatch h
  owned _ h := nomatch h
  unreapedServer _ h := nomatch h
  leaving h := nomatch h

theorem live_eq_some {s : GuardState} {pid : Pid} (h : s.live = some pid) :
    s.server = some ⟨pid, none⟩ := by
  unfold live at h
  split at h
  · obtain rfl := Option.some.inj h
    assumption
  · cases h

/-- While the guard waits, `signalHandler` sends the signal to the server, which is not reaped. -/
theorem Guarded.handling {s : GuardState} (h : Guarded s) (hposition : s.position = .wait)
    (signo : Signo) :
    (s.handling signo).target = s.server.map (·.pid) ∧ (s.handling signo).targetReaped = false := by
  obtain ⟨hne, hserver⟩ := h.owned s.childPid (by rw [expected, hposition])
  have hunreaped := h.unreapedServer s.childPid hserver
  simp [GuardState.handling, hne, hserver, hunreaped]

/-- The step lemma for `signalHandler`. -/
theorem Guarded.signalHandler {s : GuardState} {signo : Signo} (h : Guarded s)
    (hC : Undisturbed s (.signal signo)) : Guarded (s.signalHandler signo) := by
  obtain ⟨hwait, hstatus⟩ := hC
  refine ⟨⟨h.noFork, fun r hr hsigno pid hlive => ?_, fun r hr hrun => ?_⟩, h.owned,
    h.unreapedServer, fun hrun => ?_⟩
  · rcases List.mem_append.mp hr with hr | hr
    · exact h.passedOn r hr hsigno pid hlive
    · obtain rfl := List.mem_singleton.mp hr
      have hposition := hwait (hsigno.imp_right Or.inl)
      rw [(h.handling hposition signo).1, live_eq_some hlive]
      rfl
  · rcases List.mem_append.mp hr with hr | hr
    · exact h.unreaped r hr hrun
    · obtain rfl := List.mem_singleton.mp hr
      have hposition : s.position = .wait := by
        refine hwait ?_
        by_cases hsigno : signo = SIGINT ∨ signo = SIGTERM
        · exact hsigno.elim (fun h => Or.inr (Or.inl h)) Or.inl
        · exact Or.inr (Or.inr (by simpa [GuardState.handling, hsigno] using hrun))
      exact (h.handling hposition signo).2
  · by_cases hsigno : signo = SIGTERM ∨ signo = SIGINT
    · show s.Leaving
      rw [Leaving, hwait (hsigno.imp_right Or.inl)]
      exact hstatus hsigno
    · refine h.leaving ?_
      rw [not_or] at hsigno
      simpa [GuardState.signalHandler, GuardState.handling, hsigno] using hrun

/-- **Step lemma**: a step that does not disturb a shutdown keeps it honoured. -/
theorem guarded_step {s s' : GuardState} {label : GuardLabel} (h : Guarded s)
    (hC : Undisturbed s label) (hnext : next s label = some s') : Guarded s' := by
  cases step_of_next hnext with
  | @fork pid hposition hpid =>
    -- a guard that is leaving does not fork
    have hrun : s.run ≠ false := fun hrun => by
      have hleaving := h.leaving hrun
      rw [Leaving, hposition] at hleaving
      exact hleaving
    refine ⟨⟨?_, h.passedOn, h.unreaped⟩, fun pid' hexpected => ?_, fun pid' hserver => ?_,
      fun hrun' => absurd hrun' hrun⟩
    · rw [if_pos (Bool.of_not_eq_false hrun)]
      exact h.noFork
    · obtain rfl := Option.some.inj hexpected
      exact ⟨hpid, rfl⟩
    · obtain rfl := Option.some.inj hserver
      simp
  | @assign pid hposition =>
    refine ⟨⟨h.noFork, h.passedOn, h.unreaped⟩, fun pid' hexpected => ?_, h.unreapedServer,
      fun hrun => ?_⟩
    · obtain rfl := Option.some.inj hexpected
      exact h.owned pid (by rw [expected, hposition])
    · have hleaving := h.leaving hrun
      rw [Leaving, hposition] at hleaving
      exact absurd hleaving not_false
  | @wait pid status hposition hserver =>
    refine ⟨⟨h.noFork, h.passedOn, h.unreaped⟩, fun _ hp => (nomatch hp), fun _ hs => (nomatch hs),
      fun hrun => ?_⟩
    have hleaving := h.leaving hrun
    rw [Leaving, hposition] at hleaving
    exact hleaving _ hserver status rfl
  | @restart status hposition hrestarts =>
    refine ⟨⟨h.noFork, h.passedOn, h.unreaped⟩, fun _ hp => (nomatch hp), h.unreapedServer,
      fun hrun => ?_⟩
    have hleaving := h.leaving hrun
    rw [Leaving, hposition] at hleaving
    exact absurd (hrestarts.symm.trans hleaving) (by decide)
  | forkFails | waitFails | exit =>
    exact ⟨⟨h.noFork, h.passedOn, h.unreaped⟩, fun _ hp => (nomatch hp), h.unreapedServer,
      fun _ => trivial⟩
  | @serverDies pid status hserver =>
    refine ⟨⟨h.noFork, h.passedOn, h.unreaped⟩, fun pid' hexpected => ?_, fun pid' hs => ?_,
      fun hrun => ?_⟩
    · have howned := h.owned pid' hexpected
      rw [hserver] at howned
      exact howned
    · refine h.unreapedServer pid' ?_
      rw [hserver]
      exact hs
    · have hleaving := h.leaving hrun
      cases hposition : s.position with
      | wait =>
        intro server hs status' hstatus
        obtain rfl : _ = server := Option.some.inj hs
        obtain rfl := Option.some.inj hstatus
        exact hC hrun
      | fork | assign pid | examine status | exited code =>
        rw [Leaving, hposition] at hleaving
        exact hleaving
  | signal hposition hinstalled => exact h.signalHandler hC

/-- **Shutdown signals are honoured** in every run of the guard in which they, and all signals after
    them, find it in `wait` with no crashed server to restart, and the server does not crash
    afterwards. -/
theorem shutdown_honoured (labels : List GuardLabel)
    (h : StepsMeet next Undisturbed start labels) :
    Throughout next ShutdownHonoured start labels :=
  throughout_of_stepsMeet (fun _ h => h.toShutdownHonoured)
    (fun _ _ _ h hC hnext => guarded_step h hC hnext) guarded_start h

/-! Outside `wait`, and with a server that is to be restarted, the shutdown is not honoured. -/

/-- Before the assignment, the new server does not get the signal. -/
theorem signal_before_assign_lost {s s' : GuardState} {pid : Pid}
    (hserver : s.server = some ⟨pid, none⟩) (hchild : s.childPid ≠ pid)
    (hnext : next s (.signal SIGTERM) = some s') : ¬ ShutdownHonoured s' := by
  intro h
  cases step_of_next hnext with
  | signal hposition hinstalled =>
    have hlive : (s.handling SIGTERM).live = some pid := by
      simp [GuardState.handling, live, hserver]
    have hmem : s.handling SIGTERM ∈ (s.signalHandler SIGTERM).handled :=
      List.mem_append_right _ (List.mem_singleton.mpr rfl)
    have htarget := h.passedOn _ hmem (Or.inl rfl) pid hlive
    simp only [GuardState.handling] at htarget
    split at htarget
    · exact hchild (Option.some.inj htarget)
    · cases htarget

/-- After `wait` has returned, the signal goes to the pid that was reaped. -/
theorem signal_after_wait_misdirected {s s' : GuardState} (hchild : s.childPid ≠ 0)
    (hreaped : s.childPid ∈ s.reaped) (hnext : next s (.signal SIGTERM) = some s') :
    ¬ ShutdownHonoured s' := by
  intro h
  cases step_of_next hnext with
  | signal hposition hinstalled =>
    have hmem : s.handling SIGTERM ∈ (s.signalHandler SIGTERM).handled :=
      List.mem_append_right _ (List.mem_singleton.mpr rfl)
    have hunreaped := h.unreaped _ hmem rfl
    simp [GuardState.handling, hchild, hreaped] at hunreaped

/-- A server that dies of a restarting signal after the shutdown signal is forked again. -/
theorem restart_forks_late {s : GuardState} {status : Status} {pid : Pid}
    (hposition : s.position = .examine status) (hrestarts : status.restarts = true)
    (hrun : s.run = false) (hpid : pid ≠ 0) :
    ∃ t, exec next s [.examine, .fork pid] = some t ∧ ¬ ShutdownHonoured t := by
  have hexamine : next s .examine = some { s with position := .fork } := by
    simp [next, hposition, hrestarts]
  refine ⟨_, exec_cons.mpr ⟨_, hexamine, exec_cons.mpr ⟨_, if_pos hpid, rfl⟩⟩, fun h => ?_⟩
  have hnone := h.noFork
  simp [hrun] at hnone

/-- A crash, a restart, and then a shutdown that the second server obeys. -/
def obeyedRun : List GuardLabel :=
  [.fork 100, .assign, .serverDies (.signaled 11), .wait, .examine, .fork 101, .assign,
    .signal SIGTERM, .serverDies (.exited 0), .wait, .examine]

theorem obeyedRun_honoured : Throughout next ShutdownHonoured start obeyedRun :=
  shutdown_honoured obeyedRun (by decide)

/-- A shutdown signal between `fork` and the assignment of its result. -/
def unrecordedRun : List GuardLabel := [.fork 100, .signal SIGTERM]

/-- **Counterexample**: that signal is not passed on to the server. -/
theorem unrecordedRun_not_honoured : ¬ Throughout next ShutdownHonoured start unrecordedRun := by
  intro h
  have hpassed := (h.last rfl).passedOn ⟨SIGTERM, none, false, some 100, false⟩ (by decide)
    (Or.inl rfl) 100 rfl
  cases hpassed

end GuardState

end ThreadServer
