/-
  What the constructor of `ThreadServer_t` does once the handlers and the listeners are registered,
  up to the guard's loop (`threadserver.cc`): with the pid file, and around `detach`.

  1. **Program** (`startup`) — the pid file is opened for appending, so that an error can still be
     seen; in the background it is opened again, emptied and given the pid, as far as the write
     succeeds: the stream is not asked.  What a process and its ancestors have done to files is
     recorded.
  2. **Specification** (`InBackground`) — the one process that goes on, what it is and what it has
     written.
  3. **Result** (`startup_inBackground`) — `detach` has changed the directory in between.  So the
     file that was tested is the one that is written exactly if the path is absolute or leads
     through the root.  `execv` is given the program that was started if that holds of `argv[0]`;
     but an `argv[0]` without a slash was looked up in `PATH`, where `execv` does not look.

  Directories are a tree, without links.
-/
import ThreadServer.Detach
import ThreadServer.Lib.Paths

namespace ThreadServer

open Bytes Posix Paths

/-! ## The program -/

/-- What is done to files. -/
inductive FileOp
  /-- Opened for appending: it is there afterwards, and unchanged if it was there. -/
  | openAppend (file : List Bytes)
  /-- Opened for writing: it is empty afterwards. -/
  | openTruncate (file : List Bytes)
  | write (file : List Bytes) (text : Bytes)
  deriving DecidableEq

/-- A process, and what it and its ancestors have done to files. -/
abbrev Starting := Process Bytes Bytes × List FileOp

/-- What the constructor leaves a process to do. -/
inductive Role
  /-- To fork servers and wait for them. -/
  | guard
  /-- To create the workers. -/
  | server
  deriving DecidableEq

/-- What the system makes of the calls. -/
structure StartupCalls extends DetachCalls where
  openAppend : Bool
  openTruncate : Bool
  /-- How many bytes get into the pid file at most. -/
  writes : Nat

/-- Do something to the file that a path (a C string) names to the process; if it fails, the
    exception leaves the constructor, and `main` returns 1. -/
def openPidFile (succeeds : Bool) (op : List Bytes → FileOp) (pidFile : Bytes) :
    Forking Starting Nat Unit := fun (p, done) =>
  if succeeds then [((p, done ++ [op (resolve p.directory (cStr pidFile))]), .ok ())]
  else [((p, done), .error 1)]

/-- What `pidFileStream << getpid() << std::endl` puts into the file. -/
def pidText (calls : StartupCalls) (pid : Nat) : Bytes :=
  (decimal pid ++ str "\n").take calls.writes

/-- `pidFileStream << getpid() << std::endl`. -/
def writePid (pidFile : Bytes) (calls : StartupCalls) : Forking Starting Nat Unit :=
  fun (p, done) =>
    [((p, done ++ [.write (resolve p.directory (cStr pidFile)) (pidText calls p.pid)]), .ok ())]

/-- What is between `detach()` and the guard's loop. -/
def recordPid (pidFile : Bytes) (calls : StartupCalls) : Forking Starting Nat Unit :=
  if pidFile ≠ [] then do
    openPidFile calls.openTruncate .openTruncate pidFile
    writePid pidFile calls
  else pure ()

/-- `ThreadServer_t::ThreadServer_t`, behind `registerListeners()`. -/
def startup (pidFile : Bytes) (nodetach : Bool) (calls : StartupCalls) :
    Forking Starting Nat Role := do
  if pidFile ≠ [] ∧ nodetach = false then openPidFile calls.openAppend .openAppend pidFile
  if nodetach then pure .server
  else do
    Forking.withState (detach calls.toDetachCalls)
    recordPid pidFile calls
    pure .guard

/-- The program that the guard's children execute: `execv(argv[0], args)`. -/
def serverProgram (guard : Process Bytes Bytes) (argv0 : Bytes) : List Bytes :=
  resolve guard.directory argv0

/-- The program that was started under the name `argv0`.  A shell takes a name with a slash as a
    path; for any other it looks in `PATH`, and has `found` the program there. -/
def startedProgram (directory argv0 : Bytes) (found : List Bytes) : List Bytes :=
  if chr '/' ∈ argv0 then resolve directory argv0 else found

/-! ## The specification -/

/-- Every call succeeds that ends the process otherwise. -/
def StartupCalls.Succeed (pidFile : Bytes) (calls : StartupCalls) : Prop :=
  (pidFile ≠ [] → calls.openAppend ∧ calls.openTruncate) ∧ calls.toDetachCalls.Succeed

/-- A path names the same file to a process in this directory and to one in the root. -/
def NamesSame (directory path : Bytes) : Prop :=
  isAbsolute path = true ∨
    reachesRoot (follow [] (components directory)).length (components path) = true

instance (directory path : Bytes) : Decidable (NamesSame directory path) :=
  inferInstanceAs (Decidable (_ ∨ _))

/-- **The guard** that a foreground process `p` has become. -/
structure Guards (pidFile : Bytes) (calls : StartupCalls) (p : Process Bytes Bytes)
    (q : Starting) : Prop where
  daemon : Daemon calls.toDetachCalls p q.1
  /-- Its pid is written into the file of this name in the root, whatever file was tested, as far
      as the write succeeds. -/
  written : q.2 = if pidFile = [] then [] else
    [.openAppend (resolve p.directory (cStr pidFile)),
      .openTruncate (resolve (str "/") (cStr pidFile)),
      .write (resolve (str "/") (cStr pidFile)) (pidText calls q.1.pid)]
  tested : resolve (str "/") (cStr pidFile) = resolve p.directory (cStr pidFile) ↔
    NamesSame p.directory (cStr pidFile)
  program : ∀ argv0 found, serverProgram q.1 argv0 = startedProgram p.directory argv0 found ↔
    if chr '/' ∈ argv0 then NamesSame p.directory argv0 else found = resolve (str "/") argv0

/-- The processes that a foreground process has become: one that goes on as the guard or has exited
    with 1, and parents that have exited with 0. -/
def InBackground (pidFile : Bytes) (calls : StartupCalls) (p : Process Bytes Bytes)
    (processes : List (Starting × Except Nat Role)) : Prop :=
  ∃ q outcome parents, processes = (q, outcome) :: parents ∧
    (∀ parent ∈ parents, parent.2 = .error 0) ∧
    (calls.Succeed pidFile ∧ outcome = .ok .guard ∧ Guards pidFile calls p q ∨
      ¬ calls.Succeed pidFile ∧ outcome = .error 1)

/-! ## The result -/

theorem run_recordPid (pidFile : Bytes) (calls : StartupCalls) (q : Process Bytes Bytes)
    (done : List FileOp) :
    (recordPid pidFile calls).run (q, done) =
      if pidFile = [] then [((q, done), .ok ())]
      else if calls.openTruncate then
        [((q, done ++ [.openTruncate (resolve q.directory (cStr pidFile)),
          .write (resolve q.directory (cStr pidFile)) (pidText calls q.pid)]), .ok ())]
      else [((q, done), .error 1)] := by
  by_cases hpidFile : pidFile = []
  · rw [if_pos hpidFile, recordPid, if_neg (not_not_intro hpidFile)]
    rfl
  · rw [if_neg hpidFile, recordPid, if_pos hpidFile]
    cases htruncate : calls.openTruncate with
    | false => rfl
    | true =>
      show [((q, (done ++ [_]) ++ [_]), Except.ok ())] = _
      rw [List.append_assoc]
      rfl

/-- What the test has done. -/
def testOps (pidFile : Bytes) (p : Process Bytes Bytes) : List FileOp :=
  if pidFile = [] then [] else [.openAppend (resolve p.directory (cStr pidFile))]

/-- How the constructor goes on in a process that comes out of `detach`. -/
def afterDetach (pidFile : Bytes) (calls : StartupCalls) (done : List FileOp) :
    Process Bytes Bytes × Except Nat Unit → List (Starting × Except Nat Role)
  | (q, .ok ()) => ((do recordPid pidFile calls; pure .guard : Forking Starting Nat Role)).run
      (q, done)
  | (q, .error status) => [((q, done), .error status)]

theorem run_startup {pidFile : Bytes} {calls : StartupCalls}
    (htest : pidFile ≠ [] → calls.openAppend) (p : Process Bytes Bytes) :
    (startup pidFile false calls).run (p, []) =
      ((detach calls.toDetachCalls).run p).flatMap
        (afterDetach pidFile calls (testOps pidFile p)) := by
  have hdetach : ∀ done, (do
        Forking.withState (detach calls.toDetachCalls)
        recordPid pidFile calls
        pure .guard : Forking Starting Nat Role).run (p, done) =
      ((detach calls.toDetachCalls).run p).flatMap (afterDetach pidFile calls done) := by
    intro done
    rw [Forking.run_bind, Forking.run_withState, List.flatMap_map]
    refine congrArg (List.flatMap · _) (funext ?_)
    rintro ⟨q, ⟨⟩ | ⟨⟩⟩ <;> rfl
  by_cases hpidFile : pidFile = []
  · rw [startup, if_neg (fun h => h.1 hpidFile), testOps, if_pos hpidFile]
    exact hdetach []
  · have hopen : (openPidFile calls.openAppend .openAppend pidFile).run (p, []) =
        [((p, [.openAppend (resolve p.directory (cStr pidFile))]), .ok ())] := by
      rw [htest hpidFile]
      rfl
    rw [startup, if_pos ⟨hpidFile, rfl⟩, testOps, if_neg hpidFile, Forking.run_bind_of_ok hopen]
    exact hdetach _

/-- The test fails. -/
theorem run_startup_untested {pidFile : Bytes} {calls : StartupCalls} (hpidFile : pidFile ≠ [])
    (htest : calls.openAppend = false) (p : Process Bytes Bytes) :
    (startup pidFile false calls).run (p, []) = [((p, []), .error 1)] := by
  have hopen : (openPidFile calls.openAppend .openAppend pidFile).run (p, []) =
      [((p, []), .error 1)] := by
    rw [htest]
    rfl
  rw [startup, if_pos ⟨hpidFile, rfl⟩]
  exact Forking.run_bind_of_error hopen _

theorem afterDetach_ok {q : Process Bytes Bytes} (hdirectory : q.directory = str "/")
    (pidFile : Bytes) (calls : StartupCalls) (done : List FileOp) :
    afterDetach pidFile calls done (q, .ok ()) =
      [if pidFile = [] then ((q, done), .ok .guard)
      else if calls.openTruncate then
        ((q, done ++ [.openTruncate (resolve (str "/") (cStr pidFile)),
          .write (resolve (str "/") (cStr pidFile)) (pidText calls q.pid)]), .ok .guard)
      else ((q, done), .error 1)] := by
  rw [afterDetach, Forking.run_bind, run_recordPid, hdirectory]
  split_ifs <;> rfl

/-- The parents in `detach` have exited before. -/
theorem flatMap_afterDetach {pidFile : Bytes} {calls : StartupCalls} {done : List FileOp}
    {parents : List (Process Bytes Bytes × Except Nat Unit)}
    (h : ∀ parent ∈ parents, parent.2 = .error 0) :
    ∀ parent ∈ parents.flatMap (afterDetach pidFile calls done), parent.2 = .error 0 := by
  intro parent hmem
  obtain ⟨⟨q, outcome⟩, hq, hparent⟩ := List.mem_flatMap.mp hmem
  obtain rfl : outcome = .error 0 := h _ hq
  rw [List.mem_singleton.mp hparent]

theorem guards_of_daemon {pidFile : Bytes} {calls : StartupCalls} {p q : Process Bytes Bytes}
    (h : Daemon calls.toDetachCalls p q) {done : List FileOp}
    (hdone : done = if pidFile = [] then [] else
      [.openAppend (resolve p.directory (cStr pidFile)),
        .openTruncate (resolve (str "/") (cStr pidFile)),
        .write (resolve (str "/") (cStr pidFile)) (pidText calls q.pid)]) :
    Guards pidFile calls p (q, done) where
  daemon := h
  written := hdone
  tested := resolve_root_eq_iff _ _
  program argv0 found := by
    rw [serverProgram, h.directory, startedProgram]
    by_cases hslash : chr '/' ∈ argv0
    · rw [if_pos hslash, if_pos hslash]
      exact resolve_root_eq_iff _ _
    · rw [if_neg hslash, if_neg hslash]
      exact eq_comm

/-- **Into the background.**  One process goes on, as the guard, exactly if all the calls succeed
    whose failure is noticed.  What is written of its pid is in the pid file of the root directory,
    and it executes what `argv[0]` names there; these are the file that was tested and the program
    that was started exactly if the paths are absolute or lead through the root, a program found in
    `PATH` only if it is in the root. -/
theorem startup_inBackground (pidFile : Bytes) (calls : StartupCalls) (p : Process Bytes Bytes)
    (h : calls.toDetachCalls.Fresh p) :
    InBackground pidFile calls p ((startup pidFile false calls).run (p, [])) := by
  by_cases htest : pidFile ≠ [] → calls.openAppend
  case neg =>
    obtain ⟨hpidFile, hfail⟩ := Classical.not_imp.mp htest
    rw [run_startup_untested hpidFile (Bool.eq_false_iff.mpr hfail)]
    exact ⟨_, _, [], rfl, nofun, .inr ⟨fun hsucceed => hfail (hsucceed.1 hpidFile).1, rfl⟩⟩
  obtain ⟨q, outcome, parents, hrun, hparents, hends⟩ := endings_detach calls.toDetachCalls p h
  have hparents' := @flatMap_afterDetach pidFile calls (testOps pidFile p) _ hparents
  rw [run_startup htest, hrun, List.flatMap_cons]
  generalize parents.flatMap (afterDetach pidFile calls (testOps pidFile p)) = rest at hparents' ⊢
  rcases hends with ⟨hsucceed, rfl, hdaemon⟩ | ⟨hfail, rfl⟩
  case inr =>
    exact ⟨_, _, _, rfl, hparents', .inr ⟨fun hsucceed => hfail hsucceed.2, rfl⟩⟩
  rw [afterDetach_ok hdaemon.directory, List.singleton_append, testOps]
  by_cases hpidFile : pidFile = []
  · rw [if_pos hpidFile, if_pos hpidFile]
    refine ⟨_, _, _, rfl, hparents', .inl ⟨⟨fun hne => absurd hpidFile hne, hsucceed⟩, rfl, ?_⟩⟩
    exact guards_of_daemon hdaemon (if_pos hpidFile).symm
  · rw [if_neg hpidFile, if_neg hpidFile]
    cases htruncate : calls.openTruncate with
    | true =>
      refine ⟨_, _, _, rfl, hparents', .inl ⟨⟨fun _ => ⟨htest hpidFile, htruncate⟩, hsucceed⟩,
        rfl, ?_⟩⟩
      exact guards_of_daemon hdaemon (if_neg hpidFile).symm
    | false =>
      refine ⟨_, _, _, rfl, hparents', .inr ⟨fun hsucceed => ?_, rfl⟩⟩
      exact absurd (htruncate.symm.trans (hsucceed.1 hpidFile).2) (by decide)

/-- **In the foreground** nothing of this happens, whatever the calls would do: so a server that the
    guard executes with `-d` does not detach again, and leaves the pid file alone. -/
theorem startup_nodetach (pidFile : Bytes) (calls : StartupCalls) (s : Starting) :
    (startup pidFile true calls).run s = [(s, .ok .server)] := by
  rw [startup, if_neg fun h => Bool.noConfusion h.2, if_pos rfl]
  rfl

/-- All its calls succeed. -/
def quietStartup : StartupCalls :=
  { quietCalls with openAppend := true, openTruncate := true, writes := 11 }

theorem closedInput_inBackground :
    InBackground (str "run/pid") quietStartup closedInput
        ((startup (str "run/pid") false quietStartup).run (closedInput, [])) ∧
      ¬ NamesSame closedInput.directory (str "run/pid") :=
  ⟨startup_inBackground (str "run/pid") quietStartup closedInput (by
    simp [DetachCalls.Fresh, quietStartup, quietCalls, closedInput]), by decide⟩

end ThreadServer
