/-
  Into the background: `ThreadServer_t::detach` (`threadserver.cc`).

  1. **Program** — the two forks, whose parents exit, with `setsid` between them; the directory and
     the mask; and `/dev/null` in the place of the three standard descriptors.  A call that fails
     ends the process that made it, but for the `close` at the end.
  2. **Specification** (`Daemon`) — what the process that goes on is.
  3. **Result** (`detach_daemon`) — exactly one process goes on if all the calls succeed, and then
     it is a daemon; otherwise exactly one has exited with 1, which need not be the one that the
     shell waits for: that one reports success as soon as it has forked.

  `setsid` cannot fail: the process that calls it has just been forked, so it leads no group.
-/
import ThreadServer.Lib.Bytes
import ThreadServer.Lib.Posix

namespace ThreadServer

open Bytes Posix

/-! ## The program -/

/-- What the system makes of the calls.  A call that is interrupted is made again
    (`TEMP_FAILURE_RETRY`), so each of them has one outcome. -/
structure DetachCalls where
  firstFork : Option Nat
  secondFork : Option Nat
  chdir : Bool
  openDevNull : Bool
  dup2 : Nat → Bool
  close : Except Bool Unit

/-- A process of the server: its directory and its files go by their names, and it exits with a
    number. -/
abbrev ServerProcessM (α : Type) := ProcessM Bytes Bytes Nat α

/-- Make a call, and exit if it fails. -/
def orExit (call : ServerProcessM Bool) : ServerProcessM Unit := do
  if !(← call) then exit 1

/-- Fork, and let the parent exit. -/
def forkAway (child : Option Nat) : ServerProcessM Unit := do
  match ← fork child with
  | none => exit 1
  | some pid => if pid > 0 then exit 0

/-- Put `/dev/null` in the place of the standard descriptors. -/
def redirectStandard (calls : DetachCalls) : ServerProcessM Unit := do
  match ← openFile calls.openDevNull (str "/dev/null") with
  | none => exit 1
  | some devNull =>
    orExit (dup2 (calls.dup2 0) devNull 0)
    orExit (dup2 (calls.dup2 1) devNull 1)
    orExit (dup2 (calls.dup2 2) devNull 2)
    if devNull > 2 then
      -- A failure is logged, and nothing else.
      discard (close calls.close devNull)

/-- `detach()`. -/
def detach (calls : DetachCalls) : ServerProcessM Unit := do
  forkAway calls.firstFork
  orExit setsid
  forkAway calls.secondFork
  orExit (chdir calls.chdir (str "/"))
  umask 0
  redirectStandard calls

/-! ## The specification -/

/-- `fork` returns the pid of a new process: no process, no group and no session has it. -/
def DetachCalls.Fresh (calls : DetachCalls) (p : Process Bytes Bytes) : Prop :=
  (∀ pid ∈ calls.firstFork, 0 < pid ∧ pid ≠ p.pid ∧ pid ≠ p.group) ∧
    ∀ pid ∈ calls.secondFork, 0 < pid ∧ pid ≠ p.pid ∧ pid ∉ calls.firstFork

/-- Every call succeeds that ends the process otherwise. -/
def DetachCalls.Succeed (calls : DetachCalls) : Prop :=
  calls.firstFork.isSome ∧ calls.secondFork.isSome ∧ calls.chdir ∧ calls.openDevNull ∧
    calls.dup2 0 ∧ calls.dup2 1 ∧ calls.dup2 2

instance (calls : DetachCalls) : Decidable calls.Succeed := by
  unfold DetachCalls.Succeed
  infer_instance

/-- **What goes on in the background** for a process `p` in the foreground: a new process, in a new
    session without a terminal of which it is not the leader, so it cannot get one; it stands in no
    directory that might have to be unmounted, and reads from and writes to nothing; its other
    files are those of `p`. -/
structure Daemon (calls : DetachCalls) (p q : Process Bytes Bytes) : Prop where
  pid : calls.secondFork = some q.pid
  session : calls.firstFork = some q.session
  group : q.group = q.session
  notLeader : q.session ≠ q.pid
  terminal : q.terminal = false
  directory : q.directory = str "/"
  mask : q.mask = 0
  standard : ∀ fd ≤ 2, q.files.lookup fd = some (str "/dev/null")
  others : calls.close = .ok () → ∀ fd > 2, q.files.lookup fd = p.files.lookup fd

/-! ## Step by step -/

/-- The call fails. -/
theorem run_orExit_false {call : ServerProcessM Bool} {p q : Process Bytes Bytes}
    (h : call.run p = [(q, .ok false)]) : (orExit call).run p = [(q, .error 1)] := by
  rw [orExit, Forking.run_bind_of_ok h]
  rfl

theorem run_orExit_true {call : ServerProcessM Bool} {p q : Process Bytes Bytes}
    (h : call.run p = [(q, .ok true)]) : (orExit call).run p = [(q, .ok ())] := by
  rw [orExit, Forking.run_bind_of_ok h]
  rfl

/-- The parent has exited, and the child does the rest. -/
theorem run_forkAway {pid : Nat} (hpid : 0 < pid) (p : Process Bytes Bytes)
    (rest : Unit → ServerProcessM Unit) :
    (forkAway (some pid) >>= rest).run p =
      (rest ()).run { p with pid, parent := p.pid } ++ [(p, .error 0)] := by
  have hparent : (forkAway (some pid)).run p =
      [({ p with pid, parent := p.pid }, .ok ()), (p, .error 0)] := by
    show [_] ++ ((if pid > 0 then exit 0 else pure () : ServerProcessM Unit).run p ++ []) = _
    rw [if_pos hpid]
    rfl
  rw [Forking.run_bind, hparent]
  rfl

/-- A file that is open under `fd` is put in the place of a standard descriptor. -/
theorem run_orExit_dup2 {succeeds : Bool} {p : Process Bytes Bytes} {fd : Nat} (file : Bytes)
    (h : p.files.lookup fd = some file) (new : Nat) (rest : Unit → ServerProcessM Unit) :
    (orExit (dup2 succeeds fd new) >>= rest).run p =
      if succeeds then (rest ()).run { p with files := p.files.place new (some file) }
      else [(p, .error 1)] := by
  have hdup : (dup2 succeeds fd new : ServerProcessM Bool).run p = _ := run_dup2 h new
  cases succeeds with
  | true => exact Forking.run_bind_of_ok (run_orExit_true hdup) rest
  | false => exact Forking.run_bind_of_error (run_orExit_false hdup) rest

/-- What `redirectStandard` makes of a process. -/
structure Redirected (calls : DetachCalls) (p q : Process Bytes Bytes) : Prop where
  same : q = { p with files := q.files }
  standard : ∀ fd ≤ 2, q.files.lookup fd = some (str "/dev/null")
  others : calls.close = .ok () → ∀ fd > 2, q.files.lookup fd = p.files.lookup fd

/-- The calls of `redirectStandard` succeed. -/
def DetachCalls.Redirect (calls : DetachCalls) : Prop :=
  calls.openDevNull ∧ calls.dup2 0 ∧ calls.dup2 1 ∧ calls.dup2 2

/-- The three copies have been made, and `closed` is what is left under the descriptor `open`
    returned. -/
theorem redirected_of_lookup {calls : DetachCalls} {p : Process Bytes Bytes}
    {files : Descriptors Bytes} {fd : Nat} {closed : Option Bytes}
    (hfree : p.files.lookup fd = none) (hclosed : calls.close = .ok () → 2 < fd → closed = none)
    (h : ∀ i, files.lookup i = if i ≤ 2 then some (str "/dev/null") else
      if i = fd then closed else p.files.lookup i) :
    Redirected calls p { p with files } := by
  refine ⟨rfl, fun i hi => ?_, fun hclose i hi => ?_⟩
  · show files.lookup i = _
    rw [h i, if_pos hi]
  · show files.lookup i = _
    rw [h i, if_neg (by omega)]
    by_cases hfd : i = fd
    · subst hfd
      rw [if_pos rfl, hclosed hclose hi, hfree]
    · rw [if_neg hfd]

/-- The files behind the three calls of `dup2`. -/
theorem lookup_redirected (files : Descriptors Bytes) (fd : Nat) (file : Option Bytes) (i : Nat) :
    ((((files.place fd file).place 0 file).place 1 file).place 2 file).lookup i =
      if i ≤ 2 then file else if i = fd then file else files.lookup i := by
  simp only [Descriptors.lookup_place]
  split_ifs <;> first | rfl | omega

/-- The descriptor that `open` returned is closed, if it is none of the three. -/
theorem run_closeExtra (calls : DetachCalls) {p : Process Bytes Bytes} {files : Descriptors Bytes}
    {fd : Nat} (hfree : p.files.lookup fd = none)
    (h : ∀ i, files.lookup i = if i ≤ 2 then some (str "/dev/null") else
      if i = fd then some (str "/dev/null") else p.files.lookup i) :
    ∃ q, (do if fd > 2 then discard (close calls.close fd) : ServerProcessM Unit).run
        { p with files } = [(q, .ok ())] ∧ Redirected calls p q := by
  have hclosed : Redirected calls p { p with files := files.place fd none } ∨ ¬ fd > 2 := by
    refine or_iff_not_imp_right.mpr fun hfd => ?_
    refine redirected_of_lookup hfree (fun _ _ => rfl) fun i => ?_
    rw [Descriptors.lookup_place, h i]
    split_ifs <;> first | rfl | omega
  by_cases hfd : fd > 2
  case neg =>
    rw [if_neg hfd]
    exact ⟨_, rfl, redirected_of_lookup hfree (fun _ h => absurd h hfd) h⟩
  rw [if_pos hfd]
  cases hclose : calls.close with
  | ok => exact ⟨_, rfl, hclosed.resolve_right (not_not_intro hfd)⟩
  | error stays =>
    cases stays with
    | false => exact ⟨_, rfl, hclosed.resolve_right (not_not_intro hfd)⟩
    | true =>
      refine ⟨_, rfl, redirected_of_lookup hfree (fun hok => ?_) h⟩
      cases hclose.symm.trans hok

/-- **The standard descriptors.** -/
theorem run_redirectStandard (calls : DetachCalls) (p : Process Bytes Bytes) :
    ∃ q, calls.Redirect ∧ (redirectStandard calls).run p = [(q, .ok ())] ∧ Redirected calls p q ∨
      ¬ calls.Redirect ∧ (redirectStandard calls).run p = [(q, .error 1)] := by
  cases hopen : calls.openDevNull with
  | false =>
    refine ⟨p, .inr ⟨fun h => ?_, ?_⟩⟩
    · exact absurd (hopen.symm.trans h.1) (by decide)
    · rw [redirectStandard, hopen]
      rfl
  | true =>
    have hfree := p.files.lookup_lowest
    have hfirst : (openFile true (str "/dev/null") : ServerProcessM (Option Nat)).run p =
        [({ p with files := p.files.place p.files.lowest (some (str "/dev/null")) },
          .ok (some p.files.lowest))] := rfl
    rw [redirectStandard, hopen, Forking.run_bind_of_ok hfirst]
    generalize p.files.lowest = fd at hfree
    dsimp only
    rw [run_orExit_dup2 (str "/dev/null") (by simp)]
    cases h0 : calls.dup2 0 with
    | false => exact ⟨_, .inr ⟨fun h => absurd (h0.symm.trans h.2.1) (by decide), rfl⟩⟩
    | true =>
      rw [if_pos rfl, run_orExit_dup2 (str "/dev/null") (by simp)]
      cases h1 : calls.dup2 1 with
      | false => exact ⟨_, .inr ⟨fun h => absurd (h1.symm.trans h.2.2.1) (by decide), rfl⟩⟩
      | true =>
        rw [if_pos rfl, run_orExit_dup2 (str "/dev/null") (by simp)]
        cases h2 : calls.dup2 2 with
        | false => exact ⟨_, .inr ⟨fun h => absurd (h2.symm.trans h.2.2.2) (by decide), rfl⟩⟩
        | true =>
          rw [if_pos rfl]
          have hlookup := lookup_redirected p.files fd (some (str "/dev/null"))
          obtain ⟨q, hrun, hredirected⟩ := run_closeExtra calls hfree hlookup
          exact ⟨q, .inl ⟨⟨hopen, h0, h1, h2⟩, hrun, hredirected⟩⟩

/-! ## The result -/

/-- Behind the second fork. -/
theorem run_settle (calls : DetachCalls) (p : Process Bytes Bytes) :
    ∃ q, (calls.chdir ∧ calls.Redirect) ∧ (do
          orExit (chdir calls.chdir (str "/"))
          umask 0
          redirectStandard calls : ServerProcessM Unit).run p = [(q, .ok ())] ∧
        Redirected calls { p with directory := str "/", mask := 0 } q ∨
      ¬ (calls.chdir ∧ calls.Redirect) ∧ (do
          orExit (chdir calls.chdir (str "/"))
          umask 0
          redirectStandard calls : ServerProcessM Unit).run p = [(q, .error 1)] := by
  cases hchdir : calls.chdir with
  | false =>
    refine ⟨p, .inr ⟨fun h => absurd h.1 (by decide), ?_⟩⟩
    exact Forking.run_bind_of_error (run_orExit_false rfl) _
  | true =>
    have hdirectory : (orExit (chdir true (str "/"))).run p =
        [({ p with directory := str "/" }, .ok ())] := run_orExit_true rfl
    have hmask : (umask 0 : ServerProcessM Unit).run { p with directory := str "/" } =
        [({ p with directory := str "/", mask := 0 }, .ok ())] := rfl
    rw [Forking.run_bind_of_ok hdirectory, Forking.run_bind_of_ok hmask]
    obtain ⟨q, ⟨hsucceed, hrun⟩ | ⟨hfail, hrun⟩⟩ := run_redirectStandard calls
      { p with directory := str "/", mask := 0 }
    · exact ⟨q, .inl ⟨⟨rfl, hsucceed⟩, hrun⟩⟩
    · exact ⟨q, .inr ⟨fun h => hfail h.2, hrun⟩⟩

/-- The processes that a foreground process `p` has become: one that has got to the end of `detach`
    or has exited with 1, and the parents, which have exited with 0. -/
structure Detached (calls : DetachCalls) (p : Process Bytes Bytes)
    (processes : List (Process Bytes Bytes × Except Nat Unit)) : Prop where
  one : ∃ q outcome parents, processes = (q, outcome) :: parents ∧
    (∀ parent ∈ parents, parent.2 = .error 0) ∧
    (calls.Succeed ∧ outcome = .ok () ∧ Daemon calls p q ∨
      ¬ calls.Succeed ∧ outcome = .error 1)
  /-- What the shell gets to see. -/
  foreground : (p, .error (if calls.firstFork.isSome then 0 else 1)) ∈ processes

theorem detach_of_none {calls : DetachCalls} (h : calls.firstFork = none)
    (p : Process Bytes Bytes) : (detach calls).run p = [(p, .error 1)] := by
  rw [detach, h]
  rfl

/-- Behind the first fork.  The child leads no group, so `setsid` succeeds. -/
theorem detach_of_some {calls : DetachCalls} {p : Process Bytes Bytes} {pid : Nat}
    (hpid : calls.firstFork = some pid) (h : calls.Fresh p) :
    (detach calls).run p =
      (do
        forkAway calls.secondFork
        orExit (chdir calls.chdir (str "/"))
        umask 0
        redirectStandard calls : ServerProcessM Unit).run
          { p with pid, parent := p.pid, group := pid, session := pid, terminal := false } ++
        [(p, .error 0)] := by
  obtain ⟨hpositive, -, hgroup⟩ := h.1 pid hpid
  have hsetsid : (orExit setsid).run { p with pid, parent := p.pid } =
      [({ p with pid, parent := p.pid, group := pid, session := pid, terminal := false },
        .ok ())] := by
    refine run_orExit_true ?_
    show setsid _ = _
    rw [setsid, if_neg (Ne.symm hgroup)]
  rw [detach, hpid, run_forkAway hpositive, Forking.run_bind_of_ok hsetsid]

/-- The process that gets to the end, or fails. -/
theorem endings_detach (calls : DetachCalls) (p : Process Bytes Bytes) (h : calls.Fresh p) :
    ∃ q outcome parents, (detach calls).run p = (q, outcome) :: parents ∧
      (∀ parent ∈ parents, parent.2 = .error 0) ∧
      (calls.Succeed ∧ outcome = .ok () ∧ Daemon calls p q ∨
        ¬ calls.Succeed ∧ outcome = .error 1) := by
  cases hpid : calls.firstFork with
  | none =>
    rw [detach_of_none hpid]
    exact ⟨p, _, [], rfl, nofun, .inr ⟨fun h => absurd (hpid ▸ h.1) (by decide), rfl⟩⟩
  | some pid =>
    rw [detach_of_some hpid h]
    cases hpid' : calls.secondFork with
    | none =>
      refine ⟨_, .error 1, [(p, .error 0)], rfl, ?_, .inr ⟨fun h => ?_, rfl⟩⟩
      · exact List.forall_mem_singleton.mpr rfl
      · exact absurd (hpid' ▸ h.2.1) (by decide)
    | some pid' =>
      obtain ⟨hpositive', hne', hfresh⟩ := h.2 pid' hpid'
      rw [run_forkAway hpositive']
      obtain ⟨q, ⟨⟨hchdir, hredirect⟩, hrun, hq⟩ | ⟨hfail, hrun⟩⟩ := run_settle calls
        { p with pid := pid', parent := pid, group := pid, session := pid, terminal := false }
      · rw [hrun]
        refine ⟨q, _, _, rfl, ?_, .inl ⟨?_, rfl, ?_⟩⟩
        · simp
        · exact ⟨by rw [hpid]; rfl, by rw [hpid']; rfl, hchdir, hredirect⟩
        · rw [hq.same]
          refine ⟨hpid', hpid, rfl, fun heq => ?_, rfl, rfl, rfl, hq.standard, hq.others⟩
          exact hfresh (by rw [hpid]; exact congrArg some heq)
      · rw [hrun]
        refine ⟨q, _, _, rfl, ?_, .inr ⟨fun h => hfail ⟨h.2.2.1, h.2.2.2⟩, rfl⟩⟩
        simp

/-- **One daemon, or none.**  Whatever the system makes of the calls of `detach`, it leaves one
    process that goes on, and this is a daemon, exactly if all of them succeed; else it leaves one
    that has exited with 1.  All others have exited with 0, and so has the one in the foreground,
    whatever becomes of the rest, if it can fork. -/
theorem detach_daemon (calls : DetachCalls) (p : Process Bytes Bytes) (h : calls.Fresh p) :
    Detached calls p ((detach calls).run p) := by
  refine ⟨endings_detach calls p h, ?_⟩
  cases hpid : calls.firstFork with
  | none =>
    rw [detach_of_none hpid]
    exact List.mem_singleton.mpr rfl
  | some pid =>
    rw [detach_of_some hpid h]
    exact List.mem_append_right _ (List.mem_singleton.mpr rfl)

/-- A process whose standard input is closed, so that `open` returns 0. -/
def closedInput : Process Bytes Bytes where
  pid := 40
  parent := 30
  group := 40
  session := 30
  terminal := true
  directory := str "/home"
  mask := 18
  files := [none, some (str "/dev/tty"), some (str "/dev/tty"), some (str "/etc/passwd")]

/-- All its calls succeed. -/
def quietCalls : DetachCalls where
  firstFork := some 41
  secondFork := some 42
  chdir := true
  openDevNull := true
  dup2 _ := true
  close := .ok ()

theorem closedInput_detached :
    quietCalls.Succeed ∧ Detached quietCalls closedInput ((detach quietCalls).run closedInput) :=
  ⟨by decide, detach_daemon quietCalls closedInput (by
    simp [DetachCalls.Fresh, quietCalls, closedInput])⟩

end ThreadServer
