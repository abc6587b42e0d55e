/-
  Shutdown signals on their way through both processes: the guard passes them on (`signalHandler`
  in the guard), and the server takes them while it starts, runs or stops (`main.cc`, and the
  child's branch of the guard's loop in `threadserver.cc`).

  1. **The server process** — from `fork` on: the assignment `childPid = 0` and `execv`, which are
     still made in a copy of the guard; then `main`, which installs its handlers one after the
     other, constructs and runs the server, and sleeps until `run` is false.  The construction,
     `run()`, `stop()` and what runs behind `main` call code that need not return (`hung`): `stop()`
     joins a worker whose client sends nothing.
  2. **Signals** — a signal that has been sent is pending until the system delivers it.  Then the
     handler runs, if it is installed, and otherwise the process is dead.  What is pending stays so
     across `execv`, which puts everything else back: the handlers, `run` and `childPid`.
  3. **The system** — the guard as it is in `GuardState`, the image of its server, and a step of
     either, or of a signal.  Seen from the guard it is one of the runs of `GuardState`
     (`refines_guard`).
  4. **Results** (`informed`, `shutdown_ends`) — the server leaves its loop exactly if a shutdown
     signal has been delivered to it since `execv`: one that is delivered between `fork` and `execv`
     is lost.  One that is not ends both processes, whatever else is sent to them meanwhile, unless
     the server crashes or hangs.
-/
import ThreadServer.Supervision

namespace ThreadServer

/-! ## The server process -/

/-- Where a server process is. -/
inductive ServerPosition
  /-- A copy of the guard, about to execute `childPid = 0`. -/
  | forked
  /-- About to call `execv`. -/
  | cleared
  /-- `execv` has failed, and the exception is on its way to `main`. -/
  | execFailed
  /-- In `main`, which has called `signal` so many times. -/
  | main (installed : Nat)
  /-- About to look at `run`. -/
  | loop
  | asleep
  /-- In `server.stop()`. -/
  | stopping
  /-- `main` returns. -/
  | returning (code : Nat)
  /-- In a call that never returns. -/
  | hung
  deriving DecidableEq

/-- The process runs the program that it has executed itself. -/
def ServerPosition.behindExec : ServerPosition → Bool
  | forked | cleared | execFailed => false
  | main _ | loop | asleep | stopping | returning _ | hung => true

/-- The signals for which the handler is installed. -/
def ServerPosition.handlers : ServerPosition → List Signo
  | main installed => GuardState.installed.take installed
  | forked | cleared | execFailed | loop | asleep | stopping | returning _ | hung =>
    GuardState.installed

/-- In the construction and `run()`, in `stop()`, or behind `main`: in code that need not return. -/
def ServerPosition.calls : ServerPosition → Bool
  | main installed => installed = GuardState.installed.length
  | stopping | returning _ => true
  | forked | cleared | execFailed | loop | asleep | hung => false

/-- A server that is alive. -/
structure ServerImage where
  pid : Pid
  position : ServerPosition
  childPid : Pid
  run : Bool
  pending : List Signo
  /-- The signals for which its handler has run since `execv`, or since `fork` before it. -/
  received : List Signo
  deriving DecidableEq

/-- `SIGINT` and `SIGTERM`. -/
def IsShutdown (signo : Signo) : Prop := signo = SIGINT ∨ signo = SIGTERM

instance (signo : Signo) : Decidable (IsShutdown signo) := inferInstanceAs (Decidable (_ ∨ _))

/-- What the server process does itself. -/
inductive ServerStep
  | clear
  | exec (succeeds : Bool)
  /-- `signal(...)`. -/
  | install
  /-- `ThreadServer_t server(argc, argv)` and `server.run()`. -/
  | construct (succeeds : Bool)
  | look
  | wake
  | stop (succeeds : Bool)
  | exit
  /-- What it calls never returns. -/
  | hang
  deriving DecidableEq

namespace ServerImage

/-- One step of the server; `.error` is the status it dies with. -/
def next (i : ServerImage) : ServerStep → Option (Except Status ServerImage)
  | .clear => if i.position = .forked then some (.ok { i with position := .cleared, childPid := 0 })
    else none
  | .exec succeeds =>
    if i.position = .cleared then
      some (.ok (if succeeds then
        { i with position := .main 0, childPid := 0, run := true, received := [] }
      else { i with position := .execFailed }))
    else none
  | .install =>
    match i.position with
    | .main installed => if installed < GuardState.installed.length then
        some (.ok { i with position := .main (installed + 1) })
      else none
    | _ => none
  | .construct succeeds =>
    if i.position = .main GuardState.installed.length then
      some (.ok { i with position := if succeeds then .loop else .returning 1 })
    else none
  | .look => if i.position = .loop then
      some (.ok { i with position := if i.run then .asleep else .stopping })
    else none
  | .wake => if i.position = .asleep then some (.ok { i with position := .loop }) else none
  | .stop succeeds => if i.position = .stopping then
      some (.ok { i with position := .returning (if succeeds then 0 else 1) })
    else none
  | .exit =>
    match i.position with
    | .returning code => some (.error (.exited code))
    | .execFailed => some (.error (.exited 1))
    | _ => none
  | .hang => if i.position.calls then some (.ok { i with position := .hung }) else none

/-- A signal is sent to the process: it is pending, once. -/
def send (i : ServerImage) (signo : Signo) : ServerImage :=
  { i with pending := i.pending.insert signo }

/-- A pending signal is delivered: `signalHandler` passes it on to `childPid`, and the process may
    be that itself. -/
def deliver (i : ServerImage) (signo : Signo) : Except Status ServerImage :=
  if signo ∈ i.position.handlers then
    let i := { i with pending := i.pending.erase signo }
    let i := if i.childPid ≠ 0 ∧ i.childPid = i.pid then i.send signo else i
    .ok { i with
      run := if IsShutdown signo then false else i.run, received := i.received ++ [signo] }
  else .error (.signaled signo)

end ServerImage

/-! ## The system -/

/-- The guard, and its server as long as it is alive. -/
structure ServiceState where
  guard : GuardState
  image : Option ServerImage
  deriving DecidableEq

/-- Who does what. -/
inductive ServiceLabel
  /-- The guard goes on. -/
  | guard (label : GuardLabel)
  /-- `signalHandler` runs in the guard. -/
  | signal (signo : Signo)
  /-- Somebody else sends a signal to the server. -/
  | send (signo : Signo)
  /-- The system delivers a signal that is pending in the server. -/
  | deliver (signo : Signo)
  /-- The server goes on. -/
  | server (step : ServerStep)
  /-- The server crashes, or is killed. -/
  | crash (signo : Signo)
  deriving DecidableEq

namespace ServiceState

open Transition

def start : ServiceState := ⟨GuardState.start, none⟩

/-- The server is dead. -/
def die (s : ServiceState) (status : Status) : Option ServiceState :=
  (s.guard.next (.serverDies status)).map fun guard => ⟨guard, none⟩

/-- The server goes on as `outcome` says. -/
def goOn (s : ServiceState) : Except Status ServerImage → Option ServiceState
  | .ok image => some { s with image := some image }
  | .error status => s.die status

/-- The image of a server that has just been forked: a copy of the guard, where nothing is
    pending. -/
def forkedImage (guard : GuardState) (pid : Pid) : ServerImage where
  pid
  position := .forked
  childPid := guard.childPid
  run := guard.run
  pending := []
  received := []

/-- `kill(childPid, signo)`, in the guard. -/
def passOn (guard : GuardState) (signo : Signo) (image : ServerImage) : ServerImage :=
  if guard.childPid ≠ 0 ∧ guard.childPid = image.pid then image.send signo else image

/-- One step of the system. -/
def next (s : ServiceState) : ServiceLabel → Option ServiceState
  | .guard (.fork pid) =>
    (s.guard.next (.fork pid)).map fun guard => ⟨guard, some (forkedImage s.guard pid)⟩
  -- what becomes of the server and of signals has labels of its own
  | .guard (.serverDies _) | .guard (.signal _) => none
  | .guard label => (s.guard.next label).map fun guard => { s with guard }
  | .signal signo => (s.guard.next (.signal signo)).map fun guard =>
      ⟨guard, s.image.map (passOn s.guard signo)⟩
  | .send signo =>
    if signo ∈ GuardState.installed then
      s.image.map fun image => { s with image := some (image.send signo) }
    else none
  | .deliver signo => s.image.bind fun image =>
      if signo ∈ image.pending then s.goOn (image.deliver signo) else none
  | .server step => s.image.bind fun image => (image.next step).bind s.goOn
  | .crash signo => if s.image.isSome then s.die (.signaled signo) else none

/-! ## Inversion -/

/-- What a step of its own, or of a signal, makes of a server that stays alive. -/
inductive Moves (i : ServerImage) : ServiceLabel → ServerImage → Prop
  | sent {signo : Signo} : signo ∈ GuardState.installed → Moves i (.send signo) (i.send signo)
  | handled {signo : Signo} {i' : ServerImage} : i.deliver signo = .ok i' →
      Moves i (.deliver signo) i'
  | stepped {step : ServerStep} {i' : ServerImage} : i.next step = some (.ok i') →
      Moves i (.server step) i'

/-- What a server dies of. -/
inductive Dies (i : ServerImage) : ServiceLabel → Status → Prop
  | killed {signo : Signo} {status : Status} : i.deliver signo = .error status →
      Dies i (.deliver signo) status
  | ended {step : ServerStep} {status : Status} : i.next step = some (.error status) →
      Dies i (.server step) status
  | crashed (signo : Signo) : Dies i (.crash signo) (.signaled signo)

/-- The steps of `next`. -/
inductive Step (s : ServiceState) : ServiceLabel → ServiceState → Prop
  | fork {pid : Pid} {guard : GuardState} : s.guard.next (.fork pid) = some guard →
      Step s (.guard (.fork pid)) ⟨guard, some (forkedImage s.guard pid)⟩
  | guard {label : GuardLabel} {guard : GuardState} :
      label ∈ [GuardLabel.forkFails, .assign, .wait, .examine] → s.guard.next label = some guard →
      Step s (.guard label) ⟨guard, s.image⟩
  | signal {signo : Signo} {guard : GuardState} : s.guard.next (.signal signo) = some guard →
      Step s (.signal signo) ⟨guard, s.image.map (passOn s.guard signo)⟩
  | moves {label : ServiceLabel} {i i' : ServerImage} : s.image = some i → Moves i label i' →
      Step s label ⟨s.guard, some i'⟩
  | dies {label : ServiceLabel} {i : ServerImage} {status : Status} {guard : GuardState} :
      s.image = some i → Dies i label status → s.guard.next (.serverDies status) = some guard →
      Step s label ⟨guard, none⟩

/-- **Inversion.** -/
theorem step_of_next {s s' : ServiceState} {label : ServiceLabel}
    (h : s.next label = some s') : Step s label s' := by
  have hgoOn : ∀ {label i outcome}, s.image = some i → s.goOn outcome = some s' →
      (∀ i', outcome = .ok i' → Moves i label i') →
      (∀ status, outcome = .error status → Dies i label status) → Step s label s' := by
    intro label i outcome himage hgoes hmoves hdies
    cases outcome with
    | ok i' =>
      obtain rfl := Option.some.inj hgoes
      exact .moves himage (hmoves i' rfl)
    | error status =>
      obtain ⟨guard, hguard, rfl⟩ := Option.map_eq_some_iff.mp hgoes
      exact .dies himage (hdies status rfl) hguard
  cases label with
  | guard label =>
    cases label with
    | fork pid =>
      obtain ⟨guard, hguard, rfl⟩ := Option.map_eq_some_iff.mp h
      exact .fork hguard
    | serverDies status | signal signo => exact nomatch h
    | forkFails | assign | wait | examine =>
      obtain ⟨guard, hguard, rfl⟩ := Option.map_eq_some_iff.mp h
      exact .guard (by decide) hguard
  | signal signo =>
    obtain ⟨guard, hguard, rfl⟩ := Option.map_eq_some_iff.mp h
    exact .signal hguard
  | send signo =>
    rw [next] at h
    split at h
    case isFalse => exact nomatch h
    rename_i hinstalled
    obtain ⟨i, himage, rfl⟩ := Option.map_eq_some_iff.mp h
    exact .moves himage (.sent hinstalled)
  | deliver signo =>
    obtain ⟨i, himage, h⟩ := Option.bind_eq_some_iff.mp h
    split at h
    case isFalse => exact nomatch h
    exact hgoOn himage h (fun _ hi' => .handled hi') fun _ hstatus => .killed hstatus
  | server step =>
    obtain ⟨i, himage, h⟩ := Option.bind_eq_some_iff.mp h
    obtain ⟨outcome, houtcome, h⟩ := Option.bind_eq_some_iff.mp h
    exact hgoOn himage h (fun _ hi' => .stepped (houtcome.trans (congrArg some hi')))
      fun _ hstatus => .ended (houtcome.trans (congrArg some hstatus))
  | crash signo =>
    rw [next] at h
    split at h
    case isFalse => exact nomatch h
    rename_i hsome
    obtain ⟨i, himage⟩ := Option.isSome_iff_exists.mp hsome
    obtain ⟨guard, hguard, rfl⟩ := Option.map_eq_some_iff.mp h
    exact .dies himage (.crashed signo) hguard

/-- **Seen from the guard**, every step is one of its own, or nothing moves. -/
theorem refines_guard : Refines next GuardState.next guard := by
  intro s label s' h
  cases step_of_next h with
  | fork hguard | guard _ hguard | signal hguard | dies _ _ hguard => exact .inr ⟨_, hguard⟩
  | moves => exact .inl rfl

end ServiceState

/-! ## What the server knows -/

namespace ServerImage

/-- The steps of a server that stays alive. -/
inductive Goes (i : ServerImage) : ServerStep → ServerImage → Prop
  | clear : i.position = .forked → Goes i .clear { i with position := .cleared, childPid := 0 }
  | exec : i.position = .cleared →
      Goes i (.exec true) { i with position := .main 0, childPid := 0, run := true, received := [] }
  | execFails : i.position = .cleared → Goes i (.exec false) { i with position := .execFailed }
  | install {installed : Nat} : i.position = .main installed →
      installed < GuardState.installed.length →
      Goes i .install { i with position := .main (installed + 1) }
  | construct : i.position = .main GuardState.installed.length →
      Goes i (.construct true) { i with position := .loop }
  | constructFails : i.position = .main GuardState.installed.length →
      Goes i (.construct false) { i with position := .returning 1 }
  | look : i.position = .loop → i.run = true → Goes i .look { i with position := .asleep }
  | leave : i.position = .loop → i.run = false → Goes i .look { i with position := .stopping }
  | wake : i.position = .asleep → Goes i .wake { i with position := .loop }
  | stop (succeeds : Bool) (code : Nat) : i.position = .stopping →
      Goes i (.stop succeeds) { i with position := .returning code }
  | hang : i.position.calls = true → Goes i .hang { i with position := .hung }

theorem goes_of_next {i i' : ServerImage} {step : ServerStep} (h : i.next step = some (.ok i')) :
    Goes i step i' := by
  cases step with
  | clear =>
    obtain ⟨hposition, h⟩ := Option.ite_none_right_eq_some.mp h
    cases h
    exact .clear hposition
  | exec succeeds =>
    obtain ⟨hposition, h⟩ := Option.ite_none_right_eq_some.mp h
    cases succeeds with
    | true =>
      cases h
      exact .exec hposition
    | false =>
      cases h
      exact .execFails hposition
  | install =>
    rw [next] at h
    split at h
    case h_2 => exact nomatch h
    rename_i installed hposition
    obtain ⟨hlt, h⟩ := Option.ite_none_right_eq_some.mp h
    cases h
    exact .install hposition hlt
  | construct succeeds =>
    obtain ⟨hposition, h⟩ := Option.ite_none_right_eq_some.mp h
    cases succeeds with
    | true =>
      cases h
      exact .construct hposition
    | false =>
      cases h
      exact .constructFails hposition
  | look =>
    obtain ⟨hposition, h⟩ := Option.ite_none_right_eq_some.mp h
    by_cases hrun : i.run = true
    · rw [if_pos hrun] at h
      cases h
      exact .look hposition hrun
    · rw [if_neg hrun] at h
      cases h
      exact .leave hposition (Bool.eq_false_iff.mpr hrun)
  | wake =>
    obtain ⟨hposition, h⟩ := Option.ite_none_right_eq_some.mp h
    cases h
    exact .wake hposition
  | stop succeeds =>
    obtain ⟨hposition, h⟩ := Option.ite_none_right_eq_some.mp h
    cases h
    exact .stop succeeds _ hposition
  | exit =>
    rw [next] at h
    split at h <;> cases h
  | hang =>
    obtain ⟨hcalls, h⟩ := Option.ite_none_right_eq_some.mp h
    cases h
    exact .hang hcalls

/-- What is so of a server at any time. -/
structure Fit (i : ServerImage) : Prop where
  /-- It passes signals on only as long as it has not executed `childPid = 0`. -/
  alone : i.position ≠ .forked → i.childPid = 0
  /-- `run` says whether a shutdown signal has been delivered since `execv`. -/
  told : i.position.behindExec = true →
    (i.run = false ↔ ∃ signo ∈ i.received, IsShutdown signo)
  /-- It stops only if one has been. -/
  stopping : i.position = .stopping → i.run = false
  /-- It installs each handler once. -/
  installing : ∀ installed, i.position = .main installed → installed ≤ GuardState.installed.length

/-- What need not return is called behind `execv` only. -/
theorem of_calls {position : ServerPosition} (h : position.calls = true) :
    position ≠ .forked ∧ position.behindExec = true := by
  cases position with
  | main | stopping | returning => exact ⟨nofun, rfl⟩
  | forked | cleared | execFailed | loop | asleep | hung => cases h

theorem Fit.goes {i i' : ServerImage} {step : ServerStep} (h : i.Fit) (hgoes : Goes i step i') :
    i'.Fit := by
  cases hgoes with
  | clear hposition => exact ⟨fun _ => rfl, nofun, nofun, nofun⟩
  | exec hposition =>
    refine ⟨fun _ => rfl, fun _ => ?_, nofun, fun installed hmain => ?_⟩
    · exact iff_of_false nofun fun ⟨_, hmem, _⟩ => nomatch hmem
    · cases hmain
      exact Nat.zero_le _
  | execFails hposition =>
    exact ⟨fun _ => h.alone (by rw [hposition]; nofun), nofun, nofun, nofun⟩
  | install hposition hlt =>
    refine ⟨fun _ => h.alone (by rw [hposition]; nofun), fun _ => h.told (by rw [hposition]; rfl),
      nofun, fun installed hmain => ?_⟩
    cases hmain
    exact hlt
  | construct hposition | constructFails hposition | look hposition | wake hposition
  | stop _ _ hposition =>
    exact ⟨fun _ => h.alone (by rw [hposition]; nofun), fun _ => h.told (by rw [hposition]; rfl),
      nofun, nofun⟩
  | hang hcalls =>
    obtain ⟨hforked, hbehind⟩ := of_calls hcalls
    exact ⟨fun _ => h.alone hforked, fun _ => h.told hbehind, nofun, nofun⟩
  | leave hposition hrun =>
    exact ⟨fun _ => h.alone (by rw [hposition]; nofun), fun _ => h.told (by rw [hposition]; rfl),
      fun _ => hrun, nofun⟩

theorem Fit.send {i : ServerImage} (h : i.Fit) (signo : Signo) : (i.send signo).Fit :=
  ⟨h.alone, h.told, h.stopping, h.installing⟩

/-- What a handled signal leaves. -/
theorem deliver_eq_ok {i i' : ServerImage} {signo : Signo} (h : i.deliver signo = .ok i') :
    i'.pid = i.pid ∧ i'.position = i.position ∧ i'.childPid = i.childPid ∧
      i'.run = (if IsShutdown signo then false else i.run) ∧
      i'.received = i.received ++ [signo] := by
  rw [deliver] at h
  split at h
  case isFalse => exact nomatch h
  obtain rfl := Except.ok.inj h
  split <;> exact ⟨rfl, rfl, rfl, rfl, rfl⟩

/-- A signal without a handler is the status. -/
theorem deliver_eq_error {i : ServerImage} {signo : Signo} {status : Status}
    (h : i.deliver signo = .error status) :
    signo ∉ i.position.handlers ∧ status = .signaled signo := by
  rw [deliver] at h
  split at h
  case isTrue => exact nomatch h
  exact ⟨‹_›, (Except.error.inj h).symm⟩

theorem Fit.deliver {i i' : ServerImage} {signo : Signo} (h : i.Fit)
    (hdeliver : i.deliver signo = .ok i') : i'.Fit := by
  obtain ⟨-, hposition, hchild, hrun, hreceived⟩ := deliver_eq_ok hdeliver
  refine ⟨?_, ?_, ?_, ?_⟩
  · rw [hposition, hchild]
    exact h.alone
  · rw [hposition, hrun, hreceived]
    intro hbehind
    have htold := h.told hbehind
    have hmem : (∃ signo' ∈ i.received ++ [signo], IsShutdown signo') ↔
        (∃ signo' ∈ i.received, IsShutdown signo') ∨ IsShutdown signo := by
      simp only [List.mem_append, List.mem_singleton, or_and_right, exists_or, exists_eq_left]
    rw [hmem, ← htold]
    by_cases hshutdown : IsShutdown signo
    · rw [if_pos hshutdown]
      exact iff_of_true rfl (.inr hshutdown)
    · rw [if_neg hshutdown]
      exact (or_iff_left hshutdown).symm
  · rw [hposition, hrun]
    intro hstopping
    split
    · rfl
    · exact h.stopping hstopping
  · rw [hposition]
    exact h.installing

end ServerImage

namespace ServiceState

open Transition ServerImage

theorem Moves.fit {i i' : ServerImage} {label : ServiceLabel} (h : i.Fit)
    (hmoves : Moves i label i') : i'.Fit ∧ i'.pid = i.pid := by
  cases hmoves with
  | sent => exact ⟨h.send _, rfl⟩
  | handled hdeliver => exact ⟨h.deliver hdeliver, (deliver_eq_ok hdeliver).1⟩
  | stepped hnext =>
    have hgoes := goes_of_next hnext
    refine ⟨h.goes hgoes, ?_⟩
    cases hgoes <;> rfl

/-- **What both processes know**, at any time. -/
structure Informed (s : ServiceState) : Prop where
  live : s.guard.live = s.image.map (·.pid)
  fit : ∀ image ∈ s.image, image.Fit

theorem informed_start : Informed start := ⟨rfl, nofun⟩

theorem fit_forkedImage (guard : GuardState) (pid : Pid) : (forkedImage guard pid).Fit :=
  ⟨fun h => absurd rfl h, nofun, nofun, nofun⟩

/-- The guard's own steps do not change whether its server is alive. -/
theorem live_of_guard {guard guard' : GuardState} {label : GuardLabel}
    (hlabel : label ∈ [GuardLabel.forkFails, .assign, .wait, .examine])
    (h : guard.next label = some guard') : guard'.live = guard.live := by
  cases GuardState.step_of_next h with
  | forkFails | assign | waitFails | restart | exit => rfl
  | wait hposition hserver => rw [GuardState.live, GuardState.live, hserver]
  | fork | serverDies | signal => simp at hlabel

/-- **Step lemma.** -/
theorem Informed.next {s s' : ServiceState} {label : ServiceLabel} (h : s.Informed)
    (hnext : s.next label = some s') : s'.Informed := by
  cases step_of_next hnext with
  | @fork pid guard hguard =>
    refine ⟨?_, fun image himage => ?_⟩
    · cases GuardState.step_of_next hguard with
      | fork => rfl
    · obtain rfl := Option.some.inj himage
      exact fit_forkedImage _ _
  | guard hlabel hguard => exact ⟨(live_of_guard hlabel hguard).trans h.live, h.fit⟩
  | @signal signo guard hguard =>
    have hlive : guard.live = s.guard.live := by
      cases GuardState.step_of_next hguard with
      | signal => rfl
    refine ⟨?_, fun image himage => ?_⟩
    · rw [hlive, h.live, Option.map_map]
      congr 1
      funext image
      show image.pid = (passOn s.guard signo image).pid
      rw [passOn]
      split <;> rfl
    · obtain ⟨image', himage', rfl⟩ := Option.map_eq_some_iff.mp himage
      have hfit := h.fit image' himage'
      rw [passOn]
      split
      · exact hfit.send signo
      · exact hfit
  | moves himage hmoves =>
    obtain ⟨hfit, hpid⟩ := hmoves.fit (h.fit _ himage)
    refine ⟨?_, fun image hsome => ?_⟩
    · rw [h.live, himage, Option.map_some, Option.map_some, hpid]
    · obtain rfl := Option.some.inj hsome
      exact hfit
  | dies himage hdies hguard =>
    refine ⟨?_, nofun⟩
    cases GuardState.step_of_next hguard with
    | serverDies => rfl

/-! ## The end of both -/

/-- A shutdown signal has been delivered to the server since `execv`. -/
def Told (s : ServiceState) : Prop :=
  ∃ image, s.image = some image ∧ image.position.behindExec = true ∧
    ∃ signo ∈ image.received, IsShutdown signo

/-- The server does not die of a signal for which it would be started again, and does not hang. -/
def Calm (s : ServiceState) : ServiceLabel → Prop
  | .crash signo => (Status.signaled signo).restarts = false
  | .deliver signo => ∀ image ∈ s.image, signo ∉ image.position.handlers →
      (Status.signaled signo).restarts = false
  | .server step => step ≠ .hang
  | .guard _ | .signal _ | .send _ => True

instance (s : ServiceState) : (label : ServiceLabel) → Decidable (Calm s label)
  | .crash _ => by show Decidable (_ = _); infer_instance
  | .deliver _ => by show Decidable (∀ _ ∈ s.image, _ → _); infer_instance
  | .server _ => by show Decidable (_ ≠ _); infer_instance
  | .guard _ | .signal _ | .send _ => isTrue trivial

/-- A step of one of the two programs. -/
def own : ServiceLabel → Bool
  | .guard _ | .server _ => true
  | .signal _ | .send _ | .deliver _ | .crash _ => false

/-- The server is on its way out. -/
structure Leaving (i : ServerImage) : Prop where
  behindExec : i.position.behindExec = true
  run : i.run = false
  unhung : i.position ≠ .hung

/-- The service is on its way out. -/
def Ending (s : ServiceState) : Prop :=
  match s.guard.position with
  | .fork => False
  | .assign _ | .wait =>
    (∃ image, s.image = some image ∧ Leaving image) ∨
      ∃ pid status, s.guard.server = some ⟨pid, some status⟩ ∧ status.restarts = false
  | .examine status => s.image = none ∧ status.restarts = false
  | .exited _ => s.image = none

/-- How many steps the server has to go, if `run` is false. -/
def serverEffort : ServerPosition → Nat
  | .forked | .cleared | .execFailed | .hung => 0
  | .main installed => 8 - installed
  | .asleep => 4
  | .loop => 3
  | .stopping => 2
  | .returning _ => 1

def guardEffort : Position → Nat
  | .fork | .exited _ => 0
  | .assign _ => 3
  | .wait => 2
  | .examine _ => 1

/-- How many steps both have to go. -/
def effort (s : ServiceState) : Nat :=
  guardEffort s.guard.position + (s.image.map (serverEffort ·.position)).getD 0

theorem goes_ending {i i' : ServerImage} {step : ServerStep} (hgoes : Goes i step i')
    (h : Leaving i) (hstep : step ≠ .hang) :
    Leaving i' ∧ serverEffort i'.position < serverEffort i.position := by
  have hlength : GuardState.installed.length = 4 := rfl
  cases hgoes with
  | clear hposition | exec hposition | execFails hposition =>
    have hbehind := h.behindExec
    rw [hposition] at hbehind
    exact nomatch hbehind
  | look hposition hrun' => exact absurd (h.run.symm.trans hrun') (by decide)
  | @install installed hposition hlt =>
    refine ⟨⟨rfl, h.run, nofun⟩, ?_⟩
    rw [hposition]
    show 8 - (installed + 1) < 8 - installed
    omega
  | construct hposition | constructFails hposition | leave hposition | wake hposition
  | stop _ _ hposition =>
    refine ⟨⟨rfl, h.run, nofun⟩, ?_⟩
    rw [hposition]
    simp [serverEffort, hlength]
  | hang => exact absurd rfl hstep

/-- A server on its way out goes on, and nothing else. -/
theorem Moves.ending {s : ServiceState} {i i' : ServerImage} {label : ServiceLabel}
    (hmoves : Moves i label i') (h : Leaving i) (hcalm : Calm s label) :
    Leaving i' ∧ (if own label then 1 else 0) + serverEffort i'.position
      ≤ serverEffort i.position := by
  cases hmoves with
  | sent => exact ⟨⟨h.behindExec, h.run, h.unhung⟩, Nat.le_of_eq (Nat.zero_add _)⟩
  | handled hdeliver =>
    obtain ⟨-, hposition, -, hrun', -⟩ := deliver_eq_ok hdeliver
    refine ⟨⟨hposition ▸ h.behindExec, ?_, hposition ▸ h.unhung⟩, ?_⟩
    · rw [hrun', h.run]
      split <;> rfl
    · rw [hposition]
      exact Nat.le_of_eq (Nat.zero_add _)
  | stepped hnext =>
    obtain ⟨hleaving, hless⟩ := goes_ending (goes_of_next hnext) h hcalm
    refine ⟨hleaving, ?_⟩
    show 1 + _ ≤ _
    omega

theorem next_eq_error {i : ServerImage} {step : ServerStep} {status : Status}
    (h : i.next step = some (.error status)) :
    ∃ code, (i.position = .returning code ∨ i.position = .execFailed) ∧ status = .exited code := by
  cases step with
  | exit =>
    rw [ServerImage.next] at h
    split at h
    · rename_i code hposition
      cases h
      exact ⟨code, .inl hposition, rfl⟩
    · rename_i hposition
      cases h
      exact ⟨1, .inr hposition, rfl⟩
    · exact nomatch h
  | install =>
    rw [ServerImage.next] at h
    split at h
    · obtain ⟨-, h⟩ := Option.ite_none_right_eq_some.mp h
      exact nomatch h
    · exact nomatch h
  | clear | exec | construct | look | wake | stop | hang =>
    obtain ⟨-, h⟩ := Option.ite_none_right_eq_some.mp h
    exact nomatch h

/-- A server dies on its way out as it should, or calmly. -/
theorem Dies.ending {s : ServiceState} {i : ServerImage} {label : ServiceLabel} {status : Status}
    (hdies : Dies i label status) (himage : s.image = some i) (hcalm : Calm s label)
    (hbehind : i.position.behindExec = true) :
    status.restarts = false ∧ (if own label then 1 else 0) ≤ serverEffort i.position := by
  cases hdies with
  | killed hdeliver =>
    obtain ⟨hhandler, rfl⟩ := deliver_eq_error hdeliver
    exact ⟨hcalm i himage hhandler, Nat.zero_le _⟩
  | ended hnext =>
    obtain ⟨code, hposition | hposition, rfl⟩ := next_eq_error hnext
    · refine ⟨rfl, ?_⟩
      rw [hposition]
      exact Nat.le_refl 1
    · rw [hposition] at hbehind
      exact nomatch hbehind
  | crashed signo => exact ⟨hcalm, Nat.zero_le _⟩

/-- A guard whose server is alive has it on its books as such. -/
theorem Informed.server {s : ServiceState} (h : s.Informed) {image : ServerImage}
    (himage : s.image = some image) : s.guard.server = some ⟨image.pid, none⟩ := by
  refine GuardState.live_eq_some ?_
  rw [h.live, himage]
  rfl

/-- A service that is on its way out while its server is alive: so the server knows. -/
theorem Informed.knows {s : ServiceState} (h : s.Informed) (hending : s.Ending)
    {image : ServerImage} (himage : s.image = some image) :
    ((∃ pid, s.guard.position = .assign pid) ∨ s.guard.position = .wait) ∧ Leaving image := by
  have hknows : ((∃ image, s.image = some image ∧ Leaving image) ∨
      ∃ pid status, s.guard.server = some ⟨pid, some status⟩ ∧ status.restarts = false) →
        Leaving image := by
    rintro (⟨image', himage', hknows⟩ | ⟨pid, status, hdead, -⟩)
    · obtain rfl := Option.some.inj (himage.symm.trans himage')
      exact hknows
    · have halive := hdead.symm.trans (h.server himage)
      simp at halive
  rw [Ending] at hending
  cases hposition : s.guard.position with
  | fork =>
    rw [hposition] at hending
    exact hending.elim
  | assign pid =>
    rw [hposition] at hending
    exact ⟨.inl ⟨pid, rfl⟩, hknows hending⟩
  | wait =>
    rw [hposition] at hending
    exact ⟨.inr rfl, hknows hending⟩
  | examine status =>
    rw [hposition] at hending
    exact nomatch himage.symm.trans hending.1
  | exited code =>
    rw [hposition] at hending
    exact nomatch himage.symm.trans hending

theorem passOn_keeps (guard : GuardState) (signo : Signo) (i : ServerImage) :
    (passOn guard signo i).position = i.position ∧ (passOn guard signo i).run = i.run := by
  rw [passOn]
  split <;> exact ⟨rfl, rfl⟩

theorem ending_of_knows {s : ServiceState}
    (hposition : (∃ pid, s.guard.position = .assign pid) ∨ s.guard.position = .wait)
    (h : (∃ image, s.image = some image ∧ Leaving image) ∨
      ∃ pid status, s.guard.server = some ⟨pid, some status⟩ ∧ status.restarts = false) :
    s.Ending := by
  rw [Ending]
  obtain ⟨pid, hposition⟩ | hposition := hposition <;> rw [hposition] <;> exact h

/-- **Step lemma**: a service on its way out stays so, and its own steps are steps on this way. -/
theorem ending_next {s s' : ServiceState} {label : ServiceLabel} (h : s.Informed ∧ s.Ending)
    (hcalm : Calm s label) (hnext : s.next label = some s') :
    (s'.Informed ∧ s'.Ending) ∧ (if own label then 1 else 0) + s'.effort ≤ s.effort := by
  obtain ⟨hinformed, hending⟩ := h
  refine (and_assoc.trans (and_iff_right (hinformed.next hnext))).mpr ?_
  cases step_of_next hnext with
  | fork hguard =>
    cases GuardState.step_of_next hguard with
    | fork hposition =>
      rw [Ending, hposition] at hending
      exact hending.elim
  | guard hlabel hguard =>
    rw [Ending] at hending ⊢
    cases GuardState.step_of_next hguard with
    | fork | serverDies | signal => simp at hlabel
    | forkFails hposition =>
      rw [hposition] at hending
      exact hending.elim
    | assign hposition =>
      rw [hposition] at hending
      refine ⟨hending, ?_⟩
      simp only [effort, guardEffort, hposition, own, if_true]
      omega
    | waitFails hposition hserver =>
      rw [hposition] at hending
      rcases hending with ⟨image, himage, -⟩ | ⟨pid, status, hsome, -⟩
      · exact nomatch hserver.symm.trans (hinformed.server himage)
      · exact nomatch hserver.symm.trans hsome
    | @wait pid status hposition hserver =>
      rw [hposition] at hending
      have hnone : s.image = none := by
        cases himage : s.image with
        | none => rfl
        | some image =>
          have halive := hserver.symm.trans (hinformed.server himage)
          simp at halive
      rcases hending with ⟨image, himage, -⟩ | ⟨pid', status', hsome, hrestarts⟩
      · exact nomatch hnone.symm.trans himage
      · have hdead := hserver.symm.trans hsome
        simp only [Option.some.injEq, ServerProcess.mk.injEq] at hdead
        refine ⟨⟨hnone, hdead.2 ▸ hrestarts⟩, ?_⟩
        simp only [effort, guardEffort, hposition, own, if_true]
        omega
    | @restart status hposition hrestarts =>
      rw [hposition] at hending
      exact absurd (hrestarts.symm.trans hending.2) (by decide)
    | exit hposition =>
      rw [hposition] at hending
      refine ⟨hending.1, ?_⟩
      simp only [effort, guardEffort, hposition, own, if_true]
      omega
  | @signal signo guard hguard =>
    cases GuardState.step_of_next hguard with
    | signal =>
      cases himage : s.image with
      | none =>
        rw [Ending, himage] at hending
        refine ⟨hending, ?_⟩
        simp only [effort, himage]
        exact Nat.le_of_eq (Nat.zero_add _)
      | some i =>
        obtain ⟨hposition, hleaving⟩ := hinformed.knows hending himage
        obtain ⟨hsame, hrun⟩ := passOn_keeps s.guard signo i
        refine ⟨ending_of_knows hposition (.inl ⟨_, rfl, ⟨hsame ▸ hleaving.behindExec,
          hrun.trans hleaving.run, hsame ▸ hleaving.unhung⟩⟩), ?_⟩
        simp only [effort, himage, Option.map_some, Option.getD_some, hsame]
        exact Nat.le_of_eq (Nat.zero_add _)
  | @moves _ i i' himage hmoves =>
    obtain ⟨hposition, hleaving⟩ := hinformed.knows hending himage
    obtain ⟨hleaving', hless⟩ := hmoves.ending hleaving hcalm
    refine ⟨ending_of_knows hposition (.inl ⟨i', rfl, hleaving'⟩), ?_⟩
    simp only [effort, himage, Option.map_some, Option.getD_some]
    omega
  | @dies _ i status guard himage hdies hguard =>
    obtain ⟨hposition, hleaving⟩ := hinformed.knows hending himage
    obtain ⟨hrestarts, hless⟩ := hdies.ending himage hcalm hleaving.behindExec
    cases GuardState.step_of_next hguard with
    | serverDies hserver =>
      refine ⟨ending_of_knows hposition (.inr ⟨_, status, rfl, hrestarts⟩), ?_⟩
      simp only [effort, himage, Option.map_some, Option.getD_some, Option.map_none,
        Option.getD_none]
      omega

/-- A server on its way out can always go on, and without hanging. -/
theorem exists_next {i : ServerImage} (h : i.Fit) (hleaving : Leaving i) :
    ∃ step outcome, step ≠ .hang ∧ i.next step = some outcome := by
  have hbehind := hleaving.behindExec
  cases hposition : i.position with
  | forked | cleared | execFailed =>
    rw [hposition] at hbehind
    exact nomatch hbehind
  | hung => exact absurd hposition hleaving.unhung
  | main installed =>
    by_cases hlt : installed < GuardState.installed.length
    · exact ⟨.install, _, nofun, by rw [ServerImage.next, hposition]; exact if_pos hlt⟩
    · have hall : installed = GuardState.installed.length :=
        Nat.le_antisymm (h.installing installed hposition) (Nat.le_of_not_lt hlt)
      exact ⟨.construct true, _, nofun, if_pos (hall ▸ hposition)⟩
  | loop => exact ⟨.look, _, nofun, if_pos hposition⟩
  | asleep => exact ⟨.wake, _, nofun, if_pos hposition⟩
  | stopping => exact ⟨.stop true, _, nofun, if_pos hposition⟩
  | returning code =>
    exact ⟨.exit, .error (.exited code), nofun, by rw [ServerImage.next, hposition]⟩

theorem exists_goOn {s : ServiceState} (h : s.Informed) {i : ServerImage}
    (himage : s.image = some i) (outcome : Except Status ServerImage) :
    ∃ s', s.goOn outcome = some s' := by
  cases outcome with
  | ok i' => exact ⟨_, rfl⟩
  | error status =>
    have hserver := h.server himage
    refine ⟨⟨{ s.guard with server := some ⟨i.pid, some status⟩ }, none⟩, ?_⟩
    simp only [goOn, die, GuardState.next, hserver, Option.map_some]

/-- **Progress**: until the guard has exited, one of the two programs can go on. -/
theorem exists_own_step {s : ServiceState} (h : s.Informed) (hending : s.Ending)
    (hexited : ∀ code, s.guard.position ≠ .exited code) :
    ∃ label s', own label = true ∧ Calm s label ∧ s.next label = some s' := by
  have hguard : ∀ label, label ∈ [GuardLabel.forkFails, .assign, .wait, .examine] →
      (s.guard.next label).isSome →
      ∃ label s', own label = true ∧ Calm s label ∧ s.next label = some s' := by
    intro label hlabel hsome
    obtain ⟨guard, hnext⟩ := Option.isSome_iff_exists.mp hsome
    refine ⟨.guard label, { s with guard }, rfl, trivial, ?_⟩
    cases label with
    | fork | serverDies | signal => simp at hlabel
    | forkFails | assign | wait | examine => exact congrArg (Option.map _) hnext
  cases himage : s.image with
  | some i =>
    obtain ⟨-, hleaving⟩ := h.knows hending himage
    obtain ⟨step, outcome, hcalm, hstep⟩ := exists_next (h.fit i himage) hleaving
    obtain ⟨s', hs'⟩ := exists_goOn h himage outcome
    refine ⟨.server step, s', rfl, hcalm, ?_⟩
    rw [next, himage, Option.bind_some, hstep, Option.bind_some]
    exact hs'
  | none =>
    rw [Ending] at hending
    cases hposition : s.guard.position with
    | fork =>
      rw [hposition] at hending
      exact hending.elim
    | assign pid =>
      refine hguard .assign (by decide) ?_
      simp only [GuardState.next, hposition, Option.isSome_some]
    | wait =>
      rw [hposition, himage] at hending
      obtain ⟨_, hnone, -⟩ | ⟨pid, status, hserver, -⟩ := hending
      · cases hnone
      · refine hguard .wait (by decide) ?_
        simp only [GuardState.next, hposition, hserver, Option.isSome_some]
    | examine status =>
      refine hguard .examine (by decide) ?_
      simp only [GuardState.next, hposition, Option.isSome_some]
    | exited code => exact absurd hposition (hexited code)

/-! ## The result -/

theorem informed_of_exec {labels : List ServiceLabel} {s : ServiceState}
    (h : exec next start labels = some s) : s.Informed :=
  (throughout_of_step (fun _ h => h) (fun _ _ _ h hnext => h.next hnext) labels
    informed_start).last h

/-- The server is in a call that never returns. -/
def Hung (s : ServiceState) : Prop := ∃ image, s.image = some image ∧ image.position = .hung

/-- A guard whose server is alive is about to wait for it, or does. -/
theorem ending_of_told {labels : List ServiceLabel} {s : ServiceState}
    (h : exec next start labels = some s) (htold : s.Told) (hhung : ¬ s.Hung) : s.Ending := by
  have hinformed := informed_of_exec h
  obtain ⟨image, himage, hbehind, hreceived⟩ := htold
  have hrun := ((hinformed.fit image himage).told hbehind).mpr hreceived
  obtain ⟨guardLabels, hguard⟩ := refines_guard.exec h
  obtain ⟨lives, -, hdoing⟩ := GuardState.supervised_of_exec hguard
  have hserver := hinformed.server himage
  refine ending_of_knows ?_
    (.inl ⟨image, himage, hbehind, hrun, fun hposition => hhung ⟨image, himage, hposition⟩⟩)
  cases hposition : s.guard.position with
  | assign pid => exact .inl ⟨pid, rfl⟩
  | wait => exact .inr rfl
  | fork | examine status | exited code =>
    rw [hposition] at hdoing
    exact nomatch hserver.symm.trans hdoing.1

/-- **The shutdown.**  In every run of both processes, `run` is false in a server behind `execv`
    exactly if a shutdown signal has been delivered to it since, and it stops only then.  And then,
    whatever other signals come, unless it crashes before it has stopped or what it calls on its way
    out never returns: the guard forks no more, both together make a bounded number of steps, and
    there is always one to make until the guard has exited. -/
theorem shutdown_ends {labels : List ServiceLabel} {s : ServiceState}
    (h : exec next start labels = some s) :
    s.Informed ∧ (s.Told → ¬ s.Hung → ∀ {more : List ServiceLabel} {t : ServiceState},
      StepsMeet next Calm s more → exec next s more = some t →
        Throughout next (fun u => u.guard.position ≠ .fork) s more ∧
        more.countP own ≤ s.effort ∧
        ((∃ code, t.guard.position = .exited code) ∨
          ∃ label t', own label = true ∧ Calm t label ∧ t.next label = some t')) := by
  have hinformed := informed_of_exec h
  refine ⟨hinformed, fun htold hhung more t hcalm ht => ?_⟩
  have hending := ending_of_told h htold hhung
  obtain ⟨⟨hlast, hlastEnding⟩, hcount⟩ := countP_add_effort_le
    (fun _ _ _ hs hC hnext => ending_next hs hC hnext) ⟨hinformed, hending⟩ hcalm ht
  refine ⟨?_, Nat.le_trans (Nat.le_add_right _ _) hcount, ?_⟩
  · refine throughout_of_stepsMeet (fun u hu hfork => ?_)
      (fun _ _ _ hs hC hnext => (ending_next hs hC hnext).1) ⟨hinformed, hending⟩ hcalm
    have hu := hu.2
    rw [Ending, hfork] at hu
    exact hu
  · refine or_iff_not_imp_left.mpr fun hexited => ?_
    exact exists_own_step hlast hlastEnding (not_exists.mp hexited)

/-- A signal that is sent to the guard before its server has executed anything, and delivered after
    that: the server would be killed by it while it has no handler. -/
def lateRun : List ServiceLabel :=
  [.guard (.fork 100), .guard .assign, .signal SIGTERM, .server .clear, .server (.exec true),
    .server .install, .deliver SIGTERM]

/-- The rest of it. -/
def lateEnd : List ServiceLabel :=
  [.server .install, .server .install, .server .install, .server (.construct true), .server .look,
    .server (.stop true), .server .exit, .guard .wait, .guard .examine]

/-- Where the signal has been delivered. -/
def lateState : ServiceState := (exec next start lateRun).getD start

theorem lateRun_ends :
    lateState.Told ∧ lateEnd.countP own ≤ lateState.effort ∧
      ∃ t, exec next lateState lateEnd = some t ∧ t.guard.position = .exited 0 := by
  have hrun : exec next start lateRun = some lateState := rfl
  have htold : lateState.Told := ⟨_, rfl, rfl, SIGTERM, by decide, by decide⟩
  obtain ⟨t, ht, hexited⟩ : ∃ t, exec next lateState lateEnd = some t ∧
      t.guard.position = .exited 0 := ⟨_, rfl, rfl⟩
  have hhung : ¬ lateState.Hung := by
    rintro ⟨image, himage, hposition⟩
    obtain rfl := Option.some.inj himage
    cases hposition
  have hcalm : StepsMeet next Calm lateState lateEnd := by decide +kernel
  have hends := (shutdown_ends hrun).2 htold hhung hcalm ht
  exact ⟨htold, hends.2.1, t, ht, hexited⟩

end ServiceState

end ThreadServer
