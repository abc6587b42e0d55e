/-
  Processes as POSIX has them, as far as a program that puts itself into the background uses them.

  1. **Descriptors** — a table of open files: the lowest one that is free, and what is open under a
     number once another has been set (`lookup_place`).
  2. **Programs** (`Forking`) — a program that forks is run by two processes from there on.  So what
     a program does to a process is a list: every process there is in the end, with the result it
     goes on with or the status it has exited with.
  3. **Calls** — the system calls, each with the outcome the system chooses for it where it can
     fail.  What POSIX leaves no choice in, like `setsid` for the leader of a process group, is part
     of the call.

  Nothing here knows which program runs.
-/
import Mathlib.Data.List.Basic

namespace Posix

/-! ## Descriptors -/

section Descriptors

variable {File : Type}

/-- The files a process has open, by their descriptors. -/
abbrev Descriptors (File : Type) := List (Option File)

namespace Descriptors

def lookup (files : Descriptors File) (fd : Nat) : Option File := files[fd]?.join

/-- The lowest descriptor that is free. -/
def lowest (files : Descriptors File) : Nat := files.findIdx Option.isNone

/-- Open a file under a descriptor, or close it; the table grows as far as that takes. -/
def place (files : Descriptors File) (fd : Nat) (file : Option File) : Descriptors File :=
  (files ++ List.replicate (fd + 1 - files.length) none).set fd file

/-- A longer table has the same files. -/
theorem lookup_append_replicate (files : Descriptors File) (k i : Nat) :
    lookup (files ++ List.replicate k none) i = lookup files i := by
  unfold lookup
  by_cases hlt : i < files.length
  · rw [List.getElem?_append_left hlt]
  · have hge : files.length ≤ i := Nat.le_of_not_lt hlt
    rw [List.getElem?_append_right hge, List.getElem?_eq_none hge, List.getElem?_replicate]
    split <;> rfl

@[simp] theorem lookup_place (files : Descriptors File) (fd : Nat) (file : Option File) (i : Nat) :
    lookup (place files fd file) i = if i = fd then file else lookup files i := by
  by_cases hi : i = fd
  · subst hi
    have hlt :
        i < (files ++ List.replicate (i + 1 - files.length) (none : Option File)).length := by
      rw [List.length_append, List.length_replicate]
      omega
    rw [if_pos rfl, lookup, place, List.getElem?_set_self hlt]
    rfl
  · rw [if_neg hi, ← lookup_append_replicate files (fd + 1 - files.length) i, lookup, place,
      List.getElem?_set_ne (Ne.symm hi)]
    rfl

/-- Nothing is open under the lowest free descriptor. -/
theorem lookup_lowest (files : Descriptors File) : lookup files (lowest files) = none := by
  unfold lookup lowest
  by_cases h : files.findIdx Option.isNone < files.length
  · have hnone := List.findIdx_getElem (w := h)
    rw [List.getElem?_eq_getElem h, Option.join_some]
    exact Option.isNone_iff_eq_none.mp hnone
  · rw [List.getElem?_eq_none (Nat.le_of_not_lt h)]
    rfl

end Descriptors

end Descriptors

/-! ## Programs that fork -/

/-- A program of a process in state `σ` that may fork, and may exit with a status. -/
def Forking (σ Status α : Type) := σ → List (σ × Except Status α)

namespace Forking

variable {σ Status α β : Type}

/-- The processes that go on do so with the rest of the program. -/
instance : Monad (Forking σ Status) where
  pure a := fun s => [(s, .ok a)]
  bind m f := fun s => (m s).flatMap fun
    | (s, .ok a) => f a s
    | (s, .error status) => [(s, .error status)]

/-- The processes there are in the end, if the program is run by one in state `s`. -/
def run (m : Forking σ Status α) (s : σ) : List (σ × Except Status α) := m s

@[simp] theorem run_pure (a : α) (s : σ) :
    run (pure a : Forking σ Status α) s = [(s, .ok a)] := rfl

theorem run_bind (m : Forking σ Status α) (f : α → Forking σ Status β) (s : σ) :
    run (m >>= f) s = (run m s).flatMap fun
      | (s, .ok a) => run (f a) s
      | (s, .error status) => [(s, .error status)] := rfl

/-- Where a step does not fork and does not exit, the process goes on alone. -/
theorem run_bind_of_ok {m : Forking σ Status α} {s s' : σ} {a : α} (h : run m s = [(s', .ok a)])
    (f : α → Forking σ Status β) : run (m >>= f) s = run (f a) s' := by
  rw [run_bind, h]
  exact List.flatMap_singleton _ _

/-- Behind its end, a process runs nothing. -/
theorem run_bind_of_error {m : Forking σ Status α} {s s' : σ} {status : Status}
    (h : run m s = [(s', .error status)]) (f : α → Forking σ Status β) :
    run (m >>= f) s = [(s', .error status)] := by
  rw [run_bind, h]
  exact List.flatMap_singleton _ _

/-- The same program where a process has something more in its state: its children get a copy. -/
def withState {τ : Type} (m : Forking σ Status α) : Forking (σ × τ) Status α := fun (s, t) =>
  (m.run s).map fun (s', outcome) => ((s', t), outcome)

theorem run_withState {τ : Type} (m : Forking σ Status α) (s : σ) (t : τ) :
    run (withState m) (s, t) = (m.run s).map fun (s', outcome) => ((s', t), outcome) := rfl

end Forking

/-! ## Processes and their calls -/

/-- What the calls below read and change. -/
structure Process (Path File : Type) where
  pid : Nat
  parent : Nat
  group : Nat
  session : Nat
  /-- The session has a controlling terminal. -/
  terminal : Bool
  directory : Path
  mask : Nat
  files : Descriptors File

variable {Path File Status : Type}

/-- A program of such a process. -/
abbrev ProcessM (Path File Status : Type) := Forking (Process Path File) Status

/-- `exit(status)`. -/
def exit {α : Type} (status : Status) : ProcessM Path File Status α := fun p => [(p, .error status)]

/-- `fork()`: it returns 0 to the child and the child's pid to the parent, or fails. -/
def fork : (child : Option Nat) → ProcessM Path File Status (Option Nat)
  | none => fun p => [(p, .ok none)]
  | some pid => fun p =>
    [({ p with pid, parent := p.pid }, .ok (some 0)), (p, .ok (some pid))]

/-- `setsid()`: it fails for the leader of a process group. -/
def setsid : ProcessM Path File Status Bool := fun p =>
  if p.group = p.pid then [(p, .ok false)]
  else [({ p with group := p.pid, session := p.pid, terminal := false }, .ok true)]

/-- `chdir(directory)`. -/
def chdir (succeeds : Bool) (directory : Path) : ProcessM Path File Status Bool := fun p =>
  if succeeds then [({ p with directory }, .ok true)] else [(p, .ok false)]

/-- `umask(mask)`. -/
def umask (mask : Nat) : ProcessM Path File Status Unit := fun p => [({ p with mask }, .ok ())]

/-- `open(...)`, of this file. -/
def openFile (succeeds : Bool) (file : File) : ProcessM Path File Status (Option Nat) := fun p =>
  if succeeds then
    let fd := p.files.lowest
    [({ p with files := p.files.place fd (some file) }, .ok (some fd))]
  else [(p, .ok none)]

/-- `dup2(old, new)`. -/
def dup2 (succeeds : Bool) (old new : Nat) : ProcessM Path File Status Bool := fun p =>
  match p.files.lookup old with
  | none => [(p, .ok false)]
  | some file =>
    if succeeds then [({ p with files := p.files.place new (some file) }, .ok true)]
    else [(p, .ok false)]

theorem run_dup2 {p : Process Path File} {succeeds : Bool} {old : Nat} {file : File}
    (h : p.files.lookup old = some file) (new : Nat) :
    (dup2 succeeds old new : ProcessM Path File Status Bool).run p =
      if succeeds then [({ p with files := p.files.place new (some file) }, .ok true)]
      else [(p, .ok false)] := by
  simp only [Forking.run, dup2, h]

/-- `close(fd)`; where it fails, the descriptor may still be open or not. -/
def close (outcome : Except Bool Unit) (fd : Nat) : ProcessM Path File Status Bool := fun p =>
  match outcome with
  | .ok () => [({ p with files := p.files.place fd none }, .ok true)]
  | .error true => [(p, .ok false)]
  | .error false => [({ p with files := p.files.place fd none }, .ok false)]

end Posix
