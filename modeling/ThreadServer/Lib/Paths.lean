/-
  What a path leads to, in a tree of directories without links.

  1. `follow` — one component after the other, from a directory given by its names, innermost first;
     above the root there is only the root.
  2. **Two starts** (`follow_eq_follow_root_iff`) — a relative path leads to the same place from a
     directory and from the root exactly if on its way from the directory it comes to the root
     (`reachesRoot`): from there on it is the same way.
  3. **As text** (`resolve`) — components between slashes.  An empty component and `.` are nothing,
     and a text that begins with a slash starts at the root.
-/
import ThreadServer.Lib.Bytes

namespace Paths

open Bytes

/-! ## Components -/

/-- One step of a path. -/
inductive Component (Name : Type)
  | up
  | name (name : Name)
  deriving DecidableEq

variable {Name : Type}

/-- **Where a path leads.** -/
def follow (directory : List Name) : List (Component Name) → List Name
  | [] => directory
  | .up :: path => follow directory.tail path
  | .name name :: path => follow (name :: directory) path

/-- From a directory so many levels below it, the path comes to the root. -/
def reachesRoot : Nat → List (Component Name) → Bool
  | 0, _ => true
  | _ + 1, [] => false
  | depth + 1, .up :: path => reachesRoot depth path
  | depth + 1, .name _ :: path => reachesRoot (depth + 2) path

theorem follow_append_eq_iff (path : List (Component Name)) (way directory : List Name) :
    follow (way ++ directory) path = follow way path ↔
      directory = [] ∨ reachesRoot (way.length + directory.length) path = true := by
  induction path generalizing way directory with
  | nil =>
    show way ++ directory = way ↔ _
    rw [List.append_right_eq_self]
    cases directory with
    | nil => exact iff_of_true rfl (.inl rfl)
    | cons name directory =>
      refine iff_of_false (List.cons_ne_nil _ _) ?_
      rintro (h | h)
      · exact nomatch h
      · exact nomatch h
  | cons component path ih =>
    cases component with
    | up =>
      cases way with
      | nil =>
        cases directory with
        | nil => exact iff_of_true rfl (.inl rfl)
        | cons name directory =>
          -- one level of the directory is gone
          have hstep := ih [] directory
          have hroot : reachesRoot directory.length path = true ↔
              directory = [] ∨ reachesRoot directory.length path = true := by
            refine ⟨.inr, ?_⟩
            rintro (rfl | h)
            · rw [List.length_nil, reachesRoot]
            · exact h
          rw [List.length_nil, Nat.zero_add] at hstep ⊢
          rw [← hroot] at hstep
          exact hstep.trans (or_iff_right (List.cons_ne_nil _ _)).symm
      | cons first way =>
        have hlength : (first :: way).length + directory.length =
            way.length + directory.length + 1 := by
          rw [List.length_cons]
          omega
        rw [hlength]
        exact ih way directory
    | name name =>
      cases directory with
      | nil => exact iff_of_true (by rw [List.append_nil]) (.inl rfl)
      | cons first directory =>
        have hlength : way.length + (first :: directory).length =
            way.length + directory.length + 1 := by
          rw [List.length_cons]
          omega
        have hnext : (name :: way).length + (first :: directory).length =
            way.length + directory.length + 2 := by
          rw [List.length_cons, List.length_cons]
          omega
        have hstep := ih (name :: way) (first :: directory)
        rw [hnext] at hstep
        rw [hlength]
        exact hstep

/-- **From a directory and from the root**: the same place, exactly if the root is on the way. -/
theorem follow_eq_follow_root_iff (directory : List Name) (path : List (Component Name)) :
    follow directory path = follow [] path ↔ reachesRoot directory.length path = true := by
  have h := follow_append_eq_iff path [] directory
  rw [List.nil_append, List.length_nil, Nat.zero_add] at h
  rw [h]
  refine ⟨?_, .inr⟩
  rintro (rfl | hroot)
  · rw [List.length_nil, reachesRoot]
  · exact hroot

/-! ## As text -/

/-- The components of a path. -/
def components (path : Bytes) : List (Component Bytes) :=
  (path.splitOn (chr '/')).filterMap fun name =>
    if name = [] ∨ name = str "." then none
    else if name = str ".." then some .up else some (.name name)

def isAbsolute (path : Bytes) : Bool := path.head? = some (chr '/')

/-- **What a path means** to a process that stands in `directory`. -/
def resolve (directory path : Bytes) : List Bytes :=
  follow (if isAbsolute path then [] else follow [] (components directory)) (components path)

example : resolve (str "/srv/web") (str "../run//./pid") = [str "pid", str "run", str "srv"] := by
  decide

/-- A process that has gone to the root means the same by a path as where it came from, exactly if
    the path is absolute or leads through the root. -/
theorem resolve_root_eq_iff (directory path : Bytes) :
    resolve (str "/") path = resolve directory path ↔
      isAbsolute path = true ∨
        reachesRoot (follow [] (components directory)).length (components path) = true := by
  have hroot : follow [] (components (str "/")) = [] := by decide
  rw [resolve, resolve, hroot]
  by_cases habsolute : isAbsolute path = true
  · rw [if_pos habsolute, if_pos habsolute]
    exact iff_of_true rfl (.inl habsolute)
  · rw [if_neg habsolute, if_neg habsolute, eq_comm, follow_eq_follow_root_iff]
    exact (or_iff_right habsolute).symm

end Paths
