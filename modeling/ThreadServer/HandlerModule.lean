/-
  A handler and its module: the constructors and destructors of `CppHttpHandler_t` and
  `CppFrpcHandler_t`, with the worker threads in between (`cpphttphandler.cc`, `cppfrpchandler.cc`).

  The module is an object of a class from a library that the handler opens itself.  What keeps its
  code in memory is one member, `moduleHandle`, and the order in which members are destroyed.

  1. **Construction** (`ModuleHandler.construct`) — the settings are read, the library is opened,
     the module is created.  Any of it may throw, and then the members that are there are destroyed.
  2. **The life of the handler** (`HandlerLife.next`) — its worker pool, whose threads call the
     module, and the members' destruction when `destroyWorkers` has returned.  Every step is a
     label, so a run is any interleaving.
  3. **Specification** (`InMemory`, `Members.Settled`) — code of the module runs only while its
     library is open, and code of the object only while the object exists; what has been opened and
     created is closed and deleted once.
  4. **Result** (`module_in_memory`) — both hold in every run, whatever the configuration, the
     dynamic loader, the module and the threads do, and also where the constructor throws.
-/
import ThreadServer.Configuration
import ThreadServer.WorkerPool
import ThreadServer.Lib.History
import ThreadServer.Lib.LexicalCast

namespace ThreadServer

open Bytes History Transition

/-! ## Construction -/

/-- The dynamic loader, and what a module's create function does. -/
structure ModuleLoader where
  /-- The handle, or what `dlerror()` says. -/
  dlopen : Bytes → Except Bytes Nat
  /-- What `dlerror()` says after it, if anything. -/
  dlsym : Nat → Bytes → Option Bytes
  /-- `moduleCreateFunction(this)`, by library and symbol. -/
  create : Nat → Bytes → Except Exn Unit

/-- What happens to the library and the module of a handler.  `i` is the worker's thread. -/
inductive ModuleEvent
  | dlopen (library : Nat)
  | dlclose (library : Nat)
  /-- The create function runs: it returns a module, or throws. -/
  | create (created : Bool)
  | threadCreate (i : Nat)
  | serve (i : Nat)
  | threadDestroy (i : Nat)
  /-- The module's destructor runs. -/
  | delete
  deriving DecidableEq

/-- The members `moduleHandle` and `module` of a handler, and what has happened to them. -/
structure Members where
  moduleHandle : Option Nat
  module : Bool
  history : List ModuleEvent

namespace Members

/-- `moduleHandle(0)`, `module(0)`. -/
def initial : Members := ⟨none, false, []⟩

def record (m : Members) (events : List ModuleEvent) : Members :=
  { m with history := m.history ++ events }

/-- `DlHandleGuard_t::reset`. -/
def reset (m : Members) (handle : Option Nat) : Members :=
  { m.record (m.moduleHandle.toList.map .dlclose) with moduleHandle := handle }

/-- `~DlHandleGuard_t`. -/
def destroyModuleHandle (m : Members) : Members := m.reset none

/-- The destructor of the `auto_ptr`. -/
def destroyModule (m : Members) : Members :=
  { m.record (if m.module then [.delete] else []) with module := false }

/-- `module` is declared behind `moduleHandle`. -/
def destroy (m : Members) : Members := m.destroyModule.destroyModuleHandle

/-- `loadModule(filename, symbol)`. -/
def loadModule (loader : ModuleLoader) (filename symbol : Bytes) (m : Members) :
    Except Failure Unit × Members :=
  match loader.dlopen filename with
  | .error text => (.error (.throws (.formatted
      [str "Can't load module ", cStr filename, str ": ", text])), m.reset none)
  | .ok handle =>
    let m := (m.record [.dlopen handle]).reset (some handle)
    match loader.dlsym handle symbol with
    -- `dlerror()` is asked a second time for the message, and has nothing more to say.
    | some _ => (.error (.throws (.formatted
        [str "Can't load module ", cStr filename, str " create function ", cStr symbol,
          str ": (null)"])), m)
    | none =>
      match loader.create handle symbol with
      | .ok () => (.ok (), { m.record [.create true] with module := true })
      | .error e =>
        let m := m.record [.create false]
        match e.what? with
        | some what => (.error (.throws (.formatted
            [str "Can't create module ", cStr filename, str ": ", what])), m)
        | none => (.error (.throws e), m)

end Members

/-- The two kinds of handler that have a module. -/
inductive ModuleHandler
  | cppHttpHandler
  | cppFrpcHandler
  deriving DecidableEq

/-- What a `CppHttpHandler_t` reads from the configuration before it loads its module. -/
structure CppHttpHandler.Settings where
  readTimeout : Int
  writeTimeout : Int
  maxLineSize : Nat
  /-- A `size_t`, read as an `int`. -/
  maxRequestSize : BitVec 64

/-- What a `CppFrpcHandler_t` reads. -/
structure CppFrpcHandler.Settings where
  readTimeout : Int
  writeTimeout : Int
  keepAlive : Bool
  maxKeepAlive : Int
  introspectionEnabled : Bool
  helpDirectory : Bytes

def CppHttpHandler.Settings.read (configuration : Configuration) (name : Bytes) :
    Except Failure CppHttpHandler.Settings := do
  let time := configuration.getOr (LexicalCast.toSigned 64)
  let readTimeout ← time (name ++ str ".ReadTimeout") 10000
  let writeTimeout ← time (name ++ str ".WriteTimeout") 10000
  let maxLineSize ← configuration.getOr (LexicalCast.toUnsigned 64) (name ++ str ".MaxLineSize")
    1024
  let maxRequestSize ← configuration.getOr (LexicalCast.toSigned 32)
    (name ++ str ".MaxRequestSize") (1024 * 1024)
  .ok { readTimeout, writeTimeout, maxLineSize, maxRequestSize := BitVec.ofInt 64 maxRequestSize }

/-- The `getBool` of `cppfrpchandler.cc`. -/
def CppFrpcHandler.getBool (s : Bytes) : Bool := s = str "1" ∨ s = str "true" ∨ s = str "on"

def CppFrpcHandler.Settings.read (configuration : Configuration) (name : Bytes) :
    Except Failure CppFrpcHandler.Settings := do
  let time := configuration.getOr (LexicalCast.toSigned 64)
  let readTimeout ← time (name ++ str ".ReadTimeout") 10000
  let writeTimeout ← time (name ++ str ".WriteTimeout") 10000
  let keepAlive ← configuration.getOr some (name ++ str ".KeepAlive") (str "true")
  let maxKeepAlive ← time (name ++ str ".MaxKeepAlive") 100
  let introspectionEnabled ← configuration.getOr some (name ++ str ".IntrospectionEnabled")
    (str "true")
  let helpDirectory ← configuration.getOr some (name ++ str ".HelpDirectory") []
  .ok { readTimeout, writeTimeout, keepAlive := getBool keepAlive, maxKeepAlive
        introspectionEnabled := getBool introspectionEnabled, helpDirectory }

namespace ModuleHandler

def Settings : ModuleHandler → Type
  | cppHttpHandler => CppHttpHandler.Settings
  | cppFrpcHandler => CppFrpcHandler.Settings

def readSettings (configuration : Configuration) (name : Bytes) :
    (handler : ModuleHandler) → Except Failure handler.Settings
  | cppHttpHandler => CppHttpHandler.Settings.read configuration name
  | cppFrpcHandler => CppFrpcHandler.Settings.read configuration name

/-- `CppHttpHandler_t(threadServer, name, workerCount)` and `CppFrpcHandler_t(...)`, as far as
    their modules are concerned. -/
def construct (loader : ModuleLoader) (configuration : Configuration) (name : Bytes)
    (handler : ModuleHandler) : Except Failure handler.Settings × Members :=
  match handler.readSettings configuration name with
  | .error e => (.error e, Members.initial.destroy)
  | .ok settings =>
    match configuration.get (name ++ str ".Module") with
    | .error e => (.error e, Members.initial.destroy)
    | .ok module =>
      match find (chr ':') module with
      | none => (.error (.throws (.formatted
          [str "Invalid module specification ", cStr module])), Members.initial.destroy)
      | some pos =>
        match Members.initial.loadModule loader (substr module 0 pos)
            (substrFrom module (pos + 1)) with
        | (.error e, m) => (.error e, m.destroy)
        | (.ok (), m) => (.ok settings, m)

end ModuleHandler

/-- The ways a constructor can end: without a library, with a library that is closed again, or with
    a module. -/
inductive Constructed {S : Type} : Except Failure S × Members → Prop
  | notLoaded {e : Failure} : Constructed (.error e, .initial)
  | closed {e : Failure} (library : Nat) {tried : List ModuleEvent} :
      tried = [] ∨ tried = [.create false] →
      Constructed (.error e, ⟨none, false, .dlopen library :: tried ++ [.dlclose library]⟩)
  | created {settings : S} (library : Nat) :
      Constructed (.ok settings, ⟨some library, true, [.dlopen library, .create true]⟩)

theorem ModuleHandler.constructed (loader : ModuleLoader) (configuration : Configuration)
    (name : Bytes) (handler : ModuleHandler) :
    Constructed (handler.construct loader configuration name) := by
  unfold construct
  cases handler.readSettings configuration name with
  | error e => exact .notLoaded
  | ok settings =>
    cases configuration.get (name ++ str ".Module") with
    | error e => exact .notLoaded
    | ok module =>
      dsimp only
      cases find (chr ':') module with
      | none => exact .notLoaded
      | some pos =>
        dsimp only [Members.loadModule]
        cases loader.dlopen (substr module 0 pos) with
        | error text => exact .notLoaded
        | ok library =>
          dsimp only
          cases loader.dlsym library (substrFrom module (pos + 1)) with
          | some text => exact .closed library (.inl rfl)
          | none =>
            dsimp only
            cases loader.create library (substrFrom module (pos + 1)) with
            | ok => exact .created library
            | error e =>
              dsimp only
              cases e.what? with
              | none => exact .closed library (.inr rfl)
              | some what => exact .closed library (.inr rfl)

/-! ## The handler's life -/

/-- A handler with `n` workers, from its construction on. -/
structure HandlerLife (Socket : Type) (n : Nat) where
  members : Members
  pool : PoolState Socket n

/-- One step of one of the workers' threads, or of the thread that deletes the handler. -/
inductive HandlerLabel (Behaviour Socket : Type) (n : Nat)
  | pool (label : PoolLabel Behaviour Socket n)
  /-- The destructor's body has returned, and the members are destroyed one by one. -/
  | destroyModule
  | destroyModuleHandle

/-- The code of the module that a step of the pool can run.  A method runs from `handle` to the
    moment it has returned or thrown. -/
def PoolLabel.moduleEvents {Behaviour Socket : Type} {n : Nat} :
    PoolLabel Behaviour Socket n → List ModuleEvent
  | .createWorker i _ => [.threadCreate i]
  | .handle i | .handled i _ => [.serve i]
  | .deleteWorker i _ => [.threadDestroy i]
  | .enqueue _ | .dequeue _ | .destroyWorkers | .join => []

namespace HandlerLife

variable {Socket : Type} {n : Nat}

/-- The body of the destructor has returned. -/
def Destroyed (s : HandlerLife Socket n) : Prop :=
  s.pool.terminated = false ∧ s.pool.destroyer = .returned

instance (s : HandlerLife Socket n) : Decidable s.Destroyed := by
  unfold Destroyed
  infer_instance

/-- One step; `none` where it cannot be taken. -/
def next (code : HandlerCode) (s : HandlerLife Socket n) :
    HandlerLabel code.Behaviour Socket n → Option (HandlerLife Socket n)
  | .pool label => (PoolState.next code s.pool label).map fun pool =>
      { members := s.members.record label.moduleEvents, pool }
  | .destroyModule =>
    if s.Destroyed ∧ s.members.module = true then
      some { s with members := s.members.destroyModule }
    else none
  | .destroyModuleHandle =>
    if s.Destroyed ∧ s.members.module = false then
      some { s with members := s.members.destroyModuleHandle }
    else none

end HandlerLife

/-! ## The specification -/

/-- What a handler's library has to be for this to happen.  Its code needs it open, and the code of
    the module object needs the object. -/
def InMemory (past : List ModuleEvent) : ModuleEvent → Prop
  | .dlopen _ => True
  | .dlclose library => .dlopen library ∈ past ∧ .dlclose library ∉ past
  | .create _ => ∃ library, .dlopen library ∈ past ∧ .dlclose library ∉ past
  | .threadCreate _ | .serve _ | .threadDestroy _ | .delete =>
    (∃ library, .dlopen library ∈ past ∧ .dlclose library ∉ past) ∧
      .create true ∈ past ∧ .delete ∉ past

/-- Every library has been closed as often as it was opened, and every module deleted. -/
def Members.Settled (m : Members) : Prop :=
  (∀ library, m.history.count (.dlopen library) = m.history.count (.dlclose library)) ∧
    m.history.count (.create true) = m.history.count .delete

/-! ## The members keep their books -/

/-- **The invariant of the two members**: each stands for what it keeps in memory. -/
structure Members.Books (m : Members) : Prop where
  guarded : Guarded InMemory [] m.history
  opened : ∀ library, m.moduleHandle = some library →
    .dlopen library ∈ m.history ∧ .dlclose library ∉ m.history
  created : m.module = true →
    m.moduleHandle ≠ none ∧ .create true ∈ m.history ∧ .delete ∉ m.history
  libraries : ∀ library, m.history.count (.dlopen library) =
    m.history.count (.dlclose library) + if m.moduleHandle = some library then 1 else 0
  modules : m.history.count (.create true) = m.history.count .delete + if m.module then 1 else 0

namespace Members

variable {m : Members}

/-- What a module needs is there as long as the members are. -/
theorem Books.needs (h : m.Books) (hmodule : m.module = true) :
    (∃ library, .dlopen library ∈ m.history ∧ .dlclose library ∉ m.history) ∧
      .create true ∈ m.history ∧ .delete ∉ m.history := by
  obtain ⟨hhandle, hcreated⟩ := h.created hmodule
  obtain ⟨library, hlibrary⟩ := Option.ne_none_iff_exists'.mp hhandle
  exact ⟨⟨library, h.opened library hlibrary⟩, hcreated⟩

/-- The threads call the module. -/
theorem Books.call (h : m.Books) (hmodule : m.module = true) {Behaviour Socket : Type} {n : Nat}
    (label : PoolLabel Behaviour Socket n) : (m.record label.moduleEvents).Books := by
  have hneeds := h.needs hmodule
  have hcall : label.moduleEvents = [] ∨ ∃ e, label.moduleEvents = [e] ∧ InMemory m.history e ∧
      (∀ library, e ≠ .dlopen library) ∧ (∀ library, e ≠ .dlclose library) ∧
      (∀ created, e ≠ .create created) ∧ e ≠ .delete := by
    cases label with
    | enqueue | dequeue | destroyWorkers | join => exact .inl rfl
    | createWorker | handle | handled | deleteWorker =>
      exact .inr ⟨_, rfl, hneeds, nofun, nofun, nofun, nofun⟩
  rcases hcall with hnone | ⟨e, hsingle, hin, hopen, hclose, hcreate, hdelete⟩
  · rw [hnone, record, List.append_nil]
    exact h
  · rw [hsingle]
    have hcount : ∀ e', e' ≠ e → (m.history ++ [e]).count e' = m.history.count e' := by
      intro e' hne
      have hnone : [e].count e' = 0 :=
        List.count_eq_zero_of_not_mem fun hmem => hne (List.mem_singleton.mp hmem)
      rw [List.count_append, hnone, Nat.add_zero]
    refine ⟨guarded_append.mpr ⟨h.guarded, hin, trivial⟩, fun library hlibrary => ?_,
      fun hmodule => ?_, fun library => ?_, ?_⟩
    · obtain ⟨hopened, hnotClosed⟩ := h.opened library hlibrary
      refine ⟨List.mem_append_left _ hopened, fun hmem => ?_⟩
      rcases List.mem_append.mp hmem with hmem | hmem
      · exact hnotClosed hmem
      · exact hclose library (List.mem_singleton.mp hmem).symm
    · obtain ⟨hhandle, hcreated, hnotDeleted⟩ := h.created hmodule
      refine ⟨hhandle, List.mem_append_left _ hcreated, fun hmem => ?_⟩
      rcases List.mem_append.mp hmem with hmem | hmem
      · exact hnotDeleted hmem
      · exact hdelete (List.mem_singleton.mp hmem).symm
    · show (m.history ++ [e]).count _ = (m.history ++ [e]).count _ + _
      rw [hcount _ (hopen library).symm, hcount _ (hclose library).symm]
      exact h.libraries library
    · show (m.history ++ [e]).count _ = (m.history ++ [e]).count _ + _
      rw [hcount _ (hcreate true).symm, hcount _ hdelete.symm]
      exact h.modules

/-- The module is deleted. -/
theorem Books.destroyModule (h : m.Books) (hmodule : m.module = true) : m.destroyModule.Books := by
  have hdestroy : m.destroyModule = ⟨m.moduleHandle, false, m.history ++ [.delete]⟩ := by
    rw [Members.destroyModule, if_pos hmodule]
    rfl
  rw [hdestroy]
  refine ⟨guarded_append.mpr ⟨h.guarded, h.needs hmodule, trivial⟩, fun library hlibrary => ?_,
    nofun, fun library => ?_, ?_⟩
  · obtain ⟨hopened, hnotClosed⟩ := h.opened library hlibrary
    exact ⟨by simp [hopened], by simp [hnotClosed]⟩
  · simpa using h.libraries library
  · have hmodules := h.modules
    rw [if_pos hmodule] at hmodules
    simpa using hmodules

/-- The library is closed, behind the module. -/
theorem Books.destroyModuleHandle (h : m.Books) (hmodule : m.module = false) :
    m.destroyModuleHandle.Books ∧ m.destroyModuleHandle.Settled := by
  obtain ⟨moduleHandle, module, history⟩ := m
  obtain rfl : module = false := hmodule
  have hmodules : history.count (.create true) = history.count ModuleEvent.delete := h.modules
  cases moduleHandle with
  | none =>
    have hsame : (⟨none, false, history⟩ : Members).destroyModuleHandle = ⟨none, false, history⟩ :=
      congrArg (Members.mk none false) (List.append_nil history)
    rw [hsame]
    exact ⟨h, h.libraries, hmodules⟩
  | some library =>
    have hlibraries : ∀ other, (history ++ [ModuleEvent.dlclose library]).count (.dlopen other) =
        (history ++ [ModuleEvent.dlclose library]).count (.dlclose other) := by
      intro other
      have hother := h.libraries other
      simp only [Option.some.injEq] at hother
      rw [List.count_append, List.count_append, hother]
      by_cases heq : library = other
      · subst heq
        simp
      · simp [heq]
    refine ⟨⟨?_, nofun, nofun, hlibraries, ?_⟩, hlibraries, ?_⟩
    · exact guarded_append.mpr ⟨h.guarded, h.opened library rfl, trivial⟩
    all_goals
      show (history ++ [ModuleEvent.dlclose library]).count _ =
        (history ++ [ModuleEvent.dlclose library]).count _
      simpa using hmodules

end Members

/-- What a constructor leaves. -/
theorem Constructed.books {S : Type} {result : Except Failure S × Members}
    (h : Constructed result) : result.2.Books ∧ match result.1 with
      | .ok _ => result.2.module = true
      | .error _ => result.2.Settled := by
  cases h with
  | notLoaded =>
    refine ⟨⟨trivial, nofun, nofun, fun _ => rfl, rfl⟩, fun _ => rfl, rfl⟩
  | created library =>
    refine ⟨⟨⟨trivial, ⟨library, .head _, by simp⟩, trivial⟩, ?_, fun _ => by simp,
      fun other => ?_, by simp⟩, rfl⟩
    · rintro _ ⟨⟩
      simp
    · by_cases hother : library = other <;> simp [hother]
  | closed library htried =>
    rcases htried with rfl | rfl
    · refine ⟨⟨⟨trivial, by simp [InMemory], trivial⟩, nofun, nofun, fun other => ?_, by simp⟩,
        fun other => ?_, by simp⟩
      all_goals by_cases hother : library = other <;> simp [hother]
    · refine ⟨⟨⟨trivial, ⟨library, .head _, by simp⟩, by simp [InMemory], trivial⟩, nofun, nofun,
        fun other => ?_, by simp⟩, fun other => ?_, by simp⟩
      all_goals by_cases hother : library = other <;> simp [hother]

namespace HandlerLife

variable {Socket : Type} {n : Nat}

/-! ## The run -/

/-- **The invariant of a handler's life.**  The module is there until the body of the destructor has
    returned, and then all threads have ended. -/
structure Kept (s : HandlerLife Socket n) : Prop where
  accounted : s.pool.Accounted
  books : s.members.Books
  module : s.pool.destroyer ≠ .returned → s.members.module = true

/-- A thread that runs the module's code is not joined yet. -/
theorem Kept.module_of_events {code : HandlerCode} {s : HandlerLife Socket n} (h : Kept s)
    {label : PoolLabel code.Behaviour Socket n} {pool : PoolState Socket n}
    (hnext : PoolState.next code s.pool label = some pool) (hevents : label.moduleEvents ≠ []) :
    s.members.module = true := by
  refine h.module fun hreturned => ?_
  have hended : ∀ i, s.pool.worker i = .ended := fun i =>
    h.accounted.joined i (by rw [hreturned]; trivial)
  cases (PoolState.next_eq_some hnext).2 with
  | enqueue | dequeue | leave | finish | joined | joinedAll => exact hevents rfl
  | created hworker | notCreated hworker | handle hworker | handled _ hworker | deleted hworker
  | notDeleted hworker => cases (hended _).symm.trans hworker

/-- Nothing but the last `join` lets the body of the destructor return. -/
theorem returned_of_next {code : HandlerCode} {s pool : PoolState Socket n}
    {label : PoolLabel code.Behaviour Socket n} (h : PoolState.next code s label = some pool)
    (hreturned : s.destroyer = .returned) : pool.destroyer = .returned := by
  cases (PoolState.next_eq_some h).2 with
  | enqueue | created | notCreated | dequeue | leave | handle | handled | deleted | notDeleted =>
    exact hreturned
  | finish hdestroyer => cases hreturned.symm.trans hdestroyer
  | joined _ hdestroyer => cases hreturned.symm.trans hdestroyer
  | joinedAll hdestroyer => rfl

theorem Kept.next {code : HandlerCode} {s s' : HandlerLife Socket n} (h : Kept s)
    {label : HandlerLabel code.Behaviour Socket n} (hnext : next code s label = some s') :
    Kept s' := by
  cases label with
  | pool label =>
    obtain ⟨pool, hpool, rfl⟩ := Option.map_eq_some_iff.mp hnext
    refine ⟨h.accounted.next hpool, ?_, fun hnot => ?_⟩
    · by_cases hevents : label.moduleEvents = []
      · show (s.members.record label.moduleEvents).Books
        rw [hevents, Members.record, List.append_nil]
        exact h.books
      · exact h.books.call (h.module_of_events hpool hevents) label
    · exact h.module fun hreturned => hnot (returned_of_next hpool hreturned)
  | destroyModule =>
    simp only [HandlerLife.next, Option.ite_none_right_eq_some] at hnext
    obtain ⟨⟨hdestroyed, hmodule⟩, hs'⟩ := hnext
    obtain rfl := Option.some.inj hs'
    exact ⟨h.accounted, h.books.destroyModule hmodule, fun hnot => absurd hdestroyed.2 hnot⟩
  | destroyModuleHandle =>
    simp only [HandlerLife.next, Option.ite_none_right_eq_some] at hnext
    obtain ⟨⟨hdestroyed, hmodule⟩, hs'⟩ := hnext
    obtain rfl := Option.some.inj hs'
    exact ⟨h.accounted, (h.books.destroyModuleHandle hmodule).1,
      fun hnot => absurd hdestroyed.2 hnot⟩

/-- Behind its body, the destructor goes on to its end. -/
theorem Kept.exists_exec {code : HandlerCode} {s : HandlerLife Socket n} (h : Kept s)
    (hdestroyed : s.Destroyed) : ∃ labels t, exec (HandlerLife.next code) s labels = some t ∧
      t.members.moduleHandle = none ∧ t.members.Settled := by
  cases hmodule : s.members.module with
  | true =>
    have hfirst : HandlerLife.next code s .destroyModule
        = some { s with members := s.members.destroyModule } := if_pos ⟨hdestroyed, hmodule⟩
    have hkept := h.next hfirst
    have hsecond : HandlerLife.next code { s with members := s.members.destroyModule }
        .destroyModuleHandle
        = some { s with members := s.members.destroyModule.destroyModuleHandle } :=
      if_pos ⟨hdestroyed, rfl⟩
    exact ⟨[.destroyModule, .destroyModuleHandle], _,
      exec_cons.mpr ⟨_, hfirst, exec_cons.mpr ⟨_, hsecond, rfl⟩⟩, rfl,
      (hkept.books.destroyModuleHandle rfl).2⟩
  | false =>
    have hnext : HandlerLife.next code s .destroyModuleHandle
        = some { s with members := s.members.destroyModuleHandle } :=
      if_pos ⟨hdestroyed, hmodule⟩
    exact ⟨[.destroyModuleHandle], _, exec_cons.mpr ⟨_, hnext, rfl⟩, rfl,
      (h.books.destroyModuleHandle hmodule).2⟩

/-- What a handler owes its module: its code has run in memory only, and once the body of the
    destructor has returned, the rest of it settles everything. -/
def Honours (code : HandlerCode) (s : HandlerLife Socket n) : Prop :=
  Guarded InMemory [] s.members.history ∧
    (s.Destroyed → ∃ labels t, exec (HandlerLife.next code) s labels = some t ∧
      t.members.moduleHandle = none ∧ t.members.Settled) ∧
    (s.members.moduleHandle = none → s.members.Settled)

/-- **The module is in memory wherever its code runs.**  For both kinds of handler, every
    configuration, dynamic loader and module: a constructor that throws has closed the library it
    opened, and no module is left; and after one that returns, in every interleaving of any number
    of workers with the destructor, code of the module runs only while its library is open, code of
    the module object only while the object exists, and the destructor closes the library, once,
    behind the module. -/
theorem module_in_memory (loader : ModuleLoader) (configuration : Configuration) (name : Bytes)
    (handler : ModuleHandler) :
    match handler.construct loader configuration name with
    | (.error _, members) => Guarded InMemory [] members.history ∧ members.Settled
    | (.ok _, members) => ∀ (Socket : Type) (n : Nat) (code : HandlerCode)
        (labels : List (HandlerLabel code.Behaviour Socket n)),
        Throughout (next code) (Honours code) ⟨members, .start Socket n⟩ labels := by
  have hconstructed := (handler.constructed loader configuration name).books
  cases hresult : handler.construct loader configuration name with
  | mk outcome members =>
    rw [hresult] at hconstructed
    obtain ⟨hbooks, hend⟩ := hconstructed
    cases outcome with
    | error e => exact ⟨hbooks.guarded, hend⟩
    | ok settings =>
      intro Socket n code labels
      refine throughout_of_step (fun s (h : Kept s) => ?_) (fun _ _ _ h hnext => h.next hnext)
        labels ⟨PoolState.accounted_start, hbooks, fun _ => hend⟩
      refine ⟨h.books.guarded, h.exists_exec, fun hnone => ?_⟩
      have hmodule : s.members.module = false := by
        refine Bool.eq_false_iff.mpr fun hmodule => ?_
        exact (h.books.created hmodule).1 hnone
      refine ⟨fun library => ?_, ?_⟩
      · simpa [hnone] using h.books.libraries library
      · simpa [hmodule] using h.books.modules

end HandlerLife

end ThreadServer
