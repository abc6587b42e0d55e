/-
  The method registry of `CppHttpHandler_t`: on which threads a module can register its methods, and
  what the workers dispatch over afterwards.

  `methodRegistry` is a thread-specific pointer.  It is null on every thread but the workers', where
  `Worker_t`'s constructor sets it to an empty list before it calls `threadCreate`.  The module
  itself is constructed earlier, on the main thread, by `loadModule`.

  1. **Module code** (`ModuleCode`) — a module's code on one thread is a tree of the calls it makes,
     each branching on what the call did, so a module may catch the exceptions of `registerMethod`.
  2. **Program** — `registerMethod` on a thread with or without a registry, a piece of module code
     on one thread (`runModule`), and a handler's life: the constructor on the main thread, then
     `threadCreate` on every worker's (`life`).
  3. **Specification** (`RegistersEverywhere`) — every call finds a registry, and every worker
     dispatches over the constructor's methods followed by its own.
  4. **Result** (`registersEverywhere_iff`) — `threadCreate` registers as specified
     (`runModule_some`, by induction on the module's code), the constructor never does: the
     specification is met exactly by the modules whose constructor registers nothing.
-/
import ThreadServer.HttpWorker

namespace ThreadServer

open Bytes

/-- What a module's code does on one thread, as far as its handler sees it: it makes calls, goes on
    as it likes with what each of them did, and in the end returns or throws. -/
inductive ModuleCode (Call : Type)
  | returns
  | throws (e : Exn)
  | call (call : Call) (next : Except Exn Unit → ModuleCode Call)

/-- How a piece of module code ends. -/
inductive CodeEnd
  | returned
  | threw (e : Exn)
  /-- It goes through the null pointer of a thread without a registry. -/
  | nullRegistry
  deriving DecidableEq

namespace CppHttpHandler

open Worker (redirect redirectEnv redirectWorker)

/-- The arguments of `registerMethod(location, method)`. -/
structure Registration (Header : Type) where
  location : Bytes
  method : Method Header

/-- A thread that runs module code. -/
structure ModuleThread (Header Regex : Type) where
  ending : CodeEnd
  /-- `methodRegistry`, as this thread sees it in the end. -/
  methodRegistry : Option (List (Regex × Method Header))
  /-- For each call of `registerMethod`, whether it found a registry. -/
  found : List Bool

/-- A module: the code of its constructor, and its `threadCreate` on each worker's thread. -/
structure HttpModule (Header : Type) where
  create : ModuleCode (Registration Header)
  threadCreate : Nat → ModuleCode (Registration Header)

variable {Header Regex : Type} (compile : Bytes → Except Exn Regex)

/-! ## The program -/

/-- `registerMethod`, where the thread has the registry `methodRegistry`; `none` where it goes
    through a null pointer.  The entry is built first, so a location that is no regular expression
    (`compile` throws) is rejected before the pointer is used. -/
def registerMethod (methodRegistry : Option (List (Regex × Method Header)))
    (registration : Registration Header) : Option (Except Exn (List (Regex × Method Header))) :=
  match compile registration.location with
  | .error e => some (.error e)
  | .ok regex => methodRegistry.map fun methods => .ok (methods ++ [(regex, registration.method)])

/-- Run module code on a thread. -/
def runModule : ModuleCode (Registration Header) → Option (List (Regex × Method Header)) →
    ModuleThread Header Regex
  | .returns, methodRegistry => ⟨.returned, methodRegistry, []⟩
  | .throws e, methodRegistry => ⟨.threw e, methodRegistry, []⟩
  | .call registration next, methodRegistry =>
    let thread : ModuleThread Header Regex :=
      match registerMethod compile methodRegistry registration with
      | none => ⟨.nullRegistry, methodRegistry, []⟩
      | some (.error e) => runModule (next (.error e)) methodRegistry
      | some (.ok methods) => runModule (next (.ok ())) (some methods)
    { thread with found := methodRegistry.isSome :: thread.found }

/-- The life of a handler's module: the main thread, which constructs it, and the workers' threads,
    which are there if that succeeds. -/
structure Life (Header Regex : Type) (n : Nat) where
  main : ModuleThread Header Regex
  threads : Fin n → Option (ModuleThread Header Regex)

/-- `loadModule` on the main thread, then `Worker_t`'s constructor on the thread of each of `n`
    workers. -/
def life (module : HttpModule Header) (n : Nat) : Life Header Regex n :=
  let main := runModule compile module.create none
  { main
    threads i := match main.ending with
      | .returned => some (runModule compile (module.threadCreate i) (some []))
      | .threw _ | .nullRegistry => none }

/-- The worker a thread goes on with, if its construction succeeded. -/
def worker (http : HTTPHeader Header) (regexMatch : Regex → Bytes → Option (List Bytes))
    (thread : ModuleThread Header Regex) : Option (Worker Header Regex) :=
  match thread.ending, thread.methodRegistry with
  | .returned, some registry => some { http, regexMatch, registry }
  | _, _ => none

/-! ## The specification -/

/-- The methods that module code registers, in the order of its calls: a location that is no
    regular expression registers nothing. -/
def registered : ModuleCode (Registration Header) → List (Regex × Method Header)
  | .returns | .throws _ => []
  | .call registration next =>
    match compile registration.location with
    | .error e => registered (next (.error e))
    | .ok regex => (regex, registration.method) :: registered (next (.ok ()))

/-- **What a module is owed**: every call of `registerMethod` finds a registry, on the main thread
    as on the workers', and each worker dispatches over the methods the module registered in its
    constructor and then in that worker's `threadCreate`. -/
structure RegistersEverywhere (http : HTTPHeader Header)
    (regexMatch : Regex → Bytes → Option (List Bytes)) (module : HttpModule Header) {n : Nat}
    (life : Life Header Regex n) : Prop where
  main_found : ∀ found ∈ life.main.found, found = true
  thread_found : ∀ i thread, life.threads i = some thread → ∀ found ∈ thread.found, found = true
  dispatches : ∀ i thread, life.threads i = some thread → thread.ending = .returned →
    ∃ w, worker http regexMatch thread = some w ∧
      w.registry = registered compile module.create ++ registered compile (module.threadCreate i)

/-! ## Module code on a thread with a registry -/

/-- **On a worker's thread** every call finds the registry, and the registry grows by what the code
    registers. -/
theorem runModule_some (code : ModuleCode (Registration Header))
    (methods : List (Regex × Method Header)) :
    (runModule compile code (some methods)).methodRegistry
        = some (methods ++ registered compile code) ∧
      (runModule compile code (some methods)).ending ≠ .nullRegistry ∧
      ∀ found ∈ (runModule compile code (some methods)).found, found = true := by
  induction code generalizing methods with
  | returns | throws e =>
    refine ⟨?_, nofun, nofun⟩
    show some methods = some (methods ++ [])
    rw [List.append_nil]
  | call registration next ih =>
    cases hcompile : compile registration.location with
    | error e =>
      -- Rejected: the registry is unchanged and the code goes on with the exception.
      obtain ⟨hregistry, hending, hfound⟩ := ih (.error e) methods
      simp only [runModule, registerMethod, registered, hcompile]
      exact ⟨hregistry, hending, List.forall_mem_cons.mpr ⟨rfl, hfound⟩⟩
    | ok regex =>
      obtain ⟨hregistry, hending, hfound⟩ := ih (.ok ()) (methods ++ [(regex, registration.method)])
      simp only [runModule, registerMethod, registered, hcompile, Option.map_some]
      refine ⟨?_, hending, List.forall_mem_cons.mpr ⟨rfl, hfound⟩⟩
      rw [hregistry, List.append_assoc]
      rfl

/-! ## Which modules register everywhere -/

/-- Code that makes a call on a thread without a registry does not find one. -/
theorem not_found_of_call (registration : Registration Header)
    (next : Except Exn Unit → ModuleCode (Registration Header)) :
    false ∈ (runModule compile (.call registration next) none).found := by
  rw [runModule]
  exact List.mem_cons_self

/-- A module whose constructor registers nothing registers everywhere. -/
theorem registersEverywhere_of_create (http : HTTPHeader Header)
    (regexMatch : Regex → Bytes → Option (List Bytes)) (module : HttpModule Header) (n : Nat)
    (hcreate : ∀ registration next, module.create ≠ .call registration next) :
    RegistersEverywhere compile http regexMatch module (life compile module n) := by
  have hmain : (runModule compile module.create none).found = [] ∧
      registered compile module.create = [] := by
    cases hcode : module.create with
    | returns | throws e => exact ⟨rfl, rfl⟩
    | call registration next => exact absurd hcode (hcreate registration next)
  have hthread : ∀ (i : Fin n) thread, (life compile module n).threads i = some thread →
      thread = runModule compile (module.threadCreate i) (some []) := by
    intro i thread hi
    dsimp only [life] at hi
    split at hi
    · exact (Option.some.inj hi).symm
    · cases hi
    · cases hi
  refine ⟨?_, ?_, ?_⟩
  · intro found hfound
    have hnone : found ∈ (runModule compile module.create none).found := hfound
    rw [hmain.1] at hnone
    exact absurd hnone List.not_mem_nil
  · intro i thread hi
    rw [hthread i thread hi]
    exact (runModule_some compile (module.threadCreate i) []).2.2
  · intro i thread hi hreturned
    obtain ⟨hregistry, -, -⟩ := runModule_some compile (module.threadCreate i) []
    rw [← hthread i thread hi] at hregistry
    rw [worker, hreturned, hregistry]
    refine ⟨_, rfl, ?_⟩
    rw [hmain.2]

/-- **Registration is for workers' threads only.**  Every call of `registerMethod` finds a registry,
    and every worker dispatches over the methods of the constructor and of its `threadCreate`,
    exactly if the module's constructor calls `registerMethod` nowhere. -/
theorem registersEverywhere_iff (http : HTTPHeader Header)
    (regexMatch : Regex → Bytes → Option (List Bytes)) (module : HttpModule Header) (n : Nat) :
    RegistersEverywhere compile http regexMatch module (life compile module n) ↔
      ∀ registration next, module.create ≠ .call registration next := by
  refine ⟨fun h registration next hcode => ?_,
    registersEverywhere_of_create compile http regexMatch module n⟩
  have hfalse : false ∈ (life compile module n).main.found := by
    show false ∈ (runModule compile module.create none).found
    rw [hcode]
    exact not_found_of_call compile registration next
  cases h.main_found false hfalse

/-- The shipped test module: its `HttpInterface_t` registers `/test` when it is constructed. -/
def testModule (testMethod : Method Header) : HttpModule Header where
  create := .call ⟨str "/test", testMethod⟩ fun
    | .ok () => .returns
    | .error e => .throws e
  threadCreate _ := .returns

/-- **The test module dies in its constructor**: its call finds no registry and goes through the
    null pointer, so no worker is ever created. -/
theorem testModule_not_registersEverywhere :
    let module := testModule (redirect.call redirectEnv)
    let life := life (fun location => .ok location) module 1
    life.main.ending = .nullRegistry ∧
      ¬ RegistersEverywhere (fun location => .ok location) redirectWorker.http
          redirectWorker.regexMatch module life := by
  refine ⟨rfl, fun h => ?_⟩
  cases h.main_found false (not_found_of_call _ _ _)

end CppHttpHandler

end ThreadServer
