/-
  What can leave `Handler_t::run`, the function of a worker's thread, in the three handlers of the
  server (`cpphttphandler.cc`, `cppfrpchandler.cc`, `dummyhandler.cc`).

  `Worker_t::run` catches whatever `handle` throws.  But the worker is created before that loop and
  deleted after it, outside any `try` block, and there the module's own code runs: `threadCreate`
  with its `registerMethod` calls, and `threadDestroy`.

  1. **Module code on a worker's thread** (`ModuleCode.run`) — the thread has a registry, so a
     registration is a step on it that may throw; for `CppHttpHandler_t` this is what `runModule`
     says (`CppHttpHandler.runModule_ending`).
  2. **The three handlers** as `HandlerCode`.  Code that catches nothing fails with the first
     registration that fails: a location that is no regular expression
     (`CppHttpHandler.run_calls_ok_iff`), a help file that cannot be opened
     (`CppFrpcHandler.loadHelp_ok_iff`).
  3. **Result** (`not_terminated_iff`) — whatever `handle` does, a handler's process survives
     exactly when no creation and no deletion of a worker throws.
-/
import ThreadServer.MethodRegistry
import ThreadServer.WorkerPool

namespace ThreadServer

open Bytes Transition

namespace ModuleCode

variable {Call Registry : Type}

/-- Run module code on a thread with a registry, on which `register` is one call. -/
def run (register : Registry → Call → Except Exn Registry) :
    ModuleCode Call → Registry → Except Exn Unit × Registry
  | .returns, registry => (.ok (), registry)
  | .throws e, registry => (.error e, registry)
  | .call request next, registry =>
    match register registry request with
    | .ok registry => run register (next (.ok ())) registry
    | .error e => run register (next (.error e)) registry

/-- Code that makes these calls one after the other and catches nothing. -/
def calls : List Call → ModuleCode Call
  | [] => .returns
  | request :: rest => .call request fun
    | .ok () => calls rest
    | .error e => .throws e

/-- It returns exactly if all calls succeed, one on the outcome of the other. -/
theorem run_calls_ok_iff (register : Registry → Call → Except Exn Registry) (list : List Call)
    (registry : Registry) :
    ((calls list).run register registry).1 = .ok () ↔
      ∃ final, list.foldlM register registry = .ok final := by
  induction list generalizing registry with
  | nil => exact ⟨fun _ => ⟨registry, rfl⟩, fun _ => rfl⟩
  | cons request rest ih =>
    rw [List.foldlM_cons]
    cases hrequest : register registry request with
    | error e =>
      simp only [calls, run, hrequest, reduceCtorEq, false_iff, not_exists]
      intro final h
      cases h
    | ok registry' =>
      simp only [calls, run, hrequest]
      exact ih registry'

end ModuleCode

/-- The code a module runs on a worker's thread; where the worker is deleted, together with what
    has been registered on that thread. -/
structure ThreadCode (Registry Call : Type) where
  registry : Registry
  code : ModuleCode Call

/-! ## `CppHttpHandler_t` -/

namespace CppHttpHandler

variable {Header Regex : Type} (compile : Bytes → Except Exn Regex)

/-- `registerMethod` where the thread has a registry. -/
def register (methods : List (Regex × Method Header)) (registration : Registration Header) :
    Except Exn (List (Regex × Method Header)) :=
  (compile registration.location).map fun regex => methods ++ [(regex, registration.method)]

/-- On such a thread, module code ends as `runModule` says. -/
theorem runModule_ending (code : ModuleCode (Registration Header))
    (methods : List (Regex × Method Header)) :
    (runModule compile code (some methods)).ending =
      match (code.run (register compile) methods).1 with
      | .ok () => .returned
      | .error e => .threw e := by
  induction code generalizing methods with
  | returns | throws e => rfl
  | call registration next ih =>
    cases hcompile : compile registration.location with
    | error e =>
      simp only [runModule, registerMethod, ModuleCode.run, register, hcompile, Except.map]
      exact ih (.error e) methods
    | ok regex =>
      simp only [runModule, registerMethod, ModuleCode.run, register, hcompile, Except.map,
        Option.map_some]
      exact ih (.ok ()) (methods ++ [(regex, registration.method)])

/-- `createWorker` and `~Worker_t`: the registry is set to an empty list before `threadCreate`, and
    deleted after `threadDestroy`. -/
def code (Header : Type) (name : Bytes) : HandlerCode where
  name
  Behaviour := ThreadCode (List (Regex × Method Header)) (Registration Header)
  createWorker thread := (thread.code.run (register compile) []).1
  deleteWorker thread := (thread.code.run (register compile) thread.registry).1

/-- A module that registers these methods and catches nothing is set up exactly if every location
    is a regular expression. -/
theorem run_calls_ok_iff (registrations : List (Registration Header))
    (methods : List (Regex × Method Header)) :
    ((ModuleCode.calls registrations).run (register compile) methods).1 = .ok () ↔
      ∀ registration ∈ registrations, ∃ regex, compile registration.location = .ok regex := by
  rw [ModuleCode.run_calls_ok_iff]
  induction registrations generalizing methods with
  | nil => exact ⟨fun _ => nofun, fun _ => ⟨methods, rfl⟩⟩
  | cons registration rest ih =>
    rw [List.foldlM_cons, List.forall_mem_cons]
    cases hcompile : compile registration.location with
    | error e =>
      simp only [register, hcompile, Except.map, reduceCtorEq, exists_false, false_and, iff_false]
      rintro ⟨final, h⟩
      cases h
    | ok regex =>
      simp only [register, hcompile, Except.map, Except.ok.injEq, exists_eq', true_and]
      exact ih (methods ++ [(regex, registration.method)])

end CppHttpHandler

/-! ## `CppFrpcHandler_t` -/

/-- The arguments of `registerMethod(methodName, method, signature)`. -/
structure FrpcRegistration (Method : Type) where
  methodName : Bytes
  method : Method
  signature : Bytes

/-- What an FRPC handler's workers are set up from: the help directory of the configuration, the
    files that can be opened, and FastRPC's server with its own method registry. -/
structure CppFrpcHandler (Method Registry : Type) where
  helpDirectory : Bytes
  file : Bytes → Option Bytes
  /-- `new FRPC::Server_t(*frpcConfig)`. -/
  newServer : Except Exn Registry
  /-- `FRPC::MethodRegistry_t::registerMethod`, with the help text as its last argument. -/
  registerFrpc : Registry → FrpcRegistration Method → Bytes → Except Exn Registry

namespace CppFrpcHandler

variable {Method Registry : Type} (handler : CppFrpcHandler Method Registry)

/-- The help file of a method. -/
def helpFile (methodName : Bytes) : Bytes := handler.helpDirectory ++ str "/" ++ methodName

/-- `loadHelp`. -/
def loadHelp (methodName : Bytes) : Except Exn Bytes :=
  if handler.helpDirectory = [] then .ok (str "No help directory given")
  else
    let filename := cStr (handler.helpFile methodName)
    match handler.file filename with
    | none => .error (.formatted [str "Can't open help file ", filename])
    | some help => .ok help

/-- `registerMethod`. -/
def register (registry : Registry) (registration : FrpcRegistration Method) :
    Except Exn Registry := do
  let help ← handler.loadHelp registration.methodName
  handler.registerFrpc registry registration help

/-- `createWorker` and `~Worker_t`. -/
def code (name : Bytes) : HandlerCode where
  name
  Behaviour := ThreadCode Registry (FrpcRegistration Method)
  createWorker thread := do
    let registry ← handler.newServer
    (thread.code.run handler.register registry).1
  deleteWorker thread := (thread.code.run handler.register thread.registry).1

/-- With a help directory, every method needs its help file. -/
theorem loadHelp_ok_iff (methodName : Bytes) :
    (∃ help, handler.loadHelp methodName = .ok help) ↔
      handler.helpDirectory = [] ∨
        ∃ help, handler.file (cStr (handler.helpFile methodName)) = some help := by
  unfold loadHelp
  by_cases hdirectory : handler.helpDirectory = []
  · rw [if_pos hdirectory]
    exact ⟨fun _ => Or.inl hdirectory, fun _ => ⟨_, rfl⟩⟩
  · rw [if_neg hdirectory]
    dsimp only
    cases hfile : handler.file (cStr (handler.helpFile methodName)) with
    | none =>
      refine ⟨fun ⟨help, h⟩ => ?_, ?_⟩
      · cases h
      · rintro (h | ⟨help, h⟩)
        · exact absurd h hdirectory
        · cases h
    | some help => exact ⟨fun _ => Or.inr ⟨help, rfl⟩, fun _ => ⟨help, rfl⟩⟩

end CppFrpcHandler

/-! ## What leaves `Handler_t::run` -/

namespace PoolState

variable {Socket : Type} {n : Nat}

/-- The code that runs in this step outside `Worker_t::run`, if any, throws nothing. -/
def Contained (code : HandlerCode) : PoolLabel code.Behaviour Socket n → Prop
  | .createWorker _ behaviour => code.createWorker behaviour = .ok ()
  | .deleteWorker _ behaviour => code.deleteWorker behaviour = .ok ()
  | .enqueue _ | .dequeue _ | .handle _ | .handled _ _ | .destroyWorkers | .join => True

/-- Nothing is thrown around the workers of a dummy handler. -/
theorem contained_dummyCode (name : Bytes) (label : PoolLabel Unit Socket n) :
    Contained (dummyCode name) label := by
  cases label <;> first | exact rfl | trivial

/-- What a step does to the process: it lives on exactly if nothing is thrown outside
    `Worker_t::run`. -/
theorem Step.terminated_iff {code : HandlerCode} {s s' : PoolState Socket n}
    {label : PoolLabel code.Behaviour Socket n} (h : Step code s label s')
    (halive : s.terminated = false) : s'.terminated = false ↔ Contained code label := by
  cases h with
  | created hworker hcreate => exact ⟨fun _ => hcreate, fun _ => halive⟩
  | deleted hworker hdelete => exact ⟨fun _ => hdelete, fun _ => halive⟩
  | notCreated hworker hcreate =>
    refine ⟨fun h => Bool.noConfusion h, fun hcontained => ?_⟩
    cases hcreate.symm.trans hcontained
  | notDeleted hworker hdelete =>
    refine ⟨fun h => Bool.noConfusion h, fun hcontained => ?_⟩
    cases hdelete.symm.trans hcontained
  | enqueue | dequeue | leave | handle | handled | finish | joined | joinedAll =>
    exact ⟨fun _ => trivial, fun _ => halive⟩

/-- **What terminates the process.**  For every handler and any number of workers, whatever `handle`
    throws: no exception leaves `Handler_t::run` throughout a run exactly if, in every step of it
    that creates or deletes a worker, the handler's and the module's code throws nothing. -/
theorem not_terminated_iff (code : HandlerCode)
    (labels : List (PoolLabel code.Behaviour Socket n)) :
    Throughout (next code) (fun s => s.terminated = false) (start Socket n) labels ↔
      StepsMeet (next code) (fun _ label => Contained code label) (start Socket n) labels := by
  have hstep : ∀ (s : PoolState Socket n) label s', next code s label = some s' →
      (s'.terminated = false ↔ Contained code label) := by
    intro s label s' hnext
    obtain ⟨halive, hstep⟩ := next_eq_some hnext
    exact hstep.terminated_iff halive
  exact throughout_iff_stepsMeet (fun _ h => h)
    (fun s label s' _ hcontained hnext => (hstep s label s' hnext).mpr hcontained)
    (fun s label s' _ hcontained hnext h => hcontained ((hstep s label s' hnext).mp h)) rfl

/-- Regular expressions in which a bracket has to be closed. -/
def closedBrackets (location : Bytes) : Except Exn Bytes :=
  if 91 ∈ location ∧ 93 ∉ location then
    .error (.std (str "Unmatched [ or [^ in character class declaration."))
  else .ok location

/-- A module that registers one method at `[` in `threadCreate`. -/
def bracketThread : ThreadCode (List (Bytes × Method Unit)) (CppHttpHandler.Registration Unit) where
  registry := []
  code := .calls [⟨str "[", Worker.redirect.call Worker.redirectEnv⟩]

/-- **A location that is no regular expression terminates the server**: the exception of
    `registerMethod` passes `threadCreate`, `createWorker` and `Handler_t::run`. -/
theorem bracketThread_terminates :
    ¬ Throughout (next (CppHttpHandler.code closedBrackets Unit (str "http")))
        (fun s => s.terminated = false) (start Nat 1) [.createWorker 0 bracketThread] := by
  intro h
  obtain ⟨s, hnext⟩ : ∃ s, next (CppHttpHandler.code closedBrackets Unit (str "http"))
      (start Nat 1) (.createWorker 0 bracketThread) = some s ∧ s.terminated = true := ⟨_, rfl, rfl⟩
  exact Bool.false_ne_true ((h.2 s hnext.1).symm.trans hnext.2)

end PoolState

end ThreadServer
