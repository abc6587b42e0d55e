/-
  The life of the server process, from the libraries its handlers come from to the moment they are
  unloaded (`main.cc`; the constructor, `run`, `stop` and the destructor of `ThreadServer_t`).

  1. **Program** — `construct` loads the handlers and files the listeners.  `main` is the rest of
     `main()`: the listeners are run one after the other, later they are stopped and the handlers
     deleted, and in the end the server is destroyed.  It is given as the history of what is
     deleted, joined and unloaded.
  2. **Failures** — a `Course` says how each `Listener_t::run` and `Listener_t::stop` ends.  A
     standard exception unwinds the stack to `main`'s `catch` clause, destroying the server on the
     way; any other finds no handler, and the process is terminated at once.
  3. **Specification** (`UnloadsUnused`) — no library is unloaded before all its handlers have been
     deleted and their threads joined.
  4. **Result** (`unloadsUnused_iff`) — only `stop()` deletes handlers, so the specification is met
     exactly if no standard exception leaves `run()` or the listeners' part of `stop()`.
-/
import ThreadServer.Registration
import ThreadServer.Lib.History

namespace ThreadServer

open Bytes History

/-- A handler that `registerHandler` has created: its library is the handle `dlopen` returned. -/
structure LoadedHandler where
  name : Bytes
  library : Nat
  workerCount : Nat
  deriving DecidableEq

/-- `ThreadServer_t` with the libraries of its handlers. -/
structure Server where
  threadServer : ThreadServer LoadedHandler
  handlerHandleSet : List Nat

/-- The dynamic loader, and what the handlers' create functions do. -/
structure Loader where
  /-- The handle, or what `dlerror()` says. -/
  dlopen : Bytes → Except Bytes Nat
  /-- What `dlerror()` says after it, if anything. -/
  dlsym : Nat → Bytes → Option Bytes
  /-- `handlerCreateFunction(this, name, workerCount)`, by library and symbol. -/
  create : Nat → Bytes → Bytes → Nat → Except Exn Unit

/-- What happens to handlers, threads, listeners and libraries. -/
inductive LifeEvent
  | join (handler : Bytes) (worker : Nat)
  | deleteHandler (handler : Bytes)
  | deleteListener (address : Bytes)
  | dlclose (library : Nat)
  deriving DecidableEq

namespace Server

/-! ## Construction -/

/-- `registerHandler(name, filename, symbol, workerCount)`. -/
def registerHandler (loader : Loader) (name filename symbol : Bytes) (workerCount : Nat)
    (server : Server) : Except Failure Server :=
  match loader.dlopen filename with
  | .error text => .error (.throws (.formatted
      [str "Can't load handler ", cStr name, str " (", cStr filename, str "): ", text]))
  | .ok handle =>
    match loader.dlsym handle symbol with
    -- `dlerror()` is asked a second time for the message, and has nothing more to say.
    | some _ => .error (.throws (.formatted
        [str "Can't load handler ", cStr name, str " (", cStr filename, str ") create function ",
          cStr symbol, str ": (null)"]))
    | none =>
      match loader.create handle symbol name workerCount with
      | .error e =>
        match e.what? with
        | some what => .error (.throws (.formatted
            [str "Can't create handler ", cStr name, str ": ", what]))
        | none => .error (.throws e)
      | .ok () =>
        match server.threadServer.handlerMap.insertNew name ⟨name, handle, workerCount⟩ with
        | (_, false) => .error (.throws (.formatted
            [str "Handler ", cStr name, str " already registered"]))
        | (handlerMap, true) => .ok
            { threadServer := { server.threadServer with handlerMap }
              handlerHandleSet := server.handlerHandleSet.insert handle }

/-- The loop of `registerHandlers`, over the names still to come. -/
def registerHandlersFrom (loader : Loader) : List Bytes → Server → Except Failure Server
  | [], server => .ok server
  | name :: names, server => do
    let configuration := server.threadServer.configuration
    let handler ← configuration.get (name ++ str ".Handler")
    match find (chr ':') handler with
    | none => .error (.throws (.formatted [str "Invalid handler specification ", cStr handler]))
    | some pos =>
      let filename := substr handler 0 pos
      let symbol := substrFrom handler (pos + 1)
      let text ← configuration.get (name ++ str ".WorkerCount")
      match LexicalCast.toUnsigned 64 text with
      | none => .error (.throws .badLexicalCast)
      | some workerCount =>
        let server ← registerHandler loader name filename symbol workerCount server
        registerHandlersFrom loader names server

/-- `ThreadServer_t::ThreadServer_t`, up to `createWorkers()`, which starts the `workerCount`
    threads of every handler. -/
def construct (loader : Loader) (fromString : Bytes → Option AddressV4)
    (testListen : Bytes → UInt16 → Except Failure Unit) (configuration : Configuration) :
    Except Failure Server := do
  let server ← registerHandlersFrom loader configuration.handlerNames
    { threadServer := { configuration, handlerMap := ∅, listenerMap := ∅ }
      handlerHandleSet := [] }
  match server.threadServer.registerListeners fromString testListen with
  | (.error e, _) => .error e
  | (.ok (), threadServer) => .ok { server with threadServer }

/-! ## The rest of `main()` -/

/-- The handlers of the server, in the order of its map. -/
def handlers (server : Server) : List LoadedHandler :=
  server.threadServer.handlerMap.toList.map Prod.snd

/-- The addresses of its listeners, in the order of its map. -/
def addresses (server : Server) : List Bytes := server.threadServer.listenerMap.keys

/-- How the calls of `Listener_t::run` and `Listener_t::stop` end, by the listener's address. -/
structure Course where
  run : Bytes → Except Exn Unit
  stop : Bytes → Except Exn Unit

/-- One call for each listener, up to the first that throws. -/
def eachListener (call : Bytes → Except Exn Unit) : List Bytes → Except Exn Unit
  | [] => .ok ()
  | address :: addresses =>
    match call address with
    | .ok () => eachListener call addresses
    | .error e => .error e

/-- `delete handler`: its destructor calls `destroyWorkers`, which joins every worker. -/
def deleteHandler (handler : LoadedHandler) : List LifeEvent :=
  (List.range handler.workerCount).map (.join handler.name) ++ [.deleteHandler handler.name]

/-- `ThreadServer_t::~ThreadServer_t`. -/
def destroy (server : Server) : List LifeEvent :=
  server.addresses.map .deleteListener ++ server.handlerHandleSet.map .dlclose

/-- An exception on its way out of `main`'s `try` block. -/
def unwind (server : Server) (e : Exn) : List LifeEvent :=
  match e.what? with
  | some _ => server.destroy
  -- No handler is found: `std::terminate`, without unwinding.
  | none => []

/-- `main()` once the server is constructed. -/
def main (server : Server) (course : Course) : List LifeEvent :=
  match eachListener course.run server.addresses with
  | .error e => server.unwind e
  | .ok () =>
    -- `stop()`: the listeners first, then the handlers.
    match eachListener course.stop server.addresses with
    | .error e => server.unwind e
    | .ok () => server.handlers.flatMap deleteHandler ++ server.destroy

/-! ## The specification -/

/-- A library may be unloaded once each of its handlers has been deleted and its threads joined. -/
def Unused (server : Server) (past : List LifeEvent) : LifeEvent → Prop
  | .dlclose library => ∀ handler ∈ server.handlers, handler.library = library →
      .deleteHandler handler.name ∈ past ∧
      ∀ worker < handler.workerCount, .join handler.name worker ∈ past
  | .join _ _ | .deleteHandler _ | .deleteListener _ => True

/-- **No library is unloaded under its handlers.** -/
def UnloadsUnused (server : Server) (history : List LifeEvent) : Prop :=
  Guarded server.Unused [] history

/-- The first call that does not return throws a standard exception. -/
def ThrowsStandard (call : Bytes → Except Exn Unit) (addresses : List Bytes) : Prop :=
  ∃ before address after e what, addresses = before ++ address :: after ∧
    (∀ a ∈ before, call a = .ok ()) ∧ call address = .error e ∧ e.what? = some what

/-! ## What the construction leaves behind -/

/-- The library of every handler is in the set that the destructor goes through, and there is a
    handler if there is a listener. -/
structure Loaded (server : Server) : Prop where
  filed : ∀ (name : Bytes) (handler : LoadedHandler),
    server.threadServer.handlerMap[name]? = some handler →
    handler.library ∈ server.handlerHandleSet
  served : ∀ (address : Bytes) (listener : Listener LoadedHandler),
    server.threadServer.listenerMap[address]? = some listener →
    ∃ (name : Bytes) (handler : LoadedHandler),
      server.threadServer.handlerMap[name]? = some handler

/-- What a successful `registerHandler` did: it added one handler and the library it comes from. -/
theorem registerHandler_eq_ok {loader : Loader} {name filename symbol : Bytes} {workerCount : Nat}
    {server server' : Server}
    (h : registerHandler loader name filename symbol workerCount server = .ok server') :
    ∃ handler : LoadedHandler,
      (∀ name', server'.threadServer.handlerMap[name']? =
        if name' = name then some handler else server.threadServer.handlerMap[name']?) ∧
      server'.threadServer.listenerMap = server.threadServer.listenerMap ∧
      server'.handlerHandleSet = server.handlerHandleSet.insert handler.library := by
  unfold registerHandler at h
  split at h
  · cases h
  · rename_i handle hopen
    split at h
    · cases h
    · split at h
      · split at h <;> cases h
      · split at h
        · cases h
        · rename_i handlerMap hinsert
          obtain rfl := Except.ok.inj h
          obtain ⟨-, hlookup⟩ := StdMap.insertNew_eq_true hinsert
          exact ⟨⟨name, handle, workerCount⟩, hlookup, rfl, rfl⟩

theorem Loaded.registerHandler {loader : Loader} {name filename symbol : Bytes} {workerCount : Nat}
    {server server' : Server} (hloaded : Loaded server)
    (h : registerHandler loader name filename symbol workerCount server = .ok server') :
    Loaded server' := by
  obtain ⟨handler, hlookup, hlisteners, hset⟩ := registerHandler_eq_ok h
  refine ⟨fun name' handler' hname => ?_, fun address listener haddress => ?_⟩
  · rw [hset, List.mem_insert_iff]
    rw [hlookup] at hname
    split at hname
    · exact Or.inl (congrArg LoadedHandler.library (Option.some.inj hname).symm)
    · exact Or.inr (hloaded.filed name' handler' hname)
  · exact ⟨name, handler, by rw [hlookup, if_pos rfl]⟩

theorem Loaded.registerHandlersFrom {loader : Loader} {names : List Bytes} {server server' : Server}
    (hloaded : Loaded server) (h : registerHandlersFrom loader names server = .ok server') :
    Loaded server' := by
  induction names generalizing server with
  | nil =>
    obtain rfl := Except.ok.inj h
    exact hloaded
  | cons name names ih =>
    rw [Server.registerHandlersFrom] at h
    obtain ⟨specification, -, h⟩ := bind_eq_ok.mp h
    split at h
    · cases h
    · obtain ⟨text, -, h⟩ := bind_eq_ok.mp h
      split at h
      · cases h
      · obtain ⟨next, hnext, h⟩ := bind_eq_ok.mp h
        exact ih (hloaded.registerHandler hnext) h

/-- Filing listeners adds no handler, and every listener that is filed has one. -/
theorem registerListenersFrom_served {fromString : Bytes → Option AddressV4}
    {testListen : Bytes → UInt16 → Except Failure Unit} {names : List Bytes}
    {threadServer threadServer' : ThreadServer LoadedHandler}
    (hserved : ∀ (address : Bytes) (listener : Listener LoadedHandler),
      threadServer.listenerMap[address]? = some listener →
      ∃ (name : Bytes) (handler : LoadedHandler), threadServer.handlerMap[name]? = some handler)
    (h : ThreadServer.registerListenersFrom fromString testListen names threadServer
      = (.ok (), threadServer')) :
    threadServer'.handlerMap = threadServer.handlerMap ∧
      ∀ (address : Bytes) (listener : Listener LoadedHandler),
        threadServer'.listenerMap[address]? = some listener →
        ∃ (name : Bytes) (handler : LoadedHandler),
          threadServer'.handlerMap[name]? = some handler := by
  induction names generalizing threadServer with
  | nil =>
    obtain ⟨-, rfl⟩ := Prod.mk.inj h
    exact ⟨rfl, hserved⟩
  | cons name names ih =>
    obtain ⟨setup, listener, next, -, -, hfile, hrest⟩ :=
      ThreadServer.registerListenersFrom_cons h
    obtain ⟨-, hhandlers, -, handler, hhandler, -⟩ := ThreadServer.registerListener_eq_ok hfile
    have hnext : ∀ (address : Bytes) (listener' : Listener LoadedHandler),
        next.listenerMap[address]? = some listener' →
        ∃ (name : Bytes) (handler : LoadedHandler), next.handlerMap[name]? = some handler := by
      intro _ _ _
      exact ⟨listener.handlerName, handler, hhandlers ▸ hhandler⟩
    obtain ⟨heq, hserved'⟩ := ih hnext hrest
    exact ⟨heq.trans hhandlers, hserved'⟩

/-- **A constructed server** has its handlers' libraries on record. -/
theorem loaded_of_construct {loader : Loader} {fromString : Bytes → Option AddressV4}
    {testListen : Bytes → UInt16 → Except Failure Unit} {configuration : Configuration}
    {server : Server} (h : construct loader fromString testListen configuration = .ok server) :
    Loaded server := by
  obtain ⟨registered, hregistered, h⟩ := bind_eq_ok.mp h
  have hempty : Loaded
      { threadServer := { configuration, handlerMap := ∅, listenerMap := ∅ }
        handlerHandleSet := [] } := by
    refine ⟨fun name handler hname => ?_, fun address listener haddress => ?_⟩
    · rw [Std.ExtTreeMap.getElem?_empty] at hname
      cases hname
    · rw [Std.ExtTreeMap.getElem?_empty] at haddress
      cases haddress
  have hloaded := hempty.registerHandlersFrom hregistered
  split at h
  · cases h
  · rename_i threadServer hlisteners
    obtain rfl := Except.ok.inj h
    obtain ⟨hhandlers, hserved⟩ := registerListenersFrom_served hloaded.served hlisteners
    refine ⟨fun name handler hname => ?_, hserved⟩
    have hbefore : registered.threadServer.handlerMap[name]? = some handler := hhandlers ▸ hname
    exact hloaded.filed name handler hbefore

/-- A server with a listener has a handler, whose library the destructor will unload. -/
theorem Loaded.exists_handler {server : Server} (h : Loaded server) {address : Bytes}
    (haddress : address ∈ server.addresses) :
    ∃ handler ∈ server.handlers, handler.library ∈ server.handlerHandleSet := by
  have hsome : (server.threadServer.listenerMap[address]?).isSome = true :=
    Std.ExtTreeMap.mem_iff_isSome_getElem?.mp (Std.ExtTreeMap.mem_keys.mp haddress)
  obtain ⟨listener, hlistener⟩ := Option.isSome_iff_exists.mp hsome
  obtain ⟨name, handler, hhandler⟩ := h.served address listener hlistener
  refine ⟨handler, ?_, h.filed name handler hhandler⟩
  exact List.mem_map.mpr
    ⟨(name, handler), Std.ExtTreeMap.mem_toList_iff_getElem?_eq_some.mpr hhandler, rfl⟩

/-! ## Which courses unload unused libraries only -/

theorem eachListener_eq_ok_iff {call : Bytes → Except Exn Unit} {addresses : List Bytes} :
    eachListener call addresses = .ok () ↔ ∀ address ∈ addresses, call address = .ok () := by
  induction addresses with
  | nil => exact ⟨fun _ => nofun, fun _ => rfl⟩
  | cons address addresses ih =>
    rw [eachListener, List.forall_mem_cons]
    cases call address with
    | ok => exact ⟨fun h => ⟨rfl, ih.mp h⟩, fun h => ih.mpr h.2⟩
    | error e =>
      constructor
      · intro h
        cases h
      · intro h
        cases h.1

/-- The loop over the listeners throws what its first failing call throws. -/
theorem throwsStandard_iff {call : Bytes → Except Exn Unit} {addresses : List Bytes} :
    ThrowsStandard call addresses ↔
      ∃ e what, eachListener call addresses = .error e ∧ e.what? = some what := by
  constructor
  · rintro ⟨before, address, after, e, what, rfl, hbefore, hcall, hwhat⟩
    refine ⟨e, what, ?_, hwhat⟩
    induction before with
    | nil => simp only [List.nil_append, eachListener, hcall]
    | cons a before ih =>
      obtain ⟨ha, hbefore⟩ := List.forall_mem_cons.mp hbefore
      simp only [List.cons_append, eachListener, ha]
      exact ih hbefore
  · rintro ⟨e, what, heach, hwhat⟩
    induction addresses with
    | nil => cases heach
    | cons address addresses ih =>
      rw [eachListener] at heach
      cases hcall : call address with
      | error e' =>
        rw [hcall] at heach
        obtain rfl := Except.error.inj heach
        exact ⟨[], address, addresses, e', what, rfl, nofun, hcall, hwhat⟩
      | ok =>
        rw [hcall] at heach
        obtain ⟨before, a, after, e', what', rfl, hbefore, ha, hwhat'⟩ := ih heach
        exact ⟨address :: before, a, after, e', what', rfl,
          List.forall_mem_cons.mpr ⟨hcall, hbefore⟩, ha, hwhat'⟩

theorem unused_mono (server : Server) (past past' : List LifeEvent) (e : LifeEvent)
    (hsub : past ⊆ past') (h : server.Unused past e) : server.Unused past' e := by
  cases e with
  | join | deleteHandler | deleteListener => trivial
  | dlclose library =>
    intro handler hhandler hlibrary
    obtain ⟨hdeleted, hjoined⟩ := h handler hhandler hlibrary
    exact ⟨hsub hdeleted, fun worker hworker => hsub (hjoined worker hworker)⟩

/-- **`stop()` and then the destructor**: everything has been joined and deleted in time. -/
theorem unloadsUnused_deleteHandlers (server : Server) :
    server.UnloadsUnused (server.handlers.flatMap deleteHandler ++ server.destroy) := by
  refine guarded_append.mpr ⟨?_, ?_⟩
  · refine guarded_of_past server.unused_mono fun e he => ?_
    obtain ⟨handler, -, he⟩ := List.mem_flatMap.mp he
    rcases List.mem_append.mp he with he | he
    · obtain ⟨worker, -, rfl⟩ := List.mem_map.mp he
      trivial
    · obtain rfl := List.mem_singleton.mp he
      trivial
  · refine guarded_of_past server.unused_mono fun e he => ?_
    rcases List.mem_append.mp he with he | he
    · obtain ⟨address, -, rfl⟩ := List.mem_map.mp he
      trivial
    · obtain ⟨library, -, rfl⟩ := List.mem_map.mp he
      intro handler hhandler _
      have hevents : deleteHandler handler ⊆ server.handlers.flatMap deleteHandler :=
        fun e he => List.mem_flatMap_of_mem hhandler he
      refine ⟨hevents ?_, fun worker hworker => hevents ?_⟩
      · exact List.mem_append_right _ List.mem_cons_self
      · exact List.mem_append_left _ (List.mem_map_of_mem (List.mem_range.mpr hworker))

/-- **The destructor alone**, with a listener still there: it unloads a library under a handler. -/
theorem not_unloadsUnused_destroy {server : Server} (h : Loaded server) {address : Bytes}
    (haddress : address ∈ server.addresses) : ¬ server.UnloadsUnused server.destroy := by
  intro hunused
  obtain ⟨handler, hhandler, hlibrary⟩ := h.exists_handler haddress
  have hmem : .dlclose handler.library ∈ server.destroy :=
    List.mem_append_right _ (List.mem_map_of_mem hlibrary)
  obtain ⟨before, hsub, hG⟩ := hunused.exists_before hmem
  have hdeleted : .deleteHandler handler.name ∈ server.destroy := hsub (hG handler hhandler rfl).1
  rcases List.mem_append.mp hdeleted with h | h
  · obtain ⟨_, -, heq⟩ := List.mem_map.mp h
    cases heq
  · obtain ⟨_, -, heq⟩ := List.mem_map.mp h
    cases heq

/-- An exception that leaves a loop over the listeners. -/
theorem unwind_unloadsUnused_iff {server : Server} (h : Loaded server)
    {call : Bytes → Except Exn Unit} {e : Exn}
    (hcall : eachListener call server.addresses = .error e) :
    server.UnloadsUnused (server.unwind e) ↔ ¬ ThrowsStandard call server.addresses := by
  rw [throwsStandard_iff]
  unfold unwind
  cases hwhat : e.what? with
  | none =>
    constructor
    · rintro - ⟨e', what, heach, hwhat'⟩
      obtain rfl := Except.error.inj (hcall.symm.trans heach)
      cases hwhat.symm.trans hwhat'
    · intro _
      trivial
  | some what =>
    constructor
    · intro hunused
      cases haddresses : server.addresses with
      | nil =>
        rw [haddresses] at hcall
        cases hcall
      | cons address rest =>
        have haddress : address ∈ server.addresses := by
          rw [haddresses]
          exact List.mem_cons_self
        exact absurd hunused (not_unloadsUnused_destroy h haddress)
    · intro hno
      exact absurd ⟨e, what, hcall, hwhat⟩ hno

/-- **When the server unloads its libraries safely.**  Once the server is constructed, no library is
    unloaded before its handlers have been deleted and all their threads joined, exactly if no
    standard exception leaves the calls of `Listener_t::run` and, where all of these return, the
    calls of `Listener_t::stop`. -/
theorem unloadsUnused_iff {loader : Loader} {fromString : Bytes → Option AddressV4}
    {testListen : Bytes → UInt16 → Except Failure Unit} {configuration : Configuration}
    {server : Server} (hconstruct : construct loader fromString testListen configuration
      = .ok server) (course : Course) :
    server.UnloadsUnused (server.main course) ↔
      ¬ ThrowsStandard course.run server.addresses ∧
      ((∀ address ∈ server.addresses, course.run address = .ok ()) →
        ¬ ThrowsStandard course.stop server.addresses) := by
  have hloaded := loaded_of_construct hconstruct
  unfold main
  cases hrun : eachListener course.run server.addresses with
  | error e =>
    rw [unwind_unloadsUnused_iff hloaded hrun]
    constructor
    · intro h
      refine ⟨h, fun hall => ?_⟩
      cases hrun.symm.trans (eachListener_eq_ok_iff.mpr hall)
    · intro h
      exact h.1
  | ok =>
    have hreturns : ¬ ThrowsStandard course.run server.addresses := by
      rw [throwsStandard_iff]
      rintro ⟨e, what, herror, -⟩
      cases hrun.symm.trans herror
    dsimp only
    cases hstop : eachListener course.stop server.addresses with
    | error e =>
      rw [unwind_unloadsUnused_iff hloaded hstop]
      exact ⟨fun h => ⟨hreturns, fun _ => h⟩, fun h => h.2 (eachListener_eq_ok_iff.mp hrun)⟩
    | ok =>
      refine ⟨fun _ => ⟨hreturns, fun _ => ?_⟩, fun _ => server.unloadsUnused_deleteHandlers⟩
      rw [throwsStandard_iff]
      rintro ⟨e, what, herror, -⟩
      cases hstop.symm.trans herror

/-! ## A server whose port is taken -/

/-- One handler with two workers, and one listener for it. -/
def webConfiguration : Configuration where
  handlerNames := [str "http"]
  listenerNames := [str "web"]
  data :=
    [(str "http.Handler", str "libcpphttp.so:cpphttphandler"), (str "http.WorkerCount", str "2"),
      (str "web.Address", str "*:8080"), (str "web.Handler", str "http"),
      (str "web.Order", str "allow,deny")].foldl
        (fun data entry => data.insert entry.1 (Values.single entry.2)) ∅

/-- A loader that finds its library, whose handler can be created. -/
def webLoader : Loader where
  dlopen _ := .ok 1
  dlsym _ _ := none
  create _ _ _ _ := .ok ()

/-- The server this configuration gives. -/
def webConstruct : Except Failure Server :=
  construct webLoader LexicalCast.dottedQuad (fun _ _ => .ok ()) webConfiguration

theorem webConstruct_ok :
    ∃ server, webConstruct = .ok server ∧ server.addresses = [str "*:8080"] := by
  have haddresses : webConstruct.toOption.map addresses = some [str "*:8080"] := by decide
  cases hserver : webConstruct with
  | error e =>
    rw [hserver] at haddresses
    cases haddresses
  | ok server =>
    rw [hserver] at haddresses
    exact ⟨server, rfl, Option.some.inj haddresses⟩

/-- Another process has the port. -/
def portTaken : Course where
  run _ := .error (.systemError 98 (str "bind: Address already in use"))
  stop _ := .ok ()

/-- **A taken port unloads the handlers' code under their threads**: `run()` throws, so `stop()` is
    skipped, and the destructor unloads the library of a handler that is still there. -/
theorem portTaken_unloads_used :
    ∃ server, construct webLoader LexicalCast.dottedQuad (fun _ _ => .ok ()) webConfiguration
        = .ok server ∧ ¬ server.UnloadsUnused (server.main portTaken) := by
  obtain ⟨server, hserver, haddresses⟩ := webConstruct_ok
  have hmem : str "*:8080" ∈ server.addresses := by
    rw [haddresses]
    exact List.mem_cons_self
  refine ⟨server, hserver, ?_⟩
  rw [main, haddresses]
  exact not_unloadsUnused_destroy (loaded_of_construct hserver) hmem

/-- Everything returns. -/
def quietCourse : Course where
  run _ := .ok ()
  stop _ := .ok ()

theorem quietCourse_unloads_unused :
    ∃ server, webConstruct = .ok server ∧ server.UnloadsUnused (server.main quietCourse) := by
  obtain ⟨server, hserver, -⟩ := webConstruct_ok
  have hreturns : ¬ ThrowsStandard (fun _ => .ok ()) server.addresses := by
    rintro ⟨_, _, _, e, _, _, _, herror, _⟩
    cases herror
  exact ⟨server, hserver, (unloadsUnused_iff hserver quietCourse).mpr ⟨hreturns, fun _ => hreturns⟩⟩

end Server

end ThreadServer
