/-
  Registering handlers and listeners, statement by statement (both forms of `registerHandler`,
  `registerListener` and the destructor of `ThreadServer_t`).

  `Lifecycle` says what a registration that succeeds leaves behind.  A server may also be asked for
  registrations that fail, at any statement, and go on from there.  So here every call comes back
  with the server as it was at that moment, and the books of the dynamic loader are kept beside it:
  which handles `dlopen` has returned, and which have been passed to `dlclose`.

  1. **Program** — a handler is an object of its own, known by its place in the order of creation;
     the dynamic loader may behave differently in every call.
  2. **What a call does** (`CallEnds`, `call_ends`) — the case analysis that everything below uses.
  3. **Fidelity** (`registerHandler_server`, `destroy_server`) — forgetting the books, these are
     `Lifecycle`'s `registerHandler` and destructor.
  4. **The maps** (`throughout_registered`) — a failing call leaves them alone, and every listener
     that is filed points to the handler of its name.
  5. **The libraries** (`destroy_closedAsOpened_iff`) — the set of handles does not count, and two
     ways to fail forget the handle.  Each handle is closed as often as it was opened exactly if no
     call does either.
-/
import ThreadServer.Lifecycle
import ThreadServer.Lib.References
import ThreadServer.Lib.Transition

namespace ThreadServer

open Bytes Transition

/-- A handler in memory: which of the objects created so far it is, and what it was created from. -/
structure HandlerObject where
  object : Nat
  handler : LoadedHandler
  deriving DecidableEq

/-- `ThreadServer_t`, and what has happened to libraries. -/
structure ServerState where
  threadServer : ThreadServer HandlerObject
  handlerHandleSet : List Nat
  /-- History: how many handlers have been created. -/
  created : Nat
  /-- History: the handles that `dlopen` has returned. -/
  opened : List Nat
  /-- History: the handles that `dlclose` was called with. -/
  closed : List Nat

/-- A call from outside. -/
inductive RegistrationCall
  /-- `registerHandler`, with what the dynamic loader does during the call. -/
  | handler (loader : Loader) (name filename symbol : Bytes) (workerCount : Nat)
  /-- `registerListener`, with a listener that has just been constructed or has been refused
      before. -/
  | listener (listener : Listener HandlerObject)

namespace ServerState

/-! ## The program -/

/-- A server before the first call. -/
def initial (configuration : Configuration) : ServerState where
  threadServer := { configuration, handlerMap := ∅, listenerMap := ∅ }
  handlerHandleSet := []
  created := 0
  opened := []
  closed := []

/-- `dlopen` has returned `handle`. -/
def dlopened (s : ServerState) (handle : Nat) : ServerState :=
  { s with opened := s.opened ++ [handle] }

/-- `dlclose(handle)`. -/
def dlclose (s : ServerState) (handle : Nat) : ServerState :=
  { s with closed := s.closed ++ [handle] }

/-- `registerHandler(handler)`, which is private. -/
def registerCreated (s : ServerState) (object : HandlerObject) :
    Except Failure Unit × ServerState :=
  match s.threadServer.handlerMap.insertNew object.handler.name object with
  | (handlerMap, inserted) =>
    let s : ServerState := { s with threadServer := { s.threadServer with handlerMap } }
    if !inserted then
      (.error (.throws (.formatted
        [str "Handler ", cStr object.handler.name, str " already registered"])), s)
    else (.ok (), s)

/-- `registerHandler(name, filename, symbol, workerCount)`. -/
def registerHandler (loader : Loader) (name filename symbol : Bytes) (workerCount : Nat)
    (s : ServerState) : Except Failure Unit × ServerState :=
  match loader.dlopen filename with
  | .error text => (.error (.throws (.formatted
      [str "Can't load handler ", cStr name, str " (", cStr filename, str "): ", text])), s)
  | .ok handle =>
    let s := s.dlopened handle
    match loader.dlsym handle symbol with
    | some _ => (.error (.throws (.formatted
        [str "Can't load handler ", cStr name, str " (", cStr filename, str ") create function ",
          cStr symbol, str ": (null)"])), s.dlclose handle)
    | none =>
      match loader.create handle symbol name workerCount with
      | .error e =>
        match e.what? with
        | some what => (.error (.throws (.formatted
            [str "Can't create handler ", cStr name, str ": ", what])), s.dlclose handle)
        -- No `catch` clause here takes anything but a `std::exception`.
        | none => (.error (.throws e), s)
      | .ok () =>
        let object : HandlerObject := ⟨s.created, name, handle, workerCount⟩
        match registerCreated { s with created := s.created + 1 } object with
        | (.error e, s) => (.error e, s)
        | (.ok (), s) => (.ok (), { s with handlerHandleSet := s.handlerHandleSet.insert handle })

/-- A call, on the server. -/
def call (s : ServerState) : RegistrationCall → Except Failure Unit × ServerState
  | .handler loader name filename symbol workerCount =>
    s.registerHandler loader name filename symbol workerCount
  | .listener listener =>
    match s.threadServer.registerListener listener with
    | (outcome, threadServer) => (outcome, { s with threadServer })

/-- One call after the other, whether they succeed or fail. -/
def next (s : ServerState) (c : RegistrationCall) : Option ServerState := some (s.call c).2

/-- The destructor's loop over the handles it has. -/
def closeHandles : List Nat → ServerState → ServerState
  | [], s => s
  | handle :: handles, s =>
    closeHandles handles { s.dlclose handle with
      handlerHandleSet := s.handlerHandleSet.erase handle }

/-- `~ThreadServer_t`: the listeners, then the libraries. -/
def destroy (s : ServerState) : ServerState :=
  closeHandles s.handlerHandleSet
    { s with threadServer := { s.threadServer with listenerMap := ∅ } }

/-! ## What a call does -/

/-- **Every way a call can end**, with the server it leaves. -/
inductive CallEnds (s : ServerState) :
    RegistrationCall → Except Failure Unit → ServerState → Prop
  /-- There is no library. -/
  | notLoaded {loader name filename symbol workerCount text e} :
      loader.dlopen filename = .error text →
      CallEnds s (.handler loader name filename symbol workerCount) (.error e) s
  /-- The library has no such function, or the function throws an exception that is caught. -/
  | unusable {loader name filename symbol workerCount handle e} :
      loader.dlopen filename = .ok handle →
      (loader.dlsym handle symbol ≠ none ∨ ∃ thrown what,
        loader.create handle symbol name workerCount = .error thrown ∧ thrown.what? = some what) →
      CallEnds s (.handler loader name filename symbol workerCount) (.error e)
        ((s.dlopened handle).dlclose handle)
  /-- The function throws anything else. -/
  | escaped {loader name filename symbol workerCount handle} {thrown : Exn} :
      loader.dlopen filename = .ok handle → loader.dlsym handle symbol = none →
      loader.create handle symbol name workerCount = .error thrown → thrown.what? = none →
      CallEnds s (.handler loader name filename symbol workerCount) (.error (.throws thrown))
        (s.dlopened handle)
  /-- There is a handler of this name. -/
  | nameTaken {loader name filename symbol workerCount handle e} :
      loader.dlopen filename = .ok handle → loader.dlsym handle symbol = none →
      loader.create handle symbol name workerCount = .ok () →
      s.threadServer.handlerMap[name]? ≠ none →
      CallEnds s (.handler loader name filename symbol workerCount) (.error e)
        { s.dlopened handle with created := s.created + 1 }
  | registered {loader name filename symbol workerCount handle}
      {handlerMap : StdMap Bytes HandlerObject} :
      loader.dlopen filename = .ok handle → loader.dlsym handle symbol = none →
      loader.create handle symbol name workerCount = .ok () →
      s.threadServer.handlerMap[name]? = none →
      (∀ name', handlerMap[name']? =
        if name' = name then some ⟨s.created, name, handle, workerCount⟩
        else s.threadServer.handlerMap[name']?) →
      CallEnds s (.handler loader name filename symbol workerCount) (.ok ())
        { s.dlopened handle with
          threadServer := { s.threadServer with handlerMap }
          created := s.created + 1
          handlerHandleSet := s.handlerHandleSet.insert handle }
  /-- There is no handler of the listener's name, or another listener has its address. -/
  | listenerRefused {listener e} : CallEnds s (.listener listener) (.error e) s
  | listenerFiled {listener : Listener HandlerObject} {handler : HandlerObject}
      {threadServer : ThreadServer HandlerObject} :
      threadServer.handlerMap = s.threadServer.handlerMap →
      s.threadServer.handlerMap[listener.handlerName]? = some handler →
      (∀ address, threadServer.listenerMap[address]? =
        if address = listener.address then some { listener with handler := some handler }
        else s.threadServer.listenerMap[address]?) →
      CallEnds s (.listener listener) (.ok ()) { s with threadServer }

theorem registerHandler_ends (loader : Loader) (name filename symbol : Bytes) (workerCount : Nat)
    (s : ServerState) :
    CallEnds s (.handler loader name filename symbol workerCount)
      (s.registerHandler loader name filename symbol workerCount).1
      (s.registerHandler loader name filename symbol workerCount).2 := by
  unfold registerHandler
  cases hopen : loader.dlopen filename with
  | error text => exact .notLoaded hopen
  | ok handle =>
    dsimp only
    cases hsym : loader.dlsym handle symbol with
    | some text => exact .unusable hopen (.inl (by rw [hsym]; exact nofun))
    | none =>
      dsimp only
      cases hcreate : loader.create handle symbol name workerCount with
      | error thrown =>
        dsimp only
        cases hwhat : thrown.what? with
        | some what => exact .unusable hopen (.inr ⟨thrown, what, hcreate, hwhat⟩)
        | none => exact .escaped hopen hsym hcreate hwhat
      | ok =>
        dsimp only [registerCreated]
        cases hinsert : StdMap.insertNew (dlopened s handle).threadServer.handlerMap name
            (HandlerObject.mk (dlopened s handle).created ⟨name, handle, workerCount⟩) with
        | mk handlerMap inserted =>
          cases inserted with
          | false =>
            obtain ⟨rfl, htaken⟩ := StdMap.insertNew_eq_false hinsert
            exact .nameTaken hopen hsym hcreate htaken
          | true =>
            obtain ⟨hfree, hlookup⟩ := StdMap.insertNew_eq_true hinsert
            exact .registered hopen hsym hcreate hfree hlookup

theorem registerListener_ends (listener : Listener HandlerObject) (s : ServerState) :
    CallEnds s (.listener listener) (s.call (.listener listener)).1
      (s.call (.listener listener)).2 := by
  cases hcall : s.threadServer.registerListener listener with
  | mk outcome threadServer =>
    simp only [call, hcall]
    cases outcome with
    | ok =>
      obtain ⟨-, hhandlers, -, handler, hhandler, hlookup⟩ :=
        ThreadServer.registerListener_eq_ok hcall
      exact .listenerFiled hhandlers hhandler hlookup
    | error e =>
      have hsame : threadServer = s.threadServer := by
        unfold ThreadServer.registerListener at hcall
        split at hcall
        · exact (Prod.mk.inj hcall).2.symm
        · split at hcall
          · rename_i hinsert
            obtain ⟨rfl, -⟩ := StdMap.insertNew_eq_false hinsert
            exact (Prod.mk.inj hcall).2.symm
          · cases (Prod.mk.inj hcall).1
      rw [hsame]
      exact .listenerRefused

/-- **Each call ends in one of these ways.** -/
theorem call_ends (s : ServerState) (c : RegistrationCall) :
    CallEnds s c (s.call c).1 (s.call c).2 := by
  cases c with
  | handler loader name filename symbol workerCount =>
    exact s.registerHandler_ends loader name filename symbol workerCount
  | listener listener => exact s.registerListener_ends listener

/-! ## Fidelity: the same registration -/

/-- A listener, with what its handler was created from. -/
def forgetObject (listener : Listener HandlerObject) : Listener LoadedHandler :=
  { listener with handler := listener.handler.map HandlerObject.handler }

/-- The server without its books. -/
def server (s : ServerState) : Server where
  threadServer :=
    { configuration := s.threadServer.configuration
      handlerMap := s.threadServer.handlerMap.map fun _ => HandlerObject.handler
      listenerMap := s.threadServer.listenerMap.map fun _ => forgetObject }
  handlerHandleSet := s.handlerHandleSet

/-- **The registration is the one of `Lifecycle`**: it throws the same, and where it returns it
    leaves the same server. -/
theorem registerHandler_server (loader : Loader) (name filename symbol : Bytes) (workerCount : Nat)
    (s : ServerState) :
    Server.registerHandler loader name filename symbol workerCount s.server =
      match s.registerHandler loader name filename symbol workerCount with
      | (.ok (), s') => .ok s'.server
      | (.error e, _) => .error e := by
  unfold Server.registerHandler registerHandler
  cases loader.dlopen filename with
  | error text => rfl
  | ok handle =>
    dsimp only
    cases loader.dlsym handle symbol with
    | some text => rfl
    | none =>
      dsimp only
      cases loader.create handle symbol name workerCount with
      | error e =>
        dsimp only
        cases e.what? with
        | some what => rfl
        | none => rfl
      | ok =>
        have hinsert := StdMap.map_insertNew HandlerObject.handler s.threadServer.handlerMap name
          ⟨s.created, name, handle, workerCount⟩
        dsimp only [server, registerCreated, dlopened] at hinsert ⊢
        rw [hinsert]
        generalize s.threadServer.handlerMap.insertNew name _ = result
        obtain ⟨handlerMap, inserted⟩ := result
        cases inserted with
        | false => rfl
        | true => rfl

/-! ## The maps -/

/-- **A failing call changes nothing** that the server keeps. -/
def FailuresLeave (s : ServerState) : Prop :=
  ∀ c e s', s.call c = (.error e, s') →
    s'.threadServer.handlerMap = s.threadServer.handlerMap ∧
    s'.handlerHandleSet = s.handlerHandleSet ∧
    s'.threadServer.listenerMap = s.threadServer.listenerMap

/-- **Every listener has its handler**: its pointer is not null, and what it points to is registered
    under its handler name. -/
def Wired (s : ServerState) : Prop :=
  ∀ (address : Bytes) (listener : Listener HandlerObject),
    s.threadServer.listenerMap[address]? = some listener →
    ∃ handler, listener.handler = some handler ∧
      s.threadServer.handlerMap[listener.handlerName]? = some handler

theorem failuresLeave (s : ServerState) : FailuresLeave s := by
  intro c e s' hcall
  have hends := s.call_ends c
  rw [hcall] at hends
  cases hends with
  | notLoaded | unusable | escaped | nameTaken | listenerRefused => exact ⟨rfl, rfl, rfl⟩

/-- The step lemma: no call takes a handler away from a listener. -/
theorem Wired.ends {s s' : ServerState} {c : RegistrationCall} {outcome : Except Failure Unit}
    (hwired : Wired s) (h : CallEnds s c outcome s') : Wired s' := by
  cases h with
  | notLoaded | unusable | escaped | nameTaken | listenerRefused => exact hwired
  | registered _ _ _ hfree hlookup =>
    intro address listener haddress
    obtain ⟨handler, hpointer, hname⟩ := hwired address listener haddress
    refine ⟨handler, hpointer, ?_⟩
    rw [hlookup, if_neg]
    · exact hname
    · -- The new name was free, and the listener's was not.
      intro heq
      rw [heq, hfree] at hname
      cases hname
  | @listenerFiled new handler _ hhandlers hhandler hlookup =>
    intro address listener haddress
    rw [hhandlers]
    rw [hlookup] at haddress
    by_cases hnew : address = new.address
    · rw [if_pos hnew] at haddress
      obtain rfl := Option.some.inj haddress
      exact ⟨handler, rfl, hhandler⟩
    · rw [if_neg hnew] at haddress
      exact hwired address listener haddress

/-- **Registration keeps the maps consistent.**  However many calls have been made and however they
    ended, the next one that fails leaves the two maps and the set as they are, and every listener
    that is filed points to the handler registered under its handler name. -/
theorem throughout_registered (configuration : Configuration) (calls : List RegistrationCall) :
    Throughout next (fun s => FailuresLeave s ∧ Wired s) (initial configuration) calls := by
  have hinitial : Wired (initial configuration) := by
    intro address listener haddress
    rw [initial, Std.ExtTreeMap.getElem?_empty] at haddress
    cases haddress
  refine throughout_of_step (fun s hs => ⟨s.failuresLeave, hs⟩) ?_ calls hinitial
  intro s c s' hs hnext
  obtain rfl : (s.call c).2 = s' := Option.some.inj hnext
  exact hs.ends (s.call_ends c)

/-! ## The libraries -/

/-- The books of the loader; the handles in the set are those the destructor will close. -/
def libraries (s : ServerState) : References Nat := ⟨s.opened, s.closed, s.handlerHandleSet⟩

/-- **Each handle has been closed as often as it was opened.** -/
def ClosedAsOpened (s : ServerState) : Prop :=
  ∀ handle, s.closed.count handle = s.opened.count handle

/-- **A call does not forget a handle**: if it gets one and the library has the function, then the
    function throws a standard exception, or it returns, the name is free, and the handle is not in
    the set. -/
def KeepsHandle (s : ServerState) : RegistrationCall → Prop
  | .handler loader name filename symbol workerCount =>
    ∀ handle, loader.dlopen filename = .ok handle → loader.dlsym handle symbol = none →
      (∃ e what, loader.create handle symbol name workerCount = .error e ∧ e.what? = some what) ∨
      (loader.create handle symbol name workerCount = .ok () ∧
        s.threadServer.handlerMap[name]? = none ∧ handle ∉ s.handlerHandleSet)
  | .listener _ => True

/-- The step lemma: a handle that is not forgotten is closed or kept. -/
theorem CallEnds.settles {s s' : ServerState} {c : RegistrationCall}
    {outcome : Except Failure Unit} (h : CallEnds s c outcome s') (hkeeps : KeepsHandle s c) :
    s.libraries.Settles s'.libraries := by
  cases h with
  | notLoaded | listenerRefused | listenerFiled => exact .nothing
  | unusable => exact .closed _
  | escaped hopen hsym hcreate hwhat =>
    rcases hkeeps _ hopen hsym with ⟨e, what, he, hsome⟩ | ⟨hok, -, -⟩
    · obtain rfl := Except.error.inj (hcreate.symm.trans he)
      cases hwhat.symm.trans hsome
    · cases hcreate.symm.trans hok
  | nameTaken hopen hsym hcreate htaken =>
    rcases hkeeps _ hopen hsym with ⟨e, what, he, -⟩ | ⟨-, hfree, -⟩
    · cases hcreate.symm.trans he
    · exact absurd hfree htaken
  | registered hopen hsym hcreate hfree =>
    rcases hkeeps _ hopen hsym with ⟨e, what, he, -⟩ | ⟨-, -, hnew⟩
    · cases hcreate.symm.trans he
    · show References.Settles _ ⟨_, _, List.insert _ _⟩
      rw [List.insert_of_not_mem hnew]
      exact .held _

/-- The step lemma: a handle that is forgotten is neither closed nor in the set once more. -/
theorem CallEnds.drops {s s' : ServerState} {c : RegistrationCall}
    {outcome : Except Failure Unit} (h : CallEnds s c outcome s') (hforgets : ¬ KeepsHandle s c) :
    s.libraries.Drops s'.libraries := by
  cases h with
  | listenerRefused | listenerFiled => exact absurd trivial hforgets
  | notLoaded hopen =>
    refine absurd ?_ hforgets
    intro handle hok
    cases hopen.symm.trans hok
  | unusable hopen hreason =>
    refine absurd ?_ hforgets
    intro handle hok hsym
    obtain rfl := Except.ok.inj (hopen.symm.trans hok)
    rcases hreason with hnosym | hthrown
    · exact absurd hsym hnosym
    · exact .inl hthrown
  | escaped | nameTaken => exact .drop _
  | @registered _ _ _ _ _ handle _ hopen hsym hcreate hfree =>
    by_cases hmem : handle ∈ s.handlerHandleSet
    · show References.Drops _ ⟨_, _, List.insert _ _⟩
      rw [List.insert_of_mem hmem]
      exact .drop _
    · refine absurd ?_ hforgets
      intro handle' hok _
      obtain rfl := Except.ok.inj (hopen.symm.trans hok)
      exact .inr ⟨hcreate, hfree, hmem⟩

theorem covered_call {s : ServerState} (hs : s.libraries.Covered) (c : RegistrationCall) :
    (s.call c).2.libraries.Covered := by
  by_cases hkeeps : KeepsHandle s c
  · exact ((s.call_ends c).settles hkeeps).covered hs
  · exact ((s.call_ends c).drops hkeeps).covered hs

/-- Behind a call the books balance exactly if they did before it and it forgot nothing. -/
theorem balanced_call_iff {s : ServerState} (hs : s.libraries.Covered) (c : RegistrationCall) :
    (s.call c).2.libraries.Balanced ↔ s.libraries.Balanced ∧ KeepsHandle s c := by
  by_cases hkeeps : KeepsHandle s c
  · rw [((s.call_ends c).settles hkeeps).balanced_iff, and_iff_left hkeeps]
  · have hlost := ((s.call_ends c).drops hkeeps).not_balanced hs
    exact ⟨fun h => absurd h hlost, fun h => absurd h.2 hkeeps⟩

/-- What the destructor's loop does to the books. -/
theorem closeHandles_books (handles : List Nat) (s : ServerState) :
    (closeHandles handles s).closed = s.closed ++ handles ∧
      (closeHandles handles s).opened = s.opened := by
  induction handles generalizing s with
  | nil => exact ⟨(List.append_nil s.closed).symm, rfl⟩
  | cons handle handles ih =>
    obtain ⟨hclosed, hopened⟩ := ih
      { s.dlclose handle with handlerHandleSet := s.handlerHandleSet.erase handle }
    refine ⟨?_, hopened⟩
    rw [closeHandles, hclosed]
    exact List.append_assoc s.closed [handle] handles

/-- The library that an event of the server's life unloads. -/
def unloads : LifeEvent → Option Nat
  | .dlclose library => some library
  | .join _ _ | .deleteHandler _ | .deleteListener _ => none

/-- **The destructor is the one of `Lifecycle`**: it closes the same libraries. -/
theorem destroy_server (s : ServerState) :
    s.destroy.closed = s.closed ++ s.server.destroy.filterMap unloads := by
  have hlisteners : (s.server.addresses.map LifeEvent.deleteListener).filterMap unloads = [] := by
    rw [List.filterMap_map]
    exact List.filterMap_eq_nil_iff.mpr fun _ _ => rfl
  have hlibraries : (s.handlerHandleSet.map LifeEvent.dlclose).filterMap unloads =
      s.handlerHandleSet := by
    rw [List.filterMap_map]
    exact List.filterMap_some
  obtain ⟨hclosed, -⟩ := closeHandles_books s.handlerHandleSet
    { s with threadServer := { s.threadServer with listenerMap := ∅ } }
  rw [Server.destroy, List.filterMap_append, hlisteners]
  exact hclosed.trans (congrArg (s.closed ++ ·) hlibraries.symm)

/-- The destructor closes what is in the set. -/
theorem destroy_closedAsOpened_iff_balanced (s : ServerState) :
    s.destroy.ClosedAsOpened ↔ s.libraries.Balanced := by
  obtain ⟨hclosed, hopened⟩ := closeHandles_books s.handlerHandleSet
    { s with threadServer := { s.threadServer with listenerMap := ∅ } }
  rw [← References.closeHeld_count_iff, ClosedAsOpened, destroy, hclosed, hopened]
  rfl

/-- The server after these calls. -/
def run (configuration : Configuration) (calls : List RegistrationCall) : ServerState :=
  calls.foldl (fun s c => (s.call c).2) (initial configuration)

theorem exec_next (s : ServerState) (calls : List RegistrationCall) :
    exec next s calls = some (calls.foldl (fun s c => (s.call c).2) s) := by
  induction calls generalizing s with
  | nil => rfl
  | cons c calls ih => exact ih (s.call c).2

/-- **When every library is closed as often as it was opened.**  After any sequence of calls and the
    destructor, this is so exactly if no call has forgotten its handle: none came from a library
    that is in use already, none found its name taken, and from no create function came an exception
    that is not derived from `std::exception`. -/
theorem destroy_closedAsOpened_iff (configuration : Configuration)
    (calls : List RegistrationCall) :
    (run configuration calls).destroy.ClosedAsOpened ↔
      StepsMeet next KeepsHandle (initial configuration) calls := by
  have hinitial : (initial configuration).libraries.Balanced := References.balanced_empty
  have hkeeps : ∀ s c s', (libraries s).Covered → next s c = some s' →
      (libraries s').Covered := by
    intro s c s' hs hnext
    obtain rfl : (s.call c).2 = s' := Option.some.inj hnext
    exact covered_call hs c
  have hstep : ∀ s c s', (libraries s).Covered → next s c = some s' →
      ((libraries s').Balanced ↔ (libraries s).Balanced ∧ KeepsHandle s c) := by
    intro s c s' hs hnext
    obtain rfl : (s.call c).2 = s' := Option.some.inj hnext
    exact balanced_call_iff hs c
  have hlast : (run configuration calls).libraries.Balanced ↔
      (initial configuration).libraries.Balanced ∧
        StepsMeet next KeepsHandle (initial configuration) calls :=
    last_iff_stepsMeet hkeeps hstep hinitial.covered (exec_next _ calls)
  rw [destroy_closedAsOpened_iff_balanced, hlast, and_iff_right hinitial]

/-- Two handlers from one library. -/
def sharedLibrary : List RegistrationCall :=
  [.handler Server.webLoader (str "first") (str "libcpphttp.so") (str "cpphttphandler") 1,
    .handler Server.webLoader (str "second") (str "libcpphttp.so") (str "cpphttphandler") 1]

/-- **A library of two handlers stays open**: `dlopen` has returned its handle twice, and `dlclose`
    is called once. -/
theorem sharedLibrary_stays_open :
    ¬ (run Server.webConfiguration sharedLibrary).destroy.ClosedAsOpened := by
  intro h
  exact absurd (h 1) (by decide)

end ServerState

end ThreadServer
