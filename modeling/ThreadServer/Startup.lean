/-
  What a configuration has to say for the server to be built from it, and what the server is then
  (the constructor of `ThreadServer_t` up to `createWorkers()`, `registerHandlers`,
  `registerListeners`; `threadserver.cc`).

  1. **Specification** — `DescribesHandler` and `DescribesListener` say of one name of the
     configuration what it describes: the settings under it, the library, the function in it, the
     address to listen on.  A `Plan` is everything that is described, and `Follows` says when
     it is one the server can be built by: no name and no address comes twice, and each listener
     names a handler.
  2. **The loops** — `registerHandlersFrom` and `registerListenersFrom` are both a reading of each
     name and an insertion for each (`registerHandlersFrom_eq_ok_iff`,
     `registerListenersFrom_eq_ok_iff`).
  3. **Result** (`construct_eq_ok_iff`) — the constructor succeeds exactly if the configuration
     describes such a plan, and the server is what the plan says.
-/
import ThreadServer.Lifecycle
import ThreadServer.Lib.Registry

set_option linter.dupNamespace false

namespace ThreadServer

open Bytes

/-! ## Readings -/

/-- The first value that the file gives a key. -/
def Configuration.Says (configuration : Configuration) (key value : Bytes) : Prop :=
  ∃ values : Values, configuration.data[key]? = some values ∧ values.1.head? = some value

namespace Configuration

theorem get_eq_ok_iff {configuration : Configuration} {key value : Bytes} :
    configuration.get key = .ok value ↔ configuration.Says key value := by
  unfold get Says
  cases configuration.data[key]? with
  | none => exact iff_of_false nofun fun ⟨_, h, _⟩ => nomatch h
  | some values =>
    have hhead := List.head?_eq_some_head values.2
    constructor
    · intro h
      exact ⟨values, rfl, hhead.trans (congrArg some (Except.ok.inj h))⟩
    · rintro ⟨_, hvalues, hvalue⟩
      obtain rfl := Option.some.inj hvalues
      exact congrArg Except.ok (Option.some.inj (hhead.symm.trans hvalue))

variable {configuration : Configuration} {entries : List (Bytes × Bytes)}

/-- A configuration says what comes first in its file. -/
theorem says_readFile (hdata : configuration.data = readFile entries) {key value : Bytes} :
    configuration.Says key value ↔ (valuesOf key entries).head? = some value := by
  rw [Says, hdata]
  constructor
  · rintro ⟨values, hvalues, hhead⟩
    rwa [← getElem?_readFile.mp hvalues]
  · intro hhead
    have hne : valuesOf key entries ≠ [] := fun h => nomatch h ▸ hhead
    exact ⟨⟨_, hne⟩, getElem?_readFile.mpr rfl, hhead⟩

/-- Where several values are wanted, all of them are read. -/
theorem getVector_readFile (hdata : configuration.data = readFile entries) (key : Bytes) :
    configuration.getVector key = valuesOf key entries := by
  rw [getVector, hdata]
  split
  · rename_i hnone
    by_contra hne
    exact nomatch hnone.symm.trans
      (getElem?_readFile.mpr (show (⟨_, Ne.symm hne⟩ : Values).1 = _ from rfl))
  · rename_i hvalues
    exact getElem?_readFile.mp hvalues

end Configuration

theorem mapM_eq_ok_iff {ε α β : Type} {f : α → Except ε β} {l : List α} {r : List β} :
    l.mapM f = .ok r ↔ List.Forall₂ (fun a b => f a = .ok b) l r := by
  induction l generalizing r with
  | nil =>
    rw [List.mapM_nil]
    constructor
    · intro h
      rw [← Except.ok.inj h]
      exact .nil
    · intro h
      cases h
      rfl
  | cons a l ih =>
    rw [List.mapM_cons]
    cases ha : f a with
    | error e =>
      refine ⟨fun h => (nomatch h), fun h => ?_⟩
      cases h with
      | cons hb _ => exact nomatch ha.symm.trans hb
    | ok b =>
      cases hl : l.mapM f with
      | error e =>
        refine ⟨fun h => (nomatch h), fun h => ?_⟩
        cases h with
        | cons _ hrest => exact nomatch hl.symm.trans (ih.mpr hrest)
      | ok bs =>
        constructor
        · intro h
          rw [← Except.ok.inj h]
          exact .cons ha (ih.mp hl)
        · intro h
          cases h with
          | cons hb hrest =>
            cases ha.symm.trans hb
            cases hl.symm.trans (ih.mpr hrest)
            rfl

/-- Where `Listener_t` listens, by the text in the configuration. -/
inductive ListensOn : Bytes → Bytes → UInt16 → Prop
  | intro {host number : Bytes} {port : Nat} : chr ':' ∉ number →
      LexicalCast.toUnsigned 16 number = some port → port ≠ 0 →
      ListensOn (host ++ chr ':' :: number) (if host = str "*" then [] else host)
        (UInt16.ofNat port)

theorem Listener.parseAddress_eq_ok_iff {address ip : Bytes} {port : UInt16} :
    parseAddress address = .ok (ip, port) ↔ ListensOn address ip port := by
  constructor
  · intro h
    unfold parseAddress at h
    split at h
    · exact nomatch h
    rename_i pos hpos
    obtain ⟨host, number, rfl, hnumber, rfl⟩ := rfind_eq_some.mp hpos
    rw [substrFrom_append_cons] at h
    split at h
    · exact nomatch h
    rename_i port' hport
    split at h
    · exact nomatch h
    rename_i hzero
    rw [substr_append] at h
    cases h
    exact .intro hnumber hport hzero
  · rintro ⟨hnumber, hport, hzero⟩
    rename_i host number port'
    unfold parseAddress
    rw [rfind_eq_some.mpr ⟨host, number, rfl, hnumber, rfl⟩]
    dsimp only
    rw [substrFrom_append_cons, hport]
    dsimp only
    rw [if_neg hzero, substr_append]

/-! ## The specification -/

/-- **What a name of a handler describes**: a library file and a function in it, with a colon
    between them, and a number of workers. -/
inductive DescribesHandler (loader : Loader) (configuration : Configuration) :
    Bytes → LoadedHandler → Prop
  | intro {name filename symbol count : Bytes} {library workerCount : Nat} :
      configuration.Says (name ++ str ".Handler") (filename ++ chr ':' :: symbol) →
      chr ':' ∉ filename →
      configuration.Says (name ++ str ".WorkerCount") count →
      LexicalCast.toUnsigned 64 count = some workerCount →
      loader.dlopen filename = .ok library → loader.dlsym library symbol = none →
      loader.create library symbol name workerCount = .ok () →
      DescribesHandler loader configuration name ⟨name, library, workerCount⟩

section

variable (fromString : Bytes → Option AddressV4) (testListen : Bytes → UInt16 → Except Failure Unit)

/-- **What a name of a listener describes**: an address at which one can listen, the name of a
    handler, one of the two orders, and two lists of networks. -/
inductive DescribesListener (configuration : Configuration) :
    Bytes → Listener LoadedHandler → Prop
  | intro {name address ip handlerName order : Bytes} {port : UInt16}
      {allowed denied : List Network} {handler : Option LoadedHandler} :
      configuration.Says (name ++ str ".Address") address → ListensOn address ip port →
      testListen ip port = .ok () →
      configuration.Says (name ++ str ".Handler") handlerName →
      configuration.Says (name ++ str ".Order") order →
      order = str "allow,deny" ∨ order = str "deny,allow" →
      List.Forall₂ (fun text network => Network.parse fromString text = .ok network)
        (configuration.getVector (name ++ str ".Allow")) allowed →
      List.Forall₂ (fun text network => Network.parse fromString text = .ok network)
        (configuration.getVector (name ++ str ".Deny")) denied →
      DescribesListener configuration name
        { address, ip, port, handlerName, allowFirst := true, allowedNetworks := allowed,
          deniedNetworks := denied, handler }

/-- The handlers and the listeners of a configuration, in its order. -/
structure Plan where
  handlers : List LoadedHandler
  listeners : List (Listener LoadedHandler)

namespace Plan

/-- **A server can be built by the plan.** -/
structure Follows (loader : Loader) (configuration : Configuration) (plan : Plan) : Prop where
  handlers : List.Forall₂ (DescribesHandler loader configuration) configuration.handlerNames
    plan.handlers
  listeners : List.Forall₂ (DescribesListener fromString testListen configuration)
    configuration.listenerNames plan.listeners
  /-- No handler twice. -/
  names : (plan.handlers.map (·.name)).Nodup
  /-- No address twice. -/
  addresses : (plan.listeners.map (·.address)).Nodup
  served : ∀ listener ∈ plan.listeners, ∃ handler ∈ plan.handlers,
    handler.name = listener.handlerName ∧ listener.handler = some handler

/-- **The server built by the plan.** -/
structure Makes (configuration : Configuration) (plan : Plan) (server : Server) : Prop where
  configuration : server.threadServer.configuration = configuration
  handlerMap : ∀ name : Bytes, server.threadServer.handlerMap[name]? =
    plan.handlers.find? (·.name = name)
  listenerMap : ∀ address : Bytes, server.threadServer.listenerMap[address]? =
    plan.listeners.find? (·.address = address)
  handlerHandleSet : server.handlerHandleSet =
    plan.handlers.foldl (fun handles handler => handles.insert handler.library) []

end Plan

end

/-! ## The loop over the handlers -/

/-- The entries under their names, as the loops file them. -/
def filed {α : Type} (key : α → Bytes) (l : List α) : List (Bytes × α) := l.map fun a => (key a, a)

theorem keys_filed {α : Type} (key : α → Bytes) (l : List α) :
    (filed key l).map Prod.fst = l.map key := List.map_map

theorem find?_filed {α : Type} (key : α → Bytes) (l : List α) (k : Bytes) :
    ((filed key l).find? (·.1 = k)).map (·.2) = l.find? (key · = k) := by
  rw [filed, List.find?_map, Option.map_map]
  exact Option.map_id'

/-- Where no key comes twice, each entry is the one under its key. -/
theorem find?_of_nodup {α : Type} {key : α → Bytes} {l : List α} (h : (l.map key).Nodup) {a : α}
    (ha : a ∈ l) : l.find? (key · = key a) = some a := by
  induction l with
  | nil => exact nomatch ha
  | cons b l ih =>
    rw [List.map_cons, List.nodup_cons] at h
    rcases List.mem_cons.mp ha with rfl | ha
    · exact List.find?_cons_of_pos (by simp)
    · have hne : key b ≠ key a := fun heq => h.1 (heq ▸ List.mem_map_of_mem ha)
      rw [List.find?_cons_of_neg (by simpa using hne)]
      exact ih h.2 ha

/-- The server with more handlers in it. -/
def Server.withHandlers (server : Server) (handlerMap : StdMap Bytes LoadedHandler)
    (handlers : List LoadedHandler) : Server where
  threadServer := { server.threadServer with handlerMap }
  handlerHandleSet := handlers.foldl (fun handles handler => handles.insert handler.library)
    server.handlerHandleSet

namespace Server

variable {loader : Loader}

/-- One handler: it can be loaded, and its name is new. -/
theorem registerHandler_eq_ok_iff {name filename symbol : Bytes} {workerCount : Nat}
    {server server' : Server} :
    registerHandler loader name filename symbol workerCount server = .ok server' ↔
      ∃ library handlerMap, loader.dlopen filename = .ok library ∧
        loader.dlsym library symbol = none ∧
        loader.create library symbol name workerCount = .ok () ∧
        server.threadServer.handlerMap.insertNew name ⟨name, library, workerCount⟩ =
          (handlerMap, true) ∧
        server' = server.withHandlers handlerMap [⟨name, library, workerCount⟩] := by
  constructor
  · intro h
    unfold registerHandler at h
    split at h
    · cases h
    rename_i library hopen
    split at h
    · cases h
    rename_i hsymbol
    split at h
    · split at h <;> cases h
    rename_i hcreate
    split at h
    · cases h
    rename_i handlerMap hinsert
    exact ⟨library, handlerMap, hopen, hsymbol, hcreate, hinsert, (Except.ok.inj h).symm⟩
  · rintro ⟨library, handlerMap, hopen, hsymbol, hcreate, hinsert, rfl⟩
    simp only [registerHandler, hopen, hsymbol, hcreate, hinsert]
    rfl

/-- One turn of the loop. -/
theorem registerHandlersFrom_cons_iff {name : Bytes} {names : List Bytes}
    {server server' : Server} :
    registerHandlersFrom loader (name :: names) server = .ok server' ↔
      ∃ handler handlerMap, DescribesHandler loader server.threadServer.configuration name handler ∧
        server.threadServer.handlerMap.insertNew handler.name handler = (handlerMap, true) ∧
        registerHandlersFrom loader names (server.withHandlers handlerMap [handler]) =
          .ok server' := by
  rw [registerHandlersFrom, bind_eq_ok]
  constructor
  · rintro ⟨text, htext, h⟩
    split at h
    · cases h
    rename_i pos hpos
    obtain ⟨filename, symbol, rfl, hfilename, rfl⟩ := find_eq_some.mp hpos
    rw [substr_append, substrFrom_append_cons] at h
    obtain ⟨count, hcount, h⟩ := bind_eq_ok.mp h
    split at h
    · cases h
    rename_i workerCount hworkers
    obtain ⟨next, hnext, hrest⟩ := bind_eq_ok.mp h
    obtain ⟨library, handlerMap, hopen, hsymbol, hcreate, hinsert, rfl⟩ :=
      registerHandler_eq_ok_iff.mp hnext
    exact ⟨⟨name, library, workerCount⟩, handlerMap,
      .intro (Configuration.get_eq_ok_iff.mp htext) hfilename
        (Configuration.get_eq_ok_iff.mp hcount) hworkers hopen hsymbol hcreate, hinsert, hrest⟩
  · rintro ⟨_, handlerMap, ⟨htext, hfilename, hcount, hworkers, hopen, hsymbol, hcreate⟩, hinsert,
      hrest⟩
    refine ⟨_, Configuration.get_eq_ok_iff.mpr htext, ?_⟩
    rw [find_append_cons _ hfilename]
    dsimp only
    rw [substr_append, substrFrom_append_cons, bind_eq_ok]
    refine ⟨_, Configuration.get_eq_ok_iff.mpr hcount, ?_⟩
    rw [hworkers]
    exact bind_eq_ok.mpr ⟨_, registerHandler_eq_ok_iff.mpr
      ⟨_, handlerMap, hopen, hsymbol, hcreate, hinsert, rfl⟩, hrest⟩

/-- **The loop over the handlers.** -/
theorem registerHandlersFrom_eq_ok_iff {names : List Bytes} {server server' : Server} :
    registerHandlersFrom loader names server = .ok server' ↔
      ∃ handlers handlerMap,
        List.Forall₂ (DescribesHandler loader server.threadServer.configuration) names handlers ∧
        server.threadServer.handlerMap.insertAllNew (filed (·.name) handlers) = some handlerMap ∧
        server' = server.withHandlers handlerMap handlers := by
  induction names generalizing server with
  | nil =>
    constructor
    · intro h
      exact ⟨[], _, .nil, rfl, (Except.ok.inj h).symm⟩
    · rintro ⟨_, handlerMap, ⟨⟩, hinsert, rfl⟩
      obtain rfl := Option.some.inj hinsert
      rfl
  | cons name names ih =>
    rw [registerHandlersFrom_cons_iff]
    constructor
    · rintro ⟨handler, next, hdescribes, hinsert, hrest⟩
      obtain ⟨handlers, handlerMap, hall, hfiled, rfl⟩ := ih.mp hrest
      exact ⟨handler :: handlers, handlerMap, .cons hdescribes hall,
        StdMap.insertAllNew_cons_iff.mpr ⟨next, hinsert, hfiled⟩, rfl⟩
    · rintro ⟨handlers, handlerMap, hall, hfiled, rfl⟩
      cases hall with
      | @cons _ handler _ handlers hdescribes hall =>
        obtain ⟨next, hinsert, hfiled⟩ := StdMap.insertAllNew_cons_iff.mp hfiled
        exact ⟨handler, next, hdescribes, hinsert, ih.mpr ⟨handlers, handlerMap, hall, hfiled, rfl⟩⟩

end Server

/-! ## The loop over the listeners -/

section Listeners

variable {fromString : Bytes → Option AddressV4} {testListen : Bytes → UInt16 → Except Failure Unit}

theorem parseOrder_eq_ok_iff {order : Bytes} {allowFirst : Bool} :
    parseOrder order = .ok allowFirst ↔
      (order = str "allow,deny" ∧ allowFirst = true) ∨
        (order = str "deny,allow" ∧ allowFirst = false) := by
  have hne : str "deny,allow" ≠ str "allow,deny" := by decide
  rw [parseOrder]
  by_cases hallow : order = str "allow,deny"
  · subst hallow
    rw [if_neg (not_not_intro rfl)]
    constructor
    · intro h
      exact .inl ⟨rfl, (Except.ok.inj h).symm⟩
    · rintro (⟨-, rfl⟩ | ⟨h, -⟩)
      · rfl
      · exact absurd h.symm hne
  · rw [if_pos hallow]
    by_cases hdeny : order = str "deny,allow"
    · subst hdeny
      rw [if_pos rfl]
      constructor
      · intro h
        exact .inr ⟨rfl, (Except.ok.inj h).symm⟩
      · rintro (⟨h, -⟩ | ⟨-, rfl⟩)
        · exact absurd h hne
        · rfl
    · rw [if_neg hdeny]
      refine iff_of_false nofun ?_
      rintro (⟨h, -⟩ | ⟨h, -⟩)
      · exact hallow h
      · exact hdeny h

/-- One listener as the loop reads it: it has no handler yet. -/
theorem read_eq_ok_iff {configuration : Configuration} {name : Bytes}
    {listener : Listener LoadedHandler} :
    (ListenerSetup.read fromString configuration name >>= (·.listener testListen)) = .ok listener ↔
      DescribesListener fromString testListen configuration name listener ∧
        listener.handler = none := by
  rw [bind_eq_ok]
  constructor
  · rintro ⟨setup, hsetup, hlistener⟩
    obtain ⟨address, haddress, h⟩ := bind_eq_ok.mp hsetup
    obtain ⟨handlerName, hhandler, h⟩ := bind_eq_ok.mp h
    obtain ⟨order, horder, h⟩ := bind_eq_ok.mp h
    obtain ⟨allowFirst, hallowFirst, h⟩ := bind_eq_ok.mp h
    obtain ⟨allowed, hallowed, h⟩ := bind_eq_ok.mp h
    obtain ⟨denied, hdenied, h⟩ := bind_eq_ok.mp h
    cases h
    obtain ⟨⟨ip, port⟩, hparse, h⟩ := bind_eq_ok.mp hlistener
    obtain ⟨_, htest, h⟩ := bind_eq_ok.mp h
    cases h
    exact ⟨.intro (Configuration.get_eq_ok_iff.mp haddress)
      (Listener.parseAddress_eq_ok_iff.mp hparse) htest
      (Configuration.get_eq_ok_iff.mp hhandler) (Configuration.get_eq_ok_iff.mp horder)
      ((parseOrder_eq_ok_iff.mp hallowFirst).imp And.left And.left)
      (mapM_eq_ok_iff.mp hallowed) (mapM_eq_ok_iff.mp hdenied), rfl⟩
  · rintro ⟨⟨haddress, hlistens, htest, hhandler, horder, hknown, hallowed, hdenied⟩, rfl⟩
    rename_i address ip handlerName order port allowed denied
    have hflag : ∃ allowFirst, parseOrder order = .ok allowFirst :=
      hknown.elim (fun h => ⟨true, parseOrder_eq_ok_iff.mpr (.inl ⟨h, rfl⟩)⟩)
        fun h => ⟨false, parseOrder_eq_ok_iff.mpr (.inr ⟨h, rfl⟩)⟩
    obtain ⟨allowFirst, hallowFirst⟩ := hflag
    refine ⟨⟨address, handlerName, order, allowFirst, allowed, denied⟩, ?_, ?_⟩
    · refine bind_eq_ok.mpr ⟨_, Configuration.get_eq_ok_iff.mpr haddress, ?_⟩
      refine bind_eq_ok.mpr ⟨_, Configuration.get_eq_ok_iff.mpr hhandler, ?_⟩
      refine bind_eq_ok.mpr ⟨_, Configuration.get_eq_ok_iff.mpr horder, ?_⟩
      refine bind_eq_ok.mpr ⟨_, hallowFirst, ?_⟩
      refine bind_eq_ok.mpr ⟨_, mapM_eq_ok_iff.mpr hallowed, ?_⟩
      exact bind_eq_ok.mpr ⟨_, mapM_eq_ok_iff.mpr hdenied, rfl⟩
    · refine bind_eq_ok.mpr ⟨_, Listener.parseAddress_eq_ok_iff.mpr hlistens, ?_⟩
      exact bind_eq_ok.mpr ⟨(), htest, rfl⟩

theorem DescribesListener.withHandler {configuration : Configuration} {name : Bytes}
    {listener : Listener LoadedHandler}
    (h : DescribesListener fromString testListen configuration name listener)
    (handler : Option LoadedHandler) :
    DescribesListener fromString testListen configuration name { listener with handler } := by
  obtain ⟨haddress, hlistens, htest, hhandler, horder, hknown, hallowed, hdenied⟩ := h
  exact .intro haddress hlistens htest hhandler horder hknown hallowed hdenied

namespace ThreadServer

/-- A listener is filed with the handler of its name. -/
def Serves (server : ThreadServer LoadedHandler) (listener : Listener LoadedHandler) : Prop :=
  ∃ handler, server.handlerMap[listener.handlerName]? = some handler ∧
    listener.handler = some handler

theorem registerListener_eq_ok_iff {server server' : ThreadServer LoadedHandler}
    {listener : Listener LoadedHandler} :
    server.registerListener listener = (.ok (), server') ↔
      ∃ handler listenerMap, server.handlerMap[listener.handlerName]? = some handler ∧
        server.listenerMap.insertNew listener.address { listener with handler := some handler } =
          (listenerMap, true) ∧ server' = { server with listenerMap } := by
  constructor
  · intro h
    unfold registerListener at h
    split at h
    · cases (Prod.mk.inj h).1
    rename_i handler hhandler
    split at h
    · cases (Prod.mk.inj h).1
    rename_i listenerMap hinsert
    exact ⟨handler, _, hhandler, StdMap.insertNew_insert hinsert _, (Prod.mk.inj h).2.symm⟩
  · rintro ⟨handler, listenerMap, hhandler, hinsert, rfl⟩
    have hfirst := StdMap.insertNew_eq_of_none (StdMap.insertNew_eq_true hinsert).1 listener
    have hsecond := hinsert.symm.trans (StdMap.insertNew_insert hfirst _)
    simp only [registerListener, hhandler, hfirst]
    rw [(Prod.mk.inj hsecond).1]

/-- **The loop over the listeners.** -/
theorem registerListenersFrom_eq_ok_iff {names : List Bytes}
    {server server' : ThreadServer LoadedHandler} :
    registerListenersFrom fromString testListen names server = (.ok (), server') ↔
      ∃ listeners listenerMap,
        List.Forall₂ (DescribesListener fromString testListen server.configuration) names
          listeners ∧
        (∀ listener ∈ listeners, server.Serves listener) ∧
        server.listenerMap.insertAllNew (filed (·.address) listeners) = some listenerMap ∧
        server' = { server with listenerMap } := by
  induction names generalizing server with
  | nil =>
    constructor
    · intro h
      exact ⟨[], _, .nil, List.forall_mem_nil _, rfl, (Prod.mk.inj h).2.symm⟩
    · rintro ⟨_, listenerMap, ⟨⟩, -, hinsert, rfl⟩
      obtain rfl := Option.some.inj hinsert
      rfl
  | cons name names ih =>
    rw [registerListenersFrom]
    constructor
    · intro h
      split at h
      · cases (Prod.mk.inj h).1
      rename_i listener hlistener
      obtain ⟨hdescribes, -⟩ := read_eq_ok_iff.mp hlistener
      split at h
      · cases (Prod.mk.inj h).1
      rename_i next hnext
      obtain ⟨handler, nextMap, hhandler, hinsert, rfl⟩ := registerListener_eq_ok_iff.mp hnext
      obtain ⟨listeners, listenerMap, hall, hserved, hfiled, rfl⟩ := ih.mp h
      exact ⟨{ listener with handler := some handler } :: listeners, listenerMap,
        .cons (hdescribes.withHandler _) hall,
        List.forall_mem_cons.mpr ⟨⟨handler, hhandler, rfl⟩, hserved⟩,
        StdMap.insertAllNew_cons_iff.mpr ⟨nextMap, hinsert, hfiled⟩, rfl⟩
    · rintro ⟨listeners, listenerMap, hall, hserved, hfiled, rfl⟩
      cases hall with
      | @cons _ listener _ listeners hdescribes hall =>
        obtain ⟨nextMap, hinsert, hfiled⟩ := StdMap.insertAllNew_cons_iff.mp hfiled
        obtain ⟨⟨handler, hhandler, hlistener⟩, hserved⟩ := List.forall_mem_cons.mp hserved
        have hread := read_eq_ok_iff.mpr ⟨hdescribes.withHandler none, rfl⟩
        have hnext : server.registerListener { listener with handler := none } =
            (.ok (), { server with listenerMap := nextMap }) := by
          refine registerListener_eq_ok_iff.mpr ⟨handler, nextMap, hhandler, ?_, rfl⟩
          rw [← hinsert, ← hlistener]
        rw [hread]
        dsimp only
        rw [hnext]
        exact ih.mpr ⟨listeners, listenerMap, hall, hserved, hfiled, rfl⟩

end ThreadServer

end Listeners

/-! ## The server -/

section

variable {loader : Loader} {fromString : Bytes → Option AddressV4}
  {testListen : Bytes → UInt16 → Except Failure Unit} {configuration : Configuration}
  {server : Server}

/-- The constructor is the two loops. -/
theorem construct_eq_ok_iff_registered :
    Server.construct loader fromString testListen configuration = .ok server ↔
      ∃ registered threadServer,
        Server.registerHandlersFrom loader configuration.handlerNames
          ⟨⟨configuration, ∅, ∅⟩, []⟩ = .ok registered ∧
        registered.threadServer.registerListeners fromString testListen = (.ok (), threadServer) ∧
        server = { registered with threadServer } := by
  rw [Server.construct, bind_eq_ok]
  constructor
  · rintro ⟨registered, hregistered, h⟩
    split at h
    · cases h
    rename_i threadServer hlisteners
    exact ⟨registered, threadServer, hregistered, hlisteners, (Except.ok.inj h).symm⟩
  · rintro ⟨registered, threadServer, hregistered, hlisteners, rfl⟩
    refine ⟨registered, hregistered, ?_⟩
    rw [hlisteners]

theorem lookup_empty {α : Type} (k : Bytes) : (∅ : StdMap Bytes α)[k]? = none :=
  Std.ExtTreeMap.getElem?_empty

/-- A server that has been constructed follows a plan. -/
theorem exists_plan_of_construct
    (hconstruct : Server.construct loader fromString testListen configuration = .ok server) :
    ∃ plan : Plan, plan.Follows fromString testListen loader configuration ∧
      plan.Makes configuration server := by
  obtain ⟨registered, threadServer, hregistered, hlisteners, rfl⟩ :=
    construct_eq_ok_iff_registered.mp hconstruct
  obtain ⟨handlers, handlerMap, hhandlers, hnames, rfl⟩ :=
    Server.registerHandlersFrom_eq_ok_iff.mp hregistered
  obtain ⟨listeners, listenerMap, hdescribed, hserved, haddresses, rfl⟩ :=
    ThreadServer.registerListenersFrom_eq_ok_iff.mp hlisteners
  have hlookup : ∀ name, handlerMap[name]? = handlers.find? (·.name = name) := fun name => by
    rw [StdMap.getElem?_insertAllNew hnames, find?_filed, lookup_empty, Option.or_none]
  refine ⟨⟨handlers, listeners⟩, ⟨hhandlers, hdescribed, ?_, ?_, ?_⟩, ⟨rfl, hlookup, ?_, rfl⟩⟩
  · rw [← keys_filed]
    exact (StdMap.exists_insertAllNew_iff.mp ⟨_, hnames⟩).1
  · rw [← keys_filed]
    exact (StdMap.exists_insertAllNew_iff.mp ⟨_, haddresses⟩).1
  · intro listener hmem
    obtain ⟨handler, hhandler, heq⟩ := hserved listener hmem
    have hfind := (hlookup listener.handlerName).symm.trans hhandler
    exact ⟨handler, List.mem_of_find?_eq_some hfind,
      by simpa using List.find?_some hfind, heq⟩
  · intro address
    show listenerMap[address]? = _
    rw [StdMap.getElem?_insertAllNew haddresses, find?_filed]
    exact (congrArg _ (lookup_empty address)).trans Option.or_none

/-- By every plan a server can be constructed. -/
theorem construct_of_plan {plan : Plan}
    (hfollows : plan.Follows fromString testListen loader configuration)
    (hmakes : plan.Makes configuration server) :
    Server.construct loader fromString testListen configuration = .ok server := by
  rw [construct_eq_ok_iff_registered]
  obtain ⟨handlerMap, hnames⟩ : ∃ handlerMap,
      StdMap.insertAllNew ∅ (filed (·.name) plan.handlers) = some handlerMap := by
    refine StdMap.exists_insertAllNew_iff.mpr ⟨?_, fun k _ => lookup_empty k⟩
    rw [keys_filed]
    exact hfollows.names
  obtain ⟨listenerMap, haddresses⟩ : ∃ listenerMap,
      StdMap.insertAllNew ∅ (filed (·.address) plan.listeners) = some listenerMap := by
    refine StdMap.exists_insertAllNew_iff.mpr ⟨?_, fun k _ => lookup_empty k⟩
    rw [keys_filed]
    exact hfollows.addresses
  have hhandlerMap : server.threadServer.handlerMap = handlerMap := by
    apply Std.ExtTreeMap.ext_getElem?
    intro name
    rw [hmakes.handlerMap, StdMap.getElem?_insertAllNew hnames, find?_filed, lookup_empty,
      Option.or_none]
  have hlistenerMap : server.threadServer.listenerMap = listenerMap := by
    apply Std.ExtTreeMap.ext_getElem?
    intro address
    rw [hmakes.listenerMap, StdMap.getElem?_insertAllNew haddresses, find?_filed, lookup_empty,
      Option.or_none]
  have hserved : ∀ listener ∈ plan.listeners, ThreadServer.Serves
      ⟨configuration, handlerMap, ∅⟩ listener := by
    intro listener hmem
    obtain ⟨handler, hhandler, hname, heq⟩ := hfollows.served listener hmem
    refine ⟨handler, ?_, heq⟩
    show handlerMap[listener.handlerName]? = _
    rw [← hhandlerMap, hmakes.handlerMap, ← hname]
    exact find?_of_nodup hfollows.names hhandler
  have hlisteners := ThreadServer.registerListenersFrom_eq_ok_iff.mpr
    ⟨plan.listeners, listenerMap, hfollows.listeners, hserved, haddresses, rfl⟩
  refine ⟨_, _, Server.registerHandlersFrom_eq_ok_iff.mpr
    ⟨plan.handlers, handlerMap, hfollows.handlers, hnames, rfl⟩, hlisteners, ?_⟩
  rw [← hhandlerMap, ← hlistenerMap, ← hmakes.configuration]
  exact congrArg (Server.mk server.threadServer) hmakes.handlerHandleSet

/-- **Starting up.**  The constructor succeeds exactly if the configuration describes handlers and
    listeners that a server can have, and then these are the ones it has. -/
theorem construct_eq_ok_iff :
    Server.construct loader fromString testListen configuration = .ok server ↔
      ∃ plan : Plan, plan.Follows fromString testListen loader configuration ∧
        plan.Makes configuration server := by
  constructor
  · exact exists_plan_of_construct
  · rintro ⟨plan, hfollows, hmakes⟩
    exact construct_of_plan hfollows hmakes

end

end ThreadServer
