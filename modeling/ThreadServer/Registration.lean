/-
  Listeners, from the configuration file to the access decision (`ThreadServer_t::registerListeners`
  and `registerListener` in `threadserver.cc`).

  1. **Program.**  `ListenerSetup.read` is what the loop body of `registerListeners` reads for one
     listener name; `registerListener` files a listener under its address and gives it its handler;
     `registerListeners` does both for every configured name.  A call that throws leaves the server
     as it was at that moment, which is why the server comes back in either case.
  2. **Specification.**  `Permits` says which clients a configured `Order` lets through:
     with `allow,deny` the deny list overrides, with `deny,allow` the allow list does.
  3. **Correctness.**  The loop invariant is that a listener, once filed, stays what it is
     (`registerListenersFrom_keeps`); `registerListeners_builds` names the listener that ends up
     under every configured address, and `registerListeners_obeysOrder_iff` says for which clients
     its decision is the configured one.  The constructor drops the order it is given
     (`Listener.new`), so the answer is not "all of them".

  `fromString` is `address_v4::from_string` and `testListen` the test acceptor of the constructor.
-/
import ThreadServer.Configuration
import ThreadServer.Listener

set_option linter.dupNamespace false

namespace ThreadServer

open Bytes

/-- `ThreadServer_t`: its configuration and its two maps. -/
structure ThreadServer (Handler : Type) where
  configuration : Configuration
  handlerMap : StdMap Bytes Handler
  listenerMap : StdMap Bytes (Listener Handler)

/-! ## The program -/

/-- What the configuration says about one listener. -/
structure ListenerSetup where
  listenAddress : Bytes
  handler : Bytes
  order : Bytes
  allowFirst : Bool
  allowed : List Network
  denied : List Network

/-- The `Order` of a listener, as the flag handed to its constructor. -/
def parseOrder (order : Bytes) : Except Failure Bool :=
  if order ≠ str "allow,deny" then
    if order = str "deny,allow" then .ok false
    else .error (.throws (.formatted [str "Invalid Order ", cStr order]))
  else .ok true

section Program

variable {Handler : Type} (fromString : Bytes → Option AddressV4)
  (testListen : Bytes → UInt16 → Except Failure Unit)

/-- The reading half of the loop body of `registerListeners`. -/
def ListenerSetup.read (configuration : Configuration) (name : Bytes) :
    Except Failure ListenerSetup := do
  let listenAddress ← configuration.get (name ++ str ".Address")
  let handler ← configuration.get (name ++ str ".Handler")
  let order ← configuration.get (name ++ str ".Order")
  let allowFirst ← parseOrder order
  let allowed ← Network.parseAll fromString (configuration.getVector (name ++ str ".Allow"))
  let denied ← Network.parseAll fromString (configuration.getVector (name ++ str ".Deny"))
  pure { listenAddress, handler, order, allowFirst, allowed, denied }

/-- `new Listener_t(...)` as `registerListeners` calls it. -/
def ListenerSetup.listener (setup : ListenerSetup) : Except Failure (Listener Handler) :=
  Listener.new testListen setup.listenAddress setup.handler setup.allowFirst setup.allowed
    setup.denied

namespace ThreadServer

/-- `ThreadServer_t::registerListener`. -/
def registerListener (server : ThreadServer Handler) (listener : Listener Handler) :
    Except Failure Unit × ThreadServer Handler :=
  match server.handlerMap[listener.handlerName]? with
  | none =>
    (.error (.throws (.formatted [str "Handler ", cStr listener.handlerName, str " not found"])),
      server)
  | some handler =>
    match server.listenerMap.insertNew listener.address listener with
    | (listenerMap, false) =>
      (.error (.throws (.formatted
        [str "Listener ", cStr listener.address, str " already registered"])),
        { server with listenerMap })
    | (listenerMap, true) =>
      -- `setHandler` through the pointer that the map now holds
      (.ok (), { server with
        listenerMap := listenerMap.insert listener.address
          { listener with handler := some handler } })

/-- The loop of `registerListeners`, over the names still to come. -/
def registerListenersFrom : List Bytes → ThreadServer Handler →
    Except Failure Unit × ThreadServer Handler
  | [], server => (.ok (), server)
  | name :: names, server =>
    match ListenerSetup.read fromString server.configuration name >>= (·.listener testListen) with
    | .error e => (.error e, server)
    | .ok listener =>
      match server.registerListener listener with
      | (.error e, server) => (.error e, server)
      | (.ok (), server) => registerListenersFrom names server

/-- `ThreadServer_t::registerListeners`. -/
def registerListeners (server : ThreadServer Handler) :
    Except Failure Unit × ThreadServer Handler :=
  registerListenersFrom fromString testListen server.configuration.listenerNames server

end ThreadServer

end Program

/-! ## The specification -/

/-- The clients a listener with this `Order` and these networks is to let through. -/
def Permits (order : Bytes) (allowed denied : List Network) : Address → Prop
  | .v6 _ => False
  | .v4 address =>
    if order = str "allow,deny" then
      Listener.Covers allowed address ∧ ¬ Listener.Covers denied address
    else Listener.Covers allowed address

instance (order : Bytes) (allowed denied : List Network) :
    (client : Address) → Decidable (Permits order allowed denied client)
  | .v6 _ => inferInstanceAs (Decidable False)
  | .v4 address => inferInstanceAs (Decidable (if order = str "allow,deny" then
      Listener.Covers allowed address ∧ ¬ Listener.Covers denied address
    else Listener.Covers allowed address))

/-- The decision of `listener` for `client` is the one its configuration asks for. -/
def ObeysOrder {Handler : Type} (setup : ListenerSetup) (listener : Listener Handler)
    (client : Address) : Prop :=
  listener.isForbidden (.connected client) = .ok false ↔
    Permits setup.order setup.allowed setup.denied client

/-- The client is covered both by an allowed and by a denied network. -/
def CoveredTwice (setup : ListenerSetup) (client : Address) : Prop :=
  ∃ address, client = .v4 address ∧ Listener.Covers setup.allowed address ∧
    Listener.Covers setup.denied address

/-! ## One registration -/

section Correctness

variable {Handler : Type} {fromString : Bytes → Option AddressV4}
  {testListen : Bytes → UInt16 → Except Failure Unit}

namespace ThreadServer

/-- What a successful `registerListener` did: the address was free, and now holds the listener
    with the handler of its name; every other entry is unchanged. -/
theorem registerListener_eq_ok {server server' : ThreadServer Handler}
    {listener : Listener Handler} (h : server.registerListener listener = (.ok (), server')) :
    server'.configuration = server.configuration ∧ server'.handlerMap = server.handlerMap ∧
      server.listenerMap[listener.address]? = none ∧
      ∃ handler, server.handlerMap[listener.handlerName]? = some handler ∧
        ∀ address, server'.listenerMap[address]? =
          if address = listener.address then some { listener with handler := some handler }
          else server.listenerMap[address]? := by
  unfold registerListener at h
  split at h
  · exact nomatch (Prod.mk.inj h).1
  · rename_i handler hhandler
    split at h
    · exact nomatch (Prod.mk.inj h).1
    · rename_i listenerMap hinsert
      obtain ⟨-, rfl⟩ := Prod.mk.inj h
      obtain ⟨hnone, hlookup⟩ := StdMap.insertNew_eq_true hinsert
      refine ⟨rfl, rfl, hnone, handler, hhandler, fun address => ?_⟩
      show (listenerMap.insert _ _)[address]? = _
      rw [Std.ExtTreeMap.getElem?_insert]
      by_cases ha : address = listener.address
      · rw [if_pos ha, if_pos (by rw [ha, Std.compare_self])]
      · rw [if_neg ha, if_neg (fun hc => ha (Std.LawfulEqOrd.eq_of_compare hc).symm), hlookup,
          if_neg ha]

/-- One turn of the loop that does not throw. -/
theorem registerListenersFrom_cons {server server' : ThreadServer Handler} {name : Bytes}
    {names : List Bytes}
    (h : registerListenersFrom fromString testListen (name :: names) server = (.ok (), server')) :
    ∃ setup listener next, ListenerSetup.read fromString server.configuration name = .ok setup ∧
      setup.listener testListen = .ok listener ∧
      server.registerListener listener = (.ok (), next) ∧
      registerListenersFrom fromString testListen names next = (.ok (), server') := by
  rw [registerListenersFrom] at h
  split at h
  · exact nomatch (Prod.mk.inj h).1
  · rename_i listener hlistener
    obtain ⟨setup, hsetup, hlistener⟩ := bind_eq_ok.mp hlistener
    split at h
    · exact nomatch (Prod.mk.inj h).1
    · rename_i next hnext
      exact ⟨setup, listener, next, hsetup, hlistener, hnext, h⟩

/-! ## The loop -/

/-- **Loop invariant**: what is filed stays filed, unchanged. -/
theorem registerListenersFrom_keeps {names : List Bytes} {server server' : ThreadServer Handler}
    {address : Bytes} {listener : Listener Handler}
    (h : registerListenersFrom fromString testListen names server = (.ok (), server'))
    (hl : server.listenerMap[address]? = some listener) :
    server'.listenerMap[address]? = some listener := by
  induction names generalizing server with
  | nil =>
    obtain ⟨-, rfl⟩ := Prod.mk.inj h
    exact hl
  | cons name names ih =>
    obtain ⟨setup, filed, next, -, -, hfile, hrest⟩ := registerListenersFrom_cons h
    obtain ⟨-, -, hfree, handler, -, hlookup⟩ := registerListener_eq_ok hfile
    refine ih hrest ?_
    have hne : address ≠ filed.address := by
      rintro rfl
      rw [hfree] at hl
      exact nomatch hl
    rw [hlookup, if_neg hne]
    exact hl

/-- Every configured name ends up with the listener its configuration describes, at its address
    and with `allowFirst` set. -/
theorem registerListenersFrom_builds {names : List Bytes} {server server' : ThreadServer Handler}
    {name : Bytes}
    (h : registerListenersFrom fromString testListen names server = (.ok (), server'))
    (hname : name ∈ names) :
    ∃ setup listener, ListenerSetup.read fromString server.configuration name = .ok setup ∧
      server'.listenerMap[setup.listenAddress]? = some listener ∧ listener.allowFirst = true ∧
      listener.allowedNetworks = setup.allowed ∧ listener.deniedNetworks = setup.denied := by
  induction names generalizing server with
  | nil => exact absurd hname List.not_mem_nil
  | cons first names ih =>
    obtain ⟨setup, filed, next, hsetup, hfiled, hfile, hrest⟩ := registerListenersFrom_cons h
    obtain ⟨hconf, -, -, handler, -, hlookup⟩ := registerListener_eq_ok hfile
    rcases List.mem_cons.mp hname with rfl | hname
    · obtain ⟨haddr, -, hallow, hallowed, hdenied, -⟩ := Listener.new_eq_ok hfiled
      refine ⟨setup, { filed with handler := some handler }, hsetup, ?_, hallow, hallowed, hdenied⟩
      refine registerListenersFrom_keeps hrest ?_
      rw [hlookup, if_pos haddr.symm]
    · obtain ⟨setup', listener, hsetup', hrest'⟩ := ih hrest hname
      exact ⟨setup', listener, hconf ▸ hsetup', hrest'⟩

end ThreadServer

/-! ## The decision of the listener that was built -/

/-- A setup that was read has one of the two orders. -/
theorem ListenerSetup.read_order {configuration : Configuration} {name : Bytes}
    {setup : ListenerSetup} (h : ListenerSetup.read fromString configuration name = .ok setup) :
    setup.order = str "allow,deny" ∨ setup.order = str "deny,allow" := by
  obtain ⟨address, -, h⟩ := bind_eq_ok.mp h
  obtain ⟨handler, -, h⟩ := bind_eq_ok.mp h
  obtain ⟨order, -, h⟩ := bind_eq_ok.mp h
  obtain ⟨allowFirst, horder, h⟩ := bind_eq_ok.mp h
  obtain ⟨allowed, -, h⟩ := bind_eq_ok.mp h
  obtain ⟨denied, -, h⟩ := bind_eq_ok.mp h
  obtain rfl := Except.ok.inj h
  show order = _ ∨ order = _
  unfold parseOrder at horder
  split at horder
  · split at horder
    · exact Or.inr ‹_›
    · exact nomatch horder
  · exact Or.inl (not_not.mp ‹_›)

/-- A listener that looks at its allow list first obeys a configured order exactly on the clients
    where the two orders agree, or everywhere if that order is `allow,deny`. -/
theorem obeysOrder_iff_of_allowFirst {setup : ListenerSetup} {listener : Listener Handler}
    (hfirst : listener.allowFirst = true) (hallowed : listener.allowedNetworks = setup.allowed)
    (hdenied : listener.deniedNetworks = setup.denied) (client : Address) :
    ObeysOrder setup listener client ↔
      (setup.order = str "allow,deny" ∨ ¬ CoveredTwice setup client) := by
  cases client with
  | v6 address =>
    have htwice : ¬ CoveredTwice setup (.v6 address) := by
      rintro ⟨a, ha, -⟩
      exact nomatch ha
    refine ⟨fun _ => Or.inr htwice, fun _ => ?_⟩
    rw [ObeysOrder, Listener.isForbidden_connected_v6]
    exact ⟨fun h => (nomatch h), fun h => h.elim⟩
  | v4 address =>
    have htwice : CoveredTwice setup (.v4 address) ↔
        Listener.Covers setup.allowed address ∧ Listener.Covers setup.denied address := by
      constructor
      · rintro ⟨a, ha, hc⟩
        obtain rfl := Address.v4.inj ha
        exact hc
      · intro hc
        exact ⟨address, rfl, hc⟩
    have hdecision : listener.isForbidden (.connected (.v4 address)) = .ok false ↔
        Listener.Covers setup.allowed address ∧ ¬ Listener.Covers setup.denied address := by
      rw [Listener.isForbidden_connected_v4, hallowed, hdenied, Except.ok.injEq,
        decide_eq_false_iff_not, not_or, not_not]
      simp [hfirst]
    rw [ObeysOrder, hdecision, htwice, Permits]
    split
    · rename_i horder
      exact ⟨fun _ => Or.inl horder, fun _ => Iff.rfl⟩
    · rename_i horder
      constructor
      · intro h
        exact Or.inr fun ⟨hA, hD⟩ => (h.mpr hA).2 hD
      · rintro (h | h)
        · exact absurd h horder
        · exact ⟨fun hc => hc.1, fun hA => ⟨hA, fun hD => h ⟨hA, hD⟩⟩⟩

/-- **Access control**: when `registerListeners` succeeds, every configured listener is filed under
    its address, and its decision for a client is the one its `Order` asks for exactly when that
    order is `allow,deny` or the client is not covered by both lists.  (The constructor
    initialises `allowFirst` from `true` and not from its argument, so a listener configured with
    `deny,allow` still lets its deny list override.) -/
theorem registerListeners_obeysOrder_iff {server server' : ThreadServer Handler} {name : Bytes}
    (h : server.registerListeners fromString testListen = (.ok (), server'))
    (hname : name ∈ server.configuration.listenerNames) :
    ∃ setup listener, ListenerSetup.read fromString server.configuration name = .ok setup ∧
      server'.listenerMap[setup.listenAddress]? = some listener ∧
      ∀ client, ObeysOrder setup listener client ↔
        (setup.order = str "allow,deny" ∨ ¬ CoveredTwice setup client) := by
  obtain ⟨setup, listener, hsetup, hlookup, hfirst, hallowed, hdenied⟩ :=
    ThreadServer.registerListenersFrom_builds h hname
  exact ⟨setup, listener, hsetup, hlookup,
    fun client => obeysOrder_iff_of_allowFirst hfirst hallowed hdenied client⟩

end Correctness

/-! ## A listener that does not obey its `Order` -/

/-- One listener with `Order deny,allow` that allows `10.0.0.0/8` and denies `10.0.0.1`. -/
def denyAllowConfiguration : Configuration where
  handlerNames := [str "http"]
  listenerNames := [str "web"]
  data :=
    [(str "web.Address", str "*:8080"), (str "web.Handler", str "http"),
      (str "web.Order", str "deny,allow"), (str "web.Allow", str "10.0.0.0/8"),
      (str "web.Deny", str "10.0.0.1")].foldl
        (fun data entry => data.insert entry.1 ⟨[entry.2], List.cons_ne_nil _ _⟩) ∅

/-- A server with that configuration and its handler registered. -/
def denyAllowServer : ThreadServer Unit where
  configuration := denyAllowConfiguration
  handlerMap := (∅ : StdMap Bytes Unit).insert (str "http") ()
  listenerMap := ∅

/-- The run of `registerListeners` on it, with a test acceptor that opens. -/
def denyAllowRun : Except Failure Unit × ThreadServer Unit :=
  denyAllowServer.registerListeners LexicalCast.dottedQuad fun _ _ => .ok ()

/-- The run succeeds. -/
theorem denyAllowRun_ok : denyAllowRun = (.ok (), denyAllowRun.2) :=
  Prod.ext (by decide) rfl

/-- What the configuration of that listener reads as. -/
def denyAllowSetup : ListenerSetup where
  listenAddress := str "*:8080"
  handler := str "http"
  order := str "deny,allow"
  allowFirst := false
  allowed := [⟨0x0A000000#32, 0xFF000000#32⟩]
  denied := [⟨0x0A000001#32, 0xFFFFFFFF#32⟩]

/-- **Counterexample**: `10.0.0.1` is allowed and denied, `deny,allow` lets the allow list override,
    and the listener that was built forbids the client all the same. -/
theorem denyAllowServer_disobeys_order :
    denyAllowServer.registerListeners LexicalCast.dottedQuad (fun _ _ => .ok ())
        = (.ok (), denyAllowRun.2) ∧
      str "web" ∈ denyAllowServer.configuration.listenerNames ∧
      ListenerSetup.read LexicalCast.dottedQuad denyAllowServer.configuration (str "web")
        = .ok denyAllowSetup ∧
      ∃ listener, denyAllowRun.2.listenerMap[denyAllowSetup.listenAddress]? = some listener ∧
        ¬ ObeysOrder denyAllowSetup listener (.v4 0x0A000001#32) := by
  refine ⟨denyAllowRun_ok, by decide, rfl, ?_⟩
  have hdecision : (denyAllowRun.2.listenerMap[denyAllowSetup.listenAddress]?.map
      fun l => l.isForbidden (.connected (.v4 0x0A000001#32))) = some (.ok true) := by decide
  obtain ⟨listener, hlookup, hforbidden⟩ := Option.map_eq_some_iff.mp hdecision
  refine ⟨listener, hlookup, fun hobeys => ?_⟩
  have hpermits : Permits denyAllowSetup.order denyAllowSetup.allowed denyAllowSetup.denied
      (.v4 0x0A000001#32) := by decide
  rw [ObeysOrder, hforbidden] at hobeys
  exact absurd (hobeys.mpr hpermits) (by decide)

/-- The access-control theorem at that server: its hypotheses are met. -/
theorem denyAllowServer_obeysOrder_iff :
    ∃ setup listener,
      ListenerSetup.read LexicalCast.dottedQuad denyAllowServer.configuration (str "web")
        = .ok setup ∧
      denyAllowRun.2.listenerMap[setup.listenAddress]? = some listener ∧
      ∀ client, ObeysOrder setup listener client ↔
        (setup.order = str "allow,deny" ∨ ¬ CoveredTwice setup client) :=
  registerListeners_obeysOrder_iff denyAllowRun_ok (by decide)

end ThreadServer
