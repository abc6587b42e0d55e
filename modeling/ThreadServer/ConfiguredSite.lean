/-
  From the configuration file to the threads: the server that the constructor has built is the one
  that runs, and what its file says holds of every connection it serves.

  1. **The server that runs** (`Server.site`) — its listeners and handlers are those of the two
     maps, each handler has the workers that the file asks for, and each listener points to a
     handler of the server (`Ready`); so an accepted connection always has somewhere to go.
  2. **Specification** (`ByTheFile`) — the one section of the file that a connection has come in by,
     the section of the handler that serves it, and the decision about the client in terms of the
     texts under `Allow` and `Deny`.
  3. **Result** (`file_obeyed`) — so it is in every state of every run, in any interleaving
     and whatever the handlers are.  `Order` has no say in it.
-/
import ThreadServer.Serving
import ThreadServer.Startup

set_option linter.dupNamespace false

namespace ThreadServer

open Bytes Transition

/-! ## The server that runs -/

namespace Server

/-- Every listener points to a handler of the server. -/
def Ready (server : Server) : Prop :=
  ∀ (address : Bytes) (listener : Listener LoadedHandler),
    server.threadServer.listenerMap[address]? = some listener →
    ∃ handler ∈ server.handlers, listener.handler = some handler

/-- The address of one of its listeners. -/
abbrev Address (server : Server) := { address : Bytes // address ∈ server.addresses }

variable (server : Server)

def listener (id : server.Address) : Listener LoadedHandler :=
  server.threadServer.listenerMap.get id.1 (Std.ExtTreeMap.mem_keys.mp id.2)

theorem getElem?_listener (id : server.Address) :
    server.threadServer.listenerMap[id.1]? = some (server.listener id) :=
  Std.ExtTreeMap.getElem?_eq_some_getElem _

variable (hready : server.Ready)

def handlerOf (id : server.Address) : LoadedHandler :=
  (server.listener id).handler.get (by
    obtain ⟨handler, -, hhandler⟩ := hready _ _ (server.getElem?_listener id)
    rw [hhandler]
    rfl)

theorem handler_listener (id : server.Address) :
    (server.listener id).handler = some (server.handlerOf hready id) := (Option.some_get _).symm

/-- What `ThreadServer_t::run` and `stop` go through. -/
def setup : Setup server.Address LoadedHandler where
  listeners := server.addresses.attach
  listeners_nodup := List.nodup_attach.mpr Std.ExtTreeMap.nodup_keys
  handlers := server.handlers
  listener := server.listener
  handlerOf := server.handlerOf hready
  handler_eq id _ := server.handler_listener hready id
  handlerOf_mem id _ := by
    obtain ⟨handler, hmem, hhandler⟩ := hready _ _ (server.getElem?_listener id)
    rw [server.handler_listener hready] at hhandler
    rwa [Option.some.inj hhandler]

variable {Header Regex : Type}

/-- The server with the code of its handlers and with all that its clients may do. -/
def site (code : LoadedHandler → HandlerCode) (Client : LoadedHandler → Type)
    (worker : (handler : LoadedHandler) → Client handler → HandlerWorker Header Regex)
    (handleEnds : (handler : LoadedHandler) → Client handler → Bool)
    (codeEnds : (handler : LoadedHandler) → (code handler).Behaviour → Bool)
    (moduleReturns : LoadedHandler → Bool)
    (behaves : ∀ handler, Nonempty (code handler).Behaviour ∧ Nonempty (Client handler)) :
    Site server.Address LoadedHandler Header Regex where
  toSetup := server.setup hready
  workerCount handler := handler.workerCount
  code
  Client
  worker
  handleEnds
  codeEnds
  moduleReturns
  behaves

end Server

/-! ## The specification -/

section

variable (fromString : Bytes → Option AddressV4) (entries : List (Bytes × Bytes))

/-- One of the texts that the file gives a key is a network that contains the address. -/
def Lists (key : Bytes) (address : AddressV4) : Prop :=
  ∃ text ∈ Configuration.valuesOf key entries, ∃ network,
    Network.parse fromString text = .ok network ∧ network.contains address = true

/-- The listener of this name lets the client in: an IPv4 client whose address is listed under
    `Allow` and not under `Deny`. -/
def Admits (name : Bytes) (socket : Socket) : Prop :=
  ∃ first address, socket.endpoint = .ok (.v4 first) ∧
    socket.endpointAgain = .ok (.v4 address) ∧
    Lists fromString entries (name ++ str ".Allow") address ∧
    ¬ Lists fromString entries (name ++ str ".Deny") address

variable (configuration : Configuration) {server : Server}

/-- **The section that a connection has come in by**, and no other has its address. -/
structure EntersBy (x : Session server.Address LoadedHandler) (name : Bytes) : Prop where
  named : name ∈ configuration.listenerNames
  address : (Configuration.valuesOf (name ++ str ".Address") entries).head? =
    some x.connection.listener.1
  only : ∀ other ∈ configuration.listenerNames,
    (Configuration.valuesOf (other ++ str ".Address") entries).head? =
      some x.connection.listener.1 → other = name
  handler : (Configuration.valuesOf (name ++ str ".Handler") entries).head? = some x.handler.name
  decision : x.connection.forbidden = false ↔
    Admits fromString entries name x.connection.socket

/-- **What the file says of a session.** -/
structure ByTheFile {Header Regex : Type} (loader : Loader)
    (site : Site server.Address LoadedHandler Header Regex)
    (x : Session server.Address LoadedHandler) : Prop where
  entered : ∃ name, EntersBy fromString entries configuration x name
  handler : x.handler.name ∈ configuration.handlerNames ∧
    DescribesHandler loader configuration x.handler.name x.handler
  /-- Only whom the file lets in gets something out of an HTTP or FRPC handler. -/
  served : SiteState.Checks site x.handler → (∃ e ∈ x.events, e.serves = true) →
    x.connection.forbidden = false

/-- All sessions are by the file. -/
def SiteState.ObeysFile {Header Regex : Type} (loader : Loader)
    {site : Site server.Address LoadedHandler Header Regex} (s : SiteState site) : Prop :=
  ∀ x ∈ s.sessions, ByTheFile fromString entries configuration loader site x

end

/-! ## What the constructor leaves -/

section

variable {α β γ : Type} {R : α → β → Prop} {l : List α} {r : List β}

theorem exists_right_of_forall₂ (h : List.Forall₂ R l r) {a : α} (ha : a ∈ l) :
    ∃ b ∈ r, R a b := by
  induction h with
  | nil => exact nomatch ha
  | @cons a' b l r hab _ ih =>
    rcases List.mem_cons.mp ha with rfl | ha
    · exact ⟨b, List.mem_cons_self, hab⟩
    · obtain ⟨b, hb, hab⟩ := ih ha
      exact ⟨b, List.mem_cons_of_mem _ hb, hab⟩

/-- Where everything on the right has a key of its own, what is on the left goes by it too. -/
theorem exists_left_of_forall₂ (h : List.Forall₂ R l r) {f : β → γ} {k : α → γ → Prop}
    (hkey : ∀ {a b c}, R a b → k a c → f b = c) (hnodup : (r.map f).Nodup) {b : β}
    (hb : b ∈ r) : ∃ a ∈ l, R a b ∧ ∀ a' ∈ l, k a' (f b) → a' = a := by
  induction h with
  | nil => exact nomatch hb
  | @cons a b' l r hab hall ih =>
    obtain ⟨hnew, hnodup⟩ := List.nodup_cons.mp hnodup
    rcases List.mem_cons.mp hb with rfl | hb
    · refine ⟨a, List.mem_cons_self, hab, fun a' ha' hkey' => ?_⟩
      rcases List.mem_cons.mp ha' with rfl | ha'
      · rfl
      · obtain ⟨b', hb', hab'⟩ := exists_right_of_forall₂ hall ha'
        exact absurd (List.mem_map.mpr ⟨b', hb', hkey hab' hkey'⟩) hnew
    · obtain ⟨a₀, ha₀, hab₀, honly⟩ := ih hnodup hb
      refine ⟨a₀, List.mem_cons_of_mem _ ha₀, hab₀, fun a' ha' hkey' => ?_⟩
      rcases List.mem_cons.mp ha' with rfl | ha'
      · exact absurd (List.mem_map.mpr ⟨b, hb, (hkey hab hkey').symm⟩) hnew
      · exact honly a' ha' hkey'

end

variable {loader : Loader} {fromString : Bytes → Option AddressV4}
  {testListen : Bytes → UInt16 → Except Failure Unit} {configuration : Configuration}
  {entries : List (Bytes × Bytes)} {plan : Plan} {server : Server}

/-- A handler of the plan is in the map. -/
theorem Plan.Makes.mem_handlers (hmakes : plan.Makes configuration server)
    (hnames : (plan.handlers.map (·.name)).Nodup) {handler : LoadedHandler}
    (h : handler ∈ plan.handlers) : handler ∈ server.handlers := by
  refine List.mem_map.mpr ⟨(handler.name, handler), ?_, rfl⟩
  rw [Std.ExtTreeMap.mem_toList_iff_getElem?_eq_some, hmakes.handlerMap]
  exact find?_of_nodup hnames h

/-- What is in the map is a listener of the plan. -/
theorem Plan.Makes.mem_listeners (hmakes : plan.Makes configuration server) {address : Bytes}
    {listener : Listener LoadedHandler}
    (h : server.threadServer.listenerMap[address]? = some listener) :
    listener ∈ plan.listeners ∧ listener.address = address := by
  rw [hmakes.listenerMap] at h
  exact ⟨List.mem_of_find?_eq_some h, by simpa using List.find?_some h⟩

/-- **A server that has been constructed is ready.** -/
theorem Plan.Follows.ready (hfollows : plan.Follows fromString testListen loader configuration)
    (hmakes : plan.Makes configuration server) : server.Ready := by
  intro address listener hlistener
  obtain ⟨handler, hmem, -, hhandler⟩ :=
    hfollows.served listener (hmakes.mem_listeners hlistener).1
  exact ⟨handler, hmakes.mem_handlers hfollows.names hmem, hhandler⟩

/-- Networks that have been parsed cover what their texts list. -/
theorem covers_iff_lists {key : Bytes} {networks : List Network} {address : AddressV4}
    (h : List.Forall₂ (fun text network => Network.parse fromString text = .ok network)
      (Configuration.valuesOf key entries) networks) :
    Listener.Covers networks address ↔ Lists fromString entries key address := by
  constructor
  · rintro ⟨network, hmem, hcontains⟩
    obtain ⟨text, htext, hparse⟩ := exists_right_of_forall₂ h.flip hmem
    exact ⟨text, htext, network, hparse, hcontains⟩
  · rintro ⟨text, htext, network, hparse, hcontains⟩
    obtain ⟨network', hmem, hparse'⟩ := exists_right_of_forall₂ h htext
    obtain rfl := Except.ok.inj (hparse'.symm.trans hparse)
    exact ⟨network', hmem, hcontains⟩

/-! ## The result -/

theorem DescribesListener.says {name : Bytes} {listener : Listener LoadedHandler}
    (h : DescribesListener fromString testListen configuration name listener) :
    configuration.Says (name ++ str ".Address") listener.address ∧
      configuration.Says (name ++ str ".Handler") listener.handlerName := by
  obtain ⟨haddress, -, -, hhandler⟩ := h
  exact ⟨haddress, hhandler⟩

theorem DescribesHandler.name_eq {name : Bytes} {handler : LoadedHandler}
    (h : DescribesHandler loader configuration name handler) : handler.name = name := by
  cases h
  rfl

/-- The section of a listener that has been constructed. -/
theorem Plan.Follows.exists_section
    (hfollows : plan.Follows fromString testListen loader configuration)
    (hfile : configuration.data = Configuration.readFile entries)
    {listener : Listener LoadedHandler} (hmem : listener ∈ plan.listeners) :
    ∃ name ∈ configuration.listenerNames,
      DescribesListener fromString testListen configuration name listener ∧
      ∀ other ∈ configuration.listenerNames,
        (Configuration.valuesOf (other ++ str ".Address") entries).head? = some listener.address →
          other = name := by
  refine exists_left_of_forall₂ hfollows.listeners (f := (·.address))
    (k := fun name address =>
      (Configuration.valuesOf (name ++ str ".Address") entries).head? = some address)
    (fun hdescribes haddress => ?_) hfollows.addresses hmem
  have hhead := (Configuration.says_readFile hfile).mp hdescribes.says.1
  exact Option.some.inj (hhead.symm.trans haddress)

/-- The decision of a listener, in the words of its section. -/
theorem DescribesListener.isForbidden_eq_false_iff
    (hfile : configuration.data = Configuration.readFile entries) {name : Bytes}
    {listener : Listener LoadedHandler}
    (h : DescribesListener fromString testListen configuration name listener) {socket : Socket} :
    listener.isForbidden socket = .ok false ↔ Admits fromString entries name socket := by
  obtain ⟨-, -, -, -, -, -, hallowed, hdenied⟩ := h
  rw [Configuration.getVector_readFile hfile] at hallowed hdenied
  rw [Listener.isForbidden_eq_false_iff]
  refine exists_congr fun first => exists_congr fun address => ?_
  rw [Listener.forbids_eq_false_iff, covers_iff_lists hallowed, covers_iff_lists hdenied]
  exact and_congr_right fun _ => and_congr_right fun _ => and_congr_right fun _ =>
    ⟨fun h => h rfl, fun h _ => h⟩

variable {Header Regex : Type} {code : LoadedHandler → HandlerCode} {Client : LoadedHandler → Type}
  {worker : (handler : LoadedHandler) → Client handler → HandlerWorker Header Regex}
  {handleEnds : (handler : LoadedHandler) → Client handler → Bool}
  {codeEnds : (handler : LoadedHandler) → (code handler).Behaviour → Bool}
  {moduleReturns : LoadedHandler → Bool}
  {behaves : ∀ handler, Nonempty (code handler).Behaviour ∧ Nonempty (Client handler)}

/-- **In every state of the whole server**, the sessions are by the file. -/
theorem SiteState.Linked.obeysFile
    (hfollows : plan.Follows fromString testListen loader configuration)
    (hmakes : plan.Makes configuration server)
    (hfile : configuration.data = Configuration.readFile entries) {hready : server.Ready}
    {s : SiteState (server.site hready code Client worker handleEnds codeEnds moduleReturns
      behaves)} (h : s.Linked) :
    s.ObeysFile fromString entries configuration loader := by
  intro x hx
  obtain ⟨hticket, hdecision⟩ := h.served.own x hx
  -- The connection is one of those accepted for the handler.
  have hlink : server.handlerOf hready x.connection.listener = x.handler :=
    of_decide_eq_true (List.mem_filter.mp (List.mem_of_getElem? hticket)).2
  obtain ⟨hmem, haddress⟩ := hmakes.mem_listeners (server.getElem?_listener x.connection.listener)
  obtain ⟨name, hname, hdescribes, honly⟩ := hfollows.exists_section hfile hmem
  obtain ⟨handler, hhandler, hhandlerName, hpoints⟩ := hfollows.served _ hmem
  obtain rfl : handler = x.handler := by
    rw [server.handler_listener hready, hlink] at hpoints
    exact (Option.some.inj hpoints).symm
  obtain ⟨handlerName, hhandlerNamed, hdescribesHandler⟩ :=
    exists_right_of_forall₂ hfollows.handlers.flip hhandler
  obtain rfl := hdescribesHandler.name_eq
  have hforbidden : x.connection.forbidden = false ↔
      Admits fromString entries name x.connection.socket := by
    replace hdecision : (server.listener x.connection.listener).isForbidden x.connection.socket =
        .ok x.connection.forbidden := hdecision
    rw [← hdescribes.isForbidden_eq_false_iff hfile, hdecision]
    exact ⟨congrArg Except.ok, Except.ok.inj⟩
  refine ⟨⟨name, hname, ?_, ?_, ?_, hforbidden⟩, ⟨hhandlerNamed, hdescribesHandler⟩, ?_⟩
  · rw [← haddress]
    exact (Configuration.says_readFile hfile).mp hdescribes.says.1
  · rwa [haddress] at honly
  · rw [hhandlerName]
    exact (Configuration.says_readFile hfile).mp hdescribes.says.2
  · rintro hchecks ⟨e, he, hserves⟩
    by_contra hrefused
    have hquiet := h.refused x hx hchecks (Bool.not_eq_false _ |>.mp hrefused) e he
    cases hquiet.symm.trans hserves

/-- **The file is obeyed.**  A server that has been constructed is ready to run; and in every state
    of every run of it, in any interleaving and whatever code its handlers have, each session is by
    the file. -/
theorem file_obeyed (hfile : configuration.data = Configuration.readFile entries)
    (hconstruct : Server.construct loader fromString testListen configuration = .ok server) :
    ∃ hready : server.Ready, ∀ (Header Regex : Type) (code : LoadedHandler → HandlerCode)
      (Client : LoadedHandler → Type)
      (worker : (handler : LoadedHandler) → Client handler → HandlerWorker Header Regex)
      (handleEnds : (handler : LoadedHandler) → Client handler → Bool)
      (codeEnds : (handler : LoadedHandler) → (code handler).Behaviour → Bool)
      (moduleReturns : LoadedHandler → Bool)
      (behaves : ∀ handler, Nonempty (code handler).Behaviour ∧ Nonempty (Client handler))
      (labels : List (SiteLabel (server.site hready code Client worker handleEnds codeEnds
        moduleReturns behaves))),
      Throughout (SiteState.next (server.site hready code Client worker handleEnds codeEnds
        moduleReturns behaves))
        (SiteState.ObeysFile fromString entries configuration loader) (SiteState.start _)
        labels := by
  obtain ⟨plan, hfollows, hmakes⟩ := exists_plan_of_construct hconstruct
  refine ⟨hfollows.ready hmakes, ?_⟩
  intro Header Regex code Client worker handleEnds codeEnds moduleReturns behaves labels
  exact throughout_of_step
    (fun s (h : SiteState.Linked s) => h.obeysFile hfollows hmakes hfile)
    (fun _ _ _ h hnext => h.next hnext) labels (SiteState.linked_start _)

/-! ## A file -/

/-- A private network without one of its parts. -/
def intranetEntries : List (Bytes × Bytes) :=
  [(str "http.Handler", str "libcpphttp.so:cpphttphandler"), (str "http.WorkerCount", str "2"),
    (str "web.Address", str "*:8080"), (str "web.Handler", str "http"),
    (str "web.Order", str "deny,allow"), (str "web.Allow", str "10.0.0.0/8"),
    (str "web.Deny", str "10.1.0.0/16")]

def intranet : Configuration where
  handlerNames := [str "http"]
  listenerNames := [str "web"]
  data := Configuration.readFile intranetEntries

theorem intranet_construct :
    ∃ server, Server.construct Server.webLoader LexicalCast.dottedQuad (fun _ _ => .ok ()) intranet
      = .ok server := by
  have hok : (Server.construct Server.webLoader LexicalCast.dottedQuad (fun _ _ => .ok ())
      intranet).isOk = true := by decide
  cases hserver : Server.construct Server.webLoader LexicalCast.dottedQuad (fun _ _ => .ok ())
      intranet with
  | error e =>
    rw [hserver] at hok
    cases hok
  | ok server => exact ⟨server, rfl⟩

/-- A server for it, with a method that redirects everybody who is let in. -/
def intranetSite (server : Server) (hready : server.Ready) :
    Site server.Address LoadedHandler Unit Bytes :=
  server.site hready (fun _ => dummyCode (str "http")) (fun _ => Unit)
    (fun _ _ => .cppHttp Worker.redirectWorker Worker.redirectIo) (fun _ _ => true)
    (fun _ _ => true) (fun _ => true) fun _ => ⟨⟨()⟩, ⟨()⟩⟩

theorem intranet_obeyed :
    ∃ server, ∃ hready : server.Ready,
      Server.construct Server.webLoader LexicalCast.dottedQuad (fun _ _ => .ok ()) intranet
        = .ok server ∧
      ∀ labels, Throughout (SiteState.next (intranetSite server hready))
        (SiteState.ObeysFile LexicalCast.dottedQuad intranetEntries intranet Server.webLoader)
        (SiteState.start _) labels := by
  obtain ⟨server, hserver⟩ := intranet_construct
  obtain ⟨hready, hobeyed⟩ := file_obeyed
    (show intranet.data = Configuration.readFile intranetEntries from rfl) hserver
  exact ⟨server, hready, hserver, fun labels => hobeyed _ _ _ _ _ _ _ _ _ labels⟩

end ThreadServer
