/-
  `Listener_t` (`listener.cc`): where a listener listens, for which handler, and which clients it
  lets through.

  The access decision is `isForbidden`.  It runs over two lists of networks in the order the
  `allowFirst` field gives; the pass that runs LAST overrides the other one.  Its answer depends on
  the client only through what `remote_endpoint()` says, which it asks twice; a `Socket` here is
  the pair of answers, either of which may be an exception (the peer is gone).

  `Handler` is the type of the handler pointers.
-/
import ThreadServer.Network

namespace ThreadServer

open Bytes

/-- What the socket of an accepted connection answers to the calls of `remote_endpoint()` made by
    `isForbidden`: the first one, and the one made again for an IPv4 client. -/
structure Socket where
  endpoint : Except Exn Address
  endpointAgain : Except Exn Address
  deriving DecidableEq

/-- The socket of a client that stays connected. -/
def Socket.connected (client : Address) : Socket := ⟨.ok client, .ok client⟩

/-- The peer is there each time `isForbidden` asks for it. -/
def Socket.PeerPresent (socket : Socket) : Prop :=
  match socket.endpoint with
  | .error _ => False
  | .ok (.v6 _) => True
  | .ok (.v4 _) => ∃ address, socket.endpointAgain = .ok (.v4 address)

/-- `address.to_v4()`. -/
def Address.toV4 : Address → Except Exn AddressV4
  | .v4 address => .ok address
  | .v6 _ => .error (.std (str "std::bad_cast"))

/-- `Listener_t`, as far as it is configured. -/
structure Listener (Handler : Type) where
  address : Bytes
  ip : Bytes
  port : UInt16
  handlerName : Bytes
  allowFirst : Bool
  allowedNetworks : List Network
  deniedNetworks : List Network
  handler : Option Handler

namespace Listener

variable {Handler : Type}

/-! ## Construction -/

/-- `Listener_t::parseAddress`: `ip:port`, cut at the last colon; `*` is every address. -/
def parseAddress (address : Bytes) : Except Failure (Bytes × UInt16) :=
  match rfind (chr ':') address with
  | none => .error (.throws (.formatted [str "Invalid listen address ", cStr address]))
  | some pos =>
    match LexicalCast.toUnsigned 16 (substrFrom address (pos + 1)) with
    | none => .error (.throws .badLexicalCast)
    | some port =>
      if port = 0 then
        .error (.throws (.formatted [str "Invalid listen address ", cStr address]))
      else
        let ip := substr address 0 pos
        .ok (if ip = str "*" then [] else ip, UInt16.ofNat port)

/-- `Listener_t::Listener_t`.  `testListen` stands for the test acceptor: opening it, binding it to
    the address and closing it, which may throw. -/
def new (testListen : Bytes → UInt16 → Except Failure Unit) (address handlerName : Bytes)
    (_allowFirst : Bool) (allowedNetworks deniedNetworks : List Network) :
    Except Failure (Listener Handler) := do
  let (ip, port) ← parseAddress address
  testListen ip port
  -- the member is initialised from the constant `true`, whatever the argument is
  pure { address, ip, port, handlerName, allowFirst := true, allowedNetworks, deniedNetworks,
         handler := none }

/-- What the constructor puts into the fields the access decision reads. -/
theorem new_eq_ok {testListen : Bytes → UInt16 → Except Failure Unit} {address handlerName : Bytes}
    {allowFirst : Bool} {allowed denied : List Network} {l : Listener Handler}
    (h : new testListen address handlerName allowFirst allowed denied = .ok l) :
    l.address = address ∧ l.handlerName = handlerName ∧ l.allowFirst = true ∧
      l.allowedNetworks = allowed ∧ l.deniedNetworks = denied ∧ l.handler = none := by
  obtain ⟨⟨ip, port⟩, -, h⟩ := bind_eq_ok.mp h
  obtain ⟨-, -, h⟩ := bind_eq_ok.mp h
  obtain rfl := Except.ok.inj h
  exact ⟨rfl, rfl, rfl, rfl, rfl, rfl⟩

/-! ## The access decision -/

/-- `Listener_t::isForbidden(result, value, address, networks)`: `result` becomes `value` if some
    network contains the address. -/
def isForbiddenIn (result value : Bool) (address : AddressV4) : List Network → Bool
  | [] => result
  | network :: networks =>
    if network.contains address then value else isForbiddenIn result value address networks

/-- `Listener_t::isForbidden(socket)`. -/
def isForbidden (listener : Listener Handler) (socket : Socket) : Except Exn Bool := do
  let endpoint ← socket.endpoint
  match endpoint with
  | .v6 _ => pure true
  | .v4 _ =>
    let address ← (← socket.endpointAgain).toV4
    if listener.allowFirst then
      let result := isForbiddenIn true false address listener.allowedNetworks
      pure (isForbiddenIn result true address listener.deniedNetworks)
    else
      let result := isForbiddenIn true true address listener.deniedNetworks
      pure (isForbiddenIn result false address listener.allowedNetworks)

/-- Some network of the list contains the address. -/
def Covers (networks : List Network) (address : AddressV4) : Prop :=
  ∃ network ∈ networks, network.contains address = true

instance (networks : List Network) (address : AddressV4) : Decidable (Covers networks address) :=
  inferInstanceAs (Decidable (∃ network ∈ networks, network.contains address = true))

/-- One pass over a list of networks: only whether the list covers the address matters. -/
theorem isForbiddenIn_eq (result value : Bool) (address : AddressV4) (networks : List Network) :
    isForbiddenIn result value address networks
      = if Covers networks address then value else result := by
  induction networks with
  | nil => rw [if_neg (by rintro ⟨n, hn, -⟩; exact absurd hn List.not_mem_nil), isForbiddenIn]
  | cons network networks ih =>
    rw [isForbiddenIn]
    by_cases hc : network.contains address = true
    · rw [if_pos hc, if_pos ⟨network, List.mem_cons_self, hc⟩]
    · rw [if_neg hc, ih]
      have hiff : Covers (network :: networks) address ↔ Covers networks address := by
        constructor
        · rintro ⟨n, hn, hcn⟩
          rcases List.mem_cons.mp hn with rfl | hn
          · exact absurd hcn hc
          · exact ⟨n, hn, hcn⟩
        · rintro ⟨n, hn, hcn⟩
          exact ⟨n, List.mem_cons_of_mem _ hn, hcn⟩
      simp only [hiff]

/-- `isForbidden` comes to a decision exactly if the peer is there whenever it is asked for. -/
theorem isForbidden_eq_ok_iff (listener : Listener Handler) (socket : Socket) :
    (∃ forbidden, listener.isForbidden socket = .ok forbidden) ↔ socket.PeerPresent := by
  obtain ⟨endpoint, endpointAgain⟩ := socket
  constructor
  · rintro ⟨forbidden, h⟩
    obtain ⟨address, rfl, h⟩ := bind_eq_ok.mp h
    cases address with
    | v6 address => trivial
    | v4 address =>
      obtain ⟨again, hagain, h⟩ := bind_eq_ok.mp h
      obtain ⟨address', hv4, -⟩ := bind_eq_ok.mp h
      cases again with
      | v4 a => exact ⟨a, hagain⟩
      | v6 a => exact nomatch hv4
  · intro h
    cases endpoint with
    | error e => exact h.elim
    | ok address =>
      cases address with
      | v6 address => exact ⟨true, rfl⟩
      | v4 address =>
        obtain ⟨a, rfl⟩ := h
        cases hfirst : listener.allowFirst with
        | true => exact ⟨_, if_pos hfirst⟩
        | false => exact ⟨_, if_neg (by rw [hfirst]; exact Bool.false_ne_true)⟩

/-- A client that is not on IPv4 is forbidden. -/
theorem isForbidden_connected_v6 (listener : Listener Handler) (address : BitVec 128) :
    listener.isForbidden (.connected (.v6 address)) = .ok true := rfl

/-- **The decision for a connected IPv4 client**, in terms of the two covers: the deny list
    overrides when the allow list is looked at first, and has no influence otherwise. -/
theorem isForbidden_connected_v4 (listener : Listener Handler) (address : AddressV4) :
    listener.isForbidden (.connected (.v4 address)) = .ok (decide
      (¬ Covers listener.allowedNetworks address ∨
        (listener.allowFirst = true ∧ Covers listener.deniedNetworks address))) := by
  show (if listener.allowFirst then _ else _ : Except Exn Bool) = _
  simp only [isForbiddenIn_eq]
  by_cases hA : Covers listener.allowedNetworks address <;>
    by_cases hD : Covers listener.deniedNetworks address <;>
    cases listener.allowFirst <;> simp [hA, hD] <;> rfl

/-! ## Two listeners compared -/

/-- The decision about an IPv4 address, whoever asks. -/
def forbids (listener : Listener Handler) (address : AddressV4) : Bool :=
  decide (¬ Covers listener.allowedNetworks address ∨
    (listener.allowFirst = true ∧ Covers listener.deniedNetworks address))

/-- **`isForbidden` is the decision about the address of the second answer**, if the first one is an
    IPv4 address too. -/
theorem isForbidden_eq (listener : Listener Handler) (socket : Socket) :
    listener.isForbidden socket = (do
      match ← socket.endpoint with
      | .v6 _ => pure true
      | .v4 _ => pure (listener.forbids (← (← socket.endpointAgain).toV4))) := by
  have hdecision : ∀ address, (if listener.allowFirst then
      pure (isForbiddenIn (isForbiddenIn true false address listener.allowedNetworks) true address
        listener.deniedNetworks)
      else pure (isForbiddenIn (isForbiddenIn true true address listener.deniedNetworks) false
        address listener.allowedNetworks) : Except Exn Bool)
      = pure (listener.forbids address) := by
    intro address
    exact isForbidden_connected_v4 listener address
  unfold isForbidden
  simp only [hdecision]

/-- A client is permitted if it is asked for an IPv4 address twice, and the second one is not
    forbidden. -/
theorem isForbidden_eq_false_iff {listener : Listener Handler} {socket : Socket} :
    listener.isForbidden socket = .ok false ↔
      ∃ first address, socket.endpoint = .ok (.v4 first) ∧
        socket.endpointAgain = .ok (.v4 address) ∧ listener.forbids address = false := by
  rw [isForbidden_eq]
  obtain ⟨endpoint, endpointAgain⟩ := socket
  constructor
  · intro h
    obtain ⟨first, rfl, h⟩ := bind_eq_ok.mp h
    cases first with
    | v6 first => cases h
    | v4 first =>
      obtain ⟨again, rfl, h⟩ := bind_eq_ok.mp h
      cases again with
      | v6 again => exact nomatch h
      | v4 again => exact ⟨first, again, rfl, rfl, Except.ok.inj h⟩
  · rintro ⟨first, address, rfl, rfl, h⟩
    exact congrArg Except.ok h

theorem forbids_eq_false_iff {listener : Listener Handler} {address : AddressV4} :
    listener.forbids address = false ↔
      Covers listener.allowedNetworks address ∧
        (listener.allowFirst = true → ¬ Covers listener.deniedNetworks address) := by
  rw [forbids, decide_eq_false_iff_not, not_or, not_not, not_and]

/-- More allowed and less denied: what was permitted stays permitted. -/
theorem forbids_mono {l₁ l₂ : Listener Handler} (hfirst : l₁.allowFirst = l₂.allowFirst)
    (hallowed : ∀ address, Covers l₁.allowedNetworks address → Covers l₂.allowedNetworks address)
    (hdenied : ∀ address, Covers l₂.deniedNetworks address → Covers l₁.deniedNetworks address)
    {address : AddressV4} (h : l₁.forbids address = false) : l₂.forbids address = false := by
  obtain ⟨hcovers, hfree⟩ := forbids_eq_false_iff.mp h
  refine forbids_eq_false_iff.mpr ⟨hallowed address hcovers, fun hallowFirst hdeny => ?_⟩
  exact hfree (hfirst.trans hallowFirst) (hdenied address hdeny)

/-- **The decision is monotone in what the lists cover.**  Of two listeners that look at their lists
    in the same order, one that allows more and denies less permits whom the other permits; so only
    what the lists cover matters; and whoever is permitted has an address that is allowed. -/
theorem isForbidden_mono :
    (∀ l₁ l₂ : Listener Handler, l₁.allowFirst = l₂.allowFirst →
      (∀ address, Covers l₁.allowedNetworks address → Covers l₂.allowedNetworks address) →
      (∀ address, Covers l₂.deniedNetworks address → Covers l₁.deniedNetworks address) →
      ∀ socket, l₁.isForbidden socket = .ok false → l₂.isForbidden socket = .ok false) ∧
    (∀ l₁ l₂ : Listener Handler, l₁.allowFirst = l₂.allowFirst →
      (∀ address, Covers l₁.allowedNetworks address ↔ Covers l₂.allowedNetworks address) →
      (∀ address, Covers l₁.deniedNetworks address ↔ Covers l₂.deniedNetworks address) →
      ∀ socket, l₁.isForbidden socket = l₂.isForbidden socket) ∧
    ∀ (listener : Listener Handler) (socket : Socket), listener.isForbidden socket = .ok false →
      ∃ address, socket.endpointAgain = .ok (.v4 address) ∧
        Covers listener.allowedNetworks address := by
  refine ⟨?_, ?_, ?_⟩
  · intro l₁ l₂ hfirst hallowed hdenied socket h
    obtain ⟨first, address, hendpoint, hagain, hpermits⟩ := isForbidden_eq_false_iff.mp h
    have hpermits' := forbids_mono hfirst hallowed hdenied hpermits
    exact isForbidden_eq_false_iff.mpr ⟨first, address, hendpoint, hagain, hpermits'⟩
  · intro l₁ l₂ hfirst hallowed hdenied socket
    have hforbids : l₁.forbids = l₂.forbids := by
      funext address
      simp only [forbids, hfirst, hallowed, hdenied]
    rw [isForbidden_eq, isForbidden_eq, hforbids]
  · intro listener socket h
    obtain ⟨first, address, -, hagain, hpermits⟩ := isForbidden_eq_false_iff.mp h
    exact ⟨address, hagain, (forbids_eq_false_iff.mp hpermits).1⟩

/-- `10.0.0.0/9` without `10.1.2.0/24`. -/
def halfListener : Listener Unit where
  address := str "*:80"
  ip := []
  port := 80
  handlerName := str "http"
  allowFirst := true
  allowedNetworks := [⟨0x0A000000#32, 0xFF800000#32⟩]
  deniedNetworks := [⟨0x0A010200#32, 0xFFFFFF00#32⟩]
  handler := none

/-- `10.0.0.0/8` in two halves, with nothing denied. -/
def wholeListener : Listener Unit :=
  { halfListener with
    allowedNetworks := [⟨0x0A800000#32, 0xFF800000#32⟩, ⟨0x0A000000#32, 0xFF800000#32⟩]
    deniedNetworks := [] }

/-- What the first of the two permits, the second permits. -/
theorem wholeListener_permits : ∀ socket,
    halfListener.isForbidden socket = .ok false → wholeListener.isForbidden socket = .ok false := by
  refine isForbidden_mono.1 halfListener wholeListener rfl ?_ ?_
  · rintro address ⟨network, hnetwork, hcontains⟩
    exact ⟨network, List.mem_cons_of_mem _ hnetwork, hcontains⟩
  · rintro address ⟨network, hnetwork, -⟩
    cases hnetwork

end Listener

end ThreadServer
