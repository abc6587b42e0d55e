/-
  A reply in JSON: what a method of a `JsonMethod_t` or a `JsonMethod2_t` builds in its pool, and
  what the client reads.

  1. **The result** (`PoolValue`) — a reference into the pool, after any calls, whose conversion
     returns.  That is so for every reference from which no container is reached that contains
     itself (`exists_poolValue_iff`); with any other one the thread would run out of stack.
  2. **The wrappers** (`Builds`) — both make a pool, call their handler, and convert what this one
     refers to while the pool is still there.
  3. **The exchange** (`pool_exchange`) — the body of the reply is the text of the one tree that the
     calls have built, each container with everything appended to it, early or late; and if no
     `double` is in it, it reads back as that tree.
-/
import ThreadServer.HttpWorker
import ThreadServer.JsonPool
import ThreadServer.JsonRoundTrip

namespace ThreadServer

open Bytes JSON Rfc8259

variable {Header Regex J Double : Type}

/-! ## What a method returns -/

/-- A value of a method's pool, which the wrapper can convert. -/
structure PoolValue (printDouble : Double → Bytes) where
  calls : List (Call Double)
  pool : Pool Double
  built : Transition.exec step Pool.empty calls = some pool
  value : Ref
  inside : value.In pool.values.length
  text : Bytes
  converted : Recursion.Returns (pool.convert printDouble) value text

variable {printDouble : Double → Bytes}

/-- **Every value that does not contain itself** can be returned, and no other. -/
theorem exists_poolValue_iff {calls : List (Call Double)} {pool : Pool Double}
    (hbuilt : Transition.exec step Pool.empty calls = some pool) {v : Ref}
    (hv : v.In pool.values.length) :
    (∃ r : PoolValue printDouble, r.calls = calls ∧ r.value = v) ↔
      ∀ u, Relation.ReflTransGen (Recursion.Calls pool.members) v u →
        ¬ Relation.TransGen (Recursion.Calls pool.members) u u := by
  rw [← Recursion.terminates_iff_acyclic (pool.callsOnly_convert printDouble)
    (fun u hu => in_of_reaches hv hu) (finite_reached hv)]
  constructor
  · rintro ⟨⟨_, pool', hbuilt', _, _, text, hconverted⟩, rfl, rfl⟩
    obtain rfl := Option.some.inj (hbuilt.symm.trans hbuilt')
    exact ⟨text, hconverted⟩
  · rintro ⟨text, hconverted⟩
    exact ⟨⟨calls, pool, hbuilt, v, hv, text, hconverted⟩, rfl, rfl⟩

/-- The text is that of the tree that the calls have built. -/
theorem PoolValue.exists_tree (r : PoolValue printDouble) :
    ∃ tree, Unfolds (finalDeref r.calls) r.value tree ∧ tree.toStdString printDouble = r.text := by
  rw [← funext (deref_exec r.built)]
  exact (returns_iff r.inside).mp r.converted

/-- There is one. -/
theorem PoolValue.tree_unique (r : PoolValue printDouble) {tree tree' : JSON.Tree Double}
    (h : Unfolds (finalDeref r.calls) r.value tree)
    (h' : Unfolds (finalDeref r.calls) r.value tree') : tree' = tree := by
  rw [← funext (deref_exec r.built)] at h h'
  exact h'.det h

/-! ## The wrappers -/

/-- The wrappers, for methods that return values of their pools. -/
def poolEnv (mimetic : Mimetic) (parseJson : Bytes → Option J) (message : Int → Bytes) :
    WrapperEnv (PoolValue printDouble) J where
  mimetic
  convert := PoolValue.text
  parseJson
  message

namespace Wrapper

/-- The handler of a `JsonMethod_t` or a `JsonMethod2_t` returns `r` and leaves `left`. -/
inductive Builds (env : WrapperEnv (PoolValue printDouble) J) (request : Request Header)
    (response : Response Header) (r : PoolValue printDouble) (left : Response Header) :
    Wrapper Header (PoolValue printDouble) J → Prop
  | jsonMethod {handler} :
      handler request { response with contentType := jsonContentType } (JsonMethod.params request)
        = (.ok r, left) →
      Builds env request response r left (.jsonMethod handler)
  | jsonMethod2 {handler} :
      handler request { response with contentType := jsonContentType }
        (JsonMethod2.params env.mimetic request) = (.ok r, left) →
      Builds env request response r left (.jsonMethod2 handler)

theorem Builds.call {mimetic : Mimetic} {parseJson : Bytes → Option J} {message : Int → Bytes}
    {request : Request Header} {response left : Response Header} {r : PoolValue printDouble}
    {wrapper : Wrapper Header (PoolValue printDouble) J}
    (h : wrapper.Builds (poolEnv mimetic parseJson message) request response r left) :
    wrapper.call (poolEnv mimetic parseJson message) request response =
      (.ok (), { left with data := r.text }) := by
  cases h with
  | jsonMethod hhandler =>
    show JsonMethod.call PoolValue.text _ _ _ = _
    simp only [JsonMethod.call, hhandler]
    rfl
  | jsonMethod2 hhandler =>
    show JsonMethod2.call mimetic PoolValue.text _ _ _ = _
    replace hhandler : _ = (Except.ok r, left) := hhandler
    simp only [poolEnv] at hhandler
    simp only [JsonMethod2.call, hhandler]
    rfl

end Wrapper

/-! ## The exchange -/

namespace Worker

/-- **The exchange.**  A method of one of the two kinds is called and returns a value of its pool,
    from which no container is reached that contains itself: the reply is what it left of the
    response, with the text of the one tree that its calls have built; and a tree without a `double`
    can be read back from there. -/
theorem pool_exchange (w : Worker Header Regex) {io : HttpIo Header} {socket : SocketWork}
    (hforbidden : socket.forbidden = false) (hsend : ∀ sends data, io.sendData sends data = .ok ())
    (s : WorkerState) {mimetic : Mimetic} {parseJson : Bytes → Option J} {message : Int → Bytes}
    {wrapper : Wrapper Header (PoolValue printDouble) J} {request : Request Header}
    {left : Response Header} {r : PoolValue printDouble} {index : Nat} {groups : List Bytes}
    (hread : w.ReadsRequest io request)
    (hfirst : w.FirstMatch request.uri index (wrapper.call (poolEnv mimetic parseJson message))
      groups)
    (hbuilds : wrapper.Builds (poolEnv mimetic parseJson message)
      { request with matchGroups := groups } (w.initialResponse request) r left) :
    ∃ tree, Unfolds (finalDeref r.calls) r.value tree ∧
      (∀ tree', Unfolds (finalDeref r.calls) r.value tree' → tree' = tree) ∧
      (∀ v : Value, tree = v.toTree →
        read uncontrolled (tree.toStdString printDouble) = some (v.toJson, [])) ∧
      w.handle io socket s = (.ok (), ⟨none, s.events ++ (.call index (some socket) :: w.reply
        { left with
          data := tree.toStdString printDouble
          headers := w.http.set left.headers (str "Content-Type") left.contentType })⟩) := by
  obtain ⟨tree, hunfolds, htext⟩ := r.exists_tree
  refine ⟨tree, hunfolds, fun tree' h => r.tree_unique hunfolds h, fun v hv => ?_, ?_⟩
  · rw [hv, toStdString_toTree]
    have hback := read_append v (r := []) nofun
    rwa [List.append_nil] at hback
  · have hhandle := handle_of_firstMatch hforbidden hsend s hread hfirst hbuilds.call
    rw [← htext] at hhandle
    exact hhandle

/-- An array that is given its element late. -/
def greeting : PoolValue Empty.elim :=
  ⟨[.array, .string (str "</a>"), .pushBack (.value 0) (.value 1)], _, rfl, .value 0, by decide,
    str "[\"<\\/a>\"]", ⟨3, rfl⟩⟩

/-- A method that returns it. -/
def greet : Wrapper Unit (PoolValue Empty.elim) Unit :=
  .jsonMethod fun _ response _ => (.ok greeting, response)

/-- A worker with this one method. -/
def greetWorker : Worker Unit Bytes :=
  { redirectWorker with
    registry := [(str "/a", greet.call (poolEnv redirectEnv.mimetic (fun _ => none) fun _ => []))] }

/-- The client gets the array, and reads it. -/
theorem greet_exchange :
    ∃ tree response, Unfolds (finalDeref greeting.calls) greeting.value tree ∧
      response.data = tree.toStdString Empty.elim ∧
      greetWorker.handle redirectIo ⟨7, false⟩ ⟨none, []⟩ = (.ok (), ⟨none,
        .call 0 (some ⟨7, false⟩) :: greetWorker.reply response⟩) := by
  obtain ⟨tree, htree, -, -, hhandle⟩ :=
    @pool_exchange _ _ _ _ _ greetWorker redirectIo ⟨7, false⟩ rfl (fun _ _ => rfl) ⟨none, []⟩
      redirectEnv.mimetic (fun _ => none) (fun _ => []) greet _ _ greeting 0 []
      (.intro rfl rfl (.inl rfl) rfl rfl)
      ⟨[], str "/a", [], rfl, rfl, nofun,
        show greetWorker.regexMatch (str "/a") (cStr (path (str "/a?x=1"))) = some [] by decide⟩
      (.jsonMethod rfl)
  exact ⟨tree, _, htree, rfl, hhandle⟩

end Worker

end ThreadServer
