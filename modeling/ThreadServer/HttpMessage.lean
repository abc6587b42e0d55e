/-
  Requests and responses of the HTTP handler (`Message_t`, `Request_t`, `Response_t` in
  `cpphttphandler.h` and `cpphttphandler.cc`), and how a request target is taken apart.

  1. **Messages** — as the source declares them.  What the server uses of FastRPC's `HTTPHeader_t`
     is the parameter `HTTPHeader`.
  2. **The target** is taken apart twice: the worker cuts `request.uri` off its front, and each
     method wrapper cuts the query text out of it again (`queryText`, the same statements in all
     four).  `path` and `query` say what the two should be.  The worker's half is right for every
     target (`requestUri_eq`).  The wrappers pass the position of the `#` to `substr`, which takes a
     length, so theirs is right exactly when no fragment follows the query
     (`queryText_eq_query_iff`).
  3. **The reply head** — `head`.
-/
import ThreadServer.Error

namespace ThreadServer

open Bytes

/-- What is used of `FRPC::HTTPHeader_t`. -/
structure HTTPHeader (Header : Type) where
  empty : Header
  get : Header → Bytes → Option Bytes
  set : Header → Bytes → Bytes → Header
  /-- `operator<<`. -/
  print : Header → Bytes

/-- `Message_t`. -/
structure Message (Header : Type) where
  status : Int
  protocol : Bytes
  headers : Header
  contentType : Bytes
  data : Bytes

/-- `Message_t(protocol)`. -/
def Message.new {Header : Type} (http : HTTPHeader Header) (protocol : Bytes) : Message Header where
  status := 200
  protocol := protocol
  headers := http.empty
  contentType := []
  data := []

/-- `Request_t`. -/
structure Request (Header : Type) extends Message Header where
  method : Bytes
  unparsedUri : Bytes
  uri : Bytes
  matchGroups : List Bytes

/-- `Response_t`, without the two fields that only the log reads. -/
structure Response (Header : Type) extends Message Header where
  statusMessage : Bytes

/-- `Response_t(request)`. -/
def Response.new {Header : Type} (http : HTTPHeader Header) (request : Request Header) :
    Response Header where
  toMessage := Message.new http request.protocol
  statusMessage := []

/-! ## The request target -/

/-- How the worker sets `request.uri`. -/
def requestUri (unparsedUri : Bytes) : Bytes :=
  match find (chr '?') unparsedUri, find (chr '#') unparsedUri with
  | none, none => unparsedUri
  | none, some pos2 => substr unparsedUri 0 pos2
  | some pos, none => substr unparsedUri 0 pos
  | some pos, some pos2 => substr unparsedUri 0 (min pos pos2)

/-- The text of the target that a method wrapper passes to `params.parse`, if any. -/
def queryText (unparsedUri : Bytes) : Option Bytes :=
  match find (chr '?') unparsedUri, find (chr '#') unparsedUri with
  | none, _ => none
  | some pos, some pos2 => if pos2 > pos then some (substr unparsedUri (pos + 1) pos2) else none
  | some pos, none => some (substrFrom unparsedUri (pos + 1))

/-- A byte that ends the path of a target. -/
def isMark (c : UInt8) : Bool := c = chr '?' ∨ c = chr '#'

/-- **The path of a target**: everything before its first `?` or `#`. -/
def path (target : Bytes) : Bytes := target.takeWhile fun c => !isMark c

/-- What follows the path. -/
def afterPath (target : Bytes) : Bytes := target.dropWhile fun c => !isMark c

/-- **The query of a target**: if its first mark is a `?`, everything from there to the next `#`. -/
def query (target : Bytes) : Option Bytes :=
  match afterPath target with
  | [] => none
  | c :: rest => if c = chr '?' then some (rest.takeWhile (· ≠ chr '#')) else none

theorem path_append {p s : Bytes} (hp : ∀ c ∈ p, isMark c = false)
    (hs : ∀ c ∈ s.head?, isMark c = true) : path (p ++ s) = p ∧ afterPath (p ++ s) = s :=
  span_append (fun _ hc => by rw [hp _ hc]; rfl) (fun _ hc => by rw [hs _ hc]; rfl)

/-- A path ends at the first mark. -/
theorem path_append_cons {p : Bytes} (hp : ∀ c ∈ p, isMark c = false) {m : UInt8}
    (hm : isMark m = true) (rest : Bytes) :
    path (p ++ m :: rest) = p ∧ afterPath (p ++ m :: rest) = m :: rest :=
  path_append hp fun _ hc => Option.some.inj hc ▸ hm

/-- A target is its path, and a fragment or a query with or without a fragment behind it. -/
inductive Target : Bytes → Prop
  | path {p : Bytes} : (∀ c ∈ p, isMark c = false) → Target p
  | fragment {p : Bytes} (f : Bytes) : (∀ c ∈ p, isMark c = false) → Target (p ++ chr '#' :: f)
  | query {p q : Bytes} : (∀ c ∈ p, isMark c = false) → chr '#' ∉ q → Target (p ++ chr '?' :: q)
  | both {p q : Bytes} (f : Bytes) : (∀ c ∈ p, isMark c = false) → chr '#' ∉ q →
      Target (p ++ chr '?' :: (q ++ chr '#' :: f))

/-- Every string is one of these. -/
theorem target (u : Bytes) : Target u := by
  have hsplit : path u ++ afterPath u = u := List.takeWhile_append_dropWhile
  have hpath : ∀ c ∈ path u, isMark c = false := by
    intro c hc
    have hall := List.all_eq_true.mp (List.all_takeWhile (p := fun c => !isMark c)) c hc
    simpa using hall
  have hhead := List.head?_dropWhile_not (fun c => !isMark c) u
  rw [← hsplit]
  cases hafter : afterPath u with
  | nil =>
    rw [List.append_nil]
    exact .path hpath
  | cons m rest =>
    rw [show u.dropWhile (fun c => !isMark c) = m :: rest from hafter] at hhead
    have hmark : m = chr '?' ∨ m = chr '#' := by simpa [isMark, or_iff_not_imp_left] using hhead
    rcases hmark with rfl | rfl
    case inr => exact .fragment rest hpath
    by_cases hfragment : chr '#' ∈ rest
    · obtain ⟨q, f, rfl, hq⟩ := List.eq_append_cons_of_mem hfragment
      exact .both f hpath hq
    · exact .query hpath hfragment

theorem not_mem_of_path {p : Bytes} (hp : ∀ c ∈ p, isMark c = false) :
    chr '?' ∉ p ∧ chr '#' ∉ p :=
  ⟨fun h => absurd (hp _ h) (by decide), fun h => absurd (hp _ h) (by decide)⟩

/-- **The worker's half**: `request.uri` is the path of the target. -/
theorem requestUri_eq (u : Bytes) : requestUri u = path u := by
  cases target u with
  | path hp =>
    obtain ⟨hquestion, hhash⟩ := not_mem_of_path hp
    have hpath := (path_append hp (s := []) fun c hc => nomatch hc).1
    rw [List.append_nil] at hpath
    rw [hpath, requestUri, find_eq_none.mpr hquestion, find_eq_none.mpr hhash]
  | @fragment p f hp =>
    obtain ⟨hquestion, hhash⟩ := not_mem_of_path hp
    rw [(path_append_cons hp rfl f).1, requestUri, find_append_cons f hhash, find_append hquestion,
      find_cons_of_ne (by decide)]
    cases find (chr '?') f with
    | none => exact substr_append _ _
    | some pos =>
      show substr _ 0 (min (pos + 1 + p.length) p.length) = p
      rw [Nat.min_eq_right (by omega)]
      exact substr_append _ _
  | @query p q hp hq =>
    obtain ⟨hquestion, hhash⟩ := not_mem_of_path hp
    rw [(path_append_cons hp rfl q).1, requestUri, find_append_cons q hquestion, find_append hhash,
      find_cons_of_ne (by decide), find_eq_none.mpr hq]
    exact substr_append _ _
  | @both p q f hp hq =>
    obtain ⟨hquestion, hhash⟩ := not_mem_of_path hp
    rw [(path_append_cons hp rfl _).1, requestUri, find_append_cons _ hquestion, find_append hhash,
      find_cons_of_ne (by decide), find_append_cons f hq]
    show substr _ 0 (min p.length (q.length + 1 + p.length)) = p
    rw [Nat.min_eq_left (by omega)]
    exact substr_append _ _

example : requestUri (str "/p#f?a") = str "/p" := by decide

theorem query_append_cons {p q s : Bytes} (hp : ∀ c ∈ p, isMark c = false) (hq : chr '#' ∉ q)
    (hs : ∀ c ∈ s.head?, c = chr '#') : query (p ++ chr '?' :: (q ++ s)) = some q := by
  have hne : ∀ c ∈ q, (decide (c ≠ chr '#')) = true := by
    intro c hc
    refine decide_eq_true ?_
    rintro rfl
    exact hq hc
  have hend : ∀ c ∈ s.head?, (decide (c ≠ chr '#')) = false := by
    intro c hc
    rw [hs c hc]
    rfl
  have hafter := (path_append_cons hp (show isMark (chr '?') = true from rfl) (q ++ s)).2
  simp only [query, hafter, if_pos, (span_append hne hend).1]

/-- **The wrappers' half** is right exactly when no fragment follows the query. -/
theorem queryText_eq_query_iff (u : Bytes) :
    queryText u = query u ↔ ∀ rest, afterPath u = chr '?' :: rest → chr '#' ∉ rest := by
  cases target u with
  | path hp =>
    have hafter : afterPath u = [] := by
      have happend := (path_append hp (s := []) fun c hc => nomatch hc).2
      rwa [List.append_nil] at happend
    rw [queryText, find_eq_none.mpr (not_mem_of_path hp).1, query, hafter]
    exact ⟨fun _ rest h => (nomatch h), fun _ => rfl⟩
  | @fragment p f hp =>
    obtain ⟨hquestion, hhash⟩ := not_mem_of_path hp
    have hnone : queryText (p ++ chr '#' :: f) = none := by
      rw [queryText, find_append_cons f hhash, find_append hquestion, find_cons_of_ne (by decide)]
      cases find (chr '?') f with
      | none => rfl
      | some pos => exact if_neg (show ¬ p.length > pos + 1 + p.length by omega)
    simp only [hnone, query, (path_append_cons hp (show isMark (chr '#') = true from rfl) f).2]
    exact ⟨fun _ rest h => absurd (List.cons.inj h).1 (by decide), fun _ => rfl⟩
  | @query p q hp hq =>
    obtain ⟨hquestion, hhash⟩ := not_mem_of_path hp
    have hquery : query (p ++ chr '?' :: q) = some q := by
      have happend := query_append_cons hp hq (s := []) fun c hc => nomatch hc
      rwa [List.append_nil] at happend
    have htext : queryText (p ++ chr '?' :: q) = some q := by
      rw [queryText, find_append_cons q hquestion, find_append hhash, find_cons_of_ne (by decide),
        find_eq_none.mpr hq]
      exact congrArg some (substrFrom_append_cons p _ q)
    rw [(path_append_cons hp rfl q).2, htext, hquery]
    refine ⟨fun _ rest h => ?_, fun _ => rfl⟩
    rw [← (List.cons.inj h).2]
    exact hq
  | @both p q f hp hq =>
    obtain ⟨hquestion, hhash⟩ := not_mem_of_path hp
    have hquery : query (p ++ chr '?' :: (q ++ chr '#' :: f)) = some q :=
      query_append_cons hp hq fun c hc => (Option.some.inj hc).symm
    -- the text runs on behind the `#`, by at least one byte
    have htext : queryText (p ++ chr '?' :: (q ++ chr '#' :: f)) ≠ some q := by
      rw [queryText, find_append_cons _ hquestion, find_append hhash, find_cons_of_ne (by decide),
        find_append_cons f hq]
      intro h
      simp only [Option.map_some] at h
      rw [if_pos (show q.length + 1 + p.length > p.length by omega)] at h
      have hlength := congrArg List.length (Option.some.inj h)
      have hrest := substrFrom_append_cons p (chr '?') (q ++ chr '#' :: f)
      rw [substrFrom] at hrest
      rw [substr, hrest, List.length_take, List.length_append, List.length_cons] at hlength
      omega
    rw [hquery, (path_append_cons hp rfl _).2]
    have hmem : chr '#' ∈ q ++ chr '#' :: f := List.mem_append_right q List.mem_cons_self
    exact ⟨fun h => absurd h htext, fun h => absurd hmem (h _ rfl)⟩

/-! ## The reply head -/

/-- The reason phrases of the `switch` over the status. -/
def reasons : List (Int × Bytes) :=
  [(100, str "Continue"), (101, str "Switching Protocols"), (200, str "OK"), (201, str "Created"),
    (202, str "Accepted"), (203, str "Non-Authoritative Information"), (204, str "No Content"),
    (205, str "Reset Content"), (206, str "Partial Content"), (300, str "Multiple Choices"),
    (301, str "Moved Permanently"), (302, str "Found"), (303, str "See Other"),
    (304, str "Not Modified"), (305, str "Use Proxy"), (307, str "Temporary Redirect"),
    (400, str "Bad Request"), (401, str "Unauthorized"), (402, str "Payment Required"),
    (403, str "Forbidden"), (404, str "Not Found"), (405, str "Method Not Allowed"),
    (406, str "Not Acceptable"), (407, str "Proxy Authentication Required"),
    (408, str "Request Timeout"), (409, str "Conflict"), (410, str "Gone"),
    (411, str "Length Required"), (412, str "Precondition Failed"),
    (413, str "Request Entity Too Large"), (414, str "Request-URI Too Long"),
    (415, str "Unsupported Media Type"), (416, str "Request Range Not Satisfiable"),
    (417, str "Expectation Failed"), (500, str "Internal Server Error"),
    (501, str "Not Implemented"), (502, str "Bad Gateway"), (503, str "Service Unavailable"),
    (504, str "Gateway Timeout"), (505, str "HTTP Version Not Supported")]

/-- What is written after the status. -/
def Response.reason {Header : Type} (response : Response Header) : Bytes :=
  match reasons.lookup response.status with
  | some reason => reason
  | none => if response.statusMessage ≠ [] then response.statusMessage else str "Unknown"

/-- The head of a reply. -/
def Response.head {Header : Type} (http : HTTPHeader Header) (response : Response Header) : Bytes :=
  response.protocol ++ str " " ++ signedDecimal response.status ++ str " " ++ response.reason
    ++ str "\r\n" ++ http.print response.headers ++ str "\r\n"

end ThreadServer
