/-
  What a client reads of the replies of the HTTP handler: the bytes that `Worker_t::handle`
  (`cpphttphandler.cc`) has sent on a connection, taken apart again.

  1. **The reader** (`readReply`) — a status line of three words, of which the last runs to the end
     of the line, header lines up to an empty one, and the body up to the end of the connection.
  2. **Heads** (`readReply_head_iff`) — nothing in a response is escaped when its head is written,
     so the reader gets back what the response says exactly if the protocol has no space and no part
     of the head has a line break in it.  The reason phrases of the `switch` have none, so a
     `statusMessage` counts only under another status (`broken_reason_iff`).
  3. **Connections** (`replies_read`) — every reply of `handle`: what the worker says itself is
     always read as it is meant, and what a method answers exactly under that condition.
-/
import ThreadServer.HttpWorker
import ThreadServer.Lib.LexicalCast
import ThreadServer.Lib.Lines

namespace ThreadServer

open Bytes Lines LexicalCast

variable {Header Regex : Type}

/-! ## The reader -/

/-- A reply as a client sees it. -/
structure Reply where
  protocol : Bytes
  status : Int
  reason : Bytes
  lines : List Bytes
  body : Bytes
  deriving DecidableEq

/-- Up to the first space, and what follows it. -/
def cutAtSpace (s : Bytes) : Option (Bytes × Bytes) :=
  (find (chr ' ') s).map fun pos => (substr s 0 pos, substrFrom s (pos + 1))

/-- A status code. -/
def readStatus (s : Bytes) : Option Int := do
  let (minus, rest) := sign s
  let n ← digits rest
  some (if minus then -(n : Int) else n)

/-- **The reader**: what the bytes of a connection say. -/
def readReply (s : Bytes) : Option Reply := do
  let (line, rest) ← readLine s
  let (protocol, words) ← cutAtSpace line
  let (number, reason) ← cutAtSpace words
  let status ← readStatus number
  let (lines, body) ← readBlock rest
  some { protocol, status, reason, lines, body }

theorem cutAtSpace_eq_some_iff {s word rest : Bytes} :
    cutAtSpace s = some (word, rest) ↔ s = word ++ chr ' ' :: rest ∧ chr ' ' ∉ word := by
  rw [cutAtSpace, Option.map_eq_some_iff]
  constructor
  · rintro ⟨pos, hpos, heq⟩
    obtain ⟨pre, post, rfl, hpre, rfl⟩ := find_eq_some.mp hpos
    rw [substr_append, substrFrom_append_cons] at heq
    obtain ⟨rfl, rfl⟩ := Prod.mk.inj heq
    exact ⟨rfl, hpre⟩
  · rintro ⟨rfl, hword⟩
    refine ⟨word.length, find_append_cons rest hword, ?_⟩
    rw [substr_append, substrFrom_append_cons]

theorem notMem_signedDecimal {c : UInt8} (hminus : c ≠ chr '-') (hdigit : isDigit c = false)
    (n : Int) : c ∉ signedDecimal n := by
  have hdecimal : c ∉ decimal n.natAbs := by
    intro h
    rw [isDigit_of_mem_decimal h] at hdigit
    exact nomatch hdigit
  rw [signedDecimal]
  split_ifs
  case neg => exact hdecimal
  case pos =>
    intro h
    exact (List.mem_cons.mp h).elim hminus hdecimal

/-- A status is read as it is written. -/
theorem readStatus_signedDecimal (n : Int) : readStatus (signedDecimal n) = some n := by
  rw [readStatus, signedDecimal]
  by_cases hn : n < 0
  case pos =>
    have hsign : sign (chr '-' :: decimal n.natAbs) = (true, decimal n.natAbs) := rfl
    rw [if_pos hn, hsign]
    dsimp only
    rw [digits_decimal]
    exact congrArg some (show -(n.natAbs : Int) = n by omega)
  case neg =>
    have hsign : sign (decimal n.natAbs) = (false, decimal n.natAbs) := by
      obtain ⟨d, ds, hd, heq, -⟩ := decimal_eq_cons n.natAbs
      rw [heq, sign_of_isDigit (isDigit_digit hd)]
    rw [if_neg hn, hsign]
    dsimp only
    rw [digits_decimal]
    exact congrArg some (show (n.natAbs : Int) = n by omega)

/-! ## Heads -/

/-- What a status line says. -/
def statusLine (protocol : Bytes) (status : Int) (reason : Bytes) : Bytes :=
  protocol ++ chr ' ' :: (signedDecimal status ++ chr ' ' :: reason)

theorem not_broken_statusLine_iff {protocol : Bytes} {status : Int} {reason : Bytes} :
    ¬ Broken (statusLine protocol status reason) ↔ ¬ Broken protocol ∧ ¬ Broken reason := by
  have hnumber : ¬ Broken (signedDecimal status) :=
    not_broken_of_notMem (notMem_signedDecimal (by decide) (by decide) status)
  rw [statusLine, broken_append_cons (by decide) (by decide),
    broken_append_cons (by decide) (by decide), not_or, not_or]
  exact and_congr_right fun _ => and_iff_right hnumber

/-- **A reply is read back** exactly if nothing in it can be taken for something else. -/
theorem readReply_iff {r : Reply} :
    readReply (statusLine r.protocol r.status r.reason
      ++ (crlf ++ (unlines r.lines ++ (crlf ++ r.body)))) = some r ↔
      chr ' ' ∉ r.protocol ∧ ¬ Broken r.protocol ∧ ¬ Broken r.reason ∧
        ∀ line ∈ r.lines, line ≠ [] ∧ ¬ Broken line := by
  obtain ⟨protocol, status, reason, lines, body⟩ := r
  have hspace : chr ' ' ∉ signedDecimal status :=
    notMem_signedDecimal (by decide) (by decide) status
  dsimp only
  rw [← readBlock_append_iff (r := body)]
  constructor
  · intro h
    obtain ⟨⟨line, rest⟩, hline, h⟩ := Option.bind_eq_some_iff.mp h
    obtain ⟨⟨protocol', words⟩, hfront, h⟩ := Option.bind_eq_some_iff.mp h
    obtain ⟨⟨number, reason'⟩, hwords, h⟩ := Option.bind_eq_some_iff.mp h
    obtain ⟨status', hstatus, h⟩ := Option.bind_eq_some_iff.mp h
    obtain ⟨⟨lines', body'⟩, hblock, h⟩ := Option.bind_eq_some_iff.mp h
    cases h
    obtain ⟨rfl, hprotocol⟩ := cutAtSpace_eq_some_iff.mp hfront
    obtain ⟨rfl, hnumber⟩ := cutAtSpace_eq_some_iff.mp hwords
    -- the line that was read cannot be shorter than the status line: it has the same words
    have hsame := eq_of_readLine hline
    rw [statusLine, List.append_assoc, List.append_assoc, List.append_cancel_left_eq,
      List.cons_append, List.cons_append, List.append_assoc, List.append_assoc, List.cons_append,
      List.cons_append, List.cons.injEq] at hsame
    obtain ⟨rfl, hrest⟩ := append_cons_inj hspace hnumber hsame.2
    rw [List.append_cancel_left_eq, List.append_cancel_left_eq] at hrest
    rw [← hrest] at hline hblock
    obtain ⟨hprotocol', hreason⟩ := not_broken_statusLine_iff.mp (readLine_append_iff.mp hline)
    exact ⟨hprotocol, hprotocol', hreason, hblock⟩
  · rintro ⟨hprotocol, hprotocol', hreason, hblock⟩
    have hline : readLine (statusLine protocol status reason ++
        (crlf ++ (unlines lines ++ (crlf ++ body)))) =
          some (statusLine protocol status reason, unlines lines ++ (crlf ++ body)) :=
      readLine_append_iff.mpr (not_broken_statusLine_iff.mpr ⟨hprotocol', hreason⟩)
    have hfront : cutAtSpace (statusLine protocol status reason) =
        some (protocol, signedDecimal status ++ chr ' ' :: reason) :=
      cutAtSpace_eq_some_iff.mpr ⟨rfl, hprotocol⟩
    have hwords : cutAtSpace (signedDecimal status ++ chr ' ' :: reason) =
        some (signedDecimal status, reason) := cutAtSpace_eq_some_iff.mpr ⟨rfl, hspace⟩
    simp only [readReply, hline, hfront, hwords, readStatus_signedDecimal, hblock,
      Option.bind_eq_bind, Option.bind_some]

/-- What a response says: the reply that should be read. -/
def Response.told (lines : Header → List Bytes) (response : Response Header) : Reply where
  protocol := response.protocol
  status := response.status
  reason := response.reason
  lines := lines response.headers
  body := response.data

/-- The reason phrases of the `switch` have no line break in them. -/
theorem broken_reason_iff {response : Response Header} :
    Broken response.reason ↔
      reasons.lookup response.status = none ∧ Broken response.statusMessage := by
  have hreasons : ∀ entry ∈ reasons, chr '\r' ∉ entry.2 := by decide +kernel
  rw [Response.reason]
  cases hlookup : reasons.lookup response.status with
  | some reason =>
    obtain ⟨l₁, l₂, hsplit, -⟩ := List.lookup_eq_some_iff.mp hlookup
    have hmem : (response.status, reason) ∈ reasons := by
      rw [hsplit]
      exact List.mem_append_right l₁ List.mem_cons_self
    exact iff_of_false (not_broken_of_notMem (hreasons _ hmem)) (fun h => nomatch h.1)
  | none =>
    dsimp only
    by_cases hempty : response.statusMessage = []
    · rw [if_neg (not_not_intro hempty), hempty]
      refine iff_of_false (not_broken_of_notMem ?_) (fun h => not_broken_nil h.2)
      decide
    · rw [if_pos hempty]
      exact (and_iff_right rfl).symm

/-- What the head of a response and its data are read as. -/
theorem readReply_head_iff {http : HTTPHeader Header} {lines : Header → List Bytes}
    (hprint : ∀ headers, http.print headers = unlines (lines headers))
    {response : Response Header} :
    readReply (response.head http ++ response.data) = some (response.told lines) ↔
      (chr ' ' ∉ response.protocol ∧ ¬ Broken response.protocol) ∧
      (reasons.lookup response.status = none → ¬ Broken response.statusMessage) ∧
      ∀ line ∈ lines response.headers, line ≠ [] ∧ ¬ Broken line := by
  have hhead : response.head http ++ response.data =
      statusLine response.protocol response.status response.reason
        ++ (crlf ++ (unlines (lines response.headers) ++ (crlf ++ response.data))) := by
    simp only [Response.head, statusLine, hprint, List.append_assoc, List.cons_append]
    rfl
  have hread := readReply_iff (r := response.told lines)
  rw [hhead]
  refine hread.trans ?_
  rw [Response.told, broken_reason_iff, not_and, and_assoc]

/-! ## Connections -/

/-- The bytes that the client gets. -/
def sentBytes (events : List Event) : Bytes :=
  events.flatMap fun
    | .send data => data
    | .call _ _ => []

/-- The fixed header line of the replies that `handle` does not take from a response. -/
def serverLine : Bytes := str "Server: ThreadServer/CppHttpHandler Linux"

namespace Worker

variable (w : Worker Header Regex)

theorem sentBytes_reply (response : Response Header) :
    sentBytes (w.reply response) = response.head w.http ++ response.data := by
  rw [reply, sentBytes, List.flatMap_cons, List.flatMap_cons, List.flatMap_nil, List.append_nil]

/-- A protocol that the worker speaks can stand in a status line. -/
theorem plain_of_spoken {protocol : Bytes}
    (h : protocol = str "HTTP/1.0" ∨ protocol = str "HTTP/1.1") :
    chr ' ' ∉ protocol ∧ ¬ Broken protocol := by
  rcases h with rfl | rfl
  · exact ⟨by decide, not_broken_of_notMem (by decide)⟩
  · exact ⟨by decide, not_broken_of_notMem (by decide)⟩

theorem ReadsRequest.spoken {w : Worker Header Regex} {io : HttpIo Header}
    {request : Request Header} (h : w.ReadsRequest io request) :
    request.protocol = str "HTTP/1.0" ∨ request.protocol = str "HTTP/1.1" := by
  obtain ⟨-, -, hprotocol, -, -⟩ := h
  exact hprotocol

/-- The fixed replies of `handle`, read. -/
def fixedReply (protocol : Bytes) (status : Int) (reason : Bytes) : Reply :=
  ⟨protocol, status, reason, [serverLine], []⟩

theorem readReply_fixed {protocol : Bytes} (hprotocol : chr ' ' ∉ protocol ∧ ¬ Broken protocol)
    (status : Int) (reason : Bytes) (hreason : ¬ Broken reason) :
    readReply (statusLine protocol status reason ++ (crlf ++ (serverLine ++ (crlf ++ crlf)))) =
      some (fixedReply protocol status reason) := by
  have hserver : serverLine ≠ [] ∧ ¬ Broken serverLine :=
    ⟨by decide, not_broken_of_notMem (by decide)⟩
  refine (readReply_iff (r := fixedReply protocol status reason)).mpr
    ⟨hprotocol.1, hprotocol.2, hreason, ?_⟩
  intro line hline
  rw [List.mem_singleton.mp hline]
  exact hserver

theorem readReply_badRequest :
    readReply badRequest = some (fixedReply (str "HTTP/1.0") 400 (str "Bad Request")) := by
  have htext : badRequest = statusLine (str "HTTP/1.0") 400 (str "Bad Request")
      ++ (crlf ++ (serverLine ++ (crlf ++ crlf))) := by
    rw [show badRequest = _ from str_ofList _, show str "HTTP/1.0" = _ from str_ofList _,
      show str "Bad Request" = _ from str_ofList _, show serverLine = _ from str_ofList _]
    decide
  rw [htext]
  exact readReply_fixed (plain_of_spoken (.inl rfl)) 400 (str "Bad Request")
    (not_broken_of_notMem (by decide))

theorem readReply_refusal {protocol : Bytes}
    (hprotocol : protocol = str "HTTP/1.0" ∨ protocol = str "HTTP/1.1") :
    readReply (protocol ++
        str " 403 Forbidden\r\nServer: ThreadServer/CppHttpHandler Linux\r\n\r\n") =
      some (fixedReply protocol 403 (str "Forbidden")) := by
  have htext : str " 403 Forbidden\r\nServer: ThreadServer/CppHttpHandler Linux\r\n\r\n" =
      chr ' ' :: (signedDecimal 403 ++ chr ' ' :: str "Forbidden")
        ++ (crlf ++ (serverLine ++ (crlf ++ crlf))) := by
    rw [show str " 403 Forbidden\r\nServer: ThreadServer/CppHttpHandler Linux\r\n\r\n" = _ from
      str_ofList _, show str "Forbidden" = _ from str_ofList _,
      show serverLine = _ from str_ofList _]
    decide
  rw [htext, ← List.append_assoc]
  exact readReply_fixed (plain_of_spoken hprotocol) 403 (str "Forbidden")
    (not_broken_of_notMem (by decide))

section

variable {w} {io : HttpIo Header} (hsend : ∀ sends data, io.sendData sends data = .ok ())

include hsend

/-- A refused client is told that it is, if it can be read from. -/
theorem forbidden_read :
    readReply (sentBytes (forbidden io ⟨none, []⟩).2.events) =
      some (match readRequestLine io, io.readHeader with
        | .ok (_, _, protocol), .ok _ => fixedReply protocol 403 (str "Forbidden")
        | _, _ => fixedReply (str "HTTP/1.0") 400 (str "Bad Request")) := by
  have hbad : ∀ s, sendBadRequest io s =
      (.ok (), { s with events := s.events ++ [.send badRequest] }) := by
    intro s
    rw [sendBadRequest, sendData_of_sends hsend]
  cases hline : readRequestLine io with
  | error e =>
    simp only [forbidden, hline, hbad]
    exact readReply_badRequest
  | ok words =>
    obtain ⟨method, target, protocol⟩ := words
    obtain ⟨-, -, -, hprotocol⟩ := readRequestLine_eq_ok_iff.mp hline
    cases hheader : io.readHeader with
    | error e =>
      simp only [forbidden, hline, hheader, hbad]
      exact readReply_badRequest
    | ok header =>
      simp only [forbidden, hline, hheader, sendData_of_sends hsend]
      show readReply (sentBytes [.send _]) = _
      rw [sentBytes, List.flatMap_singleton]
      exact readReply_refusal hprotocol

end

/-- **What a client reads.**  A refused client, one whose request cannot be read and one whose
    target no pattern matches always read what the worker means.  What a method answers is read as
    it is meant exactly if the protocol is one word, the text for a status without a reason phrase
    of its own has no line break in it, and neither has a header. -/
theorem replies_read {lines : Header → List Bytes}
    (hprint : ∀ headers, w.http.print headers = unlines (lines headers))
    (hempty : lines w.http.empty = []) {io : HttpIo Header}
    (hsend : ∀ sends data, io.sendData sends data = .ok ()) (socket : SocketWork) :
    (socket.forbidden = true →
      readReply (sentBytes (w.handle io socket ⟨none, []⟩).2.events) =
        some (match readRequestLine io, io.readHeader with
          | .ok (_, _, protocol), .ok _ => fixedReply protocol 403 (str "Forbidden")
          | _, _ => fixedReply (str "HTTP/1.0") 400 (str "Bad Request"))) ∧
    (socket.forbidden = false →
      ((∀ request, ¬ w.ReadsRequest io request) →
        readReply (sentBytes (w.handle io socket ⟨none, []⟩).2.events) =
          some (fixedReply (str "HTTP/1.0") 400 (str "Bad Request"))) ∧
      ∀ {request}, w.ReadsRequest io request →
        (w.NoMatch request.uri w.registry →
          readReply (sentBytes (w.handle io socket ⟨none, []⟩).2.events) =
            some ⟨request.protocol, 404, str "Not Found", [], notFoundPage request⟩) ∧
        ∀ {index method groups}, w.FirstMatch request.uri index method groups →
          let response := w.afterCall
            (method { request with matchGroups := groups } (w.initialResponse request))
          (readReply (sentBytes (w.handle io socket ⟨none, []⟩).2.events) =
              some (response.told lines) ↔
            (chr ' ' ∉ response.protocol ∧ ¬ Broken response.protocol) ∧
            (reasons.lookup response.status = none → ¬ Broken response.statusMessage) ∧
            ∀ line ∈ lines response.headers, line ≠ [] ∧ ¬ Broken line)) := by
  constructor
  · intro hforbidden
    have hhandle : w.handle io socket ⟨none, []⟩ = forbidden io ⟨none, []⟩ := if_pos hforbidden
    rw [hhandle]
    exact forbidden_read hsend
  · intro hforbidden
    refine ⟨fun hread => ?_, fun {request} hread => ⟨fun hnone => ?_, ?_⟩⟩
    · rw [handle_of_serve hforbidden (w.serve_of_unreadable hsend hread _)]
      exact readReply_badRequest
    · have htold : ({ w.initialResponse request with
          status := 404, data := notFoundPage request } : Response Header).told lines =
          ⟨request.protocol, 404, str "Not Found", [], notFoundPage request⟩ := by
        rw [← hempty]
        rfl
      rw [handle_of_serve hforbidden (w.serve_of_noMatch hsend hread hnone _), List.nil_append,
        sentBytes_reply, ← htold, readReply_head_iff hprint]
      refine ⟨plain_of_spoken hread.spoken, nofun, ?_⟩
      intro line hline
      have hline : line ∈ lines w.http.empty := hline
      rw [hempty] at hline
      exact nomatch hline
    · intro index method groups hfirst
      rw [handle_of_serve hforbidden (w.serve_of_firstMatch hsend hread hfirst _), List.nil_append]
      rw [show ∀ work events, sentBytes (.call index work :: events) = sentBytes events from
        fun _ _ => rfl, sentBytes_reply]
      exact readReply_head_iff hprint

/-- Headers as a list of names and values. -/
def listHeader : HTTPHeader (List (Bytes × Bytes)) where
  empty := []
  get headers name := headers.lookup name
  set headers name value := headers.filter (·.1 ≠ name) ++ [(name, value)]
  print headers := headers.flatMap fun (name, value) => name ++ str ": " ++ value ++ crlf

def listHeaderLines (headers : List (Bytes × Bytes)) : List Bytes :=
  headers.map fun (name, value) => name ++ str ": " ++ value

theorem listHeader_print (headers : List (Bytes × Bytes)) :
    listHeader.print headers = unlines (listHeaderLines headers) := by
  show _ = List.flatMap _ (List.map _ headers)
  rw [List.flatMap_map]
  rfl

/-- A method that passes on the text of the request in a status of its own. -/
def repeatMethod : Method (List (Bytes × Bytes)) := fun request response =>
  (.ok (), { response with status := 299, statusMessage := request.data })

def repeatWorker : Worker (List (Bytes × Bytes)) Bytes where
  http := listHeader
  regexMatch pattern text := if pattern = text then some [] else none
  registry := [(str "/a", repeatMethod)]

/-- A connection that sends it a text. -/
def repeatIo (text : Bytes) : HttpIo (List (Bytes × Bytes)) where
  readLine := .ok (str "POST /a HTTP/1.0")
  splitBySpace _ _ := .ok [str "POST", str "/a", str "HTTP/1.0"]
  readHeader := .ok []
  readContent _ := .ok text
  sendData _ _ := .ok ()

/-- How the worker answers it. -/
def repeatResponse (text : Bytes) : Response (List (Bytes × Bytes)) where
  status := 299
  protocol := str "HTTP/1.0"
  headers := [(str "Content-Type", str "text/plain")]
  contentType := str "text/plain"
  data := []
  statusMessage := text

theorem repeat_read :
    readReply (sentBytes (repeatWorker.handle (repeatIo (str "So be it")) ⟨7, false⟩
      ⟨none, []⟩).2.events) = some ((repeatResponse (str "So be it")).told listHeaderLines) ∧
    readReply (sentBytes (repeatWorker.handle (repeatIo (str "So\r\nbe it")) ⟨7, false⟩
      ⟨none, []⟩).2.events) ≠ some ((repeatResponse (str "So\r\nbe it")).told listHeaderLines) := by
  have hfirst : repeatWorker.FirstMatch (path (str "/a")) 0 repeatMethod [] :=
    ⟨[], str "/a", [], rfl, rfl, nofun,
      show repeatWorker.regexMatch (str "/a") (cStr (path (str "/a"))) = some [] by decide⟩
  have hheader : ∀ line ∈ listHeaderLines [(str "Content-Type", str "text/plain")],
      line ≠ [] ∧ ¬ Broken line := by decide +kernel
  have hreads : ∀ text, (readReply (sentBytes (repeatWorker.handle (repeatIo text) ⟨7, false⟩
      ⟨none, []⟩).2.events) = some ((repeatResponse text).told listHeaderLines) ↔
        ¬ Broken text) := by
    intro text
    refine ((((@replies_read _ _ repeatWorker _ listHeader_print rfl (repeatIo text)
      (fun _ _ => rfl) ⟨7, false⟩).2 rfl).2 (.intro rfl rfl (.inl rfl) rfl rfl)).2 hfirst).trans ?_
    constructor
    · rintro ⟨-, htext, -⟩
      exact htext rfl
    · intro htext
      exact ⟨plain_of_spoken (.inl rfl), fun _ => htext, hheader⟩
  exact ⟨(hreads _).mpr (not_broken_of_notMem (by decide)),
    mt (hreads _).mp (not_not_intro (by decide +kernel))⟩

end Worker

end ThreadServer
