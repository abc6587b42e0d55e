/-
  What `Handler_t::Worker_t::run` receives of the exceptions that a connection raises
  (`handler.cc`, `cpphttphandler.cc`, `cppfrpchandler.cc`).

  1. **Identity** (`Same`) — an exception has kept what `run` and its `catch` clauses can tell:
     dynamic type, `what()`, and the line `run` writes to the log.
  2. **Exceptions without a reply** (`unreplied`) — those behind which no head of a reply is
     started.  `run` must receive them, and nothing else (`ErrorKept`).
  3. **Two clauses that replace the object** — `throw e` of a reference to the base class throws a
     plain `std::exception` (`same_rethrown_iff`), and where the fixed reply cannot be sent an
     `Error_t` with another text is thrown (`same_renamed_iff`).
  4. **Ways out** (`comesOut`) — one rule for both handlers, from which follow the exact condition
     for `ErrorKept` (`errorKept_iff`) and what comes out where the object is not sliced
     (`passesOn`).
-/
import ThreadServer.ReplyHeads
import ThreadServer.WorkerPool

namespace ThreadServer

open Bytes ThreadLocal ThreadLocal.Program

variable {Header Regex : Type}

/-! ## Identity -/

namespace Thrown

/-- `run` cannot tell `t` from `t'`: neither by its type nor by its text nor by its own `catch`
    clauses. -/
structure Same (t t' : Thrown) : Prop where
  dynamicType : t.dynamicType = t'.dynamicType
  what : t.what? = t'.what?
  caught : ∀ name, catchHandle name (.error t.exn) = catchHandle name (.error t'.exn)

theorem Same.refl (t : Thrown) : Same t t := ⟨rfl, rfl, fun _ => rfl⟩

/-- `throw e` in `catch (const std::exception &e)` leaves it as it is. -/
def KeptBySlicing (t : Thrown) : Prop :=
  t.what? = none ∨ t.dynamicType = str "std::exception"

/-- `throw Error_t("Can't send data: %s", e.what())` leaves it as it is: its text is these words
    over and over, as far as the buffer goes. -/
def KeptByRenaming (t : Thrown) : Prop :=
  t.what? = none ∨
    t.dynamicType = str "ThreadServer::Error_t" ∧
      ∃ what, t.what? = some what ∧
        (str "Can't send data: " ++ what).take (Exn.messageBufferSize - 1) = what

theorem rethrown_of_what {t : Thrown} {what : Bytes} (h : t.what? = some what) :
    t.rethrown = exception := by
  rw [rethrown, h]

theorem rethrown_of_none {t : Thrown} (h : t.what? = none) : t.rethrown = t := by
  rw [rethrown, h]

theorem renamed_of_what {t : Thrown} {what : Bytes} (h : t.what? = some what) :
    t.renamed = error [str "Can't send data: ", what] := by
  rw [renamed, h]

theorem renamed_of_none {t : Thrown} (h : t.what? = none) : t.renamed = t := by
  rw [renamed, h]

theorem what_error (parts : List Bytes) :
    (error parts).what? = some (parts.flatten.take (Exn.messageBufferSize - 1)) := rfl

theorem same_rethrown_iff (t : Thrown) : Same t.rethrown t ↔ t.KeptBySlicing := by
  cases hwhat : t.what? with
  | none =>
    rw [rethrown_of_none hwhat]
    exact iff_of_true (.refl t) (.inl hwhat)
  | some what =>
    rw [rethrown_of_what hwhat]
    constructor
    · intro h
      exact .inr h.dynamicType.symm
    · rintro (hnone | htype)
      · exact nomatch hwhat.symm.trans hnone
      · have hexn : t.exn = exception.exn := t.ofException htype
        refine ⟨htype.symm, congrArg Exn.what? hexn.symm, fun name => ?_⟩
        rw [hexn]

theorem same_renamed_iff (t : Thrown) : Same t.renamed t ↔ t.KeptByRenaming := by
  cases hwhat : t.what? with
  | none =>
    rw [renamed_of_none hwhat]
    exact iff_of_true (.refl t) (.inl hwhat)
  | some what =>
    rw [renamed_of_what hwhat]
    have htext : (error [str "Can't send data: ", what]).what? =
        some ((str "Can't send data: " ++ what).take (Exn.messageBufferSize - 1)) := by
      rw [what_error]
      simp only [List.flatten_cons, List.flatten_nil, List.append_nil]
    constructor
    · intro h
      refine .inr ⟨h.dynamicType.symm, what, hwhat, ?_⟩
      exact Option.some.inj ((htext.symm.trans h.what).trans hwhat)
    · rintro (hnone | ⟨htype, what', hwhat', hcut⟩)
      · exact nomatch hwhat.symm.trans hnone
      · obtain rfl := Option.some.inj (hwhat.symm.trans hwhat')
        -- An `Error_t` is its text.
        obtain ⟨text, hexn⟩ := t.ofError htype
        have hown : text = what := by
          have h := hwhat
          rw [what?, hexn] at h
          exact Option.some.inj h
        have hsame : (error [str "Can't send data: ", what]).exn = t.exn := by
          have h := Option.some.inj (htext.trans (congrArg some hcut))
          rw [hexn, hown]
          exact congrArg Exn.error h
        refine ⟨htype.symm, congrArg Exn.what? hsame, fun name => ?_⟩
        rw [hsame]

end Thrown

/-! ## Exceptions without a reply -/

def ReplyOp.raised? : ReplyOp → Option Thrown
  | .raised t => some t
  | .call _ | .head _ | .body _ | .frpc _ => none

def ReplyOp.isHead : ReplyOp → Bool
  | .head _ => true
  | .call _ | .body _ | .frpc _ | .raised _ => false

/-- The exceptions that have been raised, in order. -/
def raised (ops : List ReplyOp) : List Thrown := ops.filterMap ReplyOp.raised?

/-- The exceptions that are not turned into a reply: no head is started behind them. -/
def unreplied : List ReplyOp → List Thrown
  | [] => []
  | op :: ops =>
    match op.raised? with
    | some t => if ops.any ReplyOp.isHead then unreplied ops else t :: unreplied ops
    | none => unreplied ops

theorem mem_raised_of_mem_unreplied {t : Thrown} {ops : List ReplyOp} (h : t ∈ unreplied ops) :
    t ∈ raised ops := by
  induction ops with
  | nil => exact h
  | cons op ops ih =>
    cases op with
    | raised t' =>
      show t ∈ t' :: raised ops
      have hsplit : t ∈ unreplied ops ∨ t = t' := by
        rw [unreplied, ReplyOp.raised?] at h
        dsimp only at h
        split at h
        · exact .inl h
        · exact (List.mem_cons.mp h).symm
      rcases hsplit with hlater | rfl
      · exact List.mem_cons_of_mem t' (ih hlater)
      · exact List.mem_cons_self
    | call | head | body | frpc => exact ih h

/-- **What `run` receives**: of every exception without a reply, one that it cannot tell from it;
    and nothing else that has not been raised. -/
def ErrorKept (outcome : Except Thrown Unit) (ops : List ReplyOp) : Prop :=
  (∀ t ∈ unreplied ops, ∃ t', outcome = .error t' ∧ Thrown.Same t' t) ∧
    ∀ t', outcome = .error t' → ∃ t ∈ raised ops, Thrown.Same t' t

/-- What one exception has and no other. -/
theorem iff_mem_singleton {P : Thrown → Prop} {t : Thrown} (h : P t) (honly : ∀ u, P u → u = t)
    (u : Thrown) : P u ↔ u ∈ [t] := by
  rw [List.mem_singleton]
  constructor
  · exact honly u
  · rintro rfl
    exact h

/-- **What becomes of exceptions**: `f t` of an exception `t` without a reply.  Where each one has a
    reply, nothing comes out that has not been raised. -/
structure ComesOut (f : Thrown → Thrown) (outcome : Except Thrown Unit) (ops : List ReplyOp) :
    Prop where
  received : ∀ t ∈ unreplied ops, outcome = .error (f t)
  answered : unreplied ops = [] → ∀ t, outcome = .error t → t ∈ raised ops

namespace ComesOut

variable {f : Thrown → Thrown} {outcome : Except Thrown Unit} {ops : List ReplyOp}

theorem exists_raised (h : ComesOut f outcome ops) {t' : Thrown} (hout : outcome = .error t') :
    (∃ t ∈ unreplied ops, t' = f t) ∨ t' ∈ raised ops := by
  by_cases hnone : unreplied ops = []
  · exact .inr (h.answered hnone t' hout)
  · obtain ⟨t, ht⟩ := List.exists_mem_of_ne_nil (unreplied ops) hnone
    exact .inl ⟨t, ht, Except.error.inj (hout.symm.trans (h.received t ht))⟩

/-- `run` receives what it has to exactly where `f` leaves all of them as they are. -/
theorem errorKept_iff {Kept : Thrown → Prop} (hf : ∀ t, Thrown.Same (f t) t ↔ Kept t)
    (h : ComesOut f outcome ops) : ErrorKept outcome ops ↔ ∀ t ∈ unreplied ops, Kept t := by
  constructor
  · intro hkept t ht
    obtain ⟨t', hout, hsame⟩ := hkept.1 t ht
    obtain rfl := Except.error.inj ((h.received t ht).symm.trans hout)
    exact (hf t).mp hsame
  · intro hkept
    constructor
    · intro t ht
      exact ⟨f t, h.received t ht, (hf t).mpr (hkept t ht)⟩
    · intro t' hout
      rcases h.exists_raised hout with ⟨t, ht, rfl⟩ | hraised
      · exact ⟨t, mem_raised_of_mem_unreplied ht, (hf t).mpr (hkept t ht)⟩
      · exact ⟨t', hraised, .refl t'⟩

end ComesOut

/-! ## The two handlers -/

namespace TypedHttp

variable (c : TypedHttp Header Regex)

/-- An operation of a served connection fails, and no reply says so. -/
inductive Fails : Thrown → Prop
  /-- The send of the fixed reply to a request that cannot be read. -/
  | badRequest {t t' : Thrown} (hread : c.readRequest = .error t)
      (hreply : c.io.sendData 0 badRequest = .error t') : Fails t'
  | regexMatch {request : Request Header} {t : Thrown} (hread : c.readRequest = .ok request)
      (hfind : c.findMethod request.uri 0 c.worker.registry = .error t) : Fails t
  | head {request : Request Header} {found : Option (Nat × Method Header × List Bytes)}
      {t : Thrown} (hread : c.readRequest = .ok request)
      (hfind : c.findMethod request.uri 0 c.worker.registry = .ok found)
      (hhead : c.io.sendData 0 ((c.response request found).head c.worker.http) = .error t) :
      Fails t
  | body {request : Request Header} {found : Option (Nat × Method Header × List Bytes)}
      {t : Thrown} (hread : c.readRequest = .ok request)
      (hfind : c.findMethod request.uri 0 c.worker.registry = .ok found)
      (hhead : c.io.sendData 0 ((c.response request found).head c.worker.http) = .ok ())
      (hbody : c.io.sendData 1 (c.response request found).data = .error t) : Fails t

theorem unreplied_calls_append (found : Option (Nat × Method Header × List Bytes))
    (ops : List ReplyOp) : unreplied (calls found ++ ops) = unreplied ops := by
  cases found <;> rfl

variable {c} {outcome : Except Thrown Unit} {ops : List ReplyOp}

/-- These are the exceptions without a reply. -/
theorem Service.fails_iff (h : c.Service (outcome, ops)) (t : Thrown) :
    c.Fails t ↔ t ∈ unreplied ops := by
  cases h with
  | answered hread hreply =>
    refine iff_of_false (fun hfails => ?_) List.not_mem_nil
    cases hfails <;> grind
  | unanswered hread hreply =>
    refine iff_mem_singleton (.badRequest hread hreply) (fun u hfails => ?_) t
    cases hfails <;> grind
  | unmatched hread hfind =>
    refine iff_mem_singleton (.regexMatch hread hfind) (fun u hfails => ?_) t
    cases hfails <;> grind
  | cutHead hread hfind hhead =>
    rw [unreplied_calls_append]
    refine iff_mem_singleton (.head hread hfind hhead) (fun u hfails => ?_) t
    cases hfails <;> grind
  | cutBody hread hfind hhead hbody =>
    rw [unreplied_calls_append]
    refine iff_mem_singleton (.body hread hfind hhead hbody) (fun u hfails => ?_) t
    cases hfails <;> grind
  | served hread hfind hhead hbody =>
    rw [unreplied_calls_append]
    refine iff_of_false (fun hfails => ?_) List.not_mem_nil
    cases hfails <;> grind

/-- They come out by `throw e`. -/
theorem Service.comesOut (h : c.Service (outcome, ops)) : ComesOut Thrown.rethrown outcome ops := by
  cases h with
  | answered => exact ⟨List.forall_mem_nil _, nofun⟩
  | unanswered | unmatched => exact ⟨List.forall_mem_singleton.mpr rfl, nofun⟩
  | cutHead | cutBody =>
    constructor <;> rw [unreplied_calls_append]
    · exact List.forall_mem_singleton.mpr rfl
    · exact nofun
  | served =>
    constructor <;> rw [unreplied_calls_append]
    · exact List.forall_mem_nil _
    · exact nofun

end TypedHttp

namespace TypedFrpc

theorem unreplied_frpc_append (steps : List FrpcStep) (ops : List ReplyOp) :
    unreplied (steps.map .frpc ++ ops) = unreplied ops := by
  induction steps with
  | nil => rfl
  | cons step steps ih => exact ih

/-- What FastRPC's `serve` throws is thrown on. -/
theorem comesOut (steps : List FrpcStep) (outcome : Except Thrown Unit) :
    ComesOut id outcome (steps.map .frpc ++ raises outcome) := by
  constructor <;> rw [unreplied_frpc_append]
  · cases outcome with
    | ok => exact List.forall_mem_nil _
    | error t => exact List.forall_mem_singleton.mpr rfl
  · cases outcome with
    | ok => exact nofun
    | error t => exact nofun

end TypedFrpc

namespace ReplyConnection

open ReplyProgram

variable (c : ReplyConnection Header Regex)

/-- The send of the fixed reply to a refused connection fails. -/
inductive ReplyFails : Thrown → Prop
  | unreadable {t t' : Thrown} (hread : c.io.readHead = .error t)
      (hreply : c.io.sendData 0 c.badRequest = .error t') : ReplyFails t'
  /-- Its refusal has failed before. -/
  | unsendable {protocol : Bytes} {t t' : Thrown} (hread : c.io.readHead = .ok protocol)
      (hsend : c.io.sendData 0 (protocol ++ c.forbiddenText) = .error t)
      (hreply : c.io.sendData 1 c.badRequest = .error t') : ReplyFails t'

variable {c} {outcome : Except Thrown Unit} {ops : List ReplyOp}

/-- These are the exceptions without a reply. -/
theorem replyFails_iff
    (h : Refusal c.forbiddenText c.badRequest c.io c.closing (outcome, ops)) (t : Thrown) :
    c.ReplyFails t ↔ t ∈ unreplied ops := by
  cases h with
  | refused hread hsend =>
    refine iff_of_false (fun hfails => ?_) List.not_mem_nil
    cases hfails <;> grind
  | answered hread hreply =>
    refine iff_of_false (fun hfails => ?_) List.not_mem_nil
    cases hfails <;> grind
  | unanswered hread hreply =>
    refine iff_mem_singleton (.unreadable hread hreply) (fun u hfails => ?_) t
    cases hfails <;> grind
  | resent hread hsend hreply =>
    refine iff_of_false (fun hfails => ?_) List.not_mem_nil
    cases hfails <;> grind
  | lost hread hsend hreply =>
    refine iff_mem_singleton (.unsendable hread hsend hreply) (fun u hfails => ?_) t
    cases hfails <;> grind

/-- Where the fixed reply has been sent, nothing else than what it answers is thrown. -/
theorem eq_of_closing {t t' : Thrown} (h : c.closing t = .error t') : t' = t := by
  cases c with
  | http => exact (Except.error.inj h).symm
  | frpc => exact nomatch h

/-- They come out under another name. -/
theorem comesOut_of_refusal
    (h : Refusal c.forbiddenText c.badRequest c.io c.closing (outcome, ops)) :
    ComesOut Thrown.renamed outcome ops := by
  cases h with
  | refused => exact ⟨List.forall_mem_nil _, nofun⟩
  | answered | resent =>
    refine ⟨List.forall_mem_nil _, fun _ t' hout => ?_⟩
    obtain rfl := eq_of_closing hout
    exact List.mem_singleton_self t'
  | unanswered | lost => exact ⟨List.forall_mem_singleton.mpr rfl, nofun⟩

/-- What comes out for an exception without a reply. -/
def thrownFor (c : ReplyConnection Header Regex) (t : Thrown) : Thrown :=
  if c.socket.forbidden = true then t.renamed
  else
    match c with
    | http _ => t.rethrown
    | frpc _ => t

/-- **All ways out of the two handlers.** -/
theorem comesOut (c : ReplyConnection Header Regex) : ComesOut c.thrownFor c.outcome c.record := by
  by_cases hforbidden : c.socket.forbidden = true
  · have hfor : c.thrownFor = Thrown.renamed := funext fun t => if_pos hforbidden
    rw [hfor]
    exact comesOut_of_refusal (c.refusal_of_forbidden hforbidden)
  · cases c with
    | http c =>
      have hfor : (http c).thrownFor = Thrown.rethrown := funext fun t => if_neg hforbidden
      have hservice : c.Service ((c.handle.run []).1, (c.handle.run []).2) :=
        c.service_handle hforbidden
      rw [hfor]
      exact hservice.comesOut
    | frpc c =>
      have hfor : (frpc c : ReplyConnection Header Regex).thrownFor = id :=
        funext fun t => if_neg hforbidden
      show ComesOut _ (c.handle.run []).1 (c.handle.run []).2
      rw [hfor, c.run_handle hforbidden]
      exact TypedFrpc.comesOut c.steps c.outcome

/-- What fails on this connection without a reply fails with an exception that the clauses on its
    way leave as it is.  There is none on the way out of FastRPC's `serve`. -/
def FailsAsIs (c : ReplyConnection Header Regex) : Prop :=
  if c.socket.forbidden = true then ∀ t, c.ReplyFails t → t.KeptByRenaming
  else
    match c with
    | http c => ∀ t, c.Fails t → t.KeptBySlicing
    | frpc _ => True

/-- **`run` receives what has been raised exactly where no clause on the way replaces it.** -/
theorem errorKept_iff (c : ReplyConnection Header Regex) :
    ErrorKept c.outcome c.record ↔ c.FailsAsIs := by
  have hout := c.comesOut
  unfold FailsAsIs
  by_cases hforbidden : c.socket.forbidden = true
  · have hsame : ∀ t, Thrown.Same (c.thrownFor t) t ↔ t.KeptByRenaming := by
      intro t
      rw [show c.thrownFor t = t.renamed from if_pos hforbidden]
      exact t.same_renamed_iff
    have hrefusal := c.refusal_of_forbidden hforbidden
    rw [if_pos hforbidden, hout.errorKept_iff hsame]
    exact forall_congr' fun t => imp_congr_left (replyFails_iff hrefusal t).symm
  · rw [if_neg hforbidden]
    cases c with
    | http c =>
      have hsame : ∀ t, Thrown.Same ((http c).thrownFor t) t ↔ t.KeptBySlicing := by
        intro t
        rw [show (http c).thrownFor t = t.rethrown from if_neg hforbidden]
        exact t.same_rethrown_iff
      have hservice : c.Service ((c.handle.run []).1, (c.handle.run []).2) :=
        c.service_handle hforbidden
      rw [hout.errorKept_iff hsame]
      exact forall_congr' fun t => imp_congr_left (hservice.fails_iff t).symm
    | frpc c =>
      have hsame : ∀ t, Thrown.Same ((frpc c : ReplyConnection Header Regex).thrownFor t) t ↔
          True := by
        intro t
        rw [show (frpc c : ReplyConnection Header Regex).thrownFor t = t from if_neg hforbidden]
        exact iff_true_intro (.refl t)
      rw [hout.errorKept_iff hsame]
      exact iff_true_intro fun _ _ => trivial

/-- On its way through the HTTP handler this exception meets `throw e`. -/
def Slices (c : ReplyConnection Header Regex) (t : Thrown) : Prop :=
  match c with
  | http c => ¬ c.socket.forbidden = true ∧ t.what? ≠ none
  | frpc _ => False

/-- What else becomes of an exception without a reply: a refused connection throws it as one about
    the fixed reply. -/
def passedOn (c : ReplyConnection Header Regex) (t : Thrown) : Thrown :=
  if c.socket.forbidden = true then t.renamed else t

theorem thrownFor_of_not_slices {t : Thrown} (h : ¬ c.Slices t) : c.thrownFor t = c.passedOn t := by
  unfold thrownFor passedOn
  by_cases hforbidden : c.socket.forbidden = true
  · rw [if_pos hforbidden, if_pos hforbidden]
  · rw [if_neg hforbidden, if_neg hforbidden]
    cases c with
    | http c =>
      have hnone : t.what? = none := by
        by_contra hwhat
        exact h ⟨hforbidden, hwhat⟩
      exact Thrown.rethrown_of_none hnone
    | frpc c => rfl

/-- **What comes out where nothing is sliced**: every exception without a reply, as it was raised or
    as one about the fixed reply; and nothing else than what has been raised. -/
structure PassesOn (c : ReplyConnection Header Regex) : Prop where
  received : ∀ t ∈ unreplied c.record, ¬ c.Slices t → c.outcome = .error (c.passedOn t)
  isRaised : ∀ t', c.outcome = .error t' →
    (∃ t ∈ unreplied c.record, c.Slices t ∨ t' = c.passedOn t) ∨ t' ∈ raised c.record

theorem passesOn (c : ReplyConnection Header Regex) : c.PassesOn := by
  have hout := c.comesOut
  constructor
  · intro t ht hwhole
    rw [← thrownFor_of_not_slices hwhole]
    exact hout.received t ht
  · intro t' ht'
    rcases hout.exists_raised ht' with ⟨t, ht, rfl⟩ | hraised
    · refine .inl ⟨t, ht, ?_⟩
      by_cases hslices : c.Slices t
      · exact .inl hslices
      · exact .inr (thrownFor_of_not_slices hslices)
    · exact .inr hraised

end ReplyConnection

/-! ## A client that has gone -/

/-- **Another exception**: FastRPC's `ProtocolError_t` is raised, and `run` receives an
    `Error_t`. -/
theorem goneConnection_errorReplaced :
    ¬ ErrorKept (goneConnection true).outcome (goneConnection true).record := by
  intro h
  have hout : (goneConnection true).outcome = .error sendFailure.renamed := rfl
  have hops : unreplied (goneConnection true).record = [sendFailure] := rfl
  obtain ⟨t', hout', hsame⟩ := h.1 sendFailure (hops ▸ List.mem_singleton_self sendFailure)
  obtain rfl := Except.error.inj (hout.symm.trans hout')
  exact absurd hsame.dynamicType (by decide)

end ThreadServer
