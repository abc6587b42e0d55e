/-
  The exceptions of the server (`error.cc` and the classes derived from `Error_t`), and the few
  facts about `Except` that reading a throwing C++ function backwards needs.

  `Exn` records of an exception object what a handler can observe: which of the classes the
  server's `catch` clauses tell apart it belongs to, the C string `what()` returns (so a message is
  recorded up to its first NUL), and the code it carries.  Everything derived from `std::exception`
  that no clause names is `std`; anything else that can be thrown (`throw 42`,
  `boost::thread_interrupted`) is `unknown`.
-/
import ThreadServer.Lib.Bytes

namespace ThreadServer

open Bytes

/-- A `boost::system::error_code`'s value: an `errno`, zero for success. -/
abbrev ErrorCode := Nat

/-- An exception in flight. -/
inductive Exn
  /-- `CppHttpHandler_t::HttpError_t`. -/
  | httpError (code : Int) (what : Bytes)
  /-- `boost::system::system_error`. -/
  | systemError (code : ErrorCode) (what : Bytes)
  /-- `ThreadServer::Error_t` itself. -/
  | error (what : Bytes)
  /-- Any other class derived from `std::exception`. -/
  | std (what : Bytes)
  /-- Anything not derived from `std::exception`. -/
  | unknown
  deriving DecidableEq, Repr

namespace Exn

/-- `e.what()`, for what `catch (const std::exception &e)` catches. -/
def what? : Exn → Option Bytes
  | httpError _ what => some what
  | systemError _ what => some what
  | error what => some what
  | std what => some what
  | unknown => none

/-- `THREADSERVER_ERROR_MESSAGEBUFFERSIZE`. -/
def messageBufferSize : Nat := 65536

/-- `Error_t(format, args...)`: `parts` is the format cut at its `%s`, with the arguments (C
    strings) in between.  `vsnprintf` keeps what fits the buffer with its terminator. -/
def formatted (parts : List Bytes) : Exn :=
  error (parts.flatten.take (messageBufferSize - 1))

/-- `boost::bad_lexical_cast`. -/
def badLexicalCast : Exn :=
  std (str "bad lexical cast: source type value could not be interpreted as target")

end Exn

/-- How a call can end without returning: by an exception, or in an operation C++ gives no
    meaning to. -/
inductive Failure
  | throws (e : Exn)
  /-- A 64-bit constant is shifted by a count outside `0..63`. -/
  | undefinedShift (count : Int)
  deriving DecidableEq, Repr

/-! ## Reading a computation that did not throw backwards -/

theorem bind_eq_ok {ε α β : Type} {x : Except ε α} {f : α → Except ε β} {b : β} :
    (x >>= f) = .ok b ↔ ∃ a, x = .ok a ∧ f a = .ok b := by
  cases x with
  | error e => exact ⟨fun h => (nomatch h), fun h => by obtain ⟨a, ha, -⟩ := h; nomatch ha⟩
  | ok a => exact ⟨fun h => ⟨a, rfl, h⟩, fun h => by
      obtain ⟨a', ha, hf⟩ := h
      obtain rfl := Except.ok.inj ha
      exact hf⟩

end ThreadServer
