/-
  The texts of the server's exceptions (`Error_t` in `error.cc`, `HttpError_t` in
  `cpphttphandler.cc`, `RpcError_t` in `cppfrpchandler.cc`).

  Each class has two constructors: one takes a `printf` format with its arguments, the other a
  finished message.  `HttpError_t` and `RpcError_t` format their arguments into a string, and hand
  its `c_str()` to `Error_t`.  That is a `const char *`, so the constructor chosen there is the one
  that takes a FORMAT: the finished text is formatted once more, without arguments.

  `formats_once_iff` says when that does no harm: exactly when the finished text has no `%`.
-/
import ThreadServer.Error
import ThreadServer.Lib.Printf

namespace ThreadServer

open Bytes Printf

/-- `RpcError_t`: its code and its `what()`. -/
structure RpcError where
  code : Int
  what : Bytes
  deriving DecidableEq

/-! ## The program -/

/-- `Error_t(const char *format, ...)`: its `what()`. -/
def Error.format (format : Bytes) (args : List Arg) : Option Bytes :=
  vsnprintf Exn.messageBufferSize format args

/-- `Error_t(const std::string &message)`: its `what()`. -/
def Error.message (message : Bytes) : Bytes := cStr message

/-- `HTTPERROR_MESSAGEBUFFERSIZE` and `RPCERROR_MESSAGEBUFFERSIZE`. -/
def derivedBufferSize : Nat := 65536

/-- What the formatting constructors of `HttpError_t` and `RpcError_t` do with the text: they format
    it into a string, and pass that to `Error_t` as a C string. -/
def derivedFormat (format : Bytes) (args : List Arg) : Option Bytes := do
  let result ← vsnprintf derivedBufferSize format args
  Error.format result []

/-- `HttpError_t(code, format, ...)`. -/
def HttpError.format (code : Int) (format : Bytes) (args : List Arg) : Option Exn :=
  (derivedFormat format args).map (.httpError code)

/-- `HttpError_t(code, message)`. -/
def HttpError.message (code : Int) (message : Bytes) : Exn :=
  .httpError code (Error.message message)

/-- `RpcError_t(code, format, ...)`. -/
def RpcError.format (code : Int) (format : Bytes) (args : List Arg) : Option RpcError :=
  (derivedFormat format args).map (.mk code)

/-- `RpcError_t(code, message)`. -/
def RpcError.message (code : Int) (message : Bytes) : RpcError := ⟨code, Error.message message⟩

/-! ## The specification -/

/-- **The text of an error**: its format and its arguments, formatted exactly once and cut at 65535
    bytes. -/
def formattedOnce (format : Bytes) (args : List Arg) : Option Bytes :=
  (vprintf (cStr format) args).map fun text => text.take 65535

/-- What was formatted is formatted again, without arguments. -/
theorem derivedFormat_eq (format : Bytes) (args : List Arg) :
    derivedFormat format args =
      (formattedOnce format args).bind fun text => vsnprintf Exn.messageBufferSize text [] := rfl

/-- **The second formatting** leaves the text alone exactly if the text has no `%`. -/
theorem derivedFormat_eq_once_iff (format : Bytes) (args : List Arg) :
    derivedFormat format args = formattedOnce format args ↔
      ∀ text, formattedOnce format args = some text → chr '%' ∉ text := by
  rw [derivedFormat_eq]
  cases honce : formattedOnce format args with
  | none => exact ⟨fun _ => nofun, fun _ => rfl⟩
  | some text =>
    have hbuffer : vsnprintf Exn.messageBufferSize format args = some text := honce
    obtain ⟨hzero, hlength⟩ := vsnprintf_eq_some hbuffer
    show vsnprintf _ text [] = some text ↔ _
    rw [vsnprintf_nil_eq_self_iff hzero hlength]
    constructor
    · intro h text' heq
      obtain rfl := Option.some.inj heq
      exact h
    · intro h
      exact h text rfl

/-- **Errors are formatted once where nothing looks like a format.**  The formatting constructors of
    `HttpError_t` and `RpcError_t` give the text formatted once exactly if that text has no `%`; and
    a message passed through `"%s"` is the message passed as a string exactly if it has no `%`. -/
theorem formats_once_iff (code : Int) (format : Bytes) (args : List Arg) :
    (HttpError.format code format args = (formattedOnce format args).map (.httpError code) ↔
      ∀ text, formattedOnce format args = some text → chr '%' ∉ text) ∧
    (RpcError.format code format args = (formattedOnce format args).map (.mk code) ↔
      ∀ text, formattedOnce format args = some text → chr '%' ∉ text) ∧
    ∀ message : Bytes, 0 ∉ message → message.length ≤ 65535 →
      (HttpError.format code (str "%s") [.str message] = some (HttpError.message code message) ↔
        chr '%' ∉ message) := by
  have hhttp : Function.Injective (Option.map (Exn.httpError code)) :=
    Option.map_injective fun _ _ h => (Exn.httpError.inj h).2
  have hrpc : Function.Injective (Option.map (RpcError.mk code)) :=
    Option.map_injective fun _ _ h => (RpcError.mk.inj h).2
  refine ⟨?_, ?_, fun message hzero hlength => ?_⟩
  · rw [HttpError.format, hhttp.eq_iff, derivedFormat_eq_once_iff]
  · rw [RpcError.format, hrpc.eq_iff, derivedFormat_eq_once_iff]
  · have honce : formattedOnce (str "%s") [.str message] = some message :=
      vsnprintf_string 65536 hzero hlength
    have hmessage : some (HttpError.message code message)
        = (formattedOnce (str "%s") [.str message]).map (.httpError code) := by
      rw [honce, HttpError.message, Error.message, cStr_of_zero_notMem hzero]
      rfl
    rw [hmessage, HttpError.format, hhttp.eq_iff, derivedFormat_eq_once_iff, honce]
    refine ⟨fun h => h message rfl, fun h text heq => ?_⟩
    obtain rfl := Option.some.inj heq
    exact h

/-- A message without `%`, at its full length. -/
theorem notFound_formatted :
    HttpError.format 404 (str "%s") [.str (str "Not found")]
      = some (HttpError.message 404 (str "Not found")) :=
  ((formats_once_iff 404 (str "%s") []).2.2 (str "Not found") (by decide) (by decide)).mpr
    (by decide)

/-- **A doubled `%` is lost**: the message `50%% off` becomes `50% off`. -/
theorem percent_formatted_twice :
    HttpError.format 400 (str "%s") [.str (str "50%% off")]
        = some (.httpError 400 (str "50% off")) ∧
      HttpError.format 400 (str "%s") [.str (str "50%% off")]
        ≠ some (HttpError.message 400 (str "50%% off")) := by
  have htwice : HttpError.format 400 (str "%s") [.str (str "50%% off")]
      = some (.httpError 400 (str "50% off")) := by decide +kernel
  refine ⟨htwice, ?_⟩
  rw [htwice]
  decide

end ThreadServer
