import Codeflux.Library.Outcome
import Codeflux.Go.Text

/-!
# Errors of the source

One type holds every error value the modelled functions return. Wrapping keeps the cause, as `%w`
does.
-/

namespace Codeflux

/-- An error value of the source. -/
inductive Failure
  /-- Made by `errors.New(text)`. -/
  | new (text : String)
  /-- Made by `fmt.Errorf(context + ": %w", cause)`. -/
  | wrap (context : String) (cause : Failure)
  /-- Made by `fmt.Errorf("%w: " + detail, cause)`. -/
  | detail (cause : Failure) (detail : String)
  /-- Made by `fmt.Errorf("%w: %w", kind, cause)`. -/
  | classified (kind cause : Failure)
  /-- Made by `errors.Join(first, second)`. -/
  | joined (first second : Failure)
  /-- A `*domain.ValueError`. -/
  | value (field reason : String)
  /-- An `*domain.IDParseError`. -/
  | identity (kind value reason : String)
  /-- A `*domain.TransitionError`. -/
  | transition (machine source target : String) (cause : Failure)
  /-- A `*storage.Error`. -/
  | typed (kind : Failure) (operation : String) (cause : Failure)
  /-- A `*transport.RequestValidationError`. Its reason is the text `reason` followed by that of the
  cause, which is not on the chain of causes. -/
  | request (field reason : String) (cause : Failure)
deriving DecidableEq

/-- Does the chain of causes of an error contain `target`? This is `errors.Is`. -/
def Failure.Is (target : Failure) : Failure → Bool
  | e@(.wrap _ cause) => e == target || Failure.Is target cause
  | e@(.detail cause _) => e == target || Failure.Is target cause
  | e@(.classified kind cause) => e == target || Failure.Is target kind || Failure.Is target cause
  | e@(.joined first second) => e == target || Failure.Is target first || Failure.Is target second
  | e@(.transition _ _ _ cause) => e == target || Failure.Is target cause
  | e@(.typed kind _ cause) => e == target || Failure.Is target kind || Failure.Is target cause
  | e => e == target

/-- The outcome of a fallible function of the source. -/
abbrev Result (α : Type) := Except Failure α

end Codeflux
