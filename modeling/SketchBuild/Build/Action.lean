import SketchBuild.Build.Failure
import SketchBuild.Host.Basic

/-!
# Actions

An action works on a host and succeeds or fails. What it did before a failure stays done.
-/

namespace SketchBuild

/-- Computations on a host that may fail. -/
abbrev Action (m : Type → Type) := ExceptT Failure m

namespace Action

variable {m : Type → Type} [Monad m] [Host m]

/-- Asks the host for something; an error of the operating system becomes the given failure. -/
def orFail {α : Type} (failure : OsError → Failure) (request : m (Except OsError α)) :
    Action m α :=
  .mk do
    match ← request with
    | .ok a => return .ok a
    | .error e => return .error (failure e)

/-- Records an event. -/
def record (event : Event) : Action m Unit :=
  ExceptT.lift (Host.record event)

/-- Prints a text. -/
def print (t : Text) : Action m Unit :=
  ExceptT.lift (Host.print t)

end Action

end SketchBuild
