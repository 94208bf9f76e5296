import SketchBuild.Build.Action

/-!
# Creating directories

A directory is created together with the directories above it, as far as they are missing. That a
directory is already there is no error.
-/

namespace SketchBuild

/-- A path and the given number of paths above it, as far as there are any. -/
def Path.ancestorsWithin : Nat → Path → List Path
  | 0, p => [p]
  | steps + 1, p =>
    p :: match p.parent? with
      | none => []
      | some above => above.ancestorsWithin steps

/-- A path, its parent, the parent of that, and so on. -/
def Path.ancestors (p : Path) : List Path :=
  p.ancestorsWithin p.components.length

section

variable {m : Type → Type} [Monad m] [Host m]

/-- An attempt to create a directory counts if the directory is there afterwards. -/
def acceptDirectory (p : Path) : Except OsError Unit → m (Except OsError Unit)
  | .ok () => return .ok ()
  | .error e => do
    if ← Host.isDirectory p then return .ok () else return .error e

/-- Creates the first of the given directories; where the directory above it is missing, that one
first. -/
def makeFirstDirectory : List Path → m (Except OsError Unit)
  | [] => return .ok ()
  | p :: above => do
    if p.text = [] then return .ok ()
    else match ← Host.makeDirectory p with
      | .error .noEntry =>
        match ← makeFirstDirectory above with
        | .error e => return .error e
        | .ok () => acceptDirectory p (← Host.makeDirectory p)
      | result => acceptDirectory p result

/-- Creates a directory and the directories above it. -/
def makeDirectories (p : Path) : m (Except OsError Unit) :=
  makeFirstDirectory p.ancestors

end

end SketchBuild
