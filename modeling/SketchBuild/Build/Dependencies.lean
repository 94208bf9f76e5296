import SketchBuild.Build.Action

/-!
# Augmenting dependency files

The dependency file is read, augmented and written under another name. Which library a header
belongs to is told by the directory that really holds it, links followed; a header that cannot be
found is taken by its path. A conflict is found before anything is written.
-/

namespace SketchBuild.Depfile

variable {m : Type → Type} [Monad m] [Host m]

/-- The library that a header belongs to. -/
def libraryOf (header : Text) : m LibraryId := do
  let path := (← Host.canonical? ⟨header⟩).getD ⟨header⟩
  return .ofDirectoryName (directoryName path)

/-- The augmented content of a dependency file. -/
def augmentHere (registry : Registry) (content : Text) : Action m Text := do
  let depfile := read content
  let used ← ExceptT.lift (depfile.headers.mapM libraryOf)
  if depfile.target? = none ∧ used ≠ [] then
    Action.record .targetMissing
  match augment registry used content with
  | .ok augmented => return augmented
  | .error conflict => throw (.versionConflict conflict)

/-- Augments a dependency file and returns where the result was written; without such a file
nothing happens. -/
def convert (registry : Registry) (path : Path) (output? : Option Path) :
    Action m (Option Path) := do
  if ← Host.isFile (m := m) path then
    let output := output?.getD (outputPath path)
    let content ← Action.orFail (.file path) (Host.read path)
    let augmented ← augmentHere registry content
    Action.orFail (.file output) (Host.write output augmented)
    Action.record (.depfileWritten path output)
    return some output
  else
    Action.record (.depfileMissing path)
    return none

end SketchBuild.Depfile
