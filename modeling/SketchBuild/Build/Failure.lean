import SketchBuild.Depfile.Augment
import SketchBuild.FileTree.OsError

/-!
# Failures

Why the tool gives up. Most failures say what was attempted and carry the error of the operating
system as their cause.
-/

namespace SketchBuild

/-- Why the tool gives up. -/
inductive Failure
  | readSketch (path : Path) (cause : OsError)
  | writeOutput (path : Path) (cause : OsError)
  | createDirectory (path : Path) (cause : OsError)
  | readConfig (path : Path) (cause : OsError)
  /-- The configuration is not JSON, or not that of a project. -/
  | parseConfig (path : Path)
  /-- A file or directory that a build step names could not be used. -/
  | file (path : Path) (cause : OsError)
  | versionConflict (conflict : VersionConflict)
  deriving DecidableEq, Repr

/-- The wording of a conflict. -/
def VersionConflict.message (conflict : VersionConflict) : Text :=
  conflict.target ++ " required ".toList ++ Text.ofNat conflict.count
    ++ " different versions of the ".toList ++ conflict.library ++ " library".toList

namespace Failure

/-- What was attempted, for those failures that say so apart from their cause. -/
def attempt? : Failure → Option Text
  | .readSketch path _ => some ("failed to read sketch ".toList ++ path.text)
  | .writeOutput path _ => some ("failed to write ".toList ++ path.text)
  | .createDirectory path _ => some ("failed to create ".toList ++ path.text)
  | .readConfig path _ => some ("failed to read config ".toList ++ path.text)
  | .parseConfig path => some ("failed to parse config ".toList ++ path.text)
  | .file _ _ => none
  | .versionConflict _ => none

/-- The error of the operating system behind a failure. -/
def cause? : Failure → Option OsError
  | .readSketch _ cause | .writeOutput _ cause | .createDirectory _ cause
  | .readConfig _ cause | .file _ cause => some cause
  | .parseConfig _ | .versionConflict _ => none

/-- A failure in one line. -/
def message : Failure → Text
  | .file path cause => path.text ++ ": ".toList ++ cause.message
  | .versionConflict conflict => conflict.message
  | failure =>
    failure.attempt?.getD [] ++
      match failure.cause? with
      | some cause => ": ".toList ++ cause.message
      | none => []

/-- What the report of a failure starts with. -/
def headline (failure : Failure) : Text :=
  failure.attempt?.getD failure.message

/-- A failure as it is reported at the end of a run: the headline, and the cause in a paragraph of
its own. A configuration that cannot be understood is reported by its headline alone. -/
def report (failure : Failure) : Text :=
  "Error: ".toList ++ failure.headline ++
    match failure, failure.cause? with
    | .parseConfig _, _ => []
    | _, some cause => "\n\nCaused by:\n    ".toList ++ cause.message ++ ['\n']
    | _, none => ['\n']

end Failure

end SketchBuild
