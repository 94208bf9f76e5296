import SketchBuild.Text.Basic

/-!
# Library identity

A library lives in a directory named after it, with or without a version: `Servo` or
`Servo-1.1.2`. The version is what follows the last dash that stands before a decimal digit.
-/

namespace SketchBuild

/-- A library by name and version; the version is empty where none is given. -/
structure LibraryId where
  name : Text
  version : Text
  deriving DecidableEq, Repr

namespace LibraryId

/-- The text starts with one of the digits `0` to `9`. -/
def startsWithDigit : Text → Bool
  | [] => false
  | c :: _ => c.isDigit

/-- The text before and after the last dash that stands before a digit. -/
def splitVersion? : Text → Option (Text × Text)
  | [] => none
  | c :: cs =>
    match splitVersion? cs with
    | some (name, version) => some (c :: name, version)
    | none => if c = '-' ∧ startsWithDigit cs then some ([], cs) else none

/-- The library that a directory of the given name holds. A name is never empty for the sake of a
version. -/
def ofDirectoryName (directory : Text) : LibraryId :=
  match splitVersion? directory with
  | some (c :: name, version) => ⟨c :: name, version⟩
  | _ => ⟨directory, []⟩

end LibraryId

end SketchBuild
