import SketchBuild.Text.Basic

/-!
# Errors of the operating system

The errors that files give rise to, each a cause of its own, and their wording. Errors of the system
carry their number.
-/

namespace SketchBuild

/-- Why a file could not be used. -/
inductive OsError
  | noEntry
  | fileExists
  | notDirectory
  | isDirectory
  | nameTooLong
  | tooManyLinks
  /-- A text was expected and the bytes are not UTF-8. -/
  | notUtf8
  /-- A path with a NUL character names nothing. -/
  | nulInPath
  /-- Any other error, by its number and its wording. -/
  | other (code : Nat) (wording : Text)
  deriving DecidableEq, Repr

namespace OsError

/-- The error with a number of the system. -/
def ofCode (code : Nat) (wording : Text) : OsError :=
  match code with
  | 2 => .noEntry
  | 17 => .fileExists
  | 20 => .notDirectory
  | 21 => .isDirectory
  | 36 => .nameTooLong
  | 40 => .tooManyLinks
  | _ => .other code wording

/-- An error of the system with its number. -/
def numbered (wording : Text) (code : Nat) : Text :=
  wording ++ " (os error ".toList ++ Text.ofNat code ++ [')']

/-- The wording of an error. -/
def message : OsError → Text
  | .noEntry => numbered "No such file or directory".toList 2
  | .fileExists => numbered "File exists".toList 17
  | .notDirectory => numbered "Not a directory".toList 20
  | .isDirectory => numbered "Is a directory".toList 21
  | .nameTooLong => numbered "File name too long".toList 36
  | .tooManyLinks => numbered "Too many levels of symbolic links".toList 40
  | .notUtf8 => "stream did not contain valid UTF-8".toList
  | .nulInPath => "file name contained an unexpected NUL byte".toList
  | .other code wording => numbered wording code

end OsError

end SketchBuild
