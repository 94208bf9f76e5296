import SketchBuild.Path.Basic

/-!
# Names of generated files

The generated file is named after the sketch, with the last extension replaced by `.cpp`. An
extension is not empty and consists of letters, numbers and underscores; anything else after the
last dot belongs to the name.
-/

namespace SketchBuild

/-- The characters of an extension. -/
def isExtensionChar (c : Char) : Bool :=
  Text.isAlphanumeric c || c == '_'

/-- A file name without its extension. -/
def stem (name : Text) : Text :=
  match Text.splitLast? '.' name with
  | some (front, extension) =>
    if extension ≠ [] ∧ extension.all isExtensionChar then front else name
  | none => name

/-- The name of the file that is generated from a sketch. -/
def outputName (sketch : Path) : Text :=
  stem (sketch.fileName?.getD []) ++ ".cpp".toList

end SketchBuild
