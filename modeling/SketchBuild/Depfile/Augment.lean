import SketchBuild.Depfile.Basic
import SketchBuild.Library.Identity
import SketchBuild.Project.Basic

/-!
# Augmented dependency files

To the content of a dependency file are added

* an empty rule for every item, so that make does not stop over a header that is gone;
* for every configured library whose headers are among the items, a rule that makes the target
  depend on the stamp of that library in that version.

A directory without a version stands for the configured one. A target can use one version of a
library only: two are a conflict, and the first conflicting library in the order of names is
reported.
-/

namespace SketchBuild

/-- A target that needs several versions of one library. -/
structure VersionConflict where
  target : Text
  count : Nat
  library : Text
  deriving DecidableEq, Repr

namespace Depfile

/-- The version that a library directory stands for. -/
def effectiveVersion (library : Library) (id : LibraryId) : Text :=
  if id.version = [] then library.version else id.version

/-- The versions in use of the library with the given name, each once. -/
def versions (used : List LibraryId) (name : Text) (library : Library) : List Text :=
  ((used.filter (·.name = name)).map (effectiveVersion library)).eraseDups

/-- The empty rule of an item. -/
def phonyRule (item : Text) : Text :=
  item ++ [':', '\n']

/-- The stamp of a library. -/
def stamp (name version : Text) : Text :=
  (if version = [] then name else name ++ '-' :: version) ++ ".alib".toList

/-- The rule that makes a target depend on a stamp. -/
def stampRule (target name version : Text) : Text :=
  target ++ " : ".toList ++ stamp name version ++ ['\n']

/-- The stamp rules of the given libraries, as far as they are in use. -/
def stampRules (target : Text) (used : List LibraryId) :
    List (Text × Library) → Except VersionConflict (List Text)
  | [] => .ok []
  | (name, library) :: others =>
    match versions used name library with
    | [] => stampRules target used others
    | [version] => (stampRule target name version :: ·) <$> stampRules target used others
    | several => .error ⟨target, several.length, name⟩

/-- The content with a newline at its end, unless it is empty. -/
def closed (content : Text) : Text :=
  if content = [] ∨ content.getLast? = some '\n' then content else content ++ ['\n']

/-- The augmented content, given the libraries that the headers among the items belong to. -/
def augment (registry : Registry) (used : List LibraryId) (content : Text) :
    Except VersionConflict Text := do
  let depfile := read content
  let rules ← match depfile.target? with
    | none => pure []
    | some target => stampRules target used registry.toList
  return closed content ++ depfile.items.flatMap phonyRule ++ rules.flatten

end Depfile

end SketchBuild
