import SketchBuild.FileTree.Basic

/-!
# Finding files

A path is walked piece by piece from the root or from the current directory. Every piece has to be
looked up in a directory, also an empty piece and a dot, which stay there; so a trailing slash asks
for a directory. A link is replaced by its target, at most forty times in one walk.

The walk can be one that may create a file. Then the last name need not exist, but a name with a
slash after it is refused, since only a directory could be meant.
-/

namespace SketchBuild.FileTree

/-- The pieces of a path between its slashes. -/
def pieces (p : Path) : List Text :=
  Text.split '/' p.text

/-- Where a path starts, given the current directory. -/
def start (current : Location) (p : Path) : Location :=
  if p.isAbsolute then [] else current

/-- The most bytes that a name may have. -/
def maxNameLength : Nat := 255

/-- The most bytes that a path may have. -/
def maxPathLength : Nat := 4095

/-- The most links that a walk follows. -/
def maxLinks : Nat := 40

/-- What is at a name in a directory. -/
def lookup (tree : FileTree) (directory : Location) (name : Text) :
    Except OsError (Option FileEntry) :=
  if Text.utf8Length name > maxNameLength then .error .nameTooLong
  else .ok (tree.get? (directory ++ [name]))

/-- Walks on from a location until a link is met, with which `follow` goes on. -/
def walkWith (tree : FileTree) (mayCreate : Bool)
    (follow : Location → List Text → Except OsError Location) :
    Location → List Text → Except OsError Location
  | here, [] => .ok here
  | here, piece :: rest =>
    if !tree.isDirectoryAt here then .error .notDirectory
    else if Path.isIdle piece then walkWith tree mayCreate follow here rest
    else if piece = ['.', '.'] then walkWith tree mayCreate follow here.dropLast rest
    else if mayCreate ∧ rest ≠ [] ∧ rest.all (· = []) then .error .isDirectory
    else match tree.lookup here piece with
      | .error e => .error e
      | .ok none =>
        if mayCreate ∧ rest = [] then .ok (here ++ [piece]) else .error .noEntry
      | .ok (some (.link target)) => follow (start here target) (pieces target ++ rest)
      | .ok (some _) => walkWith tree mayCreate follow (here ++ [piece]) rest

/-- Walks on from a location, following at most the given number of links. -/
def walk (tree : FileTree) (mayCreate : Bool) :
    (links : Nat) → Location → List Text → Except OsError Location
  | 0 => walkWith tree mayCreate fun _ _ => .error .tooManyLinks
  | links + 1 => walkWith tree mayCreate (walk tree mayCreate links)

/-- What makes a text no path at all. -/
def checkText (p : Path) : Except OsError Unit :=
  if '\x00' ∈ p.text then .error .nulInPath
  else if p.text = [] then .error .noEntry
  else .ok ()

/-- What makes a path unusable before any file is looked at. -/
def check (p : Path) : Except OsError Unit := do
  checkText p
  if Text.utf8Length p.text > maxPathLength then .error .nameTooLong
  else .ok ()

/-- The location that a path leads to, all links followed. -/
def locate (tree : FileTree) (mayCreate : Bool) (current : Location) (p : Path) :
    Except OsError Location := do
  check p
  tree.walk mayCreate maxLinks (start current p) (pieces p)

/-- The location that a path of any length leads to. Its pieces are looked up one at a time, so
only the length of each name is bounded. -/
def resolve (tree : FileTree) (current : Location) (p : Path) : Except OsError Location := do
  checkText p
  tree.walk false maxLinks (start current p) (pieces p)

end SketchBuild.FileTree
