import SketchBuild.FileTree.Walk

/-!
# Using files

Reading and writing texts, asking what a path leads to, and creating directories. Only a success of
`write` or `makeDirectory` gives a new tree, so a failure leaves no trace.
-/

namespace SketchBuild.FileTree

/-- The entry that a path leads to. -/
def stat? (tree : FileTree) (current : Location) (p : Path) : Option FileEntry :=
  match tree.locate false current p with
  | .ok location => tree.get? location
  | .error _ => none

/-- The path leads to something. -/
def pathExists (tree : FileTree) (current : Location) (p : Path) : Bool :=
  (tree.stat? current p).isSome

/-- The path leads to a directory. -/
def isDirectory (tree : FileTree) (current : Location) (p : Path) : Bool :=
  tree.stat? current p = some .directory

/-- The path leads to a file. -/
def isFile (tree : FileTree) (current : Location) (p : Path) : Bool :=
  match tree.stat? current p with
  | some (.file _) => true
  | _ => false

/-- The absolute path of a location. -/
def pathOf (location : Location) : Path :=
  ⟨'/' :: Text.join '/' location⟩

/-- The absolute path without links that leads to the same place, if there is one. -/
def canonical? (tree : FileTree) (current : Location) (p : Path) : Option Path :=
  match tree.resolve current p with
  | .ok location => some (pathOf location)
  | .error _ => none

/-- The text of a file. -/
def read (tree : FileTree) (current : Location) (p : Path) : Except OsError Text := do
  let location ← tree.locate false current p
  match tree.get? location with
  | some (.file (.text t)) => .ok t
  | some (.file (.bytes _)) => .error .notUtf8
  | some .directory => .error .isDirectory
  | _ => .error .noEntry

/-- The tree after the whole content of a file has been replaced. The file need not exist. -/
def write (tree : FileTree) (current : Location) (p : Path) (content : FileContent) :
    Except OsError FileTree := do
  let location ← tree.locate true current p
  if tree.isDirectoryAt location then .error .isDirectory
  else .ok (tree.put location (.file content))

/-- Where a new entry goes: the directory that the path before its last piece leads to, and that
piece. Slashes at the end do not count, and the last link is not followed. -/
def newEntry (tree : FileTree) (current : Location) (p : Path) :
    Except OsError (Location × Text) := do
  check p
  match (pieces p).reverse.dropWhile (· = []) with
  | [] => .error .fileExists
  | name :: before =>
    let directory ← tree.walk false maxLinks (start current p) before.reverse
    if !tree.isDirectoryAt directory then .error .notDirectory
    else if name = ['.'] ∨ name = ['.', '.'] then .error .fileExists
    else .ok (directory, name)

/-- The tree with a new entry where nothing was before. -/
def create (tree : FileTree) (current : Location) (p : Path) (entry : FileEntry) :
    Except OsError FileTree := do
  let (directory, name) ← tree.newEntry current p
  match ← tree.lookup directory name with
  | some _ => .error .fileExists
  | none => .ok (tree.put (directory ++ [name]) entry)

/-- The tree with one more directory, in a directory that exists. -/
def makeDirectory (tree : FileTree) (current : Location) (p : Path) : Except OsError FileTree :=
  tree.create current p .directory

/-- The tree without the file or link that a path names. -/
def remove (tree : FileTree) (current : Location) (p : Path) : Except OsError FileTree := do
  let (directory, name) ← tree.newEntry current p
  match ← tree.lookup directory name with
  | none => .error .noEntry
  | some .directory => .error .isDirectory
  | some _ => .ok (tree.erase (directory ++ [name]))

end SketchBuild.FileTree
