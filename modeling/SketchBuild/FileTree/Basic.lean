import SketchBuild.FileTree.OsError
import SketchBuild.Path.Basic
import Std.Data.ExtTreeMap

/-!
# File trees

A file tree says what there is at each location. A location is the list of names that leads from
the root to it; the root itself is always a directory. Two trees are equal when they hold the same
at every location.
-/

namespace SketchBuild

/-- The content of a file: a text, or bytes that are not UTF-8. -/
inductive FileContent
  | text (t : Text)
  | bytes (bs : List UInt8)
  deriving DecidableEq, Repr

/-- The content that the given bytes make up. -/
def FileContent.ofBytes (bs : List UInt8) : FileContent :=
  match String.fromUTF8? ⟨bs.toArray⟩ with
  | some s => .text s.toList
  | none => .bytes bs

/-- What there is at a location. -/
inductive FileEntry
  | directory
  | file (content : FileContent)
  | link (target : Path)
  deriving DecidableEq, Repr

/-- The names on the way from the root. -/
abbrev Location := List Text

/-- The entries of a tree below its root. -/
structure FileTree where
  entries : Std.ExtTreeMap Location FileEntry
  deriving DecidableEq

namespace FileTree

/-- Nothing but the root. -/
def empty : FileTree :=
  ⟨∅⟩

/-- What there is at a location. -/
def get? (tree : FileTree) (location : Location) : Option FileEntry :=
  if location = [] then some .directory else tree.entries[location]?

/-- The tree with an entry put at a location. -/
def put (tree : FileTree) (location : Location) (entry : FileEntry) : FileTree :=
  ⟨tree.entries.insert location entry⟩

/-- The tree without what was at a location. -/
def erase (tree : FileTree) (location : Location) : FileTree :=
  ⟨tree.entries.erase location⟩

/-- There is a directory at the location. -/
def isDirectoryAt (tree : FileTree) (location : Location) : Bool :=
  tree.get? location = some .directory

/-- The tree that has directories at the given locations. -/
def ofDirectories (locations : List Location) : FileTree :=
  locations.foldl (fun tree location => tree.put location .directory) empty

/-- What is different after a change, for the locations below a given one: the names from there on
and what is there now, if anything. -/
def changes (before after : FileTree) (root : Location) : List (Location × Option FileEntry) :=
  let gone := before.entries.toList.filterMap fun (location, _) =>
    if after.entries[location]? = none then some (location, none) else none
  let new := after.entries.toList.filterMap fun (location, entry) =>
    if before.entries[location]? = some entry then none else some (location, some entry)
  (gone ++ new).filterMap fun (location, state) => (root.isPrefixOf? location).map (·, state)

@[simp] theorem get?_nil (tree : FileTree) : tree.get? [] = some .directory := rfl

/-- Putting an entry below the root changes what is there and nothing else. -/
theorem get?_put (tree : FileTree) {location : Location} (h : location ≠ []) (entry : FileEntry)
    (other : Location) :
    (tree.put location entry).get? other =
      if other = location then some entry else tree.get? other := by
  by_cases same : other = location
  · subst same
    simp [get?, put, h]
  · by_cases top : other = []
    · simp [get?, top, Ne.symm h]
    · simp [get?, put, top, same, Std.ExtTreeMap.getElem?_insert, Ne.symm same]

@[ext] theorem ext_entries {s t : FileTree}
    (h : ∀ location : Location, s.entries[location]? = t.entries[location]?) : s = t := by
  cases s
  cases t
  simpa using Std.ExtTreeMap.ext_getElem? h

end FileTree

end SketchBuild
