import SketchBuild.Path.Relative
import SketchBuild.Project.Basic

/-!
# Listings

What make is told about a project: the directories that hold its headers and its source files, all
relative to the project's directory. Relative paths are taken from the current directory first.
-/

namespace SketchBuild.Project

/-- The route from the project's directory to another path, both taken from the current
directory. -/
def routeTo (current : Path) (project : Project) (goal : Path) : List Component :=
  Path.route (current.join project.directory) (current.join goal)

/-- The directories of all headers, each once, in the order of paths. -/
def headerFolders (current : Path) (project : Project) : List Path :=
  let routes := project.allHeaders.map fun header => project.routeTo current header.directory
  (Std.ExtTreeSet.ofList routes).toList.map Path.ofRoute

/-- The sources in the order in which they are configured. -/
def sourceFiles (current : Path) (project : Project) : List Path :=
  project.sources.map fun source => .ofRoute (project.routeTo current source)

end SketchBuild.Project
