import SketchBuild.Build.Configuration
import SketchBuild.Build.Dependencies
import SketchBuild.Build.Sketches
import SketchBuild.CommandLine.Parser
import SketchBuild.Project.Listing

/-!
# Running commands

Generating C++ works without a configuration file, creating a directory needs none, and the other
commands insist on one.
-/

namespace SketchBuild.CommandLine

/-- The version of the tool, as it is printed. -/
def versionText : Text :=
  "arturo 0.1.0\n".toList

variable {m : Type → Type} [Monad m] [Host m]

/-- Prints paths, one on a line. -/
def printPaths (paths : List Path) : Action m Unit :=
  paths.forM fun path => Action.print (path.text ++ ['\n'])

/-- Does what an invocation asks for. -/
def Invocation.run (invocation : Invocation) : Action m Unit :=
  match invocation.command with
  | .generate sketches destination flags => do
    let project ← Project.loadIfPresent invocation.config
    let options := flags.apply project.sketch
    match destination with
    | .printed => printGenerated options sketches
    | .files directory? =>
      let _ ← generateFiles options (directory?.getD project.buildDirectory) sketches
  | .listHeaderFolders => do
    let project ← Project.load invocation.config
    printPaths (project.headerFolders (← Host.currentDirectory (m := m)))
  | .listSources => do
    let project ← Project.load invocation.config
    printPaths (project.sourceFiles (← Host.currentDirectory (m := m)))
  | .makeDirectory path => Action.orFail (.file path) (makeDirectories path)
  | .augment depfile output? => do
    let project ← Project.load invocation.config
    let _ ← Depfile.convert project.libraries depfile output?

/-- The exit code of a finished run. -/
def exitCode : Except Failure Unit → Nat
  | .ok () => 0
  | .error _ => 1

end SketchBuild.CommandLine
