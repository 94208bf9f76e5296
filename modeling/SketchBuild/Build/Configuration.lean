import SketchBuild.Build.Action
import SketchBuild.Project.Format

/-!
# Configuration files

A project is configured by a JSON file. The paths in it are taken from the directory that holds the
file.
-/

namespace SketchBuild.Project

variable {m : Type → Type} [Monad m] [Host m]

/-- Reads the configuration file of a project. -/
def load (config : Path) : Action m Project := do
  let text ← Action.orFail (.readConfig config) (Host.read config)
  match parse? text with
  | none => throw (.parseConfig config)
  | some project => return project.resolve (config.parent?.getD (.ofString "."))

/-- Reads the configuration file of a project if there is one. -/
def loadIfPresent (config : Path) : Action m Project := do
  if ← Host.pathExists (m := m) config then
    load config
  else
    Action.record (.defaultsUsed config)
    return {}

end SketchBuild.Project
