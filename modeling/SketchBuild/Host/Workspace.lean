import SketchBuild.FileTree.Access
import SketchBuild.Host.Basic

/-!
# Workspaces

A workspace is a file tree with a current directory, the events recorded so far and the text
printed so far. A session is a computation on a workspace, and the host that proofs are about.
-/

namespace SketchBuild

/-- The state that the tool works on. -/
structure Workspace where
  tree : FileTree
  current : Location
  events : List Event := []
  printed : Text := []
  deriving DecidableEq

/-- Computations on a workspace. -/
abbrev Session := StateM Workspace

namespace Session

/-- Replaces the file tree if the change succeeds. -/
def change (f : FileTree → Location → Except OsError FileTree) : Session (Except OsError Unit) :=
  fun workspace =>
    match f workspace.tree workspace.current with
    | .ok tree => (.ok (), { workspace with tree })
    | .error e => (.error e, workspace)

instance : Host Session where
  read p := return (← get).tree.read (← get).current p
  write p t := change fun tree current => tree.write current p (.text t)
  makeDirectory p := change fun tree current => tree.makeDirectory current p
  isDirectory p := return (← get).tree.isDirectory (← get).current p
  isFile p := return (← get).tree.isFile (← get).current p
  pathExists p := return (← get).tree.pathExists (← get).current p
  canonical? p := return (← get).tree.canonical? (← get).current p
  currentDirectory := return FileTree.pathOf (← get).current
  record event := modify fun w => { w with events := w.events ++ [event] }
  print t := modify fun w => { w with printed := w.printed ++ t }

/-! ### What the host operations do to a workspace -/

@[simp] theorem run_read (p : Path) (w : Workspace) :
    (Host.read p : Session _).run w = (w.tree.read w.current p, w) := rfl

theorem run_write (p : Path) (t : Text) (w : Workspace) :
    (Host.write p t : Session _).run w =
      match w.tree.write w.current p (.text t) with
      | .ok tree => (.ok (), { w with tree })
      | .error e => (.error e, w) := rfl

theorem run_makeDirectory (p : Path) (w : Workspace) :
    (Host.makeDirectory p : Session _).run w =
      match w.tree.makeDirectory w.current p with
      | .ok tree => (.ok (), { w with tree })
      | .error e => (.error e, w) := rfl

@[simp] theorem run_isDirectory (p : Path) (w : Workspace) :
    (Host.isDirectory p : Session _).run w = (w.tree.isDirectory w.current p, w) := rfl

@[simp] theorem run_isFile (p : Path) (w : Workspace) :
    (Host.isFile p : Session _).run w = (w.tree.isFile w.current p, w) := rfl

@[simp] theorem run_pathExists (p : Path) (w : Workspace) :
    (Host.pathExists p : Session _).run w = (w.tree.pathExists w.current p, w) := rfl

@[simp] theorem run_canonical? (p : Path) (w : Workspace) :
    (Host.canonical? p : Session _).run w = (w.tree.canonical? w.current p, w) := rfl

@[simp] theorem run_record (event : Event) (w : Workspace) :
    (Host.record event : Session _).run w = ((), { w with events := w.events ++ [event] }) := rfl

@[simp] theorem run_print (t : Text) (w : Workspace) :
    (Host.print t : Session _).run w = ((), { w with printed := w.printed ++ t }) := rfl

end Session

end SketchBuild
