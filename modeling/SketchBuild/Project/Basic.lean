import SketchBuild.Path.Basic
import SketchBuild.Sketch.Options
import Std.Data.ExtTreeMap

/-!
# Projects

A project is what a build is told about: where it lives, its headers and sources, the headers of
the board, the libraries and how sketches are treated.
-/

namespace SketchBuild

/-- The headers that a board brings along. -/
structure Board where
  coreHeaders : List Path := []
  variantHeaders : List Path := []
  deriving DecidableEq, Repr

/-- A library as it is configured. Its name is the key of the registry. -/
structure Library where
  version : Text := []
  headers : List Path := []
  deriving DecidableEq, Repr

/-- The configured libraries by name, in ascending order of names. -/
abbrev Registry := Std.ExtTreeMap Text Library

/-- A configured project. -/
structure Project where
  directory : Path := .ofString "."
  buildDirectory : Path := .ofString "build"
  headers : List Path := []
  sources : List Path := []
  board : Board := {}
  libraries : Registry := ∅
  sketch : SketchOptions := {}
  deriving DecidableEq

namespace Project

/-- All headers: of the project, of the core, of the variant and of the libraries. -/
def allHeaders (project : Project) : List Path :=
  project.headers ++ project.board.coreHeaders ++ project.board.variantHeaders
    ++ project.libraries.toList.flatMap (·.2.headers)

/-- The project with every path taken from the given base. -/
def resolve (base : Path) (project : Project) : Project :=
  { project with
    directory := base.join project.directory
    buildDirectory := base.join project.buildDirectory
    headers := project.headers.map base.join
    sources := project.sources.map base.join
    board :=
      { coreHeaders := project.board.coreHeaders.map base.join
        variantHeaders := project.board.variantHeaders.map base.join }
    libraries := project.libraries.map fun _ library =>
      { library with headers := library.headers.map base.join } }

end Project

end SketchBuild
