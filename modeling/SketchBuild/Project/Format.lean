import SketchBuild.Json.Reader
import SketchBuild.Project.Basic
import SketchBuild.Sketch.Format

/-!
# JSON forms of a project

Every field of a project, a board and a library has a default. The registry is an object from
names to libraries; of a repeated name the last library counts.
-/

namespace SketchBuild

namespace Path

/-- Paths are written as strings. -/
def toJson (p : Path) : Json :=
  .ofText p.text

/-- Reads a path. -/
def ofJson? (json : Json) : Option Path :=
  json.text?.map Path.mk

/-- A list of paths as an array. -/
def listToJson (paths : List Path) : Json :=
  .array (paths.map toJson)

/-- Reads a list of paths. -/
def listOfJson? (json : Json) : Option (List Path) :=
  json.list? ofJson?

end Path

namespace Board

/-- The JSON form. -/
def toJson (board : Board) : Json :=
  .ofMembers [
    ("core_headers", Path.listToJson board.coreHeaders),
    ("variant_headers", Path.listToJson board.variantHeaders)]

/-- Reads the JSON form. -/
def ofJson? (json : Json) : Option Board := do
  let default : Board := {}
  let fields ← json.fields? ["core_headers".toList, "variant_headers".toList]
  return {
    coreHeaders := ← fields.optional "core_headers" Path.listOfJson? default.coreHeaders
    variantHeaders := ← fields.optional "variant_headers" Path.listOfJson? default.variantHeaders }

end Board

namespace Library

/-- The JSON form. -/
def toJson (library : Library) : Json :=
  .ofMembers [
    ("version", .ofText library.version),
    ("headers", Path.listToJson library.headers)]

/-- Reads the JSON form. -/
def ofJson? (json : Json) : Option Library := do
  let default : Library := {}
  let fields ← json.fields? ["version".toList, "headers".toList]
  return {
    version := ← fields.optional "version" Json.text? default.version
    headers := ← fields.optional "headers" Path.listOfJson? default.headers }

end Library

namespace Registry

/-- The JSON form, names in ascending order. -/
def toJson (registry : Registry) : Json :=
  .object (registry.toList.map fun (name, library) => (.ofText name, library.toJson))

/-- Reads the JSON form. -/
def ofJson? (json : Json) : Option Registry := do
  let libraries ← (← json.members?).mapM fun (name, value) => (Library.ofJson? value).map (name, ·)
  return libraries.foldl (fun registry (name, library) => registry.insert name library) ∅

end Registry

namespace Project

/-- The keys of the JSON form. -/
def keys : List Text :=
  ["project_dir".toList, "build_dir".toList, "headers".toList, "sources".toList, "board".toList,
    "libraries".toList, "sketch".toList]

/-- The JSON form. -/
def toJson (project : Project) : Json :=
  .ofMembers [
    ("project_dir", project.directory.toJson),
    ("build_dir", project.buildDirectory.toJson),
    ("headers", Path.listToJson project.headers),
    ("sources", Path.listToJson project.sources),
    ("board", project.board.toJson),
    ("libraries", Registry.toJson project.libraries),
    ("sketch", project.sketch.toJson)]

/-- Reads the JSON form. -/
def ofJson? (json : Json) : Option Project := do
  let default : Project := {}
  let fields ← json.fields? keys
  return {
    directory := ← fields.optional "project_dir" Path.ofJson? default.directory
    buildDirectory := ← fields.optional "build_dir" Path.ofJson? default.buildDirectory
    headers := ← fields.optional "headers" Path.listOfJson? default.headers
    sources := ← fields.optional "sources" Path.listOfJson? default.sources
    board := ← fields.optional "board" Board.ofJson? default.board
    libraries := ← fields.optional "libraries" Registry.ofJson? default.libraries
    sketch := ← fields.optional "sketch" SketchOptions.ofJson? default.sketch }

/-- Reads a project from the text of a configuration file. -/
def parse? (text : Text) : Option Project :=
  (Json.read? text).bind ofJson?

end Project

end SketchBuild
