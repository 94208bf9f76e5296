import SketchBuild.FileTree.OsError
import SketchBuild.Host.Event

/-!
# Hosts

What the tool needs from its surroundings: files, the current directory, a log and a place to print
to. Everything the tool does is written against this interface, so that it runs on a real file
system and, as a function, on a file tree.
-/

namespace SketchBuild

/-- The surroundings of the tool. -/
class Host (m : Type → Type) where
  /-- The text of a file. -/
  read : Path → m (Except OsError Text)
  /-- Replaces the whole content of a file, which need not exist. -/
  write : Path → Text → m (Except OsError Unit)
  /-- Creates one directory in a directory that exists. -/
  makeDirectory : Path → m (Except OsError Unit)
  /-- The path leads to a directory. -/
  isDirectory : Path → m Bool
  /-- The path leads to a file. -/
  isFile : Path → m Bool
  /-- The path leads to something. -/
  pathExists : Path → m Bool
  /-- The absolute path without links that leads to the same place, if there is one. -/
  canonical? : Path → m (Option Path)
  /-- The current directory, an absolute path. -/
  currentDirectory : m Path
  /-- Records an event. -/
  record : Event → m Unit
  /-- Prints a text. -/
  print : Text → m Unit

end SketchBuild
