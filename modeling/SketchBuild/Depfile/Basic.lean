import SketchBuild.Path.Basic

/-!
# Dependency files

A compiler writes the files that an object depends on as a make rule. Reading one looks for the
target and for the items, line by line:

* a line whose first character other than white space is a hash sign is skipped;
* the first line with exactly one colon gives the target, which is everything before the colon;
* all else is split at spaces into items. Of an item that ends its line, the newline, one backslash
  that continues the line and the white space before them are dropped, and an item that starts with
  a hash sign counts as a comment.
-/

namespace SketchBuild

/-- The target of a dependency file, if it has one, and its items in order. -/
structure Depfile where
  target? : Option Text
  items : List Text
  deriving DecidableEq, Repr

namespace Depfile

/-- A hash sign comes first, white space aside. -/
def isComment (t : Text) : Bool :=
  (Text.trimStart t).head? = some '#'

/-- The text without one trailing backslash. -/
def dropContinuation (t : Text) : Text :=
  if t.getLast? = some '\\' then t.dropLast else t

/-- What an item names, without the end of its line; nothing for a comment. -/
def cleanItem (item : Text) : Text :=
  if isComment item then []
  else if item.getLast? = some '\n' then Text.trimEnd (dropContinuation item.dropLast)
  else item

/-- The items of a line. -/
def itemsOf (line : Text) : List Text :=
  ((Text.split ' ' line).map cleanItem).filter (· ≠ [])

/-- Reads lines without a target before them. -/
def ofLines : List Text → Depfile
  | [] => ⟨none, []⟩
  | line :: lines =>
    match Text.split ':' line with
    | [target, prerequisites] => ⟨some target, itemsOf prerequisites ++ lines.flatMap itemsOf⟩
    | _ =>
      let later := ofLines lines
      { later with items := itemsOf line ++ later.items }

/-- Reads the content of a dependency file. -/
def read (content : Text) : Depfile :=
  ofLines ((Text.linesWithEnds content).filter (!isComment ·))

/-- The items that are headers. -/
def headers (depfile : Depfile) : List Text :=
  depfile.items.filter (".h".toList.isSuffixOf ·)

/-- The name of the directory that holds a header, empty where the path does not tell. -/
def directoryName (header : Path) : Text :=
  (header.parent?.bind Path.fileName?).getD []

/-- Where the augmented form of a dependency file goes unless told otherwise: `.ad` in place of a
trailing `.d`, or else at the end. -/
def outputPath (path : Path) : Path :=
  ⟨(".d".toList.isSuffixOf? path.text).getD path.text ++ ".ad".toList⟩

end Depfile

end SketchBuild
