import SketchBuild.Text.Basic

/-!
# Include directives

An include line is white space, `#include`, white space, an opening angle bracket or quote, a path
without white space, and a closing angle bracket or quote, which need not fit the opening one. The
path runs as far as it can: up to the last closing character of the unbroken run.

Hoisting takes the include lines of a sketch out of it. They are listed in order, and each is
commented out where it stood, so the lines keep their numbers.
-/

namespace SketchBuild

/-- How an include directive delimits its path, which decides where the file is looked for. -/
inductive Include.Style
  | angle
  | quote
  deriving DecidableEq, Repr

/-- An include line of a sketch: the line itself, its number counted from zero, and the path it
names. -/
structure Include where
  text : Text
  index : Nat
  path : Text
  style : Include.Style
  deriving DecidableEq, Repr

namespace Include

/-- The characters that may close a path. -/
def closes (c : Char) : Bool :=
  c == '"' || c == '>'

/-- The path after the opening delimiter: the unbroken run up to its last closing character. -/
def path? (afterOpening : Text) : Option Text :=
  let run := afterOpening.takeWhile (!Text.isBlank ·)
  match run.reverse.dropWhile (!closes ·) with
  | _ :: c :: cs => some (c :: cs).reverse
  | _ => none

/-- The style and the path of an include line. -/
def parse? (line : Text) : Option (Style × Text) :=
  match "#include".toList.isPrefixOf? (Text.trimStart line) with
  | none => none
  | some rest =>
    match Text.trimStart rest with
    | '<' :: cs => (path? cs).map (.angle, ·)
    | '"' :: cs => (path? cs).map (.quote, ·)
    | _ => none

/-- The include on a line with the given number. -/
def ofLine? (line : Text) (index : Nat) : Option Include :=
  (parse? line).map fun (style, path) => ⟨line, index, path, style⟩

/-- The include lines among the given lines. -/
def hoisted (lines : List Text) : List Include :=
  lines.zipIdx.filterMap fun (line, index) => ofLine? line index

/-- A line as it stands in the body: commented out if it is an include line. -/
def bodyLine (line : Text) : Text :=
  if (parse? line).isSome then '/' :: '/' :: line else line

/-- The lines with every include line commented out. -/
def body (lines : List Text) : List Text :=
  lines.map bodyLine

@[simp] theorem length_body (lines : List Text) : (body lines).length = lines.length := by
  simp [body]

end Include

end SketchBuild
