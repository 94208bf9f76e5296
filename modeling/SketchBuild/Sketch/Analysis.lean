import SketchBuild.Sketch.Region
import SketchBuild.Sketch.Block
import SketchBuild.Sketch.Signature
import SketchBuild.Sketch.Include
import SketchBuild.Sketch.Options

/-!
# From a sketch to C++

A sketch is C++ without its prologue. The analysis of a sketch finds what the prologue needs, the
prototypes of its functions and its include lines, and the generated text puts them in front of
the untouched lines:

1. the master include of the umbrella header,
2. the include lines,
3. the prototypes,
4. a marker that says where the body comes from,
5. the lines of the sketch, with the include lines commented out.

Prototypes are looked for in the redacted and collapsed text only, so nothing inside a literal, a
comment, a directive or a block can yield one.
-/

namespace SketchBuild

/-- What is known about a sketch. -/
structure Analysis where
  includes : List Include
  prototypes : List Prototype
  /-- The lines of the sketch with every include line commented out. -/
  body : List Text
  deriving DecidableEq, Repr

namespace Analysis

/-- The prototypes of the functions that a sketch defines. -/
def prototypesOf (options : SketchOptions) (source : Text) : List Prototype :=
  Prototype.extract (Block.collapse options.braceLeak (Region.redact source))

/-- The analysis of a sketch. -/
def ofSource (options : SketchOptions) (source : Text) : Analysis :=
  let lines := Text.split '\n' source
  { includes := Include.hoisted lines
    prototypes := prototypesOf options source
    body := Include.body lines }

end Analysis

/-- A text inside a string literal: a backslash in front of every backslash and quote. -/
def escapeLiteral (t : Text) : Text :=
  t.flatMap fun c => if c = '\\' ∨ c = '"' then ['\\', c] else [c]

/-- The line that names the sketch as the origin of the lines after it. -/
def lineMarker (options : SketchOptions) (name : Text) : Text :=
  if options.lineMarker then "#line 1 \"".toList ++ escapeLiteral name ++ ['"']
  else "// line 1 ".toList ++ name

/-- The include of the umbrella header. -/
def masterInclude (options : SketchOptions) : Text :=
  "#include <".toList ++ options.umbrellaHeader ++ ['>']

namespace Analysis

/-- The lines in front of the body; a prototype may itself hold newlines. -/
def prologue (options : SketchOptions) (name : Text) (analysis : Analysis) : List Text :=
  masterInclude options :: analysis.includes.map Include.text
    ++ analysis.prototypes.map Prototype.text ++ [lineMarker options name]

/-- The generated text. -/
def render (options : SketchOptions) (name : Text) (analysis : Analysis) : Text :=
  (analysis.prologue options name).flatMap (· ++ ['\n']) ++ Text.join '\n' analysis.body

end Analysis

/-- The C++ text generated for a sketch of the given name. -/
def generate (options : SketchOptions) (name source : Text) : Text :=
  (Analysis.ofSource options source).render options name

end SketchBuild
