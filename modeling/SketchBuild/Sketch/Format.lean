import SketchBuild.Json.Decode
import SketchBuild.Sketch.Include
import SketchBuild.Sketch.Options
import SketchBuild.Sketch.Signature

/-!
# JSON forms of the parts of a sketch

The options, of which every field has a default, and prototypes and include lines, of which every
field is required. The style of an include line is a word, or an object that maps this word to
`null`.
-/

namespace SketchBuild

namespace SketchOptions

/-- The keys of the JSON form. -/
def keys : List Text :=
  ["umbrella_header".toList, "line_marker".toList, "compat_brace_leak".toList]

/-- The JSON form. -/
def toJson (options : SketchOptions) : Json :=
  .ofMembers [
    ("umbrella_header", .ofText options.umbrellaHeader),
    ("line_marker", .bool options.lineMarker),
    ("compat_brace_leak", .bool options.braceLeak)]

/-- Reads the JSON form. -/
def ofJson? (json : Json) : Option SketchOptions := do
  let default : SketchOptions := {}
  let fields ← json.fields? keys
  return {
    umbrellaHeader := ← fields.optional "umbrella_header" Json.text? default.umbrellaHeader
    lineMarker := ← fields.optional "line_marker" Json.bool? default.lineMarker
    braceLeak := ← fields.optional "compat_brace_leak" Json.bool? default.braceLeak }

end SketchOptions

namespace Prototype

/-- The JSON form. -/
def toJson (prototype : Prototype) : Json :=
  .ofMembers [("signature", .ofText prototype.signature)]

/-- Reads the JSON form. -/
def ofJson? (json : Json) : Option Prototype := do
  let fields ← json.fields? ["signature".toList]
  return ⟨← fields.required "signature" Json.text?⟩

end Prototype

namespace Include

/-- The word for a style. -/
def Style.word : Style → Text
  | .angle => "Angle".toList
  | .quote => "Quote".toList

/-- The style of a word. -/
def Style.ofWord? (word : Text) : Option Style :=
  if word = Style.angle.word then some .angle
  else if word = Style.quote.word then some .quote
  else none

/-- The JSON form. -/
def Style.toJson (style : Style) : Json :=
  .ofText style.word

/-- Reads the JSON form. -/
def Style.ofJson? : Json → Option Style
  | .string word => word.text?.bind ofWord?
  | .object [(word, .null)] => word.text?.bind ofWord?
  | _ => none

/-- The keys of the JSON form. -/
def keys : List Text :=
  ["text".toList, "index".toList, "path".toList, "style".toList]

/-- The JSON form. -/
def toJson (line : Include) : Json :=
  .ofMembers [
    ("text", .ofText line.text),
    ("index", .ofNat line.index),
    ("path", .ofText line.path),
    ("style", line.style.toJson)]

/-- Reads the JSON form. -/
def ofJson? (json : Json) : Option Include := do
  let fields ← json.fields? keys
  return {
    text := ← fields.required "text" Json.text?
    index := ← fields.required "index" Json.nat64?
    path := ← fields.required "path" Json.text?
    style := ← fields.required "style" Style.ofJson? }

end Include

end SketchBuild
