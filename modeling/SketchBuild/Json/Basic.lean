import SketchBuild.Text.Basic

/-!
# JSON values

A JSON value as its text gives it. Members keep their order and repetitions, and a number keeps its
spelling, so that whoever reads a value decides what counts.

Strings are sequences of characters; but an escape may name half of a surrogate pair without its
other half, which is no character. Such a string is still JSON, it only has no text
(`JsonString.text?`).
-/

namespace SketchBuild

/-- An element of a JSON string: a character, or half of a surrogate pair on its own. -/
inductive JsonUnit
  | char (c : Char)
  | half (code : Nat)
  deriving DecidableEq, Repr

/-- The content of a JSON string. -/
abbrev JsonString := List JsonUnit

namespace JsonString

/-- The string that holds a text. -/
def ofText (t : Text) : JsonString :=
  t.map .char

/-- The text of a string without lone halves. -/
def text? : JsonString → Option Text
  | [] => some []
  | .char c :: units => (text? units).map (c :: ·)
  | .half _ :: _ => none

@[simp] theorem text?_ofText (t : Text) : text? (ofText t) = some t := by
  induction t with
  | nil => rfl
  | cons c cs ih =>
    have : text? (cs.map .char) = some cs := ih
    simp [ofText, text?, this]

end JsonString

/-- A JSON value. -/
inductive Json
  | null
  | bool (b : Bool)
  | number (spelling : Text)
  | string (s : JsonString)
  | array (items : List Json)
  | object (members : List (JsonString × Json))
  deriving Repr

namespace Json

/-- The string value of a text. -/
def ofText (t : Text) : Json :=
  .string (.ofText t)

/-- The number value of a natural number. -/
def ofNat (n : Nat) : Json :=
  .number (Text.ofNat n)

/-- The object with the given keys and values. -/
def ofMembers (members : List (String × Json)) : Json :=
  .object (members.map fun (key, value) => (.ofText key.toList, value))

end Json

end SketchBuild
