import SketchBuild.Json.Basic

/-!
# Writing JSON

Values are written without white space. Inside strings, the quote, the backslash and the control
characters are escaped, those with a letter of their own by that letter.
-/

namespace SketchBuild.Json

/-- A number below 65536 in four lower-case hexadecimal digits. -/
def hex4 (n : Nat) : Text :=
  let digits := Nat.toDigits 16 n
  List.replicate (4 - digits.length) '0' ++ digits

/-- A numbered escape. -/
def escapeCode (n : Nat) : Text :=
  '\\' :: 'u' :: hex4 n

/-- A character inside a string. -/
def writeChar (c : Char) : Text :=
  if c = '"' ∨ c = '\\' then ['\\', c]
  else if c = '\n' then ['\\', 'n']
  else if c = '\r' then ['\\', 'r']
  else if c = '\t' then ['\\', 't']
  else if c = '\x08' then ['\\', 'b']
  else if c = '\x0c' then ['\\', 'f']
  else if c.toNat < 0x20 then escapeCode c.toNat
  else [c]

/-- A unit inside a string. -/
def writeUnit : JsonUnit → Text
  | .char c => writeChar c
  | .half code => escapeCode code

/-- A string with its quotes. -/
def writeString (s : JsonString) : Text :=
  '"' :: s.flatMap writeUnit ++ ['"']

mutual

/-- The text of a value. -/
def write : Json → Text
  | .null => "null".toList
  | .bool true => "true".toList
  | .bool false => "false".toList
  | .number spelling => spelling
  | .string s => writeString s
  | .array items => '[' :: writeItems items ++ [']']
  | .object members => '\x7b' :: writeMembers members ++ ['\x7d']

/-- The items of an array with commas between them. -/
def writeItems : List Json → Text
  | [] => []
  | [item] => write item
  | item :: next :: items => write item ++ ',' :: writeItems (next :: items)

/-- The members of an object with commas between them. -/
def writeMembers : List (JsonString × Json) → Text
  | [] => []
  | [(key, value)] => writeString key ++ ':' :: write value
  | (key, value) :: next :: members =>
    writeString key ++ ':' :: (write value ++ ',' :: writeMembers (next :: members))

end

end SketchBuild.Json
