import SketchBuild.Json.Basic

/-!
# Reading JSON

Strict JSON: blanks are spaces, tabs, carriage returns and newlines; there are no comments and no
trailing commas; nothing follows the value. Control characters must be escaped inside strings.

Every reader returns what it read and the rest of the text. The three readers that call each other
take a bound on the number of calls; `Json.read?` starts them with one that is always enough, since
of two calls in a row at least one has used up a character.
-/

namespace SketchBuild.Json

/-- White space between tokens. -/
def isSpace (c : Char) : Bool :=
  c == ' ' || c == '\t' || c == '\n' || c == '\r'

/-- The text without its leading white space. -/
def skipSpace (t : Text) : Text :=
  t.dropWhile isSpace

/-! ### Strings -/

/-- The value of a hexadecimal digit. -/
def hexDigit? (c : Char) : Option Nat :=
  if '0' ≤ c ∧ c ≤ '9' then some (c.toNat - '0'.toNat)
  else if 'a' ≤ c ∧ c ≤ 'f' then some (c.toNat - 'a'.toNat + 10)
  else if 'A' ≤ c ∧ c ≤ 'F' then some (c.toNat - 'A'.toNat + 10)
  else none

/-- The number that four hexadecimal digits stand for. -/
def hexCode? (a b c d : Char) : Option Nat := do
  return (((← hexDigit? a) * 16 + (← hexDigit? b)) * 16 + (← hexDigit? c)) * 16 + (← hexDigit? d)

/-- The character that a one-letter escape stands for. -/
def shortEscape? : Char → Option Char
  | '"' => some '"'
  | '\\' => some '\\'
  | '/' => some '/'
  | 'b' => some '\x08'
  | 'f' => some '\x0c'
  | 'n' => some '\n'
  | 'r' => some '\r'
  | 't' => some '\t'
  | _ => none

/-- The first half of a surrogate pair. -/
def isHighHalf (code : Nat) : Bool :=
  0xD800 ≤ code && code < 0xDC00

/-- The second half of a surrogate pair. -/
def isLowHalf (code : Nat) : Bool :=
  0xDC00 ≤ code && code < 0xE000

/-- The unit that a numbered escape stands for. -/
def unitOfCode (code : Nat) : JsonUnit :=
  if isHighHalf code || isLowHalf code then .half code else .char (Char.ofNat code)

/-- Joins the two halves of every surrogate pair. -/
def joinPairs : JsonString → JsonString
  | .half high :: .half low :: units =>
    if isHighHalf high && isLowHalf low then
      .char (Char.ofNat (0x10000 + (high - 0xD800) * 0x400 + (low - 0xDC00))) :: joinPairs units
    else .half high :: joinPairs (.half low :: units)
  | unit :: units => unit :: joinPairs units
  | [] => []

/-- The units of a string up to its closing quote. -/
def readUnits? : Text → Option (JsonString × Text)
  | '"' :: cs => some ([], cs)
  | '\\' :: 'u' :: a :: b :: c :: d :: cs => do
    let code ← hexCode? a b c d
    let (units, rest) ← readUnits? cs
    return (unitOfCode code :: units, rest)
  | '\\' :: e :: cs => do
    let c ← shortEscape? e
    let (units, rest) ← readUnits? cs
    return (.char c :: units, rest)
  | c :: cs =>
    if c.toNat < 0x20 || c == '\\' then none
    else do
      let (units, rest) ← readUnits? cs
      return (.char c :: units, rest)
  | [] => none

/-- A string after its opening quote. -/
def readString? (t : Text) : Option (JsonString × Text) :=
  (readUnits? t).map fun (units, rest) => (joinPairs units, rest)

/-! ### Numbers -/

/-- One or more digits. -/
def readDigits? (t : Text) : Option (Text × Text) :=
  match t.takeWhile Char.isDigit with
  | [] => none
  | digits => some (digits, t.dropWhile Char.isDigit)

/-- The whole part of a number, without superfluous zeros. -/
def readWhole? : Text → Option (Text × Text)
  | '0' :: cs => some (['0'], cs)
  | t => readDigits? t

/-- The fraction of a number, if one follows. -/
def readFraction? : Text → Option (Text × Text)
  | '.' :: cs => (readDigits? cs).map fun (digits, rest) => ('.' :: digits, rest)
  | t => some ([], t)

/-- The sign of an exponent, if there is one. -/
def exponentSign : Text → Text × Text
  | '+' :: cs => (['+'], cs)
  | '-' :: cs => (['-'], cs)
  | t => ([], t)

/-- The exponent of a number, if one follows. -/
def readExponent? : Text → Option (Text × Text)
  | c :: cs =>
    if c = 'e' ∨ c = 'E' then
      let (sign, rest) := exponentSign cs
      (readDigits? rest).map fun (digits, rest) => (c :: sign ++ digits, rest)
    else some ([], c :: cs)
  | [] => some ([], [])

/-- A number without its sign. -/
def readUnsigned? (t : Text) : Option (Text × Text) := do
  let (whole, rest) ← readWhole? t
  let (fraction, rest) ← readFraction? rest
  let (exponent, rest) ← readExponent? rest
  return (whole ++ fraction ++ exponent, rest)

/-- A number. -/
def readNumber? : Text → Option (Text × Text)
  | '-' :: cs => (readUnsigned? cs).map fun (spelling, rest) => ('-' :: spelling, rest)
  | t => readUnsigned? t

/-! ### Values -/

mutual

/-- A value, after white space. -/
def readValue? : (calls : Nat) → Text → Option (Json × Text)
  | 0, _ => none
  | calls + 1, t =>
    match skipSpace t with
    | 'n' :: 'u' :: 'l' :: 'l' :: rest => some (.null, rest)
    | 't' :: 'r' :: 'u' :: 'e' :: rest => some (.bool true, rest)
    | 'f' :: 'a' :: 'l' :: 's' :: 'e' :: rest => some (.bool false, rest)
    | '"' :: rest => (readString? rest).map fun (s, rest) => (.string s, rest)
    | '[' :: rest =>
      match skipSpace rest with
      | ']' :: rest => some (.array [], rest)
      | rest => (readItems? calls rest).map fun (items, rest) => (.array items, rest)
    | '{' :: rest =>
      match skipSpace rest with
      | '}' :: rest => some (.object [], rest)
      | rest => (readMembers? calls rest).map fun (members, rest) => (.object members, rest)
    | rest => (readNumber? rest).map fun (spelling, rest) => (.number spelling, rest)

/-- The items of an array that is not empty, through its closing bracket. -/
def readItems? : (calls : Nat) → Text → Option (List Json × Text)
  | 0, _ => none
  | calls + 1, t => do
    let (item, rest) ← readValue? calls t
    match skipSpace rest with
    | ',' :: rest => (readItems? calls rest).map fun (items, rest) => (item :: items, rest)
    | ']' :: rest => some ([item], rest)
    | _ => none

/-- The members of an object that is not empty, through its closing brace. -/
def readMembers? : (calls : Nat) → Text → Option (List (JsonString × Json) × Text)
  | 0, _ => none
  | calls + 1, t => do
    match skipSpace t with
    | '"' :: rest =>
      let (key, rest) ← readString? rest
      match skipSpace rest with
      | ':' :: rest =>
        let (value, rest) ← readValue? calls rest
        match skipSpace rest with
        | ',' :: rest =>
          (readMembers? calls rest).map fun (members, rest) => ((key, value) :: members, rest)
        | '}' :: rest => some ([(key, value)], rest)
        | _ => none
      | _ => none
    | _ => none

end

/-- The value that a text holds, with white space around it and nothing else. -/
def read? (t : Text) : Option Json :=
  match readValue? (2 * t.length + 1) t with
  | some (json, rest) => if skipSpace rest = [] then some json else none
  | none => none

end SketchBuild.Json
