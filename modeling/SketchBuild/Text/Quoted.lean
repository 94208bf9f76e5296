import SketchBuild.Text.Basic

/-!
# Quoted texts

A text between double quotes, the way log lines show the signature of a function. The quote, the
backslash, tabs, line ends and NUL have short escapes. Characters that would not be seen on their
own are written by number: control characters, white space other than the space itself, joiners,
fillers, and marks that extend the character before them. Of the invisible characters these are the
ones that can occur in a signature.

Free text in a log line is not quoted, but control characters that a terminal might act upon are
spelled out (`defused`).
-/

namespace SketchBuild.Text

/-- A control character of the first or the second range. -/
def isControl (c : Char) : Bool :=
  c.toNat < 0x20 || (0x7F ≤ c.toNat && c.toNat < 0xA0)

/-- A character that is written by number. -/
def isInvisible (c : Char) : Bool :=
  c != ' ' && (isControl c || isBlank c || isJoiner c || isFiller c || extendsGrapheme c)

/-- A character by its number. -/
def numbered (c : Char) : Text :=
  ['\\', 'u', '{'] ++ Nat.toDigits 16 c.toNat ++ ['}']

/-- A character inside quotes. -/
def quoteChar (c : Char) : Text :=
  if c = '"' ∨ c = '\\' then ['\\', c]
  else if c = '\t' then ['\\', 't']
  else if c = '\r' then ['\\', 'r']
  else if c = '\n' then ['\\', 'n']
  else if c = '\x00' then ['\\', '0']
  else if isInvisible c then numbered c
  else [c]

/-- A text in quotes. -/
def quoted (t : Text) : Text :=
  '"' :: t.flatMap quoteChar ++ ['"']

/-- A character of free text. Escape, bell, backspace, form feed and delete are spelled out by two
hexadecimal digits and the second range of control characters by number. -/
def defuseChar (c : Char) : Text :=
  if c = '\x1b' then "\\x1b".toList
  else if c = '\x07' then "\\x07".toList
  else if c = '\x08' then "\\x08".toList
  else if c = '\x0c' then "\\x0c".toList
  else if c = '\x7f' then "\\x7f".toList
  else if 0x80 ≤ c.toNat ∧ c.toNat < 0xA0 then numbered c
  else [c]

/-- Free text without control characters that a terminal might act upon. -/
def defused (t : Text) : Text :=
  t.flatMap defuseChar

end SketchBuild.Text
