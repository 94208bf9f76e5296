import SketchBuild.Text.Alphabetic
import SketchBuild.Text.Mark
import SketchBuild.Text.Number
import SketchBuild.Text.Recent

/-!
# Character classes

The three classes that decide how a sketch is read.

* `isBlank`: white space, the Unicode property `White_Space`.
* `isWord`: the characters of identifiers in any script.
* `isAlphanumeric`: letters and numbers, the characters of a file extension.

The first 128 characters are answered directly and everything above them by the tables. Blank and
word characters exclude each other (`isWord_of_isBlank`).
-/

namespace SketchBuild.Text

/-- White space: the Unicode property `White_Space`. -/
def isBlank (c : Char) : Bool :=
  let n := c.toNat
  (0x09 ≤ n && n ≤ 0x0D) || n == 0x20 || n == 0x85 || n == 0xA0 || n == 0x1680
    || (0x2000 ≤ n && n ≤ 0x200A) || n == 0x2028 || n == 0x2029 || n == 0x202F || n == 0x205F
    || n == 0x3000

/-- Connector punctuation, general category `Pc`. -/
def isConnector (c : Char) : Bool :=
  let n := c.toNat
  n == 0x5F || n == 0x203F || n == 0x2040 || n == 0x2054 || n == 0xFE33 || n == 0xFE34
    || (0xFE4D ≤ n && n ≤ 0xFE4F) || n == 0xFF3F

/-- The two joiners, property `Join_Control`. -/
def isJoiner (c : Char) : Bool :=
  c.toNat == 0x200C || c.toNat == 0x200D

/-- Word characters: alphabetic, mark, decimal number, connector punctuation or joiner, as far as
version 16 of Unicode has them. -/
def isWord (c : Char) : Bool :=
  if c.toNat < 0x80 then c.isAlphanum || c == '_'
  else !recent.contains c.toNat
    && (alphabetic.contains c.toNat || mark.contains c.toNat || decimalNumber.contains c.toNat
      || isConnector c || isJoiner c)

/-- Alphabetic characters and numbers of every kind. A mark that is not alphabetic is neither. -/
def isAlphanumeric (c : Char) : Bool :=
  if c.toNat < 0x80 then c.isAlphanum
  else alphabetic.contains c.toNat || decimalNumber.contains c.toNat
    || otherNumber.contains c.toNat

/-- Marks that continue the user-perceived character before them. The halfwidth sound marks, which
are letters and take a place of their own, are not among them. -/
def extendsGrapheme (c : Char) : Bool :=
  0x80 ≤ c.toNat && mark.contains c.toNat && graphemeExtend.contains c.toNat

/-- The Hangul fillers, letters without a shape: the letters with the property
`Default_Ignorable_Code_Point`. -/
def isFiller (c : Char) : Bool :=
  c.toNat == 0x115F || c.toNat == 0x1160 || c.toNat == 0x3164 || c.toNat == 0xFFA0

/-- The white space characters, one by one. -/
def blanks : List Nat :=
  [0x09, 0x0A, 0x0B, 0x0C, 0x0D, 0x20, 0x85, 0xA0, 0x1680, 0x2000, 0x2001, 0x2002, 0x2003, 0x2004,
    0x2005, 0x2006, 0x2007, 0x2008, 0x2009, 0x200A, 0x2028, 0x2029, 0x202F, 0x205F, 0x3000]

theorem toNat_mem_blanks {c : Char} (h : isBlank c) : c.toNat ∈ blanks := by
  simp only [isBlank, Bool.or_eq_true, Bool.and_eq_true, decide_eq_true_eq, beq_iff_eq] at h
  simp only [blanks, List.mem_cons, List.not_mem_nil, or_false]
  omega

/-- No character is both blank and part of a word. -/
theorem isWord_of_isBlank {c : Char} (h : isBlank c) : isWord c = false := by
  have all : ∀ n ∈ blanks, isWord (Char.ofNat n) = false := by decide +kernel
  simpa using all _ (toNat_mem_blanks h)

end SketchBuild.Text
