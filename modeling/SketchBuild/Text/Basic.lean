import SketchBuild.Text.Class

/-!
# Texts

A text is a list of characters. This module has the handful of operations that the formats of this
library share: splitting at a separator, splitting after every newline, trimming blanks, and the
length in UTF-8 bytes, by which file systems measure names.
-/

namespace SketchBuild

/-- A text, character by character. -/
abbrev Text := List Char

namespace Text

/-- The pieces between the occurrences of `sep`; a text without `sep` is one piece. -/
def split (sep : Char) : Text → List Text
  | [] => [[]]
  | c :: cs =>
    if c = sep then [] :: split sep cs
    else match split sep cs with
      | [] => [[c]]
      | piece :: pieces => (c :: piece) :: pieces

/-- The pieces joined by `sep`. -/
def join (sep : Char) (pieces : List Text) : Text :=
  List.intercalate [sep] pieces

theorem split_ne_nil (sep : Char) (t : Text) : split sep t ≠ [] := by
  cases t with
  | nil => simp [split]
  | cons c cs =>
    rw [split]
    split
    · simp
    · split <;> simp

/-- Splitting at a separator and joining with it gives the text back. -/
theorem join_split (sep : Char) (t : Text) : join sep (split sep t) = t := by
  induction t with
  | nil => rfl
  | cons c cs ih =>
    rw [split]
    cases h : split sep cs with
    | nil => exact absurd h (split_ne_nil sep cs)
    | cons piece pieces =>
      rw [h] at ih
      split
      · next hc => subst hc; simpa [join, List.intercalate] using ih
      · cases pieces <;> simp_all [join, List.intercalate]

/-- What stands before and after the last occurrence of `sep`. -/
def splitLast? (sep : Char) (t : Text) : Option (Text × Text) :=
  match t.reverse.dropWhile (· != sep) with
  | [] => none
  | _ :: before => some (before.reverse, (t.reverse.takeWhile (· != sep)).reverse)

/-- The lines of a text, each with the newline that ends it; an unfinished last line counts. -/
def linesWithEnds : Text → List Text
  | [] => []
  | c :: cs =>
    if c = '\n' then ['\n'] :: linesWithEnds cs
    else match linesWithEnds cs with
      | [] => [[c]]
      | line :: lines => (c :: line) :: lines

theorem flatten_linesWithEnds (t : Text) : (linesWithEnds t).flatten = t := by
  induction t with
  | nil => rfl
  | cons c cs ih =>
    rw [linesWithEnds]
    split
    · simp_all
    · split <;> simp_all

/-- The text without its leading blanks. -/
def trimStart (t : Text) : Text :=
  t.dropWhile isBlank

/-- The text without its trailing blanks. -/
def trimEnd (t : Text) : Text :=
  (t.reverse.dropWhile isBlank).reverse

/-- The number of bytes of the text in UTF-8. -/
def utf8Length (t : Text) : Nat :=
  t.foldl (fun bytes c => bytes + c.utf8Size) 0

/-- A number in decimal digits. -/
def ofNat (n : Nat) : Text :=
  Nat.toDigits 10 n

end Text

end SketchBuild
