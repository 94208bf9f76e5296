import SketchBuild.Text.Basic

/-!
# Function signatures

A signature is a type word, white space, a declarator and a parenthesised list of parameters.
Its shape is judged by characters alone:

* *type characters* are word characters, brackets and stars;
* *declarator characters* are type characters, ampersands and white space;
* *parameter characters* are declarator characters and commas.

The part before the parenthesis consists of declarator characters; it begins with a run of type
characters, which white space and at least one more character follow. A definition is a signature
and an opening brace, with nothing but white space between them.

* `Signature.split?` reads the signature at the front of a text.
* `Signature.definitions` finds all definitions of a text, from left to right and without overlap.
-/

namespace SketchBuild

namespace Signature

/-- Word characters, brackets and stars. -/
def isTypeChar (c : Char) : Bool :=
  Text.isWord c || c == '[' || c == ']' || c == '*'

/-- Type characters, ampersands and white space. -/
def isDeclaratorChar (c : Char) : Bool :=
  isTypeChar c || c == '&' || Text.isBlank c

/-- Declarator characters and commas. -/
def isParameterChar (c : Char) : Bool :=
  isDeclaratorChar c || c == ','

/-- The part of a signature before the parenthesis: a type word, white space, something more. -/
def isHead (head : Text) : Bool :=
  match head.takeWhile isTypeChar, head.dropWhile isTypeChar with
  | _ :: _, gap :: _ :: _ => Text.isBlank gap && head.all isDeclaratorChar
  | _, _ => false

/-- The signature at the front of a text, and what follows it. -/
def split? (t : Text) : Option (Text × Text) :=
  let head := t.takeWhile isDeclaratorChar
  match t.dropWhile isDeclaratorChar with
  | '(' :: inner =>
    let parameters := inner.takeWhile isParameterChar
    match inner.dropWhile isParameterChar with
    | ')' :: rest =>
      if isHead head then some (head ++ '(' :: (parameters ++ [')']), rest) else none
    | _ => none
  | _ => none

/-- The text is one signature and nothing else. -/
def accepts (t : Text) : Bool :=
  match split? t with
  | some (_, []) => true
  | _ => false

/-- The signature of the definition at the front of a text, and what follows its opening brace. -/
def definition? (t : Text) : Option (Text × Text) :=
  match split? t with
  | none => none
  | some (signature, rest) =>
    match rest.dropWhile Text.isBlank with
    | '{' :: body => some (signature, body)
    | _ => none

/-- A signature and what follows it make up the text. -/
theorem split?_append {t signature rest : Text} (h : split? t = some (signature, rest)) :
    signature ++ rest = t := by
  unfold split? at h
  split at h
  · next inner hinner =>
    split at h
    · next after hafter =>
      dsimp only at h
      split at h
      · cases h
        have tail := List.takeWhile_append_dropWhile (p := isParameterChar) (l := inner)
        have whole := List.takeWhile_append_dropWhile (p := isDeclaratorChar) (l := t)
        rw [hafter] at tail
        rw [hinner, ← tail] at whole
        simpa using whole
      · cases h
    · cases h
  · cases h

theorem length_lt_of_definition? {t signature body : Text}
    (h : definition? t = some (signature, body)) : body.length < t.length := by
  unfold definition? at h
  split at h
  · cases h
  · next found rest hsplit =>
    split at h
    · next after hafter =>
      cases h
      have whole := congrArg List.length (split?_append hsplit)
      have tail := (List.dropWhile_suffix (l := rest) Text.isBlank).length_le
      rw [hafter] at tail
      simp only [List.length_append, List.length_cons] at whole tail
      omega
    · cases h

/-- The signatures of the definitions of a text: the leftmost definition first, then those after
its opening brace. -/
def definitions (t : Text) : List Text :=
  match t with
  | [] => []
  | c :: cs =>
    match _h : definition? (c :: cs) with
    | some (signature, body) => signature :: definitions body
    | none => definitions cs
termination_by t.length
decreasing_by
  · exact length_lt_of_definition? _h
  · simp

end Signature

/-- A forward declaration, made from the signature of a definition. -/
structure Prototype where
  signature : Text
  deriving DecidableEq, Repr

namespace Prototype

/-- The declaration as it is written. -/
def text (prototype : Prototype) : Text :=
  prototype.signature ++ [';']

/-- One prototype for each definition of a text, in order and with repetitions. -/
def extract (collapsed : Text) : List Prototype :=
  (Signature.definitions collapsed).map Prototype.mk

end Prototype

end SketchBuild
