import SketchBuild.Text.Basic
import Std.Data.ExtTreeSet

/-!
# Paths

A path is a text whose components are separated by slashes. Its text is kept as it was given:
`a//b` and `a/b` have the same components and are different paths.

Repeated slashes and a trailing slash make no component, nor does a dot, except that the dot at the
very front of a relative path counts. Components are ordered with the root first, then `.`, then
`..`, then names by their characters; the order is total and tells all components apart.
-/

namespace SketchBuild

/-- One step of a path. -/
inductive Component
  | root
  | current
  | parent
  | name (n : Text)
  deriving DecidableEq, Repr

namespace Component

/-- The component as it is written. -/
def text : Component → Text
  | .root => ['/']
  | .current => ['.']
  | .parent => ['.', '.']
  | .name n => n

/-- The component that a piece between slashes stands for; an empty piece and a dot make none. -/
def ofPiece? (piece : Text) : Option Component :=
  if piece = [] ∨ piece = ['.'] then none
  else if piece = ['.', '.'] then some .parent
  else some (.name piece)

/-- The place of a component among the four forms. -/
def rank : Component → Nat
  | .root => 0
  | .current => 1
  | .parent => 2
  | .name _ => 3

instance : Ord Component where
  compare := compareLex (compareOn rank) (compareOn text)

instance : Std.TransOrd Component :=
  inferInstanceAs (Std.TransCmp (compareLex (compareOn rank) (compareOn text)))

instance : Std.LawfulEqOrd Component where
  compare_self := Std.ReflCmp.compare_self
  eq_of_compare {a b} h := by
    have both : compare a.rank b.rank = .eq ∧ compare a.text b.text = .eq :=
      Ordering.then_eq_eq.1 h
    have sameRank := Std.LawfulEqOrd.eq_of_compare both.1
    have sameText := Std.LawfulEqOrd.eq_of_compare both.2
    cases a <;> cases b <;> simp_all [rank, text]

end Component

/-- A path by its text. -/
structure Path where
  text : Text
  deriving DecidableEq, Repr

namespace Path

/-- The path with the given text. -/
def ofString (s : String) : Path :=
  ⟨s.toList⟩

/-- The path starts at the root. -/
def isAbsolute (p : Path) : Bool :=
  p.text.head? = some '/'

/-- The components of a path. -/
def components (p : Path) : List Component :=
  match Text.split '/' p.text with
  | [] => []
  | first :: pieces =>
    let rest := pieces.filterMap Component.ofPiece?
    if first = ['.'] then .current :: rest
    else if p.isAbsolute then .root :: rest
    else (Component.ofPiece? first).toList ++ rest

/-- The name at the end of a path, if it ends in one. -/
def fileName? (p : Path) : Option Text :=
  match p.components.getLast? with
  | some (.name n) => some n
  | _ => none

/-- A piece between slashes that makes no component. -/
def isIdle (piece : Text) : Bool :=
  piece = [] ∨ piece = ['.']

/-- The path without its last component; the root and the empty path have no parent. What is
written before the last component stays as it is, up to the component before. -/
def parent? (p : Path) : Option Path :=
  match Text.split '/' p.text with
  | [] => none
  | first :: pieces =>
    match pieces.reverse.dropWhile isIdle with
    | [] => if first = [] then none else some ⟨[]⟩
    | _ :: before =>
      match before.dropWhile isIdle with
      | [] => some ⟨if first = [] then ['/'] else first⟩
      | kept => some ⟨Text.join '/' (first :: kept.reverse)⟩

/-- A path taken from a base: an absolute one stands for itself. -/
def join (base p : Path) : Path :=
  if p.isAbsolute then p
  else if base.text = [] ∨ base.text.getLast? = some '/' then ⟨base.text ++ p.text⟩
  else ⟨base.text ++ '/' :: p.text⟩

/-- The directory that holds the path, the empty path standing for the current one. -/
def directory (p : Path) : Path :=
  p.parent?.getD ⟨[]⟩

end Path

end SketchBuild
