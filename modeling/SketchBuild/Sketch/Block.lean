import SketchBuild.Text.Basic

/-!
# Blocks

Collapsing erases what stands inside the blocks of a text and keeps the braces of the outermost
ones, so that statements inside a function cannot be taken for declarations. A running depth
decides what is kept.

There are two modes. In the plain one a closing brace never takes the depth below zero, and of a
block only the outermost braces are kept. In the leaking mode every closing brace is kept
whatever the depth, one at depth zero even twice, and the depth may become negative, so that the
text after a stray closing brace is hidden until an opening brace makes up for it.
-/

namespace SketchBuild.Block

/-- The depth after a character. -/
def depthAfter (leak : Bool) (depth : Int) (c : Char) : Int :=
  if c = '{' then depth + 1
  else if c = '}' then
    if leak then depth - 1 else if 0 < depth then depth - 1 else depth
  else depth

/-- What is kept of a character that is met at the given depth. -/
def kept (leak : Bool) (depth : Int) (c : Char) : Text :=
  let plain := if depth = 0 then [c] else []
  if c = '}' then
    if leak then plain ++ [c] else if depth = 1 then [c] else plain
  else plain

/-- The depth after a text that is entered at the given depth. -/
def depthFrom (leak : Bool) (depth : Int) (t : Text) : Int :=
  t.foldl (depthAfter leak) depth

/-- What is kept of a text that is entered at the given depth. -/
def collapseFrom (leak : Bool) : Int → Text → Text
  | _, [] => []
  | depth, c :: cs => kept leak depth c ++ collapseFrom leak (depthAfter leak depth c) cs

/-- The text without the content of its blocks. -/
def collapse (leak : Bool) (t : Text) : Text :=
  collapseFrom leak 0 t

@[simp] theorem collapseFrom_nil (leak : Bool) (depth : Int) : collapseFrom leak depth [] = [] :=
  rfl

@[simp] theorem collapseFrom_cons (leak : Bool) (depth : Int) (c : Char) (cs : Text) :
    collapseFrom leak depth (c :: cs) =
      kept leak depth c ++ collapseFrom leak (depthAfter leak depth c) cs := rfl

/-- Collapsing works through a text piece by piece, handing on the depth. -/
theorem collapseFrom_append (leak : Bool) (depth : Int) (s t : Text) :
    collapseFrom leak depth (s ++ t) =
      collapseFrom leak depth s ++ collapseFrom leak (depthFrom leak depth s) t := by
  induction s generalizing depth with
  | nil => rfl
  | cons c cs ih => simp [ih, depthFrom]

/-- Outside the leaking mode the depth stays at zero or above. -/
theorem depthAfter_nonneg {depth : Int} (c : Char) (h : 0 ≤ depth) :
    0 ≤ depthAfter false depth c := by
  unfold depthAfter
  grind

end SketchBuild.Block
