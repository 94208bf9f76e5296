/-!
# Sets of code points

A set of code points is kept as an array of closed ranges in ascending order, and membership is
decided by bisection. The number of steps is bounded by the number of ranges, since every step
shortens the part of the array still in question.
-/

namespace SketchBuild.Text

/-- Closed ranges of code points, ascending and disjoint. -/
abbrev CodeRanges := Array (Nat × Nat)

namespace CodeRanges

/-- Bisection for `n` among the ranges with index from `lo` up to, not including, `hi`. -/
def search (ranges : CodeRanges) (n : Nat) : (steps lo hi : Nat) → Bool
  | 0, _, _ => false
  | steps + 1, lo, hi =>
    let mid := (lo + hi) / 2
    if lo < hi then
      match ranges[mid]? with
      | none => false
      | some (first, last) =>
        if n < first then search ranges n steps lo mid
        else if last < n then search ranges n steps (mid + 1) hi
        else true
    else false

/-- Some range holds the code point `n`. -/
def contains (ranges : CodeRanges) (n : Nat) : Bool :=
  search ranges n ranges.size 0 ranges.size

end CodeRanges

end SketchBuild.Text
