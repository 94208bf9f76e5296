import SketchBuild.Text.Basic

/-!
# Sketch options

The three things about generated C++ that a project can choose.
-/

namespace SketchBuild

/-- How C++ is generated from a sketch. -/
structure SketchOptions where
  /-- The header that the first line includes. -/
  umbrellaHeader : Text := "Arduino.h".toList
  /-- Write the origin of the body as a `#line` directive; otherwise as a comment of one line. -/
  lineMarker : Bool := true
  /-- Collapse blocks in the leaking mode. -/
  braceLeak : Bool := false
  deriving DecidableEq, Repr

end SketchBuild
