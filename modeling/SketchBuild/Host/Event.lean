import SketchBuild.Path.Basic
import SketchBuild.Sketch.Analysis
import SketchBuild.Text.Quoted

/-!
# Log events

What the tool reports about its work while it goes on. Every event has a level; a threshold decides
which events are shown, and `Event.line` says how.
-/

namespace SketchBuild

/-- How much an event matters. -/
inductive LogLevel
  | trace
  | debug
  | info
  | warn
  deriving DecidableEq, Repr

namespace LogLevel

/-- The levels in ascending order. -/
def rank : LogLevel → Nat
  | .trace => 0
  | .debug => 1
  | .info => 2
  | .warn => 3

/-- The word for a level. -/
def word : LogLevel → Text
  | .trace => "TRACE".toList
  | .debug => "DEBUG".toList
  | .info => "INFO".toList
  | .warn => "WARN".toList

end LogLevel

/-- Something worth telling. -/
inductive Event
  /-- A function definition was found in a sketch. -/
  | definitionFound (signature : Text)
  /-- A sketch was analysed. -/
  | sketchAnalysed (lines includes prototypes : Nat)
  /-- The text generated from a sketch was written. -/
  | sketchWritten (sketch output : Path)
  /-- There is no configuration file. -/
  | defaultsUsed (config : Path)
  /-- There is no dependency file. -/
  | depfileMissing (path : Path)
  /-- Headers were found in a dependency file, but no target that could depend on them. -/
  | targetMissing
  /-- A dependency file was augmented. -/
  | depfileWritten (path output : Path)
  deriving DecidableEq, Repr

namespace Event

/-- The level of an event. -/
def level : Event → LogLevel
  | .definitionFound _ => .trace
  | .sketchAnalysed _ _ _ => .debug
  | .sketchWritten _ _ => .info
  | .defaultsUsed _ => .debug
  | .depfileMissing _ => .debug
  | .targetMissing => .warn
  | .depfileWritten _ _ => .debug

/-- What an event says: a free text, and fields as `name=value`. Values are shown as they are, or
quoted if they are code. -/
def message : Event → Text
  | .definitionFound signature =>
    "found definition signature=".toList ++ Text.quoted signature
  | .sketchAnalysed lines includes prototypes =>
    "translated sketch lines=".toList ++ Text.ofNat lines
      ++ " includes=".toList ++ Text.ofNat includes
      ++ " prototypes=".toList ++ Text.ofNat prototypes
  | .sketchWritten sketch output =>
    "preprocessed sketch sketch=".toList ++ sketch.text ++ " output=".toList ++ output.text
  | .defaultsUsed config =>
    "no configuration file, using defaults config=".toList ++ config.text
  | .depfileMissing path => Text.defused (path.text ++ " was not found.".toList)
  | .targetMissing => "no build target found; library dependencies skipped".toList
  | .depfileWritten path output =>
    "wrote dependency file dpath=".toList ++ path.text ++ " adpath=".toList ++ output.text

/-- The line of an event in the log. -/
def line (event : Event) : Text :=
  event.level.word ++ ' ' :: event.message

end Event

/-- The least level that is shown, or nothing at all. -/
inductive LogThreshold
  | off
  | atLeast (level : LogLevel)
  deriving DecidableEq, Repr

/-- The event reaches the threshold. -/
def LogThreshold.shows : LogThreshold → Event → Bool
  | .off, _ => false
  | .atLeast level, event => level.rank ≤ event.level.rank

/-- What is told about an analysis: its definitions one by one, then a summary. -/
def Analysis.events (analysis : Analysis) : List Event :=
  analysis.prototypes.map (.definitionFound ·.signature)
    ++ [.sketchAnalysed analysis.body.length analysis.includes.length analysis.prototypes.length]

end SketchBuild
