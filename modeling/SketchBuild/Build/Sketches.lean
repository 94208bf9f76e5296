import SketchBuild.Build.Directory
import SketchBuild.Sketch.OutputName

/-!
# Generating C++ from sketch files

A sketch is read as a whole before anything is written, and several sketches are worked through in
order until one fails. The generated text goes to a file in the output directory, or is printed.
-/

namespace SketchBuild

variable {m : Type → Type} [Monad m] [Host m]

/-- The text generated from a sketch file, with the path of the sketch for its name. -/
def generateText (options : SketchOptions) (sketch : Path) : Action m Text := do
  let source ← Action.orFail (.readSketch sketch) (Host.read sketch)
  let analysis := Analysis.ofSource options source
  analysis.events.forM Action.record
  return analysis.render options sketch.text

/-- Where the text generated from a sketch is written. -/
def outputPath (output sketch : Path) : Path :=
  output.join ⟨outputName sketch⟩

/-- Writes the text generated from a sketch into the output directory, which has to exist. -/
def generateFile (options : SketchOptions) (output sketch : Path) : Action m Path := do
  let text ← generateText options sketch
  let path := outputPath output sketch
  Action.orFail (.writeOutput path) (Host.write path text)
  Action.record (.sketchWritten sketch path)
  return path

/-- Creates the output directory and writes the texts generated from all sketches into it. -/
def generateFiles (options : SketchOptions) (output : Path) (sketches : List Path) :
    Action m (List Path) := do
  Action.orFail (.createDirectory output) (makeDirectories output)
  sketches.mapM (generateFile options output)

/-- Prints the texts generated from all sketches. -/
def printGenerated (options : SketchOptions) (sketches : List Path) : Action m Unit :=
  sketches.forM fun sketch => do Action.print (← generateText options sketch)

end SketchBuild
