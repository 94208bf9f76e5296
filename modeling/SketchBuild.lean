import SketchBuild.Build.Action
import SketchBuild.Build.Configuration
import SketchBuild.Build.Dependencies
import SketchBuild.Build.Directory
import SketchBuild.Build.Failure
import SketchBuild.Build.Sketches
import SketchBuild.CommandLine.Basic
import SketchBuild.CommandLine.Parser
import SketchBuild.CommandLine.Run
import SketchBuild.Depfile.Augment
import SketchBuild.Depfile.Basic
import SketchBuild.FileTree.Access
import SketchBuild.FileTree.Basic
import SketchBuild.FileTree.OsError
import SketchBuild.FileTree.Walk
import SketchBuild.Host.Basic
import SketchBuild.Host.Event
import SketchBuild.Host.Workspace
import SketchBuild.Json.Basic
import SketchBuild.Json.Decode
import SketchBuild.Json.Reader
import SketchBuild.Json.Writer
import SketchBuild.Library.Identity
import SketchBuild.Main
import SketchBuild.Path.Basic
import SketchBuild.Path.Relative
import SketchBuild.Project.Basic
import SketchBuild.Project.Format
import SketchBuild.Project.Listing
import SketchBuild.Proofs.Build.Batches
import SketchBuild.Proofs.Build.Plans
import SketchBuild.Proofs.Build.Printing
import SketchBuild.Proofs.Depfile.Comments
import SketchBuild.Proofs.Depfile.Conflicts
import SketchBuild.Proofs.Depfile.Conversion
import SketchBuild.Proofs.Depfile.MakeRules
import SketchBuild.Proofs.Depfile.OneRule
import SketchBuild.Proofs.Depfile.Reading
import SketchBuild.Proofs.Depfile.Rules
import SketchBuild.Proofs.Depfile.Words
import SketchBuild.Proofs.FileTree.Absolute
import SketchBuild.Proofs.FileTree.Directories
import SketchBuild.Proofs.FileTree.Missing
import SketchBuild.Proofs.FileTree.Shape
import SketchBuild.Proofs.FileTree.Texts
import SketchBuild.Proofs.Host.Directories
import SketchBuild.Proofs.Json.Grammar
import SketchBuild.Proofs.Json.Records
import SketchBuild.Proofs.Json.Writing
import SketchBuild.Proofs.Library.Identity
import SketchBuild.Proofs.Path.Moves
import SketchBuild.Proofs.Path.Places
import SketchBuild.Proofs.Path.Resolution
import SketchBuild.Proofs.Path.Routes
import SketchBuild.Proofs.Project.Folders
import SketchBuild.Proofs.Project.JsonForms
import SketchBuild.Proofs.Project.Listings
import SketchBuild.Proofs.Sketch.BraceModes
import SketchBuild.Proofs.Sketch.CollapsedForm
import SketchBuild.Proofs.Sketch.CommentedOut
import SketchBuild.Proofs.Sketch.Concatenation
import SketchBuild.Proofs.Sketch.ContinuedIncludes
import SketchBuild.Proofs.Sketch.Extraction
import SketchBuild.Proofs.Sketch.Grammar
import SketchBuild.Proofs.Sketch.Hoisting
import SketchBuild.Proofs.Sketch.IncludeRegions
import SketchBuild.Proofs.Sketch.LineEnds
import SketchBuild.Proofs.Sketch.Lines
import SketchBuild.Proofs.Sketch.Lookahead
import SketchBuild.Proofs.Sketch.Marker
import SketchBuild.Proofs.Sketch.Offsets
import SketchBuild.Proofs.Sketch.Outermost
import SketchBuild.Proofs.Sketch.Redaction
import SketchBuild.Proofs.Sketch.Regeneration
import SketchBuild.Proofs.Sketch.SecondPass
import SketchBuild.Proofs.Sketch.Signature
import SketchBuild.Proofs.Sketch.Tokenisation
import SketchBuild.Proofs.Text
import SketchBuild.Proofs.Text.ByteOrder
import SketchBuild.Proofs.Text.Pattern
import SketchBuild.Sketch.Analysis
import SketchBuild.Sketch.Block
import SketchBuild.Sketch.Format
import SketchBuild.Sketch.Include
import SketchBuild.Sketch.Options
import SketchBuild.Sketch.OutputName
import SketchBuild.Sketch.Region
import SketchBuild.Sketch.Signature
import SketchBuild.Text.Alphabetic
import SketchBuild.Text.Basic
import SketchBuild.Text.Class
import SketchBuild.Text.CodeRanges
import SketchBuild.Text.Mark
import SketchBuild.Text.Number
import SketchBuild.Text.Quoted
import SketchBuild.Text.Recent
