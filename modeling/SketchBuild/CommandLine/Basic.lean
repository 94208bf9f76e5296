import SketchBuild.Host.Event

/-!
# The command line

What the tool can be asked to do, the options that say so, and the ways in which a command line can
be refused.
-/

namespace SketchBuild.CommandLine

/-- The commands. -/
inductive Verb
  /-- Generate C++ from sketches. -/
  | generate
  /-- List the directories of the headers. -/
  | listHeaderFolders
  /-- List the source files. -/
  | listSources
  /-- Create a directory. -/
  | makeDirectory
  /-- Augment a dependency file. -/
  | augment
  deriving DecidableEq, Repr

/-- All commands. -/
def Verb.all : List Verb :=
  [.generate, .listHeaderFolders, .listSources, .makeDirectory, .augment]

/-- The word for a command. -/
def Verb.word : Verb → Text
  | .generate => "preprocess".toList
  | .listHeaderFolders => "source-headers".toList
  | .listSources => "source-files".toList
  | .makeDirectory => "mkdirs".toList
  | .augment => "d-to-ad".toList

/-- The options. -/
inductive Opt
  | config
  | verbose
  | help
  | version
  | sketch
  | outputDirectory
  | print
  | header
  | noLineMarker
  | braceLeak
  | directory
  | depfile
  | augmented
  deriving DecidableEq, Repr

/-- How many values an option takes. -/
inductive Arity
  | none
  | one
  | many
  deriving DecidableEq, Repr

namespace Opt

/-- The long name of an option, without its two dashes. -/
def longName : Opt → Text
  | .config => "config".toList
  | .verbose => "verbose".toList
  | .help => "help".toList
  | .version => "version".toList
  | .sketch => "sketch".toList
  | .outputDirectory => "output-dir".toList
  | .print => "stdout".toList
  | .header => "header".toList
  | .noLineMarker => "no-line-marker".toList
  | .braceLeak => "compat-brace-leak".toList
  | .directory => "path".toList
  | .depfile => "dpath".toList
  | .augmented => "adpath".toList

/-- The one-letter name of an option, if it has one. -/
def shortName? : Opt → Option Char
  | .verbose => some 'v'
  | .help => some 'h'
  | .version => some 'V'
  | _ => none

/-- How many values an option takes; those with a one-letter name take none. -/
def arity : Opt → Arity
  | .verbose | .help | .version | .print | .noLineMarker | .braceLeak => .none
  | .sketch => .many
  | _ => .one

/-- The values of the option are paths, which are never empty. -/
def takesPath : Opt → Bool
  | .header => false
  | _ => true

end Opt

/-- The options that may stand before or after the command. -/
def globalOptions : List Opt :=
  [.config, .verbose, .help]

/-- The options that may stand before the command. -/
def topOptions : List Opt :=
  .version :: globalOptions

/-- The options of a command. -/
def Verb.options : Verb → List Opt
  | .generate =>
    [.sketch, .outputDirectory, .print, .header, .noLineMarker, .braceLeak] ++ globalOptions
  | .listHeaderFolders => globalOptions
  | .listSources => globalOptions
  | .makeDirectory => .directory :: globalOptions
  | .augment => .depfile :: .augmented :: globalOptions

/-- The option that a command cannot do without. -/
def Verb.required? : Verb → Option Opt
  | .generate => some .sketch
  | .makeDirectory => some .directory
  | .augment => some .depfile
  | .listHeaderFolders | .listSources => none

/-- Why a command line asks for no work: it is wrong, or asks for help or the version. -/
inductive Usage
  | nothingGiven
  | missingCommand
  | invalidCommand
  | missingOption
  | invalidValue
  | unknownArgument
  | argumentConflict
  | tooManyValues
  | help
  | version
  deriving DecidableEq, Repr

/-- The exit code: help and version are answers, all else is an error. -/
def Usage.exitCode : Usage → Nat
  | .help | .version => 0
  | _ => 2

/-- Where generated text goes. -/
inductive Destination
  | printed
  /-- Into files in a directory, the build directory of the project unless one is named. -/
  | files (directory? : Option Path)
  deriving DecidableEq, Repr

/-- The sketch options that a command line changes. -/
structure SketchFlags where
  header? : Option Text := none
  noLineMarker : Bool := false
  braceLeak : Bool := false
  deriving DecidableEq, Repr

/-- Sketch options with the changes of the command line on top. -/
def SketchFlags.apply (flags : SketchFlags) (options : SketchOptions) : SketchOptions where
  umbrellaHeader := flags.header?.getD options.umbrellaHeader
  lineMarker := options.lineMarker && !flags.noLineMarker
  braceLeak := options.braceLeak || flags.braceLeak

/-- What the tool is asked to do. -/
inductive Command
  | generate (sketches : List Path) (destination : Destination) (flags : SketchFlags)
  | listHeaderFolders
  | listSources
  | makeDirectory (path : Path)
  | augment (depfile : Path) (output? : Option Path)
  deriving DecidableEq, Repr

/-- A command with the settings that every command has. -/
structure Invocation where
  command : Command
  config : Path := .ofString "arturo.json"
  verbose : Bool := false
  deriving DecidableEq, Repr

/-- The threshold of the log: the one asked for by the surroundings, or else debug when verbose and
warnings otherwise. -/
def Invocation.threshold (invocation : Invocation) (override? : Option LogThreshold) :
    LogThreshold :=
  override?.getD (.atLeast (if invocation.verbose then .debug else .warn))

end SketchBuild.CommandLine
