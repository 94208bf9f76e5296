import SketchBuild.CommandLine.Basic

/-!
# Reading the command line

Words are read from left to right. A word is an option if it starts with a dash and has more to it;
after a word of two dashes there are no options any more. A long option may have its value attached
with an equals sign; otherwise the words after it are its values, as many as it takes, and none of
them may look like an option.

The values of an option are judged only when the next option comes or the words are used up, for
until then there might be more of them. An option before the command is therefore judged after
everything behind the command.
-/

namespace SketchBuild.CommandLine

/-! ### Words -/

/-- What a word looks like. -/
inductive Word
  /-- Two dashes. -/
  | escape
  /-- A long option, with the value attached to it, if any. -/
  | long (name : Text) (value? : Option Text)
  /-- One-letter options behind one dash. -/
  | short (letters : Text)
  /-- Anything else, a single dash included. -/
  | plain
  deriving DecidableEq, Repr

/-- What a word looks like. -/
def Word.ofText : Text → Word
  | ['-', '-'] => .escape
  | '-' :: '-' :: option =>
    match option.dropWhile (· != '=') with
    | _ :: value => .long (option.takeWhile (· != '=')) (some value)
    | [] => .long option none
  | '-' :: c :: cs => .short (c :: cs)
  | _ => .plain

/-- The command that a word stands for, or the request for help on a command. -/
inductive Subcommand
  | verb (v : Verb)
  | help
  deriving DecidableEq, Repr

/-- The command that a word stands for. -/
def Subcommand.ofWord? (word : Text) : Option Subcommand :=
  if word = "help".toList then some .help
  else (Verb.all.find? (·.word = word)).map .verb

/-! ### Options -/

/-- The options read so far with their values, and the one whose values are being collected. -/
structure Given where
  settled : List (Opt × List Text) := []
  pending? : Option (Opt × List Text) := none
  deriving DecidableEq, Repr

namespace Given

/-- The option was given. -/
def has (given : Given) (opt : Opt) : Bool :=
  given.settled.any (·.1 = opt)

/-- All values of an option. -/
def values (given : Given) (opt : Opt) : List Text :=
  (given.settled.filter (·.1 = opt)).flatMap (·.2)

/-- The first value of an option. -/
def value? (given : Given) (opt : Opt) : Option Text :=
  (given.values opt).head?

/-- Judges an option with its values. -/
def settle (given : Given) (opt : Opt) (values : List Text) : Except Usage Given :=
  if opt = .help then .error .help
  else if opt = .version then .error .version
  else if opt.arity ≠ .none ∧ values = [] then .error .invalidValue
  else if opt.arity ≠ .many ∧ given.has opt then .error .argumentConflict
  else if opt.takesPath ∧ values.any List.isEmpty then .error .invalidValue
  else .ok { given with settled := given.settled ++ [(opt, values)] }

/-- Judges the option whose values were being collected. -/
def flush (given : Given) : Except Usage Given :=
  match given.pending? with
  | none => .ok given
  | some (opt, values) => settle { given with pending? := none } opt values

/-- The next word is a value if it does not look like an option. -/
def expectsValue (given : Given) : Bool :=
  match given.pending? with
  | some (opt, values) => opt.arity = .many || values.isEmpty
  | none => false

/-- One more value for the option whose values are being collected. -/
def collect (given : Given) (value : Text) : Given :=
  { given with pending? := given.pending?.map fun (opt, values) => (opt, values ++ [value]) }

/-- Reads a long option. -/
def long (given : Given) (options : List Opt) (name : Text) (value? : Option Text) :
    Except Usage Given :=
  match options.find? (·.longName = name) with
  | none => .error .unknownArgument
  | some opt =>
    match opt.arity, value? with
    | .none, some _ => .error .tooManyValues
    | .none, none => do (← given.flush).settle opt []
    | _, some value => do (← given.flush).settle opt [value]
    | _, none => do return { ← given.flush with pending? := some (opt, []) }

/-- Reads one-letter options. -/
def short (given : Given) (options : List Opt) : Text → Except Usage Given
  | [] => .ok given
  | c :: cs =>
    match options.find? (·.shortName? = some c) with
    | none => .error .unknownArgument
    | some opt => do short (← (← given.flush).settle opt []) options cs

end Given

/-! ### Commands -/

/-- Reads the words after a command. -/
def readOptions (options : List Opt) : Given → List Text → Except Usage Given
  | given, [] => given.flush
  | given, word :: words =>
    match Word.ofText word with
    | .escape => if words = [] then given.flush else .error .unknownArgument
    | .long name value? => do readOptions options (← given.long options name value?) words
    | .short letters => do readOptions options (← given.short options letters) words
    | .plain =>
      if given.expectsValue then readOptions options (given.collect word) words
      else .error .unknownArgument

/-- Reads the words after a command and sees to it that nothing is missing. -/
def readVerb (verb : Verb) (words : List Text) : Except Usage Given := do
  let given ← readOptions verb.options {} words
  match verb.required? with
  | some opt => if given.has opt then .ok given else .error .missingOption
  | none => .ok given

/-- Reads the words after the request for help. -/
def readHelp : List Text → Usage
  | [] => .help
  | [word] => if (Subcommand.ofWord? word).isSome then .help else .invalidCommand
  | _ => .invalidCommand

/-- The command that the options of a verb make up. -/
def commandOf (verb : Verb) (given : Given) : Command :=
  let path? (opt : Opt) : Option Path := (given.value? opt).map Path.mk
  match verb with
  | .generate =>
    .generate ((given.values .sketch).map Path.mk)
      (if given.has .print then .printed else .files (path? .outputDirectory))
      { header? := given.value? .header
        noLineMarker := given.has .noLineMarker
        braceLeak := given.has .braceLeak }
  | .listHeaderFolders => .listHeaderFolders
  | .listSources => .listSources
  | .makeDirectory => .makeDirectory ((path? .directory).getD ⟨[]⟩)
  | .augment => .augment ((path? .depfile).getD ⟨[]⟩) (path? .augmented)

/-- The invocation for the options before and after a command; those after it win. -/
def invocationOf (verb : Verb) (before after : Given) : Invocation :=
  let invocation : Invocation := { command := commandOf verb after }
  { invocation with
    config := (((after.value? .config).or (before.value? .config)).map Path.mk).getD
      invocation.config
    verbose := after.has .verbose || before.has .verbose }

/-- The end of the words, with no command among them. -/
def noCommand (given : Given) : Except Usage Invocation := do
  if (← given.flush).settled = [] then .error .nothingGiven else .error .missingCommand

/-- Reads words up to the command and behind it. -/
def readWords : Given → List Text → Except Usage Invocation
  | given, [] => noCommand given
  | given, word :: words =>
    match if given.expectsValue then none else Subcommand.ofWord? word with
    | some .help => .error (readHelp words)
    | some (.verb verb) => do
      let after ← readVerb verb words
      let before ← given.flush
      return invocationOf verb before after
    | none =>
      match Word.ofText word with
      | .escape =>
        match words with
        | [] => noCommand given
        | next :: _ =>
          if (Subcommand.ofWord? next).isSome then .error .unknownArgument
          else .error .invalidCommand
      | .long name value? => do readWords (← given.long topOptions name value?) words
      | .short letters => do readWords (← given.short topOptions letters) words
      | .plain =>
        if given.expectsValue then readWords (given.collect word) words
        else .error .invalidCommand

/-- Reads a command line, without the name of the program. -/
def parse (words : List Text) : Except Usage Invocation :=
  readWords {} words

end SketchBuild.CommandLine
