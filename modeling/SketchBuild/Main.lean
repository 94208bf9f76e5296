import SketchBuild.CommandLine.Run

/-!
# The program

Runs the tool on the real file system. Log lines and failures go to standard error. The variable
`RUST_LOG` of the environment sets the threshold of the log: `trace`, `debug`, `info`, `warn`,
`error` or `off`.
-/

namespace SketchBuild.Main

/-- The real surroundings, with the threshold of the log. -/
abbrev System := ReaderT LogThreshold IO

/-- The error of the operating system behind an exception. -/
def osError : IO.Error → OsError
  | .noFileOrDirectory _ _ _ => .noEntry
  | .alreadyExists _ _ _ => .fileExists
  | .inappropriateType _ code details => .ofCode code.toNat details.toList
  | .invalidArgument _ code details => .ofCode code.toNat details.toList
  | .permissionDenied _ code details => .ofCode code.toNat details.toList
  | .resourceExhausted _ code details => .ofCode code.toNat details.toList
  | e => .other 0 e.toString.toList

/-- Makes the exceptions of an action results. -/
def attempt {α : Type} (action : IO α) : System (Except OsError α) := do
  try
    return .ok (← action)
  catch e =>
    return .error (osError e)

/-- The path as a string. -/
def pathString (p : Path) : String :=
  String.ofList p.text

/-- The real path behind a string, if there is one. -/
def realPath? (s : String) : System (Option Path) := do
  match ← attempt (IO.FS.realPath s) with
  | .ok real => return some (.ofString (toString real))
  | .error _ => return none

/-- The path leads to a directory. -/
def leadsToDirectory (p : Path) : System Bool :=
  return (← realPath? (pathString p ++ "/.")).isSome

instance : Host System where
  read p := do
    match ← attempt (IO.FS.readBinFile (pathString p)) with
    | .ok bytes =>
      match String.fromUTF8? bytes with
      | some s => return .ok s.toList
      | none => return .error .notUtf8
    | .error e => return .error e
  write p t := attempt (IO.FS.writeFile (pathString p) (String.ofList t))
  makeDirectory p := attempt (IO.FS.createDir (pathString p))
  isDirectory := leadsToDirectory
  isFile p := return (← realPath? (pathString p)).isSome && !(← leadsToDirectory p)
  pathExists p := return (← realPath? (pathString p)).isSome
  canonical? p := realPath? (pathString p)
  currentDirectory := return .ofString (toString (← IO.currentDir))
  record event := do
    if (← read).shows event then
      IO.eprintln (String.ofList event.line)
  print t := do IO.print (String.ofList t)

/-- The threshold that a word asks for. There are no events above the warnings. -/
def thresholdOf? : String → Option LogThreshold
  | "trace" => some (.atLeast .trace)
  | "debug" => some (.atLeast .debug)
  | "info" => some (.atLeast .info)
  | "warn" => some (.atLeast .warn)
  | "error" | "off" => some .off
  | _ => none

/-- What is said about a command line that asks for no work. -/
def usageMessage : CommandLine.Usage → String
  | .nothingGiven | .help =>
    "Usage: arturo [--config PATH] [-v] preprocess|source-headers|source-files|mkdirs|d-to-ad|help"
  | .missingCommand => "error: a command is missing"
  | .invalidCommand => "error: there is no such command"
  | .missingOption => "error: a required option is missing"
  | .invalidValue => "error: an option has no valid value"
  | .unknownArgument => "error: unexpected argument"
  | .argumentConflict => "error: an option is given twice"
  | .tooManyValues => "error: a flag takes no value"
  | .version => String.ofList CommandLine.versionText.dropLast

end SketchBuild.Main

open SketchBuild in
/-- Reads the command line, does the work and returns the exit code. -/
def main (args : List String) : IO UInt32 := do
  match CommandLine.parse (args.map String.toList) with
  | .error usage =>
    if usage.exitCode = 0 then IO.println (Main.usageMessage usage)
    else IO.eprintln (Main.usageMessage usage)
    return UInt32.ofNat usage.exitCode
  | .ok invocation =>
    let override? := (← IO.getEnv "RUST_LOG").bind Main.thresholdOf?
    let run : Main.System (Except Failure Unit) := invocation.run.run
    let outcome ← run (invocation.threshold override?)
    if let .error failure := outcome then
      IO.eprint (String.ofList failure.report)
    return UInt32.ofNat (CommandLine.exitCode outcome)
