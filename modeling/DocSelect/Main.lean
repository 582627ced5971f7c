import DocSelect.Readers
import DocSelect.Run.Arguments

/-!
# The command line

Executes a run against the operating system: inputs are standard input and files, output goes to
standard output, and the message of an error to standard error. The exit status is zero if anything
matched, one if nothing did or the run failed, and two if the arguments are no options.
-/

namespace DocSelect

/-- The name and version of the program. -/
def versionText : String := "docselect 1.0.0\n"

/-- How the program is called. -/
def usageText : String :=
  "Usage: docselect [OPTIONS] <SELECTOR> [FILES]...\n\n" ++
  "Arguments:\n" ++
  "  <SELECTOR>               The selector\n" ++
  "  [FILES]...               Files to read; - is standard input, which is also the default\n\n" ++
  "Options:\n" ++
  "  -i, --input <FORMAT>     How files are read: markdown (default) or json\n" ++
  "  -m, --mode <MODE>        all (default), first, reject, filter or render\n" ++
  "  -o, --output <FORMAT>    How results are written: json (default), text or type\n" ++
  "      --max-depth <LEVELS> How many levels deep to search (default 512)\n" ++
  "      --var <NAME=VALUE>   Bind a variable of the selector; may be repeated\n" ++
  "  -q, --quiet              Write no results\n" ++
  "      --no-cascade         Keep parents whose children were all removed\n" ++
  "  -h, --help               Print help\n" ++
  "  -V, --version            Print version\n"

/-- What is wrong with some arguments, in words. -/
def ArgumentError.message : ArgumentError → String
  | invalidValue => "invalid or missing value for an option"
  | valueValidation => "invalid number for an option"
  | unknownArgument => "unexpected argument"
  | argumentConflict => "an option cannot be used more than once"
  | tooManyValues => "unexpected value for a flag"
  | missingRequiredArgument => "a selector is required"
  | displayHelp | displayVersion => ""

/-- The words for the kind of a failure of the system. -/
def failureKind : IO.Error → String
  | .noFileOrDirectory .. => "entity not found"
  | .permissionDenied .. => "permission denied"
  | .alreadyExists .. => "entity already exists"
  | .interrupted .. => "operation interrupted"
  | .unexpectedEof => "unexpected end of file"
  | .resourceVanished .. => "broken pipe"
  | .invalidArgument .. => "invalid input parameter"
  | _ => "other error"

/-- A failure of the system in its own words. -/
def failureMessage : IO.Error → String
  | .noFileOrDirectory .. => "No such file or directory"
  | .permissionDenied .. => "Permission denied"
  | e => toString e

/-- The result of an action of the system, or its failure. -/
def attemptAction {α : Type} (action : IO α) : IO (Except SystemFailure α) := do
  try return .ok (← action)
  catch e => return .error ⟨failureMessage e, failureKind e⟩

/-- Reads a stream to its end, behind the text read before. -/
partial def readStream (stream : IO.FS.Stream) (before : String) : IO String := do
  let line ← stream.getLine
  if line.isEmpty then return before else readStream stream (before ++ line)

/-- Reads one input. -/
def systemRead : Input → IO String
  | .stdin => do readStream (← IO.getStdin) ""
  | .file path => IO.FS.readFile path

/-- Writes a text. -/
def systemWrite (text : String) : IO Unit := do
  let stdout ← IO.getStdout
  stdout.putStr text
  stdout.flush

/-- Executes a program against the operating system. -/
def Program.execIO {β : Type} (portable : Bool) : Program β → IO β
  | done b => return b
  | read input next => do (next (← attemptAction (systemRead input))).execIO portable
  | write text next => do (next (← attemptAction (systemWrite text))).execIO portable
  | report e next => do
    IO.eprint (e.message portable)
    next.execIO portable

/-- Runs. The status tells whether anything matched. -/
def runOptions (o : RunOptions) : IO UInt32 := do
  let portable := ((← IO.getEnv "DOCSELECT_PORTABLE_ERRORS").getD "") != ""
  let found ← (o.perform .standard).execIO portable
  return if found then 0 else 1

/-- Runs the program on its arguments. -/
def runArguments (args : List String) : IO UInt32 := do
  match Arguments.parse args with
  | .error .displayHelp => do
    IO.print usageText
    return 0
  | .error .displayVersion => do
    IO.print versionText
    return 0
  | .error e => do
    IO.eprintln ("error: " ++ e.message)
    return 2
  | .ok a =>
    match a.conflict? with
    | some message => do
      IO.eprintln ("error: " ++ message)
      return 1
    | none => runOptions a.toOptions

end DocSelect

/-- Runs the program on the arguments of the command line. -/
def main (args : List String) : IO UInt32 := DocSelect.runArguments args
