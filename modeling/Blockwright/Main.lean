import Blockwright.Command.Run

/-!
# The command

Runs a command line on real files.
-/

namespace Blockwright.Command

/-- Whether a system's code for an error, of either sign, is a number. -/
def isCode (number code : UInt32) : Bool := code == number || code == 0 - number

/-- Why a real file cannot be used. -/
def faultOf : IO.Error → FileFault
  | .noFileOrDirectory .. => .missing
  | .inappropriateType _ code _ => if isCode 21 code then .folder else .notFolder
  | error@(.invalidArgument _ code _) =>
    if isCode 36 code then .nameTooLong else .other (toString error)
  | error => .other (toString error)

/-- The outcome of work on a real file. -/
def attempt {α : Type} (work : IO α) : IO (Except FileFault α) := do
  match ← work.toBaseIO with
  | .ok a => return .ok a
  | .error error => return .error (faultOf error)

/-- A run's host whose files are real. -/
def realHost : Host IO where
  readFile path := attempt (IO.FS.readBinFile path)
  writeFile path content := attempt (IO.FS.writeBinFile path content.toBytes)
  report line := IO.eprintln line

/-- How the command is used. -/
def usage : String :=
  "Convert pseudo-code into an App Inventor .aia project\n\n" ++
  "Usage: blockwright [OPTIONS] <INPUT>\n\n" ++
  "Arguments:\n" ++
  "  <INPUT>  Pseudo-code file (or IR JSON with --ir)\n\n" ++
  "Options:\n" ++
  "  -o, --output <OUTPUT>  Archive to write [default: <input stem>.aia]\n" ++
  "  -e, --extension <AIX>  Extension .aix file to bundle; may be repeated\n" ++
  "      --config <JSON>    JSON file overriding the built-in tables\n" ++
  "      --ir               Treat the input as a serialised IR document\n" ++
  "      --check            Parse and report diagnostics without writing an archive\n" ++
  "      --emit-ir <JSON>   Also write the parsed IR as JSON\n" ++
  "  -h, --help             Print help\n" ++
  "  -V, --version          Print version"

/-- The message of a refused command line, if it is an error. -/
def Refusal.message? : Refusal → Option String
  | missingInput => some "the following required arguments were not provided:\n  <INPUT>"
  | unknownArgument => some "unexpected argument found"
  | invalidValue => some "a value is required and none was supplied"
  | repeated => some "an argument cannot be used multiple times"
  | unexpectedValue => some "unexpected value for an option that takes none"
  | help | version => none

/-- The text of a cause. -/
def Cause.message : Cause → String
  | words text => text
  | failure cause => cause.message

/-- The account of why a run fails. -/
def RunFailure.account (failure : RunFailure) : String :=
  match failure.causes.map Cause.message with
  | [] => "Error"
  | [first] => "Error: " ++ first
  | first :: others =>
    "Error: " ++ first ++ "\n\nCaused by:\n" ++ "\n".intercalate (others.map ("    " ++ ·))

/-- Answers a command line that is not carried out. -/
def Refusal.answer (refusal : Refusal) : IO UInt32 := do
  match refusal.message? with
  | some message =>
    IO.eprintln ("error: " ++ message ++ "\n\n" ++ usage)
    return 2
  | none =>
    IO.println (if refusal = .version then "blockwright 0.1.0" else usage)
    return 0

/-- A number to start a supply of identifiers with. -/
def randomSeed : IO UInt64 := do
  let bytes ← IO.getRandomBytes 8
  return bytes.foldl (fun seed byte ↦ seed * 256 + byte.toUInt64) 0

/-- Carries out a command line; gives the status to end with. -/
def start (arguments : List String) : IO UInt32 := do
  match Options.read arguments with
  | .error refusal => refusal.answer
  | .ok options =>
    match ← (run realHost Supply.scrambled (← randomSeed) options).run with
    | .ok _ => return 0
    | .error failure =>
      IO.eprintln failure.account
      return 1

end Blockwright.Command

/-- The command. -/
def main (arguments : List String) : IO UInt32 := Blockwright.Command.start arguments
